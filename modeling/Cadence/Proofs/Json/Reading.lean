import Cadence.Proofs.Json.Scalars

namespace Cadence.Json
open Decimal Text

variable {text rest first last more behind next : List Char} {limit levels level fuel : Nat}
  {value : Value} {items : List Value} {members : List (String × Value)} {before : List (Value × Value)}

/-! ## What is read -/

variable [Host]

def FindsValue (levels : Nat) (text : List Char) : Except ReadError (Value × List Char) → Prop :=
  Finds (fun value rest => Spells wholeLimit levels (.value value) text rest)
    (Overruns wholeLimit levels .value text)

def FindsItems (levels : Nat) (text : List Char) :
    Except ReadError (List Value × List Char) → Prop :=
  Finds (fun items rest => ∃ last, Spells wholeLimit levels (.items items) text last ∧
    Gap last (']' :: rest)) (Overruns wholeLimit levels .items text)

def FindsMembers (levels : Nat) (before : List (Value × Value)) (text : List Char) :
    Except ReadError (Value × List Char) → Prop :=
  Finds (fun value rest => ∃ members last, value = .map (members.foldl Value.put before) ∧
    Spells wholeLimit levels (.members members) text last ∧ Gap last ('\x7d' :: rest))
    (Overruns wholeLimit levels .members text)

omit [Host] in
theorem gap_of_skipGaps (skipped : skipGaps text = rest) : Gap text rest := by
  rw [← skipped]
  exact gap_skipGaps text

theorem readValue_scalar (plain : ∀ more, text ≠ '[' :: more ∧ text ≠ '\x7b' :: more) :
    readValue level (fuel + 1) text = readScalar text := by
  unfold readValue
  split
  · next none => cases none
  · exact absurd rfl (plain _).1
  · exact absurd rfl (plain _).2
  · rfl

theorem readMembers_unquoted (unquoted : ∀ name, text ≠ '"' :: name) :
    readMembers level fuel text before = .error .malformed := by
  unfold readMembers
  split
  · exact absurd rfl (unquoted _)
  · rfl

theorem listValue_finds
    (itemsFound : ∀ {level levels text}, level + levels = Host.jsonLevels →
      FindsItems levels text (readItems level fuel text))
    (room : level + levels = Host.jsonLevels) :
    FindsValue levels ('[' :: rest) (readValue level (fuel + 1) ('[' :: rest)) := by
  rw [readValue]
  cases levels with
  | zero =>
      rw [if_pos (show Host.jsonLevels ≤ level by omega)]
      exact .listLevels rest
  | succ levels =>
      rw [if_neg (show ¬Host.jsonLevels ≤ level by omega)]
      split
      · next close => exact .noItems (gap_of_skipGaps close)
      · have found {text} : FindsItems levels text (readItems (level + 1) fuel text) :=
          itemsFound (by omega)
        refine found.map ?_ (.list (gap_skipGaps rest))
        rintro items behind ⟨last, inside, close⟩
        exact .list (gap_skipGaps rest) inside close

theorem mapValue_finds
    (membersFound : ∀ {level levels text before}, level + levels = Host.jsonLevels →
      FindsMembers levels before text (readMembers level fuel text before))
    (room : level + levels = Host.jsonLevels) :
    FindsValue levels ('\x7b' :: rest) (readValue level (fuel + 1) ('\x7b' :: rest)) := by
  rw [readValue]
  cases levels with
  | zero =>
      rw [if_pos (show Host.jsonLevels ≤ level by omega)]
      exact .mapLevels rest
  | succ levels =>
      rw [if_neg (show ¬Host.jsonLevels ≤ level by omega)]
      split
      · next close => exact .noMembers (gap_of_skipGaps close)
      · have found {text before} :
            FindsMembers levels before text (readMembers (level + 1) fuel text before) :=
          membersFound (by omega)
        refine found.imp ?_ (.map (gap_skipGaps rest))
        rintro value behind ⟨members, last, rfl, inside, close⟩
        exact .map (gap_skipGaps rest) inside close

theorem readValue_finds
    (itemsFound : ∀ {level levels text}, level + levels = Host.jsonLevels →
      FindsItems levels text (readItems level fuel text))
    (membersFound : ∀ {level levels text before}, level + levels = Host.jsonLevels →
      FindsMembers levels before text (readMembers level fuel text before))
    (room : level + levels = Host.jsonLevels) :
    FindsValue levels text (readValue level (fuel + 1) text) := by
  by_cases list : ∃ rest, text = '[' :: rest
  · obtain ⟨rest, rfl⟩ := list
    exact listValue_finds itemsFound room
  · by_cases map : ∃ rest, text = '\x7b' :: rest
    · obtain ⟨rest, rfl⟩ := map
      exact mapValue_finds membersFound room
    · rw [readValue_scalar fun more => ⟨fun same => list ⟨more, same⟩, fun same => map ⟨more, same⟩⟩]
      exact (readScalar_finds text).imp (fun _ _ => .scalar) id

theorem readItems_finds
    (valueFound : ∀ {text}, FindsValue levels text (readValue level fuel text))
    (itemsFound : ∀ {text}, FindsItems levels text (readItems level fuel text)) :
    FindsItems levels text (readItems level (fuel + 1) text) := by
  rw [readItems]
  refine valueFound.bind ?_ .item
  intro item rest first
  dsimp only
  split
  · next close => exact ⟨rest, .item first, gap_of_skipGaps close⟩
  · next after comma =>
      have comma := gap_of_skipGaps comma
      refine itemsFound.bind ?_ (.items first comma (gap_skipGaps after))
      rintro items behind ⟨last, others, close⟩
      exact ⟨last, .items first comma (gap_skipGaps after) others, close⟩
  · trivial

theorem readMembers_finds
    (valueFound : ∀ {text}, FindsValue levels text (readValue level fuel text))
    (membersFound : ∀ {text before}, FindsMembers levels before text (readMembers level fuel text before)) :
    FindsMembers levels before text (readMembers level (fuel + 1) text before) := by
  by_cases quote : ∃ name, text = '"' :: name
  · obtain ⟨text, rfl⟩ := quote
    rw [readMembers]
    refine (readText_finds text False).bind ?_ False.elim
    rintro _ rest ⟨units, name, rfl⟩
    dsimp only
    split
    · next after colon =>
        have colon := gap_of_skipGaps colon
        refine valueFound.bind ?_ (Overruns.member name colon (gap_skipGaps after))
        intro value rest spelled
        have first := Spells.member name colon (gap_skipGaps after) spelled
        dsimp only
        split
        · next close => exact ⟨[_], rest, rfl, .lastMember first, gap_of_skipGaps close⟩
        · next after comma =>
            have comma := gap_of_skipGaps comma
            refine membersFound.imp ?_ (.members first comma (gap_skipGaps after))
            rintro value behind ⟨members, last, rfl, others, close⟩
            exact ⟨_ :: members, last, rfl, .members first comma (gap_skipGaps after) others, close⟩
        · trivial
    · trivial
  · rw [readMembers_unquoted fun name same => quote ⟨name, same⟩]
    trivial

theorem readers_find (fuel : Nat) :
    (∀ {level levels text}, level + levels = Host.jsonLevels →
      FindsValue levels text (readValue level fuel text)) ∧
    (∀ {level levels text}, level + levels = Host.jsonLevels →
      FindsItems levels text (readItems level fuel text)) ∧
    (∀ {level levels text before}, level + levels = Host.jsonLevels →
      FindsMembers levels before text (readMembers level fuel text before)) := by
  induction fuel with
  | zero => refine ⟨fun _ => ?_, fun _ => ?_, fun _ => ?_⟩ <;> simp [readValue, readItems, readMembers, FindsValue, FindsItems, FindsMembers]
  | succ fuel ih =>
      obtain ⟨valueFound, itemsFound, membersFound⟩ := ih
      exact ⟨readValue_finds itemsFound membersFound,
        fun room => readItems_finds (valueFound room) (itemsFound room),
        fun room => readMembers_finds (valueFound room) (membersFound room)⟩

/-! ## What is spelled -/

theorem Spells.length {part : Part} (spells : Spells limit levels part text rest) :
    rest.length < text.length := by
  induction spells with
  | scalar scalar => exact scalar.length
  | noItems gap | noMembers gap =>
      have inner := gap.length
      simp only [List.length_cons] at inner ⊢
      omega
  | list gap _ close ih | map gap _ close ih =>
      have outer := gap.length
      have inner := close.length
      simp only [List.length_cons] at inner ⊢
      omega
  | item _ ih | lastMember _ ih => exact ih
  | items _ comma gap _ first others | members _ comma gap _ first others =>
      have before := comma.length
      have after := gap.length
      simp only [List.length_cons] at before
      omega
  | member name colon gap _ ih =>
      have named := name.length
      have before := colon.length
      have after := gap.length
      simp only [List.length_cons] at before ⊢
      omega

omit [Host] in
theorem begins_quote (text : List Char) : Begins ('"' :: text) := ⟨_, _, rfl, by decide, by decide⟩

theorem Spells.begins {part : Part} (spells : Spells limit levels part text rest) : Begins text := by
  induction spells with
  | scalar scalar => exact scalar.plain.1
  | noItems | noMembers | list | map => exact ⟨_, _, rfl, by decide, by decide⟩
  | item _ ih | lastMember _ ih | items _ _ _ _ ih | members _ _ _ _ ih => exact ih
  | member => exact begins_quote _

theorem Spells.quoted {name : String} (spells : Spells limit levels (.member name value) text rest) :
    ∃ more, text = '"' :: more := by
  cases spells
  exact ⟨_, rfl⟩

theorem Spells.membersQuoted (spells : Spells limit levels (.members members) text rest) :
    ∃ more, text = '"' :: more := by
  cases spells with
  | lastMember only => exact only.quoted
  | members first => exact first.quoted

omit [Host] in
theorem Gap.closed {c : Char} (gap : Gap text (c :: rest)) (solid : isGap c = false) :
    skipGaps text = c :: rest := by
  apply gap.skipped
  intro d head
  obtain rfl := Option.some.inj head
  exact solid

omit [Host] in
theorem bind_ok {ε α β : Type} {x : α} {next : α → Except ε β} : (Except.ok x >>= next) = next x := rfl

def afterMember (level fuel : Nat) (before : List (Value × Value)) (text : List Char) :
    Except ReadError (Value × List Char) :=
  match skipGaps text with
  | '\x7d' :: after => .ok (.map before, after)
  | ',' :: after => readMembers level fuel (skipGaps after) before
  | _ => .error .malformed

theorem readMembers_member {units : List Nat} (name : Quoted units text more)
    (colon : skipGaps more = ':' :: behind) :
    readMembers level (fuel + 1) ('"' :: text) before =
      readValue level fuel (skipGaps behind) >>= fun read =>
        afterMember level fuel (Value.put before (String.ofList (joinUnits units), read.1)) read.2 := by
  rw [readMembers, name.reads, bind_ok]
  dsimp only
  rw [colon]
  rfl

theorem readValue_list {c : Char} (free : level < Host.jsonLevels) (solid : c ≠ ']')
    (inside : skipGaps text = c :: more) : readValue level (fuel + 1) ('[' :: text) =
      (readItems (level + 1) fuel (c :: more)).map fun read => (.list read.1, read.2) := by
  rw [readValue, if_neg (Nat.not_le.mpr free), inside]
  split
  · next close => exact absurd (List.cons.inj close).1 solid
  · rfl

theorem readValue_map {c : Char} (free : level < Host.jsonLevels) (solid : c ≠ '\x7d')
    (inside : skipGaps text = c :: more) : readValue level (fuel + 1) ('\x7b' :: text) =
      readMembers (level + 1) fuel (c :: more) [] := by
  rw [readValue, if_neg (Nat.not_le.mpr free), inside]
  split
  · next close => exact absurd (List.cons.inj close).1 solid
  · rfl

/-- What the readers do with a part that is spelled. Each level of nesting takes two steps. -/
def Part.Read (limit levels : Nat) : Part → List Char → List Char → Prop
  | .value value, text, rest => ∀ level fuel, Follows rest → 2 * text.length ≤ fuel →
      Yields (limit ≤ wholeLimit ∧ level + levels ≤ Host.jsonLevels) (readValue level fuel text)
        (.ok (value, rest))
  | .items items, text, last => ∀ level fuel rest, Gap last (']' :: rest) → 2 * text.length < fuel →
      Yields (limit ≤ wholeLimit ∧ level + levels ≤ Host.jsonLevels) (readItems level fuel text)
        (.ok (items, rest))
  | .member name value, text, rest => ∀ level fuel before, Follows rest → 2 * text.length ≤ fuel →
      Yields (limit ≤ wholeLimit ∧ level + levels ≤ Host.jsonLevels)
        (readMembers level (fuel + 1) text before)
        (afterMember level fuel (Value.put before (name, value)) rest)
  | .members members, text, last => ∀ level fuel before rest, Gap last ('\x7d' :: rest) →
      2 * text.length < fuel →
      Yields (limit ≤ wholeLimit ∧ level + levels ≤ Host.jsonLevels)
        (readMembers level fuel text before)
        (.ok (.map (members.foldl Value.put before), rest))

theorem yields_opening {c : Char} {kept : Prop} {expected : Except ReadError (Value × List Char)}
    (opens : c = '[' ∨ c = '\x7b') (room : kept → level < Host.jsonLevels)
    (free : level < Host.jsonLevels → Yields kept (readValue level (fuel + 1) (c :: text)) expected) :
    Yields kept (readValue level (fuel + 1) (c :: text)) expected := by
  by_cases full : Host.jsonLevels ≤ level
  · have passed : ¬kept := fun holds => Nat.not_lt.mpr full (room holds)
    rcases opens with rfl | rfl <;> rw [readValue, if_pos full] <;> exact .of_beyond passed
  · exact free (Nat.not_le.mp full)

theorem Spells.read {part : Part} (spells : Spells limit levels part text rest) :
    part.Read limit levels text rest := by
  -- Each level of nesting takes two steps, one for the value and one for what is inside.
  induction spells with
  | scalar scalar =>
      intro level fuel follows enough
      have present := scalar.length
      obtain ⟨fuel, rfl⟩ := Nat.exists_eq_succ_of_ne_zero (show fuel ≠ 0 by omega)
      rw [readValue_scalar scalar.plain.2]
      exact (scalar.reads follows).weaken And.left
  | noItems gap =>
      intro level fuel _ enough
      rw [List.length_cons] at enough
      obtain ⟨fuel, rfl⟩ := Nat.exists_eq_succ_of_ne_zero (show fuel ≠ 0 by omega)
      refine yields_opening (.inl rfl) (fun kept => by omega) fun free => .of_eq ?_
      rw [readValue, if_neg (Nat.not_le.mpr free), gap.closed (by decide)]
      rfl
  | list gap inside close ih =>
      intro level fuel _ enough
      rw [List.length_cons] at enough
      obtain ⟨fuel, rfl⟩ := Nat.exists_eq_succ_of_ne_zero (show fuel ≠ 0 by omega)
      refine yields_opening (.inl rfl) (fun kept => by omega) fun free => ?_
      have shorter := gap.length
      have skipped := inside.begins.skipped gap
      obtain ⟨c, more, rfl, -, solid⟩ := inside.begins
      rw [readValue_list free solid skipped]
      exact ((ih (level + 1) fuel _ close (by omega)).weaken fun kept => ⟨kept.1, by omega⟩).map
  | noMembers gap =>
      intro level fuel _ enough
      rw [List.length_cons] at enough
      obtain ⟨fuel, rfl⟩ := Nat.exists_eq_succ_of_ne_zero (show fuel ≠ 0 by omega)
      refine yields_opening (.inr rfl) (fun kept => by omega) fun free => .of_eq ?_
      rw [readValue, if_neg (Nat.not_le.mpr free), gap.closed (by decide)]
      rfl
  | map gap inside close ih =>
      intro level fuel _ enough
      rw [List.length_cons] at enough
      obtain ⟨fuel, rfl⟩ := Nat.exists_eq_succ_of_ne_zero (show fuel ≠ 0 by omega)
      refine yields_opening (.inr rfl) (fun kept => by omega) fun free => ?_
      have shorter := gap.length
      have skipped := inside.begins.skipped gap
      obtain ⟨more, rfl⟩ := inside.membersQuoted
      rw [readValue_map free (by decide) skipped]
      exact (ih (level + 1) fuel [] _ close (by omega)).weaken fun kept => ⟨kept.1, by omega⟩
  | item only ih =>
      intro level fuel rest close enough
      obtain ⟨fuel, rfl⟩ := Nat.exists_eq_succ_of_ne_zero (show fuel ≠ 0 by omega)
      rw [readItems]
      refine (ih level fuel (close.follows (follows_char (by simp) rest)) (by omega)).bind ?_
      dsimp only
      rw [close.closed (by decide)]
      exact .of_eq rfl
  | items first comma gap others ihFirst ihOthers =>
      intro level fuel rest close enough
      obtain ⟨fuel, rfl⟩ := Nat.exists_eq_succ_of_ne_zero (show fuel ≠ 0 by omega)
      have shorter := first.length
      have before := comma.length
      have after := gap.length
      rw [List.length_cons] at before
      rw [readItems]
      refine (ihFirst level fuel (comma.follows (follows_char (by simp) _)) (by omega)).bind ?_
      dsimp only
      rw [comma.closed (by decide)]
      show Yields _ (readItems level fuel (skipGaps _) >>= _) _
      rw [others.begins.skipped gap]
      exact (ihOthers level fuel rest close (by omega)).bind (.of_eq rfl)
  | member name colon gap spelled ih =>
      intro level fuel before follows enough
      have shorter := name.length
      have ahead := colon.length
      have after := gap.length
      simp only [List.length_cons] at ahead enough
      rw [readMembers_member name (colon.closed (by decide)), spelled.begins.skipped gap]
      exact (ih level fuel follows (by omega)).bind (.of_eq rfl)
  | lastMember only ih =>
      intro level fuel before rest close enough
      obtain ⟨fuel, rfl⟩ := Nat.exists_eq_succ_of_ne_zero (show fuel ≠ 0 by omega)
      have read := ih level fuel before (close.follows (follows_char (by simp) rest)) (by omega)
      rw [afterMember, close.closed (by decide)] at read
      exact read
  | members first comma gap others ihFirst ihOthers =>
      intro level fuel before rest close enough
      obtain ⟨fuel, rfl⟩ := Nat.exists_eq_succ_of_ne_zero (show fuel ≠ 0 by omega)
      have shorter := first.length
      have ahead := comma.length
      have after := gap.length
      rw [List.length_cons] at ahead
      have read := ihFirst level fuel before (comma.follows (follows_char (by simp) _)) (by omega)
      rw [afterMember, comma.closed (by decide)] at read
      change Yields _ _ (readMembers level fuel (skipGaps _) _) at read
      rw [others.begins.skipped gap] at read
      exact read.trans (ihOthers level fuel _ rest close (by omega))

/-! ## What is given up -/

theorem Overruns.begins {kind : Kind} (overruns : Overruns limit levels kind text) : Begins text := by
  induction overruns with
  | digits minus whole => exact (minus.plain whole).1
  | listLevels | mapLevels | list | map => exact ⟨_, _, rfl, by decide, by decide⟩
  | item _ ih => exact ih
  | member => exact begins_quote _
  | items first | members first => exact first.begins

theorem Overruns.quoted (overruns : Overruns limit levels .members text) : ∃ more, text = '"' :: more := by
  cases overruns with
  | member => exact ⟨_, rfl⟩
  | members first => exact first.quoted

theorem Overruns.length {kind : Kind} (overruns : Overruns limit levels kind text) :
    limit < text.length ∨ levels < text.length := by
  induction overruns with
  | digits minus whole _ long =>
      have unsigned := minus.length
      have spelled := whole.length
      omega
  | listLevels | mapLevels => exact .inr (Nat.succ_pos _)
  | list gap _ ih | map gap _ ih =>
      have shorter := gap.length
      simp only [List.length_cons]
      omega
  | item _ ih => exact ih
  | items first comma gap _ ih | members first comma gap _ ih =>
      have shorter := first.length
      have ahead := comma.length
      have after := gap.length
      rw [List.length_cons] at ahead
      omega
  | member name colon gap _ ih =>
      have shorter := name.length
      have ahead := colon.length
      have after := gap.length
      simp only [List.length_cons] at ahead ⊢
      omega

def GivesUp {α : Type} (result : Except ReadError α) : Prop :=
  ∃ excess, result = .error (.beyond excess)

omit [Host] in
theorem GivesUp.bind {α β : Type} {result : Except ReadError α} (givesUp : GivesUp result)
    (f : α → Except ReadError β) : GivesUp (result >>= f) := by
  obtain ⟨excess, rfl⟩ := givesUp
  exact ⟨excess, rfl⟩

omit [Host] in
theorem GivesUp.map {α β : Type} {result : Except ReadError α} (givesUp : GivesUp result)
    (f : α → β) : GivesUp (result.map f) := by
  obtain ⟨excess, rfl⟩ := givesUp
  exact ⟨excess, rfl⟩

def Kind.GivenUp (levels : Nat) : Kind → List Char → Prop
  | .value, text => ∀ level fuel, level + levels = Host.jsonLevels → 2 * text.length ≤ fuel →
      GivesUp (readValue level fuel text)
  | .items, text => ∀ level fuel, level + levels = Host.jsonLevels → 2 * text.length < fuel →
      GivesUp (readItems level fuel text)
  | .members, text => ∀ level fuel before,
      level + levels = Host.jsonLevels → 2 * text.length < fuel →
      GivesUp (readMembers level fuel text before)

theorem Overruns.givenUp {kind : Kind} (overruns : Overruns wholeLimit levels kind text) :
    kind.GivenUp levels text := by
  -- What stands before the excess is well spelled, so that the readers get to it.
  induction overruns with
  | @digits levels negative digits text unsigned rest minus whole alone long =>
      intro level fuel _ enough
      have plain := minus.plain whole
      obtain ⟨c, more, rfl, -⟩ := plain.1
      rw [List.length_cons] at enough
      obtain ⟨fuel, rfl⟩ := Nat.exists_eq_succ_of_ne_zero (show fuel ≠ 0 by omega)
      rw [readValue_scalar plain.2, minus.takes whole]
      have isWhole : Literal.isWhole ⟨negative, digits, none, none⟩ = true := rfl
      exact ⟨.digits (.read digits.length), by
        simp [readNumber, whole.takes alone.noDigit, alone.noPoint, alone.noMark, whole.present, isWhole,
          wholeOfDigits, long]⟩
  | listLevels text | mapLevels text =>
      intro level fuel room enough
      rw [List.length_cons] at enough
      obtain ⟨fuel, rfl⟩ := Nat.exists_eq_succ_of_ne_zero (show fuel ≠ 0 by omega)
      rw [readValue, if_pos (show Host.jsonLevels ≤ level by omega)]
      exact ⟨_, rfl⟩
  | list gap inside ih =>
      intro level fuel room enough
      rw [List.length_cons] at enough
      obtain ⟨fuel, rfl⟩ := Nat.exists_eq_succ_of_ne_zero (show fuel ≠ 0 by omega)
      have shorter := gap.length
      have skipped := inside.begins.skipped gap
      obtain ⟨c, more, rfl, -, solid⟩ := inside.begins
      rw [readValue_list (show level < Host.jsonLevels by omega) solid skipped]
      exact (ih (level + 1) fuel (by omega) (by omega)).map _
  | map gap inside ih =>
      intro level fuel room enough
      rw [List.length_cons] at enough
      obtain ⟨fuel, rfl⟩ := Nat.exists_eq_succ_of_ne_zero (show fuel ≠ 0 by omega)
      have shorter := gap.length
      have skipped := inside.begins.skipped gap
      obtain ⟨more, rfl⟩ := inside.quoted
      rw [readValue_map (show level < Host.jsonLevels by omega) (by decide) skipped]
      exact ih (level + 1) fuel [] (by omega) (by omega)
  | item _ ih =>
      intro level fuel room enough
      obtain ⟨fuel, rfl⟩ := Nat.exists_eq_succ_of_ne_zero (show fuel ≠ 0 by omega)
      rw [readItems]
      exact (ih level fuel room (by omega)).bind _
  | items first comma gap later ih =>
      intro level fuel room enough
      obtain ⟨fuel, rfl⟩ := Nat.exists_eq_succ_of_ne_zero (show fuel ≠ 0 by omega)
      have shorter := first.length
      have ahead := comma.length
      have after := gap.length
      rw [List.length_cons] at ahead
      have read := (first.read level fuel (comma.follows (follows_char (by simp) _)) (by omega)).within
        ⟨Nat.le_refl _, by omega⟩
      rw [readItems, read, bind_ok]
      dsimp only
      rw [comma.closed (by decide)]
      show GivesUp (readItems level fuel (skipGaps _) >>= _)
      rw [later.begins.skipped gap]
      exact (ih level fuel room (by omega)).bind _
  | member name colon gap here ih =>
      intro level fuel before room enough
      obtain ⟨fuel, rfl⟩ := Nat.exists_eq_succ_of_ne_zero (show fuel ≠ 0 by omega)
      have shorter := name.length
      have ahead := colon.length
      have after := gap.length
      simp only [List.length_cons] at ahead enough
      rw [readMembers_member name (colon.closed (by decide)), here.begins.skipped gap]
      exact (ih level fuel room (by omega)).bind _
  | members first comma gap later ih =>
      intro level fuel before room enough
      obtain ⟨fuel, rfl⟩ := Nat.exists_eq_succ_of_ne_zero (show fuel ≠ 0 by omega)
      have shorter := first.length
      have ahead := comma.length
      have after := gap.length
      rw [List.length_cons] at ahead
      have read := (first.read level fuel before (comma.follows (follows_char (by simp) _))
        (by omega)).within ⟨Nat.le_refl _, by omega⟩
      rw [read, afterMember, comma.closed (by decide)]
      show GivesUp (readMembers level fuel (skipGaps _) _)
      rw [later.begins.skipped gap]
      exact ih level fuel _ room (by omega)

/-! ## Whole texts -/

omit [Host] in
theorem gap_nil_iff : Gap text [] ↔ skipGaps text = [] :=
  ⟨fun gap => gap.skipped nofun, gap_of_skipGaps⟩

theorem read_cases (text : String) :
    (∃ value, read text = .ok value ∧ Document wholeLimit Host.jsonLevels value text.toList) ∨
      GivesUp (read text) ∧ Overlong wholeLimit Host.jsonLevels text.toList ∨
      read text = .error .malformed := by
  have found : FindsValue Host.jsonLevels (skipGaps text.toList)
      (readValue 0 (2 * text.toList.length + 2) (skipGaps text.toList)) :=
    (readers_find _).1 (Nat.zero_add _)
  simp only [read]
  generalize readValue 0 (2 * text.toList.length + 2) (skipGaps text.toList) = result at found ⊢
  match result, found with
  | .error .malformed, _ => exact .inr (.inr rfl)
  | .error (.beyond excess), overruns =>
      exact .inr (.inl ⟨⟨excess, rfl⟩, _, gap_skipGaps _, overruns⟩)
  | .ok (value, rest), spells =>
      by_cases ended : skipGaps rest = []
      · refine .inl ⟨value, ?_, _, rest, gap_skipGaps _, spells, gap_nil_iff.mpr ended⟩
        show (if (skipGaps rest).isEmpty = true then _ else _) = _
        rw [ended]
        rfl
      · refine .inr (.inr ?_)
        show (if (skipGaps rest).isEmpty = true then _ else _) = _
        rw [if_neg (by simpa using ended)]

theorem Document.read {text : String} (document : Document limit levels value text.toList) :
    Yields (limit ≤ wholeLimit ∧ levels ≤ Host.jsonLevels) (read text) (.ok value) := by
  obtain ⟨first, last, gap, spells, close⟩ := document
  have shorter := gap.length
  have follows : Follows last := close.follows nofun
  simp only [Json.read]
  rw [spells.begins.skipped gap]
  refine ((spells.read 0 _ follows (by omega)).weaken (by simp)).bind (.of_eq ?_)
  simp only [gap_nil_iff.mp close]
  rfl

theorem Overlong.read {text : String} (overlong : Overlong wholeLimit Host.jsonLevels text.toList) :
    GivesUp (read text) := by
  obtain ⟨first, gap, overruns⟩ := overlong
  have shorter := gap.length
  simp only [Json.read]
  rw [overruns.begins.skipped gap]
  exact (overruns.givenUp 0 _ (Nat.zero_add _) (by omega)).bind _

theorem read_eq_ok {text : String} :
    read text = .ok value ↔ Document wholeLimit Host.jsonLevels value text.toList := by
  constructor
  · intro same
    rcases read_cases text with ⟨other, read, document⟩ | ⟨⟨_, beyond⟩, -⟩ | malformed
    · obtain rfl := Except.ok.inj (same.symm.trans read)
      exact document
    · cases same.symm.trans beyond
    · cases same.symm.trans malformed
  · exact fun document => document.read.within ⟨Nat.le_refl _, Nat.le_refl _⟩

theorem read_givesUp {text : String} :
    GivesUp (read text) ↔ Overlong wholeLimit Host.jsonLevels text.toList := by
  constructor
  · rintro ⟨excess, same⟩
    rcases read_cases text with ⟨_, read, -⟩ | ⟨-, overlong⟩ | malformed
    · cases same.symm.trans read
    · exact overlong
    · cases same.symm.trans malformed
  · exact Overlong.read

theorem Document.distinct (document : Document limit levels (.map before) text) :
    Value.Distinct before := by
  obtain ⟨first, last, -, spells, -⟩ := document
  generalize same : Part.value (.map before) = part at spells
  cases spells with
  | scalar scalar =>
      cases same
      cases scalar with
      | word known => simp [words] at known
  | noMembers =>
      cases same
      exact .nil
  | map =>
      cases same
      exact Value.distinct_collect _
  | _ => cases same

end Cadence.Json
