import Cadence.Proofs.Path.Carried
import Cadence.Proofs.Path.Patterns
import Cadence.Proofs.Text.Parts

namespace Cadence
open Cadence.Path

def Trigger.values (trigger : Trigger) : List Value := trigger.on.toList

def Drive.values (drive : Drive) : List Value := drive.on :: drive.off.toList

def Drive.same (a b : Drive) : Bool :=
  a.path = b.path && a.on.same b.on && sameOption a.off b.off

end Cadence

namespace Cadence.Path
open Decimal Text

variable {path : String} {values : List (List Char)} {text : Option String} {trigger : Trigger}
  {drive : Drive} {state on off : List Char} {value onValue offValue : Value}

/-! ## Parts -/

structure Parts (path : String) (values : List (List Char)) : Prop where
  valid : isPath path.toList = true
  plain : ∀ value ∈ values, value ≠ [] ∧ ':' ∉ value
  closes : ∀ last, values.getLast? = some last → Closes last

theorem alphanum_bounds {c : Char} (alphanum : c.isAlphanum = true) :
    0x30 ≤ c.toNat ∧ c.toNat < 0x7f ∧ c.toNat ≠ 0x3a := by
  have kinds : ((c.isUpper || c.isLower) || c.isDigit) = true := alphanum
  simp only [Bool.or_eq_true] at kinds
  rcases kinds with (upper | lower) | digit
  · have bounds : 0x41 ≤ c.toNat ∧ c.toNat ≤ 0x5a := of_decide_eq_true upper
    omega
  · have bounds : 0x61 ≤ c.toNat ∧ c.toNat ≤ 0x7a := by
      obtain ⟨low, high⟩ := Bool.and_eq_true_iff.mp lower
      exact ⟨of_decide_eq_true low, of_decide_eq_true high⟩
    omega
  · have bounds := isDigit_bounds digit
    omega

theorem graphic_of_isNameChar {c : Char} (name : isNameChar c = true) :
    0x20 < c.toNat ∧ c.toNat < 0x7f ∧ c ≠ ':' := by
  simp only [isNameChar, Bool.or_eq_true, decide_eq_true_eq] at name
  rcases name with (alphanum | rfl) | rfl
  · obtain ⟨low, high, different⟩ := alphanum_bounds alphanum
    refine ⟨by omega, high, ?_⟩
    rintro rfl
    exact different rfl
  all_goals decide

theorem graphic_of_isPath {row : List Char} (valid : isPath row = true) {c : Char}
    (member : c ∈ row) : 0x20 < c.toNat ∧ c.toNat < 0x7f ∧ c ≠ ':' := by
  have inName : c = '.' ∨ ∃ name ∈ fields '.' row, c ∈ name := mem_fields member
  rcases inName with rfl | ⟨name, among, inside⟩
  · decide
  · have named := List.all_eq_true.mp valid name among
    simp only [Bool.and_eq_true, List.all_eq_true] at named
    exact graphic_of_isNameChar (named.2 c inside)

theorem isBlank_of_isPath {row : List Char} (valid : isPath row = true) {c : Char}
    (member : c ∈ row) : isBlank c = false := by
  obtain ⟨low, high, -⟩ := graphic_of_isPath valid member
  exact isBlank_of_graphic low high

theorem isPath_ne_nil {row : List Char} (valid : isPath row = true) : row ≠ [] := by
  rintro rfl
  cases valid

theorem parts?_iff {chars : List Char} : parts? chars = some (path, values) ↔
    isPath path.toList = true ∧ (∀ value ∈ values, value ≠ [] ∧ ':' ∉ value) ∧
      chars = join ':' path.toList values := by
  constructor
  · intro found
    unfold parts? at found
    split at found
    · cases found
    · next first others cut =>
        split at found
        · next valid =>
            obtain ⟨rfl, rfl⟩ := Prod.mk.inj (Option.some.inj found)
            simp only [Bool.and_eq_true, List.all_eq_true] at valid
            obtain ⟨joined, single⟩ := join_fields cut
            rw [String.toList_ofList]
            refine ⟨valid.1, fun value among => ⟨?_, ?_⟩, joined⟩
            · simpa using valid.2 value among
            · exact single value (List.mem_cons_of_mem _ among)
        · cases found
  · rintro ⟨valid, plain, rfl⟩
    have single : ':' ∉ path.toList := fun member => (graphic_of_isPath valid member).2.2 rfl
    have cut := fields_join single fun value among => (plain value among).2
    have present : values.all (!·.isEmpty) = true := by
      rw [List.all_eq_true]
      intro value among
      simpa using (plain value among).1
    simp only [parts?, cut, valid, present, Bool.and_self, if_true, String.ofList_toList]

theorem parts_of_text (found : partsOf? text = some (path, values)) : Parts path values := by
  obtain ⟨valid, plain, joined⟩ := parts?_iff.mp found
  refine ⟨valid, plain, ?_⟩
  intro last final c closing
  -- The trimmed text ends like its last value.
  obtain ⟨before, rfl⟩ := List.getLast?_eq_some_iff.mp final
  have same : (join ':' path.toList (before ++ [last])).getLast? = last.getLast? :=
    getLast?_join (plain last (by simp)).1 before
  rw [← same, ← joined] at closing
  exact trim_last closing

def written (path : String) (values : List (List Char)) : String :=
  String.ofList (join ':' path.toList values)

theorem partsOf?_written (parts : Parts path values) :
    partsOf? (some (written path values)) = some (path, values) := by
  have starts : ∀ c, (join ':' path.toList values).head? = some c → isBlank c = false := by
    intro c head
    obtain ⟨first, rest, whole⟩ := List.exists_cons_of_ne_nil (isPath_ne_nil parts.valid)
    have inside : c ∈ path.toList := by
      rw [join, whole, List.cons_append, List.head?_cons] at head
      simp [whole, Option.some.inj head]
    exact isBlank_of_isPath parts.valid inside
  have ends : ∀ c, (join ':' path.toList values).getLast? = some c → isBlank c = false := by
    intro c last
    rcases List.eq_nil_or_concat values with rfl | ⟨before, final, rfl⟩
    · exact isBlank_of_isPath parts.valid (List.mem_of_getLast? (by simpa [join] using last))
    · rw [List.concat_eq_append] at parts last
      have present := (parts.plain final (by simp)).1
      rw [getLast?_join present] at last
      exact parts.closes final (by simp) c last
  refine parts?_iff.mpr ⟨parts.valid, parts.plain, ?_⟩
  rw [Option.getD_some, written, String.toList_ofList, trim_eq_self starts ends]

theorem Parts.carries (parts : Parts path values) {state : List Char} (member : state ∈ values)
    {kind : Kind} (read : readValue kind state = .ok value) : Carries kind state value :=
  ⟨(parts.plain state member).1, (parts.plain state member).2, read⟩

theorem parts_one (valid : isPath path.toList = true) {kind : Kind}
    (carries : Carries kind state value) (closes : Closes state) : Parts path [state] where
  valid := valid
  plain text member := by
    obtain rfl := List.mem_singleton.mp member
    exact ⟨carries.present, carries.single⟩
  closes := by
    rintro _ ⟨⟩
    exact closes

theorem parts_two (valid : isPath path.toList = true) {kind : Kind}
    (carries : Carries kind on onValue) (carriesOff : Carries kind off offValue)
    (closes : Closes off) : Parts path [on, off] where
  valid := valid
  plain text member := by
    rcases List.mem_pair.mp member with rfl | rfl
    · exact ⟨carries.present, carries.single⟩
    · exact ⟨carriesOff.present, carriesOff.single⟩
  closes := by
    rintro _ ⟨⟩
    exact closes

/-! ## Control paths -/

inductive Controls : Trigger → Prop
  | any (path : String) (valid : isPath path.toList = true) (kind : Kind.of path = .notification) :
      Controls ⟨.notification, path, none⟩
  | state (path : String) (text : List Char) (value : Value) (valid : isPath path.toList = true)
      (carries : Carries (Kind.of path) text value) (closes : Closes text) :
      Controls ⟨Kind.of path, path, some value⟩

theorem readControl_state (found : partsOf? text = some (path, [state])) :
    readControl text = ((readValue (Kind.of path) state).mapError ReadError.oversize).map
      fun value => ⟨Kind.of path, path, some value⟩ := by
  simp only [readControl_eq, found]
  cases Kind.of path with
  | notification => rfl
  | switch =>
      simp only [readValue, scalarValue]
      cases scalar state <;> rfl

theorem readControl_controls (read : readControl text = .ok trigger) : Controls trigger := by
  cases found : partsOf? text with
  | none => simp [readControl_eq, found] at read
  | some cut =>
    obtain ⟨path, values⟩ := cut
    have parts := parts_of_text found
    match values, found, parts with
    | [], found, parts =>
        simp only [readControl_eq, found] at read
        cases kind : Kind.of path with
        | notification =>
            rw [kind] at read
            obtain rfl := Except.ok.inj read
            exact .any path parts.valid kind
        | switch =>
            rw [kind] at read
            obtain rfl := Except.ok.inj read
            rw [← kind]
            refine .state path ['1'] (.whole 1) parts.valid ?_ ?_
            · rw [kind]
              exact ⟨by simp, by decide, rfl⟩
            · rintro c ⟨⟩
              rfl
    | [state], found, parts =>
        rw [readControl_state found] at read
        cases value : readValue (Kind.of path) state with
        | error cause => simp [value, Except.mapError, Except.map] at read
        | ok found =>
            rw [value] at read
            obtain rfl := Except.ok.inj read
            exact .state path state found parts.valid (parts.carries (by simp) value)
              (parts.closes state rfl)
    | _ :: _ :: _, found, parts => simp [readControl_eq, found] at read

theorem written_nil (path : String) : written path [] = path := by
  simp [written, join]

theorem written_one (path state : String) : written path [state.toList] = path ++ ":" ++ state := by
  apply String.toList_inj.mp
  simp [written, join]

theorem written_two (path on off : String) :
    written path [on.toList, off.toList] = path ++ ":" ++ on ++ ":" ++ off := by
  apply String.toList_inj.mp
  simp [written, join]

theorem control_rewritten [Host] {written : String} {again : Value}
    (valid : isPath path.toList = true)
    (closes : Closes state) (rewrites : Rewrites (Kind.of path) state value written again) :
    Trigger.write ⟨Kind.of path, path, some value⟩ = .ok (path ++ ":" ++ written) ∧
      readControl (some (path ++ ":" ++ written)) = .ok ⟨Kind.of path, path, some again⟩ := by
  have parts := parts_one valid rewrites.carries (rewrites.closes closes)
  constructor
  · simp [Trigger.write, rewrites.plain, Except.map]
  · rw [← written_one, readControl_state (partsOf?_written parts), rewrites.carries.read]
    rfl

theorem readControl_any (valid : isPath path.toList = true) (kind : Kind.of path = .notification) :
    readControl (some path) = .ok ⟨.notification, path, none⟩ := by
  have found : partsOf? (some (written path [])) = some (path, []) :=
    partsOf?_written ⟨valid, nofun, nofun⟩
  rw [written_nil] at found
  simp [readControl_eq, found, kind]

theorem control_again [Host] (controls : Controls trigger)
    (back : ∀ value ∈ trigger.values, value.ReadsBack) :
    ∃ text again, trigger.write = .ok text ∧ readControl (some text) = .ok again ∧
      (again.same trigger = true ↔ ∀ value ∈ trigger.values, value.Finite) := by
  cases controls with
  | any path valid kind =>
      refine ⟨path, ⟨.notification, path, none⟩, rfl, readControl_any valid kind, ?_⟩
      simp [Trigger.same, Trigger.values, sameOption]
  | state path state value valid carries closes =>
      obtain ⟨text, again, result⟩ := carries.again (back value (by simp [Trigger.values]))
      obtain ⟨wrote, read⟩ := control_rewritten valid closes result.toRewrites
      refine ⟨_, _, wrote, read, ?_⟩
      simpa [Trigger.same, Trigger.values, sameOption] using result.same

/-! ## Activity paths -/

inductive Activates : Drive → Prop
  | cancelled (path : String) (text : List Char) (on : Value) (valid : isPath path.toList = true)
      (kind : Kind.of path = .notification) (carries : Carries (Kind.of path) text on)
      (closes : Closes text) : Activates ⟨path, on, none⟩
  | switched (path : String) (onText offText : List Char) (on off : Value)
      (valid : isPath path.toList = true) (carries : Carries (Kind.of path) onText on)
      (carriesOff : Carries (Kind.of path) offText off) (closes : Closes offText) :
      Activates ⟨path, on, some off⟩

theorem readActivity_on (found : partsOf? text = some (path, [on]))
    (kind : Kind.of path = .notification) :
    readActivity text = .ok ⟨path, verbatim on, none⟩ := by
  simp [readActivity_eq, found, kind]

theorem readActivity_onOff (found : partsOf? text = some (path, [on, off])) :
    readActivity text = do
      let onValue ← (readValue (Kind.of path) on).mapError ReadError.oversize
      let offValue ← (readValue (Kind.of path) off).mapError ReadError.oversize
      return ⟨path, onValue, some offValue⟩ := by
  simp only [readActivity_eq, found]
  cases Kind.of path with
  | notification => rfl
  | switch => rfl

theorem readActivity_activates (read : readActivity text = .ok drive) : Activates drive := by
  cases found : partsOf? text with
  | none => simp [readActivity_eq, found] at read
  | some cut =>
    obtain ⟨path, values⟩ := cut
    have parts := parts_of_text found
    match values, found, parts with
    | [], found, parts =>
        simp only [readActivity_eq, found] at read
        cases kind : Kind.of path with
        | notification =>
            rw [kind] at read
            obtain rfl := Except.ok.inj read
            refine .cancelled path "normal".toList (.text "normal") parts.valid kind ?_ ?_
            · rw [kind]
              exact ⟨by decide, by decide, rfl⟩
            · rintro c ⟨⟩
              rfl
        | switch =>
            rw [kind] at read
            obtain rfl := Except.ok.inj read
            refine .switched path ['1'] ['0'] (.whole 1) (.whole 0) parts.valid ?_ ?_ ?_
            · rw [kind]
              exact ⟨by simp, by decide, rfl⟩
            · rw [kind]
              exact ⟨by simp, by decide, rfl⟩
            · rintro c ⟨⟩
              rfl
    | [on], found, parts =>
        cases kind : Kind.of path with
        | notification =>
            rw [readActivity_on found kind] at read
            obtain rfl := Except.ok.inj read
            refine .cancelled path on (verbatim on) parts.valid kind ?_ (parts.closes on rfl)
            rw [kind]
            exact parts.carries (by simp) rfl
        | switch => simp [readActivity_eq, found, kind] at read
    | [on, off], found, parts =>
        rw [readActivity_onOff found] at read
        cases onRead : readValue (Kind.of path) on with
        | error cause => simp [onRead, Except.mapError, bind, Except.bind] at read
        | ok onValue =>
            cases offRead : readValue (Kind.of path) off with
            | error cause => simp [onRead, offRead, Except.mapError, bind, Except.bind] at read
            | ok offValue =>
                rw [onRead, offRead] at read
                obtain rfl := Except.ok.inj read
                exact .switched path on off onValue offValue parts.valid
                  (parts.carries (by simp) onRead) (parts.carries (by simp) offRead)
                  (parts.closes off rfl)
    | _ :: _ :: _ :: _, found, parts =>
        cases kind : Kind.of path <;> simp [readActivity_eq, found, kind] at read

theorem cancelled_rewritten [Host] {written : String} {again : Value}
    (valid : isPath path.toList = true)
    (kind : Kind.of path = .notification) (closes : Closes state)
    (rewrites : Rewrites (Kind.of path) state value written again) :
    Drive.write ⟨path, value, none⟩ = .ok (path ++ ":" ++ written) ∧
      readActivity (some (path ++ ":" ++ written)) = .ok ⟨path, again, none⟩ := by
  have parts := parts_one valid rewrites.carries (rewrites.closes closes)
  have read := rewrites.carries.read
  rw [kind] at read
  constructor
  · simp [Drive.write, rewrites.plain, bind, Except.bind, pure, Except.pure]
  · rw [← written_one, readActivity_on (partsOf?_written parts) kind]
    rw [← Except.ok.inj read]

theorem switched_rewritten [Host] {onWritten offWritten : String} {onAgain offAgain : Value}
    (valid : isPath path.toList = true) (closes : Closes off)
    (onRewrites : Rewrites (Kind.of path) on onValue onWritten onAgain)
    (offRewrites : Rewrites (Kind.of path) off offValue offWritten offAgain) :
    Drive.write ⟨path, onValue, some offValue⟩ =
        .ok (path ++ ":" ++ onWritten ++ ":" ++ offWritten) ∧
      readActivity (some (path ++ ":" ++ onWritten ++ ":" ++ offWritten)) =
        .ok ⟨path, onAgain, some offAgain⟩ := by
  have parts := parts_two valid onRewrites.carries offRewrites.carries (offRewrites.closes closes)
  constructor
  · simp [Drive.write, onRewrites.plain, offRewrites.plain, bind, Except.bind, pure, Except.pure]
  · rw [← written_two, readActivity_onOff (partsOf?_written parts), onRewrites.carries.read,
      offRewrites.carries.read]
    rfl

theorem drive_again [Host] (activates : Activates drive)
    (back : ∀ value ∈ drive.values, value.ReadsBack) :
    ∃ text again, drive.write = .ok text ∧ readActivity (some text) = .ok again ∧
      (again.same drive = true ↔ ∀ value ∈ drive.values, value.Finite) := by
  cases activates with
  | cancelled path state value valid kind carries closes =>
      obtain ⟨text, again, result⟩ := carries.again (back value (by simp [Drive.values]))
      obtain ⟨wrote, read⟩ := cancelled_rewritten valid kind closes result.toRewrites
      refine ⟨_, _, wrote, read, ?_⟩
      simpa [Drive.same, Drive.values, sameOption] using result.same
  | switched path onText offText on off valid carries carriesOff closes =>
      obtain ⟨onWritten, onAgain, onResult⟩ := carries.again (back on (by simp [Drive.values]))
      obtain ⟨offWritten, offAgain, offResult⟩ :=
        carriesOff.again (back off (by simp [Drive.values]))
      obtain ⟨wrote, read⟩ :=
        switched_rewritten valid closes onResult.toRewrites offResult.toRewrites
      refine ⟨_, _, wrote, read, ?_⟩
      simp [Drive.same, Drive.values, sameOption, onResult.same, offResult.same]

/-! ## Both grammars -/

/-- Every reading is written as a text that is read in the same grammar, for a trigger and for any
activity that drives what was read. The reading is the same exactly if no value is an infinity. -/
theorem read_written [Host] (text : Option String) :
    (∀ trigger : Trigger, readControl text = .ok trigger →
      (∀ value ∈ trigger.values, value.ReadsBack) →
      ∃ written again, trigger.write = .ok written ∧ readControl (some written) = .ok again ∧
        (again.same trigger = true ↔ ∀ value ∈ trigger.values, value.Finite)) ∧
    (∀ activity : Activity, readActivity text = .ok activity.toDrive →
      (∀ value ∈ activity.values, value.ReadsBack) →
      ∃ written again, activity.write = .ok written ∧ readActivity (some written) = .ok again ∧
        (again.same activity.toDrive = true ↔ ∀ value ∈ activity.values, value.Finite)) := by
  constructor
  · intro trigger read back
    exact control_again (readControl_controls read) back
  · intro activity read back
    exact drive_again (readActivity_activates read) back

def fine : Literal := ⟨false, [2], some [5, 0], none⟩

def huge : Literal := ⟨false, [1], none, some (false, [9, 9, 9])⟩

def fineTrigger : Trigger := ⟨.switch, "switches.deck", some (.float fine.toFloat)⟩

def hugeTrigger : Trigger := ⟨.switch, "switches.deck", some (.float huge.toFloat)⟩

def hugeActivity : Activity where
  path := "switches.deck"
  on := .whole 7
  off := some (.float huge.toFloat)
  name := "deck[activity-0]"
  duration := 1
  delay := 0
  cycles := 1

theorem readsBack_fine : (Value.float fine.toFloat).ReadsBack := by
  have text : Literal.read? digit? (shortestChars fine.toFloat) =
      some ⟨false, [2], some [5], none⟩ := rfl
  intro literal read
  obtain rfl := Option.some.inj (text.symm.trans read)
  rfl

theorem readsBack_huge : (Value.float huge.toFloat).ReadsBack := by
  have text : Literal.read? digit? (shortestChars huge.toFloat) = none := rfl
  intro literal read
  cases text.symm.trans read

theorem kind_deck : Kind.of "switches.deck" = .switch := rfl

theorem scalar_of_literal {text : List Char} {literal : Literal}
    (read : Literal.read? digit? (dropLineEnd text) = some literal)
    (split : literal.isWhole = false) : scalar text = .ok (.float literal.toFloat) := by
  simp [scalar, read, split]

theorem scalar_huge : scalar "1e999".toList = .ok (.float huge.toFloat) :=
  scalar_of_literal rfl rfl

theorem readControl_fine : readControl (some "switches.deck:2.50") = .ok fineTrigger := by
  have parts : partsOf? (some "switches.deck:2.50") = some ("switches.deck", ["2.50".toList]) :=
    rfl
  have read : scalar "2.50".toList = .ok (.float fine.toFloat) :=
    scalar_of_literal rfl rfl
  rw [readControl_state parts, kind_deck, readValue, read]
  rfl

theorem readControl_huge : readControl (some "switches.deck:1e999") = .ok hugeTrigger := by
  have parts : partsOf? (some "switches.deck:1e999") =
      some ("switches.deck", ["1e999".toList]) := rfl
  rw [readControl_state parts, kind_deck, readValue, scalar_huge]
  rfl

theorem readActivity_huge :
    readActivity (some "switches.deck:+007:1e999") = .ok hugeActivity.toDrive := by
  have parts : partsOf? (some "switches.deck:+007:1e999") =
      some ("switches.deck", ["+007".toList, "1e999".toList]) := rfl
  have whole : scalar "+007".toList = .ok (.whole 7) := rfl
  rw [readActivity_onOff parts, kind_deck, readValue, readValue, whole, scalar_huge]
  rfl

theorem deck_read_again :
    (readControl (some "switches.deck:2.50") = .ok fineTrigger ∧
      (∀ value ∈ fineTrigger.values, value.ReadsBack) ∧
      ∃ written again, fineTrigger.write = .ok written ∧ readControl (some written) = .ok again ∧
        again.same fineTrigger = true) ∧
    (readActivity (some "switches.deck:+007:1e999") = .ok hugeActivity.toDrive ∧
      (∀ value ∈ hugeActivity.values, value.ReadsBack) ∧
      ∃ written again, hugeActivity.write = .ok written ∧
        readActivity (some written) = .ok again ∧ again.same hugeActivity.toDrive = false) := by
  have backFine : ∀ value ∈ fineTrigger.values, value.ReadsBack := by
    simpa [fineTrigger, Trigger.values] using readsBack_fine
  have backHuge : ∀ value ∈ hugeActivity.values, value.ReadsBack := by
    simpa [hugeActivity, Drive.values, Value.ReadsBack] using readsBack_huge
  have finite : (Value.float fine.toFloat).Finite :=
    ⟨false, 5629499534213120, -51, by decide +kernel⟩
  have endless : ¬ (Value.float huge.toFloat).Finite := by
    rintro ⟨negative, mantissa, exponent, read⟩
    have infinite : Reading.ofFloat huge.toFloat = .infinite false := by decide +kernel
    cases infinite.symm.trans read
  obtain ⟨written, again, wrote, read, same⟩ :=
    (read_written (some "switches.deck:2.50")).1 fineTrigger readControl_fine backFine
  obtain ⟨text, drive, wroteText, readText, sameDrive⟩ :=
    (read_written (some "switches.deck:+007:1e999")).2 hugeActivity readActivity_huge backHuge
  refine ⟨⟨readControl_fine, backFine, written, again, wrote, read, same.mpr ?_⟩,
    readActivity_huge, backHuge, text, drive, wroteText, readText, ?_⟩
  · simpa [fineTrigger, Trigger.values] using finite
  · rw [← Bool.not_eq_true, sameDrive]
    intro all
    exact endless (all _ (by simp [hugeActivity, Drive.values]))

/-- The text of an infinity is read as a word. -/
theorem infinity_read_as_word :
    readControl (some "switches.deck:1e999") = .ok hugeTrigger ∧
      (∀ value ∈ hugeTrigger.values, value.ReadsBack) ∧
      hugeTrigger.write = .ok "switches.deck:inf" ∧
      readControl (some "switches.deck:inf") =
        .ok ⟨.switch, "switches.deck", some (.text "inf")⟩ ∧
      Trigger.same ⟨.switch, "switches.deck", some (.text "inf")⟩ hugeTrigger = false := by
  have text : (Value.float huge.toFloat).plainText = .ok "inf" := by decide +kernel
  refine ⟨readControl_huge, ?_, ?_, rfl, rfl⟩
  · simpa [hugeTrigger, Trigger.values] using readsBack_huge
  · simp only [Trigger.write, hugeTrigger, text]
    rfl

end Cadence.Path
