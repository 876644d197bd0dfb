import Cadence.Proofs.Definition.Drives
import Cadence.Proofs.Settings.Layers
import Cadence.Proofs.Json.Reading
import Cadence.Proofs.Lookup
import Cadence.Proofs.Text.Parts

namespace Cadence.Text

variable {text part first : List Char} {others : List (List Char)}

theorem nestedNames_ne_nil (text : List Char) : nestedNames text ≠ [] := by
  fun_cases nestedNames text with
  | case1 | case2 => exact List.cons_ne_nil _ _
  | case3 c rest => cases nestedNames rest <;> simp [extendFirst]

theorem nestedNames_head (parts : nestedNames text = first :: others) :
    first <+: text ∧ (others = [] → first = text) := by
  fun_induction nestedNames text generalizing first others with
  | case1 =>
      obtain ⟨rfl, rfl⟩ := List.cons.inj parts
      simp
  | case2 rest _ =>
      obtain ⟨rfl, rfl⟩ := List.cons.inj parts
      exact ⟨List.nil_prefix, fun none => absurd none (nestedNames_ne_nil rest)⟩
  | case3 c rest _ ih =>
      obtain ⟨head, tail, later⟩ := List.exists_cons_of_ne_nil (nestedNames_ne_nil rest)
      rw [later, extendFirst] at parts
      obtain ⟨rfl, rfl⟩ := List.cons.inj parts
      obtain ⟨leads, whole⟩ := ih later
      exact ⟨List.cons_prefix_cons.mpr ⟨rfl, leads⟩, fun none => by rw [whole none]⟩

end Cadence.Text

namespace Cadence.Settings
open Definition Value Text

variable {env : Environment} {name block field text : String} {entries : Entries}

def blockVariable (block : String) : String := variableRoot ++ block

def fieldVariable (block field : String) : String := variableRoot ++ block ++ "__" ++ field

def given? (env : Environment) (name : String) : Option String :=
  (env.reverse.find? fun entry => entry.1.map smallLetter = name).map Prod.snd

/-! ## Names in any case -/

theorem lookup_put (other : String) : (put env name text).lookup other =
    if other = name then some text else env.lookup other := by
  induction env with
  | nil =>
      by_cases same : other = name
      · simp [put, same]
      · have apart : (other == name) = false := by simpa using same
        simp only [put, List.lookup_cons, apart, if_neg same]
  | cons entry rest ih =>
      obtain ⟨own, old⟩ := entry
      by_cases found : own = name
      · subst found
        rw [put, if_pos rfl]
        by_cases same : other = own
        · simp [same]
        · have apart : (other == own) = false := by simpa using same
          simp only [List.lookup_cons, apart, if_neg same]
      · rw [put, if_neg found]
        by_cases same : other = own
        · simp [same, found]
        · have apart : (other == own) = false := by simpa using same
          simp only [List.lookup_cons, apart, ih]

theorem names_put (env : Environment) (name text : String) :
    (put env name text).map Prod.fst = env.map Prod.fst ∨
      name ∉ env.map Prod.fst ∧ (put env name text).map Prod.fst = env.map Prod.fst ++ [name] := by
  induction env with
  | nil => exact .inr ⟨by simp, rfl⟩
  | cons entry rest ih =>
      by_cases same : entry.1 = name
      · rw [put, if_pos same]
        exact .inl (by rw [List.map_cons, List.map_cons, same])
      · rw [put, if_neg same]
        rcases ih with kept | ⟨new, added⟩
        · exact .inl (congrArg (entry.1 :: ·) kept)
        · refine .inr ⟨?_, congrArg (entry.1 :: ·) added⟩
          rw [List.map_cons, List.mem_cons, not_or]
          exact ⟨Ne.symm same, new⟩

theorem lowerCase_append (env : Environment) (entry : String × String) :
    lowerCase (env ++ [entry]) = put (lowerCase env) (entry.1.map smallLetter) entry.2 := by
  simp [lowerCase]

theorem given?_append (env : Environment) (entry : String × String) :
    given? (env ++ [entry]) name =
      if name = entry.1.map smallLetter then some entry.2 else given? env name := by
  by_cases same : entry.1.map smallLetter = name
  · simp [given?, same]
  · simp [given?, same, Ne.symm same]

theorem lookup_lowerCase (env : Environment) (name : String) :
    (lowerCase env).lookup name = given? env name := by
  induction env using List.reverseRecOn with
  | nil => rfl
  | append_singleton env entry ih => rw [lowerCase_append, lookup_put, ih, given?_append]

theorem lowerCase_nodup (env : Environment) : ((lowerCase env).map Prod.fst).Nodup := by
  induction env using List.reverseRecOn with
  | nil => exact List.nodup_nil
  | append_singleton env entry ih =>
      rw [lowerCase_append]
      rcases names_put (lowerCase env) (entry.1.map smallLetter) entry.2 with kept | ⟨new, added⟩
      · rwa [kept]
      · rw [added]
        rw [← List.concat_eq_append]
        exact ih.concat new

theorem mem_lowerCase : (name, text) ∈ lowerCase env ↔ given? env name = some text := by
  rw [← lookup_lowerCase, lookup_eq_some (lowerCase_nodup env)]

theorem given?_origin (given : given? env name = some text) :
    ∃ entry ∈ env, entry.1.map smallLetter = name := by
  obtain ⟨entry, found, -⟩ := Option.map_eq_some_iff.mp given
  exact ⟨entry, List.mem_reverse.mp (List.mem_of_find?_eq_some found), by simpa using List.find?_some found⟩

/-! ## Routes -/

theorem after?_eq_some {opening text rest : List Char} :
    after? opening text = some rest ↔ text = opening ++ rest := by
  induction opening generalizing text with
  | nil => simp [after?, eq_comm]
  | cons c opening ih =>
      cases text with
      | nil => simp [after?]
      | cons d text =>
          by_cases same : c = d
          · simp [after?, same, ih]
          · simp [after?, same, Ne.symm same]

theorem route?_eq_some {names : List String} {last : String} :
    route? block name = some (names, last) ↔
      ∃ rest, name.toList = (variableRoot ++ block ++ "__").toList ++ rest ∧
        (nestedNames rest).map String.ofList = names ++ [last] := by
  constructor
  · intro route
    obtain ⟨rest, behind, made⟩ := Option.bind_eq_some_iff.mp route
    obtain ⟨final, ends, made⟩ := Option.bind_eq_some_iff.mp made
    obtain ⟨rfl, rfl⟩ := Prod.mk.inj (Option.some.inj made)
    exact ⟨rest, after?_eq_some.mp behind, (List.dropLast_append_getLast? final ends).symm⟩
  · rintro ⟨rest, behind, parts⟩
    rw [route?, after?_eq_some.mpr behind, Option.bind_eq_bind, Option.bind_some]
    dsimp only
    rw [parts]
    simp

def Single (field : String) : Prop := nestedNames field.toList = [field.toList]

theorem route?_field (single : Single field) : route? block (fieldVariable block field) = some ([], field) := by
  refine route?_eq_some.mpr ⟨field.toList, ?_, ?_⟩
  · simp [fieldVariable]
  · rw [single]
    simp

def entrance (names : List String) (last : String) : String := names.headD last

theorem route?_entrance {names : List String} {last : String}
    (route : route? block name = some (names, last)) :
    (fieldVariable block (entrance names last)).toList <+: name.toList ∧
      (names = [] → name = fieldVariable block last) := by
  obtain ⟨rest, whole, parts⟩ := route?_eq_some.mp route
  obtain ⟨first, others, split⟩ := List.exists_cons_of_ne_nil (nestedNames_ne_nil rest)
  obtain ⟨leads, alone⟩ := nestedNames_head split
  rw [split, List.map_cons] at parts
  have toList (field : String) : (fieldVariable block field).toList =
      (variableRoot ++ block ++ "__").toList ++ field.toList := by simp [fieldVariable]
  cases names with
  | nil =>
      obtain ⟨rfl, none⟩ := List.cons.inj parts
      have same := alone (List.map_eq_nil_iff.mp none)
      have direct : name = fieldVariable block (String.ofList first) := by
        rw [← String.toList_inj, toList, whole, String.toList_ofList, same]
      exact ⟨⟨[], by rw [direct, List.append_nil]; rfl⟩, fun _ => direct⟩
  | cons head names =>
      obtain ⟨rfl, -⟩ := List.cons.inj parts
      refine ⟨?_, nofun⟩
      rw [entrance, toList, whole, List.headD_cons, String.toList_ofList]
      exact (List.prefix_append_right_inj _).mpr leads

/-! ## Fields in variables -/

theorem assign_eq (names : List String) (last : String) (value : Value) (entries : Entries) :
    (∃ inner, assign names last value entries = insert entries (.text (entrance names last)) inner ∧
      (names = [] → inner = value)) ∨
    names ≠ [] ∧ assign names last value entries = entries := by
  cases names with
  | nil => exact .inl ⟨value, by rw [assign]; rfl, fun _ => rfl⟩
  | cons name names =>
      rw [assign]
      split
      · exact .inl ⟨_, rfl, nofun⟩
      · exact .inl ⟨_, rfl, nofun⟩
      · exact .inr ⟨List.cons_ne_nil _ _, rfl⟩

variable {names : List String} {last : String} {value : Value}

theorem assign_other (apart : entrance names last ≠ field) :
    lookup (assign names last value entries) field = lookup entries field := by
  rcases assign_eq names last value entries with ⟨inner, set, -⟩ | ⟨-, same⟩
  · rw [set, lookup_insert_other fun same => apart (by injection same)]
  · rw [same]

theorem assign_inside {inside : List String} (present : lookup entries field = some (.text text)) :
    assign (field :: inside) last value entries = entries := by
  rw [assign, present]

theorem distinct_assign (distinct : Distinct entries) : Distinct (assign names last value entries) := by
  rcases assign_eq names last value entries with ⟨inner, set, -⟩ | ⟨-, same⟩
  · rw [set]
    exact distinct.insert _ _
  · rwa [same]

theorem keys_assign : ∀ key ∈ (assign names last value entries).map Prod.fst,
    key ∈ entries.map Prod.fst ∨ key = .text (entrance names last) := by
  rcases assign_eq names last value entries with ⟨inner, set, -⟩ | ⟨-, same⟩
  · rw [set]
    exact fun key => mem_keys_insert
  · rw [same]
    exact fun key => .inl

def setFrom (block : String) (entries : Entries) (entry : String × String) : Entries :=
  match route? block entry.1 with
  | some (names, last) => assign names last (.text entry.2) entries
  | none => entries

theorem fieldsOf_eq (block : String) (env : Environment) :
    fieldsOf block env = env.foldl (setFrom block) [] := rfl

theorem fieldsOf_append (block : String) (env : Environment) (entry : String × String) :
    fieldsOf block (env ++ [entry]) = setFrom block (fieldsOf block env) entry := by
  simp [fieldsOf_eq]

theorem distinct_fieldsOf (block : String) (env : Environment) : Distinct (fieldsOf block env) := by
  induction env using List.reverseRecOn with
  | nil => exact .nil
  | append_singleton env entry ih =>
      rw [fieldsOf_append, setFrom]
      split
      · exact distinct_assign ih
      · exact ih

theorem keys_fieldsOf : ∀ key ∈ (fieldsOf block env).map Prod.fst, ∃ entry ∈ env, ∃ names last,
    route? block entry.1 = some (names, last) ∧ key = .text (entrance names last) := by
  induction env using List.reverseRecOn with
  | nil => nofun
  | append_singleton env entry ih =>
      have earlier (key : Value) (member : key ∈ (fieldsOf block env).map Prod.fst) :
          ∃ other ∈ env ++ [entry], ∃ names last, route? block other.1 = some (names, last) ∧
            key = .text (entrance names last) := by
        obtain ⟨other, among, found⟩ := ih key member
        exact ⟨other, List.mem_append_left _ among, found⟩
      intro key member
      rw [fieldsOf_append, setFrom] at member
      split at member
      · next names last route =>
          rcases keys_assign key member with before | own
          · exact earlier key before
          · exact ⟨entry, List.mem_append_right _ List.mem_cons_self, names, last, route, own⟩
      · exact earlier key member

theorem fieldsOf_given (single : Single field) (distinct : (env.map Prod.fst).Nodup)
    (given : (fieldVariable block field, text) ∈ env) :
    lookup (fieldsOf block env) field = some (.text text) := by
  induction env using List.reverseRecOn with
  | nil => cases given
  | append_singleton env entry ih =>
      rw [List.map_append] at distinct
      obtain ⟨before, -, apart⟩ := List.nodup_append.mp distinct
      rw [fieldsOf_append, setFrom]
      rcases List.mem_append.mp given with earlier | own
      · have present := ih before earlier
        split
        · next names last route =>
            by_cases here : entrance names last = field
            · obtain ⟨-, direct⟩ := route?_entrance route
              cases names with
              | nil =>
                  have same : entry.1 = fieldVariable block field := by rw [direct rfl]; exact congrArg _ here
                  exact absurd same.symm (apart _ (List.mem_map_of_mem earlier) _ List.mem_cons_self)
              | cons name inside =>
                  obtain rfl : name = field := here
                  rw [assign_inside present, present]
            · rw [assign_other here, present]
        · exact present
      · obtain rfl := List.mem_singleton.mp own
        rw [route?_field single]
        exact lookup_insert_self

theorem fieldsOf_absent
    (absent : ∀ entry ∈ env, ¬(fieldVariable block field).toList <+: entry.1.toList) :
    lookup (fieldsOf block env) field = none := by
  induction env using List.reverseRecOn with
  | nil => rfl
  | append_singleton env entry ih =>
      have before := ih fun other among => absent other (List.mem_append_left _ among)
      rw [fieldsOf_append, setFrom]
      split
      · next names last route =>
          have apart : entrance names last ≠ field := by
            rintro rfl
            exact absent entry (List.mem_append_right _ List.mem_cons_self) (route?_entrance route).1
          rw [assign_other apart, before]
      · exact before

theorem fieldsOf_none
    (absent : ∀ entry ∈ env, ¬(fieldVariable block "").toList <+: entry.1.toList) :
    fieldsOf block env = [] := by
  rw [List.eq_nil_iff_forall_not_mem]
  intro set member
  obtain ⟨entry, among, names, last, route, -⟩ := keys_fieldsOf _ (List.mem_map_of_mem member)
  obtain ⟨rest, whole, -⟩ := route?_eq_some.mp route
  exact absent entry among ⟨rest, by simp [whole, fieldVariable]⟩

/-! ## Small letters -/

theorem toLower_cases (c : Char) :
    c.toLower = c ∨ 97 ≤ c.toLower.toNat ∧ c.toLower.toNat ≤ 122 := by
  unfold Char.toLower
  split
  · next capital =>
      have low : 65 ≤ c.toNat := capital.1
      have high : c.toNat ≤ 90 := capital.2
      have moved : (c.val + 32).toNat = c.toNat + 32 := by
        rw [UInt32.toNat_add]
        exact Nat.mod_eq_of_lt (by show c.toNat + 32 < 2 ^ 32; omega)
      right
      show 97 ≤ (c.val + 32).toNat ∧ (c.val + 32).toNat ≤ 122
      omega
  · exact .inl rfl

theorem toLower_small {c : Char} (small : 90 < c.toNat) : c.toLower = c := by
  unfold Char.toLower
  rw [dif_neg]
  rintro ⟨-, capital⟩
  exact Nat.not_lt.mpr capital small

theorem smallLetter_smallLetter (c : Char) : smallLetter (smallLetter c) = smallLetter c := by
  by_cases kelvin : c = '\u212a'
  · rw [kelvin]
    decide
  · have small : smallLetter c = c.toLower := if_neg kelvin
    rw [small]
    rcases toLower_cases c with same | ⟨low, high⟩
    · rw [same, small, same]
    · have ascii : c.toLower ≠ '\u212a' := by
        intro far
        rw [far] at high
        revert high
        decide
      rw [smallLetter, if_neg ascii, toLower_small (by omega)]

theorem map_smallLetter (small : ∀ c ∈ name.toList, smallLetter c = c) : name.map smallLetter = name := by
  rw [← String.toList_inj, String.toList_map]
  exact (List.map_congr_left small).trans (List.map_id _)

theorem plain_fieldsOf (fields : List String) : Plain fields (fieldsOf block (lowerCase env)) := by
  intro name member _
  obtain ⟨entry, among, names, last, route, same⟩ := keys_fieldsOf _ member
  obtain rfl : name = entrance names last := by injection same
  obtain ⟨origin, -, lowered⟩ := given?_origin (mem_lowerCase.mp among)
  apply map_smallLetter
  intro c inside
  have within : c ∈ (fieldVariable block (entrance names last)).toList := by
    simp [fieldVariable, inside]
  have whole := (route?_entrance route).1.subset within
  rw [← lowered, String.toList_map] at whole
  obtain ⟨d, -, rfl⟩ := List.mem_map.mp whole
  exact smallLetter_smallLetter d

/-! ## Blocks in variables -/

variable [Host]

/-- What the variable of a block gives, for the fields that have no variable of their own. Its names
are spelled in small letters. -/
def Speaks (env : Environment) (block : String) (fields : List String) (base : Entries) : Prop :=
  given? env (blockVariable block) = none ∧ base = [] ∨
    ∃ text, given? env (blockVariable block) = some text ∧ Json.read text = .ok (.map base) ∧
      Plain fields base

variable {fields : List String} {base : Entries} {found : Option Value}

omit [Host] in
theorem laid_none (above : Option Value) : laid above none = above := by
  cases above <;> rfl

theorem field?_blockOf (speaks : Speaks env block fields base)
    (said : blockOf? (lowerCase env) block fields = .ok found) (field : String) :
    field? found field = laid (lookup (fieldsOf block (lowerCase env)) field) (lookup base field) := by
  have distinct := distinct_fieldsOf block (lowerCase env)
  have plain : Plain fields (fieldsOf block (lowerCase env)) := plain_fieldsOf fields
  simp only [blockOf?] at said
  rw [← blockVariable, lookup_lowerCase] at said
  rcases speaks with ⟨silent, rfl⟩ | ⟨text, given, read, plainly⟩
  · rw [silent] at said
    obtain rfl := Except.ok.inj said
    rw [lookup_nil, laid_none]
    split
    · next empty => rw [List.isEmpty_iff.mp empty]; rfl
    · exact lookup_renameFields distinct plain
  · simp only [given, read] at said
    obtain rfl := Except.ok.inj said
    have distinct' := (Json.read_eq_ok.mp read).distinct
    have plain' : Plain fields (overlayEntries base (fieldsOf block (lowerCase env))) := by
      intro name member
      rcases keys_overlayEntries _ member with before | set
      · exact plainly name before
      · exact plain name set
    calc _ = lookup (renameFields fields (overlayEntries base (fieldsOf block (lowerCase env)))) field := rfl
      _ = _ := lookup_renameFields (distinct_overlayEntries distinct') plain'
      _ = _ := lookup_overlayEntries distinct

theorem layerFrom_eq_ok {parts : List (String × List String)} {under : Entries}
    (distinct : (parts.map Prod.fst).Nodup) (layer : layerFrom env parts = .ok under) :
    (∀ part ∈ parts, blockOf? env part.1 part.2 = .ok (lookup under part.1)) ∧
      ∀ name ∉ parts.map Prod.fst, lookup under name = none := by
  induction parts generalizing under with
  | nil =>
      obtain rfl := Except.ok.inj layer
      simp
  | cons part rest ih =>
      obtain ⟨fresh, distinct'⟩ := List.nodup_cons.mp distinct
      obtain ⟨block, fields⟩ := part
      obtain ⟨found, said, layer⟩ := bind_eq_ok.mp layer
      obtain ⟨others, later, made⟩ := bind_eq_ok.mp layer
      obtain rfl := Except.ok.inj made
      obtain ⟨told, silent⟩ := ih distinct' later
      have own : lookup ((found.map fun value => (Value.text block, value)).toList ++ others) block =
          found := by
        cases found with
        | none => exact silent block fresh
        | some value => exact lookup_cons_self
      have other (name : String) (apart : block ≠ name) :
          lookup ((found.map fun value => (Value.text block, value)).toList ++ others) name =
            lookup others name := by
        cases found with
        | none => rfl
        | some value => exact lookup_cons_other fun same => apart (by injection same)
      constructor
      · intro part member
        rcases List.mem_cons.mp member with rfl | later
        · rw [own, said]
        · have apart : block ≠ part.1 := by
            rintro rfl
            exact fresh (List.mem_map.mpr ⟨part, later, rfl⟩)
          rw [other _ apart, told part later]
      · intro name absent
        rw [List.map_cons, List.mem_cons, not_or] at absent
        rw [other name (Ne.symm absent.1), silent name absent.2]

variable {under : Entries}

theorem layer_block (layer : env.layer = .ok under) (part : (block, fields) ∈ blocks) :
    blockOf? (lowerCase env) block fields = .ok (lookup under block) :=
  (layerFrom_eq_ok (by decide) layer).1 _ part

omit [Host] in
theorem blocks_single : ∀ part ∈ blocks, ∀ field ∈ part.2, Single field := by
  unfold Single
  decide

structure Tells (env : Environment) (block : String) (fields : List String) (found : Option Value) :
    Prop where
  silent : given? env (blockVariable block) = none →
    (∀ entry ∈ env, ¬(fieldVariable block "").toList <+: (entry.1.map smallLetter).toList) → found = none
  null : ∀ text, given? env (blockVariable block) = some text → Json.read text = .ok .null → found = none
  whole : ∀ text value, given? env (blockVariable block) = some text → Json.read text = .ok value →
    value ≠ .null → (∀ entries, value ≠ .map entries) → found = some value
  given : ∀ base, Speaks env block fields base → ∀ field ∈ fields, ∀ text,
    given? env (fieldVariable block field) = some text → field? found field = some (.text text)
  left : ∀ base, Speaks env block fields base → ∀ field ∈ fields,
    (∀ entry ∈ env, ¬(fieldVariable block field).toList <+: (entry.1.map smallLetter).toList) →
      field? found field = lookup base field

omit [Host] in
theorem lowered_absent {leading : List Char}
    (absent : ∀ entry ∈ env, ¬leading <+: (entry.1.map smallLetter).toList) :
    ∀ entry ∈ lowerCase env, ¬leading <+: entry.1.toList := by
  intro entry member leads
  obtain ⟨origin, among, lowered⟩ := given?_origin (mem_lowerCase.mp member)
  rw [← lowered] at leads
  exact absent origin among leads

theorem layer_tells (layer : env.layer = .ok under) (part : (block, fields) ∈ blocks) :
    Tells env block fields (lookup under block) := by
  have said := layer_block layer part
  constructor
  · intro silent absent
    simp only [blockOf?] at said
    rw [← blockVariable, lookup_lowerCase, silent, fieldsOf_none (lowered_absent absent)] at said
    exact (Except.ok.inj said).symm
  · intro text given read
    simp only [blockOf?] at said
    rw [← blockVariable, lookup_lowerCase, given] at said
    simp only [read] at said
    exact (Except.ok.inj said).symm
  · intro text value given read present single
    simp only [blockOf?] at said
    rw [← blockVariable, lookup_lowerCase, given] at said
    simp only [read] at said
    cases value with
    | null => exact absurd rfl present
    | map entries => exact absurd rfl (single entries)
    | _ => exact (Except.ok.inj said).symm
  · intro base speaks field known text given
    have set := fieldsOf_given (blocks_single _ part field known) (lowerCase_nodup env)
      (mem_lowerCase.mpr given)
    rw [field?_blockOf speaks said, set]
    cases lookup base field with
    | none => rfl
    | some below => exact congrArg some (overlay_other (by simp))
  · intro base speaks field known absent
    rw [field?_blockOf speaks said, fieldsOf_absent (lowered_absent absent)]
    rfl

end Cadence.Settings
