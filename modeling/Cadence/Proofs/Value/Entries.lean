import Cadence.Value.Basic
import Mathlib.Data.List.Induction

namespace Cadence.Value

variable {entries : List (Value × Value)} {key other value : Value} {name : String}

theorem same_text : key.same (.text name) = true ↔ key = .text name := by
  cases key <;> simp [same, whole?]

theorem text_same : (Value.text name).same key = true ↔ key = .text name := by
  cases key <;> simp [same, whole?, eq_comm]

@[simp] theorem lookup_nil (name : String) : lookup [] name = none := rfl

theorem lookup_cons_self : lookup ((.text name, value) :: entries) name = some value := by
  simp [lookup]

theorem lookup_cons_other (different : key ≠ .text name) :
    lookup ((key, value) :: entries) name = lookup entries name := by
  cases key with
  | text other => simp [lookup, show other ≠ name from fun same => different (congrArg _ same)]
  | _ => rfl

theorem lookup_insert_self : lookup (insert entries (.text name) value) name = some value := by
  induction entries with
  | nil => exact lookup_cons_self
  | cons entry rest ih =>
      obtain ⟨key, old⟩ := entry
      by_cases same : key = .text name
      · obtain rfl := same
        rw [insert, if_pos (text_same.mpr rfl), lookup_cons_self]
      · rw [insert, if_neg (mt text_same.mp same), lookup_cons_other same, ih]

theorem lookup_insert_other (different : other ≠ .text name) :
    lookup (insert entries other value) name = lookup entries name := by
  induction entries with
  | nil => exact lookup_cons_other different
  | cons entry rest ih =>
      obtain ⟨key, old⟩ := entry
      by_cases found : key = .text name
      · obtain rfl := found
        rw [insert, if_neg (mt same_text.mp different), lookup_cons_self, lookup_cons_self]
      · unfold insert
        split
        · rw [lookup_cons_other found, lookup_cons_other found]
        · rw [lookup_cons_other found, lookup_cons_other found, ih]

def Distinct (entries : List (Value × Value)) : Prop :=
  (entries.map Prod.fst).Pairwise fun key other => ∀ name, key = .text name → other ≠ .text name

theorem keys_insert (entries : List (Value × Value)) (key value : Value) :
    (insert entries key value).map Prod.fst = entries.map Prod.fst ∨
      (∀ entry ∈ entries, key.same entry.1 = false) ∧
        insert entries key value = entries ++ [(key, value)] := by
  induction entries with
  | nil => exact .inr ⟨by simp, rfl⟩
  | cons entry rest ih =>
      by_cases same : key.same entry.1
      · left
        rw [insert, if_pos same]
        rfl
      · rw [insert, if_neg same]
        rcases ih with kept | ⟨new, added⟩
        · exact .inl (congrArg (entry.1 :: ·) kept)
        · exact .inr ⟨by simpa [same] using new, congrArg (entry :: ·) added⟩

theorem mem_keys_insert (member : other ∈ (insert entries key value).map Prod.fst) :
    other ∈ entries.map Prod.fst ∨ other = key := by
  rcases keys_insert entries key value with kept | ⟨-, added⟩
  · exact .inl (kept ▸ member)
  · rw [added] at member
    simpa using member

theorem Distinct.insert (distinct : Distinct entries) (key value : Value) :
    Distinct (insert entries key value) := by
  rcases keys_insert entries key value with kept | ⟨new, added⟩
  · rwa [Distinct, kept]
  · rw [Distinct, added, List.map_append]
    refine List.pairwise_append.mpr ⟨distinct, List.pairwise_singleton _ _, ?_⟩
    intro present among added own name isName same
    obtain ⟨entry, member, rfl⟩ := List.mem_map.mp among
    obtain rfl : added = key := by simpa using own
    have unequal := new entry member
    rw [same, isName, text_same.mpr rfl] at unequal
    cases unequal

theorem Distinct.lookup_cons {entry : Value × Value} (distinct : Distinct (entry :: entries))
    (own : entry.1 = .text name) : lookup entries name = none := by
  have later := (List.pairwise_cons.mp distinct).1
  rw [lookup, Option.map_eq_none_iff, List.find?_eq_none]
  intro present among found
  have different := later present.1 (List.mem_map_of_mem among) name own
  split at found
  · next other isName =>
      obtain rfl := of_decide_eq_true found
      exact different isName
  · cases found

def put (entries : List (Value × Value)) (member : String × Value) : List (Value × Value) :=
  insert entries (.text member.1) member.2

def collect (members : List (String × Value)) : List (Value × Value) := members.foldl put []

theorem collect_append (members : List (String × Value)) (member : String × Value) :
    collect (members ++ [member]) = put (collect members) member := by
  simp [collect]

theorem lookup_collect (members : List (String × Value)) :
    lookup (collect members) name = members.reverse.lookup name := by
  induction members using List.reverseRecOn with
  | nil => rfl
  | append_singleton members member ih =>
      obtain ⟨own, value⟩ := member
      rw [collect_append, List.reverse_append]
      by_cases same : own = name
      · obtain rfl := same
        simp [put, lookup_insert_self]
      · have different : Value.text own ≠ .text name := fun equal => same (by injection equal)
        have apart : (name == own) = false := by simpa using Ne.symm same
        simp [put, lookup_insert_other different, ih, List.lookup_cons, apart]

theorem distinct_collect (members : List (String × Value)) : Distinct (collect members) := by
  induction members using List.reverseRecOn with
  | nil => exact .nil
  | append_singleton members member ih =>
      rw [collect_append]
      exact ih.insert _ _

end Cadence.Value
