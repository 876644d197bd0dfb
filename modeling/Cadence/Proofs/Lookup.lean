import Mathlib.Data.List.Nodup

namespace Cadence

variable {α : Type} {name : String} {entries : List (String × α)} {item : α}

theorem lookup_eq_some (distinct : (entries.map (·.1)).Nodup) :
    entries.lookup name = some item ↔ (name, item) ∈ entries := by
  induction entries with
  | nil => simp
  | cons entry rest ih =>
      obtain ⟨first, held⟩ := entry
      obtain ⟨fresh, distinct'⟩ := List.nodup_cons.mp distinct
      by_cases own : name = first
      · subst own
        have alone : (name, item) ∉ rest := fun among =>
          fresh (List.mem_map_of_mem (f := (·.1)) among)
        simp [alone, eq_comm]
      · have apart : (name == first) = false := by simpa using own
        simp [List.lookup_cons, apart, own, ih distinct']

end Cadence
