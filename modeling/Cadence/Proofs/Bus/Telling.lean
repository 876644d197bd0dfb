import Cadence.Proofs.Bus.Readers

namespace Cadence.Bus
variable {ρ α : Type} [DecidableEq ρ] {reader other : ρ} {path : String}

def tell (reader : ρ) (own : List α) (bus : Bus ρ α) : Bus ρ α :=
  { bus with
    subscriptions := bus.subscriptions.map fun s =>
      if s.reader = reader then { s with queue := own } else s }

theorem tell_same {own : List α} {bus : Bus ρ α}
    (same : ∀ s ∈ bus.subscriptions, s.reader = reader → s.queue = own) :
    bus.tell reader own = bus := by
  have kept : (bus.tell reader own).subscriptions = bus.subscriptions.map id := by
    apply List.map_congr_left
    intro s member
    by_cases its : s.reader = reader
    · rw [if_pos its, ← same s member its]
      rfl
    · rw [if_neg its]
      rfl
  rw [List.map_id] at kept
  exact congrArg (Bus.mk bus.last) kept

theorem tell_subscribe {bus : Bus ρ α} (unread : reader ∉ bus.readers) :
    (bus.subscribe reader path).tell reader (bus.last? path).toList = bus.subscribe reader path := by
  apply tell_same
  intro s member same
  rcases List.mem_append.mp member with old | new
  · exact absurd (same ▸ List.mem_map_of_mem old) unread
  · rw [List.mem_singleton.mp new]

theorem queued_tell {own : List α} {bus : Bus ρ α} (read : reader ∈ bus.readers) :
    (bus.tell reader own).queued reader = own := by
  obtain ⟨s, member, rfl⟩ := List.mem_map.mp read
  have told : (fun t : Subscription ρ α => decide (t.reader = s.reader)) ∘
      (fun t => if t.reader = s.reader then { t with queue := own } else t) =
        fun t => decide (t.reader = s.reader) := by
    funext t
    by_cases same : t.reader = s.reader <;> simp [same]
  cases found : bus.subscriptions.find? fun t => t.reader = s.reader with
  | none =>
      have missing := List.find?_eq_none.mp found s member
      simp at missing
  | some t =>
      have same : t.reader = s.reader := by simpa using List.find?_some found
      simp only [queued, tell, List.find?_map, told, found, Option.map_some, Option.getD_some, same, if_true]

/-! ## All readers but one -/

theorem close_tell (reader : ρ) (own : List α) (bus : Bus ρ α) :
    (bus.tell reader own).close reader = bus.close reader := by
  simp only [tell, close]
  congr 1
  rw [filter_reader_map (fun s => by split <;> rfl) (· ≠ reader)]
  conv_rhs => rw [← List.map_id (bus.subscriptions.filter _)]
  apply List.map_congr_left
  intro s member
  have different : s.reader ≠ reader := by simpa using (List.mem_filter.mp member).2
  simp [different]

theorem close_take (reader : ρ) (number : Nat) (bus : Bus ρ α) :
    (bus.take reader number).close reader = bus.close reader :=
  keep_take_other (· ≠ reader) (by simp) number bus

theorem close_take_other (reader other : ρ) (number : Nat) (bus : Bus ρ α) :
    (bus.take other number).close reader = (bus.close reader).take other number :=
  keep_take (· ≠ reader) other number bus

theorem close_comm (reader other : ρ) (bus : Bus ρ α) :
    (bus.close other).close reader = (bus.close reader).close other :=
  keep_close (· ≠ reader) other bus

theorem close_subscribe_other (different : other ≠ reader) (path : String) (bus : Bus ρ α) :
    (bus.subscribe other path).close reader = (bus.close reader).subscribe other path :=
  keep_subscribe (· ≠ reader) (by simpa using different) path bus

theorem close_carry (reader : ρ) (signals : List (String × α)) (bus : Bus ρ α) :
    (bus.carry signals).close reader = (bus.close reader).carry signals :=
  keep_carry (· ≠ reader) signals bus

theorem queued_close_other (different : other ≠ reader) (bus : Bus ρ α) :
    (bus.close reader).queued other = bus.queued other :=
  queued_keep (· ≠ reader) (by simpa using different) bus

theorem woken_close (reader : ρ) (signals : List (String × α)) (bus : Bus ρ α) :
    (woken signals bus).filter (· ≠ reader) = woken signals (bus.close reader) :=
  woken_keep (· ≠ reader) signals bus

end Cadence.Bus
