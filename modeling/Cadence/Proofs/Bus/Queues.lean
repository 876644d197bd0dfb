import Cadence.Bus.Basic
import Mathlib.Data.List.Nodup

namespace Cadence.Bus
variable {ρ α : Type} {bus : Bus ρ α} {s : Subscription ρ α} {reader : ρ} {path : String}
  {signals : List (String × α)}

def readers (bus : Bus ρ α) : List ρ := bus.subscriptions.map (·.reader)

def published (path : String) (signals : List (String × α)) : List α :=
  (signals.filter (·.1 = path)).map (·.2)

@[simp] theorem published_nil (path : String) : published path ([] : List (String × α)) = [] := rfl

theorem published_cons (path : String) (signal : String × α) (rest : List (String × α)) :
    published path (signal :: rest) =
      if signal.1 = path then signal.2 :: published path rest else published path rest := by
  by_cases same : signal.1 = path <;> simp [published, same]

@[simp] theorem published_append (path : String) (signals more : List (String × α)) :
    published path (signals ++ more) = published path signals ++ published path more := by
  simp [published]

def carry (signals : List (String × α)) (bus : Bus ρ α) : Bus ρ α :=
  signals.foldl (fun bus signal => bus.publish signal.1 signal.2) bus

theorem carry_subscriptions (signals : List (String × α)) (bus : Bus ρ α) :
    (bus.carry signals).subscriptions =
      bus.subscriptions.map fun s => { s with queue := s.queue ++ published s.path signals } := by
  induction signals generalizing bus with
  | nil => simp [carry]
  | cons signal rest ih =>
      rw [carry, List.foldl_cons, ← carry, ih]
      simp only [publish, List.map_map]
      apply List.map_congr_left
      intro s _
      by_cases same : s.path = signal.1
      · simp [same, published_cons]
      · simp [same, published_cons, Ne.symm same]

theorem carry_append (signals more : List (String × α)) (bus : Bus ρ α) :
    bus.carry (signals ++ more) = (bus.carry signals).carry more := List.foldl_append

theorem carry_readers (signals : List (String × α)) (bus : Bus ρ α) :
    (bus.carry signals).readers = bus.readers := by
  simp only [readers, carry_subscriptions, List.map_map]
  rfl

/-! ## The last signals -/

theorem carry_last (signals : List (String × α)) {other : Bus ρ α} (same : bus.last = other.last) :
    (bus.carry signals).last = (other.carry signals).last := by
  induction signals generalizing bus other with
  | nil => exact same
  | cons signal rest ih => exact ih (by simp only [publish, same])

theorem lookup_filter_other {name other : String} (different : other ≠ name)
    (entries : List (String × α)) :
    (entries.filter (·.1 ≠ name)).lookup other = entries.lookup other := by
  induction entries with
  | nil => rfl
  | cons entry rest ih =>
      by_cases dropped : entry.1 = name
      · have apart : (other == entry.1) = false := by simpa [dropped] using different
        rw [List.filter_cons_of_neg (by simpa using dropped), ih, List.lookup_cons, apart]
      · rw [List.filter_cons_of_pos (by simpa using dropped), List.lookup_cons, ih,
          List.lookup_cons]

theorem last?_publish (path other : String) (signal : α) (bus : Bus ρ α) :
    (bus.publish path signal).last? other = if other = path then some signal else bus.last? other := by
  by_cases own : other = path
  · simp [last?, publish, own]
  · have apart : (other == path) = false := by simpa using own
    simp only [last?, publish, List.lookup_cons, apart, lookup_filter_other own, own, if_false]

theorem last?_carry (path : String) (signals : List (String × α)) (bus : Bus ρ α) :
    (bus.carry signals).last? path = (published path signals).getLast?.or (bus.last? path) := by
  induction signals generalizing bus with
  | nil => rfl
  | cons signal rest ih =>
      rw [carry, List.foldl_cons, ← carry, ih, last?_publish, published_cons]
      by_cases own : signal.1 = path
      · rw [if_pos own.symm, if_pos own, List.getLast?_cons]
        cases (published path rest).getLast? <;> rfl
      · rw [if_neg (Ne.symm own), if_neg own]

/-! ## Readers that are woken -/

def woken : List (String × α) → Bus ρ α → List ρ
  | [], _ => []
  | (path, signal) :: rest, bus => bus.idleReaders path ++ woken rest (bus.publish path signal)

theorem mem_idleReaders : reader ∈ bus.idleReaders path ↔
    ∃ s ∈ bus.subscriptions, s.reader = reader ∧ s.path = path ∧ s.queue = [] := by
  simp only [idleReaders, List.mem_map, List.mem_filter, Bool.and_eq_true, decide_eq_true_eq,
    List.isEmpty_iff]
  constructor
  · rintro ⟨s, ⟨member, samePath, empty⟩, sameReader⟩
    exact ⟨s, member, sameReader, samePath, empty⟩
  · rintro ⟨s, member, sameReader, samePath, empty⟩
    exact ⟨s, ⟨member, samePath, empty⟩, sameReader⟩

theorem mem_publish {signal : α} (member : s ∈ (bus.publish path signal).subscriptions) :
    ∃ old ∈ bus.subscriptions, old.reader = s.reader ∧ old.path = s.path ∧
      s.queue = if old.path = path then old.queue ++ [signal] else old.queue := by
  obtain ⟨old, among, rfl⟩ := List.mem_map.mp member
  refine ⟨old, among, ?_⟩
  by_cases same : old.path = path <;> simp [same]

theorem mem_woken : reader ∈ woken signals bus ↔
    ∃ s ∈ bus.subscriptions, s.reader = reader ∧ s.queue = [] ∧ published s.path signals ≠ [] := by
  constructor
  · intro awake
    induction signals generalizing bus with
    | nil => cases awake
    | cons signal rest ih =>
        rcases List.mem_append.mp awake with now | later
        · obtain ⟨s, member, sameReader, samePath, empty⟩ := mem_idleReaders.mp now
          exact ⟨s, member, sameReader, empty, by simp [published_cons, samePath]⟩
        · obtain ⟨s, member, sameReader, empty, filled⟩ := ih later
          obtain ⟨old, among, oldReader, oldPath, queue⟩ := mem_publish member
          rw [empty] at queue
          split at queue
          · simp at queue
          · next apart =>
              refine ⟨old, among, oldReader.trans sameReader, queue.symm, ?_⟩
              rwa [published_cons, if_neg (Ne.symm apart), oldPath]
  · rintro ⟨s, member, rfl, empty, fills⟩
    induction signals generalizing bus with
    | nil => simp at fills
    | cons signal rest ih =>
        by_cases same : signal.1 = s.path
        · exact List.mem_append_left _ (mem_idleReaders.mpr ⟨s, member, rfl, same.symm, empty⟩)
        · rw [published_cons, if_neg same] at fills
          have kept : s ∈ (bus.publish signal.1 signal.2).subscriptions :=
            List.mem_map.mpr ⟨s, member, by simp [Ne.symm same]⟩
          exact List.mem_append_right _ (ih kept fills)

theorem carry_asleep (read : ∀ s ∈ bus.subscriptions, s.queue = [])
    (member : s ∈ (bus.carry signals).subscriptions) (asleep : s.reader ∉ woken signals bus) :
    s.queue = [] := by
  rw [carry_subscriptions] at member
  obtain ⟨old, among, rfl⟩ := List.mem_map.mp member
  have empty := read old among
  cases fills : published old.path signals with
  | nil => simp [empty]
  | cons signal later =>
      have filled : published old.path signals ≠ [] := by simp [fills]
      exact absurd (mem_woken.mpr ⟨old, among, rfl, empty, filled⟩) asleep

theorem readers_of_woken (awake : reader ∈ woken signals bus) : reader ∈ bus.readers := by
  obtain ⟨s, member, rfl, -⟩ := mem_woken.mp awake
  exact List.mem_map_of_mem member

theorem eq_of_reader (nodup : bus.readers.Nodup) {t : Subscription ρ α}
    (one : s ∈ bus.subscriptions) (other : t ∈ bus.subscriptions) (same : s.reader = t.reader) :
    s = t :=
  List.inj_on_of_nodup_map nodup one other same

theorem woken_nodup (nodup : bus.readers.Nodup) : (woken signals bus).Nodup := by
  induction signals generalizing bus with
  | nil => exact List.nodup_nil
  | cons signal rest ih =>
      have nodup' : (bus.publish signal.1 signal.2).readers.Nodup := by
        have same := carry_readers [signal] bus
        rwa [show (bus.publish signal.1 signal.2).readers = bus.readers from same]
      refine List.nodup_append.mpr ⟨?_, ih nodup', ?_⟩
      · exact nodup.sublist (List.filter_sublist.map _)
      · intro reader now other later same
        obtain ⟨s, member, sameReader, samePath, -⟩ := mem_idleReaders.mp now
        obtain ⟨t, after, otherReader, empty, -⟩ := mem_woken.mp later
        obtain ⟨old, among, oldReader, -, queue⟩ := mem_publish after
        -- The signal that has woken the reader is still in its queue.
        have equal : old = s := eq_of_reader nodup among member
          (oldReader.trans (otherReader.trans (same.symm.trans sameReader.symm)))
        rw [empty, equal, if_pos samePath] at queue
        simp at queue

variable [DecidableEq ρ]

theorem queued_of_mem (nodup : bus.readers.Nodup) (member : s ∈ bus.subscriptions) :
    bus.queued s.reader = s.queue := by
  unfold queued
  cases found : bus.subscriptions.find? fun t => t.reader = s.reader with
  | none =>
      have missing := List.find?_eq_none.mp found s member
      simp at missing
  | some t =>
      have same : t.reader = s.reader := by simpa using List.find?_some found
      rw [eq_of_reader nodup (List.mem_of_find?_eq_some found) member same]
      rfl

theorem queued_of_notMem (missing : reader ∉ bus.readers) : bus.queued reader = [] := by
  unfold queued
  cases found : bus.subscriptions.find? fun t => t.reader = reader with
  | none => rfl
  | some t =>
      have same : t.reader = reader := by simpa using List.find?_some found
      exact absurd (same ▸ List.mem_map_of_mem (List.mem_of_find?_eq_some found)) missing

theorem mem_take {number : Nat} (member : s ∈ (bus.take reader number).subscriptions) :
    ∃ old ∈ bus.subscriptions, old.reader = s.reader ∧ old.path = s.path ∧
      s.queue = if old.reader = reader then old.queue.drop number else old.queue := by
  obtain ⟨old, among, rfl⟩ := List.mem_map.mp member
  refine ⟨old, among, ?_⟩
  by_cases same : old.reader = reader <;> simp [same]

theorem take_readers (reader : ρ) (number : Nat) (bus : Bus ρ α) :
    (bus.take reader number).readers = bus.readers := by
  simp only [readers, take, List.map_map]
  apply List.map_congr_left
  intro s _
  by_cases same : s.reader = reader <;> simp [same]

theorem mem_close : s ∈ (bus.close reader).subscriptions ↔
    s ∈ bus.subscriptions ∧ s.reader ≠ reader := by
  simp [close]

end Cadence.Bus
