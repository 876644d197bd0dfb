import Cadence.Proofs.Bus.Queues

namespace Cadence.Bus
variable {ρ α : Type}

def keep (among : ρ → Bool) (bus : Bus ρ α) : Bus ρ α :=
  { bus with subscriptions := bus.subscriptions.filter fun s => among s.reader }

section keep
variable {reader : ρ} {path : String}

theorem filter_reader_map {f : Subscription ρ α → Subscription ρ α}
    (keeps : ∀ s, (f s).reader = s.reader) (among : ρ → Bool)
    (subscriptions : List (Subscription ρ α)) :
    (subscriptions.map f).filter (fun s => among s.reader) =
      (subscriptions.filter fun s => among s.reader).map f := by
  rw [List.filter_map]
  congr 2
  funext s
  simp [keeps]

theorem keep_publish (among : ρ → Bool) (path : String) (signal : α) (bus : Bus ρ α) :
    (bus.publish path signal).keep among = (bus.keep among).publish path signal := by
  simp only [publish, keep]
  congr 1
  apply filter_reader_map
  intro s
  split <;> rfl

theorem keep_carry (among : ρ → Bool) (signals : List (String × α)) (bus : Bus ρ α) :
    (bus.carry signals).keep among = (bus.keep among).carry signals := by
  induction signals generalizing bus with
  | nil => rfl
  | cons signal rest ih =>
      have later := ih (bus.publish signal.1 signal.2)
      rwa [keep_publish] at later

theorem idleReaders_keep (among : ρ → Bool) (path : String) (bus : Bus ρ α) :
    (bus.idleReaders path).filter among = (bus.keep among).idleReaders path := by
  simp only [idleReaders, keep, List.filter_map, List.filter_filter]
  congr 1
  apply List.filter_congr
  intro s _
  simp [Bool.and_comm, Function.comp]

theorem woken_keep (among : ρ → Bool) (signals : List (String × α)) (bus : Bus ρ α) :
    (woken signals bus).filter among = woken signals (bus.keep among) := by
  induction signals generalizing bus with
  | nil => rfl
  | cons signal rest ih => simp only [woken, List.filter_append, idleReaders_keep, ih, keep_publish]

theorem keep_subscribe (among : ρ → Bool) (seen : among reader = true) (path : String)
    (bus : Bus ρ α) :
    (bus.subscribe reader path).keep among = (bus.keep among).subscribe reader path := by
  simp [subscribe, keep, last?, seen]

theorem keep_subscribe_other (among : ρ → Bool) (unseen : among reader = false) (path : String)
    (bus : Bus ρ α) :
    (bus.subscribe reader path).keep among = bus.keep among := by
  simp [subscribe, keep, unseen]

variable [DecidableEq ρ]

theorem queued_keep (among : ρ → Bool) (seen : among reader = true) (bus : Bus ρ α) :
    (bus.keep among).queued reader = bus.queued reader := by
  simp only [queued, keep, List.find?_filter]
  congr 3
  funext s
  by_cases own : s.reader = reader
  · simp [own, seen]
  · simp [own]

theorem keep_take (among : ρ → Bool) (reader : ρ) (number : Nat) (bus : Bus ρ α) :
    (bus.take reader number).keep among = (bus.keep among).take reader number := by
  simp only [take, keep]
  congr 1
  apply filter_reader_map
  intro s
  split <;> rfl

theorem keep_take_other (among : ρ → Bool) (unseen : among reader = false) (number : Nat)
    (bus : Bus ρ α) :
    (bus.take reader number).keep among = bus.keep among := by
  rw [keep_take]
  simp only [take, keep]
  congr 1
  conv_rhs => rw [← List.map_id (bus.subscriptions.filter _)]
  apply List.map_congr_left
  intro s member
  have different : s.reader ≠ reader := by
    rintro rfl
    simp [unseen] at member
  simp [different]

theorem keep_close (among : ρ → Bool) (reader : ρ) (bus : Bus ρ α) :
    (bus.close reader).keep among = (bus.keep among).close reader := by
  simp [close, keep, List.filter_filter, Bool.and_comm]

theorem keep_close_other (among : ρ → Bool) (unseen : among reader = false) (bus : Bus ρ α) :
    (bus.close reader).keep among = bus.keep among := by
  simp only [close, keep, List.filter_filter]
  congr 1
  apply List.filter_congr
  intro s _
  by_cases own : s.reader = reader
  · simp [own, unseen]
  · simp [own]

end keep

variable [DecidableEq ρ] {reader other : ρ} {path : String}

/-! ## One reader -/

def of (reader : ρ) (bus : Bus ρ α) : Bus ρ α :=
  { bus with subscriptions := bus.subscriptions.filter (·.reader = reader) }

theorem queued_of (reader : ρ) (bus : Bus ρ α) :
    (bus.of reader).queued reader = bus.queued reader := queued_keep (· = reader) (by simp) bus

theorem of_take (reader : ρ) (number : Nat) (bus : Bus ρ α) :
    (bus.take reader number).of reader = (bus.of reader).take reader number :=
  keep_take (· = reader) reader number bus

theorem of_take_other (different : other ≠ reader) (number : Nat) (bus : Bus ρ α) :
    (bus.take other number).of reader = bus.of reader :=
  keep_take_other (· = reader) (by simpa using different) number bus

theorem of_close (reader : ρ) (bus : Bus ρ α) :
    (bus.close reader).of reader = (bus.of reader).close reader :=
  keep_close (· = reader) reader bus

theorem of_close_other (different : other ≠ reader) (bus : Bus ρ α) :
    (bus.close other).of reader = bus.of reader :=
  keep_close_other (· = reader) (by simpa using different) bus

theorem of_subscribe (reader : ρ) (path : String) (bus : Bus ρ α) :
    (bus.subscribe reader path).of reader = (bus.of reader).subscribe reader path :=
  keep_subscribe (· = reader) (by simp) path bus

theorem of_subscribe_other (different : other ≠ reader) (path : String) (bus : Bus ρ α) :
    (bus.subscribe other path).of reader = bus.of reader :=
  keep_subscribe_other (· = reader) (by simpa using different) path bus

theorem of_carry (reader : ρ) (signals : List (String × α)) (bus : Bus ρ α) :
    (bus.carry signals).of reader = (bus.of reader).carry signals :=
  keep_carry (· = reader) signals bus

theorem woken_of (reader : ρ) (signals : List (String × α)) (bus : Bus ρ α) :
    (woken signals bus).filter (· = reader) = woken signals (bus.of reader) :=
  woken_keep (· = reader) signals bus

theorem unread_of {bus : Bus ρ α} (absent : (bus.of reader).subscriptions = []) :
    reader ∉ bus.readers := by
  intro read
  obtain ⟨s, member, rfl⟩ := List.mem_map.mp read
  have seen : s ∈ (bus.of s.reader).subscriptions := List.mem_filter.mpr ⟨member, by simp⟩
  rw [absent] at seen
  cases seen

theorem queued_congr {bus other : Bus ρ α} (same : bus.of reader = other.of reader) :
    bus.queued reader = other.queued reader := by
  rw [← queued_of, same, queued_of]

theorem queued_subscribe {bus : Bus ρ α} (unread : reader ∉ bus.readers) :
    (bus.subscribe reader path).queued reader = (bus.last? path).toList := by
  have missing : (bus.subscriptions.find? fun s => s.reader = reader) = none := by
    apply List.find?_eq_none.mpr
    intro s member same
    exact unread (List.mem_map.mpr ⟨s, member, by simpa using same⟩)
  simp [queued, subscribe, List.find?_append, missing]

theorem queued_carry (signals : List (String × α)) {bus : Bus ρ α} {s : Subscription ρ α}
    (nodup : bus.readers.Nodup) (member : s ∈ bus.subscriptions) :
    (bus.carry signals).queued s.reader = bus.queued s.reader ++ published s.path signals := by
  have filled : { s with queue := s.queue ++ published s.path signals } ∈
      (bus.carry signals).subscriptions := by
    rw [carry_subscriptions]
    exact List.mem_map_of_mem member
  have nodup' : (bus.carry signals).readers.Nodup := by rwa [carry_readers]
  rw [queued_of_mem nodup member]
  exact queued_of_mem nodup' filled

end Cadence.Bus
