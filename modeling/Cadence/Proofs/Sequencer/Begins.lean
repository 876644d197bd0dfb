import Cadence.Proofs.Sequencer.Pairs
import Cadence.Proofs.Trigger.Orders

namespace Cadence.Sequencer

inductive Doing
  | told (command : Command)
  | emitted (event : Event) (time : Instant)

def Doing.command? : Doing → Option Command
  | .told command => some command
  | .emitted .. => none

def Move.command? : Move → Option Command
  | .handle command _ => some command
  | .fire => none

def commandsOf (moves : List Move) : List Command := moves.filterMap Move.command?

@[simp] theorem commandsOf_append (moves more : List Move) :
    commandsOf (moves ++ more) = commandsOf moves ++ commandsOf more :=
  List.filterMap_append

def Move.doings (move : Move) (s : Sequencer) : List Doing :=
  move.command?.toList.map .told ++
    (happenings (move.take s).reports).map fun happening => .emitted happening.1 happening.2

def trace : List Move → Sequencer → List Doing
  | [], _ => []
  | move :: rest, s => move.doings s ++ trace rest (move.take s).state

def begins : List Move → Sequencer → Nat
  | [], _ => 0
  | move :: rest, s =>
      (if s.isIdle = true ∧ (move.take s).state.isIdle = false then 1 else 0) +
        begins rest (move.take s).state

variable {s : Sequencer} {move : Move} {moves more : List Move} {now : Instant}

theorem play_append (moves more : List Move) (s : Sequencer) :
    (play (moves ++ more) s).state = (play more (play moves s).state).state := by
  rw [play, Outcome.each_append]
  rfl

theorem trace_append (moves more : List Move) (s : Sequencer) :
    trace (moves ++ more) s = trace moves s ++ trace more (play moves s).state := by
  induction moves generalizing s with
  | nil => rfl
  | cons move rest ih =>
      rw [List.cons_append, trace, ih, trace, List.append_assoc]
      rfl

theorem commandsOf_trace (moves : List Move) (s : Sequencer) :
    (trace moves s).filterMap Doing.command? = commandsOf moves := by
  induction moves generalizing s with
  | nil => rfl
  | cons move rest ih =>
      have events : ((happenings (move.take s).reports).map fun happening =>
          Doing.emitted happening.1 happening.2).filterMap Doing.command? = [] := by
        simp [Doing.command?]
      rw [trace, List.filterMap_append, ih, Move.doings, List.filterMap_append, events]
      cases move <;> rfl

theorem begins_append (moves more : List Move) (s : Sequencer) :
    begins (moves ++ more) s = begins moves s + begins more (play moves s).state := by
  induction moves generalizing s with
  | nil => exact (Nat.zero_add _).symm
  | cons move rest ih =>
      rw [List.cons_append, begins, ih, begins, Nat.add_assoc]
      rfl

theorem fire_idle (poised : s.Poised) (idle : s.isIdle = true) : s.fire = .still s := by
  simp [fire, (poised.rest idle).2]

theorem handle_stop_idle (now : Instant) (s : Sequencer) :
    (s.handle now .stop).state.isIdle = true := by
  cases idle : s.isIdle with
  | true => simp [handle, stop, idle]
  | false =>
      simp only [handle, stop, idle, Bool.false_eq_true, if_false]
      rfl

theorem start_enters (now : Instant) (poised : s.Poised) (idle : s.isIdle = true)
    (present : s.activities ≠ []) :
    (s.start now).state.isIdle = false ∧ (s.start now).state.position.index = 0 ∧
      (s.start now).state.position.cycle = 0 := by
  obtain ⟨-, free⟩ := poised.rest idle
  obtain ⟨activity, found⟩ : ∃ activity, s.activities[0]? = some activity :=
    ⟨_, List.getElem?_eq_getElem (List.length_pos_iff.mpr present)⟩
  have begins : (s.start now).state = (enter now 0 0 s).state := by simp [start, idle]
  rw [begins]
  by_cases waits : 0 < activity.delay
  · rw [enter_waiting found free waits]
    exact ⟨rfl, rfl, rfl⟩
  · rw [enter_at_once found free waits]
    exact ⟨rfl, rfl, rfl⟩

theorem begun_by_start (poised : s.Poised) (idle : s.isIdle = true)
    (busy : (move.take s).state.isIdle = false) : ∃ now, move = .handle .start now := by
  cases move with
  | fire =>
      rw [Move.take, fire_idle poised idle, Outcome.still_state, idle] at busy
      cases busy
  | handle command now =>
      cases command with
      | start => exact ⟨now, rfl⟩
      | stop =>
          rw [Move.take, handle_stop_idle] at busy
          cases busy

theorem play_idle (poised : s.Poised) (idle : s.isIdle = true)
    (stopped : (commandsOf moves).getLast? ≠ some .start) : (play moves s).state.isIdle = true := by
  induction moves using List.reverseRecOn with
  | nil => exact idle
  | append_singleton moves move ih =>
      rw [play_append]
      cases move with
      | fire =>
          have before := ih (by simpa [commandsOf, Move.command?] using stopped)
          have rests := fire_idle (play_leads moves poised).poised before
          change ((play moves s).state.fire).state.isIdle = true
          rw [rests]
          exact before
      | handle command now =>
          cases command with
          | start => simp [commandsOf, Move.command?] at stopped
          | stop => exact handle_stop_idle now (play moves s).state

section chain
variable (chain : (commandsOf (moves ++ .handle .start now :: more)).IsChain Command.Precedes)
include chain

theorem stopped_before_start : (commandsOf moves).getLast? ≠ some .start := by
  intro started
  rw [commandsOf_append] at chain
  have next : (commandsOf (.handle .start now :: more)).head? = some .start := rfl
  have follows := (List.isChain_append.mp chain).2.2 .start started .start next
  cases follows rfl

theorem start_finds_idle (poised : s.Poised) (idle : s.isIdle = true) :
    (play moves s).state.isIdle = true :=
  play_idle poised idle (stopped_before_start chain)

end chain

theorem begins_eq_count (poised : s.Poised) (idle : s.isIdle = true) (present : s.activities ≠ [])
    (chain : (commandsOf moves).IsChain Command.Precedes) :
    begins moves s = (commandsOf moves).count .start := by
  induction moves using List.reverseRecOn with
  | nil => rfl
  | append_singleton moves move ih =>
      have leads := play_leads moves poised
      have before : (commandsOf moves).IsChain Command.Precedes := by
        rw [commandsOf_append] at chain
        exact (List.isChain_append.mp chain).1
      rw [begins_append, ih before, commandsOf_append, List.count_append]
      congr 1
      cases move with
      | fire =>
          have untold : (commandsOf [.fire]).count .start = 0 := rfl
          rw [untold]
          by_cases rests : (play moves s).state.isIdle = true
          · simp [begins, Move.take, fire_idle leads.poised rests, rests]
          · simp [begins, rests]
      | handle command now =>
          cases command with
          | start =>
              have rests := start_finds_idle chain poised idle
              have busy := (start_enters now leads.poised rests (leads.activities ▸ present)).1
              simp [begins, Move.take, handle, rests, busy, commandsOf, Move.command?]
          | stop => simp [begins, Move.take, handle_stop_idle, commandsOf, Move.command?]

end Cadence.Sequencer
