import Cadence.Proofs.Crew.Switching
import Cadence.Proofs.Sequencer.Begins

/-!
Commands in a crew. Whoever works there and whoever leaves, the commands that were taken and those that
are still pending are the ones that were submitted, in their order, and each command that is taken is
handled just once. Where there is a worker nothing stays pending.
-/

namespace Cadence.Crew
open Outcome Sequencer

def takings (reports : List Report) : List (Nat × Command) :=
  reports.filterMap fun
    | .taken worker command => some (worker, command)
    | .notice _ => none

@[simp] theorem takings_nil : takings [] = [] := rfl

@[simp] theorem takings_append (reports more : List Report) :
    takings (reports ++ more) = takings reports ++ takings more :=
  List.filterMap_append

@[simp] theorem takings_taken (worker : Nat) (command : Command) (reports : List Report) :
    takings (.taken worker command :: reports) = (worker, command) :: takings reports := rfl

@[simp] theorem takings_notices (notices : List Notice) : takings (notices.map .notice) = [] := by
  simp [takings]

def Act.submitted : Act → List Command
  | .step (.submit _ commands) => commands
  | .enqueue command => [command]
  | _ => []

/-- Where a command comes from that is handled: it is given by hand, a worker has taken it, or it is
the stop with which a worker leaves. -/
inductive Source
  | hand
  | worker (number : Nat)
  | farewell (number : Nat)

abbrev Handling := Source × Command

def Handling.taking? : Handling → Option (Nat × Command)
  | (.worker number, command) => some (number, command)
  | _ => none

def Handling.ofTaking (taking : Nat × Command) : Handling := (.worker taking.1, taking.2)

def Act.handled (crew : Crew) : Act → List Handling
  | .step (.handle command) => [(.hand, command)]
  | .step .dismiss => crew.waiting.min?.toList.map fun worker => (.farewell worker, .stop)
  | .stumble worker _ | .leave worker =>
      if worker ∈ crew.waiting then [(.farewell worker, .stop)] else []
  | act => (takings (perform act crew).reports).map .ofTaking

def handled : List Act → Crew → List Handling
  | [], _ => []
  | act :: rest, crew => act.handled crew ++ handled rest (perform act crew).state

structure Moved (crew : Crew) (moves : List Move) (outcome : Outcome Crew Report) : Prop where
  sequencer : outcome.state.sequencer = (Sequencer.play moves crew.sequencer).state
  happenings : happenings (notices outcome.reports) =
    happenings (Sequencer.play moves crew.sequencer).reports

variable {crew other : Crew} {moves more : List Move} {outcome : Outcome Crew Report}
  {worker : Nat} {command : Command} {commands : List Command} {acts : List Act}

/-! ## Moves -/

theorem Moved.andThen {next : Crew → Outcome Crew Report} (first : Moved crew moves outcome)
    (second : Moved outcome.state more (next outcome.state)) :
    Moved crew (moves ++ more) (outcome.andThen next) := by
  have played : Sequencer.play (moves ++ more) crew.sequencer =
      (Sequencer.play moves crew.sequencer).andThen (Sequencer.play more) := each_append _ _ _ _
  constructor
  · rw [played, andThen_state, andThen_state, ← first.sequencer]
    exact second.sequencer
  · rw [played, andThen_reports, andThen_reports, notices_append, happenings_append,
      happenings_append, first.happenings, second.happenings, first.sequencer]

theorem moved_still (crew : Crew) : Moved crew [] (.still crew) := ⟨rfl, rfl⟩

theorem Moved.elsewhere (moved : Moved other moves outcome) (same : other.sequencer = crew.sequencer) :
    Moved crew moves outcome := by
  obtain ⟨sequencer, happenings⟩ := moved
  rw [same] at sequencer happenings
  exact ⟨sequencer, happenings⟩

theorem run_moved (step : Sequencer → Outcome Sequencer Notice) (move : Move) (crew : Crew)
    (same : step crew.sequencer = move.take crew.sequencer) : Moved crew [move] (crew.run step) := by
  have played : Sequencer.play [move] crew.sequencer = move.take crew.sequencer := by
    simp [Sequencer.play, Outcome.andThen]
  constructor
  · rw [played, ← same]
    rfl
  · rw [notices_run, played, same]

theorem handle_moved (command : Command) (crew : Crew) :
    Moved crew [.handle command crew.now] (crew.handle command) :=
  run_moved _ _ crew rfl

/-! ## Accounts -/

structure Accounts (given : List Command) (handlings : List Handling) (crew : Crew)
    (outcome : Outcome Crew Report) : Prop where
  conserved : (takings outcome.reports).map Prod.snd ++ outcome.state.pending = crew.pending ++ given
  taken : takings outcome.reports = handlings.filterMap Handling.taking?
  moved : ∃ moves, commandsOf moves = handlings.map Prod.snd ∧ Moved crew moves outcome

def Serves (given : List Command) (crew : Crew) (outcome : Outcome Crew Report) : Prop :=
  Accounts given ((takings outcome.reports).map .ofTaking) crew outcome

theorem Accounts.andThen {given later : List Command} {handlings others : List Handling}
    {next : Crew → Outcome Crew Report} (first : Accounts given handlings crew outcome)
    (second : Accounts later others outcome.state (next outcome.state)) :
    Accounts (given ++ later) (handlings ++ others) crew (outcome.andThen next) := by
  obtain ⟨moves, told, moved⟩ := first.moved
  obtain ⟨more, told', moved'⟩ := second.moved
  refine ⟨?_, ?_, moves ++ more, ?_, moved.andThen moved'⟩
  · rw [andThen_reports, andThen_state, takings_append, List.map_append, List.append_assoc,
      second.conserved, ← List.append_assoc, first.conserved, List.append_assoc]
  · rw [andThen_reports, takings_append, first.taken, second.taken, List.filterMap_append]
  · rw [commandsOf_append, told, told', List.map_append]

theorem Serves.andThen {given later : List Command} {next : Crew → Outcome Crew Report}
    (first : Serves given crew outcome) (second : Serves later outcome.state (next outcome.state)) :
    Serves (given ++ later) crew (outcome.andThen next) := by
  have both := Accounts.andThen first second
  rwa [← List.map_append, ← takings_append] at both

theorem Serves.of_moved {given : List Command} (now : Instant)
    (conserved : (takings outcome.reports).map Prod.snd ++ outcome.state.pending =
      crew.pending ++ given)
    (moved : Moved crew ((takings outcome.reports).map fun taking => .handle taking.2 now) outcome) :
    Serves given crew outcome := by
  refine ⟨conserved, ?_, _, ?_, moved⟩
  · simp [List.filterMap_map, Function.comp_def, Handling.ofTaking, Handling.taking?]
  · simp [commandsOf, List.filterMap_map, Function.comp_def, Move.command?, Handling.ofTaking]

theorem accounts_unasked (moves : List Move) {given : List Command} (untaken : takings outcome.reports = [])
    (pending : outcome.state.pending = crew.pending ++ given) (unasked : commandsOf moves = [])
    (moved : Moved crew moves outcome) : Accounts given [] crew outcome :=
  ⟨by simp [untaken, pending], untaken, moves, unasked, moved⟩

theorem accounts_aside {given : List Command} (same : other.sequencer = crew.sequencer)
    (pending : other.pending = crew.pending ++ given) : Accounts given [] crew (.still other) :=
  accounts_unasked [] rfl pending rfl ((moved_still other).elsewhere same)

theorem accounts_still (crew : Crew) : Accounts [] [] crew (.still crew) :=
  accounts_aside rfl (by simp)

/-! ## What is taken -/

theorem take_moved (worker : Nat) (command : Command) (crew : Crew) :
    Moved crew [.handle command crew.now] (take worker command crew) :=
  ⟨(handle_moved command crew).sequencer, (handle_moved command crew).happenings⟩

theorem take_takings (worker : Nat) (command : Command) (crew : Crew) :
    takings (take worker command crew).reports = [(worker, command)] := by
  simp [take, handle, run]

theorem each_take (worker : Nat) (commands : List Command) (crew : Crew) :
    let outcome := each (take worker) commands crew
    takings outcome.reports = commands.map (worker, ·) ∧
      outcome.state = { crew with sequencer := outcome.state.sequencer } ∧
      Moved crew (commands.map (.handle · crew.now)) outcome := by
  induction commands generalizing crew with
  | nil => exact ⟨rfl, rfl, moved_still crew⟩
  | cons command rest ih =>
      obtain ⟨later, kept, moved⟩ := ih (take worker command crew).state
      refine ⟨?_, kept, (take_moved worker command crew).andThen moved⟩
      rw [each_cons, andThen_reports, takings_append, take_takings, later]
      rfl

theorem settle_unattended (absent : crew.waiting = []) : crew.settle = .still crew := by
  simp [settle, absent]

structure TakesAll (crew : Crew) (worker : Nat) (outcome : Outcome Crew Report) : Prop where
  takings : takings outcome.reports = crew.pending.map (worker, ·)
  pending : outcome.state.pending = []
  waiting : outcome.state.waiting.Perm crew.waiting
  hired : outcome.state.hired = crew.hired
  moved : Moved crew (crew.pending.map (.handle · crew.now)) outcome

theorem takers_of_takesAll {history : List Report} {taking : Nat × Command}
    (takes : TakesAll crew worker outcome) (among : taking ∈ takings (history ++ outcome.reports)) :
    taking ∈ takings history ∨ taking.1 = worker := by
  rw [takings_append, takes.takings] at among
  refine (List.mem_append.mp among).imp_right fun now => ?_
  obtain ⟨_, -, rfl⟩ := List.mem_map.mp now
  rfl

theorem settle_takesAll (present : crew.waiting ≠ []) :
    ∃ worker ∈ crew.waiting, TakesAll crew worker crew.settle := by
  obtain ⟨worker, rest, waiting⟩ := List.exists_cons_of_ne_nil present
  let turned := crew.waiting.drop crew.pending.length ++ crew.waiting.take crew.pending.length
  have settles : crew.settle =
      each (take worker) crew.pending { crew with pending := [], waiting := turned } := by
    simp only [settle, waiting, turned]
  obtain ⟨taken, kept, moved⟩ :=
    each_take worker crew.pending { crew with pending := [], waiting := turned }
  rw [← settles] at taken kept moved
  refine ⟨worker, by simp [waiting], taken, by rw [kept], ?_, by rw [kept], moved.elsewhere rfl⟩
  have swapped : turned.Perm
      (crew.waiting.take crew.pending.length ++ crew.waiting.drop crew.pending.length) :=
    List.perm_append_comm
  rw [List.take_append_drop] at swapped
  rw [kept]
  exact swapped

theorem settle_serves (crew : Crew) : Serves [] crew crew.settle := by
  by_cases absent : crew.waiting = []
  · rw [settle_unattended absent]
    exact accounts_still crew
  · obtain ⟨worker, -, takes⟩ := settle_takesAll absent
    refine .of_moved crew.now ?_ ?_
    · simp [takes.takings, takes.pending, Function.comp_def]
    · simpa [takes.takings, Function.comp_def] using takes.moved

theorem enqueue_serves (command : Command) (crew : Crew) :
    Serves [command] crew (.still (crew.enqueue command)) := accounts_aside rfl rfl

theorem submit_serves (oneByOne : Bool) (commands : List Command) (crew : Crew) :
    Serves commands crew (crew.submit oneByOne commands) := by
  cases oneByOne with
  | false =>
      let filled : Crew := { crew with pending := crew.pending ++ commands }
      have queued : Serves commands crew (.still filled) := accounts_aside rfl rfl
      have served := queued.andThen (settle_serves filled)
      rwa [List.append_nil] at served
  | true =>
      simp only [submit, if_true]
      induction commands generalizing crew with
      | nil => exact accounts_still crew
      | cons command rest ih =>
          have first := (enqueue_serves command crew).andThen (settle_serves (crew.enqueue command))
          exact first.andThen (ih _)

theorem hire_serves (crew : Crew) : Serves [] crew crew.hire := by
  let joined : Crew :=
    { crew with waiting := crew.waiting ++ [crew.hired], hired := crew.hired + 1 }
  have joins : Serves [] crew (.still joined) := accounts_aside rfl (by simp [joined])
  exact joins.andThen (settle_serves joined)

theorem takeUp_serves (worker : Nat) (crew : Crew) : Serves [] crew (crew.takeUp worker) := by
  unfold takeUp
  cases pending : crew.pending with
  | nil => exact accounts_still crew
  | cons command rest =>
      have taken := take_takings worker command { crew with pending := rest }
      have moved := take_moved worker command { crew with pending := rest }
      refine .of_moved crew.now ?_ ?_
      · simp [take, handle, run, pending]
      · rw [taken]
        exact moved.elsewhere rfl

/-! ## What is not taken -/

theorem fired_accounts (now : Instant) (crew : Crew) :
    Accounts [] [] crew ({ crew with now := now }.run Sequencer.fire) :=
  accounts_unasked [.fire] (takings_notices _) (by simp [run]) rfl
    ((run_moved _ .fire { crew with now := now } rfl).elsewhere rfl)

theorem fireAll_accounts (target : Instant) (fuel : Nat) (crew : Crew) :
    Accounts [] [] crew (fireAll target fuel crew) := by
  induction fuel generalizing crew with
  | zero => exact accounts_still crew
  | succ fuel ih =>
      unfold fireAll fireBy?
      cases pending : crew.sequencer.timer with
      | none => exact accounts_still crew
      | some timer =>
          by_cases due : timer.due.isBy target
          · simp only [due, if_true]
            exact (fired_accounts timer.due crew).andThen (ih _)
          · simp only [due, Bool.false_eq_true, if_false]
            exact accounts_still crew

theorem advance_accounts (seconds : Float) (crew : Crew) :
    Accounts [] [] crew (crew.advance seconds) := by
  let target := crew.now.after seconds
  let arrive (d : Crew) : Outcome Crew Report := .still (d.arriveAt target)
  have arrives (d : Crew) : Accounts [] [] d (arrive d) := by
    simp only [arrive, arriveAt]
    split
    · exact accounts_still d
    · exact accounts_aside rfl (by simp)
  exact (fireAll_accounts target patience crew).andThen (arrives _)

theorem fire_accounts (crew : Crew) : Accounts [] [] crew crew.fire := by
  unfold Crew.fire
  cases crew.sequencer.timer with
  | none => exact accounts_still crew
  | some timer => exact fired_accounts timer.due crew

theorem handle_accounts {source : Source} {command : Command}
    (elsewhere : Handling.taking? (source, command) = none) (same : other.sequencer = crew.sequencer)
    (pending : other.pending = crew.pending) :
    Accounts [] [(source, command)] crew (other.handle command) := by
  refine ⟨?_, ?_, _, rfl, (handle_moved command other).elsewhere same⟩
  · simp [handle, run, pending]
  · simp [handle, run, elsewhere]

theorem refuse_accounts (value : Value) (crew : Crew) : Accounts [] [] crew (crew.refuse value) :=
  accounts_unasked [] rfl (by simp [refuse]) rfl ⟨rfl, rfl⟩

theorem leave_present (present : worker ∈ crew.waiting) :
    crew.leave worker = handle .stop { crew with waiting := crew.waiting.erase worker } :=
  if_pos present

theorem leave_absent (absent : worker ∉ crew.waiting) : crew.leave worker = .still crew :=
  if_neg absent

theorem dismiss_oldest (oldest : crew.waiting.min? = some worker) :
    crew.dismiss = crew.leave worker := by
  rw [leave_present (List.min?_mem oldest)]
  simp [dismiss, oldest]

theorem dismiss_nobody (nobody : crew.waiting.min? = none) : crew.dismiss = .still crew := by
  simp [dismiss, nobody]

theorem leave_accounts (worker : Nat) (crew : Crew) :
    Accounts [] (if worker ∈ crew.waiting then [(.farewell worker, .stop)] else []) crew
      (crew.leave worker) := by
  by_cases present : worker ∈ crew.waiting
  · rw [if_pos present, leave_present present]
    exact handle_accounts rfl rfl rfl
  · rw [if_neg present, leave_absent present]
    exact accounts_still crew

theorem dismiss_accounts (crew : Crew) : Accounts []
    (crew.waiting.min?.toList.map fun worker => (.farewell worker, .stop)) crew crew.dismiss := by
  cases oldest : crew.waiting.min? with
  | none =>
      rw [dismiss_nobody oldest]
      exact accounts_still crew
  | some worker =>
      have leaves := leave_accounts worker crew
      rw [if_pos (List.min?_mem oldest)] at leaves
      rw [dismiss_oldest oldest]
      exact leaves

/-! ## Acts -/

theorem Accounts.untold {given : List Command} (accounts : Accounts given [] crew outcome) :
    Serves given crew outcome := by
  have nothing := accounts.taken
  rw [List.filterMap_nil] at nothing
  rwa [Serves, nothing]

theorem perform_accounts (act : Act) (crew : Crew) :
    Accounts act.submitted (act.handled crew) crew (perform act crew) := by
  cases act with
  | step action =>
      cases action with
      | handle command => exact handle_accounts rfl rfl rfl
      | refuse value => exact (refuse_accounts value crew).untold
      | submit oneByOne commands => exact submit_serves oneByOne commands crew
      | hire => exact hire_serves crew
      | dismiss => exact dismiss_accounts crew
      | advance seconds => exact (advance_accounts seconds crew).untold
  | enqueue command => exact enqueue_serves command crew
  | join => exact accounts_aside rfl (by simp [Act.submitted])
  | takeUp worker => exact takeUp_serves worker crew
  | stumble worker value => exact (refuse_accounts value crew).andThen (leave_accounts worker crew)
  | leave worker => exact leave_accounts worker crew
  | tick now => exact accounts_aside rfl (by simp [Act.submitted])
  | fire => exact (fire_accounts crew).untold

theorem play_accounts (acts : List Act) (crew : Crew) :
    Accounts (acts.flatMap Act.submitted) (handled acts crew) crew (play acts crew) := by
  induction acts generalizing crew with
  | nil => exact accounts_still crew
  | cons act rest ih => exact (perform_accounts act crew).andThen (ih _)

/-! ## Workers -/

theorem submit_keeps {invariant : Crew → List Report → Prop}
    (fills : ∀ commands, Keeps invariant fun crew =>
      { crew with pending := crew.pending ++ commands }.settle)
    (oneByOne : Bool) (commands : List Command) : Keeps invariant (submit oneByOne commands) := by
  cases oneByOne with
  | false => exact fills commands
  | true => exact Keeps.each fun command _ => fills [command]

structure Staffwise (invariant : Crew → List Report → Prop) : Prop where
  quiet : ∀ {crew other : Crew} {history more : List Report}, invariant crew history →
    takings more = [] → other.waiting = crew.waiting → other.hired = crew.hired →
    other.pending = crew.pending → invariant other (history ++ more)
  fill : ∀ commands, Keeps invariant fun crew =>
    { crew with pending := crew.pending ++ commands }.settle
  hire : Keeps invariant hire
  leave : ∀ worker, Keeps invariant (leave worker)

namespace Staffwise
variable {invariant : Crew → List Report → Prop}

theorem fireAll (staffwise : Staffwise invariant) (target : Instant) (fuel : Nat) :
    Keeps invariant (Crew.fireAll target fuel) := by
  induction fuel with
  | zero => exact keeps_still
  | succ fuel ih =>
      intro crew history holds
      unfold Crew.fireAll fireBy?
      cases crew.sequencer.timer with
      | none => exact keeps_still crew history holds
      | some timer =>
          by_cases due : timer.due.isBy target
          · simp only [due, if_true]
            rw [andThen_reports, ← List.append_assoc]
            exact ih _ _ (staffwise.quiet holds (takings_notices _) rfl rfl rfl)
          · simp only [due, Bool.false_eq_true, if_false]
            exact keeps_still crew history holds

theorem arriveAt (staffwise : Staffwise invariant) (target : Instant) :
    Keeps invariant fun crew => .still (crew.arriveAt target) := by
  intro crew history holds
  dsimp only [Crew.arriveAt]
  split
  · exact keeps_still crew history holds
  · exact staffwise.quiet holds rfl rfl rfl rfl

theorem dismiss (staffwise : Staffwise invariant) : Keeps invariant Crew.dismiss := by
  intro crew history holds
  cases oldest : crew.waiting.min? with
  | none =>
      rw [dismiss_nobody oldest]
      exact keeps_still crew history holds
  | some worker =>
      rw [dismiss_oldest oldest]
      exact staffwise.leave worker crew history holds

theorem step (staffwise : Staffwise invariant) (action : Step) : Keeps invariant (Crew.step action) := by
  cases action with
  | handle command =>
      exact fun crew history holds => staffwise.quiet holds (takings_notices _) rfl rfl rfl
  | refuse value => exact fun crew history holds => staffwise.quiet holds rfl rfl rfl rfl
  | submit oneByOne commands => exact submit_keeps staffwise.fill oneByOne commands
  | hire => exact staffwise.hire
  | dismiss => exact staffwise.dismiss
  | advance seconds =>
      intro crew history holds
      exact ((staffwise.fireAll _ patience).andThen (staffwise.arriveAt _)) crew history holds

theorem play (staffwise : Staffwise invariant) (steps : List Step) :
    Keeps invariant (Crew.play (steps.map .step)) := by
  refine Keeps.each fun act member => ?_
  obtain ⟨action, -, rfl⟩ := List.mem_map.mp member
  exact staffwise.step action

end Staffwise

def Settled (crew : Crew) : Prop := crew.waiting ≠ [] → crew.pending = []

theorem settle_settled (crew : Crew) : crew.settle.state.Settled := by
  intro attended
  by_cases absent : crew.waiting = []
  · rw [settle_unattended absent] at attended
    exact absurd absent attended
  · obtain ⟨worker, -, takes⟩ := settle_takesAll absent
    exact takes.pending

theorem settled_staffwise : Staffwise fun crew _ => crew.Settled where
  quiet settled _ waiting _ pending := by
    rw [Settled, waiting, pending]
    exact settled
  fill commands crew history settled := settle_settled _
  hire crew history settled := settle_settled _
  leave worker crew history settled := by
    by_cases present : worker ∈ crew.waiting
    · rw [leave_present present]
      exact fun _ => settled (List.ne_nil_of_mem present)
    · rw [leave_absent present]
      exact settled

structure Numbered (crew : Crew) : Prop where
  distinct : crew.waiting.Nodup
  below : ∀ worker ∈ crew.waiting, worker < crew.hired

theorem Numbered.settle (numbered : crew.Numbered) : crew.settle.state.Numbered := by
  by_cases absent : crew.waiting = []
  · rw [settle_unattended absent]
    exact numbered
  · obtain ⟨_, -, takes⟩ := settle_takesAll absent
    refine ⟨takes.waiting.nodup_iff.mpr numbered.distinct, ?_⟩
    intro worker present
    rw [takes.hired]
    exact numbered.below worker (takes.waiting.mem_iff.mp present)

theorem numbered_staffwise : Staffwise fun crew _ => crew.Numbered where
  quiet numbered _ waiting hired _ :=
    ⟨by rw [waiting]; exact numbered.distinct, by rw [waiting, hired]; exact numbered.below⟩
  fill commands crew history numbered := Numbered.settle ⟨numbered.distinct, numbered.below⟩
  hire crew history numbered := by
    refine Numbered.settle ⟨?_, ?_⟩
    · refine List.nodup_append.mpr ⟨numbered.distinct, by simp, ?_⟩
      intro worker present other new
      rw [List.mem_singleton.mp new]
      exact Nat.ne_of_lt (numbered.below worker present)
    · intro worker present
      rcases List.mem_append.mp present with before | new
      · exact Nat.lt_succ_of_lt (numbered.below worker before)
      · rw [List.mem_singleton.mp new]
        exact Nat.lt_succ_self _
  leave worker crew history numbered := by
    by_cases present : worker ∈ crew.waiting
    · rw [leave_present present]
      exact ⟨numbered.distinct.erase worker, fun other remains =>
        numbered.below other (List.mem_of_mem_erase remains)⟩
    · rw [leave_absent present]
      exact numbered

structure Retired (worker : Nat) (crew : Crew) (history : List Report) : Prop where
  absent : worker ∉ crew.waiting
  former : worker < crew.hired
  untaken : ∀ taking ∈ takings history, taking.1 ≠ worker

theorem Retired.settle {history : List Report} (retired : Retired worker crew history) :
    Retired worker crew.settle.state (history ++ crew.settle.reports) := by
  by_cases absent : crew.waiting = []
  · rw [settle_unattended absent]
    exact keeps_still crew history retired
  · obtain ⟨other, present, takes⟩ := settle_takesAll absent
    refine ⟨?_, ?_, ?_⟩
    · rw [takes.waiting.mem_iff]
      exact retired.absent
    · rw [takes.hired]
      exact retired.former
    · intro taking among
      rcases takers_of_takesAll takes among with before | taker
      · exact retired.untaken taking before
      · rw [taker]
        rintro rfl
        exact retired.absent present

theorem retired_staffwise (worker : Nat) : Staffwise (Retired worker) where
  quiet retired quiet waiting hired _ := by
    refine ⟨by rw [waiting]; exact retired.absent, by rw [hired]; exact retired.former, ?_⟩
    rw [takings_append, quiet, List.append_nil]
    exact retired.untaken
  fill commands crew history retired :=
    Retired.settle ⟨retired.absent, retired.former, retired.untaken⟩
  hire crew history retired := by
    refine Retired.settle ⟨?_, Nat.lt_succ_of_lt retired.former, retired.untaken⟩
    simpa [retired.absent] using Nat.ne_of_lt retired.former
  leave other crew history retired := by
    by_cases present : other ∈ crew.waiting
    · rw [leave_present present]
      refine ⟨fun remains => retired.absent (List.mem_of_mem_erase remains), retired.former, ?_⟩
      rw [takings_append]
      simpa [handle, run] using retired.untaken
    · rw [leave_absent present]
      exact keeps_still crew history retired

/-! ## Every run -/

structure Departs (worker : Nat) (crew : Crew) : Prop where
  untaken : takings (crew.leave worker).reports = []
  pending : (crew.leave worker).state.pending = crew.pending
  others : (crew.leave worker).state.waiting = crew.waiting.erase worker
  rests : (crew.leave worker).state.sequencer =
    { crew.sequencer with position := .rest, timer := none }
  closes : SwitchesOff crew.sequencer (log (crew.leave worker).reports)

theorem departs (poised : crew.sequencer.Poised) (present : worker ∈ crew.waiting) :
    Departs worker crew := by
  have leaves := leave_present present
  refine ⟨?_, ?_, ?_, ?_, ?_⟩
  · rw [leaves]
    exact takings_notices _
  · rw [leaves]
    rfl
  · rw [leaves]
    rfl
  · rw [leaves]
    exact (stop_rest crew.now poised).1
  · rw [leaves, log, handle, notices_run]
    exact stop_switchesOff crew.now poised

/-- At every moment of any acts: commands that were taken and commands that are pending are those that
were submitted. A sequencer that handles commands one by one, each that was given by hand or taken
and a stop for each worker who has left, comes to the same state with the same events. -/
structure Accounted (fresh : Crew) (acts : List Act) : Prop where
  conserved : (takings (play acts fresh).reports).map Prod.snd ++ (play acts fresh).state.pending =
    acts.flatMap Act.submitted
  taken : takings (play acts fresh).reports = (handled acts fresh).filterMap Handling.taking?
  handled : ∃ moves, commandsOf moves = (handled acts fresh).map Prod.snd ∧
    Moved fresh moves (play acts fresh)
  departs : ∀ worker ∈ (play acts fresh).state.waiting, Departs worker (play acts fresh).state

/-- After whole steps nothing is pending where there is a worker. New commands are all taken, by
workers who are there, and a worker who is hired takes what was submitted before. The worker who is
dismissed is the oldest one, and takes nothing any more. -/
structure Attended (crew : Crew) : Prop where
  settled : crew.Settled
  submitted : crew.waiting ≠ [] → ∀ oneByOne commands,
    (takings (crew.submit oneByOne commands).reports).map Prod.snd = commands ∧
      ∀ taking ∈ takings (crew.submit oneByOne commands).reports, taking.1 ∈ crew.waiting
  hired : crew.waiting = [] → takings crew.hire.reports = crew.pending.map (crew.hired, ·) ∧
    crew.hire.state.pending = []
  dismissed : ∀ oldest ∈ crew.waiting, (∀ worker ∈ crew.waiting, oldest ≤ worker) →
    crew.dismiss = crew.leave oldest ∧ ∀ later : List Step,
      ∀ taking ∈ takings (play (later.map .step) crew.dismiss.state).reports, taking.1 ≠ oldest

theorem submit_within (crew : Crew) (oneByOne : Bool) (commands : List Command) :
    (crew.submit oneByOne commands).state.waiting.Perm crew.waiting ∧
      ∀ taking ∈ takings (crew.submit oneByOne commands).reports, taking.1 ∈ crew.waiting := by
  let within (now : Crew) (history : List Report) : Prop :=
    now.waiting.Perm crew.waiting ∧ ∀ taking ∈ takings history, taking.1 ∈ crew.waiting
  have fills (commands : List Command) : Keeps within fun now =>
      { now with pending := now.pending ++ commands }.settle := by
    rintro now history ⟨same, takers⟩
    let filled : Crew := { now with pending := now.pending ++ commands }
    change within filled.settle.state (history ++ filled.settle.reports)
    by_cases absent : now.waiting = []
    · have unattended : filled.settle = .still filled := settle_unattended absent
      rw [unattended]
      exact keeps_still _ history ⟨same, takers⟩
    · obtain ⟨worker, present, takes⟩ : ∃ worker ∈ filled.waiting, TakesAll filled worker filled.settle :=
        settle_takesAll absent
      refine ⟨takes.waiting.trans same, ?_⟩
      intro taking among
      rcases takers_of_takesAll takes among with before | taker
      · exact takers taking before
      · rw [taker]
        exact same.mem_iff.mp present
  exact submit_keeps fills oneByOne commands crew [] ⟨.refl _, by simp⟩

theorem attended (settled : crew.Settled) (numbered : crew.Numbered) : crew.Attended where
  settled := settled
  submitted present oneByOne commands := by
    obtain ⟨same, takers⟩ := submit_within crew oneByOne commands
    have remains : (crew.submit oneByOne commands).state.waiting ≠ [] := by
      intro none
      rw [none] at same
      exact present same.symm.eq_nil
    have taken := settled_staffwise.step (.submit oneByOne commands) crew [] settled remains
    have conserved := (submit_serves oneByOne commands crew).conserved
    rw [settled present] at conserved
    refine ⟨?_, takers⟩
    rw [Crew.step] at taken
    simpa [taken] using conserved
  hired absent := by
    let joined : Crew :=
      { crew with waiting := crew.waiting ++ [crew.hired], hired := crew.hired + 1 }
    obtain ⟨worker, present, takes⟩ : ∃ worker ∈ joined.waiting, TakesAll joined worker joined.settle :=
      settle_takesAll (by simp [joined])
    obtain rfl : worker = crew.hired := by simpa [joined, absent] using present
    exact ⟨takes.takings, takes.pending⟩
  dismissed oldest present first := by
    have least : crew.waiting.min? = some oldest := List.min?_eq_some_iff.mpr ⟨present, first⟩
    have leaves := dismiss_oldest least
    refine ⟨leaves, fun later => ?_⟩
    have retired : Retired oldest crew.dismiss.state [] := by
      rw [leaves, leave_present present]
      exact ⟨fun remains => numbered.distinct.not_mem_erase remains, numbered.below oldest present, by simp⟩
    exact ((retired_staffwise oldest).play later _ [] retired).untaken

theorem commands_handled_once {task : String} {activities : List Activity} {fresh : Crew}
    (created : create task activities = .ok fresh) :
    (∀ acts : List Act, Accounted fresh acts) ∧
      ∀ steps : List Step, Attended (play (steps.map .step) fresh).state := by
  obtain ⟨-, rfl⟩ := create_crew created
  let fresh : Crew := ⟨idle task activities, .start, [], [], 0⟩
  refine ⟨fun acts => ?_, fun steps => ?_⟩
  · have accounts := play_accounts acts fresh
    have led := play_leads _ acts fresh [] (.refl (poised_idle task activities))
    exact ⟨accounts.conserved, accounts.taken, accounts.moved, fun _ => departs led.poised⟩
  · have numbered : fresh.Numbered := ⟨List.nodup_nil, by simp [fresh]⟩
    exact attended (settled_staffwise.play steps fresh [] fun _ => rfl)
      (numbered_staffwise.play steps fresh [] numbered)

theorem lamp_and_fan_handled :
    let fresh : Crew := ⟨idle "evening" [lamp, fan], .start, [], [], 0⟩
    let steps : List Step := [.submit false [.stop, .start], .hire, .hire, .advance 1.5, .dismiss,
      .submit true [.start, .stop]]
    create "evening" [lamp, fan] = .ok fresh ∧
      takings (play (steps.map .step) fresh).reports =
        [(0, .stop), (0, .start), (1, .start), (1, .stop)] ∧
      Accounted fresh (steps.map .step) ∧ Attended (play (steps.map .step) fresh).state := by
  intro fresh steps
  have created : create "evening" [lamp, fan] = .ok fresh := rfl
  have takings : takings (play (steps.map .step) fresh).reports =
      [(0, .stop), (0, .start), (1, .start), (1, .stop)] := by decide +kernel
  obtain ⟨accounted, attended⟩ := commands_handled_once created
  exact ⟨created, takings, accounted _, attended steps⟩

end Cadence.Crew
