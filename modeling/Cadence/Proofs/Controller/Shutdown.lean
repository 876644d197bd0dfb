import Cadence.Proofs.Controller.Runs

namespace Cadence

theorem Outlet.call_path (outlet : Outlet) (event : Event) :
    (outlet.call event).path = event.activity.path := by
  obtain ⟨switching, index, activity⟩ := event
  cases switching with
  | on => cases kind : activity.kind <;> simp [call, kind, Call.path]
  | off =>
      cases kind : activity.kind with
      | switch => simp [call, kind, Call.path]
      | notification => cases off : activity.off <;> simp [call, kind, off, Call.path]

namespace Effect

def driven? (path : String) : Effect → Option Call
  | .called _ call _ => if call.path = path then some call else none
  | _ => none

def driven (path : String) (history : List Effect) : List Call := history.filterMap (driven? path)

theorem driven_last {path : String} {call : Call} {history : List Effect}
    (last : (driven path history).getLast? = some call) :
    call.path = path ∧ ∃ task before after, calls task history = before ++ call :: after ∧
      ∀ other ∈ after, other.path ≠ path := by
  obtain ⟨earlier, split⟩ := List.getLast?_eq_some_iff.mp last
  obtain ⟨before, rest, whole, -, final⟩ := List.filterMap_eq_append_iff.mp split
  obtain ⟨between, effect, after, rest', -, drives, none⟩ := List.filterMap_eq_cons_iff.mp final
  cases effect with
  | called task made time =>
      simp only [driven?, Option.ite_none_right_eq_some, Option.some.injEq] at drives
      obtain ⟨samePath, rfl⟩ := drives
      refine ⟨samePath, task, calls task (before ++ between), calls task after, ?_, ?_⟩
      · rw [whole, rest', ← List.append_assoc, calls_append]
        simp [calls, call?]
      · intro other among same
        obtain ⟨effect, member, calls⟩ := List.mem_filterMap.mp among
        have undriven := List.filterMap_eq_nil_iff.mp none effect member
        cases effect <;> simp only [call?, reduceCtorEq, Option.ite_none_right_eq_some,
          Option.some.injEq] at calls
        obtain ⟨-, rfl⟩ := calls
        simp [driven?, same] at undriven
  | _ => simp [driven?] at drives

theorem driven_of_called {name : String} {call : Call} {history : List Effect}
    (among : call ∈ calls name history) : call ∈ driven call.path history := by
  obtain ⟨effect, member, called⟩ := List.mem_filterMap.mp among
  refine List.mem_filterMap.mpr ⟨effect, member, ?_⟩
  cases effect <;> simp only [call?, reduceCtorEq, Option.ite_none_right_eq_some,
    Option.some.injEq] at called
  obtain ⟨-, rfl⟩ := called
  simp [driven?]

end Effect

open Sequencer Effect

theorem on_or_off {outlet : Outlet} {turns : List Turn} {before after : List Call} {call : Call}
    (split : (paired turns).map outlet.call = before ++ call :: after) :
    ∃ turn ∈ turns, call = outlet.call turn.off ∨
      call = outlet.call turn.on ∧ outlet.call turn.off ∈ after := by
  induction turns generalizing before with
  | nil => simp at split
  | cons turn rest ih =>
      -- The call stands where the turn goes on, where it goes off, or behind both.
      have unfolded : (paired (turn :: rest)).map outlet.call =
          outlet.call turn.on :: outlet.call turn.off :: (paired rest).map outlet.call := rfl
      rw [unfolded] at split
      match before with
      | [] =>
          obtain ⟨rfl, rfl⟩ := List.cons.inj split
          exact ⟨turn, by simp, .inr ⟨rfl, by simp⟩⟩
      | [first] =>
          simp only [List.cons_append, List.nil_append, List.cons.injEq] at split
          exact ⟨turn, by simp, .inl split.2.1.symm⟩
      | first :: second :: earlier =>
          simp only [List.cons_append, List.cons.injEq] at split
          obtain ⟨turn, among, found⟩ := ih split.2.2
          exact ⟨turn, by simp [among], found⟩

theorem last_off {outlet : Outlet} {turns : List Turn} {before after : List Call} {call : Call}
    (split : (paired turns).map outlet.call = before ++ call :: after)
    (last : ∀ other ∈ after, other.path ≠ call.path) :
    ∃ turn ∈ turns, call = outlet.call turn.off := by
  obtain ⟨turn, among, off | ⟨rfl, later⟩⟩ := on_or_off split
  · exact ⟨turn, among, off⟩
  · have apart := last _ later
    simp [Outlet.call_path, Turn.on, Turn.off] at apart

namespace Controller
open Outcome

variable {c d : Controller} {s : Station} {name : String} {history : List Effect}

structure Silent (c : Controller) : Prop where
  resting : c.started = false
  unmanned : c.stations = []
  unread : c.bus.subscriptions = []
  agenda : c.agenda = []

section
variable [Host]

theorem publish_unread (signals : List (String × Signal)) (unread : c.bus.subscriptions = []) :
    c.publish signals = .still { c with bus := c.bus.carry signals } ∧
      (c.bus.carry signals).subscriptions = [] := by
  have asleep : Bus.woken signals c.bus = [] := by
    apply List.eq_nil_iff_forall_not_mem.mpr
    intro reader woken
    obtain ⟨s, member, -⟩ := Bus.mem_woken.mp woken
    rw [unread] at member
    cases member
  refine ⟨?_, by simp [Bus.carry_subscriptions, unread]⟩
  rw [publish_eq, asleep]
  rfl

theorem fireBy_silent (silent : c.Silent) (target : Instant) (fuel : Nat) :
    fireBy target fuel c = .still c := by
  have untimed : c.nextBy? target = none := by
    simp [nextBy?, next?, timers, silent.agenda, earliest?]
  cases fuel <;> simp [fireBy, untimed]

theorem perform_silent {step : Step} (silent : c.Silent) (unstarted : step ≠ .start) :
    (perform step c).state.Silent ∧ (perform step c).reports = [] := by
  cases step with
  | start => exact absurd rfl unstarted
  | stop => simpa [perform, Controller.step, stop_resting silent.resting] using silent
  | publish signals =>
      obtain ⟨performed, carried⟩ := publish_unread signals silent.unread
      rw [perform_publish, performed]
      exact ⟨⟨silent.resting, silent.unmanned, carried, silent.agenda⟩, rfl⟩
  | advance seconds =>
      have performed : perform (.advance seconds) c =
          .still (c.arriveAt (c.now.after seconds)) := by
        rw [perform_advance, advance, fireBy_silent silent]
        rfl
      rw [performed, arriveAt]
      split
      · exact ⟨silent, rfl⟩
      · exact ⟨⟨silent.resting, silent.unmanned, silent.unread, silent.agenda⟩, rfl⟩
  | trigger task value =>
      have missing : c.trigger task value = .error (.noStation task) := by
        simp [trigger, station?, silent.unmanned]
      have performed : perform (.trigger task value) c = .still c := by
        simp [perform, Controller.step, missing]
      rw [performed]
      exact ⟨silent, rfl⟩

theorem run_silent (silent : c.Silent) {steps : List Step} (unstarted : .start ∉ steps) :
    (run steps c).reports = [] := by
  induction steps generalizing c with
  | nil => rfl
  | cons step rest ih =>
      simp only [List.mem_cons, not_or] at unstarted
      obtain ⟨silent', first⟩ := perform_silent silent (Ne.symm unstarted.1)
      rw [run_cons, andThen_reports, first, ih silent' unstarted.2]
      rfl

structure Shutdown (tasks : List Task) (outlet : Outlet) (c : Controller) (past : List Effect)
    (last : Outcome Controller Effect) : Prop where
  paired : ∀ task ∈ tasks, ∃ turns : List Turn, (∀ turn ∈ turns, turn.IsOf task.activities) ∧
    events task.name (past ++ last.reports) = paired turns ∧
    calls task.name (past ++ last.reports) = (paired turns).map outlet.call
  off : ∀ path call, (driven path (past ++ last.reports)).getLast? = some call →
    ∃ task ∈ tasks, ∃ turn : Turn, turn.IsOf task.activities ∧ turn.2.path = path ∧
      call = outlet.call turn.off
  idle : ∃ released, releaseAll (c.stations.map Station.name) c = some released ∧
    last = ⟨{ released.state with started := false, stations := [], active := [], agenda := [] },
      released.reports⟩ ∧
    released.state.stations.map Station.task = tasks ∧
    ∀ s ∈ released.state.stations, s.sequencer.isIdle = true ∧ s.sequencer.timer = none
  unread : last.state.bus.subscriptions = []
  inactive : last.state.active = []
  silent : ∀ later : List Step, .start ∉ later → (run later last.state).reports = []

omit [Host] in
theorem stop_off {tasks : List Task} {outlet : Outlet} {path : String} {call : Call}
    (booked : c.Booked history) (stations : c.stations = []) (tasksAre : c.tasks = tasks)
    (outletIs : c.outlet = outlet) (last : (driven path history).getLast? = some call) :
    ∃ task ∈ tasks, ∃ turn : Turn, turn.IsOf task.activities ∧ turn.2.path = path ∧
      call = outlet.call turn.off := by
  obtain ⟨samePath, name, before, after, split, final⟩ := driven_last last
  have known : name ∈ c.tasks.map Task.name := by
    by_contra unknown
    simp [booked.known name unknown] at split
  obtain ⟨task, among, rfl⟩ := List.mem_map.mp known
  -- No call of any other task follows on the path, and so none of the task itself.
  obtain ⟨turns, member, -, called⟩ := (booked.balanced task among (by simp [stations])).turns
  rw [called] at split
  obtain ⟨turn, of, off⟩ := last_off split (samePath ▸ final)
  refine ⟨task, tasksAre ▸ among, turn, member turn of, ?_, outletIs ▸ off⟩
  rw [← samePath, off, Outlet.call_path]
  rfl

omit [Host] in
theorem Booked.turns {tasks : List Task} {outlet : Outlet} (booked : c.Booked history)
    (stations : c.stations = []) (tasksAre : c.tasks = tasks) (outletIs : c.outlet = outlet) :
    ∀ task ∈ tasks, ∃ turns : List Turn, (∀ turn ∈ turns, turn.IsOf task.activities) ∧
      events task.name history = paired turns ∧
      calls task.name history = (paired turns).map outlet.call := by
  intro task among
  have balanced := booked.balanced task (tasksAre ▸ among) (by simp [stations])
  rw [outletIs] at balanced
  exact balanced.turns

theorem shutdown {last : Outcome Controller Effect} (started : c.started = true)
    (booked : c.Booked history) (listed : c.Listed history) (stopped : c.stop = some last) :
    Shutdown c.tasks c.outlet c history last := by
  obtain ⟨released, all, state, reports⟩ := stop_started started stopped
  obtain ⟨started', finished⟩ := releaseAll_over started all booked
  have booked' := stop_booked stopped booked
  have releasedBooked := releaseAll_booked all booked
  have same := releaseAll_fixed all
  simp only [fixed, Fixed.mk.injEq] at same
  obtain ⟨tasks, outlet, -⟩ := same
  have resting : last.state.started = false := by rw [state]
  have stations : last.state.stations = [] := by rw [state]
  have lastTasks : last.state.tasks = c.tasks := by rw [state]; exact tasks
  have lastOutlet : last.state.outlet = c.outlet := by rw [state]; exact outlet
  have silent : last.state.Silent :=
    ⟨resting, stations, (Listed.resting_empty (stop_listed stopped listed) resting).2.1, by rw [state]⟩
  refine ⟨booked'.turns stations lastTasks lastOutlet, ?_, ⟨released, all, ?_, ?_, ?_⟩,
    silent.unread, by rw [state], ?_⟩
  · intro path call isLast
    exact stop_off booked' stations lastTasks lastOutlet isLast
  · cases last
    simp only at state reports
    rw [state, reports]
  · rw [releasedBooked.manned, started', tasks]
    rfl
  · intro s member
    exact ⟨(finished s member).idle, (finished s member).free⟩
  · intro later unstarted
    exact run_silent silent unstarted

/-- A stop leaves nothing on and nothing running, and it takes no time if calls take none. -/
theorem stop_leaves_nothing_on {tasks : List Task} {outlet : Outlet} {fresh : Controller}
    (created : create tasks outlet = .ok fresh) (steps : List Step)
    (started : (run steps fresh).state.started = true) :
    (∀ last, (run steps fresh).state.stop = some last →
      Shutdown tasks outlet (run steps fresh).state (run steps fresh).reports last) ∧
    (outlet.isDelayed = false → ∃ last, (run steps fresh).state.stop = some last ∧
      last.state.now = (run steps fresh).state.now) := by
  have booked := created_booked created steps
  have listed := created_listed created steps
  obtain ⟨tasksAre, outletIs⟩ := created_serves created steps
  refine ⟨?_, ?_⟩
  · intro last stopped
    have shut := shutdown started booked listed stopped
    rwa [tasksAre, outletIs] at shut
  · intro undelayed
    obtain ⟨released, all, now⟩ :=
      releaseAll_at_once booked (outletIs ▸ undelayed) ((run steps fresh).state.stations.map Station.name)
    simp only [stop, started, if_true, all, Option.map_some, Option.some.injEq, exists_eq_left']
    exact now

end

theorem evening_and_night_stopped :
    let fresh := idle [evening, night] sluggish
    let prompt := idle [evening, night] { sluggish with delay := 0 }
    let steps : List Step := [.publish [("switches.deck", .value (.whole 1))], .start, .advance 1.5,
      .publish [("switches.mast", .value (.whole 1)), ("switches.deck", .failure "lost")],
      .advance 0.125]
    create [evening, night] sluggish = .ok fresh ∧ (run steps fresh).state.started = true ∧
      (∃ last, (run steps fresh).state.stop = some last ∧
        Shutdown [evening, night] sluggish (run steps fresh).state (run steps fresh).reports last) ∧
      (run steps prompt).state.started = true ∧
      ∃ last, (run steps prompt).state.stop = some last ∧
        last.state.now = (run steps prompt).state.now := by
  intro fresh prompt steps
  have created : create [evening, night] sluggish = .ok fresh := rfl
  have started : (run steps fresh).state.started = true := by decide +kernel
  have stops : (run steps fresh).state.stop.isSome = true := by decide +kernel
  have createdPrompt : create [evening, night] { sluggish with delay := 0 } = .ok prompt := rfl
  have startedPrompt : (run steps prompt).state.started = true := by decide +kernel
  have undelayed : ({ sluggish with delay := 0 } : Outlet).isDelayed = false := by decide +kernel
  obtain ⟨last, stopped⟩ := Option.isSome_iff_exists.mp stops
  exact ⟨created, started, ⟨last, stopped, (stop_leaves_nothing_on created steps started).1 last stopped⟩,
    startedPrompt, (stop_leaves_nothing_on createdPrompt steps startedPrompt).2 undelayed⟩

end Controller
end Cadence
