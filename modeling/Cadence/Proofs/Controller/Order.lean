import Cadence.Proofs.Controller.Attunement

namespace Cadence.Controller
open Outcome Effect

variable {c d : Controller} {s t : Station} {task : Task} {name : String}
  {past history : List Effect} {pending : List String} {heard : String → List Signal}
  {done rest names : List String}

def startsAhead (c : Controller) (name : String) : List String :=
  (c.station? name).elim [] fun s => startsOf name s.commands

def Ordered (ahead : List String) (c : Controller) (history : List Effect) : Prop :=
  Recent (starts history ++ ahead.flatMap c.startsAhead) c.active

theorem startsAhead_setStation (different : name ≠ t.name) :
    (c.setStation t).startsAhead name = c.startsAhead name := by
  unfold startsAhead
  rw [station?_setStation_other different]

theorem startsAhead_setStation_self (found : c.station? name = some s) (same : t.name = name) :
    (c.setStation t).startsAhead name = startsOf name t.commands := by
  subst same
  unfold startsAhead
  rw [station?_setStation_self found]
  rfl

variable [Host]

structure Reading (pending : List String) (heard : String → List Signal) (past : List Effect)
    (done rest : List String) (c : Controller) (history : List Effect) : Prop where
  attuned : Attuned pending heard past c history
  ordered : Ordered done c history
  unread : ∀ subscription ∈ c.bus.subscriptions, subscription.reader ∉ rest → subscription.queue = []
  idle : ∀ s ∈ c.stations, s.name ∉ done → s.commands = []

structure Obeying (pending : List String) (heard : String → List Signal) (past : List Effect)
    (rest : List String) (c : Controller) (history : List Effect) : Prop where
  attuned : Attuned pending heard past c history
  ordered : Ordered rest c history
  unread : ∀ subscription ∈ c.bus.subscriptions, subscription.queue = []
  idle : ∀ s ∈ c.stations, s.name ∉ rest → s.commands = []

theorem readFeed_starts (name : String) (c : Controller) : starts (c.readFeed name).reports = [] := by
  cases found : c.station? name with
  | none => simp [readFeed, found, starts]
  | some s =>
      simp only [readFeed, found]
      exact notes_starts _ _ _

theorem drawn_unread {bus : Bus String Signal} (nodup : bus.readers.Nodup)
    (unread : ∀ subscription ∈ bus.subscriptions, subscription.reader ∉ s.name :: rest →
      subscription.queue = []) :
    ∀ subscription ∈ (drawn s bus).subscriptions, subscription.reader ∉ rest →
      subscription.queue = [] := by
  intro subscription member outside
  obtain ⟨old, among, reader, queue⟩ := mem_drawn member
  rw [queue]
  by_cases own : old.reader = s.name
  · rw [if_pos own, ← own, Bus.queued_of_mem nodup among, List.drop_length]
  · rw [if_neg own]
    apply unread old among
    simp only [List.mem_cons, not_or]
    exact ⟨own, reader ▸ outside⟩

theorem readFeed_reading (new : name ∉ done)
    (reading : Reading pending heard past done (name :: rest) c history) :
    Reading pending heard past (done ++ [name]) rest (c.readFeed name).state
      (history ++ (c.readFeed name).reports) := by
  have attuned := readFeed_attuned name c history reading.attuned
  have told : starts (history ++ (c.readFeed name).reports) = starts history := by
    rw [starts_append, readFeed_starts, List.append_nil]
  cases found : c.station? name with
  | none =>
      have still : c.readFeed name = .still c := by simp [readFeed, found]
      rw [still] at attuned ⊢
      rw [still_reports, List.append_nil] at attuned ⊢
      refine ⟨attuned, ?_, ?_, ?_⟩
      · have nothing : c.startsAhead name = [] := by simp [startsAhead, found]
        simpa [Ordered, nothing] using reading.ordered
      · intro subscription member outside
        apply reading.unread subscription member
        have known : subscription.reader ∈ c.stations.map Station.name :=
          reading.attuned.listed.readers subscription member
        simp only [List.mem_cons, not_or]
        exact ⟨fun same => station?_none found (same ▸ known), outside⟩
      · intro s member outside
        exact reading.idle s member fun earlier => outside (List.mem_append_left _ earlier)
  | some s =>
      obtain ⟨among, itsName⟩ := station?_some found
      obtain ⟨on, last, alternates, mirrors⟩ :=
        (reading.attuned.follows s among).alternates reading.attuned.readers
      have emptied : s.commands = [] := reading.idle s among (itsName ▸ new)
      refine ⟨attuned, ?_, ?_, ?_⟩
      -- The findings move the name to the end of the roll just when they tell the task to start.
      · have recent := marks_recent alternates mirrors reading.ordered
        have before : done.flatMap (c.setStation (s.read (c.bus.queued s.name)).state).startsAhead =
            done.flatMap c.startsAhead := by
          apply List.flatMap_congr
          intro other earlier
          apply startsAhead_setStation
          intro same
          exact new (itsName ▸ same ▸ earlier)
        have own : (c.setStation (s.read (c.bus.queued s.name)).state).startsAhead name =
            startsOf s.name ((s.read (c.bus.queued s.name)).reports.filterMap Finding.command?) := by
          have readName : (s.read (c.bus.queued s.name)).state.name = name := itsName
          rw [startsAhead_setStation_self found readName, ← itsName]
          simp [Station.read, emptied]
        unfold Ordered
        rw [told, List.flatMap_append, List.flatMap_singleton, readFeed_eq found]
        change Recent (starts history ++
          (done.flatMap (c.setStation (s.read (c.bus.queued s.name)).state).startsAhead ++
            (c.setStation (s.read (c.bus.queued s.name)).state).startsAhead name)) _
        rw [before, own, ← List.append_assoc]
        exact recent
      · rw [readFeed_eq found]
        exact drawn_unread reading.attuned.readers (itsName ▸ reading.unread)
      · intro t member outside
        rw [readFeed_eq found] at member
        rcases mem_setStation member with rfl | ⟨old, -⟩
        · exact absurd (List.mem_append_right _ (List.mem_singleton.mpr itsName)) outside
        · exact reading.idle t old fun earlier => outside (List.mem_append_left _ earlier)

theorem reads_reading (nodup : names.Nodup) (new : ∀ name ∈ names, name ∉ done)
    (reading : Reading pending heard past done names c history) :
    Reading pending heard past (done ++ names) [] (Outcome.each readFeed names c).state
      (history ++ (Outcome.each readFeed names c).reports) := by
  induction names generalizing c history done with
  | nil => simpa using reading
  | cons name rest ih =>
      obtain ⟨absent, nodup'⟩ := List.nodup_cons.mp nodup
      have first := readFeed_reading (new name (by simp)) reading
      have later : ∀ other ∈ rest, other ∉ done ++ [name] := by
        intro other among earlier
        rcases List.mem_append.mp earlier with before | same
        · exact new other (by simp [among]) before
        · exact absent (List.mem_singleton.mp same ▸ among)
      have all := ih nodup' later first
      rw [List.append_assoc, List.append_assoc] at all
      exact all

theorem obey_obeying (absent : name ∉ rest)
    (obeying : Obeying pending heard past (name :: rest) c history) :
    Obeying pending heard past rest (c.obey name).state (history ++ (c.obey name).reports) := by
  have attuned := visit_attuned (fun _ _ => Station.obey_reaches)
    (fun c _ => Station.obey_tame c.now) name c history obeying.attuned
  change Attuned pending heard past (c.obey name).state (history ++ (c.obey name).reports) at attuned
  cases found : c.station? name with
  | none =>
      have still : c.obey name = .still c := by rw [obey, visit_missing _ found]
      rw [still] at attuned ⊢
      rw [still_reports, List.append_nil] at attuned ⊢
      refine ⟨attuned, ?_, obeying.unread, ?_⟩
      · have nothing : c.startsAhead name = [] := by simp [startsAhead, found]
        simpa [Ordered, nothing] using obeying.ordered
      · intro s member outside
        apply obeying.idle s member
        simp only [List.mem_cons, not_or]
        exact ⟨fun same => station?_none found (same ▸ List.mem_map_of_mem member), outside⟩
  | some s =>
      obtain ⟨among, itsName⟩ := station?_some found
      have poised := (obeying.attuned.booked.accounts s among).poised
      -- What was ahead of the station is now on record, in the same place.
      have obeyed := Station.obey_obeyed c.now poised
      have sameName : (s.obey c.now).state.name = s.name := congrArg Task.name obeyed.task
      have step : c.obey name = _ := visit_found (Station.obey c.now) found
      rw [step] at attuned ⊢
      refine ⟨attuned, ?_, obeying.unread, ?_⟩
      · have others : rest.flatMap (c.setStation (s.obey c.now).state).startsAhead =
            rest.flatMap c.startsAhead := by
          apply List.flatMap_congr
          intro other later
          apply startsAhead_setStation
          rintro rfl
          exact absent (itsName ▸ sameName ▸ later)
        have own : c.startsAhead name = starts (s.obey c.now).reports := by
          rw [obeyed.starts, startsAhead, found, ← itsName]
          rfl
        have ordered := obeying.ordered
        unfold Ordered at ordered ⊢
        rw [List.flatMap_cons, own, ← List.append_assoc, ← starts_append] at ordered
        rw [← others] at ordered
        exact ordered
      · intro t member outside
        rcases mem_setStation member with rfl | ⟨old, different⟩
        · exact obeyed.left
        · apply obeying.idle t old
          simp only [List.mem_cons, not_or]
          exact ⟨fun same => different (same.trans (itsName.symm.trans sameName.symm)), outside⟩

theorem obeys_obeying (nodup : names.Nodup)
    (obeying : Obeying pending heard past names c history) :
    Obeying pending heard past [] (Outcome.each obey names c).state
      (history ++ (Outcome.each obey names c).reports) := by
  induction names generalizing c history with
  | nil => simpa using obeying
  | cons name rest ih =>
      obtain ⟨absent, nodup'⟩ := List.nodup_cons.mp nodup
      have all := ih nodup' (obey_obeying absent obeying)
      rw [List.append_assoc] at all
      exact all

abbrev Settled (pending : List String) (heard : String → List Signal) (past : List Effect) :
    Controller → List Effect → Prop :=
  Obeying pending heard past []

theorem visit_settled {step : Controller → Station → Outcome Station Effect}
    (reaches : ∀ (c : Controller) (s : Station),
      s.Reaches c.outlet (step c s).state (step c s).reports)
    (tame : ∀ (c : Controller) (s : Station), s.sequencer.Poised →
      s.Tame (step c s).state (step c s).reports)
    (mute : ∀ (c : Controller) (s : Station), Mute (step c s).reports) (name : String) :
    Keeps (Settled pending heard past) fun c => c.visit (step c) name := by
  apply visit_keeps
  intro c history old found settled
  have attuned := visit_attuned reaches tame name c history settled.attuned
  dsimp only at attuned
  rw [visit_found _ found] at attuned
  have among := (station?_some found).1
  refine ⟨attuned, ?_, settled.unread, ?_⟩
  · have ordered := settled.ordered
    unfold Ordered at ordered ⊢
    rw [starts_append, (mute c old).starts, List.append_nil]
    exact ordered
  · intro s member outside
    rcases mem_setStation member with rfl | ⟨other, -⟩
    · have tamed := tame c old (settled.attuned.booked.accounts old among).poised
      rcases tamed.commands with same | none
      · rw [same]
        exact settled.idle old among (by simp)
      · exact none
    · exact settled.idle s other outside

theorem settled_steady : Steady (Settled pending heard past) where
  clock _ _ now alarm settled :=
    ⟨settled.attuned.clock now alarm, settled.ordered, settled.unread, settled.idle⟩
  fire := visit_settled (fun _ _ => Station.fire_reaches) (fun _ _ => Station.fire_tame)
    fun _ => Station.fire_mute
  arrive := visit_settled (fun _ _ => Station.arrive_reaches)
    (fun c s _ => Station.arrive_tame c.outlet s) fun c => Station.arrive_mute c.outlet
  dispatch := visit_settled (fun _ _ => Station.dispatch_reaches)
    (fun c s _ => Station.dispatch_tame c.outlet c.now s)
    fun c => Station.dispatch_mute c.outlet c.now

theorem settle_settled (nodup : names.Nodup)
    (reading : Reading pending heard past [] names c history) :
    Settled pending heard past (c.settle names).state (history ++ (c.settle names).reports) := by
  have read := reads_reading nodup (by simp) reading
  rw [List.nil_append] at read
  have obeying : Obeying pending heard past names (Outcome.each readFeed names c).state
      (history ++ (Outcome.each readFeed names c).reports) :=
    ⟨read.attuned, read.ordered, fun subscription member => read.unread subscription member (by simp),
      read.idle⟩
  have settled := obeys_obeying nodup obeying
  have all := Keeps.each (fun name (_ : name ∈ names) => settled_steady.dispatch name) _ _ settled
  rw [List.append_assoc, List.append_assoc] at all
  rw [settle, andThen_reports, andThen_reports, List.append_assoc]
  exact all

theorem publish_settled (signals : List (String × Signal))
    (settled : Settled pending heard past c history) :
    Settled pending (fun path => heard path ++ Bus.published path signals) past
      (c.publish signals).state (history ++ (c.publish signals).reports) := by
  have readers := settled.attuned.readers
  rw [publish_eq]
  apply settle_settled (Bus.woken_nodup readers)
  exact ⟨carry_attuned signals settled.attuned, settled.ordered,
    fun _ member asleep => Bus.carry_asleep settled.unread member asleep,
    fun s member _ => settled.idle s member (by simp)⟩

theorem advance_settled (seconds : Float) :
    Keeps (Settled pending heard past) (Controller.advance seconds) :=
  settled_steady.timely.advance seconds

end Cadence.Controller
