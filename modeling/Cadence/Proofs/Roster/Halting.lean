import Cadence.Proofs.Definition.Language
import Cadence.Proofs.Roster.Sorting

namespace Cadence

namespace Definition
open Cadence.Path Decimal

variable {name : String} {index : Nat} {definitions : List ActivityDefinition}
  {definition : TaskDefinition} {cause : Oversize} {raw : Value} {digits : Nat}

/-- Reading a definition comes to a value with too many digits, as all path texts before it are read. -/
inductive TaskDefinition.Halts (definition : TaskDefinition) : Nat → Prop
  | controlPath (digits : Nat) (overlong : OverlongControl definition.controlPath digits) :
      definition.Halts digits
  | activity (before after : List ActivityDefinition) (activity : ActivityDefinition)
      (trigger : Trigger) (digits : Nat) (split : definition.activities = before ++ activity :: after)
      (control : ReadsControl definition.controlPath trigger)
      (earlier : ∀ other ∈ before, ∃ drive, ReadsActivity other.path drive)
      (overlong : OverlongActivity activity.path digits) : definition.Halts digits

theorem rejectPath_oversize {α : Type} {read : Except Path.ReadError α} :
    read.mapError (rejectPath name) = .error (.oversize cause) ↔ read = .error (.oversize cause) := by
  cases read with
  | ok x => simp [Except.mapError]
  | error fault => cases fault <;> simp [Except.mapError, rejectPath]

theorem buildActivities_oversize :
    buildActivities name index definitions = .error (.oversize cause) ↔
      ∃ before activity after digits, definitions = before ++ activity :: after ∧
        (∀ other ∈ before, ∃ drive, ReadsActivity other.path drive) ∧
        OverlongActivity activity.path digits ∧ cause = .read digits := by
  induction definitions generalizing index with
  | nil => simp [buildActivities]
  | cons definition rest ih =>
      simp only [buildActivities, bind_eq_error, rejectPath_oversize, mapError_eq_ok,
        (readActivity_reading _).oversize, (readActivity_reading _).eq_ok, ih]
      constructor
      · rintro (⟨digits, overlong, rfl⟩ | ⟨drive, reads, later | ⟨_, _, made⟩⟩)
        · exact ⟨[], definition, rest, digits, rfl, by simp, overlong, rfl⟩
        · obtain ⟨before, activity, after, digits, rfl, earlier, overlong⟩ := later
          refine ⟨definition :: before, activity, after, digits, rfl, ?_, overlong⟩
          exact List.forall_mem_cons.mpr ⟨⟨drive, reads⟩, earlier⟩
        · cases made
      · rintro ⟨before, activity, after, digits, split, earlier, overlong, rfl⟩
        cases before with
        | nil =>
            obtain ⟨rfl, rfl⟩ := List.cons.inj split
            exact .inl ⟨digits, overlong, rfl⟩
        | cons first before =>
            obtain ⟨rfl, rfl⟩ := List.cons.inj split
            obtain ⟨⟨drive, reads⟩, earlier'⟩ := List.forall_mem_cons.mp earlier
            refine .inr ⟨drive, reads, .inl ?_⟩
            exact ⟨before, activity, after, digits, rfl, earlier', overlong, rfl⟩

theorem build_oversize : definition.build = .error (.oversize cause) ↔
    ∃ digits, definition.Halts digits ∧ cause = .read digits := by
  simp only [TaskDefinition.build, bind_eq_error, rejectPath_oversize, mapError_eq_ok,
    (readControl_reading _).oversize, (readControl_reading _).eq_ok, buildActivities_oversize]
  constructor
  · rintro (⟨digits, overlong, rfl⟩ | ⟨trigger, reads, later | ⟨_, _, made⟩⟩)
    · exact ⟨digits, .controlPath digits overlong, rfl⟩
    · obtain ⟨before, activity, after, digits, split, earlier, overlong, rfl⟩ := later
      exact ⟨digits, .activity before after activity trigger digits split reads earlier overlong, rfl⟩
    · cases made
  · rintro ⟨digits, halts, rfl⟩
    cases halts with
    | controlPath _ overlong => exact .inl ⟨digits, overlong, rfl⟩
    | activity before after activity trigger _ split control earlier overlong =>
        refine .inr ⟨trigger, control, .inl ?_⟩
        exact ⟨before, activity, after, digits, split, earlier, overlong, rfl⟩

def GivesUp (raw : Value) (digits : Nat) : Prop :=
  ∃ definition, Defines raw definition ∧ definition.Halts digits

theorem task_oversize :
    task raw = .error (.oversize cause) ↔ ∃ digits, GivesUp raw digits ∧ cause = .read digits := by
  have checked : task raw = .error (.oversize cause) ↔
      ∃ definition, Defines raw definition ∧ definition.build = .error (.oversize cause) := by
    simp only [defines_iff]
    constructor
    · intro fails
      unfold task at fails
      split at fails
      · next entries =>
          split at fails
          · cases fails
          · next definition passes => exact ⟨definition, ⟨entries, rfl, passes⟩, fails⟩
      · cases fails
    · rintro ⟨definition, ⟨entries, rfl, passes⟩, built⟩
      simp only [task, passes]
      exact built
  simp only [checked, build_oversize, GivesUp]
  constructor
  · rintro ⟨definition, defines, digits, halts, rfl⟩
    exact ⟨digits, ⟨definition, defines, halts⟩, rfl⟩
  · rintro ⟨digits, ⟨definition, defines, halts⟩, rfl⟩
    exact ⟨definition, defines, digits, halts, rfl⟩

end Definition

namespace Roster
open Definition Decimal

variable {raws before after : List Value} {raw : Value} {roster middle : Roster} {position : Nat}

theorem readable_iff : Readable raw ↔ ∀ digits, ¬ GivesUp raw digits := by
  constructor
  · intro readable digits givesUp
    exact readable _ (task_oversize.mpr ⟨digits, givesUp, rfl⟩)
  · intro never cause fails
    obtain ⟨digits, givesUp, -⟩ := task_oversize.mp fails
    exact never digits givesUp

theorem addAll_halts {cause : Oversize} (added : roster.addAll position before = .ok middle)
    (fails : Definition.task raw = .error (.oversize cause)) :
    roster.addAll position (before ++ raw :: after) = .error ⟨cause, middle.dropped⟩ := by
  induction before generalizing roster position with
  | nil =>
      obtain rfl := Except.ok.inj added
      simp [addAll, add, fails]
  | cons first rest ih =>
      simp only [addAll, List.cons_append] at added ⊢
      split at added
      · cases added
      · next next _ => exact ih added

/-- How the reading of a list ends: every definition is kept, or dropped with a word about it; or it
halts at the first definition that has too long a number in it, with what was said before. -/
inductive Ends (raws : List Value) : Except Halt Roster → Prop
  | sorted (roster : Roster) (kept : List Nat) (readable : ∀ raw ∈ raws, ∀ digits, ¬ GivesUp raw digits)
      (sorting : Sorting raws roster kept)
      (again : ofList (kept.filterMap (raws[·]?)) = .ok ⟨roster.tasks, []⟩) : Ends raws (.ok roster)
  | halted (before after : List Value) (raw : Value) (digits : Nat) (roster : Roster) (kept : List Nat)
      (split : raws = before ++ raw :: after)
      (readable : ∀ other ∈ before, ∀ digits, ¬ GivesUp other digits) (givesUp : GivesUp raw digits)
      (made : ofList before = .ok roster) (sorting : Sorting before roster kept) :
      Ends raws (.error ⟨.read digits, roster.dropped⟩)

theorem ofList_ends (raws : List Value) : Ends raws (ofList raws) := by
  cases found : raws.find? (fun raw => !decide (Readable raw)) with
  | none =>
      have readable : ∀ raw ∈ raws, Readable raw := by simpa using found
      obtain ⟨roster, made⟩ := ofList_readable readable
      obtain ⟨kept, sorting⟩ := ofList_sorting made
      rw [made]
      refine .sorted roster kept ?_ sorting sorting.again
      exact fun raw among => readable_iff.mp (readable raw among)
  | some raw =>
      -- Everything before the first unreadable definition is sorted as a list of its own.
      obtain ⟨unreadable, before, after, rfl, earlier⟩ := List.find?_eq_some_iff_append.mp found
      have readable : ∀ other ∈ before, Readable other := by simpa using earlier
      have unreadable' : ¬ Readable raw := by simpa using unreadable
      obtain ⟨cause, fails⟩ : ∃ cause, Definition.task raw = .error (.oversize cause) := by
        simpa [Readable] using unreadable'
      obtain ⟨digits, givesUp, rfl⟩ := task_oversize.mp fails
      obtain ⟨roster, made⟩ := ofList_readable readable
      obtain ⟨kept, sorting⟩ := ofList_sorting made
      have halts : ofList (before ++ raw :: after) = .error ⟨.read digits, roster.dropped⟩ :=
        addAll_halts made fails
      rw [halts]
      exact .halted before after raw digits roster kept rfl
        (fun other among => readable_iff.mp (readable other among)) givesUp made sorting

/-! ## A list that is given up -/

def lampDefinition (name path : String) : Value :=
  .map [(.text "name", .text name), (.text "controlPath", .text "switches.deck"),
    (.text "activities", .list [.map [(.text "path", .text path), (.text "duration", .float 5)]])]

def ninesPath (digits : Nat) : String :=
  Path.written "switches.lamp" [List.replicate digits '9', ['0']]

theorem lamp_defines {name path : String} (named : name ≠ "") (located : path ≠ "") :
    Defines (lampDefinition name path) ⟨name, "switches.deck", [⟨none, path, 5, 0, 1⟩]⟩ := by
  have gives : Gives [(.text "path", .text path), (.text "duration", .float 5)]
      ⟨none, path, 5, 0, 1⟩ :=
    ⟨.inl ⟨rfl, rfl⟩, ⟨_, rfl, .text path⟩, ⟨_, rfl, rfl⟩, .inl ⟨rfl, rfl⟩, .inl ⟨rfl, rfl⟩⟩
  have runs : Runs 5 0 1 := ⟨by decide +kernel, by decide +kernel, by decide⟩
  refine .map _ _ ⟨⟨_, rfl, .text name⟩, ⟨_, rfl, .text "switches.deck"⟩, _, rfl, ?_⟩ ?_
  · exact .cons ⟨_, rfl, gives, located, runs⟩ .nil
  · exact ⟨named, by simp, by simp⟩

theorem ninesPath_overlong {digits : Nat} (beyond : wholeLimit < digits) :
    Path.OverlongActivity (ninesPath digits) digits := by
  have present : List.replicate digits '9' ≠ [] := by
    rw [Ne, List.replicate_eq_nil_iff]
    omega
  have parts : Path.Parts "switches.lamp" [List.replicate digits '9', ['0']] := by
    refine ⟨by decide +kernel, ?_, ?_⟩
    · intro value member
      rcases List.mem_pair.mp member with rfl | rfl
      · exact ⟨present, by simp [List.mem_replicate]⟩
      · simp
    · rintro last ⟨⟩ c ⟨⟩
      rfl
  have overlong : Path.Overlong (List.replicate digits '9') digits := by
    have whole := Path.Overlong.whole [] (List.replicate digits '9') [] (by simp [signs])
      (fun c member => by rw [List.eq_of_mem_replicate member]; decide +kernel)
      (by rwa [List.length_replicate]) (.inl rfl)
    rwa [List.nil_append, List.append_nil, List.length_replicate] at whole
  exact .on "switches.lamp" _ ['0'] digits
    (Path.partsOf?_eq_some.mp (Path.partsOf?_written parts)) (by decide +kernel) overlong

theorem nines_givesUp {name : String} (named : name ≠ "") {digits : Nat}
    (beyond : wholeLimit < digits) : GivesUp (lampDefinition name (ninesPath digits)) digits := by
  have present : ninesPath digits ≠ "" := by
    intro empty
    have chars := congrArg String.toList empty
    simp [ninesPath, Path.written, Text.join] at chars
  have control : Path.ReadsControl "switches.deck" ⟨.switch, "switches.deck", some (.whole 1)⟩ :=
    .one "switches.deck" (Path.partsOf?_eq_some.mp (by decide +kernel)) (by decide +kernel)
  exact ⟨_, lamp_defines named present,
    .activity [] [] _ _ digits rfl control (by simp) (ninesPath_overlong beyond)⟩

theorem lost_with_nines {digits : Nat} (beyond : wholeLimit < digits) (raws : List Value)
    {name : String} (named : name ≠ "") :
    ¬ ∃ roster, ofList (raws ++ [lampDefinition name (ninesPath digits)]) = .ok roster := by
  have fails := task_oversize.mpr ⟨digits, nines_givesUp named beyond, rfl⟩
  rintro ⟨roster, made⟩
  obtain ⟨before, -, added⟩ := ofList_concat_eq_ok.mp made
  simp [add, fails] at added

/-- A definition that is in order is lost, as the one behind it has a number of 4301 digits. -/
theorem lamps_given_up :
    (ofList [lampDefinition "deck" "switches.lamp"]).map Roster.names = .ok ["deck"] ∧
      ¬ ∃ roster, ofList [lampDefinition "deck" "switches.lamp",
        lampDefinition "mast" (ninesPath 4301)] = .ok roster :=
  ⟨by decide +kernel, lost_with_nines (by decide) [_] (by simp)⟩

end Roster
end Cadence
