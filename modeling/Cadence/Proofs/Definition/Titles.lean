import Cadence.Proofs.Definition.Fields

namespace Cadence.Definition

inductive Titled : Value → Option String → Prop
  | text (entries : Entries) (name : String)
      (found : Value.lookup entries "name" = some (.text name)) (present : name ≠ "") :
      Titled (.map entries) (some name)
  | checked (entries : Entries) (definition : TaskDefinition)
      (passes : checkTask entries = .ok definition) :
      Titled (.map entries) (some definition.name)
  | untitled (raw : Value)
      (noText : ∀ entries name, raw = .map entries →
        Value.lookup entries "name" = some (.text name) → name = "")
      (unchecked : ∀ entries definition, raw = .map entries → checkTask entries ≠ .ok definition) :
      Titled raw none

theorem Titled.present {raw : Value} {name : String} (titled : Titled raw (some name)) :
    name ≠ "" := by
  cases titled with
  | text entries name found present => exact present
  | checked entries definition passes => exact checkTask_named passes

theorem checkTask_text {entries : Entries} {definition : TaskDefinition} {name : String}
    (passes : checkTask entries = .ok definition)
    (found : Value.lookup entries "name" = some (.text name)) : definition.name = name := by
  obtain ⟨value, there, checked⟩ := required_eq_ok (checkTask_eq_ok passes).1
  obtain rfl : Value.text name = value := Option.some.inj (found.symm.trans there)
  obtain ⟨read, reads, kept⟩ := bind_eq_ok.mp checked
  obtain rfl := Except.ok.inj reads
  split at kept
  · cases kept
  · exact (Except.ok.inj kept).symm

theorem Titled.unique {raw : Value} {title other : Option String} (titled : Titled raw title)
    (titledOther : Titled raw other) : title = other := by
  cases titled with
  | text entries name found present =>
      cases titledOther with
      | text _ _ foundOther _ => simpa [found] using foundOther
      | checked _ definition passes => rw [checkTask_text passes found]
      | untitled _ noText _ => exact absurd (noText entries name rfl found) present
  | checked entries definition passes =>
      cases titledOther with
      | text _ _ foundOther _ => rw [checkTask_text passes foundOther]
      | checked _ _ passesOther => rw [Except.ok.inj (passes.symm.trans passesOther)]
      | untitled _ _ unchecked => exact absurd passes (unchecked entries definition rfl)
  | untitled _ noText unchecked =>
      cases titledOther with
      | text entries name found present => exact absurd (noText entries name rfl found) present
      | checked entries definition passes =>
          exact absurd passes (unchecked entries definition rfl)
      | untitled => rfl

theorem titled_shown {raw : Value}
    (unchecked : ∀ entries definition, raw = .map entries → checkTask entries ≠ .ok definition) :
    Titled raw (shownName? raw) := by
  unfold shownName?
  split
  · next entries =>
      split
      · next name found =>
          by_cases empty : name.isEmpty
          · rw [if_pos empty]
            refine .untitled _ ?_ unchecked
            rintro _ other ⟨⟩ found'
            obtain rfl : name = other := by simpa [found] using found'
            simpa using empty
          · rw [if_neg empty]
            exact .text entries name found (by simpa using empty)
      · next noText =>
          refine .untitled _ ?_ unchecked
          rintro _ name ⟨⟩ found
          exact absurd found (noText name)
  · next notMap => exact .untitled _ (fun entries _ same => (notMap entries same).elim) unchecked

theorem path_rejected {α : Type} {name : String} {read : Except Path.ReadError α} {problem : Problem}
    (rejected : read.mapError (rejectPath name) = .error (.invalid problem)) :
    ∃ reason text, problem = .path reason text (some name) := by
  cases read with
  | ok value => cases rejected
  | error cause =>
      cases cause with
      | malformed use text =>
          cases rejected
          exact ⟨_, _, rfl⟩
      | oversize cause => cases rejected

theorem buildActivities_rejected {name : String} {index : Nat}
    {definitions : List ActivityDefinition} {problem : Problem}
    (rejected : buildActivities name index definitions = .error (.invalid problem)) :
    ∃ reason text, problem = .path reason text (some name) := by
  induction definitions generalizing index with
  | nil => cases rejected
  | cons definition rest ih =>
      obtain unread | ⟨drive, -, rejected⟩ := bind_eq_error.mp rejected
      · exact path_rejected unread
      · obtain later | ⟨others, -, rejected⟩ := bind_eq_error.mp rejected
        · exact ih later
        · cases rejected

theorem build_rejected {definition : TaskDefinition} {problem : Problem}
    (rejected : definition.build = .error (.invalid problem)) :
    ∃ reason text, problem = .path reason text (some definition.name) := by
  obtain unread | ⟨trigger, -, rejected⟩ := bind_eq_error.mp rejected
  · exact path_rejected unread
  · obtain unmade | ⟨activities, -, rejected⟩ := bind_eq_error.mp rejected
    · exact buildActivities_rejected unmade
    · cases rejected

theorem task_rejected {raw : Value} {problem : Problem}
    (rejected : task raw = .error (.invalid problem)) :
    Titled raw problem.task? ∧ ∃ reason, problem.reason? = some reason := by
  unfold task at rejected
  split at rejected
  · next entries =>
      split at rejected
      · next complaints fails =>
          cases rejected
          refine ⟨titled_shown ?_, _, rfl⟩
          rintro _ definition ⟨⟩ passes
          simp [fails] at passes
      · next definition passes =>
          obtain ⟨reason, text, rfl⟩ := build_rejected rejected
          exact ⟨.checked entries definition passes, _, rfl⟩
  · next notMap =>
      cases rejected
      refine ⟨.untitled raw ?_ ?_, _, rfl⟩
      · exact fun entries _ same => (notMap entries same).elim
      · exact fun entries _ same => (notMap entries same).elim

theorem task_titled {raw : Value} {read : Task} (normalized : task raw = .ok read) :
    Titled raw (some read.name) := by
  obtain ⟨entries, definition, rfl, passes, built⟩ := task_eq_ok.mp normalized
  rw [(build_eq_ok built).1]
  exact .checked entries definition passes

end Cadence.Definition
