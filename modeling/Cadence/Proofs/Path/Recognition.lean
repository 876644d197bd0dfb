import Cadence.Proofs.Path.Forms

namespace Cadence.Path
open Decimal Text

variable {text : String} {path : String} {values : List (List Char)} {trigger : Trigger}
  {drive : Drive}

def TooLong (text : String) : Prop :=
  ∃ path values, Form (stripped text) path values ∧ Kind.of path = .switch ∧
    ∃ value ∈ values, ∃ digits, Overlong value digits

theorem kind_of_overlong {value : List Char} {cause : Oversize} {kind : Kind}
    (fails : readValue kind value = .error cause) :
    kind = .switch ∧ ∃ digits, Overlong value digits := by
  obtain ⟨switch, digits, overlong, -⟩ := readValue_error.mp fails
  exact ⟨switch, digits, overlong⟩

theorem overlongControl_iff :
    (∃ digits, OverlongControl text digits) ↔ ControlForm (stripped text) ∧ TooLong text := by
  constructor
  · rintro ⟨digits, path, chars, _, form, switch, overlong⟩
    refine ⟨controlForm_iff.mpr ⟨path, [chars], form, by simp⟩, path, [chars], form, switch, ?_⟩
    exact ⟨chars, by simp, digits, overlong⟩
  · rintro ⟨formed, path, values, form, switch, value, among, digits, overlong⟩
    obtain ⟨other, others, formOther, none | one⟩ := controlForm_iff.mp formed
    all_goals obtain ⟨rfl, rfl⟩ := form.unique formOther
    · rw [List.length_eq_zero_iff.mp none] at among
      cases among
    · obtain ⟨chars, rfl⟩ := List.length_eq_one_iff.mp one
      obtain rfl := List.mem_singleton.mp among
      exact ⟨digits, .value path value digits form switch overlong⟩

theorem overlongActivity_iff :
    (∃ digits, OverlongActivity text digits) ↔ ActivityForm (stripped text) ∧ TooLong text := by
  constructor
  · rintro ⟨digits, path, on, off, _, form, switch, overlong⟩
    · refine ⟨activityForm_iff.mpr ⟨path, [on, off], form, by simp⟩, path, _, form, switch, ?_⟩
      exact ⟨on, by simp, digits, overlong⟩
    · next path on off _ form switch _ overlong =>
        refine ⟨activityForm_iff.mpr ⟨path, [on, off], form, by simp⟩, path, _, form, switch, ?_⟩
        exact ⟨off, by simp, digits, overlong⟩
  · rintro ⟨formed, path, values, form, switch, value, among, digits, overlong⟩
    obtain ⟨other, others, formOther, none | ⟨-, notification⟩ | two⟩ := activityForm_iff.mp formed
    all_goals obtain ⟨rfl, rfl⟩ := form.unique formOther
    · rw [List.length_eq_zero_iff.mp none] at among
      cases among
    · rw [switch] at notification
      cases notification
    · obtain ⟨on, off, rfl⟩ := List.length_eq_two.mp two
      -- The on value is read first, so that it is the one that counts if both are too long.
      cases onReads : readValue .switch on with
      | error cause =>
          obtain ⟨-, onDigits, onOverlong⟩ := kind_of_overlong onReads
          exact ⟨onDigits, .on path on off onDigits form switch onOverlong⟩
      | ok onValue =>
          rcases List.mem_pair.mp among with rfl | rfl
          · cases onReads.symm.trans (overlong.readValue rfl)
          · exact ⟨digits, .off path on value onValue digits form switch onReads overlong⟩

structure Recognised {α : Type} (result : Except ReadError α) (use : Use) (text : String)
    (form : Prop) (reads : α → Prop) : Prop where
  accepted : (∃ x, result = .ok x) ↔ form ∧ ¬ TooLong text
  refused : result = .error (.malformed use (some text)) ↔ ¬ form
  oversize : (∃ digits, result = .error (.oversize (.read digits))) ↔ form ∧ TooLong text
  read : ∀ x, result = .ok x ↔ reads x

theorem Reading.recognised {α : Type} {result : Except ReadError α} {use : Use} {form : Prop}
    {reads : α → Prop} {overlong : Nat → Prop}
    (reading : Reading result use text form reads overlong)
    (tooLong : (∃ digits, overlong digits) ↔ form ∧ TooLong text) :
    Recognised result use text form reads where
  accepted := by
    rw [reading.accepted, ← not_exists, tooLong]
    constructor
    · rintro ⟨formed, short⟩
      exact ⟨formed, fun long => short ⟨formed, long⟩⟩
    · rintro ⟨formed, short⟩
      exact ⟨formed, fun both => short both.2⟩
  refused := by
    constructor
    · intro fails formed
      obtain ⟨x, reads⟩ | ⟨digits, long⟩ | formless := reading.cases
      · cases fails.symm.trans (reading.read x reads).2
      · cases fails.symm.trans (reading.overlong digits long).2
      · exact formless formed
    · exact reading.malformed
  oversize := by
    rw [← tooLong]
    constructor
    · rintro ⟨digits, fails⟩
      obtain ⟨long, overlong, -⟩ := reading.oversize.mp fails
      exact ⟨long, overlong⟩
    · rintro ⟨digits, overlong⟩
      exact ⟨digits, (reading.overlong digits overlong).2⟩
  read _ := reading.eq_ok

theorem ReadsControl.kind (reads : ReadsControl text trigger) :
    trigger.kind = Kind.of trigger.path := by
  cases reads with
  | any path form kind => exact kind.symm
  | one path form kind => exact kind.symm
  | value path chars value form reads => rfl

/-- Both grammars are recognised exactly, and no text has a form in two ways. A notification is told
by what its path starts with. -/
theorem grammars_recognised (text : String) :
    Recognised (readControl (some text)) .control text (ControlForm (stripped text))
      (ReadsControl text) ∧
    Recognised (readActivity (some text)) .activity text (ActivityForm (stripped text))
      (ReadsActivity text) ∧
    (∀ path values other others, Form (stripped text) path values →
      Form (stripped text) other others → path = other ∧ values = others) ∧
    (∀ trigger, readControl (some text) = .ok trigger →
      (trigger.kind = .notification ↔ notificationRoot <+: trigger.path.toList)) ∧
    ∀ drive, readActivity (some text) = .ok drive →
      (drive.kind = .notification ↔ notificationRoot <+: drive.path.toList) := by
  have control := (readControl_reading text).recognised overlongControl_iff
  have activity := (readActivity_reading text).recognised overlongActivity_iff
  refine ⟨control, activity, fun _ _ _ _ => Form.unique, ?_, fun _ _ => kind_notification⟩
  intro trigger read
  rw [((control.read trigger).mp read).kind]
  exact kind_notification

end Cadence.Path
