import Cadence.Proofs.Path.Oversize
import Cadence.Proofs.Path.RoundTrip

namespace Cadence.Path
open Decimal Text

variable {chars : List Char} {text path : String} {values : List (List Char)} {trigger : Trigger}
  {drive : Drive}

/-! ## Forms -/

def IsName (name : List Char) : Prop :=
  name ≠ [] ∧ ∀ c ∈ name, c.isAlphanum = true ∨ c = '_' ∨ c = '-'

inductive PathText : List Char → Prop
  | name (name : List Char) (named : IsName name) : PathText name
  | point (name rest : List Char) (named : IsName name) (more : PathText rest) :
      PathText (name ++ '.' :: rest)

def IsValue (value : List Char) : Prop := value ≠ [] ∧ ':' ∉ value

inductive ControlForm : List Char → Prop
  | path (path : String) (valid : PathText path.toList) : ControlForm path.toList
  | value (path : String) (value : List Char) (valid : PathText path.toList)
      (valued : IsValue value) : ControlForm (path.toList ++ ':' :: value)

/-- The forms of activity paths: only a notification may have a single value. -/
inductive ActivityForm : List Char → Prop
  | path (path : String) (valid : PathText path.toList) : ActivityForm path.toList
  | state (path : String) (value : List Char) (valid : PathText path.toList)
      (kind : notificationRoot <+: path.toList) (valued : IsValue value) :
      ActivityForm (path.toList ++ ':' :: value)
  | values (path : String) (on off : List Char) (valid : PathText path.toList)
      (onValued : IsValue on) (offValued : IsValue off) :
      ActivityForm (path.toList ++ ':' :: (on ++ ':' :: off))

theorem isName_iff {name : List Char} :
    (!name.isEmpty && name.all isNameChar) = true ↔ IsName name := by
  simp [IsName, isNameChar, or_assoc]

theorem IsName.unpointed {name : List Char} (named : IsName name) : '.' ∉ name := by
  intro member
  simpa using named.2 '.' member

theorem pathText_of_fields {first : List Char} {others : List (List Char)}
    (cut : fields '.' chars = first :: others) (named : ∀ name ∈ first :: others, IsName name) :
    PathText chars := by
  induction others generalizing chars first with
  | nil =>
      obtain ⟨-, ⟨rfl, -⟩ | ⟨more, -, later⟩⟩ := fields_cons cut
      · exact .name chars (named chars (by simp))
      · exact absurd later (fields_ne_nil _ _)
  | cons second rest ih =>
      obtain ⟨-, ⟨-, none⟩ | ⟨more, rfl, later⟩⟩ := fields_cons cut
      · cases none
      · exact .point first more (named first (by simp))
          (ih later fun name among => named name (List.mem_cons_of_mem _ among))

theorem isPath_iff : isPath chars = true ↔ PathText chars := by
  constructor
  · intro valid
    obtain ⟨first, others, cut⟩ := List.exists_cons_of_ne_nil (fields_ne_nil '.' chars)
    rw [isPath, cut, List.all_eq_true] at valid
    exact pathText_of_fields cut fun name among => isName_iff.mp (valid name among)
  · intro valid
    induction valid with
    | name name named =>
        rw [isPath, fields_whole named.unpointed, List.all_cons, isName_iff.mpr named]
        rfl
    | point name rest named _ ih =>
        rw [isPath, fields_append named.unpointed, List.all_cons, isName_iff.mpr named]
        exact ih

/-! ## A path and its values -/

structure Form (chars : List Char) (path : String) (values : List (List Char)) : Prop where
  valid : PathText path.toList
  valued : ∀ value ∈ values, IsValue value
  whole : chars = join ':' path.toList values

theorem parts?_eq_some : parts? chars = some (path, values) ↔ Form chars path values := by
  rw [parts?_iff, isPath_iff]
  exact ⟨fun ⟨valid, valued, whole⟩ => ⟨valid, valued, whole⟩,
    fun form => ⟨form.valid, form.valued, form.whole⟩⟩

theorem Form.unique {other : String} {others : List (List Char)} (form : Form chars path values)
    (formOther : Form chars other others) : path = other ∧ values = others := by
  have same := (parts?_eq_some.mpr form).symm.trans (parts?_eq_some.mpr formOther)
  exact Prod.mk.inj (Option.some.inj same)

def stripped (text : String) : List Char := trim isBlank text.toList

theorem partsOf?_eq_some : partsOf? (some text) = some (path, values) ↔
    Form (stripped text) path values := parts?_eq_some

theorem kind_notification : Kind.of path = .notification ↔ notificationRoot <+: path.toList := by
  simp [Kind.of]

theorem controlForm_iff : ControlForm chars ↔
    ∃ path values, Form chars path values ∧ (values.length = 0 ∨ values.length = 1) := by
  constructor
  · rintro (⟨path, valid⟩ | ⟨path, value, valid, valued⟩)
    · exact ⟨path, [], ⟨valid, by simp, by simp [join]⟩, by simp⟩
    · exact ⟨path, [value], ⟨valid, by simpa using valued, by simp [join]⟩, by simp⟩
  · rintro ⟨path, values, ⟨valid, valued, rfl⟩, none | one⟩
    · obtain rfl := List.length_eq_zero_iff.mp none
      rw [join, List.flatMap_nil, List.append_nil]
      exact .path path valid
    · obtain ⟨value, rfl⟩ := List.length_eq_one_iff.mp one
      rw [join, List.flatMap_singleton]
      exact .value path value valid (valued value (by simp))

theorem activityForm_iff : ActivityForm chars ↔ ∃ path values, Form chars path values ∧
    (values.length = 0 ∨ values.length = 1 ∧ Kind.of path = .notification ∨ values.length = 2) := by
  constructor
  · intro formed
    obtain ⟨path, valid⟩ | ⟨path, value, valid, kind, valued⟩ |
      ⟨path, on, off, valid, onValued, offValued⟩ := formed
    · exact ⟨path, [], ⟨valid, by simp, by simp [join]⟩, by simp⟩
    · refine ⟨path, [value], ⟨valid, by simpa using valued, by simp [join]⟩, ?_⟩
      exact .inr (.inl ⟨rfl, kind_notification.mpr kind⟩)
    · exact ⟨path, [on, off], ⟨valid, by simp [onValued, offValued], by simp [join]⟩, by simp⟩
  · rintro ⟨path, values, ⟨valid, valued, rfl⟩, none | ⟨one, kind⟩ | two⟩
    · obtain rfl := List.length_eq_zero_iff.mp none
      rw [join, List.flatMap_nil, List.append_nil]
      exact .path path valid
    · obtain ⟨value, rfl⟩ := List.length_eq_one_iff.mp one
      rw [join, List.flatMap_singleton]
      exact .state path value valid (kind_notification.mp kind) (valued value (by simp))
    · obtain ⟨on, off, rfl⟩ := List.length_eq_two.mp two
      have whole : join ':' path.toList [on, off] = path.toList ++ ':' :: (on ++ ':' :: off) := by
        simp [join]
      rw [whole]
      exact .values path on off valid (valued on (by simp)) (valued off (by simp))

/-! ## Readings -/

theorem readValue_error {kind : Kind} {cause : Oversize} :
    readValue kind chars = .error cause ↔
      kind = .switch ∧ ∃ digits, Overlong chars digits ∧ cause = .read digits := by
  cases kind with
  | notification => simp [readValue]
  | switch => simpa [readValue] using scalar_error

theorem Overlong.readValue {kind : Kind} {digits : Nat} (overlong : Overlong chars digits)
    (switch : kind = .switch) : Path.readValue kind chars = .error (.read digits) :=
  readValue_error.mpr ⟨switch, digits, overlong, rfl⟩

structure Reading {α : Type} (result : Except ReadError α) (use : Use) (text : String)
    (form : Prop) (reads : α → Prop) (overlong : Nat → Prop) : Prop where
  cases : (∃ x, reads x) ∨ (∃ digits, overlong digits) ∨ ¬ form
  read : ∀ x, reads x → form ∧ result = .ok x
  overlong : ∀ digits, overlong digits → form ∧ result = .error (.oversize (.read digits))
  malformed : ¬ form → result = .error (.malformed use (some text))

namespace Reading
variable {α : Type} {result : Except ReadError α} {use : Use} {form : Prop} {reads : α → Prop}
  {overlong : Nat → Prop}

theorem eq_ok (reading : Reading result use text form reads overlong) {x : α} :
    result = .ok x ↔ reads x := by
  constructor
  · intro ok
    obtain ⟨y, reads⟩ | ⟨digits, overlong⟩ | formless := reading.cases
    · cases ok.symm.trans (reading.read y reads).2
      exact reads
    · cases ok.symm.trans (reading.overlong digits overlong).2
    · cases ok.symm.trans (reading.malformed formless)
  · intro reads
    exact (reading.read x reads).2

theorem oversize (reading : Reading result use text form reads overlong) {cause : Oversize} :
    result = .error (.oversize cause) ↔ ∃ digits, overlong digits ∧ cause = .read digits := by
  constructor
  · intro error
    obtain ⟨y, reads⟩ | ⟨digits, overlong⟩ | formless := reading.cases
    · cases error.symm.trans (reading.read y reads).2
    · cases error.symm.trans (reading.overlong digits overlong).2
      exact ⟨digits, overlong, rfl⟩
    · cases error.symm.trans (reading.malformed formless)
  · rintro ⟨digits, overlong, rfl⟩
    exact (reading.overlong digits overlong).2

theorem accepted (reading : Reading result use text form reads overlong) :
    (∃ x, result = .ok x) ↔ form ∧ ∀ digits, ¬ overlong digits := by
  constructor
  · rintro ⟨x, ok⟩
    refine ⟨(reading.read x (reading.eq_ok.mp ok)).1, ?_⟩
    intro digits overlong
    cases ok.symm.trans (reading.overlong digits overlong).2
  · rintro ⟨formed, short⟩
    obtain ⟨x, reads⟩ | ⟨digits, overlong⟩ | formless := reading.cases
    · exact ⟨x, (reading.read x reads).2⟩
    · exact absurd overlong (short digits)
    · exact absurd formed formless

end Reading

/-! ## Control paths -/

inductive ReadsControl (text : String) : Trigger → Prop
  | any (path : String) (form : Form (stripped text) path []) (kind : Kind.of path = .notification) :
      ReadsControl text ⟨.notification, path, none⟩
  | one (path : String) (form : Form (stripped text) path []) (kind : Kind.of path = .switch) :
      ReadsControl text ⟨.switch, path, some (.whole 1)⟩
  | value (path : String) (chars : List Char) (value : Value)
      (form : Form (stripped text) path [chars]) (reads : readValue (Kind.of path) chars = .ok value) :
      ReadsControl text ⟨Kind.of path, path, some value⟩

inductive OverlongControl (text : String) : Nat → Prop
  | value (path : String) (chars : List Char) (digits : Nat)
      (form : Form (stripped text) path [chars]) (kind : Kind.of path = .switch)
      (overlong : Overlong chars digits) : OverlongControl text digits

theorem readControl_reading (text : String) :
    Reading (readControl (some text)) .control text (ControlForm (stripped text))
      (ReadsControl text) (OverlongControl text) where
  cases := by
    by_cases formed : ControlForm (stripped text)
    · obtain ⟨path, values, form, none | one⟩ := controlForm_iff.mp formed
      · obtain rfl := List.length_eq_zero_iff.mp none
        cases kind : Kind.of path with
        | notification => exact .inl ⟨_, .any path form kind⟩
        | switch => exact .inl ⟨_, .one path form kind⟩
      · obtain ⟨chars, rfl⟩ := List.length_eq_one_iff.mp one
        cases reads : readValue (Kind.of path) chars with
        | ok value => exact .inl ⟨_, .value path chars value form reads⟩
        | error cause =>
            obtain ⟨kind, digits, overlong, -⟩ := readValue_error.mp reads
            exact .inr (.inl ⟨digits, .value path chars digits form kind overlong⟩)
    · exact .inr (.inr formed)
  read trigger reads := by
    cases reads with
    | any path form kind =>
        exact ⟨controlForm_iff.mpr ⟨path, [], form, by simp⟩,
          by simp [readControl_eq, partsOf?_eq_some.mpr form, kind]⟩
    | one path form kind =>
        exact ⟨controlForm_iff.mpr ⟨path, [], form, by simp⟩,
          by simp [readControl_eq, partsOf?_eq_some.mpr form, kind]⟩
    | value path chars value form reads =>
        refine ⟨controlForm_iff.mpr ⟨path, [chars], form, by simp⟩, ?_⟩
        rw [readControl_state (partsOf?_eq_some.mpr form), reads]
        rfl
  overlong digits overlong := by
    obtain ⟨path, chars, _, form, kind, overlong⟩ := overlong
    refine ⟨controlForm_iff.mpr ⟨path, [chars], form, by simp⟩, ?_⟩
    rw [readControl_state (partsOf?_eq_some.mpr form), overlong.readValue kind]
    rfl
  malformed formless := by
    rw [controlForm_iff] at formless
    rw [readControl_eq]
    split
    · next path found => exact absurd ⟨path, [], partsOf?_eq_some.mp found, by simp⟩ formless
    · next path chars found =>
        exact absurd ⟨path, [chars], partsOf?_eq_some.mp found, by simp⟩ formless
    · rfl

/-! ## Activity paths -/

inductive ReadsActivity (text : String) : Drive → Prop
  | normal (path : String) (form : Form (stripped text) path [])
      (kind : Kind.of path = .notification) : ReadsActivity text ⟨path, .text "normal", none⟩
  | oneZero (path : String) (form : Form (stripped text) path []) (kind : Kind.of path = .switch) :
      ReadsActivity text ⟨path, .whole 1, some (.whole 0)⟩
  | state (path : String) (chars : List Char) (form : Form (stripped text) path [chars])
      (kind : Kind.of path = .notification) : ReadsActivity text ⟨path, verbatim chars, none⟩
  | values (path : String) (on off : List Char) (onValue offValue : Value)
      (form : Form (stripped text) path [on, off])
      (onReads : readValue (Kind.of path) on = .ok onValue)
      (offReads : readValue (Kind.of path) off = .ok offValue) :
      ReadsActivity text ⟨path, onValue, some offValue⟩

/-- A value of an activity path spells a whole number in too many digits; the on value is read
before the off value. -/
inductive OverlongActivity (text : String) : Nat → Prop
  | on (path : String) (on off : List Char) (digits : Nat)
      (form : Form (stripped text) path [on, off]) (kind : Kind.of path = .switch)
      (overlong : Overlong on digits) : OverlongActivity text digits
  | off (path : String) (on off : List Char) (onValue : Value) (digits : Nat)
      (form : Form (stripped text) path [on, off]) (kind : Kind.of path = .switch)
      (onReads : readValue .switch on = .ok onValue) (overlong : Overlong off digits) :
      OverlongActivity text digits

theorem readActivity_reading (text : String) :
    Reading (readActivity (some text)) .activity text (ActivityForm (stripped text))
      (ReadsActivity text) (OverlongActivity text) where
  cases := by
    by_cases formed : ActivityForm (stripped text)
    · obtain ⟨path, values, form, none | ⟨one, kind⟩ | two⟩ := activityForm_iff.mp formed
      · obtain rfl := List.length_eq_zero_iff.mp none
        cases kind : Kind.of path with
        | notification => exact .inl ⟨_, .normal path form kind⟩
        | switch => exact .inl ⟨_, .oneZero path form kind⟩
      · obtain ⟨chars, rfl⟩ := List.length_eq_one_iff.mp one
        exact .inl ⟨_, .state path chars form kind⟩
      · obtain ⟨on, off, rfl⟩ := List.length_eq_two.mp two
        cases onReads : readValue (Kind.of path) on with
        | error cause =>
            obtain ⟨kind, digits, overlong, -⟩ := readValue_error.mp onReads
            exact .inr (.inl ⟨digits, .on path on off digits form kind overlong⟩)
        | ok onValue =>
            cases offReads : readValue (Kind.of path) off with
            | ok offValue =>
                exact .inl ⟨_, .values path on off onValue offValue form onReads offReads⟩
            | error cause =>
                obtain ⟨kind, digits, overlong, -⟩ := readValue_error.mp offReads
                rw [kind] at onReads
                exact .inr (.inl ⟨digits, .off path on off onValue digits form kind onReads overlong⟩)
    · exact .inr (.inr formed)
  read drive reads := by
    rw [activityForm_iff]
    cases reads with
    | normal path form kind =>
        exact ⟨⟨path, [], form, by simp⟩, by simp [readActivity_eq, partsOf?_eq_some.mpr form, kind]⟩
    | oneZero path form kind =>
        exact ⟨⟨path, [], form, by simp⟩, by simp [readActivity_eq, partsOf?_eq_some.mpr form, kind]⟩
    | state path chars form kind =>
        exact ⟨⟨path, [chars], form, by simp [kind]⟩,
          readActivity_on (partsOf?_eq_some.mpr form) kind⟩
    | values path on off onValue offValue form onReads offReads =>
        refine ⟨⟨path, [on, off], form, by simp⟩, ?_⟩
        rw [readActivity_onOff (partsOf?_eq_some.mpr form), onReads, offReads]
        rfl
  overlong digits overlong := by
    rw [activityForm_iff]
    cases overlong with
    | on path on off _ form kind overlong =>
        refine ⟨⟨path, [on, off], form, by simp⟩, ?_⟩
        rw [readActivity_onOff (partsOf?_eq_some.mpr form), overlong.readValue kind]
        rfl
    | off path on off onValue _ form kind onReads overlong =>
        refine ⟨⟨path, [on, off], form, by simp⟩, ?_⟩
        rw [readActivity_onOff (partsOf?_eq_some.mpr form), overlong.readValue kind, kind, onReads]
        rfl
  malformed formless := by
    rw [activityForm_iff] at formless
    rw [readActivity_eq]
    split
    · next path values found =>
        have form := partsOf?_eq_some.mp found
        split
        · exact absurd ⟨path, [], form, by simp⟩ formless
        · next on kind => exact absurd ⟨path, [on], form, by simp [kind]⟩ formless
        · next on off _ => exact absurd ⟨path, [on, off], form, by simp⟩ formless
        · exact absurd ⟨path, [], form, by simp⟩ formless
        · next on off _ => exact absurd ⟨path, [on, off], form, by simp⟩ formless
        · rfl
    · rfl

end Cadence.Path
