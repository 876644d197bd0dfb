import Cadence.Proofs.Definition.Drives

namespace Cadence.Definition

variable {entries : Entries} {value : Value} {name : String}

/-! ## Values -/

inductive Spells : Value → String → Prop
  | text (s : String) : Spells (.text s) s
  | bytes (data : List UInt8) (s : String) (decodes : decodeUtf8? data = some s) :
      Spells (.bytes data) s

inductive Labels : Value → Option String → Prop
  | null : Labels .null none
  | text (value : Value) (s : String) (spells : Spells value s) : Labels value (some s)

theorem text_eq_ok {s : String} : text value = .ok s ↔ Spells value s := by
  constructor
  · intro passes
    unfold text at passes
    split at passes
    · obtain rfl := Except.ok.inj passes
      exact .text _
    · split at passes
      · next decodes =>
          obtain rfl := Except.ok.inj passes
          exact .bytes _ _ decodes
      · cases passes
    · cases passes
  · rintro (_ | ⟨data, s, decodes⟩)
    · rfl
    · simp [text, decodes]

theorem textOrNull_eq_ok {label : Option String} :
    textOrNull value = .ok label ↔ Labels value label := by
  constructor
  · intro passes
    unfold textOrNull at passes
    split at passes
    · obtain rfl := Except.ok.inj passes
      exact .null
    · cases read : text value with
      | error fault => simp [read, Except.map] at passes
      | ok s =>
          rw [read] at passes
          obtain rfl := Except.ok.inj passes
          exact .text value s (text_eq_ok.mp read)
  · rintro (_ | ⟨_, s, spells⟩)
    · rfl
    · have read := text_eq_ok.mpr spells
      cases spells <;> simp [textOrNull, read, Except.map]

/-! ## Fields -/

def Given {α : Type} (converts : Value → α → Prop) (entries : Entries) (name : String) (x : α) :
    Prop :=
  ∃ value, Value.lookup entries name = some value ∧ converts value x

def GivenOr {α : Type} (default : α) (converts : Value → α → Prop) (entries : Entries)
    (name : String) (x : α) : Prop :=
  Value.lookup entries name = none ∧ x = default ∨ Given converts entries name x

section checks
variable {α : Type} {check : Check α} {default x : α} {converts : Value → α → Prop}
  {bound : α → Prop}

def Check.Bounds (check : Check α) (converts : Value → α → Prop) (bound : α → Prop) : Prop :=
  ∀ value x, check value = .ok x ↔ converts value x ∧ bound x

theorem Check.Bounds.named (bounds : check.Bounds converts bound) :
    check.named name value = .ok x ↔ converts value x ∧ bound x := by
  rw [← bounds]
  exact mapError_eq_ok

theorem Check.Bounds.required (bounds : check.Bounds converts bound) :
    required entries name check = .ok x ↔ Given converts entries name x ∧ bound x := by
  unfold Definition.required Given
  cases Value.lookup entries name with
  | none => simp
  | some value => simp [bounds.named]

theorem Check.Bounds.optional (bounds : check.Bounds converts bound) (holds : bound default) :
    optional entries name check default = .ok x ↔
      GivenOr default converts entries name x ∧ bound x := by
  unfold Definition.optional GivenOr Given
  cases Value.lookup entries name with
  | none =>
      simp only [Except.ok.injEq, true_and, reduceCtorEq, false_and, exists_false, or_false]
      constructor
      · rintro rfl
        exact ⟨rfl, holds⟩
      · rintro ⟨rfl, -⟩
        rfl
  | some value => simp [bounds.named]

theorem guarded_eq_ok {first : Except Fault α} {fault : Fault} [DecidablePred bound] :
    (first >>= fun x => if bound x then pure x else throw fault) = .ok x ↔
      first = .ok x ∧ bound x := by
  rw [bind_eq_ok]
  constructor
  · rintro ⟨y, read, kept⟩
    split at kept
    · next within =>
        obtain rfl := Except.ok.inj kept
        exact ⟨read, within⟩
    · cases kept
  · rintro ⟨read, within⟩
    exact ⟨x, read, if_pos within⟩

end checks

def Converts (value : Value) (x : Float) : Prop := number value = .ok x

def Counts (value : Value) (n : Int) : Prop := value = .whole n

theorem textOrNull_bounds : Check.Bounds textOrNull Labels fun _ => True :=
  fun value label => by rw [textOrNull_eq_ok, and_true]

theorem nonEmptyText_bounds : Check.Bounds nonEmptyText Spells (· ≠ "") := by
  intro value s
  have inverted (s : String) : (if s.isEmpty = true then throw .emptyText else pure s) =
      (if s ≠ "" then pure s else throw .emptyText : Except Fault String) := by
    simp
  simp only [nonEmptyText, inverted, guarded_eq_ok, text_eq_ok]

theorem positiveNumber_bounds : Check.Bounds positiveNumber Converts (0 < ·) :=
  fun _ _ => guarded_eq_ok

theorem countingNumber_bounds : Check.Bounds countingNumber Converts (0 ≤ ·) :=
  fun _ _ => guarded_eq_ok

theorem count_bounds : Check.Bounds count Counts (0 ≤ ·) := by
  intro value n
  constructor
  · intro passes
    unfold count at passes
    split at passes
    · split at passes
      · next nonnegative =>
          obtain rfl := Except.ok.inj passes
          exact ⟨rfl, nonnegative⟩
      · cases passes
    · cases passes
  · rintro ⟨rfl, nonnegative⟩
    simp [count, nonnegative]

theorem map_eq_ok {model : String} : map model value = .ok entries ↔ value = .map entries := by
  constructor
  · intro passes
    unfold map at passes
    split at passes
    · rw [Except.ok.inj passes]
    · cases passes
  · rintro rfl
    rfl

theorem list_bounds :
    Check.Bounds list (fun value items => value = .list items) fun _ => True := by
  intro value items
  cases value <;> simp [list]

end Cadence.Definition
