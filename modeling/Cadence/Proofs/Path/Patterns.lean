import Cadence.Path.Control
import Cadence.Proofs.Text.Parts

/-!
The forms of a grammar, tried one after the other, and the parts of a path text. Which form is the
first to match depends on the path and on the number of the values only.
-/

namespace Cadence.Path
open Text

variable {pattern : Pattern}

def parts? (text : List Char) : Option (String × List (List Char)) :=
  match fields ':' text with
  | [] => none
  | path :: values =>
      if isPath path && values.all (!·.isEmpty) then some (String.ofList path, values) else none

def partsOf? (text : Option String) : Option (String × List (List Char)) :=
  parts? (trim isBlank (text.getD "").toList)

def Pattern.admits (pattern : Pattern) (parts : String × List (List Char)) : Bool :=
  (pattern.kind = .switch || Kind.of parts.1 = .notification) &&
    parts.2.length == pattern.values

theorem isPath_root (rest : List Char) : isPath (notificationRoot ++ rest) = isPath rest := by
  have root : notificationRoot ++ rest = "notifications".toList ++ '.' :: rest := rfl
  rw [root, isPath, fields_append (by decide), List.all_cons, isPath]
  rfl

theorem Pattern.takes_eq (path : List Char) :
    pattern.takes path = (isPath path &&
      (pattern.kind = .switch || Kind.of (String.ofList path) = .notification)) := by
  unfold takes
  cases pattern.kind with
  | switch => simp
  | notification =>
      by_cases starts : notificationRoot <+: path
      · obtain ⟨rest, rfl⟩ := starts
        simp [Kind.of, isPath_root]
      · simp [Kind.of, starts]

theorem Pattern.match?_eq (pattern : Pattern) (text : List Char) :
    pattern.match? text = (parts? text).filter pattern.admits := by
  unfold match? parts?
  cases fields ':' text with
  | nil => rfl
  | cons path values =>
      simp only [takes_eq]
      cases isPath path <;> cases values.all (!·.isEmpty) <;> simp [Option.filter, admits]

theorem firstMatch?_eq (patterns : List Pattern) (text : Option String) :
    firstMatch? patterns text = (partsOf? text).bind fun parts =>
      (patterns.find? (·.admits parts)).map (·, parts) := by
  unfold firstMatch? partsOf?
  simp only [Pattern.match?_eq]
  cases parts? (trim isBlank (text.getD "").toList) with
  | none => simp
  | some parts =>
      induction patterns with
      | nil => rfl
      | cons pattern others ih =>
          rw [Option.bind_some] at ih ⊢
          rw [List.findSome?_cons, List.find?_cons, ih]
          cases admitted : pattern.admits parts <;> simp [Option.filter, admitted]

/-- The form decides the kind of a control path, which is the kind of the path itself. -/
theorem readControl_eq (text : Option String) : readControl text =
    match partsOf? text with
    | some (path, []) =>
        match Kind.of path with
        | .notification => .ok ⟨.notification, path, none⟩
        | .switch => .ok ⟨.switch, path, some (.whole 1)⟩
    | some (path, [value]) =>
        match Kind.of path with
        | .notification => .ok ⟨.notification, path, some (verbatim value)⟩
        | .switch => do return ⟨.switch, path, some (← scalarValue value)⟩
    | _ => .error (.malformed .control text) := by
  unfold readControl
  rw [firstMatch?_eq]
  match partsOf? text with
  | none => rfl
  | some (path, []) => cases kind : Kind.of path <;> simp [controlPatterns, Pattern.admits, kind]
  | some (path, [value]) =>
      cases kind : Kind.of path <;> simp [controlPatterns, Pattern.admits, kind]
  | some (path, _ :: _ :: _) => simp [controlPatterns, Pattern.admits]

theorem readActivity_eq (text : Option String) : readActivity text =
    match partsOf? text with
    | some (path, values) =>
        match Kind.of path, values with
        | .notification, [] => .ok ⟨path, .text "normal", none⟩
        | .notification, [on] => .ok ⟨path, verbatim on, none⟩
        | .notification, [on, off] => .ok ⟨path, verbatim on, some (verbatim off)⟩
        | .switch, [] => .ok ⟨path, .whole 1, some (.whole 0)⟩
        | .switch, [on, off] => do return ⟨path, ← scalarValue on, some (← scalarValue off)⟩
        | _, _ => .error (.malformed .activity text)
    | none => .error (.malformed .activity text) := by
  unfold readActivity
  rw [firstMatch?_eq]
  match partsOf? text with
  | none => rfl
  | some (path, []) => cases kind : Kind.of path <;> simp [activityPatterns, Pattern.admits, kind]
  | some (path, [on]) => cases kind : Kind.of path <;> simp [activityPatterns, Pattern.admits, kind]
  | some (path, [on, off]) =>
      cases kind : Kind.of path <;> simp [activityPatterns, Pattern.admits, kind]
  | some (path, _ :: _ :: _ :: _) =>
      cases kind : Kind.of path <;> simp [activityPatterns, Pattern.admits, kind]

end Cadence.Path
