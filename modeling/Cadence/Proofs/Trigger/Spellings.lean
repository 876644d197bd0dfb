import Cadence.Proofs.Path.Forms
import Cadence.Trigger.Evaluate

namespace Cadence.Path
open Decimal Text

variable {kind : Kind} {text : String} {chars : List Char} {path : String} {value : Value}
  {trigger : Trigger}

theorem readControl_value (read : readControl (some text) = .ok trigger)
    (form : Form (stripped text) path [chars]) :
    ∃ value, readValue (Kind.of path) chars = .ok value ∧
      trigger = ⟨Kind.of path, path, some value⟩ := by
  obtain ⟨other, formOther, -⟩ | ⟨other, formOther, -⟩ | ⟨other, more, value, formOther, reads⟩ :=
    (readControl_reading text).eq_ok.mp read
  · cases (form.unique formOther).2
  · cases (form.unique formOther).2
  · obtain ⟨rfl, same⟩ := form.unique formOther
    obtain rfl := (List.cons.inj same).1
    exact ⟨value, reads, rfl⟩

variable [Host]

theorem write_stripped (form : Form (stripped text) path [chars]) :
    Trigger.write ⟨kind, path, some value⟩ = .ok (String.ofList (stripped text)) ↔
      value.plainText = .ok (String.ofList chars) := by
  have whole : String.ofList (stripped text) = path ++ ":" ++ String.ofList chars := by
    rw [form.whole, ← written_one, String.toList_ofList]
    rfl
  simp only [Trigger.write, whole]
  cases value.plainText with
  | error cause => simp [Except.map]
  | ok written => simp [Except.map]

end Cadence.Path

namespace Cadence.Trigger
open Cadence.Path Decimal Text

variable {text path : String} {chars : List Char} {trigger : Trigger}

section
variable [Host]

theorem valuesMatch_present {observed expected : Value} {wanted : String}
    (present : observed ≠ .null) (plain : expected.plainText = .ok wanted) :
    valuesMatch observed expected =
      if observed.same expected then .ok true
      else observed.plainText.map fun seen => decide (seen = wanted) := by
  unfold valuesMatch
  split
  · exact absurd rfl present
  · rw [plain]
    rfl

omit [Host] in
theorem same_text {s : String} {expected : Value} (equal : (Value.text s).same expected = true) :
    expected = .text s := by
  cases expected <;> simp_all [Value.same, Value.whole?]

theorem valuesMatch_text {seen wanted : String} {expected : Value}
    (plain : expected.plainText = .ok wanted) :
    valuesMatch (.text seen) expected = .ok (decide (seen = wanted)) := by
  rw [valuesMatch_present (by simp) plain]
  split
  · next equal =>
      obtain rfl := same_text equal
      rw [decide_eq_true (Except.ok.inj plain)]
  · rfl

/-- A trigger with a value observes that value in its configured spelling. -/
theorem fires_on_own_text (read : readControl (some text) = .ok trigger)
    (form : Form (stripped text) path [chars]) :
    (trigger.kind = .notification → ∀ entries,
      Value.lookup entries "state" = some (.text (String.ofList chars)) →
        trigger.evaluate (.map entries) = .ok true) ∧
    (trigger.kind = .switch →
      ∃ fires, trigger.evaluate (.text (String.ofList chars)) = .ok fires ∧
        (fires = true ↔ trigger.write = .ok (String.ofList (stripped text)))) ∧
    (Literal.read? digit? (dropLineEnd chars) = none →
      trigger.write = .ok (String.ofList (stripped text))) := by
  obtain ⟨value, reads, rfl⟩ := readControl_value read form
  obtain ⟨written, plain⟩ := readValue_plain reads
  refine ⟨?_, ?_, ?_⟩
  · intro notification entries state
    change Kind.of path = .notification at notification
    rw [notification] at reads
    obtain rfl := Except.ok.inj reads
    have fires : valuesMatch (.text (String.ofList chars)) (verbatim chars) = .ok true := by
      rw [valuesMatch_text rfl, decide_eq_true rfl]
    simp only [evaluate, notification, stateOf, state, Option.getD_some, fires]
    rfl
  · intro switch
    change Kind.of path = .switch at switch
    refine ⟨decide (String.ofList chars = written), ?_, ?_⟩
    · simp only [evaluate, switch, valuesMatch_text plain]
      rfl
    · rw [write_stripped form, plain, decide_eq_true_iff, Except.ok.injEq]
      exact eq_comm
  · intro wordy
    rw [write_stripped form]
    -- Without a literal to read, the value is the text itself.
    have word : value = .text (String.ofList chars) := by
      cases kind : Kind.of path with
      | notification =>
          rw [kind] at reads
          exact (Except.ok.inj reads).symm
      | switch =>
          rw [kind, readValue, scalar, wordy] at reads
          exact (Except.ok.inj reads).symm
    rw [word]
    rfl

end

def deckTrigger : Trigger := ⟨.switch, "switches.deck", some (.whole 1)⟩

def anchorTrigger : Trigger := ⟨.notification, "notifications.anchor", some (.text "007")⟩

theorem form_deck : Form (stripped "switches.deck:01") "switches.deck" ["01".toList] :=
  partsOf?_eq_some.mp rfl

theorem form_anchor :
    Form (stripped "notifications.anchor:007 ") "notifications.anchor" ["007".toList] :=
  partsOf?_eq_some.mp rfl

theorem readControl_deck : readControl (some "switches.deck:01") = .ok deckTrigger := by
  have read : scalar "01".toList = .ok (.whole 1) := rfl
  rw [readControl_state (partsOf?_eq_some.mpr form_deck), kind_deck, readValue, read]
  rfl

theorem readControl_anchor :
    readControl (some "notifications.anchor:007 ") = .ok anchorTrigger := by
  have kind : Kind.of "notifications.anchor" = .notification := rfl
  rw [readControl_state (partsOf?_eq_some.mpr form_anchor), kind, readValue]
  rfl

theorem own_text_of_deck_and_anchor :
    (readControl (some "switches.deck:01") = .ok deckTrigger ∧
      Form (stripped "switches.deck:01") "switches.deck" ["01".toList] ∧
      ∃ fires, deckTrigger.evaluate (.text "01") = .ok fires ∧
        (fires = true ↔ deckTrigger.write = .ok "switches.deck:01")) ∧
    (readControl (some "notifications.anchor:007 ") = .ok anchorTrigger ∧
      Form (stripped "notifications.anchor:007 ") "notifications.anchor" ["007".toList] ∧
      anchorTrigger.evaluate (.map [(.text "since", .whole 7), (.text "state", .text "007")]) =
        .ok true) := by
  refine ⟨⟨readControl_deck, form_deck, ?_⟩, readControl_anchor, form_anchor, ?_⟩
  · exact (fires_on_own_text readControl_deck form_deck).2.1 rfl
  · exact (fires_on_own_text readControl_anchor form_anchor).1 rfl _ rfl

/-- The zero in front is lost: the switch is compared with the text of its number. -/
theorem leading_zero_missed :
    readControl (some "switches.deck:01") = .ok deckTrigger ∧
      Form (stripped "switches.deck:01") "switches.deck" ["01".toList] ∧
      deckTrigger.evaluate (.text "1") = .ok true ∧
      deckTrigger.evaluate (.text "01") = .ok false :=
  ⟨readControl_deck, form_deck, rfl, rfl⟩

end Cadence.Trigger
