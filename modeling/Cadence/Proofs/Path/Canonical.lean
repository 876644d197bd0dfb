import Cadence.Proofs.Path.RoundTrip

namespace Cadence.Value
open Decimal Text

/-- The text of a double reads as exactly that double, with the sign of a zero. -/
def ReadsExactly : Value → Prop
  | .float x => ∀ literal, Literal.read? digit? (shortestChars x) = some literal →
      literal.toFloat = x
  | _ => True

end Cadence.Value

namespace Cadence.Path
open Decimal Text

variable {kind : Kind} {text : List Char} {value : Value} {trigger : Trigger} {drive : Drive}

section
variable [Host]

theorem Carries.fixed (carries : Carries kind text value) (exact : value.ReadsExactly) :
    ∃ written again, Rewrites kind text value written again ∧
      again.plainText = .ok written := by
  cases kind with
  | notification =>
      obtain rfl := Except.ok.inj carries.read
      exact ⟨_, _, rewrites_text carries, rfl⟩
  | switch =>
      rcases scalar_cases carries.read with rfl | ⟨m, rfl, within⟩ | ⟨x, rfl⟩
      · exact ⟨_, _, rewrites_text carries, rfl⟩
      · exact ⟨_, _, rewrites_whole text within, (rewrites_whole text within).plain⟩
      · rcases shortestChars_cases x with ⟨_, _, _, -, broken⟩ | ⟨-, word⟩
        · obtain ⟨literal, read, rewrites⟩ := rewrites_finite text broken
          refine ⟨_, _, rewrites, ?_⟩
          rw [exact literal read]
          exact rewrites.plain
        · have member : shortestChars x ∈ words := by simpa [words] using word
          exact ⟨_, _, rewrites_word member, rfl⟩

theorem control_fixed (controls : Controls trigger)
    (exact : ∀ value ∈ trigger.values, value.ReadsExactly) :
    ∃ text again, trigger.write = .ok text ∧ readControl (some text) = .ok again ∧
      again.kind = trigger.kind ∧ again.path = trigger.path ∧ again.write = .ok text := by
  cases controls with
  | any path valid kind => exact ⟨path, _, rfl, readControl_any valid kind, rfl, rfl, rfl⟩
  | state path state value valid carries closes =>
      obtain ⟨text, again, rewrites, plain⟩ := carries.fixed (exact value (by simp [Trigger.values]))
      obtain ⟨wrote, read⟩ := control_rewritten valid closes rewrites
      refine ⟨_, _, wrote, read, rfl, rfl, ?_⟩
      simp [Trigger.write, plain, Except.map]

theorem drive_fixed (activates : Activates drive)
    (exact : ∀ value ∈ drive.values, value.ReadsExactly) :
    ∃ text again, drive.write = .ok text ∧ readActivity (some text) = .ok again ∧
      again.path = drive.path ∧ again.write = .ok text := by
  cases activates with
  | cancelled path state value valid kind carries closes =>
      obtain ⟨text, again, rewrites, plain⟩ := carries.fixed (exact value (by simp [Drive.values]))
      obtain ⟨wrote, read⟩ := cancelled_rewritten valid kind closes rewrites
      refine ⟨_, _, wrote, read, rfl, ?_⟩
      simp [Drive.write, plain, bind, Except.bind, pure, Except.pure]
  | switched path onText offText on off valid carries carriesOff closes =>
      obtain ⟨onWritten, onAgain, onRewrites, onPlain⟩ :=
        carries.fixed (exact on (by simp [Drive.values]))
      obtain ⟨offWritten, offAgain, offRewrites, offPlain⟩ :=
        carriesOff.fixed (exact off (by simp [Drive.values]))
      obtain ⟨wrote, read⟩ := switched_rewritten valid closes onRewrites offRewrites
      refine ⟨_, _, wrote, read, rfl, ?_⟩
      simp [Drive.write, onPlain, offPlain, bind, Except.bind, pure, Except.pure]

/-- What is written for a reading is a canonical text: it is accepted, it keeps the path and the kind,
and what it reads as is written as the same text. -/
theorem written_canonical (text : Option String) :
    (∀ trigger : Trigger, readControl text = .ok trigger →
      (∀ value ∈ trigger.values, value.ReadsExactly) →
      ∃ written again, trigger.write = .ok written ∧ readControl (some written) = .ok again ∧
        again.kind = trigger.kind ∧ again.path = trigger.path ∧ again.write = .ok written) ∧
    (∀ activity : Activity, readActivity text = .ok activity.toDrive →
      (∀ value ∈ activity.values, value.ReadsExactly) →
      ∃ written again, activity.write = .ok written ∧ readActivity (some written) = .ok again ∧
        again.path = activity.path ∧ again.write = .ok written) := by
  constructor
  · intro trigger read exact
    exact control_fixed (readControl_controls read) exact
  · intro activity read exact
    exact drive_fixed (readActivity_activates read) exact

end

def faint : Literal := ⟨true, [1], none, some (true, [9, 9, 9])⟩

def faintTrigger : Trigger := ⟨.switch, "switches.deck", some (.float faint.toFloat)⟩

theorem readsExactly_faint : (Value.float faint.toFloat).ReadsExactly := by
  have text : Literal.read? digit? (shortestChars faint.toFloat) =
      some ⟨true, [0], some [0], none⟩ := rfl
  intro literal read
  obtain rfl := Option.some.inj (text.symm.trans read)
  rfl

theorem readsExactly_huge : (Value.float huge.toFloat).ReadsExactly := by
  have text : Literal.read? digit? (shortestChars huge.toFloat) = none := rfl
  intro literal read
  cases text.symm.trans read

theorem readControl_faint :
    readControl (some "\tswitches.deck:-1e-999 ") = .ok faintTrigger := by
  have parts : partsOf? (some "\tswitches.deck:-1e-999 ") =
      some ("switches.deck", ["-1e-999".toList]) := rfl
  have read : scalar "-1e-999".toList = .ok (.float faint.toFloat) :=
    scalar_of_literal rfl rfl
  rw [readControl_state parts, kind_deck, readValue, read]
  rfl

theorem readActivity_scripts :
    readActivity (some "switches.deck:\u0660\u0660\u0667\n:1e999") = .ok hugeActivity.toDrive := by
  have parts : partsOf? (some "switches.deck:\u0660\u0660\u0667\n:1e999") =
      some ("switches.deck", ["\u0660\u0660\u0667\n".toList, "1e999".toList]) := rfl
  have whole : scalar "\u0660\u0660\u0667\n".toList = .ok (.whole 7) := rfl
  rw [readActivity_onOff parts, kind_deck, readValue, readValue, whole, scalar_huge]
  rfl

theorem deck_canonical :
    (readControl (some "\tswitches.deck:-1e-999 ") = .ok faintTrigger ∧
      (∀ value ∈ faintTrigger.values, value.ReadsExactly) ∧
      ∃ written again, faintTrigger.write = .ok written ∧ readControl (some written) = .ok again ∧
        again.kind = .switch ∧ again.path = "switches.deck" ∧ again.write = .ok written) ∧
    (readActivity (some "switches.deck:\u0660\u0660\u0667\n:1e999") = .ok hugeActivity.toDrive ∧
      (∀ value ∈ hugeActivity.values, value.ReadsExactly) ∧
      ∃ written again, hugeActivity.write = .ok written ∧
        readActivity (some written) = .ok again ∧ again.path = "switches.deck" ∧
        again.write = .ok written) := by
  have exactFaint : ∀ value ∈ faintTrigger.values, value.ReadsExactly := by
    simpa [faintTrigger, Trigger.values] using readsExactly_faint
  have exactHuge : ∀ value ∈ hugeActivity.values, value.ReadsExactly := by
    simpa [hugeActivity, Drive.values, Value.ReadsExactly] using readsExactly_huge
  exact ⟨⟨readControl_faint, exactFaint,
      (written_canonical (some "\tswitches.deck:-1e-999 ")).1 faintTrigger readControl_faint exactFaint⟩,
    readActivity_scripts, exactHuge,
    (written_canonical (some "switches.deck:\u0660\u0660\u0667\n:1e999")).2 hugeActivity
      readActivity_scripts exactHuge⟩

example : faintTrigger.write = .ok "switches.deck:-0.0" ∧
    hugeActivity.write = .ok "switches.deck:7:inf" :=
  ⟨rfl, rfl⟩

end Cadence.Path
