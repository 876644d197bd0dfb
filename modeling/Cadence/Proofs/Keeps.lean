import Cadence.Outcome

namespace Cadence.Outcome
variable {σ ε α : Type} {invariant : σ → List ε → Prop}

def Keeps (invariant : σ → List ε → Prop) (step : σ → Outcome σ ε) : Prop :=
  ∀ state history, invariant state history →
    invariant (step state).state (history ++ (step state).reports)

theorem keeps_still : Keeps invariant still := by
  intro state history holds
  simpa using holds

theorem Keeps.andThen {step next : σ → Outcome σ ε} (first : Keeps invariant step)
    (second : Keeps invariant next) : Keeps invariant fun state => (step state).andThen next := by
  intro state history holds
  rw [andThen_reports, ← List.append_assoc]
  exact second _ _ (first _ _ holds)

theorem Keeps.each {step : α → σ → Outcome σ ε} {items : List α}
    (keeps : ∀ item ∈ items, Keeps invariant (step item)) : Keeps invariant (each step items) := by
  induction items with
  | nil => exact keeps_still
  | cons item rest ih =>
      exact (keeps item (by simp)).andThen (ih fun other among => keeps other (by simp [among]))

theorem each_congr {step next : α → σ → Outcome σ ε} {items : List α}
    (same : ∀ item ∈ items, step item = next item) : each step items = each next items := by
  funext state
  induction items generalizing state with
  | nil => rfl
  | cons item rest ih =>
      rw [each_cons, each_cons, same item (by simp)]
      simp only [andThen, ih fun other among => same other (by simp [among])]

theorem each_split (first : Outcome σ ε) (step : α → σ → Outcome σ ε) (before after : List α)
    (item : α) : first.andThen (each step (before ++ item :: after)) =
      (first.andThen (each step before)).andThen fun state =>
        (step item state).andThen (each step after) := by
  rw [andThen_assoc]
  congr 1
  funext state
  exact each_append step before (item :: after) state

theorem each_concat (step : α → σ → Outcome σ ε) (items : List α) (item : α) (state : σ) :
    each step (items ++ [item]) state = (each step items state).andThen (step item) := by
  rw [each_append]
  simp [andThen]

section items
variable {property : α → σ → Prop} {step : α → σ → Outcome σ ε}

theorem each_makes (makes : ∀ item state, property item (step item state).state)
    (keeps : ∀ item other state, property other state → property other (step item state).state)
    (items : List α) (state : σ) (item : α) (holds : item ∈ items ∨ property item state) :
    property item (each step items state).state := by
  induction items generalizing state with
  | nil => simpa using holds
  | cons head rest ih =>
      apply ih
      rcases holds with among | already
      · rcases List.mem_cons.mp among with rfl | later
        · exact .inr (makes _ _)
        · exact .inl later
      · exact .inr (keeps _ _ _ already)

end items

end Cadence.Outcome
