namespace Cadence

structure Outcome (σ ε : Type) where
  state : σ
  reports : List ε

namespace Outcome
variable {σ ε α : Type}

def still (state : σ) : Outcome σ ε := ⟨state, []⟩

def andThen (first : Outcome σ ε) (next : σ → Outcome σ ε) : Outcome σ ε :=
  let second := next first.state
  ⟨second.state, first.reports ++ second.reports⟩

def each (step : α → σ → Outcome σ ε) : List α → σ → Outcome σ ε
  | [], state => still state
  | item :: rest, state => (step item state).andThen (each step rest)

@[simp] theorem still_state (state : σ) : (still state : Outcome σ ε).state = state := rfl

@[simp] theorem still_reports (state : σ) : (still state : Outcome σ ε).reports = [] := rfl

@[simp] theorem andThen_state (first : Outcome σ ε) (next : σ → Outcome σ ε) :
    (first.andThen next).state = (next first.state).state := rfl

@[simp] theorem andThen_reports (first : Outcome σ ε) (next : σ → Outcome σ ε) :
    (first.andThen next).reports = first.reports ++ (next first.state).reports := rfl

@[simp] theorem each_nil (step : α → σ → Outcome σ ε) (state : σ) :
    each step [] state = still state := rfl

@[simp] theorem each_cons (step : α → σ → Outcome σ ε) (item : α) (rest : List α) (state : σ) :
    each step (item :: rest) state = (step item state).andThen (each step rest) := rfl

theorem andThen_assoc (first : Outcome σ ε) (second third : σ → Outcome σ ε) :
    (first.andThen second).andThen third = first.andThen fun s => (second s).andThen third := by
  simp [andThen, List.append_assoc]

theorem each_append (step : α → σ → Outcome σ ε) (items more : List α) (state : σ) :
    each step (items ++ more) state = (each step items state).andThen (each step more) := by
  induction items generalizing state with
  | nil => simp [still, andThen]
  | cons item rest ih =>
      simp only [List.cons_append, each_cons, andThen_assoc]
      congr 1
      funext s
      exact ih s

end Outcome
end Cadence
