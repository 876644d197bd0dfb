import Cadence.Proofs.Trigger.Findings
import Mathlib.Data.List.Chain

namespace Cadence

def Command.Precedes (first second : Command) : Prop := first = .start → second = .stop

namespace Trigger

variable [Host]

def states (trigger : Trigger) : List Signal → List Bool
  | [] => []
  | signal :: rest =>
      match trigger.reads? signal with
      | none => []
      | some state => state :: states trigger rest

def fails (trigger : Trigger) : List Signal → Bool
  | [] | .finish :: _ => false
  | .failure _ :: _ => true
  | .value payload :: rest =>
      match trigger.evaluate payload with
      | .error _ => true
      | .ok _ => fails trigger rest

def changes (last : Bool) : List Bool → List Bool
  | [] => []
  | state :: rest => if state = last then changes last rest else state :: changes state rest

def rises (last : Bool) : List Bool → Nat
  | [] => 0
  | state :: rest => (if last = false ∧ state = true then 1 else 0) + rises state rest

def orders (trigger : Trigger) (on : Bool) (signals : List Signal) : List Command :=
  (trigger.findings on signals).2.filterMap Finding.command?

variable {trigger : Trigger} {on : Bool} {signals before after : List Signal}

theorem orders_eq : trigger.orders on signals =
    (changes on (trigger.states signals)).map Command.ofState ++
      if trigger.fails signals then [.stop] else [] := by
  induction signals generalizing on with
  | nil => rfl
  | cons signal rest ih =>
      cases signal with
      | finish => rfl
      | failure text => rfl
      | value payload =>
          cases read : trigger.evaluate payload with
          | error failure =>
              simp [orders, findings, edge?, read, Except.map, Finding.command?, states, reads?,
                Except.toOption, changes, fails]
          | ok state =>
              have later := @ih state
              by_cases same : state = on
              · subst same
                simpa [orders, findings, edge?, read, Except.map, states, reads?, Except.toOption,
                  changes, fails] using later
              · simpa [orders, findings, edge?, read, Except.map, states, reads?, Except.toOption,
                  changes, fails, same, Finding.command?] using later

theorem orders_append : trigger.orders on (before ++ after) =
    trigger.orders on before ++
      if trigger.closed before then [] else trigger.orders (trigger.hold on before) after := by
  rw [orders, findings_append, List.filterMap_append]
  cases closes : trigger.closed before with
  | true => rfl
  | false => simp only [Bool.false_eq_true, if_false, findings_state closes, orders]

omit [Host] in
theorem changes_first {last : Bool} {states : List Bool} :
    (changes last states).head?.all (· = !last) = true := by
  induction states generalizing last with
  | nil => rfl
  | cons state rest ih =>
      by_cases same : state = last
      · simpa [changes, same] using @ih last
      · cases state <;> cases last <;> simp_all [changes]

omit [Host] in
theorem changes_alternate (last : Bool) (states : List Bool) :
    (changes last states).IsChain (· ≠ ·) := by
  induction states generalizing last with
  | nil => exact .nil
  | cons state rest ih =>
      by_cases same : state = last
      · simpa [changes, same] using ih last
      · simp only [changes, same, if_false, List.isChain_cons]
        refine ⟨?_, ih state⟩
        intro next first
        have different := @changes_first state rest
        rw [first] at different
        simp only [Option.all_some, decide_eq_true_eq] at different
        simp [different]

theorem orders_chain (trigger : Trigger) (on : Bool) (signals : List Signal) :
    (trigger.orders on signals).IsChain Command.Precedes := by
  rw [orders_eq]
  refine List.isChain_append.mpr ⟨?_, ?_, ?_⟩
  · refine (List.isChain_map Command.ofState).mpr ((changes_alternate on _).imp ?_)
    intro first second different started
    cases first <;> cases second <;> simp_all [Command.ofState]
  · split <;> simp
  · intro first _ second last _
    split at last
    · exact (Option.some.inj last).symm
    · cases last

theorem orders_first (first : (trigger.orders false signals).head? = some .stop) :
    trigger.orders false signals = [.stop] ∧ trigger.fails signals = true := by
  rw [orders_eq] at first ⊢
  cases changed : changes false (trigger.states signals) with
  | nil =>
      cases fails : trigger.fails signals with
      | true => exact ⟨rfl, rfl⟩
      | false => simp [changed, fails] at first
  | cons state rest =>
      have begins := @changes_first false (trigger.states signals)
      rw [changed] at begins first
      obtain rfl : state = true := by simpa using begins
      cases first

theorem orders_repeated (repeated : ∀ signal ∈ signals, trigger.reads? signal = some on) :
    trigger.orders on signals = [] := by
  induction signals with
  | nil => rfl
  | cons signal rest ih =>
      have later := ih fun other among => repeated other (List.mem_cons_of_mem _ among)
      have reads := repeated signal List.mem_cons_self
      cases signal with
      | finish => cases reads
      | failure text => cases reads
      | value payload =>
          cases read : trigger.evaluate payload with
          | error failure => simp [reads?, read, Except.toOption] at reads
          | ok state =>
              obtain rfl : state = on := by simpa [reads?, read, Except.toOption] using reads
              simpa [orders, findings, edge?, read, Except.map] using later

theorem orders_held (isOn : trigger.IsOn before)
    (repeated : ∀ signal ∈ after, trigger.reads? signal = some true) :
    trigger.orders false (before ++ after) = trigger.orders false before := by
  rw [orders_append, isOn_iff.mp isOn, orders_repeated repeated, ite_self, List.append_nil]

omit [Host] in
theorem count_changes (last : Bool) (states : List Bool) :
    (changes last states).count true = rises last states := by
  induction states generalizing last with
  | nil => rfl
  | cons state rest ih =>
      cases state <;> cases last <;> simp [changes, rises, ih, Nat.add_comm]

theorem count_orders (trigger : Trigger) (on : Bool) (signals : List Signal) :
    (trigger.orders on signals).count .start = rises on (trigger.states signals) := by
  have starts : ∀ changed : List Bool,
      (changed.map Command.ofState).count .start = changed.count true := by
    intro changed
    induction changed with
    | nil => rfl
    | cons state rest ih => cases state <;> simp [Command.ofState, ih]
  rw [orders_eq, List.count_append, starts, count_changes]
  split <;> rfl

end Trigger
end Cadence
