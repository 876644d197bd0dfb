import Cadence.Proofs.Daemon.Feeding
import Cadence.Proofs.Json.Reading
import Cadence.Proofs.Text.Parts

namespace Cadence.Daemon
open Controller Text

def Blank (line : String) : Prop := ∀ c ∈ line.toList, isBlank c = true

section
variable [Host]

/-- The text of a line is a JSON map that names a path. A map that gives no value gives null. -/
def Observes (line path : String) (value : Value) : Prop :=
  ∃ limit levels entries, Json.Document limit levels (.map entries) (strip line).toList ∧
    Value.lookup entries "path" = some (.text path) ∧
    value = (Value.lookup entries "value").getD .null

/-- The text of a line runs beyond a limit. -/
def Overlong (line : String) : Prop :=
  Json.Overlong Decimal.wholeLimit Host.jsonLevels (strip line).toList

/-- What lines tell: what is published between the stretches of time, and what is invalid. -/
inductive Told : List Item → List Beat → List String → Prop
  | nothing : Told [] [] []
  | wait {items : List Item} {beats : List Beat} {invalid : List String} (seconds : Float)
      (later : Told items beats invalid) :
      Told (.wait seconds :: items) (.advance seconds :: beats) invalid
  | blank {line : String} {items : List Item} {beats : List Beat} {invalid : List String}
      (blank : Blank line) (later : Told items beats invalid) :
      Told (.line line :: items) beats invalid
  | signal {line path : String} {value : Value} {items : List Item} {beats : List Beat}
      {invalid : List String} (kept : ¬Overlong line) (observes : Observes line path value)
      (later : Told items beats invalid) :
      Told (.line line :: items) (.publish [(path, .value value)] :: beats) invalid
  | invalid {line : String} {items : List Item} {beats : List Beat} {invalid : List String}
      (kept : ¬Overlong line) (visible : ¬Blank line)
      (nothing : ∀ path value, ¬Observes line path value) (later : Told items beats invalid) :
      Told (.line line :: items) beats (strip line :: invalid)

inductive Stops (published : Nat) : List Item → Ending → Prop
  | over : Stops published [] (.closed published)
  | interrupted (later : List Item) : Stops published (.interrupt :: later) .interrupted
  | overlong {line : String} (long : Overlong line) (later : List Item) (excess : Json.Excess) :
      Stops published (.line line :: later) (.beyond excess)

def invalids (reports : List Report) : List String :=
  reports.filterMap fun
    | .invalid line => some line
    | _ => none

variable {line path : String} {value : Value}

/-! ## Lines -/

omit [Host] in
theorem strip_isEmpty : (strip line).isEmpty = true ↔ Blank line := by
  rw [strip, String.isEmpty_iff, String.ofList_eq_empty_iff, trim_eq_nil, Blank]

omit [Host] in
theorem signal?_eq_some {found : Value} : signal? found = some (path, value) ↔
    ∃ entries, found = .map entries ∧ Value.lookup entries "path" = some (.text path) ∧
      value = (Value.lookup entries "value").getD .null := by
  constructor
  · intro signals
    unfold signal? at signals
    split at signals
    · next entries =>
        split at signals
        · next named =>
            obtain ⟨rfl, rfl⟩ := Prod.mk.inj (Option.some.inj signals)
            exact ⟨entries, rfl, named, rfl⟩
        · cases signals
    · cases signals
  · rintro ⟨entries, rfl, named, rfl⟩
    simp only [signal?, named]

theorem observes_iff (kept : ¬Overlong line) :
    Observes line path value ↔ ∃ found, Json.read (strip line) = .ok found ∧
      signal? found = some (path, value) := by
  constructor
  · rintro ⟨limit, levels, entries, document, named, given⟩
    rcases document.read.otherwise with read | beyond
    · exact ⟨_, read, signal?_eq_some.mpr ⟨entries, rfl, named, given⟩⟩
    · exact absurd (Json.read_givesUp.mp beyond) kept
  · rintro ⟨_, read, signals⟩
    obtain ⟨entries, rfl, named, given⟩ := signal?_eq_some.mp signals
    exact ⟨_, _, entries, Json.read_eq_ok.mp read, named, given⟩

theorem Overlong.visible (long : Overlong line) : ¬Blank line := by
  intro blank
  have nothing : (strip line).toList = [] := by
    simpa [strip] using trim_eq_nil.mpr blank
  obtain ⟨first, gap, overruns⟩ := long
  rw [nothing] at gap
  cases gap
  obtain ⟨c, more, none, -⟩ := overruns.begins
  cases none

inductive Heard (line : String) : Except Json.Excess Line → Prop
  | blank (blank : Blank line) : Heard line (.ok .blank)
  | signal {path : String} {value : Value} (kept : ¬Overlong line)
      (observes : Observes line path value) : Heard line (.ok (.signal path value))
  | invalid (kept : ¬Overlong line) (visible : ¬Blank line)
      (nothing : ∀ path value, ¬Observes line path value) : Heard line (.ok (.invalid (strip line)))
  | overlong (long : Overlong line) (excess : Json.Excess) : Heard line (.error excess)

theorem line_heard (line : String) : Heard line (Line.read line) := by
  unfold Line.read
  by_cases blank : Blank line
  · rw [if_pos (strip_isEmpty.mpr blank)]
    exact .blank blank
  · rw [if_neg (mt strip_isEmpty.mp blank)]
    by_cases long : Overlong line
    · obtain ⟨excess, beyond⟩ := Json.read_givesUp.mpr long
      simp only [beyond]
      exact .overlong long excess
    · have observed (path : String) (value : Value) : Observes line path value ↔ _ := observes_iff long
      rcases Json.read_cases (strip line) with ⟨found, read, -⟩ | ⟨-, long'⟩ | malformed
      · simp only [read, Except.ok.injEq, exists_eq_left'] at observed ⊢
        cases signals : signal? found with
        | none => exact .invalid long blank (by simp [observed, signals])
        | some signal => exact .signal long ((observed _ _).mpr signals)
      · exact absurd long' long
      · simp only [malformed, reduceCtorEq, false_and, exists_false, iff_false] at observed ⊢
        exact .invalid long blank observed

/-! ## Feeding -/

omit [Host] in
@[simp] theorem invalids_append (reports more : List Report) :
    invalids (reports ++ more) = invalids reports ++ invalids more := List.filterMap_append

omit [Host] in
@[simp] theorem invalids_reading (reports : List Report) :
    invalids (.reading :: reports) = invalids reports := rfl

omit [Host] in
@[simp] theorem invalids_run (outcome : Outcome Controller Effect) :
    invalids (run outcome).reports = [] := by
  simp [invalids, run, List.filterMap_map]

variable {published : Nat} {rest : List Item}

def signalled (beats : List Beat) : Nat := (beats.flatMap Beat.signals).length

omit [Host] in
@[simp] theorem signalled_publish (signal : String × Signal) (beats : List Beat) :
    signalled (.publish [signal] :: beats) = 1 + signalled beats := by
  simp [signalled, Beat.signals, Nat.add_comm]

theorem feed_told (published : Nat) (items : List Item) (c : Controller) :
    ∃ told rest, items = told ++ rest ∧
      Told told (beats items) (invalids (feed published items c).reports) ∧
      Stops (published + signalled (beats items)) rest (feed published items c).state.ending := by
  induction items generalizing published c with
  | nil => exact ⟨[], [], rfl, .nothing, .over⟩
  | cons item items ih =>
      cases item with
      | interrupt => exact ⟨[], _, rfl, .nothing, .interrupted items⟩
      | wait seconds =>
          obtain ⟨told, rest, rfl, tells, stops⟩ := ih published (c.advance seconds).state
          exact ⟨_ :: told, rest, rfl, by simpa [feed, after] using .wait seconds tells, stops⟩
      | line line =>
          have heard := line_heard line
          generalize read : Line.read line = result at heard
          simp only [feed, after, beats, read]
          cases heard with
          | overlong long excess => exact ⟨[], _, rfl, .nothing, .overlong long items excess⟩
          | blank blank =>
              obtain ⟨told, rest, rfl, tells, stops⟩ := ih published c
              exact ⟨_ :: told, rest, rfl, .blank blank tells, stops⟩
          | invalid kept visible nothing =>
              obtain ⟨told, rest, rfl, tells, stops⟩ := ih published c
              exact ⟨_ :: told, rest, rfl, .invalid kept visible nothing tells, stops⟩
          | @signal path value kept observes =>
              obtain ⟨told, rest, rfl, tells, stops⟩ :=
                ih (published + 1) (c.publish [(path, .value value)]).state
              refine ⟨_ :: told, rest, rfl, by simpa using .signal kept observes tells, ?_⟩
              rw [signalled_publish, ← Nat.add_assoc]
              exact stops

structure Alike (fed other : Outcome Fed Report) : Prop where
  state : fed.state = other.state
  effects : effects fed.reports = effects other.reports

omit [Host] in
theorem Alike.after {first : Outcome Controller Report} {next other : Controller → Outcome Fed Report}
    (alike : Alike (next first.state) (other first.state)) :
    Alike (after first next) (after first other) :=
  ⟨alike.state, by simp only [Daemon.after, effects_append, alike.effects]⟩

theorem feed_skips (kept : ¬Overlong line) (nothing : ∀ path value, ¬Observes line path value)
    (published : Nat) (before rest : List Item) (c : Controller) :
    Alike (feed published (before ++ .line line :: rest) c) (feed published (before ++ rest) c) := by
  induction before generalizing published c with
  | nil =>
      have heard := line_heard line
      generalize read : Line.read line = result at heard
      simp only [List.nil_append, feed, read]
      cases heard with
      | overlong long => exact absurd long kept
      | signal _ observes => exact absurd observes (nothing _ _)
      | blank | invalid => exact ⟨rfl, rfl⟩
  | cons item before ih =>
      cases item with
      | interrupt => exact ⟨rfl, rfl⟩
      | wait seconds => exact .after (ih published _)
      | line other =>
          simp only [List.cons_append, feed]
          apply Alike.after
          cases Line.read other with
          | error excess => exact ⟨rfl, rfl⟩
          | ok heard =>
              cases heard with
              | blank => exact ih published c
              | invalid => exact .after (ih published c)
              | signal path value => exact .after (ih (published + 1) _)

theorem run_silent (beats : List Beat) (c : Controller) (silent : c.Silent) :
    (Controller.run (beats.map Beat.step) c).state.bus = c.bus.carry (beats.flatMap Beat.signals) := by
  induction beats generalizing c with
  | nil => rfl
  | cons beat rest ih =>
      have unstarted : beat.step ≠ .start := by cases beat <;> simp [Beat.step]
      have stays := (perform_silent silent unstarted).1
      rw [List.map_cons, run_cons, Outcome.andThen_state, ih _ stays, List.flatMap_cons]
      cases beat with
      | publish signals =>
          rw [Beat.step, perform_publish, (publish_unread signals silent.unread).1]
          exact (List.foldl_append ..).symm
      | advance seconds =>
          have arrives : (perform (.advance seconds) c).state = c.arriveAt (c.now.after seconds) := by
            rw [perform_advance, advance, fireBy_silent silent]
            rfl
          have same : (c.arriveAt (c.now.after seconds)).bus = c.bus := by
            rw [arriveAt]
            split <;> rfl
          rw [Beat.step, arrives, same]
          rfl

/-- What comes of an input. Some items are told, and what is left says how the input ends. -/
structure Published (items : List Item) (c : Controller) (told rest : List Item) (beats : List Beat) :
    Prop where
  parts : items = told ++ rest
  told : Told told beats (invalids (feed 0 items c).reports)
  stops : Stops (signalled beats) rest (feed 0 items c).state.ending
  controller : (feed 0 items c).state.controller = (Controller.run (beats.map Beat.step) c).state
  effects : effects (feed 0 items c).reports = (Controller.run (beats.map Beat.step) c).reports
  bus : c.Silent → (feed 0 items c).state.controller.bus = c.bus.carry (beats.flatMap Beat.signals)

theorem short_kept (shallow : line.length ≤ Host.jsonLevels)
    (short : line.length ≤ Decimal.wholeLimit) : ¬Overlong line := by
  rintro ⟨first, gap, overruns⟩
  have inner := gap.length
  have stripped : (strip line).toList.length ≤ line.length := by
    rw [strip, String.toList_ofList, trim, List.length_reverse, ← String.length_toList]
    have front := (List.dropWhile_sublist isBlank (l := line.toList)).length_le
    have back := (List.dropWhile_sublist isBlank (l := (line.toList.dropWhile isBlank).reverse)).length_le
    rw [List.length_reverse] at back
    omega
  rcases overruns.length with long | long <;> omega

theorem lines_published (items : List Item) (c : Controller) :
    (∃ told rest beats, Published items c told rest beats) ∧
      (∀ before line after, items = before ++ .line line :: after → ¬Overlong line →
        (∀ path value, ¬Observes line path value) →
          Alike (feed 0 items c) (feed 0 (before ++ after) c)) ∧
      ∀ line : String, line.length ≤ Host.jsonLevels → line.length ≤ Decimal.wholeLimit →
        ¬Overlong line := by
  obtain ⟨told, rest, parts, tells, stops⟩ := feed_told 0 items c
  obtain ⟨controller, effects⟩ := feed_beats 0 items c
  rw [Nat.zero_add] at stops
  refine ⟨⟨told, rest, beats items, parts, tells, stops, controller, effects, fun silent => ?_⟩, ?_,
    fun _ => short_kept⟩
  · rw [controller]
    exact run_silent _ c silent
  · rintro before line after rfl kept nothing
    exact feed_skips kept nothing 0 before after c

end

theorem deck_and_horn_published :
    let c := idle [] ⟨"on", "off", [], 0⟩
    let deck : Item := .line "\x7b\"path\": \"switches.deck\", \"value\": 1\x7d"
    let horn : Item := .line "\x7b\"path\": \"switches.horn\"\x7d"
    let items := [deck, .line "deck", .line " ", horn]
    (feed 0 items c).state.ending = .closed 2 ∧ invalids (feed 0 items c).reports = ["deck"] ∧
      (∃ told rest beats, Published items c told rest beats) ∧
      Alike (feed 0 items c) (feed 0 [deck, .line " ", horn] c) := by
  intro c deck horn items
  obtain ⟨published, skips, short⟩ := lines_published items c
  have kept : ¬Overlong "deck" := short "deck" (by decide) (by decide)
  have nothing : ∀ path value, ¬Observes "deck" path value := by
    intro path value observes
    obtain ⟨found, read, -⟩ := (observes_iff kept).mp observes
    have malformed : Json.read (strip "deck") = .error .malformed := rfl
    cases malformed.symm.trans read
  exact ⟨by decide +kernel, by decide +kernel, published, skips [deck] "deck" [.line " ", horn] rfl kept nothing⟩

/-! ## A line that is not published -/

def ninesText (number : Nat) : List Char :=
  '\x7b' :: ("\"path\": \"switches.deck\"".toList ++ ',' :: ' ' :: ("\"value\": ".toList ++
    (List.replicate number '9' ++ ['\x7d'])))

def ninesLine (number : Nat) : String := String.ofList (ninesText number)

theorem digits_nines (number : Nat) (rest : List Char) :
    Json.Digits (List.replicate number 9) (List.replicate number '9' ++ rest) rest := by
  induction number with
  | zero => exact .none rest
  | succ number ih => exact .more (by decide) ih

theorem whole_nines (number : Nat) (rest : List Char) :
    Json.Whole (List.replicate (number + 1) 9) (List.replicate (number + 1) '9' ++ rest) rest :=
  .digits (by decide) (by decide) (digits_nines number rest)

theorem path_spelled (limit levels : Nat) (rest : List Char) :
    Json.Spells limit levels (.member "path" (.text "switches.deck"))
      ("\"path\": \"switches.deck\"".toList ++ rest) rest := by
  have name : String.ofList (Json.joinUnits [112, 97, 116, 104]) = "path" := by decide
  have value : String.ofList (Json.joinUnits
      [115, 119, 105, 116, 99, 104, 101, 115, 46, 100, 101, 99, 107]) = "switches.deck" := by decide
  rw [← name, ← value]
  exact .member (Json.readUnits_eq_some.mp rfl) (.none _) (.more rfl (.none _))
    (.scalar (.text (Json.readUnits_eq_some.mp rfl)))

theorem value_quoted (rest : List Char) :
    Json.Quoted [118, 97, 108, 117, 101] ("value\"".toList ++ rest) rest :=
  Json.readUnits_eq_some.mp rfl

theorem strip_nines (number : Nat) : (strip (ninesLine number)).toList = ninesText number := by
  have first : (ninesText number).head? = some '\x7b' := rfl
  have last : (ninesText number).getLast? = some '\x7d' := by
    simp [ninesText, List.getLast?_cons, List.getLast?_append]
  rw [strip, ninesLine, String.toList_ofList, String.toList_ofList]
  apply trim_eq_self
  · intro c head
    obtain rfl := Option.some.inj (first.symm.trans head)
    decide
  · intro c ends
    obtain rfl := Option.some.inj (last.symm.trans ends)
    decide

theorem nines_observed (number : Nat) : Observes (ninesLine (number + 1)) "switches.deck"
    (.whole (ofDigits (List.replicate (number + 1) 9))) := by
  let nines : Value := .whole (ofDigits (List.replicate (number + 1) 9))
  have spelled : Json.Spells (number + 1) 0 (.member "value" nines)
      ("\"value\": ".toList ++ (List.replicate (number + 1) '9' ++ ['\x7d'])) ['\x7d'] := by
    have name : String.ofList (Json.joinUnits [118, 97, 108, 117, 101]) = "value" := by decide
    rw [← name]
    exact .member (value_quoted _) (.none _) (.more rfl (.none _))
      (.scalar (.whole (.parts (.none _) (whole_nines number _) (.none _) (.none _)) (by simp)))
  have document : Json.Document (number + 1) 1
      (.map (Value.collect [("path", .text "switches.deck"), ("value", nines)]))
      (ninesText (number + 1)) :=
    ⟨_, [], .none _, .map (.none _) (.members (path_spelled _ _ _) (.none _) (.more rfl (.none _))
      (.lastMember spelled)) (.none _), .none _⟩
  refine ⟨_, _, _, by rw [strip_nines]; exact document, ?_, ?_⟩
  · rw [Value.lookup_collect]
    rfl
  · rw [Value.lookup_collect]
    rfl

theorem nines_overlong {number : Nat} (long : Decimal.wholeLimit ≤ number) :
    Overlong (ninesLine (number + 1)) := by
  have separate : Json.NoDigit ['\x7d'] := by
    intro c head
    obtain rfl := Option.some.inj head
    decide
  have overruns : Json.Overruns Decimal.wholeLimit 979 .value
      (List.replicate (number + 1) '9' ++ ['\x7d']) :=
    .digits (.none _) (whole_nines number _) (Json.alone_taken _ separate rfl rfl)
      (by rw [List.length_replicate]; omega)
  rw [Overlong, strip_nines]
  exact ⟨_, .none _, .map (.none _) (.members (path_spelled _ _ _) (.none _) (.more rfl (.none _))
    (.member (value_quoted _) (.none _) (.more rfl (.none _)) overruns))⟩

theorem feed_overlong (long : Overlong line) (published : Nat) (rest : List Item) (c : Controller) :
    ∃ excess, feed published (.line line :: rest) c =
      after ⟨c, [.reading]⟩ (finish (.beyond excess)) := by
  have heard := line_heard line
  generalize read : Line.read line = result at heard
  cases heard with
  | overlong _ excess => exact ⟨excess, by simp only [feed, after, read]⟩
  | blank blank => exact absurd blank long.visible
  | signal kept | invalid kept => exact absurd long kept

/-- A JSON map with a path that is not published, nor is any line behind it. -/
theorem long_number_ends_input :
    let outlet : Outlet := ⟨"on", "off", [], 0⟩
    let items : List Item := [.line (ninesLine 4301), .line "\x7b\"path\": \"switches.horn\"\x7d"]
    Observes (ninesLine 4301) "switches.deck" (.whole (ofDigits (List.replicate 4301 9))) ∧
      (∃ excess, (feed 0 items (idle [] outlet)).state.ending = .beyond excess) ∧
      (feed 0 items (idle [] outlet)).state.controller = idle [] outlet ∧
      invalids (feed 0 items (idle [] outlet)).reports = [] := by
  intro outlet items
  have long : Overlong (ninesLine 4301) := nines_overlong (Nat.le_refl 4300)
  obtain ⟨excess, fed⟩ := feed_overlong long 0 [.line "\x7b\"path\": \"switches.horn\"\x7d"] (idle [] outlet)
  rw [fed]
  exact ⟨nines_observed 4300, ⟨excess, rfl⟩, rfl, rfl⟩

end Cadence.Daemon
