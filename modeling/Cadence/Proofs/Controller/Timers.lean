import Cadence.Controller.Clock

namespace Cadence.Instant
open Float.Model UnpackedFloat

theorem toBits_le (x : Float) : x.toBits.toNat ≤ 0xfff0000000000000 := by
  apply Nat.not_lt.mp
  let bits : BitVec Format.binary64.numBits := x.toModel.toBits.toBitVec
  intro (large : 0xfff0000000000000 < bits.toNat)
  have small : bits.toNat < 2 ^ 64 := bits.isLt
  have exponent : unpackExponent bits = -1#11 := by
    apply BitVec.eq_of_toNat_eq
    simp only [unpackExponent, BitVec.toNat_cast, BitVec.extractLsb_toNat,
      Nat.shiftRight_eq_div_pow]
    change bits.toNat / 2 ^ 52 % 2 ^ 11 = 2047
    omega
  have mantissa : unpackMantissa bits ≠ 0#52 := by
    intro zero
    have value := congrArg BitVec.toNat zero
    simp only [unpackMantissa, BitVec.toNat_cast, BitVec.extractLsb_toNat] at value
    change bits.toNat >>> 0 % 2 ^ 52 = 0 at value
    rw [Nat.shiftRight_zero] at value
    omega
  have same : bits = packedNaN Format.binary64 := x.toModel.valid.eq_packedNaN exponent mantissa
  have positive : (packedNaN Format.binary64).toNat = 0x7ff8000000000000 := by decide
  rw [same, positive] at large
  omega

theorem le_rank (t : Instant) : -0x7ff0000000000000 ≤ t.rank := by
  have bound := toBits_le t.seconds
  have half : Nat.pow 2 63 = 0x8000000000000000 := rfl
  simp only [rank, half]
  split <;> omega

theorem isBy_of_le {s t limit : Instant} (before : s ≤ t) (come : t.isBy limit) :
    s.isBy limit = true := by
  have earlier : s.rank ≤ t.rank := before
  have low := le_rank s
  simp only [isBy, isNumber, Bool.and_eq_true, decide_eq_true_eq] at come ⊢
  obtain ⟨⟨number, limitNumber⟩, within⟩ := come
  exact ⟨⟨by omega, limitNumber⟩, Instant.le_trans before within⟩

end Cadence.Instant

namespace Cadence.Controller

variable {timers : List (Owner × Instant)} {timer : Owner × Instant} {target : Instant}
  {c : Controller}

/-- Due before all timers in front of it, and not after any behind it. -/
def Foremost (timers : List (Owner × Instant)) (timer : Owner × Instant) : Prop :=
  ∃ before after, timers = before ++ timer :: after ∧ (∀ other ∈ before, timer.2 < other.2) ∧
    ∀ other ∈ after, timer.2 ≤ other.2

theorem earliest?_eq_none : earliest? timers = none ↔ timers = [] := by
  cases timers with
  | nil => simp [earliest?]
  | cons head rest =>
      cases later : earliest? rest with
      | none => simp [earliest?, later]
      | some other =>
          simp only [earliest?, later, reduceCtorEq, iff_false]
          split <;> simp

theorem earliest?_foremost (found : earliest? timers = some timer) : Foremost timers timer := by
  induction timers generalizing timer with
  | nil => cases found
  | cons head rest ih =>
      cases later : earliest? rest with
      | none =>
          obtain rfl := earliest?_eq_none.mp later
          simp only [earliest?, Option.some.injEq] at found
          exact ⟨[], [], by simp [found], by simp, by simp⟩
      | some other =>
          obtain ⟨before, after, split, early, late⟩ := ih later
          simp only [earliest?, later] at found
          -- Of timers that are due together the one in front is taken.
          by_cases first : head.2 ≤ other.2
          · rw [if_pos first] at found
            obtain rfl := Option.some.inj found
            refine ⟨[], rest, rfl, by simp, ?_⟩
            intro third among
            rw [split] at among
            rcases List.mem_append.mp among with front | back
            · exact Instant.le_trans first (Int.le_of_lt (early third front))
            · rcases List.mem_cons.mp back with rfl | behind
              · exact first
              · exact Instant.le_trans first (late third behind)
          · rw [if_neg first] at found
            obtain rfl := Option.some.inj found
            refine ⟨head :: before, after, by rw [split, List.cons_append], ?_, late⟩
            intro third among
            rcases List.mem_cons.mp among with rfl | front
            · exact Instant.not_le.mp first
            · exact early third front

theorem Foremost.earliest? (foremost : Foremost timers timer) :
    earliest? timers = some timer := by
  obtain ⟨before, after, rfl, early, late⟩ := foremost
  induction before with
  | nil =>
      cases later : Controller.earliest? after with
      | none => simp [Controller.earliest?, later]
      | some other =>
          obtain ⟨front, back, split, -⟩ := earliest?_foremost later
          have first : timer.2 ≤ other.2 := late other (by simp [split])
          simp [Controller.earliest?, later, first]
  | cons head before ih =>
      have rest := ih fun other among => early other (List.mem_cons_of_mem head among)
      have behind : ¬ head.2 ≤ timer.2 := Instant.not_le.mpr (early head List.mem_cons_self)
      simp [Controller.earliest?, rest, behind]

theorem Foremost.le (foremost : Foremost timers timer) {other : Owner × Instant}
    (among : other ∈ timers) : timer.2 ≤ other.2 := by
  obtain ⟨before, after, rfl, early, late⟩ := foremost
  rcases List.mem_append.mp among with front | back
  · exact Int.le_of_lt (early other front)
  · rcases List.mem_cons.mp back with rfl | behind
    · exact Instant.le_refl _
    · exact late other behind

theorem Foremost.filter (foremost : Foremost timers timer) {keeps : Owner × Instant → Bool}
    (kept : keeps timer = true) : Foremost (timers.filter keeps) timer := by
  obtain ⟨before, after, rfl, early, late⟩ := foremost
  refine ⟨before.filter keeps, after.filter keeps, by simp [kept], ?_, ?_⟩
  · intro other among
    exact early other (List.mem_filter.mp among).1
  · intro other among
    exact late other (List.mem_filter.mp among).1

theorem nextBy?_eq_some : c.nextBy? target = some timer ↔
    Foremost c.timers timer ∧ timer.2.isBy target = true := by
  rw [nextBy?, Option.filter_eq_some_iff, next?]
  constructor
  · rintro ⟨found, come⟩
    exact ⟨earliest?_foremost found, come⟩
  · rintro ⟨foremost, come⟩
    exact ⟨foremost.earliest?, come⟩

theorem nextBy?_eq_none : c.nextBy? target = none ↔
    ∀ timer ∈ c.timers, timer.2.isBy target = false := by
  constructor
  · intro none timer among
    cases found : earliest? c.timers with
    | none => simp [earliest?_eq_none.mp found] at among
    | some first =>
        cases come : timer.2.isBy target with
        | false => rfl
        | true =>
            have foremost := earliest?_foremost found
            have next := nextBy?_eq_some.mpr ⟨foremost, Instant.isBy_of_le (foremost.le among) come⟩
            rw [none] at next
            cases next
  · intro late
    cases found : c.nextBy? target with
    | none => rfl
    | some timer =>
        obtain ⟨⟨before, after, split, -⟩, come⟩ := nextBy?_eq_some.mp found
        rw [late timer (by simp [split])] at come
        cases come

end Cadence.Controller
