import DopamintArena.Foundation.Machine
import DopamintArena.Move.Signature

/-!
Timeouts and penalties of `referee.move`.

The clock argument is `clock.timestamp_ms()`. The source widens to `u128` for
deadlines and products; sums and products of two 64-bit values always fit
there, so those intermediate values are natural numbers. Narrowing back to
`u64` aborts when the value does not fit, and so does a `u64` addition. Of a
dispute history only the number of consecutive timeouts is read.
-/

namespace DopamintArena.Move

open Foundation

def refereeTypeAutomated : UInt8 := 0

def oneHourMs : UInt64 := 3600000

structure RefereeConfig where
  refereeType : UInt8
  timeoutMs : UInt64
  gracePeriodMs : UInt64
  basePenalty : UInt64
  penaltyPerHour : UInt64
  maxPenalty : UInt64
  penaltiesEnabled : Bool
  minResponseTimeMs : UInt64
deriving DecidableEq

structure DisputeHistory where
  consecutiveTimeouts : UInt64
deriving DecidableEq

def defaultConfig : RefereeConfig where
  refereeType := refereeTypeAutomated
  timeoutMs := oneHourMs
  gracePeriodMs := 0
  basePenalty := 0
  penaltyPerHour := 0
  maxPenalty := 0
  penaltiesEnabled := false
  minResponseTimeMs := 0

def assertValidTimeout (timeoutMs : UInt64) : Except Abort Unit :=
  require (timeoutMs > 0) .invalidParameter

def createPenaltyConfig (timeoutMs basePenalty penaltyPerHour maxPenalty : UInt64) :
    Except Abort RefereeConfig := do
  assertValidTimeout timeoutMs
  require (maxPenalty ≥ basePenalty) .invalidParameter
  pure
    { defaultConfig with
      timeoutMs := timeoutMs
      basePenalty := basePenalty
      penaltyPerHour := penaltyPerHour
      maxPenalty := maxPenalty
      penaltiesEnabled := true }

namespace RefereeConfig

/-- The last moment of the timeout period, as `u128`. -/
def deadline (config : RefereeConfig) (lastActivity : UInt64) : Nat :=
  lastActivity.toNat + config.timeoutMs.toNat

end RefereeConfig

section

variable (config : RefereeConfig)

def timeSinceTimeout (lastActivity now : UInt64) :
    Except Abort UInt64 :=
  if now.toNat ≤ config.deadline lastActivity then
    pure 0
  else
    checkedCast .arithmeticError (now.toNat - config.deadline lastActivity)

/-- The base penalty and the time-based one: the local `penalty` before the cap. -/
def uncappedPenalty (elapsed : UInt64) : Except Abort UInt64 :=
  if config.penaltyPerHour > 0 then do
    let hoursElapsed := elapsed / oneHourMs
    let timePenalty ← checkedCast .arithmeticError
      (hoursElapsed.toNat * config.penaltyPerHour.toNat)
    checkedAdd .arithmeticError config.basePenalty timePenalty
  else
    pure config.basePenalty

def calculatePenalty (lastActivity now : UInt64) :
    Except Abort UInt64 :=
  if config.penaltiesEnabled = false then
    pure 0
  else do
    let elapsed ← timeSinceTimeout config lastActivity now
    if elapsed = 0 then
      pure 0
    else do
      let penalty ← uncappedPenalty config elapsed
      pure (if penalty > config.maxPenalty then config.maxPenalty else penalty)

end

/-- The local `multiplier`: one more than the consecutive timeouts. -/
def timeoutMultiplier (history : DisputeHistory) : Except Abort UInt64 :=
  if history.consecutiveTimeouts > 0 then
    checkedAdd .arithmeticError history.consecutiveTimeouts 1
  else
    pure 1

def calculateGraduatedPenalty (config : RefereeConfig) (history : DisputeHistory)
    (lastActivity now : UInt64) : Except Abort UInt64 := do
  let base ← calculatePenalty config lastActivity now
  let multiplier ← timeoutMultiplier history
  let graduated ← checkedCast .arithmeticError (base.toNat * multiplier.toNat)
  pure (if graduated > config.maxPenalty then config.maxPenalty else graduated)

/-!
What the two functions are for, over the natural numbers: a penalty that
accrues by the hour once the timeout has passed and never exceeds its cap.
-/

namespace RefereeConfig

/-- Milliseconds since the timeout, zero up to and including the deadline. -/
def overdueMs (config : RefereeConfig) (lastActivity now : UInt64) : Nat :=
  now.toNat - config.deadline lastActivity

/-- The base penalty and the hourly penalty of the whole hours since the timeout. -/
def accrued (config : RefereeConfig) (lastActivity now : UInt64) : Nat :=
  config.basePenalty.toNat +
    config.penaltyPerHour.toNat * (config.overdueMs lastActivity now / 3600000)

/-- Whether any penalty accrues at all. -/
def applies (config : RefereeConfig) (lastActivity now : UInt64) : Prop :=
  config.penaltiesEnabled = true ∧ 0 < config.overdueMs lastActivity now

instance (config : RefereeConfig) (lastActivity now : UInt64) :
    Decidable (config.applies lastActivity now) :=
  inferInstanceAs (Decidable (_ ∧ _))

def penaltyDue (config : RefereeConfig) (lastActivity now : UInt64) : Nat :=
  if config.applies lastActivity now then
    min config.maxPenalty.toNat (config.accrued lastActivity now)
  else
    0

def graduatedDue (config : RefereeConfig) (history : DisputeHistory)
    (lastActivity now : UInt64) : Nat :=
  min config.maxPenalty.toNat
    (config.penaltyDue lastActivity now * (1 + history.consecutiveTimeouts.toNat))

variable {config : RefereeConfig} {lastActivity now later : UInt64}

variable (htime : now ≤ later)
include htime

theorem overdueMs_mono :
    config.overdueMs lastActivity now ≤ config.overdueMs lastActivity later :=
  Nat.sub_le_sub_right (UInt64.le_iff_toNat_le.mp htime) _

theorem accrued_mono :
    config.accrued lastActivity now ≤ config.accrued lastActivity later := by
  have hhours : config.overdueMs lastActivity now / 3600000 ≤
      config.overdueMs lastActivity later / 3600000 :=
    Nat.div_le_div_right (overdueMs_mono htime)
  exact Nat.add_le_add_left (Nat.mul_le_mul_left _ hhours) _

theorem penaltyDue_mono :
    config.penaltyDue lastActivity now ≤ config.penaltyDue lastActivity later := by
  unfold penaltyDue
  by_cases happlies : config.applies lastActivity now
  · have hlater : config.applies lastActivity later :=
      ⟨happlies.1, happlies.2.trans_le (overdueMs_mono htime)⟩
    rw [if_pos happlies, if_pos hlater]
    exact min_le_min_left _ (accrued_mono htime)
  · rw [if_neg happlies]
    exact Nat.zero_le _

end RefereeConfig

variable {config : RefereeConfig} {history : DisputeHistory} {lastActivity now : UInt64}

/-- The elapsed time is at most the clock, so narrowing it never aborts. -/
theorem timeSinceTimeout_eq :
    ∃ elapsed, timeSinceTimeout config lastActivity now = .ok elapsed ∧
      elapsed.toNat = config.overdueMs lastActivity now := by
  have hnow := now.toNat_lt
  unfold timeSinceTimeout RefereeConfig.overdueMs
  split
  · rename_i hearly
    exact ⟨0, rfl, (Nat.sub_eq_zero_of_le hearly).symm⟩
  · obtain ⟨elapsed, helapsed⟩ := exists_toNat_eq
      (Nat.lt_of_le_of_lt (Nat.sub_le now.toNat (config.deadline lastActivity)) hnow)
    exact ⟨elapsed, checkedCast_ok_iff.mpr helapsed, helapsed⟩

/-- Clipping a machine word at a cap is the minimum of the two. -/
theorem toNat_clip (value cap : UInt64) :
    (if value > cap then cap else value).toNat = min cap.toNat value.toNat := by
  split
  · rename_i hover
    have := UInt64.lt_iff_toNat_lt.mp hover
    omega
  · rename_i hunder
    have := UInt64.le_iff_toNat_le.mp (UInt64.not_lt.mp hunder)
    omega

/-- The hourly part and its sum with the base fit exactly when the accrued
penalty does. -/
theorem uncappedPenalty_ok_iff {elapsed penalty : UInt64}
    (helapsed : elapsed.toNat = config.overdueMs lastActivity now) :
    uncappedPenalty config elapsed = .ok penalty ↔
      penalty.toNat = config.accrued lastActivity now := by
  have hhours : (elapsed / oneHourMs).toNat =
      config.overdueMs lastActivity now / 3600000 := by
    rw [UInt64.toNat_div, helapsed]
    rfl
  unfold uncappedPenalty RefereeConfig.accrued
  simp only [hhours]
  generalize config.overdueMs lastActivity now / 3600000 = hours
  split
  · simp only [bind_ok_iff, checkedCast_ok_iff, checkedAdd_ok_iff]
    constructor
    · rintro ⟨timePenalty, htime, hsum⟩
      rw [hsum, htime, Nat.mul_comm]
    · intro hpenalty
      have hbound := penalty.toNat_lt
      rw [hpenalty, Nat.mul_comm] at hbound
      obtain ⟨timePenalty, htime⟩ : ∃ timePenalty : UInt64,
          timePenalty.toNat = hours * config.penaltyPerHour.toNat :=
        exists_toNat_eq (by omega)
      exact ⟨timePenalty, htime, by rw [hpenalty, htime, Nat.mul_comm hours]⟩
  · rename_i hrate
    have hzero : config.penaltyPerHour.toNat = 0 := by
      have := UInt64.le_iff_toNat_le.mp (UInt64.not_lt.mp hrate)
      simpa using this
    rw [hzero, Nat.zero_mul, Nat.add_zero, pure_ok_iff, UInt64.toNat_inj]

/-- `calculate_penalty` returns the penalty due, and returns at all unless a
penalty that applies has accrued past 64 bits. -/
theorem calculatePenalty_ok_iff {penalty : UInt64} :
    calculatePenalty config lastActivity now = .ok penalty ↔
      penalty.toNat = config.penaltyDue lastActivity now ∧
        (config.applies lastActivity now → config.accrued lastActivity now < 2 ^ 64) := by
  obtain ⟨elapsed, hok, helapsed⟩ :
      ∃ elapsed, timeSinceTimeout config lastActivity now = .ok elapsed ∧
        elapsed.toNat = config.overdueMs lastActivity now := timeSinceTimeout_eq
  have hzero : penalty.toNat = 0 ↔ penalty = 0 := by
    rw [← UInt64.toNat_inj, UInt64.toNat_zero]
  unfold calculatePenalty RefereeConfig.penaltyDue
  by_cases henabled : config.penaltiesEnabled = false
  · have hnot : ¬config.applies lastActivity now := by
      intro happlies
      exact absurd (henabled.symm.trans happlies.1) (by decide)
    simp [henabled, hnot, hzero]
  · rw [if_neg henabled, hok, ok_bind]
    by_cases hearly : elapsed = 0
    · have hnot : ¬config.applies lastActivity now := by
        intro happlies
        have hpositive := happlies.2
        rw [← helapsed, hearly] at hpositive
        exact absurd hpositive (by decide)
      simp [hearly, hnot, hzero]
    · have happlies : config.applies lastActivity now := by
        refine ⟨by simpa using henabled, ?_⟩
        rw [← helapsed]
        refine Nat.pos_of_ne_zero fun hnone => hearly ?_
        rw [← UInt64.toNat_inj, hnone, UInt64.toNat_zero]
      rw [if_neg hearly, if_pos happlies]
      simp only [bind_ok_iff, uncappedPenalty_ok_iff helapsed, pure_ok_iff]
      constructor
      · rintro ⟨uncapped, hsum, rfl⟩
        rw [toNat_clip, hsum]
        exact ⟨rfl, fun _ => hsum ▸ uncapped.toNat_lt⟩
      · rintro ⟨hpenalty, hfits⟩
        obtain ⟨uncapped, hsum⟩ := exists_toNat_eq (hfits happlies)
        refine ⟨uncapped, hsum, ?_⟩
        rw [← UInt64.toNat_inj, toNat_clip, hsum, hpenalty]

theorem timeoutMultiplier_ok_iff {multiplier : UInt64} :
    timeoutMultiplier history = .ok multiplier ↔
      multiplier.toNat = 1 + history.consecutiveTimeouts.toNat := by
  unfold timeoutMultiplier
  split
  · rw [checkedAdd_ok_iff, Nat.add_comm]
    rfl
  · rename_i hnone
    have hzero : history.consecutiveTimeouts.toNat = 0 := by
      have := UInt64.le_iff_toNat_le.mp (UInt64.not_lt.mp hnone)
      simpa using this
    rw [hzero, pure_ok_iff, ← UInt64.toNat_inj]
    rfl

/-- No addition, product or cast of the two functions leaves 64 bits. The
accrued penalty counts only where it applies, since nothing is computed
elsewhere. -/
structure RefereeConfig.Fits (config : RefereeConfig) (history : DisputeHistory)
    (lastActivity now : UInt64) : Prop where
  accrued : config.applies lastActivity now → config.accrued lastActivity now < 2 ^ 64
  timeouts : history.consecutiveTimeouts.toNat + 1 < 2 ^ 64
  graduated : config.penaltyDue lastActivity now *
    (1 + history.consecutiveTimeouts.toNat) < 2 ^ 64

/-- `calculate_graduated_penalty` returns the graduated penalty due, and returns
at all exactly when everything it computes on the way fits. -/
theorem calculateGraduatedPenalty_ok_iff {graduated : UInt64} :
    calculateGraduatedPenalty config history lastActivity now = .ok graduated ↔
      graduated.toNat = config.graduatedDue history lastActivity now ∧
        config.Fits history lastActivity now := by
  unfold calculateGraduatedPenalty RefereeConfig.graduatedDue
  simp only [bind_ok_iff, calculatePenalty_ok_iff, timeoutMultiplier_ok_iff,
    checkedCast_ok_iff, pure_ok_iff]
  constructor
  · rintro ⟨base, ⟨hbase, hfits⟩, multiplier, htimes, product, hproduct, rfl⟩
    rw [hbase, htimes] at hproduct
    rw [toNat_clip, hproduct]
    have hcount := multiplier.toNat_lt
    exact ⟨rfl, hfits, by omega, hproduct ▸ product.toNat_lt⟩
  · rintro ⟨hgraduated, hfits, _, hproduct⟩
    have hbound : config.penaltyDue lastActivity now < 2 ^ 64 :=
      Nat.lt_of_le_of_lt (Nat.le_mul_of_pos_right _ (by omega)) hproduct
    obtain ⟨base, hbase⟩ := exists_toNat_eq hbound
    obtain ⟨multiplier, htimes⟩ : ∃ multiplier : UInt64,
        multiplier.toNat = 1 + history.consecutiveTimeouts.toNat :=
      exists_toNat_eq (by omega)
    obtain ⟨product, hvalue⟩ := exists_toNat_eq hproduct
    refine ⟨base, ⟨hbase, hfits⟩, multiplier, htimes, product, ?_, ?_⟩
    · rw [hbase, htimes, hvalue]
    · rw [← UInt64.toNat_inj, toNat_clip, hvalue, hgraduated]

/-- Both functions return the documented penalty exactly where nothing they
compute before the cap leaves 64 bits, and where they return they never
decrease with the clock or with the number of consecutive timeouts. -/
theorem penalties_exact_iff (config : RefereeConfig) (history : DisputeHistory)
    (lastActivity now : UInt64) :
    (((∃ penalty, calculatePenalty config lastActivity now = .ok penalty ∧
          penalty.toNat = config.penaltyDue lastActivity now) ∧
        ∃ graduated, calculateGraduatedPenalty config history lastActivity now =
            .ok graduated ∧
          graduated.toNat = config.graduatedDue history lastActivity now) ↔
      config.Fits history lastActivity now) ∧
    ∀ (worse : DisputeHistory) (later : UInt64), now ≤ later →
      history.consecutiveTimeouts ≤ worse.consecutiveTimeouts →
      (∀ penalty penalty', calculatePenalty config lastActivity now = .ok penalty →
        calculatePenalty config lastActivity later = .ok penalty' → penalty ≤ penalty') ∧
      ∀ graduated graduated',
        calculateGraduatedPenalty config history lastActivity now = .ok graduated →
        calculateGraduatedPenalty config worse lastActivity later = .ok graduated' →
        graduated ≤ graduated' := by
  refine ⟨⟨?_, ?_⟩, ?_⟩
  · rintro ⟨-, graduated, hgraduated, -⟩
    exact (calculateGraduatedPenalty_ok_iff.mp hgraduated).2
  · intro hfits
    have hdue : config.penaltyDue lastActivity now < 2 ^ 64 :=
      Nat.lt_of_le_of_lt (Nat.le_mul_of_pos_right _ (by omega)) hfits.graduated
    obtain ⟨penalty, hpenalty⟩ := exists_toNat_eq hdue
    obtain ⟨graduated, hgraduated⟩ : ∃ graduated : UInt64,
        graduated.toNat = config.graduatedDue history lastActivity now :=
      exists_toNat_eq (Nat.lt_of_le_of_lt (min_le_right _ _) hfits.graduated)
    exact ⟨⟨penalty, calculatePenalty_ok_iff.mpr ⟨hpenalty, hfits.accrued⟩, hpenalty⟩,
      graduated, calculateGraduatedPenalty_ok_iff.mpr ⟨hgraduated, hfits⟩, hgraduated⟩
  · intro worse later htime htimeouts
    refine ⟨fun penalty penalty' hnow hlater => ?_, fun graduated graduated' hnow hlater => ?_⟩
    · rw [UInt64.le_iff_toNat_le, (calculatePenalty_ok_iff.mp hnow).1,
        (calculatePenalty_ok_iff.mp hlater).1]
      exact RefereeConfig.penaltyDue_mono htime
    · rw [UInt64.le_iff_toNat_le, (calculateGraduatedPenalty_ok_iff.mp hnow).1,
        (calculateGraduatedPenalty_ok_iff.mp hlater).1]
      have hfactor := UInt64.le_iff_toNat_le.mp htimeouts
      exact min_le_min_left _ (Nat.mul_le_mul (RefereeConfig.penaltyDue_mono htime) (by omega))

/-- An hour past the timeout the sum of a base penalty of one and the largest
hourly penalty aborts, and a history of one timeout makes a penalty of half the
range abort when it is doubled; the cap is due in both cases. -/
theorem penalty_aborts_before_the_cap :
    (∃ config, createPenaltyConfig 3600000 1 18446744073709551615 18446744073709551615 =
        .ok config ∧
      calculatePenalty config 0 7200000 = .error .arithmeticError ∧
      config.penaltyDue 0 7200000 = 18446744073709551615) ∧
    ∃ config, createPenaltyConfig 3600000 9223372036854775808 0 9223372036854775808 =
        .ok config ∧
      calculatePenalty config 0 7200000 = .ok 9223372036854775808 ∧
      calculateGraduatedPenalty config ⟨1⟩ 0 7200000 = .error .arithmeticError ∧
      config.graduatedDue ⟨1⟩ 0 7200000 = 9223372036854775808 :=
  ⟨⟨_, rfl, by decide +kernel⟩, _, rfl, by decide +kernel⟩

end DopamintArena.Move
