import Cosidia.Core.SteadyClock
import Cosidia.Theory.Calls
import Mathlib.Tactic.Linarith
import Mathlib.Tactic.NormNum
import Mathlib.Tactic.Ring

/-!
# Waiting for a simulation time

`getSimTimeNow` multiplies the elapsed real time with the factor, and `getDurationUntil` multiplies
once more where it should divide. With a factor other than one, the core arrives at the time it waits
for only if the excess is lost in the fractions of a nanosecond that are cut off (`arrives_iff`).
-/

namespace Cosidia

open EStateM

namespace SteadyClock

variable {c : SteadyClock} {now now' : RealTime}

theorem toNanoseconds_of_nonneg {d : ℚ} (h : 0 ≤ d) : toNanoseconds d = ⌊d⌋ := by
  rw [toNanoseconds, Int.tdiv_eq_ediv_of_nonneg (Rat.num_nonneg.2 h), Rat.floor_def']

/-- The wait `w` for `d` more, begun with a fraction `φ` of a nanosecond, ends at the right time. -/
theorem exact_iff {f φ : ℚ} {d w : Int} (hf : 0 < f) (hd : 0 ≤ d) (hφ : 0 ≤ φ) (hφ1 : φ < 1)
    (hw : (w : ℚ) ≤ d * f) (hw1 : d * f < w + 1) :
    (d ≤ φ + w * f ∧ φ + w * f < d + 1) ↔ d = 0 ∨ 1 ≤ f ∧ φ + d * (f - 1) < 1 := by
  have hd' : (0 : ℚ) ≤ d := Int.cast_nonneg hd
  constructor
  · rintro ⟨hlow, hhigh⟩
    rcases hd.eq_or_lt with hzero | hpos
    · exact .inl hzero.symm
    right
    have hd1 : (1 : ℚ) ≤ d := by exact_mod_cast hpos
    have hone : 1 ≤ f := by
      -- a smaller factor makes the wait too short by at least one nanosecond
      by_contra hsmall
      have hsmall : f < 1 := not_le.1 hsmall
      have hshort : (w : ℚ) < d := hw.trans_lt (mul_lt_of_lt_one_right (by linarith) hsmall)
      have hshort : (w : ℚ) ≤ d - 1 := by exact_mod_cast Int.le_sub_one_of_lt (by exact_mod_cast hshort)
      have hwf : (w : ℚ) * f ≤ (d - 1) * f := mul_le_mul_of_nonneg_right hshort hf.le
      have hdf : ((d : ℚ) - 1) * f ≤ d - 1 := mul_le_of_le_one_right (by linarith) hsmall.le
      linarith
    have hlong : (d : ℚ) ≤ w := by
      have hdf : (d : ℚ) ≤ d * f := le_mul_of_one_le_right hd' hone
      have hlt : (d : ℚ) < w + 1 := hdf.trans_lt hw1
      exact_mod_cast Int.le_of_lt_add_one (by exact_mod_cast hlt)
    have hwf : (d : ℚ) * f ≤ w * f := mul_le_mul_of_nonneg_right hlong hf.le
    exact ⟨hone, by linarith⟩
  · rintro (rfl | ⟨hone, hexcess⟩)
    · simp only [Int.cast_zero, zero_mul] at hw hw1
      have hzero : w = 0 := by
        have hw : w ≤ 0 := by exact_mod_cast hw
        have hw1 : 0 < w + 1 := by exact_mod_cast hw1
        omega
      subst hzero
      simpa using ⟨hφ, hφ1⟩
    · have hdf : (d : ℚ) ≤ d * f := le_mul_of_one_le_right hd' hone
      have hwd : w = d := by
        have hlt : (d : ℚ) < w + 1 := hdf.trans_lt hw1
        have hgt : (w : ℚ) < d + 1 := by linarith
        have hlt : d < w + 1 := by exact_mod_cast hlt
        have hgt : w < d + 1 := by exact_mod_cast hgt
        omega
      subst hwd
      exact ⟨by linarith, by linarith⟩

/-- Waiting `⌊d * f⌋` from the elapsed time `e` on adds `d` to the scaled time. -/
theorem arrives_iff {f : ℚ} (hf : 0 < f) (e : Int) {d : Int} (hd : 0 ≤ d) :
    ⌊((e + ⌊d * f⌋ : Int) : ℚ) * f⌋ = ⌊e * f⌋ + d ↔
      d = 0 ∨ 1 ≤ f ∧ Int.fract (e * f) + d * (f - 1) < 1 := by
  have hsplit : ((e + ⌊d * f⌋ : Int) : ℚ) * f = ⌊e * f⌋ + (Int.fract (e * f) + ⌊d * f⌋ * f) := by
    rw [← add_assoc, Int.floor_add_fract]
    push_cast
    ring
  rw [hsplit, Int.floor_intCast_add, add_right_inj, Int.floor_eq_iff]
  exact exact_iff hf hd (Int.fract_nonneg _) (Int.fract_lt_one _) (Int.floor_le _)
    (Int.lt_floor_add_one _)

/-! ## The calls of a clock -/

/-- A clock made at `start` whose recorded time is not ahead of what it shows at `now`. -/
structure UpToDate (f : ℚ) (start now : RealTime) (c : SteadyClock) : Prop where
  mSimSpeed : c.mSimSpeed = f
  mStartTime : c.mStartTime = start
  mSimTime : c.mSimTime ≤ c.getSimTimeNow now

variable {f : ℚ} {start : RealTime}

theorem getSimTimeNow_eq (hf : 0 ≤ c.mSimSpeed) (hnow : c.mStartTime ≤ now) :
    c.getSimTimeNow now = ⌊((now - c.mStartTime : Int) : ℚ) * c.mSimSpeed⌋ :=
  toNanoseconds_of_nonneg (mul_nonneg (Int.cast_nonneg (Int.sub_nonneg_of_le hnow)) hf)

theorem getSimTimeNow_mono (hf : 0 ≤ c.mSimSpeed) (hnow : c.mStartTime ≤ now) (h : now ≤ now') :
    c.getSimTimeNow now ≤ c.getSimTimeNow now' := by
  rw [getSimTimeNow_eq hf hnow, getSimTimeNow_eq hf (hnow.trans h)]
  refine Int.floor_mono (mul_le_mul_of_nonneg_right ?_ hf)
  exact Int.cast_le.2 (Int.sub_le_sub_right h _)

theorem getSimTimeNow_record (t : TimePoint) :
    getSimTimeNow now { c with mSimTime := t } = c.getSimTimeNow now := rfl

theorem updateSimTime_of_le {t : TimePoint} (h : c.mSimTime ≤ t) :
    updateSimTime t c = .ok ⟨⟩ { c with mSimTime := t } := by
  have hdec : decide (t ≥ c.mSimTime) = true := decide_eq_true h
  simp only [updateSimTime, bind_apply, get_apply, hdec, enforce_true, pure_apply, modify_apply]

theorem getDurationUntil_of_le (h : c.mSimTime ≤ c.getSimTimeNow now) (till : TimePoint) :
    getDurationUntil now till c =
      .ok (toNanoseconds ((till - c.getSimTimeNow now : Int) * c.mSimSpeed))
        { c with mSimTime := c.getSimTimeNow now } := by
  simp only [getDurationUntil, bind_apply, get_apply, updateSimTime_of_le h, pure_apply]

theorem getRealTimeForCurrentSimTime_of_le (h : c.mSimTime ≤ c.getSimTimeNow now) :
    getRealTimeForCurrentSimTime now c =
      .ok (c.mStartTime + toNanoseconds (c.getSimTimeNow now / c.mSimSpeed))
        { c with mSimTime := c.getSimTimeNow now } := by
  simp only [getRealTimeForCurrentSimTime, bind_apply, get_apply, updateSimTime_of_le h, pure_apply]

theorem updateSimTime_of_lt {t : TimePoint} (h : t < c.mSimTime) :
    updateSimTime t c =
      .error (.runtimeError "clock updates can only advance forward in time") c := by
  have hdec : decide (t ≥ c.mSimTime) = false := decide_eq_false (not_le.2 h)
  simp only [updateSimTime, bind_apply, get_apply, enforce, hdec, throw_apply, Bool.false_eq_true,
    if_false]

/-- A call records the current time or, rejected, nothing. -/
theorem perform_state (call : ClockCall) :
    (call.perform c).state = c ∨
      (call.perform c).state = { c with mSimTime := c.getSimTimeNow call.time } := by
  rcases le_or_gt c.mSimTime (c.getSimTimeNow call.time) with hle | hlt
  · right
    cases call with
    | getRealTimeForCurrentSimTime t =>
      exact congrArg Result.state (getRealTimeForCurrentSimTime_of_le hle)
    | getDurationUntil t till => exact congrArg Result.state (getDurationUntil_of_le hle till)
  · left
    cases call with
    | getRealTimeForCurrentSimTime t =>
      have hlt : c.getSimTimeNow t < c.mSimTime := hlt
      simp only [ClockCall.perform, getRealTimeForCurrentSimTime, bind_apply, get_apply,
        updateSimTime_of_lt hlt, Result.state_error]
    | getDurationUntil t till =>
      have hlt : c.getSimTimeNow t < c.mSimTime := hlt
      simp only [ClockCall.perform, getDurationUntil, bind_apply, get_apply,
        updateSimTime_of_lt hlt, Result.state_error]

theorem upToDate_new (hf : 0 < f) (hnow : start ≤ now) : (new f start).UpToDate f start now := by
  refine ⟨rfl, rfl, ?_⟩
  rw [getSimTimeNow_eq hf.le hnow]
  exact Int.floor_nonneg.2 (mul_nonneg (Int.cast_nonneg (Int.sub_nonneg_of_le hnow)) hf.le)

/-- Calls made at real times from `start` to `now` leave the clock up to date. -/
theorem upToDate_after (hf : 0 < f) (hnow : start ≤ now) (calls : List ClockCall)
    (hcalls : ∀ call ∈ calls, start ≤ call.time ∧ call.time ≤ now) :
    (Calls.after ClockCall.perform (new f start) calls).UpToDate f start now := by
  refine (Calls.invariant ClockCall.perform calls (upToDate_new hf hnow)
    fun call hcall c hc => ?_).2
  obtain ⟨hafter, hbefore⟩ := hcalls call hcall
  rcases perform_state (c := c) call with hstate | hstate
  · rw [hstate]
    exact hc
  · rw [hstate]
    refine ⟨hc.mSimSpeed, hc.mStartTime, ?_⟩
    exact getSimTimeNow_mono (hc.mSimSpeed ▸ hf.le) (hc.mStartTime.trans_le hafter) hbefore

theorem UpToDate.arrives_iff (h : c.UpToDate f start now) (hf : 0 < f) (hnow : start ≤ now)
    {till : TimePoint} (htill : c.getSimTimeNow now ≤ till) :
    ∃ wait c', getDurationUntil now till c = .ok wait c' ∧
      (c'.getSimTimeNow (now + wait) = till ↔ till = c.getSimTimeNow now ∨
        1 ≤ f ∧ Int.fract (((now - start : Int) : ℚ) * f) +
          ((till - c.getSimTimeNow now : Int) : ℚ) * (f - 1) < 1) := by
  obtain ⟨rfl, rfl, hle⟩ := h
  have hrest : 0 ≤ till - c.getSimTimeNow now := Int.sub_nonneg_of_le htill
  have hscaled : 0 ≤ ((till - c.getSimTimeNow now : Int) : ℚ) * c.mSimSpeed :=
    mul_nonneg (Int.cast_nonneg hrest) hf.le
  have hlater : ∀ w : Int, 0 ≤ w → c.mStartTime ≤ now + w := fun w hw =>
    hnow.trans (Int.le_add_of_nonneg_right hw)
  have harrives := SteadyClock.arrives_iff hf (now - c.mStartTime) hrest
  refine ⟨_, _, getDurationUntil_of_le hle till, ?_⟩
  rw [getSimTimeNow_record, toNanoseconds_of_nonneg hscaled,
    getSimTimeNow_eq hf.le (hlater _ (Int.floor_nonneg.2 hscaled)), add_sub_right_comm]
  rw [← getSimTimeNow_eq hf.le hnow, add_sub_cancel] at harrives
  rw [harrives, sub_eq_zero]

/-- The core waits as long as `getDurationUntil` says. It then is at the time it has waited for
exactly if it was there before, or the factor is at least one and what the wait is too long for does
not add up to a nanosecond. -/
theorem getDurationUntil_arrives_iff (hf : 0 < f) (hnow : start ≤ now) (calls : List ClockCall)
    (hcalls : ∀ call ∈ calls, start ≤ call.time ∧ call.time ≤ now) (till : TimePoint) :
    let c := Calls.after ClockCall.perform (new f start) calls
    c.getSimTimeNow now ≤ till → ∃ wait c', getDurationUntil now till c = .ok wait c' ∧
      (c'.getSimTimeNow (now + wait) = till ↔ till = c.getSimTimeNow now ∨
        1 ≤ f ∧ Int.fract (((now - start : Int) : ℚ) * f) +
          ((till - c.getSimTimeNow now : Int) : ℚ) * (f - 1) < 1) :=
  fun htill => (upToDate_after hf hnow calls hcalls).arrives_iff hf hnow htill

/-- At the factor one the core arrives. -/
theorem getDurationUntil_arrives_one :
    ∃ wait c', getDurationUntil 5 100 (new 1 0) = .ok wait c' ∧ c'.getSimTimeNow (5 + wait) = 100 := by
  have hshown : (new 1 0).getSimTimeNow 5 = 5 := by
    rw [getSimTimeNow_eq (by simp [new]) (by decide)]
    simp [new]
  obtain ⟨wait, c', hok, hiff⟩ := getDurationUntil_arrives_iff one_pos
    (by decide) [] (List.forall_mem_nil _) 100 (hshown.trans_le (by decide))
  exact ⟨wait, c', hok, hiff.2 (.inr ⟨le_rfl, by simp⟩)⟩

/-- At twice the speed, the core is not where it waits to be when it waits for a time one second
away. -/
theorem getDurationUntil_double :
    ¬ ∀ (f : ℚ) (start now : RealTime) (till : TimePoint), 0 < f → start ≤ now →
      (new f start).getSimTimeNow now ≤ till → ∀ wait c',
        getDurationUntil now till (new f start) = .ok wait c' →
          c'.getSimTimeNow (now + wait) = till := by
  intro h
  have hshown : (new 2 0).getSimTimeNow 0 = 0 := by
    rw [getSimTimeNow_eq (by simp [new]) (by decide)]
    simp [new]
  have htill : (new 2 0).getSimTimeNow 0 ≤ 1000000000 := hshown.trans_le (by decide)
  obtain ⟨wait, c', hok, hiff⟩ := (upToDate_new two_pos le_rfl).arrives_iff two_pos le_rfl htill
  have harrives := hiff.1 (h 2 0 0 1000000000 two_pos le_rfl htill wait c' hok)
  rw [hshown] at harrives
  norm_num at harrives

end SteadyClock

end Cosidia
