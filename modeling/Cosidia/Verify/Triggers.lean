import Cosidia.Networking.ManualRuntime
import Cosidia.Theory.Calls
import Cosidia.Verify.Deadlines
import Mathlib.Algebra.Group.Int.Defs

/-!
# Moving the clock of a runtime

An accepted `trigger` compares with the last one, not with the clock: after the first accepted one the
two agree (`Driven`), before it the last trigger is the epoch of vanetza's clock. The conversions
between the clocks cut off fractions of a microsecond, at different points, and still fit together.
-/

namespace Cosidia

open EStateM

variable {σ : Type} {M : ManualRuntime σ}

namespace DerivedRuntime

variable {r r' : DerivedRuntime σ} {ran : List ItsTime}

/-- The runtime after an accepted `trigger(tp)`. -/
def driven (M : ManualRuntime σ) (r : DerivedRuntime σ) (tp : ItsTime) : DerivedRuntime σ :=
  { r with base := (M.trigger tp r.base).1, mLastTrigger := tp }

theorem trigger_of_le {tp : ItsTime} (h : r.mLastTrigger ≤ tp) :
    trigger M tp r = .ok (M.trigger tp r.base).2 (r.driven M tp) := by
  have hdec : decide (tp ≥ r.mLastTrigger) = true := decide_eq_true h
  simp only [trigger, bind_apply, get_apply, hdec, enforce_true, pure_apply, modify_apply]
  rfl

theorem trigger_of_lt {tp : ItsTime} (h : tp < r.mLastTrigger) :
    trigger M tp r = .error (.runtimeError "trigger can only advance forward in time") r := by
  have hdec : decide (tp ≥ r.mLastTrigger) = false := decide_eq_false (not_le.2 h)
  simp only [trigger, bind_apply, get_apply, enforce, hdec, throw_apply, Bool.false_eq_true,
    if_false]

theorem triggerSim_apply (tp : TimePoint) :
    triggerSim M tp r = trigger M ((r.shown M).advanceTo tp) r := by
  rcases le_or_gt r.mLastTrigger ((r.shown M).advanceTo tp) with h | h
  · have hdec : decide ((r.shown M).advanceTo tp ≥ r.mLastTrigger) = true := decide_eq_true h
    simp only [triggerSim, bind_apply, get_apply, hdec, enforce_true, pure_apply]
  · have hdec : decide ((r.shown M).advanceTo tp ≥ r.mLastTrigger) = false :=
      decide_eq_false (not_le.2 h)
    simp only [triggerSim, bind_apply, get_apply, enforce, hdec, throw_apply, Bool.false_eq_true,
      if_false, trigger_of_lt h]

/-- A runtime that started at `initTime`. -/
structure StartedAt (utcStartTime : Duration) (initTime : TimePoint) (r : DerivedRuntime σ) :
    Prop where
  mSimStartTime : r.mSimStartTime = initTime
  mItsStartTime : r.mItsStartTime = Runtime.convert utcStartTime initTime

theorem startedAt_makeRuntime (hM : M.Lawful) (utcStartTime : Duration) (initTime : TimePoint) :
    (makeRuntime M utcStartTime initTime).StartedAt utcStartTime initTime :=
  ⟨rfl, hM.now_construct _⟩

namespace StartedAt

variable {utcStartTime : Duration} {initTime : TimePoint}
  (h : r.StartedAt utcStartTime initTime)
include h

theorem advanceTo_eq (tp : TimePoint) :
    (r.shown M).advanceTo tp =
      Runtime.convert utcStartTime initTime + Runtime.toMicroseconds (tp - initTime) := by
  rw [← h.mItsStartTime, ← h.mSimStartTime]
  rfl

theorem perform_eq (call : TriggerCall) :
    call.perform M r = trigger M (call.target utcStartTime initTime) r := by
  cases call with
  | its tp => rfl
  | sim tp =>
    rw [TriggerCall.perform, triggerSim_apply, h.advanceTo_eq]
    rfl

theorem driven (tp : ItsTime) : (r.driven M tp).StartedAt utcStartTime initTime :=
  ⟨h.mSimStartTime, h.mItsStartTime⟩

theorem perform (call : TriggerCall) :
    (call.perform M r).state.StartedAt utcStartTime initTime := by
  rw [h.perform_eq]
  rcases le_or_gt r.mLastTrigger (call.target utcStartTime initTime) with hle | hlt
  · rw [trigger_of_le hle]
    exact h.driven _
  · rw [trigger_of_lt hlt]
    exact h

end StartedAt

/-! ## Forward only -/

/-- The call is rejected or does not set the clock back. -/
def Forward (M : ManualRuntime σ) (r : DerivedRuntime σ) (call : TriggerCall) : Prop :=
  ∀ ran r', call.perform M r = .ok ran r' → M.now r.base ≤ M.now r'.base

/-- The clock stands where it was triggered last. -/
def Driven (M : ManualRuntime σ) (r : DerivedRuntime σ) : Prop := M.now r.base = r.mLastTrigger

variable {utcStartTime : Duration} {initTime : TimePoint}

theorem driven_driven (hM : M.Lawful) (tp : ItsTime) : (r.driven M tp).Driven M :=
  hM.now_trigger tp r.base

theorem forward_iff (hM : M.Lawful) (h : r.StartedAt utcStartTime initTime) (call : TriggerCall) :
    Forward M r call ↔ (r.mLastTrigger ≤ call.target utcStartTime initTime →
      M.now r.base ≤ call.target utcStartTime initTime) := by
  rw [Forward, h.perform_eq]
  constructor
  · intro hforward hle
    have := hforward _ _ (trigger_of_le hle)
    rwa [driven, hM.now_trigger] at this
  · intro hle ran r' hok
    rcases le_or_gt r.mLastTrigger (call.target utcStartTime initTime) with hlast | hlast
    · rw [trigger_of_le hlast] at hok
      cases hok
      rw [driven, hM.now_trigger]
      exact hle hlast
    · rw [trigger_of_lt hlast] at hok
      cases hok

theorem Driven.perform (hM : M.Lawful) (h : r.StartedAt utcStartTime initTime) (hr : r.Driven M)
    (call : TriggerCall) : (call.perform M r).state.Driven M := by
  rw [h.perform_eq]
  rcases le_or_gt r.mLastTrigger (call.target utcStartTime initTime) with hle | hlt
  · rw [trigger_of_le hle]
    exact driven_driven hM _
  · rw [trigger_of_lt hlt]
    exact hr

/-- Once it has been triggered, a runtime never goes back. -/
theorem Driven.forward (hM : M.Lawful) (h : r.StartedAt utcStartTime initTime) (hr : r.Driven M)
    (calls : List TriggerCall) : ∀ e ∈ Calls.found (TriggerCall.perform M) r calls,
      Forward M e.1 e.2 := by
  have hall := (Calls.invariant (TriggerCall.perform M) calls
    (I := fun r => r.StartedAt utcStartTime initTime ∧ r.Driven M) ⟨h, hr⟩
    fun call _ r hr => ⟨hr.1.perform call, hr.2.perform hM hr.1 call⟩).1
  intro e he
  obtain ⟨hstart, hdriven⟩ := hall e he
  exact (forward_iff hM hstart e.2).2 fun hle => hdriven.trans_le hle

/-- The accepted calls of a new runtime all go forward exactly if the first call that goes to a point
not before the epoch of vanetza's clock goes to a point not before the start of the runtime. -/
theorem forward_iff_firstTarget (hM : M.Lawful) (utcStartTime : Duration) (initTime : TimePoint)
    (calls : List TriggerCall) :
    (∀ e ∈ Calls.found (TriggerCall.perform M) (makeRuntime M utcStartTime initTime) calls,
        Forward M e.1 e.2) ↔
      ∀ call, calls.find? (fun call => 0 ≤ call.target utcStartTime initTime) = some call →
        Runtime.convert utcStartTime initTime ≤ call.target utcStartTime initTime := by
  have hstart := startedAt_makeRuntime hM utcStartTime initTime
  have hnow : M.now (makeRuntime M utcStartTime initTime).base =
      Runtime.convert utcStartTime initTime := hM.now_construct _
  have hlast : (makeRuntime M utcStartTime initTime).mLastTrigger = 0 := rfl
  generalize makeRuntime M utcStartTime initTime = r at hstart hnow hlast
  induction calls with
  | nil => exact iff_of_true (List.forall_mem_nil _) fun _ h => by cases h
  | cons call calls ih =>
    rw [Calls.found, List.forall_mem_cons, forward_iff hM hstart, hlast, hnow]
    rcases le_or_gt 0 (call.target utcStartTime initTime) with hle | hlt
    · have hdec : decide (0 ≤ call.target utcStartTime initTime) = true := decide_eq_true hle
      have hok := trigger_of_le (M := M) (hlast.trans_le hle)
      have hrest := Driven.forward hM (hstart.perform (M := M) call)
        (by rw [hstart.perform_eq, hok]; exact driven_driven hM _) calls
      rw [List.find?_cons, hdec]
      constructor
      · rintro ⟨hfirst, -⟩ c hc
        cases hc
        exact hfirst hle
      · intro hfirst
        exact ⟨fun _ => hfirst call rfl, hrest⟩
    · have hdec : decide (0 ≤ call.target utcStartTime initTime) = false :=
        decide_eq_false (not_le.2 hlt)
      have hrejected := trigger_of_lt (M := M) (hlt.trans_eq hlast.symm)
      rw [List.find?_cons, hdec, hstart.perform_eq, hrejected]
      constructor
      · rintro ⟨-, hrest⟩
        exact ih.1 hrest
      · intro hfirst
        exact ⟨fun hle => absurd hle (not_le.2 hlt), ih.2 hfirst⟩

/-- Triggered from its start on, a runtime goes forward. -/
theorem forward_iff_firstTarget_fromStart :
    let calls : List TriggerCall := [.its (-5), .sim (SimClock.atMillisecond 100),
      .sim (SimClock.atMillisecond 50), .sim (SimClock.atMillisecond 102)]
    let r := makeRuntime ManualRuntime.plain (1600000000 * 1000000000) (SimClock.atMillisecond 100)
    ∀ e ∈ Calls.found (TriggerCall.perform ManualRuntime.plain) r calls,
      Forward ManualRuntime.plain e.1 e.2 := by
  apply (forward_iff_firstTarget ManualRuntime.plain_lawful _ _ _).2
  intro call hcall
  have hfirst : call = .sim (SimClock.atMillisecond 100) := (Option.some.inj hcall).symm
  subst hfirst
  decide

/-- A runtime that starts 100 ms into the simulation accepts a first trigger at 50 ms. -/
theorem not_forward_beforeStart :
    ¬ ∀ (σ : Type) (M : ManualRuntime σ), M.Lawful → ∀ utcStartTime initTime calls,
      ∀ e ∈ Calls.found (TriggerCall.perform M) (makeRuntime M utcStartTime initTime) calls,
        Forward M e.1 e.2 := by
  intro h
  have hback := h _ _ ManualRuntime.plain_lawful (1600000000 * 1000000000)
    (SimClock.atMillisecond 100) [.sim (SimClock.atMillisecond 50)]
  have hstart := startedAt_makeRuntime ManualRuntime.plain_lawful (1600000000 * 1000000000)
    (SimClock.atMillisecond 100)
  have := (forward_iff ManualRuntime.plain_lawful hstart _).1 (hback _ (List.mem_cons_self ..))
  revert this
  decide

/-! ## Between the clocks -/

/-- A number of whole microseconds from `its` on is reached within `y` nanoseconds exactly if it is
reached in the nanoseconds from `sim` on. -/
theorem reached_iff (d its sim tp : Int) (htp : sim ≤ tp) :
    (d ≤ its + (tp - sim).tdiv 1000 ↔ sim + (d - its) * 1000 ≤ tp) ∧
      (sim + (d - its) * 1000 = tp → its + (tp - sim).tdiv 1000 = d) := by
  rw [Int.tdiv_eq_ediv_of_nonneg (Int.sub_nonneg_of_le htp)]
  omega

/-- Cutting off the fractions of the start and of the time since then separately. -/
theorem rounding {start utcItsDiff sim tp : Int} (htp : sim ≤ tp)
    (hepoch : utcItsDiff ≤ start + sim) :
    let now := (start + sim - utcItsDiff).tdiv 1000 + (tp - sim).tdiv 1000
    now ≤ (start + tp - utcItsDiff).tdiv 1000 ∧
      (start + tp - utcItsDiff).tdiv 1000 ≤ now + 1 ∧
      (1000 ∣ tp - sim → now = (start + tp - utcItsDiff).tdiv 1000) := by
  rw [Int.tdiv_eq_ediv_of_nonneg (by omega : 0 ≤ start + sim - utcItsDiff),
    Int.tdiv_eq_ediv_of_nonneg (by omega : 0 ≤ tp - sim),
    Int.tdiv_eq_ediv_of_nonneg (by omega : 0 ≤ start + tp - utcItsDiff)]
  omega

/-- If no call goes beyond `bound`, the last trigger is not later. -/
theorem mLastTrigger_le (hM : M.Lawful) {bound : ItsTime} (hbound : 0 ≤ bound)
    {calls : List TriggerCall} (hcalls : ∀ call ∈ calls, call.target utcStartTime initTime ≤ bound) :
    (Calls.after (TriggerCall.perform M) (makeRuntime M utcStartTime initTime) calls).mLastTrigger ≤
      bound := by
  have hall := (Calls.invariant (TriggerCall.perform M) calls
    (I := fun r => r.StartedAt utcStartTime initTime ∧ r.mLastTrigger ≤ bound)
    ⟨startedAt_makeRuntime hM utcStartTime initTime, hbound⟩ fun call hcall r hr => ?_).2
  · exact hall.2
  · refine ⟨hr.1.perform call, ?_⟩
    rw [hr.1.perform_eq]
    rcases le_or_gt r.mLastTrigger (call.target utcStartTime initTime) with hle | hlt
    · rw [trigger_of_le hle]
      exact hcalls call hcall
    · rw [trigger_of_lt hlt]
      exact hr.2

/-- After any triggers, and whatever vanetza has scheduled (`base`), a trigger at `tp` is accepted if
no earlier one went further. It runs the callbacks of exactly those deadlines for which the reported
start is not after `tp`, and leaves the clock at most a microsecond behind the converted time. -/
theorem triggerSim_deadline (hM : M.Lawful) (utcStartTime : Duration) (initTime tp : TimePoint)
    (hstart : initTime ≤ tp) (calls : List TriggerCall) (base : σ) :
    let r := { Calls.after (TriggerCall.perform M) (makeRuntime M utcStartTime initTime) calls with
      base }
    (Runtime.utcItsDiff ≤ utcStartTime + initTime →
      (∀ call ∈ calls, call.target utcStartTime initTime ≤
        (TriggerCall.sim tp).target utcStartTime initTime) →
      ∃ ran r', triggerSim M tp r = .ok ran r') ∧
    ∀ ran r', triggerSim M tp r = .ok ran r' →
      (∀ d ∈ M.deadlines r.base,
        (d ∈ ran ↔ Runtime.getNextStart { r.shown M with next := d } ≤ tp) ∧
        (Runtime.getNextStart { r.shown M with next := d } = tp → M.now r'.base = d)) ∧
      (Runtime.utcItsDiff ≤ utcStartTime + initTime →
        M.now r'.base ≤ Runtime.convert utcStartTime tp ∧
        Runtime.convert utcStartTime tp ≤ M.now r'.base + 1 ∧
        (1000 ∣ tp - initTime → M.now r'.base = Runtime.convert utcStartTime tp)) := by
  intro r
  have hafter := (Calls.invariant (TriggerCall.perform M) calls
    (startedAt_makeRuntime hM utcStartTime initTime) fun call _ r h => h.perform call).2
  have hr : r.StartedAt utcStartTime initTime := ⟨hafter.mSimStartTime, hafter.mItsStartTime⟩
  rw [triggerSim_apply, hr.advanceTo_eq]
  refine ⟨fun hepoch hcalls => ⟨_, _, trigger_of_le (mLastTrigger_le hM ?_ hcalls)⟩, ?_⟩
  · refine Int.add_nonneg (Int.tdiv_nonneg ?_ (by decide)) (Int.tdiv_nonneg ?_ (by decide))
    · exact Int.sub_nonneg_of_le hepoch
    · exact Int.sub_nonneg_of_le hstart
  intro ran r' hok
  rcases le_or_gt r.mLastTrigger
    (Runtime.convert utcStartTime initTime + Runtime.toMicroseconds (tp - initTime)) with hle | hlt
  · rw [trigger_of_le hle] at hok
    cases hok
    have hnow : M.now (r.driven M (Runtime.convert utcStartTime initTime +
        Runtime.toMicroseconds (tp - initTime))).base = Runtime.convert utcStartTime initTime +
          Runtime.toMicroseconds (tp - initTime) := hM.now_trigger _ _
    have hnext : ∀ d, Runtime.getNextStart { r.shown M with next := d } =
        initTime + (d - Runtime.convert utcStartTime initTime) * 1000 := by
      intro d
      rw [← hr.mItsStartTime, ← hr.mSimStartTime]
      rfl
    rw [hnow]
    refine ⟨fun d hd => ?_, fun hepoch => rounding hstart hepoch⟩
    rw [hM.runs _ _ d hd, hnext]
    exact reached_iff d _ initTime tp hstart
  · rw [trigger_of_lt hlt] at hok
    cases hok

/-- The second deadline of the runtime's test is reached at the start reported for it, and not a
microsecond before. -/
theorem triggerSim_deadline_test :
    let base : ItsTime × List ItsTime := (527084800223456, [527084803922312])
    let r := { makeRuntime ManualRuntime.plain 1600000000123456789 (SimClock.atMillisecond 100) with
      base }
    ∀ tp, SimClock.atMillisecond 100 ≤ tp → ∀ ran r',
      triggerSim ManualRuntime.plain tp r = .ok ran r' →
        (527084803922312 ∈ ran ↔ 3798856000 ≤ tp) := by
  intro base r tp htp ran r' hok
  have hnext : Runtime.getNextStart { r.shown ManualRuntime.plain with next := 527084803922312 } =
      3798856000 := by decide
  have hall := (triggerSim_deadline ManualRuntime.plain_lawful 1600000000123456789
    (SimClock.atMillisecond 100) tp htp [] base).2 ran r' hok
  have hreached := (hall.1 527084803922312 (List.mem_cons_self ..)).1
  exact hnext ▸ hreached

end DerivedRuntime

/-! ## The triggers of a router -/

namespace Router

theorem setRuntime {router : Router} {t : Runtime} (ht : router.mRuntime = some t)
    (f : Runtime → Runtime) :
    onRuntime (modify f) router = .ok ⟨⟩ { router with mRuntime := some (f t) } :=
  onRuntime_of_ok ht (modify_apply f t)

/-- A call that requests nothing and returns. -/
theorem call_quiet {router : Router} {t : Runtime} (ht : router.mRuntime = some t)
    (next : ItsTime) :
    call { next } router = .ok ⟨⟩ { router with mRuntime := some { t with next } } := by
  simp only [call, List.forM, bind_apply, pure_apply, setRuntime ht]

/-- A router whose runtime is the shown part of `r` triggers it as `r` is triggered. -/
theorem trigger_shown {router : Router} {r : DerivedRuntime σ}
    (hM : M.Lawful) (hr : router.mRuntime = some (r.shown M)) {tp : ItsTime}
    (hnext : tp < M.next (M.trigger tp r.base).1) :
    Router.trigger tp { next := M.next (M.trigger tp r.base).1 } router =
      match DerivedRuntime.trigger M tp r with
      | .ok _ r' => .ok () { router with mRuntime := some (r'.shown M) }
      | .error failure _ => .error failure router := by
  have hdue : max (M.next (M.trigger tp r.base).1) (tp + 1) = M.next (M.trigger tp r.base).1 :=
    max_eq_left (Int.add_one_le_of_lt hnext)
  simp only [trigger]
  rw [bind_apply, getRuntime_apply hr]
  rcases le_or_gt r.mLastTrigger tp with hle | hlt
  · have hdec : decide (tp ≥ (r.shown M).mLastTrigger) = true := decide_eq_true hle
    rw [DerivedRuntime.trigger_of_le hle]
    simp only [hdec, enforce_true, bind_apply, pure_apply, setRuntime hr, hdue]
    rw [call_quiet rfl]
    simp only [DerivedRuntime.shown, DerivedRuntime.driven, hM.now_trigger]
    rfl
  · have hdec : decide (tp ≥ (r.shown M).mLastTrigger) = false := decide_eq_false (not_le.2 hlt)
    rw [DerivedRuntime.trigger_of_lt hlt]
    simp only [hdec, bind_apply, enforce, throw_apply, Bool.false_eq_true, if_false]

end Router

end Cosidia
