import Cosidia.Networking.Runtime

/-!
# Triggering a runtime

`Runtime` derives from `vanetza::ManualRuntime`. Here the base class is a parameter with all that
`Runtime` uses of it; `ManualRuntime.Lawful` says what is relied on.
-/

namespace Cosidia

open EStateM

/-- What `Runtime` uses of its base class; `σ` is the state of a `ManualRuntime`. No callback throws out
of `trigger` here; `Router.trigger` models that. -/
structure ManualRuntime (σ : Type) where
  construct : ItsTime → σ
  now : σ → ItsTime
  next : σ → ItsTime
  /-- The deadlines that callbacks wait for. -/
  deadlines : σ → List ItsTime
  /-- `trigger(tp)`, and the deadlines of the callbacks that it runs. -/
  trigger : ItsTime → σ → σ × List ItsTime

/-- The documented behaviour of a `ManualRuntime`. -/
structure ManualRuntime.Lawful {σ : Type} (M : ManualRuntime σ) : Prop where
  now_construct : ∀ t, M.now (M.construct t) = t
  now_trigger : ∀ t m, M.now (M.trigger t m).1 = t
  /-- Of the waiting callbacks those are run whose deadline is not after the new time. -/
  runs : ∀ t m, ∀ d ∈ M.deadlines m, d ∈ (M.trigger t m).2 ↔ d ≤ t

/-- A `ManualRuntime` whose callbacks schedule no others: the current time and the deadlines. -/
def ManualRuntime.plain : ManualRuntime (ItsTime × List ItsTime) where
  construct t := (t, [])
  now m := m.1
  next m := m.2.foldr min Runtime.noDeadline
  deadlines m := m.2
  trigger t m := ((t, m.2.filter (t < ·)), m.2.filter (· ≤ t))

theorem ManualRuntime.plain_lawful : plain.Lawful where
  now_construct _ := rfl
  now_trigger _ _ := rfl
  runs t m d hd := by
    rw [plain, List.mem_filter, decide_eq_true_eq]
    exact and_iff_right hd

/-- A `Runtime` with the whole of its base class. -/
structure DerivedRuntime (σ : Type) where
  base : σ
  mSimStartTime : TimePoint
  mItsStartTime : ItsTime
  mLastTrigger : ItsTime := 0

namespace DerivedRuntime

variable {σ : Type} (M : ManualRuntime σ)

/-- What the rest of the router sees of it. -/
def shown (r : DerivedRuntime σ) : Runtime where
  mSimStartTime := r.mSimStartTime
  mItsStartTime := r.mItsStartTime
  mLastTrigger := r.mLastTrigger
  now := M.now r.base
  next := M.next r.base

def makeRuntime (utcStartTime : Duration) (initTime : TimePoint) : DerivedRuntime σ :=
  let base := M.construct (Runtime.convert utcStartTime initTime)
  { base, mSimStartTime := initTime, mItsStartTime := M.now base }

/-- `trigger` at a point of vanetza's clock; returned are the deadlines of the callbacks it runs, of
which none throws. -/
def trigger (tp : ItsTime) : EStateM Failure (DerivedRuntime σ) (List ItsTime) := do
  enforce (tp ≥ (← get).mLastTrigger) "trigger can only advance forward in time"
  let (base, ran) := M.trigger tp (← get).base
  modify fun r => { r with base }
  modify fun r => { r with mLastTrigger := tp }
  return ran

/-- `trigger` at a point of the simulated time. -/
def triggerSim (tp : TimePoint) : EStateM Failure (DerivedRuntime σ) (List ItsTime) := do
  let advanceTo := ((← get).shown M).advanceTo tp
  enforce (advanceTo ≥ (← get).mLastTrigger) "trigger can only advance forward in time"
  trigger M advanceTo

end DerivedRuntime

/-- The calls of the two overloads of `trigger`. -/
inductive TriggerCall where
  | its (tp : ItsTime)
  | sim (tp : TimePoint)

namespace TriggerCall

variable {σ : Type} (M : ManualRuntime σ)

def perform : TriggerCall → EStateM Failure (DerivedRuntime σ) (List ItsTime)
  | .its tp => DerivedRuntime.trigger M tp
  | .sim tp => DerivedRuntime.triggerSim M tp

/-- Where a call moves the clock of a runtime that has started at `initTime`. -/
def target (utcStartTime : Duration) (initTime : TimePoint) : TriggerCall → ItsTime
  | .its tp => tp
  | .sim tp =>
    Runtime.convert utcStartTime initTime + Runtime.toMicroseconds (tp - initTime)

end TriggerCall

end Cosidia
