import Cosidia.Core.Action
import Mathlib.Algebra.Group.Int.Defs

/-!
# The runtime of a router

`Runtime` maps the simulated time to the clock of vanetza's `ManualRuntime`, of which it shows only
the current time and the earliest deadline. vanetza itself is not part of the repository: what a call
into it does is an input, a `Reply`.
-/

namespace Cosidia

open EStateM

/-- `vanetza::Clock::time_point`: microseconds. -/
abbrev ItsTime := Int

/-- What a call into vanetza does, as far as the caller can see. -/
structure Reply where
  /-- The transmissions it requests from the access interface. -/
  requests : List DataPtr := []
  /-- The earliest deadline it leaves in the runtime. -/
  next : ItsTime
  /-- What it throws in the end. -/
  failure : Option Failure := none

structure Runtime where
  mSimStartTime : TimePoint
  mItsStartTime : ItsTime
  mLastTrigger : ItsTime := 0
  /-- `now()` of the `ManualRuntime`. -/
  now : ItsTime
  /-- `next()` of the `ManualRuntime`. -/
  next : ItsTime

namespace Runtime

/-- `duration_cast` to the microseconds of vanetza's clock. -/
def toMicroseconds (d : Duration) : Int := d.tdiv 1000

def ofMicroseconds (n : Int) : Duration := n * 1000

def utcItsDiff : Duration := 1072915200 * 1000000000

/-- `convert(sim)` in a simulation whose start is `utcStartTime`. -/
def convert (utcStartTime : Duration) (sim : TimePoint) : ItsTime :=
  toMicroseconds (utcStartTime + sim - utcItsDiff)

/-- `next()` when no deadline is left: `time_point::max()`. In nanoseconds it is beyond 64 bits:
`getNextStart` and `getDurationNowToNext` overflow, usually to negative values, with which a task throws
and `initRouter` does not come out of its loop. -/
def noDeadline : ItsTime := 2 ^ 63 - 1

def makeRuntime (utcStartTime : Duration) (initTime : TimePoint) : Runtime where
  mSimStartTime := initTime
  mItsStartTime := convert utcStartTime initTime
  now := convert utcStartTime initTime
  next := noDeadline

/-- What `getNextStart` computes unless it overflows. -/
def getNextStart (r : Runtime) : TimePoint :=
  r.mSimStartTime + ofMicroseconds (r.next - r.mItsStartTime)

/-- What `getDurationNowToNext` computes unless it overflows. -/
def getDurationNowToNext (r : Runtime) : Duration := ofMicroseconds (r.next - r.now)

/-- The 64 bits of a duration hold this count. -/
def Fits (n : Int) : Prop := -2 ^ 63 ≤ n ∧ n < 2 ^ 63

instance (n : Int) : Decidable (Fits n) := inferInstanceAs (Decidable (_ ∧ _))

/-- No step of `getNextStart` overflows. -/
def NextStartFits (r : Runtime) : Prop :=
  Fits (r.next - r.mItsStartTime) ∧ Fits (ofMicroseconds (r.next - r.mItsStartTime)) ∧
    Fits r.getNextStart

instance (r : Runtime) : Decidable r.NextStartFits := inferInstanceAs (Decidable (_ ∧ _ ∧ _))

/-- No step of `getDurationNowToNext` overflows. -/
def NowToNextFits (r : Runtime) : Prop := Fits (r.next - r.now) ∧ Fits r.getDurationNowToNext

instance (r : Runtime) : Decidable r.NowToNextFits := inferInstanceAs (Decidable (_ ∧ _))

/-- A call of `getNextStart`. -/
def callNextStart : EStateM Failure Runtime TimePoint := do
  let r ← get
  if r.NextStartFits then return r.getNextStart else throw .overflow

/-- A call of `getDurationNowToNext`. -/
def callNowToNext : EStateM Failure Runtime Duration := do
  let r ← get
  if r.NowToNextFits then return r.getDurationNowToNext else throw .overflow

/-- The point of vanetza's clock that `trigger(tp)` advances to. -/
def advanceTo (r : Runtime) (tp : TimePoint) : ItsTime :=
  r.mItsStartTime + toMicroseconds (tp - r.mSimStartTime)

end Runtime

end Cosidia
