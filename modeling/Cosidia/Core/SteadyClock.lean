import Cosidia.Core.Basic
import Mathlib.Data.Rat.Floor

/-!
# The clock of the core

A `SteadyClock` scales the real time since its start by a factor. What `std::chrono::steady_clock`
reports is the argument `now` of the methods. The factor is an exact number here, a `float` in the
code; the casts to whole nanoseconds are those of the code.
-/

namespace Cosidia

open EStateM

/-- `steady_clock::time_point` and `steady_clock::duration`: nanoseconds of real time. -/
abbrev RealTime := Int

structure SteadyClock where
  mSimSpeed : ℚ
  mStartTime : RealTime
  mSimTime : TimePoint := SimClock.zero

namespace SteadyClock

/-- `duration_cast` of a number of nanoseconds that need not be whole. -/
def toNanoseconds (d : ℚ) : Int := d.num.tdiv d.den

def updateSimTime (newTime : TimePoint) : EStateM Failure SteadyClock Unit := do
  enforce (newTime ≥ (← get).mSimTime) "clock updates can only advance forward in time"
  modify fun c => { c with mSimTime := newTime }

def getSimTimeNow (now : RealTime) (c : SteadyClock) : TimePoint :=
  let elapsedRealTime := now - c.mStartTime
  toNanoseconds (elapsedRealTime * c.mSimSpeed)

def getRealTimeForCurrentSimTime (now : RealTime) : EStateM Failure SteadyClock RealTime := do
  updateSimTime ((← get).getSimTimeNow now)
  let c ← get
  return c.mStartTime + toNanoseconds (c.mSimTime / c.mSimSpeed)

def getDurationUntil (now : RealTime) (till : TimePoint) :
    EStateM Failure SteadyClock RealTime := do
  updateSimTime ((← get).getSimTimeNow now)
  let c ← get
  return toNanoseconds ((till - c.mSimTime : Int) * c.mSimSpeed)

/-- The clock that is made at the real time `now`. -/
def new (simSpeed : ℚ) (now : RealTime) : SteadyClock where
  mSimSpeed := simSpeed
  mStartTime := now

end SteadyClock

/-- The calls of a clock, each with what `steady_clock::now()` reports. -/
inductive ClockCall where
  | getRealTimeForCurrentSimTime (now : RealTime)
  | getDurationUntil (now : RealTime) (till : TimePoint)

namespace ClockCall

def time : ClockCall → RealTime
  | .getRealTimeForCurrentSimTime now => now
  | .getDurationUntil now _ => now

def perform : ClockCall → EStateM Failure SteadyClock RealTime
  | .getRealTimeForCurrentSimTime now => SteadyClock.getRealTimeForCurrentSimTime now
  | .getDurationUntil now till => SteadyClock.getDurationUntil now till

end ClockCall

end Cosidia
