import Mathlib.Data.UInt
import Cosidia.Core.Basic
import Cosidia.Theory.Moves

/-!
# The worker threads

`setup` starts worker threads, which only wait for the end of the simulation: fibers are what they work
on. `finishSimulation` tells them that it has come, and joins them. The threads run concurrently; a move
is what one of them does without another being able to see it half done.
-/

namespace Cosidia

/-- The `int` that `setup` makes of an unsigned number. -/
def workerThreads (hardware_concurrency : UInt32) : Int :=
  min (hardware_concurrency.toBitVec.toInt - 2) 30

/-- Where a worker is in `startThread`. -/
inductive Worker where
  /-- Before it locks `mFiberMutex`. -/
  | started
  /-- It holds the mutex and looks at `mIsFinished`. -/
  | checking
  /-- It waits for `mConditionClose`, the mutex being released. -/
  | waiting
  /-- It has been woken and is to lock the mutex again. -/
  | woken
  | returned
  deriving DecidableEq, Repr

/-- Where the core thread is. -/
inductive CoreThread where
  /-- In the loop of `setup`. -/
  | setup (x : UInt32)
  /-- Before `finishSimulation`. -/
  | simulating
  /-- It has locked `mFiberMutex`. -/
  | locked
  /-- It has set `mIsFinished`. -/
  | flagged
  /-- It has released the mutex. -/
  | unlocked
  /-- In the loop over `mThreads`. -/
  | joining (t : Nat)
  | returned
  deriving DecidableEq, Repr

/-- Who holds a mutex. -/
inductive MutexOwner where
  | core
  | worker (t : Nat)
  deriving DecidableEq, Repr

structure Threads where
  hardware_concurrency : UInt32
  core : CoreThread := .setup 1
  mThreads : List Worker := []
  mFiberMutex : Option MutexOwner := none
  mIsFinished : Bool := false
  deriving DecidableEq, Repr

namespace Threads

inductive Move where
  | core
  | worker (t : Nat)
  /-- A waiting worker is woken though nobody has notified it. -/
  | spurious (t : Nat)
  deriving DecidableEq, Repr

/-- What `notify_all` does to a worker. -/
def notify : Worker → Worker
  | .waiting => .woken
  | w => w

/-- What the core thread does next; it may have to wait for the mutex or for a worker. -/
def coreNext (s : Threads) : Option Threads :=
  match s.core with
  | .setup x =>
    -- the comparison is one of unsigned numbers
    if x ≤ UInt32.ofInt (workerThreads s.hardware_concurrency) then
      some { s with core := .setup (x + 1), mThreads := s.mThreads ++ [.started] }
    else
      some { s with core := .simulating }
  | .simulating =>
    if s.mFiberMutex = none then some { s with core := .locked, mFiberMutex := some .core } else none
  | .locked => some { s with core := .flagged, mIsFinished := true }
  | .flagged => some { s with core := .unlocked, mFiberMutex := none }
  | .unlocked => some { s with core := .joining 0, mThreads := s.mThreads.map notify }
  | .joining t =>
    match s.mThreads[t]? with
    | none => some { s with core := .returned }
    | some .returned => some { s with core := .joining (t + 1) }
    | some _ => none
  | .returned => none

/-- What a worker does next. -/
def workerNext (s : Threads) (t : Nat) : Option Threads :=
  match s.mThreads[t]? with
  | some .started | some .woken =>
    if s.mFiberMutex = none then
      some { s with mThreads := s.mThreads.set t .checking, mFiberMutex := some (.worker t) }
    else
      none
  | some .checking =>
    -- `wait` enters the queue before it releases the mutex
    some { s with
      mThreads := s.mThreads.set t (if s.mIsFinished then .returned else .waiting)
      mFiberMutex := none }
  | _ => none

def next (s : Threads) : Move → Option Threads
  | .core => s.coreNext
  | .worker t => s.workerNext t
  | .spurious t =>
    if s.mThreads[t]? = some .waiting then some { s with mThreads := s.mThreads.set t .woken } else none

/-- The threads when `setup` is about to enter its loop. -/
def setup (hardware_concurrency : UInt32) : Except Failure Threads :=
  if hardware_concurrency.toBitVec.toInt = 0 then
    .error (.runtimeError "Could not detect number of cores")
  else
    .ok (Threads.mk hardware_concurrency (.setup 1) [] none false)

/-- The threads after some moves. -/
def run (moves : List Move) (s : Threads) : Option Threads := Moves.run next moves s

end Threads

end Cosidia
