import Cosidia.Core.Basic

/-!
# Recording timings in a database

Any thread may record a timing; a consumer thread moves the recorded ones into the table `timing`,
until the destructor tells it to stop. The threads take turns: a `Move` is a section under
`mQueueMutex`, a test or store of `mConsumerRunning`, a notification or a database transaction. In
`wait` the consumer tests its predicate and falls asleep in two moves, and holds the mutex until it
sleeps.
-/

namespace Cosidia

/-- What a `RecordTask` binds to the statement. -/
structure Timing where
  name : String
  start : TimePoint
  duration : Duration
  deriving DecidableEq, Repr

/-- A row of the table `timing`. -/
structure TimingRow where
  id : Nat
  timing : Timing
  deriving DecidableEq, Repr

/-- A `std::vector<RecordTask>`. -/
structure RecordQueue where
  tasks : List Timing := []
  /-- `reserve(1024)` -/
  capacity : Nat := 1024
  deriving DecidableEq, Repr

/-- Where the consumer thread is in `runConsumer`. -/
inductive Consumer where
  /-- At the head of the loop. -/
  | test
  /-- Before it locks `mQueueMutex`. -/
  | lock
  /-- In `wait`, with the mutex, before it evaluates the predicate. -/
  | check
  /-- The predicate was false; it still has the mutex. -/
  | fallAsleep
  | asleep
  /-- Woken up, before it has the mutex again. -/
  | awake
  /-- The predicate was true; it has the mutex. -/
  | swap
  /-- Before the transaction. -/
  | insert
  | exited
  deriving DecidableEq, Repr

namespace Consumer

def holdsMutex : Consumer → Bool
  | .check | .fallAsleep | .swap => true
  | _ => false

/-- A notification wakes the consumer only if it is asleep. -/
def notified : Consumer → Consumer
  | .asleep => .awake
  | c => c

end Consumer

/-- A call of `recordTiming` that has not returned. -/
inductive Recorder where
  /-- Before its section under the mutex. -/
  | lock (task : Timing)
  /-- Before `notify_one`. -/
  | notify
  deriving DecidableEq, Repr

/-- How far `~SqliteBackend` has come. -/
inductive Destructor where
  | before
  /-- `mConsumerRunning` is false. -/
  | stored
  /-- `notify_all` has been called; it waits in `join`. -/
  | joining
  | returned
  deriving DecidableEq, Repr

/-- A backend right after its construction, unless stated otherwise. -/
structure SqliteBackend where
  mConsumerRunning : Bool := true
  /-- The table in `mDatabase`. -/
  timing : List TimingRow := []
  mQueue : RecordQueue := {}
  /-- The local `queue` of `runConsumer`. -/
  queue : RecordQueue := {}
  consumer : Consumer := .test
  recorders : List Recorder := []
  destructor : Destructor := .before
  deriving DecidableEq, Repr

namespace SqliteBackend

inductive Move where
  /-- Some thread calls `recordTiming`. -/
  | recordTiming (task : Timing)
  /-- The section under the mutex of the call with this number. -/
  | enqueue (i : Nat)
  /-- `notify_one` of the call with this number. -/
  | notifyOne (i : Nat)
  /-- The next move of the consumer thread. -/
  | consume
  /-- The sleeping consumer wakes up without a notification. -/
  | wakeUp
  /-- The next move of the destructor. -/
  | destroy
  deriving DecidableEq, Repr

/-- `emplace_back`; `grow` is the capacity that replaces an exhausted one. -/
def emplaceBack (grow : Nat → Nat) (q : RecordQueue) (task : Timing) : RecordQueue where
  tasks := q.tasks ++ [task]
  capacity := if q.tasks.length < q.capacity then q.capacity else grow q.capacity

/-- `INSERT INTO timing VALUES (NULL, ...)`: the row gets the next id. -/
def insertRow (rows : List TimingRow) (task : Timing) : List TimingRow :=
  rows ++ [⟨rows.length + 1, task⟩]

/-- The next move of the consumer thread, if it can make one. -/
def consume (s : SqliteBackend) : Option SqliteBackend :=
  match s.consumer with
  | .test => some { s with consumer := if s.mConsumerRunning then .lock else .exited }
  | .lock => some { s with consumer := .check }
  | .check =>
    let ready := s.mQueue.tasks.length > 0 || !s.mConsumerRunning
    some { s with consumer := if ready then .swap else .fallAsleep }
  | .fallAsleep => some { s with consumer := .asleep }
  | .asleep => none
  | .awake => some { s with consumer := .check }
  | .swap => some { s with queue := s.mQueue, mQueue := s.queue, consumer := .insert }
  | .insert =>
    some { s with
      timing := s.queue.tasks.foldl insertRow s.timing
      queue := { s.queue with tasks := [] }
      consumer := .test }
  | .exited => none

/-- The next move of the destructor, if it can make one. -/
def destroy (s : SqliteBackend) : Option SqliteBackend :=
  match s.destructor with
  | .before => some { s with mConsumerRunning := false, destructor := .stored }
  | .stored => some { s with consumer := s.consumer.notified, destructor := .joining }
  | .joining => if s.consumer = .exited then some { s with destructor := .returned } else none
  | .returned => none

/-- The state after a move, if the move can be made. -/
def step (grow : Nat → Nat) (s : SqliteBackend) : Move → Option SqliteBackend
  | .recordTiming task => some { s with recorders := s.recorders ++ [.lock task] }
  | .enqueue i =>
    match s.recorders[i]? with
    | some (.lock task) =>
      if s.consumer.holdsMutex then none
      else
        let mQueue := emplaceBack grow s.mQueue task
        let flush := mQueue.tasks.length > mQueue.capacity / 2
        let recorders := if flush then s.recorders.set i .notify else s.recorders.eraseIdx i
        some { s with mQueue, recorders }
    | _ => none
  | .notifyOne i =>
    match s.recorders[i]? with
    | some .notify =>
      some { s with consumer := s.consumer.notified, recorders := s.recorders.eraseIdx i }
    | _ => none
  | .consume => s.consume
  | .wakeUp => if s.consumer = .asleep then some { s with consumer := .awake } else none
  | .destroy => s.destroy

/-- All calls of `recordTiming` return before the destruction starts. -/
def Orderly (s : SqliteBackend) : Move → Prop
  | .recordTiming _ => s.destructor = .before
  | .destroy => s.recorders = []
  | _ => True

instance (s : SqliteBackend) (m : Move) : Decidable (Orderly s m) :=
  match m with
  | .recordTiming _ => inferInstanceAs (Decidable (_ = _))
  | .destroy => inferInstanceAs (Decidable (_ = _))
  | .enqueue _ | .notifyOne _ | .consume | .wakeUp => inferInstanceAs (Decidable True)

/-- `step`, for the orderly moves only. -/
def orderlyStep (grow : Nat → Nat) (s : SqliteBackend) (m : Move) : Option SqliteBackend :=
  if s.Orderly m then s.step grow m else none

end SqliteBackend

end Cosidia
