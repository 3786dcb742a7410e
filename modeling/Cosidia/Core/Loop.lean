import Cosidia.Objects.Execution
import Cosidia.Theory.Reachable

/-!
# The simulation loop

`Machine` is the core thread together with where it is in `runSimulationLoop` and
`executeActionOnFinishedTimer`. `Machine.step` runs it from one of these places to the next,
`Moment` in small steps and with handlers that may do anything.
-/

namespace Cosidia

open EStateM

variable {ω : Type}

/-- Where the core thread is. -/
inductive Control where
  /-- In `setup` and the code it calls. -/
  | setup
  /-- Before a call of `runSimulationLoop`. -/
  | runSimulationLoop
  /-- Until the timer fires. -/
  | waiting
  /-- Between two handlers of `executeActionOnFinishedTimer`. -/
  | executing
  /-- In the code of the handler taken up last. -/
  | running
  /-- After `finishSimulation`. -/
  | finished
  /-- An exception has left the loop. -/
  | aborted (failure : Failure)
  deriving DecidableEq, Repr

/-- The code of objects may be running. -/
def Control.InCode (c : Control) : Prop := c = .setup ∨ c = .running

structure Machine (ω : Type) where
  core : Core ω
  /-- The handlers that `executeActionOnFinishedTimer` still has to go through. -/
  batch : List Scheduling := []
  control : Control := .setup
  /-- The real time the timer was last set to. -/
  mTimer : Duration := 0

/-- The machine before `setup`. -/
def Machine.new (world : ω) : Machine ω where
  core := .new world

namespace Core

/-- `runSimulationLoop()` up to its end, which is that of the simulation or leaves the timer set. -/
def runSimulationLoop : CoreM ω Control := do
  let s ← get
  enforce (ActionList.getNextTimePoint s.mActions ≥ s.mCurrentActionTime)
    "Core: wrong order of actions"
  let time := ActionList.getNextTimePoint s.mActions
  modify fun s => { s with mCurrentActionTime := time }
  if (← get).mCurrentActionTime == SimClock.invalid then
    return .finished
  else
    return .waiting

def popNextHandlers : CoreM ω (List Scheduling) :=
  zoom (·.mActions) (fun m s => { s with mActions := m }) ActionList.popNextHandlers

/-- The check of `executeActionOnFinishedTimer` on the handlers it has fetched. -/
def checkHandlers (handlers : List Scheduling) : CoreM ω Control := do
  match handlers.head? with
  | none => throw .nullDereference
  | some h =>
    let a ← getAction h.handler.mCorrespondingAction
    enforce ((← get).mCurrentActionTime == ActionHandler.getTime h.handler.kind a)
      "Core: currentAction time corresponds not to fetched action time"
    return .executing

/-- Note that a handler has been taken up. -/
def takeUp (h : Scheduling) (s : Core ω) : Core ω :=
  { s with history := { s.history with taken := s.history.taken ++ [h] } }

/-- One turn of the loop over the fetched handlers, `h` having been taken up. -/
def dispatch (V : Virtuals ω) (compareIds : Bool) (h : Scheduling) : CoreM ω Unit := do
  let action ← getAction h.handler.mCorrespondingAction
  enforce (action.mActionId != 0) "Core: tried to execute Action without Id"
  let affected := action.mAffectedObject
  enforce affected.valid "Core: tried to execute object with invalid id"
  match ← ofExcept ((← get).mObjectList.getObjectByIdFromCurrentContainer affected) with
  | some obj => BaseObject.invoke V compareIds h.handler obj
  | none => return

end Core

namespace Machine

/-- Run `x`, which tells where the core thread goes on. -/
def resume (m : Machine ω) (x : CoreM ω Control) : Machine ω :=
  match x m.core with
  | .ok c s => { m with core := s, control := c }
  | .error f s => { m with core := s, control := .aborted f }

/-- `runSimulationLoop()`, the clock answering `delay` if the timer is set. -/
def loop (m : Machine ω) (delay : Duration) : Machine ω :=
  { m.resume Core.runSimulationLoop with mTimer := delay }

/-- Fetch the next handlers and check them. -/
def fetch (m : Machine ω) : Machine ω :=
  match Core.popNextHandlers m.core with
  | .ok handlers s => { m with core := s, batch := handlers }.resume (Core.checkHandlers handlers)
  | .error f s => { m with core := s, control := .aborted f }

/-- Run the core thread from one place of the loop to the next. -/
def step (V : Virtuals ω) (compareIds : Bool) (setup : CoreM ω Unit) (delay : Duration)
    (m : Machine ω) : Machine ω :=
  match m.control with
  | .setup => m.resume do setup; return .runSimulationLoop
  | .runSimulationLoop => m.loop delay
  | .waiting => m.fetch
  | .executing =>
    match m.batch with
    | [] => { m with control := .runSimulationLoop }
    | h :: rest =>
      { m with core := m.core.takeUp h, batch := rest }.resume do
        Core.dispatch V compareIds h
        return .executing
  | .running | .finished | .aborted _ => m

/-- Steps on end, with what the clock answers at each. -/
def run (V : Virtuals ω) (compareIds : Bool) (setup : CoreM ω Unit) (delays : List Duration)
    (m : Machine ω) : Machine ω :=
  delays.foldl (fun m delay => m.step V compareIds setup delay) m

end Machine

/-- `s` and `s'` agree on everything that has to do with the order of handlers. -/
structure SameSchedule (s s' : Core ω) : Prop where
  mActions : s'.mActions = s.mActions
  mCurrentActionTime : s'.mCurrentActionTime = s.mCurrentActionTime
  mCurrentActionId : s'.mCurrentActionId = s.mCurrentActionId
  accepted : s'.history.accepted = s.history.accepted
  taken : s'.history.taken = s.history.taken
  ids : s'.history.ids = s.history.ids

/-- The small steps of the core thread. Between being taken up and returning, a handler may call
`scheduleAction` on any handler, do whatever else it likes, and throw at any moment. -/
inductive Moment : Machine ω → Machine ω → Prop
  | loop (m : Machine ω) (delay : Duration) : m.control = .runSimulationLoop →
    Moment m (m.loop delay)
  | timer (m : Machine ω) : m.control = .waiting → Moment m m.fetch
  | takeUp (m : Machine ω) (h : Scheduling) (rest : List Scheduling) :
    m.control = .executing → m.batch = h :: rest →
    Moment m { m with core := m.core.takeUp h, batch := rest, control := .running }
  | batchDone (m : Machine ω) : m.control = .executing → m.batch = [] →
    Moment m { m with control := .runSimulationLoop }
  | scheduleAction (m : Machine ω) (handler : ActionHandler) : m.control.InCode →
    Moment m { m with core := (Core.scheduleAction handler m.core).state }
  | other (m : Machine ω) (s : Core ω) : m.control.InCode → SameSchedule m.core s →
    Moment m { m with core := s }
  | setupDone (m : Machine ω) : m.control = .setup →
    Moment m { m with control := .runSimulationLoop }
  | handlerDone (m : Machine ω) : m.control = .running → Moment m { m with control := .executing }
  | throw (m : Machine ω) (failure : Failure) : m.control.InCode →
    Moment m { m with control := .aborted failure }

end Cosidia
