import Cosidia.Networking.ActiveActionTracker
import Cosidia.Networking.Runtime

/-!
# Routers

A router runs one task at a time in a fiber: launched by `startExecution`, it works with vanetza and
returns what is to be scheduled, and `endExecution` fetches the result. What vanetza does during a
task is the input `Replies`. The last fields of `Router` only record what has happened.
-/

namespace Cosidia

open EStateM

/-- The tasks that a router launches. -/
inductive RouterTask where
  | executeUpdate
  | transmissionReceived
  | caUpdate
  | initRouter
  deriving DecidableEq, Repr

structure RouterUpdateData where
  actionsToSchedule : List ActionPtr := []
  actionToDelete : Option ActionPtr := none
  transmission : Option DataPtr := none
  deriving DecidableEq, Repr

/-- A fiber with a packaged task and, once it has run, the result. -/
structure Fiber where
  task : RouterTask
  action : ActionPtr
  result : Option (Except Failure RouterUpdateData) := none

/-- Between a router and vanetza. -/
structure AccessInterface where
  mHasRequest : Bool := false
  mCurrentTransmission : Option DataPtr := none
  /-- The id that `mCacheQuery` excludes. -/
  mCacheQuery : Option ObjectId := none

structure Router where
  mVehicleObject : Option ObjectPtr := none
  mRadioObject : Option ObjectPtr := none
  /-- The number of the fiber that the future belongs to. -/
  mFuture : Option Nat := none
  mRuntime : Option Runtime := none
  /-- `mRouter` has been constructed. -/
  mRouter : Bool := false
  mAccessInterface : Option AccessInterface := none
  mInitDone : Bool := false
  mTracker : ActiveActionTracker := {}
  fibers : List Fiber := []
  /-- The actions for which a task has been launched. -/
  launched : List ActionPtr := []
  /-- The actions for which `mFuture.get()` has been called. -/
  fetched : List ActionPtr := []
  /-- What has been handed to `indicate`. -/
  indicated : List DataPtr := []
  /-- The deadlines that the runtime has reported to `scheduleNextUpdate`. -/
  reports : List TimePoint := []

/-- What happens in vanetza and in the opaque parts of a router during a task. -/
structure Replies where
  /-- The start of the simulation in UTC. -/
  utcStartTime : Duration := 0
  /-- The constructor of vanetza's router. -/
  construct : Reply := { next := 0 }
  /-- The trigger in `initRouter`. -/
  pending : Reply := { next := 0 }
  /-- The position fix has a course. -/
  course : Bool := false
  /-- Generating and requesting a CAM. -/
  triggerCam : Reply := { next := 0 }
  indicate : Reply := { next := 0 }
  updatePosition : Reply := { next := 0 }
  /-- The trigger in `commonActions`. -/
  trigger : Reply
  /-- Searching and adding the receivers of a transmission throws. -/
  receivers : Option Failure := none

/-- The routers of a simulation. -/
abbrev Network := ObjectPtr → Router

namespace AccessInterface

def request (transmission : DataPtr) : EStateM Failure AccessInterface Unit := do
  enforce (!(← get).mHasRequest) "AccessInterface: double transmission"
  modify fun a => { a with mCurrentTransmission := some transmission, mHasRequest := true }

def initializeCache (excludeId : ObjectId) : EStateM Failure AccessInterface Unit :=
  modify fun a => { a with mCacheQuery := some excludeId }

def dropTransmission : EStateM Failure AccessInterface Unit :=
  modify fun a => { a with mHasRequest := false }

/-- `getTransmission`; `receivers` is thrown while the receivers are searched. -/
def getTransmission (receivers : Option Failure) :
    EStateM Failure AccessInterface (Option DataPtr) := do
  enforce (← get).mHasRequest "AccessInterface: transmission request without pending transmission"
  enforce (← get).mCacheQuery.isSome "AccessInterface: ObjectCache was not initialized"
  modify fun a => { a with mHasRequest := false }
  if let some failure := receivers then throw failure
  let transmission := (← get).mCurrentTransmission
  modify fun a => { a with mCurrentTransmission := none }
  return transmission

end AccessInterface

namespace Router

/-! ## The parts of a router -/

def onTracker {α : Type} (x : EStateM Failure ActiveActionTracker α) : EStateM Failure Router α :=
  zoom (·.mTracker) (fun t r => { r with mTracker := t }) x

def onRuntime {α : Type} (x : EStateM Failure Runtime α) : EStateM Failure Router α := fun r =>
  match r.mRuntime with
  | none => .error .nullDereference r
  | some runtime => zoom (fun _ => runtime) (fun t r => { r with mRuntime := some t }) x r

def onAccessInterface {α : Type} (x : EStateM Failure AccessInterface α) :
    EStateM Failure Router α := fun r =>
  match r.mAccessInterface with
  | none => .error .nullDereference r
  | some interface => zoom (fun _ => interface) (fun t r => { r with mAccessInterface := some t }) x r

/-- A call into vanetza. -/
def call (reply : Reply) : EStateM Failure Router Unit := do
  reply.requests.forM fun transmission => onAccessInterface (AccessInterface.request transmission)
  onRuntime (modify fun t => { t with next := reply.next })
  if let some failure := reply.failure then throw failure

/-- A call of a method of `mRouter`. -/
def callRouter (reply : Reply) : EStateM Failure Router Unit := do
  if !(← get).mRouter then throw .nullDereference
  call reply

/-- A call of `mRouter.indicate` with a packet. -/
def indicate (transmission : DataPtr) (reply : Reply) : EStateM Failure Router Unit := do
  if !(← get).mRouter then throw .nullDereference
  modify fun r => { r with indicated := r.indicated ++ [transmission] }
  call reply

/-- `trigger` of the runtime. `ManualRuntime::trigger(tp)` leaves no deadline at or before `tp`. -/
def trigger (tp : ItsTime) (reply : Reply) : EStateM Failure Router Unit := do
  enforce (tp ≥ (← onRuntime get).mLastTrigger) "trigger can only advance forward in time"
  onRuntime (modify fun t => { t with now := tp })
  call { reply with next := max reply.next (tp + 1) }
  onRuntime (modify fun t => { t with mLastTrigger := tp })

/-- `trigger` of the runtime at a point of the simulated time. -/
def triggerSim (tp : TimePoint) (reply : Reply) : EStateM Failure Router Unit := do
  let t ← onRuntime get
  enforce (t.advanceTo tp ≥ t.mLastTrigger) "trigger can only advance forward in time"
  trigger (t.advanceTo tp) reply

/-- The loop of `initRouter`, up to `turns` turns of it. -/
def triggerPending (reply : Reply) : (turns : Nat) → EStateM Failure Router Unit
  | 0 => pure ()
  | turns + 1 => do
    if (← onRuntime Runtime.callNowToNext) ≤ 0 then
      trigger (← onRuntime get).next reply
      onAccessInterface AccessInterface.dropTransmission
      triggerPending reply turns

/-- Note a deadline that the runtime has reported. -/
def report (d : TimePoint) (r : Router) : Router := { r with reports := r.reports ++ [d] }

/-- Note that the result of `action` is asked for. -/
def noteFetched (action : ActionPtr) (r : Router) : Router :=
  { r with fetched := r.fetched ++ [action] }

/-- Construct an element that has not been constructed. -/
def construct (constructed : Bool) (update : Router → Router) : EStateM Failure Router Unit := do
  enforce (!constructed) "PureLocal's element is already constructed"
  modify update

/-- The elements that `initRouter` constructs. -/
def constructAll (start : TimePoint) (id : ObjectId) (replies : Replies) :
    EStateM Failure Router Unit := do
  construct (← get).mRuntime.isSome fun r =>
    { r with mRuntime := some (Runtime.makeRuntime replies.utcStartTime start) }
  construct (← get).mRouter fun r => { r with mRouter := true }
  call replies.construct
  construct (← get).mAccessInterface.isSome fun r => { r with mAccessInterface := some {} }
  onAccessInterface (AccessInterface.initializeCache id)

end Router

section
variable (this : ObjectPtr)

/-- Run a method of the router `this`. -/
def onRouter {α : Type} (x : EStateM Failure Router α) : CoreM Network α :=
  zoom (·.world this) (fun r s => { s with world := Function.update s.world this r }) x

namespace Router

/-! ## Scheduling -/

/-- `createSelfAction` for two milliseconds and `setType`. -/
def createAction (start : TimePoint) (type : Symbol) : CoreM Network ActionPtr := do
  let action ← createSelfAction this (Duration.milliseconds 2) start
  onAction action (Action.setType type)
  return action

def scheduleNextUpdate (data : RouterUpdateData) : CoreM Network RouterUpdateData := do
  let nextTp ← onRouter this (onRuntime Runtime.callNextStart)
  onRouter this (modify (report nextTp))
  if nextTp ≠ (← (← onRouter this get).mTracker.nextStart) then
    let nextAction ← createAction this nextTp "update"
    onRouter this (onTracker (ActiveActionTracker.setNext nextAction))
    return { data with actionsToSchedule := data.actionsToSchedule ++ [nextAction] }
  else
    return data

def scheduleTransmission (data : RouterUpdateData) (currentAction : ActionPtr)
    (receivers : Option Failure) : CoreM Network RouterUpdateData := do
  if (← onRouter this (onAccessInterface get)).mHasRequest then
    let transmission ← onRouter this (onAccessInterface (AccessInterface.getTransmission receivers))
    let start := (← getAction currentAction).getEndTime + Duration.milliseconds 1
    match (← onRouter this get).mRadioObject with
    | none => throw .nullDereference
    | some radio =>
      let transmissionAction ← ActionFactory.create .durationAction (Duration.milliseconds 2) start
        (← getObject radio).mObjectId (← getObject this).mObjectId
      onAction transmissionAction (Action.setType "transmissionStart")
      if let some data := transmission then onAction transmissionAction (Action.setActionData data)
      let actionsToSchedule := data.actionsToSchedule ++ [transmissionAction]
      return { data with transmission, actionsToSchedule }
  else
    return data

def commonActions (data : RouterUpdateData) (action : ActionPtr) (replies : Replies) :
    CoreM Network RouterUpdateData := do
  onRouter this (callRouter replies.updatePosition)
  onRouter this (triggerSim (← getAction action).mStartTime replies.trigger)
  let data ← scheduleTransmission this data action replies.receivers
  scheduleNextUpdate this data

/-! ## Tasks -/

def initRouter (action : ActionPtr) (replies : Replies) : CoreM Network RouterUpdateData := do
  let start := (← getAction action).mStartTime
  let id := (← getObject this).mObjectId
  onRouter this (constructAll start id replies)
  -- a second turn of the loop is never taken
  onRouter this (triggerPending replies.pending 2)
  onRouter this (modify fun r => { r with mInitDone := true })
  let caAction ← createAction this (start + Duration.milliseconds 100) "caUpdate"
  scheduleNextUpdate this { actionsToSchedule := [caAction] }

def executeUpdate (action : ActionPtr) (replies : Replies) : CoreM Network RouterUpdateData :=
  commonActions this {} action replies

def caUpdate (action : ActionPtr) (replies : Replies) : CoreM Network RouterUpdateData := do
  if (← onRouter this get).mInitDone && replies.course then
    onRouter this (callRouter replies.triggerCam)
  let start := (← getAction action).mStartTime
  let caAction ← createAction this (start + Duration.milliseconds 100) "caUpdate"
  commonActions this { actionsToSchedule := [caAction] } action replies

def transmissionReceived (action : ActionPtr) (replies : Replies) :
    CoreM Network RouterUpdateData := do
  if (← onRouter this get).mInitDone then
    match (← getAction action).mActionData with
    | none => throw .nullDereference
    | some transmission =>
      onRouter this (indicate transmission replies.indicate)
      commonActions this {} action replies
  else
    return {}

/-- What the task of a fiber does. -/
def runTask (task : RouterTask) (action : ActionPtr) (replies : Replies) :
    CoreM Network RouterUpdateData :=
  match task with
  | .executeUpdate => executeUpdate this action replies
  | .transmissionReceived => transmissionReceived this action replies
  | .caUpdate => caUpdate this action replies
  | .initRouter => initRouter this action replies

/-! ## Fibers and the future -/

/-- Keep an exception as a value, also one that an overflow leads to; anything else ends the
simulation. -/
def attempt {α : Type} (x : CoreM Network α) : CoreM Network (Except Failure α) :=
  tryCatch (do return .ok (← x)) fun failure =>
    match failure with
    | .runtimeError _ | .overflow => return .error failure
    | failure => throw failure

/-- The fiber of this number runs, if it has not done so before. -/
def runFiber (number : Nat) (replies : Replies) : CoreM Network Unit := do
  match (← onRouter this get).fibers[number]? with
  | some ⟨task, action, none⟩ =>
    let result ← attempt (runTask this task action replies)
    onRouter this (modify fun r => { r with fibers := r.fibers.set number ⟨task, action, some result⟩ })
  | _ => return

/-- Take a packaged task, keep its future and detach a fiber for it. -/
def launch (task : RouterTask) (action : ActionPtr) (needsContext : Bool) :
    CoreM Network Unit := do
  onRouter this (modify fun r => { r with mFuture := some r.fibers.length })
  if needsContext && (← onRouter this get).mVehicleObject.isNone then throw .nullDereference
  onRouter this (modify fun r =>
    { r with fibers := r.fibers ++ [⟨task, action, none⟩], launched := r.launched ++ [action] })

/-- `mFuture.get()` for `action`. The fiber that it waits for runs now, if it has not done so. -/
def getFuture (action : ActionPtr) (replies : Replies) : CoreM Network RouterUpdateData := do
  onRouter this (modify (noteFetched action))
  match (← onRouter this get).mFuture with
  | none => throw (.runtimeError "future_uninitialized")
  | some number =>
    runFiber this number replies
    onRouter this (modify fun r => { r with mFuture := none })
    match (← onRouter this get).fibers[number]? with
    | some ⟨_, _, some result⟩ => ofExcept result
    | _ => throw (.runtimeError "broken_promise")

/-! ## The virtual methods -/

def startExecution (action : ActionPtr) : CoreM Network Unit := do
  let type := (← getAction action).mType
  if type = "caUpdate" then
    launch this .caUpdate action true
  else if type = "initRouter" then
    launch this .initRouter action false
  else if (← onRouter this get).mTracker.isStart action then
    if type = "update" then
      launch this .executeUpdate action true
    else if type = "indication" then
      launch this .transmissionReceived action true
    else
      throw (.runtimeError "Router: wrong BeginAction received")
  else
    enforce (!(← onRouter this get).mTracker.isStart action) "Router: Action thing went wrong"

/-- The `try` block of `endExecution`; `setup` is thrown while the transmission is prepared. -/
def commit (action : ActionPtr) (replies : Replies) (setup : Option Failure) :
    CoreM Network Unit :=
  tryCatch
    (do
      let data ← getFuture this action replies
      data.actionsToSchedule.forM Action.scheduleStartHandler
      if data.actionToDelete.isSome then
        throw (.runtimeError "Core: removing Actions is not implemented")
      if data.transmission.isSome then
        if let some failure := setup then throw failure)
    fun failure =>
      match failure with
      -- `throw e` copies the exception as a `std::exception`
      | .runtimeError _ => throw (.runtimeError "std::exception")
      | failure => throw failure

def endExecution (action : ActionPtr) (replies : Replies) (setup : Option Failure) :
    CoreM Network Unit := do
  let type := (← getAction action).mType
  if type = "update" ∨ type = "indication" then
    if !(← onRouter this (onTracker (ActiveActionTracker.isEnd action))) then
      return
    commit this action replies setup
  else if type = "caUpdate" ∨ type = "initRouter" then
    commit this action replies setup
  else
    throw (.runtimeError "Router: wrong EndAction received")

end Router

end

end Cosidia
