import Cosidia.Core.Core
import Cosidia.Objects.ActionData

/-!
# The radio

A transmission is put into the context of the radio when its first action ends, and taken out when
its last one does. Both tasks work on a copy of the context that was current when they were launched.
-/

namespace Cosidia

open EStateM Std

/-- The transmissions that are in the air, each with those who receive it. -/
abbrev RadioContext := TreeMap DataPtr (List ObjectId)

/-- What the radio keeps besides the core. -/
structure Ether (π : Type) where
  mRadioContext : RadioContext := ∅
  /-- The data attached to actions. -/
  data : Heap (ActionData π)

variable {π : Type}

/-! ## Deciders -/

namespace MessagesForEveryonePhysicalDecider

def decideOnPhysical (t : Transmission π) : Except Failure (List ObjectId) :=
  if t.isSetup then .ok (t.mPossibleReceivers.toList.map (·.1))
  else .error (.runtimeError "MessagesForEveryonePhysicalDecider: transmission not setup!")

end MessagesForEveryonePhysicalDecider

/-- The loop of a decider that looks at the positions of the receivers. -/
def inReach {δ : Type} (reaches : Position → EStateM Failure δ Bool) :
    List (ObjectId × Receiver) → EStateM Failure δ (List ObjectId)
  | [] => return []
  | (id, receiver) :: receivers => do
    let rxPosition ← ofExcept receiver.getPosition
    let reached ← reaches rxPosition
    let list ← inReach reaches receivers
    return if reached then id :: list else list

/-- `mDistance` is in meters. -/
structure SimpleDistancePhysicalDecider where
  mDistance : Int

/-- `distance` is that of boost. -/
def SimpleDistancePhysicalDecider.decideOnPhysical (distance : Position → Position → Float)
    (t : Transmission π) : EStateM Failure SimpleDistancePhysicalDecider (List ObjectId) := do
  enforce t.isSetup "SimpleDistancePhysicalDecider: transmission is not set-up!"
  let tx ← ofExcept t.getTransmitterPosition
  inReach (fun rx => do
    let decider ← get
    return distance tx rx ≤ Float.ofInt decider.mDistance) t.mPossibleReceivers.toList

/-- `G` is the state of the random number generator. -/
structure LogDistancePhysicalDecider (G : Type) where
  mRandomGen : G
  mPathLossExponent : Float := 2.0

/-- `distance` is that of boost, and `mNormalNoise` draws from the generator. -/
def LogDistancePhysicalDecider.decideOnPhysical {G : Type} (distance : Position → Position → Float)
    (mNormalNoise : G → Float × G) (t : Transmission π) :
    EStateM Failure (LogDistancePhysicalDecider G) (List ObjectId) := do
  enforce t.isSetup "LogDistancePhysicalDecider: transmission is not set-up!"
  -- the weakest signal receivable by a radio in dBm
  let rxThreshold : Float := -98.0
  let txPosition ← ofExcept t.getTransmitterPosition
  let txPower := t.getTransmissionPower
  inReach (fun rxPosition => do
    let decider ← get
    let dist := distance txPosition rxPosition
    let (noise, mRandomGen) := mNormalNoise decider.mRandomGen
    set { decider with mRandomGen }
    let pathLoss := 10.0 * decider.mPathLossExponent * Float.log10 dist + noise
    return txPower - pathLoss > rxThreshold) t.mPossibleReceivers.toList

namespace NoInterferenceDecider

/-- `decideOnInterferences`, which dereferences the end of the map if the transmission is not there. -/
def decideOnInterferences (transmission : DataPtr) (context : RadioContext) :
    Except Failure (List ObjectId) :=
  match context[transmission]? with
  | some receivers => .ok receivers
  | none => .error .nullDereference

end NoInterferenceDecider

/-! ## The radio -/

namespace Radio

structure Result where
  actionsToSchedule : List ActionPtr := []
  contextToSwap : Option RadioContext := none

inductive Task where
  | startTransmission
  | endTransmission
  deriving DecidableEq, Repr

/-- A fiber that has been launched: its task, and the arguments that have been bound. -/
structure Launch where
  task : Task
  action : ActionPtr
  context : RadioContext

def startExecution (action : ActionPtr) : CoreM (Ether π) Launch := do
  if (← getAction action).mType = "transmissionStart" then
    return ⟨.startTransmission, action, (← get).world.mRadioContext⟩
  else if (← getAction action).mType = "transmissionEnd" then
    return ⟨.endTransmission, action, (← get).world.mRadioContext⟩
  else
    throw (.runtimeError "Radio: wrong BeginAction received")

/-- `std::static_pointer_cast<const Transmission>(action->getActionData())`. Without data it is a null
pointer, which is dereferenced by the deciders or not found by them. -/
def getTransmission (action : ActionPtr) : CoreM (Ether π) DataPtr := do
  match (← getAction action).mActionData with
  | none => throw .nullDereference
  | some transmission => return transmission

/-- What a pointer to a transmission points to. -/
def readTransmission (transmission : DataPtr) : CoreM (Ether π) (Transmission π) := do
  match (← get).world.data.cell transmission with
  | .transmission t => return t
  | _ => throw .nullDereference

/-- The type and the data of a new action are set. -/
def setUp (newAction : ActionPtr) (type : Symbol) (transmission : DataPtr) : CoreM (Ether π) Unit := do
  onAction newAction (Action.setType type)
  onAction newAction (Action.setActionData transmission)

def startTransmission (this : ObjectPtr) (action : ActionPtr) (context : RadioContext) :
    CoreM (Ether π) Result := do
  let transmission ← getTransmission action
  let recipients ← ofExcept
    (MessagesForEveryonePhysicalDecider.decideOnPhysical (← readTransmission transmission))
  let contextCopy := context.insertIfNew transmission recipients
  let a ← getAction action
  let newAction ← createSelfAction this (Duration.milliseconds 2)
    (a.mStartTime + a.mDuration + Duration.milliseconds 2)
  setUp newAction "transmissionEnd" transmission
  return { actionsToSchedule := [newAction], contextToSwap := some contextCopy }

/-- The body of the loop in `endTransmission`. -/
def indicate (this : ObjectPtr) (action : ActionPtr) (transmission : DataPtr) (receiver : ObjectId) :
    CoreM (Ether π) ActionPtr := do
  let a ← getAction action
  let newAction ← ActionFactory.create .durationAction (Duration.milliseconds 2)
    (a.mStartTime + a.mDuration + Duration.milliseconds 1) receiver (← getObject this).mObjectId
  setUp newAction "indication" transmission
  return newAction

def endTransmission (this : ObjectPtr) (action : ActionPtr) (context : RadioContext) :
    CoreM (Ether π) Result := do
  let transmission ← getTransmission action
  let receivers ← ofExcept (NoInterferenceDecider.decideOnInterferences transmission context)
  let actionsToSchedule ← receivers.mapM (indicate this action transmission)
  return { actionsToSchedule, contextToSwap := some (context.erase transmission) }

/-- The fiber runs its task. -/
def Launch.run (this : ObjectPtr) (launch : Launch) : CoreM (Ether π) Result :=
  match launch.task with
  | .startTransmission => startTransmission this launch.action launch.context
  | .endTransmission => endTransmission this launch.action launch.context

/-- `mRadioContext.swap(contextToSwap)` -/
def swapContext (contextToSwap : RadioContext) : CoreM (Ether π) Unit :=
  modify fun s => { s with world := { s.world with mRadioContext := contextToSwap } }

/-- `endExecution`, `data` being the result of the fiber. -/
def endExecution (action : ActionPtr) (data : Result) : CoreM (Ether π) Unit := do
  let type := (← getAction action).mType
  if type = "transmissionStart" ∨ type = "transmissionEnd" then
    if let some contextToSwap := data.contextToSwap then
      swapContext contextToSwap
    data.actionsToSchedule.forM Action.scheduleStartHandler
  else
    throw (.runtimeError "Radio: wrong EndAction received")

end Radio

end Cosidia
