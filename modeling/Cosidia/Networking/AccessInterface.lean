import Cosidia.Networking.Router
import Cosidia.Objects.ActionData
import Cosidia.Objects.ObjectCache
import Cosidia.Objects.ObjectFactory

/-!
# The access interface of a router

Vanetza hands a packet over with `request`, and the router takes it with `getTransmission`, which
looks up who may receive it. `Cosidia.AccessInterface` is what the tasks of a router see of this;
here are the receivers and the cache through which they are found.
-/

namespace Cosidia

open EStateM Std

variable {ω : Type}

/-- `getSiblingByName` of the object with the id `id`. -/
def getSiblingByNameById (id : ObjectId) (name : String) (objects : ObjectContainer) :
    CoreM ω ObjectPtr := do
  match ← ofExcept (objects.getObject id) with
  | none => throw .nullDereference
  | some obj => getSiblingByName obj name objects

namespace Networking

/-- A query that excludes an object, and its address. -/
structure CacheQueryExclude where
  address : QueryPtr
  mExcludeId : ObjectId

structure AccessInterface (π : Type) where
  mHasRequest : Bool := false
  mCurrentTransmission : Option (Transmission π) := none
  mObjectCache : Option SimpleObjectCache := none
  mCacheQuery : Option CacheQueryExclude := none
  mRequestObjectType : String := "none"

namespace AccessInterface

variable {π : Type}

def request (packet : π) : EStateM Failure (AccessInterface π) Unit := do
  enforce (!(← get).mHasRequest) "AccessInterface: double transmission"
  modify fun a => { a with mCurrentTransmission := some { mPacket := packet }, mHasRequest := true }

/-- `initializeCache`; the new query is made at `address`. -/
def initializeCache (typeIdentifier : String) (excludeId : ObjectId) (address : QueryPtr) :
    EStateM Failure (AccessInterface π) Unit :=
  modify fun a => { a with
    mRequestObjectType := typeIdentifier
    mObjectCache := some {}
    mCacheQuery := some ⟨address, excludeId⟩ }

def dropTransmission : EStateM Failure (AccessInterface π) Unit :=
  modify fun a => { a with mHasRequest := false }

/-- Run a method of the cache. -/
def onObjectCache {α : Type} (x : EStateM Failure SimpleObjectCache α) :
    EStateM Failure (AccessInterface π) α := fun a =>
  match a.mObjectCache with
  | none => .error .nullDereference a
  | some cache => zoom (fun _ => cache) (fun c a => { a with mObjectCache := some c }) x a

/-- Run a method of the current transmission. -/
def onTransmission {α : Type} (x : EStateM Failure (Transmission π) α) :
    EStateM Failure (AccessInterface π) α := fun a =>
  match a.mCurrentTransmission with
  | none => .error .nullDereference a
  | some transmission =>
    zoom (fun _ => transmission) (fun t a => { a with mCurrentTransmission := some t }) x a

end AccessInterface

/-- Run a method of the access interface that is at work. -/
def onInterface {α π : Type} (x : EStateM Failure (AccessInterface π) α) :
    CoreM (AccessInterface π) α :=
  zoom (·.world) (fun a s => { s with world := a }) x

namespace AccessInterface

variable {π : Type}

/-- What the cache reads; the query it may be given is `query`. -/
def surroundings (containers : SharedHeap ObjectContainer) (query : CacheQueryExclude)
    (objects : Heap BaseObject) : Surroundings where
  containers := containers
  objects := objects.cell
  applyQuery _ := Cosidia.CacheQueryExclude.applyQuery query.mExcludeId

/-- The body of the loop in `getTransmission`. The container owns the vehicle object, so the weak
pointer to it is not expired. -/
def addReceiver (container : ObjectContainer) (receiver : ObjectId) :
    CoreM (AccessInterface π) Unit := do
  let mob ← getSiblingByNameById receiver "VehicleObject" container
  onInterface (onTransmission (Transmission.addPossibleReceiver receiver (some mob)))

/-- `getTransmission` for the container with the control block `container`. -/
def getTransmission (containers : SharedHeap ObjectContainer) (container : Nat) :
    CoreM (AccessInterface π) (Option (Transmission π)) := do
  let a ← onInterface get
  enforce a.mHasRequest "AccessInterface: transmission request without pending transmission"
  match a.mCacheQuery with
  | none => throw (.runtimeError "AccessInterface: ObjectCache was not initialized")
  | some query =>
    onInterface (modify fun a => { a with mHasRequest := false })
    let env := surroundings containers query (← get).objects
    let receivers ← onInterface (onObjectCache
      (SimpleObjectCache.getObjectsByType env container a.mRequestObjectType query.address))
    receivers.forM (addReceiver (containers.value container))
    let transmission := (← onInterface get).mCurrentTransmission
    onInterface (modify fun a => { a with mCurrentTransmission := none })
    return transmission

end AccessInterface

end Networking

end Cosidia
