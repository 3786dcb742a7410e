import Cosidia.Objects.BaseObject
import Cosidia.Theory.Heap

/-!
# The object container and the core's object list

`ObjectContainer` holds the objects that take part in the simulation. The core changes a working
copy and publishes copies of it, which are never changed again.
-/

namespace Cosidia

open EStateM Std

/-- The result of a computation that does not change its state. -/
def ofExcept {σ α : Type} (x : Except Failure α) : EStateM Failure σ α :=
  match x with
  | .ok a => pure a
  | .error e => throw e

theorem ofExcept_eq_ok {σ α : Type} {x : Except Failure α} {s s' : σ} {a : α} :
    ofExcept x s = .ok a s' ↔ x = .ok a ∧ s = s' := by
  cases x <;> simp [ofExcept, pure_apply, throw_apply]

@[simp] theorem ofExcept_state {σ α : Type} (x : Except Failure α) (s : σ) :
    (ofExcept x s).state = s := by
  cases x <;> rfl

structure ObjectContainer where
  mActiveObjects : TreeMap ObjectId ObjectPtr := ∅
  mUniqueObjects : TreeMap String ObjectId := ∅
  mRemovedObjects : TreeSet ObjectId := ∅

namespace ObjectContainer

/-- `insert` of the object `obj`, which is currently `o`, from the core thread or another one. -/
def insert (onCoreThread : Bool) (obj : ObjectPtr) (o : BaseObject) :
    EStateM Failure ObjectContainer Unit := do
  enforce onCoreThread "ObjectContainer: insert on wrong core"
  enforce o.isInitialized "object not initialized"
  enforce (!(← get).mActiveObjects.contains o.mObjectId) "object already in container"
  modify fun c => { c with mActiveObjects := c.mActiveObjects.insert o.mObjectId obj }

def remove (onCoreThread : Bool) (id : ObjectId) : EStateM Failure ObjectContainer Unit := do
  enforce onCoreThread "ObjectContainer: remove on wrong core"
  enforce ((← get).mActiveObjects.contains id) "removed object not in container"
  modify fun c => { c with mActiveObjects := c.mActiveObjects.erase id }

/-- `remove` of an object, which is currently `o`. -/
def removeObject (onCoreThread : Bool) (o : BaseObject) : EStateM Failure ObjectContainer Unit := do
  enforce onCoreThread "ObjectContainer: remove on wrong core"
  enforce o.isInitialized "object not initialized"
  enforce ((← get).mActiveObjects.contains o.mObjectId) "removed object not in container"
  remove onCoreThread o.mObjectId

def getObject (c : ObjectContainer) (id : ObjectId) : Except Failure (Option ObjectPtr) :=
  if c.mActiveObjects.contains id || c.mRemovedObjects.contains id then
    .ok c.mActiveObjects[id]?
  else
    .error (.runtimeError
      "ObjectContainer: requested objet not in container nor is it removed")

def insertUnique (onCoreThread : Bool) (obj : ObjectPtr) (o : BaseObject) :
    EStateM Failure ObjectContainer Unit := do
  enforce o.isInitialized "object not initialized"
  enforce (!(← get).mUniqueObjects.contains o.mObjectName) "unique object already in container"
  enforce (!(← get).mActiveObjects.contains o.mObjectId) "unique object already in container"
  modify fun c => { c with mUniqueObjects := c.mUniqueObjects.insert o.mObjectName o.mObjectId }
  insert onCoreThread obj o

def getUnique (c : ObjectContainer) (name : String) : Except Failure ObjectPtr :=
  match c.mUniqueObjects[name]? with
  | none => .error (.runtimeError "requested unique object not in container")
  | some id =>
    match c.mActiveObjects[id]? with
    | none => .error (.runtimeError "requested unique missing in object container")
    | some obj => .ok obj

def removeFromSimulation (id : ObjectId) : EStateM Failure ObjectContainer Unit :=
  modify fun c => { c with mRemovedObjects := c.mRemovedObjects.insert id }

/-- `getAll()`, in ascending order of the ids. -/
def getAll (c : ObjectContainer) : List (ObjectId × ObjectPtr) := c.mActiveObjects.toList

/-! ## What the methods do when they return -/

section
variable {c c' : ObjectContainer} {onCoreThread : Bool} {obj : ObjectPtr} {o : BaseObject}
  {id : ObjectId} {u : Unit}

theorem contains_eq_false {α β : Type} [Ord α] {m : TreeMap α β} {a : α} :
    m.contains a = false ↔ a ∉ m := by
  rw [← Bool.not_eq_true, TreeMap.contains_iff_mem]

theorem insert_eq_ok : insert onCoreThread obj o c = .ok u c' ↔
    onCoreThread = true ∧ o.isInitialized = true ∧ o.mObjectId ∉ c.mActiveObjects ∧
      { c with mActiveObjects := c.mActiveObjects.insert o.mObjectId obj } = c' := by
  simp [insert, bind_eq_ok, enforce_eq_ok, get_eq_ok, modify_eq_ok,
    contains_eq_false]

theorem insertUnique_eq_ok : insertUnique onCoreThread obj o c = .ok u c' ↔
    o.mObjectName ∉ c.mUniqueObjects ∧
      insert onCoreThread obj o
        { c with mUniqueObjects := c.mUniqueObjects.insert o.mObjectName o.mObjectId } =
          .ok u c' := by
  simp only [insertUnique, bind_eq_ok, enforce_eq_ok, get_eq_ok, modify_eq_ok, insert_eq_ok]
  simp [contains_eq_false]
  tauto

theorem remove_eq_ok : remove onCoreThread id c = .ok u c' ↔
    onCoreThread = true ∧ id ∈ c.mActiveObjects ∧
      { c with mActiveObjects := c.mActiveObjects.erase id } = c' := by
  simp [remove, bind_eq_ok, enforce_eq_ok, get_eq_ok, modify_eq_ok]

theorem removeObject_eq_ok : removeObject onCoreThread o c = .ok u c' ↔
    onCoreThread = true ∧ o.isInitialized = true ∧ o.mObjectId ∈ c.mActiveObjects ∧
      { c with mActiveObjects := c.mActiveObjects.erase o.mObjectId } = c' := by
  simp only [removeObject, bind_eq_ok, enforce_eq_ok, get_eq_ok, remove_eq_ok]
  simp
  tauto

theorem removeFromSimulation_eq_ok : removeFromSimulation id c = .ok u c' ↔
    { c with mRemovedObjects := c.mRemovedObjects.insert id } = c' := by
  simp [removeFromSimulation, modify_eq_ok]

end

end ObjectContainer

/-- A pointer to a container. -/
abbrev ContainerPtr := Nat

/-- The object list together with all containers it has made. -/
structure ObjectList where
  containers : Heap ObjectContainer
  mWorkingCopy : ContainerPtr
  mCurrentCopy : ContainerPtr
  mCurrentObjectId : Int

namespace ObjectList

/-- The constructor: a working copy at 0 and a copy of it at 1. -/
def new : ObjectList where
  containers := ((Heap.empty {}).alloc {}).alloc {}
  mWorkingCopy := 0
  mCurrentCopy := 1
  mCurrentObjectId := 1

def workingCopy (l : ObjectList) : ObjectContainer := l.containers.cell l.mWorkingCopy

def currentCopy (l : ObjectList) : ObjectContainer := l.containers.cell l.mCurrentCopy

/-- Run a method of the container `mWorkingCopy` points to. -/
def onWorkingCopy (x : EStateM Failure ObjectContainer Unit) : EStateM Failure ObjectList Unit :=
  zoom workingCopy (fun c l => { l with containers := l.containers.write l.mWorkingCopy c }) x

/-- `mCurrentCopy = std::make_shared<ObjectContainer>(*mWorkingCopy)`. -/
def publish : EStateM Failure ObjectList Unit :=
  modify fun l =>
    { l with containers := l.containers.alloc l.workingCopy, mCurrentCopy := l.containers.next }

/-- The object is added under its own id, whatever `objectId` is. -/
def addToObjectContainer (onCoreThread : Bool) (_objectId : ObjectId) (obj : ObjectPtr)
    (o : BaseObject) : EStateM Failure ObjectList Unit := do
  onWorkingCopy (ObjectContainer.insert onCoreThread obj o)
  publish

def addUnique (onCoreThread : Bool) (obj : ObjectPtr) (o : BaseObject) :
    EStateM Failure ObjectList Unit := do
  onWorkingCopy (ObjectContainer.insertUnique onCoreThread obj o)
  publish

def removeObjectById (onCoreThread : Bool) (id : ObjectId) : EStateM Failure ObjectList Unit := do
  onWorkingCopy (ObjectContainer.remove onCoreThread id)
  publish

def removeFromSimulation (onCoreThread : Bool) (id : ObjectId) :
    EStateM Failure ObjectList Unit := do
  onWorkingCopy (ObjectContainer.remove onCoreThread id)
  onWorkingCopy (ObjectContainer.removeFromSimulation id)
  publish

def getUniqueObjectByName (l : ObjectList) (name : String) : Except Failure ObjectPtr :=
  l.currentCopy.getUnique name

def getObjectByIdFromCurrentContainer (l : ObjectList) (id : ObjectId) :
    Except Failure (Option ObjectPtr) :=
  l.currentCopy.getObject id

def getCurrentObjectContainer (l : ObjectList) : ContainerPtr := l.mCurrentCopy

/-- The id counter has no bound here: what the code does when its `int` overflows is left out. -/
def getNextObjectId : EStateM Failure ObjectList ObjectId := do
  modify fun l => { l with mCurrentObjectId := l.mCurrentObjectId + 1 }
  return (← get).mCurrentObjectId

end ObjectList

end Cosidia
