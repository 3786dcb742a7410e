import Cosidia.Core.Core

/-!
# Objects that are not yet part of the simulation

New objects refer to each other by temporary ids until the core thread gives them real ones.
-/

namespace Cosidia

open EStateM Std

variable {ω : Type}

structure TemporaryObject where
  mBaseObject : ObjectPtr
  mTempId : ObjectId
  mIsInitialized : Bool := false
  mTempParents : TreeSet ObjectId := ∅
  mTempChildren : TreeSet ObjectId := ∅
  mTempMapping : ObjectId × ObjectId := (.stub, .stub)

namespace TemporaryObject

def setTempChild (obj child : TemporaryObject) : TemporaryObject :=
  { obj with mTempChildren := obj.mTempChildren.insert child.mTempId }

def setTempParent (obj parent : TemporaryObject) : TemporaryObject :=
  { obj with mTempParents := obj.mTempParents.insert parent.mTempId }

def setTempMapping (realId : ObjectId) (obj : TemporaryObject) : TemporaryObject :=
  { obj with mTempMapping := (obj.mTempId, realId) }

def getRealId (obj : TemporaryObject) : Except Failure ObjectId :=
  if obj.mTempMapping.2.valid then .ok obj.mTempMapping.2
  else .error (.assertion "mTempMapping.second.valid()")

def setRealChildren (realId : ObjectId) (obj : TemporaryObject) : CoreM ω Unit :=
  onObject obj.mBaseObject (BaseObject.addChild realId)

def setRealParent (realId : ObjectId) (obj : TemporaryObject) : CoreM ω Unit :=
  onObject obj.mBaseObject (BaseObject.addParent realId)

def addToCore (obj : TemporaryObject) : CoreM ω Unit := Core.addObject obj.mBaseObject

def initializeAt (t : TimePoint) (obj : TemporaryObject) : CoreM ω TemporaryObject := do
  if !obj.mIsInitialized then
    let id ← Core.getNextObjectId
    onObject obj.mBaseObject (BaseObject.setObjectId id)
    let newAction ← ActionFactory.create .initAction (Duration.milliseconds 50)
      (t + Duration.milliseconds 1) id id
    Action.scheduleStartHandler newAction
    return obj.setTempMapping id
  else
    return obj.setTempMapping (← getObject obj.mBaseObject).mObjectId

end TemporaryObject

namespace TemporaryObjectList

/-- `mResolvedIds[id]->getRealId()`. -/
def resolve (mResolvedIds : TreeMap ObjectId TemporaryObject) (id : ObjectId) :
    Except Failure ObjectId :=
  match mResolvedIds[id]? with
  | some obj => obj.getRealId
  | none => .error .nullDereference

/-- The second loop of `resolveAndStart`, for one object. -/
def relate (mResolvedIds : TreeMap ObjectId TemporaryObject) (obj : TemporaryObject) :
    CoreM ω Unit := do
  obj.mTempChildren.toList.forM fun child => do
    obj.setRealChildren (← ofExcept (resolve mResolvedIds child))
  obj.mTempParents.toList.forM fun parent => do
    obj.setRealParent (← ofExcept (resolve mResolvedIds parent))
  if !obj.mIsInitialized then
    obj.addToCore

def resolveAndStart (start : TimePoint) (mTempList : List TemporaryObject) : CoreM ω Unit := do
  let mTempList ← mTempList.mapM (TemporaryObject.initializeAt start)
  let mResolvedIds := mTempList.foldl (fun ids obj => ids.insert obj.mTempId obj) ∅
  mTempList.forM (relate mResolvedIds)

end TemporaryObjectList

end Cosidia
