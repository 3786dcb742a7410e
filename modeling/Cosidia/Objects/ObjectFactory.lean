import Cosidia.Objects.TemporaryObject

/-!
# Making and removing vehicles

A vehicle is four objects: the radio, which is part of the simulation already, gets a microchannel,
and this a vehicle object and a router. What is related by ids is found by name.
-/

namespace Cosidia

open EStateM Std

variable {ω : Type}

/-! ## Related objects -/

/-- The first of the objects `ids` refers to whose name is `name`. -/
def findByName (name : String) (objects : ObjectContainer) : List ObjectId → CoreM ω (Option ObjectPtr)
  | [] => pure none
  | id :: ids => do
    match ← ofExcept (objects.getObject id) with
    | none => throw .nullDereference
    | some obj => if (← getObject obj).mObjectName = name then return some obj
                  else findByName name objects ids

/-- The first of the children of `parents` whose name is `name`. -/
def findAmongChildren (name : String) (objects : ObjectContainer) :
    List ObjectId → CoreM ω (Option ObjectPtr)
  | [] => pure none
  | parentId :: parents => do
    match ← ofExcept (objects.getObject parentId) with
    | none => throw .nullDereference
    | some parent =>
      match ← findByName name objects (← getObject parent).mChildIdList.toList with
      | some sibling => return some sibling
      | none => findAmongChildren name objects parents

/-- What has been found, or else `failure` was thrown. -/
def found (failure : String) (x : Option ObjectPtr) : CoreM ω ObjectPtr :=
  match x with
  | some obj => return obj
  | none => throw (.runtimeError failure)

def getSiblingByName (obj : ObjectPtr) (name : String) (objects : ObjectContainer) :
    CoreM ω ObjectPtr := do
  found "getSiblingByName failed"
    (← findAmongChildren name objects (← getObject obj).mParentList.toList)

def getParentByName (obj : ObjectPtr) (name : String) (objects : ObjectContainer) :
    CoreM ω ObjectPtr := do
  found "getParentByName failed" (← findByName name objects (← getObject obj).mParentList.toList)

def getChildByName (obj : ObjectPtr) (name : String) (objects : ObjectContainer) :
    CoreM ω ObjectPtr := do
  found "getChildByName failed" (← findByName name objects (← getObject obj).mChildIdList.toList)

/-! ## The factory -/

/-- What an `AnyMap` can hold, as far as it is looked at. -/
inductive AnyValue where
  | string (s : String)
  | other
  deriving DecidableEq, Repr

abbrev AnyMap := TreeMap String AnyValue

/-- `get<std::string>(key)`. -/
def AnyMap.getString (data : AnyMap) (key : String) : Except Failure String :=
  match data[key]? with
  | none => .error (.runtimeError "Element not in AnyMap")
  | some .other => .error (.runtimeError "Wrong type in AnyMap")
  | some (.string s) => .ok s

abbrev FactoryData := AnyMap

namespace ObjectFactory

/-- The four objects of a vehicle and how they are related. -/
def vehicleObjects (radio microchannel vehicle router : ObjectPtr) : List TemporaryObject :=
  let tRadio : TemporaryObject := { mBaseObject := radio, mTempId := 0, mIsInitialized := true }
  let tChannel : TemporaryObject := { mBaseObject := microchannel, mTempId := 1 }
  let tVehicle : TemporaryObject := { mBaseObject := vehicle, mTempId := 2 }
  let tRouter : TemporaryObject := { mBaseObject := router, mTempId := 3 }
  let tRadio := tRadio.setTempChild tChannel
  let tChannel := tChannel.setTempParent tRadio
  let tChannel := tChannel.setTempChild tVehicle
  let tVehicle := tVehicle.setTempParent tChannel
  let tChannel := tChannel.setTempChild tRouter
  let tRouter := tRouter.setTempParent tChannel
  [tRadio, tChannel, tVehicle, tRouter]

def createVehicleObject (objectList : ObjectContainer) (data : Option FactoryData) :
    CoreM ω (List TemporaryObject) := do
  match data with
  | none => throw (.runtimeError "ObjectFactory: Need FactoryData to create Vehicle")
  | some data =>
    let router ← makeObject "Router" none
    let microchannel ← makeObject "Microchannel" none
    let vehicle ← makeObject "VehicleObject" (some "")
    onObject vehicle (BaseObject.setExternalId (← ofExcept (data.getString "id")))
    let radio ← ofExcept (objectList.getUnique "Radio")
    return vehicleObjects radio microchannel vehicle router

def createObject (identifier : String) (objectList : ObjectContainer) (data : Option FactoryData) :
    CoreM ω (List TemporaryObject) :=
  if identifier = "vehicle" then createVehicleObject objectList data
  else throw (.runtimeError "ObjectFactory: Unknown object requested")

end ObjectFactory

/-! ## The remover -/

namespace ObjectRemover

def getVehicleRelatedObjects (id : ObjectId) (objectList : ObjectContainer) :
    CoreM ω (List ObjectId) := do
  match ← ofExcept (objectList.getObject id) with
  | none => throw .nullDereference
  | some obj =>
    enforce ((← getObject obj).mObjectName == "VehicleObject")
      "Object to remove must be VehicleObject"
    let microchannel ← getParentByName obj "Microchannel" objectList
    let microchannelId := (← getObject microchannel).mObjectId
    let router ← getSiblingByName obj "Router" objectList
    return [id, microchannelId, (← getObject router).mObjectId]

def getObjectsToDelete (objectIdentifier : String) (id : ObjectId) (objectList : ObjectContainer) :
    CoreM ω (List ObjectId) :=
  if objectIdentifier = "vehicle" then getVehicleRelatedObjects id objectList
  else return []

end ObjectRemover

end Cosidia
