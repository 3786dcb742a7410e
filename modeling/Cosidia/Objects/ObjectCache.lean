import Cosidia.Objects.ObjectList
import Cosidia.Theory.SharedHeap

/-!
# The object cache

`SimpleObjectCache` keeps the results of searches in an object container for as long as it is asked
about the same container.
-/

namespace Cosidia

open EStateM Std

/-- A pointer to a query; 0 is the null pointer. -/
abbrev QueryPtr := Nat

/-- `CacheQueryExclude::applyQuery`. -/
def CacheQueryExclude.applyQuery (mExcludeId : ObjectId) (element : BaseObject) : Bool :=
  if element.mObjectId = mExcludeId then false else true

/-- What the cache reads: the containers, the objects in them and the queries. -/
structure Surroundings where
  containers : SharedHeap ObjectContainer
  objects : ObjectPtr → BaseObject
  applyQuery : QueryPtr → BaseObject → Bool

/-- The order of `std::pair`. -/
abbrev compareRequests : String × QueryPtr → String × QueryPtr → Ordering :=
  compareLex (compareOn Prod.fst) (compareOn Prod.snd)

theorem compareRequests_eq_eq {k k' : String × QueryPtr} :
    compareRequests k k' = .eq ↔ k = k' := by
  simp [compareRequests, compareLex_eq_eq, compareOn, Prod.ext_iff]

abbrev Requests := TreeMap (String × QueryPtr) (List ObjectId) compareRequests

structure SimpleObjectCache where
  /-- A weak pointer. -/
  mLastObjectContainer : Option Nat := none
  mCachedRequests : Requests := ∅

namespace SimpleObjectCache

variable (env : Surroundings)

def resetQueries : EStateM Failure SimpleObjectCache Unit :=
  modify fun c => { c with mCachedRequests := ∅ }

/-- `mCachedRequests[key].push_back(id)` -/
def pushBack (key : String × QueryPtr) (id : ObjectId) (requests : Requests) : Requests :=
  requests.insert key (requests.getD key [] ++ [id])

/-- The body of the loop in `performSearch`. -/
def visit (type : String) (query : QueryPtr) (requests : Requests) (elem : ObjectId × ObjectPtr) :
    Requests :=
  let o := env.objects elem.2
  if o.mObjectName == type || type == "" then
    if query == 0 then
      pushBack (type, query) o.mObjectId requests
    else if env.applyQuery query o then
      pushBack (type, query) o.mObjectId requests
    else requests
  else requests

def performSearch (type : String) (query : QueryPtr) :
    EStateM Failure SimpleObjectCache (List ObjectId) := do
  match (← get).mCachedRequests[(type, query)]? with
  | some hit => return hit
  | none =>
    match env.containers.lock (← get).mLastObjectContainer with
    | none => throw .nullDereference
    | some container =>
      let all := (env.containers.value container).getAll
      modify fun c => { c with mCachedRequests := all.foldl (visit env type query) c.mCachedRequests }
      -- `operator[]` makes an empty entry if the search has found nothing
      let found := (← get).mCachedRequests.getD (type, query) []
      modify fun c => { c with mCachedRequests := c.mCachedRequests.insert (type, query) found }
      return found

/-- `getObjectsByType` of the container that the control block `container` belongs to. -/
def getObjectsByType (container : Nat) (type : String) (query : QueryPtr) :
    EStateM Failure SimpleObjectCache (List ObjectId) := do
  let last := (← get).mLastObjectContainer
  let address := some (env.containers.address container)
  if env.containers.expired last || env.containers.get (env.containers.lock last) != address then
    resetQueries
    modify fun c => { c with mLastObjectContainer := some container }
    performSearch env type query
  else if env.containers.get (env.containers.lock last) == address then
    performSearch env type query
  else
    enforce false "SimpleObjectCache: something went wrong"
    return []

end SimpleObjectCache

end Cosidia
