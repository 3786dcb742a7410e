import Cosidia.Objects.ObjectCache
import Cosidia.Theory.Reachable

/-!
# The object cache answers like a search

`Surroundings.search` is the uncached search. Whatever happens to containers between the calls,
every entry of the cache is the search of the container that the cache has seen last, as long as
that container is alive.
-/

namespace Cosidia

open EStateM Std

/-! ## The uncached search -/

namespace Surroundings

variable (env : Surroundings)

/-- The object has the type and satisfies the query; the empty type and the null query ask for
nothing. -/
def Selects (type : String) (query : QueryPtr) (o : BaseObject) : Prop :=
  (o.mObjectName = type ∨ type = "") ∧ (query = 0 ∨ env.applyQuery query o = true)

instance (type : String) (query : QueryPtr) (o : BaseObject) :
    Decidable (env.Selects type query o) :=
  inferInstanceAs (Decidable (_ ∧ _))

/-- The ids of the objects of a container that a request selects, as they come in `getAll()`. -/
def search (c : ObjectContainer) (type : String) (query : QueryPtr) : List ObjectId :=
  ((c.getAll.map fun e => env.objects e.2).filter fun o => env.Selects type query o).map
    BaseObject.mObjectId

end Surroundings

/-- The containers that the methods of `ObjectContainer` make, `id` being the ids of the objects. -/
inductive ObjectContainer.Built (id : ObjectPtr → ObjectId) : ObjectContainer → Prop
  | empty : Built id {}
  | insert {c c' onCoreThread obj o} : Built id c → o.mObjectId = id obj →
    insert onCoreThread obj o c = .ok () c' → Built id c'
  | insertUnique {c c' onCoreThread obj o} : Built id c → o.mObjectId = id obj →
    insertUnique onCoreThread obj o c = .ok () c' → Built id c'
  | remove {c c' onCoreThread removed} : Built id c → remove onCoreThread removed c = .ok () c' →
    Built id c'
  | removeFromSimulation {c c' removed} : Built id c → removeFromSimulation removed c = .ok () c' →
    Built id c'

namespace ObjectContainer

/-- Every object of the container is in it under its id. -/
def Keyed (id : ObjectPtr → ObjectId) (c : ObjectContainer) : Prop :=
  ∀ i p, c.mActiveObjects[i]? = some p → id p = i

variable {id : ObjectPtr → ObjectId} {c c' : ObjectContainer}

theorem Keyed.insert (h : c.Keyed id) {o : BaseObject} {obj : ObjectPtr}
    (ho : o.mObjectId = id obj) :
    Keyed id { c with mActiveObjects := c.mActiveObjects.insert o.mObjectId obj } := by
  intro i p hp
  simp only [TreeMap.getElem?_insert, Std.compare_eq_iff_eq] at hp
  split_ifs at hp with hi
  · rw [← Option.some.inj hp, ← ho, hi]
  · exact h i p hp

theorem Built.keyed (h : Built id c) : c.Keyed id := by
  induction h with
  | empty => simp [Keyed]
  | insert _ ho heq ih =>
    obtain ⟨-, -, -, rfl⟩ := insert_eq_ok.1 heq
    exact ih.insert ho
  | insertUnique _ ho heq ih =>
    obtain ⟨-, -, -, -, rfl⟩ := (insertUnique_eq_ok.trans (and_congr_right' insert_eq_ok)).1 heq
    exact ih.insert ho
  | remove _ heq ih =>
    obtain ⟨-, -, rfl⟩ := remove_eq_ok.1 heq
    intro i p hp
    simp only [TreeMap.getElem?_erase] at hp
    split_ifs at hp
    exact ih i p hp
  | removeFromSimulation _ heq ih =>
    obtain rfl := removeFromSimulation_eq_ok.1 heq
    exact ih

end ObjectContainer

namespace Surroundings

variable {env : Surroundings} {c : ObjectContainer} {type : String} {query : QueryPtr}

/-- In a container that has its objects under their ids, the ids that are found are keys. -/
theorem search_eq (hc : c.Keyed fun p => (env.objects p).mObjectId) :
    env.search c type query =
      (c.getAll.filter fun e => env.Selects type query (env.objects e.2)).map Prod.fst := by
  simp only [search]
  rw [List.filter_map, List.map_map]
  apply List.map_congr_left
  intro e he
  exact hc e.1 e.2 (TreeMap.mem_toList_iff_getElem?_eq_some.1 (List.mem_of_mem_filter he))

/-- The search of a container comes in ascending order and has the ids of exactly those active
objects that the request selects. -/
theorem search_spec (hc : c.Keyed fun p => (env.objects p).mObjectId) :
    (env.search c type query).Pairwise (· < ·) ∧
      ∀ i, i ∈ env.search c type query ↔
        ∃ p, c.mActiveObjects[i]? = some p ∧ env.Selects type query (env.objects p) := by
  rw [search_eq hc]
  constructor
  · have hkeys : (c.getAll.map Prod.fst).Pairwise (· < ·) := by
      rw [ObjectContainer.getAll, List.pairwise_map]
      exact TreeMap.ordered_keys_toList.imp fun h => compare_lt_iff_lt.1 h
    exact hkeys.sublist (List.filter_sublist.map _)
  · intro i
    constructor
    · intro hi
      obtain ⟨e, he, rfl⟩ := List.mem_map.1 hi
      obtain ⟨he, hs⟩ := List.mem_filter.1 he
      exact ⟨e.2, TreeMap.mem_toList_iff_getElem?_eq_some.1 he, of_decide_eq_true hs⟩
    · rintro ⟨p, hp, hs⟩
      exact List.mem_map.2 ⟨(i, p), List.mem_filter.2
        ⟨TreeMap.mem_toList_iff_getElem?_eq_some.2 hp, decide_eq_true hs⟩, rfl⟩

end Surroundings

/-! ## The cache -/

namespace SimpleObjectCache

variable {env : Surroundings} {cache : SimpleObjectCache} {container : Nat} {type : String}
  {query : QueryPtr}

/-- The entries are searches of `c`. -/
def Answers (env : Surroundings) (requests : Requests) (c : ObjectContainer) : Prop :=
  ∀ type query found, requests[(type, query)]? = some found → found = env.search c type query

theorem getElem?_insert (requests : Requests) (k k' : String × QueryPtr) (l : List ObjectId) :
    (requests.insert k l)[k']? = if k = k' then some l else requests[k']? := by
  simp only [TreeMap.getElem?_insert, compareRequests_eq_eq]

variable (env type query) in
/-- The loop of `performSearch` appends to the entry of its request what it selects. -/
theorem foldl_visit (all : List (ObjectId × ObjectPtr)) (requests : Requests) :
    (all.foldl (visit env type query) requests).getD (type, query) [] =
        requests.getD (type, query) [] ++ ((all.map fun e => env.objects e.2).filter fun o =>
          env.Selects type query o).map BaseObject.mObjectId ∧
      ∀ k, k ≠ (type, query) →
        (all.foldl (visit env type query) requests)[k]? = requests[k]? := by
  induction all generalizing requests with
  | nil => simp
  | cons e all ih =>
    have hvisit : visit env type query requests e =
        if env.Selects type query (env.objects e.2) then
          pushBack (type, query) (env.objects e.2).mObjectId requests
        else requests := by
      by_cases htype : (env.objects e.2).mObjectName = type ∨ type = "" <;>
        by_cases hq : query = 0 <;> simp [visit, Surroundings.Selects, htype, hq]
    simp only [List.foldl_cons, List.map_cons, List.filter_cons, decide_eq_true_eq, hvisit]
    split_ifs with hs
    · obtain ⟨hkey, hothers⟩ := ih (pushBack (type, query) (env.objects e.2).mObjectId requests)
      refine ⟨?_, fun k hk => ?_⟩
      · rw [hkey]
        simp [pushBack, TreeMap.getD_eq_getD_getElem?]
      · rw [hothers k hk, pushBack, getElem?_insert, if_neg hk.symm]
    · exact ih requests

variable (type query) in
/-- `performSearch` answers with the search of the container the cache has seen last. -/
theorem performSearch_spec (halive : env.containers.alive container = true)
    (hlast : cache.mLastObjectContainer = some container)
    (h : Answers env cache.mCachedRequests (env.containers.value container)) :
    ∃ requests, performSearch env type query cache =
        .ok (env.search (env.containers.value container) type query) ⟨some container, requests⟩ ∧
      Answers env requests (env.containers.value container) := by
  obtain ⟨last, requests⟩ := cache
  obtain rfl := hlast
  simp only [performSearch]
  rw [bind_apply, get_apply]
  cases hhit : requests[(type, query)]? with
  | some hit =>
    refine ⟨requests, ?_, h⟩
    simp only [hhit]
    rw [pure_apply, h _ _ _ hhit]
  | none =>
    obtain ⟨hkey, hothers⟩ := foldl_visit env type query
      (env.containers.value container).getAll requests
    rw [TreeMap.getD_eq_getD_getElem? (t := requests), hhit] at hkey
    simp only [hhit, bind_apply, get_apply, SharedHeap.lock_some halive, modify_apply, pure_apply]
    rw [hkey]
    refine ⟨_, rfl, fun type' query' found hfound => ?_⟩
    rw [getElem?_insert] at hfound
    split_ifs at hfound with hk
    · cases hk
      exact (Option.some.inj hfound).symm
    · rw [hothers _ (Ne.symm hk)] at hfound
      exact h _ _ _ hfound

/-- The entries of the cache are searches of the container it has seen last. -/
def Valid (env : Surroundings) (cache : SimpleObjectCache) : Prop :=
  ∀ last, cache.mLastObjectContainer = some last →
    last < env.containers.blocks.next ∧
      Answers env cache.mCachedRequests (env.containers.value last)

variable (type query) in
/-- `getObjectsByType` answers with the search of the container it is asked about. -/
theorem getObjectsByType_spec (h : cache.Valid env) (halive : env.containers.alive container = true) :
    ∃ cache', getObjectsByType env container type query cache =
        .ok (env.search (env.containers.value container) type query) cache' ∧
      cache'.Valid env := by
  have hdone : ∀ {c : SimpleObjectCache} {x : EStateM Failure SimpleObjectCache (List ObjectId)},
      c.mLastObjectContainer = some container →
      Answers env c.mCachedRequests (env.containers.value container) →
      x cache = performSearch env type query c → ∃ cache', x cache =
        .ok (env.search (env.containers.value container) type query) cache' ∧ cache'.Valid env := by
    intro c x hlast hc hx
    obtain ⟨requests, hs, hr⟩ := performSearch_spec type query halive hlast hc
    refine ⟨_, hx.trans hs, fun last hl => ?_⟩
    obtain rfl := Option.some.inj hl
    exact ⟨env.containers.made halive, hr⟩
  by_cases hget : env.containers.get (env.containers.lock cache.mLastObjectContainer) =
      some (env.containers.address container)
  · -- the addresses agree, so the container is the last one
    have hlast := SharedHeap.eq_some_of_get_lock halive hget
    apply hdone hlast (h container hlast).2
    rw [hlast] at hget
    simp [getObjectsByType, bind_apply, get_apply, hget, hlast, SharedHeap.expired, halive]
  · refine hdone (c := ⟨some container, ∅⟩) rfl (fun _ _ _ hfound => ?_) ?_
    · simp at hfound
    · simp [getObjectsByType, bind_apply, get_apply, modify_apply, resetQueries, hget]

end SimpleObjectCache

/-! ## Any sequence of calls -/

/-- What happens to containers and objects between the calls. Containers are made and destroyed but
not changed, and nothing happens to an object that a request could notice. -/
inductive Surroundings.Change : Surroundings → Surroundings → Prop
  | make {env c address hfree} : c.Built (fun p => (env.objects p).mObjectId) →
    Change env { env with containers := env.containers.make c address hfree }
  | destroy {env container} :
    Change env { env with containers := env.containers.destroy container }
  | objects {env objects} : (∀ p, (objects p).mObjectId = (env.objects p).mObjectId) →
    (∀ p, (objects p).mObjectName = (env.objects p).mObjectName) →
    (∀ query p, env.applyQuery query (objects p) = env.applyQuery query (env.objects p)) →
    Change env { env with objects := objects }

/-- The surroundings change, or the cache is asked about a container that is alive. -/
inductive SimpleObjectCache.Step :
    Surroundings × SimpleObjectCache → Surroundings × SimpleObjectCache → Prop
  | change {env env' cache} : env.Change env' → Step (env, cache) (env', cache)
  | call {env cache container} (type : String) (query : QueryPtr) :
    env.containers.alive container = true →
    Step (env, cache) (env, (getObjectsByType env container type query cache).state)

/-- Before anything has been made. -/
def SimpleObjectCache.Fresh (s : Surroundings × SimpleObjectCache) : Prop :=
  s.1.containers.blocks.next = 0 ∧ s.2 = {}

/-- Every container ever made has its objects under their ids. -/
def Surroundings.Keyed (env : Surroundings) : Prop :=
  ∀ b < env.containers.blocks.next,
    (env.containers.value b).Keyed fun p => (env.objects p).mObjectId

theorem Surroundings.Change.keyed {env env' : Surroundings} (h : env.Change env')
    (hk : env.Keyed) : env'.Keyed := by
  cases h with
  | @make c address hfree hc =>
    intro b hb
    rcases Nat.lt_succ_iff_lt_or_eq.1 hb with hb | rfl
    · rw [SharedHeap.make_value _ hb]
      exact hk b hb
    · rw [SharedHeap.make_value_self]
      exact hc.keyed
  | destroy => exact hk
  | objects hid _ _ =>
    intro b hb i p hp
    exact (hid p).trans (hk b hb i p hp)

/-- Searches of the containers made so far stay what they are. -/
theorem Surroundings.Change.search {env env' : Surroundings} (h : env.Change env') {b : Nat}
    (hb : b < env.containers.blocks.next) (type : String) (query : QueryPtr) :
    b < env'.containers.blocks.next ∧ env'.search (env'.containers.value b) type query =
      env.search (env.containers.value b) type query := by
  cases h with
  | make _ => exact ⟨Nat.lt_succ_of_lt hb, by rw [SharedHeap.make_value _ hb]; rfl⟩
  | destroy => exact ⟨hb, rfl⟩
  | @objects objects hid hname hquery =>
    refine ⟨hb, ?_⟩
    have hsel : ∀ p, Selects { env with objects := objects } type query (objects p) ↔
        env.Selects type query (env.objects p) := by
      intro p
      simp only [Selects, hname, hquery]
    simp only [Surroundings.search, List.filter_map, List.map_map]
    have hfilter : ((fun o => decide (Selects { env with objects := objects } type query o)) ∘
        fun e : ObjectId × ObjectPtr => objects e.2) =
        (fun o => decide (env.Selects type query o)) ∘ fun e => env.objects e.2 :=
      funext fun e => decide_eq_decide.2 (hsel e.2)
    rw [hfilter]
    exact List.map_congr_left fun e _ => hid e.2

namespace SimpleObjectCache

theorem Step.invariant {s s' : Surroundings × SimpleObjectCache} (h : Step s s')
    (hi : s.1.Keyed ∧ s.2.Valid s.1) : s'.1.Keyed ∧ s'.2.Valid s'.1 := by
  obtain ⟨hk, hv⟩ := hi
  cases h with
  | change hc =>
    refine ⟨hc.keyed hk, fun last hlast => ?_⟩
    obtain ⟨hlt, ha⟩ := hv last hlast
    refine ⟨(hc.search hlt "" 0).1, fun type query found hfound => ?_⟩
    rw [(hc.search hlt type query).2]
    exact ha type query found hfound
  | call type query halive =>
    obtain ⟨cache', heq, hv'⟩ := getObjectsByType_spec type query hv halive
    rw [heq]
    exact ⟨hk, hv'⟩

/-- Whatever was asked and whatever happened before, a cache answers with the search of the
container it is asked about: the ids of its active objects that the request selects, in ascending
order. -/
theorem getObjectsByType_eq_search {env : Surroundings} {cache : SimpleObjectCache}
    (h : Reachable Fresh Step (env, cache)) {container : Nat}
    (halive : env.containers.alive container = true) (type : String) (query : QueryPtr) :
    ∃ found cache', getObjectsByType env container type query cache = .ok found cache' ∧
      found = env.search (env.containers.value container) type query ∧
      found.Pairwise (· < ·) ∧
      ∀ i, i ∈ found ↔ ∃ p, (env.containers.value container).mActiveObjects[i]? = some p ∧
        env.Selects type query (env.objects p) := by
  have hi : env.Keyed ∧ cache.Valid env := by
    refine h.invariant (I := fun s => s.1.Keyed ∧ s.2.Valid s.1) (fun s hs => ?_)
      fun _ _ _ hi hs => hs.invariant hi
    exact ⟨fun b hb => absurd hb (by simp [hs.1]), fun last hl => by simp [hs.2] at hl⟩
  obtain ⟨cache', heq, -⟩ := getObjectsByType_spec type query hi.2 halive
  exact ⟨_, cache', heq, rfl,
    Surroundings.search_spec (hi.1 container (env.containers.made halive))⟩

/-! ### A container at the address of an older one -/

/-- Routers under their own ids, and queries that exclude the router of their number. -/
private def routers (containers : SharedHeap ObjectContainer) : Surroundings where
  containers := containers
  objects p := { mObjectId := p, mObjectName := "Router", mParentList := ({} : TreeSet ObjectId).insert 0 }
  applyQuery query := CacheQueryExclude.applyQuery query

private def oneRouter : ObjectContainer := { mActiveObjects := ({} : TreeMap ObjectId ObjectPtr).insert 1 1 }

private def twoRouters : ObjectContainer :=
  { oneRouter with mActiveObjects := oneRouter.mActiveObjects.insert 2 2 }

private theorem built_oneRouter :
    oneRouter.Built fun p => ((routers (.empty {})).objects p).mObjectId :=
  .insert (o := (routers (.empty {})).objects 1) .empty rfl
    (ObjectContainer.insert_eq_ok.2 ⟨rfl, by decide +kernel, by simp, rfl⟩)

private theorem built_twoRouters :
    twoRouters.Built fun p => ((routers (.empty {})).objects p).mObjectId :=
  .insert (o := (routers (.empty {})).objects 2) built_oneRouter rfl
    (ObjectContainer.insert_eq_ok.2 ⟨rfl, by decide +kernel, by decide +kernel, rfl⟩)

private def before : SharedHeap ObjectContainer :=
  (SharedHeap.empty {}).make oneRouter 7 nofun

/-- The second container is made at the address of the first one. -/
private def after : SharedHeap ObjectContainer :=
  (before.destroy 0).make twoRouters 7 fun b hb => by
    rcases eq_or_ne b 0 with rfl | hne <;> simp_all [before, SharedHeap.make, SharedHeap.destroy,
      SharedHeap.empty, Heap.empty]

private def filled : SimpleObjectCache :=
  (getObjectsByType (routers before) 0 "Router" 2 {}).state

/-- The entry for a destroyed container is not used for another one at its address. -/
theorem getObjectsByType_eq_search_reused :
    ∃ found cache', getObjectsByType (routers after) 1 "Router" 2 filled = .ok found cache' ∧
      found = [1] := by
  have h0 : Reachable Fresh Step (routers (.empty {}), {}) := .init ⟨rfl, rfl⟩
  have h1 : Reachable Fresh Step (routers before, {}) :=
    h0.step (.change (.make built_oneRouter))
  have h2 : Reachable Fresh Step (routers before, filled) :=
    h1.step (@Step.call _ _ 0 "Router" 2 rfl)
  have h3 : Reachable Fresh Step (routers after, filled) :=
    (h2.step (.change (@Surroundings.Change.destroy _ 0))).step (.change (.make built_twoRouters))
  obtain ⟨found, cache', heq, hfound, -⟩ :=
    @getObjectsByType_eq_search _ _ h3 1 rfl "Router" 2
  exact ⟨found, cache', heq, hfound.trans (by decide +kernel)⟩

end SimpleObjectCache

end Cosidia
