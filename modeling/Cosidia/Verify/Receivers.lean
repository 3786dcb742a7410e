import Cosidia.Networking.AccessInterface
import Cosidia.Verify.Cache
import Cosidia.Verify.Population

/-!
# The receivers of a transmission

While vehicles come and go, vanetza hands over packets to the access interface of a router and the
router takes them. Whoever is found then is a router of the current container, together with the
vehicle object of its own vehicle.
-/

namespace Cosidia

open EStateM Std

/-! ## Searches -/

/-- A search looks at nothing but the objects of its container. -/
theorem Surroundings.search_congr {env env' : Surroundings} {c : ObjectContainer} {type : String}
    {query : QueryPtr}
    (h : ∀ e ∈ c.getAll, (env'.objects e.2).mObjectId = (env.objects e.2).mObjectId ∧
      (env'.Selects type query (env'.objects e.2) ↔ env.Selects type query (env.objects e.2))) :
    env'.search c type query = env.search c type query := by
  simp only [search]
  rw [List.filter_map, List.map_map, List.filter_map, List.map_map]
  have hfilter : c.getAll.filter ((fun o => decide (env'.Selects type query o)) ∘
      fun e : ObjectId × ObjectPtr => env'.objects e.2) =
      c.getAll.filter ((fun o => decide (env.Selects type query o)) ∘
        fun e : ObjectId × ObjectPtr => env.objects e.2) :=
    List.filter_congr fun e he => decide_eq_decide.2 (h e he).2
  rw [hfilter]
  exact List.map_congr_left fun e he => (h e (List.mem_of_mem_filter he)).1

/-- The cache stays valid if containers are made and destroyed and the objects in those that have
been made keep their ids and names. -/
theorem SimpleObjectCache.Valid.mono {env env' : Surroundings} {cache : SimpleObjectCache}
    (h : cache.Valid env) (hnext : env.containers.blocks.next ≤ env'.containers.blocks.next)
    (hvalue : ∀ b < env.containers.blocks.next, env'.containers.value b = env.containers.value b)
    (hobjects : ∀ b < env.containers.blocks.next, ∀ e ∈ (env.containers.value b).getAll,
      (env'.objects e.2).mObjectId = (env.objects e.2).mObjectId ∧
        ∀ type query, env'.Selects type query (env'.objects e.2) ↔
          env.Selects type query (env.objects e.2)) :
    cache.Valid env' := by
  intro last hlast
  obtain ⟨hlt, hanswers⟩ := h last hlast
  refine ⟨hlt.trans_le hnext, fun type query found hfound => ?_⟩
  rw [hvalue last hlt, Surroundings.search_congr fun e he =>
    ⟨(hobjects last hlt e he).1, (hobjects last hlt e he).2 type query⟩]
  exact hanswers type query found hfound

/-! ## Adding receivers -/

/-- How the vehicle is entered among the receivers. -/
def Vehicle.receiver (v : Vehicle) : Receiver where
  lowestLayer := v.routerId
  mobility := some v.vehicle

namespace Networking

namespace AccessInterface

variable {π : Type} {radio : ObjectPtr} {rid : ObjectId} {r₀ r : Registry} {vs : List Vehicle}
variable {v : Vehicle} {s : Core (AccessInterface π)}

/-- The transmission `t` is the one that is put together. -/
def withTransmission (t : Transmission π) (s : Core (AccessInterface π)) :
    Core (AccessInterface π) :=
  { s with world := { s.world with mCurrentTransmission := some t } }

/-- `t` gets the receiver `v`. -/
def receive (v : Vehicle) (t : Transmission π) : Transmission π :=
  { t with mPossibleReceivers := t.mPossibleReceivers.insert v.routerId v.receiver }

theorem request_eq_ok {packet : π} {a a' : AccessInterface π} {u : Unit} :
    request packet a = .ok u a' ↔
      { a with mCurrentTransmission := some { mPacket := packet }, mHasRequest := true } = a' ∧
        a.mHasRequest = false := by
  cases hrequest : a.mHasRequest <;>
    simp [request, bind_eq_ok, get_eq_ok, enforce_eq_ok, modify_eq_ok, hrequest]

theorem isSetup_of_not_done {t : Transmission π} (h : t.mIsSetupDone = false) : t.isSetup = false := by
  simp only [Transmission.isSetup]
  rw [h]
  rfl

theorem addReceiver_ok (h : Registry.Houses radio rid r₀ vs r) (hv : v ∈ vs)
    (hs : Registry.Shows r s) (hid : v.routerId.valid = true) {t : Transmission π}
    (ht : s.world.mCurrentTransmission = some t) (hdone : t.mIsSetupDone = false) :
    addReceiver r.container v.routerId s = .ok () (withTransmission (receive v t) s) := by
  have hsibling : getSiblingByNameById v.routerId "VehicleObject" r.container s =
      .ok v.vehicle s := by
    simp only [getSiblingByNameById]
    rw [bind_apply, Registry.getObject_of_active (h.router_active hv)]
    exact h.getSiblingByName_ok hv hs (.inr rfl) (.inl ⟨rfl, rfl, rfl⟩)
  have hadd : Transmission.addPossibleReceiver v.routerId (some v.vehicle) t =
      .ok () (receive v t) := by
    refine bind_eq_ok.2 ⟨⟨⟩, t, by rw [hid]; rfl, bind_eq_ok.2 ⟨⟨⟩, t, rfl, bind_eq_ok.2 ⟨t, t, rfl, ?_⟩⟩⟩
    exact bind_eq_ok.2 ⟨⟨⟩, t, by rw [isSetup_of_not_done hdone]; rfl, rfl⟩
  refine bind_eq_ok.2 ⟨_, s, hsibling, zoom_eq_ok.2 ⟨_, ?_, rfl⟩⟩
  simp only [onTransmission]
  rw [ht]
  exact zoom_eq_ok.2 ⟨_, hadd, rfl⟩

theorem forM_addReceiver_ok (h : Registry.Houses radio rid r₀ vs r) (l : List ObjectId)
    (hl : ∀ i ∈ l, i.valid = true ∧ ∃ v ∈ vs, v.routerId = i) (hs : Registry.Shows r s)
    {t : Transmission π} (ht : s.world.mCurrentTransmission = some t)
    (hdone : t.mIsSetupDone = false) :
    ∃ t', l.forM (addReceiver r.container) s = .ok () (withTransmission t' s) ∧
      ∀ i receiver, t'.mPossibleReceivers[i]? = some receiver ↔
        (i ∈ l ∧ ∃ v ∈ vs, v.routerId = i ∧ receiver = v.receiver) ∨
          (i ∉ l ∧ t.mPossibleReceivers[i]? = some receiver) := by
  induction l generalizing s t with
  | nil =>
    refine ⟨t, ?_, fun i receiver => by simp⟩
    show Result.ok () s = _
    simp only [withTransmission]
    rw [← ht]
  | cons i l ih =>
    obtain ⟨hvalid, v, hv, rfl⟩ := hl i (List.mem_cons_self ..)
    have hhead := addReceiver_ok h hv hs hvalid ht hdone
    obtain ⟨t', hok, hreceivers⟩ := ih (fun j hj => hl j (List.mem_cons_of_mem _ hj))
      (s := withTransmission (receive v t) s) (t := receive v t) { hs with } rfl hdone
    refine ⟨t', bind_eq_ok.2 ⟨(), _, hhead, hok⟩, fun j receiver => ?_⟩
    have hinsert : (receive v t).mPossibleReceivers[j]? =
        if v.routerId = j then some v.receiver else t.mPossibleReceivers[j]? :=
      TreeMap.getElem?_insert.trans (if_congr Std.compare_eq_iff_eq rfl rfl)
    rw [hreceivers, hinsert, List.mem_cons]
    by_cases hj : j ∈ l
    · simp only [hj, true_and, not_true_eq_false, false_and, or_false, or_true]
    · by_cases heq : v.routerId = j
      · subst heq
        simp only [hj, false_and, false_or, not_false_eq_true, true_and, if_true,
          not_true_eq_false, or_false, Option.some.injEq]
        refine ⟨fun hr => ⟨v, hv, rfl, hr.symm⟩, ?_⟩
        rintro ⟨w, hw, hid, rfl⟩
        have heq : w = v := h.eq_of_routerId hw hv hid
        rw [heq]
      · simp only [hj, heq, Ne.symm heq, false_and, false_or, not_false_eq_true, true_and, if_false,
          or_self]

end AccessInterface

/-! ## Any sequence of calls -/

/-- The access interface of a router among vehicles that come and go. -/
structure Scene (π : Type) where
  core : Core (AccessInterface π)
  population : Population
  containers : SharedHeap ObjectContainer
  /-- The control block of the current container. -/
  current : Nat

namespace Scene

variable {π : Type} {x : ObjectId} {S S' : Scene π}

def access (S : Scene π) : AccessInterface π := S.core.world

/-- There are no vehicles yet, and the cache of the interface excludes `x`. -/
structure Init (x : ObjectId) (S : Scene π) : Prop where
  hasRadio : ∃ radio rid, HasRadio radio rid S.core
  noRouters : ∀ (i : ObjectId) (p : ObjectPtr),
    S.core.mObjectList.currentCopy.mActiveObjects[i]? = some p →
      (S.core.objects.cell p).mObjectName ≠ "Router"
  population : S.population = ⟨[], S.core.mObjectList.mCurrentObjectId, S.core.objects.next⟩
  alive : S.containers.alive S.current = true
  value : S.containers.value S.current = S.core.mObjectList.currentCopy
  made : ∀ b < S.containers.blocks.next, ∀ e ∈ (S.containers.value b).getAll,
    e.2 < S.core.objects.next
  initialized : ∃ address, address ≠ 0 ∧
    AccessInterface.initializeCache "Router" x address {} = .ok () S.access

/-- A vehicle is added or removed, which makes a new container current; time passes; some container
is made or destroyed; or the interface is called, for a transmission only if there is a request. -/
inductive Step : Scene π → Scene π → Prop
  | vehicle {S : Scene π} {op : VehicleOp} {population : Population}
    {core : Core (AccessInterface π)} {address : Nat}
    {hfree : ∀ b, S.containers.alive b = true → S.containers.address b ≠ address} :
    op.NotBefore S.core.mCurrentActionTime → S.population.step op = some population →
    op.perform S.core = .ok () core →
    Step S ⟨core, population, S.containers.make core.mObjectList.currentCopy address hfree,
      S.containers.blocks.next⟩
  | advance {S : Scene π} {t : TimePoint} : S.core.mCurrentActionTime ≤ t →
    Step S { S with core := { S.core with mCurrentActionTime := t } }
  | make {S : Scene π} {c : ObjectContainer} {address : Nat}
    {hfree : ∀ b, S.containers.alive b = true → S.containers.address b ≠ address} :
    (∀ e ∈ c.getAll, e.2 < S.core.objects.next) →
    Step S { S with containers := S.containers.make c address hfree }
  | destroy {S : Scene π} {b : Nat} : b ≠ S.current →
    Step S { S with containers := S.containers.destroy b }
  | request {S : Scene π} {packet : π} {access : AccessInterface π} :
    AccessInterface.request packet S.access = .ok () access →
    Step S { S with core := { S.core with world := access } }
  | dropTransmission {S : Scene π} {access : AccessInterface π} :
    AccessInterface.dropTransmission S.access = .ok () access →
    Step S { S with core := { S.core with world := access } }
  | getTransmission {S : Scene π} {transmission : Option (Transmission π)}
    {core : Core (AccessInterface π)} : S.access.mHasRequest = true →
    AccessInterface.getTransmission S.containers S.current S.core = .ok transmission core →
    Step S { S with core }

/-- The cache of the access interface can be relied on, and a pending transmission is new. -/
structure Ready (x : ObjectId) (S : Scene π) : Prop where
  cache : ∃ cache query, S.access.mObjectCache = some cache ∧ S.access.mCacheQuery = some query ∧
    query.address ≠ 0 ∧ query.mExcludeId = x ∧
    cache.Valid (AccessInterface.surroundings S.containers query S.core.objects)
  type : S.access.mRequestObjectType = "Router"
  pending : S.access.mHasRequest = true → ∃ transmission,
    S.access.mCurrentTransmission = some transmission ∧ transmission.mIsSetupDone = false ∧
      transmission.mPossibleReceivers = ∅

/-- What holds in every state. -/
structure Inv (radio : ObjectPtr) (rid : ObjectId) (r₀ : Registry) (x : ObjectId) (S : Scene π) :
    Prop where
  now : 0 ≤ S.core.mCurrentActionTime
  housed : S.population.Housed radio rid r₀ S.core.mCurrentActionTime S.core
  alive : S.containers.alive S.current = true
  value : S.containers.value S.current = S.core.mObjectList.currentCopy
  made : ∀ b < S.containers.blocks.next, ∀ e ∈ (S.containers.value b).getAll,
    e.2 < S.core.objects.next
  ready : S.Ready x

/-- The cache stays valid when containers are made and destroyed and objects are added. -/
theorem Ready.mono {x : ObjectId} (h : S.Ready x) (haccess : S'.access = S.access)
    (hnext : S.containers.blocks.next ≤ S'.containers.blocks.next)
    (hvalue : ∀ b < S.containers.blocks.next, S'.containers.value b = S.containers.value b)
    (hmade : ∀ b < S.containers.blocks.next, ∀ e ∈ (S.containers.value b).getAll,
      e.2 < S.core.objects.next)
    (hobject : ∀ p < S.core.objects.next, ∃ children,
      S'.core.objects.cell p = { S.core.objects.cell p with mChildIdList := children }) :
    S'.Ready x := by
  obtain ⟨cache, query, hcache, hquery, hne, hx, hvalid⟩ := h.cache
  refine ⟨⟨cache, query, haccess ▸ hcache, haccess ▸ hquery, hne, hx, ?_⟩, haccess ▸ h.type,
    haccess ▸ h.pending⟩
  refine hvalid.mono hnext hvalue fun b hb e he => ?_
  obtain ⟨children, heq⟩ := hobject e.2 (hmade b hb e he)
  have hcell : (AccessInterface.surroundings S'.containers query S'.core.objects).objects e.2 =
      { S.core.objects.cell e.2 with mChildIdList := children } := heq
  rw [hcell]
  exact ⟨rfl, fun type query => Iff.rfl⟩

section
variable {radio : ObjectPtr} {rid : ObjectId} {r₀ : Registry}

/-- In the current container, the routers are those of the vehicles. -/
theorem Inv.router_iff (hrouters : ∀ (i : ObjectId) (p : ObjectPtr),
      r₀.container.mActiveObjects[i]? = some p → p < r₀.objects.next ∧
        (r₀.objects.cell p).mObjectName ≠ "Router")
    (h : S.Inv radio rid r₀ x) {i : ObjectId} :
    (∃ p, (S.containers.value S.current).mActiveObjects[i]? = some p ∧
      (S.core.objects.cell p).mObjectName = "Router") ↔
      ∃ v ∈ S.population.vehicles, v.routerId = i := by
  obtain ⟨⟨r, hs, hhouses, -, -⟩, -⟩ := h.housed
  rw [h.value, hs.currentCopy, hs.objects]
  constructor
  · rintro ⟨p, hp, hname⟩
    rcases (hhouses.active i p).1 hp with hp | ⟨v, hv, hpart⟩
    · obtain ⟨hlt, hne⟩ := hrouters i p hp
      rw [(hhouses.old p hlt).2.1] at hname
      exact absurd hname hne
    · rcases Vehicle.mem_parts.1 hpart with ⟨-, rfl⟩ | ⟨-, rfl⟩ | ⟨rfl, -⟩
      · have hvehicle := congrArg BaseObject.mObjectName (hhouses.vehicle v hv)
        exact absurd (hvehicle.symm.trans hname) (by decide : "VehicleObject" ≠ "Router")
      · have hchannel := congrArg BaseObject.mObjectName (hhouses.channel v hv)
        exact absurd (hchannel.symm.trans hname) (by decide : "Microchannel" ≠ "Router")
      · exact ⟨v, hv, rfl⟩
  · rintro ⟨v, hv, rfl⟩
    exact ⟨_, hhouses.router_active hv, congrArg BaseObject.mObjectName (hhouses.router v hv)⟩

/-- The objects of the current container are in it under their ids. -/
theorem Inv.keyed (hb : Registry.Base radio rid r₀) (h : S.Inv radio rid r₀ x) :
    (S.containers.value S.current).Keyed fun p => (S.core.objects.cell p).mObjectId := by
  obtain ⟨⟨r, hs, hhouses, -, -⟩, -⟩ := h.housed
  rw [h.value, hs.currentCopy, hs.objects]
  intro i p hp
  rcases (hhouses.active i p).1 hp with hp | ⟨v, hv, hpart⟩
  · obtain ⟨hlt, hid⟩ := hb.keyed i p hp
    exact (hhouses.old p hlt).1.trans hid
  · rcases Vehicle.mem_parts.1 hpart with ⟨rfl, rfl⟩ | ⟨rfl, rfl⟩ | ⟨rfl, rfl⟩
    · exact congrArg BaseObject.mObjectId (hhouses.vehicle v hv)
    · exact congrArg BaseObject.mObjectId (hhouses.channel v hv)
    · exact congrArg BaseObject.mObjectId (hhouses.router v hv)

/-- The receivers of `t` are the routers of the vehicles, but for the one with the id `x`. -/
def Receives (x : ObjectId) (vs : List Vehicle) (t : Transmission π) : Prop :=
  ∀ (i : ObjectId) (receiver : Receiver), t.mPossibleReceivers[i]? = some receiver ↔
    i ≠ x ∧ ∃ v ∈ vs, v.routerId = i ∧ receiver = v.receiver

/-- The search in the current container finds the routers but for the one that is excluded. -/
theorem Inv.mem_search (hb : Registry.Base radio rid r₀)
    (hrouters : ∀ (i : ObjectId) (p : ObjectPtr), r₀.container.mActiveObjects[i]? = some p →
      p < r₀.objects.next ∧ (r₀.objects.cell p).mObjectName ≠ "Router")
    (h : S.Inv radio rid r₀ x) {query : CacheQueryExclude} (hne : query.address ≠ 0) {i : ObjectId} :
    i ∈ (AccessInterface.surroundings S.containers query S.core.objects).search
        (S.containers.value S.current) "Router" query.address ↔
      i ≠ query.mExcludeId ∧ ∃ v ∈ S.population.vehicles, v.routerId = i := by
  set env := AccessInterface.surroundings S.containers query S.core.objects with henv
  have hkeyed : (S.containers.value S.current).Keyed fun p => (env.objects p).mObjectId := h.keyed hb
  have hselects : ∀ o : BaseObject, env.Selects "Router" query.address o ↔
      o.mObjectName = "Router" ∧ o.mObjectId ≠ query.mExcludeId := by
    intro o
    simp [Surroundings.Selects, henv, AccessInterface.surroundings,
      Cosidia.CacheQueryExclude.applyQuery, hne]
  rw [(Surroundings.search_spec hkeyed).2, ← h.router_iff hrouters]
  constructor
  · rintro ⟨p, hp, hsel⟩
    obtain ⟨hname, hid⟩ := (hselects _).1 hsel
    exact ⟨fun heq => hid ((hkeyed i p hp).trans heq), p, hp, hname⟩
  · rintro ⟨hid, p, hp, hname⟩
    exact ⟨p, hp, (hselects _).2 ⟨hname, fun heq => hid ((hkeyed i p hp).symm.trans heq)⟩⟩

/-- `getTransmission` does not throw, finds the receivers and leaves a cache that is valid. -/
theorem Inv.getTransmission_ok (hb : Registry.Base radio rid r₀)
    (hrouters : ∀ (i : ObjectId) (p : ObjectPtr), r₀.container.mActiveObjects[i]? = some p →
      p < r₀.objects.next ∧ (r₀.objects.cell p).mObjectName ≠ "Router")
    (h : S.Inv radio rid r₀ x) (hrequest : S.access.mHasRequest = true) :
    ∃ t cache, AccessInterface.getTransmission S.containers S.current S.core = .ok (some t)
        { S.core with world := { S.access with
          mHasRequest := false, mObjectCache := some cache, mCurrentTransmission := none } } ∧
      Receives x S.population.vehicles t ∧ ∀ query, S.access.mCacheQuery = some query →
        cache.Valid (AccessInterface.surroundings S.containers query S.core.objects) := by
  obtain ⟨cache, query, hcache, hquery, hne, rfl, hvalid⟩ := h.ready.cache
  obtain ⟨t, ht, hdone, hempty⟩ := h.ready.pending hrequest
  set env := AccessInterface.surroundings S.containers query S.core.objects with henv
  obtain ⟨cache', hfound, hvalid'⟩ := SimpleObjectCache.getObjectsByType_spec "Router" query.address
    hvalid h.alive
  set found := env.search (S.containers.value S.current) "Router" query.address with hf
  have hiff : ∀ i, i ∈ found ↔ i ≠ query.mExcludeId ∧ ∃ v ∈ S.population.vehicles, v.routerId = i :=
    fun i => h.mem_search hb hrouters hne
  obtain ⟨⟨r, hs, hhouses, -, -⟩, -⟩ := h.housed
  have hfoundRouters : ∀ i ∈ found, i.valid = true ∧ ∃ v ∈ S.population.vehicles, v.routerId = i := by
    intro i hi
    obtain ⟨-, v, hv, rfl⟩ := (hiff i).1 hi
    refine ⟨((hhouses.counted hb).active _ ?_).1, v, hv, rfl⟩
    rw [TreeMap.mem_iff_isSome_getElem?, hhouses.router_active hv]
    rfl
  set s₁ : Core (AccessInterface π) := { S.core with world := { S.access with
    mHasRequest := false, mObjectCache := some cache' } } with hs₁
  have hs₁' : Registry.Shows r s₁ := { hs with }
  obtain ⟨t', hok, hreceivers⟩ :=
    AccessInterface.forM_addReceiver_ok hhouses found hfoundRouters hs₁' ht hdone
  have hcontainer : S.containers.value S.current = r.container := by rw [h.value, hs.currentCopy]
  refine ⟨t', cache', ?_, fun i receiver => ?_, fun query' hquery' => ?_⟩
  · have hcalls : onInterface (AccessInterface.onObjectCache (SimpleObjectCache.getObjectsByType env
        S.current S.access.mRequestObjectType query.address))
        { S.core with world := { S.access with mHasRequest := false } } = .ok found s₁ := by
      refine zoom_eq_ok.2 ⟨{ S.access with mHasRequest := false, mObjectCache := some cache' }, ?_, rfl⟩
      simp only [AccessInterface.onObjectCache]
      rw [hcache, h.ready.type]
      exact zoom_eq_ok.2 ⟨cache', hfound, rfl⟩
    refine bind_eq_ok.2 ⟨S.access, S.core, rfl, ?_⟩
    refine bind_eq_ok.2 ⟨⟨⟩, S.core, by rw [hrequest]; rfl, ?_⟩
    rw [hquery]
    refine bind_eq_ok.2 ⟨(), { S.core with world := { S.access with mHasRequest := false } }, rfl, ?_⟩
    refine bind_eq_ok.2 ⟨_, _, rfl, bind_eq_ok.2 ⟨found, s₁, hcalls, ?_⟩⟩
    rw [hcontainer]
    exact bind_eq_ok.2 ⟨(), _, hok, rfl⟩
  · rw [hreceivers, hiff, hempty]
    constructor
    · rintro (⟨⟨hid, -⟩, hv⟩ | ⟨-, hnone⟩)
      · exact ⟨hid, hv⟩
      · rw [TreeMap.getElem?_emptyc] at hnone
        cases hnone
    · rintro ⟨hid, v, hv, rfl, rfl⟩
      exact .inl ⟨⟨hid, v, hv, rfl⟩, v, hv, rfl, rfl⟩
  · rw [hquery] at hquery'
    obtain rfl := Option.some.inj hquery'
    exact hvalid'

theorem Step.inv (hb : Registry.Base radio rid r₀)
    (hrouters : ∀ (i : ObjectId) (p : ObjectPtr), r₀.container.mActiveObjects[i]? = some p →
      p < r₀.objects.next ∧ (r₀.objects.cell p).mObjectName ≠ "Router")
    (h : S.Inv radio rid r₀ x) (hstep : Step S S') : S'.Inv radio rid r₀ x := by
  have hobject : ∀ p < S.core.objects.next, ∃ children,
      S.core.objects.cell p = { S.core.objects.cell p with mChildIdList := children } :=
    fun p _ => ⟨_, rfl⟩
  cases hstep with
  | @vehicle op P core address hfree hop hP hok =>
    obtain ⟨core', hok', hhoused, hext⟩ := h.housed.perform hb h.now hop hP
    obtain rfl : core = core' := (Result.ok.inj (hok.symm.trans hok')).2
    rw [← hext.now] at hhoused
    refine ⟨hext.now ▸ h.now, hhoused, Function.update_self ..,
      Heap.alloc_cell_self .., fun b hlt e he => ?_, h.ready.mono hext.world (Nat.le_succ _)
        (fun _ hlt => Heap.alloc_cell_of_lt hlt) h.made hext.object⟩
    rcases Nat.lt_succ_iff_lt_or_eq.1 hlt with hlt | rfl
    · rw [SharedHeap.make_value _ hlt] at he
      exact (h.made b hlt e he).trans_le hext.objects
    · rw [SharedHeap.make_value_self] at he
      obtain ⟨⟨r, hs, hhouses, -, -⟩, -⟩ := hhoused
      rw [hs.currentCopy] at he
      rw [hs.objects]
      exact hhouses.pointer_lt hb (TreeMap.mem_toList_iff_getElem?_eq_some.1 he)
  | @advance t ht =>
    refine ⟨Int.le_trans h.now ht, ?_, h.alive, h.value, h.made,
      h.ready.mono rfl (Nat.le_refl _) (fun _ _ => rfl) h.made hobject⟩
    obtain ⟨⟨r, hs, hhouses, hlast, hnext⟩, -⟩ := h.housed
    exact ⟨⟨r, { hs with }, hhouses, hlast, hnext⟩, rfl⟩
  | @make c address hfree hc =>
    refine ⟨h.now, h.housed, ?_, ?_, fun b hb e he => ?_,
      h.ready.mono rfl (Nat.le_succ _) (fun _ hlt => Heap.alloc_cell_of_lt hlt) h.made hobject⟩
    · refine (Function.update_of_ne ?_ _ _).trans h.alive
      exact (S.containers.made h.alive).ne
    · exact (Heap.alloc_cell_of_lt (S.containers.made h.alive)).trans h.value
    · rcases Nat.lt_succ_iff_lt_or_eq.1 hb with hb | rfl
      · rw [SharedHeap.make_value _ hb] at he
        exact h.made b hb e he
      · rw [SharedHeap.make_value_self] at he
        exact hc e he
  | @destroy b hne =>
    exact ⟨h.now, h.housed, (Function.update_of_ne (Ne.symm hne) _ _).trans h.alive, h.value, h.made,
      h.ready.mono rfl (Nat.le_refl _) (fun _ _ => rfl) h.made hobject⟩
  | @request packet access hok =>
    obtain ⟨rfl, -⟩ := AccessInterface.request_eq_ok.1 hok
    obtain ⟨⟨r, hs, hhouses, hlast, hnext⟩, -⟩ := h.housed
    exact ⟨h.now, ⟨⟨r, { hs with }, hhouses, hlast, hnext⟩, rfl⟩, h.alive, h.value, h.made,
      h.ready.cache, h.ready.type, fun _ => ⟨_, rfl, rfl, rfl⟩⟩
  | @dropTransmission access hok =>
    obtain rfl : { S.access with mHasRequest := false } = access := (Result.ok.inj hok).2
    obtain ⟨⟨r, hs, hhouses, hlast, hnext⟩, -⟩ := h.housed
    exact ⟨h.now, ⟨⟨r, { hs with }, hhouses, hlast, hnext⟩, rfl⟩, h.alive, h.value, h.made,
      h.ready.cache, h.ready.type, nofun⟩
  | @getTransmission transmission core hrequest hok =>
    obtain ⟨t, cache, hok', -, hvalid⟩ := h.getTransmission_ok hb hrouters hrequest
    obtain rfl := (Result.ok.inj (hok.symm.trans hok')).2
    obtain ⟨⟨r, hs, hhouses, hlast, hnext⟩, -⟩ := h.housed
    obtain ⟨-, query, -, hquery, hne, hx, -⟩ := h.ready.cache
    exact ⟨h.now, ⟨⟨r, { hs with }, hhouses, hlast, hnext⟩, rfl⟩, h.alive, h.value, h.made,
      ⟨cache, query, rfl, hquery, hne, hx, hvalid query hquery⟩, h.ready.type, nofun⟩

end

/-- The vehicle is in the container: its parts are there, known under their names, and its router and
its vehicle object are siblings. -/
structure Resides (v : Vehicle) (c : ObjectContainer) (objects : Heap BaseObject) : Prop where
  parts : ∀ (i : ObjectId) (p : ObjectPtr), (i, p) ∈ v.parts → c.mActiveObjects[i]? = some p
  vehicle : (objects.cell v.vehicle).mObjectName = "VehicleObject"
  router : (objects.cell v.router).mObjectName = "Router"
  siblings : (objects.cell v.vehicle).mParentList = (objects.cell v.router).mParentList
  child : ∀ i, i ∈ (objects.cell v.channel).mChildIdList ↔ i = v.vehicleId ∨ i = v.routerId

theorem Inv.resides {radio : ObjectPtr} {rid : ObjectId} {r₀ : Registry}
    (h : S.Inv radio rid r₀ x) {v : Vehicle} (hv : v ∈ S.population.vehicles) :
    Resides v (S.containers.value S.current) S.core.objects := by
  obtain ⟨⟨r, hs, hhouses, -, -⟩, -⟩ := h.housed
  rw [h.value, hs.currentCopy, hs.objects]
  refine ⟨fun i p hp => hhouses.part_active hv hp, ?_, ?_, ?_, fun i => hhouses.mem_children hv⟩
  · exact congrArg BaseObject.mObjectName (hhouses.vehicle v hv)
  · exact congrArg BaseObject.mObjectName (hhouses.router v hv)
  · exact (congrArg BaseObject.mParentList (hhouses.vehicle v hv)).trans
      (congrArg BaseObject.mParentList (hhouses.router v hv)).symm

theorem Init.inv (h : S.Init x) : ∃ radio rid r₀, Registry.Base radio rid r₀ ∧
    (∀ (i : ObjectId) (p : ObjectPtr), r₀.container.mActiveObjects[i]? = some p →
      p < r₀.objects.next ∧ (r₀.objects.cell p).mObjectName ≠ "Router") ∧
    S.Inv radio rid r₀ x := by
  obtain ⟨radio, rid, hradio⟩ := h.hasRadio
  obtain ⟨address, hne, hinit⟩ := h.initialized
  have haccess := (Result.ok.inj hinit).2
  refine ⟨radio, rid, S.core.registry, hradio.base, fun i p hp => ⟨(hradio.base.keyed i p hp).1,
    h.noRouters i p hp⟩, hradio.now, ?_, h.alive, h.value, h.made, ?_⟩
  · rw [h.population]
    exact hradio.housed
  · exact ⟨⟨{}, ⟨address, x⟩, haccess ▸ rfl, haccess ▸ rfl, hne, rfl, nofun⟩, haccess ▸ rfl,
      haccess ▸ nofun⟩

theorem inv_of_reachable (h : Reachable (Init x) Step S) :
    ∃ radio rid r₀, Registry.Base radio rid r₀ ∧
      (∀ (i : ObjectId) (p : ObjectPtr), r₀.container.mActiveObjects[i]? = some p →
        p < r₀.objects.next ∧ (r₀.objects.cell p).mObjectName ≠ "Router") ∧
      S.Inv radio rid r₀ x :=
  h.invariant (fun _ h => h.inv) fun _ _ _ ⟨radio, rid, r₀, hb, hrouters, hinv⟩ hstep =>
    ⟨radio, rid, r₀, hb, hrouters, hstep.inv hb hrouters hinv⟩

/-- Whatever has been added, removed and asked before, a transmission that is requested is taken, and
its possible receivers are the routers of the current container but for the one with the id `x`, each
with the vehicle object of its vehicle. -/
theorem getTransmission_receivers (h : Reachable (Init x) Step S)
    (hrequest : S.access.mHasRequest = true) :
    ∃ t core, AccessInterface.getTransmission S.containers S.current S.core = .ok (some t) core ∧
      (∀ i, i ∈ t.mPossibleReceivers ↔ i ≠ x ∧
        ∃ p, (S.containers.value S.current).mActiveObjects[i]? = some p ∧
          (S.core.objects.cell p).mObjectName = "Router") ∧
      Receives x S.population.vehicles t ∧
      (∀ v ∈ S.population.vehicles, Resides v (S.containers.value S.current) S.core.objects) ∧
      S.containers.value S.current = S.core.mObjectList.currentCopy := by
  obtain ⟨radio, rid, r₀, hb, hrouters, hinv⟩ := inv_of_reachable h
  obtain ⟨t, cache, hok, hreceives, -⟩ := hinv.getTransmission_ok hb hrouters hrequest
  refine ⟨t, _, hok, fun i => ?_, hreceives, fun v hv => hinv.resides hv, hinv.value⟩
  rw [hinv.router_iff hrouters, TreeMap.mem_iff_isSome_getElem?, Option.isSome_iff_exists]
  constructor
  · rintro ⟨receiver, hreceiver⟩
    obtain ⟨hne, v, hv, hid, -⟩ := (hreceives i receiver).1 hreceiver
    exact ⟨hne, v, hv, hid⟩
  · rintro ⟨hne, v, hv, hid⟩
    exact ⟨v.receiver, (hreceives i _).2 ⟨hne, v, hv, hid, rfl⟩⟩

/-! ### Two vehicles -/

/-- A radio, and an interface whose cache excludes the object 5. -/
def radioScene : Scene Unit where
  core := { radioCore with world := (AccessInterface.initializeCache "Router" 5 1 {}).state }
  population := ⟨[], 2, 1⟩
  containers := (SharedHeap.empty {}).make radioCore.mObjectList.currentCopy 0 nofun
  current := 0

theorem init_radioScene : Init 5 radioScene where
  hasRadio := ⟨0, 2, hasRadio_radioCore.current, hasRadio_radioCore.made, hasRadio_radioCore.base,
    hasRadio_radioCore.now⟩
  noRouters i p hp := by
    obtain ⟨rfl, rfl⟩ := radioCore_active hp
    decide +kernel
  population := rfl
  alive := rfl
  value := rfl
  made b hb e he := by
    obtain rfl : b = 0 := Nat.lt_one_iff.1 hb
    obtain ⟨-, hp⟩ := radioCore_active (TreeMap.mem_toList_iff_getElem?_eq_some.1 he)
    rw [hp]
    decide
  initialized := ⟨1, by decide, rfl⟩

/-- The vehicle `externalId` is added; the new container is made at `address`. -/
def addVehicle (externalId : String) (address : Nat) (S : Scene Unit)
    (hfree : ∀ b, S.containers.alive b = true → S.containers.address b ≠ address) : Scene Unit :=
  let core := ((VehicleOp.add (some ((∅ : AnyMap).insert "id" (.string externalId))) 0).perform
    S.core).state
  ⟨core, S.population.add externalId, S.containers.make core.mObjectList.currentCopy address hfree,
    S.containers.blocks.next⟩

theorem addVehicle_step {externalId : String} {address : Nat} {S : Scene Unit}
    (hfree : ∀ b, S.containers.alive b = true → S.containers.address b ≠ address)
    (hnow : S.core.mCurrentActionTime ≤ 0)
    (hP : S.population.step (.add (some ((∅ : AnyMap).insert "id" (.string externalId))) 0) =
      some (S.population.add externalId))
    (hok : ((VehicleOp.add (some ((∅ : AnyMap).insert "id" (.string externalId))) 0).perform
      S.core).value? = some ()) : Step S (S.addVehicle externalId address hfree) :=
  @Step.vehicle Unit S (.add (some ((∅ : AnyMap).insert "id" (.string externalId))) 0) _ _ address hfree
    hnow hP (Result.eq_ok hok)

def oneVehicle : Scene Unit := radioScene.addVehicle "a" 1 fun b hb => by
  obtain rfl : b = 0 := Nat.lt_one_iff.1 (radioScene.containers.made hb)
  decide

def twoVehicles : Scene Unit := oneVehicle.addVehicle "b" 2 fun b hb => by
  obtain hlt | rfl := Nat.lt_succ_iff_lt_or_eq.1 (oneVehicle.containers.made hb)
  · obtain rfl : b = 0 := Nat.lt_one_iff.1 hlt
    decide
  · decide

/-- The router of the first vehicle has got a packet. -/
def requested : Scene Unit :=
  { twoVehicles with core := { twoVehicles.core with
      world := (AccessInterface.request () twoVehicles.access).state } }

theorem requested_reachable : Reachable (Init 5) Step requested := by
  have h₁ : Reachable (Init 5) Step oneVehicle :=
    (Reachable.init init_radioScene).step (addVehicle_step _ (by decide +kernel) (by decide +kernel)
      (by decide +kernel))
  have h₂ : Reachable (Init 5) Step twoVehicles :=
    h₁.step (addVehicle_step _ (by decide +kernel) (by decide +kernel)
      (by decide +kernel))
  exact h₂.step (.request (Result.eq_ok (by decide +kernel)))

theorem getTransmission_receivers_twoVehicles :
    ∃ t core, AccessInterface.getTransmission requested.containers requested.current requested.core =
      .ok (some t) core ∧ t.mPossibleReceivers[(8 : ObjectId)]? =
        some { lowestLayer := 8, mobility := some 6 } := by
  obtain ⟨t, core, hok, -, hreceives, -⟩ :=
    getTransmission_receivers requested_reachable (by decide +kernel)
  exact ⟨t, core, hok, (hreceives 8 _).2 ⟨by decide, ⟨"b", 5, 4⟩, by decide +kernel, rfl, rfl⟩⟩

end Scene

end Networking

end Cosidia
