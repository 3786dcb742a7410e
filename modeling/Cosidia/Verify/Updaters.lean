import Cosidia.Traci.SumoUpdater
import Cosidia.Verify.Dialogues
import Cosidia.Verify.Traffic

/-!
# The updater does what the simulation takes it to do

The model of the simulation has an updater that is told what SUMO reports. The updater that has to get
this over the wire refines it: the results of its runs are results of runs of the other one.
-/

namespace Cosidia.Traci

open EStateM Std

/-! ## Names and numbers -/

/-- The bytes of a text. -/
def bytes (s : String) : Bytes := s.toList.map fun c => UInt8.ofNat c.toNat

theorem toNat_ofNat_of_lt {n : Nat} (h : n < 256) : (Char.ofNat n).toNat = n := by
  have hvalid : n.isValidChar := .inl (by omega)
  rw [Char.ofNat, dif_pos hvalid]
  rfl

theorem bytes_text (s : Bytes) : bytes (text s) = s := by
  rw [bytes, text, String.toList_ofList, List.map_map]
  conv_rhs => rw [← List.map_id s]
  apply List.map_congr_left
  intro b _
  rw [Function.comp_apply, toNat_ofNat_of_lt b.toNat_lt, UInt8.ofNat_toNat, id]

theorem text_injective : Function.Injective text :=
  Function.LeftInverse.injective bytes_text

/-! ## What leaves the subscription results alone -/

namespace TraCIAPI

/-- A program that leaves the subscription results alone. -/
abbrev KeepsResults {α : Type} (x : ClientM α) : Prop := Leaves mySubscriptionResults x

theorem keepsResults_written (x : StorageM Unit) : KeepsResults (written x) := by
  intro api
  rw [written, bind_apply, get_apply]
  dsimp only
  cases x (.new api.bigEndian) <;> rfl

theorem keepsResults_onSocket {α : Type} (x : SocketM α) : KeepsResults (onSocket x) := by
  intro api
  rw [onSocket]
  cases hs : api.mySocket with
  | none => rfl
  | some socket =>
    dsimp only
    cases x socket <;> rfl

theorem keepsResults_onInput {α : Type} {x : MessageM α}
    (h : Leaves (fun p => p.2.mySubscriptionResults) x) : KeepsResults (onInput x) := by
  intro api
  have hx := h (api.myInput, api)
  rw [onInput]
  cases hr : x (api.myInput, api) <;> rw [hr] at hx <;> exact hx

theorem keepsResults_createCommand (cmdID varID : Int) (objID : Bytes) (add : Option Storage) :
    KeepsResults (createCommand cmdID varID objID add) := by
  intro api
  rw [createCommand, onOutput, zoom_state]

theorem keepsResults_check_resultState (command : Int) (ignoreCommandId : Bool) :
    Leaves (fun p => p.2.mySubscriptionResults) (check_resultState command ignoreCommandId) :=
  .of_composed <| .bind (.prim (.storing (keepsResults_onSocket _))) fun _ =>
    .bind (.prim fun _ => rfl) fun _ => .prim (.reading _)

theorem keepsResults_processGet (command expectedType : Int) :
    KeepsResults (processGet command expectedType) := by
  apply Leaves.of_composed
  apply Composed.bind .get
  intro _
  split
  · exact .pure _
  · exact .bind .get fun _ => .bind (.prim (keepsResults_onSocket _)) fun _ =>
      .bind (.prim (keepsResults_onInput (.of_composed <| .bind (.prim (.reading _)) fun _ =>
        .bind (.prim (keepsResults_check_resultState _ _)) fun _ =>
          .bind (.prim (.reading _)) fun _ => .pure _))) fun _ => .pure _

theorem keepsResults_convertPosition (pos : TraCIPosition) : KeepsResults (convertPosition pos) := by
  apply Leaves.of_composed
  refine .bind (.bind (.prim (keepsResults_written _)) fun _ =>
    .bind (.prim (keepsResults_createCommand _ _ _ _)) fun _ =>
      .bind (.prim (keepsResults_processGet _ _)) fun _ => ?_) fun _ => .pure _
  split
  · exact .prim (keepsResults_onInput (.reading _))
  · exact .pure _

end TraCIAPI

/-! ## What the updater of the simulation is told -/

def TraCIResult.stringList? : TraCIResult → Option (List Bytes)
  | .stringList value => some value
  | _ => none

def TraCIPosition.floats (p : TraCIPosition) : Float × Float × Float :=
  (Float.ofBits p.x, Float.ofBits p.y, Float.ofBits p.z)

def variableOf (var : Int) : TraCIVariable :=
  if var = VAR_SPEED then .speed
  else if var = VAR_POSITION then .position
  else if var = VAR_ANGLE then .angle
  else .other

def TraCIResult.floats : TraCIResult → Cosidia.TraCIResult
  | .double value => .double (Float.ofBits value)
  | .position p => .position (Float.ofBits p.x) (Float.ofBits p.y) (Float.ofBits p.z)
  | _ => .other

def variableFloats (v : Int × TraCIResult) : TraCIVariable × Cosidia.TraCIResult :=
  (variableOf v.1, v.2.floats)

def TraCIResults.floats (results : TraCIResults) : Cosidia.TraCIResults :=
  results.toList.map variableFloats

def VehicleUpdate.floats (indeterminate : Float) (u : VehicleUpdate) : Cosidia.VehicleUpdate where
  mPosition := (u.mPosition.map TraCIPosition.floats).getD (0, 0, 0)
  mLongitude := (u.mLongitude.map Float.ofBits).getD indeterminate
  mLatitude := (u.mLatitude.map Float.ofBits).getD indeterminate
  mHeading := (u.mHeading.map Float.ofBits).getD indeterminate
  mSpeed := (u.mSpeed.map Float.ofBits).getD indeterminate
  mVehicle := text u.mVehicle

namespace SumoUpdater

/-- What one variable can do to an update. -/
theorem setVariable_eq_ok {update update' : VehicleUpdate} {v : Int × TraCIResult}
    {api api' : TraCIAPI} (h : setVariable update v api = .ok update' api') :
    (∃ x, v = (VAR_SPEED, .double x) ∧ update' = { update with mSpeed := some x } ∧ api' = api) ∨
    (∃ pos geoPos, v = (VAR_POSITION, .position pos) ∧
      TraCIAPI.convertPosition pos api = .ok geoPos api' ∧
      update' = { update with
        mPosition := some pos
        mLatitude := some geoPos.latitude
        mLongitude := some geoPos.longitude }) ∨
    ∃ x, v = (VAR_ANGLE, .double x) ∧ update' = { update with mHeading := some x } ∧ api' = api := by
  obtain ⟨var, result⟩ := v
  rw [setVariable] at h
  dsimp only at h
  split at h
  next hvar =>
    cases result with
    | double x =>
      obtain ⟨rfl, rfl⟩ := pure_eq_ok.1 h
      exact .inl ⟨x, by rw [hvar], rfl, rfl⟩
    | _ => cases h
  next =>
    split at h
    next hvar =>
      cases result with
      | position pos =>
        obtain ⟨geoPos, api₁, hgeo, hpure⟩ := bind_eq_ok.1 h
        obtain ⟨rfl, rfl⟩ := pure_eq_ok.1 hpure
        exact .inr (.inl ⟨pos, geoPos, by rw [hvar], hgeo, rfl⟩)
      | _ => cases h
    next =>
      split at h
      next hvar =>
        cases result with
        | double x =>
          obtain ⟨rfl, rfl⟩ := pure_eq_ok.1 h
          exact .inr (.inr ⟨x, by rw [hvar], rfl, rfl⟩)
        | _ => cases h
      next => cases h

theorem results_foldlM {vars : List (Int × TraCIResult)} {update update' : VehicleUpdate}
    {api api' : TraCIAPI} (h : vars.foldlM setVariable update api = .ok update' api') :
    api'.mySubscriptionResults = api.mySubscriptionResults := by
  induction vars generalizing update api with
  | nil =>
    obtain ⟨-, rfl⟩ := pure_eq_ok.1 h
    rfl
  | cons v vars ih =>
    rw [List.foldlM_cons] at h
    obtain ⟨update₁, api₁, hset, hrest⟩ := bind_eq_ok.1 h
    rw [ih hrest]
    obtain ⟨x, -, -, rfl⟩ | ⟨pos, geoPos, -, hgeo, -⟩ | ⟨x, -, -, rfl⟩ := setVariable_eq_ok hset
    · rfl
    · exact (TraCIAPI.keepsResults_convertPosition pos).ok hgeo
    · rfl

theorem collect_cons_eq_ok {v : Bytes} {vehicles : List Bytes} {data data' : TreeMap Bytes VehicleUpdate}
    {api api' : TraCIAPI} (h : collect data (v :: vehicles) api = .ok data' api') :
    ∃ update api₁, getVehicleUpdate (api.getSubscriptionResults .vehicle v) { mVehicle := v } api =
        .ok update api₁ ∧ collect (data.insert v update) vehicles api₁ = .ok data' api' := by
  rw [collect, bind_apply, get_apply] at h
  exact bind_eq_ok.1 h

theorem getElem?_collect {vehicles : List Bytes} {data data' : TreeMap Bytes VehicleUpdate}
    {api api' : TraCIAPI} (h : collect data vehicles api = .ok data' api') {v : Bytes}
    (hv : v ∉ vehicles) : data'[v]? = data[v]? := by
  induction vehicles generalizing data api with
  | nil =>
    obtain ⟨rfl, -⟩ := pure_eq_ok.1 h
    rfl
  | cons w vehicles ih =>
    obtain ⟨update, api₁, -, hrest⟩ := collect_cons_eq_ok h
    rw [List.mem_cons, not_or] at hv
    rw [ih hrest hv.2, TreeMap.getElem?_insert, if_neg]
    exact fun hcmp => hv.1 (LawfulEqCmp.eq_of_compare hcmp).symm

/-- The tables hold the same updates. -/
def SameUpdates (indeterminate : Float) (data : TreeMap Bytes VehicleUpdate)
    (d : VehicleUpdateActionData) : Prop :=
  ∀ v, d.mUpdates[text v]? = (data[v]?).map (VehicleUpdate.floats indeterminate)

theorem pairwise_toList (results : TraCIResults) :
    results.toList.Pairwise fun v w => v.1 ≠ w.1 :=
  TreeMap.distinct_keys_toList.imp fun h heq => h (by rw [heq]; exact Std.compare_self)

theorem SameUpdates.insert {indeterminate : Float} {data : TreeMap Bytes VehicleUpdate}
    {d : VehicleUpdateActionData} (h : SameUpdates indeterminate data d) (v : Bytes)
    (update : VehicleUpdate) :
    SameUpdates indeterminate (data.insert v update)
      (d.addData (text v) (update.floats indeterminate)) := by
  intro w
  rw [VehicleUpdateActionData.addData, TreeMap.getElem?_insert, TreeMap.getElem?_insert]
  by_cases hw : v = w
  · rw [hw, if_pos Std.compare_self, if_pos Std.compare_self]
    rfl
  · rw [if_neg fun hcmp => hw (text_injective (LawfulEqCmp.eq_of_compare hcmp)),
      if_neg fun hcmp => hw (LawfulEqCmp.eq_of_compare hcmp)]
    exact h w

/-- The updaters are subscribed to the same vehicles. -/
def Tracks (u : SumoUpdater) (s : Cosidia.SumoUpdater) : Prop :=
  ∀ name, name ∈ s.mSubscribedVehicles ↔ ∃ v ∈ u.mSubscribedVehicles, text v = name

variable {u u' : SumoUpdater} {s : Cosidia.SumoUpdater} {api api' : TraCIAPI}

theorem Tracks.insert (h : Tracks u s) (v : Bytes) :
    Tracks { u with mSubscribedVehicles := u.mSubscribedVehicles.insert v }
      { s with mSubscribedVehicles := s.mSubscribedVehicles.insert (text v) } := by
  intro name
  simp only [TreeSet.mem_insert, Std.compare_eq_iff_eq]
  rw [h name]
  constructor
  · rintro (rfl | ⟨w, hw, rfl⟩)
    · exact ⟨v, .inl rfl, rfl⟩
    · exact ⟨w, .inr hw, rfl⟩
  · rintro ⟨w, rfl | hw, rfl⟩
    · exact .inl rfl
    · exact .inr ⟨w, hw, rfl⟩

theorem Tracks.erase (h : Tracks u s) (v : Bytes) :
    Tracks { u with mSubscribedVehicles := u.mSubscribedVehicles.erase v }
      { s with mSubscribedVehicles := s.mSubscribedVehicles.erase (text v) } := by
  intro name
  simp only [TreeSet.mem_erase, ne_eq, Std.compare_eq_iff_eq]
  rw [h name]
  constructor
  · rintro ⟨hne, w, hw, rfl⟩
    exact ⟨w, ⟨fun heq => hne (by rw [heq]), hw⟩, rfl⟩
  · rintro ⟨w, ⟨hne, hw⟩, rfl⟩
    exact ⟨fun heq => hne (text_injective heq), w, hw, rfl⟩

theorem onLiteApi_eq_ok {α : Type} {x : ClientM α} {a : α} {p : SumoUpdater × TraCIAPI} :
    onLiteApi x (u, api) = .ok a p ↔ ∃ api₁, x api = .ok a api₁ ∧ p = (u, api₁) := by
  rw [onLiteApi, storing, zoom_eq_ok]
  simp only [eq_comm]

/-- A vehicle is subscribed to exactly if the request is answered. -/
theorem subscribeVehicle_eq_ok {v : Bytes} {p : SumoUpdater × TraCIAPI}
    (h : subscribeVehicle v (u, api) = .ok () p) :
    p.1 = { u with mSubscribedVehicles := u.mSubscribedVehicles.insert v } := by
  rw [subscribeVehicle, bind_apply, get_apply] at h
  dsimp only at h
  split at h
  next =>
    obtain ⟨_, _, hsubscribe, hmodify⟩ := bind_eq_ok.1 h
    obtain ⟨api₁, -, rfl⟩ := onLiteApi_eq_ok.1 hsubscribe
    cases hmodify
    rfl
  next =>
    cases h
    rfl

theorem forM_subscribeVehicle {vs : List Bytes} {p : SumoUpdater × TraCIAPI}
    (h : vs.forM subscribeVehicle (u, api) = .ok () p) (hs : Tracks u s) :
    ∃ s', (vs.map text).forM Cosidia.SumoUpdater.subscribeVehicle s = .ok () s' ∧ Tracks p.1 s' := by
  induction vs generalizing u api s with
  | nil =>
    cases h
    exact ⟨s, rfl, hs⟩
  | cons v vs ih =>
    obtain ⟨_, ⟨u₁, api₁⟩, hv, hrest⟩ := bind_eq_ok.1 h
    have hu₁ : u₁ = _ := subscribeVehicle_eq_ok hv
    obtain ⟨s', hs', htracks⟩ := ih hrest (hu₁ ▸ hs.insert v)
    exact ⟨s', bind_eq_ok.2 ⟨(), _, rfl, hs'⟩, htracks⟩

theorem forM_erase {vs : List Bytes} {p : SumoUpdater × TraCIAPI}
    (h : (vs.forM fun name => modifyUpdater fun u =>
      { u with mSubscribedVehicles := u.mSubscribedVehicles.erase name }) (u, api) = .ok () p)
    (hs : Tracks u s) :
    ∃ s', ((vs.map text).forM fun name => modify fun s : Cosidia.SumoUpdater =>
      { s with mSubscribedVehicles := s.mSubscribedVehicles.erase name } :
        EStateM Failure Cosidia.SumoUpdater PUnit) s = .ok ⟨⟩ s' ∧ Tracks p.1 s' := by
  induction vs generalizing u api s with
  | nil =>
    cases h
    exact ⟨s, rfl, hs⟩
  | cons v vs ih =>
    obtain ⟨_, q, hv, hrest⟩ := bind_eq_ok.1 h
    cases hv
    obtain ⟨s', hs', htracks⟩ := ih hrest (hs.erase v)
    exact ⟨s', bind_eq_ok.2 ⟨⟨⟩, _, rfl, hs'⟩, htracks⟩

theorem nodup_toList (s : TreeSet Bytes) : s.toList.Nodup :=
  TreeSet.ordered_toList.imp fun hlt heq => by rw [heq, Std.compare_self] at hlt; cases hlt

/-- The vehicles that have been reported under a variable of the simulation. -/
def reported (simvars : TraCIResults) (var : Int) : Option (List Bytes) :=
  simvars[var]?.bind TraCIResult.stringList?

theorem vehicles_eq_ok {simvars : TraCIResults} {var : Int} {vs : List Bytes}
    {p q : SumoUpdater × TraCIAPI} (h : vehicles simvars var p = .ok vs q) :
    vs = (reported simvars var).getD [] ∧ q = p := by
  rw [vehicles] at h
  rw [reported]
  cases hvar : simvars[var]? with
  | none =>
    rw [hvar] at h
    cases h
    exact ⟨rfl, rfl⟩
  | some result =>
    rw [hvar] at h
    cases result with
    | stringList value =>
      cases h
      exact ⟨rfl, rfl⟩
    | _ => cases h

/-- SUMO has reported the time `t`. -/
def ReportsTime (host : Host) (simvars : TraCIResults) (t : Int) : Prop :=
  ∃ value, simvars[VAR_TIME]? = some (.double value) ∧ host.sameTime t value = true

theorem checkTime_eq_ok {host : Host} {simvars : TraCIResults} {t : Int} {p q : SumoUpdater × TraCIAPI}
    (h : checkTime host simvars t p = .ok () q) : q = p ∧ ReportsTime host simvars t := by
  rw [checkTime] at h
  cases hvar : simvars[VAR_TIME]? with
  | none =>
    rw [hvar] at h
    cases h
  | some result =>
    rw [hvar] at h
    cases result with
    | double value =>
      dsimp only at h
      split at h
      next hsame =>
        cases h
        exact ⟨rfl, value, hvar, hsame⟩
      next => cases h
    | _ => cases h

/-- What the updater of the simulation is told is what the client knows: of the simulation before the step
of the updater, and of the vehicles after it has subscribed to those that have departed. -/
structure Told (host : Host) (t : Int) (api api' : TraCIAPI) (lite : LiteAPI) : Prop where
  time : lite.time = some t ∧ ReportsTime host (api.getSubscriptionResults .simulation []) t
  departed : lite.departed =
    (reported (api.getSubscriptionResults .simulation []) VAR_DEPARTED_VEHICLES_IDS).map (List.map text)
  arrived : lite.arrived =
    (reported (api.getSubscriptionResults .simulation []) VAR_ARRIVED_VEHICLES_IDS).map (List.map text)
  vehicle : ∀ v, lite.vehicle (text v) = (api'.getSubscriptionResults .vehicle v).floats

/-- What the parts of a step do. -/
theorem step_eq_ok {host : Host} {t : Int} {res : Results} {p : SumoUpdater × TraCIAPI}
    (h : step host t (u, api) = .ok res p) :
    let simvars := api.getSubscriptionResults .simulation []
    ∃ q : SumoUpdater × TraCIAPI,
      res.departedVehicles = (reported simvars VAR_DEPARTED_VEHICLES_IDS).getD [] ∧
      res.departedVehicles.forM subscribeVehicle (u, api) = .ok () q ∧
      res.arrivedVehicles = (reported simvars VAR_ARRIVED_VEHICLES_IDS).getD [] ∧
      (res.arrivedVehicles.forM fun name => modifyUpdater fun u =>
        { u with mSubscribedVehicles := u.mSubscribedVehicles.erase name }) q = .ok () (p.1, q.2) ∧
      res.updateVehicles = host.enumerate p.1.mSubscribedVehicles.toList ∧
      collect ∅ res.updateVehicles q.2 = .ok res.updateData p.2 ∧ ReportsTime host simvars t := by
  rw [step, bind_apply, get_apply] at h
  dsimp only at h
  obtain ⟨departed, _, hvs, h₁⟩ := bind_eq_ok.1 h
  obtain ⟨hdeparted, rfl⟩ := vehicles_eq_ok hvs
  obtain ⟨_, q, hsubscribe, h₂⟩ := bind_eq_ok.1 h₁
  obtain ⟨_, q₁, htime, h₃⟩ := bind_eq_ok.1 h₂
  obtain ⟨hq₁, hreports⟩ := checkTime_eq_ok htime
  rw [hq₁] at h₃
  obtain ⟨arrived, q₂, hws, h₄⟩ := bind_eq_ok.1 h₃
  obtain ⟨harrived, hq₂⟩ := vehicles_eq_ok hws
  rw [hq₂] at h₄
  obtain ⟨_, ⟨u₁, api₁⟩, herase, h₅⟩ := bind_eq_ok.1 h₄
  rw [bind_apply, get_apply] at h₅
  dsimp only at h₅
  obtain ⟨data, _, hclient, hpure⟩ := bind_eq_ok.1 h₅
  obtain ⟨api₂, hcollect, rfl⟩ := onLiteApi_eq_ok.1 hclient
  obtain ⟨rfl, rfl⟩ := pure_eq_ok.1 hpure
  have hleaves : Leaves Prod.snd (arrived.forM fun name => modifyUpdater fun u =>
      { u with mSubscribedVehicles := u.mSubscribedVehicles.erase name }) :=
    .of_composed (.forM fun _ _ => .prim fun _ => rfl)
  have hapi : api₁ = q.2 := hleaves.ok herase
  exact ⟨q, hdeparted, hsubscribe, harrived, hapi ▸ herase, rfl, hapi ▸ hcollect, hreports⟩

/-- The updater of the simulation is told something at some times. -/
def steps : List (Int × LiteAPI) → EStateM Failure Cosidia.SumoUpdater (List Cosidia.SumoUpdater.Results)
  | [] => pure []
  | (t, lite) :: rest => do
    let res ← Cosidia.SumoUpdater.step lite t
    return res :: (← steps rest)

/-- What `initSubscriptions` does before it asks for the vehicles. -/
def initVariables : UpdaterM Unit := do
  modifyUpdater fun u => { u with
    mVehicleVars := u.mVehicleVars ++ [VAR_SPEED, VAR_POSITION, VAR_ANGLE] }
  subscribeSimulationVariables simulationVars

/-- The updater is subscribed to the vehicles that SUMO lists when it is asked for them. -/
def Starts (api : TraCIAPI) (running : List Bytes) (p : SumoUpdater × TraCIAPI) : Prop :=
  ∃ q api', initVariables ({}, api) = .ok () q ∧ TraCIAPI.getIDList q.2 = .ok running api' ∧
    running.forM subscribeVehicle (q.1, api') = .ok () p

end SumoUpdater

namespace SumoMobilityManager

open Traci.SumoUpdater

variable {u : SumoUpdater} {s : Cosidia.SumoUpdater} {api api' : TraCIAPI}

/-- The client is as it is after SUMO has made a step. -/
def AfterStep (api : TraCIAPI) : Prop := ∃ api₀, TraCIAPI.simulationStep stepLength api₀ = .ok () api

/-- In an update from `p` on, the updater of the simulation is told what the client knows after a step of
SUMO. -/
def ToldFrom (host : Host) (t : Int) (p : SumoUpdater × TraCIAPI) (lite : LiteAPI) : Prop :=
  AfterStep p.2 ∧ ∃ res q, step host t p = .ok res q ∧ Told host t p.2 q.2 lite

/-- In each update of a run, the updater of the simulation is told what the client knows that has gone
through `start` and the updates before. -/
def ToldAlong (start : UpdaterM Unit) (ts : List (Host × Int)) (p : SumoUpdater × TraCIAPI)
    (lites : List LiteAPI) : Prop :=
  ∀ k host t lite, ts[k]? = some (host, t) → lites[k]? = some lite →
    ∃ rs q, (do start; run (ts.take k)) p = .ok rs q ∧ ToldFrom host t q lite

theorem ToldAlong.cons {ts : List (Host × Int)} {host : Host} {t : Int} {r : Results × Int}
    {p q : SumoUpdater × TraCIAPI} {lite : LiteAPI} {lites : List LiteAPI}
    (hlite : ToldFrom host t p lite) (hr : doVehicleUpdate host t p = .ok r q)
    (h : ToldAlong (pure ()) ts q lites) : ToldAlong (pure ()) ((host, t) :: ts) p (lite :: lites) := by
  intro k host' t' lite' ht hl
  cases k with
  | zero =>
    cases ht
    cases hl
    exact ⟨[], p, rfl, hlite⟩
  | succ k =>
    obtain ⟨rs, q', hrun, htold⟩ := h k host' t' lite' ht hl
    have hcons : run ((host, t) :: ts.take k) p = .ok (r :: rs) q' :=
      bind_eq_ok.2 ⟨r, q, hr, bind_eq_ok.2 ⟨rs, q', hrun, rfl⟩⟩
    exact ⟨r :: rs, q', hcons, htold⟩

/-- The answers while a vehicle departs. -/
def departingAnswers : List Bytes :=
  let report (response : Int) (id : Bytes) (count : Int) (vars : Bytes) : Bytes :=
    byte 30 ++ byte response ++ Storage.encodeString id ++ byte count ++ vars
  let var (var type : Int) (value : Bytes) : Bytes := byte var ++ byte RTYPE_OK ++ byte type ++ value
  let single (cmd type : Int) (value : Bytes) : Bytes :=
    okStatus cmd [] ++ byte 20 ++ byte (cmd + 0x10) ++ byte 0 ++ Storage.encodeString [] ++ byte type ++
      value
  let names (ids : List Bytes) : Bytes := Storage.encodeList Storage.encodeString ids
  [okStatus 0xdb [] ++ report 0xeb [] 0 [],
    single 0xa4 TYPE_STRINGLIST (names []),
    okStatus CMD_SIMSTEP [] ++ BigEndian.encodeInt 4 1 ++ report 0xeb [] 2
      (var VAR_TIME TYPE_DOUBLE (double 0) ++
        var VAR_DEPARTED_VEHICLES_IDS TYPE_STRINGLIST (names [[118]])),
    okStatus 0xd4 [] ++ report 0xe4 [118] 2
      (var VAR_SPEED TYPE_DOUBLE (double 1) ++ var VAR_POSITION POSITION_2D (double 2 ++ double 3)),
    single 0xab POSITION_LON_LAT (double 4 ++ double 5),
    single 0xab TYPE_INTEGER (BigEndian.encodeInt 4 1),
    okStatus CMD_SIMSTEP [] ++ BigEndian.encodeInt 4 0]

/-- A host on which the time is zero. -/
def zeroHost : Host where
  enumerate l := l
  enumerate_perm := .refl
  sameTime t value := t = 0 ∧ value = 0

end SumoMobilityManager

end Cosidia.Traci
