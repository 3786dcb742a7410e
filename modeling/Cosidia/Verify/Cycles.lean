import Cosidia.Verify.Updaters

/-!
# From the messages to the updates

What a step of SUMO and the step of the updater after it make of the messages that come: the results are
what has been reported last in these messages, and of nothing that has been reported before.
-/

namespace Cosidia.Traci

open EStateM Std Assignments

/-! ## The answer to a subscription -/

/-- The positive answer to a subscription, which reports the variables of an object; that it is the object
that has been asked for is not required. -/
def SubscriptionFormat (scope : Scope) (sub : Report) (payload : Bytes) : Prop :=
  ∃ description header objectID vars cs rest, sub = .object scope objectID vars ∧
    description.length ≤ 248 ∧ LengthField header ∧ VariablesFormat objectID vars cs ∧
    payload = okStatus scope.mySubscribeID description ++ header ++ byte scope.response ++ cs ++ rest

theorem isByte_response (scope : Scope) : IsByte scope.response := by
  cases scope <;> decide

theorem isByte_mySubscribeID (scope : Scope) : IsByte scope.mySubscribeID := by
  cases scope <;> decide

theorem mySubscribeID_add (scope : Scope) : scope.mySubscribeID + 0x10 = scope.response := by
  cases scope <;> decide

/-- What comes before the number of the command in the answer, and this number. -/
theorem recognises_subscribed (scope : Scope) : Recognises Storage.input
    (TraCIAPI.check_commandGetResult scope.mySubscribeID (-1) false)
    fun cmdId bs => cmdId = scope.response ∧ ∃ header, LengthField header ∧
      bs = header ++ byte scope.response := by
  have hbody : Recognises Storage.input (do
      let cmdId ← Storage.readUnsignedByte
      if cmdId ≠ scope.response then
        throw (.traciException (s!"#Error: received response with command id: {cmdId}but expected: " ++
          s!"{scope.mySubscribeID + 0x10}"))
      return cmdId) fun cmdId bs => cmdId = scope.response ∧ bs = byte scope.response := by
    apply (recognises_byte.bind fun cmdId =>
      (Recognises.throw _).ite (Recognises.pure cmdId)).congr
    intro v l
    constructor
    · rintro ⟨cmdId, _, cs, rfl, ⟨-, rfl⟩, h⟩
      split at h
      next => exact h.elim
      next hne =>
        obtain ⟨rfl, rfl⟩ := h
        rw [Decidable.not_not.1 hne, List.append_nil]
        exact ⟨rfl, rfl⟩
    · rintro ⟨rfl, rfl⟩
      refine ⟨scope.response, _, [], (List.append_nil _).symm, ⟨isByte_response scope, rfl⟩, ?_⟩
      rw [if_neg (not_not_intro rfl)]
      exact ⟨rfl, rfl⟩
  have he : TraCIAPI.check_commandGetResult scope.mySubscribeID (-1) false = (do
      let length ← Storage.readUnsignedByte
      if length = 0 then
        let _ ← Storage.readInt
      let cmdId ← Storage.readUnsignedByte
      if cmdId ≠ scope.response then
        throw (.traciException (s!"#Error: received response with command id: {cmdId}but expected: " ++
          s!"{scope.mySubscribeID + 0x10}"))
      return cmdId) := by
    have hneg : ¬ (-1 : Int) ≥ 0 := by decide
    simp only [TraCIAPI.check_commandGetResult, if_neg hneg, Bool.not_false, true_and,
      mySubscribeID_add]
  rw [he]
  apply (recognises_length hbody).congr
  intro v l
  constructor
  · rintro ⟨header, _, hheader, ⟨rfl, rfl⟩, rfl⟩
    exact ⟨rfl, header, hheader, rfl⟩
  · rintro ⟨rfl, header, hheader, rfl⟩
    exact ⟨header, _, hheader, ⟨rfl, rfl⟩, rfl⟩

theorem myDomains_response {scope : Scope} (hscope : scope ∈ domains) :
    myDomains scope.response = some scope := by
  cases scope with
  | inductionloop => exact absurd hscope (by decide)
  | _ => rfl

/-- What is read from the answer. -/
theorem interprets_subscribed {scope : Scope} (hscope : scope ∈ domains) : Interprets Storage.input (do
      let _ ← reading (TraCIAPI.resultState scope.mySubscribeID false)
      let _ ← reading (TraCIAPI.check_commandGetResult scope.mySubscribeID (-1) false)
      TraCIAPI.readVariableSubscription (scope.mySubscribeID + 0x10))
    fun _ bs api api' => ∃ description header objectID vars cs, description.length ≤ 248 ∧
      LengthField header ∧ VariablesFormat objectID vars cs ∧
      bs = okStatus scope.mySubscribeID description ++ header ++ byte scope.response ++ cs ∧
      api' = (Report.object scope objectID vars).act api := by
  rw [mySubscribeID_add]
  apply ((Interprets.reading (recognises_resultState (isByte_mySubscribeID scope))).bind fun _ =>
    (Interprets.reading (recognises_subscribed scope)).bind fun _ =>
      interprets_readVariableSubscription scope.response).congr
  intro _ l api api'
  rw [myDomains_response hscope]
  constructor
  · rintro ⟨description, _, _, _, rfl, ⟨⟨hlen, rfl⟩, rfl⟩, _, _, cs, _, rfl,
      ⟨⟨-, header, hheader, rfl⟩, rfl⟩, _, objectID, vars, hsome, hvars, rfl⟩
    obtain rfl := Option.some.inj hsome
    exact ⟨description, header, objectID, vars, cs, hlen, hheader, hvars, by simp only [List.append_assoc],
      rfl⟩
  · rintro ⟨description, header, objectID, vars, cs, hlen, hheader, hvars, rfl, rfl⟩
    exact ⟨description, _, header ++ byte scope.response ++ cs, api, by simp only [List.append_assoc],
      ⟨⟨hlen, rfl⟩, rfl⟩, scope.response, _, cs, api, rfl, ⟨⟨rfl, header, hheader, rfl⟩, rfl⟩, scope,
      objectID, vars, rfl, hvars, rfl⟩

/-! ## What is still to come -/

/-- The bytes that are still to come. -/
def coming (api : TraCIAPI) : Option Bytes := api.mySocket.map Socket.input.rest

theorem leaves_sendLoop (sendings : List Sending) (buffer : Bytes) :
    Leaves Socket.input.rest (Socket.sendLoop sendings buffer) := by
  apply Leaves.of_composed
  induction sendings generalizing buffer with
  | nil =>
    cases buffer with
    | nil => exact .pure _
    | cons b buffer => exact .prim fun _ => rfl
  | cons sending sendings ih =>
    cases buffer with
    | nil => exact .pure _
    | cons b buffer =>
      cases sending with
      | takes n => exact .bind (.prim fun _ => rfl) fun _ => ih _
      | fails error => exact .bind (.prim fun _ => rfl) fun _ => .throw _

theorem leaves_sendExact (b : Storage) : Leaves Socket.input.rest (Socket.sendExact b) := by
  apply Leaves.of_composed
  apply Composed.bind .get
  intro s
  split
  · apply Composed.bind .get
    intro s
    split
    · exact .prim (leaves_sendLoop _ _)
    · exact .pure _
  · exact .throw _

theorem leaves_onSocket {α : Type} {x : SocketM α} (h : Leaves Socket.input.rest x) :
    Leaves coming (TraCIAPI.onSocket x) := by
  intro api
  rw [TraCIAPI.onSocket]
  cases hs : api.mySocket with
  | none => rfl
  | some socket =>
    have hx := h socket
    have hcoming : coming api = some (Socket.input.rest socket) := by
      rw [coming, hs]
      rfl
    rw [hcoming]
    dsimp only
    cases hr : x socket <;> rw [hr] at hx <;> exact congrArg some hx

theorem leaves_written (x : StorageM Unit) : Leaves coming (TraCIAPI.written x) := by
  intro api
  rw [TraCIAPI.written, bind_apply, get_apply]
  dsimp only
  cases x (.new api.bigEndian) <;> rfl

theorem leaves_send_commandSubscribeObjectVariable (domID : Int) (objID : Bytes)
    (beginTime endTime : Double) (vars : List Int) : Leaves coming
      (TraCIAPI.send_commandSubscribeObjectVariable domID objID beginTime endTime vars) := by
  apply Leaves.of_composed
  apply Composed.bind .get
  intro _
  split
  · exact .bind (.throw _) fun _ => .bind (.prim (leaves_written _)) fun _ =>
      .prim (leaves_onSocket (leaves_sendExact _))
  · exact .bind (.prim (leaves_written _)) fun _ => .prim (leaves_onSocket (leaves_sendExact _))

theorem keepsResults_send_commandSubscribeObjectVariable (domID : Int) (objID : Bytes)
    (beginTime endTime : Double) (vars : List Int) : TraCIAPI.KeepsResults
      (TraCIAPI.send_commandSubscribeObjectVariable domID objID beginTime endTime vars) := by
  apply Leaves.of_composed
  apply Composed.bind .get
  intro _
  split
  · exact .bind (.throw _) fun _ => .bind (.prim (TraCIAPI.keepsResults_written _)) fun _ =>
      .prim (TraCIAPI.keepsResults_onSocket _)
  · exact .bind (.prim (TraCIAPI.keepsResults_written _)) fun _ =>
      .prim (TraCIAPI.keepsResults_onSocket _)

/-- Without a connection nothing is received. -/
theorem exists_socket {m : Storage} {api : TraCIAPI} {inMsg : Storage} {p : Storage × TraCIAPI}
    (h : storing (TraCIAPI.onSocket Socket.receiveExact) (m, api) = .ok inMsg p) :
    ∃ socket, api.mySocket = some socket := by
  cases hs : api.mySocket with
  | some socket => exact ⟨socket, rfl⟩
  | none =>
    obtain ⟨_, hreceive, -⟩ := zoom_eq_ok.1 h
    rw [TraCIAPI.onSocket, show (m, api).2.mySocket = none from hs] at hreceive
    cases hreceive

/-- What a subscription that returns has made of the next message. -/
theorem subscribe_eq_ok {scope : Scope} (hscope : scope ∈ domains) {v : Bytes} {vars : List Int}
    (hvars : vars ≠ []) {beginTime endTime : Double} {api api' : TraCIAPI}
    (h : TraCIAPI.subscribe scope v vars beginTime endTime api = .ok () api') :
    ∃ payload sub r, Socket.Sendable payload ∧ coming api = some (Socket.frame payload ++ r) ∧
      SubscriptionFormat scope sub payload ∧ coming api' = some r ∧
      api'.mySubscriptionResults = (sub.act api).mySubscriptionResults := by
  obtain ⟨_, api₁, hsend, hanswer⟩ := bind_eq_ok.1 h
  obtain ⟨s, hx⟩ := withMessage_eq_ok.1 hanswer
  have hpos : vars.length > 0 := List.length_pos_iff.2 hvars
  simp only [TraCIAPI.check_resultState, bind_assoc, if_pos hpos] at hx
  obtain ⟨_, _, hrecv, hrest⟩ := bind_eq_ok.1 hx
  obtain ⟨socket, hs⟩ := exists_socket hrecv
  obtain ⟨payload, r, hp, hr, rfl, rfl⟩ := (received_eq_ok hs).1 hrecv
  obtain ⟨bs, rest, hpayload, ⟨description, header, objectID, reported, cs, hlen, hheader, hreported, rfl,
    rfl⟩, -⟩ := (interprets_subscribed hscope (.ofPacket socket.bigEndian payload) _ () s api').1 hrest
  have hcoming : coming api = some (Socket.frame payload ++ r) := by
    rw [← (leaves_send_commandSubscribeObjectVariable _ _ _ _ _).ok hsend, coming, hs, ← hr]
    rfl
  have hresults := (keepsResults_send_commandSubscribeObjectVariable _ _ _ _ _).ok hsend
  refine ⟨payload, .object scope objectID reported, r, hp, hcoming,
    ⟨description, header, objectID, reported, cs, rest, rfl, hlen, hheader, hreported, hpayload⟩, ?_, ?_⟩
  · exact congrArg some (Socket.input.rest_skip_append hr)
  · show Function.update api₁.mySubscriptionResults scope
      (assignAll objectID (api₁.mySubscriptionResults scope) reported) = _
    rw [hresults]
    rfl

/-! ## What has been reported -/

/-- What a report does to the subscription results depends on nothing else. -/
theorem results_act {api api' : TraCIAPI} (h : api'.mySubscriptionResults = api.mySubscriptionResults)
    (r : Report) : (r.act api').mySubscriptionResults = (r.act api).mySubscriptionResults := by
  have hobjects : ∀ (scope : Scope) (contextID : Bytes) (objects : List (Bytes × List (Int × TraCIResult)))
      (api : TraCIAPI), (objects.foldl (Report.actObject scope contextID) api).mySubscriptionResults =
        api.mySubscriptionResults := by
    intro scope contextID objects
    induction objects with
    | nil => exact fun _ => rfl
    | cons o objects ih => exact fun api => ih (Report.actObject scope contextID api o)
  cases r with
  | object scope objectID vars => rw [Report.act, Report.act, h]
  | context scope contextID objects => rw [Report.act, Report.act, hobjects, hobjects, h]
  | nothing => exact h

theorem results_foldl_act {api api' : TraCIAPI}
    (h : api'.mySubscriptionResults = api.mySubscriptionResults) (reports : List Report) :
    (reports.foldl Report.act api').mySubscriptionResults =
      (reports.foldl Report.act api).mySubscriptionResults := by
  induction reports generalizing api api' with
  | nil => exact h
  | cons r reports ih => exact ih (results_act h r)

namespace SumoUpdater

variable {u : SumoUpdater} {api : TraCIAPI}

/-- Each vehicle is subscribed to with a request of its own, and what the answers report is known then. -/
theorem forM_subscribeVehicle_comes {vs : List Bytes} {p : SumoUpdater × TraCIAPI}
    (h : vs.forM subscribeVehicle (u, api) = .ok () p) (hvars : u.mVehicleVars ≠ []) {l : Bytes}
    (hl : coming api = some l) :
    ∃ subs payloads r, payloads.length = vs.length ∧ (∀ payload ∈ payloads, Socket.Sendable payload) ∧
      List.Forall₂ (SubscriptionFormat .vehicle) subs payloads ∧
      l = payloads.flatMap Socket.frame ++ r ∧ coming p.2 = some r ∧
      p.2.mySubscriptionResults = (subs.foldl Report.act api).mySubscriptionResults := by
  induction vs generalizing u api l with
  | nil =>
    cases h
    exact ⟨[], [], l, rfl, List.forall_mem_nil _, .nil, rfl, hl, rfl⟩
  | cons v vs ih =>
    obtain ⟨_, ⟨u₁, api₁⟩, hv, hrest⟩ := bind_eq_ok.1 h
    have hu₁ : u₁ = _ := subscribeVehicle_eq_ok hv
    have hsubscribe : TraCIAPI.subscribe .vehicle v u.mVehicleVars INVALID_DOUBLE_VALUE
        INVALID_DOUBLE_VALUE api = .ok () api₁ := by
      rw [subscribeVehicle, bind_apply, get_apply] at hv
      dsimp only at hv
      rw [if_pos (by simpa using hvars)] at hv
      obtain ⟨_, _, hrequest, hmodify⟩ := bind_eq_ok.1 hv
      obtain ⟨api₂, hok, rfl⟩ := onLiteApi_eq_ok.1 hrequest
      cases hmodify
      exact hok
    obtain ⟨payload, sub, r, hp, hcoming, hformat, hcoming', hresults⟩ :=
      subscribe_eq_ok (by decide) hvars hsubscribe
    rw [hl] at hcoming
    obtain rfl := Option.some.inj hcoming
    obtain ⟨subs, payloads, r', hlen, hps, hformats, rfl, hr', hresults'⟩ :=
      ih hrest (by rw [hu₁]; exact hvars) hcoming'
    refine ⟨sub :: subs, payload :: payloads, r', congrArg Nat.succ hlen,
      List.forall_mem_cons.2 ⟨hp, hps⟩, .cons hformat hformats, ?_, hr', ?_⟩
    · rw [List.flatMap_cons, List.append_assoc]
    · rw [hresults', List.foldl_cons]
      exact results_foldl_act hresults subs

/-! ## The values of an update -/

/-- The member of an update that a variable sets. -/
theorem foldlM_member {β : Type} (get : VehicleUpdate → Option β) (var : Int)
    (value : TraCIResult → Option β)
    (hset : ∀ {update v api update' api'}, setVariable update v api = .ok update' api' →
      get update' = if v.1 = var then value v.2 else get update)
    {vars : List (Int × TraCIResult)} (hvars : vars.Pairwise fun v w => v.1 ≠ w.1)
    {update update' : VehicleUpdate} {api api' : TraCIAPI}
    (h : vars.foldlM setVariable update api = .ok update' api') :
    (∀ r, (var, r) ∈ vars → get update' = value r) ∧
    ((∀ r, (var, r) ∉ vars) → get update' = get update) := by
  induction vars generalizing update api with
  | nil =>
    obtain ⟨rfl, -⟩ := pure_eq_ok.1 h
    exact ⟨nofun, fun _ => rfl⟩
  | cons v vars ih =>
    obtain ⟨hv, hvars⟩ := List.pairwise_cons.1 hvars
    rw [List.foldlM_cons] at h
    obtain ⟨update₁, api₁, hfirst, hrest⟩ := bind_eq_ok.1 h
    obtain ⟨hmem, hother⟩ := ih hvars hrest
    have hupdate₁ := hset hfirst
    by_cases hvar : v.1 = var
    · have hnot : ∀ r, (var, r) ∉ vars := fun r hr => hv _ hr hvar
      rw [if_pos hvar] at hupdate₁
      constructor
      · intro r hr
        obtain rfl | hr := List.mem_cons.1 hr
        · rw [hother hnot, hupdate₁]
        · exact (hnot r hr).elim
      · intro hall
        exact (hall v.2 (by rw [← hvar]; exact List.mem_cons_self)).elim
    · rw [if_neg hvar] at hupdate₁
      constructor
      · intro r hr
        obtain rfl | hr := List.mem_cons.1 hr
        · exact (hvar rfl).elim
        · exact hmem r hr
      · intro hall
        rw [hother fun r hr => hall r (List.mem_cons_of_mem _ hr), hupdate₁]

end SumoUpdater

def TraCIResult.double? : TraCIResult → Option Double
  | .double value => some value
  | _ => none

def TraCIResult.position? : TraCIResult → Option TraCIPosition
  | .position value => some value
  | _ => none

/-- The update holds the values of the variables, and nothing where there is none. -/
structure VehicleUpdate.Holds (update : VehicleUpdate) (value : Int → Option TraCIResult) : Prop where
  speed : update.mSpeed = (value VAR_SPEED).bind TraCIResult.double?
  position : update.mPosition = (value VAR_POSITION).bind TraCIResult.position?
  heading : update.mHeading = (value VAR_ANGLE).bind TraCIResult.double?

namespace SumoUpdater

variable {u : SumoUpdater} {api : TraCIAPI}

theorem member_getVehicleUpdate {β : Type} (get : VehicleUpdate → Option β) (var : Int)
    (value : TraCIResult → Option β)
    (hset : ∀ {update v api update' api'}, setVariable update v api = .ok update' api' →
      get update' = if v.1 = var then value v.2 else get update)
    {results : TraCIResults} {update update' : VehicleUpdate} {api api' : TraCIAPI}
    (h : getVehicleUpdate results update api = .ok update' api') (hupdate : get update = none) :
    get update' = results[var]?.bind value := by
  obtain ⟨hmem, hother⟩ := foldlM_member get var value hset (pairwise_toList results) h
  cases hr : results[var]? with
  | none =>
    rw [hother fun r hr' => ?_, hupdate]
    · rfl
    · rw [TreeMap.mem_toList_iff_getElem?_eq_some, hr] at hr'
      cases hr'
  | some r => exact hmem r (TreeMap.mem_toList_iff_getElem?_eq_some.2 hr)

theorem holds_getVehicleUpdate {results : TraCIResults} {v : Bytes} {update : VehicleUpdate}
    {api api' : TraCIAPI} (h : getVehicleUpdate results { mVehicle := v } api = .ok update api') :
    update.Holds fun var => results[var]? where
  speed := by
    refine member_getVehicleUpdate VehicleUpdate.mSpeed VAR_SPEED TraCIResult.double? ?_ h rfl
    intro update v api update' api' hset
    obtain ⟨x, rfl, rfl, -⟩ | ⟨pos, geoPos, rfl, -, rfl⟩ | ⟨x, rfl, rfl, -⟩ := setVariable_eq_ok hset
    · rfl
    · rfl
    · rfl
  position := by
    refine member_getVehicleUpdate VehicleUpdate.mPosition VAR_POSITION TraCIResult.position? ?_ h rfl
    intro update v api update' api' hset
    obtain ⟨x, rfl, rfl, -⟩ | ⟨pos, geoPos, rfl, -, rfl⟩ | ⟨x, rfl, rfl, -⟩ := setVariable_eq_ok hset
    · rfl
    · rfl
    · rfl
  heading := by
    refine member_getVehicleUpdate VehicleUpdate.mHeading VAR_ANGLE TraCIResult.double? ?_ h rfl
    intro update v api update' api' hset
    obtain ⟨x, rfl, rfl, -⟩ | ⟨pos, geoPos, rfl, -, rfl⟩ | ⟨x, rfl, rfl, -⟩ := setVariable_eq_ok hset
    · rfl
    · rfl
    · rfl

theorem holds_collect {vehicles : List Bytes} (hnodup : vehicles.Nodup)
    {data data' : TreeMap Bytes VehicleUpdate} {api' : TraCIAPI}
    (h : collect data vehicles api = .ok data' api') :
    ∀ v ∈ vehicles, ∃ update, data'[v]? = some update ∧
      update.Holds fun var => (api.getSubscriptionResults .vehicle v)[var]? := by
  induction vehicles generalizing data api with
  | nil => exact nofun
  | cons v vehicles ih =>
    obtain ⟨hv, hnodup⟩ := List.nodup_cons.1 hnodup
    obtain ⟨update, api₁, hupdate, hrest⟩ := collect_cons_eq_ok h
    intro w hw
    obtain rfl | hw := List.mem_cons.1 hw
    · refine ⟨update, ?_, holds_getVehicleUpdate hupdate⟩
      rw [getElem?_collect hrest hv, TreeMap.getElem?_insert_self]
    · obtain ⟨update', hdata, hholds⟩ := ih hnodup hrest w hw
      rw [TraCIAPI.getSubscriptionResults, results_foldlM hupdate,
        ← TraCIAPI.getSubscriptionResults] at hholds
      exact ⟨update', hdata, hholds⟩

/-! ## The vehicles of a step -/

theorem mem_forM_subscribeVehicle {vs : List Bytes} {p : SumoUpdater × TraCIAPI}
    (h : vs.forM subscribeVehicle (u, api) = .ok () p) (v : Bytes) :
    v ∈ p.1.mSubscribedVehicles ↔ v ∈ vs ∨ v ∈ u.mSubscribedVehicles := by
  induction vs generalizing u api with
  | nil =>
    cases h
    simp
  | cons w vs ih =>
    obtain ⟨_, ⟨u₁, api₁⟩, hw, hrest⟩ := bind_eq_ok.1 h
    have hu₁ : u₁ = _ := subscribeVehicle_eq_ok hw
    rw [ih hrest, hu₁, TreeSet.mem_insert, Std.compare_eq_iff_eq, List.mem_cons, or_assoc,
      or_left_comm, eq_comm]

theorem mem_forM_erase {vs : List Bytes} {p : SumoUpdater × TraCIAPI}
    (h : (vs.forM fun name => modifyUpdater fun u =>
      { u with mSubscribedVehicles := u.mSubscribedVehicles.erase name }) (u, api) = .ok () p)
    (v : Bytes) : v ∈ p.1.mSubscribedVehicles ↔ v ∈ u.mSubscribedVehicles ∧ v ∉ vs := by
  induction vs generalizing u api with
  | nil =>
    cases h
    simp
  | cons w vs ih =>
    obtain ⟨_, q, hw, hrest⟩ := bind_eq_ok.1 h
    cases hw
    rw [ih hrest, TreeSet.mem_erase, ne_eq, Std.compare_eq_iff_eq, List.mem_cons, not_or, and_assoc,
      and_left_comm, eq_comm]

end SumoUpdater

/-! ## A cycle -/

theorem leaves_send_commandSimulationStep (time : Double) :
    Leaves coming (TraCIAPI.send_commandSimulationStep time) :=
  .of_composed <| .bind (.prim (leaves_written _)) fun _ =>
    .prim (leaves_onSocket (leaves_sendExact _))

/-- What a step of SUMO that returns has made of the next message. -/
theorem simulationStep_comes {time : Double} {api api' : TraCIAPI}
    (h : TraCIAPI.simulationStep time api = .ok () api') :
    ∃ payload r reports api₁, Socket.Sendable payload ∧ coming api = some (Socket.frame payload ++ r) ∧
      StepFormat reports payload ∧ coming api' = some r ∧
      api' = reports.foldl Report.act (cleared domains api₁) := by
  obtain ⟨_, api₁, hsend, hanswer⟩ := bind_eq_ok.1 h
  obtain ⟨s, hx⟩ := withMessage_eq_ok.1 hanswer
  simp only [TraCIAPI.check_resultState, bind_assoc] at hx
  obtain ⟨_, _, hrecv, -⟩ := bind_eq_ok.1 hx
  obtain ⟨socket, hs⟩ := exists_socket hrecv
  obtain ⟨payload, r, reports, hp, hr, hformat, rfl⟩ := (simulationStep_eq_ok hsend hs).1 h
  have hcoming : coming api = some (Socket.frame payload ++ r) := by
    rw [← (leaves_send_commandSimulationStep time).ok hsend, coming, hs, ← hr]
    rfl
  refine ⟨payload, r, reports, _, hp, hcoming, hformat, ?_, rfl⟩
  rw [coming, mySocket_foldl]
  exact congrArg some (Socket.input.rest_skip_append hr)

namespace SumoMobilityManager

open Traci.SumoUpdater

/-- The vehicles that are reported last under a variable of the simulation. -/
def lastReported (reports : List Report) (var : Int) : List Bytes :=
  ((last? (reports.flatMap Report.told) ((.simulation, none), [], var)).bind
    TraCIResult.stringList?).getD []

/-- What a cycle makes of the reports in the answer to the step of SUMO and in the answers to the
subscriptions: nothing that has been reported before matters. -/
structure Cycle (u : SumoUpdater) (reports subs : List Report) (res : Results) (u' : SumoUpdater) :
    Prop where
  departed : res.departedVehicles = lastReported reports VAR_DEPARTED_VEHICLES_IDS
  arrived : res.arrivedVehicles = lastReported reports VAR_ARRIVED_VEHICLES_IDS
  subscribed : ∀ v, v ∈ u'.mSubscribedVehicles ↔
    (v ∈ res.departedVehicles ∨ v ∈ u.mSubscribedVehicles) ∧ v ∉ res.arrivedVehicles
  updates : ∀ v, v ∈ res.updateVehicles ↔ v ∈ u'.mSubscribedVehicles
  data : ∀ v ∈ res.updateVehicles, ∃ update, res.updateData[v]? = some update ∧
    update.Holds fun var => last? ((reports ++ subs).flatMap Report.told) ((.vehicle, none), v, var)

/-- A step of SUMO and a step of the updater read one answer, and one more for each vehicle that has
departed, and what they make of them is determined by what these answers report. -/
theorem cycle_of_eq_ok {u : SumoUpdater} (hvars : u.mVehicleVars ≠ []) {host : Host} {t : Int}
    {api : TraCIAPI} {res : Results} {p : SumoUpdater × TraCIAPI}
    (h : (do onLiteApi (TraCIAPI.simulationStep stepLength); step host t) (u, api) = .ok res p) :
    ∃ payload payloads r reports subs,
      coming api = some (Socket.frame payload ++ payloads.flatMap Socket.frame ++ r) ∧
      (∀ payload' ∈ payload :: payloads, Socket.Sendable payload') ∧
      payloads.length = res.departedVehicles.length ∧ StepFormat reports payload ∧
      List.Forall₂ (SubscriptionFormat .vehicle) subs payloads ∧ Cycle u reports subs res p.1 := by
  obtain ⟨_, q, hsumo, hstep⟩ := bind_eq_ok.1 h
  obtain ⟨api₁, hsumo', rfl⟩ := onLiteApi_eq_ok.1 hsumo
  obtain ⟨payload, r, reports, api₀, hp, hcoming, hformat, hcoming₁, rfl⟩ := simulationStep_comes hsumo'
  obtain ⟨q, hdeparted, hsubscribe, harrived, herase, hupdates, hcollect, -⟩ := step_eq_ok hstep
  obtain ⟨subs, payloads, r', hlen, hps, hformats, rfl, -, hresults⟩ :=
    forM_subscribeVehicle_comes hsubscribe hvars hcoming₁
  have hsimulation : ∀ var, (reported (TraCIAPI.getSubscriptionResults
      (reports.foldl Report.act (cleared domains api₀)) .simulation []) var).getD [] =
        lastReported reports var := by
    intro var
    rw [reported, (knows api₀ reports .simulation (by decide) [] var).1]
    rfl
  have hvehicle : ∀ v var, (q.2.getSubscriptionResults .vehicle v)[var]? =
      last? ((reports ++ subs).flatMap Report.told) ((.vehicle, none), v, var) := by
    intro v var
    rw [← (knows api₀ (reports ++ subs) .vehicle (by decide) v var).1, TraCIAPI.getSubscriptionResults,
      hresults, List.foldl_append, TraCIAPI.getSubscriptionResults]
  refine ⟨payload, payloads, r', reports, subs, ?_, List.forall_mem_cons.2 ⟨hp, hps⟩, hlen, hformat,
    hformats, hdeparted.trans (hsimulation _), harrived.trans (hsimulation _), ?_, ?_, ?_⟩
  · rw [hcoming, List.append_assoc]
  · intro v
    rw [mem_forM_erase herase, mem_forM_subscribeVehicle hsubscribe]
  · intro v
    rw [hupdates, (host.enumerate_perm _).mem_iff, TreeSet.mem_toList]
  · intro v hv
    have hnodup : res.updateVehicles.Nodup := by
      rw [hupdates, (host.enumerate_perm _).nodup_iff]
      exact nodup_toList _
    obtain ⟨update, hdata, hholds⟩ := holds_collect hnodup hcollect v hv
    simp only [hvehicle] at hholds
    exact ⟨update, hdata, hholds⟩

/-- The answers of a cycle in which a vehicle departs. -/
def cycleSocket : Socket where
  connected := true
  incoming := [.piece 0 ((((departingAnswers.drop 2).take 3).flatMap Socket.frame).drop 1)]
  sendings := []
  sent := []
  bigEndian := false

def cycleClient : TraCIAPI := { TraCIAPI.new false with mySocket := some cycleSocket }

theorem cycle_of_eq_ok_departing : ∃ reports subs res u',
    Cycle { mVehicleVars := [VAR_SPEED, VAR_POSITION, VAR_ANGLE] } reports subs res u' ∧
    res.departedVehicles = [[118]] := by
  have hrun : ((do onLiteApi (TraCIAPI.simulationStep stepLength); step zeroHost 0)
      ({ mVehicleVars := [VAR_SPEED, VAR_POSITION, VAR_ANGLE] }, cycleClient)).check
      (fun res _ => res.departedVehicles = [[118]]) = true := by decide +kernel
  obtain ⟨res, p, hres, hdeparted⟩ := EStateM.Result.exists_of_check hrun
  obtain ⟨_, _, _, reports, subs, -, -, -, -, -, hcycle⟩ :=
    cycle_of_eq_ok (List.cons_ne_nil _ _) hres
  exact ⟨reports, subs, res, p.1, hcycle, of_decide_eq_true hdeparted⟩

end SumoMobilityManager

end Cosidia.Traci
