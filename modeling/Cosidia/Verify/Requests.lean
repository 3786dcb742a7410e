import Cosidia.Verify.Deadlines
import Cosidia.Verify.Receivers
import Cosidia.Verify.Resolution

/-!
# The transmissions that are requested during an action

The access interface of a router has room for one transmission, and the task of an action takes it out
once, after vanetza has been triggered. What the task has made of it is scheduled when the action ends,
if the tracker waits for that.
-/

namespace Cosidia

open EStateM

namespace AccessInterface

variable {l : List DataPtr} {i : AccessInterface}

/-- `l` are the transmissions that wait in the interface: there is at most one. -/
structure Holds (l : List DataPtr) (i : AccessInterface) : Prop where
  mCacheQuery : i.mCacheQuery.isSome = true
  waits : (i.mHasRequest = false ∧ l = []) ∨
    ∃ d, i.mHasRequest = true ∧ i.mCurrentTransmission = some d ∧ l = [d]

theorem Holds.length_le (h : Holds l i) : l.length ≤ 1 := by
  rcases h.waits with ⟨-, rfl⟩ | ⟨d, -, -, rfl⟩
  · exact Nat.zero_le 1
  · exact Nat.le_refl 1

/-- There is no room for the transmissions `l`. -/
def Doubles (l : List DataPtr) (e : Failure) : Prop :=
  e = .runtimeError "AccessInterface: double transmission" ∧ 1 < l.length

theorem Doubles.append {e : Failure} (h : Doubles l e) (l' : List DataPtr) : Doubles (l ++ l') e :=
  ⟨h.1, h.2.trans_le (by simp)⟩

theorem post_request (h : Holds l i) (d : DataPtr) :
    Post (request d) i (fun _ i' => Holds (l ++ [d]) i') fun e _ => Doubles (l ++ [d]) e := by
  rcases h.waits with ⟨hfree, rfl⟩ | ⟨d', hbusy, -, rfl⟩
  · have hrun : request d i = .ok () { i with mCurrentTransmission := some d, mHasRequest := true } := by
      simp [request, bind_apply, get_apply, modify_apply, hfree, enforce_true, pure_apply]
    simp only [Post]
    rw [hrun]
    exact ⟨h.mCacheQuery, .inr ⟨d, rfl, rfl, rfl⟩⟩
  · have hrun : request d i =
        .error (.runtimeError "AccessInterface: double transmission") i := by
      simp [request, bind_apply, get_apply, hbusy, enforce, throw_apply]
    simp only [Post]
    rw [hrun]
    exact ⟨rfl, Nat.one_lt_two⟩

/-- A transmission that waits is taken, with its receivers. -/
theorem getTransmission_apply {d : DataPtr} (h : Holds [d] i) :
    getTransmission none i =
      .ok (some d) { i with mHasRequest := false, mCurrentTransmission := none } := by
  rcases h.waits with ⟨-, hl⟩ | ⟨d', hbusy, hcurrent, hl⟩
  · cases hl
  · cases hl
    simp only [getTransmission]
    simp only [bind_apply, get_apply, modify_apply, hbusy, h.mCacheQuery, enforce_true, pure_apply,
      hcurrent]

theorem Holds.taken (h : Holds l i) :
    Holds [] { i with mHasRequest := false, mCurrentTransmission := none } :=
  ⟨h.mCacheQuery, .inl ⟨rfl, rfl⟩⟩

end AccessInterface

/-- After the trigger at `tp`, a deadline is left that `getNextStart` can report. -/
def Runtime.LeavesDeadline (t : Runtime) (tp : TimePoint) (reply : Reply) : Prop :=
  NextStartFits { t with next := max reply.next (t.advanceTo tp + 1) }

instance (t : Runtime) (tp : TimePoint) (reply : Reply) : Decidable (t.LeavesDeadline tp reply) :=
  inferInstanceAs (Decidable (Runtime.NextStartFits _))

/-- The next start that the runtime reports after it has been triggered at `tp` is later. -/
theorem Runtime.lt_getNextStart (t : Runtime) {tp : TimePoint} {next : ItsTime}
    (h : t.advanceTo tp < next) : tp < Runtime.getNextStart { t with next := next } := by
  have hround : ∀ x m n : Int, m + x.tdiv 1000 < n → x < (n - m) * 1000 := by
    intro x m n h
    have hdiv : x < (x.tdiv 1000 + 1) * 1000 := Int.lt_tdiv_add_one_mul_self x (by decide)
    omega
  exact Int.lt_add_of_sub_left_lt (hround _ _ _ h)

namespace Router

/-! ## The parts of an initialised router -/

/-- The router is equipped with its parts, and the transmissions `l` wait in its access interface. -/
structure Equipped (radio : ObjectPtr) (l : List DataPtr) (r : Router) : Prop where
  mRouter : r.mRouter = true
  mRuntime : ∃ t, r.mRuntime = some t
  mRadioObject : r.mRadioObject = some radio
  mAccessInterface : ∃ i, r.mAccessInterface = some i ∧ i.Holds l

/-- After the trigger at `tp`, the runtime of the router has a deadline left that it can report. -/
def LeavesDeadline (tp : TimePoint) (reply : Reply) (r : Router) : Prop :=
  ∀ t, r.mRuntime = some t → t.LeavesDeadline tp reply

/-- The transmission that waits in the access interface. -/
def pending (r : Router) : List DataPtr :=
  match r.mAccessInterface with
  | none => []
  | some i => if i.mHasRequest then i.mCurrentTransmission.toList else []

section
variable {radio : ObjectPtr} {l : List DataPtr} {r : Router} {t : Runtime}

theorem leavesDeadline_iff (ht : r.mRuntime = some t) (tp : TimePoint) (reply : Reply) :
    r.LeavesDeadline tp reply ↔ t.LeavesDeadline tp reply := by
  simp only [LeavesDeadline, ht, Option.some.injEq, forall_eq']

theorem Equipped.pending_eq (h : Equipped radio l r) : pending r = l := by
  obtain ⟨i, hi, hl⟩ := h.mAccessInterface
  simp only [pending]
  rw [hi]
  rcases hl.waits with ⟨hfree, rfl⟩ | ⟨d, hbusy, hcurrent, rfl⟩
  · simp [hfree]
  · simp [hbusy, hcurrent]

theorem Equipped.self (h : Equipped radio l r) : Equipped radio (pending r) r := by
  rwa [h.pending_eq]

theorem Equipped.length_le (h : Equipped radio l r) : l.length ≤ 1 := by
  obtain ⟨i, -, hl⟩ := h.mAccessInterface
  exact hl.length_le

theorem onAccessInterface_of_ok {α : Type} {x : EStateM Failure AccessInterface α}
    {i i' : AccessInterface} {b : α} (hi : r.mAccessInterface = some i) (hx : x i = .ok b i') :
    onAccessInterface x r = .ok b { r with mAccessInterface := some i' } := by
  simp only [onAccessInterface]
  simp only [hi]
  exact zoom_eq_ok.2 ⟨i', hx, rfl⟩

theorem post_requests (h : Equipped radio l r) (ds : List DataPtr) :
    Post (ds.forM fun d => onAccessInterface (AccessInterface.request d)) r
      (fun _ r' => Equipped radio (l ++ ds) r') fun e _ => AccessInterface.Doubles (l ++ ds) e := by
  induction ds generalizing l r with
  | nil => exact post_pure (by rwa [List.append_nil])
  | cons d ds ih =>
    obtain ⟨i, hi, hl⟩ := h.mAccessInterface
    refine Post.bind (M := fun _ r' => Equipped radio (l ++ [d]) r') ?_ fun _ r' h' => ?_
    · unfold onAccessInterface Post
      simp only [hi]
      refine post_zoom (Post.mono (AccessInterface.post_request hl d) (fun _ i' hl' => ?_)
        fun e _ he => ?_)
      · exact { h with mAccessInterface := ⟨i', rfl, hl'⟩ }
      · simpa using he.append ds
    · simpa using ih h'

theorem Equipped.onRuntime (h : Equipped radio l r) (f : Runtime → Runtime) :
    Post (onRuntime (modify f)) r (fun _ r' => Equipped radio l r') fun _ _ => False := by
  obtain ⟨t, ht⟩ := h.mRuntime
  simp only [Post]
  rw [onRuntime_of_ok ht (modify_apply f t)]
  exact { h with mRuntime := ⟨f t, rfl⟩ }

theorem post_call (h : Equipped radio l r) (reply : Reply) :
    Post (call reply) r (fun _ r' => Equipped radio (l ++ reply.requests) r') fun e _ =>
      reply.failure = none → AccessInterface.Doubles (l ++ reply.requests) e := by
  refine Post.bind (Post.mono (post_requests h reply.requests) (fun _ _ h => h) fun _ _ h _ => h)
    fun _ r₁ h₁ => ?_
  refine Post.bind (Post.mono (h₁.onRuntime _) (fun _ _ h => h) fun _ _ h => h.elim)
    fun _ r₂ h₂ => ?_
  cases hreply : reply.failure with
  | none => exact h₂
  | some e => exact nofun

theorem post_callRouter (h : Equipped radio l r) (reply : Reply) :
    Post (callRouter reply) r (fun _ r' => Equipped radio (l ++ reply.requests) r') fun e _ =>
      reply.failure = none → AccessInterface.Doubles (l ++ reply.requests) e := by
  simp only [callRouter]
  rw [post_bind_of_ok (get_apply r), h.mRouter]
  exact post_call h reply

theorem post_indicate (h : Equipped radio l r) (transmission : DataPtr) (reply : Reply) :
    Post (indicate transmission reply) r (fun _ r' => Equipped radio (l ++ reply.requests) r')
      fun e _ => reply.failure = none → AccessInterface.Doubles (l ++ reply.requests) e := by
  simp only [indicate]
  rw [post_bind_of_ok (get_apply r), h.mRouter]
  apply Post.bind (M := fun _ r' => Equipped radio l r') (post_modify { h with })
  intro _ _ h
  exact post_call h reply

/-- `trigger` does not throw of itself if the time has not been passed yet. -/
theorem post_trigger (h : Equipped radio l r) (ht : r.mRuntime = some t) (tp : ItsTime)
    (reply : Reply) :
    Post (trigger tp reply) r (fun _ r' => Equipped radio (l ++ reply.requests) r') fun e _ =>
      t.mLastTrigger ≤ tp → reply.failure = none →
        AccessInterface.Doubles (l ++ reply.requests) e := by
  simp only [trigger]
  rw [post_bind_of_ok (getRuntime_apply ht)]
  refine Post.bind (M := fun _ r' => r' = r) (post_enforce (fun _ => rfl) fun hlate hforward => ?_) ?_
  · exact absurd (decide_eq_true hforward) (by simpa using hlate)
  rintro _ r rfl
  apply Post.bind (Post.mono (h.onRuntime _) (fun _ _ h => h) fun _ _ h => h.elim)
  intro _ r₁ h₁
  apply Post.bind (Post.mono (post_call h₁ _) (fun _ _ h => h) fun _ _ h _ => h)
  intro _ r₂ h₂
  exact Post.mono (h₂.onRuntime _) (fun _ _ h => h) fun _ _ h => h.elim

theorem post_triggerSim (h : Equipped radio l r) (ht : r.mRuntime = some t) {tp : TimePoint}
    (htp : t.mLastTrigger ≤ t.advanceTo tp) (reply : Reply) :
    Post (triggerSim tp reply) r (fun _ r' => Equipped radio (l ++ reply.requests) r') fun e _ =>
      reply.failure = none → AccessInterface.Doubles (l ++ reply.requests) e := by
  have hforward : decide (t.advanceTo tp ≥ t.mLastTrigger) = true := decide_eq_true htp
  simp only [triggerSim]
  rw [post_bind_of_ok (getRuntime_apply ht), hforward, enforce_true, post_bind_of_ok (pure_apply _ _)]
  exact Post.mono (post_trigger h ht _ reply) (fun _ _ h => h) fun _ _ h => h htp

/-! ### Initialisation -/

/-- Whatever the timers that are due in `initRouter` request is dropped. -/
theorem equipped_triggerPending (h : Equipped radio [] r) (reply : Reply) (turns : Nat) :
    Returns (triggerPending reply turns) r fun _ r' => Equipped radio [] r' := by
  induction turns generalizing r with
  | zero => exact h
  | succ turns ih =>
    obtain ⟨t, ht⟩ := h.mRuntime
    simp only [triggerPending]
    by_cases hfits : t.NowToNextFits
    swap
    · exact returns_nowToNext_overflow ht hfits _
    rw [Returns, post_bind_of_ok (getNowToNext_apply ht hfits)]
    split_ifs
    swap
    · exact h
    rw [post_bind_of_ok (getRuntime_apply ht)]
    refine Post.bind (Post.mono (post_trigger h ht _ reply) (fun _ _ h => h) fun _ _ _ => trivial)
      fun _ r₁ h₁ => ?_
    refine Post.bind (M := fun _ r' => Equipped radio [] r') ?_ fun _ _ h => ih h
    obtain ⟨i, hi, hl⟩ := h₁.mAccessInterface
    have hdrop : onAccessInterface AccessInterface.dropTransmission r₁ = .ok () _ :=
      onAccessInterface_of_ok hi (modify_apply _ _)
    simp only [Post]
    rw [hdrop]
    exact { h₁ with mAccessInterface := ⟨_, rfl, hl.mCacheQuery, .inl ⟨rfl, rfl⟩⟩ }

/-- The access interface is constructed last, and without a request. -/
theorem equipped_constructAll (hradio : r.mRadioObject = some radio) (start : TimePoint)
    (id : ObjectId) (replies : Replies) :
    Returns (constructAll start id replies) r fun _ r' => Equipped radio [] r' := by
  have hradio' : Returns (constructAll start id replies) r fun _ r' => r'.mRadioObject = some radio :=
    Post.mono (post_of_state (I := fun r' => r'.mRadioObject = some radio)
      (((program_constructAll start id replies).prepared r).mRadioObject.trans hradio))
      (fun _ _ h => h) fun _ _ _ => trivial
  have hinterface : Returns (constructAll start id replies) r fun _ r' =>
      ∃ i, r'.mAccessInterface = some i ∧ i.Holds [] := by
    have hany : ∀ {α : Type} (x : EStateM Failure Router α) (r : Router),
        Post x r (fun _ _ => True) fun _ _ => True := fun _ _ => post_of_state trivial
    refine Post.bind (hany _ r) fun _ r _ => Post.bind (hany _ r) fun _ r _ => ?_
    refine Post.bind (hany _ r) fun _ r _ => Post.bind (hany _ r) fun _ r _ => ?_
    refine Post.bind (hany _ r) fun _ r _ => Post.bind (hany _ r) fun _ r _ => ?_
    refine Post.bind (M := fun _ r' => r'.mAccessInterface = some {}) ?_ fun _ r hi => ?_
    · exact Post.bind (hany _ r) fun _ _ _ => post_modify rfl
    · have hinit : onAccessInterface (AccessInterface.initializeCache id) r = .ok () _ :=
        onAccessInterface_of_ok hi (modify_apply _ _)
      simp only [Post]
      rw [hinit]
      exact ⟨_, rfl, rfl, .inl ⟨rfl, rfl⟩⟩
  refine Post.mono ((((returns_constructAll start id replies r).and_returns
    (constructAll_mRouter start id replies r)).and_returns hradio').and_returns hinterface) ?_
    fun _ _ _ => trivial
  rintro _ r' ⟨⟨⟨ht, hrouter⟩, hradio⟩, hinterface⟩
  exact ⟨hrouter, ⟨_, ht⟩, hradio, hinterface⟩

end

/-! ## What a task makes -/

/-- The transmission `d` is to be started at the object with the id `rid`. -/
structure StartsTransmission (rid : ObjectId) (d : DataPtr) (a : Action) : Prop where
  kind : a.kind = .durationAction
  mAffectedObject : a.mAffectedObject = rid
  mType : a.mType = "transmissionStart"
  mActionData : a.mActionData = some d

/-- The action has not been scheduled, and can be as long as `bound` has not passed. -/
structure Unscheduled (bound : TimePoint) (a : Action) : Prop where
  mActionId : a.mActionId = 0
  mStateMachine : a.mStateMachine = .waiting
  mStartTime : bound ≤ a.mStartTime

/-- Of what a task has made, `before` comes before `sent`, the actions for the transmissions `l`. -/
structure Stock (rid : ObjectId) (bound : TimePoint) (l : List DataPtr)
    (before sent : List ActionPtr) (s : Core Network) : Prop where
  nodup : (before ++ sent).Nodup
  others : ∀ p ∈ before, p < s.actions.next ∧ Unscheduled bound (s.actions.cell p) ∧
    (s.actions.cell p).mType ≠ "transmissionStart"
  sends : List.Forall₂ (fun d p => p < s.actions.next ∧ Unscheduled bound (s.actions.cell p) ∧
    StartsTransmission rid d (s.actions.cell p)) l sent

/-- An initialised router and its radio, while the transmissions `l` wait in the access interface. -/
structure Ready (this radio : ObjectPtr) (rid : ObjectId) (l : List DataPtr) (s : Core Network) :
    Prop where
  placed : Placed this s
  equipped : Equipped radio l (s.world this)
  made : radio < s.objects.next
  mObjectId : (s.objects.cell radio).mObjectId = rid
  valid : rid.valid = true

/-- The transmission has been taken out of the access interface. -/
def takeTransmission (r : Router) : Router :=
  { r with mAccessInterface := r.mAccessInterface.map fun i =>
      { i with mHasRequest := false, mCurrentTransmission := none } }

/-- What `scheduleTransmission` makes. -/
def transmissionAction (start : TimePoint) (rid id : ObjectId) (d : DataPtr) : Action :=
  { kind := .durationAction, mDuration := Duration.milliseconds 2, mStartTime := start,
    mAffectedObject := rid, mGeneratingObject := id, mType := "transmissionStart",
    mActionData := some d }

section
variable {this radio : ObjectPtr} {rid : ObjectId} {l : List DataPtr} {s s' : Core Network}
  {before sent : List ActionPtr} {bound : TimePoint}

theorem getInterface_apply {i : AccessInterface} (hi : (s.world this).mAccessInterface = some i) :
    onRouter this (onAccessInterface get) s = .ok i s := by
  rw [onRouter_of_ok this s (onAccessInterface_of_ok hi (get_apply i)), ← hi, update_self]

theorem scheduleTransmission_none (h : Ready this radio rid [] s) (data : RouterUpdateData)
    (a : ActionPtr) (receivers : Option Failure) :
    scheduleTransmission this data a receivers s = .ok data s := by
  obtain ⟨i, hi, hl⟩ := h.equipped.mAccessInterface
  rcases hl.waits with ⟨hfree, -⟩ | ⟨d, -, -, hnil⟩
  · simp only [scheduleTransmission]
    rw [bind_apply, getInterface_apply hi]
    simp only [hfree, Bool.false_eq_true, if_false, pure_apply]
  · cases hnil

theorem scheduleTransmission_some {d : DataPtr} (h : Ready this radio rid [d] s)
    (data : RouterUpdateData) {a : ActionPtr} (ha : a < s.actions.next)
    (hend : 0 ≤ (s.actions.cell a).getEndTime + Duration.milliseconds 1) :
    scheduleTransmission this data a none s =
      .ok { data with
          transmission := some d
          actionsToSchedule := data.actionsToSchedule ++ [s.actions.next] }
        { update this takeTransmission s with
          actions := s.actions.alloc (transmissionAction
            ((s.actions.cell a).getEndTime + Duration.milliseconds 1) rid
            (s.objects.cell this).mObjectId d) } := by
  obtain ⟨i, hi, hl⟩ := h.equipped.mAccessInterface
  have hbusy : i.mHasRequest = true := by
    rcases hl.waits with ⟨-, hnil⟩ | ⟨d', hbusy, -, -⟩
    · cases hnil
    · exact hbusy
  have htake : onRouter this (onAccessInterface (AccessInterface.getTransmission none)) s =
      .ok (some d) (update this takeTransmission s) := by
    rw [onRouter_of_ok this s
      (onAccessInterface_of_ok hi (AccessInterface.getTransmission_apply hl))]
    simp [update, takeTransmission, hi]
  have hparts : (update this takeTransmission s).world this = takeTransmission (s.world this) :=
    update_world _
  have hradio : (takeTransmission (s.world this)).mRadioObject = some radio :=
    h.equipped.mRadioObject
  have hcreate : ActionFactory.create .durationAction (Duration.milliseconds 2)
      ((s.actions.cell a).getEndTime + Duration.milliseconds 1) rid (s.objects.cell this).mObjectId
      (update this takeTransmission s) = _ := ActionFactory.create_apply h.valid hend _
  have htype : ∀ b : Action, Action.setType "transmissionStart" b =
    .ok () { b with mType := "transmissionStart" } := fun _ => rfl
  have hdata : ∀ b : Action, b.mActionData = none →
      Action.setActionData d b = .ok () { b with mActionData := some d } := by
    intro b hb
    simp [Action.setActionData, bind_apply, get_apply, modify_apply, hb]
  simp only [scheduleTransmission]
  refine bind_eq_ok.2 ⟨i, s, getInterface_apply hi, ?_⟩
  rw [if_pos hbusy]
  refine bind_eq_ok.2 ⟨_, _, htake, bind_eq_ok.2 ⟨_, _, getAction_of_lt ha, ?_⟩⟩
  refine bind_eq_ok.2 ⟨_, _, getRouter_apply, ?_⟩
  rw [hparts, hradio]
  refine bind_eq_ok.2 ⟨_, _, getObject_of_lt h.made, ?_⟩
  refine bind_eq_ok.2 ⟨_, _, getObject_of_lt h.placed.object, ?_⟩
  rw [show ((update this takeTransmission s).objects.cell radio).mObjectId = rid from h.mObjectId]
  refine bind_eq_ok.2 ⟨_, _, hcreate, ?_⟩
  refine bind_eq_ok.2 ⟨_, _, onAction_newest (htype _) _, ?_⟩
  exact bind_eq_ok.2 ⟨_, _, onAction_newest (hdata _ rfl) _, rfl⟩

theorem Stock.mono (h : Stock rid bound l before sent s) (hnext : s.actions.next ≤ s'.actions.next)
    (hcell : ∀ p < s.actions.next, s'.actions.cell p = s.actions.cell p) :
    Stock rid bound l before sent s' where
  nodup := h.nodup
  others p hp := by
    obtain ⟨hlt, hrest⟩ := h.others p hp
    exact ⟨hlt.trans_le hnext, by rwa [hcell p hlt]⟩
  sends := h.sends.imp fun d p ⟨hlt, hrest⟩ => ⟨hlt.trans_le hnext, by rwa [hcell p hlt]⟩

theorem Stock.made (h : Stock rid bound l before sent s) {p : ActionPtr} (hp : p ∈ before ++ sent) :
    p < s.actions.next ∧ Unscheduled bound (s.actions.cell p) := by
  rcases List.mem_append.1 hp with hp | hp
  · obtain ⟨hlt, hunscheduled, -⟩ := h.others p hp
    exact ⟨hlt, hunscheduled⟩
  · obtain ⟨d, -, hlt, hunscheduled, -⟩ := exists_of_mem_left h.sends.flip p hp
    exact ⟨hlt, hunscheduled⟩

theorem Ready.prepares (h : Ready this radio rid l s) (hs : Prepares this s s') {l' : List DataPtr}
    (he : Equipped radio l' (s'.world this)) : Ready this radio rid l' s' where
  placed := hs.placed h.placed
  equipped := he
  made := by rw [hs.objects]; exact h.made
  mObjectId := by rw [hs.objects]; exact h.mObjectId
  valid := h.valid

theorem Equipped.takeTransmission {r : Router} (h : Equipped radio l r) :
    Equipped radio [] (takeTransmission r) := by
  obtain ⟨i, hi, hl⟩ := h.mAccessInterface
  exact { h with mAccessInterface := ⟨_, by simp [Router.takeTransmission, hi], hl.taken⟩ }

/-- The transmission that waits is sent. -/
theorem scheduleTransmission_ok (h : Ready this radio rid l s) {a : ActionPtr}
    (ha : a < s.actions.next) (hend : 0 ≤ (s.actions.cell a).getEndTime + Duration.milliseconds 1)
    (hbound : bound ≤ (s.actions.cell a).getEndTime + Duration.milliseconds 1)
    (data : RouterUpdateData) (hstock : Stock rid bound [] data.actionsToSchedule [] s) :
    ∃ sent data' s', scheduleTransmission this data a none s = .ok data' s' ∧
      data'.actionsToSchedule = data.actionsToSchedule ++ sent ∧
      Stock rid bound l data.actionsToSchedule sent s' ∧ Prepares this s s' ∧
      Equipped radio [] (s'.world this) ∧ (s'.world this).mRuntime = (s.world this).mRuntime := by
  have hlength := h.equipped.length_le
  cases l with
  | nil =>
    exact ⟨[], data, s, scheduleTransmission_none h data a none, (List.append_nil _).symm, hstock,
      .refl s, h.equipped, rfl⟩
  | cons d l =>
    obtain rfl : l = [] := List.length_eq_zero_iff.1 (Nat.le_zero.1 (Nat.le_of_succ_le_succ hlength))
    have hparts : ∀ actions, ({ update this takeTransmission s with actions } : Core Network).world
        this = takeTransmission (s.world this) := fun _ => update_world _
    have hprep : Prepares this s { update this takeTransmission s with
        actions := s.actions.alloc (transmissionAction
          ((s.actions.cell a).getEndTime + Duration.milliseconds 1) rid
          (s.objects.cell this).mObjectId d) } :=
      ⟨by rw [hparts]; exact { Prepared.refl _ with }, Nat.le_succ _,
        fun p hp => Heap.alloc_cell_of_lt hp, rfl⟩
    have hnew : ∀ p ∈ data.actionsToSchedule, p ≠ s.actions.next :=
      fun p hp => (hstock.others p hp).1.ne
    refine ⟨[s.actions.next], _, _, scheduleTransmission_some h data ha hend, rfl, ?_, hprep, ?_, ?_⟩
    · refine ⟨?_, (hstock.mono hprep.actions hprep.action).others, .cons ⟨Nat.lt_succ_self _, ?_⟩ .nil⟩
      · rw [List.nodup_append]
        exact ⟨by simpa using hstock.nodup, List.nodup_singleton _, fun p hp q hq =>
          List.mem_singleton.1 hq ▸ hnew p hp⟩
      · rw [Heap.alloc_cell_self]
        exact ⟨⟨rfl, rfl, hbound⟩, ⟨rfl, rfl, rfl, rfl⟩⟩
    · rw [hparts]
      exact h.equipped.takeTransmission
    · rw [hparts]
      rfl

/-- What a task that returns `data` in `s'` has made for the transmissions `l`, `reports` being what the
runtime had reported before. -/
structure Yields (this radio : ObjectPtr) (rid : ObjectId) (bound start : TimePoint)
    (l : List DataPtr) (reports : List TimePoint) (data : RouterUpdateData) (s' : Core Network) :
    Prop where
  equipped : Equipped radio [] (s'.world this)
  room : l.length ≤ 1
  stock : ∃ before sent after, data.actionsToSchedule = before ++ sent ++ after ∧
    Stock rid bound l before sent s' ∧ ∀ p ∈ after, (s'.actions.cell p).mType ≠ "transmissionStart"
  reports : ∃ d, start < d ∧ (s'.world this).reports = reports ++ [d]

/-- Why a task throws: there is no room for the transmissions `l`, or no deadline is left to report. -/
def Fails (l : List DataPtr) (leaves : Prop) (e : Failure) : Prop :=
  AccessInterface.Doubles l e ∨ e = .overflow ∧ ¬ leaves

theorem Fails.not_and {leaves : Prop} {e : Failure} (h : Fails l leaves e) :
    ¬ (leaves ∧ l.length ≤ 1) := by
  rintro ⟨hleaves, hroom⟩
  rcases h with ⟨-, hfull⟩ | ⟨-, hnot⟩
  · exact absurd hroom (Nat.not_le.2 hfull)
  · exact hnot hleaves

theorem equipped_scheduleNextUpdate (hs : Placed this s) (h : Equipped radio l (s.world this))
    (data : RouterUpdateData) : Returns (scheduleNextUpdate this data) s fun _ s' =>
      Equipped radio l (s'.world this) ∧ (s'.world this).mInitDone = (s.world this).mInitDone := by
  obtain ⟨t, ht⟩ := h.mRuntime
  unfold Returns Post
  by_cases hfits : t.NextStartFits
  swap
  · rw [scheduleNextUpdate_overflow ht hfits]
    trivial
  rw [scheduleNextUpdate_apply hs ht hfits]
  have hkeeps : ∀ (s' : Core Network) (r : Router), s'.world this = r →
      Equipped radio l r ∧ r.mInitDone = (s.world this).mInitDone →
      Equipped radio l (s'.world this) ∧ (s'.world this).mInitDone = (s.world this).mInitDone := by
    rintro s' _ rfl h
    exact h
  dsimp only
  split_ifs
  · exact hkeeps _ _ (update_world _) ⟨{ h with }, rfl⟩
  · exact hkeeps _ _ (update_world _) ⟨{ h with }, rfl⟩
  · trivial

/-- The next update comes last. -/
theorem scheduleNextUpdate_ok (h : Ready this radio rid [] s) {t : Runtime}
    (ht : (s.world this).mRuntime = some t) (hfits : t.NextStartFits) {start : TimePoint}
    (hstart : 0 ≤ start) (hd : start < t.getNextStart) (data : RouterUpdateData)
    (hdata : data.actionsToSchedule = before ++ sent) (hroom : l.length ≤ 1)
    (hstock : Stock rid bound l before sent s) :
    ∃ data' s', scheduleNextUpdate this data s = .ok data' s' ∧
      Yields this radio rid bound start l (s.world this).reports data' s' := by
  rw [scheduleNextUpdate_apply h.placed ht hfits]
  dsimp only
  by_cases hnext : t.getNextStart = nextStart this s
  · rw [if_pos hnext]
    refine ⟨_, _, rfl, ?_, hroom, ⟨before, sent, [], by rw [hdata, List.append_nil],
      hstock.mono (Nat.le_refl _) fun _ _ => rfl, nofun⟩, _, hd, ?_⟩
    · rw [update_world]
      exact { h.equipped with }
    · rw [update_world]
      rfl
  · rw [if_neg hnext, if_pos (hstart.trans hd.le)]
    have hparts : ∀ actions, ({ update this (track s.actions.next ∘ report t.getNextStart) s with
        actions } : Core Network).world this =
        track s.actions.next (report t.getNextStart (s.world this)) := fun _ => update_world _
    refine ⟨_, _, rfl, ?_, hroom, ⟨before, sent, [s.actions.next], by rw [hdata],
      hstock.mono (Nat.le_succ _) fun p hp => Heap.alloc_cell_of_lt hp, fun p hp => ?_⟩, _, hd, ?_⟩
    · rw [hparts]
      exact { h.equipped with }
    · rw [List.mem_singleton.1 hp, Heap.alloc_cell_self]
      exact (by decide : ("update" : Symbol) ≠ "transmissionStart")
    · rw [hparts]
      rfl

theorem post_onRouter {α : Type} {x : EStateM Failure Router α} (hx : Program x)
    {Q : Router → Prop} {E : Failure → Prop}
    (hpost : Post x (s.world this) (fun _ r => Q r) fun e _ => E e) :
    Post (onRouter this x) s (fun _ s' => Prepares this s s' ∧ Q (s'.world this)) fun e _ => E e :=
  have hworld : Post (onRouter this x) s (fun _ s' => Q (s'.world this)) fun e _ => E e :=
    post_zoom (Post.mono hpost (fun _ _ h => by simpa using h) fun _ _ h => h)
  Post.mono ((preparing_onRouter (.refl s) hx).and hworld) (fun _ _ h => h) fun _ _ h => h.2

variable {t : Runtime} {a : ActionPtr} (replies : Replies)

theorem post_commonActions (h : Ready this radio rid l s) (ht : (s.world this).mRuntime = some t)
    (ha : a < s.actions.next) (hstart : 0 ≤ (s.actions.cell a).mStartTime)
    (hend : (s.actions.cell a).mStartTime ≤ (s.actions.cell a).getEndTime)
    (htrigger : t.mLastTrigger ≤ t.advanceTo (s.actions.cell a).mStartTime)
    (hposition : replies.updatePosition.failure = none) (hreply : replies.trigger.failure = none)
    (hreceivers : replies.receivers = none) (data : RouterUpdateData)
    (hstock : Stock rid (s.actions.cell a).getEndTime [] data.actionsToSchedule [] s) :
    let l' := l ++ (replies.updatePosition.requests ++ replies.trigger.requests)
    let leaves := t.LeavesDeadline (s.actions.cell a).mStartTime replies.trigger
    Post (commonActions this data a replies) s
      (fun data' s' => Yields this radio rid (s.actions.cell a).getEndTime
        (s.actions.cell a).mStartTime l' (s.world this).reports data' s' ∧ leaves)
      fun e _ => Fails l' leaves e := by
  intro l' leaves
  have hlater : (s.actions.cell a).getEndTime ≤
      (s.actions.cell a).getEndTime + Duration.milliseconds 1 := Int.le_add_of_nonneg_right (by decide)
  simp only [commonActions]
  have hfirst : ∀ e, AccessInterface.Doubles (l ++ replies.updatePosition.requests) e →
      Fails l' leaves e := fun e he =>
    .inl (by simpa [l'] using he.append replies.trigger.requests)
  have hcall := (post_callRouter h.equipped replies.updatePosition).and_returns
    (returns_callRouter ht _)
  refine Post.bind (Post.mono (post_onRouter (program_callRouter _) hcall) (fun _ _ h => h)
    fun e _ he => hfirst e (he hposition)) ?_
  rintro _ s₁ ⟨hprep₁, hequipped₁, ht₁⟩
  have hget : getAction a s₁ = .ok (s.actions.cell a) s₁ := by
    rw [getAction_of_lt (ha.trans_le hprep₁.actions), hprep₁.action a ha]
  rw [post_bind_of_ok hget]
  have htrigger' := (post_triggerSim hequipped₁ ht₁ htrigger replies.trigger).and_returns
    (returns_triggerSim ht₁ _ _)
  refine Post.bind (Post.mono (post_onRouter (program_triggerSim _ _) htrigger') (fun _ _ h => h)
    fun e _ he => .inl (by simpa [l'] using he hreply)) ?_
  rintro _ s₂ ⟨hprep₂, hequipped₂, now, last, ht₂⟩
  rw [List.append_assoc] at hequipped₂
  have hprep := hprep₁.trans hprep₂
  have hcell := hprep.action a ha
  obtain ⟨sent, data', s₃, hrun₃, hdata, hstock₃, hprep₃, hequipped₃, ht₃⟩ :=
    scheduleTransmission_ok (h.prepares hprep hequipped₂) (ha.trans_le hprep.actions)
      (by rw [hcell]; exact (hstart.trans hend).trans hlater) (by rw [hcell]; exact hlater) data
      (hstock.mono hprep.actions hprep.action)
  rw [hreceivers, post_bind_of_ok hrun₃]
  have hprep' := hprep.trans hprep₃
  by_cases hfits : leaves
  · obtain ⟨data'', s', hrun, hyields⟩ := scheduleNextUpdate_ok (h.prepares hprep' hequipped₃)
      (ht₃.trans ht₂) hfits hstart
      (Runtime.lt_getNextStart _ ((Int.lt_succ _).trans_le (le_max_right ..))) data' hdata
      hequipped₂.length_le hstock₃
    simp only [Post]
    rw [hrun]
    rw [hprep'.router.reports] at hyields
    exact ⟨hyields, hfits⟩
  · simp only [Post]
    rw [scheduleNextUpdate_overflow (ht₃.trans ht₂) hfits]
    exact .inr ⟨rfl, hfits⟩

end

/-! ## Tasks -/

/-- Vanetza throws nothing of its own, and the receivers of a transmission are searched in a container
that vehicles have been added to and removed from. -/
structure Regular (replies : Replies) : Prop where
  triggerCam : replies.triggerCam.failure = none
  indicate : replies.indicate.failure = none
  updatePosition : replies.updatePosition.failure = none
  trigger : replies.trigger.failure = none
  receivers : ∃ (π : Type) (x : ObjectId) (S : Networking.Scene π),
    Reachable (Networking.Scene.Init x) Networking.Scene.Step S ∧ S.access.mHasRequest = true ∧
      replies.receivers =
        (Networking.AccessInterface.getTransmission S.containers S.current S.core).error?

/-- An initialised router with its radio, between two tasks. -/
structure Initialised (this radio : ObjectPtr) (rid : ObjectId) (s : Core Network) : Prop where
  mInitDone : (s.world this).mInitDone = true
  ready : Ready this radio rid (pending (s.world this)) s
  empty : (s.world this).mTracker.mNextStart = none ↔ (s.world this).mTracker.mNextEnd = none

/-- The fiber `number` has been launched for `a`, and the time has not been passed yet. -/
structure Due (this : ObjectPtr) (a : ActionPtr) (number : Nat) (s : Core Network) : Prop where
  made : a < s.actions.next
  mType : (s.actions.cell a).mType ∈ (["caUpdate", "update", "indication"] : List Symbol)
  mDuration : (s.actions.cell a).mDuration = Duration.milliseconds 2
  mStartTime : 0 ≤ (s.actions.cell a).mStartTime
  mActionData : (s.actions.cell a).mType = "indication" → (s.actions.cell a).mActionData ≠ none
  fiber : (s.world this).fibers[number]? = some ⟨taskOf (s.actions.cell a).mType, a, none⟩
  mFuture : (s.world this).mFuture = some number
  onTime : ∀ t, (s.world this).mRuntime = some t →
    t.mLastTrigger ≤ t.advanceTo (s.actions.cell a).mStartTime

/-- The transmissions that are requested during a task of an initialised router. -/
def requested (task : RouterTask) (replies : Replies) : List DataPtr :=
  (match task with
    | .caUpdate => if replies.course then replies.triggerCam.requests else []
    | .transmissionReceived => replies.indicate.requests
    | .executeUpdate | .initRouter => []) ++
  (replies.updatePosition.requests ++ replies.trigger.requests)

section
variable {this radio : ObjectPtr} {rid : ObjectId} {s s' : Core Network} {a : ActionPtr}
  {number : Nat} {replies : Replies}

theorem Regular.receivers_eq (h : Regular replies) : replies.receivers = none := by
  obtain ⟨π, x, S, hreach, hrequest, heq⟩ := h.receivers
  obtain ⟨radio, rid, r₀, hb, hrouters, hinv⟩ := Networking.Scene.inv_of_reachable hreach
  obtain ⟨t, cache, hok, -⟩ := hinv.getTransmission_ok hb hrouters hrequest
  rw [heq, hok]
  rfl

/-- The task that an action launches is due. -/
theorem due_of_launches {s₀ : Core Network} (hstart : startExecution this a s₀ = .ok () s)
    (hlaunches : Launches this a s₀) (ha : a < s₀.actions.next)
    (htype : (s₀.actions.cell a).mType ∈ (["caUpdate", "update", "indication"] : List Symbol))
    (hduration : (s₀.actions.cell a).mDuration = Duration.milliseconds 2)
    (h0 : 0 ≤ (s₀.actions.cell a).mStartTime)
    (hdata : (s₀.actions.cell a).mType = "indication" → (s₀.actions.cell a).mActionData ≠ none)
    (honTime : ∀ t, (s₀.world this).mRuntime = some t →
      t.mLastTrigger ≤ t.advanceTo (s₀.actions.cell a).mStartTime) :
    Due this a (s₀.world this).fibers.length s := by
  have htypes : (s₀.actions.cell a).mType ∈ types := by
    simp only [types, List.mem_cons, List.not_mem_nil, or_false] at htype ⊢
    tauto
  rcases startExecution_eq_ok ha htypes hstart with ⟨-, rfl⟩ | ⟨hnot, -⟩
  · have hworld : (update this (withFiber (taskOf (s₀.actions.cell a).mType) a) s₀).world this = _ :=
      update_world _
    exact ⟨ha, htype, hduration, h0, hdata, by rw [hworld]; exact List.getElem?_concat_length,
      by rw [hworld]; rfl,
      by rw [hworld]; exact honTime⟩
  · exact absurd hlaunches hnot

theorem Due.le_getEndTime (h : Due this a number s) :
    (s.actions.cell a).mStartTime ≤ (s.actions.cell a).getEndTime := by
  simp only [Action.getEndTime]
  rw [h.mDuration]
  exact Int.le_add_of_nonneg_left (by decide)

/-- The task returns with what has been requested of it, or throws because there is too much or because
no deadline is left. -/
abbrev Delivers (this radio : ObjectPtr) (rid : ObjectId) (a : ActionPtr) (l : List DataPtr)
    (leaves : Prop) (s : Core Network) (x : CoreM Network RouterUpdateData) : Prop :=
  Post x s
    (fun data s' => Yields this radio rid (s.actions.cell a).getEndTime
      (s.actions.cell a).mStartTime l (s.world this).reports data s' ∧ leaves)
    fun e _ => Fails l leaves e

/-- `initRouter` makes an initialised router of one that knows its radio. -/
theorem initialised_initRouter (hs : Placed this s) (htracker : (s.world this).mTracker = {})
    (hradio : (s.world this).mRadioObject = some radio) (hmade : radio < s.objects.next)
    (hid : (s.objects.cell radio).mObjectId = rid) (hvalid : rid.valid = true) :
    Returns (initRouter this a replies) s fun _ s' => Initialised this radio rid s' := by
  have hequipped : Returns (initRouter this a replies) s fun _ s' =>
      Equipped radio [] (s'.world this) ∧ (s'.world this).mInitDone = true := by
    have hstart := preparing_getAction (.refl s : Prepares this s s) a
    refine Post.bind (Post.mono hstart (fun _ _ h => h) fun _ _ _ => trivial) ?_
    rintro _ s ⟨rfl, -, -⟩
    apply Post.bind (returns_getObject this)
    rintro _ s rfl
    refine Post.bind (returns_onRouter (program_constructAll _ _ _)
      (equipped_constructAll hradio _ _ _)) ?_
    rintro _ s₁ ⟨hprep₁, h₁⟩
    refine Post.bind (returns_onRouter (program_triggerPending _ _)
      (equipped_triggerPending h₁ _ _)) ?_
    rintro _ s₂ ⟨hprep₂, h₂⟩
    rw [post_bind_of_ok (onRouter_modify _)]
    have hprep := hprep₁.trans hprep₂
    have hs₃ := (hprep.placed hs).update (f := fun r => { r with mInitDone := true }) rfl
    have hdone : (update this (fun r => { r with mInitDone := true }) s₂).world this =
      { s₂.world this with mInitDone := true } := update_world _
    refine Post.bind (M := fun _ s' => Placed this s' ∧
      s'.world this = { s₂.world this with mInitDone := true }) ?_ ?_
    · simp only [Post]
      rw [createAction_apply hs₃]
      split_ifs
      · exact ⟨(Prepares.alloc _ _).placed hs₃, hdone⟩
      · trivial
    · rintro p s₄ ⟨hs₄, hworld⟩
      have h₄ : Equipped radio [] (s₄.world this) := by
        rw [hworld]
        exact { h₂ with }
      exact Post.mono (equipped_scheduleNextUpdate hs₄ h₄ _)
        (fun _ _ h => ⟨h.1, h.2.trans (by rw [hworld])⟩) fun _ _ _ => trivial
  have hworking := working_runTask hs .initRouter a replies
  refine Post.mono (hequipped.and hworking) ?_ fun _ _ _ => trivial
  rintro data s' ⟨⟨hequipped, hdone⟩, ds, hworks⟩
  have hempty := hworks.empty (by rw [htracker])
  refine ⟨hdone, ⟨hworks.placed hs, ?_, ?_, ?_, hvalid⟩, hempty⟩
  · exact hequipped.self
  · rwa [hworks.objects]
  · rwa [hworks.objects]

/-- What has been requested before `commonActions` is delivered with it. -/
theorem delivers_commonActions (hdue : Due this a number s) (hreplies : Regular replies)
    {s₁ : Core Network} (hprep : Prepares this s s₁) {l : List DataPtr}
    (h : Ready this radio rid l s₁) {t : Runtime} (ht : (s₁.world this).mRuntime = some t)
    (honTime : t.mLastTrigger ≤ t.advanceTo (s.actions.cell a).mStartTime) (data : RouterUpdateData)
    (hstock : Stock rid (s.actions.cell a).getEndTime [] data.actionsToSchedule [] s₁) :
    let l' := l ++ (replies.updatePosition.requests ++ replies.trigger.requests)
    let leaves := t.LeavesDeadline (s.actions.cell a).mStartTime replies.trigger
    Post (commonActions this data a replies) s₁
      (fun data s' => Yields this radio rid (s.actions.cell a).getEndTime
        (s.actions.cell a).mStartTime l' (s.world this).reports data s' ∧ leaves)
      fun e _ => Fails l' leaves e := by
  have hcell := hprep.action a hdue.made
  have hcommon := post_commonActions replies h ht (hdue.made.trans_le hprep.actions)
    (by rw [hcell]; exact hdue.mStartTime) (by rw [hcell]; exact hdue.le_getEndTime)
    (by rw [hcell]; exact honTime) hreplies.updatePosition hreplies.trigger hreplies.receivers_eq data
    (by rw [hcell]; exact hstock)
  rwa [hcell, hprep.router.reports] at hcommon

theorem delivers_executeUpdate (h : Initialised this radio rid s) (hdue : Due this a number s)
    (hreplies : Regular replies) :
    Delivers this radio rid a (pending (s.world this) ++ requested .executeUpdate replies)
      ((s.world this).LeavesDeadline (s.actions.cell a).mStartTime replies.trigger) s
      (executeUpdate this a replies) := by
  obtain ⟨t, ht⟩ := h.ready.equipped.mRuntime
  rw [leavesDeadline_iff ht]
  exact delivers_commonActions hdue hreplies (.refl s) h.ready ht (hdue.onTime t ht) {}
    ⟨List.nodup_nil, nofun, .nil⟩

theorem delivers_transmissionReceived (h : Initialised this radio rid s) (hdue : Due this a number s)
    (hdata : (s.actions.cell a).mActionData ≠ none) (hreplies : Regular replies) :
    Delivers this radio rid a (pending (s.world this) ++ requested .transmissionReceived replies)
      ((s.world this).LeavesDeadline (s.actions.cell a).mStartTime replies.trigger) s
      (transmissionReceived this a replies) := by
  obtain ⟨t, ht⟩ := h.ready.equipped.mRuntime
  rw [leavesDeadline_iff ht]
  obtain ⟨d, hd⟩ := Option.ne_none_iff_exists'.1 hdata
  have hget : getAction a s = .ok (s.actions.cell a) s := getAction_of_lt hdue.made
  unfold Delivers transmissionReceived requested
  rw [post_bind_of_ok getRouter_apply, if_pos h.mInitDone, post_bind_of_ok hget, hd, ← List.append_assoc]
  have hcall := (post_indicate h.ready.equipped d replies.indicate).and_returns
    (returns_indicate ht d _)
  refine Post.bind (Post.mono (post_onRouter (program_indicate _ _) hcall) (fun _ _ h => h)
    fun e _ he => .inl ((he hreplies.indicate).append _)) ?_
  rintro _ s₁ ⟨hprep, hequipped, ht₁⟩
  exact delivers_commonActions hdue hreplies hprep (h.ready.prepares hprep hequipped) ht₁
    (hdue.onTime t ht) {} ⟨List.nodup_nil, nofun, .nil⟩

/-- `caUpdate` from where the next one is made. -/
theorem delivers_scheduleCa (hdue : Due this a number s) (hreplies : Regular replies)
    {s₁ : Core Network} (hprep : Prepares this s s₁) {l : List DataPtr}
    (h : Ready this radio rid l s₁) {t : Runtime} (ht : (s₁.world this).mRuntime = some t)
    (honTime : t.mLastTrigger ≤ t.advanceTo (s.actions.cell a).mStartTime) :
    let l' := l ++ (replies.updatePosition.requests ++ replies.trigger.requests)
    let leaves := t.LeavesDeadline (s.actions.cell a).mStartTime replies.trigger
    Post (do
      let start := (← getAction a).mStartTime
      let caAction ← createAction this (start + Duration.milliseconds 100) "caUpdate"
      commonActions this { actionsToSchedule := [caAction] } a replies) s₁
      (fun data s' => Yields this radio rid (s.actions.cell a).getEndTime
        (s.actions.cell a).mStartTime l' (s.world this).reports data s' ∧ leaves)
      fun e _ => Fails l' leaves e := by
  intro l' leaves
  have hget : getAction a s₁ = .ok (s.actions.cell a) s₁ := by
    rw [getAction_of_lt (hdue.made.trans_le hprep.actions), hprep.action a hdue.made]
  have hlater : 0 ≤ (s.actions.cell a).mStartTime + Duration.milliseconds 100 :=
    Int.add_nonneg hdue.mStartTime (by decide)
  have hcreate := createAction_apply h.placed
    ((s.actions.cell a).mStartTime + Duration.milliseconds 100) "caUpdate"
  rw [if_pos hlater] at hcreate
  have hprep' := hprep.trans (.alloc s₁ (selfAction (s₁.objects.cell this).mObjectId
    ((s.actions.cell a).mStartTime + Duration.milliseconds 100) "caUpdate"))
  rw [post_bind_of_ok hget, post_bind_of_ok hcreate]
  refine delivers_commonActions hdue hreplies hprep' (h.prepares (.alloc s₁ _) h.equipped) ht honTime
    _ ⟨List.nodup_singleton _, fun p hp => ?_, .nil⟩
  rw [List.mem_singleton.1 hp, Heap.alloc_cell_self]
  exact ⟨Nat.lt_succ_self _, ⟨rfl, rfl, getEndTime_le hdue.mDuration⟩,
    (by decide : ("caUpdate" : Symbol) ≠ "transmissionStart")⟩

theorem delivers_caUpdate (h : Initialised this radio rid s) (hdue : Due this a number s)
    (hreplies : Regular replies) :
    Delivers this radio rid a (pending (s.world this) ++ requested .caUpdate replies)
      ((s.world this).LeavesDeadline (s.actions.cell a).mStartTime replies.trigger) s
      (caUpdate this a replies) := by
  obtain ⟨t, ht⟩ := h.ready.equipped.mRuntime
  rw [leavesDeadline_iff ht]
  unfold Delivers caUpdate requested
  rw [post_bind_of_ok getRouter_apply, h.mInitDone, Bool.true_and, ← List.append_assoc]
  cases replies.course with
  | false =>
    simp only [Bool.false_eq_true, if_false, List.append_nil]
    exact delivers_scheduleCa hdue hreplies (.refl s) h.ready ht (hdue.onTime t ht)
  | true =>
    simp only [if_true]
    have hcall := (post_callRouter h.ready.equipped replies.triggerCam).and_returns
      (returns_callRouter ht _)
    refine Post.bind (Post.mono (post_onRouter (program_callRouter _) hcall) (fun _ _ h => h)
      fun e _ he => .inl ((he hreplies.triggerCam).append _)) ?_
    rintro _ s₁ ⟨hprep, hequipped, ht₁⟩
    have hcommon := delivers_scheduleCa hdue hreplies hprep (h.ready.prepares hprep hequipped) ht₁
      (hdue.onTime t ht)
    exact hcommon

theorem delivers_runTask (h : Initialised this radio rid s) (hdue : Due this a number s)
    (hreplies : Regular replies) :
    let task := taskOf (s.actions.cell a).mType
    Delivers this radio rid a (pending (s.world this) ++ requested task replies)
      ((s.world this).LeavesDeadline (s.actions.cell a).mStartTime replies.trigger) s
      (runTask this task a replies) := by
  have htypes := hdue.mType
  simp only [List.mem_cons, List.not_mem_nil, or_false] at htypes
  rcases htypes with hca | hup | hind
  · rw [hca]
    exact delivers_caUpdate h hdue hreplies
  · rw [hup]
    exact delivers_executeUpdate h hdue hreplies
  · rw [hind]
    exact delivers_transmissionReceived h hdue (hdue.mActionData hind) hreplies

end

/-! ## The end of the action -/

/-- What the task in the fiber has returned. -/
def returned (number : Nat) (r : Router) : Option RouterUpdateData :=
  match r.fibers[number]? with
  | some ⟨_, _, some (.ok data)⟩ => some data
  | _ => none

section
variable {this radio : ObjectPtr} {rid : ObjectId} {s s' : Core Network} {a : ActionPtr}
  {number : Nat} {replies : Replies}

theorem runFiber_apply {task : RouterTask} {result : Except Failure RouterUpdateData}
    (hfiber : (s.world this).fibers[number]? = some ⟨task, a, none⟩)
    (hrun : attempt (runTask this task a replies) s = .ok result s') :
    runFiber this number replies s = .ok () (update this (fun r =>
      { r with fibers := r.fibers.set number ⟨task, a, some result⟩ }) s') := by
  simp only [runFiber]
  rw [bind_apply, getRouter_apply]
  dsimp only
  rw [hfiber]
  exact bind_eq_ok.2 ⟨_, _, hrun, onRouter_modify _⟩

theorem attempt_of_ok {α : Type} {x : CoreM Network α} {b : α} (hx : x s = .ok b s') :
    attempt x s = .ok (.ok b) s' := by
  simp only [attempt]
  rw [tryCatch_apply, bind_apply, hx]
  rfl

theorem attempt_of_fails {α : Type} {x : CoreM Network α} {l : List DataPtr} {leaves : Prop}
    {e : Failure} (he : Fails l leaves e) (hx : x s = .error e s') :
    attempt x s = .ok (.error e) s' := by
  simp only [attempt]
  rw [tryCatch_apply, bind_apply, hx]
  rcases he with ⟨rfl, -⟩ | ⟨rfl, -⟩ <;> rfl

/-- The result of `action` has been fetched. -/
def takeFuture (action : ActionPtr) (r : Router) : Router :=
  { noteFetched action r with mFuture := none }

theorem getFuture_of_returned {task : RouterTask} {data : RouterUpdateData}
    (hfuture : (s.world this).mFuture = some number)
    (hfiber : (s.world this).fibers[number]? = some ⟨task, a, some (.ok data)⟩) :
    getFuture this a replies s =
      .ok data (update this (takeFuture a) s) := by
  have hnoted : (update this (noteFetched a) s).world this = noteFetched a (s.world this) :=
    update_world _
  have hrun : runFiber this number replies (update this (noteFetched a) s) =
      .ok () (update this (noteFetched a) s) := by
    simp only [runFiber]
    rw [bind_apply, getRouter_apply, hnoted]
    dsimp only [noteFetched]
    rw [hfiber]
    rfl
  simp only [getFuture]
  rw [bind_apply, onRouter_modify]
  dsimp only
  rw [bind_apply, getRouter_apply, hnoted]
  dsimp only [noteFetched]
  rw [hfuture]
  refine bind_eq_ok.2 ⟨_, _, hrun, bind_eq_ok.2 ⟨_, _, onRouter_modify _, ?_⟩⟩
  rw [update_update]
  refine bind_eq_ok.2 ⟨_, _, getRouter_apply, ?_⟩
  rw [update_world]
  dsimp only [noteFetched, Function.comp]
  rw [hfiber]
  rfl

/-- Whatever comes after the actions of the result have been scheduled, they stay scheduled. -/
theorem commit_state {task : RouterTask} {data : RouterUpdateData} (setup : Option Failure)
    (hfuture : (s.world this).mFuture = some number)
    (hfiber : (s.world this).fibers[number]? = some ⟨task, a, some (.ok data)⟩) :
    (commit this a replies setup s).state = (data.actionsToSchedule.forM Action.scheduleStartHandler
      (update this (takeFuture a) s)).state := by
  set s₁ := (data.actionsToSchedule.forM Action.scheduleStartHandler
    (update this (takeFuture a) s)).state with hs₁
  simp only [commit]
  refine Post.state (I := fun s' => s' = s₁) (Post.tryCatch (E := fun _ s' => s' = s₁) ?_ ?_)
  · rw [post_bind_of_ok (getFuture_of_returned hfuture hfiber)]
    apply Post.bind (post_of_state (I := fun s' => s' = s₁) hs₁.symm)
    intro _ s' h
    cases data.actionToDelete.isSome with
    | true => exact h
    | false =>
      cases data.transmission.isSome with
      | false => exact h
      | true => cases setup <;> exact h
  · rintro e s' h
    cases e <;> exact h

/-- An action that is started the way it ends is committed, after the tracker may have moved. -/
theorem endExecution_of_ends (ha : a < s.actions.next) (htype : (s.actions.cell a).mType ∈ types)
    (hends : Ends this a s) (setup : Option Failure) : ∃ s₁, (s₁ = s ∨ s₁ = update this moveEnd s) ∧
      endExecution this a replies setup s = commit this a replies setup s₁ := by
  have hget : getAction a s = .ok (s.actions.cell a) s := getAction_of_lt ha
  simp only [endExecution]
  rw [bind_apply, hget]
  dsimp only
  by_cases hup : (s.actions.cell a).mType = "update" ∨ (s.actions.cell a).mType = "indication"
  · have hend : AtEnd this a s := by
      apply hends.resolve_left
      rcases hup with h | h <;> simp [h]
    have hisEnd : onRouter this (onTracker (ActiveActionTracker.isEnd a)) s =
        .ok true (update this moveEnd s) := by
      cases hrun : onRouter this (onTracker (ActiveActionTracker.isEnd a)) s with
      | ok b s' =>
        rcases post_isEnd.ok hrun with ⟨rfl, -, rfl⟩ | ⟨-, hnot, -⟩
        · rfl
        · exact absurd hend hnot
      | error e s' => exact absurd hend (post_isEnd.error hrun).1
    refine ⟨_, .inr rfl, ?_⟩
    rw [if_pos hup, bind_apply, hisEnd]
    rfl
  · have hca : (s.actions.cell a).mType = "caUpdate" ∨ (s.actions.cell a).mType = "initRouter" := by
      simp only [types, List.mem_cons, List.not_mem_nil, or_false] at htype
      tauto
    exact ⟨s, .inl rfl, by rw [if_neg hup, if_pos hca]⟩

/-- After the fiber has run in `s₁`, others act until `a` is to end in `s₂`. -/
structure Waits (this : ObjectPtr) (a : ActionPtr) (number : Nat) (s₁ s₂ : Core Network) : Prop
    extends Elsewhere this (some a) s₁ s₂ where
  now : s₂.mCurrentActionTime = (s₁.actions.cell a).getEndTime
  /-- Nobody else has got what the task has made. -/
  held : ∀ data, returned number (s₁.world this) = some data → ∀ p ∈ data.actionsToSchedule,
    s₂.actions.cell p = s₁.actions.cell p ∧ ¬ s₂.Pending p

/-- The task has not failed, and of the actions that it has made exactly one is pending in `s'` that
starts the transmission `d` at the object with the id `rid`, for each `d` of `ds`. -/
def Transmits (this : ObjectPtr) (rid : ObjectId) (number : Nat) (ds : List DataPtr)
    (s₁ s' : Core Network) : Prop :=
  ∃ data, returned number (s₁.world this) = some data ∧ ∀ d ∈ ds, ∃! p,
    p ∈ data.actionsToSchedule ∧ StartsTransmission rid d (s₁.actions.cell p) ∧ s'.Pending p

/-- A task always has a later deadline reported to it, so `a` can end after it if and only if the
tracker has been waiting for that. -/
theorem atEnd_iff (hempty : (s.world this).mTracker.mNextStart = none ↔
      (s.world this).mTracker.mNextEnd = none) (hdue : Due this a number s) {d : TimePoint}
    (hd : (s.actions.cell a).mStartTime < d) (hworks : Works this [d] s s') :
    AtEnd this a s' ↔ (s.world this).mTracker.mNextEnd = some a := by
  have hd0 : 0 < d := hdue.mStartTime.trans_lt hd
  simp only [AtEnd]
  by_cases hsup : Supersedes this s [d]
  · obtain ⟨n, hn, -, htracker, -⟩ := hworks.supersedes hsup
    have hna : n ≠ a := (hdue.made.trans_le hn).ne'
    rw [htracker]
    cases hE : (s.world this).mTracker.mNextEnd with
    | none => simp [hna]
    | some e =>
      simp only [Option.some_or, Option.some.injEq, reduceCtorEq, or_false]
      exact ⟨And.left, fun he => ⟨he, by simpa [he] using hna.symm⟩⟩
  · have hnext : nextStart this s = d := by
      by_contra hne
      exact hsup ⟨d, List.mem_singleton_self d, hd0.le, fun h => hne h.symm⟩
    rw [hworks.keeps hsup]
    simp only [nextStart] at hnext
    cases hS : (s.world this).mTracker.mNextStart with
    | none =>
      rw [hS] at hnext
      exact absurd hnext hd0.ne
    | some p =>
      have hE : (s.world this).mTracker.mNextEnd ≠ none := fun h => by simp [hempty.2 h] at hS
      have hpa : p ≠ a := by
        rintro rfl
        rw [hS] at hnext
        exact hd.ne hnext
      simp only [hE, or_false]
      exact ⟨And.left, fun he => ⟨he, .inl (by simpa [he, hS] using hpa.symm)⟩⟩

/-- The task of the fiber has returned `data`, which is kept in `s₁`. -/
structure Ran (this radio : ObjectPtr) (rid : ObjectId) (a : ActionPtr) (number : Nat)
    (l : List DataPtr) (data : RouterUpdateData) (s s₁ : Core Network) : Prop where
  initialised : Initialised this radio rid s₁
  made : a < s₁.actions.next
  cell : s₁.actions.cell a = s.actions.cell a
  mFuture : (s₁.world this).mFuture = some number
  fiber : ∃ task, (s₁.world this).fibers[number]? = some ⟨task, a, some (.ok data)⟩
  atEnd : AtEnd this a s₁ ↔ (s.world this).mTracker.mNextEnd = some a
  stock : ∃ before sent after, data.actionsToSchedule = before ++ sent ++ after ∧
    Stock rid (s.actions.cell a).getEndTime l before sent s₁ ∧
    ∀ p ∈ after, (s₁.actions.cell p).mType ≠ "transmissionStart"

theorem Ran.returned_eq {l : List DataPtr} {data : RouterUpdateData}
    (h : Ran this radio rid a number l data s s') : returned number (s'.world this) = some data := by
  obtain ⟨task, hfiber⟩ := h.fiber
  simp only [returned]
  rw [hfiber]

/-- What the fiber leaves depends on whether there is room for what is requested and a deadline is
left. -/
theorem runFiber_cases (h : Initialised this radio rid s) (hdue : Due this a number s)
    (hreplies : Regular replies) :
    let l := pending (s.world this) ++ requested (taskOf (s.actions.cell a).mType) replies
    let leaves := (s.world this).LeavesDeadline (s.actions.cell a).mStartTime replies.trigger
    let s₁ := (runFiber this number replies s).state
    (leaves ∧ l.length ≤ 1 ∧ ∃ data, Ran this radio rid a number l data s s₁) ∨
      ¬ (leaves ∧ l.length ≤ 1) ∧ returned number (s₁.world this) = none := by
  intro l leaves s₁
  have hdelivers := delivers_runTask h hdue hreplies
  have hworking := working_runTask h.ready.placed (taskOf (s.actions.cell a).mType) a replies
  have hnumber : number < (s.world this).fibers.length :=
    (List.getElem?_eq_some_iff.1 hdue.fiber).1
  cases hrun : runTask this (taskOf (s.actions.cell a).mType) a replies s with
  | ok data s' =>
    have hs₁ := congrArg Result.state (runFiber_apply hdue.fiber (attempt_of_ok hrun))
    obtain ⟨hyields, hleaves⟩ := hdelivers.ok hrun
    obtain ⟨ds, hworks⟩ := hworking.ok hrun
    obtain ⟨d, hd, hreports⟩ := hyields.reports
    obtain rfl : ds = [d] := List.append_cancel_left (hworks.reports.symm.trans hreports)
    have hlt : number < (s'.world this).fibers.length := hworks.fibers ▸ hnumber
    obtain ⟨before, sent, after, hdata, hstock, hafter⟩ := hyields.stock
    refine .inl ⟨hleaves, hyields.room, data, ?_⟩
    rw [show s₁ = _ from hs₁, Result.state_ok]
    exact {
      initialised := by
        refine ⟨by rw [update_world]; exact hworks.mInitDone h.mInitDone,
          ⟨(hworks.placed h.ready.placed).update rfl, ?_, ?_, ?_, h.ready.valid⟩, ?_⟩
        · rw [update_world]
          exact Equipped.self (l := []) { hyields.equipped with }
        · exact hworks.objects ▸ h.ready.made
        · exact (congrArg (fun o => (o.cell radio).mObjectId) hworks.objects).trans h.ready.mObjectId
        · rw [update_world]
          exact hworks.empty h.empty
      made := hdue.made.trans_le hworks.actions
      cell := hworks.action a hdue.made
      mFuture := by rw [update_world]; exact hworks.mFuture.trans hdue.mFuture
      fiber := ⟨_, by rw [update_world]; exact List.getElem?_set_self hlt⟩
      atEnd := by
        have hend := atEnd_iff h.empty hdue hd hworks
        unfold AtEnd at hend ⊢
        rwa [update_world]
      stock := ⟨before, sent, after, hdata, hstock.mono (Nat.le_refl _) fun _ _ => rfl, hafter⟩ }
  | error e s' =>
    have hfails := hdelivers.error hrun
    have hs₁ := congrArg Result.state (runFiber_apply hdue.fiber (attempt_of_fails hfails hrun))
    obtain ⟨ds, hworks⟩ := hworking.error hrun
    have hlt : number < (s'.world this).fibers.length := hworks.fibers ▸ hnumber
    refine .inr ⟨hfails.not_and, ?_⟩
    rw [show s₁ = _ from hs₁, Result.state_ok, update_world]
    unfold returned
    dsimp only
    rw [List.getElem?_set_self hlt]

/-- Of what the task has returned, everything up to the transmissions is scheduled when `a` ends. -/
theorem Ran.pending (replies : Replies) {l : List DataPtr} {data : RouterUpdateData}
    {s₁ s₂ : Core Network} (h : Ran this radio rid a number l data s s₁) (hwaits : Waits this a number s₁ s₂)
    (htype : (s.actions.cell a).mType ∈ types) (hends : Ends this a s₂) (setup : Option Failure)
    {before sent after : List ActionPtr} (hdata : data.actionsToSchedule = before ++ sent ++ after)
    (hstock : Stock rid (s.actions.cell a).getEndTime l before sent s₁) :
    ∀ p ∈ sent, (endExecution this a replies setup s₂).state.Pending p := by
  obtain ⟨task, hfiber⟩ := h.fiber
  obtain ⟨s₃, hs₃, hend⟩ := endExecution_of_ends (h.made.trans_le hwaits.actions)
    (by rwa [hwaits.mType a h.made, h.cell]) hends setup
  have hworld : (s₃.world this).mFuture = some number ∧
      (s₃.world this).fibers[number]? = some ⟨task, a, some (.ok data)⟩ := by
    rcases hs₃ with rfl | rfl
    · rw [hwaits.router]
      exact ⟨h.mFuture, hfiber⟩
    · rw [update_world]
      unfold moveEnd
      dsimp only
      rw [hwaits.router]
      exact ⟨h.mFuture, hfiber⟩
  have hcore : (update this (takeFuture a) s₃).actions = s₂.actions ∧
      (update this (takeFuture a) s₃).mCurrentActionTime = s₂.mCurrentActionTime := by
    rcases hs₃ with rfl | rfl <;> exact ⟨rfl, rfl⟩
  have hfresh : ∀ p ∈ before ++ sent, (update this (takeFuture a) s₃).Fresh p := by
    intro p hp
    obtain ⟨hlt, hid, hwaiting, hstart⟩ := hstock.made hp
    have hcell : (update this (takeFuture a) s₃).actions.cell p = s₁.actions.cell p := by
      rw [hcore.1, (hwaits.held data h.returned_eq p (hdata ▸ List.mem_append_left _ hp)).1]
    refine ⟨by rw [hcore.1]; exact hlt.trans_le hwaits.actions, by rwa [hcell], by rwa [hcell], ?_⟩
    rw [hcell, hcore.2, hwaits.now, h.cell]
    exact hstart
  rw [hend, commit_state setup hworld.1 hworld.2, hdata]
  exact fun p hp => pending_forM_append hstock.nodup hfresh after p (List.mem_append_right _ hp)

/-- A transmission that there is room for is started once if the action comes to its end. -/
theorem Ran.transmits (replies : Replies) {l : List DataPtr} {data : RouterUpdateData}
    {s₁ s₂ : Core Network} (h : Ran this radio rid a number l data s s₁) (hroom : l.length ≤ 1)
    (hwaits : Waits this a number s₁ s₂) (htype : (s.actions.cell a).mType ∈ types)
    (hends : Ends this a s₂) (setup : Option Failure) :
    Transmits this rid number l s₁ (endExecution this a replies setup s₂).state := by
  obtain ⟨before, sent, after, hdata, hstock, hafter⟩ := h.stock
  have hpending := h.pending replies hwaits htype hends setup hdata hstock
  refine ⟨data, h.returned_eq, fun d hd => ?_⟩
  obtain ⟨p, hp, -, -, hstarts⟩ := exists_of_mem_left hstock.sends d hd
  refine ⟨p, ⟨?_, hstarts, hpending p hp⟩, ?_⟩
  · rw [hdata]
    exact List.mem_append_left _ (List.mem_append_right _ hp)
  · rintro q ⟨hq, hstarts', -⟩
    have hlength : sent.length ≤ 1 := hstock.sends.length_eq ▸ hroom
    simp only [hdata, List.mem_append] at hq
    rcases hq with (hq | hq) | hq
    · exact absurd hstarts'.mType (hstock.others q hq).2.2
    · match sent, hlength with
      | [x], _ => exact (List.mem_singleton.1 hq).trans (List.mem_singleton.1 hp).symm
    · exact absurd hstarts'.mType (hafter q hq)

/-- Whether the action comes to its end was decided when its task ran. -/
theorem Ran.ends_iff {l : List DataPtr} {data : RouterUpdateData} {s₁ s₂ : Core Network}
    (h : Ran this radio rid a number l data s s₁) (hwaits : Waits this a number s₁ s₂)
    (hdue : Due this a number s) : Ends this a s₂ ↔ (s.actions.cell a).mType = "caUpdate" ∨
      (s.world this).mTracker.mNextEnd = some a := by
  have hinit : (s.actions.cell a).mType ≠ "initRouter" := by
    have htypes := hdue.mType
    simp only [List.mem_cons, List.not_mem_nil, or_false] at htypes
    rcases htypes with htype | htype | htype <;> rw [htype] <;> decide
  have hatEnd : AtEnd this a s₂ ↔ AtEnd this a s₁ := by
    simp only [AtEnd]
    rw [hwaits.router]
  simp only [Ends]
  rw [hwaits.mType a h.made, h.cell, hatEnd, h.atEnd]
  simp only [hinit, or_false]

theorem Due.mem_types (h : Due this a number s) : (s.actions.cell a).mType ∈ types := by
  have htypes := h.mType
  simp only [types, List.mem_cons, List.not_mem_nil, or_false] at htypes ⊢
  tauto

end

end Router

/-- Whatever vanetza requests during an action of an initialised router, the task does not fail and each
transmission that has been requested is started by exactly one action if and only if a deadline is left
that the runtime can report, there is no more than one transmission, counting what may still wait from
before, and, unless there is none, the action is a `caUpdate` or the one whose end the tracker waits
for. -/
theorem transmits_iff {this radio : ObjectPtr} {rid : ObjectId} {a : ActionPtr} {number : Nat}
    {replies : Replies} {s s₂ : Core Network} (h : Router.Initialised this radio rid s)
    (hdue : Router.Due this a number s) (hreplies : Router.Regular replies)
    (hwaits : Router.Waits this a number (Router.runFiber this number replies s).state s₂)
    (replies' : Replies) (setup : Option Failure) :
    let ds := Router.requested (Router.taskOf (s.actions.cell a).mType) replies
    Router.Transmits this rid number ds (Router.runFiber this number replies s).state
        (Router.endExecution this a replies' setup s₂).state ↔
      (s.world this).LeavesDeadline (s.actions.cell a).mStartTime replies.trigger ∧
        (Router.pending (s.world this) ++ ds).length ≤ 1 ∧
        (ds = [] ∨ (s.actions.cell a).mType = "caUpdate" ∨
          (s.world this).mTracker.mNextEnd = some a) := by
  intro ds
  rcases Router.runFiber_cases h hdue hreplies with ⟨hleaves, hroom, data, hran⟩ | ⟨hnot, hnone⟩
  swap
  · refine iff_of_false ?_ fun hcond => hnot ⟨hcond.1, hcond.2.1⟩
    rintro ⟨data, hdata, -⟩
    cases hnone.symm.trans hdata
  have hends := hran.ends_iff hwaits hdue
  constructor
  · rintro ⟨data', hdata', htransmits⟩
    refine ⟨hleaves, hroom, ?_⟩
    by_contra hnot
    obtain ⟨hds, hnot⟩ := not_or.1 hnot
    obtain ⟨d, hd⟩ := List.exists_mem_of_ne_nil ds hds
    obtain ⟨p, ⟨hp, -, hpending⟩, -⟩ := htransmits d hd
    have hstate : (Router.endExecution this a replies' setup s₂).state = s₂ :=
      Post.state (I := fun s' => s' = s₂) (Post.mono
        (Router.post_endExecution (hwaits.placed hran.initialised.ready.placed) (hran.made.trans_le hwaits.actions)
          (by rw [hwaits.mType a hran.made, hran.cell]; exact hdue.mem_types) replies' setup)
        (fun _ _ h => (h.resolve_left fun h => hnot (hends.1 h.1)).2)
        fun _ _ h => (h.resolve_left fun h => hnot (hends.1 h.1)).2)
    rw [hstate] at hpending
    exact (hwaits.held data' hdata' p hp).2 hpending
  · rintro ⟨-, -, hds | hend⟩
    · exact ⟨data, hran.returned_eq, by rw [hds]; exact nofun⟩
    · obtain ⟨data', hdata', htransmits⟩ := hran.transmits replies' hroom hwaits
        hdue.mem_types (hends.2 hend) setup
      exact ⟨data', hdata', fun d hd => htransmits d (List.mem_append_right _ hd)⟩

-- no timer is left
example : ¬ (Runtime.makeRuntime 0 0).LeavesDeadline 0 { next := Runtime.noDeadline } := by decide

/-! ## A timer that fires during `caUpdate` -/

namespace Router

/-- The router `0` with the radio `1`, for which an `initRouter` action has been made. -/
def installed : Core Network :=
  { Core.new fun _ => { mVehicleObject := some 2, mRadioObject := some 1 } with
    objects := (((Heap.empty {}).alloc { mObjectId := 1 }).alloc { mObjectId := 2 }).alloc
      { mObjectId := 3 }
    actions := (Heap.empty (selfAction 1 0 "initRouter")).alloc (selfAction 1 0 "initRouter") }

/-- The router has been initialised. -/
def operating : Core Network := (fetch 0 (runUp 0 0 0 (deadline 300000) installed).state).state

/-- Its first `caUpdate`, the action `1`, has been started. -/
def updating : Core Network := (startExecution 0 1 operating).state

/-- The CAM is the transmission `7`, and the timers that are due request `ds`. -/
def beacon (ds : List DataPtr) : Replies :=
  { deadline 300000 with
    course := true
    triggerCam := { requests := [7], next := 300000 }
    trigger := { requests := ds, next := 300000 } }

/-- What `initRouter` and the start of `caUpdate` come to. -/
theorem updating_evaluated :
    ((updating.world 0).mInitDone = true ∧ pending (updating.world 0) = [] ∧
      (updating.world 0).mTracker = ⟨some 2, some 2⟩ ∧ (2 : ActionPtr) < updating.actions.next ∧
      (updating.world 0).mRadioObject = some 1 ∧ (updating.world 0).mRuntime.isSome = true ∧
      (updating.world 0).mRouter = true ∧
      (updating.world 0).mAccessInterface.any
        (fun i => i.mCacheQuery.isSome && !i.mHasRequest) = true) ∧
    (((0 : ObjectPtr) < updating.objects.next ∧
        (updating.objects.cell (0 : ObjectPtr)).mObjectId.valid = true) ∧
      (1 : ObjectPtr) < updating.objects.next ∧
        (updating.objects.cell (1 : ObjectPtr)).mObjectId = 2) ∧
    ((startExecution 0 1 operating).value? = some () ∧ (operating.world 0).fibers.length = 1) ∧
    ((1 : ActionPtr) < operating.actions.next ∧
      (operating.actions.cell (1 : ActionPtr)).mType = "caUpdate" ∧
      (operating.actions.cell (1 : ActionPtr)).mDuration = Duration.milliseconds 2 ∧
      0 ≤ (operating.actions.cell (1 : ActionPtr)).mStartTime) ∧
    (operating.world 0).mRuntime.all (fun t =>
      decide (t.mLastTrigger ≤ t.advanceTo (operating.actions.cell (1 : ActionPtr)).mStartTime)) =
        true ∧
    (updating.actions.cell (1 : ActionPtr)).mType = "caUpdate" ∧
    (updating.world 0).mRuntime.all (fun t => decide (t.LeavesDeadline
      (updating.actions.cell (1 : ActionPtr)).mStartTime (beacon []).trigger)) = true := by
  decide +kernel

theorem initialised_updating : Initialised 0 1 2 updating := by
  obtain ⟨⟨hinit, hpending, htracker, hmade, hradio, hruntime, hrouter, hany⟩,
    ⟨⟨hobject, hvalid⟩, hradioMade, hid⟩, -⟩ := updating_evaluated
  have hinterface : ∃ i, (updating.world 0).mAccessInterface = some i ∧ i.Holds [] := by
    obtain ⟨i, hi, hfree⟩ := (Option.any_eq_true _ _).1 hany
    rw [Bool.and_eq_true, Bool.not_eq_true'] at hfree
    exact ⟨i, hi, hfree.1, .inl ⟨hfree.2, rfl⟩⟩
  refine ⟨hinit, ⟨⟨hobject, hvalid, fun p hp => ?_⟩, ?_, hradioMade, hid, by decide⟩,
    by simp [htracker]⟩
  · rw [htracker] at hp
    obtain rfl : 2 = p := Option.some.inj hp
    exact hmade
  · rw [hpending]
    exact ⟨hrouter, Option.isSome_iff_exists.1 hruntime, hradio, hinterface⟩

theorem due_updating : Due 0 1 1 updating := by
  obtain ⟨-, -, ⟨hstarts, hlength⟩, ⟨hmade, htype, hduration, h0⟩, hall, -⟩ := updating_evaluated
  have hstart : startExecution 0 1 operating = .ok () updating := Result.eq_ok hstarts
  have honTime : ∀ t, (operating.world 0).mRuntime = some t →
      t.mLastTrigger ≤ t.advanceTo (operating.actions.cell (1 : ActionPtr)).mStartTime := by
    intro t ht
    rw [ht] at hall
    exact of_decide_eq_true hall
  have hdue := due_of_launches hstart (.inl htype) hmade (by rw [htype]; decide) hduration h0
    (by rw [htype]; decide) honTime
  rwa [hlength] at hdue

/-- Among two vehicles, the receivers are found. -/
theorem regular_beacon (ds : List DataPtr) : Regular (beacon ds) where
  triggerCam := rfl
  indicate := rfl
  updatePosition := rfl
  trigger := rfl
  receivers := by
    have hnone : none = (Networking.AccessInterface.getTransmission
        Networking.Scene.requested.containers Networking.Scene.requested.current
        Networking.Scene.requested.core).error? := by decide +kernel
    exact ⟨Unit, 5, Networking.Scene.requested, Networking.Scene.requested_reachable,
      by decide +kernel, hnone⟩

/-- Nothing else happens until `a` ends. -/
def untilEnd (a : ActionPtr) (s : Core Network) : Core Network :=
  { s with mCurrentActionTime := (s.actions.cell a).getEndTime }

theorem waits_untilEnd {this : ObjectPtr} {a : ActionPtr} {number : Nat} {s : Core Network}
    (hheld : ∀ data, returned number (s.world this) = some data → ∀ p ∈ data.actionsToSchedule,
      ¬ s.Pending p) : Waits this a number s (untilEnd a s) where
  router := rfl
  actions := Nat.le_refl _
  mType _ _ := rfl
  mActionData _ _ _ := rfl
  mStartTime _ _ := rfl
  object h := h
  mObjectId := rfl
  now := rfl
  held data hdata p hp := ⟨rfl, hheld data hdata p hp⟩

/-- After the task of `caUpdate`, during which timers have requested `ds`. -/
abbrev beaconed (ds : List DataPtr) : Core Network := (runFiber 0 1 (beacon ds) updating).state

theorem beaconed_evaluated :
    returned 1 ((beaconed []).world 0) =
      some { actionsToSchedule := [3, 4], transmission := some 7 } ∧
    (∀ x ∈ (beaconed []).mActions.entries, x.handler.mCorrespondingAction < 3) ∧
    returned 1 ((runFiber 0 1 (beacon [8]) updating).state.world 0) = none := by
  decide +kernel

theorem waits_beaconed : Waits 0 1 1 (beaconed []) (untilEnd 1 (beaconed [])) := by
  obtain ⟨hreturned, hentries, -⟩ := beaconed_evaluated
  apply waits_untilEnd
  intro data hdata p hp
  obtain rfl := Option.some.inj (hreturned.symm.trans hdata)
  rintro ⟨x, hx, hhandler, -⟩
  have hlt : p < 3 := by
    have hlt := hentries x hx
    rwa [hhandler] at hlt
  simp only [List.mem_cons, List.not_mem_nil, or_false] at hp
  rcases hp with rfl | rfl <;> exact absurd hlt (by decide)

end Router

/-- The CAM is sent. -/
theorem transmits_iff_beacon : Router.Transmits 0 2 1 [7] (Router.beaconed [])
    (Router.endExecution 0 1 (Router.beacon []) none
      (Router.untilEnd 1 (Router.beaconed []))).state := by
  have hiff := transmits_iff Router.initialised_updating Router.due_updating
    (Router.regular_beacon []) Router.waits_beaconed (Router.beacon []) none
  obtain ⟨⟨-, hpending, -⟩, -, -, -, -, htype, hall⟩ := Router.updating_evaluated
  rw [htype, hpending] at hiff
  refine hiff.2 ⟨fun t ht => ?_, by decide, .inr (.inl rfl)⟩
  rw [ht] at hall
  exact of_decide_eq_true hall

/-- A timer that is due when `caUpdate` starts requests a second transmission. -/
theorem not_transmits :
    ¬ ∀ (this radio : ObjectPtr) (rid : ObjectId) (a : ActionPtr) (number : Nat) (replies : Replies)
      (s s₂ : Core Network), Router.Initialised this radio rid s → Router.Due this a number s →
      Router.Regular replies → replies.triggerCam.requests.length ≤ 1 →
      replies.indicate.requests.length ≤ 1 → replies.updatePosition.requests = [] →
      Router.Waits this a number (Router.runFiber this number replies s).state s₂ →
      Router.Transmits this rid number
        (Router.requested (Router.taskOf (s.actions.cell a).mType) replies)
        (Router.runFiber this number replies s).state
        (Router.endExecution this a replies none s₂).state := by
  intro h
  obtain ⟨-, -, hnone⟩ := Router.beaconed_evaluated
  have hwaits := Router.waits_untilEnd (a := 1) fun data hdata => absurd (hnone.symm.trans hdata) nofun
  obtain ⟨data, hdata, -⟩ := h 0 1 2 1 1 (Router.beacon [8]) Router.updating _
    Router.initialised_updating Router.due_updating (Router.regular_beacon [8]) (by decide)
    (by decide) rfl hwaits
  cases hnone.symm.trans hdata

end Cosidia
