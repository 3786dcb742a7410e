import Cosidia.Verify.Phases
import Cosidia.Verify.Runs

/-!
# What becomes of an `InitAction`

An `InitAction` that is dispatched to a free object is executed by `initObject` at once. One that is
dispatched to any other object is delayed, and `endExecutionBase` starts what was delayed without
looking at its kind: such an action is never initialised.
-/

namespace Cosidia

open EStateM Relation

variable {ω : Type}

/-- How often `initObject` has been called with `a`. -/
def initCalls (a : ActionPtr) (calls : List Call) : Nat :=
  calls.countP fun c => c.kind = .handlerInit ∧ c.action = a

theorem initCalls_noteCall (a : ActionPtr) (k : HandlerKind) (o : ObjectPtr) (b : ActionPtr)
    (s : Core ω) : initCalls a (BaseObject.noteCall k o b s).history.calls =
      initCalls a s.history.calls + if k = .handlerInit ∧ b = a then 1 else 0 := by
  simp [initCalls, BaseObject.noteCall, List.countP_append, List.countP_cons]

/-- The action that has been taken up, or is about to be initialised. -/
def Stage.incoming : Stage → Option ActionPtr
  | .taken _ _ a | .initialising _ a => some a
  | _ => none

/-- The action that is about to be started. -/
def Stage.upcoming : Stage → Option ActionPtr
  | .starting _ _ _ a | .noted _ _ a | .armed _ a | .activated _ _ _ a => some a
  | _ => none

/-- The `InitAction` `a` has been dispatched, and is not dispatched again. -/
structure Settled (a : ActionPtr) (st : Stage) (batch : List Scheduling) (s : Core ω) : Prop where
  made : a < s.actions.next
  kind : (s.actions.cell a).kind = .initAction
  state : (s.actions.cell a).mStateMachine ≠ .waiting
  loose : Loose batch s a
  stage : st.incoming ≠ some a

/-- `a` has not been started and waits nowhere. -/
structure Unstarted (a : ActionPtr) (st : Stage) (s : Core ω) : Prop where
  queue : ∀ o, a ∉ (s.manager o).mDelayedQueue
  active : ∀ o, (s.manager o).mActiveAction = some a → ∃ k, st = .closing k o a
  started : a ∉ startedActions s.history.calls
  stage : st.upcoming ≠ some a

section
variable {phase : ActionPtr → Phase} {a : ActionPtr} {batch batch' : List Scheduling}
  {s s' : Core ω} {st st' : Stage}

namespace Settled

/-- What neither makes `a` pending nor brings it up again. -/
theorem frame (h : Settled a st batch s) (hnext : s.actions.next ≤ s'.actions.next)
    (hcell : (s'.actions.cell a).kind = (s.actions.cell a).kind ∧
      ((s'.actions.cell a).mStateMachine = .waiting → (s.actions.cell a).mStateMachine = .waiting))
    (hlist : ∀ x ∈ pending batch' s', x.action = a → x ∈ pending batch s)
    (hst : st'.incoming = some a → st.incoming = some a) : Settled a st' batch' s' where
  made := h.made.trans_le hnext
  kind := hcell.1.trans h.kind
  state hw := h.state (hcell.2 hw)
  loose hmem := by
    obtain ⟨x, hx, rfl⟩ := List.mem_map.1 hmem
    exact h.loose (List.mem_map_of_mem (hlist x hx rfl))
  stage hs := h.stage (hst hs)

/-- Only the stage, the objects and the history change. -/
theorem move (h : Settled a st batch s) (hactions : s'.actions = s.actions)
    (hlist : s'.mActions = s.mActions) (hst : st'.incoming = some a → st.incoming = some a) :
    Settled a st' batch s' :=
  h.frame (by rw [hactions]) (by rw [hactions]; exact ⟨rfl, id⟩)
    (fun x hx _ => by simpa only [pending, hlist] using hx) hst

theorem quiet (h : Settled a st batch s) (hq : Quiet s s') : Settled a st batch s' :=
  h.frame hq.actions ⟨(hq.action a h.made).kind, (hq.action a h.made).waiting⟩
    (fun x hx _ => by simpa only [pending, hq.mActions] using hx) id

theorem giveId (h : Settled a st batch s) (handler : ActionHandler) :
    Settled a st batch (s.giveId handler) := by
  refine h.frame (Nat.le_refl _) ?_ (fun x hx _ => hx) id
  rcases eq_or_ne a handler.mCorrespondingAction with rfl | ha
  · simp [Core.giveId]
  · rw [show (s.giveId handler).actions.cell a = s.actions.cell a from Heap.write_cell_of_ne ha]
    exact ⟨rfl, id⟩

theorem accept (h : Settled a st batch s) (hp : Phased phase batch s) {handler : ActionHandler}
    (hne : handler.mCorrespondingAction ≠ a) : Settled a st batch (s.accept handler) := by
  refine (h.giveId handler).frame (Nat.le_refl _) ⟨rfl, id⟩ (fun x hx hxa => ?_) id
  rcases List.mem_cons.1 ((pending_accept_perm hp.filed batch handler).mem_iff.1 hx) with rfl | hx
  · exact absurd hxa hne
  · exact hx

theorem shift (h : Settled a st batch s) (b : ActionPtr) (t : TimePoint)
    (hst : st'.incoming = some a → st.incoming = some a) : Settled a st' batch (s.shift b t) := by
  refine h.frame (Nat.le_refl _) ?_ (fun x hx _ => hx) hst
  simp only [Core.shift, Core.writeAction_actions, Heap.write_cell]
  split
  · next ha => rw [ha]; exact ⟨rfl, id⟩
  · exact ⟨rfl, id⟩

theorem setState (h : Settled a st batch s) {p : ActionPtr} {state : ActionStateMachine}
    (hs : state ≠ .waiting) : Settled a st batch (s.setState p state) :=
  h.quiet (.writeAction ⟨rfl, rfl, rfl, rfl, rfl, fun h => absurd h hs⟩)

theorem takeUp {x : Scheduling} {rest : List Scheduling} (h : Settled a .idle (x :: rest) s) :
    Settled a .idle rest (s.takeUp x) :=
  h.frame (Nat.le_refl _) ⟨rfl, id⟩ (fun _ hy _ => List.mem_cons_of_mem _ hy) id

theorem take {x : Scheduling} {rest : List Scheduling} (h : Settled a .idle (x :: rest) s)
    (o : ObjectPtr) : Settled a (.taken x.handler.kind o x.action) rest (s.takeUp x) := by
  have hne : x.action ≠ a := fun hx => h.loose (hx ▸ List.mem_map_of_mem (List.mem_cons_self ..))
  exact h.takeUp.frame (Nat.le_refl _) ⟨rfl, id⟩ (fun _ hy _ => hy)
    fun hx => absurd (Option.some.inj hx) hne

/-- Once settled, an action stays so and gets no more calls of `initObject`. -/
theorem act {c c' : Stage × Core ω} (hact : Act c c') (hi : InPhase c.1 batch c.2)
    (h : Settled a c.1 batch c.2) : Settled a c'.1 batch c'.2 ∧
      initCalls a c'.2.history.calls = initCalls a c.2.history.calls := by
  obtain ⟨phase, hp, hh⟩ := hi
  cases hact with
  | quiet hq => exact ⟨h.quiet hq, by rw [hq.history]⟩
  | @schedule st s p state hlt hw hs ht =>
    have hne : p ≠ a := fun hpa => h.state (hpa ▸ hw)
    exact ⟨(h.setState hs).accept (hp.setState hs) hne, rfl⟩
  | rejectStart hlt hw hs => exact ⟨(h.setState hs).giveId _, rfl⟩
  | start | delay | stuck => exact ⟨h.move rfl rfl nofun, rfl⟩
  | init | noteInit => exact ⟨h.move rfl rfl id, rfl⟩
  | note | skipEnd | release | releaseSome | activate =>
    exact ⟨h.move rfl rfl nofun, rfl⟩
  | @scheduleEnd s o y b hlt hk ht =>
    have hne : y ≠ a := by
      rintro rfl
      rw [h.kind] at hk
      cases hk
    exact ⟨(h.accept hp hne).move rfl rfl nofun, rfl⟩
  | rejectEnd => exact ⟨h.giveId _, rfl⟩
  | callStart | callEnd => exact ⟨h.move rfl rfl nofun, by rw [initCalls_noteCall]; simp⟩
  | @callInit s o b =>
    refine ⟨h.move rfl rfl nofun, ?_⟩
    rw [initCalls_noteCall, if_neg fun hb => h.stage (congrArg some hb.2), Nat.add_zero]
  | shift =>
    refine ⟨h.shift _ _ ?_, rfl⟩
    exact nofun

end Settled

namespace Unstarted

/-- What leaves the managers and the calls alone. -/
theorem frame (h : Unstarted a st s) (hman : ∀ o, s'.manager o = s.manager o ∨ s'.manager o = {})
    (hcalls : startedActions s'.history.calls = startedActions s.history.calls) :
    Unstarted a st s' := by
  refine ⟨fun o ha => ?_, fun o ha => ?_, by rw [hcalls]; exact h.started, h.stage⟩
  · rcases hman o with hm | hm <;> rw [hm] at ha
    · exact h.queue o ha
    · cases ha
  · rcases hman o with hm | hm <;> rw [hm] at ha
    · exact h.active o ha
    · cases ha

/-- The manager of `o` changes, and the stage with it. -/
theorem setManager (h : Unstarted a st s) {o : ObjectPtr} {m : ObjectActionManager}
    (hq : a ∉ m.mDelayedQueue) (hactive : m.mActiveAction ≠ some a)
    (hother : ∀ o' k, o' ≠ o → st ≠ .closing k o' a) (hst : st'.upcoming ≠ some a) :
    Unstarted a st' (s.setManager o m) := by
  refine ⟨fun o' ha => ?_, fun o' ha => ?_, h.started, hst⟩
  all_goals rw [Core.setManager_manager] at ha; split at ha
  · exact hq ha
  · exact h.queue o' ha
  · exact absurd ha hactive
  · next hne =>
    obtain ⟨k, hk⟩ := h.active o' ha
    exact absurd hk (hother o' k hne)

/-- The stage changes, and nothing is being closed. -/
theorem move (h : Unstarted a st s) (hclosing : ∀ k o, st ≠ .closing k o a)
    (hman : ∀ o, s'.manager o = s.manager o)
    (hcalls : startedActions s'.history.calls = startedActions s.history.calls)
    (hst : st'.upcoming ≠ some a) : Unstarted a st' s' := by
  refine ⟨fun o => by rw [hman]; exact h.queue o, fun o ha => ?_, by rw [hcalls]; exact h.started, hst⟩
  rw [hman] at ha
  obtain ⟨k, hk⟩ := h.active o ha
  exact absurd hk (hclosing k o)

/-- An `InitAction` that is settled and has not been started is never started. -/
theorem act {c c' : Stage × Core ω} (hact : Act c c') (hs : Settled a c.1 batch c.2)
    (h : Unstarted a c.1 c.2) : Unstarted a c'.1 c'.2 := by
  cases hact with
  | @quiet st s s' hq =>
    exact h.frame (fun o => (lt_or_ge o s.objects.next).elim (fun ho => .inl (hq.object o ho).1)
      (hq.unmade o)) (by rw [hq.history])
  | schedule | rejectStart | rejectEnd => exact h.frame (fun _ => .inl rfl) rfl
  | noteInit => exact h.frame (fun o => .inl (Core.setCurrent_manager ..)) rfl
  | @start s o b ho hm =>
    exact h.setManager List.not_mem_nil hs.stage (fun _ _ _ hst => by cases hst) hs.stage
  | @init s o b ho hm =>
    exact h.setManager List.not_mem_nil hs.stage (fun _ _ _ hst => by cases hst) fun hst => by cases hst
  | @delay s k o b c q ho hk hm =>
    have hq := h.queue o
    have hactive := h.active o
    rw [hm] at hq hactive
    refine h.setManager (fun hmem => ?_) (fun hc => ?_) (fun _ _ _ hst => by cases hst)
      fun hst => by cases hst
    · rcases List.mem_append.1 hmem with hmem | hmem
      · exact hq hmem
      · exact hs.stage (congrArg some (List.mem_singleton.1 hmem).symm)
    · obtain ⟨_, hst⟩ := hactive hc
      cases hst
  | @stuck s k o b c q ho hk hm =>
    have hq := h.queue o
    rw [hm] at hq
    refine h.setManager (fun hmem => ?_) (fun hc => by cases hc) (fun _ _ _ hst => by cases hst)
      fun hst => by cases hst
    rcases List.mem_append.1 hmem with hmem | hmem
    · exact hq hmem
    · exact hs.stage (congrArg some (List.mem_singleton.1 hmem).symm)
  | note =>
    exact h.move (fun _ _ hst => by cases hst) (fun o => Core.setCurrent_manager ..) rfl h.stage
  | scheduleEnd | skipEnd =>
    exact h.move (fun _ _ hst => by cases hst) (fun _ => rfl) rfl h.stage
  | @callStart s o b =>
    refine ⟨h.queue, fun o' ha => ?_, fun hmem => ?_, fun hst => by cases hst⟩
    · obtain ⟨_, hst⟩ := h.active o' ha
      cases hst
    · obtain ⟨c, hc, hk, hca⟩ := mem_startedActions.1 hmem
      rcases List.mem_append.1 hc with hc | hc
      · exact h.started (mem_startedActions.2 ⟨c, hc, hk, hca⟩)
      · rw [List.mem_singleton.1 hc] at hca
        exact h.stage (congrArg some hca)
  | callEnd | callInit =>
    exact h.move (fun _ _ hst => by cases hst) (fun _ => rfl)
      (by simp [startedActions, BaseObject.noteCall]) fun hst => by cases hst
  | release hq =>
    exact h.setManager List.not_mem_nil (fun hc => by cases hc)
      (fun o' k hne hst => hne (by cases hst; rfl)) fun hst => by cases hst
  | @releaseSome s k o b c q hq =>
    exact h.setManager (fun hmem => h.queue o (by rwa [hq])) (fun hc => by cases hc)
      (fun o' k hne hst => hne (by cases hst; rfl)) fun hst => by cases hst
  | @activate s k o b c q ho hm =>
    have hq := h.queue o
    rw [hm] at hq
    have hne : c ≠ a := fun hca => hq (hca ▸ List.mem_cons_self ..)
    exact h.setManager (fun hmem => hq (List.mem_cons_of_mem _ hmem))
      (fun hc => hne (Option.some.inj hc)) (fun _ _ _ hst => by cases hst)
      fun hc => hne (Option.some.inj hc)
  | shift => exact h.move (fun _ _ hst => by cases hst) (fun _ => rfl) rfl h.stage

end Unstarted

/-! ## Every call of `initObject` settles its action -/

theorem Core.giveId_kind (s : Core ω) (handler : ActionHandler) (p : ActionPtr) :
    ((s.giveId handler).actions.cell p).kind = (s.actions.cell p).kind := by
  rcases eq_or_ne p handler.mCorrespondingAction with rfl | hp
  · simp [Core.giveId]
  · rw [show (s.giveId handler).actions.cell p = s.actions.cell p from Heap.write_cell_of_ne hp]

theorem Core.setState_kind (s : Core ω) (q : ActionPtr) (state : ActionStateMachine) (p : ActionPtr) :
    ((s.setState q state).actions.cell p).kind = (s.actions.cell p).kind := by
  simp only [Core.setState, Core.writeAction_actions, Heap.write_cell]
  split
  · next hp => rw [hp]
  · rfl

/-- Only one transition calls `initObject`. -/
theorem Act.initCalls {c c' : Stage × Core ω} (h : Act c c') :
    Cosidia.initCalls a c'.2.history.calls = Cosidia.initCalls a c.2.history.calls ∨
      ∃ o, c.1 = .initialising o a ∧
        c' = (.closing .handlerInit o a, BaseObject.noteCall .handlerInit o a c.2) := by
  cases h with
  | quiet hq => exact .inl (by rw [hq.history])
  | callStart | callEnd => exact .inl (by rw [initCalls_noteCall]; simp)
  | @callInit s o b =>
    rcases eq_or_ne b a with rfl | hb
    · exact .inr ⟨o, rfl, rfl⟩
    · exact .inl (by rw [initCalls_noteCall, if_neg fun hba => hb hba.2, Nat.add_zero])
  | _ => exact .inl rfl

theorem ActionKind.of_handlerInit {kind : ActionKind} (h : .handlerInit = kind.startHandler) :
    kind = .initAction := by
  cases kind with
  | durationAction => cases h
  | initAction => rfl

/-- What `initObject` has been called with is settled, and only an `InitAction` comes to it. -/
structure InitsSettled (st : Stage) (batch : List Scheduling) (s : Core ω) : Prop where
  settled : ∀ a, initCalls a s.history.calls ≠ 0 → Settled a st batch s
  kind : ∀ o a, st = .initialising o a → (s.actions.cell a).kind = .initAction

namespace InitsSettled

theorem act {c c' : Stage × Core ω} (hact : Act c c') (hi : InPhase c.1 batch c.2)
    (h : InitsSettled c.1 batch c.2) : InitsSettled c'.1 batch c'.2 := by
  refine ⟨fun a ha => ?_, fun o a hst => ?_⟩
  · rcases hact.initCalls (a := a) with hcalls | ⟨o, hst, rfl⟩
    · exact (Settled.act hact hi (h.settled a (hcalls ▸ ha))).1
    · have hkind := h.kind o a hst
      obtain ⟨phase, hp, hh⟩ := hi
      rw [hst] at hh
      have hmade := hp.made a (by simp [hp.active o a hh.1])
      exact ⟨hmade.1, hkind, hmade.2, hh.2, nofun⟩
  · obtain ⟨phase, hp, hh⟩ := hi
    cases hact with
    | @quiet st s s' hq =>
      subst hst
      have hmade := hp.made a (by simp [hp.active o a hh.1])
      exact (hq.action a hmade.1).kind.trans (h.kind o a rfl)
    | schedule | rejectStart =>
      refine Eq.trans ?_ (h.kind o a hst)
      exact (Core.giveId_kind ..).trans (Core.setState_kind ..)
    | init ho hm =>
      cases hst
      exact ActionKind.of_handlerInit hh.2.2
    | noteInit => exact h.kind o a hst
    | _ => cases hst

theorem stepwise : Stepwise (ω := ω) (fun _ _ => True)
    fun st batch s => InPhase st batch s ∧ InitsSettled st batch s where
  act hact h := ⟨InPhase.act hact h.1, h.2.act hact h.1⟩
  advance ht h := ⟨InPhase.stepwise.advance ht h.1,
    fun a ha => (h.2.settled a ha).move rfl rfl id, nofun⟩
  fetch h hent hfiled := ⟨InPhase.stepwise.fetch h.1 hent hfiled, fun a ha =>
    (h.2.settled a ha).frame (Nat.le_refl _) ⟨rfl, id⟩
      (fun x hx _ => by simpa [pending, hent] using hx) id, nofun⟩
  fail h := ⟨InPhase.stepwise.fail h.1, fun a ha => (h.2.settled a ha).move rfl rfl id, nofun⟩
  drop hC h hrem := ⟨InPhase.stepwise.drop hC h.1 hrem, fun a ha => (h.2.settled a ha).takeUp, nofun⟩
  take hC h htime hp ho := ⟨InPhase.stepwise.take hC h.1 htime hp ho,
    fun a ha => (h.2.settled a ha).take _, nofun⟩

end InitsSettled

/-! ## The dispatch of an `InitAction` -/

/-- `dispatch` of `x` finds the object `o`, which exists. -/
structure Core.DispatchesTo (s : Core ω) (x : Scheduling) (o : ObjectPtr) : Prop where
  id : (s.actions.cell x.action).mActionId ≠ 0
  valid : (s.actions.cell x.action).mAffectedObject.valid = true
  listed : s.mObjectList.currentCopy.mActiveObjects[
    (s.actions.cell x.action).mAffectedObject]? = some o
  made : o < s.objects.next

instance (s : Core ω) (x : Scheduling) (o : ObjectPtr) : Decidable (s.DispatchesTo x o) :=
  decidable_of_iff ((s.actions.cell x.action).mActionId ≠ 0 ∧
      (s.actions.cell x.action).mAffectedObject.valid = true ∧
      s.mObjectList.currentCopy.mActiveObjects[
        (s.actions.cell x.action).mAffectedObject]? = some o ∧ o < s.objects.next)
    ⟨fun ⟨h1, h2, h3, h4⟩ => ⟨h1, h2, h3, h4⟩, fun ⟨h1, h2, h3, h4⟩ => ⟨h1, h2, h3, h4⟩⟩

theorem Core.DispatchesTo.dispatch {x : Scheduling} {o : ObjectPtr} (h : s.DispatchesTo x o)
    (hx : x.action < s.actions.next) (V : Virtuals ω) (compareIds : Bool) :
    Core.dispatch V compareIds x s = BaseObject.invoke V compareIds x.handler o s := by
  have hfound : s.mObjectList.getObjectByIdFromCurrentContainer
      (s.actions.cell x.action).mAffectedObject = .ok (some o) := by
    unfold ObjectList.getObjectByIdFromCurrentContainer ObjectContainer.getObject
    rw [Std.TreeMap.contains_eq_isSome_getElem?, h.listed]
    simp
  have hget : getAction x.action s = .ok (s.actions.cell x.action) s := getAction_of_lt hx
  simp only [Core.dispatch]
  rw [bind_apply, show getAction x.handler.mCorrespondingAction s = _ from hget]
  have hid : ((s.actions.cell x.action).mActionId != 0) = true := bne_iff_ne.2 h.id
  simp only [bind_apply, enforce, hid, h.valid, if_true, pure_apply, get_apply, hfound, ofExcept]

namespace BaseObject

variable (V : Virtuals ω) {o : ObjectPtr}

/-- On an object that is not free, `initObjectBase` only changes the manager. -/
theorem initObjectBase_busy (hm : s.manager o ≠ {}) :
    ∃ m, (initObjectBase V o a s).state = s.setManager o m := by
  have hsame : s = s.setManager o (s.manager o) := by
    rw [Core.setManager, Core.manager, Core.writeObject, Heap.write_cell_eq]
  have hstart : Post (startOrDelay o a) s
      (fun delayed s' => delayed = true ∧ ∃ m, s' = s.setManager o m)
      fun _ s' => ∃ m, s' = s.setManager o m := by
    refine post_onManager (fun _ => ?_) ⟨_, hsame⟩
    rcases hman : s.manager o with ⟨_ | b, _ | ⟨b', q⟩⟩
    · exact absurd hman hm
    · rw [Post, ObjectActionManager.startOrDelay_stuck]
      exact ⟨_, rfl⟩
    · rw [Post, ObjectActionManager.startOrDelay_busy]
      exact ⟨rfl, _, rfl⟩
    · rw [Post, ObjectActionManager.startOrDelay_busy]
      exact ⟨rfl, _, rfl⟩
  refine Post.state (I := fun s' => ∃ m, s' = s.setManager o m) (Post.bind hstart ?_)
  rintro _ _ ⟨rfl, hm⟩
  exact hm

/-- On a free object `initObjectBase` gets to `initObject`. -/
theorem initObjectBase_free (ha : a < s.actions.next) (ho : o < s.objects.next)
    (hm : s.manager o = {}) :
    ∃ s₁, Acts (.taken .handlerInit o a, s) (.initialising o a, s₁) ∧ s₁.history = s.history ∧
      (∀ o', s₁.manager o' = if o' = o then ⟨some a, []⟩ else s.manager o') ∧ initObjectBase V o a s = (do
        initObject V o a
        if ← endAndCheckAvailable o then
          startShifted V .handlerInit o a (← activateShifted o a)) s₁ := by
  have hstart : startOrDelay o a s = Result.ok false (s.setManager o ⟨some a, []⟩) := by
    unfold startOrDelay onObject
    rw [if_pos ho]
    refine zoom_eq_ok.2 ⟨_, zoom_eq_ok.2 ⟨⟨some a, []⟩, ?_, rfl⟩, rfl⟩
    rw [show (s.objects.cell o).mActionManager = {} from hm, ObjectActionManager.startOrDelay_idle]
  have hnote : noteCurrentAction o a (s.setManager o ⟨some a, []⟩) = Result.ok ()
      ((s.setManager o ⟨some a, []⟩).setCurrent o (s.actions.cell a).mActionId) := by
    refine bind_eq_ok.2 ⟨_, _, getAction_of_lt ha, ?_⟩
    simp only [onObject]
    rw [if_pos (by exact ho)]
    exact zoom_eq_ok.2 ⟨_, modify_apply _ _, rfl⟩
  refine ⟨_, .tail (.single (.init ho hm)) .noteInit, rfl, fun o' => ?_, ?_⟩
  · rw [Core.setCurrent_manager, Core.setManager_manager]
  simp only [initObjectBase]
  rw [bind_apply, hstart]
  simp only [Bool.not_false, if_true]
  rw [bind_apply, hnote]
  rfl

end BaseObject

/-! ## Along a run -/

/-- `initObject` has been called `k` times with `a`, which is settled; if once, then `a` is over. -/
def Past (a : ActionPtr) (k : Nat) : Assertion ω := fun st batch s =>
  InPhase st batch s ∧ Settled a st batch s ∧ initCalls a s.history.calls = k ∧
    (k = 1 → Unstarted a st s)

theorem Past.stepwise (a : ActionPtr) (k : Nat) :
    Stepwise (ω := ω) (fun _ _ => True) (Past a k) where
  act hact h := by
    obtain ⟨hi, hs, hk, hu⟩ := h
    obtain ⟨hs', hcalls⟩ := Settled.act hact hi hs
    exact ⟨InPhase.act hact hi, hs', hcalls.trans hk, fun h1 => (hu h1).act hact hs⟩
  advance ht h := ⟨InPhase.stepwise.advance ht h.1, h.2.1.move rfl rfl id, h.2.2.1,
    fun h1 => (h.2.2.2 h1).frame (fun _ => .inl rfl) rfl⟩
  fetch h hent hfiled := ⟨InPhase.stepwise.fetch h.1 hent hfiled,
    h.2.1.frame (Nat.le_refl _) ⟨rfl, id⟩ (fun x hx _ => by simpa [pending, hent] using hx) id,
    h.2.2.1, fun h1 => (h.2.2.2 h1).frame (fun _ => .inl rfl) rfl⟩
  fail h := ⟨InPhase.stepwise.fail h.1, h.2.1.move rfl rfl id, h.2.2.1,
    fun h1 => (h.2.2.2 h1).frame (fun _ => .inl rfl) rfl⟩
  drop hC h hrem := ⟨InPhase.stepwise.drop hC h.1 hrem, h.2.1.takeUp, h.2.2.1,
    fun h1 => (h.2.2.2 h1).frame (fun _ => .inl rfl) rfl⟩
  take hC h htime hp ho := ⟨InPhase.stepwise.take hC h.1 htime hp ho, h.2.1.take _, h.2.2.1,
    fun h1 => (h.2.2.2 h1).move nofun (fun _ => rfl) rfl nofun⟩

/-- `a` has been executed by `initObject` once and never by `startExecution`, and no object is
occupied by it. -/
structure Machine.Initialised (m : Machine ω) (a : ActionPtr) : Prop where
  once : initCalls a m.core.history.calls = 1
  unstarted : a ∉ startedActions m.core.history.calls
  released : (∀ f, m.control ≠ .aborted f) → ∀ o, (m.core.manager o).mActiveAction ≠ some a

theorem Machine.Holds.initialised {m : Machine ω} (h : m.Holds (Past a 1)) : m.Initialised a := by
  obtain ⟨st, batch, ⟨-, -, hk, hu⟩, hidle⟩ := h.stage
  refine ⟨hk, (hu rfl).started, fun hm o ha => ?_⟩
  obtain ⟨rfl, -⟩ := hidle hm
  obtain ⟨k, hst⟩ := (hu rfl).active o ha
  cases hst

theorem Machine.Holds.not_initialised {m : Machine ω} (h : m.Holds (Past a 0)) :
    ¬ m.Initialised a := by
  obtain ⟨st, batch, ⟨-, -, hk, -⟩, -⟩ := h.stage
  exact fun hi => absurd (hk.symm.trans hi.once) (by decide)

section
variable {V : Virtuals ω} {setup : CoreM ω Unit} {compareIds : Bool} {world : ω} {m n : Machine ω}
  {x : Scheduling} {rest : List Scheduling} {o : ObjectPtr}

/-- What the dispatch of an `InitAction` leaves. -/
theorem Past.dispatch (compareIds : Bool) (hV : V.Lawful) (hi : InPhase .idle (x :: rest) s)
    (hinits : InitsSettled .idle (x :: rest) s) (hk : x.handler.kind = .handlerInit)
    (ho : s.DispatchesTo x o) :
    let k := if s.manager o = {} then 1 else 0
    Post (Core.dispatch V compareIds x) (s.takeUp x) (fun _ s' => Past x.action k .idle rest s')
      fun _ s' => ∃ st batch, Past x.action k st batch s' := by
  have hmem : x ∈ pending (x :: rest) s := List.mem_cons_self ..
  have hzero : initCalls x.action s.history.calls = 0 := by_contra fun hne =>
    (hinits.settled _ hne).loose (List.mem_map_of_mem hmem)
  have htaken : InPhase (.taken .handlerInit o x.action) rest (s.takeUp x) := hk ▸ hi.take o
  have hinits' : InitsSettled (.taken .handlerInit o x.action) rest (s.takeUp x) :=
    ⟨fun a ha => hk ▸ (hinits.settled a ha).take o, fun _ _ hst => by cases hst⟩
  obtain ⟨phase, hp, -⟩ := hi
  have hmade := (hp.pending_made hmem).1
  obtain ⟨hphase, hkind⟩ := hp.pendingStart x hmem (by simp [hk])
  have hinvoke : Core.dispatch V compareIds x (s.takeUp x) =
      BaseObject.initObjectBase V o x.action (s.takeUp x) := by
    have ho' : (s.takeUp x).DispatchesTo x o := ⟨ho.id, ho.valid, ho.listed, ho.made⟩
    rw [ho'.dispatch hmade, BaseObject.invoke, hk]
    rfl
  intro k
  simp only [Post]
  rw [hinvoke]
  by_cases hfree : s.manager o = {}
  · have hk1 : k = 1 := if_pos hfree
    obtain ⟨s₁, hacts, hhist, hman, heq⟩ :=
      BaseObject.initObjectBase_free (s := s.takeUp x) V hmade ho.made hfree
    let c : Stage × Core ω :=
      (.closing .handlerInit o x.action, BaseObject.noteCall .handlerInit o x.action s₁)
    have hc : Past x.action k c.1 rest c.2 := by
      have hcount : initCalls x.action c.2.history.calls = 1 := by
        rw [initCalls_noteCall, hhist, if_pos ⟨rfl, rfl⟩]
        exact congrArg (· + 1) hzero
      obtain ⟨hi, hsettled⟩ := InitsSettled.stepwise.acts (hacts.tail .callInit) ⟨htaken, hinits'⟩
      refine ⟨hi, hsettled.settled _ (by rw [hcount]; decide), hk1 ▸ hcount,
        fun _ => ⟨fun o' hq => ?_, fun o' ha => ?_, ?_, fun hst => by cases hst⟩⟩
      · change x.action ∈ (s₁.manager o').mDelayedQueue at hq
        rw [hman] at hq
        split at hq
        · cases hq
        · cases hphase.symm.trans (hp.queue o' _ hq)
      · change (s₁.manager o').mActiveAction = some x.action at ha
        rw [hman] at ha
        split at ha
        · next ho' => exact ⟨_, by rw [ho']⟩
        · cases hphase.symm.trans (hp.active o' _ ha)
      · have hun : x.action ∉ startedActions s.history.calls := hp.not_started (by simp [hphase])
        have hsame : startedActions c.2.history.calls = startedActions s.history.calls := by
          change startedActions (s₁.history.calls ++ [_]) = _
          rw [hhist]
          simp [startedActions, Core.takeUp]
        rwa [hsame]
    rw [heq]
    have hinit : Post (BaseObject.initObject V o x.action) s₁
        (fun _ s' => Acts c (.closing .handlerInit o x.action, s')) (Fails c) :=
      Post.bind (M := fun _ s' => Acts c (.closing .handlerInit o x.action, s'))
        (post_modify .refl) fun _ _ h => post_objectProgram (hV.initObject _ _) h
    exact (hinit.bind fun _ _ h => post_closing hV h).mono (fun _ _ h => (Past.stepwise _ _).acts h hc)
      fun _ _ h => h.imp fun _ h => ⟨rest, (Past.stepwise _ _).acts h hc⟩
  · have hk0 : k = 0 := if_neg hfree
    obtain ⟨m, hm⟩ := BaseObject.initObjectBase_busy (s := s.takeUp x) (a := x.action) V hfree
    have hidle : ∀ {st s'}, Acts (.taken .handlerInit o x.action, s.takeUp x) (st, s') →
        s' = (s.takeUp x).setManager o m → Past x.action k .idle rest s' := by
      rintro st _ hacts rfl
      obtain ⟨phase', hp', -⟩ := InPhase.stepwise.acts hacts htaken
      obtain ⟨-, -, hl, -⟩ := htaken
      exact ⟨⟨phase', hp', trivial⟩, ⟨hmade, ActionKind.of_handlerInit (hk ▸ hkind),
        (hp.made _ (by simp [hphase])).2, hl, fun hst => by cases hst⟩, hk0 ▸ hzero,
        fun h1 => absurd (hk0.symm.trans h1) (by decide)⟩
    have hpost := (post_initObjectBase hV (ReflTransGen.refl (a :=
      (Stage.taken .handlerInit o x.action, s.takeUp x)))).and
      (post_of_state (I := fun s' => s' = (s.takeUp x).setManager o m) hm)
    refine hpost.mono (fun _ _ h => hidle h.1 h.2) ?_
    rintro _ _ ⟨⟨st, h⟩, hs⟩
    exact ⟨_, rest, hidle h hs⟩

/-- An `InitAction` that is dispatched to an existing object is initialised, now and ever after,
exactly if nothing is active and nothing waits on the object. -/
theorem initialised_iff (hV : V.Lawful) (hsetup : ObjectProgram setup)
    (h : Reached V compareIds setup world m) (hm : m.control = .executing)
    (hb : m.batch = x :: rest) (hk : x.handler.kind = .handlerInit)
    (ho : m.core.DispatchesTo x o) {delay : Duration}
    (hn : (m.step V compareIds setup delay).Later V compareIds setup n) :
    n.Initialised x.handler.mCorrespondingAction ↔ m.core.manager o = {} := by
  have hholds := InitsSettled.stepwise.reached hV hsetup (fun _ _ _ => trivial)
    ⟨⟨_, Phased.new world, trivial⟩, by simp [Core.new, initCalls], nofun⟩ h
  have hidle : InPhase .idle m.batch m.core ∧ InitsSettled .idle m.batch m.core := by
    simpa [Machine.Holds, hm] using hholds
  rw [hb] at hidle
  have hstep : m.step V compareIds setup delay =
      ({ m with core := m.core.takeUp x, batch := rest } : Machine ω).resume do
        Core.dispatch V compareIds x
        return .executing := by
    simp only [Machine.step]
    simp only [hm, hb]
  have hpast := Machine.holds_resume { m with core := m.core.takeUp x, batch := rest }
    (Past.dispatch compareIds hV hidle.1 hidle.2 hk ho)
  rw [← hstep] at hpast
  have hlater := (Past.stepwise _ _).later hV hsetup (h.step ⟨trivial, delay, rfl⟩) hpast hn
  split_ifs at hlater with hfree
  · exact iff_of_true hlater.initialised hfree
  · exact iff_of_false hlater.not_initialised hfree

end

end

/-! ## An `InitAction` among other actions -/

/-- Add one object to the simulation and schedule actions of the given kinds for it. -/
def mixedWork (work : List (ActionKind × Duration × TimePoint)) : CoreM ω Unit := do
  oneObject []
  work.forM fun (kind, duration, start) => do
    let action ← ActionFactory.create kind duration start 2 2
    Action.scheduleStartHandler action

theorem mixedWork_program (work : List (ActionKind × Duration × TimePoint)) :
    ObjectProgram (mixedWork work : CoreM ω Unit) :=
  .bind (oneObject_program _) fun _ => .forM fun _ _ =>
    .bind (.prim (.create _ _ _ _ _)) fun _ => .prim (.scheduleStartHandler _)

/-- The run of one object with this work, over as many steps. -/
def mixedRun (work : List (ActionKind × Duration × TimePoint)) (steps : Nat) : Machine Unit :=
  (Machine.new ()).run SimulationManager.virtuals false (mixedWork work) (List.replicate steps 0)

theorem mixedRun_add (work : List (ActionKind × Duration × TimePoint)) (k l : Nat) :
    mixedRun work (k + l) = (mixedRun work k).run SimulationManager.virtuals false (mixedWork work)
      (List.replicate l 0) := by
  rw [mixedRun, mixedRun, Machine.run, Machine.run, Machine.run, List.replicate_add,
    List.foldl_append]

/-- The machines after the next step. -/
theorem mixedRun_later (work : List (ActionKind × Duration × TimePoint)) (k l : Nat) :
    ((mixedRun work k).step SimulationManager.virtuals false (mixedWork work) 0).Later
      SimulationManager.virtuals false (mixedWork work) (mixedRun work (k + (l + 1))) := by
  rw [mixedRun_add, List.replicate_succ]
  exact Machine.later_run _ _

theorem mixedRun_reached (work : List (ActionKind × Duration × TimePoint)) (k : Nat) :
    Reached SimulationManager.virtuals false (mixedWork work) () (mixedRun work k) :=
  ReachedUnder.run

/-- An `InitAction` that is dispatched to a free object. -/
theorem initialised_iff_free :
    (mixedRun [(.initAction, 0, 3), (.durationAction, 5, 3)] 3).batch.map Scheduling.handler =
        [⟨.handlerInit, 0⟩, ⟨.handlerStart, 1⟩] ∧
      ((mixedRun [(.initAction, 0, 3), (.durationAction, 5, 3)] 10).Initialised 0 ↔
        (mixedRun [(.initAction, 0, 3), (.durationAction, 5, 3)] 3).core.manager 0 = {}) := by
  have hbatch : (mixedRun [(.initAction, 0, 3), (.durationAction, 5, 3)] 3).batch =
      [⟨⟨.handlerInit, 0⟩, 3, 1, 1⟩, ⟨⟨.handlerStart, 1⟩, 3, 2, 2⟩] := by decide +kernel
  have hm : (mixedRun [(.initAction, 0, 3), (.durationAction, 5, 3)] 3).control = .executing := by
    decide +kernel
  have ho : (mixedRun [(.initAction, 0, 3), (.durationAction, 5, 3)] 3).core.DispatchesTo
      ⟨⟨.handlerInit, 0⟩, 3, 1, 1⟩ 0 := by decide +kernel
  exact ⟨by decide +kernel, initialised_iff SimulationManager.virtuals_lawful (mixedWork_program _)
    (mixedRun_reached _ 3) hm hbatch rfl ho (mixedRun_later _ 3 6)⟩

/-- An `InitAction` that is dispatched while a `DurationAction` runs is delayed and then started. -/
theorem not_initialised :
    ¬ ∀ (work : List (ActionKind × Duration × TimePoint)) (m n : Machine Unit) (x : Scheduling)
      (rest : List Scheduling) (o : ObjectPtr),
      Reached SimulationManager.virtuals false (mixedWork work) () m → m.control = .executing →
        m.batch = x :: rest → x.handler.kind = .handlerInit → m.core.DispatchesTo x o →
        (m.step SimulationManager.virtuals false (mixedWork work) 0).Later
          SimulationManager.virtuals false (mixedWork work) n →
        x.handler.mCorrespondingAction ∉ startedActions n.core.history.calls := by
  intro h
  have hbatch : (mixedRun [(.durationAction, 5, 0), (.initAction, 0, 3)] 7).batch =
      [⟨⟨.handlerInit, 1⟩, 3, 2, 2⟩] := by decide +kernel
  have hm : (mixedRun [(.durationAction, 5, 0), (.initAction, 0, 3)] 7).control = .executing := by
    decide +kernel
  have ho : (mixedRun [(.durationAction, 5, 0), (.initAction, 0, 3)] 7).core.DispatchesTo
      ⟨⟨.handlerInit, 1⟩, 3, 2, 2⟩ 0 := by decide +kernel
  have hstarted : 1 ∈ startedActions
      (mixedRun [(.durationAction, 5, 0), (.initAction, 0, 3)] 12).core.history.calls := by
    decide +kernel
  exact h _ _ (mixedRun [(.durationAction, 5, 0), (.initAction, 0, 3)] 12) _ _ 0
    (mixedRun_reached _ 7) hm hbatch rfl ho (mixedRun_later _ 7 4) hstarted

end Cosidia
