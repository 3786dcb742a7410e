import Cosidia.Verify.Specs
import Cosidia.Theory.Reachable

/-!
# The life of one action

`scheduleStartHandler` and `scheduleEndHandler` guard the lifecycle of an action by its id and by
its state machine. Both change them before `insertHandler` looks at the time, and nothing is taken
back when the time is rejected. The state machine does not guard the end handler, because in a
`COSIDIA_SAFE` build `setFinished` is compiled out.
-/

namespace Cosidia

open EStateM

variable {ω : Type} {s s' : Core ω} {p q : ActionPtr}

/-! ## Handlers that are rejected for their time -/

/-- How `insertHandler` rejects a handler whose time has passed. -/
def ActionList.wrongOrder : Failure := .runtimeError "ActionList: Wrong order of actions"

/-- A rejected call has used up an id, which the action keeps; its state machine is in `state`. -/
structure Core.Rejected (s s' : Core ω) (p : ActionPtr) (state : ActionStateMachine) : Prop where
  mActions : s'.mActions = s.mActions
  mCurrentActionId : s'.mCurrentActionId = s.mCurrentActionId + 1
  action : s'.actions.cell p =
    { s.actions.cell p with mActionId := s.mCurrentActionId + 1, mStateMachine := state }
  others : ∀ q, q ≠ p → s'.actions.cell q = s.actions.cell q
  next : s'.actions.next = s.actions.next

/-- An action that has been made is the only one that its methods change. -/
theorem onAction_eq_ok {α : Type} {x : EStateM Failure Action α} {r : α}
    (h : onAction p x s = .ok r s') : p < s.actions.next ∧
      ∃ a, x (s.actions.cell p) = .ok r a ∧ s' = s.writeAction p a := by
  simp only [onAction] at h
  split_ifs at h with hp
  obtain ⟨a, hx, hs⟩ := zoom_eq_ok.1 h
  exact ⟨hp, a, hx, hs.symm⟩

namespace Action

theorem scheduleStartHandler_rejected
    (h : scheduleStartHandler p s = .error ActionList.wrongOrder s') :
    s.Rejected s' p (s.actions.cell p).kind.scheduled := by
  have hp : p < s.actions.next := by
    by_contra hp
    rw [scheduleStartHandler, bind_apply, getAction_of_not_lt hp] at h
    cases h
  rw [scheduleStartHandler_cases hp] at h
  split_ifs at h with hid hw ht
  · obtain ⟨-, rfl⟩ := Result.error.inj h
    refine ⟨rfl, rfl, ?_, fun q hq => ?_, rfl⟩
    · apply (Heap.write_cell_self ..).trans
      rw [Core.writeAction_actions, Heap.write_cell_self]
      rfl
    · exact (Heap.write_cell_of_ne hq).trans (Heap.write_cell_of_ne hq)
  · simp [ActionList.wrongOrder] at h
  · generalize (s.actions.cell p).kind = kind at h
    cases kind <;> simp [ActionList.wrongOrder, ActionKind.idAlreadySet] at h

theorem scheduleEndHandler_rejected
    (h : scheduleEndHandler p s = .error ActionList.wrongOrder s') :
    s.Rejected s' p (s.actions.cell p).mStateMachine ∧ (s.actions.cell p).kind = .durationAction ∧
      p < s.actions.next := by
  have hp : p < s.actions.next := by
    by_contra hp
    rw [scheduleEndHandler, bind_apply, getAction_of_not_lt hp] at h
    cases h
  cases hk : (s.actions.cell p).kind with
  | initAction =>
    rw [scheduleEndHandler_of_initAction hp hk] at h
    cases h
  | durationAction =>
    rw [scheduleEndHandler_cases hp hk] at h
    split_ifs at h with hid ht
    · simp [ActionList.wrongOrder] at h
    · obtain ⟨-, rfl⟩ := Result.error.inj h
      exact ⟨⟨rfl, rfl, Heap.write_cell_self .., fun q hq => Heap.write_cell_of_ne hq, rfl⟩, rfl, hp⟩

/-- An action that does not wait any more is not scheduled. -/
theorem scheduleStartHandler_of_not_waiting (hp : p < s.actions.next)
    (hw : (s.actions.cell p).mStateMachine ≠ .waiting) :
    ∃ e s', scheduleStartHandler p s = .error e s' ∧ s'.mActions = s.mActions := by
  rw [scheduleStartHandler_cases hp]
  split_ifs with hid
  · exact ⟨_, _, rfl, rfl⟩
  · exact ⟨_, _, rfl, rfl⟩

theorem scheduled_ne_waiting (kind : ActionKind) : kind.scheduled ≠ .waiting := by
  cases kind <;> nofun

end Action

/-- A handler that is rejected for its time does not enter the list, but an id is used up. After the
start handler has been rejected, the action can never be scheduled; after the end handler has been
rejected, a later one can. -/
theorem rejected_for_time (s s' : Core ω) (p : ActionPtr) :
    (Action.scheduleStartHandler p s = .error ActionList.wrongOrder s' →
      s.Rejected s' p (s.actions.cell p).kind.scheduled ∧
        ∀ t s₁, onAction p (Action.shiftStartTime t) s' = .ok () s₁ →
          ∃ e s₂, Action.scheduleStartHandler p s₁ = .error e s₂ ∧ s₂.mActions = s₁.mActions) ∧
    (Action.scheduleEndHandler p s = .error ActionList.wrongOrder s' →
      s.Rejected s' p (s.actions.cell p).mStateMachine ∧
        ∀ t s₁, onAction p (Action.shiftStartTime t) s' = .ok () s₁ →
          s₁.mCurrentActionTime ≤ (s₁.actions.cell p).getEndTime →
            ((Action.scheduleEndHandler p s₁).value? = some () ↔ s.mCurrentActionId + 1 ≠ 0)) := by
  -- shifting the start time changes nothing else
  have hshift : ∀ {t : TimePoint} {s₁ : Core ω},
      onAction p (Action.shiftStartTime t) s' = .ok () s₁ → p < s₁.actions.next ∧
        s₁.actions.cell p = { s'.actions.cell p with mStartTime := t } := by
    intro t s₁ h
    obtain ⟨hp, a, ha, rfl⟩ := onAction_eq_ok h
    rw [Action.shiftStartTime_apply] at ha
    split_ifs at ha
    obtain ⟨-, rfl⟩ := Result.ok.inj ha
    exact ⟨hp, Heap.write_cell_self ..⟩
  constructor
  · intro h
    have hr := Action.scheduleStartHandler_rejected h
    refine ⟨hr, fun t s₁ h₁ => ?_⟩
    obtain ⟨hp, hcell⟩ := hshift h₁
    apply Action.scheduleStartHandler_of_not_waiting hp
    rw [hcell, hr.action]
    exact Action.scheduled_ne_waiting _
  · intro h
    obtain ⟨hr, hk, -⟩ := Action.scheduleEndHandler_rejected h
    refine ⟨hr, fun t s₁ h₁ ht => ?_⟩
    obtain ⟨hp, hcell⟩ := hshift h₁
    have hk₁ : (s₁.actions.cell p).kind = .durationAction := by rw [hcell, hr.action, hk]
    have hid₁ : (s₁.actions.cell p).mActionId = s.mCurrentActionId + 1 := by rw [hcell, hr.action]
    rw [Action.scheduleEndHandler_cases hp hk₁, hid₁]
    split_ifs with hid
    · exact iff_of_false nofun fun h => h hid
    · exact iff_of_true rfl hid

/-- A core with one action, which starts at time 3. -/
def Core.lone (now : TimePoint) (kind : ActionKind) (id : ActionId) (state : ActionStateMachine) :
    Core Unit :=
  { Core.new () with
    mCurrentActionTime := now
    actions := (Core.new ()).actions.alloc ⟨kind, 0, 3, 2, 2, "default", none, id, state⟩ }

/-- An action that is scheduled too late, and one that is ended too late. -/
theorem rejected_for_time_late :
    (∃ s', (Core.lone 5 .durationAction 0 .waiting).Rejected s' 0 .running ∧
      ∀ t s₁, onAction 0 (Action.shiftStartTime t) s' = .ok () s₁ →
        ∃ e s₂, Action.scheduleStartHandler 0 s₁ = .error e s₂ ∧ s₂.mActions = s₁.mActions) ∧
    ∃ s', (Core.lone 5 .durationAction 1 .running).Rejected s' 0 .running ∧
      ∀ t s₁, onAction 0 (Action.shiftStartTime t) s' = .ok () s₁ →
        s₁.mCurrentActionTime ≤ (s₁.actions.cell 0).getEndTime →
          ((Action.scheduleEndHandler 0 s₁).value? = some () ↔ (0 : ActionId) + 1 ≠ 0) := by
  have hstart : Action.scheduleStartHandler 0 (Core.lone 5 .durationAction 0 .waiting) =
      .error ActionList.wrongOrder
        (Action.scheduleStartHandler 0 (Core.lone 5 .durationAction 0 .waiting)).state := by
    rfl
  have hend : Action.scheduleEndHandler 0 (Core.lone 5 .durationAction 1 .running) =
      .error ActionList.wrongOrder
        (Action.scheduleEndHandler 0 (Core.lone 5 .durationAction 1 .running)).state := by
    rfl
  exact ⟨⟨_, (rejected_for_time (Core.lone 5 .durationAction 0 .waiting) _ 0).1 hstart⟩,
    _, (rejected_for_time (Core.lone 5 .durationAction 1 .running) _ 0).2 hend⟩

/-- A rejected start handler takes an id and leaves the state machine advanced. -/
theorem not_unchanged_for_time :
    ¬ ∀ (s s' : Core Unit) (p : ActionPtr),
      (Action.scheduleStartHandler p s = .error ActionList.wrongOrder s' ∨
        Action.scheduleEndHandler p s = .error ActionList.wrongOrder s') →
      s'.mActions = s.mActions ∧ s'.mCurrentActionId = s.mCurrentActionId ∧
        (s'.actions.cell p).mActionId = (s.actions.cell p).mActionId ∧
          (s'.actions.cell p).mStateMachine = (s.actions.cell p).mStateMachine := by
  intro h
  have hstart : Action.scheduleStartHandler 0 (Core.lone 5 .durationAction 0 .waiting) =
      .error ActionList.wrongOrder
        (Action.scheduleStartHandler 0 (Core.lone 5 .durationAction 0 .waiting)).state := by
    rfl
  exact absurd (h _ _ _ (.inl hstart)).2.1 (by decide +kernel)

/-! ## Calls on one action -/

/-- How often the handler of this kind of the action `p` has entered the list. -/
def Core.entered (kind : HandlerKind) (p : ActionPtr) (s : Core ω) : Nat :=
  s.history.accepted.countP fun h => h.handler = ⟨kind, p⟩

theorem Core.entered_accept (handler : ActionHandler) (kind : HandlerKind) (p : ActionPtr)
    (s : Core ω) : (s.accept handler).entered kind p =
      s.entered kind p + if handler = ⟨kind, p⟩ then 1 else 0 := by
  rw [entered, accept_accepted, List.countP_append, List.countP_singleton, nextScheduling_handler]
  simp only [decide_eq_true_eq]
  rfl

theorem Core.entered_schedule (kind : HandlerKind) (p q : ActionPtr) (s : Core ω) :
    (s.schedule p).entered kind q =
      s.entered kind q + if (⟨(s.actions.cell p).kind.startHandler, p⟩ : ActionHandler) = ⟨kind, q⟩
        then 1 else 0 :=
  entered_accept ..

theorem Core.accept_cell (handler : ActionHandler) (s : Core ω) :
    (s.accept handler).actions.cell handler.mCorrespondingAction =
      { s.actions.cell handler.mCorrespondingAction with mActionId := s.mCurrentActionId + 1 } :=
  Heap.write_cell_self ..

/-- The parts of the core in which the lifecycle of the action `p` is kept are left alone. -/
structure Core.Spares (s s' : Core ω) (p : ActionPtr) : Prop where
  next : s.actions.next ≤ s'.actions.next
  kind : (s'.actions.cell p).kind = (s.actions.cell p).kind
  id : (s'.actions.cell p).mActionId = (s.actions.cell p).mActionId
  state : (s'.actions.cell p).mStateMachine = (s.actions.cell p).mStateMachine
  entered : ∀ kind, s'.entered kind p = s.entered kind p

namespace Protocol

/-- A call on the action, or anything else that happens. -/
inductive Move where
  | start
  | finish
  | other
  deriving DecidableEq, Repr

/-- The call that is made on the action `p`. -/
def Move.call (p : ActionPtr) : Move → CoreM ω Unit
  | .start => Action.scheduleStartHandler p
  | .finish => Action.scheduleEndHandler p
  | .other => pure ()

/-- The calls are made when the core accepts the time of the handler. -/
inductive Step (p : ActionPtr) : Core ω → Move → Core ω → Prop
  | start {s : Core ω} : s.mCurrentActionTime ≤ (s.actions.cell p).mStartTime →
    Step p s .start (Action.scheduleStartHandler p s).state
  | finish {s : Core ω} : s.mCurrentActionTime ≤ (s.actions.cell p).getEndTime →
    Step p s .finish (Action.scheduleEndHandler p s).state
  | other {s s' : Core ω} : s.Spares s' p → Step p s .other s'

/-- A `DurationAction` on which no call has been made yet. -/
structure Unscheduled (p : ActionPtr) (s : Core ω) : Prop where
  lt : p < s.actions.next
  kind : (s.actions.cell p).kind = .durationAction
  id : (s.actions.cell p).mActionId = 0
  state : (s.actions.cell p).mStateMachine = .waiting
  entered : ∀ kind, s.entered kind p = 0

/-- The start handler has entered at most once, the end handler at most once and not before it. -/
structure Ordered (p : ActionPtr) (s : Core ω) : Prop where
  start : s.entered .handlerStart p ≤ 1
  finish : s.entered .handlerEnd p ≤ 1
  order : s.entered .handlerStart p = 0 → s.entered .handlerEnd p = 0

/-- The call is out of turn: its handler has entered already, or the action has not started. -/
def Move.OutOfTurn (p : ActionPtr) (s : Core ω) : Move → Prop
  | .start => s.entered .handlerStart p ≠ 0
  | .finish => s.entered .handlerEnd p ≠ 0 ∨ s.entered .handlerStart p = 0
  | .other => False

/-- A call out of turn throws and leaves the list as it is. -/
def Move.Guarded (p : ActionPtr) (s : Core ω) (m : Move) : Prop :=
  m.OutOfTurn p s → ∃ e s', m.call p s = .error e s' ∧ s'.mActions = s.mActions

/-- `scheduleEndHandler` is not called after the end handler has entered, unless the counter has
given the id 0 to the action. -/
def Move.EndsOnce (p : ActionPtr) (s : Core ω) (m : Move) : Prop :=
  m = .finish → s.entered .handlerEnd p = 0 ∨ (s.actions.cell p).mActionId = 0

/-- What id, state machine and list have to do with each other, whatever calls are made. -/
structure Started (p : ActionPtr) (s : Core ω) : Prop where
  lt : p < s.actions.next
  kind : (s.actions.cell p).kind = .durationAction
  start : s.entered .handlerStart p ≤ 1
  fresh : s.entered .handlerStart p = 0 → (s.actions.cell p).mActionId = 0 ∧
    (s.actions.cell p).mStateMachine = .waiting ∧ s.entered .handlerEnd p = 0
  running : s.entered .handlerStart p ≠ 0 → (s.actions.cell p).mStateMachine ≠ .waiting

theorem Unscheduled.started (h : Unscheduled p s) : Started p s where
  lt := h.lt
  kind := h.kind
  start := by rw [h.entered]; exact Nat.zero_le 1
  fresh _ := ⟨h.id, h.state, h.entered _⟩
  running hn := absurd (h.entered _) hn

/-- The start handler enters from `waiting` only. -/
theorem Started.scheduleStartHandler (h : Started p s)
    (ht : s.mCurrentActionTime ≤ (s.actions.cell p).mStartTime) :
    Started p (Action.scheduleStartHandler p s).state := by
  rw [Action.scheduleStartHandler_cases h.lt]
  split_ifs with hid hw
  · have hn : s.entered .handlerStart p = 0 := by
      by_contra hn
      exact h.running hn hw
    have hstart : (s.schedule p).entered .handlerStart p = 1 := by
      rw [Core.entered_schedule, hn, h.kind, ActionKind.startHandler, if_pos rfl]
    refine ⟨h.lt, ?_, hstart.le, fun hz => ?_, fun _ => ?_⟩
    · rw [Result.state_ok, Core.schedule_cell]
      exact h.kind
    · rw [Result.state_ok, hstart] at hz
      cases hz
    · rw [Result.state_ok, Core.schedule_cell]
      exact Action.scheduled_ne_waiting _
  · have hcell : (s.writeAction p
        { s.actions.cell p with mStateMachine := .failure }).actions.cell p =
          { s.actions.cell p with mStateMachine := .failure } := Heap.write_cell_self ..
    refine ⟨h.lt, ?_, h.start, fun hz => absurd (h.fresh hz).2.1 hw, fun _ => ?_⟩
    · rw [Result.state_error, hcell]
      exact h.kind
    · rw [Result.state_error, hcell]
      nofun
  · exact h

theorem Started.scheduleEndHandler (h : Started p s)
    (ht : s.mCurrentActionTime ≤ (s.actions.cell p).getEndTime) :
    Started p (Action.scheduleEndHandler p s).state := by
  rw [Action.scheduleEndHandler_cases h.lt h.kind, if_pos ht]
  split_ifs with hid
  · exact h
  · have hstart : (s.accept ⟨.handlerEnd, p⟩).entered .handlerStart p =
        s.entered .handlerStart p := by
      rw [Core.entered_accept, if_neg (by simp), Nat.add_zero]
    refine ⟨h.lt, ?_, hstart.trans_le h.start, fun hz => ?_, fun hn => ?_⟩
    · rw [Result.state_ok, Core.accept_cell ⟨.handlerEnd, p⟩]
      exact h.kind
    · rw [Result.state_ok, hstart] at hz
      exact absurd (h.fresh hz).1 hid
    · rw [Result.state_ok, hstart] at hn
      rw [Result.state_ok, Core.accept_cell ⟨.handlerEnd, p⟩]
      exact h.running hn

theorem Started.spares (h : Started p s) (hs : s.Spares s' p) : Started p s' where
  lt := h.lt.trans_le hs.next
  kind := hs.kind.trans h.kind
  start := by rw [hs.entered]; exact h.start
  fresh := by rw [hs.entered, hs.entered, hs.id, hs.state]; exact h.fresh
  running := by rw [hs.entered, hs.state]; exact h.running

theorem Started.step {m : Move} (h : Started p s) (hs : Step p s m s') : Started p s' := by
  cases hs with
  | start ht => exact h.scheduleStartHandler ht
  | finish ht => exact h.scheduleEndHandler ht
  | other hs => exact h.spares hs

/-- The end handler enters whenever it is scheduled for an action that has an id. -/
theorem Started.finish_le_iff {m : Move} (h : Started p s) (hle : s.entered .handlerEnd p ≤ 1)
    (hs : Step p s m s') : s'.entered .handlerEnd p ≤ 1 ↔ m.EndsOnce p s := by
  cases hs with
  | start ht =>
    refine iff_of_true ?_ nofun
    rw [Action.scheduleStartHandler_cases h.lt]
    split_ifs with hid hw
    · rw [Result.state_ok, Core.entered_schedule, h.kind, if_neg (by simp [ActionKind.startHandler])]
      exact hle
    · exact hle
    · exact hle
  | finish ht =>
    rw [Action.scheduleEndHandler_cases h.lt h.kind, if_pos ht]
    split_ifs with hid
    · exact iff_of_true hle fun _ => .inr hid
    · rw [Result.state_ok, Core.entered_accept, if_pos rfl]
      refine ⟨fun hle _ => .inl (by omega), fun honce => ?_⟩
      rcases honce rfl with hz | hz
      · omega
      · exact absurd hz hid
  | other hs => exact iff_of_true ((hs.entered _).trans_le hle) nofun

theorem Started.guarded {m : Move} (h : Started p s) (honce : m.EndsOnce p s) : m.Guarded p s := by
  intro hm
  cases m with
  | start => exact Action.scheduleStartHandler_of_not_waiting h.lt (h.running hm)
  | finish =>
    have hid : (s.actions.cell p).mActionId = 0 := by
      rcases hm with hn | hz
      · exact (honce rfl).resolve_left hn
      · exact (h.fresh hz).1
    have hthrow := Action.scheduleEndHandler_cases h.lt h.kind
    rw [if_pos hid] at hthrow
    exact ⟨_, _, hthrow, rfl⟩
  | other => exact hm.elim

/-- Start and end handler enter once and in this order, and all other calls are refused, exactly if
`scheduleEndHandler` is not called once the end handler has entered. -/
theorem guarded_iff {s₀ s : Core ω} {t : List (Core ω × Move)} (h₀ : Unscheduled p s₀)
    (h : Trail (Step p) s₀ t s) :
    ((∀ e ∈ t, Ordered p e.1 ∧ e.2.Guarded p e.1) ∧ Ordered p s) ↔
      ∀ e ∈ t, e.2.EndsOnce p e.1 := by
  have hstarted := h.invariant h₀.started Started.step
  have hfinish := Trail.forall_iff (P := fun s => s.entered .handlerEnd p ≤ 1) h₀.started
    ((h₀.entered _).trans_le (Nat.zero_le 1)) Started.step Started.finish_le_iff h
  constructor
  · rintro ⟨hall, hlast⟩
    exact hfinish.1 ⟨fun e he => (hall e he).1.finish, hlast.finish⟩
  · intro honce
    obtain ⟨hall, hlast⟩ := hfinish.2 honce
    have hordered : ∀ {s : Core ω}, Started p s → s.entered .handlerEnd p ≤ 1 → Ordered p s :=
      fun h hle => ⟨h.start, hle, fun hz => (h.fresh hz).2.2⟩
    refine ⟨fun e he => ⟨hordered (hstarted.1 e he) (hall e he), ?_⟩, hordered hstarted.2 hlast⟩
    exact (hstarted.1 e he).guarded (honce e he)

/-- The action has been started and ended once. -/
theorem guarded_iff_lone : ∃ t s, Trail (Step 0) (Core.lone 0 .durationAction 0 .waiting) t s ∧
    t.map Prod.snd = [.start, .finish] ∧
      (((∀ e ∈ t, Ordered 0 e.1 ∧ e.2.Guarded 0 e.1) ∧ Ordered 0 s) ↔
        ∀ e ∈ t, e.2.EndsOnce 0 e.1) := by
  have ht : Trail (Step 0) (Core.lone 0 .durationAction 0 .waiting) _ _ :=
    .snoc (.snoc .nil (.start (by decide +kernel))) (.finish (by decide +kernel))
  exact ⟨_, _, ht, rfl, guarded_iff ⟨by decide, rfl, rfl, rfl, fun _ => rfl⟩ ht⟩

/-- Nothing keeps `scheduleEndHandler` from scheduling the end handler twice. -/
theorem not_guarded :
    ¬ ∀ (s₀ s : Core Unit) (t : List (Core Unit × Move)) (p : ActionPtr), Unscheduled p s₀ →
      Trail (Step p) s₀ t s →
        (∀ e ∈ t, Ordered p e.1 ∧ e.2.Guarded p e.1) ∧ Ordered p s := by
  intro h
  have ht : Trail (Step 0) (Core.lone 0 .durationAction 0 .waiting) _ _ :=
    .snoc (.snoc (.snoc .nil (.start (by decide +kernel))) (.finish (by decide +kernel)))
      (.finish (by decide +kernel))
  have hordered := (h _ _ _ 0 ⟨by decide, rfl, rfl, rfl, fun _ => rfl⟩ ht).2
  exact absurd hordered.finish (by decide +kernel)

end Protocol

/-! ### What else happens -/

namespace Core.Spares

theorem refl (s : Core ω) (p : ActionPtr) : s.Spares s p := ⟨le_rfl, rfl, rfl, rfl, fun _ => rfl⟩

theorem giveId (handler : ActionHandler) (h : handler.mCorrespondingAction ≠ p) (s : Core ω) :
    s.Spares (s.giveId handler) p := by
  have hcell : (s.giveId handler).actions.cell p = s.actions.cell p :=
    Heap.write_cell_of_ne h.symm
  exact ⟨le_rfl, by rw [hcell], by rw [hcell], by rw [hcell], fun _ => rfl⟩

theorem accept (handler : ActionHandler) (h : handler.mCorrespondingAction ≠ p) (s : Core ω) :
    s.Spares (s.accept handler) p := by
  obtain ⟨hnext, hkind, hid, hstate, -⟩ := giveId handler h s
  refine ⟨hnext, hkind, hid, hstate, fun kind => ?_⟩
  rw [entered_accept, if_neg (by rintro rfl; exact h rfl), Nat.add_zero]

theorem writeAction (h : q ≠ p) (a : Action) (s : Core ω) : s.Spares (s.writeAction q a) p := by
  have hcell : (s.writeAction q a).actions.cell p = s.actions.cell p :=
    Heap.write_cell_of_ne h.symm
  exact ⟨le_rfl, by rw [hcell], by rw [hcell], by rw [hcell], fun _ => rfl⟩

theorem trans {s'' : Core ω} (h : s.Spares s' p) (h' : s'.Spares s'' p) : s.Spares s'' p where
  next := h.next.trans h'.next
  kind := h'.kind.trans h.kind
  id := h'.id.trans h.id
  state := h'.state.trans h.state
  entered kind := (h'.entered kind).trans (h.entered kind)

/-- The calls on other actions. -/
theorem scheduleStartHandler (h : q ≠ p) (s : Core ω) :
    s.Spares (Action.scheduleStartHandler q s).state p := by
  by_cases hq : q < s.actions.next
  swap
  · rw [Action.scheduleStartHandler, bind_apply, getAction_of_not_lt hq]
    exact refl s p
  rw [Action.scheduleStartHandler_cases hq]
  split_ifs
  · exact (writeAction h _ s).trans (accept _ h _)
  · exact (writeAction h _ s).trans (giveId _ h _)
  · exact writeAction h _ s
  · exact refl s p

/-- The loop does not look at the actions. -/
theorem runSimulationLoop (s : Core ω) (p : ActionPtr) :
    s.Spares (Core.runSimulationLoop s).state p := by
  rw [runSimulationLoop_apply]
  dsimp only
  by_cases ht : s.mCurrentActionTime ≤ ActionList.getNextTimePoint s.mActions
  · rw [if_pos ht]
    exact ⟨le_rfl, rfl, rfl, rfl, fun _ => rfl⟩
  · rw [if_neg ht]
    exact refl s p

end Core.Spares

end Cosidia
