import Cosidia.Verify.Stepwise

/-!
# The life of an action

An action is first unscheduled, then its first handler is pending, then it waits in the queue of an
object or is made the active action of an object. `Phased` says that the list, the managers and the
history agree on the phase every action is in, so that no action is in two places at once.
-/

namespace Cosidia

open EStateM

variable {ω : Type}

/-- The phases of an action. -/
inductive Phase where
  | unscheduled
  /-- Its start or init handler has been scheduled. -/
  | scheduled
  /-- It waits in the queue of `o`. -/
  | delayed (o : ObjectPtr)
  /-- It is or was the active action of `o`. -/
  | begun (o : ObjectPtr)
  deriving DecidableEq

/-- The action of a scheduling. -/
def Scheduling.action (h : Scheduling) : ActionPtr := h.handler.mCorrespondingAction

/-- The actions that `startExecution` has been called with. -/
def startedActions (calls : List Call) : List ActionPtr :=
  (calls.filter fun c => c.kind = .handlerStart).map Call.action

theorem mem_startedActions {calls : List Call} {a : ActionPtr} :
    a ∈ startedActions calls ↔ ∃ c ∈ calls, c.kind = .handlerStart ∧ c.action = a := by
  simp [startedActions, and_assoc]

/-- The list, the managers and the calls agree on the phases of the actions. -/
structure Phased (phase : ActionPtr → Phase) (batch : List Scheduling) (s : Core ω) : Prop where
  filed : s.mActions.Filed Scheduling.time
  made : ∀ a, phase a ≠ .unscheduled →
    a < s.actions.next ∧ (s.actions.cell a).mStateMachine ≠ .waiting
  /-- No action has two pending handlers. -/
  one : ((pending batch s).map Scheduling.action).Nodup
  pendingId : ∀ h ∈ pending batch s, (s.actions.cell h.action).mActionId = BitVec.ofNat 32 h.ids
  pendingEnd : ∀ h ∈ pending batch s, h.handler.kind = .handlerEnd → ∃ o, phase h.action = .begun o
  pendingStart : ∀ h ∈ pending batch s, h.handler.kind ≠ .handlerEnd →
    phase h.action = .scheduled ∧ h.handler.kind = (s.actions.cell h.action).kind.startHandler
  queue : ∀ o, ∀ a ∈ (s.manager o).mDelayedQueue, phase a = .delayed o
  queueNodup : ∀ o, (s.manager o).mDelayedQueue.Nodup
  active : ∀ o a, (s.manager o).mActiveAction = some a → phase a = .begun o
  begun : ∀ c ∈ s.history.calls, c.kind = .handlerStart → phase c.action = .begun c.object
  once : (startedActions s.history.calls).Nodup
  unmade : ∀ o, s.objects.next ≤ o → s.manager o = {}
  counter : s.mCurrentActionId = BitVec.ofNat 32 s.history.ids

/-- `a` has no pending handler. -/
def Loose (batch : List Scheduling) (s : Core ω) (a : ActionPtr) : Prop :=
  a ∉ (pending batch s).map Scheduling.action

/-- The action a stage has in hand is in the phase that the stage needs. -/
def Stage.InHand (phase : ActionPtr → Phase) (batch : List Scheduling) (s : Core ω) :
    Stage → Prop
  | .idle => True
  | .taken k _ a => Loose batch s a ∧
    if k = .handlerEnd then ∃ o, phase a = .begun o
    else phase a = .scheduled ∧ k = (s.actions.cell a).kind.startHandler
  | .starting o _ y a | .noted o y a => (s.manager o).mActiveAction = some a ∧
    a ∉ startedActions s.history.calls ∧ Loose batch s y ∧ ∃ o, phase y = .begun o
  | .armed o a => (s.manager o).mActiveAction = some a ∧ a ∉ startedActions s.history.calls
  | .initialising o a => (s.manager o).mActiveAction = some a ∧ Loose batch s a
  | .closing _ _ a | .released _ _ a => Loose batch s a ∧ ∃ o, phase a = .begun o
  | .activated _ o a b => Loose batch s a ∧ (∃ o, phase a = .begun o) ∧
    (s.manager o).mActiveAction = some b ∧ b ∉ startedActions s.history.calls ∧ Loose batch s b

namespace Phased

variable {phase : ActionPtr → Phase} {batch rest : List Scheduling} {s s' : Core ω}

theorem new (world : ω) : Phased (fun _ => .unscheduled) [] (Core.new world) where
  filed := BucketMap.filed_empty _
  made a h := absurd rfl h
  one := by simp [pending, Core.new]
  pendingId := by simp [pending, Core.new]
  pendingEnd := by simp [pending, Core.new]
  pendingStart := by simp [pending, Core.new]
  queue := by simp [Core.manager, Core.new, Heap.empty]
  queueNodup := by simp [Core.manager, Core.new, Heap.empty]
  active := by simp [Core.manager, Core.new, Heap.empty]
  begun := by simp [Core.new]
  once := by simp [Core.new, startedActions]
  unmade _ _ := rfl
  counter := rfl

/-- A pending action is not unscheduled, hence was made. -/
theorem pending_made (h : Phased phase batch s) {x : Scheduling} (hx : x ∈ pending batch s) :
    x.action < s.actions.next ∧ phase x.action ≠ .unscheduled := by
  have hph : phase x.action ≠ .unscheduled := by
    by_cases hk : x.handler.kind = .handlerEnd
    · obtain ⟨o, ho⟩ := h.pendingEnd x hx hk
      simp [ho]
    · simp [(h.pendingStart x hx hk).1]
  exact ⟨(h.made _ hph).1, hph⟩

theorem loose_of_unscheduled (h : Phased phase batch s) {a : ActionPtr}
    (ha : phase a = .unscheduled) : Loose batch s a := by
  intro hmem
  obtain ⟨x, hx, rfl⟩ := List.mem_map.1 hmem
  exact (h.pending_made hx).2 ha

theorem loose_of_delayed (h : Phased phase batch s) {a : ActionPtr} {o : ObjectPtr}
    (ha : phase a = .delayed o) : Loose batch s a := by
  intro hmem
  obtain ⟨x, hx, rfl⟩ := List.mem_map.1 hmem
  by_cases hk : x.handler.kind = .handlerEnd
  · obtain ⟨o', ho'⟩ := h.pendingEnd x hx hk
    simp [ho'] at ha
  · simp [(h.pendingStart x hx hk).1] at ha

theorem not_started (h : Phased phase batch s) {a : ActionPtr} (ha : ∀ o, phase a ≠ .begun o) :
    a ∉ startedActions s.history.calls := by
  intro hmem
  obtain ⟨c, hc, hk, rfl⟩ := mem_startedActions.1 hmem
  exact ha _ (h.begun c hc hk)

/-! ## Changes that leave the phases alone -/

/-- The phases depend on the list, the ids, the managers and the calls only. -/
theorem congr (h : Phased phase batch s) (hlist : s'.mActions = s.mActions)
    (hnext : s.actions.next ≤ s'.actions.next)
    (hact : ∀ p < s.actions.next, (s'.actions.cell p).mActionId = (s.actions.cell p).mActionId ∧
      (s'.actions.cell p).kind = (s.actions.cell p).kind ∧
      ((s'.actions.cell p).mStateMachine = .waiting → (s.actions.cell p).mStateMachine = .waiting))
    (hman : ∀ o, s'.manager o = s.manager o ∨ s'.manager o = {})
    (hobj : s.objects.next ≤ s'.objects.next)
    (hcalls : s'.history.calls = s.history.calls)
    (hcount : s'.mCurrentActionId = s.mCurrentActionId ∧ s'.history.ids = s.history.ids) :
    Phased phase batch s' := by
  have hpend : pending batch s' = pending batch s := by simp only [pending, hlist]
  constructor
  · rw [hlist]; exact h.filed
  · exact fun a ha => ⟨(h.made a ha).1.trans_le hnext, fun hw =>
      (h.made a ha).2 ((hact a (h.made a ha).1).2.2 hw)⟩
  · rw [hpend]; exact h.one
  · intro x hx
    rw [hpend] at hx
    rw [(hact _ (h.pending_made hx).1).1]
    exact h.pendingId x hx
  · rw [hpend]; exact h.pendingEnd
  · intro x hx hk
    rw [hpend] at hx
    rw [(hact _ (h.pending_made hx).1).2.1]
    exact h.pendingStart x hx hk
  · intro o a ha
    rcases hman o with hm | hm <;> rw [hm] at ha
    · exact h.queue o a ha
    · cases ha
  · intro o
    rcases hman o with hm | hm <;> rw [hm]
    · exact h.queueNodup o
    · exact .nil
  · intro o a ha
    rcases hman o with hm | hm <;> rw [hm] at ha
    · exact h.active o a ha
    · cases ha
  · rw [hcalls]; exact h.begun
  · rw [hcalls]; exact h.once
  · intro o ho
    rcases hman o with hm | hm <;> rw [hm]
    exact h.unmade o (hobj.trans ho)
  · rw [hcount.1, hcount.2]; exact h.counter

/-- Handlers are taken out of the pending ones. -/
theorem sublist {batch' : List Scheduling} (h : Phased phase batch s)
    (hsub : (pending batch' s').Sublist (pending batch s)) (hfiled : s'.mActions.Filed Scheduling.time)
    (hactions : s'.actions = s.actions) (hobjects : s'.objects = s.objects)
    (hcalls : s'.history.calls = s.history.calls)
    (hcount : s'.mCurrentActionId = s.mCurrentActionId ∧ s'.history.ids = s.history.ids) :
    Phased phase batch' s' := by
  have hman : ∀ o, s'.manager o = s.manager o := fun o => by simp only [Core.manager, hobjects]
  constructor
  · exact hfiled
  · rw [hactions]; exact h.made
  · exact h.one.sublist (hsub.map _)
  · rw [hactions]; exact fun x hx => h.pendingId x (hsub.subset hx)
  · exact fun x hx => h.pendingEnd x (hsub.subset hx)
  · rw [hactions]; exact fun x hx => h.pendingStart x (hsub.subset hx)
  · simpa only [hman] using h.queue
  · simpa only [hman] using h.queueNodup
  · simpa only [hman] using h.active
  · rw [hcalls]; exact h.begun
  · rw [hcalls]; exact h.once
  · simpa only [hman, hobjects] using h.unmade
  · rw [hcount.1, hcount.2]; exact h.counter

theorem takeUp {x : Scheduling} (h : Phased phase (x :: rest) s) :
    Phased phase rest (s.takeUp x) :=
  h.sublist (List.sublist_cons_self ..) h.filed rfl rfl rfl ⟨rfl, rfl⟩

theorem quiet (h : Phased phase batch s) (hq : Quiet s s') : Phased phase batch s' :=
  h.congr hq.mActions hq.actions
    (fun p hp => ⟨(hq.action p hp).mActionId, (hq.action p hp).kind, (hq.action p hp).waiting⟩)
    (fun o => (lt_or_ge o s.objects.next).elim (fun ho => .inl (hq.object o ho).1) (hq.unmade o))
    hq.objects (by rw [hq.history]) ⟨hq.mCurrentActionId, by rw [hq.history]⟩

theorem setCurrent (h : Phased phase batch s) (o : ObjectPtr) (id : ActionId) :
    Phased phase batch (s.setCurrent o id) :=
  h.congr rfl (Nat.le_refl _) (fun _ _ => ⟨rfl, rfl, fun h => h⟩)
    (fun o' => .inl (Core.setCurrent_manager o o' id s)) (Nat.le_refl _) rfl ⟨rfl, rfl⟩

theorem shift (h : Phased phase batch s) (b : ActionPtr) (t : TimePoint) :
    Phased phase batch (s.shift b t) := by
  refine h.congr rfl (Nat.le_refl _) (fun p _ => ?_) (fun _ => .inl rfl) (Nat.le_refl _) rfl
    ⟨rfl, rfl⟩
  simp only [Core.shift, Core.writeAction_actions, Heap.write_cell]
  split
  · next hp => subst hp; exact ⟨rfl, rfl, fun h => h⟩
  · exact ⟨rfl, rfl, fun h => h⟩

theorem setState (h : Phased phase batch s) {p : ActionPtr} {state : ActionStateMachine}
    (hs : state ≠ .waiting) : Phased phase batch (s.setState p state) :=
  h.quiet (.writeAction ⟨rfl, rfl, rfl, rfl, rfl, fun h => absurd h hs⟩)

theorem giveId (h : Phased phase batch s) {handler : ActionHandler}
    (hl : Loose batch s handler.mCorrespondingAction) : Phased phase batch (s.giveId handler) := by
  have hcell : ∀ p, p ≠ handler.mCorrespondingAction →
      (s.giveId handler).actions.cell p = s.actions.cell p := fun p hp => Heap.write_cell_of_ne hp
  have hsame : ∀ p, ((s.giveId handler).actions.cell p).kind = (s.actions.cell p).kind ∧
      ((s.giveId handler).actions.cell p).mStateMachine = (s.actions.cell p).mStateMachine := by
    intro p
    rcases eq_or_ne p handler.mCorrespondingAction with rfl | hp
    · simp [Core.giveId]
    · simp [hcell p hp]
  have hne : ∀ x ∈ pending batch s, x.action ≠ handler.mCorrespondingAction :=
    fun x hx he => hl (he ▸ List.mem_map_of_mem hx)
  refine { h with made := ?_, pendingId := ?_, pendingStart := ?_, counter := ?_ }
  · intro a ha
    rw [(hsame a).2]
    exact h.made a ha
  · intro x hx
    rw [hcell _ (hne x hx)]
    exact h.pendingId x hx
  · intro x hx hk
    rw [(hsame _).1]
    exact h.pendingStart x hx hk
  · change s.mCurrentActionId + 1 = BitVec.ofNat 32 (s.history.ids + 1)
    rw [h.counter, BitVec.ofNat_add]
    rfl

theorem noteCall (h : Phased phase batch s) {k : HandlerKind} {o : ObjectPtr} {a : ActionPtr}
    (ha : k = .handlerStart → phase a = .begun o ∧ a ∉ startedActions s.history.calls) :
    Phased phase batch (BaseObject.noteCall k o a s) := by
  refine { h with begun := ?_, once := ?_ }
  · intro c hc hk
    rcases List.mem_append.1 hc with hc | hc
    · exact h.begun c hc hk
    · obtain rfl := List.mem_singleton.1 hc
      exact (ha hk).1
  · change (startedActions (s.history.calls ++ [_])).Nodup
    by_cases hk : k = .handlerStart
    · have hnew : startedActions (s.history.calls ++ [⟨k, o, a, s.mCurrentActionTime⟩]) =
          startedActions s.history.calls ++ [a] := by simp [startedActions, hk]
      rw [hnew, List.nodup_append]
      refine ⟨h.once, by simp, fun x hx y hy hxy => (ha hk).2 ?_⟩
      rwa [← List.mem_singleton.1 hy, ← hxy]
    · have hnew : startedActions (s.history.calls ++ [⟨k, o, a, s.mCurrentActionTime⟩]) =
          startedActions s.history.calls := by simp [startedActions, hk]
      rw [hnew]
      exact h.once

/-! ## Changes of a phase -/

section
variable {phase' : ActionPtr → Phase} (hstay : ∀ a, phase a ≠ .unscheduled → phase' a = phase a)
include hstay

/-- A handler is accepted whose action had none pending. -/
theorem accept (h : Phased phase batch s) {k : HandlerKind} {p : ActionPtr}
    (hp : p < s.actions.next) (hw : (s.actions.cell p).mStateMachine ≠ .waiting)
    (hnew : ∀ a, phase' a ≠ .unscheduled → a = p ∨ phase a ≠ .unscheduled) (hl : Loose batch s p)
    (hend : k = .handlerEnd → ∃ o, phase' p = .begun o)
    (hstart : k ≠ .handlerEnd →
      phase' p = .scheduled ∧ k = (s.actions.cell p).kind.startHandler) :
    Phased phase' batch (s.accept ⟨k, p⟩) := by
  have hg : Phased phase batch (s.giveId ⟨k, p⟩) := h.giveId hl
  have hperm := pending_accept_perm h.filed batch ⟨k, p⟩
  have hkind : ((s.accept ⟨k, p⟩).actions.cell p).kind = (s.actions.cell p).kind := by
    simp [Core.giveId]
  have hcases : ∀ {x}, x ∈ pending batch (s.accept ⟨k, p⟩) →
      x = s.nextScheduling ⟨k, p⟩ ∨ x ∈ pending batch s := fun hx =>
    List.mem_cons.1 (hperm.mem_iff.1 hx)
  refine ⟨h.filed.push _, ?_, ?_, ?_, ?_, ?_, ?_, h.queueNodup, ?_, ?_, h.once, h.unmade, hg.counter⟩
  · intro a ha
    rcases hnew a ha with rfl | ha
    · exact ⟨hp, by simpa [Core.giveId] using hw⟩
    · exact hg.made a ha
  · rw [(hperm.map Scheduling.action).nodup_iff, List.map_cons, List.nodup_cons]
    exact ⟨hl, h.one⟩
  · intro x hx
    rcases hcases hx with rfl | hx
    · change ((s.giveId ⟨k, p⟩).actions.cell p).mActionId = BitVec.ofNat 32 (s.history.ids + 1)
      rw [← show _ = BitVec.ofNat 32 (s.history.ids + 1) from hg.counter]
      simp [Core.giveId, Core.takeId, Core.noteGiven, Core.countId, Core.writeAction]
    · exact hg.pendingId x hx
  · intro x hx hk
    rcases hcases hx with rfl | hx
    · exact hend hk
    · rw [hstay _ (h.pending_made hx).2]
      exact h.pendingEnd x hx hk
  · intro x hx hk
    rcases hcases hx with rfl | hx
    · change phase' p = .scheduled ∧ k = ((s.accept ⟨k, p⟩).actions.cell p).kind.startHandler
      rw [hkind]
      exact hstart hk
    · rw [hstay _ (h.pending_made hx).2]
      exact hg.pendingStart x hx hk
  · intro o a ha
    have := h.queue o a ha
    rw [hstay a (by simp [this]), this]
  · intro o a ha
    have := h.active o a ha
    rw [hstay a (by simp [this]), this]
  · intro c hc hk
    have := h.begun c hc hk
    rw [hstay _ (by simp [this]), this]

end

/-- An action moves into another slot of the manager of `o`, or out of all of them. -/
theorem move (h : Phased phase batch s) {o : ObjectPtr} {a : ActionPtr} {ph : Phase}
    {m : ObjectActionManager} (hmade : phase a ≠ .unscheduled)
    (hl : Loose batch s a) (hbegun : ∀ o', phase a ≠ .begun o')
    (hother : ∀ o', o' ≠ o → phase a ≠ .delayed o')
    (hq : ∀ c ∈ m.mDelayedQueue, (c = a ∧ ph = .delayed o) ∨
      (c ≠ a ∧ c ∈ (s.manager o).mDelayedQueue))
    (hnodup : m.mDelayedQueue.Nodup)
    (hact : ∀ c, m.mActiveAction = some c → (c = a ∧ ph = .begun o) ∨
      (s.manager o).mActiveAction = some c) (ho : o < s.objects.next) :
    Phased (Function.update phase a ph) batch (s.setManager o m) := by
  have hne : ∀ {c}, phase c ≠ phase a → Function.update phase a ph c = phase c := fun hc =>
    Function.update_of_ne (fun he => hc (congrArg phase he)) _ _
  have hpend : ∀ x ∈ pending batch s, Function.update phase a ph x.action = phase x.action :=
    fun x hx => Function.update_of_ne
      (fun he => hl (by rw [← he]; exact List.mem_map_of_mem hx)) _ _
  refine ⟨h.filed, ?_, h.one, h.pendingId, ?_, ?_, ?_, ?_, ?_, ?_, h.once, ?_, h.counter⟩
  · intro c hc
    rcases eq_or_ne c a with rfl | hca
    · exact h.made c hmade
    · rw [Function.update_of_ne hca] at hc
      exact h.made c hc
  · intro x hx hk
    rw [hpend x hx]
    exact h.pendingEnd x hx hk
  · intro x hx hk
    rw [hpend x hx]
    exact h.pendingStart x hx hk
  · intro o' c hc
    rw [Core.setManager_manager] at hc
    split at hc
    · next ho' =>
      subst ho'
      rcases hq c hc with ⟨rfl, hc⟩ | ⟨hca, hc⟩
      · rw [Function.update_self, hc]
      · rw [Function.update_of_ne hca]
        exact h.queue o' c hc
    · next ho' =>
      have hc' := h.queue o' c hc
      rw [hne (fun he => hother o' ho' (he ▸ hc')), hc']
  · intro o'
    rw [Core.setManager_manager]
    split
    · exact hnodup
    · exact h.queueNodup o'
  · intro o' c hc
    rw [Core.setManager_manager] at hc
    have hold : (s.manager o').mActiveAction = some c →
        Function.update phase a ph c = .begun o' := fun hc => by
      have hc' := h.active o' c hc
      rw [hne (fun he => hbegun o' (he ▸ hc')), hc']
    split at hc
    · next ho' =>
      subst ho'
      rcases hact c hc with ⟨rfl, hc⟩ | hc
      · rw [Function.update_self, hc]
      · exact hold hc
    · exact hold hc
  · intro c hc hk
    have hc' := h.begun c hc hk
    rw [hne (fun he => hbegun _ (he ▸ hc')), hc']
  · intro o' ho'
    rw [Core.setManager_manager, if_neg (by rintro rfl; exact absurd ho (not_lt.2 ho'))]
    exact h.unmade o' ho'

/-- The active action of `o` is given up, or nothing changes in its queue. -/
theorem setManager (h : Phased phase batch s) {o : ObjectPtr} {q : List ActionPtr}
    (hq : (s.manager o).mDelayedQueue = q) : Phased phase batch (s.setManager o ⟨none, q⟩) := by
  have hman : ∀ o', (s.setManager o ⟨none, q⟩).manager o' =
      if o' = o then ⟨none, q⟩ else s.manager o' := fun o' => Core.setManager_manager ..
  refine { h with queue := ?_, queueNodup := ?_, active := ?_, unmade := ?_ }
  · intro o' c hc
    rw [hman] at hc
    split at hc
    · next ho' => subst ho'; exact h.queue o' c (by rwa [hq])
    · exact h.queue o' c hc
  · intro o'
    rw [hman]
    split
    · next ho' => rw [← hq]; exact h.queueNodup o
    · exact h.queueNodup o'
  · intro o' c hc
    rw [hman] at hc
    split at hc
    · cases hc
    · exact h.active o' c hc
  · intro o' ho'
    rw [hman]
    split
    · next he => subst he; rw [h.unmade o' ho'] at hq; rw [← hq]
    · exact h.unmade o' ho'

end Phased

/-! ## The phases along a run -/

/-- The phases are in order at every stage. -/
def InPhase : Assertion ω := fun st batch s =>
  ∃ phase, Phased phase batch s ∧ st.InHand phase batch s

section
variable {phase phase' : ActionPtr → Phase} {batch : List Scheduling} {s s' : Core ω} {st : Stage}

/-- What is in hand stays in hand while the code of objects runs. -/
theorem Stage.InHand.congr (hp : Phased phase batch s)
    (hstay : ∀ a, phase a ≠ .unscheduled → phase' a = phase a)
    (hactive : ∀ o a, (s.manager o).mActiveAction = some a → (s'.manager o).mActiveAction = some a)
    (hcalls : s'.history.calls = s.history.calls)
    (hloose : ∀ a, phase a ≠ .unscheduled → Loose batch s a → Loose batch s' a)
    (hkind : ∀ a, phase a ≠ .unscheduled → (s'.actions.cell a).kind = (s.actions.cell a).kind)
    (h : st.InHand phase batch s) : st.InHand phase' batch s' := by
  have hbegun : ∀ {a o}, phase a = .begun o → phase a ≠ .unscheduled := fun h => by simp [h]
  have hact : ∀ {a o}, (s.manager o).mActiveAction = some a → phase a ≠ .unscheduled :=
    fun h => hbegun (hp.active _ _ h)
  have hphase : ∀ {a}, (∃ o, phase a = .begun o) → ∃ o, phase' a = .begun o :=
    fun ⟨o, ho⟩ => ⟨o, (hstay _ (hbegun ho)).trans ho⟩
  cases st with
  | idle => trivial
  | taken k o a =>
    obtain ⟨hl, hk⟩ := h
    by_cases he : k = .handlerEnd
    · simp only [Stage.InHand, if_pos he] at hk ⊢
      obtain ⟨o, ho⟩ := hk
      exact ⟨hloose a (hbegun ho) hl, hphase ⟨o, ho⟩⟩
    · simp only [Stage.InHand, if_neg he] at hk ⊢
      have hne : phase a ≠ .unscheduled := by simp [hk.1]
      exact ⟨hloose a hne hl, (hstay a hne).trans hk.1, by rw [hkind a hne]; exact hk.2⟩
  | starting o x y a | noted o y a =>
    obtain ⟨ha, hn, hl, o', ho'⟩ := h
    exact ⟨hactive o a ha, by rwa [hcalls], hloose y (hbegun ho') hl, hphase ⟨o', ho'⟩⟩
  | armed o a => exact ⟨hactive o a h.1, by rw [hcalls]; exact h.2⟩
  | initialising o a => exact ⟨hactive o a h.1, hloose a (hact h.1) h.2⟩
  | closing k o a | released k o a =>
    obtain ⟨hl, o', ho'⟩ := h
    exact ⟨hloose a (hbegun ho') hl, hphase ⟨o', ho'⟩⟩
  | activated k o a b =>
    obtain ⟨hl, ⟨o', ho'⟩, hb, hn, hlb⟩ := h
    exact ⟨hloose a (hbegun ho') hl, hphase ⟨o', ho'⟩, hactive o b hb, by rwa [hcalls],
      hloose b (hact hb) hlb⟩

theorem Stage.InHand.quiet (hp : Phased phase batch s) (hq : Quiet s s')
    (h : st.InHand phase batch s) : st.InHand phase batch s' := by
  refine h.congr hp (fun _ _ => rfl) (fun o a ha => ?_) (by rw [hq.history])
    (fun a _ hl => ?_) fun a ha => (hq.action a (hp.made a ha).1).kind
  · rcases lt_or_ge o s.objects.next with ho | ho
    · rw [(hq.object o ho).1, ha]
    · rw [hp.unmade o ho] at ha
      cases ha
  · simpa only [Loose, pending, hq.mActions] using hl

theorem Stage.InHand.giveId (hp : Phased phase batch s) (handler : ActionHandler)
    (h : st.InHand phase batch s) : st.InHand phase batch (s.giveId handler) := by
  refine h.congr hp (fun _ _ => rfl) (fun _ _ ha => ha) rfl (fun _ _ hl => hl) fun a _ => ?_
  rcases eq_or_ne a handler.mCorrespondingAction with rfl | ha
  · simp [Core.giveId]
  · rw [show (s.giveId handler).actions.cell a = s.actions.cell a from Heap.write_cell_of_ne ha]

/-- `scheduleStartHandler` moves an unscheduled action to the next phase. -/
theorem Phased.schedule (hp : Phased phase batch s) (h : st.InHand phase batch s) {p : ActionPtr}
    {state : ActionStateMachine} (hlt : p < s.actions.next)
    (hw : (s.actions.cell p).mStateMachine = .waiting) (hs : state ≠ .waiting) :
    let k := (s.actions.cell p).kind.startHandler
    Phased (Function.update phase p .scheduled) batch ((s.setState p state).accept ⟨k, p⟩) ∧
      st.InHand (Function.update phase p .scheduled) batch
        ((s.setState p state).accept ⟨k, p⟩) := by
  have hq : Quiet s (s.setState p state) :=
    .writeAction ⟨rfl, rfl, rfl, rfl, rfl, fun h => absurd h hs⟩
  have hp1 := hp.quiet hq
  have hun : phase p = .unscheduled := by_contra fun hne => (hp.made p hne).2 hw
  have hstay : ∀ a, phase a ≠ .unscheduled → Function.update phase p .scheduled a = phase a :=
    fun a ha => Function.update_of_ne (fun he => ha (by rw [he]; exact hun)) _ _
  have hself : Function.update phase p .scheduled p = .scheduled := Function.update_self ..
  have hkind : (s.actions.cell p).kind = ((s.setState p state).actions.cell p).kind := by
    simp [Core.setState]
  have hstart : (s.actions.cell p).kind.startHandler ≠ .handlerEnd := by
    cases (s.actions.cell p).kind <;> nofun
  refine ⟨hp1.accept hstay hlt (by simpa [Core.setState] using hs) (fun a ha => ?_)
    (hp1.loose_of_unscheduled hun) (fun he => absurd he hstart) (fun _ => ⟨hself, by rw [← hkind]⟩),
    ?_⟩
  · apply or_iff_not_imp_left.2
    intro hap
    rwa [Function.update_of_ne hap] at ha
  · refine (h.quiet hp hq).congr hp1 hstay (fun _ _ ha => ha) rfl (fun a ha hl hmem => ?_)
      fun a _ => ?_
    · have hperm := (pending_accept_perm hp1.filed batch
        ⟨(s.actions.cell p).kind.startHandler, p⟩).map Scheduling.action
      rcases List.mem_cons.1 (hperm.mem_iff.1 hmem) with rfl | hmem
      · exact ha hun
      · exact hl hmem
    · rcases eq_or_ne a p with rfl | hap
      · simp [Core.giveId]
      · exact congrArg Action.kind (Heap.write_cell_of_ne hap)

theorem Phased.rejectStart (hp : Phased phase batch s) (h : st.InHand phase batch s)
    {k : HandlerKind} {p : ActionPtr} {state : ActionStateMachine}
    (hw : (s.actions.cell p).mStateMachine = .waiting) (hs : state ≠ .waiting) :
    Phased phase batch ((s.setState p state).giveId ⟨k, p⟩) ∧
      st.InHand phase batch ((s.setState p state).giveId ⟨k, p⟩) := by
  have hq : Quiet s (s.setState p state) :=
    .writeAction ⟨rfl, rfl, rfl, rfl, rfl, fun h => absurd h hs⟩
  have hp1 := hp.quiet hq
  have hun : phase p = .unscheduled := by_contra fun hne => (hp.made p hne).2 hw
  exact ⟨hp1.giveId (hp1.loose_of_unscheduled hun), (h.quiet hp hq).giveId hp1 _⟩

/-- An action in hand becomes the active action of an idle object. -/
theorem Phased.begin (hp : Phased phase batch s) {o : ObjectPtr} {a : ActionPtr}
    {q : List ActionPtr} (ho : o < s.objects.next) (hl : Loose batch s a)
    (ha : phase a = .scheduled ∨ phase a = .delayed o)
    (hq : ∀ c ∈ q, c ≠ a ∧ c ∈ (s.manager o).mDelayedQueue) (hnodup : q.Nodup) :
    Phased (Function.update phase a (.begun o)) batch (s.setManager o ⟨some a, q⟩) :=
  hp.move (by rcases ha with ha | ha <;> simp [ha]) hl (by rcases ha with ha | ha <;> simp [ha])
    (by rcases ha with ha | ha <;> simp [ha, eq_comm]) (fun c hc => .inr (hq c hc)) hnodup
    (fun c hc => .inl ⟨(Option.some.inj hc).symm, rfl⟩) ho

/-- An action in hand is put into the queue of an object. -/
theorem Phased.delay (hp : Phased phase batch s) {o : ObjectPtr} {a : ActionPtr}
    {act : Option ActionPtr} {q : List ActionPtr} (ho : o < s.objects.next) (hl : Loose batch s a)
    (ha : phase a = .scheduled) (hm : s.manager o = ⟨act, q⟩) :
    Phased (Function.update phase a (.delayed o)) batch (s.setManager o ⟨act, q ++ [a]⟩) := by
  have hnq : a ∉ q := fun hmem => by
    have := hp.queue o a (by rw [hm]; exact hmem)
    simp [ha] at this
  refine hp.move (by simp [ha]) hl (by simp [ha]) (by simp [ha]) (fun c hc => ?_) ?_
    (fun c hc => .inr (by rw [hm]; exact hc)) ho
  · rcases List.mem_append.1 hc with hc | hc
    · exact .inr ⟨fun he => hnq (he ▸ hc), by rw [hm]; exact hc⟩
    · exact .inl ⟨List.mem_singleton.1 hc, rfl⟩
  · have hnodup := hp.queueNodup o
    rw [hm] at hnodup
    exact List.nodup_append.2 ⟨hnodup, by simp, fun x hx y hy hxy =>
      hnq (by rwa [← List.mem_singleton.1 hy, ← hxy])⟩

theorem InPhase.act {c c' : Stage × Core ω} (h : Act c c') (hc : InPhase c.1 batch c.2) :
    InPhase c'.1 batch c'.2 := by
  obtain ⟨phase, hp, hh⟩ := hc
  cases h with
  | quiet hq => exact ⟨phase, hp.quiet hq, hh.quiet hp hq⟩
  | schedule hlt hw hs _ => exact ⟨_, hp.schedule hh hlt hw hs⟩
  | rejectStart _ hw hs => exact ⟨_, hp.rejectStart hh hw hs⟩
  | @start s o a ho hm =>
    obtain ⟨hl, ha, -⟩ := hh
    exact ⟨_, hp.begin ho hl (.inl ha) nofun .nil, by simp [Core.setManager_manager],
      hp.not_started (by simp [ha]), hl, o, Function.update_self ..⟩
  | @init s o a ho hm =>
    obtain ⟨hl, ha, -⟩ := hh
    exact ⟨_, hp.begin ho hl (.inl ha) nofun .nil, by simp [Core.setManager_manager], hl⟩
  | delay ho hk hm =>
    obtain ⟨hl, ha⟩ := hh
    rw [if_neg hk] at ha
    exact ⟨_, hp.delay ho hl ha.1 hm, trivial⟩
  | stuck ho hk hm =>
    obtain ⟨hl, ha⟩ := hh
    rw [if_neg hk] at ha
    exact ⟨_, hp.delay ho hl ha.1 hm, trivial⟩
  | note => exact ⟨_, hp.setCurrent _ _, by rw [Core.setCurrent_manager]; exact hh.1, hh.2⟩
  | noteInit => exact ⟨_, hp.setCurrent _ _, by rw [Core.setCurrent_manager]; exact hh.1, hh.2⟩
  | scheduleEnd hlt hk ht =>
    obtain ⟨ha, hn, hl, hb⟩ := hh
    obtain ⟨o', ho'⟩ := hb
    exact ⟨_, hp.accept (fun _ _ => rfl) hlt (hp.made _ (by simp [ho'])).2 (fun _ h => .inr h) hl
      (fun _ => ⟨o', ho'⟩) (fun h => absurd rfl h), ha, hn⟩
  | skipEnd hk => exact ⟨_, hp, hh.1, hh.2.1⟩
  | rejectEnd => exact ⟨_, hp.giveId hh.2.2.1, hh⟩
  | callStart => exact ⟨_, hp.noteCall fun _ => ⟨hp.active _ _ hh.1, hh.2⟩, trivial⟩
  | callEnd => exact ⟨_, hp.noteCall nofun, hh.1, hh.2⟩
  | callInit => exact ⟨_, hp.noteCall nofun, hh.2, _, hp.active _ _ hh.1⟩
  | release hq => exact ⟨_, hp.setManager hq, trivial⟩
  | releaseSome hq => exact ⟨_, hp.setManager hq, hh⟩
  | @activate s k o a b q ho hm =>
    obtain ⟨hl, o', ho'⟩ := hh
    have hb : phase b = .delayed o := hp.queue o b (by rw [hm]; exact List.mem_cons_self ..)
    have hnodup := hp.queueNodup o
    rw [hm, List.nodup_cons] at hnodup
    refine ⟨_, hp.begin ho (hp.loose_of_delayed hb) (.inr hb) (fun c hc => ⟨?_, ?_⟩) hnodup.2, hl,
      ⟨o', ?_⟩, by simp [Core.setManager_manager], hp.not_started (by simp [hb]),
      hp.loose_of_delayed hb⟩
    · rintro rfl; exact hnodup.1 hc
    · rw [hm]; exact List.mem_cons_of_mem _ hc
    · rw [Function.update_of_ne, ho']
      rintro rfl
      simp [hb] at ho'
  | @shift s k o a b hlt ht =>
    obtain ⟨hl, hb', hb, hn, hlb⟩ := hh
    refine ⟨_, hp.shift _ _, hb, hn, ?_⟩
    cases k with
    | handlerEnd => exact ⟨hl, hb'⟩
    | handlerStart | handlerInit => exact ⟨hlb, o, hp.active _ _ hb⟩

/-- A handler that is taken up is no longer pending. -/
theorem InPhase.take {x : Scheduling} {rest : List Scheduling} (h : InPhase .idle (x :: rest) s)
    (o : ObjectPtr) : InPhase (.taken x.handler.kind o x.action) rest (s.takeUp x) := by
  obtain ⟨phase, hp, -⟩ := h
  refine ⟨phase, hp.takeUp, ?_, ?_⟩
  · have hone := hp.one
    rw [pending, List.cons_append, List.map_cons, List.nodup_cons] at hone
    exact hone.1
  · have hmem : x ∈ pending (x :: rest) s := List.mem_cons_self ..
    split_ifs with hk
    · exact hp.pendingEnd x hmem hk
    · exact hp.pendingStart x hmem hk

/-- The core keeps the phases in order. -/
theorem InPhase.stepwise : Stepwise (ω := ω) (fun _ _ => True) InPhase where
  act := InPhase.act
  advance := by
    rintro s t - ⟨phase, hp, -⟩
    exact ⟨phase, { hp with }, trivial⟩
  fetch := by
    rintro s batch m ⟨phase, hp, -⟩ hent hfiled
    refine ⟨phase, hp.sublist ?_ hfiled rfl rfl rfl ⟨rfl, rfl⟩, trivial⟩
    simp [pending, hent]
  fail := by
    rintro h batch s ⟨phase, hp, -⟩
    exact ⟨phase, hp.sublist (List.Sublist.refl _) hp.filed rfl rfl rfl ⟨rfl, rfl⟩, trivial⟩
  drop := by
    rintro h rest s - ⟨phase, hp, -⟩ -
    exact ⟨phase, hp.takeUp, trivial⟩
  take _ h _ _ _ := h.take _

end

end Cosidia
