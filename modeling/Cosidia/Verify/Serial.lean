import Cosidia.Verify.Phases
import Cosidia.Verify.Runs

/-!
# One action at a time

The calls of `startExecution` and `endExecution` on an object alternate and match, and the end
handler of the running action is the only one pending for the object, as long as no end handler is
dispatched to it while other actions wait in its queue. `Turn` is the invariant, for an object `o`
that is listed under the id `i`.
-/

namespace Cosidia

open EStateM

variable {ω : Type}

/-- The calls of `startExecution` and `endExecution` on `o`. -/
def callsOf (o : ObjectPtr) (calls : List Call) : List Call :=
  calls.filter fun c => c.object = o ∧ c.kind ≠ .handlerInit

/-- The calls alternate and every end matches the start before it; `running` is the action that has
been started and not been ended. -/
inductive Served : List Call → (running : Option ActionPtr) → Prop
  | nil : Served [] none
  | start {calls o a t} : Served calls none → Served (calls ++ [⟨.handlerStart, o, a, t⟩]) (some a)
  | ends {calls o a t} : Served calls (some a) → Served (calls ++ [⟨.handlerEnd, o, a, t⟩]) none

/-- The actions that `endExecution` has been called with. -/
def endedActions (calls : List Call) : List ActionPtr :=
  (calls.filter fun c => c.kind = .handlerEnd).map Call.action

/-- The actions started are those ended and the running one. -/
theorem Served.started_perm {calls : List Call} {running : Option ActionPtr}
    (h : Served calls running) :
    (startedActions calls).Perm (endedActions calls ++ running.toList) := by
  induction h with
  | nil => exact .refl _
  | @start calls o a t h ih =>
    simp only [startedActions, endedActions, List.filter_append, List.map_append] at ih ⊢
    simpa using ih.append_right [a]
  | @ends calls o a t h ih =>
    simp only [startedActions, endedActions, List.filter_append, List.map_append] at ih ⊢
    simpa using ih

theorem Served.ended_mem {calls : List Call} {running : Option ActionPtr}
    (h : Served calls running) {c : Call} (hc : c ∈ calls) (hk : c.kind = .handlerEnd) :
    c.action ∈ startedActions calls :=
  h.started_perm.mem_iff.2 <| List.mem_append_left _ <|
    List.mem_map_of_mem <| List.mem_filter.2 ⟨hc, by simpa using hk⟩

/-- The id of the object that `a` is addressed to. -/
def Core.affected (s : Core ω) (a : ActionPtr) : ObjectId := (s.actions.cell a).mAffectedObject

/-- The actions of the end handlers among `l` that are addressed to `i`. -/
def endsOf (i : ObjectId) (affected : ActionPtr → ObjectId) (l : List Scheduling) :
    List ActionPtr :=
  (l.filter fun h => h.handler.kind = .handlerEnd ∧ affected h.action = i).map Scheduling.action

section
variable {i : ObjectId} {affected affected' : ActionPtr → ObjectId} {l l' : List Scheduling}

theorem endsOf_perm (h : l.Perm l') : (endsOf i affected l).Perm (endsOf i affected l') :=
  (h.filter _).map _

theorem endsOf_congr (h : ∀ x ∈ l, affected x.action = affected' x.action) :
    endsOf i affected l = endsOf i affected' l := by
  simp only [endsOf]
  rw [List.filter_congr fun x hx => by rw [h x hx]]

theorem endsOf_cons_of_end {x : Scheduling} (hk : x.handler.kind = .handlerEnd)
    (hx : affected x.action = i) : endsOf i affected (x :: l) = x.action :: endsOf i affected l := by
  simp [endsOf, hk, hx]

theorem endsOf_cons_of_ne {x : Scheduling}
    (hx : x.handler.kind ≠ .handlerEnd ∨ affected x.action ≠ i) :
    endsOf i affected (x :: l) = endsOf i affected l := by
  have : ¬ (x.handler.kind = .handlerEnd ∧ affected x.action = i) := by tauto
  simp [endsOf, this]

end

/-- The action for which an end handler is pending at a stage; `active` is the active action. -/
def Stage.owed (o : ObjectPtr) (active : Option ActionPtr) : Stage → Option ActionPtr
  | .taken .handlerEnd o' _ | .starting o' _ _ _ | .noted o' _ _ | .initialising o' _
  | .closing _ o' _ | .released _ o' _ | .activated _ o' _ _ => if o' = o then none else active
  | _ => active

/-- The action that has been started and not been ended at a stage. -/
def Stage.running (o : ObjectPtr) (active : Option ActionPtr) : Stage → Option ActionPtr
  | .starting o' _ _ _ | .noted o' _ _ | .armed o' _ | .initialising o' _
  | .closing _ o' _ | .released _ o' _ | .activated _ o' _ _ => if o' = o then none else active
  | _ => active

/-- What a stage of a handler means for `o`. -/
def Stage.Fits (o : ObjectPtr) (i : ObjectId) (s : Core ω) : Stage → Prop
  | .taken k o' a => (s.affected a = i ↔ o' = o) ∧
    (o' = o → k = .handlerEnd → s.manager o = ⟨some a, []⟩ ∧
      s.mCurrentActionTime = (s.actions.cell a).getEndTime)
  | .starting o' _ y a | .noted o' y a => (s.affected y = i ↔ o' = o) ∧
    (o' = o → y = a ∧ (s.actions.cell a).kind = .durationAction)
  | .initialising o' _ => o' = o → (s.manager o).mDelayedQueue = []
  | .closing _ o' a => (s.affected a = i ↔ o' = o) ∧ (o' = o → (s.manager o).mDelayedQueue = [])
  | .released _ o' a | .activated _ o' a _ => o' ≠ o ∧ s.affected a ≠ i
  | _ => True

/-- The invariant of an object `o` under the id `i`. -/
structure Turn (o : ObjectPtr) (i : ObjectId) (st : Stage) (batch : List Scheduling)
    (s : Core ω) : Prop where
  ends : (endsOf i s.affected (pending batch s)).Perm
    (st.owed o (s.manager o).mActiveAction).toList
  endTime : ∀ h ∈ pending batch s, h.handler.kind = .handlerEnd → s.affected h.action = i →
    h.time = (s.actions.cell h.action).getEndTime
  served : Served (callsOf o s.history.calls) (st.running o (s.manager o).mActiveAction)
  past : ∀ c ∈ callsOf o s.history.calls, c.kind = .handlerEnd →
    c.time = (s.actions.cell c.action).getEndTime
  addressed : ∀ o' a, (s.manager o').mActiveAction = some a ∨ a ∈ (s.manager o').mDelayedQueue →
    (s.affected a = i ↔ o' = o)
  fits : st.Fits o i s

namespace Turn

variable {phase : ActionPtr → Phase} {o : ObjectPtr} {i : ObjectId} {st st' : Stage}
  {batch : List Scheduling} {s s' : Core ω}

/-- Changes that keep the managers, the calls and the actions that are in use. -/
theorem frame (h : Turn o i st batch s) (hp : Phased phase batch s) (hh : st.InHand phase batch s)
    (hends : (endsOf i s'.affected (pending batch s')).Perm (endsOf i s.affected (pending batch s)))
    (hpend : ∀ x ∈ pending batch s', x ∈ pending batch s ∨ x.handler.kind ≠ .handlerEnd)
    (hact : ∀ a, phase a ≠ .unscheduled → s'.affected a = s.affected a ∧
      (s'.actions.cell a).getEndTime = (s.actions.cell a).getEndTime ∧
      (s'.actions.cell a).kind = (s.actions.cell a).kind)
    (hman : ∀ o', s'.manager o' = s.manager o' ∨ s.manager o' = {} ∧ s'.manager o' = {})
    (hcalls : s'.history.calls = s.history.calls)
    (htime : s'.mCurrentActionTime = s.mCurrentActionTime) : Turn o i st batch s' := by
  have hman' : ∀ o', s'.manager o' = s.manager o' := fun o' =>
    (hman o').elim (fun h => h) fun ⟨h, h'⟩ => h'.trans h.symm
  have hbegun : ∀ {a o'}, phase a = .begun o' → phase a ≠ .unscheduled := fun h => by simp [h]
  have hslot : ∀ {o' a}, (s.manager o').mActiveAction = some a ∨ a ∈ (s.manager o').mDelayedQueue →
      phase a ≠ .unscheduled := by
    intro o' a ha
    rcases ha with ha | ha
    · exact hbegun (hp.active o' a ha)
    · simp [hp.queue o' a ha]
  refine ⟨?_, fun x hx hk hi => ?_, ?_, fun c hc hk => ?_, fun o' a ha => ?_, ?_⟩
  · rw [hman']; exact hends.trans h.ends
  · have hx := (hpend x hx).resolve_right (not_not.2 hk)
    have hne := (hp.pending_made hx).2
    rw [(hact _ hne).1] at hi
    rw [(hact _ hne).2.1]
    exact h.endTime x hx hk hi
  · rw [hcalls, hman']; exact h.served
  · rw [hcalls] at hc
    have hmem := mem_startedActions.1 (h.served.ended_mem hc hk)
    obtain ⟨c', hc', hk', hca⟩ := hmem
    have hb := hp.begun c' (List.mem_of_mem_filter hc') hk'
    rw [hca] at hb
    rw [(hact _ (hbegun hb)).2.1]
    exact h.past c hc hk
  · rw [hman'] at ha
    rw [(hact a (hslot ha)).1]
    exact h.addressed o' a ha
  · have hf := h.fits
    cases st with
    | idle | armed o' a => trivial
    | taken k o' a =>
      have hne : phase a ≠ .unscheduled := by
        obtain ⟨-, hk⟩ := hh
        split_ifs at hk
        · obtain ⟨o'', ho''⟩ := hk
          exact hbegun ho''
        · simp [hk.1]
      obtain ⟨haff, hend, -⟩ := hact a hne
      simp only [Stage.Fits, haff, hend, hman', htime] at hf ⊢
      exact hf
    | starting o' x y a | noted o' y a =>
      obtain ⟨ha, -, -, o'', ho''⟩ := hh
      have hy := (hact y (hbegun ho'')).1
      have hkind := (hact a (hslot (.inl ha))).2.2
      simp only [Stage.Fits, hy, hkind] at hf ⊢
      exact hf
    | initialising o' a =>
      simp only [Stage.Fits, hman'] at hf ⊢
      exact hf
    | closing k o' a =>
      obtain ⟨-, o'', ho''⟩ := hh
      have ha := (hact a (hbegun ho'')).1
      simp only [Stage.Fits, ha, hman'] at hf ⊢
      exact hf
    | released k o' a =>
      obtain ⟨-, o'', ho''⟩ := hh
      have ha := (hact a (hbegun ho'')).1
      simp only [Stage.Fits, ha] at hf ⊢
      exact hf
    | activated k o' a b =>
      obtain ⟨-, ⟨o'', ho''⟩, -⟩ := hh
      have ha := (hact a (hbegun ho'')).1
      simp only [Stage.Fits, ha] at hf ⊢
      exact hf

theorem quiet (h : Turn o i st batch s) (hp : Phased phase batch s)
    (hh : st.InHand phase batch s) (hq : Quiet s s') : Turn o i st batch s' := by
  have hact : ∀ a < s.actions.next, s'.affected a = s.affected a ∧
      (s'.actions.cell a).getEndTime = (s.actions.cell a).getEndTime ∧
      (s'.actions.cell a).kind = (s.actions.cell a).kind := fun a ha => by
    obtain ⟨h1, h2, h3, h4, -, -⟩ := hq.action a ha
    exact ⟨h4, by rw [Action.getEndTime, h2, h3, Action.getEndTime], h1⟩
  have hpend : pending batch s' = pending batch s := by simp only [pending, hq.mActions]
  refine h.frame hp hh ?_ (fun x hx => .inl (hpend ▸ hx)) (fun a ha => hact a (hp.made a ha).1)
    (fun o' => ?_) (by rw [hq.history]) hq.mCurrentActionTime
  · rw [hpend, endsOf_congr fun x hx => (hact _ (hp.pending_made hx).1).1]
  · rcases lt_or_ge o' s.objects.next with ho | ho
    · exact .inl (hq.object o' ho).1
    · have hnone := hp.unmade o' ho
      exact .inr ⟨hnone, (hq.unmade o' ho).elim (fun h => h.trans hnone) fun h => h⟩

theorem giveId_affected (handler : ActionHandler) (a : ActionPtr) :
    (s.giveId handler).affected a = s.affected a ∧
      ((s.giveId handler).actions.cell a).getEndTime = (s.actions.cell a).getEndTime ∧
      ((s.giveId handler).actions.cell a).kind = (s.actions.cell a).kind := by
  rcases eq_or_ne a handler.mCorrespondingAction with rfl | ha
  · simp [Core.giveId, Core.affected, Action.getEndTime]
  · rw [Core.affected, show (s.giveId handler).actions.cell a = s.actions.cell a from
      Heap.write_cell_of_ne ha]
    exact ⟨rfl, rfl, rfl⟩

theorem giveId (h : Turn o i st batch s) (hp : Phased phase batch s)
    (hh : st.InHand phase batch s) (handler : ActionHandler) :
    Turn o i st batch (s.giveId handler) := by
  refine h.frame hp hh ?_ (fun x hx => .inl hx) (fun a _ => giveId_affected handler a)
    (fun _ => .inl rfl) rfl rfl
  rw [endsOf_congr fun x _ => (giveId_affected handler x.action).1]
  rfl

/-- A start or init handler is accepted. -/
theorem accept (h : Turn o i st batch s) (hp : Phased phase batch s)
    (hh : st.InHand phase batch s) {k : HandlerKind} {p : ActionPtr} (hk : k ≠ .handlerEnd) :
    Turn o i st batch (s.accept ⟨k, p⟩) := by
  have hperm := pending_accept_perm hp.filed batch ⟨k, p⟩
  have haff : ∀ a, (s.accept ⟨k, p⟩).affected a = s.affected a :=
    fun a => (giveId_affected ⟨k, p⟩ a).1
  refine h.frame hp hh ?_ (fun x hx => ?_) (fun a _ => giveId_affected ⟨k, p⟩ a)
    (fun _ => .inl rfl) rfl rfl
  · apply (endsOf_perm hperm).trans
    rw [endsOf_cons_of_ne (.inl hk), endsOf_congr fun x _ => haff x.action]
  · rcases List.mem_cons.1 (hperm.mem_iff.1 hx) with rfl | hx
    · exact .inr hk
    · exact .inl hx

/-- The stage and the managers change, but what is owed and what is running do not. -/
theorem move {batch' : List Scheduling} (h : Turn o i st batch s) (hactions : s'.actions = s.actions)
    (hpend : pending batch' s' = pending batch s) (hcalls : s'.history.calls = s.history.calls)
    (howed : st'.owed o (s'.manager o).mActiveAction = st.owed o (s.manager o).mActiveAction)
    (hrun : st'.running o (s'.manager o).mActiveAction = st.running o (s.manager o).mActiveAction)
    (hadd : ∀ o' a, (s'.manager o').mActiveAction = some a ∨ a ∈ (s'.manager o').mDelayedQueue →
      (s.affected a = i ↔ o' = o)) (hfits : st'.Fits o i s') : Turn o i st' batch' s' := by
  have haff : s'.affected = s.affected := by unfold Core.affected; rw [hactions]
  refine ⟨?_, ?_, ?_, ?_, ?_, hfits⟩
  · rw [haff, hpend, howed]; exact h.ends
  · rw [haff, hpend, hactions]; exact h.endTime
  · rw [hcalls, hrun]; exact h.served
  · rw [hcalls, hactions]; exact h.past
  · rw [haff]; exact hadd

/-- The manager of an object gets the action in hand or keeps the ones it has. -/
theorem setManager (h : Turn o i st batch s) {o' : ObjectPtr} {m : ObjectActionManager}
    (hself : o' = o →
      st'.owed o m.mActiveAction = st.owed o (s.manager o).mActiveAction ∧
        st'.running o m.mActiveAction = st.running o (s.manager o).mActiveAction)
    (hother : o' ≠ o → ∀ active,
      st'.owed o active = st.owed o active ∧ st'.running o active = st.running o active)
    (hadd : ∀ a, m.mActiveAction = some a ∨ a ∈ m.mDelayedQueue →
      (s.affected a = i ↔ o' = o) ∨ (s.manager o').mActiveAction = some a ∨
        a ∈ (s.manager o').mDelayedQueue)
    (hfits : st'.Fits o i (s.setManager o' m)) : Turn o i st' batch (s.setManager o' m) := by
  have hsame : st'.owed o ((s.setManager o' m).manager o).mActiveAction =
        st.owed o (s.manager o).mActiveAction ∧
      st'.running o ((s.setManager o' m).manager o).mActiveAction =
        st.running o (s.manager o).mActiveAction := by
    rw [Core.setManager_manager]
    split
    · next ho => exact hself ho.symm
    · next ho => exact hother (Ne.symm ho) _
  refine h.move rfl rfl rfl hsame.1 hsame.2 (fun o'' a ha => ?_) hfits
  rw [Core.setManager_manager] at ha
  split at ha
  · next ho => subst ho; exact (hadd a ha).elim id (h.addressed o'' a)
  · exact h.addressed o'' a ha

theorem scheduleEnd {o' : ObjectPtr} {y a : ActionPtr} (h : Turn o i (.noted o' y a) batch s)
    (hp : Phased phase batch s) (hh : (Stage.noted o' y a).InHand phase batch s) :
    Turn o i (.armed o' a) batch (s.accept ⟨.handlerEnd, y⟩) := by
  have hperm := pending_accept_perm hp.filed batch ⟨.handlerEnd, y⟩
  have haff : ∀ a, (s.accept ⟨.handlerEnd, y⟩).affected a = s.affected a :=
    fun a => (giveId_affected ⟨.handlerEnd, y⟩ a).1
  have hendTime : ∀ a, ((s.accept ⟨.handlerEnd, y⟩).actions.cell a).getEndTime =
      (s.actions.cell a).getEndTime := fun a => (giveId_affected ⟨.handlerEnd, y⟩ a).2.1
  have hends : (endsOf i (s.accept ⟨.handlerEnd, y⟩).affected
      (pending batch (s.accept ⟨.handlerEnd, y⟩))).Perm
      (endsOf i s.affected (s.nextScheduling ⟨.handlerEnd, y⟩ :: pending batch s)) := by
    rw [endsOf_congr fun x _ => haff x.action]
    exact endsOf_perm hperm
  have howed := h.ends
  have hserved := h.served
  simp only [Stage.owed, Stage.running] at howed hserved
  refine ⟨hends.trans ?_, fun x hx hk hi => ?_, hserved, fun c hc hk => ?_, fun o'' a' ha => ?_,
    trivial⟩
  · change List.Perm _ (s.manager o).mActiveAction.toList
    by_cases ho : o' = o
    · subst ho
      obtain ⟨rfl, -⟩ := h.fits.2 rfl
      rw [if_pos rfl] at howed
      rw [endsOf_cons_of_end (by rfl) (h.fits.1.2 rfl), hh.1]
      exact howed.cons _
    · rw [if_neg ho] at howed
      rw [endsOf_cons_of_ne (.inr fun hi => ho (h.fits.1.1 hi))]
      exact howed
  · rw [hendTime]
    rcases List.mem_cons.1 (hperm.mem_iff.1 hx) with rfl | hx
    · rfl
    · exact h.endTime x hx hk ((haff _).symm.trans hi)
  · rw [hendTime]
    exact h.past c hc hk
  · rw [haff]
    exact h.addressed o'' a' ha

/-- A call is noted. -/
theorem noteCall {k : HandlerKind} {o' : ObjectPtr} {a : ActionPtr} (h : Turn o i st batch s)
    (howed : st'.owed o (s.manager o).mActiveAction = st.owed o (s.manager o).mActiveAction)
    (hserved : Served (callsOf o (BaseObject.noteCall k o' a s).history.calls)
      (st'.running o (s.manager o).mActiveAction))
    (hpast : o' = o → k = .handlerEnd → s.mCurrentActionTime = (s.actions.cell a).getEndTime)
    (hfits : st'.Fits o i (BaseObject.noteCall k o' a s)) :
    Turn o i st' batch (BaseObject.noteCall k o' a s) := by
  refine ⟨howed ▸ h.ends, h.endTime, hserved, fun c hc hk => ?_, h.addressed, hfits⟩
  obtain ⟨hc, hco⟩ := List.mem_filter.1 hc
  rcases List.mem_append.1 hc with hc | hc
  · exact h.past c (List.mem_filter.2 ⟨hc, hco⟩) hk
  · obtain rfl := List.mem_singleton.1 hc
    exact hpast (by simpa using (of_decide_eq_true hco).1) hk

theorem callsOf_noteCall_of_ne {k : HandlerKind} {o' : ObjectPtr} {a : ActionPtr}
    (hne : o' ≠ o ∨ k = .handlerInit) :
    callsOf o (BaseObject.noteCall k o' a s).history.calls = callsOf o s.history.calls := by
  have : ¬ (o' = o ∧ k ≠ .handlerInit) := by tauto
  simp [callsOf, BaseObject.noteCall, this]

theorem callsOf_noteCall_self {k : HandlerKind} {a : ActionPtr} (hk : k ≠ .handlerInit) :
    callsOf o (BaseObject.noteCall k o a s).history.calls =
      callsOf o s.history.calls ++ [⟨k, o, a, s.mCurrentActionTime⟩] := by
  simp [callsOf, BaseObject.noteCall, hk]

/-- The action in hand is put into a queue. -/
theorem delay {k : HandlerKind} {o' : ObjectPtr} {a : ActionPtr} {active : Option ActionPtr}
    {q : List ActionPtr} (h : Turn o i (.taken k o' a) batch s) (hk : k ≠ .handlerEnd)
    (hm : s.manager o' = ⟨active, q⟩) :
    Turn o i .idle batch (s.setManager o' ⟨active, q ++ [a]⟩) := by
  have hstage : ∀ act, Stage.owed o act .idle = Stage.owed o act (.taken k o' a) ∧
      Stage.running o act .idle = Stage.running o act (.taken k o' a) := by
    cases k with
    | handlerEnd => exact absurd rfl hk
    | handlerStart | handlerInit => exact fun _ => ⟨rfl, rfl⟩
  refine h.setManager ?_ (fun _ => hstage) (fun a' ha => ?_) trivial
  · rintro rfl
    rw [hm]
    exact hstage active
  · rw [hm]
    rcases ha with ha | ha
    · exact .inr (.inl ha)
    · rcases List.mem_append.1 ha with ha | ha
      · exact .inr (.inr ha)
      · rw [List.mem_singleton.1 ha]
        exact .inl h.fits.1

/-- The start time of an action that has not been started is shifted. -/
theorem shift {k : HandlerKind} {o' : ObjectPtr} {a b : ActionPtr}
    (h : Turn o i (.activated k o' a b) batch s)
    (hh : (Stage.activated k o' a b).InHand phase batch s) (t : TimePoint) :
    Turn o i (.starting o' a (Stage.ending k a b) b) batch (s.shift b t) := by
  obtain ⟨-, -, hb, hn, hl⟩ := hh
  have hcell : ∀ p, p ≠ b → (s.shift b t).actions.cell p = s.actions.cell p :=
    fun p hp => Heap.write_cell_of_ne hp
  have haff : (s.shift b t).affected = s.affected := by
    funext p
    rcases eq_or_ne p b with rfl | hp
    · simp [Core.affected, Core.shift]
    · simp only [Core.affected, hcell p hp]
  refine ⟨?_, fun x hx hk hi => ?_, ?_, fun c hc hk => ?_, ?_, ?_⟩
  · rw [haff]; exact h.ends
  · rw [hcell _ fun he => hl (he ▸ List.mem_map_of_mem hx)]
    exact h.endTime x hx hk (haff ▸ hi)
  · exact h.served
  · have hc' : c.action ∈ startedActions s.history.calls := by
      obtain ⟨d, hd, hdk, hda⟩ := mem_startedActions.1 (h.served.ended_mem hc hk)
      exact mem_startedActions.2 ⟨d, List.mem_of_mem_filter hd, hdk, hda⟩
    rw [hcell _ fun he => hn (he ▸ hc')]
    exact h.past c hc hk
  · rw [haff]; exact h.addressed
  · refine ⟨?_, fun ho => absurd ho h.fits.1⟩
    rw [haff]
    cases k with
    | handlerEnd => exact ⟨fun ha => absurd ha h.fits.2, fun ho => absurd ho h.fits.1⟩
    | handlerStart | handlerInit => exact h.addressed o' b (.inl hb)

theorem act {c c' : Stage × Core ω} (hact : Act c c') (hi : InPhase c.1 batch c.2)
    (h : Turn o i c.1 batch c.2) : Turn o i c'.1 batch c'.2 := by
  obtain ⟨phase, hp, hh⟩ := hi
  cases hact with
  | quiet hq => exact h.quiet hp hh hq
  | @schedule st s p state hlt hw hs ht =>
    have hq : Quiet s (s.setState p state) :=
      .writeAction ⟨rfl, rfl, rfl, rfl, rfl, fun h => absurd h hs⟩
    apply (h.quiet hp hh hq).accept (hp.quiet hq) (hh.quiet hp hq)
    cases (s.actions.cell p).kind <;> nofun
  | @rejectStart st s p state hlt hw hs =>
    have hq : Quiet s (s.setState p state) :=
      .writeAction ⟨rfl, rfl, rfl, rfl, rfl, fun h => absurd h hs⟩
    exact (h.quiet hp hh hq).giveId (hp.quiet hq) (hh.quiet hp hq) _
  | @start s o' a ho hm =>
    have hkind : (s.actions.cell a).kind = .durationAction := by
      have := hh.2.2
      cases hk : (s.actions.cell a).kind with
      | durationAction => rfl
      | initAction => rw [hk] at this; cases this
    refine h.setManager ?_ (fun ho => ?_) (fun a' ha => .inl ?_) ⟨h.fits.1, fun _ => ⟨rfl, hkind⟩⟩
    · rintro rfl
      simp [Stage.owed, Stage.running, hm]
    · simp [Stage.owed, Stage.running, ho]
    · obtain rfl : a = a' := by simpa using ha
      exact h.fits.1
  | @init s o' a ho hm =>
    refine h.setManager ?_ (fun ho => ?_) (fun a' ha => .inl ?_) fun ho => ?_
    · rintro rfl
      simp [Stage.owed, Stage.running, hm]
    · simp [Stage.owed, Stage.running, ho]
    · obtain rfl : a = a' := by simpa using ha
      exact h.fits.1
    · rw [ho, Core.setManager_manager, if_pos rfl]
  | delay ho hk hm => exact h.delay hk hm
  | stuck ho hk hm => exact h.delay hk hm
  | @note s o' x y a =>
    exact h.move rfl rfl rfl (by rw [Core.setCurrent_manager]; rfl)
      (by rw [Core.setCurrent_manager]; rfl)
      (fun o'' a' ha => h.addressed o'' a' (by rwa [Core.setCurrent_manager] at ha)) h.fits
  | @noteInit s o' a =>
    refine h.move rfl rfl rfl (by rw [Core.setCurrent_manager])
      (by rw [Core.setCurrent_manager])
      (fun o'' a' ha => h.addressed o'' a' (by rwa [Core.setCurrent_manager] at ha)) fun ho => ?_
    rw [Core.setCurrent_manager]
    exact h.fits ho
  | scheduleEnd _ _ _ => exact h.scheduleEnd hp hh
  | @skipEnd s o' y a hk =>
    have hne : o' ≠ o := fun ho => by
      obtain ⟨rfl, hka⟩ := h.fits.2 ho
      rw [hk] at hka
      cases hka
    exact h.move rfl rfl rfl (by simp [Stage.owed, hne]) rfl h.addressed trivial
  | rejectEnd => exact h.giveId hp hh _
  | @callStart s o' a =>
    refine h.noteCall rfl ?_ nofun trivial
    have hserved := h.served
    simp only [Stage.running] at hserved ⊢
    by_cases ho : o' = o
    · subst ho
      rw [if_pos rfl] at hserved
      rw [callsOf_noteCall_self (k := .handlerStart) nofun, hh.1]
      exact hserved.start
    · rw [if_neg ho] at hserved
      rwa [callsOf_noteCall_of_ne (.inl ho)]
  | @callEnd s o' a =>
    refine h.noteCall rfl ?_ (fun ho hk => (h.fits.2 ho hk).2) ⟨h.fits.1, fun ho => ?_⟩
    · have hserved := h.served
      simp only [Stage.running] at hserved ⊢
      by_cases ho : o' = o
      · subst ho
        rw [if_pos rfl]
        rw [(h.fits.2 rfl rfl).1] at hserved
        rw [callsOf_noteCall_self (k := .handlerEnd) nofun]
        exact hserved.ends
      · rwa [if_neg ho, callsOf_noteCall_of_ne (.inl ho)]
    · rw [show (BaseObject.noteCall .handlerEnd o' a s).manager o = s.manager o from rfl,
        (h.fits.2 ho rfl).1]
  | @callInit s o' a =>
    refine h.noteCall rfl ?_ nofun ⟨h.addressed o' a (.inl hh.1), h.fits⟩
    rw [callsOf_noteCall_of_ne (.inr rfl)]
    exact h.served
  | @release s k o' a hq =>
    refine h.setManager ?_ (fun ho => ?_) (by simp) trivial
    · rintro rfl
      simp [Stage.owed, Stage.running]
    · simp [Stage.owed, Stage.running, ho]
  | @releaseSome s k o' a b q hq =>
    have hne : o' ≠ o := fun ho => by
      have := h.fits.2 ho
      rw [← ho, hq] at this
      cases this
    refine h.setManager (fun ho => absurd ho hne) (fun ho => ?_) (fun a' ha => ?_)
      ⟨hne, fun ha => hne (h.fits.1.1 ha)⟩
    · simp [Stage.owed, Stage.running, ho]
    · exact .inr (.inr (by rw [hq]; simpa using ha))
  | @activate s k o' a b q ho hm =>
    refine h.setManager (fun ho => absurd ho h.fits.1) (fun ho => ?_) (fun a' ha => ?_) h.fits
    · simp [Stage.owed, Stage.running]
    · refine .inr (.inr ?_)
      rw [hm]
      rcases ha with ha | ha
      · exact Option.some.inj ha ▸ List.mem_cons_self ..
      · exact List.mem_cons_of_mem _ ha
  | shift hlt ht => exact h.shift hh _

end Turn

/-! ## The condition and the result -/

/-- The container lists `o` under `i` and nothing else, and `i` has not been removed. -/
structure Core.Lists (s : Core ω) (o : ObjectPtr) (i : ObjectId) : Prop where
  object : ∀ p ∈ s.mObjectList.currentCopy.mActiveObjects[i]?, p = o
  id : ∀ e ∈ s.mObjectList.currentCopy.getAll, e.2 = o → e.1 = i
  kept : i ∉ s.mObjectList.currentCopy.mRemovedObjects

instance (s : Core ω) (o : ObjectPtr) (i : ObjectId) : Decidable (s.Lists o i) :=
  decidable_of_iff ((∀ p ∈ s.mObjectList.currentCopy.mActiveObjects[i]?, p = o) ∧
    (∀ e ∈ s.mObjectList.currentCopy.getAll, e.2 = o → e.1 = i) ∧
    i ∉ s.mObjectList.currentCopy.mRemovedObjects)
    ⟨fun ⟨h1, h2, h3⟩ => ⟨h1, h2, h3⟩, fun ⟨h1, h2, h3⟩ => ⟨h1, h2, h3⟩⟩

/-- If the next handler is an end handler for the id `i`, nothing waits in the queue of `o`. -/
def Core.EndsAlone (s : Core ω) (o : ObjectPtr) (i : ObjectId) (batch : List Scheduling) : Prop :=
  ∀ h ∈ batch.head?, h.handler.kind = .handlerEnd → s.affected h.action = i →
    (s.manager o).mDelayedQueue = []

instance (s : Core ω) (o : ObjectPtr) (i : ObjectId) (batch : List Scheduling) :
    Decidable (s.EndsAlone o i batch) :=
  inferInstanceAs (Decidable (∀ h ∈ batch.head?, _))

theorem Core.Lists.iff {s : Core ω} {o p : ObjectPtr} {i j : ObjectId} (h : s.Lists o i)
    (hp : s.mObjectList.currentCopy.mActiveObjects[j]? = some p) : j = i ↔ p = o := by
  constructor
  · rintro rfl
    exact h.object p hp
  · exact h.id (j, p) (Std.TreeMap.mem_toList_iff_getElem?_eq_some.2 hp)

section
variable {o o' : ObjectPtr} {i : ObjectId} {x : Scheduling} {rest : List Scheduling} {s : Core ω}

/-- Another handler than the end handler of `o` is taken up. -/
theorem Turn.takeUp (h : Turn o i .idle (x :: rest) s)
    (hx : x.handler.kind ≠ .handlerEnd ∨ s.affected x.action ≠ i) :
    Turn o i .idle rest (s.takeUp x) := by
  refine ⟨?_, fun y hy => h.endTime y (List.mem_cons_of_mem _ hy), h.served, h.past, h.addressed,
    trivial⟩
  have hends := h.ends
  rw [pending, List.cons_append, endsOf_cons_of_ne hx] at hends
  exact hends

/-- The end handler of `o` is taken up, while its queue is empty. -/
theorem Turn.takeUpEnd (h : Turn o i .idle (x :: rest) s) (hk : x.handler.kind = .handlerEnd)
    (hx : s.affected x.action = i) (ht : x.time = s.mCurrentActionTime)
    (hq : (s.manager o).mDelayedQueue = []) :
    Turn o i (.taken .handlerEnd o x.action) rest (s.takeUp x) := by
  have hends := h.ends
  rw [pending, List.cons_append, endsOf_cons_of_end hk hx] at hends
  have hactive : (s.manager o).mActiveAction = some x.action := by
    have hmem : x.action ∈ (s.manager o).mActiveAction.toList :=
      hends.mem_iff.1 (List.mem_cons_self ..)
    simpa using hmem
  refine ⟨?_, fun y hy => h.endTime y (List.mem_cons_of_mem _ hy), h.served, h.past, h.addressed,
    ⟨fun _ => rfl, fun _ => hx⟩, fun _ _ => ⟨?_, ?_⟩⟩
  · simp only [Stage.owed, hactive, Option.toList_some] at hends
    simp only [Stage.owed, if_true]
    exact hends.cons_inv
  · change s.manager o = _
    rw [← hactive, ← hq]
  · exact ht.symm.trans (h.endTime x (List.mem_cons_self ..) hk hx)

/-- A handler that has been taken up is invoked. -/
theorem Turn.taken {batch : List Scheduling} {k : HandlerKind} {a : ActionPtr}
    (h : Turn o i .idle batch s) (ha : s.affected a = i ↔ o' = o) (hk : k = .handlerEnd → o' ≠ o) :
    Turn o i (.taken k o' a) batch s := by
  refine h.move rfl rfl rfl ?_ rfl h.addressed ⟨ha, fun ho hke => absurd ho (hk hke)⟩
  cases k with
  | handlerEnd => exact if_neg (hk rfl)
  | handlerStart | handlerInit => rfl

end

/-- The core keeps the invariant of `o` if every end handler for it finds its queue empty. -/
theorem Turn.stepwise (o : ObjectPtr) (i : ObjectId) :
    Stepwise (ω := ω) (fun batch s => s.Lists o i ∧ s.EndsAlone o i batch)
      fun st batch s => InPhase st batch s ∧ Turn o i st batch s where
  act hact h := ⟨h.1.act hact, h.2.act hact h.1⟩
  advance ht h := ⟨InPhase.stepwise.advance ht h.1, { h.2 with fits := trivial }⟩
  fetch h hent hfiled :=
    ⟨InPhase.stepwise.fetch h.1 hent hfiled,
      h.2.move rfl (by simp [pending, hent]) rfl rfl rfl h.2.addressed trivial⟩
  fail h := ⟨InPhase.stepwise.fail h.1, h.2.move rfl rfl rfl rfl rfl h.2.addressed trivial⟩
  drop hC h hr :=
    ⟨InPhase.stepwise.drop trivial h.1 hr, h.2.takeUp (.inr fun hi => hC.1.kept (hi ▸ hr))⟩
  take {x rest s o'} hC h ht hlt hlook := by
    refine ⟨InPhase.stepwise.take trivial h.1 ht hlt hlook, ?_⟩
    obtain ⟨hlists, halone⟩ := hC
    have hiff : s.affected x.action = i ↔ o' = o := hlists.iff hlook
    by_cases hx : x.handler.kind = .handlerEnd ∧ s.affected x.action = i
    · obtain ⟨hk, hi⟩ := hx
      obtain rfl := hiff.1 hi
      rw [hk]
      exact h.2.takeUpEnd hk hi ht (halone x rfl hk hi)
    · refine (h.2.takeUp (not_and_or.1 hx)).taken hiff fun hk ho => hx ⟨hk, hiff.2 ho⟩

/-- The container lists `o` under `i` whenever a handler is about to be taken up. -/
def Machine.Keeps (o : ObjectPtr) (i : ObjectId) (m : Machine ω) : Prop :=
  m.control = .executing → m.core.Lists o i

/-- No end handler is about to be taken up for `o` while actions wait in its queue. -/
def Machine.EndsAlone (o : ObjectPtr) (i : ObjectId) (m : Machine ω) : Prop :=
  m.control = .executing → m.core.EndsAlone o i m.batch

/-- The calls on `o` alternate and match, no action is started or ended twice, each is ended at its
end time, and the end handler of the running one, if there is one, is the only one pending. -/
structure Machine.Serial (o : ObjectPtr) (i : ObjectId) (m : Machine ω) : Prop where
  served : ∃ running, Served (callsOf o m.core.history.calls) running ∧
    ((∀ f, m.control ≠ .aborted f) →
      endsOf i m.core.affected (pending m.batch m.core) = running.toList)
  started : (startedActions (callsOf o m.core.history.calls)).Nodup
  ended : (endedActions (callsOf o m.core.history.calls)).Nodup
  past : ∀ c ∈ callsOf o m.core.history.calls, c.kind = .handlerEnd →
    c.time = (m.core.actions.cell c.action).getEndTime
  future : (∀ f, m.control ≠ .aborted f) → ∀ h ∈ pending m.batch m.core,
    h.handler.kind = .handlerEnd → m.core.affected h.action = i →
    h.time = (m.core.actions.cell h.action).getEndTime

instance (o : ObjectPtr) (i : ObjectId) (m : Machine ω) : Decidable (m.Keeps o i) :=
  inferInstanceAs (Decidable (_ → _))

instance (o : ObjectPtr) (i : ObjectId) (m : Machine ω) : Decidable (m.EndsAlone o i) :=
  inferInstanceAs (Decidable (_ → _))

section
variable {o : ObjectPtr} {i : ObjectId}

theorem startedActions_callsOf_nodup {st : Stage} {batch : List Scheduling} {s : Core ω}
    (h : InPhase st batch s) : (startedActions (callsOf o s.history.calls)).Nodup := by
  obtain ⟨phase, hp, -⟩ := h
  exact hp.once.sublist ((List.filter_sublist.filter _).map _)

/-- In a run in which no end handler is dispatched to `o` while other actions wait in its queue, the
executions of `o` follow one another. -/
theorem serial_of_endsAlone {V : Virtuals ω} (hV : V.Lawful) {setup : CoreM ω Unit}
    (hsetup : ObjectProgram setup) {compareIds : Bool} {world : ω} {m : Machine ω}
    (h : ReachedUnder (fun m => m.Keeps o i ∧ m.EndsAlone o i) V compareIds setup world m) :
    m.Serial o i := by
  have hinit : InPhase .idle [] (Core.new world) ∧ Turn o i .idle [] (Core.new world) := by
    refine ⟨⟨_, .new world, trivial⟩, ?_, ?_, .nil, ?_, ?_, trivial⟩ <;>
      simp [pending, Core.new, endsOf, Stage.owed, Core.manager, Heap.empty, callsOf]
  have hm := (Turn.stepwise o i).reached hV hsetup
    (fun m hC hc => ⟨hC.1 hc, hC.2 hc⟩) hinit h
  obtain ⟨st, batch, ⟨hi, ht⟩, hst⟩ := hm.stage
  have hstarted := startedActions_callsOf_nodup (o := o) hi
  refine ⟨⟨_, ht.served, fun hne => ?_⟩, hstarted, ?_, ht.past, fun hne => ?_⟩
  · obtain ⟨rfl, rfl⟩ := hst hne
    have hends := ht.ends
    simp only [Stage.owed, Stage.running] at hends ⊢
    cases ha : (m.core.manager o).mActiveAction <;> rw [ha] at hends
    · exact hends.eq_nil
    · exact hends.eq_singleton
  · exact (ht.served.started_perm.nodup_iff.1 hstarted).of_append_left
  · obtain ⟨rfl, rfl⟩ := hst hne
    exact ht.endTime

end

theorem oneObjectRun_reachedUnder {C : Machine Unit → Prop} {compareIds : Bool}
    {work : List (Duration × TimePoint)} {steps : Nat}
    (hC : ∀ k < steps, C (oneObjectRun compareIds work k)) :
    ReachedUnder C SimulationManager.virtuals compareIds (oneObject work) ()
      (oneObjectRun compareIds work steps) := by
  apply ReachedUnder.run_of
  intro k hk
  rw [List.length_replicate] at hk
  rw [List.take_replicate, Nat.min_eq_left hk.le]
  exact hC k hk

/-- Two executions of one object that do not overlap. -/
theorem serial_of_endsAlone_apart :
    callsOf 0 (oneObjectRun false [(5, 0), (5, 7)] 18).core.history.calls =
      [⟨.handlerStart, 0, 0, 0⟩, ⟨.handlerEnd, 0, 0, 5⟩, ⟨.handlerStart, 0, 1, 7⟩,
        ⟨.handlerEnd, 0, 1, 12⟩] ∧ (oneObjectRun false [(5, 0), (5, 7)] 18).Serial 0 2 :=
  ⟨by decide +kernel,
    serial_of_endsAlone SimulationManager.virtuals_lawful (oneObject_program _)
      (oneObjectRun_reachedUnder (by decide +kernel))⟩

/-- Of two actions that overlap, the first one is ended twice. -/
theorem not_serial :
    ¬ ∀ (work : List (Duration × TimePoint)) (m : Machine Unit),
      ReachedUnder (Machine.Keeps 0 2) SimulationManager.virtuals false (oneObject work) () m →
        m.Serial 0 2 := by
  intro h
  have hm := h [(5, 0), (5, 3)] (oneObjectRun false [(5, 0), (5, 3)] 16)
    (oneObjectRun_reachedUnder (by decide +kernel))
  have hended : endedActions (callsOf 0 (oneObjectRun false [(5, 0), (5, 3)] 16).core.history.calls) =
      [0, 0] := by decide +kernel
  exact absurd (hended ▸ hm.ended) (by decide)

end Cosidia
