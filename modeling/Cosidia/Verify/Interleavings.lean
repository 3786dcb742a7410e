import Cosidia.Objects.Fibers
import Cosidia.Theory.Mirrors
import Cosidia.Verify.Stages

/-!
# Results do not depend on when fibers are run

The manager of an object keeps it from being started again before its end handler, which waits for
the task. So there is at most one task to wait for, nobody sees whether it has been run, and the
simulation mirrors the one that runs tasks where they are launched.
-/

namespace Cosidia

open EStateM Interleaving

variable {ω κ ρ σ : Type}

/-! ## The task of an object -/

namespace FiberState

variable {task : κ → σ → ρ × σ} {c : FiberState κ ρ σ}

/-- There is at most one task to wait for. -/
def Single (c : FiberState κ ρ σ) : Prop :=
  c.fibers = [] ∨ ∃ bound, c.fibers = [{ bound }] ∧ c.mFuture = none

theorem isIdle_iff : c.isIdle = true ↔ c.fibers = [] ∧ c.mFuture = none := by
  simp [isIdle]

theorem single_of_isIdle (h : c.isIdle = true) : c.Single := .inl (isIdle_iff.1 h).1

theorem finish_of_nil (h : c.fibers = []) : c.finish task = c := by
  obtain ⟨own, fibers, mFuture⟩ := c
  cases h
  rfl

/-- A task that is launched on an idle object is run when the fibers are. -/
theorem launch_of_isIdle (task : κ → σ → ρ × σ) (h : c.isIdle = true) (bound : κ) :
    (c.launch bound).Single ∧
      (c.launch bound).finish task = ⟨(task bound c.own).2, [], some (task bound c.own).1⟩ := by
  obtain ⟨own, fibers, mFuture⟩ := c
  obtain ⟨rfl, rfl⟩ := isIdle_iff.1 h
  exact ⟨.inr ⟨bound, rfl, rfl⟩, rfl⟩

/-- Tasks that leave the state alone leave it alone when all fibers are run. -/
theorem finish_own (htask : ∀ bound own, (task bound own).2 = own) (c : FiberState κ ρ σ) :
    (c.finish task).own = c.own := by
  have hrun : ∀ (fibers : List (Detached κ)) (c : FiberState κ ρ σ),
      (fibers.foldl (fun c fiber => c.execute task fiber) c).own = c.own := by
    intro fibers
    induction fibers with
    | nil => exact fun _ => rfl
    | cons fiber fibers ih => exact fun c => (ih _).trans (htask fiber.bound c.own)
  exact hrun c.fibers c

theorem isIdle_own (h : c.isIdle = true) (own : σ) :
    ({ c with own := own } : FiberState κ ρ σ).isIdle = true := h

theorem work_of_nil (h : c.fibers = []) (i : Nat) : c.work task i = c := by
  simp only [work]
  rw [h, List.getElem?_nil]

/-- That a worker has run a fiber cannot be told when all fibers have been run. -/
theorem Single.work (task : κ → σ → ρ × σ) (h : c.Single) (i : Nat) :
    (c.work task i).Single ∧ (c.work task i).finish task = c.finish task := by
  rcases h with h | ⟨bound, h, hnone⟩
  · rw [work_of_nil h]
    exact ⟨.inl h, rfl⟩
  · obtain ⟨own, fibers, mFuture⟩ := c
    cases h
    cases hnone
    cases i with
    | zero => exact ⟨.inl rfl, rfl⟩
    | succ i => exact ⟨.inr ⟨bound, rfl, rfl⟩, rfl⟩

theorem isIdle_work (h : c.isIdle = true) (i : Nat) : (c.work task i).isIdle = true := by
  rwa [work_of_nil (isIdle_iff.1 h).1]

/-- Waiting for the task returns its result, wherever it is run. -/
theorem Single.get (task : κ → σ → ρ × σ) (h : c.Single) :
    c.get task = ((c.finish task).mFuture, ⟨(c.finish task).own, [], none⟩) := by
  obtain ⟨own, fibers, mFuture⟩ := c
  rcases h with h | ⟨bound, h, hnone⟩
  · cases h
    cases mFuture <;> rfl
  · cases h
    cases hnone
    rfl

/-- Whether there is a task to wait for can be told when all fibers have been run. -/
theorem Single.settled (h : c.Single) : (if c.isIdle then some c.own else none) =
    if (c.finish task).mFuture.isNone then some (c.finish task).own else none := by
  obtain ⟨own, fibers, mFuture⟩ := c
  rcases h with h | ⟨bound, h, hnone⟩
  · cases h
    rfl
  · cases h
    cases hnone
    rfl

end FiberState

/-! ## All fibers run -/

/-- The objects after all fibers have been run. -/
def Concurrent.finish (B : Behaviour ω κ ρ σ) (w : Concurrent ω κ ρ σ) : Sequential ω ρ σ where
  shared := w.shared
  state o :=
    let c := (w.state o).finish (B.task o)
    (c.own, c.mFuture)

/-- The core after all fibers have been run. -/
def Core.finish (B : Behaviour ω κ ρ σ) (s : Core (Concurrent ω κ ρ σ)) : Core (Sequential ω ρ σ) :=
  s.withWorld (s.world.finish B)

/-- The machine after all fibers have been run, without the clock's answers. -/
def Machine.finish (B : Behaviour ω κ ρ σ) (m : Machine (Concurrent ω κ ρ σ)) :
    Machine (Sequential ω ρ σ) where
  core := m.core.finish B
  batch := m.batch
  control := m.control

theorem Concurrent.finish_setState (B : Behaviour ω κ ρ σ) (w : Concurrent ω κ ρ σ) (o : ObjectPtr)
    (c : FiberState κ ρ σ) : (w.setState o c).finish B =
      (w.finish B).setState o ((c.finish (B.task o)).own, (c.finish (B.task o)).mFuture) := by
  unfold finish setState Sequential.setState
  congr 1
  funext o'
  simp only [Function.update_apply]
  split
  · next h => rw [h]
  · rfl

/-- The shared data and the state of `o` change. -/
def Concurrent.setOwn (o : ObjectPtr) (data : ω × σ) (w : Concurrent ω κ ρ σ) :
    Concurrent ω κ ρ σ where
  shared := data.1
  state := Function.update w.state o { w.state o with own := data.2 }

theorem Concurrent.finish_setOwn (B : Behaviour ω κ ρ σ) (w : Concurrent ω κ ρ σ) {o : ObjectPtr}
    (h : (w.state o).isIdle = true) (data : ω × σ) : (w.setOwn o data).finish B =
      { shared := data.1
        state := Function.update (w.finish B).state o (data.2, ((w.finish B).state o).2) } := by
  unfold finish setOwn
  congr 1
  funext o'
  simp only [Function.update_apply]
  split
  · next ho =>
    have hown : ({ w.state o with own := data.2 } : FiberState κ ρ σ).finish (B.task o) = _ :=
      FiberState.finish_of_nil (FiberState.isIdle_iff.1 h).1
    rw [ho, hown, FiberState.finish_of_nil (FiberState.isIdle_iff.1 h).1]
  · rfl

/-! ## Tasks and active actions -/

namespace Core

/-- The object `o` has an active action. -/
def Busy (s : Core ω) (o : ObjectPtr) : Prop :=
  o < s.objects.next ∧ (s.manager o).mActiveAction.isSome = true

theorem Busy.managers {s s' : Core ω} {o : ObjectPtr} (h : s.Busy o) (hs : SameManagers s s') :
    s'.Busy o :=
  ⟨h.1.trans_le hs.objects, by rw [hs.object o h.1]; exact h.2⟩

/-- Every object has at most one task to wait for, and none unless an action is active. -/
structure Paired (s : Core (Concurrent ω κ ρ σ)) : Prop where
  single : ∀ o, (s.world.state o).Single
  idle : ∀ o, s.Busy o ∨ (s.world.state o).isIdle = true

/-- Moreover the object `o` has no task. -/
structure Ready (o : ObjectPtr) (s : Core (Concurrent ω κ ρ σ)) : Prop extends s.Paired where
  ready : (s.world.state o).isIdle = true

/-- The managers and the tasks are the same. -/
structure SameTasks (s s' : Core (Concurrent ω κ ρ σ)) : Prop extends SameManagers s s' where
  world : s'.world = s.world

variable {s s' s'' : Core (Concurrent ω κ ρ σ)} {o : ObjectPtr}

theorem SameTasks.refl (s : Core (Concurrent ω κ ρ σ)) : SameTasks s s := ⟨.refl s, rfl⟩

theorem SameTasks.trans (h : SameTasks s s') (h' : SameTasks s' s'') : SameTasks s s'' :=
  ⟨h.toSameManagers.trans h'.toSameManagers, h'.world.trans h.world⟩

theorem Paired.of_isIdle (h : ∀ o, (s.world.state o).isIdle = true) : s.Paired :=
  ⟨fun o => .inl (FiberState.isIdle_iff.1 (h o)).1, fun o => .inr (h o)⟩

theorem Paired.same (h : s.Paired) (hs : SameTasks s s') : s'.Paired := by
  refine ⟨fun o => ?_, fun o => ?_⟩ <;> rw [hs.world]
  · exact h.single o
  · exact (h.idle o).imp_left fun hb => hb.managers hs.toSameManagers

theorem Ready.same (h : s.Ready o) (hs : SameTasks s s') : s'.Ready o :=
  ⟨h.toPaired.same hs, by rw [hs.world]; exact h.ready⟩

/-- The manager of `o` changes, whose tasks are done or which keeps an active action. -/
theorem Paired.setManager (h : s.Paired) (ho : o < s.objects.next) {m : ObjectActionManager}
    (hm : m.mActiveAction.isSome = true ∨ (s.world.state o).isIdle = true) :
    (s.setManager o m).Paired := by
  refine ⟨h.single, fun o' => ?_⟩
  simp only [Busy]
  rw [setManager_manager]
  rcases eq_or_ne o' o with rfl | hne
  · rw [if_pos rfl]
    exact hm.imp_left fun hm => ⟨ho, hm⟩
  · rw [if_neg hne]
    exact h.idle o'

theorem Ready.setManager (h : s.Ready o) (ho : o < s.objects.next) (m : ObjectActionManager) :
    (s.setManager o m).Ready o :=
  ⟨h.toPaired.setManager ho (.inr h.ready), h.ready⟩

/-- The tasks of `o` change, as well as anything but the managers. -/
theorem Paired.update (h : s.Paired) (hs : SameManagers s s') {c : FiberState κ ρ σ}
    (hstate : s'.world.state = Function.update s.world.state o c) (hc : c.Single)
    (hidle : s'.Busy o ∨ c.isIdle = true) : s'.Paired := by
  refine ⟨fun o' => ?_, fun o' => ?_⟩ <;> rw [hstate] <;> rcases eq_or_ne o' o with rfl | hne
  · rwa [Function.update_self]
  · rw [Function.update_of_ne hne]
    exact h.single o'
  · rwa [Function.update_self]
  · rw [Function.update_of_ne hne]
    exact (h.idle o').imp_left fun hb => hb.managers hs

theorem Paired.ready (h : s.Paired) (hs : SameManagers s s') {c : FiberState κ ρ σ}
    (hstate : s'.world.state = Function.update s.world.state o c) (hc : c.isIdle = true) :
    s'.Ready o := by
  refine ⟨h.update hs hstate (FiberState.single_of_isIdle hc) (.inr hc), ?_⟩
  rw [hstate, Function.update_self]
  exact hc

theorem setManager_busy {m : ObjectActionManager} (ho : o < s.objects.next)
    (hm : m.mActiveAction.isSome = true) : (s.setManager o m).Busy o := by
  refine ⟨ho, ?_⟩
  rwa [setManager_manager, if_pos rfl]

end Core

/-! ## Programs that have nothing to do with tasks -/

/-- `x` and `y` do the same and leave managers and tasks alone. -/
def Neutral (B : Behaviour ω κ ρ σ) {α : Type} (x : CoreM (Concurrent ω κ ρ σ) α)
    (y : CoreM (Sequential ω ρ σ) α) : Prop :=
  ∀ s, Mirrors (Core.finish B) x y s (fun _ => Core.SameTasks s) fun _ => Core.SameTasks s

namespace Neutral

variable {B : Behaviour ω κ ρ σ} {α β : Type}

section
variable {x : CoreM (Concurrent ω κ ρ σ) α} {y : CoreM (Sequential ω ρ σ) α}
  {k : α → CoreM (Concurrent ω κ ρ σ) β} {k' : α → CoreM (Sequential ω ρ σ) β}

theorem pure (a : α) : Neutral B (Pure.pure a) (Pure.pure a) := fun s => .pure (.refl s)

theorem throw (e : Failure) :
    Neutral B (MonadExcept.throw e : CoreM _ α) (MonadExcept.throw e) := fun s => .throw (.refl s)

theorem enforce (b : Bool) (msg : String) : Neutral B (Cosidia.enforce b msg) (Cosidia.enforce b msg) := by
  cases b
  · exact throw _
  · exact pure _

theorem bind (hx : Neutral B x y) (hk : ∀ a, Neutral B (k a) (k' a)) :
    Neutral B (x >>= k) (y >>= k') := fun s =>
  (hx s).bind fun a t ht =>
    (hk a t).mono (fun _ _ hu => ht.trans hu) fun _ _ hu => ht.trans hu

/-- After reading the state the rest may depend on all of it but the tasks. -/
theorem get_bind {k : Core (Concurrent ω κ ρ σ) → CoreM (Concurrent ω κ ρ σ) α}
    {k' : Core (Sequential ω ρ σ) → CoreM (Sequential ω ρ σ) α}
    (hk : ∀ s, Neutral B (k s) (k' (s.finish B))) : Neutral B (get >>= k) (get >>= k') :=
  fun s => .get_bind (hk s s)

theorem modify (g : Core (Concurrent ω κ ρ σ) → Core (Concurrent ω κ ρ σ))
    (g' : Core (Sequential ω ρ σ) → Core (Sequential ω ρ σ))
    (heq : ∀ s, g' (s.finish B) = (g s).finish B) (h : ∀ s, Core.SameTasks s (g s)) :
    Neutral B (modify g) (modify g') := fun s => .modify (heq s) (h s)

/-- Nothing is lost of a condition that depends on managers and tasks only. -/
theorem keeps {s : Core (Concurrent ω κ ρ σ)} {J I : Core (Concurrent ω κ ρ σ) → Prop}
    (hx : Neutral B x y) (hs : J s) (hJ : ∀ t, Core.SameTasks s t → J s → J t)
    (hI : ∀ t, J t → I t) : Mirrors (Core.finish B) x y s (fun _ => J) fun _ => I :=
  (hx s).mono (fun _ t ht => hJ t ht hs) fun _ t ht => hI t (hJ t ht hs)

theorem paired {s : Core (Concurrent ω κ ρ σ)} (hx : Neutral B x y) (hs : s.Paired) :
    Mirrors (Core.finish B) x y s (fun _ => Core.Paired) fun _ => Core.Paired :=
  hx.keeps hs (fun _ ht h => h.same ht) fun _ h => h

theorem ready {s : Core (Concurrent ω κ ρ σ)} {o : ObjectPtr} (hx : Neutral B x y)
    (hs : s.Ready o) : Mirrors (Core.finish B) x y s (fun _ => Core.Ready o) fun _ => Core.Paired :=
  hx.keeps hs (fun _ ht h => h.same ht) fun _ h => h.toPaired

theorem readyBusy {s : Core (Concurrent ω κ ρ σ)} {o : ObjectPtr} (hx : Neutral B x y)
    (hs : s.Ready o ∧ s.Busy o) :
    Mirrors (Core.finish B) x y s (fun _ t => t.Ready o ∧ t.Busy o) fun _ => Core.Paired :=
  hx.keeps hs (fun _ ht h => ⟨h.1.same ht, h.2.managers ht.toSameManagers⟩) fun _ h => h.1.toPaired

end

theorem onAction (p : ActionPtr) (x : EStateM Failure Action α) :
    Neutral B (onAction p x) (onAction p x) := by
  intro s
  refine ⟨?_, post_onAction (fun _ => post_of_state ⟨.of_eq rfl fun _ => rfl, rfl⟩) (.refl s)⟩
  simp only [Cosidia.onAction]
  by_cases hp : p < s.actions.next
  · have hp' : p < (s.finish B).actions.next := hp
    rw [if_pos hp, if_pos hp']
    exact zoom_map rfl fun _ => rfl
  · have hp' : ¬ p < (s.finish B).actions.next := hp
    rw [if_neg hp, if_neg hp']
    rfl

theorem onActions (x : EStateM Failure (HandlerMap Scheduling) α) :
    Neutral B (zoom (·.mActions) (fun m s => { s with mActions := m }) x)
      (zoom (·.mActions) (fun m s => { s with mActions := m }) x) := fun _ =>
  .zoom rfl (fun _ => rfl) (post_of_state ⟨.of_eq rfl fun _ => rfl, rfl⟩)

theorem getAction (p : ActionPtr) : Neutral B (getAction p) (getAction p) := onAction p _

end Neutral

/-- A method of an object. -/
theorem mirrors_onObject {B : Behaviour ω κ ρ σ} {α : Type} {p : ObjectPtr}
    {x : EStateM Failure BaseObject α} {s : Core (Concurrent ω κ ρ σ)}
    {Q : α → Core (Concurrent ω κ ρ σ) → Prop} {E : Failure → Core (Concurrent ω κ ρ σ) → Prop}
    (h : Post (onObject p x) s Q E) : Mirrors (Core.finish B) (onObject p x) (onObject p x) s Q E := by
  refine ⟨?_, h⟩
  simp only [onObject]
  by_cases hp : p < s.objects.next
  · have hp' : p < (s.finish B).objects.next := hp
    rw [if_pos hp, if_pos hp']
    exact zoom_map rfl fun _ => rfl
  · have hp' : ¬ p < (s.finish B).objects.next := hp
    rw [if_neg hp, if_neg hp']
    rfl

namespace Neutral

variable {B : Behaviour ω κ ρ σ} {α : Type}

theorem onObject (p : ObjectPtr) {x : EStateM Failure BaseObject α}
    (hx : ∀ b, (x b).state.mActionManager = b.mActionManager) :
    Neutral B (onObject p x) (onObject p x) := fun s =>
  mirrors_onObject <| post_onObject (fun _ => post_of_state
    ⟨.of_eq rfl fun o => by
      simp only [Core.manager, Core.writeObject_objects, Heap.write_cell]
      split
      · next ho => rw [ho, hx]
      · rfl, rfl⟩) (.refl s)

theorem getObject (p : ObjectPtr) : Neutral B (getObject p) (getObject p) := onObject p fun _ => rfl

theorem insertHandler (handler : ActionHandler) :
    Neutral B (Core.insertHandler handler) (Core.insertHandler handler) := by
  refine (getAction _).bind fun a => get_bind fun s => ?_
  exact (onActions _).bind fun _ =>
    modify _ _ (fun _ => rfl) fun _ => ⟨.of_eq rfl fun _ => rfl, rfl⟩

theorem scheduleAction (handler : ActionHandler) :
    Neutral B (Core.scheduleAction handler) (Core.scheduleAction handler) := by
  refine bind ?_ fun id => (onAction _ _).bind fun _ => insertHandler handler
  exact (modify Core.countId Core.countId (fun _ => rfl)
    fun _ => ⟨.of_eq rfl fun _ => rfl, rfl⟩).bind fun _ => get_bind fun s =>
      (modify (Core.noteGiven · s.mCurrentActionId) (Core.noteGiven · s.mCurrentActionId)
        (fun _ => rfl) fun _ => ⟨.of_eq rfl fun _ => rfl, rfl⟩).bind fun _ => pure _

theorem scheduleEndHandler (p : ActionPtr) :
    Neutral B (Action.scheduleEndHandler p) (Action.scheduleEndHandler p) := by
  apply (getAction p).bind
  intro a
  cases a.kind with
  | durationAction =>
    exact (getAction p).bind fun _ => (enforce _ _).bind fun _ => scheduleAction _
  | initAction => exact pure _

theorem noteCurrentAction (o : ObjectPtr) (a : ActionPtr) :
    Neutral B (BaseObject.noteCurrentAction o a) (BaseObject.noteCurrentAction o a) :=
  (getAction a).bind fun _ => onObject o fun _ => rfl

theorem checkHandlers (handlers : List Scheduling) :
    Neutral B (Core.checkHandlers handlers) (Core.checkHandlers handlers) := by
  simp only [Core.checkHandlers]
  cases handlers.head? with
  | none => exact throw _
  | some h =>
    exact (getAction _).bind fun a => get_bind fun s => (enforce _ _).bind fun _ => pure _

theorem runSimulationLoop : Neutral B Core.runSimulationLoop Core.runSimulationLoop := by
  refine get_bind fun s => (enforce _ _).bind fun _ => bind ?_ fun _ => get_bind fun t => ?_
  · exact modify _ _ (fun _ => rfl) fun _ => ⟨.of_eq rfl fun _ => rfl, rfl⟩
  change Neutral B (if t.mCurrentActionTime == SimClock.invalid then _ else _)
    (if t.mCurrentActionTime == SimClock.invalid then _ else _)
  split
  · exact pure _
  · exact pure _

end Neutral

theorem neutral_noteCall {B : Behaviour ω κ ρ σ} (kind : HandlerKind) (o : ObjectPtr) (a : ActionPtr) :
    Neutral B (modify (BaseObject.noteCall kind o a)) (modify (BaseObject.noteCall kind o a)) :=
  .modify _ _ (fun _ => rfl) fun _ => ⟨.of_eq rfl fun _ => rfl, rfl⟩

/-! ## The action manager -/

section
variable {B : Behaviour ω κ ρ σ} {s : Core (Concurrent ω κ ρ σ)} {o : ObjectPtr}

/-- An action is only started on an object without a task. -/
theorem mirrors_startOrDelay (hs : s.Paired) (a : ActionPtr) :
    Mirrors (Core.finish B) (BaseObject.startOrDelay o a) (BaseObject.startOrDelay o a) s
      (fun delayed t => t.Paired ∧ (delayed = false → t.Ready o ∧ t.Busy o)) fun _ => Core.Paired := by
  refine mirrors_onObject (post_onManager (fun ho => ?_) hs)
  rcases hm : s.manager o with ⟨_ | b, q⟩
  · have hidle : (s.world.state o).isIdle = true := by
      apply (hs.idle o).resolve_left
      intro hb
      have := hb.2
      rw [hm] at this
      cases this
    cases q with
    | nil =>
      rw [Post, ObjectActionManager.startOrDelay_idle]
      have hready : (s.setManager o ⟨some a, []⟩).Ready o := Core.Ready.setManager ⟨hs, hidle⟩ ho _
      exact ⟨hready.toPaired, fun _ => ⟨hready, Core.setManager_busy ho rfl⟩⟩
    | cons b q =>
      rw [Post, ObjectActionManager.startOrDelay_stuck]
      exact hs.setManager ho (.inr hidle)
  · rw [Post, ObjectActionManager.startOrDelay_busy]
    exact ⟨hs.setManager ho (.inl rfl), fun h => absurd h.symm Bool.false_ne_true⟩

theorem mirrors_endAndCheckAvailable (hs : s.Ready o) :
    Mirrors (Core.finish B) (BaseObject.endAndCheckAvailable o) (BaseObject.endAndCheckAvailable o) s
      (fun _ => Core.Ready o) fun _ => Core.Paired := by
  refine mirrors_onObject (post_onManager (fun ho => ?_) hs.toPaired)
  rw [Post, ObjectActionManager.endAndCheckAvailable_apply]
  exact hs.setManager ho _

theorem mirrors_activateShifted (hs : s.Ready o) (a : ActionPtr) :
    Mirrors (Core.finish B) (BaseObject.activateShifted o a) (BaseObject.activateShifted o a) s
      (fun _ t => t.Ready o ∧ t.Busy o) fun _ => Core.Paired := by
  refine Mirrors.bind (Q := fun _ t => t.Ready o ∧ t.Busy o)
    (mirrors_onObject (post_onManager (fun ho => ?_) hs.toPaired)) fun update t ht => ?_
  · have hsame : (s.setManager o (s.manager o)).Paired := (hs.setManager ho _).toPaired
    rcases hm : s.manager o with ⟨active, _ | ⟨b, q⟩⟩
    · rw [hm] at hsame
      exact hsame
    · cases active with
      | none =>
        rw [Post, ObjectActionManager.activateNextAvailableAction_idle]
        exact ⟨hs.setManager ho _, Core.setManager_busy ho rfl⟩
      | some c =>
        rw [hm] at hsame
        exact hsame
  · exact Neutral.readyBusy ((Neutral.getAction a).bind fun _ =>
      (Neutral.onAction _ _).bind fun _ => .pure update) ht

end

/-! ## The code of the objects -/

section
variable {B : Behaviour ω κ ρ σ} {s : Core (Concurrent ω κ ρ σ)} {o : ObjectPtr}

/-- Code that does not use the state of an object may do anything to the managers if there is no task. -/
theorem mirrors_onShared {α : Type} (x : CoreM ω α) (hs : ∀ o, (s.world.state o).isIdle = true) :
    Mirrors (Core.finish B) (Concurrent.onShared x) (Sequential.onShared x) s (fun _ => Core.Paired)
      fun _ => Core.Paired :=
  .zoom rfl (fun _ => rfl) (post_iff.2 ⟨fun _ _ _ => .of_isIdle hs, fun _ _ _ => .of_isIdle hs⟩)

/-- Code of an object that has no task uses the state that the object is left with. -/
theorem mirrors_onOwn {α : Type} {x : CoreM (ω × σ) α} (hx : ObjectProgram x) (hs : s.Ready o) :
    Mirrors (Core.finish B) (Concurrent.onOwn o x) (Sequential.onOwn o x) s
      (fun _ t => t.Ready o ∧ (s.Busy o → t.Busy o)) fun _ => Core.Paired := by
  have hkept : ∀ u : Core (ω × σ),
      SameManagers (s.withWorld (s.world.shared, (s.world.state o).own)) u →
      SameManagers s (u.withWorld (s.world.setOwn o u.world)) :=
    fun _ hu => ⟨hu.objects, hu.object, hu.unmade⟩
  refine .zoom ?_ (fun u => congrArg u.withWorld (s.world.finish_setOwn B hs.ready u.world).symm) ?_
  · change s.withWorld (s.world.shared, ((s.world.state o).finish (B.task o)).own) = _
    rw [FiberState.finish_of_nil (FiberState.isIdle_iff.1 hs.ready).1]
  · have hpost : ∀ u : Core (ω × σ),
        SameManagers (s.withWorld (s.world.shared, (s.world.state o).own)) u →
        (u.withWorld (s.world.setOwn o u.world)).Ready o :=
      fun u hu => hs.toPaired.ready (hkept u hu) rfl (FiberState.isIdle_own hs.ready u.world.2)
    refine (post_of_state (hx.managers _)).mono (fun _ u hu => ?_) fun _ u hu => (hpost u hu).toPaired
    exact ⟨hpost u hu, fun hb => hb.managers (hkept u hu)⟩

theorem mirrors_launch (hs : s.Ready o) (hb : s.Busy o) (bound : κ) :
    Mirrors (Core.finish B) (Concurrent.launch o bound) (Sequential.launch (B.task o) o bound) s
      (fun _ => Core.Paired) fun _ => Core.Paired := by
  obtain ⟨hsingle, hfinish⟩ := FiberState.launch_of_isIdle (B.task o) hs.ready bound
  have hstate : (s.finish B).world.state o = ((s.world.state o).own, (s.world.state o).mFuture) := by
    change (((s.world.state o).finish _).own, ((s.world.state o).finish _).mFuture) = _
    rw [FiberState.finish_of_nil (FiberState.isIdle_iff.1 hs.ready).1]
  refine .modify (congrArg s.withWorld ?_) (hs.toPaired.update (.of_eq rfl fun _ => rfl) rfl hsingle
    (.inl ⟨hb.1, hb.2⟩))
  rw [Concurrent.finish_setState, hfinish, hstate]
  rfl

theorem mirrors_get (hs : s.Paired) :
    Mirrors (Core.finish B) (Concurrent.get (B.task o) o) (Sequential.get o) s
      (fun _ => Core.Ready o) fun _ => Core.Paired := by
  have hget : Concurrent.get (B.task o) o s =
      .ok ((s.world.state o).finish (B.task o)).mFuture (s.withWorld (s.world.setState o
        ⟨((s.world.state o).finish (B.task o)).own, [], none⟩)) := by
    change EStateM.Result.ok ((s.world.state o).get (B.task o)).1 (s.withWorld
      (s.world.setState o ((s.world.state o).get (B.task o)).2)) = _
    rw [(hs.single o).get]
  refine ⟨?_, ?_⟩
  · rw [hget]
    refine congrArg (EStateM.Result.ok _) (congrArg s.withWorld ?_)
    exact (Concurrent.finish_setState B s.world o
      ⟨((s.world.state o).finish (B.task o)).own, [], none⟩).symm
  · rw [Post, hget]
    exact hs.ready (.of_eq rfl fun _ => rfl) rfl rfl

variable (hB : B.Lawful) (a : ActionPtr)
include hB

theorem mirrors_startExecution (hs : s.Ready o ∧ s.Busy o) :
    Mirrors (Core.finish B) (BaseObject.startExecution (Concurrent.virtuals B) o a)
      (BaseObject.startExecution (Sequential.virtuals B) o a) s (fun _ => Core.Paired)
      fun _ => Core.Paired := by
  apply (Neutral.readyBusy (neutral_noteCall .handlerStart o a) hs).bind
  intro _ t ht
  apply (mirrors_onOwn (hB.startExecution o a) ht.1).bind
  intro bound u hu
  cases bound with
  | none => exact .pure hu.1.toPaired
  | some bound => exact mirrors_launch hu.1 (hu.2 ht.2) bound

theorem mirrors_endExecution (hs : s.Paired) :
    Mirrors (Core.finish B) (BaseObject.endExecution (Concurrent.virtuals B) o a)
      (BaseObject.endExecution (Sequential.virtuals B) o a) s (fun _ => Core.Ready o)
      fun _ => Core.Paired := by
  apply (Neutral.paired (neutral_noteCall .handlerEnd o a) hs).bind
  intro _ t ht
  apply (mirrors_get ht).bind
  intro result u hu
  exact (mirrors_onOwn (hB.endExecution o a result) hu).mono (fun _ _ h => h.1) fun _ _ h => h

theorem mirrors_initObject (hs : s.Ready o) :
    Mirrors (Core.finish B) (BaseObject.initObject (Concurrent.virtuals B) o a)
      (BaseObject.initObject (Sequential.virtuals B) o a) s (fun _ => Core.Ready o)
      fun _ => Core.Paired := by
  apply (Neutral.ready (neutral_noteCall .handlerInit o a) hs).bind
  intro _ t ht
  exact (mirrors_onOwn (hB.initObject o a) ht).mono (fun _ _ h => h.1) fun _ _ h => h

/-- After a virtual method: the next waiting action is started, if there is one. -/
theorem mirrors_closing (ending : ActionPtr → ActionPtr) (hs : s.Ready o) :
    Mirrors (Core.finish B)
      (do
        if ← BaseObject.endAndCheckAvailable o then
          let update ← BaseObject.activateShifted o a
          BaseObject.noteCurrentAction o a
          Action.scheduleEndHandler (ending update)
          BaseObject.startExecution (Concurrent.virtuals B) o update)
      (do
        if ← BaseObject.endAndCheckAvailable o then
          let update ← BaseObject.activateShifted o a
          BaseObject.noteCurrentAction o a
          Action.scheduleEndHandler (ending update)
          BaseObject.startExecution (Sequential.virtuals B) o update) s
      (fun _ => Core.Paired) fun _ => Core.Paired := by
  apply (mirrors_endAndCheckAvailable hs).bind
  intro available t ht
  cases available with
  | false => exact .pure ht.toPaired
  | true =>
    apply (mirrors_activateShifted ht a).bind
    intro update u hu
    apply (Neutral.readyBusy (.noteCurrentAction o a) hu).bind
    intro _ v hv
    apply (Neutral.readyBusy (.scheduleEndHandler _) hv).bind
    intro _ w hw
    exact mirrors_startExecution hB update hw

theorem mirrors_startExecutionBase (hs : s.Paired) :
    Mirrors (Core.finish B) (BaseObject.startExecutionBase (Concurrent.virtuals B) o a)
      (BaseObject.startExecutionBase (Sequential.virtuals B) o a) s (fun _ => Core.Paired)
      fun _ => Core.Paired := by
  apply (Neutral.paired (.getObject o) hs).bind
  intro b t ht
  apply (Neutral.paired (.enforce _ _) ht).bind
  intro _ t ht
  apply (Neutral.paired (.getObject o) ht).bind
  intro b t ht
  apply (Neutral.paired (.enforce _ _) ht).bind
  intro _ t ht
  apply (Neutral.paired (.onObject o fun _ => rfl) ht).bind
  intro _ t ht
  apply (mirrors_startOrDelay ht a).bind
  intro delayed u hu
  cases delayed with
  | true => exact .pure hu.1
  | false =>
    apply (Neutral.readyBusy (.noteCurrentAction o a) (hu.2 rfl)).bind
    intro _ v hv
    apply (Neutral.readyBusy (.scheduleEndHandler a) hv).bind
    intro _ w hw
    exact mirrors_startExecution hB a hw

theorem mirrors_endExecutionBase (compareIds : Bool) (hs : s.Paired) :
    Mirrors (Core.finish B) (BaseObject.endExecutionBase (Concurrent.virtuals B) compareIds o a)
      (BaseObject.endExecutionBase (Sequential.virtuals B) compareIds o a) s (fun _ => Core.Paired)
      fun _ => Core.Paired := by
  have hrest : ∀ t : Core (Concurrent ω κ ρ σ), t.Paired → Mirrors (Core.finish B)
      (do
        BaseObject.endExecution (Concurrent.virtuals B) o a
        if ← BaseObject.endAndCheckAvailable o then
          let update ← BaseObject.activateShifted o a
          BaseObject.noteCurrentAction o a
          Action.scheduleEndHandler a
          BaseObject.startExecution (Concurrent.virtuals B) o update)
      (do
        BaseObject.endExecution (Sequential.virtuals B) o a
        if ← BaseObject.endAndCheckAvailable o then
          let update ← BaseObject.activateShifted o a
          BaseObject.noteCurrentAction o a
          Action.scheduleEndHandler a
          BaseObject.startExecution (Sequential.virtuals B) o update) t
      (fun _ => Core.Paired) fun _ => Core.Paired := fun t ht =>
    (mirrors_endExecution hB a ht).bind fun _ _ hu => mirrors_closing hB a (fun _ => a) hu
  cases compareIds with
  | false => exact hrest s hs
  | true =>
    apply (Neutral.paired (.getAction a) hs).bind
    intro b t ht
    apply (Neutral.paired (.getObject o) ht).bind
    intro c t ht
    exact (Neutral.paired (.enforce _ _) ht).bind fun _ t ht => hrest t ht

theorem mirrors_initObjectBase (hs : s.Paired) :
    Mirrors (Core.finish B) (BaseObject.initObjectBase (Concurrent.virtuals B) o a)
      (BaseObject.initObjectBase (Sequential.virtuals B) o a) s (fun _ => Core.Paired)
      fun _ => Core.Paired := by
  apply (mirrors_startOrDelay hs a).bind
  intro delayed u hu
  cases delayed with
  | true => exact .pure hu.1
  | false =>
    apply (Neutral.ready (.noteCurrentAction o a) (hu.2 rfl).1).bind
    intro _ v hv
    exact (mirrors_initObject hB a hv).bind fun _ w hw => mirrors_closing hB a id hw

theorem mirrors_invoke (compareIds : Bool) (handler : ActionHandler) (hs : s.Paired) :
    Mirrors (Core.finish B) (BaseObject.invoke (Concurrent.virtuals B) compareIds handler o)
      (BaseObject.invoke (Sequential.virtuals B) compareIds handler o) s (fun _ => Core.Paired)
      fun _ => Core.Paired := by
  simp only [BaseObject.invoke]
  cases handler.kind with
  | handlerStart => exact mirrors_startExecutionBase hB _ hs
  | handlerEnd => exact mirrors_endExecutionBase hB _ compareIds hs
  | handlerInit => exact mirrors_initObjectBase hB _ hs

theorem mirrors_dispatch (compareIds : Bool) (h : Scheduling) (hs : s.Paired) :
    Mirrors (Core.finish B) (Core.dispatch (Concurrent.virtuals B) compareIds h)
      (Core.dispatch (Sequential.virtuals B) compareIds h) s (fun _ => Core.Paired)
      fun _ => Core.Paired := by
  apply (Neutral.paired (.getAction _) hs).bind
  intro action t ht
  apply (Neutral.paired (.enforce _ _) ht).bind
  intro _ t ht
  refine (Neutral.paired (.enforce _ _) ht).bind fun _ t ht => .get_bind ?_
  have hlist : (t.finish B).mObjectList = t.mObjectList := rfl
  rw [hlist]
  cases t.mObjectList.getObjectByIdFromCurrentContainer action.mAffectedObject with
  | error e => exact (Mirrors.throw (Q := fun _ _ => False) ht).bind fun _ _ h => h.elim
  | ok found =>
    cases found with
    | none => exact .pure ht
    | some obj => exact mirrors_invoke hB compareIds h.handler ht

end

/-! ## The machine -/

/-- No object has a task before `setup` is done. -/
structure Machine.Paired (m : Machine (Concurrent ω κ ρ σ)) : Prop where
  core : m.core.Paired
  setup : m.control = .setup → ∀ o, (m.core.world.state o).isIdle = true

theorem Machine.paired_new (shared : ω) (own : ObjectPtr → σ) :
    (Machine.new (Concurrent.new shared own : Concurrent ω κ ρ σ)).Paired :=
  ⟨.of_isIdle fun _ => rfl, fun _ _ => rfl⟩

section
variable {B : Behaviour ω κ ρ σ} {m : Machine (Concurrent ω κ ρ σ)}

/-- The machine goes on as the one without fibers does, and has no more tasks than it may have. -/
def Machine.Follows (B : Behaviour ω κ ρ σ) (m : Machine (Concurrent ω κ ρ σ))
    (n : Machine (Sequential ω ρ σ)) : Prop := m.finish B = n ∧ m.Paired

theorem Machine.follows_resume {x : CoreM (Concurrent ω κ ρ σ) Control}
    {y : CoreM (Sequential ω ρ σ) Control}
    (h : Mirrors (Core.finish B) x y m.core (fun c t => t.Paired ∧ c ≠ .setup) fun _ => Core.Paired) :
    Follows B (m.resume x) ((m.finish B).resume y) := by
  have heq : y (m.finish B).core = _ := h.eq
  unfold resume
  rw [heq]
  cases hx : x m.core with
  | ok c t =>
    obtain ⟨ht, hc⟩ := h.post.ok hx
    exact ⟨rfl, ht, fun hsetup => absurd hsetup hc⟩
  | error f t => exact ⟨rfl, h.post.error hx, nofun⟩

theorem Machine.follows_loop (hm : m.Paired) (delay : Duration) :
    Follows B (m.loop delay) ((m.finish B).loop 0) := by
  have hloop := Neutral.paired (B := B) .runSimulationLoop hm.core
  have hcontrol : Returns Core.runSimulationLoop m.core fun c _ => c ≠ .setup := by
    rw [Returns, Post, Core.runSimulationLoop_apply]
    dsimp only
    split_ifs
    · exact Control.noConfusion
    · exact Control.noConfusion
    · trivial
  obtain ⟨heq, hpaired⟩ := follows_resume (m := m) ⟨hloop.eq, hloop.post.and_returns hcontrol⟩
  exact ⟨congrArg (fun n : Machine (Sequential ω ρ σ) => { n with mTimer := 0 }) heq, hpaired.1, hpaired.2⟩

theorem Machine.follows_fetch (hm : m.Paired) : Follows B m.fetch (m.finish B).fetch := by
  have hpop := Neutral.paired (B := B) (.onActions ActionList.popNextHandlers) hm.core
  have heq : Core.popNextHandlers (m.finish B).core = (Core.popNextHandlers m.core).mapState _ := hpop.eq
  simp only [fetch]
  rw [heq]
  cases hx : Core.popNextHandlers m.core with
  | ok handlers t =>
    have hcheck := Neutral.paired (B := B) (.checkHandlers handlers) (hpop.post.ok hx)
    refine follows_resume (m := { m with core := t, batch := handlers }) ⟨hcheck.eq, ?_⟩
    exact hcheck.post.and_returns (post_iff.2 ⟨fun c u hu => by
      rw [Core.checkHandlers_eq_ok hu]; exact nofun, fun _ _ _ => trivial⟩)
  | error f t => exact ⟨rfl, hpop.post.error hx, nofun⟩

/-- A step of the core thread, on which the answer of the clock has no influence. -/
theorem Machine.follows_proceed (hB : B.Lawful) (compareIds : Bool) (setup : CoreM ω Unit)
    (delay : Duration) (hm : m.Paired) :
    Follows B (Concurrent.proceed B compareIds setup delay m)
      (Sequential.proceed B compareIds setup (m.finish B)) := by
  have hcontrol : (m.finish B).control = m.control := rfl
  unfold Concurrent.proceed Sequential.proceed step
  rw [hcontrol]
  cases hc : m.control with
  | setup =>
    exact follows_resume ((mirrors_onShared setup (hm.setup hc)).bind fun _ _ ht => .pure ⟨ht, nofun⟩)
  | runSimulationLoop => exact follows_loop hm delay
  | waiting => exact follows_fetch hm
  | executing =>
    have hbatch : (m.finish B).batch = m.batch := rfl
    rw [hbatch]
    cases m.batch with
    | nil => exact ⟨rfl, hm.core, nofun⟩
    | cons h rest =>
      have htaken : (m.core.takeUp h).Paired := hm.core.same ⟨.of_eq rfl fun _ => rfl, rfl⟩
      exact follows_resume (m := { m with core := m.core.takeUp h, batch := rest })
        ((mirrors_dispatch hB compareIds h htaken).bind fun _ _ ht => .pure ⟨ht, nofun⟩)
  | running | finished | aborted f =>
    refine ⟨rfl, hm.core, fun h => ?_⟩
    rw [hc] at h
    cases h

/-- That a worker has run a fiber does not show. -/
theorem Machine.follows_work (hm : m.Paired) (job : ObjectPtr × Nat) :
    Follows B (Concurrent.work B job m) (m.finish B) := by
  obtain ⟨hsingle, hfinish⟩ := (hm.core.single job.1).work (B.task job.1) job.2
  refine ⟨?_, hm.core.update (.of_eq rfl fun _ => rfl) rfl hsingle ?_, fun hsetup o => ?_⟩
  · have hsame := m.core.world.finish_setState B job.1
      ((m.core.world.state job.1).work (B.task job.1) job.2)
    rw [hfinish] at hsame
    have hworld := hsame.trans (congrArg (fun state => { m.core.world.finish B with state })
      (Function.update_eq_self job.1 (m.core.world.finish B).state))
    exact congrArg (fun w => { m.finish B with core := m.core.withWorld w }) hworld
  · exact (hm.core.idle job.1).imp_right fun h => FiberState.isIdle_work h _
  · change (Function.update m.core.world.state job.1 _ o).isIdle = true
    rcases eq_or_ne o job.1 with rfl | hne
    · rw [Function.update_self]
      exact FiberState.isIdle_work (hm.setup hsetup _) _
    · rw [Function.update_of_ne hne]
      exact hm.setup hsetup o

/-- What is seen of a step is seen without fibers. -/
theorem Machine.see_finish {m' : Machine (Concurrent ω κ ρ σ)} (hm' : m'.Paired) :
    Concurrent.see B m m' = Sequential.see (m.finish B) (m'.finish B) := by
  have hsettled : m'.core.world.settled = (m'.core.world.finish B).settled :=
    funext fun o => (hm'.core.single o).settled
  unfold Concurrent.see Sequential.see
  rw [hsettled]
  rfl

end

theorem hides_fibers {B : Behaviour ω κ ρ σ} (hB : B.Lawful) (compareIds : Bool)
    (setup : CoreM ω Unit) : Hides (Concurrent.proceed B compareIds setup) (Concurrent.work B)
      Machine.Paired (Machine.finish B) (Sequential.proceed B compareIds setup) where
  main_inv delay _ hm := (Machine.follows_proceed hB compareIds setup delay hm).2
  job_inv job _ hm := (Machine.follows_work (B := B) hm job).2
  main_eq delay _ hm := (Machine.follows_proceed hB compareIds setup delay hm).1
  job_eq job _ hm := (Machine.follows_work hm job).1

/-- In every run an object has at most one task to wait for, and none unless an action is active. -/
theorem paired_of_run {B : Behaviour ω κ ρ σ} (hB : B.Lawful) (compareIds : Bool)
    (setup : CoreM ω Unit) (moves : List (Move Duration (ObjectPtr × Nat))) (shared : ω)
    (own : ObjectPtr → σ) : (Concurrent.run B compareIds setup moves shared own).Paired :=
  (hides_fibers hB compareIds setup).run_inv moves (Machine.paired_new shared own)

/-- Every run is one of the simulation without fibers, up to the fibers that have not been run. -/
theorem finish_run {B : Behaviour ω κ ρ σ} (hB : B.Lawful) (compareIds : Bool)
    (setup : CoreM ω Unit) (moves : List (Move Duration (ObjectPtr × Nat))) (shared : ω)
    (own : ObjectPtr → σ) : (Concurrent.run B compareIds setup moves shared own).finish B =
      (Sequential.proceed B compareIds setup)^[mains moves] (.new (Sequential.new shared own)) :=
  (hides_fibers hB compareIds setup).run_eq moves (Machine.paired_new shared own)

/-- However the execution of tasks interleaves with the core thread and whatever the clock answers, of
two runs the one with fewer steps of the core thread dispatches the first handlers of the other one,
with the same ids, and with the same data on the core thread and the same states of the objects after
each of them. If tasks change the state of their object themselves, these are the states of the
objects without a task to wait for, and those of all objects once their tasks have been run. -/
theorem dispatched_prefix {B : Behaviour ω κ ρ σ} (hB : B.Lawful) (compareIds : Bool)
    (setup : CoreM ω Unit) {moves moves' : List (Move Duration (ObjectPtr × Nat))}
    (hmoves : mains moves ≤ mains moves') (shared : ω) (own : ObjectPtr → σ) :
    Concurrent.dispatched B compareIds setup moves shared own <+:
        Concurrent.dispatched B compareIds setup moves' shared own ∧
      (B.Pure → Concurrent.states B compareIds setup moves shared own <+:
        Concurrent.states B compareIds setup moves' shared own) := by
  have hhides := hides_fibers hB compareIds setup
  refine ⟨?_, fun hpure => ?_⟩
  · have hsee : ∀ delay m, Machine.Paired m →
        Concurrent.see B m (Concurrent.proceed B compareIds setup delay m) =
          Sequential.see (m.finish B) (Sequential.proceed B compareIds setup (m.finish B)) := by
      intro delay m hm
      rw [← hhides.main_eq delay m hm]
      exact Machine.see_finish (hhides.main_inv delay m hm)
    exact hhides.shown_prefix hsee hmoves (Machine.paired_new shared own)
  · let see' (n n' : Machine (Sequential ω ρ σ)) : Option (ObjectPtr → σ) :=
      n.dispatching.map fun _ o => (n'.core.world.state o).1
    have hsee : ∀ delay m, Machine.Paired m →
        (m.dispatching.map fun _ o =>
          ((Concurrent.proceed B compareIds setup delay m).core.world.state o).own) =
        see' (m.finish B) (Sequential.proceed B compareIds setup (m.finish B)) := by
      intro delay m hm
      rw [← hhides.main_eq delay m hm]
      refine congrArg (fun states => m.dispatching.map fun _ => states) (funext fun o => ?_)
      exact (FiberState.finish_own (hpure o) _).symm
    exact hhides.shown_prefix hsee hmoves (Machine.paired_new shared own)

/-! ### Two workers -/

/-- Objects that count how often they have been ended. -/
def counting : Behaviour Unit Unit Nat Nat where
  startExecution _ _ := return some ()
  task _ _ n := (n + 1, n)
  endExecution _ _ result := modify fun s => { s with world := ((), result.getD s.world.2) }
  initObject _ _ := return

theorem counting_lawful : counting.Lawful :=
  ⟨fun _ _ => .pure _, fun _ _ result => .prim (.world fun w => ((), result.getD w.2)),
    fun _ _ => .pure _⟩

theorem counting_pure : counting.Pure := fun _ _ _ => rfl

/-- Add an object to the simulation and schedule an action for it. -/
def addWorker (duration : Duration) : CoreM Unit Unit := do
  let obj ← makeObject "Worker" none
  onObject obj (BaseObject.addParent .root)
  onObject obj (BaseObject.setObjectId (← Core.getNextObjectId))
  Core.addObject obj
  let action ← createSelfAction obj duration 0
  Action.scheduleStartHandler action

def twoWorkers : CoreM Unit Unit := do
  addWorker 10
  addWorker 5

/-- Both workers are started, some fibers are run and the second worker ends. -/
def untilSecondEnds (jobs : List (ObjectPtr × Nat)) : List (Move Duration (ObjectPtr × Nat)) :=
  List.replicate 8 (.main 0) ++ jobs.map .job ++ [.main 0]

/-- The task of the first worker is run before or after the second worker ends. -/
theorem dispatched_prefix_twoWorkers :
    (Concurrent.dispatched counting false twoWorkers (untilSecondEnds [(0, 0)]) () fun _ => 0).map
        (·.handler.handler.kind) = [.handlerStart, .handlerStart, .handlerEnd] ∧
      (Concurrent.states counting false twoWorkers (untilSecondEnds [(0, 0)]) () fun _ => 0).map
        (fun own => (own 0, own 1)) = [(0, 0), (0, 0), (0, 1)] ∧
      Concurrent.dispatched counting false twoWorkers (untilSecondEnds [(0, 0)]) () (fun _ => 0) <+:
        Concurrent.dispatched counting false twoWorkers (untilSecondEnds []) () (fun _ => 0) ∧
      Concurrent.states counting false twoWorkers (untilSecondEnds [(0, 0)]) () (fun _ => 0) <+:
        Concurrent.states counting false twoWorkers (untilSecondEnds []) () fun _ => 0 := by
  have hmoves : mains (untilSecondEnds [(0, 0)]) ≤ mains (untilSecondEnds []) := by decide
  obtain ⟨hdispatched, hstates⟩ :=
    dispatched_prefix counting_lawful false twoWorkers hmoves () fun _ => 0
  exact ⟨by decide +kernel, by decide +kernel, hdispatched, hstates counting_pure⟩

/-- Objects that count in their tasks how often they have been started. -/
def countingInTask : Behaviour Unit Unit Unit Nat where
  startExecution _ _ := return some ()
  task _ _ n := ((), n + 1)
  endExecution _ _ _ := return
  initObject _ _ := return

-- while a task that changes the state of its object is outstanding, the state may be either
example : (Concurrent.states countingInTask false twoWorkers (untilSecondEnds []) () fun _ => 0).map
    (fun own => own 0) = [0, 0, 0] := by decide +kernel

example : (Concurrent.states countingInTask false twoWorkers (untilSecondEnds [(0, 0)]) ()
    fun _ => 0).map (fun own => own 0) = [0, 0, 1] := by decide +kernel

end Cosidia
