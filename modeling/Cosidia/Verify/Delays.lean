import Cosidia.Verify.Runs
import Cosidia.Verify.Stages

/-!
# Actions that wait

An action waits in the queue of an object only while another one is active, whatever handlers are
invoked on the object and wherever its own code throws.
-/

namespace Cosidia

open EStateM Relation

variable {ω : Type}

namespace ObjectActionManager

/-- Nothing waits if nothing is active. -/
def Orderly (m : ObjectActionManager) : Prop := m.mActiveAction = none → m.mDelayedQueue = []

variable {m m' : ObjectActionManager}

theorem orderly_empty : Orderly {} := fun _ => rfl

theorem orderly_some (a : ActionPtr) (q : List ActionPtr) : Orderly ⟨some a, q⟩ := nofun

/-- A delay is reported with the action that is active. -/
theorem Orderly.startOrDelay (h : m.Orderly) (a : ActionPtr) :
    ∃ delayed m', startOrDelay a m = .ok delayed m' ∧ m'.Orderly ∧
      (delayed = true → ∃ b, m.mActiveAction = some b) := by
  obtain ⟨_ | b, q⟩ := m
  · obtain rfl : q = [] := h rfl
    exact ⟨false, _, startOrDelay_idle a, orderly_some _ _, fun h => absurd h Bool.false_ne_true⟩
  · exact ⟨true, _, startOrDelay_busy a b q, orderly_some _ _, fun _ => ⟨b, rfl⟩⟩

theorem activate_of_available (h : endAndCheckAvailable m = .ok true m') :
    ∃ b q, m' = ⟨none, b :: q⟩ ∧ activateNextAvailableAction m' = .ok b ⟨some b, q⟩ := by
  rw [endAndCheckAvailable_apply] at h
  obtain ⟨hav, rfl⟩ := Result.ok.inj h
  cases hq : m.mDelayedQueue with
  | nil =>
    simp only [isActionAvailable] at hav
    rw [hq] at hav
    cases hav
  | cons b q => exact ⟨b, q, rfl, activateNextAvailableAction_idle b q⟩

end ObjectActionManager

/-- The object `o` has none waiting if none is active. -/
abbrev Core.Orderly (o : ObjectPtr) (s : Core ω) : Prop := (s.manager o).Orderly

section
variable {o : ObjectPtr} {s s' : Core ω}

theorem Core.Orderly.of_eq (h : s.Orderly o) (hm : s'.manager o = s.manager o) : s'.Orderly o := by
  simp only [Core.Orderly]
  rwa [hm]

theorem Core.Orderly.managers (h : s.Orderly o) (hs : SameManagers s s') : s'.Orderly o := by
  rcases lt_or_ge o s.objects.next with ho | ho
  · exact h.of_eq (hs.object o ho)
  · rcases hs.unmade o ho with hm | hm
    · exact h.of_eq hm
    · simp only [Core.Orderly]
      rw [hm]
      exact ObjectActionManager.orderly_empty

/-- Programs that leave nothing waiting on the idle object. -/
abbrev KeepsOrder (o : ObjectPtr) {α : Type} (x : CoreM ω α) : Prop :=
  Composed (fun {_} x => ∀ s : Core ω, s.Orderly o → (x s).state.Orderly o) x

theorem KeepsOrder.state {α : Type} {x : CoreM ω α} (h : KeepsOrder o x) (hs : s.Orderly o) :
    (x s).state.Orderly o :=
  h.preserves (fun hx => hx) hs

theorem KeepsOrder.post {α : Type} {x : CoreM ω α} (h : KeepsOrder o x) (hs : s.Orderly o) :
    Post x s (fun _ s' => s'.Orderly o) fun _ s' => s'.Orderly o :=
  post_of_state (h.state hs)

theorem KeepsOrder.objectProgram {α : Type} {x : CoreM ω α} (h : ObjectProgram x) :
    KeepsOrder o x :=
  .prim fun s hs => hs.managers (h.managers s)

namespace KeepsOrder

theorem onAction {α : Type} (p : ActionPtr) (x : EStateM Failure Action α) :
    KeepsOrder o (onAction p x : CoreM ω α) :=
  .prim fun _ hs => Post.state <| post_onAction
    (fun _ => post_iff.2 ⟨fun _ _ _ => hs, fun _ _ _ => hs⟩) hs

theorem onObject {α : Type} (p : ObjectPtr) {x : EStateM Failure BaseObject α}
    (hx : ∀ b, (x b).state.mActionManager = b.mActionManager) :
    KeepsOrder o (onObject p x : CoreM ω α) := by
  refine .prim fun s hs => Post.state (post_onObject (fun _ => post_of_state (hs.of_eq ?_)) hs)
  simp only [Core.manager, Core.writeObject_objects, Heap.write_cell]
  split
  · next ho => rw [ho, hx]
  · rfl

theorem scheduleEndHandler (p : ActionPtr) :
    KeepsOrder o (Action.scheduleEndHandler p : CoreM ω _) := by
  refine .bind (onAction _ _) fun a => ?_
  cases a.kind with
  | durationAction =>
    refine .bind (onAction _ _) fun _ => .bind (Composed.enforce _ _) fun _ => .prim fun s hs => ?_
    rw [Core.scheduleAction_apply]
    split_ifs <;> exact hs
  | initAction => exact .pure _

theorem noteCurrentAction (obj : ObjectPtr) (action : ActionPtr) :
    KeepsOrder o (BaseObject.noteCurrentAction obj action : CoreM ω _) :=
  .bind (onAction _ _) fun _ => onObject _ fun _ => rfl

theorem getObject (p : ObjectPtr) : KeepsOrder o (getObject p : CoreM ω _) := onObject _ fun _ => rfl

theorem startOrDelay (a : ActionPtr) : KeepsOrder o (BaseObject.startOrDelay o a : CoreM ω _) := by
  refine .prim fun s hs => Post.state (post_onManager (fun _ => ?_) hs)
  obtain ⟨delayed, m, hok, hm, -⟩ := hs.startOrDelay a
  simp only [Post]
  rw [hok]
  dsimp only [Core.Orderly]
  rwa [Core.setManager_manager, if_pos rfl]

section
variable {V : Virtuals ω} (hV : V.Lawful) (obj : ObjectPtr) (a : ActionPtr)
include hV

theorem startExecution : KeepsOrder o (BaseObject.startExecution V obj a) :=
  .bind (.prim fun _ hs => hs) fun _ => objectProgram (hV.startExecution _ _)

theorem endExecution : KeepsOrder o (BaseObject.endExecution V obj a) :=
  .bind (.prim fun _ hs => hs) fun _ => objectProgram (hV.endExecution _ _)

theorem initObject : KeepsOrder o (BaseObject.initObject V obj a) :=
  .bind (.prim fun _ hs => hs) fun _ => objectProgram (hV.initObject _ _)

/-- After the active action has been given up, the next one becomes active before anything throws. -/
theorem goOn (ending : ActionPtr → ActionPtr) : KeepsOrder o (do
    if ← BaseObject.endAndCheckAvailable o then
      let update ← BaseObject.activateShifted o a
      BaseObject.noteCurrentAction o a
      Action.scheduleEndHandler (ending update)
      BaseObject.startExecution V o update) := by
  refine .prim fun s hs => Post.state ?_
  refine Post.bind (M := fun available s' => (available = false → s'.Orderly o) ∧
    (available = true → o < s'.objects.next ∧ ∃ b q, s'.manager o = ⟨none, b :: q⟩))
    (post_onManager (fun ho => ?_) hs) ?_
  · have hget : ∀ m, (s.setManager o m).manager o = m := fun m => by
      rw [Core.setManager_manager, if_pos rfl]
    cases hav : (s.manager o).isActionAvailable with
    | false =>
      rw [Post, ObjectActionManager.endAndCheckAvailable_apply, hav]
      refine ⟨fun _ => ?_, fun h => absurd h Bool.false_ne_true⟩
      simp only [ObjectActionManager.isActionAvailable] at hav
      have hnil : (s.manager o).mDelayedQueue = [] := by simpa using hav
      simp only [Core.Orderly]
      rw [hget, hnil]
      exact ObjectActionManager.orderly_empty
    | true =>
      have hok := ObjectActionManager.endAndCheckAvailable_apply (s.manager o)
      rw [hav] at hok
      obtain ⟨b, q, hm, -⟩ := ObjectActionManager.activate_of_available hok
      rw [Post, hok]
      exact ⟨fun h => absurd h.symm Bool.false_ne_true, fun _ => ⟨ho, b, q, by rw [hget, hm]⟩⟩
  · rintro available s ⟨hfalse, htrue⟩
    cases available with
    | false => exact hfalse rfl
    | true =>
      obtain ⟨ho, b, q, hm⟩ := htrue rfl
      have hs' : (s.setManager o ⟨some b, q⟩).Orderly o := by
        simp only [Core.Orderly]
        rw [Core.setManager_manager, if_pos rfl]
        exact ObjectActionManager.orderly_some b q
      have hrest : KeepsOrder o (do
          let t := (← Cosidia.getAction a).getEndTime
          Cosidia.onAction b (Action.shiftStartTime t)
          return b : CoreM ω ActionPtr) :=
        .bind (onAction _ _) fun _ => .bind (onAction _ _) fun _ => .pure _
      refine Post.bind (M := fun _ s => s.Orderly o) ?_ fun update s hs =>
        KeepsOrder.post (.bind (noteCurrentAction _ _) fun _ =>
          .bind (scheduleEndHandler _) fun _ => startExecution hV _ _) hs
      simp only [BaseObject.activateShifted]
      rw [post_bind_of_ok (onManager_activate ho hm)]
      exact hrest.post hs'

theorem startExecutionBase : KeepsOrder o (BaseObject.startExecutionBase V o a) := by
  refine .bind (getObject _) fun _ => .bind (Composed.enforce _ _) fun _ => .bind (getObject _) fun _ =>
    .bind (Composed.enforce _ _) fun _ => .bind (onObject _ fun _ => rfl) fun _ =>
    .bind (startOrDelay a) fun delayed => ?_
  cases delayed with
  | true => exact .pure _
  | false =>
    exact .bind (noteCurrentAction _ _) fun _ => .bind (scheduleEndHandler _) fun _ =>
      startExecution hV _ _

theorem endExecutionBase (compareIds : Bool) :
    KeepsOrder o (BaseObject.endExecutionBase V compareIds o a) := by
  have hrest : KeepsOrder o (do
      BaseObject.endExecution V o a
      if ← BaseObject.endAndCheckAvailable o then
        let update ← BaseObject.activateShifted o a
        BaseObject.noteCurrentAction o a
        Action.scheduleEndHandler a
        BaseObject.startExecution V o update) :=
    .bind (endExecution hV o a) fun _ => goOn hV a fun _ => a
  cases compareIds with
  | false => exact hrest
  | true =>
    exact .bind (onAction _ _) fun _ => .bind (getObject _) fun _ =>
      .bind (Composed.enforce _ _) fun _ => hrest

theorem initObjectBase : KeepsOrder o (BaseObject.initObjectBase V o a) := by
  refine .bind (startOrDelay a) fun delayed => ?_
  cases delayed with
  | true => exact .pure _
  | false =>
    exact .bind (noteCurrentAction _ _) fun _ => .bind (initObject hV o a) fun _ => goOn hV a id

theorem invoke (compareIds : Bool) (handler : ActionHandler) :
    KeepsOrder o (BaseObject.invoke V compareIds handler o) := by
  simp only [BaseObject.invoke]
  cases handler.kind with
  | handlerStart => exact startExecutionBase hV _
  | handlerEnd => exact endExecutionBase hV _ _
  | handlerInit => exact initObjectBase hV _

end

end KeepsOrder

end

/-! ## Calls on an object -/

/-- A handler is invoked on the object `o`, and returns or throws; or the core changes without touching
the manager of `o`. -/
inductive InvokedOn (V : Virtuals ω) (o : ObjectPtr) : Core ω → Core ω → Prop
  | invoke (compareIds : Bool) (handler : ActionHandler) (s : Core ω) :
    InvokedOn V o s (BaseObject.invoke V compareIds handler o s).state
  | other {s s' : Core ω} : s'.manager o = s.manager o → InvokedOn V o s s'

/-- Whatever handlers are invoked on an object and wherever they throw: if nothing is active, nothing
waits. An action is delayed only while another is active, which is then there to be reported, and
when the active action has been given up and others wait, the first of them can be activated. -/
theorem orderly_of_reachable {V : Virtuals ω} (hV : V.Lawful) {o : ObjectPtr} {s₀ s : Core ω}
    (h₀ : s₀.manager o = {}) (h : Reachable (· = s₀) (InvokedOn V o) s) :
    ((s.manager o).mActiveAction = none → (s.manager o).mDelayedQueue = []) ∧
    (∀ a, ∃ delayed m, ObjectActionManager.startOrDelay a (s.manager o) = .ok delayed m ∧
      (delayed = true → ∃ b, (s.manager o).mActiveAction = some b)) ∧
    ∀ m m', ObjectActionManager.endAndCheckAvailable m = .ok true m' →
      ∃ b m'', ObjectActionManager.activateNextAvailableAction m' = .ok b m'' := by
  have hs : s.Orderly o := by
    refine h.invariant (fun s hs => ?_) fun s s' _ hs hstep => ?_
    · rw [hs, Core.Orderly, h₀]
      exact ObjectActionManager.orderly_empty
    · cases hstep with
      | invoke compareIds handler => exact (KeepsOrder.invoke hV compareIds handler).state hs
      | other hm => exact hs.of_eq hm
  refine ⟨hs, fun a => ?_, fun m m' hm => ?_⟩
  · obtain ⟨delayed, m, hok, -, hbusy⟩ := hs.startOrDelay a
    exact ⟨delayed, m, hok, hbusy⟩
  · obtain ⟨b, q, -, hok⟩ := ObjectActionManager.activate_of_available hm
    exact ⟨b, _, hok⟩

/-- Handlers invoked one after the other on the object of a simulation with two actions. -/
def twoActions (handlers : List ActionHandler) : Core Unit :=
  handlers.foldl (fun s handler =>
      (BaseObject.invoke SimulationManager.virtuals false handler 0 s).state)
    (oneObject [(5, 0), (5, 0)] (Core.new ())).state

theorem twoActions_reachable (handlers : List ActionHandler) :
    Reachable (· = twoActions []) (InvokedOn SimulationManager.virtuals 0) (twoActions handlers) :=
  .foldl (fun s handler => .invoke false handler s) handlers (.init rfl)

/-- The second action is delayed behind the first. -/
theorem orderly_of_reachable_delayed :
    let s := twoActions [⟨.handlerStart, 0⟩, ⟨.handlerStart, 1⟩]
    s.manager 0 = ⟨some 0, [1]⟩ ∧
      ((s.manager 0).mActiveAction = none → (s.manager 0).mDelayedQueue = []) ∧
      (∀ a, ∃ delayed m, ObjectActionManager.startOrDelay a (s.manager 0) = .ok delayed m ∧
        (delayed = true → ∃ b, (s.manager 0).mActiveAction = some b)) ∧
      ∀ m m', ObjectActionManager.endAndCheckAvailable m = .ok true m' →
        ∃ b m'', ObjectActionManager.activateNextAvailableAction m' = .ok b m'' :=
  ⟨by decide +kernel, orderly_of_reachable SimulationManager.virtuals_lawful (by decide +kernel)
    (twoActions_reachable _)⟩

end Cosidia
