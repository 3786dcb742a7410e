import Cosidia.Verify.Order

/-!
# The code of handlers in small steps

The functions that handlers run are composed of a few primitives, and these of calls of
`scheduleAction` and of programs that leave the schedule alone. So `Machine.step`, which runs a
handler at once, only reaches machines that are reached at some moment, and what holds at every
moment holds between its steps.
-/

namespace Cosidia

open EStateM

variable {ω : Type}

/-! ## What handlers are composed of -/

/-- Everything that happens on the core thread in the course of a handler, step by step. -/
inductive HandlerPrim : {α : Type} → CoreM ω α → Prop
  | object {α : Type} {x : CoreM ω α} : ObjectPrim x → HandlerPrim x
  | onObject {α : Type} (p : ObjectPtr) (x : EStateM Failure BaseObject α) :
    HandlerPrim (onObject p x)
  | shiftStartTime (p : ActionPtr) (t : TimePoint) :
    HandlerPrim (onAction p (Action.shiftStartTime t))
  | scheduleEndHandler (p : ActionPtr) : HandlerPrim (Action.scheduleEndHandler p)
  | noteCall (kind : HandlerKind) (obj : ObjectPtr) (action : ActionPtr) :
    HandlerPrim (modify (BaseObject.noteCall kind obj action))

/-- The programs that handlers run. -/
abbrev HandlerProgram {α : Type} (x : CoreM ω α) : Prop := Composed HandlerPrim x

namespace HandlerProgram

theorem objectProgram {α : Type} {x : CoreM ω α} (h : ObjectProgram x) : HandlerProgram x :=
  h.refine fun h => .prim (.object h)

theorem getAction (p : ActionPtr) : HandlerProgram (getAction p : CoreM ω _) :=
  .prim (.object (.getAction p))

theorem getObject (p : ObjectPtr) : HandlerProgram (getObject p : CoreM ω _) :=
  .prim (.object (.getObject p))

theorem onObject {α : Type} (p : ObjectPtr) (x : EStateM Failure BaseObject α) :
    HandlerProgram (onObject p x : CoreM ω α) :=
  .prim (.onObject p x)

theorem scheduleEndHandler (p : ActionPtr) :
    HandlerProgram (Action.scheduleEndHandler p : CoreM ω _) :=
  .prim (.scheduleEndHandler p)

theorem ofExcept {α : Type} (x : Except Failure α) : HandlerProgram (ofExcept x : CoreM ω α) := by
  cases x
  · exact .throw _
  · exact .pure _

section
variable {V : Virtuals ω} (hV : V.Lawful) (obj : ObjectPtr) (action : ActionPtr)

theorem noteCurrentAction : HandlerProgram (BaseObject.noteCurrentAction obj action : CoreM ω _) :=
  .bind (getAction _) fun _ => onObject _ _

theorem activateShifted : HandlerProgram (BaseObject.activateShifted obj action : CoreM ω _) :=
  .bind (onObject _ _) fun _ => .bind (getAction _) fun _ =>
    .bind (.prim (.shiftStartTime _ _)) fun _ => .pure _

include hV

theorem startExecution : HandlerProgram (BaseObject.startExecution V obj action) :=
  .bind (.prim (.noteCall _ _ _)) fun _ => objectProgram (hV.startExecution _ _)

theorem endExecution : HandlerProgram (BaseObject.endExecution V obj action) :=
  .bind (.prim (.noteCall _ _ _)) fun _ => objectProgram (hV.endExecution _ _)

theorem initObject : HandlerProgram (BaseObject.initObject V obj action) :=
  .bind (.prim (.noteCall _ _ _)) fun _ => objectProgram (hV.initObject _ _)

theorem startExecutionBase : HandlerProgram (BaseObject.startExecutionBase V obj action) := by
  refine .bind (getObject _) fun _ => .bind (Composed.enforce _ _) fun _ =>
    .bind (getObject _) fun _ => .bind (Composed.enforce _ _) fun _ =>
    .bind (onObject _ _) fun _ => .bind (onObject _ _) fun delayed => ?_
  cases delayed with
  | false =>
    exact .bind (noteCurrentAction _ _) fun _ => .bind (scheduleEndHandler _) fun _ =>
      startExecution hV _ _
  | true => exact .pure _

theorem endExecutionBase (compareIds : Bool) :
    HandlerProgram (BaseObject.endExecutionBase V compareIds obj action) := by
  have hrest : HandlerProgram (do
      BaseObject.endExecution V obj action
      if ← BaseObject.endAndCheckAvailable obj then
        let update ← BaseObject.activateShifted obj action
        BaseObject.noteCurrentAction obj action
        Action.scheduleEndHandler action
        BaseObject.startExecution V obj update) := by
    refine .bind (endExecution hV _ _) fun _ => .bind (onObject _ _) fun available => ?_
    cases available with
    | false => exact .pure _
    | true =>
      exact .bind (activateShifted _ _) fun _ => .bind (noteCurrentAction _ _) fun _ =>
        .bind (scheduleEndHandler _) fun _ => startExecution hV _ _
  cases compareIds with
  | false => exact hrest
  | true =>
    exact .bind (getAction _) fun _ => .bind (getObject _) fun _ =>
      .bind (Composed.enforce _ _) fun _ => hrest

theorem initObjectBase : HandlerProgram (BaseObject.initObjectBase V obj action) := by
  refine .bind (onObject _ _) fun delayed => ?_
  cases delayed with
  | true => exact .pure _
  | false =>
    refine .bind (noteCurrentAction _ _) fun _ => .bind (initObject hV _ _) fun _ =>
      .bind (onObject _ _) fun available => ?_
    cases available with
    | false => exact .pure _
    | true =>
      exact .bind (activateShifted _ _) fun _ => .bind (noteCurrentAction _ _) fun _ =>
        .bind (scheduleEndHandler _) fun _ => startExecution hV _ _

theorem invoke (compareIds : Bool) (handler : ActionHandler) :
    HandlerProgram (BaseObject.invoke V compareIds handler obj) := by
  simp only [BaseObject.invoke]
  cases handler.kind with
  | handlerStart => exact startExecutionBase hV _ _
  | handlerEnd => exact endExecutionBase hV _ _ _
  | handlerInit => exact initObjectBase hV _ _

theorem dispatch (compareIds : Bool) (h : Scheduling) :
    HandlerProgram (Core.dispatch V compareIds h) := by
  refine .bind (getAction _) fun _ => .bind (Composed.enforce _ _) fun _ =>
    .bind (Composed.enforce _ _) fun _ => .bind .get fun _ => .bind (ofExcept _) fun found => ?_
  cases found with
  | some obj => exact invoke hV _ _ _
  | none => exact .pure _

end

end HandlerProgram

/-! ## Handlers and the schedule -/

/-- Programs that call `scheduleAction` or leave the schedule alone. -/
inductive SchedulePrim : {α : Type} → CoreM ω α → Prop
  | scheduleAction (handler : ActionHandler) : SchedulePrim (Core.scheduleAction handler)
  | other {α : Type} {x : CoreM ω α} : (∀ s, SameSchedule s (x s).state) → SchedulePrim x

/-- Programs composed of these. -/
abbrev Scheduler {α : Type} (x : CoreM ω α) : Prop := Composed SchedulePrim x

theorem SameSchedule.refl (s : Core ω) : SameSchedule s s := ⟨rfl, rfl, rfl, rfl, rfl, rfl⟩

namespace Scheduler

theorem other {α : Type} {x : CoreM ω α} (h : ∀ s, SameSchedule s (x s).state) : Scheduler x :=
  .prim (.other h)

theorem modify {f : Core ω → Core ω} (h : ∀ s, SameSchedule s (f s)) :
    Scheduler (modify f : CoreM ω PUnit) :=
  other h

theorem onAction {α : Type} (p : ActionPtr) (x : EStateM Failure Action α) :
    Scheduler (onAction p x : CoreM ω α) :=
  other fun s => Post.state <| post_onAction
    (fun _ => post_iff.2 ⟨fun _ _ _ => ⟨rfl, rfl, rfl, rfl, rfl, rfl⟩,
      fun _ _ _ => ⟨rfl, rfl, rfl, rfl, rfl, rfl⟩⟩) (.refl s)

theorem onObject {α : Type} (p : ObjectPtr) (x : EStateM Failure BaseObject α) :
    Scheduler (onObject p x : CoreM ω α) :=
  other fun s => Post.state <| post_onObject
    (fun _ => post_iff.2 ⟨fun _ _ _ => ⟨rfl, rfl, rfl, rfl, rfl, rfl⟩,
      fun _ _ _ => ⟨rfl, rfl, rfl, rfl, rfl, rfl⟩⟩) (.refl s)

theorem onObjectList {α : Type} (x : EStateM Failure ObjectList α) :
    Scheduler (onObjectList x : CoreM ω α) := by
  apply other
  intro s
  simp only [Cosidia.onObjectList]
  rw [zoom_state]
  exact ⟨rfl, rfl, rfl, rfl, rfl, rfl⟩

theorem scheduleAction (handler : ActionHandler) : Scheduler (Core.scheduleAction handler : CoreM ω _) :=
  .prim (.scheduleAction handler)

theorem create (kind : ActionKind) (duration : Duration) (start : TimePoint)
    (id generator : ObjectId) :
    Scheduler (ActionFactory.create kind duration start id generator : CoreM ω _) := by
  refine .bind (Composed.enforce _ _) fun _ => .bind (Composed.enforce _ _) fun _ => ?_
  refine .bind .get fun _ => .bind (modify fun _ => ⟨rfl, rfl, rfl, rfl, rfl, rfl⟩) fun _ => .pure _

theorem scheduleStartHandler (p : ActionPtr) :
    Scheduler (Action.scheduleStartHandler p : CoreM ω _) := by
  refine .bind (onAction _ _) fun a => ?_
  cases a.kind with
  | durationAction | initAction =>
    exact .bind (onAction _ _) fun _ => .bind (Composed.enforce _ _) fun _ =>
      .bind (onAction _ _) fun _ => scheduleAction _

theorem scheduleEndHandler (p : ActionPtr) :
    Scheduler (Action.scheduleEndHandler p : CoreM ω _) := by
  refine .bind (onAction _ _) fun a => ?_
  cases a.kind with
  | durationAction =>
    exact .bind (onAction _ _) fun _ => .bind (Composed.enforce _ _) fun _ => scheduleAction _
  | initAction => exact .pure _

/-- The code of objects is such a program. -/
theorem objectProgram {α : Type} {x : CoreM ω α} (h : ObjectProgram x) : Scheduler x := by
  refine h.refine fun {_ _} h => ?_
  cases h with
  | create kind duration start id generator => exact create kind duration start id generator
  | getAction p | setType p type | setActionData p data => exact onAction _ _
  | scheduleStartHandler p => exact scheduleStartHandler p
  | makeObject name externalId =>
    exact .bind .get fun _ => .bind (modify fun _ => ⟨rfl, rfl, rfl, rfl, rfl, rfl⟩) fun _ => .pure _
  | getObject p | setObjectId p id | addParent p id | addChild p id | setExternalId p id => exact onObject _ _
  | getNextObjectId | removeObjectFromSimulation id => exact onObjectList _
  | addObject p | addUniqueObject p =>
    exact .bind (onObject _ _) fun _ => .bind (Composed.enforce _ _) fun _ => onObjectList _
  | world f => exact modify fun _ => ⟨rfl, rfl, rfl, rfl, rfl, rfl⟩

theorem handlerProgram {α : Type} {x : CoreM ω α} (h : HandlerProgram x) : Scheduler x := by
  refine h.refine fun {_ _} h => ?_
  cases h with
  | object h => exact objectProgram (.prim h)
  | onObject p x => exact onObject p x
  | shiftStartTime p t => exact onAction p _
  | scheduleEndHandler p => exact scheduleEndHandler p
  | noteCall kind obj action => exact modify fun _ => ⟨rfl, rfl, rfl, rfl, rfl, rfl⟩

/-- The time is that of the loop. -/
theorem mCurrentActionTime {α : Type} {x : CoreM ω α} (h : Scheduler x) (s : Core ω) :
    (x s).state.mCurrentActionTime = s.mCurrentActionTime := by
  refine h.related (R := fun s s' => s.mCurrentActionTime = s'.mCurrentActionTime) (fun _ => rfl)
    Eq.trans (fun hx s => ?_) s |>.symm
  cases hx with
  | scheduleAction handler => exact (Core.scheduleAction_mCurrentActionTime handler s).symm
  | other h => exact (h s).mCurrentActionTime.symm

end Scheduler

/-! ## Steps of the machine -/

open Relation in
/-- Running such a program where the code of handlers runs is a sequence of moments. -/
theorem Scheduler.moments {α : Type} {x : CoreM ω α} (h : Scheduler x) {m : Machine ω}
    (hm : m.control.InCode) : ReflTransGen Moment m { m with core := (x m.core).state } := by
  let run (s t : Core ω) : Prop := Moment { m with core := s } { m with core := t }
  have hreach : ReflTransGen run m.core (x m.core).state := by
    refine h.reaches (R := run) (fun {_ _} hx s => .single ?_) m.core
    cases hx with
    | scheduleAction handler => exact .scheduleAction { m with core := s } handler hm
    | other hs => exact .other { m with core := s } _ hm (hs s)
  exact hreach.lift (fun s => ({ m with core := s } : Machine ω)) fun _ _ h => h

section
variable {V : Virtuals ω} (hV : V.Lawful) {setup : CoreM ω Unit} (hsetup : ObjectProgram setup)
include hV hsetup

open Relation in
/-- A step of the machine is a sequence of moments. -/
theorem Machine.step_moments (compareIds : Bool) (delay : Duration) (m : Machine ω) :
    ReflTransGen Moment m (m.step V compareIds setup delay) := by
  simp only [Machine.step]
  split
  case h_1 hm =>
    apply ((Scheduler.objectProgram hsetup).moments (.inl hm)).tail
    cases hx : setup m.core with
    | ok u s =>
      rw [m.resume_then_of_ok hx]
      exact .setupDone { m with core := s } hm
    | error f s =>
      rw [m.resume_then_of_error hx]
      exact .throw { m with core := s } f (.inl hm)
  case h_2 hm => exact .single (.loop m delay hm)
  case h_3 hm => exact .single (.timer m hm)
  case h_4 hm =>
    split
    case h_1 hb => exact .single (.batchDone m hm hb)
    case h_2 h rest hb =>
      let taken : Machine ω := { m with core := m.core.takeUp h, batch := rest, control := .running }
      have hrun := (Scheduler.handlerProgram (HandlerProgram.dispatch hV compareIds h)).moments
        (m := taken) (.inr rfl)
      apply (ReflTransGen.head (.takeUp m h rest hm hb) hrun).tail
      cases hx : Core.dispatch V compareIds h taken.core with
      | ok u s =>
        rw [resume_then_of_ok { m with core := m.core.takeUp h, batch := rest } hx]
        exact .handlerDone { taken with core := s } rfl
      | error f s =>
        rw [resume_then_of_error { m with core := m.core.takeUp h, batch := rest } hx]
        exact .throw { taken with core := s } f (.inr rfl)
  all_goals exact .refl

theorem AtSomeMoment.run {world : ω} {m : Machine ω} (h : AtSomeMoment world m) (compareIds : Bool)
    (delays : List Duration) : AtSomeMoment world (m.run V compareIds setup delays) := by
  induction delays generalizing m with
  | nil => exact h
  | cons delay delays ih =>
    exact ih (h.trans (Machine.step_moments hV hsetup compareIds delay m))

end

end Cosidia
