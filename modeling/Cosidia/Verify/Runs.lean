import Cosidia.Verify.Moments

/-!
# Handlers are served in order, and how a simulation ends

What holds at every moment of every run of the core loop, whatever the handlers do.
-/

namespace Cosidia

open EStateM

variable {ω : Type}

/-! ## A simulation of one object -/

/-- The virtual methods of `SimulationManager`, which do nothing. -/
def SimulationManager.virtuals : Virtuals ω where
  startExecution _ _ := pure ()
  endExecution _ _ := pure ()
  initObject _ _ := pure ()

theorem SimulationManager.virtuals_lawful : (virtuals : Virtuals ω).Lawful :=
  ⟨fun _ _ => .pure _, fun _ _ => .pure _, fun _ _ => .pure _⟩

/-- Add one object to the simulation and schedule actions of the given durations and start times
for it. -/
def oneObject (work : List (Duration × TimePoint)) : CoreM ω Unit := do
  let obj ← makeObject "SimulationManager" none
  onObject obj (BaseObject.addParent .root)
  onObject obj (BaseObject.setObjectId (← Core.getNextObjectId))
  Core.addUniqueObject obj
  work.forM fun (duration, start) => do
    let action ← createSelfAction obj duration start
    Action.scheduleStartHandler action

theorem ObjectProgram.createSelfAction (obj : ObjectPtr) (duration : Duration) (start : TimePoint) :
    ObjectProgram (createSelfAction obj duration start : CoreM ω _) :=
  .bind (.prim (.getObject _)) fun _ => .prim (.create _ _ _ _ _)

theorem oneObject_program (work : List (Duration × TimePoint)) :
    ObjectProgram (oneObject work : CoreM ω Unit) := by
  refine .bind (.prim (.makeObject _ _)) fun obj => .bind (.prim (.addParent _ _)) fun _ =>
    .bind (.prim .getNextObjectId) fun _ => .bind (.prim (.setObjectId _ _)) fun _ =>
    .bind (.prim (.addUniqueObject _)) fun _ => ?_
  induction work with
  | nil => exact .pure _
  | cons w work ih =>
    exact .bind (.bind (ObjectProgram.createSelfAction _ _ _) fun _ =>
      .prim (.scheduleStartHandler _)) fun _ => ih

/-- The run of one object with this work, over as many steps. -/
def oneObjectRun (compareIds : Bool) (work : List (Duration × TimePoint)) (steps : Nat) :
    Machine Unit :=
  (Machine.new ()).run SimulationManager.virtuals compareIds (oneObject work)
    (List.replicate steps 0)

theorem oneObjectRun_atSomeMoment (compareIds : Bool) (work : List (Duration × TimePoint))
    (steps : Nat) : AtSomeMoment () (oneObjectRun compareIds work steps) :=
  AtSomeMoment.run SimulationManager.virtuals_lawful (oneObject_program work) (.init rfl) _ _

/-! ## The order of service -/

private theorem Scheduling.Before.ne {a b : Scheduling} (h : a.Before b) : a ≠ b := by
  rintro rfl
  rcases h with h | ⟨-, h⟩
  · exact lt_irrefl _ h
  · exact Nat.lt_irrefl _ h

/-- At every moment of every run the handlers have been taken up in the order of time and then of
acceptance, and the accepted schedulings are those taken up, those of the batch and those in the
list, each of them once. -/
theorem taken_in_order {world : ω} {m : Machine ω} (h : AtSomeMoment world m) :
    m.core.history.taken.Pairwise Scheduling.Before ∧
      m.core.history.taken.Nodup ∧
      m.core.history.accepted.map Scheduling.number =
        List.range' 1 m.core.history.accepted.length ∧
      m.core.history.accepted.Perm
        (m.core.history.taken ++ (m.batch ++ m.core.mActions.entries)) := by
  have hag := h.inOrder.agenda
  have htaken := (List.pairwise_append.1 hag.sorted).1
  exact ⟨htaken, htaken.imp Scheduling.Before.ne, hag.numbered, hag.conserved⟩

/-- Two actions that end when the other one starts, in the middle of a batch. -/
theorem taken_in_order_overlapping :
    let m := oneObjectRun false [(5, 0), (5, 5)] 8
    m.core.history.taken.map Scheduling.number = [1, 2] ∧ m.batch.map Scheduling.number = [3] ∧
      m.core.history.taken.Pairwise Scheduling.Before ∧ m.core.history.taken.Nodup ∧
      m.core.history.accepted.map Scheduling.number =
        List.range' 1 m.core.history.accepted.length ∧
      m.core.history.accepted.Perm
        (m.core.history.taken ++ (m.batch ++ m.core.mActions.entries)) :=
  ⟨by decide +kernel, by decide +kernel, taken_in_order (oneObjectRun_atSomeMoment _ _ _)⟩

/-! ## The end of a simulation -/

/-- The check of `runSimulationLoop` passes, and an empty list ends the simulation. -/
def Machine.EndsProperly (m : Machine ω) (delay : Duration) : Prop :=
  (m.loop delay).control ≠ .aborted (.runtimeError "Core: wrong order of actions") ∧
    (m.core.mActions.entries = [] → (m.loop delay).control = .finished)

/-- On an empty list the check of `runSimulationLoop` fails. -/
theorem Machine.InOrder.loop_of_empty {m : Machine ω} (h : m.InOrder) (delay : Duration)
    (he : m.core.mActions.entries = []) :
    (m.loop delay).control = .aborted (.runtimeError "Core: wrong order of actions") := by
  have hnext := h.agenda.next_of_entries_nil he
  have hrun := Core.runSimulationLoop_apply m.core
  simp only [hnext, if_neg (not_le.2 h.agenda.invalid_lt)] at hrun
  simp only [Machine.loop]
  rw [m.resume_of_error _ hrun]

/-- On a list with handlers in it the check passes and the timer is set. -/
theorem Machine.InOrder.loop_of_nonempty {m : Machine ω} (h : m.InOrder) (delay : Duration)
    (he : m.core.mActions.entries ≠ []) : (m.loop delay).control = .waiting := by
  have hle := h.agenda.le_next he
  have hne : ActionList.getNextTimePoint m.core.mActions ≠ SimClock.invalid :=
    (h.agenda.invalid_lt.trans_le hle).ne'
  have hrun := Core.runSimulationLoop_apply m.core
  simp only [hle, hne, if_true, if_false] at hrun
  simp only [Machine.loop]
  rw [m.resume_of_ok _ hrun]

/-- Whenever `runSimulationLoop` is called, its check passes exactly if some handler is left, and no
run ever finishes. -/
theorem endsProperly_iff {world : ω} {m : Machine ω} (h : AtSomeMoment world m)
    (hm : m.control = .runSimulationLoop) (delay : Duration) :
    (m.EndsProperly delay ↔ m.core.mActions.entries ≠ []) ∧ (m.loop delay).control ≠ .finished := by
  refine ⟨⟨fun hends he => ?_, fun he => ⟨?_, fun hnil => absurd hnil he⟩⟩, ?_⟩
  · exact hends.1 (h.inOrder.loop_of_empty delay he)
  · simp [h.inOrder.loop_of_nonempty delay he]
  · exact (h.inOrder.loop hm delay).unfinished

/-- The call of `runSimulationLoop` after the only handler of a simulation has been served. -/
theorem endsProperly_iff_last :
    let m := oneObjectRun false [(5, 0)] 9
    m.core.history.taken.length = 2 ∧
      (m.EndsProperly 0 ↔ m.core.mActions.entries ≠ []) ∧ (m.loop 0).control ≠ .finished :=
  ⟨by decide +kernel,
    endsProperly_iff (oneObjectRun_atSomeMoment _ _ _) (by decide +kernel) 0⟩

/-- A simulation without any work is aborted instead of finished. -/
theorem not_endsProperly :
    ¬ ∀ m : Machine Unit, AtSomeMoment () m → m.control = .runSimulationLoop →
      m.EndsProperly 0 := by
  intro h
  have hm := h (oneObjectRun false [] 1) (oneObjectRun_atSomeMoment _ _ _) (by decide +kernel)
  exact hm.1 (by decide +kernel)

end Cosidia
