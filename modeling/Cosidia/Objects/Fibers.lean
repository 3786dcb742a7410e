import Cosidia.Core.Loop
import Cosidia.Theory.Interleaving

/-!
# Objects that work in fibers

`startExecution` of such an object detaches at most one fiber, for a task that is bound to the object
and to what the core thread has given it; `endExecution` waits for the task and commits its result.
The object keeps a state of its own, which its task may change. A fiber is run by any worker at any
time. `Sequential` is the simulation without fibers, in which a task is run where it is launched.
-/

namespace Cosidia

open EStateM

/-- What the objects of a simulation implement. `ω` is what is shared on the core thread (the contexts
of the objects, ...), `κ` what is bound to a task, `ρ` what a task returns and `σ` the state an object
has of its own. -/
structure Behaviour (ω κ ρ σ : Type) where
  /-- `startExecution`, up to the fiber it detaches. -/
  startExecution : ObjectPtr → ActionPtr → CoreM (ω × σ) (Option κ)
  task : ObjectPtr → κ → σ → ρ × σ
  /-- `endExecution`, from the result on that `mFuture.get()` returns. -/
  endExecution : ObjectPtr → ActionPtr → Option ρ → CoreM (ω × σ) Unit
  initObject : ObjectPtr → ActionPtr → CoreM (ω × σ) Unit

/-- The tasks compute a result and leave the state of their object to `endExecution`. -/
def Behaviour.Pure {ω κ ρ σ : Type} (B : Behaviour ω κ ρ σ) : Prop :=
  ∀ o bound own, (B.task o bound own).2 = own

/-- The code of the objects acts on the core only in the ways open to it. -/
structure Behaviour.Lawful {ω κ ρ σ : Type} (B : Behaviour ω κ ρ σ) : Prop where
  startExecution : ∀ o a, ObjectProgram (B.startExecution o a)
  endExecution : ∀ o a r, ObjectProgram (B.endExecution o a r)
  initObject : ∀ o a, ObjectProgram (B.initObject o a)

/-- A fiber that has been detached and not been run. -/
structure Detached (κ : Type) where
  bound : κ
  /-- `mFuture` is the future of its task. -/
  isCurrent : Bool := true

/-- What an object keeps outside of the core thread's data. -/
structure FiberState (κ ρ σ : Type) where
  own : σ
  fibers : List (Detached κ) := []
  /-- The result in `mFuture`, once it is there and as long as it has not been fetched. -/
  mFuture : Option ρ := none

namespace FiberState

variable {κ ρ σ : Type} (task : κ → σ → ρ × σ)

/-- Detach a fiber, whose future becomes `mFuture`. -/
def launch (bound : κ) (c : FiberState κ ρ σ) : FiberState κ ρ σ where
  own := c.own
  fibers := c.fibers.map (fun fiber => { fiber with isCurrent := false }) ++ [{ bound }]

/-- Run a fiber. -/
def execute (fiber : Detached κ) (c : FiberState κ ρ σ) : FiberState κ ρ σ :=
  let result := task fiber.bound c.own
  { c with own := result.2, mFuture := if fiber.isCurrent then some result.1 else c.mFuture }

/-- A worker runs the fiber `i`. -/
def work (i : Nat) (c : FiberState κ ρ σ) : FiberState κ ρ σ :=
  match c.fibers[i]? with
  | some fiber => { c.execute task fiber with fibers := c.fibers.eraseIdx i }
  | none => c

/-- Run all fibers. -/
def finish (c : FiberState κ ρ σ) : FiberState κ ρ σ :=
  { c.fibers.foldl (fun c fiber => c.execute task fiber) c with fibers := [] }

/-- There is no task to wait for. -/
def isIdle (c : FiberState κ ρ σ) : Bool := c.fibers.isEmpty && c.mFuture.isNone

/-- `mFuture.get()`, if there is a task to wait for: a fiber that has not been run so far is run while
the core thread waits. -/
def get (c : FiberState κ ρ σ) : Option ρ × FiberState κ ρ σ :=
  let c := if c.mFuture.isSome then c else c.work task (c.fibers.findIdx (·.isCurrent))
  (c.mFuture, { c with mFuture := none })

end FiberState

namespace Core

variable {ω ω' : Type}

/-- The same core with other data of the objects. -/
def withWorld (w : ω') (s : Core ω) : Core ω' where
  mActions := s.mActions
  mCurrentActionTime := s.mCurrentActionTime
  mObjectList := s.mObjectList
  mCurrentActionId := s.mCurrentActionId
  actions := s.actions
  objects := s.objects
  world := w
  history := s.history

end Core

/-! ## With fibers -/

structure Concurrent (ω κ ρ σ : Type) where
  shared : ω
  state : ObjectPtr → FiberState κ ρ σ

namespace Concurrent

variable {ω κ ρ σ α : Type}

/-- No object has been started. -/
def new (shared : ω) (own : ObjectPtr → σ) : Concurrent ω κ ρ σ where
  shared := shared
  state o := { own := own o }

def setState (o : ObjectPtr) (c : FiberState κ ρ σ) (w : Concurrent ω κ ρ σ) : Concurrent ω κ ρ σ :=
  { w with state := Function.update w.state o c }

/-- Run code that does not use the state of an object. -/
def onShared (x : CoreM ω α) : CoreM (Concurrent ω κ ρ σ) α :=
  zoom (fun s => s.withWorld s.world.shared)
    (fun t s => t.withWorld { s.world with shared := t.world }) x

/-- Run code of the object `o`, which uses the state of `o` only. -/
def onOwn (o : ObjectPtr) (x : CoreM (ω × σ) α) : CoreM (Concurrent ω κ ρ σ) α :=
  zoom (fun s => s.withWorld (s.world.shared, (s.world.state o).own))
    (fun t s => t.withWorld
      { shared := t.world.1
        state := Function.update s.world.state o { s.world.state o with own := t.world.2 } }) x

def launch (o : ObjectPtr) (bound : κ) : CoreM (Concurrent ω κ ρ σ) Unit :=
  modify fun s => { s with world := s.world.setState o ((s.world.state o).launch bound) }

/-- Wait for the task of `o`, if it has one. -/
def get (task : κ → σ → ρ × σ) (o : ObjectPtr) : CoreM (Concurrent ω κ ρ σ) (Option ρ) :=
  modifyGet fun s =>
    let result := (s.world.state o).get task
    (result.1, { s with world := s.world.setState o result.2 })

def virtuals (B : Behaviour ω κ ρ σ) : Virtuals (Concurrent ω κ ρ σ) where
  startExecution o a := do
    match ← onOwn o (B.startExecution o a) with
    | some bound => launch o bound
    | none => return
  endExecution o a := do
    let result ← get (B.task o) o
    onOwn o (B.endExecution o a result)
  initObject o a := onOwn o (B.initObject o a)

variable (B : Behaviour ω κ ρ σ) (compareIds : Bool) (setup : CoreM ω Unit)

/-- The core thread goes on, the clock answering `delay`. -/
def proceed (delay : Duration) (m : Machine (Concurrent ω κ ρ σ)) : Machine (Concurrent ω κ ρ σ) :=
  m.step (virtuals B) compareIds (onShared setup) delay

/-- A worker runs a fiber of an object: `(o, i)` is the fiber `i` of `o`. -/
def work (job : ObjectPtr × Nat) (m : Machine (Concurrent ω κ ρ σ)) : Machine (Concurrent ω κ ρ σ) :=
  let s := m.core
  let c := (s.world.state job.1).work (B.task job.1) job.2
  { m with core := { s with world := s.world.setState job.1 c } }

/-- The machine after some steps of the core thread, with fibers run in between. -/
def run (moves : List (Interleaving.Move Duration (ObjectPtr × Nat))) (shared : ω)
    (own : ObjectPtr → σ) : Machine (Concurrent ω κ ρ σ) :=
  Interleaving.run (proceed B compareIds setup) (work B) moves (.new (new shared own))

end Concurrent

/-! ## What can be seen of a run -/

/-- A handler that has been dispatched and what the core thread finds afterwards. -/
structure Dispatched (ω σ : Type) where
  handler : Scheduling
  /-- The id of its action when it was dispatched. -/
  id : ActionId
  /-- The data of the core thread: contexts, object containers, what is scheduled, ... -/
  core : Core ω
  /-- The states of the objects that have no task to wait for. -/
  own : ObjectPtr → Option σ
  /-- The states of all objects once their tasks have been run. -/
  finished : ObjectPtr → σ

/-- The handler that a step of the core thread dispatches in `m`. -/
def Machine.dispatching {ω : Type} (m : Machine ω) : Option Scheduling :=
  match m.control with
  | .executing => m.batch.head?
  | _ => none

namespace Concurrent

variable {ω κ ρ σ : Type}

/-- The state of `o`, unless it has a task to wait for. -/
def settled (w : Concurrent ω κ ρ σ) (o : ObjectPtr) : Option σ :=
  if (w.state o).isIdle then some (w.state o).own else none

def see (B : Behaviour ω κ ρ σ) (m m' : Machine (Concurrent ω κ ρ σ)) : Option (Dispatched ω σ) :=
  m.dispatching.map fun h => {
    handler := h
    id := (m.core.actions.cell h.handler.mCorrespondingAction).mActionId
    core := m'.core.withWorld m'.core.world.shared
    own := m'.core.world.settled
    finished := fun o => ((m'.core.world.state o).finish (B.task o)).own }

/-- The handlers that are dispatched in a run. -/
def dispatched (B : Behaviour ω κ ρ σ) (compareIds : Bool) (setup : CoreM ω Unit)
    (moves : List (Interleaving.Move Duration (ObjectPtr × Nat))) (shared : ω) (own : ObjectPtr → σ) :
    List (Dispatched ω σ) :=
  Interleaving.shown (proceed B compareIds setup) (work B) (see B) moves (.new (new shared own))

/-- The states of all objects after each handler that is dispatched. -/
def states (B : Behaviour ω κ ρ σ) (compareIds : Bool) (setup : CoreM ω Unit)
    (moves : List (Interleaving.Move Duration (ObjectPtr × Nat))) (shared : ω) (own : ObjectPtr → σ) :
    List (ObjectPtr → σ) :=
  Interleaving.shown (proceed B compareIds setup) (work B)
    (fun m m' => m.dispatching.map fun _ o => (m'.core.world.state o).own) moves (.new (new shared own))

end Concurrent

/-! ## Without fibers -/

/-- The states of the objects and the results that have not been fetched. -/
structure Sequential (ω ρ σ : Type) where
  shared : ω
  state : ObjectPtr → σ × Option ρ

namespace Sequential

variable {ω κ ρ σ α : Type}

def new (shared : ω) (own : ObjectPtr → σ) : Sequential ω ρ σ where
  shared := shared
  state o := (own o, none)

def setState (o : ObjectPtr) (c : σ × Option ρ) (w : Sequential ω ρ σ) : Sequential ω ρ σ :=
  { w with state := Function.update w.state o c }

def onShared (x : CoreM ω α) : CoreM (Sequential ω ρ σ) α :=
  zoom (fun s => s.withWorld s.world.shared)
    (fun t s => t.withWorld { s.world with shared := t.world }) x

def onOwn (o : ObjectPtr) (x : CoreM (ω × σ) α) : CoreM (Sequential ω ρ σ) α :=
  zoom (fun s => s.withWorld (s.world.shared, (s.world.state o).1))
    (fun t s => t.withWorld
      { shared := t.world.1
        state := Function.update s.world.state o (t.world.2, (s.world.state o).2) }) x

/-- Run the task at once. -/
def launch (task : κ → σ → ρ × σ) (o : ObjectPtr) (bound : κ) : CoreM (Sequential ω ρ σ) Unit :=
  modify fun s =>
    let result := task bound (s.world.state o).1
    { s with world := s.world.setState o (result.2, some result.1) }

def get (o : ObjectPtr) : CoreM (Sequential ω ρ σ) (Option ρ) :=
  modifyGet fun s =>
    ((s.world.state o).2, { s with world := s.world.setState o ((s.world.state o).1, none) })

def virtuals (B : Behaviour ω κ ρ σ) : Virtuals (Sequential ω ρ σ) where
  startExecution o a := do
    match ← onOwn o (B.startExecution o a) with
    | some bound => launch (B.task o) o bound
    | none => return
  endExecution o a := do
    let result ← get o
    onOwn o (B.endExecution o a result)
  initObject o a := onOwn o (B.initObject o a)

/-- The core thread goes on; its clock does not matter. -/
def proceed (B : Behaviour ω κ ρ σ) (compareIds : Bool) (setup : CoreM ω Unit)
    (m : Machine (Sequential ω ρ σ)) : Machine (Sequential ω ρ σ) :=
  m.step (virtuals B) compareIds (onShared setup) 0

/-- The state of `o`, unless a result of it has not been fetched. -/
def settled (w : Sequential ω ρ σ) (o : ObjectPtr) : Option σ :=
  if (w.state o).2.isNone then some (w.state o).1 else none

def see (m m' : Machine (Sequential ω ρ σ)) : Option (Dispatched ω σ) :=
  m.dispatching.map fun h => {
    handler := h
    id := (m.core.actions.cell h.handler.mCorrespondingAction).mActionId
    core := m'.core.withWorld m'.core.world.shared
    own := m'.core.world.settled
    finished := fun o => (m'.core.world.state o).1 }

end Sequential

end Cosidia
