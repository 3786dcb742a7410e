import Cosidia.Theory.Program

/-!
# Failures and simulated time
-/

namespace Cosidia

/-- What ends a computation of the simulator abnormally. -/
inductive Failure where
  /-- A `std::runtime_error`, thrown by `enforce` among others. -/
  | runtimeError (what : String)
  /-- A failed `assert`. -/
  | assertion (expr : String)
  /-- A null pointer was dereferenced. -/
  | nullDereference
  /-- An arithmetic operation on signed integers overflowed, which is undefined. -/
  | overflow
  deriving DecidableEq, Repr

/-- `enforce(condition, msg)` of a `COSIDIA_SAFE` build. -/
def enforce {σ : Type} (condition : Bool) (msg : String) : EStateM Failure σ PUnit :=
  if condition then pure () else throw (.runtimeError msg)

theorem enforce_eq_ok {σ : Type} {c : Bool} {msg : String} {s s' : σ} {u : PUnit} :
    enforce c msg s = .ok u s' ↔ c = true ∧ s = s' := by
  cases c <;> simp [enforce, EStateM.pure_apply, EStateM.throw_apply]

theorem enforce_eq_error {σ : Type} {c : Bool} {msg : String} {s s' : σ} {e : Failure} :
    enforce c msg s = .error e s' ↔ c = false ∧ e = .runtimeError msg ∧ s = s' := by
  cases c <;> simp [enforce, EStateM.pure_apply, EStateM.throw_apply, eq_comm]

@[simp] theorem enforce_true {σ : Type} (msg : String) :
    (enforce true msg : EStateM Failure σ PUnit) = pure () := rfl

@[simp] theorem enforce_state {σ : Type} (c : Bool) (msg : String) (s : σ) :
    (enforce c msg s).state = s := by
  cases c <;> rfl

theorem post_enforce {σ : Type} {c : Bool} {msg : String} {s : σ} {Q : PUnit → σ → Prop}
    {E : Failure → σ → Prop} (hQ : c = true → Q ⟨⟩ s) (hE : c = false → E (.runtimeError msg) s) :
    EStateM.Post (enforce c msg) s Q E := by
  cases c
  · exact hE rfl
  · exact hQ rfl

theorem Composed.enforce {σ : Type} {P : {α : Type} → EStateM Failure σ α → Prop} (c : Bool)
    (msg : String) : EStateM.Composed P (enforce c msg) := by
  cases c
  · exact .throw _
  · exact .pure _

/-- `SimClock::duration`: a number of nanoseconds. -/
abbrev Duration := Int

/-- `SimClock::time_point`: nanoseconds since the start of the simulation. -/
abbrev TimePoint := Int

namespace Duration

def milliseconds (n : Int) : Duration := n * 1000000

def zero : Duration := 0

end Duration

namespace SimClock

def atSecond (sec : Int) : TimePoint := sec * 1000000000

def atMillisecond (msec : Int) : TimePoint := msec * 1000000

/-- The time point `getNextTimePoint` reports when no handler is left. -/
def invalid : TimePoint := atSecond (-1)

def zero : TimePoint := atSecond 0

end SimClock

/-- A `Symbol`, the interned type string of an action. -/
abbrev Symbol := String

/-- `ObjectId` is syntactic sugar over plain `int`s. -/
abbrev ObjectId := Int

namespace ObjectId

def valid (id : ObjectId) : Bool := id > -1

def stub : ObjectId := -1

def root : ObjectId := 0

end ObjectId

end Cosidia
