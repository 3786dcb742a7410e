import Mathlib.Logic.Function.Iterate
import Cosidia.Theory.Format

/-!
# Streams that arrive in pieces

A stream is a list of pieces, none of which is empty, and of failures to receive. Its end is the end
of the stream. How the symbols are divided into pieces makes no difference to what has been skipped.
-/

/-- What an attempt to receive meets. -/
inductive Arrival (ε β : Type) where
  | piece (head : β) (tail : List β)
  | failure (error : ε)
  deriving DecidableEq, Repr

namespace Arrivals

open EStateM

variable {ε β : Type}

/-- The symbols that arrive before the first failure. -/
def symbols : List (Arrival ε β) → List β
  | [] | .failure _ :: _ => []
  | .piece head tail :: s => head :: tail ++ symbols s

/-- What comes after these symbols: the failure, or nothing more. -/
def failure? : List (Arrival ε β) → Option ε
  | [] => none
  | .failure e :: _ => some e
  | .piece _ _ :: s => failure? s

/-- The stream after this failure. -/
def afterFailure : List (Arrival ε β) → List (Arrival ε β)
  | [] => []
  | .failure _ :: s => s
  | .piece _ _ :: s => afterFailure s

/-- The stream after its first symbol. -/
def tail : List (Arrival ε β) → List (Arrival ε β)
  | [] => []
  | .failure e :: s => .failure e :: s
  | .piece _ [] :: s => s
  | .piece _ (b :: bs) :: s => .piece b bs :: s

/-- The stream after its first `n` symbols. -/
def skip (n : Nat) (s : List (Arrival ε β)) : List (Arrival ε β) := tail^[n] s

/-- What is true of the empty stream, of a failure, and of a piece if it is true of its end. -/
theorem tail_cases {P : List (Arrival ε β) → Prop} (nil : P []) (failure : ∀ e s, P (.failure e :: s))
    (last : ∀ b s, P (.piece b [] :: s)) (more : ∀ b c bs s, P (.piece b (c :: bs) :: s))
    (s : List (Arrival ε β)) : P s := by
  cases s with
  | nil => exact nil
  | cons a s =>
    cases a with
    | failure e => exact failure e s
    | piece head bs =>
      cases bs with
      | nil => exact last head s
      | cons c bs => exact more head c bs s

theorem symbols_tail (s : List (Arrival ε β)) : symbols (tail s) = (symbols s).drop 1 := by
  cases s using tail_cases <;> rfl

theorem failure?_tail (s : List (Arrival ε β)) : failure? (tail s) = failure? s := by
  cases s using tail_cases <;> rfl

theorem afterFailure_tail (s : List (Arrival ε β)) : afterFailure (tail s) = afterFailure s := by
  cases s using tail_cases <;> rfl

theorem skip_skip (m n : Nat) (s : List (Arrival ε β)) : skip n (skip m s) = skip (m + n) s := by
  rw [skip, skip, skip, Nat.add_comm, Function.iterate_add_apply]

theorem symbols_skip (n : Nat) (s : List (Arrival ε β)) :
    symbols (skip n s) = (symbols s).drop n := by
  induction n with
  | zero => rfl
  | succ n ih => rw [skip, Function.iterate_succ_apply', symbols_tail, ← skip, ih, List.drop_drop]

/-- What a step along the stream keeps, skipping keeps. -/
theorem skip_eq {γ : Type} {f : List (Arrival ε β) → γ} (h : ∀ s, f (tail s) = f s) (n : Nat)
    (s : List (Arrival ε β)) : f (skip n s) = f s := by
  induction n with
  | zero => rfl
  | succ n ih => rw [skip, Function.iterate_succ_apply', h, ← skip, ih]

theorem failure?_skip (n : Nat) (s : List (Arrival ε β)) : failure? (skip n s) = failure? s :=
  skip_eq failure?_tail n s

theorem afterFailure_skip (n : Nat) (s : List (Arrival ε β)) :
    afterFailure (skip n s) = afterFailure s :=
  skip_eq afterFailure_tail n s

/-- The first piece of a stream, as far as it is wanted. -/
structure Piece (β : Type) (n : Nat) where
  symbols : List β
  length_pos : 0 < symbols.length
  length_le : symbols.length ≤ n

def firstPiece (n : Nat) (h : 0 < n) (head : β) (tail : List β) : Piece β n where
  symbols := (head :: tail).take n
  length_pos := by
    rw [List.length_take, List.length_cons]
    omega
  length_le := List.length_take_le n _

/-- A piece holds the first symbols of the stream. -/
theorem firstPiece_symbols {n : Nat} (h : 0 < n) (head : β) (bs : List β) (s : List (Arrival ε β)) :
    ∃ r, symbols (.piece head bs :: s) = (firstPiece n h head bs).symbols ++ r := by
  refine ⟨(head :: bs).drop n ++ symbols s, ?_⟩
  rw [firstPiece, ← List.append_assoc, List.take_append_drop]
  rfl

end Arrivals
