import Cosidia.Theory.Program

/-!
# Programs that mirror each other

A program on one kind of state mirrors a program on another, along a map of the states, if it takes
the images of the states to the images of the results. Mirroring from one state on is kept by
sequencing, with a postcondition that tells where the rest starts from.
-/

namespace EStateM

variable {ε σ τ υ α β : Type}

/-- The result in the image of its state. -/
def Result.mapState (f : σ → τ) : Result ε σ α → Result ε τ α
  | .ok a s => .ok a (f s)
  | .error e s => .error e (f s)

/-- Programs on a part that both kinds of state have. -/
theorem zoom_map {f : σ → τ} {s : σ} {view : σ → υ} {view' : τ → υ} {put : υ → σ → σ}
    {put' : υ → τ → τ} {x : EStateM ε υ α} (hview : view' (f s) = view s)
    (hput : ∀ u, put' u (f s) = f (put u s)) :
    EStateM.zoom view' put' x (f s) = (EStateM.zoom view put x s).mapState f := by
  simp only [EStateM.zoom]
  rw [hview]
  cases x (view s) with
  | ok a u => exact congrArg (Result.ok a) (hput u)
  | error e u => exact congrArg (Result.error e) (hput u)

/-- From `s` on `y` does in the image of `f` what `x` does, which ends in `Q` or throws into `E`. -/
structure Mirrors (f : σ → τ) (x : EStateM ε σ α) (y : EStateM ε τ α) (s : σ) (Q : α → σ → Prop)
    (E : ε → σ → Prop) : Prop where
  eq : y (f s) = (x s).mapState f
  post : Post x s Q E

namespace Mirrors

variable {f : σ → τ} {x : EStateM ε σ α} {y : EStateM ε τ α} {s : σ} {Q Q' : α → σ → Prop}
  {E E' : ε → σ → Prop} {R : β → σ → Prop}

theorem pure {a : α} (h : Q a s) : Mirrors f (Pure.pure a) (Pure.pure a) s Q E := ⟨rfl, h⟩

theorem throw {e : ε} (h : E e s) :
    Mirrors f (MonadExcept.throw e : EStateM ε σ α) (MonadExcept.throw e) s Q E := ⟨rfl, h⟩

theorem modify {g : σ → σ} {g' : τ → τ} {Q : PUnit → σ → Prop} (heq : g' (f s) = f (g s))
    (h : Q ⟨⟩ (g s)) :
    Mirrors f (modify g : EStateM ε σ PUnit) (modify g' : EStateM ε τ PUnit) s Q E := by
  refine ⟨?_, post_modify h⟩
  rw [modify_apply, modify_apply, heq]
  rfl

theorem mono (h : Mirrors f x y s Q E) (hQ : ∀ a t, Q a t → Q' a t) (hE : ∀ e t, E e t → E' e t) :
    Mirrors f x y s Q' E' :=
  ⟨h.eq, h.post.mono hQ hE⟩

theorem bind {k : α → EStateM ε σ β} {k' : α → EStateM ε τ β} (h : Mirrors f x y s Q E)
    (hk : ∀ a t, Q a t → Mirrors f (k a) (k' a) t R E) : Mirrors f (x >>= k) (y >>= k') s R E := by
  refine ⟨?_, h.post.bind fun a t ht => (hk a t ht).post⟩
  rw [bind_apply, bind_apply, h.eq]
  cases hx : x s with
  | ok a t => exact (hk a t (h.post.ok hx)).eq
  | error e t => rfl

/-- The rest may depend on the states in any way that it mirrors. -/
theorem get_bind {k : σ → EStateM ε σ β} {k' : τ → EStateM ε τ β}
    (hk : Mirrors f (k s) (k' (f s)) s R E) : Mirrors f (get >>= k) (get >>= k') s R E :=
  ⟨hk.eq, hk.post⟩

/-- A part of the state that both kinds of state have. -/
theorem zoom {view : σ → υ} {view' : τ → υ} {put : υ → σ → σ} {put' : υ → τ → τ}
    {x : EStateM ε υ α} (hview : view' (f s) = view s) (hput : ∀ u, put' u (f s) = f (put u s))
    (h : Post x (view s) (fun a u => Q a (put u s)) fun e u => E e (put u s)) :
    Mirrors f (EStateM.zoom view put x) (EStateM.zoom view' put' x) s Q E :=
  ⟨zoom_map hview hput, post_zoom h⟩

end Mirrors

end EStateM
