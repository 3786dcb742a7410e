import Cosidia.Theory.Program

/-!
# Formats

Programs that read a sequence of symbols from front to back. A format tells which sequences stand for
which values. `Recognises` says that a program returns on exactly the inputs that start with a
sequence of the format, and has read just this sequence then; `Interprets` says it of programs that
also work on a store. Both are established piece by piece, along the program.
-/

namespace EStateM

variable {ε σ τ α β γ : Type}

/-- How a state shows the symbols that are still to be read. -/
structure Input (σ β : Type) where
  rest : σ → List β
  /-- The state with some more symbols read. -/
  skip : Nat → σ → σ
  rest_skip : ∀ n s, rest (skip n s) = (rest s).drop n
  skip_zero : ∀ s, skip 0 s = s
  skip_skip : ∀ m n s, skip n (skip m s) = skip (m + n) s

namespace Input

theorem skip_append (I : Input σ β) (bs cs : List β) (s : σ) :
    I.skip (bs ++ cs).length s = I.skip cs.length (I.skip bs.length s) := by
  rw [I.skip_skip, List.length_append]

theorem rest_skip_append (I : Input σ β) {bs r : List β} {s : σ} (h : I.rest s = bs ++ r) :
    I.rest (I.skip bs.length s) = r := by
  rw [I.rest_skip, h, List.drop_left]

end Input

/-- A loop that makes `n` rounds. -/
def replicateM (x : EStateM ε σ α) : Nat → EStateM ε σ (List α)
  | 0 => pure []
  | n + 1 => do
    let a ← x
    return a :: (← replicateM x n)

/-- A loop that makes `n` rounds and gives nothing. -/
def repeatM (x : EStateM ε σ Unit) : Nat → EStateM ε σ Unit
  | 0 => pure ()
  | n + 1 => do
    x
    repeatM x n

/-- `x` returns `a` exactly if the input starts with a sequence that stands for `a`, which it reads. -/
def Recognises (I : Input σ β) (x : EStateM ε σ α) (F : α → List β → Prop) : Prop :=
  ∀ s a s', x s = .ok a s' ↔ ∃ bs r, I.rest s = bs ++ r ∧ F a bs ∧ s' = I.skip bs.length s

namespace Recognises

variable {I : Input σ β} {x : EStateM ε σ α} {f : α → EStateM ε σ γ}
variable {F F' : α → List β → Prop} {G : α → γ → List β → Prop}

theorem ok (h : Recognises I x F) {s : σ} {a : α} {bs r : List β} (ha : F a bs)
    (hs : I.rest s = bs ++ r) : x s = .ok a (I.skip bs.length s) :=
  (h s a _).2 ⟨bs, r, hs, ha, rfl⟩

theorem congr (h : Recognises I x F) (hF : ∀ a bs, F a bs ↔ F' a bs) : Recognises I x F' := by
  intro s a s'
  simp only [h s a s', hF]

theorem pure (a : α) : Recognises I (Pure.pure a : EStateM ε σ α) fun b bs => b = a ∧ bs = [] := by
  intro s b s'
  rw [pure_eq_ok]
  constructor
  · rintro ⟨rfl, rfl⟩
    exact ⟨[], I.rest s, rfl, ⟨rfl, rfl⟩, (I.skip_zero s).symm⟩
  · rintro ⟨bs, r, -, ⟨rfl, rfl⟩, rfl⟩
    exact ⟨rfl, (I.skip_zero s).symm⟩

theorem throw (e : ε) : Recognises I (MonadExcept.throw e : EStateM ε σ α) fun _ _ => False := by
  intro s a s'
  rw [throw_apply]
  exact iff_of_false nofun fun ⟨_, _, _, h, _⟩ => h

/-- A handler that does not return. -/
theorem tryCatch (hx : Recognises I x F) {h : ε → EStateM ε σ α}
    (hh : ∀ e s, ∃ e' s', h e s = .error e' s') :
    Recognises I (MonadExcept.tryCatch x h : EStateM ε σ α) F := by
  intro s a s'
  rw [← hx s a s', tryCatch_apply]
  cases x s with
  | ok b t => rfl
  | error e t =>
    obtain ⟨e', t', he⟩ := hh e t
    dsimp only
    rw [he]
    exact iff_of_false nofun nofun

/-- One program after the other: the two sequences follow each other. -/
theorem bind (hx : Recognises I x F) (hf : ∀ a, Recognises I (f a) (G a)) :
    Recognises I (x >>= f) fun c l => ∃ a bs cs, l = bs ++ cs ∧ F a bs ∧ G a c cs := by
  intro s c s'
  rw [bind_eq_ok]
  constructor
  · rintro ⟨a, s₁, h₁, h₂⟩
    obtain ⟨bs, r, hs, ha, rfl⟩ := (hx s a s₁).1 h₁
    obtain ⟨cs, r', hs', hc, rfl⟩ := (hf a _ c s').1 h₂
    rw [I.rest_skip_append hs] at hs'
    refine ⟨bs ++ cs, r', ?_, ⟨a, bs, cs, rfl, ha, hc⟩, (I.skip_append bs cs s).symm⟩
    rw [hs, hs', List.append_assoc]
  · rintro ⟨_, r, hs, ⟨a, bs, cs, rfl, ha, hc⟩, rfl⟩
    rw [List.append_assoc] at hs
    refine ⟨a, _, hx.ok ha hs, ?_⟩
    rw [I.skip_append]
    exact (hf a).ok hc (I.rest_skip_append hs)

/-- A choice by a condition that holds of the sequences of one branch only. -/
theorem ite {c : Prop} [Decidable c] {y : EStateM ε σ α} (hx : Recognises I x F)
    (hy : Recognises I y F') :
    Recognises I (if c then x else y) fun a bs => if c then F a bs else F' a bs := by
  split
  · exact hx
  · exact hy

/-- A sequence that stands for some value, whichever. -/
def Any (F : α → List β → Prop) (l : List β) : Prop := ∃ a, F a l

/-- Pieces one after the other. -/
def Concat : List (List β → Prop) → List β → Prop
  | [], l => l = []
  | P :: Ps, l => ∃ bs cs, l = bs ++ cs ∧ P bs ∧ Concat Ps cs

theorem concat_flatten {Ps : List (List β → Prop)} {pieces : List (List β)}
    (h : List.Forall₂ (fun P bs => P bs) Ps pieces) : Concat Ps pieces.flatten := by
  induction h with
  | nil => rfl
  | @cons P bs Ps pieces hp _ ih => exact ⟨bs, pieces.flatten, rfl, hp, ih⟩

/-! A record is read component by component: `E` says which components have been read already. -/

section Record

variable {E : γ → Prop} {Ps : γ → List (List β → Prop)}

/-- The end, where the record is put together. -/
theorem built {c : γ} (h : ∀ c', E c' ↔ c' = c) :
    Recognises I (Pure.pure c : EStateM ε σ γ) fun c' l => E c' ∧ Concat [] l :=
  (pure c).congr fun c' _ => and_congr_left fun _ => (h c').symm

/-- A component from which a part of the record is computed. -/
theorem computed {δ : Type} (get : γ → δ) (g : α → δ) (hx : Recognises I x F)
    (hf : ∀ a, Recognises I (f a) fun c l => (E c ∧ get c = g a) ∧ Concat (Ps c) l) :
    Recognises I (x >>= f) fun c l =>
      E c ∧ Concat ((fun bs => ∃ a, F a bs ∧ get c = g a) :: Ps c) l := by
  apply (hx.bind hf).congr
  intro c l
  constructor
  · rintro ⟨a, bs, cs, rfl, ha, ⟨he, hg⟩, hcs⟩
    exact ⟨he, bs, cs, rfl, ⟨a, ha, hg⟩, hcs⟩
  · rintro ⟨he, bs, cs, rfl, ⟨a, ha, hg⟩, hcs⟩
    exact ⟨a, bs, cs, rfl, ha, ⟨he, hg⟩, hcs⟩

/-- A component that goes into the record. -/
theorem component (get : γ → α) (hx : Recognises I x F)
    (hf : ∀ a, Recognises I (f a) fun c l => (E c ∧ get c = a) ∧ Concat (Ps c) l) :
    Recognises I (x >>= f) fun c l => E c ∧ Concat (F (get c) :: Ps c) l := by
  apply (computed get id hx hf).congr
  intro c l
  simp only [Concat, id_eq, exists_eq_right']

/-- A component that is read but not used. -/
theorem unused (hx : Recognises I x F)
    (hf : ∀ a, Recognises I (f a) fun c l => E c ∧ Concat (Ps c) l) :
    Recognises I (x >>= f) fun c l => E c ∧ Concat (Any F :: Ps c) l := by
  apply (hx.bind hf).congr
  intro c l
  constructor
  · rintro ⟨a, bs, cs, rfl, ha, he, hcs⟩
    exact ⟨he, bs, cs, rfl, ⟨a, ha⟩, hcs⟩
  · rintro ⟨he, bs, cs, rfl, ⟨a, ha⟩, hcs⟩
    exact ⟨a, bs, cs, rfl, ha, he, hcs⟩

/-- The whole record. -/
theorem record (h : Recognises I x fun a l => True ∧ F a l) : Recognises I x F :=
  h.congr fun _ _ => (true_and _).to_iff

end Record

/-- The sequences that stand for the elements of a list, one after the other. -/
inductive Each (F : α → List β → Prop) : List α → List β → Prop
  | nil : Each F [] []
  | cons {a : α} {as : List α} {bs cs : List β} : F a bs → Each F as cs → Each F (a :: as) (bs ++ cs)

theorem replicateM (hx : Recognises I x F) (n : Nat) :
    Recognises I (EStateM.replicateM x n) fun as bs => as.length = n ∧ Each F as bs := by
  induction n with
  | zero =>
    apply (pure []).congr
    rintro (_ | ⟨a, as⟩) bs
    · constructor
      · rintro ⟨-, rfl⟩
        exact ⟨rfl, .nil⟩
      · rintro ⟨-, h⟩
        cases h
        exact ⟨rfl, rfl⟩
    · exact iff_of_false nofun nofun
  | succ n ih =>
    apply (hx.bind fun a => ih.bind fun as => pure (a :: as)).congr
    intro as l
    constructor
    · rintro ⟨a, bs, cs, rfl, ha, as', ds, es, rfl, ⟨hlen, has⟩, rfl, rfl⟩
      rw [List.append_nil]
      exact ⟨congrArg (· + 1) hlen, .cons ha has⟩
    · rintro ⟨hlen, h⟩
      cases h with
      | nil => cases hlen
      | @cons a as bs cs ha has =>
        exact ⟨a, bs, cs, rfl, ha, as, cs, [], (List.append_nil _).symm,
          ⟨Nat.succ.inj hlen, has⟩, rfl, rfl⟩

/-- Where every value has one sequence, so has every list of values. -/
theorem each_iff {P : α → Prop} {encode : α → List β}
    (hF : ∀ a bs, F a bs ↔ P a ∧ bs = encode a) {as : List α} {l : List β} :
    Each F as l ↔ (∀ a ∈ as, P a) ∧ l = as.flatMap encode := by
  constructor
  · intro h
    induction h with
    | nil => exact ⟨nofun, rfl⟩
    | @cons a as bs cs ha _ ih =>
      obtain ⟨hp, rfl⟩ := (hF a bs).1 ha
      exact ⟨List.forall_mem_cons.2 ⟨hp, ih.1⟩, by rw [List.flatMap_cons, ih.2]⟩
  · rintro ⟨hp, rfl⟩
    induction as with
    | nil => exact .nil
    | cons a as ih =>
      obtain ⟨ha, has⟩ := List.forall_mem_cons.1 hp
      exact .cons ((hF a _).2 ⟨ha, rfl⟩) (ih has)

end Recognises

/-- `Recognises` for programs that also work on a store: the value and what happens to the store
are determined by the sequence. -/
def Interprets (I : Input σ β) (x : EStateM ε (σ × τ) α) (F : α → List β → τ → τ → Prop) : Prop :=
  ∀ s t a s' t', x (s, t) = .ok a (s', t') ↔
    ∃ bs r, I.rest s = bs ++ r ∧ F a bs t t' ∧ s' = I.skip bs.length s

/-- A program that only reads. -/
def reading (x : EStateM ε σ α) : EStateM ε (σ × τ) α := zoom Prod.fst (fun s p => (s, p.2)) x

/-- A program that only works on the store. -/
def storing (x : EStateM ε τ α) : EStateM ε (σ × τ) α := zoom Prod.snd (fun t p => (p.1, t)) x

/-- A program that works on the part of the store that `view` reads and `put` writes. -/
def focusing {υ : Type} (view : τ → υ) (put : υ → τ → τ) (x : EStateM ε (σ × υ) α) :
    EStateM ε (σ × τ) α :=
  zoom (fun p => (p.1, view p.2)) (fun q p => (q.1, put q.2 p.2)) x

/-- A program that leaves alone what `view` sees of the state. -/
def Leaves {υ : Type} (view : σ → υ) (x : EStateM ε σ α) : Prop := ∀ s, view (x s).state = view s

namespace Leaves

variable {υ : Type} {view : σ → υ}

theorem of_composed {x : EStateM ε σ α} (h : Composed (Leaves view) x) : Leaves view x :=
  fun s => h.related (R := fun s s' => view s' = view s) (fun _ => rfl) (fun h h' => h'.trans h)
    (fun hx s => hx s) s

theorem ok {x : EStateM ε σ α} (h : Leaves view x) {s s' : σ} {a : α} (hx : x s = .ok a s') :
    view s' = view s := by
  have hs := h s
  rwa [hx] at hs

/-- A program that only works on a component that is not seen. -/
theorem zoom {get : σ → τ} {put : τ → σ → σ} (h : ∀ t s, view (put t s) = view s)
    (x : EStateM ε τ α) : Leaves view (zoom get put x) := by
  intro s
  rw [zoom_state, h]

theorem reading {view : τ → υ} (x : EStateM ε σ α) :
    Leaves (fun p : σ × τ => view p.2) (reading x : EStateM ε (σ × τ) α) := by
  intro p
  rw [EStateM.reading, zoom_state]

theorem storing {view : τ → υ} {x : EStateM ε τ α} (h : Leaves view x) :
    Leaves (fun p : σ × τ => view p.2) (storing x) := by
  intro p
  rw [EStateM.storing, zoom_state]
  exact h p.2

end Leaves

namespace Interprets

variable {I : Input σ β} {x : EStateM ε (σ × τ) α} {f : α → EStateM ε (σ × τ) γ}
variable {F F' : α → List β → τ → τ → Prop} {G : α → γ → List β → τ → τ → Prop}

theorem ok (h : Interprets I x F) {s : σ} {t t' : τ} {a : α} {bs r : List β} (ha : F a bs t t')
    (hs : I.rest s = bs ++ r) : x (s, t) = .ok a (I.skip bs.length s, t') :=
  (h s t a _ t').2 ⟨bs, r, hs, ha, rfl⟩

theorem congr (h : Interprets I x F) (hF : ∀ a bs t t', F a bs t t' ↔ F' a bs t t') :
    Interprets I x F' := by
  intro s t a s' t'
  simp only [h s t a s' t', hF]

theorem reading {x : EStateM ε σ α} {F : α → List β → Prop} (h : Recognises I x F) :
    Interprets I (reading x : EStateM ε (σ × τ) α) fun a bs t t' => F a bs ∧ t' = t := by
  intro s t a s' t'
  rw [EStateM.reading, zoom_eq_ok]
  constructor
  · rintro ⟨s₁, hx, he⟩
    cases he
    obtain ⟨bs, r, hs, ha, rfl⟩ := (h s a s').1 hx
    exact ⟨bs, r, hs, ⟨ha, rfl⟩, rfl⟩
  · rintro ⟨bs, r, hs, ⟨ha, rfl⟩, rfl⟩
    exact ⟨_, h.ok ha hs, rfl⟩

theorem storing (x : EStateM ε τ α) :
    Interprets I (storing x) fun a bs t t' => bs = [] ∧ x t = .ok a t' := by
  intro s t a s' t'
  rw [EStateM.storing, zoom_eq_ok]
  constructor
  · rintro ⟨t₁, hx, he⟩
    cases he
    exact ⟨[], I.rest s, rfl, ⟨rfl, hx⟩, (I.skip_zero s).symm⟩
  · rintro ⟨_, r, -, ⟨rfl, hx⟩, rfl⟩
    exact ⟨t', hx, by rw [List.length_nil, I.skip_zero]⟩

theorem pure (a : α) : Interprets I (Pure.pure a : EStateM ε (σ × τ) α)
    fun b bs t t' => b = a ∧ bs = [] ∧ t' = t := by
  intro s t b s' t'
  rw [pure_eq_ok, Prod.mk.injEq]
  constructor
  · rintro ⟨rfl, rfl, rfl⟩
    exact ⟨[], I.rest s, rfl, ⟨rfl, rfl, rfl⟩, (I.skip_zero s).symm⟩
  · rintro ⟨_, r, -, ⟨rfl, rfl, rfl⟩, rfl⟩
    exact ⟨rfl, (I.skip_zero s).symm, rfl⟩

theorem bind (hx : Interprets I x F) (hf : ∀ a, Interprets I (f a) (G a)) :
    Interprets I (x >>= f) fun c l t t' =>
      ∃ a bs cs t₁, l = bs ++ cs ∧ F a bs t t₁ ∧ G a c cs t₁ t' := by
  intro s t c s' t'
  rw [bind_eq_ok]
  constructor
  · rintro ⟨a, ⟨s₁, t₁⟩, h₁, h₂⟩
    obtain ⟨bs, r, hs, ha, rfl⟩ := (hx s t a s₁ t₁).1 h₁
    obtain ⟨cs, r', hs', hc, rfl⟩ := (hf a _ t₁ c s' t').1 h₂
    rw [I.rest_skip_append hs] at hs'
    refine ⟨bs ++ cs, r', ?_, ⟨a, bs, cs, t₁, rfl, ha, hc⟩, (I.skip_append bs cs s).symm⟩
    rw [hs, hs', List.append_assoc]
  · rintro ⟨_, r, hs, ⟨a, bs, cs, t₁, rfl, ha, hc⟩, rfl⟩
    rw [List.append_assoc] at hs
    refine ⟨a, _, hx.ok ha hs, ?_⟩
    rw [I.skip_append]
    exact (hf a).ok hc (I.rest_skip_append hs)

theorem throw (e : ε) :
    Interprets I (MonadExcept.throw e : EStateM ε (σ × τ) α) fun _ _ _ _ => False := by
  intro s t a s' t'
  rw [throw_apply]
  exact iff_of_false nofun fun ⟨_, _, _, h, _⟩ => h

theorem ite {c : Prop} [Decidable c] {y : EStateM ε (σ × τ) α} (hx : Interprets I x F)
    (hy : Interprets I y F') :
    Interprets I (if c then x else y) fun a bs t t' => if c then F a bs t t' else F' a bs t t' := by
  split
  · exact hx
  · exact hy

theorem focusing {υ : Type} {view : τ → υ} {put : υ → τ → τ} {x : EStateM ε (σ × υ) α}
    {F : α → List β → υ → υ → Prop} (h : Interprets I x F) :
    Interprets I (focusing view put x) fun a bs t t' =>
      ∃ u, F a bs (view t) u ∧ t' = put u t := by
  intro s t a s' t'
  rw [EStateM.focusing, zoom_eq_ok]
  constructor
  · rintro ⟨⟨s₁, u⟩, hx, he⟩
    cases he
    obtain ⟨bs, r, hs, ha, rfl⟩ := (h s (view t) a s₁ u).1 hx
    exact ⟨bs, r, hs, ⟨u, ha, rfl⟩, rfl⟩
  · rintro ⟨bs, r, hs, ⟨u, ha, rfl⟩, rfl⟩
    exact ⟨_, h.ok ha hs, rfl⟩

/-- A loop each of whose rounds reads an item and acts on the store as the item says. -/
theorem repeatM {ι : Type} {F : ι → List β → Prop} {act : τ → ι → τ} {x : EStateM ε (σ × τ) Unit}
    (hx : Interprets I x fun _ bs t t' => ∃ i, F i bs ∧ t' = act t i) (n : Nat) :
    Interprets I (EStateM.repeatM x n) fun _ bs t t' =>
      ∃ is, is.length = n ∧ Recognises.Each F is bs ∧ t' = is.foldl act t := by
  induction n with
  | zero =>
    apply (pure ()).congr
    intro _ bs t t'
    constructor
    · rintro ⟨-, rfl, rfl⟩
      exact ⟨[], rfl, .nil, rfl⟩
    · rintro ⟨is, hlen, heach, rfl⟩
      obtain rfl := List.length_eq_zero_iff.1 hlen
      cases heach
      exact ⟨rfl, rfl, rfl⟩
  | succ n ih =>
    apply (hx.bind fun _ => ih).congr
    intro _ l t t'
    constructor
    · rintro ⟨_, bs, cs, t₁, rfl, ⟨i, hi, rfl⟩, is, hlen, heach, rfl⟩
      exact ⟨i :: is, congrArg (· + 1) hlen, .cons hi heach, rfl⟩
    · rintro ⟨is, hlen, heach, rfl⟩
      cases heach with
      | nil => cases hlen
      | @cons i is bs cs hi his =>
        exact ⟨(), bs, cs, _, rfl, ⟨i, hi, rfl⟩, is, Nat.succ.inj hlen, his, rfl⟩

end Interprets

end EStateM
