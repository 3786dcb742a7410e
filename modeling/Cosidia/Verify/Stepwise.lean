import Cosidia.Verify.Moments
import Cosidia.Verify.Stages

/-!
# Invariants over stages

An assertion `I st batch s` about the stage a handler is at, the handlers still to be taken up and
the core is kept by every step of the machine if the transitions of `Act` and the few things that
the loop itself does keep it (`Stepwise`). In an aborted run the assertion still holds for the stage
at which the exception was thrown.
-/

namespace Cosidia

open EStateM Relation

variable {ω : Type}

/-- An assertion about the stage, the rest of the batch and the core. -/
abbrev Assertion (ω : Type) := Stage → List Scheduling → Core ω → Prop

/-- The assertion holds between two steps of the machine. -/
def Machine.Holds (I : Assertion ω) (m : Machine ω) : Prop :=
  match m.control with
  | .aborted _ => ∃ st batch, I st batch m.core
  | _ => I .idle m.batch m.core

theorem Machine.Holds.stage {I : Assertion ω} {m : Machine ω} (h : m.Holds I) :
    ∃ st batch, I st batch m.core ∧
      ((∀ f, m.control ≠ .aborted f) → st = .idle ∧ batch = m.batch) := by
  simp only [Machine.Holds] at h
  split at h
  · next f hf =>
    obtain ⟨st, batch, h⟩ := h
    exact ⟨st, batch, h, fun hne => absurd hf (hne f)⟩
  · exact ⟨_, _, h, fun _ => ⟨rfl, rfl⟩⟩

theorem Machine.holds_resume {I : Assertion ω} (m : Machine ω) {x : CoreM ω Unit}
    (h : Post x m.core (fun _ s => I .idle m.batch s) fun _ s => ∃ st batch, I st batch s) :
    (m.resume do x; return .executing).Holds I := by
  cases hx : x m.core with
  | ok u s =>
    rw [m.resume_then_of_ok hx]
    exact h.ok hx
  | error f s =>
    rw [m.resume_then_of_error hx]
    exact h.error hx

/-- `I` is kept by what the core does, provided `C` holds of every machine that is about to take up
a handler. -/
structure Stepwise (C : List Scheduling → Core ω → Prop) (I : Assertion ω) : Prop where
  act : ∀ {st s st' s' batch}, Act (st, s) (st', s') → I st batch s → I st' batch s'
  /-- The loop goes on to the next time point. -/
  advance : ∀ {s t}, s.mCurrentActionTime ≤ t → I .idle [] s →
    I .idle [] { s with mCurrentActionTime := t }
  /-- The next handlers are moved from the list into the batch. -/
  fetch : ∀ {s batch m}, I .idle [] s → s.mActions.entries = batch ++ m.entries →
    m.Filed Scheduling.time → I .idle batch { s with mActions := m }
  /-- A handler is taken up, but a check on it fails. -/
  fail : ∀ {h batch s}, I .idle batch s → I .idle batch (s.takeUp h)
  /-- A handler is taken up and dropped, because its object has been removed. -/
  drop : ∀ {h rest s}, C (h :: rest) s → I .idle (h :: rest) s →
    (s.actions.cell h.handler.mCorrespondingAction).mAffectedObject ∈
      s.mObjectList.currentCopy.mRemovedObjects → I .idle rest (s.takeUp h)
  /-- A handler is taken up and invoked on an object. -/
  take : ∀ {h rest s o}, C (h :: rest) s → I .idle (h :: rest) s → h.time = s.mCurrentActionTime →
    h.handler.mCorrespondingAction < s.actions.next →
    s.mObjectList.currentCopy.mActiveObjects[
      (s.actions.cell h.handler.mCorrespondingAction).mAffectedObject]? = some o →
    I (.taken h.handler.kind o h.handler.mCorrespondingAction) rest (s.takeUp h)

namespace Stepwise

variable {C : List Scheduling → Core ω → Prop} {I : Assertion ω} (hI : Stepwise C I)
include hI

theorem acts {c c' : Stage × Core ω} {batch : List Scheduling} (h : Acts c c')
    (hc : I c.1 batch c.2) : I c'.1 batch c'.2 := by
  induction h with
  | refl => exact hc
  | tail _ hact ih => exact hI.act hact ih

variable {V : Virtuals ω} {setup : CoreM ω Unit} {compareIds : Bool} {m m' : Machine ω}

theorem loop (ho : m.InOrder) (hm : m.control = .runSimulationLoop) (h : I .idle m.batch m.core)
    (delay : Duration) : (m.loop delay).Holds I := by
  have hb := ho.batch (.inr (.inl hm))
  have hrun := Core.runSimulationLoop_apply m.core
  simp only [Machine.loop]
  by_cases ht : m.core.mCurrentActionTime ≤ ActionList.getNextTimePoint m.core.mActions
  · simp only [ht, if_true] at hrun
    rw [m.resume_of_ok _ hrun]
    have hadv : I .idle m.batch
        { m.core with mCurrentActionTime := ActionList.getNextTimePoint m.core.mActions } := by
      rw [hb] at h ⊢
      exact hI.advance ht h
    split_ifs <;> exact hadv
  · simp only [ht, if_false] at hrun
    rw [m.resume_of_error _ hrun]
    exact ⟨_, _, h⟩

theorem fetch_step (ho : m.InOrder) (hm : m.control = .waiting) (h : I .idle m.batch m.core) :
    m.fetch.Holds I := by
  have hb := ho.batch (.inr (.inr hm))
  obtain ⟨b, l, hpop, hent, hfiled, -, -⟩ := ActionList.popNextHandlers_spec ho.agenda.filed
  have hpop' : Core.popNextHandlers m.core = .ok b { m.core with mActions := l } :=
    zoom_eq_ok.2 ⟨l, hpop, rfl⟩
  rw [hb] at h
  have hf := hI.fetch h hent hfiled
  have hcheck := Core.checkHandlers_state b { m.core with mActions := l }
  unfold Machine.fetch Machine.resume
  rw [hpop']
  simp only
  split <;> rename_i hc <;> rw [hc] at hcheck <;> cases hcheck
  · cases Core.checkHandlers_eq_ok hc
    exact hf
  · exact ⟨_, _, hf⟩

theorem dispatch (hV : V.Lawful) (ho : m.InOrder) (hm : m.control = .executing) {h : Scheduling}
    {rest : List Scheduling} (hb : m.batch = h :: rest) (hC : C m.batch m.core)
    (hi : I .idle m.batch m.core) :
    (({ m with core := m.core.takeUp h, batch := rest } : Machine ω).resume do
      Core.dispatch V compareIds h
      return .executing).Holds I := by
  have htime := ho.executing (.inl hm) h (by rw [hb]; exact List.mem_cons_self ..)
  rw [hb] at hC hi
  let n : Machine ω := { m with core := m.core.takeUp h, batch := rest }
  have hpost : Post (Core.dispatch V compareIds h) n.core (fun _ s => I .idle rest s)
      fun _ s => ∃ st batch, I st batch s := by
    rcases Core.dispatch_cases V compareIds h n.core with
      ⟨f, hfail⟩ | ⟨hrem, hdrop⟩ | ⟨o, hp, hlook, hinv⟩
    · unfold Post
      rw [hfail]
      exact ⟨_, _, hI.fail hi⟩
    · unfold Post
      rw [hdrop]
      exact hI.drop hC hi hrem
    · have htaken := hI.take hC hi htime hp hlook
      unfold Post
      rw [hinv]
      exact (post_invoke hV compareIds ReflTransGen.refl).mono (fun _ _ hacts => hI.acts hacts htaken)
        fun _ _ ⟨_, hacts⟩ => ⟨_, _, hI.acts hacts htaken⟩
  exact n.holds_resume hpost

/-- A step of the machine keeps the assertion. -/
theorem step (hV : V.Lawful) (hsetup : ObjectProgram setup) (ho : m.InOrder) (h : m.Holds I)
    (hC : m.control = .executing → C m.batch m.core) (delay : Duration) :
    (m.step V compareIds setup delay).Holds I := by
  simp only [Machine.step]
  split
  case h_1 hm =>
    have hi : I .idle m.batch m.core := by simpa [Machine.Holds, hm] using h
    have hacts := hI.acts (hsetup.acts .idle m.core) hi
    cases hx : setup m.core with
    | ok u s =>
      rw [hx] at hacts
      rw [m.resume_then_of_ok hx]
      exact hacts
    | error f s =>
      rw [hx] at hacts
      rw [m.resume_then_of_error hx]
      exact ⟨_, _, hacts⟩
  case h_2 hm => exact hI.loop ho hm (by simpa [Machine.Holds, hm] using h) delay
  case h_3 hm => exact hI.fetch_step ho hm (by simpa [Machine.Holds, hm] using h)
  case h_4 hm =>
    have hi : I .idle m.batch m.core := by simpa [Machine.Holds, hm] using h
    split
    case h_1 hb => exact hi
    case h_2 x rest hb => exact hI.dispatch hV ho hm hb (hC hm) hi
  all_goals exact h

end Stepwise

/-- The machines that a simulation reaches by steps taken under the condition `C`. -/
def ReachedUnder (C : Machine ω → Prop) (V : Virtuals ω) (compareIds : Bool) (setup : CoreM ω Unit)
    (world : ω) : Machine ω → Prop :=
  Reachable (· = Machine.new world) fun m m' => C m ∧ ∃ delay, m' = m.step V compareIds setup delay

/-- The machines that a simulation reaches. -/
abbrev Reached (V : Virtuals ω) (compareIds : Bool) (setup : CoreM ω Unit) (world : ω) :
    Machine ω → Prop :=
  ReachedUnder (fun _ => True) V compareIds setup world

section
variable {C : Machine ω → Prop} {V : Virtuals ω} {setup : CoreM ω Unit} {compareIds : Bool}
  {world : ω} {m : Machine ω}

theorem ReachedUnder.atSomeMoment (hV : V.Lawful) (hsetup : ObjectProgram setup)
    (h : ReachedUnder C V compareIds setup world m) : AtSomeMoment world m :=
  h.simulated (f := id) (fun _ h => h) fun m _ ⟨_, delay, h⟩ =>
    h ▸ Machine.step_moments hV hsetup compareIds delay m

theorem ReachedUnder.run {delays : List Duration} :
    Reached V compareIds setup world ((Machine.new world).run V compareIds setup delays) :=
  .foldl (fun _ delay => ⟨trivial, delay, rfl⟩) delays (.init rfl)

/-- A run whose steps are taken under the condition. -/
theorem ReachedUnder.run_of {delays : List Duration}
    (hC : ∀ k < delays.length, C ((Machine.new world).run V compareIds setup (delays.take k))) :
    ReachedUnder C V compareIds setup world
      ((Machine.new world).run V compareIds setup delays) := by
  have hrun : ∀ k ≤ delays.length, ReachedUnder C V compareIds setup world
      ((Machine.new world).run V compareIds setup (delays.take k)) := by
    intro k
    induction k with
    | zero => exact fun _ => .init rfl
    | succ k ih =>
      intro hk
      refine (ih (Nat.le_of_succ_le hk)).step ⟨hC k hk, delays[k], ?_⟩
      rw [Machine.run, Machine.run, List.take_succ_eq_append_getElem hk, List.foldl_append]
      rfl
  simpa using hrun delays.length (Nat.le_refl _)

/-- What the steps keep holds of every machine that is reached. -/
theorem Stepwise.reached {D : List Scheduling → Core ω → Prop} {I : Assertion ω}
    (hI : Stepwise D I) (hV : V.Lawful) (hsetup : ObjectProgram setup)
    (hD : ∀ m, C m → m.control = .executing → D m.batch m.core)
    (h0 : I .idle [] (Core.new world)) (h : ReachedUnder C V compareIds setup world m) :
    m.Holds I := by
  refine h.invariant (fun _ hm => hm ▸ h0) fun m m' hr hm ⟨hC, delay, hs⟩ => ?_
  rw [hs]
  exact hI.step hV hsetup (ReachedUnder.atSomeMoment hV hsetup hr).inOrder hm (hD m hC) delay

/-- The machines that a machine becomes by further steps. -/
abbrev Machine.Later (V : Virtuals ω) (compareIds : Bool) (setup : CoreM ω Unit) :
    Machine ω → Machine ω → Prop :=
  ReflTransGen fun m m' => ∃ delay, m' = m.step V compareIds setup delay

theorem Machine.later_run (m : Machine ω) (delays : List Duration) :
    m.Later V compareIds setup (m.run V compareIds setup delays) := by
  simp only [Machine.run]
  induction delays generalizing m with
  | nil => exact .refl
  | cons delay delays ih => exact .head ⟨delay, rfl⟩ (ih _)

theorem ReachedUnder.later {n : Machine ω} (h : Reached V compareIds setup world m)
    (hn : m.Later V compareIds setup n) : Reached V compareIds setup world n :=
  h.trans (hn.lift id fun _ _ hs => ⟨trivial, hs⟩)

/-- What the steps keep holds from some moment on if it holds then. -/
theorem Stepwise.later {I : Assertion ω} (hI : Stepwise (fun _ _ => True) I) (hV : V.Lawful)
    (hsetup : ObjectProgram setup) (h : Reached V compareIds setup world m) (hm : m.Holds I)
    {n : Machine ω} (hn : m.Later V compareIds setup n) : n.Holds I := by
  induction hn with
  | refl => exact hm
  | tail hn hs ih =>
    obtain ⟨delay, rfl⟩ := hs
    have ho := (ReachedUnder.atSomeMoment hV hsetup (h.later hn)).inOrder
    exact hI.step hV hsetup ho ih (fun _ => trivial) delay

end

end Cosidia
