import Cosidia.Verify.Specs

/-!
# The order in which handlers are taken up

The core takes up what it has accepted in the order of time and, among equal times, of acceptance.
The invariant `Agenda` splits the accepted schedulings into those taken up, those of the batch being
worked off and those still in the list, and says that the three in this order are sorted.
-/

namespace Cosidia

open EStateM

variable {ω : Type}

/-- `a` is to be taken up before `b`. -/
def Scheduling.Before (a b : Scheduling) : Prop :=
  a.time < b.time ∨ a.time = b.time ∧ a.number < b.number

/-- The accepted schedulings that have not been taken up. -/
def pending (batch : List Scheduling) (s : Core ω) : List Scheduling := batch ++ s.mActions.entries

theorem pending_accept_perm {s : Core ω} (h : s.mActions.Filed Scheduling.time)
    (batch : List Scheduling) (handler : ActionHandler) :
    (pending batch (s.accept handler)).Perm (s.nextScheduling handler :: pending batch s) :=
  ((h.entries_push_perm (s.nextScheduling handler)).append_left batch).trans List.perm_middle

/-- The list, the batch and the history of the core fit together. -/
structure Agenda (batch : List Scheduling) (s : Core ω) : Prop where
  filed : s.mActions.Filed Scheduling.time
  sorted : (s.history.taken ++ pending batch s).Pairwise Scheduling.Before
  conserved : s.history.accepted.Perm (s.history.taken ++ pending batch s)
  numbered : s.history.accepted.map Scheduling.number = List.range' 1 s.history.accepted.length
  /-- Nothing taken up or fetched lies ahead of the current time. -/
  past : ∀ h ∈ s.history.taken ++ batch, h.time ≤ s.mCurrentActionTime
  /-- Nothing in the list lies behind it. -/
  future : ∀ h ∈ s.mActions.entries, s.mCurrentActionTime ≤ h.time
  nonneg : 0 ≤ s.mCurrentActionTime

namespace Agenda

variable {batch rest : List Scheduling} {s s' : Core ω}

theorem new (world : ω) : Agenda [] (Core.new world) where
  filed := BucketMap.filed_empty _
  sorted := by simp [pending, Core.new]
  conserved := by simp [pending, Core.new]
  numbered := rfl
  past := by simp [Core.new]
  future := by simp [Core.new]
  nonneg := by simp [Core.new, SimClock.zero, SimClock.atSecond]

/-- What does not touch the schedule keeps the agenda. -/
theorem same (h : Agenda batch s) (hs : SameSchedule s s') : Agenda batch s' := by
  obtain ⟨h1, h2, -, h4, h5, -⟩ := hs
  constructor <;> simp only [pending, h1, h2, h4, h5]
  exacts [h.filed, h.sorted, h.conserved, h.numbered, h.past, h.future, h.nonneg]

theorem number_le (h : Agenda batch s) {x : Scheduling} (hx : x ∈ s.history.taken ++ pending batch s) :
    x.number ≤ s.history.accepted.length := by
  have hmem := List.mem_map_of_mem (f := Scheduling.number) (h.conserved.mem_iff.2 hx)
  rw [h.numbered, List.mem_range'_1] at hmem
  omega

/-- An accepted handler takes its place among those that are still in the list. -/
theorem accept (h : Agenda batch s) {handler : ActionHandler}
    (ht : s.mCurrentActionTime ≤ s.timeOf handler) : Agenda batch (s.accept handler) := by
  obtain ⟨l, r, hlr, hins, hl, hr⟩ := h.filed.entries_push (s.nextScheduling handler)
  have hent : (s.accept handler).mActions.entries = l ++ s.nextScheduling handler :: r := hins
  have hsorted := h.sorted
  rw [pending, hlr, ← List.append_assoc, ← List.append_assoc] at hsorted
  constructor
  · exact h.filed.push _
  · rw [pending, hent, Core.accept_taken, ← List.append_assoc, ← List.append_assoc]
    obtain ⟨hp, hpr, hpc⟩ := List.pairwise_append.1 hsorted
    refine List.pairwise_append.2 ⟨hp, List.pairwise_cons.2 ⟨fun y hy => .inl ?_, hpr⟩, ?_⟩
    · exact compare_lt_iff_lt.1 (hr y hy)
    · intro x hx y hy
      rcases List.mem_cons.1 hy with rfl | hy
      · have hnum := h.number_le (x := x) (by
          rw [pending, hlr]
          simp only [List.mem_append] at hx ⊢
          tauto)
        have htime : x.time ≤ s.timeOf handler := by
          rcases List.mem_append.1 hx with hx | hx
          · exact (h.past x hx).trans ht
          · exact not_lt.1 fun hlt => hl x hx (compare_lt_iff_lt.2 hlt)
        rcases lt_or_eq_of_le htime with hlt | heq
        · exact .inl hlt
        · exact .inr ⟨heq, Nat.lt_succ_of_le hnum⟩
      · exact hpc x hx y hy
  · rw [pending, hent, Core.accept_taken, Core.accept_accepted]
    apply (List.perm_append_singleton _ _).trans
    have hperm := h.conserved.cons (s.nextScheduling handler)
    rw [pending, hlr, ← List.append_assoc, ← List.append_assoc] at hperm
    rw [← List.append_assoc, ← List.append_assoc]
    exact hperm.trans List.perm_middle.symm
  · rw [Core.accept_accepted, List.map_append, h.numbered, List.length_append, List.length_singleton,
      List.range'_concat]
    simp [Nat.add_comm]
  · exact h.past
  · intro x hx
    rw [hent] at hx
    have hmem : x = s.nextScheduling handler ∨ x ∈ s.mActions.entries := by
      rw [hlr]
      simp only [List.mem_append, List.mem_cons] at hx ⊢
      tauto
    rcases hmem with rfl | hmem
    · exact ht
    · exact h.future x hmem
  · exact h.nonneg

/-- Whatever comes of `scheduleAction`, the agenda stays in order. -/
theorem scheduleAction (h : Agenda batch s) (handler : ActionHandler) :
    Agenda batch (Core.scheduleAction handler s).state := by
  rw [Core.scheduleAction_apply]
  split_ifs with hp ht
  · exact h.accept ht
  · exact ⟨h.filed, h.sorted, h.conserved, h.numbered, h.past, h.future, h.nonneg⟩
  · exact ⟨h.filed, h.sorted, h.conserved, h.numbered, h.past, h.future, h.nonneg⟩

theorem takeUp {x : Scheduling} (h : Agenda (x :: rest) s) : Agenda rest (s.takeUp x) := by
  have hlist : (s.takeUp x).history.taken ++ pending rest (s.takeUp x) =
      s.history.taken ++ pending (x :: rest) s := by
    simp [Core.takeUp, pending]
  refine ⟨h.filed, ?_, ?_, h.numbered, ?_, h.future, h.nonneg⟩
  · rw [hlist]; exact h.sorted
  · rw [hlist]; exact h.conserved
  · have hpast := h.past
    simpa [Core.takeUp] using hpast

/-- Advancing to the first time point in the list keeps the agenda. -/
theorem advance (h : Agenda [] s) (hs : s.mCurrentActionTime ≤ ActionList.getNextTimePoint s.mActions) :
    Agenda [] { s with mCurrentActionTime := ActionList.getNextTimePoint s.mActions } :=
  ⟨h.filed, h.sorted, h.conserved, h.numbered, fun x hx => (h.past x hx).trans hs,
    fun _ hx => ActionList.getNextTimePoint_le h.filed hx, h.nonneg.trans hs⟩

/-- Fetching the next handlers moves the front of the list into the batch. -/
theorem popNextHandlers (h : Agenda [] s)
    (hs : s.mCurrentActionTime = ActionList.getNextTimePoint s.mActions) :
    ∃ b s', Core.popNextHandlers s = .ok b s' ∧ Agenda b s' ∧
      (∀ x ∈ b, x.time = s'.mCurrentActionTime) ∧ s'.mCurrentActionTime = s.mCurrentActionTime := by
  obtain ⟨b, m', hpop, hent, hfiled, htime, -⟩ := ActionList.popNextHandlers_spec h.filed
  refine ⟨b, { s with mActions := m' }, zoom_eq_ok.2 ⟨m', hpop, rfl⟩, ?_, ?_, rfl⟩
  · have hlist : pending b { s with mActions := m' } = pending [] s := by
      simp [pending, hent]
    refine ⟨hfiled, ?_, ?_, h.numbered, ?_, ?_, h.nonneg⟩
    · rw [hlist]; exact h.sorted
    · rw [hlist]; exact h.conserved
    · intro x hx
      rcases List.mem_append.1 hx with hx | hx
      · exact h.past x (by simpa using hx)
      · exact (htime x hx).trans hs.symm |>.le
    · exact fun x hx => h.future x (by rw [hent]; exact List.mem_append_right _ hx)
  · exact fun x hx => (htime x hx).trans hs.symm

/-- The list is announced as empty by a time point that lies behind every current time. -/
theorem invalid_lt (h : Agenda batch s) : SimClock.invalid < s.mCurrentActionTime :=
  lt_of_lt_of_le (by decide) h.nonneg

theorem next_of_entries_nil (h : Agenda batch s) (he : s.mActions.entries = []) :
    ActionList.getNextTimePoint s.mActions = SimClock.invalid :=
  ActionList.getNextTimePoint_of_nil (h.filed.toList_nil_iff.2 he)

theorem le_next (h : Agenda batch s) (he : s.mActions.entries ≠ []) :
    s.mCurrentActionTime ≤ ActionList.getNextTimePoint s.mActions := by
  cases hl : s.mActions.toList with
  | nil => exact absurd (BucketMap.entries_of_toList_nil hl) he
  | cons e l =>
    rw [ActionList.getNextTimePoint_of_cons hl]
    obtain ⟨hne, hkey⟩ := h.filed e.1 e.2 (BucketMap.getElem?_first hl)
    obtain ⟨x, hx⟩ := List.exists_mem_of_ne_nil _ hne
    rw [← hkey x hx]
    exact h.future x (BucketMap.mem_entries.2 ⟨_, _, BucketMap.getElem?_first hl, hx⟩)

end Agenda

/-! ## Every moment of a run -/

/-- The agenda of the machine, and what the place it is at adds to it. -/
structure Machine.InOrder (m : Machine ω) : Prop where
  agenda : Agenda m.batch m.core
  /-- There is a batch only while `executeActionOnFinishedTimer` is at work. -/
  batch : m.control = .setup ∨ m.control = .runSimulationLoop ∨ m.control = .waiting → m.batch = []
  /-- The timer is set to the first time point in the list. -/
  waiting : m.control = .waiting →
    m.core.mCurrentActionTime = ActionList.getNextTimePoint m.core.mActions
  /-- The handlers that are being gone through are those of the current time. -/
  executing : m.control = .executing ∨ m.control = .running →
    ∀ h ∈ m.batch, h.time = m.core.mCurrentActionTime
  unfinished : m.control ≠ .finished

namespace Machine.InOrder

variable {m m' : Machine ω}

theorem new (world : ω) : (Machine.new world).InOrder :=
  ⟨Agenda.new world, fun _ => rfl, nofun, nofun, nofun⟩

theorem abort (h : m.InOrder) (f : Failure) : { m with control := .aborted f : Machine ω }.InOrder :=
  ⟨h.agenda, nofun, nofun, nofun, nofun⟩

theorem loop (h : m.InOrder) (hm : m.control = .runSimulationLoop) (delay : Duration) :
    (m.loop delay).InOrder := by
  simp only [Machine.loop]
  have hb := h.batch (.inr (.inl hm))
  have hag := h.agenda
  rw [hb] at hag
  have hrun := Core.runSimulationLoop_apply m.core
  by_cases ht : m.core.mCurrentActionTime ≤ ActionList.getNextTimePoint m.core.mActions
  · have hne : ActionList.getNextTimePoint m.core.mActions ≠ SimClock.invalid :=
      (hag.invalid_lt.trans_le ht).ne'
    simp only [ht, hne, if_true, if_false] at hrun
    rw [m.resume_of_ok _ hrun]
    refine ⟨?_, fun _ => hb, fun _ => rfl, nofun, nofun⟩
    change Agenda m.batch _
    rw [hb]
    exact hag.advance ht
  · simp only [ht, if_false] at hrun
    rw [m.resume_of_error _ hrun]
    exact ⟨h.agenda, nofun, nofun, nofun, nofun⟩

theorem checkHandlers (h : Agenda m.batch m.core)
    (hb : ∀ h ∈ m.batch, h.time = m.core.mCurrentActionTime) (handlers : List Scheduling) :
    (m.resume (Core.checkHandlers handlers)).InOrder := by
  have hsame : (Core.checkHandlers handlers m.core).state = m.core := Core.checkHandlers_state _ _
  cases hc : Core.checkHandlers handlers m.core with
  | ok c s =>
    rw [hc] at hsame
    cases hsame
    cases Core.checkHandlers_eq_ok hc
    rw [m.resume_of_ok _ hc]
    exact ⟨h, nofun, nofun, fun _ => hb, nofun⟩
  | error e s =>
    rw [hc] at hsame
    cases hsame
    rw [m.resume_of_error _ hc]
    exact ⟨h, nofun, nofun, nofun, nofun⟩

theorem fetch (h : m.InOrder) (hm : m.control = .waiting) : m.fetch.InOrder := by
  have hag := h.agenda
  rw [h.batch (.inr (.inr hm))] at hag
  obtain ⟨b, s, hpop, hags, htime, -⟩ := hag.popNextHandlers (h.waiting hm)
  simp only [Machine.fetch]
  rw [hpop]
  exact checkHandlers (m := { m with core := s, batch := b }) hags htime b

/-- Every small step of the core thread keeps the order. -/
theorem step (h : m.InOrder) (hs : Moment m m') : m'.InOrder := by
  cases hs with
  | loop delay hm => exact h.loop hm delay
  | timer hm => exact h.fetch hm
  | takeUp x rest hm hb =>
    have hag := h.agenda
    rw [hb] at hag
    refine ⟨hag.takeUp, nofun, nofun, fun _ y hy => ?_, nofun⟩
    exact h.executing (.inl hm) y (by rw [hb]; exact List.mem_cons_of_mem _ hy)
  | batchDone hm hb => exact ⟨h.agenda, fun _ => hb, nofun, nofun, nofun⟩
  | scheduleAction handler hm =>
    refine ⟨h.agenda.scheduleAction handler, h.batch, fun hw => ?_, fun he => ?_, h.unfinished⟩
    · rcases hm with hm | hm <;> exact absurd (hm.symm.trans hw) nofun
    · rw [show (Core.scheduleAction handler m.core).state.mCurrentActionTime = _ from
        Core.scheduleAction_mCurrentActionTime handler m.core]
      exact h.executing he
  | other s hm hs =>
    refine ⟨h.agenda.same hs, h.batch, fun hw => ?_, fun he => ?_, h.unfinished⟩
    · rcases hm with hm | hm <;> exact absurd (hm.symm.trans hw) nofun
    · rw [show s.mCurrentActionTime = _ from hs.mCurrentActionTime]
      exact h.executing he
  | setupDone hm => exact ⟨h.agenda, fun _ => h.batch (.inl hm), nofun, nofun, nofun⟩
  | handlerDone hm => exact ⟨h.agenda, nofun, nofun, fun _ => h.executing (.inr hm), nofun⟩
  | throw f hm => exact h.abort f

end Machine.InOrder

/-- The machines reached at any moment of any run. -/
def AtSomeMoment (world : ω) : Machine ω → Prop := Reachable (· = Machine.new world) Moment

theorem AtSomeMoment.inOrder {world : ω} {m : Machine ω} (h : AtSomeMoment world m) : m.InOrder :=
  h.invariant (fun _ hm => hm ▸ .new world) fun _ _ _ hi hs => hi.step hs

end Cosidia
