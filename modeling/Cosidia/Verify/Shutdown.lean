import Cosidia.Core.Shutdown

/-!
# The end of the simulation

However the threads are scheduled, no worker misses the end of the simulation, so that every one of them
returns and the core thread can join them all.
-/

namespace Cosidia

/-- The core thread has set `mIsFinished`. -/
def CoreThread.finishing : CoreThread → Bool
  | flagged | unlocked | joining _ | returned => true
  | _ => false

/-- The core thread has notified the workers. -/
def CoreThread.notified : CoreThread → Bool
  | joining _ | returned => true
  | _ => false

/-- How many of `n` workers the core thread has joined. -/
def CoreThread.joined (n : Nat) : CoreThread → Nat
  | joining t => t
  | returned => n
  | _ => 0

namespace Threads

variable {s s' : Threads} {m : Move}

/-- What holds of the threads at every time. -/
structure Inv (s : Threads) : Prop where
  core : s.mFiberMutex = some .core ↔ s.core = .locked ∨ s.core = .flagged
  worker : ∀ t : Nat, s.mFiberMutex = some (.worker t) ↔ s.mThreads[t]? = some .checking
  finished : s.mIsFinished = s.core.finishing
  /-- After the notification no worker waits for it. -/
  awake : s.core.notified = true → ∀ t : Nat, s.mThreads[t]? ≠ some Worker.waiting
  joined : ∀ t : Nat, t < s.core.joined s.mThreads.length → s.mThreads[t]? = some Worker.returned

theorem inv_init (hardware_concurrency : UInt32) :
    Inv (Threads.mk hardware_concurrency (.setup 1) [] none false) where
  core := by simp
  worker := by simp
  finished := rfl
  awake := nofun
  joined := nofun

theorem getElem?_concat_iff {α : Type} {l : List α} {a b : α} (hab : a ≠ b) (t : Nat) :
    (l ++ [a])[t]? = some b ↔ l[t]? = some b := by
  rw [List.getElem?_append]
  split
  next => rfl
  next hlen =>
    rw [List.getElem?_eq_none (Nat.not_lt.1 hlen), List.getElem?_singleton]
    split
    next => simpa using hab
    next => rfl

theorem notify_eq_iff {w w' : Worker} (hwaiting : w' ≠ .waiting) (hwoken : w' ≠ .woken) :
    notify w = w' ↔ w = w' := by
  cases w <;> simp_all [notify, eq_comm]

theorem notify_ne_waiting (w : Worker) : notify w ≠ .waiting := by
  cases w <;> simp [notify]

theorem Inv.coreNext (h : Inv s) (hs : s.coreNext = some s') : Inv s' := by
  have hmutex := h.core
  have hfinished := h.finished
  rw [Threads.coreNext] at hs
  split at hs
  next x hcore =>
    simp only [hcore, reduceCtorEq, or_self, iff_false] at hmutex
    split at hs
    next =>
      obtain rfl := Option.some.inj hs
      refine ⟨by simpa using hmutex, ?_, hfinished.trans (by rw [hcore]; rfl), nofun, nofun⟩
      intro t
      rw [getElem?_concat_iff (by decide)]
      exact h.worker t
    next =>
      obtain rfl := Option.some.inj hs
      exact ⟨by simpa using hmutex, h.worker, hfinished.trans (by rw [hcore]; rfl), nofun, nofun⟩
  next hcore =>
    split at hs
    next hfree =>
      obtain rfl := Option.some.inj hs
      refine ⟨by simp, ?_, hfinished.trans (by rw [hcore]; rfl), nofun, nofun⟩
      intro t
      have hworker := h.worker t
      simp only [hfree, reduceCtorEq, false_iff] at hworker
      simpa using hworker
    next => cases hs
  next hcore =>
    obtain rfl := Option.some.inj hs
    simp only [hcore, true_or, iff_true] at hmutex
    exact ⟨by simpa using hmutex, h.worker, rfl, nofun, nofun⟩
  next hcore =>
    obtain rfl := Option.some.inj hs
    simp only [hcore, or_true, iff_true] at hmutex
    refine ⟨by simp, ?_, hfinished.trans (by rw [hcore]; rfl), nofun, nofun⟩
    intro t
    have hworker := h.worker t
    simp only [hmutex, Option.some.injEq, reduceCtorEq, false_iff] at hworker
    simpa using hworker
  next hcore =>
    obtain rfl := Option.some.inj hs
    simp only [hcore, reduceCtorEq, or_self, iff_false] at hmutex
    refine ⟨by simpa using hmutex, ?_, hfinished.trans (by rw [hcore]; rfl), ?_, nofun⟩
    · intro t
      rw [h.worker t, List.getElem?_map, Option.map_eq_some_iff]
      simp only [notify_eq_iff (show Worker.checking ≠ .waiting by decide) (by decide), exists_eq_right]
    · intro _ t
      rw [List.getElem?_map]
      intro hw
      obtain ⟨w, -, hw⟩ := Option.map_eq_some_iff.1 hw
      exact notify_ne_waiting w hw
  next t hcore =>
    simp only [hcore, reduceCtorEq, or_self, iff_false] at hmutex
    have hawake := h.awake (by rw [hcore]; rfl)
    have hjoined : ∀ i < t, s.mThreads[i]? = some .returned := fun i hi =>
      h.joined i (by rwa [hcore])
    split at hs
    next hnone =>
      obtain rfl := Option.some.inj hs
      refine ⟨by simpa using hmutex, h.worker, hfinished.trans (by rw [hcore]; rfl),
        fun _ => hawake, ?_⟩
      intro i hi
      exact hjoined i (Nat.lt_of_lt_of_le hi (List.getElem?_eq_none_iff.1 hnone))
    next hreturned =>
      obtain rfl := Option.some.inj hs
      refine ⟨by simpa using hmutex, h.worker, hfinished.trans (by rw [hcore]; rfl),
        fun _ => hawake, ?_⟩
      intro i hi
      obtain hlt | rfl := Nat.lt_succ_iff_lt_or_eq.1 hi
      · exact hjoined i hlt
      · exact hreturned
    next => cases hs
  next hcore => cases hs

theorem getElem?_set_iff {α : Type} {l : List α} {t : Nat} {a : α} (ht : l[t]? = some a) (b c : α)
    (i : Nat) : (l.set t b)[i]? = some c ↔ (i = t ∧ b = c) ∨ (i ≠ t ∧ l[i]? = some c) := by
  have hlen := (List.getElem?_eq_some_iff.1 ht).1
  rw [List.getElem?_set]
  by_cases hi : t = i
  · simp [← hi, hlen]
  · simp [hi, Ne.symm hi]

/-- A worker that has not returned moves; if it is to wait, nobody has notified the workers yet. -/
theorem Inv.set (h : Inv s) {t : Nat} {w w' : Worker} {owner : Option MutexOwner}
    (ht : s.mThreads[t]? = some w) (hw : w ≠ .returned)
    (hwait : w' = .waiting → s.core.notified = false)
    (hcore : owner = some .core ↔ s.core = .locked ∨ s.core = .flagged)
    (hworker : ∀ i, owner = some (.worker i) ↔ (s.mThreads.set t w')[i]? = some .checking) :
    Inv { s with mThreads := s.mThreads.set t w', mFiberMutex := owner } where
  core := hcore
  worker := hworker
  finished := h.finished
  awake hnotified i hi := by
    obtain ⟨-, rfl⟩ | ⟨-, hi⟩ := (getElem?_set_iff ht _ _ i).1 hi
    · exact Bool.false_ne_true ((hwait rfl).symm.trans hnotified)
    · exact h.awake hnotified i hi
  joined i hi := by
    rw [List.length_set] at hi
    have hreturned := h.joined i hi
    refine (getElem?_set_iff ht _ _ i).2 (.inr ⟨?_, hreturned⟩)
    rintro rfl
    exact hw (Option.some.inj (ht.symm.trans hreturned))

theorem Inv.workerNext (h : Inv s) {t : Nat} (hs : s.workerNext t = some s') : Inv s' := by
  have hlock : ∀ {w}, s.mThreads[t]? = some w → w ≠ .returned → s.mFiberMutex = none →
      Inv { s with mThreads := s.mThreads.set t .checking, mFiberMutex := some (.worker t) } := by
    intro w ht hw hfree
    have hcore := h.core
    rw [hfree] at hcore
    refine h.set ht hw nofun ?_ ?_
    · simpa using hcore
    · intro i
      have hworker := h.worker i
      simp only [hfree, reduceCtorEq, false_iff] at hworker
      simp [getElem?_set_iff ht, hworker, eq_comm]
  rw [Threads.workerNext] at hs
  split at hs
  next ht =>
    split at hs
    next hfree =>
      obtain rfl := Option.some.inj hs
      exact hlock ht (by decide) hfree
    next => cases hs
  next ht =>
    split at hs
    next hfree =>
      obtain rfl := Option.some.inj hs
      exact hlock ht (by decide) hfree
    next => cases hs
  next ht =>
    obtain rfl := Option.some.inj hs
    have howner := (h.worker t).2 ht
    have hcore := h.core
    simp only [howner, Option.some.injEq, reduceCtorEq, false_iff] at hcore
    refine h.set ht (by decide) ?_ (by simpa using hcore) ?_
    · intro hwaiting
      rw [h.finished] at hwaiting
      cases hs : s.core <;> simp_all [CoreThread.finishing, CoreThread.notified]
    · intro i
      have hother : i ≠ t → s.mThreads[i]? ≠ some Worker.checking := by
        intro hi hchecking
        have hsame := howner.symm.trans ((h.worker i).2 hchecking)
        injection hsame with hsame
        injection hsame with hsame
        exact hi hsame.symm
      have hset : (if s.mIsFinished then Worker.returned else .waiting) ≠ .checking := by
        split <;> decide
      simp only [getElem?_set_iff ht, hset, and_false, false_or, reduceCtorEq, false_iff]
      exact fun h => hother h.1 h.2
  next => cases hs

theorem Inv.next (h : Inv s) (hs : s.next m = some s') : Inv s' := by
  cases m with
  | core => exact h.coreNext hs
  | worker t => exact h.workerNext hs
  | spurious t =>
    rw [Threads.next] at hs
    split at hs
    next ht =>
      obtain rfl := Option.some.inj hs
      refine h.set ht (by decide) nofun h.core ?_
      intro i
      rw [h.worker i, getElem?_set_iff ht]
      by_cases hi : i = t
      · simp [hi, ht]
      · simp [hi]
    next => cases hs

/-! ## Coming to rest -/

/-- How many moves a worker can still make after `mIsFinished` has been set. -/
def rankOf : Worker → Nat
  | .waiting => 3
  | .started | .woken => 2
  | .checking => 1
  | .returned => 0

/-- How many moves the core thread can still make. -/
def coreRank (n : Nat) : CoreThread → Nat
  | .flagged => n + 3
  | .unlocked => n + 2
  | .joining t => n - t + 1
  | _ => 0

def rank (s : Threads) : Nat := (s.mThreads.map rankOf).sum + coreRank s.mThreads.length s.core

theorem sum_set {l : List Worker} {t : Nat} {w : Worker} (ht : l[t]? = some w) (w' : Worker) :
    ((l.set t w').map rankOf).sum + rankOf w = (l.map rankOf).sum + rankOf w' := by
  induction l generalizing t with
  | nil => cases ht
  | cons a l ih =>
    cases t with
    | zero =>
      obtain rfl := Option.some.inj ht
      simp only [List.set_cons_zero, List.map_cons, List.sum_cons]
      omega
    | succ t =>
      have hsum := ih ht
      simp only [List.set_cons_succ, List.map_cons, List.sum_cons]
      omega

theorem sum_notify_le (l : List Worker) :
    ((l.map notify).map rankOf).sum ≤ (l.map rankOf).sum := by
  induction l with
  | nil => exact Nat.le_refl 0
  | cons w l ih =>
    have hw : rankOf (notify w) ≤ rankOf w := by cases w <;> decide
    simp only [List.map_cons, List.sum_cons]
    omega

theorem rank_lt_of_set {t : Nat} {w w' : Worker} {owner : Option MutexOwner}
    (ht : s.mThreads[t]? = some w) (hw : rankOf w' < rankOf w) :
    rank { s with mThreads := s.mThreads.set t w', mFiberMutex := owner } < s.rank := by
  have hsum := sum_set ht w'
  simp only [rank, List.length_set]
  omega

theorem coreNext_rank_lt (hfinishing : s.core.finishing = true) (hs : s.coreNext = some s') :
    s'.mIsFinished = s.mIsFinished ∧ s'.rank < s.rank := by
  rw [Threads.coreNext] at hs
  split at hs
  next x hcore =>
    rw [hcore] at hfinishing
    cases hfinishing
  next hcore =>
    rw [hcore] at hfinishing
    cases hfinishing
  next hcore =>
    rw [hcore] at hfinishing
    cases hfinishing
  next hcore =>
    obtain rfl := Option.some.inj hs
    exact ⟨rfl, by simp only [rank, hcore, coreRank]; omega⟩
  next hcore =>
    obtain rfl := Option.some.inj hs
    have hle := sum_notify_le s.mThreads
    refine ⟨rfl, ?_⟩
    simp only [rank, hcore, coreRank, List.length_map]
    omega
  next t hcore =>
    split at hs
    next =>
      obtain rfl := Option.some.inj hs
      exact ⟨rfl, by simp only [rank, hcore, coreRank]; omega⟩
    next ht =>
      obtain rfl := Option.some.inj hs
      have hlt := (List.getElem?_eq_some_iff.1 ht).1
      exact ⟨rfl, by simp only [rank, hcore, coreRank]; omega⟩
    next => cases hs
  next hcore => cases hs

theorem workerNext_rank_lt {t : Nat} (hfinished : s.mIsFinished = true)
    (hs : s.workerNext t = some s') : s'.mIsFinished = s.mIsFinished ∧ s'.rank < s.rank := by
  rw [Threads.workerNext] at hs
  split at hs
  next ht =>
    split at hs
    next =>
      obtain rfl := Option.some.inj hs
      exact ⟨rfl, rank_lt_of_set ht (by decide)⟩
    next => cases hs
  next ht =>
    split at hs
    next =>
      obtain rfl := Option.some.inj hs
      exact ⟨rfl, rank_lt_of_set ht (by decide)⟩
    next => cases hs
  next ht =>
    obtain rfl := Option.some.inj hs
    refine ⟨rfl, rank_lt_of_set ht ?_⟩
    rw [if_pos hfinished]
    decide
  next => cases hs

/-- Once `mIsFinished` has been set, every move brings the end nearer. -/
theorem Inv.rank_lt (h : Inv s) (hfinished : s.mIsFinished = true) (hs : s.next m = some s') :
    s'.mIsFinished = s.mIsFinished ∧ s'.rank < s.rank := by
  cases m with
  | core => exact coreNext_rank_lt (h.finished ▸ hfinished) hs
  | worker t => exact workerNext_rank_lt hfinished hs
  | spurious t =>
    rw [Threads.next] at hs
    split at hs
    next ht =>
      obtain rfl := Option.some.inj hs
      exact ⟨rfl, rank_lt_of_set ht (by decide)⟩
    next => cases hs

/-- Unless the core thread has returned, a thread can go on, without being woken for no reason. -/
theorem Inv.exists_next (h : Inv s) (hreturned : s.core ≠ .returned) :
    s.coreNext ≠ none ∨ ∃ t, s.workerNext t ≠ none := by
  cases hmutex : s.mFiberMutex with
  | some owner =>
    cases owner with
    | core =>
      left
      obtain hcore | hcore := h.core.1 hmutex
      · simp [Threads.coreNext, hcore]
      · simp [Threads.coreNext, hcore]
    | worker t =>
      right
      have ht := (h.worker t).1 hmutex
      exact ⟨t, by simp [Threads.workerNext, ht]⟩
  | none =>
    have hchecking : ∀ t : Nat, s.mThreads[t]? ≠ some Worker.checking := by
      intro t ht
      have howner := (h.worker t).2 ht
      rw [hmutex] at howner
      cases howner
    by_cases hlock : ∃ t : Nat, s.mThreads[t]? = some Worker.started ∨ s.mThreads[t]? = some Worker.woken
    · right
      obtain ⟨t, ht | ht⟩ := hlock
      · exact ⟨t, by simp [Threads.workerNext, ht, hmutex]⟩
      · exact ⟨t, by simp [Threads.workerNext, ht, hmutex]⟩
    · left
      cases hcore : s.core with
      | setup x =>
        rw [Threads.coreNext, hcore]
        dsimp only
        split <;> exact Option.some_ne_none _
      | simulating => simp [Threads.coreNext, hcore, hmutex]
      | locked => simp [Threads.coreNext, hcore]
      | flagged => simp [Threads.coreNext, hcore]
      | unlocked => simp [Threads.coreNext, hcore]
      | returned => exact (hreturned hcore).elim
      | joining t =>
        -- nobody waits any more, so the worker that is joined has returned
        have hawake := h.awake (by rw [hcore]; rfl) t
        rw [Threads.coreNext, hcore]
        dsimp only
        cases ht : s.mThreads[t]? with
        | none => exact Option.some_ne_none _
        | some w =>
          cases w with
          | started => exact (hlock ⟨t, .inl ht⟩).elim
          | woken => exact (hlock ⟨t, .inr ht⟩).elim
          | checking => exact (hchecking t ht).elim
          | waiting => exact (hawake ht).elim
          | returned => exact Option.some_ne_none _

/-! ## The end -/

variable {s₀ : Threads} {hardware_concurrency : UInt32}

theorem setup_eq_ok (hs₀ : setup hardware_concurrency = .ok s₀) :
    s₀ = Threads.mk hardware_concurrency (.setup 1) [] none false := by
  rw [setup] at hs₀
  split at hs₀
  next => cases hs₀
  next => exact (Except.ok.inj hs₀).symm

theorem inv_run (hs₀ : setup hardware_concurrency = .ok s₀) {moves : List Move}
    (hs : run moves s₀ = some s) : Inv s :=
  Moves.invariant Inv.next (setup_eq_ok hs₀ ▸ inv_init hardware_concurrency) hs

theorem Inv.all_returned (h : Inv s) (hreturned : s.core = .returned) :
    ∀ w ∈ s.mThreads, w = .returned := by
  intro w hw
  obtain ⟨t, ht, rfl⟩ := List.mem_iff_getElem.1 hw
  have hjoined := h.joined t (by rwa [hreturned])
  rw [List.getElem?_eq_getElem ht] at hjoined
  exact Option.some.inj hjoined

theorem sum_le (l : List Worker) : (l.map rankOf).sum ≤ 3 * l.length := by
  induction l with
  | nil => exact Nat.le_refl 0
  | cons w l ih =>
    have hw : rankOf w ≤ 3 := by cases w <;> decide
    simp only [List.map_cons, List.sum_cons, List.length_cons]
    omega

theorem rank_le (s : Threads) : s.rank ≤ 4 * s.mThreads.length + 3 := by
  have hsum := sum_le s.mThreads
  have hcore : coreRank s.mThreads.length s.core ≤ s.mThreads.length + 3 := by
    cases s.core <;> simp only [coreRank] <;> omega
  rw [rank]
  omega

theorem Inv.length_le (h : Inv s) (hfinished : s.mIsFinished = true) {moves : List Move}
    (hs : run moves s = some s') : moves.length ≤ 4 * s.mThreads.length + 3 := by
  have hstep : ∀ {s m s'}, Inv s ∧ s.mIsFinished = true → Threads.next s m = some s' →
      (Inv s' ∧ s'.mIsFinished = true) ∧ s'.rank < s.rank := by
    intro s m s' h hs
    obtain ⟨hfinished, hlt⟩ := h.1.rank_lt h.2 hs
    exact ⟨⟨h.1.next hs, hfinished.trans h.2⟩, hlt⟩
  have hle := Moves.length_add_rank_le hstep ⟨h, hfinished⟩ hs
  have hrank := rank_le s
  omega

/-- The threads never deadlock: until the core thread has returned, at which time every worker has, one of
them can go on without being woken for no reason. Once `mIsFinished` has been set, they make a bounded
number of moves, whichever of them are scheduled and however often a worker is woken for no reason. -/
theorem all_join (hs₀ : setup hardware_concurrency = .ok s₀) {moves : List Move}
    (hs : run moves s₀ = some s) :
    (s.core ≠ .returned → s.coreNext ≠ none ∨ ∃ t, s.workerNext t ≠ none) ∧
    (s.core = .returned → ∀ w ∈ s.mThreads, w = .returned) ∧
    (s.mIsFinished = true → ∀ moves' s', run moves' s = some s' →
      moves'.length ≤ 4 * s.mThreads.length + 3) := by
  have h := inv_run hs₀ hs
  refine ⟨h.exists_next, h.all_returned, ?_⟩
  intro hfinished moves' s' hs'
  exact h.length_le hfinished hs'

/-- One worker waits and the other is still to look at `mIsFinished` when it is set. -/
theorem all_join_two :
    let s : Threads := ⟨4, .unlocked, [.waiting, .started], none, true⟩
    setup 4 = .ok ⟨4, .setup 1, [], none, false⟩ ∧
    (s.core ≠ .returned → s.coreNext ≠ none ∨ ∃ t, s.workerNext t ≠ none) ∧
    (s.core = .returned → ∀ w ∈ s.mThreads, w = .returned) ∧
    (s.mIsFinished = true → ∀ moves' s', run moves' s = some s' →
      moves'.length ≤ 4 * s.mThreads.length + 3) :=
  ⟨rfl, all_join (show setup 4 = .ok _ from rfl)
    (show run [.core, .core, .core, .worker 0, .worker 0, .core, .core, .core] _ = some _ from rfl)⟩

/-! ## The number of workers -/

/-- The number that the loop of `setup` compares with. -/
def limit (hardware_concurrency : UInt32) : UInt32 := UInt32.ofInt (workerThreads hardware_concurrency)

theorem toNat_limit (hsmall : hardware_concurrency.toNat < 2 ^ 31) (htwo : 2 ≤ hardware_concurrency.toNat) :
    (limit hardware_concurrency).toNat = min (hardware_concurrency.toNat - 2) 30 := by
  have hint : hardware_concurrency.toBitVec.toInt = hardware_concurrency.toNat :=
    BitVec.toInt_eq_toNat_of_lt (by simpa using by omega)
  have hworkers : workerThreads hardware_concurrency =
      ((min (hardware_concurrency.toNat - 2) 30 : Nat) : Int) := by
    rw [workerThreads, hint]
    omega
  have hle := Nat.min_le_right (hardware_concurrency.toNat - 2) 30
  rw [limit, hworkers, UInt32.ofInt, UInt32.toNat_ofNat']
  omega

/-- While the workers are started, the counter is one ahead of them; afterwards they are as many as the
limit says. -/
structure Counted (hardware_concurrency : UInt32) (s : Threads) : Prop where
  same : s.hardware_concurrency = hardware_concurrency
  during : ∀ x, s.core = .setup x →
    x.toNat = s.mThreads.length + 1 ∧ s.mThreads.length ≤ (limit hardware_concurrency).toNat
  after : (∀ x, s.core ≠ .setup x) → s.mThreads.length = (limit hardware_concurrency).toNat

/-- Outside the loop of `setup` no worker is started. -/
theorem length_coreNext (hcore : ∀ x, s.core ≠ .setup x) (hs : s.coreNext = some s') :
    s'.hardware_concurrency = s.hardware_concurrency ∧ (∀ x, s'.core ≠ .setup x) ∧
      s'.mThreads.length = s.mThreads.length := by
  rw [coreNext] at hs
  split at hs
  next x hx => exact (hcore x hx).elim
  next =>
    split at hs
    next =>
      cases hs
      exact ⟨rfl, nofun, rfl⟩
    next => cases hs
  next =>
    cases hs
    exact ⟨rfl, nofun, rfl⟩
  next =>
    cases hs
    exact ⟨rfl, nofun, rfl⟩
  next =>
    cases hs
    exact ⟨rfl, nofun, List.length_map _⟩
  next =>
    split at hs
    next =>
      cases hs
      exact ⟨rfl, nofun, rfl⟩
    next =>
      cases hs
      exact ⟨rfl, nofun, rfl⟩
    next => cases hs
  next => cases hs

/-- What a worker does neither starts a worker nor concerns the core thread. -/
theorem length_workerNext {t : Nat} (hs : s.workerNext t = some s') :
    s'.hardware_concurrency = s.hardware_concurrency ∧ s'.core = s.core ∧
      s'.mThreads.length = s.mThreads.length := by
  rw [workerNext] at hs
  split at hs
  next =>
    split at hs
    next =>
      cases hs
      exact ⟨rfl, rfl, List.length_set⟩
    next => cases hs
  next =>
    split at hs
    next =>
      cases hs
      exact ⟨rfl, rfl, List.length_set⟩
    next => cases hs
  next =>
    cases hs
    exact ⟨rfl, rfl, List.length_set⟩
  next => cases hs

theorem length_next (hm : m ≠ .core) (hs : s.next m = some s') :
    s'.hardware_concurrency = s.hardware_concurrency ∧ s'.core = s.core ∧
      s'.mThreads.length = s.mThreads.length := by
  cases m with
  | core => exact (hm rfl).elim
  | worker t => exact length_workerNext hs
  | spurious t =>
    rw [next] at hs
    split at hs
    next =>
      cases hs
      exact ⟨rfl, rfl, List.length_set⟩
    next => cases hs

theorem toNat_add_one {x : UInt32} {n : Nat} (hx : x.toNat = n) (hn : n + 1 < 2 ^ 32) :
    (x + 1).toNat = n + 1 := by
  rw [UInt32.toNat_add, hx, show (1 : UInt32).toNat = 1 from rfl]
  omega

theorem coreNext_setup {x : UInt32} (hcore : s.core = .setup x) :
    s.coreNext = if x ≤ limit s.hardware_concurrency then
      some { s with core := .setup (x + 1), mThreads := s.mThreads ++ [.started] }
    else
      some { s with core := .simulating } := by
  rw [Threads.coreNext, hcore]
  rfl

theorem Counted.coreNext (hlimit : (limit hardware_concurrency).toNat + 2 < 2 ^ 32)
    (h : Counted hardware_concurrency s) (hs : s.coreNext = some s') :
    Counted hardware_concurrency s' := by
  by_cases hcore : ∃ x, s.core = .setup x
  · obtain ⟨x, hcore⟩ := hcore
    obtain ⟨hx, hle⟩ := h.during x hcore
    rw [coreNext_setup hcore, h.same] at hs
    split at hs
    next hxle =>
      cases hs
      have hlt := UInt32.le_iff_toNat_le.1 hxle
      refine ⟨rfl, ?_, fun hsetup => (hsetup _ rfl).elim⟩
      intro y hy
      cases hy
      rw [List.length_append, List.length_singleton]
      exact ⟨toNat_add_one hx (by omega), by omega⟩
    next hxle =>
      cases hs
      have hlt := mt UInt32.le_iff_toNat_le.2 hxle
      have hlen : s.mThreads.length = (limit hardware_concurrency).toNat := by omega
      exact ⟨rfl, nofun, fun _ => hlen⟩
  · have hcore := not_exists.1 hcore
    obtain ⟨hsame, hcore', hlen⟩ := length_coreNext hcore hs
    exact ⟨hsame.trans h.same, fun x hx => (hcore' x hx).elim, fun _ => hlen.trans (h.after hcore)⟩

theorem Counted.next (hlimit : (limit hardware_concurrency).toNat + 2 < 2 ^ 32)
    (h : Counted hardware_concurrency s) (hs : s.next m = some s') :
    Counted hardware_concurrency s' := by
  by_cases hm : m = .core
  · subst hm
    exact h.coreNext hlimit hs
  · obtain ⟨hsame, hcore, hlen⟩ := length_next hm hs
    exact ⟨hsame.trans h.same, by rw [hcore, hlen]; exact h.during, by rw [hcore, hlen]; exact h.after⟩

/-- The loop of `setup` ends when it has started the workers that are missing. -/
theorem run_setup (hlimit : (limit hardware_concurrency).toNat + 2 < 2 ^ 32) {n : Nat}
    {x : UInt32} (h : Counted hardware_concurrency s) (hcore : s.core = .setup x)
    (hn : s.mThreads.length + n = (limit hardware_concurrency).toNat) :
    ∃ moves s', run moves s = some s' ∧ s'.core = .simulating := by
  induction n generalizing s x with
  | zero =>
    obtain ⟨hx, -⟩ := h.during x hcore
    have hnext : s.next .core = _ := coreNext_setup hcore
    rw [h.same, if_neg (mt UInt32.le_iff_toNat_le.1 (by omega))] at hnext
    exact ⟨[.core], _, Moves.run_cons_eq_some.2 ⟨_, hnext, rfl⟩, rfl⟩
  | succ n ih =>
    obtain ⟨hx, -⟩ := h.during x hcore
    have hnext : s.next .core = _ := coreNext_setup hcore
    rw [h.same, if_pos (UInt32.le_iff_toNat_le.2 (by omega))] at hnext
    obtain ⟨moves, s', hrun, hs'⟩ := ih (h.next hlimit hnext) rfl
      (by rw [List.length_append, List.length_singleton]; omega)
    exact ⟨.core :: moves, s', Moves.run_cons_eq_some.2 ⟨_, hnext, hrun⟩, hs'⟩

theorem counted_init (hardware_concurrency : UInt32) :
    Counted hardware_concurrency (Threads.mk hardware_concurrency (.setup 1) [] none false) where
  same := rfl
  during x hx := by
    cases hx
    exact ⟨rfl, Nat.zero_le _⟩
  after h := (h 1 rfl).elim

/-- With one core the loop compares with the largest number there is. -/
theorem setup_next (h : s.hardware_concurrency = 1 ∧ ∃ x, s.core = .setup x) (hs : s.next m = some s') :
    s'.hardware_concurrency = 1 ∧ ∃ x, s'.core = .setup x := by
  by_cases hm : m = .core
  · subst hm
    obtain ⟨hsame, x, hcore⟩ := h
    rw [next, coreNext_setup hcore, hsame,
      if_pos (UInt32.le_iff_toNat_le.2 (Nat.le_of_lt_succ x.toNat_lt))] at hs
    cases hs
    exact ⟨rfl, _, rfl⟩
  · obtain ⟨hsame, hcore, -⟩ := length_next hm hs
    rw [hsame, hcore]
    exact h

/-- On every machine with at least two cores `setup` starts two workers fewer than there are cores, but at
most thirty, before the simulation. On a machine with one core it never comes to the simulation. -/
theorem setup_starts (hsmall : hardware_concurrency.toNat < 2 ^ 31)
    (hs₀ : setup hardware_concurrency = .ok s₀) :
    ((∃ moves s, run moves s₀ = some s ∧ s.core = .simulating) ↔ hardware_concurrency ≠ 1) ∧
    ∀ moves s, run moves s₀ = some s → (∀ x, s.core ≠ .setup x) →
      s.mThreads.length = min (hardware_concurrency.toNat - 2) 30 := by
  obtain rfl := setup_eq_ok hs₀
  by_cases hone : hardware_concurrency = 1
  · subst hone
    have hsetup : ∀ moves s, run moves ⟨1, .setup 1, [], none, false⟩ = some s → ∃ x, s.core = .setup x :=
      fun moves s hs => (Moves.invariant setup_next ⟨rfl, 1, rfl⟩ hs).2
    refine ⟨iff_of_false ?_ (fun h => h rfl), ?_⟩
    · rintro ⟨moves, s, hs, hcore⟩
      obtain ⟨x, hx⟩ := hsetup moves s hs
      rw [hcore] at hx
      cases hx
    · intro moves s hs hcore
      obtain ⟨x, hx⟩ := hsetup moves s hs
      exact (hcore x hx).elim
  · have hzero : hardware_concurrency.toNat ≠ 0 := by
      intro hzero
      obtain rfl : hardware_concurrency = 0 := UInt32.toNat_inj.1 hzero
      cases hs₀
    have htwo : 2 ≤ hardware_concurrency.toNat := by
      have hne : hardware_concurrency.toNat ≠ 1 := fun h => hone (UInt32.toNat_inj.1 h)
      omega
    have hlimit := toNat_limit hsmall htwo
    have hroom : (limit hardware_concurrency).toNat + 2 < 2 ^ 32 := by omega
    have hinit := counted_init hardware_concurrency
    refine ⟨iff_of_true (run_setup hroom hinit rfl (Nat.zero_add _)) hone, ?_⟩
    intro moves s hs hcore
    exact ((Moves.invariant (Counted.next hroom) hinit hs).after hcore).trans hlimit

/-- With four cores the simulation has two workers. -/
theorem setup_starts_four :
    (∃ moves s, run moves ⟨4, .setup 1, [], none, false⟩ = some s ∧ s.core = .simulating) ∧
    ∀ moves s, run moves ⟨4, .setup 1, [], none, false⟩ = some s → (∀ x, s.core ≠ .setup x) →
      s.mThreads.length = 2 :=
  have h := setup_starts (show (4 : UInt32).toNat < 2 ^ 31 by decide)
    (show setup 4 = .ok ⟨4, .setup 1, [], none, false⟩ from rfl)
  ⟨h.1.2 (by decide), h.2⟩

end Threads

end Cosidia
