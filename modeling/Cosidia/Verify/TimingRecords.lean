import Cosidia.Output.SqliteBackend
import Cosidia.Theory.Reachable
import Mathlib.Data.List.Perm.Basic

/-!
# Which timings reach the database, and whether the destructor returns

`Makes` lists what the moves of the threads do. The recorded timings are always in the table, in one
of the two queues or with a call in flight (`held`), so that the rows lost are those in `mQueue` when
the consumer leaves its loop; and the consumer oversleeps the destructor's notification exactly if it
is sent between its test of the predicate and its falling asleep.
-/

namespace Cosidia

/-- The timing that a call has not put into the queue yet. -/
def Recorder.task : Recorder → Option Timing
  | .lock task => some task
  | .notify => none

namespace SqliteBackend

/-- What each move does. -/
inductive Makes (grow : Nat → Nat) : SqliteBackend → Move → SqliteBackend → Prop
  | recordTiming {s} (task) :
    Makes grow s (.recordTiming task) { s with recorders := s.recorders ++ [.lock task] }
  | enqueue {s i task recorders} : s.recorders[i]? = some (.lock task) →
    s.consumer.holdsMutex = false →
    recorders = s.recorders.set i .notify ∨ recorders = s.recorders.eraseIdx i →
    Makes grow s (.enqueue i) { s with mQueue := emplaceBack grow s.mQueue task, recorders }
  | notifyOne {s i} : s.recorders[i]? = some .notify →
    Makes grow s (.notifyOne i)
      { s with consumer := s.consumer.notified, recorders := s.recorders.eraseIdx i }
  | goOn {s} : s.consumer = .test → s.mConsumerRunning = true →
    Makes grow s .consume { s with consumer := .lock }
  | leave {s} : s.consumer = .test → s.mConsumerRunning = false →
    Makes grow s .consume { s with consumer := .exited }
  | lock {s} : s.consumer = .lock ∨ s.consumer = .awake →
    Makes grow s .consume { s with consumer := .check }
  | ready {s} : s.consumer = .check → s.mQueue.tasks ≠ [] ∨ s.mConsumerRunning = false →
    Makes grow s .consume { s with consumer := .swap }
  | notReady {s} : s.consumer = .check → s.mQueue.tasks = [] → s.mConsumerRunning = true →
    Makes grow s .consume { s with consumer := .fallAsleep }
  | fallAsleep {s} : s.consumer = .fallAsleep →
    Makes grow s .consume { s with consumer := .asleep }
  | swap {s} : s.consumer = .swap →
    Makes grow s .consume { s with queue := s.mQueue, mQueue := s.queue, consumer := .insert }
  | insert {s} : s.consumer = .insert →
    Makes grow s .consume { s with
      timing := s.queue.tasks.foldl insertRow s.timing
      queue := { s.queue with tasks := [] }
      consumer := .test }
  | wakeUp {s} : s.consumer = .asleep → Makes grow s .wakeUp { s with consumer := .awake }
  | store {s} : s.destructor = .before →
    Makes grow s .destroy { s with mConsumerRunning := false, destructor := .stored }
  | notifyAll {s} : s.destructor = .stored →
    Makes grow s .destroy { s with consumer := s.consumer.notified, destructor := .joining }
  | join {s} : s.destructor = .joining → s.consumer = .exited →
    Makes grow s .destroy { s with destructor := .returned }

variable {grow : Nat → Nat} {s s' : SqliteBackend} {m : Move}

theorem makes_consume (h : s.consume = some s') : Makes grow s .consume s' := by
  simp only [consume] at h
  cases hc : s.consumer with
  | test =>
    simp only [hc, Option.some.injEq] at h
    subst h
    split
    · next hr => exact .goOn hc hr
    · next hr => exact .leave hc (Bool.not_eq_true _ ▸ hr)
  | lock =>
    simp only [hc, Option.some.injEq] at h
    subst h
    exact .lock (.inl hc)
  | check =>
    simp only [hc, Option.some.injEq] at h
    subst h
    by_cases hq : s.mQueue.tasks = []
    · cases hr : s.mConsumerRunning with
      | false => simpa [hq, hr] using Makes.ready hc (.inr hr)
      | true => simpa [hq, hr] using Makes.notReady hc hq hr
    · have hpos : 0 < s.mQueue.tasks.length := List.length_pos_iff.2 hq
      simpa [hpos] using Makes.ready hc (.inl hq)
  | fallAsleep =>
    simp only [hc, Option.some.injEq] at h
    subst h
    exact .fallAsleep hc
  | asleep | exited => simp [hc] at h
  | awake =>
    simp only [hc, Option.some.injEq] at h
    subst h
    exact .lock (.inr hc)
  | swap =>
    simp only [hc, Option.some.injEq] at h
    subst h
    exact .swap hc
  | insert =>
    simp only [hc, Option.some.injEq] at h
    subst h
    exact .insert hc

theorem makes_destroy (h : s.destroy = some s') : Makes grow s .destroy s' := by
  simp only [destroy] at h
  cases hd : s.destructor with
  | before =>
    simp only [hd, Option.some.injEq] at h
    subst h
    exact .store hd
  | stored =>
    simp only [hd, Option.some.injEq] at h
    subst h
    exact .notifyAll hd
  | joining =>
    simp only [hd] at h
    split at h
    · next hc =>
      cases h
      exact .join hd hc
    · cases h
  | returned => simp [hd] at h

theorem makes_of_step (h : step grow s m = some s') : Makes grow s m s' := by
  cases m with
  | recordTiming task =>
    cases h
    exact .recordTiming task
  | enqueue i =>
    simp only [step] at h
    split at h
    · next task hi =>
      cases hm : s.consumer.holdsMutex with
      | true => simp [hm] at h
      | false =>
        simp only [hm, Bool.false_eq_true, if_false, Option.some.injEq] at h
        subst h
        refine .enqueue hi hm ?_
        split
        · exact .inl rfl
        · exact .inr rfl
    · cases h
  | notifyOne i =>
    simp only [step] at h
    split at h
    · next hi =>
      cases h
      exact .notifyOne hi
    · cases h
  | consume => exact makes_consume h
  | wakeUp =>
    simp only [step] at h
    split at h
    · next hc =>
      cases h
      exact .wakeUp hc
    · cases h
  | destroy => exact makes_destroy h

/-! ## Where the threads are -/

/-- What the threads know of each other. -/
structure Inv (s : SqliteBackend) : Prop where
  running : s.mConsumerRunning = true ↔ s.destructor = .before
  exited : s.consumer = .exited → s.mConsumerRunning = false
  returned : s.destructor = .returned → s.consumer = .exited
  /-- Only between swapping and inserting does the consumer have tasks of its own. -/
  queue : s.consumer ≠ .insert → s.queue.tasks = []

theorem inv_init : Inv {} :=
  ⟨iff_of_true rfl rfl, by simp, by simp, fun _ => rfl⟩

theorem notified_cases (c : Consumer) : c.notified = c ∨ c = .asleep ∧ c.notified = .awake := by
  cases c <;> simp [Consumer.notified]

namespace Inv

/-- The consumer moves on. -/
theorem moveOn (h : Inv s) {c : Consumer} (hold : s.consumer ≠ .exited)
    (hnew : c = .exited → s.mConsumerRunning = false) (hqueue : c ≠ .insert → s.queue.tasks = []) :
    Inv { s with consumer := c } :=
  ⟨h.running, hnew, fun hd => absurd (h.returned hd) hold, hqueue⟩

theorem notify (h : Inv s) : Inv { s with consumer := s.consumer.notified } := by
  rcases notified_cases s.consumer with hc | ⟨hc, hc'⟩
  · rw [hc]
    exact h
  · rw [hc']
    exact h.moveOn (by simp [hc]) (by simp) fun _ => h.queue (by simp [hc])

theorem step (h : Inv s) (hm : Makes grow s m s') : Inv s' := by
  cases hm with
  | recordTiming task => exact { h with }
  | enqueue hi hmutex hrec => exact { h with }
  | notifyOne hi => exact { h.notify with }
  | goOn hc hr => exact h.moveOn (by simp [hc]) (by simp) fun _ => h.queue (by simp [hc])
  | leave hc hr => exact h.moveOn (by simp [hc]) (fun _ => hr) fun _ => h.queue (by simp [hc])
  | lock hc =>
    refine h.moveOn ?_ (by simp) fun _ => h.queue ?_
    · rcases hc with hc | hc <;> simp [hc]
    · rcases hc with hc | hc <;> simp [hc]
  | ready hc hr => exact h.moveOn (by simp [hc]) (by simp) fun _ => h.queue (by simp [hc])
  | notReady hc hq hr => exact h.moveOn (by simp [hc]) (by simp) fun _ => h.queue (by simp [hc])
  | fallAsleep hc => exact h.moveOn (by simp [hc]) (by simp) fun _ => h.queue (by simp [hc])
  | swap hc =>
    have hc' : s.consumer ≠ .exited := by simp [hc]
    exact ⟨h.running, by simp, fun hd => absurd (h.returned hd) hc', fun hi => absurd rfl hi⟩
  | insert hc =>
    have hc' : s.consumer ≠ .exited := by simp [hc]
    exact ⟨h.running, by simp, fun hd => absurd (h.returned hd) hc', fun _ => rfl⟩
  | wakeUp hc => exact h.moveOn (by simp [hc]) (by simp) fun _ => h.queue (by simp [hc])
  | store hd => exact ⟨by simp, fun _ => rfl, by simp, h.queue⟩
  | notifyAll hd =>
    have h' := h.notify
    exact ⟨by simp [h'.running, hd], h'.exited, by simp, h'.queue⟩
  | join hd hc => exact ⟨by simp [h.running, hd], h.exited, fun _ => hc, h.queue⟩

end Inv

/-! ## Where the timings are -/

/-- The timing that a move records. -/
def submitted (e : SqliteBackend × Move) : Option Timing :=
  match e.2 with
  | .recordTiming task => some task
  | _ => none

/-- All timings, in the table, in the queues and with the calls. -/
def held (s : SqliteBackend) : List Timing :=
  s.timing.map (·.timing) ++ s.queue.tasks ++ s.mQueue.tasks ++ s.recorders.filterMap Recorder.task

theorem insertRows_timing (rows : List TimingRow) (tasks : List Timing) :
    (tasks.foldl insertRow rows).map (·.timing) = rows.map (·.timing) ++ tasks := by
  induction tasks generalizing rows with
  | nil => exact (List.append_nil _).symm
  | cons task tasks ih => simp [ih, insertRow]

/-- What the call with number `i` holds, and what the others do. -/
theorem tasks_eraseIdx_perm {l : List Recorder} {i : Nat} {r : Recorder} (h : l[i]? = some r) :
    (l.filterMap Recorder.task).Perm
      (r.task.toList ++ (l.eraseIdx i).filterMap Recorder.task) := by
  obtain ⟨hi, rfl⟩ := List.getElem?_eq_some_iff.1 h
  have := ((List.getElem_cons_eraseIdx_perm hi).filterMap Recorder.task).symm
  rw [List.filterMap_cons] at this
  cases hr : (l[i]).task with
  | none => simpa [hr] using this
  | some task => simpa [hr] using this

theorem tasks_set_perm {l : List Recorder} {i : Nat} (hi : i < l.length) :
    ((l.set i .notify).filterMap Recorder.task).Perm ((l.eraseIdx i).filterMap Recorder.task) :=
  ((List.set_perm_cons_eraseIdx hi Recorder.notify).filterMap Recorder.task).trans (.refl _)

/-- A move loses no timing and makes none but the one it records. -/
theorem held_step (h : Inv s) (hm : Makes grow s m s') :
    (held s').Perm (held s ++ (submitted (s, m)).toList) := by
  cases hm with
  | recordTiming task => simp [held, submitted, Recorder.task]
  | @enqueue i task recorders hi hmutex hrec =>
    have hrest : (recorders.filterMap Recorder.task).Perm
        ((s.recorders.eraseIdx i).filterMap Recorder.task) := by
      rcases hrec with rfl | rfl
      · exact tasks_set_perm (List.getElem?_eq_some_iff.1 hi).1
      · exact .refl _
    have hold := tasks_eraseIdx_perm hi
    have htask : s.mQueue.tasks ++ [task] ++ recorders.filterMap Recorder.task =
        s.mQueue.tasks ++ (task :: recorders.filterMap Recorder.task) := by simp
    simp only [held, submitted, emplaceBack, Option.toList_none, List.append_nil, List.append_assoc]
      at htask ⊢
    rw [htask]
    refine .append_left _ (.append_left _ (.append_left _ ?_))
    exact (hrest.cons task).trans hold.symm
  | notifyOne hi =>
    have hrest := (tasks_eraseIdx_perm hi).symm.append_left
      (s.timing.map (·.timing) ++ s.queue.tasks ++ s.mQueue.tasks)
    rw [submitted, Option.toList_none, List.append_nil]
    exact hrest
  | swap hc =>
    have hq := h.queue (by simp [hc])
    simp [held, submitted, hq]
  | insert hc => simp [held, submitted, insertRows_timing]
  | goOn | leave | lock | ready | notReady | fallAsleep | wakeUp | store | notifyAll | join =>
    simp [held, submitted]

/-! ## The end of the consumer -/

/-- If the consumer leaves its loop with this move, nothing is left in the queue. -/
def LeavesDrained (s : SqliteBackend) (m : Move) : Prop :=
  m = .consume → s.consumer = .test → s.mConsumerRunning = false → s.mQueue.tasks = []

/-- The runs in which no call of `recordTiming` overlaps with the destruction. -/
abbrev OrderlyTrail (grow : Nat → Nat) : List (SqliteBackend × Move) → SqliteBackend → Prop :=
  Trail (fun s m s' => orderlyStep grow s m = some s') {}

theorem orderlyStep_eq_some : orderlyStep grow s m = some s' ↔ s.Orderly m ∧ step grow s m = some s' := by
  simp only [orderlyStep]
  split
  · next ho => exact (and_iff_right ho).symm
  · next ho => exact iff_of_false (by simp) fun h => ho h.1

/-- No call is in flight while the backend is destroyed. -/
def Idle (s : SqliteBackend) : Prop := s.destructor ≠ .before → s.recorders = []

theorem idle_step (h : Idle s) (ho : s.Orderly m) (hm : Makes grow s m s') : Idle s' := by
  cases hm with
  | recordTiming task => exact fun hd => absurd ho hd
  | @enqueue i task recorders hi hmutex hrec =>
    intro hd
    rw [h hd] at hi
    cases hi
  | notifyOne hi =>
    intro hd
    rw [h hd] at hi
    cases hi
  | store hd => exact fun _ => ho
  | notifyAll hd => exact fun _ => ho
  | join hd hc => exact fun _ => ho
  | goOn | leave | lock | ready | notReady | fallAsleep | swap | insert | wakeUp => exact h

/-- Once the consumer has left, the queue stays as it is. -/
theorem exited_step (h : Inv s) (hidle : Idle s) (ho : s.Orderly m) (hm : Makes grow s m s')
    (hc : s.consumer = .exited) :
    s'.consumer = .exited ∧ s'.mQueue = s.mQueue ∧ LeavesDrained s m := by
  have hdrained : LeavesDrained s m := fun _ ht => by
    rw [hc] at ht
    cases ht
  have hd : s.destructor ≠ .before := fun hd => by
    have := h.exited hc
    rw [h.running.2 hd] at this
    cases this
  cases hm with
  | recordTiming task => exact absurd ho hd
  | enqueue hi hmutex hrec =>
    rw [hidle hd] at hi
    cases hi
  | notifyOne hi =>
    rw [hidle hd] at hi
    cases hi
  | store hd' => exact absurd hd' hd
  | notifyAll hd' => exact ⟨by simp [hc, Consumer.notified], rfl, hdrained⟩
  | join hd' hc' => exact ⟨hc, rfl, hdrained⟩
  | lock hc' => rcases hc' with hc' | hc' <;> simp [hc] at hc'
  | goOn hc' | leave hc' | ready hc' | notReady hc' | fallAsleep hc' | swap hc' | insert hc'
  | wakeUp hc' => simp [hc] at hc'

/-- While it has not left, it either leaves with the queue as it is, or stays. -/
theorem notExited_step (hm : Makes grow s m s') (hc : s.consumer ≠ .exited) :
    (s'.consumer = .exited ∧ s'.mQueue = s.mQueue ∧
        (LeavesDrained s m ↔ s.mQueue.tasks = [])) ∨
      s'.consumer ≠ .exited ∧ LeavesDrained s m := by
  have hnotified : s.consumer.notified ≠ .exited := by
    rcases notified_cases s.consumer with he | ⟨-, he⟩
    · rwa [he]
    · simp [he]
  cases hm with
  | leave ht hr => exact .inl ⟨rfl, rfl, fun h => h rfl ht hr, fun h _ _ _ => h⟩
  | goOn ht hr => exact .inr ⟨by simp, fun _ _ hr' => by simp [hr] at hr'⟩
  | lock ht =>
    refine .inr ⟨by simp, fun _ ht' => ?_⟩
    rcases ht with ht | ht <;> simp [ht] at ht'
  | ready ht | notReady ht | fallAsleep ht | swap ht | insert ht =>
    exact .inr ⟨by simp, fun _ ht' => by simp [ht] at ht'⟩
  | wakeUp ht => exact .inr ⟨by simp, fun hm => by simp at hm⟩
  | notifyOne hi => exact .inr ⟨hnotified, fun hm => by simp at hm⟩
  | notifyAll hd => exact .inr ⟨hnotified, fun hm => by simp at hm⟩
  | recordTiming | enqueue | store | join => exact .inr ⟨hc, fun hm => by simp at hm⟩

/-- What holds after a run in which no call overlaps with the destruction. -/
structure Run (t : List (SqliteBackend × Move)) (s : SqliteBackend) : Prop where
  inv : Inv s
  idle : Idle s
  held : (held s).Perm (t.filterMap submitted)
  exited : s.consumer = .exited → (s.mQueue.tasks = [] ↔ ∀ e ∈ t, LeavesDrained e.1 e.2)
  working : s.consumer ≠ .exited → ∀ e ∈ t, LeavesDrained e.1 e.2

theorem run_of_trail {t : List (SqliteBackend × Move)} (h : OrderlyTrail grow t s) :
    Run t s := by
  induction h with
  | nil => exact ⟨inv_init, by simp [Idle], .refl _, by simp, fun _ => List.forall_mem_nil _⟩
  | @snoc t s s' m ht hs ih =>
    obtain ⟨ho, hstep⟩ := orderlyStep_eq_some.1 hs
    have hm := makes_of_step hstep
    have hheld : (SqliteBackend.held s').Perm ((t ++ [(s, m)]).filterMap submitted) := by
      apply (held_step ih.inv hm).trans
      rw [List.filterMap_append]
      apply ih.held.append
      cases hsub : submitted (s, m) <;> simp [hsub]
    refine ⟨ih.inv.step hm, idle_step ih.idle ho hm, hheld, fun hc' => ?_, fun hc' => ?_⟩
    · rw [List.forall_mem_append, List.forall_mem_singleton]
      rcases eq_or_ne s.consumer .exited with hc | hc
      · obtain ⟨-, hqueue, hdrained⟩ := exited_step ih.inv ih.idle ho hm hc
        rw [hqueue, ih.exited hc, and_iff_left hdrained]
      · rcases notExited_step hm hc with ⟨-, hqueue, hdrained⟩ | ⟨hne, -⟩
        · rw [hqueue, ← hdrained, and_iff_right (ih.working hc)]
        · exact absurd hc' hne
    · rw [List.forall_mem_append, List.forall_mem_singleton]
      rcases eq_or_ne s.consumer .exited with hc | hc
      · exact absurd (exited_step ih.inv ih.idle ho hm hc).1 hc'
      · rcases notExited_step hm hc with ⟨he, -⟩ | ⟨-, hdrained⟩
        · exact absurd he hc'
        · exact ⟨ih.working hc, hdrained⟩

/-- When the destructor has returned, every recorded timing has been inserted exactly once exactly if
the consumer has left its loop with an empty queue. -/
theorem inserted_iff {t : List (SqliteBackend × Move)} (h : OrderlyTrail grow t s)
    (hreturned : s.destructor = .returned) :
    (s.timing.map (·.timing)).Perm (t.filterMap submitted) ↔ ∀ e ∈ t, LeavesDrained e.1 e.2 := by
  have hrun := run_of_trail h
  have hexited := hrun.inv.returned hreturned
  have hrecorders := hrun.idle (by simp [hreturned])
  have hqueue := hrun.inv.queue (by simp [hexited])
  have hheld := hrun.held
  simp only [SqliteBackend.held, hrecorders, hqueue, List.filterMap_nil, List.append_nil] at hheld
  rw [← hrun.exited hexited]
  constructor
  · intro hperm
    have hlength := (hperm.trans hheld.symm).length_eq
    rw [List.length_append] at hlength
    exact List.length_eq_zero_iff.1 (Nat.add_eq_left.1 hlength.symm)
  · intro hempty
    rwa [hempty, List.append_nil] at hheld

/-- The rest of the queue is inserted after the destructor has woken the consumer. -/
def drainedRun : List Move :=
  [.recordTiming ⟨"commonActions", 5, 7⟩, .enqueue 0, .consume, .consume, .consume, .consume,
    .consume, .consume, .consume, .consume, .consume, .destroy, .destroy, .consume, .consume,
    .consume, .consume, .consume, .destroy]

theorem inserted_iff_drainedRun :
    ∃ t s, OrderlyTrail (2 * ·) t s ∧ s.destructor = .returned ∧
      (s.timing.map (·.timing)).Perm (t.filterMap submitted) := by
  obtain ⟨⟨t, s⟩, hrun, hreturned, hdrained⟩ :
      ∃ r, Trail.replay (orderlyStep (2 * ·)) {} drainedRun = some r ∧
        r.2.destructor = .returned ∧ ∀ e ∈ r.1, LeavesDrained e.1 e.2 :=
    ⟨_, rfl, rfl, by unfold LeavesDrained; decide⟩
  have htrail : OrderlyTrail (2 * ·) t s := Trail.of_replay (fun h => h) hrun
  exact ⟨t, s, htrail, hreturned, (inserted_iff htrail hreturned).2 hdrained⟩

/-- A second timing is recorded while the first is inserted, and the destructor stores its flag before
the consumer is back at the head of its loop. -/
def lostRun : List Move :=
  [.recordTiming ⟨"commonActions", 5, 7⟩, .enqueue 0, .consume, .consume, .consume, .consume,
    .recordTiming ⟨"caUpdate", 6, 8⟩, .enqueue 0, .consume, .destroy, .consume, .destroy, .destroy]

theorem not_inserted_lostRun :
    ¬ ∀ grow t s, OrderlyTrail grow t s → s.destructor = .returned →
      (s.timing.map (·.timing)).Perm (t.filterMap submitted) := by
  intro h
  obtain ⟨⟨t, s⟩, hrun, hreturned, htable, hrecorded⟩ :
      ∃ r, Trail.replay (orderlyStep (2 * ·)) {} lostRun = some r ∧ r.2.destructor = .returned ∧
        r.2.timing.length = 1 ∧ (r.1.filterMap submitted).length = 2 :=
    ⟨_, rfl, rfl, rfl, rfl⟩
  have hlength := (h (2 * ·) t s (Trail.of_replay (fun h => h) hrun) hreturned).length_eq
  rw [List.length_map, htable, hrecorded] at hlength
  cases hlength

/-! ## The last notification -/

/-- The consumer sleeps, and the destructor has notified it and waits for it. -/
def Oversleeps (s : SqliteBackend) : Prop :=
  s.consumer = .asleep ∧ s.mConsumerRunning = false ∧ s.destructor = .joining

/-- If the destructor notifies with this move, the consumer is not about to fall asleep. -/
def NotifiesInTime (s : SqliteBackend) (m : Move) : Prop :=
  m = .destroy → s.destructor = .stored → s.consumer ≠ .fallAsleep

/-- While the destructor waits, the consumer neither sleeps nor is about to. -/
def Awake (s : SqliteBackend) : Prop :=
  s.destructor = .joining → s.consumer ≠ .asleep ∧ s.consumer ≠ .fallAsleep

theorem notified_ne_asleep (c : Consumer) : c.notified ≠ .asleep := by
  rcases notified_cases c with he | ⟨-, he⟩
  · rw [he]
    rintro rfl
    cases he
  · simp [he]

theorem notified_eq_fallAsleep (c : Consumer) : c.notified = .fallAsleep ↔ c = .fallAsleep := by
  cases c <;> simp [Consumer.notified]

/-- The consumer stays awake exactly if it is not notified too early. -/
theorem awake_step (h : Inv s) (hw : Awake s) (hm : Makes grow s m s') :
    Awake s' ↔ NotifiesInTime s m := by
  have hvacuous : m ≠ .destroy → NotifiesInTime s m := fun hne he => absurd he hne
  cases hm with
  | notifyAll hd =>
    constructor
    · intro h' _ _ hc
      exact (h' rfl).2 ((notified_eq_fallAsleep _).2 hc)
    · intro hin _
      exact ⟨notified_ne_asleep _, fun hc => hin rfl hd ((notified_eq_fallAsleep _).1 hc)⟩
  | store hd => exact iff_of_true (fun hd' => by simp at hd') fun _ hd' => by simp [hd] at hd'
  | join hd hc => exact iff_of_true (fun hd' => by simp at hd') fun _ hd' => by simp [hd] at hd'
  | notifyOne hi =>
    refine iff_of_true (fun hd => ⟨notified_ne_asleep _, fun hc => ?_⟩) (hvacuous (by simp))
    exact (hw hd).2 ((notified_eq_fallAsleep _).1 hc)
  | notReady hc hq hr =>
    refine iff_of_true (fun hd => ?_) (hvacuous (by simp))
    have hd : s.destructor = .joining := hd
    rw [h.running, hd] at hr
    cases hr
  | fallAsleep hc => exact iff_of_true (fun hd => absurd hc (hw hd).2) (hvacuous (by simp))
  | recordTiming | enqueue => exact iff_of_true hw (hvacuous (by simp))
  | goOn | leave | lock | ready | swap | insert | wakeUp =>
    exact iff_of_true (fun _ => by simp) (hvacuous (by simp))

/-- A consumer about to fall asleep does so before anything else becomes of it. -/
theorem awake_of_step (h : Inv s) (hno : ¬ Oversleeps s) (hm : Makes grow s m s')
    (hw : Awake s') : Awake s := by
  intro hd
  have hstopped : s.mConsumerRunning = false := by
    rw [← Bool.not_eq_true, h.running, hd]
    simp
  refine ⟨fun hc => hno ⟨hc, hstopped, hd⟩, fun hc => ?_⟩
  cases hm with
  | recordTiming | enqueue => exact (hw hd).2 hc
  | notifyOne hi => exact (hw hd).2 ((notified_eq_fallAsleep _).2 hc)
  | fallAsleep => exact (hw hd).1 rfl
  | store hd' | notifyAll hd' => simp [hd] at hd'
  | join hd' hc' => simp [hc] at hc'
  | lock hc' => rcases hc' with hc' | hc' <;> simp [hc] at hc'
  | goOn hc' | leave hc' | ready hc' | notReady hc' | swap hc' | insert hc' | wakeUp hc' =>
    simp [hc] at hc'

/-- Awake is to be awake now and after the next move of the consumer. -/
theorem awake_iff (grow : Nat → Nat) (h : Inv s) :
    Awake s ↔ ¬ Oversleeps s ∧ ∀ s', step grow s .consume = some s' → ¬ Oversleeps s' := by
  constructor
  · intro hw
    refine ⟨fun ho => (hw ho.2.2).1 ho.1, fun s' hs ho => ?_⟩
    have hm := makes_of_step hs
    exact (((awake_step h hw hm).2 fun he => by simp at he) ho.2.2).1 ho.1
  · rintro ⟨hno, hnext⟩ hd
    have hstopped : s.mConsumerRunning = false := by
      rw [← Bool.not_eq_true, h.running, hd]
      simp
    refine ⟨fun hc => hno ⟨hc, hstopped, hd⟩, fun hc => ?_⟩
    exact hnext { s with consumer := .asleep } (by simp [step, consume, hc]) ⟨rfl, hstopped, hd⟩

/-- The runs of the backend. -/
abbrev Runs (grow : Nat → Nat) : List (SqliteBackend × Move) → SqliteBackend → Prop :=
  Trail (fun s m s' => step grow s m = some s') {}

theorem inv_of_run {t : List (SqliteBackend × Move)} (h : Runs grow t s) :
    (∀ e ∈ t, Inv e.1) ∧ Inv s :=
  h.invariant inv_init fun hi hs => hi.step (makes_of_step hs)

/-- A run that ends awake and in which the consumer never oversleeps was awake all the time. -/
theorem awake_of_run {t : List (SqliteBackend × Move)} (h : Runs grow t s)
    (hno : ∀ e ∈ t, ¬ Oversleeps e.1) (hw : Awake s) : ∀ e ∈ t, Awake e.1 := by
  induction h with
  | nil => exact List.forall_mem_nil _
  | @snoc t s s' m ht hs ih =>
    rw [List.forall_mem_append, List.forall_mem_singleton] at hno ⊢
    have hw' := awake_of_step (inv_of_run ht).2 hno.2 (makes_of_step hs) hw
    exact ⟨ih hno.1 hw', hw'⟩

/-- The consumer oversleeps in no state of a run, nor after one more move of its own, exactly if the
destructor never notifies it between its test of the predicate and its falling asleep. -/
theorem oversleeps_iff {t : List (SqliteBackend × Move)} (h : Runs grow t s) :
    ((∀ e ∈ t, ¬ Oversleeps e.1) ∧ ¬ Oversleeps s ∧
        ∀ s', step grow s .consume = some s' → ¬ Oversleeps s') ↔
      ∀ e ∈ t, NotifiesInTime e.1 e.2 := by
  obtain ⟨hinvs, hinv⟩ := inv_of_run h
  have hall := h.forall_iff (P := Awake) (C := NotifiesInTime) inv_init (fun hd => by cases hd)
    (fun hi hs => hi.step (makes_of_step hs)) fun hi hw hs => awake_step hi hw (makes_of_step hs)
  rw [← hall, awake_iff grow hinv]
  constructor
  · rintro ⟨hno, hnow⟩
    exact ⟨awake_of_run h hno ((awake_iff grow hinv).2 hnow), hnow⟩
  · rintro ⟨hw, hnow⟩
    exact ⟨fun e he => ((awake_iff grow (hinvs e he)).1 (hw e he)).1, hnow⟩

/-- A consumer that is asleep when the destructor starts is woken up and leaves. -/
def wokenRun : List Move :=
  [.consume, .consume, .consume, .consume, .destroy, .destroy, .consume, .consume, .consume,
    .consume, .consume, .destroy]

theorem oversleeps_iff_wokenRun :
    ∃ t s, Runs (2 * ·) t s ∧ s.destructor = .returned ∧ ∀ e ∈ t, ¬ Oversleeps e.1 := by
  obtain ⟨⟨t, s⟩, hrun, hreturned, hin⟩ :
      ∃ r, Trail.replay (step (2 * ·)) {} wokenRun = some r ∧ r.2.destructor = .returned ∧
        ∀ e ∈ r.1, NotifiesInTime e.1 e.2 :=
    ⟨_, rfl, rfl, by unfold NotifiesInTime; decide⟩
  have htrail : Runs (2 * ·) t s := Trail.of_replay (fun h => h) hrun
  exact ⟨t, s, htrail, hreturned, ((oversleeps_iff htrail).2 hin).1⟩

/-- The destructor stores its flag and notifies while the consumer, which has found its predicate
false, is about to fall asleep. -/
def oversleptRun : List Move :=
  [.consume, .consume, .consume, .destroy, .destroy, .consume]

theorem oversleeps_oversleptRun : ¬ ∀ grow t s, Runs grow t s → ¬ Oversleeps s := by
  intro h
  obtain ⟨⟨t, s⟩, hrun, hasleep⟩ :
      ∃ r, Trail.replay (step (2 * ·)) {} oversleptRun = some r ∧ Oversleeps r.2 :=
    ⟨_, rfl, rfl, rfl, rfl⟩
  exact h _ t s (Trail.of_replay (fun h => h) hrun) hasleep

end SqliteBackend

end Cosidia
