import Cosidia.Theory.Reachable
import Cosidia.Verify.RouterTasks

/-!
# Runs of a router

An action of a router is started, fibers run and other objects act, and then it is ended. Whether
`endExecution` asks for a result is decided by the tracker as it is then, whether `startExecution`
launched a task by the tracker as it was before.
-/

namespace Cosidia

open EStateM Relation

namespace Router

/-! ## Steps -/

/-- The types of the actions that are dispatched to routers. -/
def types : List Symbol := ["caUpdate", "initRouter", "update", "indication"]

/-- Other objects act, while the router runs `running` or nothing. -/
structure Elsewhere (this : ObjectPtr) (running : Option ActionPtr) (s s' : Core Network) :
    Prop where
  router : s'.world this = s.world this
  actions : s.actions.next ≤ s'.actions.next
  mType : ∀ p < s.actions.next, (s'.actions.cell p).mType = (s.actions.cell p).mType
  mActionData : ∀ p < s.actions.next, (s.actions.cell p).mActionData ≠ none →
    (s'.actions.cell p).mActionData = (s.actions.cell p).mActionData
  /-- Only the start of an action that is not running may be shifted. -/
  mStartTime : ∀ p, running = some p →
    (s'.actions.cell p).mStartTime = (s.actions.cell p).mStartTime
  object : this < s.objects.next → this < s'.objects.next
  mObjectId : (s'.objects.cell this).mObjectId = (s.objects.cell this).mObjectId

/-- What happens while the router runs `a`. -/
inductive Meanwhile (this : ObjectPtr) (a : ActionPtr) : Core Network → Core Network → Prop
  | elsewhere {s s'} : Elsewhere this (some a) s s' → Meanwhile this a s s'
  | fiber {s s'} (number : Nat) (replies : Replies) :
    runFiber this number replies s = .ok () s' → Meanwhile this a s s'

/-- `a` is started in `s` and about to be ended in `s'`; since then the runtime has reported
`ds`. -/
def Executes (this : ObjectPtr) (a : ActionPtr) (ds : List TimePoint) (s s' : Core Network) : Prop :=
  a < s.actions.next ∧ (s.actions.cell a).mType ∈ types ∧
    (∃ s₁, startExecution this a s = .ok () s₁ ∧ ReflTransGen (Meanwhile this a) s₁ s') ∧
    (s'.world this).reports = (s.world this).reports ++ ds

/-- The steps of a router whose actions are executed one after the other, under a condition on an
action, the core it is started in and the deadlines reported to it before it ends. -/
inductive Step (this : ObjectPtr) (C : ActionPtr → Core Network → List TimePoint → Prop) :
    Core Network → Core Network → Prop
  | elsewhere {s s'} : Elsewhere this none s s' → Step this C s s'
  | fiber {s s'} (number : Nat) (replies : Replies) :
    runFiber this number replies s = .ok () s' → Step this C s s'
  | execution {a ds s s₁ s'} (replies : Replies) (setup : Option Failure) :
    Executes this a ds s s₁ → C a s ds →
    endExecution this a replies setup s₁ = .ok () s' → Step this C s s'

/-- Before anything has been dispatched to the router, an object of the simulation. -/
structure Fresh (this : ObjectPtr) (s : Core Network) : Prop where
  object : this < s.objects.next
  valid : (s.objects.cell this).mObjectId.valid = true
  mInitDone : (s.world this).mInitDone = false
  mTracker : (s.world this).mTracker = {}
  fibers : (s.world this).fibers = []
  launched : (s.world this).launched = []
  fetched : (s.world this).fetched = []
  reports : (s.world this).reports = []

/-- The results asked for are those of the tasks launched. -/
def Matched (r : Router) : Prop := r.fetched = r.launched

/-- The condition under which an action is ended as it was started: it has always a task; or the
tracker is empty and stays so; or the action is next to start and next to end, and another one is
made while it runs; or it is neither, and the tracker is not empty. -/
def Follows (this : ObjectPtr) (a : ActionPtr) (s : Core Network) (ds : List TimePoint) : Prop :=
  let t := (s.world this).mTracker
  ((s.actions.cell a).mType = "caUpdate" ∨ (s.actions.cell a).mType = "initRouter") ∨
    (t.mNextStart = none ∧ ¬ Supersedes this s ds) ∨
    (t.mNextStart = some a ∧ t.mNextEnd = some a ∧ Supersedes this s ds) ∨
    (t.mNextStart ≠ none ∧ t.mNextStart ≠ some a ∧ t.mNextEnd ≠ some a)

/-! ## Starting an action -/

/-- `startExecution` launches a task for `a`. -/
def Launches (this : ObjectPtr) (a : ActionPtr) (s : Core Network) : Prop :=
  (s.actions.cell a).mType = "caUpdate" ∨ (s.actions.cell a).mType = "initRouter" ∨
    (s.world this).mTracker.isStart a = true

/-- The task for an action of a type. -/
def taskOf (type : Symbol) : RouterTask :=
  if type = "caUpdate" then .caUpdate
  else if type = "initRouter" then .initRouter
  else if type = "update" then .executeUpdate
  else .transmissionReceived

/-- A task has been launched for `a`. -/
def withFiber (task : RouterTask) (a : ActionPtr) (r : Router) : Router :=
  { r with mFuture := some r.fibers.length, fibers := r.fibers ++ [⟨task, a, none⟩]
           launched := r.launched ++ [a] }

section
variable {this : ObjectPtr} {a : ActionPtr} {s s' s₁ s₂ : Core Network} {ds : List TimePoint}

theorem update_update (f g : Router → Router) :
    update this g (update this f s) = update this (g ∘ f) s := by
  simp [update]

theorem launch_eq_ok {task : RouterTask} {needsContext : Bool}
    (h : launch this task a needsContext s = .ok () s') :
    s' = update this (withFiber task a) s := by
  have hlaunch : launch this task a needsContext s =
      if needsContext && (s.world this).mVehicleObject.isNone then
        .error .nullDereference (update this (fun r => { r with mFuture := some r.fibers.length }) s)
      else .ok () (update this (withFiber task a) s) := by
    simp only [launch]
    simp only [bind_apply, onRouter_modify, getRouter_apply, update_world]
    split_ifs
    · rfl
    · rw [onRouter_modify, update_update]
      rfl
  rw [hlaunch] at h
  split_ifs at h
  · cases h
    rfl

theorem startExecution_eq_ok (ha : a < s.actions.next)
    (htype : (s.actions.cell a).mType ∈ types) (h : startExecution this a s = .ok () s') :
    (Launches this a s ∧ s' = update this (withFiber (taskOf (s.actions.cell a).mType) a) s) ∨
      (¬ Launches this a s ∧ s' = s) := by
  have hget : getAction a s = .ok (s.actions.cell a) s := getAction_of_lt ha
  simp only [startExecution] at h
  simp only [bind_apply, hget] at h
  unfold Launches taskOf
  by_cases hca : (s.actions.cell a).mType = "caUpdate"
  · rw [if_pos hca] at h
    exact .inl ⟨.inl hca, by rw [if_pos hca]; exact launch_eq_ok h⟩
  by_cases hinit : (s.actions.cell a).mType = "initRouter"
  · rw [if_neg hca, if_pos hinit] at h
    exact .inl ⟨.inr (.inl hinit), by rw [if_neg hca, if_pos hinit]; exact launch_eq_ok h⟩
  rw [if_neg hca, if_neg hinit, bind_apply, getRouter_apply] at h
  dsimp only at h
  by_cases hstart : (s.world this).mTracker.isStart a = true
  · rw [if_pos hstart] at h
    refine .inl ⟨.inr (.inr hstart), ?_⟩
    rw [if_neg hca, if_neg hinit]
    by_cases hup : (s.actions.cell a).mType = "update"
    · rw [if_pos hup] at h ⊢
      exact launch_eq_ok h
    · have hind : (s.actions.cell a).mType = "indication" := by
        simpa [types, hca, hinit, hup] using htype
      rw [if_neg hup, if_pos hind] at h
      rw [if_neg hup]
      exact launch_eq_ok h
  · rw [if_neg hstart, bind_apply, getRouter_apply] at h
    simp only [hstart, Bool.not_false, enforce_true] at h
    exact .inr ⟨by tauto, (pure_eq_ok.1 h).2.symm⟩

end

/-! ## While an action runs -/

/-- What holds between two actions of a router, whatever results have been asked for. -/
structure Idle (this : ObjectPtr) (s : Core Network) : Prop where
  placed : Placed this s
  empty : (s.world this).mTracker.mNextStart = none ↔ (s.world this).mTracker.mNextEnd = none
  done : ∀ f ∈ (s.world this).fibers, f.result ≠ none

/-- What holds between two actions of a router if every task launched has been asked for. -/
structure AtRest (this : ObjectPtr) (s : Core Network) : Prop extends Idle this s where
  matched : Matched (s.world this)

/-- The tracker may say that `a` is started. -/
def MayStart (this : ObjectPtr) (a : ActionPtr) (s : Core Network) : Prop :=
  (s.world this).mTracker.mNextStart = none ∨ (s.world this).mTracker.mNextStart = some a

/-- The tracker has taken up a new action, or it has not. -/
def Tracks (this : ObjectPtr) (a : ActionPtr) (ds : List TimePoint) (s s' : Core Network) : Prop :=
  ((s'.world this).mTracker = (s.world this).mTracker ∧
      (MayStart this a s → ¬ Supersedes this s ds)) ∨
    ∃ n, s.actions.next ≤ n ∧ n < s'.actions.next ∧
      (s'.world this).mTracker = ⟨some n, (s.world this).mTracker.mNextEnd.or (some n)⟩ ∧
      (MayStart this a s → Supersedes this s ds)

/-- What holds in `s'` while `a`, started in `s`, runs, with a task or without one. -/
structure Underway (this : ObjectPtr) (a : ActionPtr) (task : Option RouterTask)
    (ds : List TimePoint) (s s' : Core Network) : Prop where
  placed : Placed this s'
  made : s.actions.next ≤ s'.actions.next
  mType : (s'.actions.cell a).mType = (s.actions.cell a).mType
  mStartTime : (s'.actions.cell a).mStartTime = (s.actions.cell a).mStartTime
  reports : (s'.world this).reports = (s.world this).reports ++ ds
  launched : (s'.world this).launched = (s.world this).launched ++ task.toList.map fun _ => a
  fetched : (s'.world this).fetched = (s.world this).fetched
  mFuture : task ≠ none → (s'.world this).mFuture = some (s.world this).fibers.length
  tracks : Tracks this a ds s s'
  fibers : ∃ result, (s'.world this).fibers =
      (s.world this).fibers ++ task.toList.map (⟨·, a, result⟩) ∧
    (task = none ∨ result = none →
      ds = [] ∧ (s'.world this).mTracker = (s.world this).mTracker)

section
variable {this : ObjectPtr} {a : ActionPtr} {task : Option RouterTask} {ds : List TimePoint}
  {s s₁ s' : Core Network}

theorem Works.placed (h : Works this ds s s') (hs : Placed this s) : Placed this s' where
  object := by rw [h.objects]; exact hs.object
  valid := by rw [h.objects]; exact hs.valid
  start p hp := by
    by_cases hsup : Supersedes this s ds
    · obtain ⟨n, -, hn, ht, -⟩ := h.supersedes hsup
      rw [ht] at hp
      exact Option.some.inj hp ▸ hn
    · rw [h.keeps hsup] at hp
      exact (hs.start p hp).trans_le h.actions

theorem Elsewhere.placed {running : Option ActionPtr} (h : Elsewhere this running s s')
    (hs : Placed this s) : Placed this s' :=
  ⟨h.object hs.object, by rw [h.mObjectId]; exact hs.valid, fun p hp =>
    (hs.start p (by rwa [h.router] at hp)).trans_le h.actions⟩

/-- The next start is still what it was at the start of `a`. -/
theorem Underway.nextStart (h : Underway this a task ds s s')
    (ht : (s'.world this).mTracker = (s.world this).mTracker) (hmay : MayStart this a s) :
    nextStart this s' = nextStart this s := by
  simp only [Router.nextStart]
  rw [ht]
  rcases hmay with hS | hS
  · rw [hS]
  · simp only [hS, h.mStartTime]

theorem Underway.elsewhere (h : Underway this a task ds s s₁) (ha : a < s.actions.next)
    (he : Elsewhere this (some a) s₁ s') : Underway this a task ds s s' where
  placed := he.placed h.placed
  made := h.made.trans he.actions
  mType := (he.mType a (ha.trans_le h.made)).trans h.mType
  mStartTime := (he.mStartTime a rfl).trans h.mStartTime
  reports := by rw [he.router]; exact h.reports
  launched := by rw [he.router]; exact h.launched
  fetched := by rw [he.router]; exact h.fetched
  mFuture := by rw [he.router]; exact h.mFuture
  tracks := by
    simp only [Tracks]
    rw [he.router]
    exact h.tracks.imp_right fun ⟨n, hn, hlt, hrest⟩ => ⟨n, hn, hlt.trans_le he.actions, hrest⟩
  fibers := by rw [he.router]; exact h.fibers

/-- The only fiber that can run is that of `a`. -/
theorem Underway.task_of_idle (h : Underway this a task ds s s₁) (hs : AtRest this s)
    {number : Nat} {task' : RouterTask} {action : ActionPtr}
    (hf : (s₁.world this).fibers[number]? = some ⟨task', action, none⟩) :
    number = (s.world this).fibers.length ∧ task = some task' ∧ action = a ∧ ds = [] ∧
      (s₁.world this).mTracker = (s.world this).mTracker ∧
      (s₁.world this).fibers = (s.world this).fibers ++ [⟨task', a, none⟩] := by
  obtain ⟨result, hfibers, hidle⟩ := h.fibers
  rw [hfibers] at hf
  rcases lt_or_ge number (s.world this).fibers.length with hlt | hge
  · rw [List.getElem?_append_left hlt] at hf
    exact absurd rfl (hs.done _ (List.mem_of_getElem? hf))
  · rw [List.getElem?_append_right hge] at hf
    cases task with
    | none => simp at hf
    | some t =>
      obtain ⟨hlt, heq⟩ := List.getElem?_eq_some_iff.1 hf
      have hnumber : number = (s.world this).fibers.length := by
        simp only [Option.toList_some, List.map_cons, List.map_nil, List.length_singleton] at hlt
        omega
      subst hnumber
      simp only [Option.toList_some, List.map_cons, List.map_nil, Nat.sub_self,
        List.getElem_cons_zero, Fiber.mk.injEq] at heq
      obtain ⟨rfl, rfl, rfl⟩ := heq
      obtain ⟨hds, ht⟩ := hidle (.inr rfl)
      exact ⟨rfl, rfl, rfl, hds, ht, by simpa using hfibers⟩

/-- What the work of the fiber does to the tracker. -/
theorem Underway.tracks_works (h : Underway this a task ds s s₁)
    (ht : (s₁.world this).mTracker = (s.world this).mTracker) {ds' : List TimePoint}
    (hw : Works this ds' s₁ s') : Tracks this a ds' s s' := by
  have hsup : MayStart this a s → (Supersedes this s₁ ds' ↔ Supersedes this s ds') := fun hmay => by
    simp only [Supersedes]
    rw [h.nextStart ht hmay]
  by_cases hsup₁ : Supersedes this s₁ ds'
  · obtain ⟨n, hn, hlt, htracker, -⟩ := hw.supersedes hsup₁
    exact .inr ⟨n, h.made.trans hn, hlt, by rw [htracker, ht], fun hmay => (hsup hmay).1 hsup₁⟩
  · exact .inl ⟨(hw.keeps hsup₁).trans ht, fun hmay => mt (hsup hmay).2 hsup₁⟩

theorem Underway.fiber (h : Underway this a task ds s s₁) (hs : AtRest this s)
    (ha : a < s.actions.next) {number : Nat} (hrun : RunsFiber this number s₁ s') :
    ∃ ds', Underway this a task ds' s s' := by
  obtain ⟨task', action, ds', s₂, result, hf, hw, rfl⟩ := hrun
  obtain ⟨rfl, rfl, rfl, rfl, ht, hfibers⟩ := h.task_of_idle hs hf
  have hcell := hw.action action (ha.trans_le h.made)
  refine ⟨ds', ?_⟩
  constructor
  case placed => exact (hw.placed h.placed).update rfl
  case made => exact h.made.trans hw.actions
  case mType => exact (congrArg _ hcell).trans h.mType
  case mStartTime => exact (congrArg _ hcell).trans h.mStartTime
  case reports =>
    rw [update_world, hw.reports, h.reports, List.append_nil]
  case launched =>
    rw [update_world]
    exact hw.launched.trans h.launched
  case fetched =>
    rw [update_world]
    exact hw.fetched.trans h.fetched
  case mFuture =>
    rw [update_world]
    exact fun htask => hw.mFuture.trans (h.mFuture htask)
  case tracks =>
    have htracks := h.tracks_works ht hw
    unfold Tracks at htracks ⊢
    rw [update_world]
    exact htracks
  case fibers =>
    refine ⟨some result, ?_, by simp⟩
    rw [update_world]
    simp [hw.fibers, hfibers]

theorem underway_of_start (hs : AtRest this s) (ha : a < s.actions.next)
    (htype : (s.actions.cell a).mType ∈ types) (h : startExecution this a s = .ok () s₁) :
    ∃ task, (task ≠ none ↔ Launches this a s) ∧ Underway this a task [] s s₁ := by
  have hsup : ¬ Supersedes this s [] := by simp [Supersedes]
  rcases startExecution_eq_ok ha htype h with ⟨hl, rfl⟩ | ⟨hl, rfl⟩
  · refine ⟨some (taskOf (s.actions.cell a).mType), by simpa using hl, ?_⟩
    constructor
    case placed => exact hs.placed.update rfl
    case made => exact Nat.le_refl _
    case tracks => exact .inl ⟨by simp [withFiber], fun _ => hsup⟩
    case fibers => exact ⟨none, by simp [withFiber], fun _ => ⟨rfl, by simp [withFiber]⟩⟩
    all_goals simp [withFiber, update]
  · refine ⟨none, by simpa using hl, ?_⟩
    constructor
    case placed => exact hs.placed
    case made => exact Nat.le_refl _
    case tracks => exact .inl ⟨rfl, fun _ => hsup⟩
    case fibers => exact ⟨none, by simp, fun _ => ⟨rfl, rfl⟩⟩
    all_goals simp

theorem Underway.meanwhile (h : Underway this a task ds s s₁) (hs : AtRest this s)
    (ha : a < s.actions.next) (hm : Meanwhile this a s₁ s') :
    ∃ ds', Underway this a task ds' s s' := by
  cases hm with
  | elsewhere he => exact ⟨ds, h.elsewhere ha he⟩
  | fiber number replies hrun =>
    rcases (runFiber_spec h.placed number replies).ok hrun with hrun | ⟨-, rfl⟩
    · exact h.fiber hs ha hrun
    · exact ⟨ds, h⟩

theorem Underway.run (h : Underway this a task ds s s₁) (hs : AtRest this s)
    (ha : a < s.actions.next) (hrun : ReflTransGen (Meanwhile this a) s₁ s') :
    ∃ ds', Underway this a task ds' s s' := by
  induction hrun with
  | refl => exact ⟨ds, h⟩
  | tail _ hm ih =>
    obtain ⟨ds', ih⟩ := ih
    exact ih.meanwhile hs ha hm

/-- Whenever `a` is about to be ended, it is under way. -/
theorem underway_of_executes (hs : AtRest this s) (h : Executes this a ds s s') :
    ∃ task, (task ≠ none ↔ Launches this a s) ∧ Underway this a task ds s s' := by
  obtain ⟨ha, htype, ⟨s₁, hstart, hrun⟩, hreports⟩ := h
  obtain ⟨task, htask, hunder⟩ := underway_of_start hs ha htype hstart
  obtain ⟨ds', hunder'⟩ := hunder.run hs ha hrun
  have hds : ds' = ds := List.append_cancel_left (hunder'.reports.symm.trans hreports)
  exact ⟨task, htask, hds ▸ hunder'⟩

/-! ## Ending an action -/

/-- The tracker lets `a` end. -/
def AtEnd (this : ObjectPtr) (a : ActionPtr) (s : Core Network) : Prop :=
  let t := (s.world this).mTracker
  (t.mNextEnd = some a ∨ t.mNextEnd = none) ∧ (t.mNextEnd ≠ t.mNextStart ∨ t.mNextStart = none)

/-- `endExecution` asks for a result. -/
def Ends (this : ObjectPtr) (a : ActionPtr) (s : Core Network) : Prop :=
  ((s.actions.cell a).mType = "caUpdate" ∨ (s.actions.cell a).mType = "initRouter") ∨
    AtEnd this a s

/-- The tracker has just let an action end. -/
def moveEnd (r : Router) : Router :=
  { r with mTracker := ⟨r.mTracker.mNextStart, r.mTracker.mNextStart⟩ }

/-- Before the result is asked for, the tracker may have moved. -/
def Asks (this : ObjectPtr) (a : ActionPtr) (replies : Replies) (s s' : Core Network) : Prop :=
  ∃ s₁, (s₁ = s ∧ ((s.actions.cell a).mType = "caUpdate" ∨ (s.actions.cell a).mType = "initRouter") ∨
    s₁ = update this moveEnd s) ∧ Fetches this a replies s₁ s'

theorem Placed.moveEnd (hs : Placed this s) : Placed this (Router.update this Router.moveEnd s) :=
  ⟨hs.object, hs.valid, fun p hp => hs.start p (by simpa [Router.moveEnd] using hp)⟩

/-- What `isEnd` answers, and what becomes of the tracker. -/
theorem post_isEnd :
    Post (onRouter this (onTracker (ActiveActionTracker.isEnd a))) s
      (fun b s' => b = true ∧ AtEnd this a s ∧ s' = update this moveEnd s ∨
        b = false ∧ ¬ AtEnd this a s ∧ s' = s)
      fun _ s' => ¬ AtEnd this a s ∧ s' = s := by
  have hsame : ∀ s, update this (fun r => { r with mTracker := r.mTracker }) s = s :=
    fun s => update_self s
  refine post_zoom (post_zoom ?_)
  unfold Post AtEnd
  rw [ActiveActionTracker.isEnd_apply]
  by_cases hend : (s.world this).mTracker.mNextEnd = some a ∨ (s.world this).mTracker.mNextEnd = none
  · by_cases hne : (s.world this).mTracker.mNextEnd ≠ (s.world this).mTracker.mNextStart ∨
        (s.world this).mTracker.mNextStart = none
    · rw [if_pos hend, if_pos hne]
      exact .inl ⟨rfl, ⟨hend, hne⟩, rfl⟩
    · rw [if_pos hend, if_neg hne]
      exact ⟨fun h => hne h.2, hsame s⟩
  · rw [if_neg hend]
    exact .inr ⟨rfl, fun h => hend h.1, hsame s⟩

theorem post_endExecution (hs : Placed this s) (ha : a < s.actions.next)
    (htype : (s.actions.cell a).mType ∈ types) (replies : Replies) (setup : Option Failure) :
    Post (endExecution this a replies setup) s
      (fun _ s' => Ends this a s ∧ Asks this a replies s s' ∨ ¬ Ends this a s ∧ s' = s)
      fun _ s' => Ends this a s ∧ NotesFetched this a s s' ∨ ¬ Ends this a s ∧ s' = s := by
  have hget : getAction a s = .ok (s.actions.cell a) s := getAction_of_lt ha
  unfold endExecution
  rw [post_bind_of_ok hget]
  dsimp only
  by_cases hup : (s.actions.cell a).mType = "update" ∨ (s.actions.cell a).mType = "indication"
  · have hnot : ¬ ((s.actions.cell a).mType = "caUpdate" ∨ (s.actions.cell a).mType = "initRouter") := by
      rcases hup with h | h <;> simp [h]
    rw [if_pos hup]
    have hends : Ends this a s ↔ AtEnd this a s := by simp [Ends, hnot]
    rw [hends]
    refine Post.bind (Post.mono post_isEnd (fun _ _ h => h) fun _ _ h => .inr h) ?_
    rintro b s₁ (⟨rfl, hend, rfl⟩ | ⟨rfl, hend, rfl⟩)
    · refine Post.mono (post_commit (hs.moveEnd) a replies setup)
        (fun _ _ h => .inl ⟨hend, _, .inr rfl, h⟩) fun _ _ h => .inl ⟨hend, ?_⟩
      simpa [NotesFetched, moveEnd] using h
    · exact .inr ⟨hend, rfl⟩
  · have hends : (s.actions.cell a).mType = "caUpdate" ∨ (s.actions.cell a).mType = "initRouter" := by
      simp only [types, List.mem_cons, List.not_mem_nil, or_false] at htype
      tauto
    rw [if_neg hup, if_pos hends]
    exact Post.mono (post_commit hs a replies setup)
      (fun _ _ h => .inl ⟨.inl hends, s, .inl ⟨rfl, hends⟩, h⟩) fun _ _ h => .inl ⟨.inl hends, h⟩

/-! ## Which actions are ended as they were started -/

theorem matched_endExecution (hs : AtRest this s) (ha : a < s.actions.next)
    (htype : (s.actions.cell a).mType ∈ types) (h : Underway this a task ds s s₁)
    (replies : Replies) (setup : Option Failure) :
    Matched ((endExecution this a replies setup s₁).state.world this) ↔
      (Ends this a s₁ ↔ task ≠ none) := by
  have hpost : Post (endExecution this a replies setup) s₁
      (fun _ s' => Ends this a s₁ ∧ NotesFetched this a s₁ s' ∨ ¬ Ends this a s₁ ∧ s' = s₁)
      fun _ s' => Ends this a s₁ ∧ NotesFetched this a s₁ s' ∨ ¬ Ends this a s₁ ∧ s' = s₁ := by
    refine Post.mono (post_endExecution h.placed (ha.trans_le h.made) (by rwa [h.mType]) replies
      setup) ?_ fun _ _ h => h
    rintro _ s' (⟨hends, s₂, hs₂, hf⟩ | hends)
    · refine .inl ⟨hends, ?_⟩
      rcases hs₂ with ⟨rfl, -⟩ | rfl
      · exact hf.notes h.placed
      · simpa [NotesFetched, moveEnd] using hf.notes h.placed.moveEnd
    · exact .inr hends
  have hmatched : (s.world this).fetched = (s.world this).launched := hs.matched
  simp only [Matched]
  rcases Post.state hpost with ⟨hends, hfetched, hlaunched⟩ | ⟨hends, hs'⟩
  · rw [hfetched, hlaunched, h.fetched, h.launched, hmatched]
    cases task <;> simp [hends]
  · rw [hs', h.fetched, h.launched, hmatched]
    cases task <;> simp [hends]

/-- What an action is launched by and what it is ended by agree under `Follows` only. -/
theorem ends_iff_launches (hempty : (s.world this).mTracker.mNextStart = none ↔
      (s.world this).mTracker.mNextEnd = none) (ha : a < s.actions.next)
    (hmType : (s₁.actions.cell a).mType = (s.actions.cell a).mType) (h : Tracks this a ds s s₁) :
    (Ends this a s₁ ↔ Launches this a s) ↔ Follows this a s ds := by
  unfold Ends Launches Follows
  rw [hmType, ActiveActionTracker.isStart_iff]
  by_cases htype : (s.actions.cell a).mType = "caUpdate" ∨ (s.actions.cell a).mType = "initRouter"
  · tauto
  · rw [not_or] at htype
    simp only [htype.1, htype.2, false_or]
    unfold AtEnd
    rcases h with ⟨ht, hsup⟩ | ⟨n, hn, -, ht, hsup⟩
    · -- the tracker is as it was at the start
      rw [ht]
      cases hS : (s.world this).mTracker.mNextStart with
      | none =>
        have hE := hempty.1 hS
        simp [hS, hE, hsup (.inl hS)]
      | some p =>
        have hE : (s.world this).mTracker.mNextEnd ≠ none := fun h => by simp [hempty.2 h] at hS
        rcases eq_or_ne p a with rfl | hp
        · simp only [hE, hS, hsup (.inr hS), or_false]
          grind
        · simp only [hE, or_false]
          grind
    · -- a new update is the next start
      have hna : n ≠ a := (ha.trans_le hn).ne'
      rw [ht]
      cases hS : (s.world this).mTracker.mNextStart with
      | none =>
        have hE := hempty.1 hS
        simp [hE, hna, hsup (.inl hS)]
      | some p =>
        cases hE : (s.world this).mTracker.mNextEnd with
        | none => simp [hempty.2 hE] at hS
        | some e =>
          rcases eq_or_ne p a with rfl | hp
          · simp only [Option.some_or, Option.some.injEq, hsup (.inr hS)]
            grind
          · simp only [Option.some_or, Option.some.injEq]
            grind

/-- Ending an action asks for the results of the tasks launched if and only if the action and the
deadlines reported meanwhile follow the tracker. -/
theorem matched_iff_follows (hs : AtRest this s) (h : Executes this a ds s s₁) (replies : Replies)
    (setup : Option Failure) :
    Matched ((endExecution this a replies setup s₁).state.world this) ↔ Follows this a s ds := by
  obtain ⟨task, htask, hunder⟩ := underway_of_executes hs h
  rw [matched_endExecution hs h.1 h.2.1 hunder, htask,
    ends_iff_launches hs.empty h.1 hunder.mType hunder.tracks]

/-! ## Runs -/

/-- Working keeps the tracker empty or not empty at both ends. -/
theorem Works.empty (h : Works this ds s s')
    (hs : (s.world this).mTracker.mNextStart = none ↔ (s.world this).mTracker.mNextEnd = none) :
    (s'.world this).mTracker.mNextStart = none ↔ (s'.world this).mTracker.mNextEnd = none := by
  by_cases hsup : Supersedes this s ds
  · obtain ⟨n, -, -, ht, -⟩ := h.supersedes hsup
    rw [ht]
    cases (s.world this).mTracker.mNextEnd <;> simp
  · rw [h.keeps hsup]
    exact hs

theorem Idle.schedules (h : Idle this s) (hs : Schedules s s') : Idle this s' where
  placed := ⟨by rw [hs.objects]; exact h.placed.object, by rw [hs.objects]; exact h.placed.valid,
    fun p hp => by rw [hs.next]; exact h.placed.start p (by rwa [hs.world] at hp)⟩
  empty := by rw [hs.world]; exact h.empty
  done := by rw [hs.world]; exact h.done

/-- Once the result of the only fiber that may not have run is fetched, the router is idle. -/
theorem Fetches.idle {replies : Replies} (h : Fetches this a replies s s') (hs : Placed this s)
    (hempty : (s.world this).mTracker.mNextStart = none ↔ (s.world this).mTracker.mNextEnd = none)
    {old : List Fiber} {f : Fiber} (hfuture : (s.world this).mFuture = some old.length)
    (hfibers : (s.world this).fibers = old ++ [f]) (hold : ∀ f ∈ old, f.result ≠ none) :
    Idle this s' := by
  obtain ⟨number, s₁, hnumber, hrun, hsched⟩ := h
  obtain rfl : number = old.length := Option.some.inj (hnumber.symm.trans hfuture)
  refine Idle.schedules ?_ hsched
  rcases (runFiber_spec (hs.update rfl) _ replies).ok hrun with
    ⟨task, action, ds, s₂, result, hf, hw, rfl⟩ | ⟨hdone, rfl⟩
  · refine ⟨((hw.placed (hs.update rfl)).update rfl).update rfl, ?_, ?_⟩
    · simp only [update_world]
      exact hw.empty (by simpa [noteFetched] using hempty)
    · have hfibers₂ : (s₂.world this).fibers = old ++ [f] := by
        rw [hw.fibers, update_world]
        exact hfibers
      simp only [update_world, hfibers₂]
      intro f' hf'
      simp only [List.set_append_right _ _ (Nat.le_refl _), Nat.sub_self, List.set_cons_zero,
        List.mem_append, List.mem_singleton] at hf'
      rcases hf' with hf' | rfl
      · exact hold f' hf'
      · simp
  · refine ⟨(hs.update rfl).update rfl, by simpa [noteFetched] using hempty, ?_⟩
    have hlast : (s.world this).fibers[old.length]? = some f := by simp [hfibers]
    simp only [update_world, noteFetched, hfibers, List.mem_append, List.mem_singleton]
    rintro f' (hf' | rfl)
    · exact hold f' hf'
    · exact hdone _ (by simpa [noteFetched] using hlast)

/-- An action that follows the tracker leaves the router at rest. -/
theorem AtRest.execution (hs : AtRest this s) (h : Executes this a ds s s₁)
    (hfollows : Follows this a s ds) {replies : Replies} {setup : Option Failure}
    (hend : endExecution this a replies setup s₁ = .ok () s') : AtRest this s' := by
  have hmatched := (matched_iff_follows hs h replies setup).2 hfollows
  rw [hend] at hmatched
  suffices hidle : Idle this s' from { hidle with matched := hmatched }
  obtain ⟨task, htask, hunder⟩ := underway_of_executes hs h
  have hempty : (s₁.world this).mTracker.mNextStart = none ↔
      (s₁.world this).mTracker.mNextEnd = none := by
    rcases hunder.tracks with ⟨ht, -⟩ | ⟨n, -, -, ht, -⟩
    · rw [ht]
      exact hs.empty
    · rw [ht]
      cases (s.world this).mTracker.mNextEnd <;> simp
  have hiff : Ends this a s₁ ↔ task ≠ none := by
    rw [htask, ends_iff_launches hs.empty h.1 hunder.mType hunder.tracks]
    exact hfollows
  obtain ⟨result, hfibers, -⟩ := hunder.fibers
  rcases (post_endExecution hunder.placed (h.1.trans_le hunder.made)
      (by rw [hunder.mType]; exact h.2.1) replies setup).ok hend with ⟨hends, s₂, hs₂, hf⟩ | ⟨hends, rfl⟩
  · have htask' := hiff.1 hends
    have hfuture := hunder.mFuture htask'
    obtain ⟨t, rfl⟩ := Option.ne_none_iff_exists'.1 htask'
    simp only [Option.toList_some, List.map_cons, List.map_nil] at hfibers
    rcases hs₂ with ⟨rfl, -⟩ | rfl
    · exact hf.idle hunder.placed hempty hfuture hfibers hs.done
    · exact hf.idle hunder.placed.moveEnd (by simp [moveEnd]) (by simpa [moveEnd] using hfuture)
        (by simpa [moveEnd] using hfibers) hs.done
  · obtain rfl : task = none := by_contra fun htask' => hends (hiff.2 htask')
    refine ⟨hunder.placed, hempty, ?_⟩
    simp only [Option.toList_none, List.map_nil, List.append_nil] at hfibers
    rw [hfibers]
    exact hs.done

theorem AtRest.elsewhere (hs : AtRest this s) (h : Elsewhere this none s s') : AtRest this s' where
  placed := h.placed hs.placed
  empty := by rw [h.router]; exact hs.empty
  done := by rw [h.router]; exact hs.done
  matched := by rw [h.router]; exact hs.matched

theorem AtRest.fiber (hs : AtRest this s) {number : Nat} {replies : Replies}
    (h : runFiber this number replies s = .ok () s') : s' = s := by
  rcases (runFiber_spec hs.placed number replies).ok h with hrun | ⟨-, hs'⟩
  · obtain ⟨_, _, _, _, _, hf, -⟩ := hrun
    exact absurd rfl (hs.done _ (List.mem_of_getElem? hf))
  · exact hs'

theorem Fresh.atRest (h : Fresh this s) : AtRest this s where
  placed := ⟨h.object, h.valid, by simp [h.mTracker]⟩
  empty := by simp [h.mTracker]
  done := by simp [h.fibers]
  matched := h.fetched.trans h.launched.symm

/-- As long as the actions follow the tracker, the router is at rest between them. -/
theorem atRest_of_reachable (h : Reachable (Fresh this) (Step this (Follows this)) s) :
    AtRest this s := by
  refine Reachable.invariant (fun _ h => h.atRest) ?_ h
  intro s s' _ hs hstep
  cases hstep with
  | elsewhere he => exact hs.elsewhere he
  | fiber number replies hrun => exact hs.fiber hrun ▸ hs
  | execution replies setup hexec hfollows hend => exact hs.execution hexec hfollows hend

end

end Router

/-! ## An update that is superseded -/

namespace Router

/-- The simulation starts when vanetza's clock does, and vanetza's next deadline is `d`. -/
def deadline (d : ItsTime) : Replies where
  utcStartTime := Runtime.utcItsDiff
  construct := { next := d }
  trigger := { next := d }

/-- Start `a` and let the fiber run. -/
def runUp (this : ObjectPtr) (a : ActionPtr) (number : Nat) (replies : Replies) :
    CoreM Network Unit := do
  startExecution this a
  runFiber this number replies

/-- `a` starts, and its fiber ends having reported `ds`. -/
def RunsUp (this : ObjectPtr) (a : ActionPtr) (number : Nat) (replies : Replies)
    (ds : List TimePoint) (s : Core Network) : Prop :=
  (a < s.actions.next ∧ (s.actions.cell a).mType ∈ types) ∧
    (runUp this a number replies s).value? = some () ∧
    ((runUp this a number replies s).state.world this).reports = (s.world this).reports ++ ds

instance {this : ObjectPtr} {a : ActionPtr} {number : Nat} {replies : Replies}
    {ds : List TimePoint} {s : Core Network} : Decidable (RunsUp this a number replies ds s) :=
  inferInstanceAs (Decidable ((_ ∧ _) ∧ _ ∧ _))

theorem RunsUp.executes {this : ObjectPtr} {a : ActionPtr} {number : Nat} {replies : Replies}
    {ds : List TimePoint} {s : Core Network} (h : RunsUp this a number replies ds s) :
    Executes this a ds s (runUp this a number replies s).state := by
  obtain ⟨⟨ha, htype⟩, hok, hreports⟩ := h
  obtain ⟨_, s₁, hstart, hrun⟩ := bind_eq_ok.1 (Result.eq_ok hok)
  exact ⟨ha, htype, ⟨s₁, hstart, .single (.fiber number replies hrun)⟩, hreports⟩

/-- A router, the object `0`, for which an `initRouter` action has been made. -/
def made : Core Network :=
  { Core.new fun _ => { mVehicleObject := some 1 } with
    objects := (Heap.empty {}).alloc { mObjectId := 1 }
    actions := (Heap.empty (selfAction 1 0 "initRouter")).alloc (selfAction 1 0 "initRouter") }

def fetch (a : ActionPtr) : CoreM Network Unit := endExecution 0 a (deadline 0) none

/-- `initRouter` reports a deadline at 300 ms: the action `1` is the next `caUpdate`, `2` an update. -/
def initialised : Core Network := (fetch 0 (runUp 0 0 0 (deadline 300000) made).state).state

/-- `caUpdate` reports a deadline at 150 ms: the update `4` supersedes `2`. -/
def superseded : Core Network := (fetch 1 (runUp 0 1 1 (deadline 150000) initialised).state).state

/-- What the runs of `0`, `1` and `4` come to. -/
theorem superseded_evaluated :
    (0 < made.objects.next ∧ (made.objects.cell (0 : ObjectPtr)).mObjectId.valid = true) ∧
    (RunsUp 0 0 0 (deadline 300000) [300000000] made ∧
      (made.actions.cell (0 : ActionPtr)).mType = "initRouter" ∧
      (fetch 0 (runUp 0 0 0 (deadline 300000) made).state).value? = some ()) ∧
    (RunsUp 0 1 1 (deadline 150000) [150000000] initialised ∧
      (initialised.actions.cell (1 : ActionPtr)).mType = "caUpdate" ∧
      (fetch 1 (runUp 0 1 1 (deadline 150000) initialised).state).value? = some ()) ∧
    RunsUp 0 4 2 (deadline 400000) [400000000] superseded ∧
      (superseded.actions.cell (4 : ActionPtr)).mType = "update" ∧
      (superseded.world 0).mTracker = ⟨some 4, some 2⟩ ∧
      (fetch 4 (runUp 0 4 2 (deadline 400000) superseded).state).value? = some () := by
  decide +kernel

theorem made_fresh : Fresh 0 made := by
  obtain ⟨⟨hobject, hvalid⟩, -⟩ := superseded_evaluated
  exact ⟨hobject, hvalid, rfl, rfl, rfl, rfl, rfl, rfl⟩

theorem initialised_reachable {C : ActionPtr → Core Network → List TimePoint → Prop}
    (hC : ∀ a s ds, (s.actions.cell a).mType = "caUpdate" ∨ (s.actions.cell a).mType = "initRouter" →
      C a s ds) : Reachable (Fresh 0) (Step 0 C) initialised := by
  obtain ⟨-, ⟨hruns, htype, hends⟩, -⟩ := superseded_evaluated
  exact .step (.init made_fresh)
    (.execution _ _ hruns.executes (hC _ _ _ (.inr htype)) (Result.eq_ok hends))

theorem superseded_reachable {C : ActionPtr → Core Network → List TimePoint → Prop}
    (hC : ∀ a s ds, (s.actions.cell a).mType = "caUpdate" ∨ (s.actions.cell a).mType = "initRouter" →
      C a s ds) : Reachable (Fresh 0) (Step 0 C) superseded := by
  obtain ⟨-, -, ⟨hruns, htype, hends⟩, -⟩ := superseded_evaluated
  exact .step (initialised_reachable hC)
    (.execution _ _ hruns.executes (hC _ _ _ (.inl htype)) (Result.eq_ok hends))

end Router

/-- In every run of a router whose actions follow the tracker, the results asked for are those of
the tasks launched; the next action, ended in whatever way, keeps it so if and only if it follows
the tracker too. -/
theorem matched_iff (this : ObjectPtr) (s : Core Network)
    (h : Reachable (Router.Fresh this) (Router.Step this (Router.Follows this)) s) :
    Router.Matched (s.world this) ∧
      ∀ a ds s₁ replies setup, Router.Executes this a ds s s₁ →
        (Router.Matched ((Router.endExecution this a replies setup s₁).state.world this) ↔
          Router.Follows this a s ds) :=
  have hs := Router.atRest_of_reachable h
  ⟨hs.matched, fun _ _ _ replies setup h => Router.matched_iff_follows hs h replies setup⟩


theorem matched_iff_superseded :
    Router.Matched (Router.superseded.world 0) ∧
      ∀ replies setup, ¬ Router.Matched ((Router.endExecution 0 4 replies setup
        (Router.runUp 0 4 2 (Router.deadline 400000) Router.superseded).state).state.world 0) := by
  obtain ⟨hmatched, hnext⟩ := matched_iff 0 Router.superseded
    (Router.superseded_reachable fun _ _ _ => .inl)
  obtain ⟨-, -, -, hruns, htype, htracker, -⟩ := Router.superseded_evaluated
  refine ⟨hmatched, fun replies setup => (hnext 4 _ _ replies setup hruns.executes).not.2 ?_⟩
  simp [Router.Follows, htracker, htype]

/-- The update `4` is started as the next one, and when it ends the tracker waits for `2`. -/
theorem not_matched :
    ¬ ∀ this s, Reachable (Router.Fresh this) (Router.Step this fun _ _ _ => True) s →
      Router.Matched (s.world this) := by
  intro h
  obtain ⟨-, -, -, hruns, -, -, hends⟩ := Router.superseded_evaluated
  have hreach : Reachable (Router.Fresh 0) (Router.Step 0 fun _ _ _ => True)
      (Router.fetch 4 (Router.runUp 0 4 2 (Router.deadline 400000) Router.superseded).state).state :=
    .step (Router.superseded_reachable fun _ _ _ _ => trivial)
      (.execution _ _ hruns.executes trivial (Result.eq_ok hends))
  exact absurd (h 0 _ hreach) (by unfold Router.Matched; decide +kernel)

end Cosidia
