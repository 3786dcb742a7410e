import Cosidia.Verify.RouterRuns

/-!
# Indications

A router looks at an indication only if its tracker says that the indication may start, and the
tracker compares it with the next update. So an indication is received as long as the runtime has
never reported a deadline for which an update was made.
-/

namespace Cosidia

open EStateM Relation

namespace Router

/-! ## What the tracker knows -/

/-- What holds in every run of a router, whatever its actions are ended by. -/
structure Tracked (this : ObjectPtr) (s : Core Network) : Prop where
  placed : Placed this s
  update : ∀ p, (s.world this).mTracker.mNextStart = some p → (s.actions.cell p).mType = "update"
  empty : (s.world this).mTracker.mNextStart = none ↔ ∀ d ∈ (s.world this).reports, d ≤ 0
  initialised : (s.world this).mInitDone = true → (s.world this).mRouter = true

/-- A step of a run keeps track. -/
def KeepsTrack (this : ObjectPtr) (s s' : Core Network) : Prop :=
  Tracked this s → Tracked this s' ∧ (s.world this).reports <+: (s'.world this).reports

section
variable {this : ObjectPtr} {a : ActionPtr} {s s' s'' s₁ : Core Network} {ds : List TimePoint}

theorem KeepsTrack.refl (s : Core Network) : KeepsTrack this s s :=
  fun hs => ⟨hs, List.prefix_refl _⟩

theorem KeepsTrack.trans (h : KeepsTrack this s s') (h' : KeepsTrack this s' s'') :
    KeepsTrack this s s'' := fun hs =>
  have ⟨hs', hr⟩ := h hs
  have ⟨hs'', hr'⟩ := h' hs'
  ⟨hs'', hr.trans hr'⟩

/-- Without an update, deadlines that make none are at most zero. -/
theorem supersedes_iff_of_none (h : (s.world this).mTracker.mNextStart = none) :
    Supersedes this s ds ↔ ∃ d ∈ ds, ¬ d ≤ 0 := by
  have hnext : nextStart this s = 0 := by
    simp only [nextStart]
    rw [h]
    rfl
  simp only [Supersedes]
  rw [hnext]
  refine exists_congr fun d => and_congr_right fun _ => ?_
  constructor
  · rintro ⟨h0, hne⟩ hle
    exact hne (le_antisymm hle h0)
  · exact fun h => ⟨(not_le.1 h).le, (not_le.1 h).ne'⟩

theorem Works.keepsTrack (h : Works this ds s s') : KeepsTrack this s s' := by
  intro hs
  refine ⟨⟨h.placed hs.placed, ?_, ?_, ?_⟩, h.reports ▸ List.prefix_append _ _⟩
  · intro p hp
    by_cases hsup : Supersedes this s ds
    · obtain ⟨n, -, -, ht, hupdate⟩ := h.supersedes hsup
      rw [ht] at hp
      exact Option.some.inj hp ▸ hupdate
    · rw [h.keeps hsup] at hp
      rw [h.action p (hs.placed.start p hp)]
      exact hs.update p hp
  · rw [h.reports, List.forall_mem_append, ← hs.empty]
    by_cases hsup : Supersedes this s ds
    · obtain ⟨n, -, -, ht, -⟩ := h.supersedes hsup
      rw [ht]
      refine iff_of_false (by simp) fun ⟨hnone, hds⟩ => ?_
      obtain ⟨d, hd, hpos⟩ := (supersedes_iff_of_none hnone).1 hsup
      exact hpos (hds d hd)
    · rw [h.keeps hsup]
      refine ⟨fun hnone => ⟨hnone, fun d hd => ?_⟩, And.left⟩
      by_contra hpos
      exact hsup ((supersedes_iff_of_none hnone).2 ⟨d, hd, hpos⟩)
  · exact fun hinit => (h.initialised hinit).elim (fun h' => h.mRouter (hs.initialised h')) id

/-- Changes of a router that concern neither its tracker's start nor its elements. -/
theorem keepsTrack_update {f : Router → Router}
    (hstart : (f (s.world this)).mTracker.mNextStart = (s.world this).mTracker.mNextStart)
    (hreports : (f (s.world this)).reports = (s.world this).reports)
    (hinit : (f (s.world this)).mInitDone = (s.world this).mInitDone)
    (hrouter : (f (s.world this)).mRouter = (s.world this).mRouter) :
    KeepsTrack this s (update this f s) := by
  intro hs
  refine ⟨⟨⟨hs.placed.object, hs.placed.valid, ?_⟩, ?_, ?_, ?_⟩, ?_⟩
  · rw [update_world, hstart]
    exact hs.placed.start
  · rw [update_world, hstart]
    exact hs.update
  · rw [update_world, hstart, hreports]
    exact hs.empty
  · rw [update_world, hinit, hrouter]
    exact hs.initialised
  · have hsame : ((update this f s).world this).reports = (s.world this).reports := by
      rw [update_world, hreports]
    exact hsame ▸ List.prefix_refl _

theorem keepsTrack_of_schedules (h : Schedules s s') : KeepsTrack this s s' := by
  intro hs
  refine ⟨⟨⟨by rw [h.objects]; exact hs.placed.object, by rw [h.objects]; exact hs.placed.valid, ?_⟩,
    ?_, by rw [h.world]; exact hs.empty, by rw [h.world]; exact hs.initialised⟩,
    h.world ▸ List.prefix_refl _⟩
  · rw [h.world, h.next]
    exact hs.placed.start
  · rw [h.world]
    exact fun p hp => (h.action p).1.trans (hs.update p hp)

theorem Elsewhere.keepsTrack {running : Option ActionPtr} (h : Elsewhere this running s s') :
    KeepsTrack this s s' := by
  intro hs
  refine ⟨⟨⟨h.object hs.placed.object, by rw [h.mObjectId]; exact hs.placed.valid, ?_⟩, ?_,
    by rw [h.router]; exact hs.empty, by rw [h.router]; exact hs.initialised⟩,
    h.router ▸ List.prefix_refl _⟩
  · rw [h.router]
    exact fun p hp => (hs.placed.start p hp).trans_le h.actions
  · rw [h.router]
    exact fun p hp => (h.mType p (hs.placed.start p hp)).trans (hs.update p hp)

theorem keepsTrack_runFiber {number : Nat} {replies : Replies}
    (h : runFiber this number replies s = .ok () s') : KeepsTrack this s s' := by
  intro hs
  rcases (runFiber_spec hs.placed number replies).ok h with
    ⟨task, action, ds, s₁, result, -, hw, rfl⟩ | ⟨-, rfl⟩
  · exact hw.keepsTrack.trans (keepsTrack_update rfl rfl rfl rfl) hs
  · exact KeepsTrack.refl _ hs

theorem Meanwhile.keepsTrack (h : Meanwhile this a s s') : KeepsTrack this s s' := by
  cases h with
  | elsewhere h => exact h.keepsTrack
  | fiber number replies h => exact keepsTrack_runFiber h

theorem keepsTrack_startExecution (ha : a < s.actions.next)
    (htype : (s.actions.cell a).mType ∈ types) (h : startExecution this a s = .ok () s') :
    KeepsTrack this s s' := by
  rcases startExecution_eq_ok ha htype h with ⟨-, rfl⟩ | ⟨-, rfl⟩
  · exact keepsTrack_update rfl rfl rfl rfl
  · exact .refl _

theorem Fetches.keepsTrack {replies : Replies} (h : Fetches this a replies s s') :
    KeepsTrack this s s' := by
  obtain ⟨number, s₁, -, hrun, hsched⟩ := h
  exact (keepsTrack_update rfl rfl rfl rfl).trans <| (keepsTrack_runFiber hrun).trans <|
    (keepsTrack_update rfl rfl rfl rfl).trans (keepsTrack_of_schedules hsched)

/-- Only actions of a router can be ended. -/
theorem types_of_endExecution {replies : Replies} {setup : Option Failure}
    (h : endExecution this a replies setup s = .ok () s') :
    a < s.actions.next ∧ (s.actions.cell a).mType ∈ types := by
  have ha : a < s.actions.next := by
    by_contra ha
    simp only [endExecution] at h
    rw [bind_apply, getAction_of_not_lt ha] at h
    cases h
  refine ⟨ha, ?_⟩
  have hget : getAction a s = .ok (s.actions.cell a) s := getAction_of_lt ha
  simp only [endExecution] at h
  simp only [bind_apply, hget] at h
  simp only [types, List.mem_cons, List.not_mem_nil, or_false]
  split_ifs at h with hup hca
  · tauto
  · tauto
  · cases h

theorem keepsTrack_endExecution {replies : Replies} {setup : Option Failure}
    (h : endExecution this a replies setup s = .ok () s') : KeepsTrack this s s' := by
  intro hs
  obtain ⟨ha, htype⟩ := types_of_endExecution h
  rcases (post_endExecution hs.placed ha htype replies setup).ok h with
    ⟨-, s₁, ⟨rfl, -⟩ | rfl, hf⟩ | ⟨-, rfl⟩
  · exact hf.keepsTrack hs
  · exact (keepsTrack_update rfl rfl rfl rfl).trans hf.keepsTrack hs
  · exact KeepsTrack.refl _ hs

theorem Executes.keepsTrack (h : Executes this a ds s s') : KeepsTrack this s s' := by
  obtain ⟨ha, htype, ⟨s₁, hstart, hrun⟩, -⟩ := h
  apply (keepsTrack_startExecution ha htype hstart).trans
  induction hrun with
  | refl => exact .refl _
  | tail _ hm ih => exact ih.trans hm.keepsTrack

theorem Step.keepsTrack {C : ActionPtr → Core Network → List TimePoint → Prop}
    (h : Step this C s s') : KeepsTrack this s s' := by
  cases h with
  | elsewhere h => exact h.keepsTrack
  | fiber number replies h => exact keepsTrack_runFiber h
  | execution replies setup h _ hend => exact h.keepsTrack.trans (keepsTrack_endExecution hend)

theorem Fresh.tracked (h : Fresh this s) : Tracked this s where
  placed := h.atRest.placed
  update := by simp [h.mTracker]
  empty := by simp [h.mTracker, h.reports]
  initialised := by simp [h.mInitDone]

/-- As long as no deadline has made an update, every action has followed the tracker. -/
theorem AtRest.step_of_none {C : ActionPtr → Core Network → List TimePoint → Prop}
    (hs : AtRest this s) (htracked : Tracked this s) (h : Step this C s s')
    (hnone : (s'.world this).mTracker.mNextStart = none) : AtRest this s' := by
  cases h with
  | elsewhere he => exact hs.elsewhere he
  | fiber number replies hrun => exact hs.fiber hrun ▸ hs
  | @execution a ds _ s₁ _ replies setup hexec _ hend =>
    obtain ⟨htracked₁, hreports₁⟩ := hexec.keepsTrack htracked
    obtain ⟨htracked', hreports'⟩ := keepsTrack_endExecution hend htracked₁
    have hall := htracked'.empty.1 hnone
    have hempty : (s.world this).mTracker.mNextStart = none := htracked.empty.2 fun d hd =>
      hall d ((hreports₁.trans hreports').subset hd)
    refine hs.execution hexec (.inr (.inl ⟨hempty, fun hsup => ?_⟩)) hend
    obtain ⟨d, hd, hpos⟩ := (supersedes_iff_of_none hempty).1 hsup
    refine hpos (hall d (hreports'.subset ?_))
    rw [hexec.2.2.2]
    exact List.mem_append_right _ hd

/-- What holds between two actions of a router, whatever they have been ended by. -/
theorem tracked_of_reachable {C : ActionPtr → Core Network → List TimePoint → Prop}
    (h : Reachable (Fresh this) (Step this C) s) :
    Tracked this s ∧ ((s.world this).mTracker.mNextStart = none → AtRest this s) := by
  refine Reachable.invariant (I := fun s => Tracked this s ∧
    ((s.world this).mTracker.mNextStart = none → AtRest this s))
    (fun s h => ⟨h.tracked, fun _ => h.atRest⟩) ?_ h
  rintro s s' - ⟨htracked, hrest⟩ hstep
  obtain ⟨htracked', hreports⟩ := hstep.keepsTrack htracked
  refine ⟨htracked', fun hnone => (hrest ?_).step_of_none htracked hstep hnone⟩
  exact htracked.empty.2 fun d hd => htracked'.empty.1 hnone d (hreports.subset hd)

/-! ## Receiving an indication -/

theorem indicate_indicated {r : Router} (hrouter : r.mRouter = true) (data : DataPtr)
    (reply : Reply) : r.indicated ++ [data] <+: (indicate data reply r).state.indicated := by
  have hindicate : indicate data reply r =
      call reply { r with indicated := r.indicated ++ [data] } := by
    simp only [indicate]
    rw [bind_apply, get_apply]
    dsimp only
    rw [if_neg (by simp [hrouter])]
    rfl
  have hcall := (program_call reply).prepared { r with indicated := r.indicated ++ [data] }
  rw [hindicate]
  exact hcall.indicated

/-- A fiber that runs `transmissionReceived` hands the packet to `indicate`. -/
theorem indicated_runFiber (hs : Placed this s) {number : Nat} {data : DataPtr} (replies : Replies)
    (hf : (s.world this).fibers[number]? = some ⟨.transmissionReceived, a, none⟩)
    (hinit : (s.world this).mInitDone = true) (hrouter : (s.world this).mRouter = true)
    (ha : a < s.actions.next) (hdata : (s.actions.cell a).mActionData = some data) :
    (s.world this).indicated ++ [data] <+:
      ((runFiber this number replies s).state.world this).indicated := by
  set I : Core Network → Prop := fun s' =>
    (s.world this).indicated ++ [data] <+: (s'.world this).indicated with hI
  have hget : getAction a s = .ok (s.actions.cell a) s := getAction_of_lt ha
  have htask : Post (transmissionReceived this a replies) s (fun _ => I) fun _ => I := by
    have hindicate : I (onRouter this (indicate data replies.indicate) s).state := by
      unfold onRouter
      rw [zoom_state, hI]
      simpa using indicate_indicated hrouter data replies.indicate
    unfold transmissionReceived
    rw [post_bind_of_ok getRouter_apply]
    simp only [hinit, if_true]
    rw [post_bind_of_ok hget]
    simp only [hdata]
    refine Post.bind (Post.mono ((post_of_state hindicate).and
      (preparing_onRouter (.refl s) (program_indicate data replies.indicate)))
      (fun _ _ h => h) fun _ _ h => h.1) ?_
    rintro _ s₁ ⟨hI₁, hprep⟩
    apply Post.mono (working_commonActions (hprep.placed hs) (.refl s₁) _ _ _)
    · exact fun _ _ ⟨_, hw⟩ => hI₁.trans hw.indicated
    · exact fun _ _ ⟨_, hw⟩ => hI₁.trans hw.indicated
  apply Post.state (I := I)
  unfold runFiber
  rw [post_bind_of_ok getRouter_apply]
  simp only [hf]
  apply Post.bind (post_attempt htask)
  intro result s₁ h
  apply post_of_state
  rw [onRouter_modify, hI]
  simpa using h

/-- The indication `a`, started in `s`, is received: a task has been launched for it, and by the end
of `a` its packet has been handed to `indicate`. -/
structure Received (this : ObjectPtr) (a : ActionPtr) (data : DataPtr) (s s₁ : Core Network) :
    Prop where
  launched : (s₁.world this).fibers = (s.world this).fibers ++ [⟨.transmissionReceived, a, none⟩]
  handed : ∀ s₂ replies setup s₃, ReflTransGen (Meanwhile this a) s₁ s₂ →
    endExecution this a replies setup s₂ = .ok () s₃ →
    (s.world this).indicated ++ [data] <+: (s₃.world this).indicated

/-- What holds in `s'` while the indication `a`, started in `s`, is received. -/
structure Receiving (this : ObjectPtr) (a : ActionPtr) (data : DataPtr) (s s' : Core Network) :
    Prop where
  under : ∃ ds, Underway this a (some .transmissionReceived) ds s s'
  mActionData : (s'.actions.cell a).mActionData = some data
  mInitDone : (s'.world this).mInitDone = true
  mRouter : (s'.world this).mRouter = true
  handed : ((s'.world this).fibers[(s.world this).fibers.length]? =
        some ⟨.transmissionReceived, a, none⟩ ∧
      (s'.world this).indicated = (s.world this).indicated) ∨
    (s.world this).indicated ++ [data] <+: (s'.world this).indicated

theorem Receiving.fiber {data : DataPtr} (h : Receiving this a data s s₁) (hs : AtRest this s)
    (ha : a < s.actions.next) {number : Nat} {replies : Replies}
    (hrun : runFiber this number replies s₁ = .ok () s') : Receiving this a data s s' := by
  obtain ⟨ds, hunder⟩ := h.under
  rcases (runFiber_spec hunder.placed number replies).ok hrun with hruns | ⟨-, rfl⟩
  swap
  · exact h
  obtain ⟨ds', hunder'⟩ := hunder.fiber hs ha hruns
  obtain ⟨task, action, ds'', s₂, result, hf, hw, rfl⟩ := hruns
  obtain ⟨rfl, -⟩ := hunder.task_of_idle hs hf
  constructor
  case under => exact ⟨ds', hunder'⟩
  case mActionData => exact (congrArg _ (hw.action a (ha.trans_le hunder.made))).trans h.mActionData
  case mInitDone =>
    rw [update_world]
    exact hw.mInitDone h.mInitDone
  case mRouter =>
    rw [update_world]
    exact hw.mRouter h.mRouter
  case handed =>
    refine .inr ?_
    rcases h.handed with ⟨hidle, hindicated⟩ | hhanded
    · have := indicated_runFiber hunder.placed replies hidle h.mInitDone h.mRouter
        (ha.trans_le hunder.made) h.mActionData
      rw [hrun, hindicated] at this
      exact this
    · rw [update_world]
      exact hhanded.trans hw.indicated

theorem Receiving.elsewhere {data : DataPtr} (h : Receiving this a data s s₁)
    (ha : a < s.actions.next) (he : Elsewhere this (some a) s₁ s') : Receiving this a data s s' := by
  obtain ⟨ds, hunder⟩ := h.under
  constructor
  case under => exact ⟨ds, hunder.elsewhere ha he⟩
  case mActionData =>
    rw [he.mActionData a (ha.trans_le hunder.made) (by simp [h.mActionData]), h.mActionData]
  all_goals rw [he.router]
  · exact h.mInitDone
  · exact h.mRouter
  · exact h.handed

theorem Receiving.run {data : DataPtr} (h : Receiving this a data s s₁) (hs : AtRest this s)
    (ha : a < s.actions.next) (hrun : ReflTransGen (Meanwhile this a) s₁ s') :
    Receiving this a data s s' := by
  induction hrun with
  | refl => exact h
  | tail _ hm ih =>
    cases hm with
    | elsewhere he => exact ih.elsewhere ha he
    | fiber number replies hrun => exact ih.fiber hs ha hrun

theorem Fetches.indicated {replies : Replies} (h : Fetches this a replies s s')
    (hs : Placed this s) : (s.world this).indicated <+: (s'.world this).indicated := by
  obtain ⟨number, s₁, -, hrun, hsched⟩ := h
  rw [hsched.world, update_world]
  rcases (runFiber_spec (hs.update rfl) number replies).ok hrun with
    ⟨task, action, ds, s₂, result, -, hw, rfl⟩ | ⟨-, rfl⟩
  · rw [update_world]
    simpa [noteFetched] using hw.indicated
  · rw [update_world]
    exact List.prefix_refl _

/-- Fetching the result of a fiber that has not run hands the packet over. -/
theorem Fetches.handed {replies : Replies} {number : Nat} {data : DataPtr}
    (h : Fetches this a replies s s') (hs : Placed this s)
    (hfuture : (s.world this).mFuture = some number)
    (hf : (s.world this).fibers[number]? = some ⟨.transmissionReceived, a, none⟩)
    (hinit : (s.world this).mInitDone = true) (hrouter : (s.world this).mRouter = true)
    (ha : a < s.actions.next) (hdata : (s.actions.cell a).mActionData = some data) :
    (s.world this).indicated ++ [data] <+: (s'.world this).indicated := by
  obtain ⟨number', s₁, hnumber, hrun, hsched⟩ := h
  obtain rfl := Option.some.inj (hfuture.symm.trans hnumber)
  have hnoted := indicated_runFiber (s := update this (noteFetched a) s) (hs.update rfl) replies
    (by simpa [noteFetched] using hf) (by simpa [noteFetched] using hinit)
    (by simpa [noteFetched] using hrouter) ha hdata
  rw [hrun] at hnoted
  rw [hsched.world, update_world]
  simpa [noteFetched] using hnoted

theorem Receiving.handed_of_fetches {data : DataPtr} (h : Receiving this a data s s₁)
    (ha : a < s.actions.next) {f : Router → Router} (hplaced : Placed this (Router.update this f s₁))
    (hf : ∀ r, (f r).fibers = r.fibers ∧ (f r).mFuture = r.mFuture ∧ (f r).mInitDone = r.mInitDone ∧
      (f r).mRouter = r.mRouter ∧ (f r).indicated = r.indicated) {replies : Replies}
    (hfetch : Fetches this a replies (Router.update this f s₁) s') :
    (s.world this).indicated ++ [data] <+: (s'.world this).indicated := by
  obtain ⟨ds, hunder⟩ := h.under
  obtain ⟨hfibers, hfuture, hinit, hrouter, hindicated⟩ := hf (s₁.world this)
  rcases h.handed with ⟨hidle, hsame⟩ | hhanded
  · have := hfetch.handed hplaced
      (by rw [update_world, hfuture]; exact hunder.mFuture (by simp))
      (by rw [update_world, hfibers]; exact hidle) (by rw [update_world, hinit]; exact h.mInitDone)
      (by rw [update_world, hrouter]; exact h.mRouter) (ha.trans_le hunder.made) h.mActionData
    rwa [update_world, hindicated, hsame] at this
  · have := hfetch.indicated hplaced
    rw [update_world, hindicated] at this
    exact hhanded.trans this

/-- At the end of an indication that has been launched with an empty tracker, the packet has been
handed over. -/
theorem Receiving.handed_of_end {data : DataPtr} (h : Receiving this a data s s₁)
    (hs : AtRest this s) (ha : a < s.actions.next)
    (hnone : (s.world this).mTracker.mNextStart = none) {replies : Replies} {setup : Option Failure}
    (hend : endExecution this a replies setup s₁ = .ok () s') :
    (s.world this).indicated ++ [data] <+: (s'.world this).indicated := by
  obtain ⟨ds, hunder⟩ := h.under
  obtain ⟨ha', htype⟩ := types_of_endExecution hend
  rcases (post_endExecution hunder.placed ha' htype replies setup).ok hend with
    ⟨-, s₂, ⟨rfl, -⟩ | rfl, hf⟩ | ⟨hends, rfl⟩
  · have hself : update this (fun r => r) s₂ = s₂ := update_self s₂
    exact h.handed_of_fetches ha (f := fun r => r) (by rw [hself]; exact hunder.placed)
      (fun _ => ⟨rfl, rfl, rfl, rfl, rfl⟩) (by rw [hself]; exact hf)
  · exact h.handed_of_fetches ha hunder.placed.moveEnd (fun _ => ⟨rfl, rfl, rfl, rfl, rfl⟩) hf
  · rcases h.handed with ⟨hidle, -⟩ | hhanded
    · -- the fiber has not run, so the tracker is empty and lets the indication end
      obtain ⟨-, -, -, -, ht, -⟩ := hunder.task_of_idle hs hidle
      refine absurd (.inr ?_) hends
      simp only [AtEnd]
      rw [ht]
      exact ⟨.inr (hs.empty.1 hnone), .inr hnone⟩
    · exact hhanded

theorem received_of_none {data : DataPtr} (hs : AtRest this s) (htracked : Tracked this s)
    (hnone : (s.world this).mTracker.mNextStart = none) (hinit : (s.world this).mInitDone = true)
    (ha : a < s.actions.next) (htype : (s.actions.cell a).mType = "indication")
    (hdata : (s.actions.cell a).mActionData = some data)
    (hstart : startExecution this a s = .ok () s₁) : Received this a data s s₁ := by
  have hlaunches : Launches this a s :=
    .inr (.inr (ActiveActionTracker.isStart_iff.2 (.inr hnone)))
  obtain ⟨task, htask, hunder⟩ := underway_of_start hs ha (by simp [types, htype]) hstart
  obtain ⟨-, rfl⟩ | ⟨hnot, -⟩ := startExecution_eq_ok ha (by simp [types, htype]) hstart
  swap
  · exact absurd hlaunches hnot
  have htaskOf : taskOf (s.actions.cell a).mType = .transmissionReceived := by
    rw [htype]
    decide
  rw [htaskOf] at hstart hunder ⊢
  obtain rfl : task = some .transmissionReceived := by
    obtain ⟨t, rfl⟩ := Option.ne_none_iff_exists'.1 (htask.2 hlaunches)
    obtain ⟨result, hfibers, -⟩ := hunder.fibers
    simp [withFiber] at hfibers
    rw [hfibers.1]
  refine ⟨by simp [withFiber], fun s₂ replies setup s₃ hrun hend => ?_⟩
  have hreceiving : Receiving this a data s (update this (withFiber .transmissionReceived a) s) := by
    refine ⟨⟨[], hunder⟩, hdata, ?_, ?_, .inl ?_⟩
    · simpa [withFiber] using hinit
    · simpa [withFiber] using htracked.initialised hinit
    · simp [withFiber]
  exact (hreceiving.run hs ha hrun).handed_of_end hs ha hnone hend

end

end Router

/-- In every run of a router, an indication started after `initRouter` has completed is received if
and only if the runtime has not reported a positive deadline before. -/
theorem received_iff (this : ObjectPtr) (s : Core Network)
    (h : Reachable (Router.Fresh this) (Router.Step this fun _ _ _ => True) s)
    (hinit : (s.world this).mInitDone = true) (a : ActionPtr) (data : DataPtr)
    (ha : a < s.actions.next) (htype : (s.actions.cell a).mType = "indication")
    (hdata : (s.actions.cell a).mActionData = some data) (s₁ : Core Network)
    (hstart : Router.startExecution this a s = .ok () s₁) :
    Router.Received this a data s s₁ ↔ ∀ d ∈ (s.world this).reports, d ≤ 0 := by
  obtain ⟨htracked, hrest⟩ := Router.tracked_of_reachable h
  rw [← htracked.empty]
  constructor
  · intro hreceived
    by_contra hsome
    have hnot : ¬ Router.Launches this a s := by
      rintro (hca | hinit | hstart)
      · simp [htype] at hca
      · simp [htype] at hinit
      · rcases ActiveActionTracker.isStart_iff.1 hstart with hself | hnone
        · simpa [htype] using htracked.update a hself
        · exact hsome hnone
    rcases Router.startExecution_eq_ok ha (by simp [Router.types, htype]) hstart with
      ⟨hlaunches, -⟩ | ⟨-, rfl⟩
    · exact hnot hlaunches
    · simpa using hreceived.launched
  · exact fun hnone => Router.received_of_none (hrest hnone) htracked hnone hinit ha htype hdata hstart

/-! ## Indications after `initRouter` -/

namespace Router

/-- An indication at 50 ms with the packet `7`. -/
def indication : Action :=
  { selfAction 1 (Duration.milliseconds 50) "indication" with mActionData := some 7 }

/-- Another object has made the indication. -/
def withIndication (s : Core Network) : Core Network :=
  { s with actions := s.actions.alloc indication }

theorem withIndication_elsewhere (s : Core Network) : Elsewhere 0 none s (withIndication s) where
  router := rfl
  actions := Nat.le_succ _
  mType p hp := by simp [withIndication, Heap.alloc_cell_of_lt hp]
  mActionData p hp _ := by simp [withIndication, Heap.alloc_cell_of_lt hp]
  mStartTime := by simp
  object := id
  mObjectId := rfl

/-- vanetza's next deadline is the start of the simulation, 10 µs after the start of its clock. -/
def startDeadline : Replies where
  utcStartTime := Runtime.utcItsDiff + Runtime.ofMicroseconds 10
  construct := { next := 9 }
  pending := { next := 10 }
  trigger := { next := 10 }

/-- After an `initRouter` that reports this deadline no update is due. -/
def quiet : Core Network :=
  withIndication (endExecution 0 0 startDeadline none (runUp 0 0 0 startDeadline made).state).state

/-- After an `initRouter` that reports a deadline at 300 ms an update is due then. -/
def busy : Core Network := withIndication initialised

theorem quiet_evaluated :
    (RunsUp 0 0 0 startDeadline [0] made ∧
      (endExecution 0 0 startDeadline none (runUp 0 0 0 startDeadline made).state).value? =
        some ()) ∧
    (quiet.world 0).mInitDone = true ∧
    ((2 : ActionPtr) < quiet.actions.next ∧
      (quiet.actions.cell (2 : ActionPtr)).mType = "indication" ∧
      (quiet.actions.cell (2 : ActionPtr)).mActionData = some 7 ∧
      (startExecution 0 2 quiet).value? = some ()) ∧
    ∀ d ∈ (quiet.world 0).reports, d ≤ 0 := by
  decide +kernel

/-- The indication is started before the update that is due, so it is dropped. -/
theorem busy_evaluated :
    (busy.world 0).mInitDone = true ∧
    ((3 : ActionPtr) < busy.actions.next ∧
      (busy.actions.cell (3 : ActionPtr)).mType = "indication" ∧
      (busy.actions.cell (3 : ActionPtr)).mActionData = some 7 ∧
      (startExecution 0 3 busy).value? = some ()) ∧
    (((startExecution 0 3 busy).state.world 0).fibers.length = (busy.world 0).fibers.length) := by
  decide +kernel

theorem quiet_reachable : Reachable (Fresh 0) (Step 0 fun _ _ _ => True) quiet := by
  obtain ⟨⟨hruns, hends⟩, -⟩ := quiet_evaluated
  exact .step (.step (.init made_fresh)
    (.execution startDeadline none hruns.executes trivial (Result.eq_ok hends)))
    (.elsewhere (withIndication_elsewhere _))

theorem busy_reachable : Reachable (Fresh 0) (Step 0 fun _ _ _ => True) busy :=
  .step (initialised_reachable fun _ _ _ _ => trivial) (.elsewhere (withIndication_elsewhere _))

end Router

theorem received_iff_quiet :
    Router.Received 0 2 7 Router.quiet (Router.startExecution 0 2 Router.quiet).state := by
  obtain ⟨-, hinit, ⟨ha, htype, hdata, hstart⟩, hreports⟩ := Router.quiet_evaluated
  exact (received_iff 0 Router.quiet Router.quiet_reachable hinit 2 7 ha htype hdata _
    (Result.eq_ok hstart)).2 hreports

theorem not_received :
    ¬ ∀ this s, Reachable (Router.Fresh this) (Router.Step this fun _ _ _ => True) s →
      (s.world this).mInitDone = true → ∀ a data, a < s.actions.next →
      (s.actions.cell a).mType = "indication" → (s.actions.cell a).mActionData = some data →
      ∀ s₁, Router.startExecution this a s = .ok () s₁ → Router.Received this a data s s₁ := by
  intro h
  obtain ⟨hinit, ⟨ha, htype, hdata, hstart⟩, hfibers⟩ := Router.busy_evaluated
  have hreceived := h 0 Router.busy Router.busy_reachable hinit (3 : ActionPtr) 7 ha htype hdata _
    (Result.eq_ok hstart)
  have hlength := congrArg List.length hreceived.launched
  rw [List.length_append, hfibers] at hlength
  simp at hlength

end Cosidia
