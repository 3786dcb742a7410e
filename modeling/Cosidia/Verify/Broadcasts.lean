import Cosidia.Verify.Transmissions

/-!
# What becomes of transmissions

Each action of the radio works on a copy of the context that it finds, and puts the whole copy back
when it ends. Since the actions follow each other, nothing is lost: the context has the transmissions
that have begun and not ended, and every recipient of a transmission is told about it once.
-/

namespace Cosidia

open EStateM Std

variable {π : Type}

namespace Radio

/-! ## The account of the transmissions -/

/-- What of an action does not change any more once it is complete. -/
structure Label where
  type : Symbol
  data : Option DataPtr
  affected : ObjectId
  deriving DecidableEq, Repr

def label (s : Core (Ether π)) (q : ActionPtr) : Label :=
  ⟨(s.actions.cell q).mType, (s.actions.cell q).mActionData, (s.actions.cell q).mAffectedObject⟩

/-- An action of the type `type` for the transmission `d` has ended. -/
def HasEnded (type : Symbol) (ℓ : ActionPtr → Label) (past : List ActionPtr) (d : DataPtr) : Prop :=
  ∃ q ∈ past, (ℓ q).type = type ∧ (ℓ q).data = some d

/-- The transmission has been put into the context. -/
abbrev Begun (ℓ : ActionPtr → Label) (past : List ActionPtr) (d : DataPtr) : Prop :=
  HasEnded "transmissionStart" ℓ past d

/-- The transmission has been taken out of the context. -/
abbrev Over (ℓ : ActionPtr → Label) (past : List ActionPtr) (d : DataPtr) : Prop :=
  HasEnded "transmissionEnd" ℓ past d

instance (type : Symbol) (ℓ : ActionPtr → Label) (past : List ActionPtr) (d : DataPtr) :
    Decidable (HasEnded type ℓ past d) :=
  inferInstanceAs (Decidable (∃ q ∈ past, _ ∧ _))

/-- The actions `past` have ended, the actions `issued` have been scheduled, and the recipients of
transmissions have been decided. -/
structure Account (rid : ObjectId) (ℓ : ActionPtr → Label) (past issued : List ActionPtr)
    (decided : List (DataPtr × List ObjectId)) (context : RadioContext) : Prop where
  keys : (decided.map (·.1)).Nodup
  begun : ∀ d, d ∈ decided.map (·.1) ↔ Begun ℓ past d
  recipients : ∀ e ∈ decided, e.2.Nodup ∧ ∀ i ∈ e.2, i.valid = true
  context : ∀ (d : DataPtr) (l : List ObjectId),
    context[d]? = some l ↔ (d, l) ∈ decided ∧ ¬Over ℓ past d
  own : ∀ q ∈ past, (ℓ q).type = "transmissionEnd" → q ∈ issued
  only : ∀ q ∈ issued, (∃ d, ℓ q = ⟨"transmissionEnd", some d, rid⟩ ∧ Begun ℓ past d) ∨
    ∃ e ∈ decided, Over ℓ past e.1 ∧ ∃ i ∈ e.2, ℓ q = ⟨"indication", some e.1, i⟩
  ends : ∀ d, issued.countP (fun q => ℓ q = ⟨"transmissionEnd", some d, rid⟩) =
    if Begun ℓ past d then 1 else 0
  indications : ∀ d i, issued.countP (fun q => ℓ q = ⟨"indication", some d, i⟩) =
    if Over ℓ past d ∧ ∃ e ∈ decided, e.1 = d ∧ i ∈ e.2 then 1 else 0

variable {rid : ObjectId} {ℓ ℓ' : ActionPtr → Label} {past issued : List ActionPtr}
variable {decided : List (DataPtr × List ObjectId)} {context : RadioContext} {d : DataPtr}
variable {a q : ActionPtr} {l : List ObjectId} {kind : Symbol}

theorem hasEnded_cons : HasEnded kind ℓ (a :: past) d ↔
    ((ℓ a).type = kind ∧ (ℓ a).data = some d) ∨ HasEnded kind ℓ past d := by
  simp [HasEnded]

theorem hasEnded_cons_of_ne (h : (ℓ a).type ≠ kind) :
    HasEnded kind ℓ (a :: past) d ↔ HasEnded kind ℓ past d :=
  hasEnded_cons.trans (or_iff_right fun ha => h ha.1)

theorem account_empty (rid : ObjectId) (ℓ : ActionPtr → Label) : Account rid ℓ [] [] [] ∅ where
  keys := .nil
  begun d := by simp [HasEnded]
  recipients := nofun
  context d l := by simp
  own := nofun
  only := nofun
  ends d := by simp [HasEnded]
  indications d i := by simp [HasEnded]

namespace Account

variable (h : Account rid ℓ past issued decided context)
include h

theorem congr (hpast : ∀ q ∈ past, ℓ' q = ℓ q) (hissued : ∀ q ∈ issued, ℓ' q = ℓ q) :
    Account rid ℓ' past issued decided context := by
  have hended : ∀ type d, HasEnded type ℓ' past d ↔ HasEnded type ℓ past d := by
    refine fun type d => exists_congr fun q => and_congr_right fun hq => ?_
    rw [hpast q hq]
  have hbegun : ∀ d, Begun ℓ' past d ↔ Begun ℓ past d := hended _
  have hover : ∀ d, Over ℓ' past d ↔ Over ℓ past d := hended _
  refine ⟨h.keys, fun d => ?_, h.recipients, fun d l => ?_, fun q hq htype => ?_, fun q hq => ?_,
    fun d => ?_, fun d i => ?_⟩
  · rw [hbegun]
    exact h.begun d
  · rw [hover]
    exact h.context d l
  · rw [hpast q hq] at htype
    exact h.own q hq htype
  · simp only [hbegun, hover, hissued q hq]
    exact h.only q hq
  · refine (List.countP_congr fun q hq => ?_).trans ((h.ends d).trans ?_)
    · rw [hissued q hq]
    · simp only [hbegun]
  · refine (List.countP_congr fun q hq => ?_).trans ((h.indications d i).trans ?_)
    · rw [hissued q hq]
    · simp only [hover]

theorem begun_of_issued (hq : q ∈ issued) (htype : (ℓ q).type = "transmissionEnd")
    (hdata : (ℓ q).data = some d) : ℓ q = ⟨"transmissionEnd", some d, rid⟩ ∧ Begun ℓ past d := by
  rcases h.only q hq with ⟨d', hlabel, hbegun⟩ | ⟨e, -, -, i, -, hlabel⟩
  · rw [hlabel] at hdata
    obtain rfl := Option.some.inj hdata
    exact ⟨hlabel, hbegun⟩
  · rw [hlabel] at htype
    exact absurd htype (by simp)

theorem begun_of_over (hover : Over ℓ past d) : Begun ℓ past d := by
  obtain ⟨q, hq, htype, hdata⟩ := hover
  exact (h.begun_of_issued (h.own q hq htype) htype hdata).2

theorem eq_of_mem {l' : List ObjectId} (hl : (d, l) ∈ decided) (hl' : (d, l') ∈ decided) : l = l' :=
  congrArg Prod.snd (List.inj_on_of_nodup_map h.keys hl hl' rfl)

/-- There is only one action that ends a transmission, so it has not ended if that has not. -/
theorem not_over (hissued : a ∈ issued) (hpast : a ∉ past)
    (htype : (ℓ a).type = "transmissionEnd") (hdata : (ℓ a).data = some d) : ¬Over ℓ past d := by
  rintro ⟨q, hq, htype', hdata'⟩
  obtain ⟨hlabel, hbegun⟩ := h.begun_of_issued hissued htype hdata
  have hlabel' := (h.begun_of_issued (h.own q hq htype') htype' hdata').1
  have hcount := h.ends d
  rw [if_pos hbegun, List.countP_eq_length_filter, List.length_eq_one_iff] at hcount
  obtain ⟨p, hp⟩ := hcount
  have hmem : ∀ b ∈ issued, ℓ b = ⟨"transmissionEnd", some d, rid⟩ → b = p := fun b hb hb' => by
    rw [← List.mem_singleton, ← hp]
    exact List.mem_filter.2 ⟨hb, decide_eq_true hb'⟩
  rw [hmem a hissued hlabel, ← hmem q (h.own q hq htype') hlabel'] at hpast
  exact hpast hq

/-- An action that ends a transmission and has not ended finds it in the context. -/
theorem exists_entry (hissued : a ∈ issued) (hpast : a ∉ past)
    (htype : (ℓ a).type = "transmissionEnd") :
    ∃ d l, (ℓ a).data = some d ∧ (d, l) ∈ decided ∧ context[d]? = some l := by
  obtain ⟨d, hlabel, hbegun⟩ : ∃ d, ℓ a = ⟨"transmissionEnd", some d, rid⟩ ∧ Begun ℓ past d := by
    apply (h.only a hissued).resolve_right
    rintro ⟨e, -, -, i, -, hlabel⟩
    rw [hlabel] at htype
    exact absurd htype (by simp)
  have hdata : (ℓ a).data = some d := by rw [hlabel]
  obtain ⟨⟨d', l⟩, hl, rfl⟩ := List.mem_map.1 ((h.begun d).2 hbegun)
  exact ⟨d', l, hdata, hl, (h.context d' l).2 ⟨hl, h.not_over hissued hpast htype hdata⟩⟩

/-- The transmission `d` begins. -/
theorem begin (ha : (ℓ a).type = "transmissionStart") (hdata : (ℓ a).data = some d)
    (hnew : ¬Begun ℓ past d) (hq : ℓ q = ⟨"transmissionEnd", some d, rid⟩)
    (hl : l.Nodup ∧ ∀ i ∈ l, i.valid = true) :
    Account rid ℓ (a :: past) (q :: issued) ((d, l) :: decided) (context.insertIfNew d l) := by
  have hover : ∀ d', Over ℓ (a :: past) d' ↔ Over ℓ past d' := fun d' =>
    hasEnded_cons_of_ne (by rw [ha]; decide)
  have hbegun : ∀ d', Begun ℓ (a :: past) d' ↔ d = d' ∨ Begun ℓ past d' := fun d' =>
    hasEnded_cons.trans (by rw [ha, hdata, and_iff_right rfl, Option.some.injEq])
  have hnot : ¬Over ℓ past d := fun hd => hnew (h.begun_of_over hd)
  have hkey : d ∉ decided.map (·.1) := fun hd => hnew ((h.begun d).1 hd)
  have habsent : d ∉ context := by
    rw [TreeMap.mem_iff_isSome_getElem?, Option.isSome_iff_exists]
    rintro ⟨l', hl'⟩
    exact hkey (List.mem_map.2 ⟨(d, l'), ((h.context d l').1 hl').1, rfl⟩)
  refine ⟨List.nodup_cons.2 ⟨hkey, h.keys⟩, fun d' => ?_, List.forall_mem_cons.2 ⟨hl, h.recipients⟩,
    fun d' l' => ?_, ?_, ?_, fun d' => ?_, fun d' i => ?_⟩
  · rw [hbegun, List.map_cons, List.mem_cons, h.begun, @eq_comm _ d']
  · rw [TreeMap.getElem?_insertIfNew, hover, List.mem_cons]
    simp only [Std.compare_eq_iff_eq]
    rcases eq_or_ne d d' with rfl | hne
    · rw [if_pos ⟨rfl, habsent⟩, Option.some.injEq, and_iff_left hnot, Prod.mk.injEq,
        and_iff_right rfl, or_iff_left fun hmem => hkey (List.mem_map.2 ⟨_, hmem, rfl⟩), eq_comm]
    · rw [if_neg fun heq => hne heq.1, h.context,
        or_iff_right fun heq => hne (congrArg Prod.fst heq).symm]
  · refine List.forall_mem_cons.2 ⟨fun htype => ?_, fun b hb htype => ?_⟩
    · rw [ha] at htype
      exact absurd htype (by decide)
    · exact List.mem_cons_of_mem _ (h.own b hb htype)
  · refine List.forall_mem_cons.2 ⟨.inl ⟨d, hq, (hbegun d).2 (.inl rfl)⟩, fun b hb => ?_⟩
    apply (h.only b hb).imp
    · exact fun ⟨d', hlabel, hd'⟩ => ⟨d', hlabel, (hbegun d').2 (.inr hd')⟩
    · rintro ⟨e, he, hd', hi⟩
      exact ⟨e, List.mem_cons_of_mem _ he, (hover _).2 hd', hi⟩
  · rw [List.countP_cons, h.ends, hq]
    simp only [hbegun, Label.mk.injEq, Option.some.injEq, decide_eq_true_eq, true_and, and_true]
    rcases eq_or_ne d d' with rfl | hne
    · rw [if_neg hnew, if_pos rfl, if_pos (.inl rfl)]
    · rw [if_neg hne, Nat.add_zero]
      simp only [or_iff_right hne]
  · rw [List.countP_cons, h.indications, hq]
    have hne : ¬decide (Label.mk "transmissionEnd" (some d) rid = ⟨"indication", some d', i⟩) :=
      by simp
    rw [if_neg hne, Nat.add_zero]
    simp only [hover, List.mem_cons, exists_eq_or_imp]
    refine if_congr (and_congr_right fun hd' => (or_iff_right ?_).symm) rfl rfl
    rintro ⟨rfl, -⟩
    exact hnot hd'

/-- The transmission `d` ends. -/
theorem finish (ha : (ℓ a).type = "transmissionEnd") (hdata : (ℓ a).data = some d)
    (hissued : a ∈ issued) (hpast : a ∉ past) (hl : (d, l) ∈ decided) {qs : List ActionPtr}
    (hqs : qs.map ℓ = l.map fun i => ⟨"indication", some d, i⟩) :
    Account rid ℓ (a :: past) (qs ++ issued) decided (context.erase d) := by
  have hover : ∀ d', Over ℓ (a :: past) d' ↔ d = d' ∨ Over ℓ past d' := fun d' =>
    hasEnded_cons.trans (by rw [ha, hdata, and_iff_right rfl, Option.some.injEq])
  have hbegun : ∀ d', Begun ℓ (a :: past) d' ↔ Begun ℓ past d' := fun d' =>
    hasEnded_cons_of_ne (by rw [ha]; decide)
  have hnot := h.not_over hissued hpast ha hdata
  have hlabel : ∀ b ∈ qs, ∃ i ∈ l, ℓ b = ⟨"indication", some d, i⟩ := by
    intro b hb
    have hmem : ℓ b ∈ qs.map ℓ := List.mem_map.2 ⟨b, hb, rfl⟩
    rw [hqs] at hmem
    obtain ⟨i, hi, heq⟩ := List.mem_map.1 hmem
    exact ⟨i, hi, heq.symm⟩
  refine ⟨h.keys, fun d' => ?_, h.recipients, fun d' l' => ?_, ?_, fun b hb => ?_, fun d' => ?_,
    fun d' i => ?_⟩
  · rw [hbegun]
    exact h.begun d'
  · rw [TreeMap.getElem?_erase, hover, not_or]
    simp only [Std.compare_eq_iff_eq]
    rcases eq_or_ne d d' with rfl | hne
    · rw [if_pos rfl]
      exact iff_of_false nofun fun hd => hd.2.1 rfl
    · rw [if_neg hne, h.context]
      exact and_congr_right fun _ => (and_iff_right hne).symm
  · refine List.forall_mem_cons.2 ⟨fun _ => List.mem_append_right _ hissued, fun b hb htype => ?_⟩
    exact List.mem_append_right _ (h.own b hb htype)
  · rcases List.mem_append.1 hb with hb | hb
    · exact .inr ⟨(d, l), hl, (hover d).2 (.inl rfl), hlabel b hb⟩
    · apply (h.only b hb).imp
      · exact fun ⟨d', hlabel, hd'⟩ => ⟨d', hlabel, (hbegun d').2 hd'⟩
      · exact fun ⟨e, he, hd', hi⟩ => ⟨e, he, (hover _).2 (.inr hd'), hi⟩
  · have hnone : qs.countP (fun q => ℓ q = ⟨"transmissionEnd", some d', rid⟩) = 0 := by
      apply List.countP_eq_zero.2
      intro b hb
      obtain ⟨i, -, heq⟩ := hlabel b hb
      rw [heq]
      simp
    rw [List.countP_append, hnone, Nat.zero_add, h.ends]
    simp only [hbegun]
  · have hcount : qs.countP (fun q => ℓ q = ⟨"indication", some d', i⟩) =
        if d = d' ∧ i ∈ l then 1 else 0 := by
      have hmap := List.countP_map (p := (· = ⟨"indication", some d', i⟩)) (f := ℓ) (l := qs)
      rw [hqs, List.countP_map] at hmap
      apply hmap.symm.trans
      rcases eq_or_ne d d' with rfl | hne
      · have hone : l.count i = if i ∈ l then 1 else 0 := (h.recipients _ hl).1.count
        refine (List.countP_congr fun j _ => ?_).trans (hone.trans ?_)
        · simp
        · simp
      · simp [hne]
    rw [List.countP_append, hcount, h.indications]
    simp only [hover]
    rcases eq_or_ne d d' with rfl | hne
    · have hiff : (∃ e ∈ decided, e.1 = d ∧ i ∈ e.2) ↔ i ∈ l := by
        constructor
        · rintro ⟨⟨d', l'⟩, he, rfl, hi⟩
          rwa [h.eq_of_mem hl he]
        · exact fun hi => ⟨(d, l), hl, rfl, hi⟩
      simp only [hiff, hnot, true_and, true_or, false_and, if_false, Nat.add_zero]
    · simp only [hne, false_and, false_or, if_false, Nat.zero_add]

end Account

/-! ## Runs of the radio -/

/-- The action begins the transmission `t`, which is set up and has not been begun yet. -/
structure Begins (s : Core (Ether π)) (past : List ActionPtr) (action : ActionPtr) (d : DataPtr)
    (t : Transmission π) : Prop where
  type : (s.actions.cell action).mType = "transmissionStart"
  data : (s.actions.cell action).mActionData = some d
  transmission : s.world.data.cell d = .transmission t
  built : t.Built
  setup : t.isSetup = true
  new : ¬Begun (label s) past d

/-- The action has been scheduled by the radio to end a transmission, and has not ended yet. -/
structure Ends (s : Core (Ether π)) (past issued : List ActionPtr) (action : ActionPtr) : Prop where
  type : (s.actions.cell action).mType = "transmissionEnd"
  issued : action ∈ issued
  past : action ∉ past

/-- A radio at work. -/
structure Broadcasts (π : Type) where
  core : Core (Ether π)
  /-- The fiber of the action that is running, and what it has returned. -/
  future : Option (Launch × Option Result) := none
  /-- The actions that have ended. -/
  past : List ActionPtr := []
  /-- The actions that the radio has scheduled. -/
  issued : List ActionPtr := []
  /-- What the physical decider has answered for each transmission. -/
  decided : List (DataPtr × List ObjectId) := []

namespace Broadcasts

/-- The radio has to do with the action `q`. -/
def Knows (S : Broadcasts π) (q : ActionPtr) : Prop :=
  q ∈ S.past ∨ q ∈ S.issued ∨ ∃ f ∈ S.future, q = f.1.action

/-- What others do: they do not touch the context, transmissions that are set up, or the actions that
the radio has to do with. -/
structure Apart (this : ObjectPtr) (S : Broadcasts π) (core : Core (Ether π)) : Prop where
  context : core.world.mRadioContext = S.core.world.mRadioContext
  nextObject : S.core.objects.next ≤ core.objects.next
  id : (core.objects.cell this).mObjectId = (S.core.objects.cell this).mObjectId
  nextAction : S.core.actions.next ≤ core.actions.next
  label : ∀ q, S.Knows q → label core q = label S.core q
  running : ∀ f ∈ S.future,
    (core.actions.cell f.1.action).mStartTime = (S.core.actions.cell f.1.action).mStartTime ∧
    (core.actions.cell f.1.action).mDuration = (S.core.actions.cell f.1.action).mDuration
  made : ∀ f ∈ S.future, ∀ result ∈ f.2, ∀ q ∈ result.actionsToSchedule,
    core.actions.cell q = S.core.actions.cell q
  transmission : ∀ (d : DataPtr) (t : Transmission π),
    S.core.world.data.cell d = .transmission t → t.isSetup = true →
      core.world.data.cell d = .transmission t

/-- The moves. The radio takes up an action only when the one before has ended. -/
inductive Step (this : ObjectPtr) : Broadcasts π → Broadcasts π → Prop
  | start {S : Broadcasts π} {action : ActionPtr} {launch : Launch} {core : Core (Ether π)} :
    S.future = none → action < S.core.actions.next →
    0 ≤ (S.core.actions.cell action).mStartTime → 0 ≤ (S.core.actions.cell action).mDuration →
    (∃ d t, Begins S.core S.past action d t) ∨ Ends S.core S.past S.issued action →
    startExecution action S.core = .ok launch core →
    Step this S { S with core, future := some (launch, none) }
  | startTransmission {S : Broadcasts π} {launch : Launch} {result : Result}
    {core : Core (Ether π)} {d : DataPtr} {t : Transmission π} {recipients : List ObjectId} :
    S.future = some (launch, none) → launch.task = .startTransmission →
    (S.core.actions.cell launch.action).mActionData = some d →
    S.core.world.data.cell d = .transmission t →
    MessagesForEveryonePhysicalDecider.decideOnPhysical t = .ok recipients →
    launch.run this S.core = .ok result core →
    Step this S { S with
      core, future := some (launch, some result), decided := (d, recipients) :: S.decided }
  | endTransmission {S : Broadcasts π} {launch : Launch} {result : Result}
    {core : Core (Ether π)} : S.future = some (launch, none) → launch.task = .endTransmission →
    launch.run this S.core = .ok result core →
    Step this S { S with core, future := some (launch, some result) }
  | finish {S : Broadcasts π} {launch : Launch} {result : Result} {core : Core (Ether π)} :
    S.future = some (launch, some result) →
    S.core.mCurrentActionTime = (S.core.actions.cell launch.action).getEndTime →
    endExecution launch.action result S.core = .ok ⟨⟩ core →
    Step this S { S with
      core, future := none, past := launch.action :: S.past
      issued := result.actionsToSchedule ++ S.issued }
  | other {S : Broadcasts π} {core : Core (Ether π)} : S.Apart this core →
    Step this S { S with core }

/-- The radio is the object `this` with the id `rid`, and has not done anything. -/
structure Init (this : ObjectPtr) (rid : ObjectId) (S : Broadcasts π) : Prop where
  this_lt : this < S.core.objects.next
  id : (S.core.objects.cell this).mObjectId = rid
  valid : rid.valid = true
  context : S.core.world.mRadioContext = ∅
  future : S.future = none
  past : S.past = []
  issued : S.issued = []
  decided : S.decided = []

/-! ### What every run keeps -/

/-- The action whose fiber has been launched. -/
structure Running (s : Core (Ether π)) (launch : Launch) : Prop where
  start : 0 ≤ (s.actions.cell launch.action).mStartTime
  duration : 0 ≤ (s.actions.cell launch.action).mDuration
  context : launch.context = s.world.mRadioContext

/-- The fiber has not run yet. -/
def Launched (s : Core (Ether π)) (past issued : List ActionPtr) (launch : Launch) : Prop :=
  match launch.task with
  | .startTransmission => ∃ d t, Begins s past launch.action d t
  | .endTransmission => Ends s past issued launch.action

/-- The fiber of an action that begins a transmission has returned `result`. -/
structure Started (rid : ObjectId) (s : Core (Ether π)) (past : List ActionPtr) (launch : Launch)
    (result : Result) (d : DataPtr) (t : Transmission π) (q : ActionPtr) : Prop where
  begins : Begins s past launch.action d t
  context : result.contextToSwap =
    some (launch.context.insertIfNew d t.recipients)
  actions : result.actionsToSchedule = [q]
  lt : q < s.actions.next
  cell : s.actions.cell q = endAction (s.actions.cell launch.action) rid d

/-- The fiber of an action that ends a transmission has returned `result`. -/
structure Finished (rid : ObjectId) (s : Core (Ether π)) (past issued : List ActionPtr)
    (launch : Launch) (result : Result) (d : DataPtr) (l : List ObjectId) : Prop where
  ends : Ends s past issued launch.action
  data : (s.actions.cell launch.action).mActionData = some d
  context : result.contextToSwap = some (launch.context.erase d)
  nodup : result.actionsToSchedule.Nodup
  lt : ∀ q ∈ result.actionsToSchedule, q < s.actions.next
  cells : result.actionsToSchedule.map s.actions.cell =
    l.map (indication (s.actions.cell launch.action) rid d)

/-- The state of the action that is running. The decision that its fiber has taken is not among
`decided` yet. -/
def Doing (rid : ObjectId) (decided : List (DataPtr × List ObjectId)) (S : Broadcasts π) :
    Option (Launch × Option Result) → Prop
  | none => S.decided = decided
  | some (launch, none) =>
    S.decided = decided ∧ Running S.core launch ∧ Launched S.core S.past S.issued launch
  | some (launch, some result) => Running S.core launch ∧ match launch.task with
    | .startTransmission => ∃ d t q, Started rid S.core S.past launch result d t q ∧
      S.decided = (d, t.recipients) :: decided
    | .endTransmission => S.decided = decided ∧ ∃ d l, (d, l) ∈ decided ∧
      Finished rid S.core S.past S.issued launch result d l

structure Inv (this : ObjectPtr) (rid : ObjectId) (decided : List (DataPtr × List ObjectId))
    (S : Broadcasts π) : Prop where
  this_lt : this < S.core.objects.next
  id : (S.core.objects.cell this).mObjectId = rid
  valid : rid.valid = true
  known : ∀ q, S.Knows q → q < S.core.actions.next
  account : Account rid (label S.core) S.past S.issued decided S.core.world.mRadioContext
  doing : S.Doing rid decided S.future

variable {this : ObjectPtr} {S S' : Broadcasts π} {core : Core (Ether π)} {action : ActionPtr}
variable {launch : Launch} {result : Result} {t : Transmission π}

theorem Init.inv (h : S.Init this rid) : S.Inv this rid [] where
  this_lt := h.this_lt
  id := h.id
  valid := h.valid
  known q hq := by
    rcases hq with hq | hq | ⟨f, hf, -⟩
    · rw [h.past] at hq
      cases hq
    · rw [h.issued] at hq
      cases hq
    · rw [h.future] at hf
      cases hf
  account := by
    rw [h.past, h.issued, h.context]
    exact account_empty rid _
  doing := by
    rw [h.future]
    exact h.decided

theorem knows_of_past (h : action ∈ S.past) : S.Knows action := .inl h

theorem knows_of_issued (h : action ∈ S.issued) : S.Knows action := .inr (.inl h)

theorem knows_of_future {r : Option Result} (h : S.future = some (launch, r)) :
    S.Knows launch.action := by
  refine .inr (.inr ⟨(launch, r), ?_, rfl⟩)
  rw [h]
  exact rfl

/-! ### The moves of others -/

section
variable (h : S.Apart this core)
include h

theorem Apart.type (ha : S.Knows action) :
    (core.actions.cell action).mType = (S.core.actions.cell action).mType :=
  congrArg Label.type (h.label action ha)

theorem Apart.data (ha : S.Knows action) :
    (core.actions.cell action).mActionData = (S.core.actions.cell action).mActionData :=
  congrArg Label.data (h.label action ha)

theorem Apart.hasEnded_iff : HasEnded kind (Radio.label core) S.past d ↔
    HasEnded kind (Radio.label S.core) S.past d := by
  refine exists_congr fun q => and_congr_right fun hq => ?_
  rw [h.label q (knows_of_past hq)]

theorem Apart.begins (ha : S.Knows action) (hb : Begins S.core S.past action d t) :
    Begins core S.past action d t where
  type := (h.type ha).trans hb.type
  data := (h.data ha).trans hb.data
  transmission := h.transmission d t hb.transmission hb.setup
  built := hb.built
  setup := hb.setup
  new hbegun := hb.new (h.hasEnded_iff.1 hbegun)

theorem Apart.ends (he : Ends S.core S.past S.issued action) : Ends core S.past S.issued action :=
  ⟨(h.type (knows_of_issued he.issued)).trans he.type, he.issued, he.past⟩

theorem Apart.account (ha : Account rid (Radio.label S.core) S.past S.issued decided
    S.core.world.mRadioContext) :
    Account rid (Radio.label core) S.past S.issued decided core.world.mRadioContext := by
  rw [h.context]
  exact ha.congr (fun q hq => h.label q (knows_of_past hq)) fun q hq =>
    h.label q (knows_of_issued hq)

theorem Apart.launched (ha : S.Knows launch.action) (hl : Launched S.core S.past S.issued launch) :
    Launched core S.past S.issued launch := by
  unfold Launched at hl ⊢
  cases htask : launch.task with
  | startTransmission =>
    rw [htask] at hl
    obtain ⟨d, t, hb⟩ := hl
    exact ⟨d, t, h.begins ha hb⟩
  | endTransmission =>
    rw [htask] at hl
    exact h.ends hl

end

theorem Inv.other (h : S.Inv this rid decided) (hcore : S.Apart this core) :
    Inv this rid decided { S with core } := by
  refine ⟨h.this_lt.trans_le hcore.nextObject, hcore.id.trans h.id, h.valid,
    fun q hq => (h.known q hq).trans_le hcore.nextAction, hcore.account h.account, ?_⟩
  show Doing rid decided { S with core } S.future
  have hdoing := h.doing
  cases hfuture : S.future with
  | none =>
    rw [hfuture] at hdoing
    exact hdoing
  | some f =>
    obtain ⟨launch, r⟩ := f
    have hknows := knows_of_future hfuture
    have hmem : (launch, r) ∈ S.future := hfuture
    obtain ⟨hstart, hduration⟩ := hcore.running _ hmem
    have hrunning : Running S.core launch → Running core launch := fun hr =>
      ⟨hstart ▸ hr.start, hduration ▸ hr.duration, hr.context.trans hcore.context.symm⟩
    rw [hfuture] at hdoing
    cases r with
    | none => exact ⟨hdoing.1, hrunning hdoing.2.1, hcore.launched hknows hdoing.2.2⟩
    | some result =>
      have hmade := hcore.made _ hmem result rfl
      refine ⟨hrunning hdoing.1, ?_⟩
      have hreturned := hdoing.2
      cases htask : launch.task with
      | startTransmission =>
        rw [htask] at hreturned
        obtain ⟨d, t, q, hs, hdecided⟩ := hreturned
        have hq : q ∈ result.actionsToSchedule := by
          rw [hs.actions]
          exact List.mem_singleton_self _
        refine ⟨d, t, q, ⟨hcore.begins hknows hs.begins, hs.context, hs.actions,
          hs.lt.trans_le hcore.nextAction, ?_⟩, hdecided⟩
        rw [hmade q hq, hs.cell]
        simp only [endAction]
        rw [hstart, hduration]
      | endTransmission =>
        rw [htask] at hreturned
        obtain ⟨hdecided, d, l, hl, hf⟩ := hreturned
        refine ⟨hdecided, d, l, hl, hcore.ends hf.ends, (hcore.data hknows).trans hf.data, hf.context,
          hf.nodup, fun q hq => (hf.lt q hq).trans_le hcore.nextAction, ?_⟩
        rw [List.map_congr_left hmade, hf.cells]
        unfold indication
        rw [hstart, hduration]

/-! ### The moves of the radio -/

theorem startExecution_ok {s : Core (Ether π)} (haction : action < s.actions.next)
    (htype : (s.actions.cell action).mType = "transmissionStart") :
    startExecution action s = .ok ⟨.startTransmission, action, s.world.mRadioContext⟩ s := by
  refine bind_eq_ok.2 ⟨_, s, getAction_of_lt haction, ?_⟩
  rw [if_pos htype]
  rfl

theorem startExecution_ok' {s : Core (Ether π)} (haction : action < s.actions.next)
    (htype : (s.actions.cell action).mType = "transmissionEnd") :
    startExecution action s = .ok ⟨.endTransmission, action, s.world.mRadioContext⟩ s := by
  refine bind_eq_ok.2 ⟨_, s, getAction_of_lt haction, ?_⟩
  rw [if_neg (by rw [htype]; decide)]
  refine bind_eq_ok.2 ⟨_, s, getAction_of_lt haction, ?_⟩
  rw [if_pos htype]
  rfl

theorem Inv.start (h : S.Inv this rid decided) (hfuture : S.future = none)
    (haction : action < S.core.actions.next) (hstart : 0 ≤ (S.core.actions.cell action).mStartTime)
    (hduration : 0 ≤ (S.core.actions.cell action).mDuration)
    (hpermits : (∃ d t, Begins S.core S.past action d t) ∨ Ends S.core S.past S.issued action) :
    ∃ launch, startExecution action S.core = .ok launch S.core ∧
      Inv this rid decided { S with future := some (launch, none) } := by
  have hdecided := h.doing
  rw [hfuture] at hdecided
  obtain ⟨launch, hok, hlaunched, rfl, hcontext⟩ : ∃ launch,
      startExecution action S.core = .ok launch S.core ∧
      Launched S.core S.past S.issued launch ∧ launch.action = action ∧
      launch.context = S.core.world.mRadioContext := by
    rcases hpermits with ⟨d, t, hb⟩ | he
    · exact ⟨_, startExecution_ok haction hb.type, ⟨d, t, hb⟩, rfl, rfl⟩
    · exact ⟨_, startExecution_ok' haction he.type, he, rfl, rfl⟩
  refine ⟨launch, hok, h.this_lt, h.id, h.valid, ?_, h.account, hdecided,
    ⟨hstart, hduration, hcontext⟩, hlaunched⟩
  rintro q (hq | hq | ⟨f, hf, rfl⟩)
  · exact h.known q (knows_of_past hq)
  · exact h.known q (knows_of_issued hq)
  · obtain rfl := Option.some.inj hf
    exact haction

/-- New actions are made. -/
theorem apart_of_actions {heap : Heap Action} (hknown : ∀ q, S.Knows q → q < S.core.actions.next)
    (hfuture : S.future = some (launch, none)) (hnext : S.core.actions.next ≤ heap.next)
    (hcell : ∀ q < S.core.actions.next, heap.cell q = S.core.actions.cell q) :
    S.Apart this { S.core with actions := heap } := by
  have hkept : ∀ q, S.Knows q → heap.cell q = S.core.actions.cell q :=
    fun q hq => hcell q (hknown q hq)
  refine ⟨rfl, Nat.le_refl _, rfl, hnext, fun q hq => ?_, fun f hf => ?_, fun f hf result hr => ?_,
    fun _ _ h _ => h⟩
  · show Label.mk _ _ _ = _
    rw [hkept q hq]
    rfl
  · rw [hfuture] at hf
    obtain rfl := Option.some.inj hf
    dsimp only
    rw [hkept _ (knows_of_future hfuture)]
    exact ⟨rfl, rfl⟩
  · rw [hfuture] at hf
    obtain rfl := Option.some.inj hf
    cases hr

section
variable (h : S.Inv this rid decided) (hfuture : S.future = some (launch, none))
include h hfuture

theorem Inv.known' {r : Option Result} {heap : Heap Action}
    (hnext : S.core.actions.next ≤ heap.next) {decided' : List (DataPtr × List ObjectId)} :
    ∀ q, Knows ⟨{ S.core with actions := heap }, some (launch, r), S.past, S.issued, decided'⟩ q →
      q < heap.next := by
  rintro q (hq | hq | ⟨f, hf, rfl⟩)
  · exact (h.known q (knows_of_past hq)).trans_le hnext
  · exact (h.known q (knows_of_issued hq)).trans_le hnext
  · obtain rfl := Option.some.inj hf
    exact (h.known _ (knows_of_future hfuture)).trans_le hnext

theorem Inv.launched : S.decided = decided ∧ Running S.core launch ∧
    Launched S.core S.past S.issued launch := by
  have hdoing := h.doing
  rwa [hfuture] at hdoing

theorem Inv.startTransmission (htask : launch.task = .startTransmission) :
    ∃ d t result core, (S.core.actions.cell launch.action).mActionData = some d ∧
      S.core.world.data.cell d = .transmission t ∧
      MessagesForEveryonePhysicalDecider.decideOnPhysical t =
        .ok t.recipients ∧
      launch.run this S.core = .ok result core ∧
      Inv this rid decided ⟨core, some (launch, some result), S.past, S.issued,
        (d, t.recipients) :: S.decided⟩ := by
  obtain ⟨hdecided, hrunning, hlaunched⟩ := h.launched hfuture
  simp only [Launched] at hlaunched
  rw [htask] at hlaunched
  obtain ⟨d, t, hb⟩ := hlaunched
  have haction := h.known _ (knows_of_future hfuture)
  have hvalid : (S.core.objects.cell this).mObjectId.valid = true := h.id ▸ h.valid
  have hok := startTransmission_ok h.this_lt haction hrunning.start hrunning.duration hvalid hb.data
    hb.transmission hb.setup launch.context
  rw [h.id] at hok
  set made := endAction (S.core.actions.cell launch.action) rid d with hmade
  have hapart : S.Apart this { S.core with actions := S.core.actions.alloc made } :=
    apart_of_actions h.known hfuture (Nat.le_succ _) fun q hq => Heap.alloc_cell_of_lt hq
  have h' := h.other hapart
  refine ⟨d, t, ⟨[S.core.actions.next], some (launch.context.insertIfNew d t.recipients)⟩,
    { S.core with actions := S.core.actions.alloc made }, hb.data, hb.transmission, if_pos hb.setup,
    ?_, h'.this_lt, h'.id, h'.valid, h.known' hfuture (Nat.le_succ _), h'.account, ?_⟩
  · simp only [Launch.run]
    rw [htask]
    exact hok
  · refine ⟨(h'.launched hfuture).2.1, ?_⟩
    rw [htask]
    refine ⟨d, t, _, ⟨hapart.begins (knows_of_future hfuture) hb, rfl, rfl, Nat.lt_succ_self _, ?_⟩,
      congrArg (_ :: ·) hdecided⟩
    rw [Heap.alloc_cell_self, Heap.alloc_cell_of_lt haction]

theorem Inv.endTransmission (htask : launch.task = .endTransmission) :
    ∃ result core, launch.run this S.core = .ok result core ∧
      Inv this rid decided ⟨core, some (launch, some result), S.past, S.issued, S.decided⟩ := by
  obtain ⟨hdecided, hrunning, hlaunched⟩ := h.launched hfuture
  simp only [Launched] at hlaunched
  rw [htask] at hlaunched
  have haction := h.known _ (knows_of_future hfuture)
  obtain ⟨d, l, hdata, hl, hentry⟩ :=
    h.account.exists_entry hlaunched.issued hlaunched.past hlaunched.type
  rw [← hrunning.context] at hentry
  have hok := endTransmission_ok h.this_lt haction hrunning.start hrunning.duration hdata hentry
    (h.account.recipients _ hl).2
  rw [h.id] at hok
  set made := l.map (indication (S.core.actions.cell launch.action) rid d) with hmade
  have hlength : made.length = l.length := List.length_map _
  have hnext : S.core.actions.next ≤ (S.core.actions.allocAll made).next := by
    rw [Heap.allocAll_next]
    exact Nat.le_add_right ..
  have hapart : S.Apart this { S.core with actions := S.core.actions.allocAll made } :=
    apart_of_actions h.known hfuture hnext fun q hq => Heap.allocAll_cell_of_lt hq
  have h' := h.other hapart
  refine ⟨⟨List.range' S.core.actions.next l.length, some (launch.context.erase d)⟩,
    { S.core with actions := S.core.actions.allocAll made }, ?_, h'.this_lt, h'.id, h'.valid,
    h.known' hfuture hnext, h'.account, ?_⟩
  · simp only [Launch.run]
    rw [htask]
    exact hok
  · refine ⟨(h'.launched hfuture).2.1, ?_⟩
    rw [htask]
    refine ⟨hdecided, d, l, hl, hapart.ends hlaunched,
      (hapart.data (knows_of_future hfuture)).trans hdata, rfl, List.nodup_range' .., fun q hq => ?_, ?_⟩
    · rw [Heap.allocAll_next, hlength]
      exact (List.mem_range'_1.1 hq).2
    · have hcells := Heap.map_allocAll_cell S.core.actions made
      rw [hlength] at hcells
      rw [Heap.allocAll_cell_of_lt haction]
      exact hcells

end

/-- The end of an action whose result can be scheduled. -/
theorem endExecution_ok {s : Core (Ether π)} {c : RadioContext} (haction : action < s.actions.next)
    (htype : (s.actions.cell action).mType = "transmissionStart" ∨
      (s.actions.cell action).mType = "transmissionEnd")
    (hcontext : result.contextToSwap = some c) (hnodup : result.actionsToSchedule.Nodup)
    (hfresh : ∀ q ∈ result.actionsToSchedule, s.Fresh q) :
    ∃ core, endExecution action result s = .ok ⟨⟩ core ∧
      (∀ q ∈ result.actionsToSchedule, core.Pending q) ∧ core.world.mRadioContext = c ∧
      core.objects = s.objects ∧ core.actions.next = s.actions.next ∧
      ∀ q, label core q = label s q := by
  set s₁ : Core (Ether π) := { s with world := { s.world with mRadioContext := c } } with hs₁
  have hfresh₁ : ∀ q ∈ result.actionsToSchedule, s₁.Fresh q := fun q hq => { hfresh q hq with }
  obtain ⟨core, hok, hpending, -⟩ := forM_scheduleStartHandler_ok hnodup hfresh₁
  have hschedules : Schedules s₁ core := by
    have hschedules := Schedules.forM result.actionsToSchedule s₁
    rwa [hok] at hschedules
  refine ⟨core, ?_, hpending, by rw [hschedules.world], hschedules.objects, hschedules.next,
    fun q => ?_⟩
  · refine bind_eq_ok.2 ⟨_, s, getAction_of_lt haction, ?_⟩
    rw [if_pos htype, hcontext]
    exact bind_eq_ok.2 ⟨⟨⟩, s₁, rfl, hok⟩
  · obtain ⟨htype, hdata, -, haffected⟩ := hschedules.action q
    simp only [label]
    rw [htype, hdata, haffected]

section
variable (h : S.Inv this rid decided) (hfuture : S.future = some (launch, some result))
include h hfuture

/-- The action that has been running is over, and those it has made are issued. -/
theorem Inv.over {decided' : List (DataPtr × List ObjectId)}
    (hobjects : core.objects = S.core.objects) (hnext : core.actions.next = S.core.actions.next)
    (hlt : ∀ q ∈ result.actionsToSchedule, q < S.core.actions.next)
    (haccount : Account rid (label core) (launch.action :: S.past)
      (result.actionsToSchedule ++ S.issued) decided' core.world.mRadioContext)
    (hdecided : S.decided = decided') :
    Inv this rid decided' ⟨core, none, launch.action :: S.past,
      result.actionsToSchedule ++ S.issued, S.decided⟩ := by
  refine ⟨hobjects ▸ h.this_lt, hobjects ▸ h.id, h.valid, ?_, haccount, hdecided⟩
  show ∀ q, _ → q < core.actions.next
  rw [hnext]
  rintro q (hq | hq | ⟨f, hf, -⟩)
  · rcases List.mem_cons.1 hq with rfl | hq
    · exact h.known _ (knows_of_future hfuture)
    · exact h.known q (knows_of_past hq)
  · rcases List.mem_append.1 hq with hq | hq
    · exact hlt q hq
    · exact h.known q (knows_of_issued hq)
  · cases hf

variable (hnow : S.core.mCurrentActionTime = (S.core.actions.cell launch.action).getEndTime)
include hnow

omit h hfuture in
/-- Actions that start after the end of the running one start in time. -/
theorem now_le_of_nonneg {n : Int} (hn : 0 ≤ n) : S.core.mCurrentActionTime ≤
    (S.core.actions.cell launch.action).mStartTime +
      (S.core.actions.cell launch.action).mDuration + n := by
  rw [hnow, Action.getEndTime, Int.add_comm (Action.mDuration _)]
  exact Int.le_add_of_nonneg_right hn

theorem Inv.finish_startTransmission (htask : launch.task = .startTransmission) :
    ∃ core decided', endExecution launch.action result S.core = .ok ⟨⟩ core ∧
      (∀ q ∈ result.actionsToSchedule, core.Pending q) ∧
      Inv this rid decided' ⟨core, none, launch.action :: S.past,
        result.actionsToSchedule ++ S.issued, S.decided⟩ := by
  have hdoing := h.doing
  rw [hfuture] at hdoing
  obtain ⟨hrunning, hreturned⟩ := hdoing
  rw [htask] at hreturned
  obtain ⟨d, t, q, hs, hdecided⟩ := hreturned
  have hfresh : S.core.Fresh q := by
    refine ⟨hs.lt, ?_, ?_, ?_⟩ <;> rw [hs.cell]
    · rfl
    · rfl
    · exact now_le_of_nonneg hnow (by decide)
  obtain ⟨core, hok, hpending, hcontext, hobjects, hnext, hlabel⟩ :=
    endExecution_ok (h.known _ (knows_of_future hfuture)) (.inl hs.begins.type) hs.context
      (by rw [hs.actions]; exact List.nodup_singleton q)
      (by rw [hs.actions]; exact List.forall_mem_singleton.2 hfresh)
  refine ⟨core, _, hok, hpending, h.over hfuture hobjects hnext ?_ ?_ hdecided⟩
  · rw [hs.actions]
    exact List.forall_mem_singleton.2 hs.lt
  · rw [hcontext, hs.actions, hrunning.context]
    refine Account.congr ?_ (fun q _ => hlabel q) (fun q _ => hlabel q)
    have hq : label S.core q = ⟨"transmissionEnd", some d, rid⟩ := by
      simp only [label]
      rw [hs.cell]
      rfl
    exact h.account.begin hs.begins.type hs.begins.data hs.begins.new hq
      ⟨t.nodup_recipients, hs.begins.built.valid_recipients⟩

theorem Inv.finish_endTransmission (htask : launch.task = .endTransmission) :
    ∃ core decided', endExecution launch.action result S.core = .ok ⟨⟩ core ∧
      (∀ q ∈ result.actionsToSchedule, core.Pending q) ∧
      Inv this rid decided' ⟨core, none, launch.action :: S.past,
        result.actionsToSchedule ++ S.issued, S.decided⟩ := by
  have hdoing := h.doing
  rw [hfuture] at hdoing
  obtain ⟨hrunning, hreturned⟩ := hdoing
  rw [htask] at hreturned
  obtain ⟨hdecided, d, l, hl, hf⟩ := hreturned
  have hcell : ∀ q ∈ result.actionsToSchedule, ∃ i,
      S.core.actions.cell q = indication (S.core.actions.cell launch.action) rid d i := by
    intro q hq
    have hmem := List.mem_map_of_mem (f := S.core.actions.cell) hq
    rw [hf.cells] at hmem
    obtain ⟨i, -, heq⟩ := List.mem_map.1 hmem
    exact ⟨i, heq.symm⟩
  obtain ⟨core, hok, hpending, hcontext, hobjects, hnext, hlabel⟩ :=
    endExecution_ok (h.known _ (knows_of_future hfuture)) (.inr hf.ends.type) hf.context hf.nodup
      fun q hq => by
        obtain ⟨i, heq⟩ := hcell q hq
        refine ⟨hf.lt q hq, ?_, ?_, ?_⟩ <;> rw [heq]
        · rfl
        · rfl
        · exact now_le_of_nonneg hnow (by decide)
  refine ⟨core, _, hok, hpending, h.over hfuture hobjects hnext hf.lt ?_ hdecided⟩
  rw [hcontext, hrunning.context]
  refine Account.congr ?_ (fun q _ => hlabel q) (fun q _ => hlabel q)
  apply h.account.finish hf.ends.type hf.data hf.ends.issued hf.ends.past hl
  have hmap := congrArg (List.map fun a : Action => Label.mk a.mType a.mActionData a.mAffectedObject)
    hf.cells
  rw [List.map_map, List.map_map] at hmap
  exact hmap

theorem Inv.finish : ∃ core decided', endExecution launch.action result S.core = .ok ⟨⟩ core ∧
    (∀ q ∈ result.actionsToSchedule, core.Pending q) ∧
    Inv this rid decided' ⟨core, none, launch.action :: S.past,
      result.actionsToSchedule ++ S.issued, S.decided⟩ := by
  cases htask : launch.task with
  | startTransmission => exact h.finish_startTransmission hfuture hnow htask
  | endTransmission => exact h.finish_endTransmission hfuture hnow htask

end

theorem Step.inv (h : S.Inv this rid decided) (hstep : Step this S S') :
    ∃ decided', S'.Inv this rid decided' := by
  cases hstep with
  | start hfuture haction hstart hduration hpermits hok =>
    obtain ⟨launch, hok', h'⟩ := h.start hfuture haction hstart hduration hpermits
    obtain ⟨rfl, rfl⟩ := Result.ok.inj (hok'.symm.trans hok)
    exact ⟨_, h'⟩
  | startTransmission hfuture htask hdata ht hdecide hok =>
    obtain ⟨d, t, result, core, hdata', ht', hdecide', hok', h'⟩ := h.startTransmission hfuture htask
    obtain ⟨rfl, rfl⟩ := Result.ok.inj (hok'.symm.trans hok)
    obtain rfl := Option.some.inj (hdata'.symm.trans hdata)
    obtain rfl := ActionData.transmission.inj (ht'.symm.trans ht)
    obtain rfl := Except.ok.inj (hdecide'.symm.trans hdecide)
    exact ⟨_, h'⟩
  | endTransmission hfuture htask hok =>
    obtain ⟨result, core, hok', h'⟩ := h.endTransmission hfuture htask
    obtain ⟨rfl, rfl⟩ := Result.ok.inj (hok'.symm.trans hok)
    exact ⟨_, h'⟩
  | finish hfuture hnow hok =>
    obtain ⟨core, decided', hok', -, h'⟩ := h.finish hfuture hnow
    obtain ⟨-, rfl⟩ := Result.ok.inj (hok'.symm.trans hok)
    exact ⟨_, h'⟩
  | other hcore => exact ⟨_, h.other hcore⟩

/-- Nothing that the radio does next throws, and the actions that it makes are scheduled. -/
def Proceeds (this : ObjectPtr) (S : Broadcasts π) : Prop :=
  match S.future with
  | none => ∀ action < S.core.actions.next,
    (∃ d t, Begins S.core S.past action d t) ∨ Ends S.core S.past S.issued action →
    0 ≤ (S.core.actions.cell action).mStartTime → 0 ≤ (S.core.actions.cell action).mDuration →
    ∃ launch core, startExecution action S.core = .ok launch core
  | some (launch, none) => ∃ result core, launch.run this S.core = .ok result core
  | some (launch, some result) =>
    S.core.mCurrentActionTime = (S.core.actions.cell launch.action).getEndTime →
    ∃ core, endExecution launch.action result S.core = .ok ⟨⟩ core ∧
      ∀ q ∈ result.actionsToSchedule, core.Pending q

theorem Inv.proceeds (h : S.Inv this rid decided) : S.Proceeds this := by
  simp only [Proceeds]
  split
  · next hfuture =>
    intro action haction hpermits hstart hduration
    obtain ⟨launch, hok, -⟩ := h.start hfuture haction hstart hduration hpermits
    exact ⟨launch, _, hok⟩
  · next launch hfuture =>
    cases htask : launch.task with
    | startTransmission =>
      obtain ⟨_, _, result, core, -, -, -, hok, -⟩ := h.startTransmission hfuture htask
      exact ⟨result, core, hok⟩
    | endTransmission =>
      obtain ⟨result, core, hok, -⟩ := h.endTransmission hfuture htask
      exact ⟨result, core, hok⟩
  · next launch result hfuture =>
    intro hnow
    obtain ⟨core, -, hok, hpending, -⟩ := h.finish hfuture hnow
    exact ⟨core, hok, hpending⟩

/-- The transmission that is being begun is not in the context yet. -/
theorem Inv.decided_cases (h : S.Inv this rid decided) : S.decided = decided ∨
    ∃ d l, S.decided = (d, l) :: decided ∧ ¬Begun (label S.core) S.past d := by
  have hdoing := h.doing
  cases hfuture : S.future with
  | none =>
    rw [hfuture] at hdoing
    exact .inl hdoing
  | some f =>
    obtain ⟨launch, r⟩ := f
    cases r with
    | none => exact .inl (h.launched hfuture).1
    | some result =>
      rw [hfuture] at hdoing
      obtain ⟨-, hreturned⟩ := hdoing
      cases htask : launch.task with
      | startTransmission =>
        rw [htask] at hreturned
        obtain ⟨d, t, q, hs, hdecided⟩ := hreturned
        exact .inr ⟨d, _, hdecided, hs.begins.new⟩
      | endTransmission =>
        rw [htask] at hreturned
        exact .inl hreturned.1

/-- In every run, whatever others do in between: nothing that the radio does throws. The context has
the transmissions that have begun and are not over, with the recipients that have been decided when they
began. For each of them one action has been scheduled that ends it, and, once it is over, one
indication for every recipient; nothing else has been scheduled. -/
theorem transmissions_of_reachable {S₀ S : Broadcasts π} (h₀ : S₀.Init this rid)
    (hS : Reachable (· = S₀) (Step this) S) :
    S.Proceeds this ∧
    (∀ d, Begun (label S.core) S.past d → ∃ l, ∀ l', (d, l') ∈ S.decided ↔ l' = l) ∧
    (∀ (d : DataPtr) (l : List ObjectId), S.core.world.mRadioContext[d]? = some l ↔
      (d, l) ∈ S.decided ∧ Begun (label S.core) S.past d ∧ ¬Over (label S.core) S.past d) ∧
    (∀ d, S.issued.countP (fun q => label S.core q = ⟨"transmissionEnd", some d, rid⟩) =
      if Begun (label S.core) S.past d then 1 else 0) ∧
    (∀ d l, (d, l) ∈ S.decided → ∀ i,
      S.issued.countP (fun q => label S.core q = ⟨"indication", some d, i⟩) =
        if Over (label S.core) S.past d ∧ i ∈ l then 1 else 0) ∧
    ∀ q ∈ S.issued, ∃ d, Begun (label S.core) S.past d ∧
      (label S.core q = ⟨"transmissionEnd", some d, rid⟩ ∨
        ∃ i, label S.core q = ⟨"indication", some d, i⟩) := by
  obtain ⟨decided, h⟩ := hS.invariant (I := fun S => ∃ decided, S.Inv this rid decided)
    (by rintro _ rfl; exact ⟨_, h₀.inv⟩) fun S S' _ ⟨decided, h⟩ hstep => hstep.inv h
  have ha := h.account
  -- a transmission whose recipients have just been decided has not begun
  have hmem : ∀ d l, Begun (label S.core) S.past d → ((d, l) ∈ S.decided ↔ (d, l) ∈ decided) := by
    intro d l hd
    rcases h.decided_cases with heq | ⟨d', l', heq, hnew⟩
    · rw [heq]
    · rw [heq, List.mem_cons]
      refine or_iff_right fun hpair => hnew ?_
      obtain ⟨rfl, -⟩ := Prod.mk.inj hpair
      exact hd
  refine ⟨h.proceeds, fun d hd => ?_, fun d l => ?_, ha.ends, fun d l hl i => ?_, fun q hq => ?_⟩
  · obtain ⟨⟨d', l⟩, hl, rfl⟩ := List.mem_map.1 ((ha.begun d).2 hd)
    refine ⟨l, fun l' => (hmem _ l' hd).trans ⟨fun hl' => ha.eq_of_mem hl' hl, ?_⟩⟩
    rintro rfl
    exact hl
  · rw [ha.context]
    constructor
    · rintro ⟨hl, hover⟩
      have hd := (ha.begun d).1 (List.mem_map.2 ⟨_, hl, rfl⟩)
      exact ⟨(hmem d l hd).2 hl, hd, hover⟩
    · rintro ⟨hl, hd, hover⟩
      exact ⟨(hmem d l hd).1 hl, hover⟩
  · rw [ha.indications]
    refine if_congr (and_congr_right fun hover => ?_) rfl rfl
    have hl' := (hmem d l (ha.begun_of_over hover)).1 hl
    constructor
    · rintro ⟨⟨d', l'⟩, he, rfl, hi⟩
      rwa [ha.eq_of_mem hl' he]
    · exact fun hi => ⟨(d, l), hl', rfl, hi⟩
  · rcases ha.only q hq with ⟨d, hlabel, hd⟩ | ⟨e, -, hover, i, -, hlabel⟩
    · exact ⟨d, hd, .inl hlabel⟩
    · exact ⟨e.1, ha.begun_of_over hover, .inr ⟨i, hlabel⟩⟩

/-! ### A transmission that begins -/

theorem apart_of_time (S : Broadcasts π) (time : TimePoint) :
    S.Apart this { S.core with mCurrentActionTime := time } :=
  ⟨rfl, Nat.le_refl _, rfl, Nat.le_refl _, fun _ _ => rfl, fun _ _ => ⟨rfl, rfl⟩,
    fun _ _ _ _ _ _ => rfl, fun _ _ h _ => h⟩

theorem exists_begun {S₀ : Broadcasts π} (h₀ : S₀.Init this rid)
    (haction : action < S₀.core.actions.next)
    (hstart : 0 ≤ (S₀.core.actions.cell action).mStartTime)
    (hduration : 0 ≤ (S₀.core.actions.cell action).mDuration)
    (hb : Begins S₀.core S₀.past action d t) : ∃ S, Reachable (· = S₀) (Step this) S ∧
      S.decided = [(d, t.recipients)] ∧ Begun (label S.core) S.past d ∧
      ¬Over (label S.core) S.past d := by
  have hpermits : (∃ d t, Begins S₀.core S₀.past action d t) ∨ Ends S₀.core S₀.past S₀.issued action :=
    .inl ⟨d, t, hb⟩
  have hinit : Reachable (· = S₀) (Step this) S₀ := .init rfl
  -- the action starts
  obtain ⟨launch, hok₁, hinv₁⟩ := h₀.inv.start h₀.future haction hstart hduration hpermits
  have hS₁ := hinit.step (.start h₀.future haction hstart hduration hpermits hok₁)
  obtain ⟨rfl, -⟩ := Result.ok.inj ((startExecution_ok haction hb.type).symm.trans hok₁)
  -- its fiber runs
  obtain ⟨d', t', result, core₂, hdata, ht, hdecide, hok₂, hinv₂⟩ := hinv₁.startTransmission rfl rfl
  have hS₂ := hS₁.step (.startTransmission rfl rfl hdata ht hdecide hok₂)
  obtain rfl := Option.some.inj (hb.data.symm.trans hdata)
  obtain rfl := ActionData.transmission.inj (hb.transmission.symm.trans ht)
  -- time passes until it ends
  have hinv₃ := hinv₂.other (apart_of_time _ (core₂.actions.cell action).getEndTime)
  have hS₃ := hS₂.step (.other (apart_of_time _ (core₂.actions.cell action).getEndTime))
  obtain ⟨core₄, decided, hok₄, -, hinv₄⟩ := hinv₃.finish rfl rfl
  have hS₄ := hS₃.step (.finish rfl rfl hok₄)
  have hdecided : (d, t.recipients) :: S₀.decided = decided := hinv₄.doing
  rw [h₀.decided] at hdecided
  have hbegun := (hinv₄.account.begun d).1 (by rw [← hdecided]; exact List.mem_singleton_self _)
  refine ⟨_, hS₄, congrArg (_ :: ·) h₀.decided, hbegun, ?_⟩
  obtain ⟨q, hq, htype, -⟩ := hbegun
  rintro ⟨q', hq', htype', -⟩
  rw [h₀.past] at hq hq'
  rw [List.mem_singleton.1 hq] at htype
  rw [List.mem_singleton.1 hq', htype] at htype'
  exact absurd htype' (by decide)

/-- A transmission with one possible receiver. -/
def addressed : Transmission Unit :=
  (Transmission.addPossibleReceiver 5 (some 1) { mPacket := () }).state

def emitted : Transmission Unit := (Transmission.addEmitter 7 (some {}) addressed).state

def transmission : Transmission Unit :=
  (Transmission.setupReceiverContext true (fun _ => some (some {})) emitted).state

theorem built_transmission : transmission.Built := by
  have h₁ : (Transmission.addPossibleReceiver 5 (some 1)
    ({ mPacket := () } : Transmission Unit)).value? = some ⟨⟩ := by decide +kernel
  have h₂ : (Transmission.addEmitter 7 (some {}) addressed).value? = some ⟨⟩ := by decide +kernel
  have h₃ : (Transmission.setupReceiverContext true (fun _ => some (some {})) emitted).value? =
    some ⟨⟩ := by decide +kernel
  have haddressed : addressed.Built := .addPossibleReceiver (.new ()) (Result.eq_ok h₁)
  have hemitted : emitted.Built := .addEmitter haddressed (Result.eq_ok h₂)
  exact .setupReceiverContext hemitted (Result.eq_ok h₃)

/-- Make a radio, and an action that begins a transmission. -/
def makeRadio : CoreM (Ether Unit) Unit := do
  let obj ← makeObject "Radio" none
  onObject obj (BaseObject.setObjectId 2)
  let action ← ActionFactory.create .durationAction (Duration.milliseconds 2) 0 2 7
  setUp action "transmissionStart" 0

def quiet : Broadcasts Unit where
  core := (makeRadio (.new { data := (Heap.empty .other).alloc (.transmission transmission) })).state

theorem transmissions_of_reachable_begun : ∃ S, Reachable (· = quiet) (Step 0) S ∧
    S.core.world.mRadioContext[(0 : DataPtr)]? = some [5] := by
  have h₀ : quiet.Init 0 2 :=
    ⟨by decide +kernel, by decide +kernel, by decide, rfl, rfl, rfl, rfl, rfl⟩
  have hb : Begins quiet.core quiet.past 0 0 transmission :=
    ⟨by decide +kernel, by decide +kernel, rfl, built_transmission, by decide +kernel,
      fun ⟨_, h, _⟩ => absurd h List.not_mem_nil⟩
  have hrecipients : transmission.recipients = [5] := by decide +kernel
  obtain ⟨S, hS, hdecided, hbegun, hover⟩ := exists_begun h₀ (by decide +kernel) (by decide +kernel)
    (by decide +kernel) hb
  obtain ⟨-, -, hcontext, -⟩ := transmissions_of_reachable h₀ hS
  refine ⟨S, hS, (hcontext 0 [5]).2 ⟨?_, hbegun, hover⟩⟩
  rw [hdecided, hrecipients]
  exact List.mem_singleton_self _

end Broadcasts

end Radio

end Cosidia
