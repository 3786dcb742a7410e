import Cosidia.Verify.ObjectLists
import Cosidia.Verify.Resolution
import Mathlib.Data.List.Induction

/-!
# Which of the announced objects are added

The first loop of `resolveAndStart` schedules the initialisation of every new object of the list. The
second one adds the objects one by one and stops at the first that cannot be added. Whether all
objects that have been announced end up in the container is decided by the list alone.
-/

namespace Cosidia

open EStateM Std

namespace Registry

variable {r : Registry} {l before after : List TemporaryObject} {obj : TemporaryObject}
  {ρ : ObjectId → ObjectId} {p : ObjectPtr}

/-! ## The first loop -/

/-- A temporary object without the id it has got. -/
def bare (obj : TemporaryObject) : TemporaryObject := { obj with mTempMapping := (.stub, .stub) }

/-- The objects that the new ones among `l` stand for. -/
def newObjects (l : List TemporaryObject) : List ObjectPtr :=
  (l.filter fun obj => !obj.mIsInitialized).map (·.mBaseObject)

theorem mem_newObjects : p ∈ newObjects l ↔
    ∃ obj ∈ l, obj.mIsInitialized = false ∧ obj.mBaseObject = p := by
  simp only [newObjects, List.mem_map, List.mem_filter, Bool.not_eq_true', and_assoc]

theorem bare_start (obj : TemporaryObject) (r : Registry) : bare (r.start obj).1 = bare obj := by
  simp only [start]
  split_ifs <;> rfl

theorem map_bare_startAll (l : List TemporaryObject) (r : Registry) :
    (startAll l r).1.map bare = l.map bare := by
  induction l generalizing r with
  | nil => rfl
  | cons obj l ih =>
    rw [startAll, List.map_cons, List.map_cons, bare_start, ih]

theorem startAll_append (before after : List TemporaryObject) (r : Registry) :
    startAll (before ++ after) r =
      ((startAll before r).1 ++ (startAll after (startAll before r).2).1,
        (startAll after (startAll before r).2).2) := by
  induction before generalizing r with
  | nil => rfl
  | cons obj before ih =>
    rw [List.cons_append, startAll, ih]
    rfl

theorem startAll_container (l : List TemporaryObject) (r : Registry) :
    (startAll l r).2.container = r.container ∧ (startAll l r).2.objects.next = r.objects.next := by
  induction l generalizing r with
  | nil => exact ⟨rfl, rfl⟩
  | cons obj l ih =>
    obtain ⟨hcontainer, hnext⟩ := ih (r.start obj).2
    have hstart : (r.start obj).2.container = r.container ∧
        (r.start obj).2.objects.next = r.objects.next := by
      simp only [start]
      split_ifs <;> exact ⟨rfl, rfl⟩
    exact ⟨hcontainer.trans hstart.1, hnext.trans hstart.2⟩

theorem start_cell (obj : TemporaryObject) (r : Registry) (p : ObjectPtr) :
    (r.start obj).2.objects.cell p =
      if obj.mIsInitialized = false ∧ obj.mBaseObject = p then
        { r.objects.cell p with mObjectId := r.lastId + 1 }
      else r.objects.cell p := by
  cases hinit : obj.mIsInitialized with
  | true =>
    rw [start_of_initialized hinit, if_neg]
    exact fun h => by cases h.1
  | false =>
    rw [start_of_not_initialized hinit, identify_cell]
    by_cases hp : obj.mBaseObject = p
    · rw [if_pos hp.symm, if_pos ⟨rfl, hp⟩, hp]
    · rw [if_neg (Ne.symm hp), if_neg fun h => hp h.2]

theorem start_lastId (obj : TemporaryObject) (r : Registry) :
    (r.start obj).2.lastId = if obj.mIsInitialized = false then r.lastId + 1 else r.lastId := by
  cases hinit : obj.mIsInitialized with
  | true => rw [start_of_initialized hinit]; rfl
  | false => rw [start_of_not_initialized hinit]; rfl

/-- The first loop changes nothing but ids. -/
theorem startAll_cell (l : List TemporaryObject) (r : Registry) (p : ObjectPtr) : ∃ i,
    (startAll l r).2.objects.cell p = { r.objects.cell p with mObjectId := i } := by
  induction l generalizing r with
  | nil => exact ⟨_, rfl⟩
  | cons obj l ih =>
    obtain ⟨i, hi⟩ := ih (r.start obj).2
    refine ⟨i, hi.trans ?_⟩
    rw [start_cell]
    split_ifs <;> rfl

theorem startAll_cell_of_notMem (h : p ∉ newObjects l) (r : Registry) :
    (startAll l r).2.objects.cell p = r.objects.cell p := by
  induction l generalizing r with
  | nil => rfl
  | cons obj l ih =>
    rw [mem_newObjects] at h
    have hl : p ∉ newObjects l := fun hp => by
      obtain ⟨o, ho, hp⟩ := mem_newObjects.1 hp
      exact h ⟨o, List.mem_cons_of_mem _ ho, hp⟩
    apply (ih hl _).trans
    rw [start_cell, if_neg fun hobj => h ⟨obj, List.mem_cons_self .., hobj⟩]

theorem startAll_lastId (l : List TemporaryObject) (r : Registry) :
    r.lastId ≤ (startAll l r).2.lastId := by
  induction l generalizing r with
  | nil => exact Int.le_refl _
  | cons obj l ih =>
    have hstart := start_lastId obj r
    refine Int.le_trans ?_ (ih (r.start obj).2)
    split_ifs at hstart <;> omega

/-- Initialised objects keep their ids, and new ones get valid ids. -/
theorem startAll_valid (h0 : 0 ≤ r.lastId) :
    ((startAll l r).2.objects.cell p).mObjectId.valid = true ↔
      (r.objects.cell p).mObjectId.valid = true ∨ p ∈ newObjects l := by
  induction l generalizing r with
  | nil => simp [startAll, newObjects]
  | cons obj l ih =>
    have hlast : 0 ≤ (r.start obj).2.lastId := by
      have hstart := start_lastId obj r
      split_ifs at hstart <;> omega
    have hvalid : ObjectId.valid (r.lastId + 1) = true :=
      decide_eq_true (by omega : (r.lastId + 1 : Int) > -1)
    have hmem : p ∈ newObjects (obj :: l) ↔
        (obj.mIsInitialized = false ∧ obj.mBaseObject = p) ∨ p ∈ newObjects l := by
      simp only [mem_newObjects, List.exists_mem_cons_iff]
    rw [startAll, ih hlast, start_cell, hmem]
    split_ifs with hobj
    · exact iff_of_true (.inl hvalid) (.inr (.inl hobj))
    · rw [or_iff_right hobj]

/-! ### The ids that are given out -/

theorem newIds_startAll_cons (obj : TemporaryObject) (l : List TemporaryObject) (r : Registry) :
    newIds (startAll (obj :: l) r).1 =
      newIds [(r.start obj).1] ++ newIds (startAll l (r.start obj).2).1 := by
  simp only [newIds]
  rw [← List.map_append, ← List.filter_append]
  rfl

theorem newIds_start (obj : TemporaryObject) (r : Registry) :
    newIds [(r.start obj).1] = if obj.mIsInitialized = false then [r.lastId + 1] else [] := by
  cases hinit : obj.mIsInitialized with
  | true => simp [start_of_initialized hinit, newIds, TemporaryObject.setTempMapping, hinit]
  | false => simp [start_of_not_initialized hinit, newIds, TemporaryObject.setTempMapping, hinit]

theorem lt_of_mem_newIds {i : Int} (h : i ∈ newIds (startAll l r).1) : r.lastId < i := by
  induction l generalizing r with
  | nil => cases h
  | cons obj l ih =>
    rw [newIds_startAll_cons, newIds_start] at h
    have hstart := start_lastId obj r
    rcases List.mem_append.1 h with h | h
    · split_ifs at h with hinit
      · rw [List.mem_singleton.1 h]
        exact Int.lt_succ _
      · cases h
    · have hlt := ih h
      split_ifs at hstart <;> omega

theorem nodup_newIds (l : List TemporaryObject) (r : Registry) :
    (newIds (startAll l r).1).Nodup := by
  induction l generalizing r with
  | nil => exact List.nodup_nil
  | cons obj l ih =>
    rw [newIds_startAll_cons, newIds_start]
    split_ifs with hinit
    · refine List.nodup_cons.2 ⟨fun hmem => ?_, ih _⟩
      have hlt := lt_of_mem_newIds hmem
      have hstart := start_lastId obj r
      rw [if_pos hinit] at hstart
      rw [hstart] at hlt
      exact lt_irrefl _ hlt
    · exact ih _

/-- If every new object is listed once, it has the id that its initialisation is addressed to. -/
theorem startAll_kept (h : (newObjects l).Nodup) (hobj : obj ∈ (startAll l r).1)
    (hinit : obj.mIsInitialized = false) :
    ((startAll l r).2.objects.cell obj.mBaseObject).mObjectId = obj.mTempMapping.2 := by
  induction l generalizing r with
  | nil => cases hobj
  | cons o l ih =>
    have hcons : newObjects (o :: l) =
        if o.mIsInitialized = false then o.mBaseObject :: newObjects l else newObjects l := by
      cases ho : o.mIsInitialized <;> simp [newObjects, ho]
    rw [hcons] at h
    rcases List.mem_cons.1 hobj with rfl | hobj
    · cases ho : o.mIsInitialized with
      | true =>
        rw [start_of_initialized ho, TemporaryObject.setTempMapping, ho] at hinit
        cases hinit
      | false =>
        rw [if_pos ho, List.nodup_cons] at h
        rw [start_of_not_initialized ho, startAll, startAll_cell_of_notMem (by exact h.1), start_cell,
          if_pos ⟨ho, rfl⟩]
        rfl
    · refine ih ?_ hobj
      split_ifs at h with ho
      · exact (List.nodup_cons.1 h).2
      · exact h

/-! ## The second loop -/

section
variable {ω : Type} {s s' : Core ω} {ids : TreeMap ObjectId TemporaryObject}

/-- Neither the actions nor the object list have changed. -/
structure Still (s s' : Core ω) : Prop where
  actions : SameActions s s'
  mObjectList : s'.mObjectList = s.mObjectList

theorem Still.refl (s : Core ω) : Still s s := ⟨.refl s, rfl⟩

theorem Still.trans {s'' : Core ω} (h : Still s s') (h' : Still s' s'') : Still s s'' :=
  ⟨h.actions.trans h'.actions, h'.mObjectList.trans h.mObjectList⟩

theorem Still.onObject {α : Type} (p : ObjectPtr) (x : EStateM Failure BaseObject α) (s : Core ω) :
    Still s (Cosidia.onObject p x s).state :=
  Post.state (post_onObject (fun _ => post_of_state ⟨⟨rfl, rfl, rfl, rfl⟩, rfl⟩) (.refl s))

/-- Relating objects to others leaves the object list as it is. -/
theorem Still.forM (b : ObjectPtr) (x : ObjectId → EStateM Failure BaseObject Unit)
    (l : List ObjectId) (s : Core ω) :
    Still s ((l.forM fun i => do
      Cosidia.onObject b (x (← ofExcept (TemporaryObjectList.resolve ids i)))) s).state := by
  refine Composed.related (P := fun {_} x => ∀ s : Core ω, Still s (x s).state) .refl .trans
    (fun h => h) (.forM fun i _ => .bind (.prim fun s => ?_) fun _ => .prim (.onObject _ _)) s
  rw [ofExcept_state]
  exact .refl s

theorem addObject_error {e : Failure} (h : Core.addObject p s = .error e s') : s' = s := by
  simp only [Core.addObject] at h
  by_cases hp : p < s.objects.next
  swap
  · rw [bind_apply, getObject_of_not_lt hp] at h
    exact (Result.error.inj h).2.symm
  rw [bind_apply, getObject_of_lt hp] at h
  set o := s.objects.cell p with ho
  rcases bind_eq_error.1 h with h | ⟨_, s₁, h₁, h⟩
  · exact (enforce_eq_error.1 h).2.2.symm
  obtain ⟨-, rfl⟩ := enforce_eq_ok.1 h₁
  obtain ⟨l', hl', rfl⟩ := zoom_eq_error.1 h
  rcases ObjectList.perform_cases (.addToObjectContainer o.mObjectId p o) s.mObjectList with
    ⟨e', herr⟩ | ⟨-, hok⟩
  · obtain ⟨-, rfl⟩ := Result.error.inj (herr.symm.trans hl')
    rfl
  · cases hok.symm.trans hl'

theorem relate_error {e : Failure} (h : TemporaryObjectList.relate ids obj s = .error e s') :
    Still s s' := by
  refine Post.error (Q := fun _ _ => True) (E := fun _ s' => Still s s') ?_ h
  refine Post.bind (M := fun _ s' => Still s s') (post_of_state (Still.forM obj.mBaseObject
    BaseObject.addChild obj.mTempChildren.toList s)) fun _ s₁ h₁ => ?_
  refine Post.bind (M := fun _ s' => Still s s') (post_of_state (h₁.trans (Still.forM obj.mBaseObject
    BaseObject.addParent obj.mTempParents.toList s₁))) fun _ s₂ h₂ => ?_
  split
  · refine post_iff.2 ⟨fun _ _ _ => trivial, fun _ s₃ h₃ => ?_⟩
    rwa [addObject_error h₃]
  · trivial

/-- The object can be related and, if it is new, be added. -/
structure Passes (ids : TreeMap ObjectId TemporaryObject) (ρ : ObjectId → ObjectId)
    (obj : TemporaryObject) (r : Registry) : Prop where
  named : ∀ i, i ∈ obj.mTempChildren ∨ i ∈ obj.mTempParents →
    ∃ x, TemporaryObjectList.resolve ids i = .ok x
  initialized : obj.mIsInitialized = false →
    ((r.grow ρ obj).objects.cell obj.mBaseObject).isInitialized = true
  unused : obj.mIsInitialized = false →
    (r.objects.cell obj.mBaseObject).mObjectId ∉ r.container.mActiveObjects

theorem returns_resolved (x : ObjectId → CoreM ω Unit) (l : List ObjectId) (s : Core ω) :
    Returns (l.forM fun i => do x (← ofExcept (TemporaryObjectList.resolve ids i))) s fun _ _ =>
      ∀ i ∈ l, ∃ y, TemporaryObjectList.resolve ids i = .ok y := by
  induction l generalizing s with
  | nil => exact nofun
  | cons i l ih =>
    refine Post.bind (M := fun _ _ => ∃ y, TemporaryObjectList.resolve ids i = .ok y) ?_
      fun _ s₁ hi => ?_
    · apply Post.bind (returns_ofExcept _)
      rintro y s₁ ⟨-, hy⟩
      exact post_iff.2 ⟨fun _ _ _ => ⟨y, hy⟩, fun _ _ _ => trivial⟩
    · exact Post.mono (ih s₁) (fun _ _ hl => List.forall_mem_cons.2 ⟨hi, hl⟩) fun _ _ _ => trivial

section
variable (hρ : ∀ i x, TemporaryObjectList.resolve ids i = .ok x → x = ρ i)
include hρ

theorem passes_of_relate_ok (h : Shows r s) {u : Unit}
    (hok : TemporaryObjectList.relate ids obj s = .ok u s') : Passes ids ρ obj r := by
  refine Post.ok (E := fun _ _ => True) (Q := fun _ _ => Passes ids ρ obj r) ?_ hok
  refine Post.bind (Post.mono ((shows_setRealChildren hρ _ h).and (returns_resolved _ _ s))
    (fun _ _ h => h) fun _ _ _ => trivial) ?_
  rintro _ s₁ ⟨h₁, hchildren⟩
  refine Post.bind (Post.mono ((shows_setRealParent hρ _ h₁).and (returns_resolved _ _ s₁))
    (fun _ _ h => h) fun _ _ _ => trivial) ?_
  rintro _ s₂ ⟨h₂, hparents⟩
  have hnamed : ∀ i, i ∈ obj.mTempChildren ∨ i ∈ obj.mTempParents →
      ∃ x, TemporaryObjectList.resolve ids i = .ok x := by
    rintro i (hi | hi)
    · exact hchildren i (TreeSet.mem_toList.2 hi)
    · exact hparents i (TreeSet.mem_toList.2 hi)
  cases hinit : obj.mIsInitialized with
  | true =>
    have hold : obj.mIsInitialized ≠ false := by
      rw [hinit]
      nofun
    exact ⟨hnamed, fun h => absurd h hold, fun h => absurd h hold⟩
  | false =>
    refine Post.mono (shows_addObject (r := r.grow ρ obj) h₂ _) (fun _ _ h => ?_) fun _ _ _ => trivial
    obtain ⟨hadd, hunused, -⟩ := h
    rw [(related_grow ρ obj r).mObjectId, (grown_grow ρ obj r).container] at hunused
    exact ⟨hnamed, fun _ => hadd, fun _ => hunused⟩

/-- An object is related and added, or it does not pass and changes neither actions nor objects. -/
theorem relate_cases (h : Shows r s) (hp : obj.mBaseObject < r.objects.next) :
    (Passes ids ρ obj r ∧ ∃ s', TemporaryObjectList.relate ids obj s = .ok () s' ∧
      Shows (r.relate ρ obj) s' ∧ SameActions s s') ∨
    (¬ Passes ids ρ obj r ∧ ∃ e s', TemporaryObjectList.relate ids obj s = .error e s' ∧
      Still s s') := by
  by_cases hpass : Passes ids ρ obj r
  · refine .inl ⟨hpass, relate_ok h hp ⟨fun i hi => ?_, fun i hi => ?_⟩ fun hinit =>
      ⟨hpass.initialized hinit, hpass.unused hinit⟩⟩
    · obtain ⟨x, hx⟩ := hpass.named i (.inl hi)
      rw [hx, hρ i x hx]
    · obtain ⟨x, hx⟩ := hpass.named i (.inr hi)
      rw [hx, hρ i x hx]
  · cases hrun : TemporaryObjectList.relate ids obj s with
    | ok u s' => exact absurd (passes_of_relate_ok hρ h hrun) hpass
    | error e s' => exact .inr ⟨hpass, e, s', rfl, relate_error hrun⟩

end

end

/-- What the relations of `l`, resolved by `ρ`, make of `r`. -/
def relateAll (ρ : ObjectId → ObjectId) (l : List TemporaryObject) (r : Registry) : Registry :=
  l.foldl (fun r obj => r.relate ρ obj) r

/-- The second loop goes through `done` and fails at the head of `rest`. -/
structure Stops (ids : TreeMap ObjectId TemporaryObject) (ρ : ObjectId → ObjectId)
    (done rest : List TemporaryObject) (r : Registry) : Prop where
  passed : ∀ before obj after, done = before ++ obj :: after →
    Passes ids ρ obj (relateAll ρ before r)
  failed : ∀ obj after, rest = obj :: after → ¬ Passes ids ρ obj (relateAll ρ done r)

section
variable {ω : Type} {s s' : Core ω} {ids : TreeMap ObjectId TemporaryObject}

theorem forM_cases (hρ : ∀ i x, TemporaryObjectList.resolve ids i = .ok x → x = ρ i)
    (l : List TemporaryObject) (h : Shows r s) (hl : ∀ obj ∈ l, obj.mBaseObject < r.objects.next) :
    ∃ done rest, l = done ++ rest ∧ Stops ids ρ done rest r ∧
      SameActions s (l.forM (TemporaryObjectList.relate ids) s).state ∧
      (l.forM (TemporaryObjectList.relate ids) s).state.mObjectList.currentCopy =
        (relateAll ρ done r).container ∧
      ((l.forM (TemporaryObjectList.relate ids) s).value? = some ⟨⟩ → rest = []) := by
  induction l generalizing r s with
  | nil =>
    refine ⟨[], [], rfl, ⟨fun before obj after h => ?_, nofun⟩, .refl s, h.currentCopy, fun _ => rfl⟩
    cases before <;> cases h
  | cons obj l ih =>
    rw [show (obj :: l).forM (TemporaryObjectList.relate ids) =
      (TemporaryObjectList.relate ids obj >>= fun _ => l.forM (TemporaryObjectList.relate ids) :
        CoreM ω PUnit) from rfl, bind_apply]
    rcases relate_cases hρ h (hl obj (List.mem_cons_self ..)) with
      ⟨hpass, s₁, hok, h₁, hsame⟩ | ⟨hpass, e, s₁, herr, hstill⟩
    · rw [hok]
      obtain ⟨done, rest, rfl, hstops, hsame', hcopy, hrest⟩ := ih h₁ fun o ho =>
        (hl o (List.mem_cons_of_mem _ ho)).trans_eq (related_relate ρ obj r).next.symm
      refine ⟨obj :: done, rest, rfl, ⟨fun before o after h => ?_, hstops.failed⟩,
        hsame.trans hsame', hcopy, hrest⟩
      cases before with
      | nil =>
        obtain ⟨rfl, -⟩ := List.cons.inj h
        exact hpass
      | cons x before =>
        obtain ⟨rfl, hdone⟩ := List.cons.inj h
        exact hstops.passed before o after hdone
    · rw [herr]
      refine ⟨[], obj :: l, rfl, ⟨fun before o after h => ?_, fun o after h => ?_⟩, hstill.actions,
        ?_, nofun⟩
      · cases before <;> cases h
      · obtain ⟨rfl, -⟩ := List.cons.inj h
        exact hpass
      · rw [Result.state_error, hstill.mObjectList]
        exact h.currentCopy

end

/-! ## What the list says about it -/

theorem newObjects_append (l l' : List TemporaryObject) :
    newObjects (l ++ l') = newObjects l ++ newObjects l' := by
  simp [newObjects]

theorem newObjects_startAll (l : List TemporaryObject) (r : Registry) :
    newObjects (startAll l r).1 = newObjects l := by
  have hbare : ∀ l, newObjects (l.map bare) = newObjects l := by
    intro l
    simp only [newObjects, List.filter_map, List.map_map]
    rfl
  rw [← hbare, map_bare_startAll, hbare]

/-- Every new object is listed once. -/
theorem nodup_newObjects (h : ∀ before obj after, l = before ++ obj :: after →
    obj.mIsInitialized = false → obj.mBaseObject ∉ newObjects before) : (newObjects l).Nodup := by
  induction l using List.reverseRecOn with
  | nil => exact List.nodup_nil
  | append_singleton l obj ih =>
    have hl := ih fun before o after heq => h before o (after ++ [obj]) (by rw [heq]; simp)
    rw [newObjects_append]
    cases hinit : obj.mIsInitialized with
    | true => simpa [newObjects, hinit] using hl
    | false =>
      have hnew := h l obj [] rfl hinit
      have hobj : newObjects [obj] = [obj.mBaseObject] := by simp [newObjects, hinit]
      rw [hobj, List.nodup_append_comm]
      exact List.nodup_cons.2 ⟨hnew, hl⟩

theorem notMem_newObjects (h : (newObjects (before ++ obj :: after)).Nodup)
    (hinit : obj.mIsInitialized = false) : obj.mBaseObject ∉ newObjects before := by
  rw [newObjects_append] at h
  refine fun hmem => (List.disjoint_of_nodup_append h) hmem ?_
  exact mem_newObjects.2 ⟨obj, List.mem_cons_self .., hinit, rfl⟩

/-- After the objects `before` have been initialised, `obj` has a real id. -/
def Identified (before : List TemporaryObject) (obj : TemporaryObject) (r : Registry) : Prop :=
  obj.mIsInitialized = false ∨ (r.objects.cell obj.mBaseObject).mObjectId.valid = true ∨
    obj.mBaseObject ∈ newObjects before

/-- The last object of the list with the temporary id `i` has a real id. -/
def Findable (l : List TemporaryObject) (i : ObjectId) (r : Registry) : Prop :=
  ∃ before obj after, l = before ++ obj :: after ∧ obj.mTempId = i ∧
    (∀ o ∈ after, o.mTempId ≠ i) ∧ Identified before obj r

/-- After `before`, the new object `obj` has what `isInitialized` asks for. -/
structure Fit (before : List TemporaryObject) (obj : TemporaryObject) (r : Registry) : Prop where
  name : (r.objects.cell obj.mBaseObject).mObjectName ≠ ""
  externalId : (r.objects.cell obj.mBaseObject).mExternalId ≠ some ""
  parent : (∃ i, i ∈ (r.objects.cell obj.mBaseObject).mParentList) ∨
    ∃ o ∈ before ++ [obj], o.mBaseObject = obj.mBaseObject ∧ ∃ i, i ∈ o.mTempParents
  once : obj.mBaseObject ∉ newObjects before

/-- Up to the last new object of the list, the temporary ids that are named stand for objects with
real ids, and the new objects can be added. -/
def Admissible (l : List TemporaryObject) (r : Registry) : Prop :=
  ∀ before obj after, l = before ++ obj :: after →
    (∃ o ∈ obj :: after, o.mIsInitialized = false) →
      (∀ i, i ∈ obj.mTempChildren ∨ i ∈ obj.mTempParents → Findable l i r) ∧
        (obj.mIsInitialized = false → Fit before obj r)

theorem findable_concat {i : ObjectId} : Findable (l ++ [obj]) i r ↔
    if obj.mTempId = i then Identified l obj r else Findable l i r := by
  constructor
  · rintro ⟨before, o, after, heq, hi, hafter, hid⟩
    rcases List.eq_nil_or_concat after with rfl | ⟨after, x, rfl⟩
    · obtain ⟨rfl, hobj⟩ := List.append_inj' heq rfl
      obtain rfl := List.singleton_inj.1 hobj
      rwa [if_pos hi]
    · rw [List.concat_eq_append, ← List.cons_append, ← List.append_assoc] at heq
      obtain ⟨rfl, hobj⟩ := List.append_inj' heq rfl
      obtain rfl := List.singleton_inj.1 hobj
      rw [List.concat_eq_append] at hafter
      rw [if_neg (hafter obj (by simp))]
      exact ⟨before, o, after, rfl, hi, fun y hy => hafter y (by simp [hy]), hid⟩
  · split_ifs with hi
    · exact fun hid => ⟨l, obj, [], rfl, hi, nofun, hid⟩
    · rintro ⟨before, o, after, rfl, ho, hafter, hid⟩
      refine ⟨before, o, after ++ [obj], by simp, ho, fun y hy => ?_, hid⟩
      rcases List.mem_append.1 hy with hy | hy
      · exact hafter y hy
      · rwa [List.mem_singleton.1 hy]

theorem start_valid (h0 : 0 ≤ r.lastId) :
    ((((startAll l r).2.start obj).1).mTempMapping.2).valid = true ↔ Identified l obj r := by
  simp only [Identified]
  cases hinit : obj.mIsInitialized with
  | true =>
    rw [start_of_initialized hinit, ← startAll_valid h0]
    exact ⟨.inr, fun h => h.resolve_left nofun⟩
  | false =>
    rw [start_of_not_initialized hinit]
    refine iff_of_true (decide_eq_true ?_) (.inl rfl)
    have hle := startAll_lastId l r
    show ((startAll l r).2.lastId + 1 : Int) > -1
    omega

/-- Resolving a temporary id fails if no object or none with a real id has it. -/
theorem resolve_iff (h0 : 0 ≤ r.lastId) {i : ObjectId} :
    (∃ x, TemporaryObjectList.resolve ((startAll l r).1.foldl
      (fun ids obj => ids.insert obj.mTempId obj) ∅) i = .ok x) ↔ Findable l i r := by
  induction l using List.reverseRecOn with
  | nil =>
    refine iff_of_false (fun ⟨x, hx⟩ => ?_) fun ⟨before, obj, after, h, _⟩ => ?_
    · simp only [TemporaryObjectList.resolve] at hx
      rw [show (startAll [] r).1 = [] from rfl, List.foldl_nil, TreeMap.getElem?_emptyc] at hx
      cases hx
    · cases before <;> cases h
  | append_singleton l obj ih =>
    have hid : ((startAll l r).2.start obj).1.mTempId = obj.mTempId := by
      simp only [start]
      split_ifs <;> rfl
    rw [startAll_append, List.foldl_append, findable_concat, ← ih]
    simp only [TemporaryObjectList.resolve]
    simp only [startAll, List.foldl_cons, List.foldl_nil]
    rw [hid]
    by_cases hi : obj.mTempId = i
    · rw [if_pos hi, hi, TreeMap.getElem?_insert_self, ← start_valid h0]
      unfold TemporaryObject.getRealId
      constructor
      · rintro ⟨x, hx⟩
        dsimp only at hx
        split_ifs at hx with hvalid
        exact hvalid
      · exact fun hvalid => ⟨_, if_pos hvalid⟩
    · rw [if_neg hi, TreeMap.getElem?_insert, if_neg (mt Std.compare_eq_iff_eq.1 hi)]

/-! ### How far the second loop gets -/

section
variable {ids : TreeMap ObjectId TemporaryObject} {done rest : List TemporaryObject}

theorem relateAll_mObjectId (ρ : ObjectId → ObjectId) (l : List TemporaryObject) (r : Registry)
    (p : ObjectPtr) :
    ((relateAll ρ l r).objects.cell p).mObjectId = (r.objects.cell p).mObjectId :=
  (related_relateAll ρ l r).mObjectId p

/-- The second loop adds the new objects that it gets to. -/
theorem mem_relateAll (ρ : ObjectId → ObjectId) (l : List TemporaryObject) (r : Registry)
    (i : ObjectId) : i ∈ (relateAll ρ l r).container.mActiveObjects ↔
      i ∈ (newObjects l).map (fun p => (r.objects.cell p).mObjectId) ∨
        i ∈ r.container.mActiveObjects := by
  induction l generalizing r with
  | nil => simp [relateAll, newObjects]
  | cons obj l ih =>
    have hid := (related_relate ρ obj r).mObjectId
    have hstep : i ∈ (r.relate ρ obj).container.mActiveObjects ↔
        i ∈ (newObjects [obj]).map (fun p => (r.objects.cell p).mObjectId) ∨
          i ∈ r.container.mActiveObjects := by
      rw [TreeMap.mem_iff_isSome_getElem?, relate_active, TreeMap.mem_iff_isSome_getElem?]
      cases hinit : obj.mIsInitialized with
      | true => simp [newObjects, hinit]
      | false =>
        simp only [true_and, newObjects, hinit, List.filter_cons, Bool.not_false, if_true,
          List.filter_nil, List.map_cons, List.map_nil, List.mem_singleton]
        by_cases hi : (r.objects.cell obj.mBaseObject).mObjectId = i
        · simp [hi]
        · simp [hi, Ne.symm hi]
    rw [show relateAll ρ (obj :: l) r = relateAll ρ l (r.relate ρ obj) from rfl, ih, hstep]
    simp only [hid]
    rw [show obj :: l = [obj] ++ l from rfl, newObjects_append, List.map_append, List.mem_append,
      or_left_comm, or_assoc]

theorem Stops.nodup (h : Stops ids ρ done rest r) : (newObjects done).Nodup := by
  apply nodup_newObjects
  intro before obj after heq hinit hmem
  have hunused := (h.passed before obj after heq).unused hinit
  rw [relateAll_mObjectId, mem_relateAll] at hunused
  exact hunused (.inl (List.mem_map_of_mem hmem))

theorem newIds_eq_map (h : (newObjects l).Nodup) : newIds (startAll l r).1 =
    (newObjects (startAll l r).1).map fun p => ((startAll l r).2.objects.cell p).mObjectId := by
  unfold newIds newObjects
  rw [List.map_map]
  apply List.map_congr_left
  intro obj hobj
  rw [List.mem_filter, Bool.not_eq_true'] at hobj
  exact (startAll_kept h hobj.1 hobj.2).symm

/-- What has been announced is in the container exactly if the second loop gets past the last new
object. -/
theorem Stops.forall_newIds_iff (hr : Counted r) (hl : (startAll l r).1 = done ++ rest)
    (h : Stops ids ρ done rest (startAll l r).2) :
    (∀ i ∈ newIds (startAll l r).1,
      i ∈ (relateAll ρ done (startAll l r).2).container.mActiveObjects) ↔ newObjects rest = [] := by
  have hmem : ∀ i ∈ newIds (startAll l r).1,
      (i ∈ (relateAll ρ done (startAll l r).2).container.mActiveObjects ↔
        i ∈ (newObjects done).map fun p => ((startAll l r).2.objects.cell p).mObjectId) := by
    intro i hi
    rw [mem_relateAll, (startAll_container l r).1, or_iff_left]
    exact fun hold => absurd (hr.active i hold).2 (Int.not_le_of_gt (lt_of_mem_newIds hi))
  have hnew : newObjects (startAll l r).1 = newObjects done ++ newObjects rest := by
    rw [hl, newObjects_append]
  constructor
  · intro hall
    -- there are as many announced ids as new objects, and they are all different
    have hsub : newIds (startAll l r).1 ⊆
        (newObjects done).map fun p => ((startAll l r).2.objects.cell p).mObjectId :=
      fun i hi => (hmem i hi).1 (hall i hi)
    have hle := (nodup_newIds l r).length_le_of_subset hsub
    have hlength : (newIds (startAll l r).1).length = (newObjects (startAll l r).1).length := by
      simp only [newIds, newObjects, List.length_map]
    rw [hlength, hnew, List.length_append, List.length_map] at hle
    exact List.eq_nil_of_length_eq_zero (by omega)
  · intro hrest i hi
    rw [hrest, List.append_nil] at hnew
    have hnodup : (newObjects l).Nodup := by
      rw [← newObjects_startAll l r, hnew]
      exact h.nodup
    rw [hmem i hi, ← hnew, ← newIds_eq_map hnodup]
    exact hi

theorem exists_split {before' after' : List TemporaryObject} {obj' : TemporaryObject}
    (h : (startAll l r).1 = before' ++ obj' :: after') : ∃ before obj after,
      l = before ++ obj :: after ∧ before' = (startAll before r).1 ∧
        obj' = ((startAll before r).2.start obj).1 ∧
          after' = (startAll after ((startAll before r).2.start obj).2).1 := by
  induction l generalizing r before' with
  | nil => cases before' <;> cases h
  | cons obj l ih =>
    cases before' with
    | nil =>
      obtain ⟨rfl, rfl⟩ := List.cons.inj h
      exact ⟨[], obj, l, rfl, rfl, rfl, rfl⟩
    | cons x before' =>
      obtain ⟨rfl, hrest⟩ := List.cons.inj h
      obtain ⟨before, o, after, rfl, rfl, rfl, rfl⟩ := ih hrest
      exact ⟨obj :: before, o, after, rfl, rfl, rfl, rfl⟩

/-- It gets past the last new object exactly if all objects up to it pass. -/
theorem Stops.newObjects_rest_iff (hl : (startAll l r).1 = done ++ rest)
    (h : Stops ids ρ done rest (startAll l r).2) :
    newObjects rest = [] ↔ ∀ before obj after, l = before ++ obj :: after →
      (∃ o ∈ obj :: after, o.mIsInitialized = false) →
        Passes ids ρ ((startAll before r).2.start obj).1
          (relateAll ρ (startAll before r).1 (startAll l r).2) := by
  constructor
  · rintro hrest before obj after rfl ⟨o, ho, hinit⟩
    have hmem : o.mBaseObject ∈ newObjects (startAll (obj :: after) (startAll before r).2).1 := by
      rw [newObjects_startAll]
      exact mem_newObjects.2 ⟨o, ho, hinit, rfl⟩
    rw [startAll_append] at hl
    rcases List.append_eq_append_iff.1 hl with ⟨mid, rfl, hmid⟩ | ⟨mid, hmid, rfl⟩
    · cases mid with
      | nil =>
        rw [List.nil_append] at hmid
        rw [hmid, hrest] at hmem
        cases hmem
      | cons x mid =>
        obtain ⟨rfl, -⟩ := List.cons.inj hmid
        exact h.passed _ _ _ rfl
    · rw [newObjects_append, List.append_eq_nil_iff] at hrest
      rw [hrest.2] at hmem
      cases hmem
  · intro hall
    by_contra hrest
    cases rest with
    | nil => exact hrest rfl
    | cons obj' rest =>
      obtain ⟨before, obj, after, rfl, rfl, rfl, rfl⟩ := exists_split hl
      refine h.failed _ _ rfl (hall before obj after rfl ?_)
      obtain ⟨p, hp⟩ := List.exists_mem_of_ne_nil _ hrest
      have hsame : newObjects (((startAll before r).2.start obj).1 ::
          (startAll after ((startAll before r).2.start obj).2).1) = newObjects (obj :: after) :=
        newObjects_startAll (obj :: after) (startAll before r).2
      rw [hsame] at hp
      obtain ⟨o, ho, hinit, -⟩ := mem_newObjects.1 hp
      exact ⟨o, ho, hinit⟩

end

/-! ### What the checks come to -/

theorem isInitialized_iff (o : BaseObject) : o.isInitialized = true ↔
    o.mObjectName ≠ "" ∧ o.mObjectId.valid = true ∧ (∃ i, i ∈ o.mParentList) ∧
      o.mExternalId ≠ some "" := by
  have hparents : (!o.mParentList.isEmpty) = true ↔ ∃ i, i ∈ o.mParentList := by
    rw [Bool.not_eq_true', TreeSet.isEmpty_eq_false_iff_exists_mem]
  simp only [BaseObject.isInitialized]
  rw [Bool.and_eq_true, Bool.and_eq_true, Bool.and_eq_true, hparents, bne_iff_ne, and_assoc, and_assoc]
  refine and_congr_right fun _ => and_congr_right fun _ => and_congr_right fun _ => ?_
  cases o.mExternalId with
  | none => simp
  | some id => simp

theorem start_fst (obj : TemporaryObject) (r : Registry) :
    ∃ id, (r.start obj).1 = obj.setTempMapping id := by
  simp only [start]
  split_ifs
  · exact ⟨_, rfl⟩
  · exact ⟨_, rfl⟩

/-- What can be seen without the ids that have been given is the same before and after the loop. -/
theorem exists_startAll_iff {P : TemporaryObject → Prop} (hP : ∀ o, P (bare o) ↔ P o)
    (l : List TemporaryObject) (r : Registry) : (∃ o ∈ (startAll l r).1, P o) ↔ ∃ o ∈ l, P o := by
  have hbare : ∀ l : List TemporaryObject, (∃ o ∈ l.map bare, P o) ↔ ∃ o ∈ l, P o := by
    intro l
    simp only [List.mem_map, exists_exists_and_eq_and, hP]
  rw [← hbare, map_bare_startAll, hbare]

section
variable {ids : TreeMap ObjectId TemporaryObject}

/-- After the first loop a new object has a valid id, and the parents it gets are those of the list. -/
theorem initialized_iff (hr : Counted r) (hl : l = before ++ obj :: after)
    (hinit : obj.mIsInitialized = false) :
    (((relateAll ρ (startAll before r).1 (startAll l r).2).grow ρ
        ((startAll before r).2.start obj).1).objects.cell obj.mBaseObject).isInitialized = true ↔
      (r.objects.cell obj.mBaseObject).mObjectName ≠ "" ∧
        ((∃ i, i ∈ (r.objects.cell obj.mBaseObject).mParentList) ∨
          ∃ o ∈ before ++ [obj], o.mBaseObject = obj.mBaseObject ∧ ∃ i, i ∈ o.mTempParents) ∧
        (r.objects.cell obj.mBaseObject).mExternalId ≠ some "" := by
  set p := obj.mBaseObject with hp
  have hrelated := (related_relateAll ρ (startAll before r).1 (startAll l r).2).append
    (related_grow ρ ((startAll before r).2.start obj).1 _)
  have hlist : (startAll before r).1 ++ [((startAll before r).2.start obj).1] =
      (startAll (before ++ [obj]) r).1 := by
    rw [startAll_append]
    rfl
  rw [hlist] at hrelated
  obtain ⟨id, hcell⟩ := startAll_cell l r p
  have hvalid : ObjectId.valid id = true := by
    have hmem : p ∈ newObjects l := by
      rw [hl]
      exact mem_newObjects.2 ⟨obj, by simp, hinit, rfl⟩
    have := (startAll_valid (p := p) hr.lastId).2 (.inr hmem)
    rwa [hcell] at this
  obtain ⟨children, parents, hgrown⟩ := hrelated.cell p
  have hparents := hrelated.parents p
  rw [hcell] at hgrown
  change (Registry.objects (grow ρ _ (relateAll ρ _ _))).cell p = _ at hgrown
  change ∀ j, j ∈ ((Registry.objects (grow ρ _ (relateAll ρ _ _))).cell p).mParentList ↔ _ at hparents
  rw [hgrown, hcell] at hparents
  rw [hgrown, isInitialized_iff]
  have hex : (∃ j, j ∈ parents) ↔ (∃ i, i ∈ (r.objects.cell p).mParentList) ∨
      ∃ o ∈ before ++ [obj], o.mBaseObject = p ∧ ∃ i, i ∈ o.mTempParents := by
    rw [← exists_startAll_iff (P := fun o => o.mBaseObject = p ∧ ∃ i, i ∈ o.mTempParents)
      (fun _ => Iff.rfl) (before ++ [obj]) r]
    constructor
    · rintro ⟨j, hj⟩
      rcases (hparents j).1 hj with ⟨o, ho, hop, i, hi, -⟩ | hj
      · exact .inr ⟨o, ho, hop, i, hi⟩
      · exact .inl ⟨j, hj⟩
    · rintro (⟨j, hj⟩ | ⟨o, ho, hop, i, hi⟩)
      · exact ⟨j, (hparents j).2 (.inr hj)⟩
      · exact ⟨ρ i, (hparents _).2 (.inl ⟨o, ho, hop, i, hi, rfl⟩)⟩
  rw [← hex]
  exact and_congr_right fun _ => and_iff_right hvalid

/-- The id of a new object is not in use before the object is added. -/
theorem unused_of_nodup (hr : Counted r) (hl : l = before ++ obj :: after)
    (hnodup : (newObjects l).Nodup) (hinit : obj.mIsInitialized = false) :
    ((relateAll ρ (startAll before r).1 (startAll l r).2).objects.cell obj.mBaseObject).mObjectId ∉
      (relateAll ρ (startAll before r).1 (startAll l r).2).container.mActiveObjects := by
  have hmap := newIds_eq_map (r := r) hnodup
  have hmem : obj.mBaseObject ∈ newObjects (startAll l r).1 := by
    rw [newObjects_startAll, hl]
    exact mem_newObjects.2 ⟨obj, by simp, hinit, rfl⟩
  rw [relateAll_mObjectId, mem_relateAll, (startAll_container l r).1, newObjects_startAll]
  rintro (hi | hi)
  · obtain ⟨q, hq, heq⟩ := List.mem_map.1 hi
    have hq' : q ∈ newObjects (startAll l r).1 := by
      rw [newObjects_startAll, hl, newObjects_append]
      exact List.mem_append_left _ hq
    obtain rfl := List.inj_on_of_nodup_map (hmap ▸ nodup_newIds l r) hq' hmem heq
    rw [hl] at hnodup
    exact notMem_newObjects hnodup hinit hq
  · refine absurd (hr.active _ hi).2 (Int.not_le_of_gt (lt_of_mem_newIds (l := l) ?_))
    rw [hmap]
    exact List.mem_map_of_mem hmem

theorem passes_iff (hr : Counted r) (hl : l = before ++ obj :: after)
    (hnodup : (newObjects l).Nodup) :
    Passes ((startAll l r).1.foldl (fun ids obj => ids.insert obj.mTempId obj) ∅) ρ
        ((startAll before r).2.start obj).1 (relateAll ρ (startAll before r).1 (startAll l r).2) ↔
      (∀ i, i ∈ obj.mTempChildren ∨ i ∈ obj.mTempParents → Findable l i r) ∧
        (obj.mIsInitialized = false → Fit before obj r) := by
  obtain ⟨id, hid⟩ := start_fst obj (startAll before r).2
  have hinitialized := initialized_iff (ρ := ρ) hr hl
  have hunused := unused_of_nodup (ρ := ρ) hr hl hnodup
  rw [hid] at hinitialized ⊢
  constructor
  · rintro ⟨hnamed, hinit, -⟩
    refine ⟨fun i hi => (resolve_iff hr.lastId).1 (hnamed i hi), fun hnew => ?_⟩
    obtain ⟨hname, hparent, hexternal⟩ := (hinitialized hnew).1 (hinit hnew)
    rw [hl] at hnodup
    exact ⟨hname, hexternal, hparent, notMem_newObjects hnodup hnew⟩
  · rintro ⟨hnamed, hfit⟩
    refine ⟨fun i hi => (resolve_iff hr.lastId).2 (hnamed i hi), fun hnew => ?_, hunused⟩
    exact (hinitialized hnew).2 ⟨(hfit hnew).name, (hfit hnew).parent, (hfit hnew).externalId⟩

end

theorem Admissible.nodup (h : Admissible l r) : (newObjects l).Nodup :=
  nodup_newObjects fun before obj after heq hinit =>
    ((h before obj after heq ⟨obj, List.mem_cons_self .., hinit⟩).2 hinit).once

theorem Stops.admissible_iff {done rest : List TemporaryObject} (hr : Counted r)
    (hl : (startAll l r).1 = done ++ rest)
    (h : Stops ((startAll l r).1.foldl (fun ids obj => ids.insert obj.mTempId obj) ∅) ρ done rest
      (startAll l r).2) :
    newObjects rest = [] ↔ Admissible l r := by
  have hiff := h.newObjects_rest_iff hl
  constructor
  · intro hrest
    have hnodup : (newObjects l).Nodup := by
      rw [← newObjects_startAll l r, hl, newObjects_append, hrest, List.append_nil]
      exact h.nodup
    exact fun before obj after heq hnew =>
      (passes_iff hr heq hnodup).1 (hiff.1 hrest before obj after heq hnew)
  · exact fun hadm => hiff.2 fun before obj after heq hnew =>
      (passes_iff hr heq hadm.nodup).2 (hadm before obj after heq hnew)

end Registry

/-! ## The result -/

variable {ω : Type}

/-- From `s` to `s'` handlers have entered the list, and the objects that they are addressed to are in
the container. -/
def Core.Addressed (s s' : Core ω) : Prop :=
  ∃ new : List Scheduling, s'.mActions.entries.Perm (new ++ s.mActions.entries) ∧
    ∀ h ∈ new, (s'.about h).2.1 ∈ s'.mObjectList.currentCopy.mActiveObjects

/-- The handlers that have entered the list are determined up to their order. -/
theorem Inits.forall_addressed_iff {t : TimePoint} {ids : List ObjectId} {s s' : Core ω}
    (h : Inits t ids s s') (hs : s.mActions.Filed Scheduling.time) :
    s.Addressed s' ↔ ∀ i ∈ ids, i ∈ s'.mObjectList.currentCopy.mActiveObjects := by
  obtain ⟨new, hperm, -, hnew⟩ := h.pending hs
  have hids : new.map (fun h => (s'.about h).2.1) = ids := by
    have := congrArg (List.map fun x => x.2.1) hnew
    rwa [List.map_map, List.map_map, List.map_id''] at this
    exact fun _ => rfl
  rw [← hids, List.forall_mem_map]
  constructor
  · rintro ⟨new', hperm', hall⟩ x hx
    have hsame : new.Perm new' := (List.perm_append_right_iff _).1 (hperm.symm.trans hperm')
    exact hall x (hsame.mem_iff.1 hx)
  · exact fun hall => ⟨new, hperm, hall⟩

/-- When `resolveAndStart` has returned, the initialisations it has scheduled are addressed to objects
in the container. Whether it returns or throws, they are exactly if the list is admissible. -/
theorem addressed_iff {t : TimePoint} {l : List TemporaryObject} {s : Core ω} (hs : s.Consistent)
    (hl : ∀ obj ∈ l, obj.mBaseObject < s.objects.next) (ht : s.mCurrentActionTime ≤ t) :
    ((TemporaryObjectList.resolveAndStart t l s).value? = some () →
        s.Addressed (TemporaryObjectList.resolveAndStart t l s).state) ∧
      (s.Addressed (TemporaryObjectList.resolveAndStart t l s).state ↔
        Registry.Admissible l s.registry) := by
  have hle : t ≤ t + Duration.milliseconds 1 := Int.le_add_of_nonneg_right (by decide)
  obtain ⟨s₁, hok, h₁, hinits⟩ := Registry.mapM_ok l hs.shows hl hs.counted.lastId
    (Int.le_trans ht hle) (Int.le_trans (Int.le_trans hs.now ht) hle)
  have hmade : ∀ obj ∈ (Registry.startAll l s.registry).1,
      obj.mBaseObject < (Registry.startAll l s.registry).2.objects.next := by
    intro obj hobj
    rw [(Registry.startAll_container l s.registry).2]
    obtain ⟨o, ho, hbase⟩ := (Registry.exists_startAll_iff (P := (·.mBaseObject = obj.mBaseObject))
      (fun _ => Iff.rfl) l s.registry).1 ⟨obj, hobj, rfl⟩
    exact hbase ▸ hl o ho
  obtain ⟨done, rest, hlist, hstops, hsame, hcopy, hrest⟩ := Registry.forM_cases
    (fun _ _ hx => Registry.eq_realId hx) (Registry.startAll l s.registry).1 h₁ hmade
  have hrun : TemporaryObjectList.resolveAndStart t l s =
      (Registry.startAll l s.registry).1.forM (TemporaryObjectList.relate
        ((Registry.startAll l s.registry).1.foldl
          (fun ids obj => ids.insert obj.mTempId obj) ∅)) s₁ := by
    simp only [TemporaryObjectList.resolveAndStart]
    rw [bind_apply, hok]
  have hinits' := hinits.trans (hsame.inits (t + Duration.milliseconds 1))
  rw [List.append_nil] at hinits'
  rw [hrun, hinits'.forall_addressed_iff hs.filed, hcopy, hstops.forall_newIds_iff hs.counted hlist]
  exact ⟨fun hvalue => by rw [hrest hvalue]; rfl, hstops.admissible_iff hs.counted hlist⟩

/-- A channel below a radio is announced and added. -/
theorem addressed_iff_channelObjects :
    ((TemporaryObjectList.resolveAndStart 0 channelObjects channelCore).value? = some () →
        channelCore.Addressed
          (TemporaryObjectList.resolveAndStart 0 channelObjects channelCore).state) ∧
      (channelCore.Addressed
          (TemporaryObjectList.resolveAndStart 0 channelObjects channelCore).state ↔
        Registry.Admissible channelObjects channelCore.registry) :=
  addressed_iff consistent_channelCore resolvable_channelObjects.made (by decide)

/-- The channel is announced and then, because it has no parent, not added. -/
theorem not_addressed :
    ¬ ∀ (t : TimePoint) (l : List TemporaryObject) (s : Core Unit), s.Consistent →
      (∀ obj ∈ l, obj.mBaseObject < s.objects.next) → s.mCurrentActionTime ≤ t →
        s.Addressed (TemporaryObjectList.resolveAndStart t l s).state := by
  intro h
  obtain ⟨new, hperm, hall⟩ := h 0 [{ mBaseObject := 1, mTempId := 1 }] channelCore
    consistent_channelCore (by decide) (by decide)
  have hnew : ∀ x ∈ (TemporaryObjectList.resolveAndStart 0
      [{ mBaseObject := 1, mTempId := 1 }] channelCore).state.mActions.entries, x ∈ new := by
    intro x hx
    rw [show channelCore.mActions.entries = [] from rfl, List.append_nil] at hperm
    exact hperm.mem_iff.1 hx
  exact absurd (fun x hx => hall x (hnew x hx)) (by decide +kernel)

end Cosidia
