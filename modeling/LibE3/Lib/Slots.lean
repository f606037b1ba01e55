import Mathlib.Data.Set.Insert
import Mathlib.Logic.Function.Basic

/-! Resources that are kept in slots.  A resource is live from the moment it is acquired until it is
released, and a slot holds one resource or none.  `Sound` is what every assignment of a new resource
keeps: the slots hold different live resources.  `Tight` is what only an assignment to an empty slot
keeps: every live resource is in a slot.  What is live and in no slot stays so. -/

variable {ι ρ : Type}

@[ext] structure Slots (ι ρ : Type) where
  slot : ι → Option ρ
  live : Set ρ

namespace Slots

structure Sound (s : Slots ι ρ) : Prop where
  live : ∀ i r, s.slot i = some r → r ∈ s.live
  injective : ∀ i j r, s.slot i = some r → s.slot j = some r → i = j

/-- Every live resource is in a slot. -/
def Tight (s : Slots ι ρ) : Prop := ∀ r ∈ s.live, ∃ i, s.slot i = some r

/-- The resource, if there is one, is not live. -/
def Fresh (s : Slots ι ρ) (o : Option ρ) : Prop := ∀ r ∈ o, r ∉ s.live

/-- The resources in the slots are released. -/
def clear (s : Slots ι ρ) : Slots ι ρ where
  slot _ := none
  live := {r ∈ s.live | ∀ i, s.slot i ≠ some r}

theorem sound_clear (s : Slots ι ρ) : s.clear.Sound := ⟨nofun, nofun⟩

theorem tight_clear_iff (s : Slots ι ρ) : s.clear.Tight ↔ s.Tight := by
  constructor
  · intro h r hr
    by_contra hnone
    obtain ⟨i, hi⟩ := h r ⟨hr, not_exists.mp hnone⟩
    cases hi
  · rintro h r ⟨hr, hnone⟩
    obtain ⟨i, hi⟩ := h r hr
    exact absurd hi (hnone i)

theorem Tight.live_clear {s : Slots ι ρ} (h : s.Tight) : s.clear.live = ∅ := by
  refine Set.eq_empty_of_forall_notMem fun r hr => ?_
  obtain ⟨i, hi⟩ := h r hr.1
  exact hr.2 i hi

theorem tight_of_live_clear {s : Slots ι ρ} (h : s.clear.live = ∅) : s.Tight := by
  intro r hr
  by_contra hnone
  have hmem : r ∈ s.clear.live := ⟨hr, not_exists.mp hnone⟩
  rw [h] at hmem
  exact hmem

variable [DecidableEq ι]

/-- Slot `i` takes a resource that is acquired, or is left empty.  What was in it is not released. -/
def assign (s : Slots ι ρ) (i : ι) (o : Option ρ) : Slots ι ρ where
  slot := Function.update s.slot i o
  live := s.live ∪ {r | o = some r}

section Assign

variable {s s' : Slots ι ρ} {i j : ι} {o : Option ρ}

theorem slot_assign_ne (s : Slots ι ρ) (o : Option ρ) (h : j ≠ i) :
    (s.assign i o).slot j = s.slot j := Function.update_of_ne h _ _

theorem slot_assign_self (s : Slots ι ρ) (i : ι) (o : Option ρ) : (s.assign i o).slot i = o :=
  Function.update_self _ _ _

theorem Sound.assign (h : s.Sound) (hfresh : s.Fresh o) (i : ι) : (s.assign i o).Sound := by
  -- A slot other than `i` holds what was live before, and so not the new resource.
  have hother : ∀ j r, j ≠ i → (s.assign i o).slot j = some r → r ∈ s.live ∧ o ≠ some r := by
    intro j r hj hr
    rw [slot_assign_ne s o hj] at hr
    have hlive := h.live j r hr
    exact ⟨hlive, fun ho => hfresh r ho hlive⟩
  have hself : ∀ r, (s.assign i o).slot i = some r → o = some r := by
    intro r hr
    rwa [slot_assign_self] at hr
  refine ⟨fun j r hr => ?_, fun j k r hj hk => ?_⟩
  · by_cases hji : j = i
    · subst hji
      exact Or.inr (hself r hr)
    · exact Or.inl (hother j r hji hr).1
  · by_cases hji : j = i
    · subst hji
      by_contra hne
      exact (hother k r (Ne.symm hne) hk).2 (hself r hj)
    by_cases hki : k = i
    · subst hki
      exact absurd (hself r hk) (hother j r hji hj).2
    · rw [slot_assign_ne s o hji] at hj
      rw [slot_assign_ne s o hki] at hk
      exact h.injective j k r hj hk

/-- A new resource keeps the slots tight exactly where it replaces none. -/
theorem Sound.tight_assign_iff (h : s.Sound) (hfresh : s.Fresh o) :
    (s.assign i o).Tight ↔ s.Tight ∧ s.slot i = none := by
  constructor
  · intro htight
    -- What was live is now in a slot other than `i`, which has it from before.
    have hold : ∀ r ∈ s.live, ∃ j, j ≠ i ∧ s.slot j = some r := by
      intro r hr
      obtain ⟨j, hj⟩ := htight r (Or.inl hr)
      by_cases hji : j = i
      · subst hji
        rw [slot_assign_self] at hj
        exact absurd hr (hfresh r hj)
      · rw [slot_assign_ne s o hji] at hj
        exact ⟨j, hji, hj⟩
    refine ⟨fun r hr => (hold r hr).imp fun j hj => hj.2, ?_⟩
    cases hi : s.slot i with
    | none => rfl
    | some r =>
      obtain ⟨j, hne, hj⟩ := hold r (h.live i r hi)
      exact absurd (h.injective j i r hj hi) hne
  · rintro ⟨htight, hempty⟩ r hr
    rcases hr with hr | hr
    · obtain ⟨j, hj⟩ := htight r hr
      have hji : j ≠ i := by
        rintro rfl
        rw [hempty] at hj
        cases hj
      exact ⟨j, by rw [slot_assign_ne s o hji, hj]⟩
    · exact ⟨i, by rw [slot_assign_self]; exact hr⟩

end Assign

/-- A sequence of assignments of new resources. -/
inductive Assigns : Slots ι ρ → List (ι × Option ρ) → Slots ι ρ → Prop
  | done (s : Slots ι ρ) : Assigns s [] s
  | next {s s' : Slots ι ρ} {i : ι} {o : Option ρ} {rest : List (ι × Option ρ)} :
      s.Fresh o → Assigns (s.assign i o) rest s' → Assigns s ((i, o) :: rest) s'

namespace Assigns

variable {s s' : Slots ι ρ} {stores : List (ι × Option ρ)}

theorem sound (h : Assigns s stores s') (hs : s.Sound) : s'.Sound := by
  induction h with
  | done => exact hs
  | next hfresh _ ih => exact ih (hs.assign hfresh _)

/-- Assignments to different slots keep them tight exactly where all of the slots are empty. -/
theorem tight_iff (h : Assigns s stores s') (hs : s.Sound) (hnodup : (stores.map Prod.fst).Nodup) :
    s'.Tight ↔ s.Tight ∧ ∀ i ∈ stores.map Prod.fst, s.slot i = none := by
  induction h with
  | done => simp
  | @next s s' i o rest hfresh _ ih =>
    obtain ⟨hi, hrest⟩ := List.nodup_cons.mp hnodup
    have hslots : ∀ j ∈ rest.map Prod.fst, (s.assign i o).slot j = s.slot j := by
      intro j hj
      refine slot_assign_ne s o ?_
      rintro rfl
      exact hi hj
    rw [ih (hs.assign hfresh i) hrest, hs.tight_assign_iff hfresh, List.map_cons,
      List.forall_mem_cons, and_assoc]
    refine and_congr_right fun _ => and_congr_right fun _ => forall₂_congr fun j hj => ?_
    rw [hslots j hj]

end Assigns

/-! ### Releasing one slot -/

/-- The resource in slot `i`, if there is one, is released. -/
def release (s : Slots ι ρ) (i : ι) : Slots ι ρ where
  slot := Function.update s.slot i none
  live := {r ∈ s.live | s.slot i ≠ some r}

section Release

variable {s : Slots ι ρ} {i : ι}

theorem slot_release_eq_some {j : ι} {r : ρ} :
    (s.release i).slot j = some r ↔ j ≠ i ∧ s.slot j = some r := by
  by_cases hji : j = i
  · subst hji
    simp [release]
  · simp [release, hji]

theorem Sound.release (h : s.Sound) (i : ι) : (s.release i).Sound := by
  refine ⟨fun j r hr => ?_, fun j k r hj hk => ?_⟩
  · obtain ⟨hji, hr⟩ := slot_release_eq_some.mp hr
    exact ⟨h.live j r hr, fun hi => hji (h.injective j i r hr hi)⟩
  · exact h.injective j k r (slot_release_eq_some.mp hj).2 (slot_release_eq_some.mp hk).2

theorem tight_release_iff : (s.release i).Tight ↔ s.Tight := by
  constructor
  · intro h r hr
    by_cases hi : s.slot i = some r
    · exact ⟨i, hi⟩
    · obtain ⟨j, hj⟩ := h r ⟨hr, hi⟩
      exact ⟨j, (slot_release_eq_some.mp hj).2⟩
  · rintro h r ⟨hr, hi⟩
    obtain ⟨j, hj⟩ := h r hr
    exact ⟨j, slot_release_eq_some.mpr ⟨fun hji => hi (hji ▸ hj), hj⟩⟩

end Release

/-! ### Edits -/

/-- What a component does to a slot: it stores what it got, a new resource or none, or it releases what
is there. -/
inductive Edit (ι ρ : Type)
  | store (i : ι) (o : Option ρ)
  | release (i : ι)

def edit (s : Slots ι ρ) : Edit ι ρ → Slots ι ρ
  | .store i o => s.assign i o
  | .release i => s.release i

/-- A resource that is stored is new. -/
def Admits (s : Slots ι ρ) : Edit ι ρ → Prop
  | .store _ o => s.Fresh o
  | .release _ => True

/-- What is stored replaces nothing. -/
def Vacant (s : Slots ι ρ) : Edit ι ρ → Prop
  | .store i _ => s.slot i = none
  | .release _ => True

/-- All edits of a list are admitted, each in the state that those before it lead to. -/
inductive Edits : Slots ι ρ → List (Edit ι ρ) → Slots ι ρ → Prop
  | done (s : Slots ι ρ) : Edits s [] s
  | next {s s' : Slots ι ρ} {e : Edit ι ρ} {rest : List (Edit ι ρ)} :
      s.Admits e → Edits (s.edit e) rest s' → Edits s (e :: rest) s'

theorem Edits.nothing {s s' : Slots ι ρ} (h : s' = s) : Edits s [] s' := h ▸ .done s

theorem Edits.one {s s' : Slots ι ρ} {e : Edit ι ρ} (hadmits : s.Admits e) (h : s' = s.edit e) :
    Edits s [e] s' := .next hadmits (.nothing h)

/-- Every edit of a list replaces nothing, in the state that those before it lead to. -/
def AllVacant (s : Slots ι ρ) : List (Edit ι ρ) → Prop
  | [] => True
  | e :: rest => s.Vacant e ∧ (s.edit e).AllVacant rest

theorem Sound.edit {s : Slots ι ρ} (h : s.Sound) {e : Edit ι ρ} (hadmits : s.Admits e) :
    (s.edit e).Sound ∧ ((s.edit e).Tight ↔ s.Tight ∧ s.Vacant e) := by
  cases e with
  | store i o => exact ⟨h.assign hadmits i, h.tight_assign_iff hadmits⟩
  | release i => exact ⟨h.release i, tight_release_iff.trans (and_iff_left trivial).symm⟩

/-- Edits keep the slots tight exactly where none of them replaces a resource. -/
theorem Edits.sound {s s' : Slots ι ρ} {edits : List (Edit ι ρ)} (h : Edits s edits s')
    (hs : s.Sound) : s'.Sound ∧ (s'.Tight ↔ s.Tight ∧ s.AllVacant edits) := by
  induction h with
  | done => exact ⟨hs, (and_iff_left trivial).symm⟩
  | next hadmits _ ih =>
    obtain ⟨hsound, htight⟩ := hs.edit hadmits
    obtain ⟨hsound', htight'⟩ := ih hsound
    exact ⟨hsound', by rw [htight', htight, AllVacant, and_assoc]⟩

end Slots
