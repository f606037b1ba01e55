import Mathlib.Data.Set.Insert
import Mathlib.Logic.Function.Basic

/-! A ledger of tags: `owner` resolves a tag to the party that holds it, and `tag` remembers the tag
of each party.  A tag may be issued again while a party still remembers it, so the two maps need not
be inverse to each other.  `Sound` is what survives every issue: a tag that resolves at all resolves
to a party that remembers it.  `Exact` is what only an issue of an unused tag keeps: every party's
tag resolves to that party. -/

variable {κ π : Type}

/-- Tags, their owners, and the tag that each party was given. -/
@[ext] structure Ledger (κ π : Type) where
  owner : κ → Option π
  tag : π → Option κ

namespace Ledger

/-- Exactly the parties in `live` have a tag, and every tag that resolves is the tag of its owner. -/
structure Sound (l : Ledger κ π) (live : Set π) : Prop where
  tagged : ∀ p, (∃ k, l.tag p = some k) ↔ p ∈ live
  resolves : ∀ k p, l.owner k = some p → l.tag p = some k

/-- Every party's tag resolves to that party. -/
def Exact (l : Ledger κ π) : Prop := ∀ p k, l.tag p = some k → l.owner k = some p

/-- Every tag that a party remembers lies in `range`. -/
def Within (l : Ledger κ π) (range : Set κ) : Prop := ∀ p k, l.tag p = some k → k ∈ range

/-- The parties of an exact ledger have different tags. -/
theorem Exact.injective {l : Ledger κ π} (h : l.Exact) {p q : π} {k : κ} (hp : l.tag p = some k)
    (hq : l.tag q = some k) : p = q :=
  Option.some.inj ((h p k hp).symm.trans (h q k hq))

variable [DecidableEq κ] [DecidableEq π]

/-- Tag `k` now belongs to `p`, whoever held it before. -/
def issue (l : Ledger κ π) (k : κ) (p : π) : Ledger κ π where
  owner := Function.update l.owner k (some p)
  tag := Function.update l.tag p (some k)

/-- `p` gives its tag up, and the tag no longer resolves. -/
def revoke (l : Ledger κ π) (p : π) : Ledger κ π :=
  match l.tag p with
  | none => l
  | some k => ⟨Function.update l.owner k none, Function.update l.tag p none⟩

/-! ### The tag of each party -/

theorem tag_revoke (l : Ledger κ π) (p q : π) :
    (l.revoke p).tag q = if q = p then none else l.tag q := by
  unfold revoke
  split
  · rename_i hnone
    split
    · rename_i hq
      rw [hq, hnone]
    · rfl
  · exact Function.update_apply _ _ _ _

theorem owner_revoke (l : Ledger κ π) (p : π) (k : κ) :
    (l.revoke p).owner k = if l.tag p = some k then none else l.owner k := by
  unfold revoke
  split
  · rename_i hnone
    rw [hnone, if_neg (Option.some_ne_none k).symm]
  · rename_i k' hk'
    simp only [hk', Function.update_apply, Option.some.injEq]
    simp only [eq_comm]

/-- The order in which two parties give their tags up makes no difference, even where they share
one. -/
theorem revoke_comm (l : Ledger κ π) (p q : π) : (l.revoke p).revoke q = (l.revoke q).revoke p := by
  by_cases hpq : p = q
  · rw [hpq]
  refine Ledger.ext (funext fun k => ?_) (funext fun r => ?_)
  · simp only [owner_revoke, tag_revoke, hpq, Ne.symm hpq, if_false]
    split <;> split <;> rfl
  · simp only [tag_revoke]
    split <;> split <;> rfl

theorem tag_revokeAll (l : Ledger κ π) (ps : List π) (q : π) :
    (ps.foldl revoke l).tag q = if q ∈ ps then none else l.tag q := by
  induction ps generalizing l with
  | nil => simp
  | cons p ps ih =>
    rw [List.foldl_cons, ih, tag_revoke]
    by_cases hq : q = p <;> simp [hq]

/-- A tag that resolves after some parties gave theirs up resolved to the same party before. -/
theorem owner_of_revokeAll {l : Ledger κ π} {ps : List π} {k : κ} {p : π}
    (h : (ps.foldl revoke l).owner k = some p) : l.owner k = some p := by
  induction ps generalizing l with
  | nil => exact h
  | cons q ps ih =>
    have hrevoked := ih h
    unfold revoke at hrevoked
    split at hrevoked
    · exact hrevoked
    · rename_i k' _
      by_cases hk : k = k'
      · subst hk
        simp at hrevoked
      · exact (Function.update_of_ne hk _ _).symm.trans hrevoked

/-! ### Soundness -/

theorem Sound.issue {l : Ledger κ π} {live : Set π} (h : l.Sound live) {p : π} (hp : p ∉ live)
    (k : κ) : (l.issue k p).Sound (insert p live) := by
  refine ⟨fun q => ?_, fun k' q hq => ?_⟩
  · by_cases hqp : q = p
    · simp [Ledger.issue, hqp]
    · simp [Ledger.issue, hqp, h.tagged]
  · by_cases hk : k' = k
    · subst hk
      simp only [Ledger.issue, Function.update_self, Option.some.injEq] at hq ⊢
      rw [← hq, Function.update_self]
    · simp only [Ledger.issue, ne_eq, hk, not_false_eq_true, Function.update_of_ne] at hq ⊢
      -- `q` has a tag and `p` has none, so they differ.
      have hq' := h.resolves k' q hq
      have hqp : q ≠ p := fun heq => hp (heq ▸ (h.tagged q).mp ⟨k', hq'⟩)
      rw [Function.update_of_ne hqp, hq']

theorem Sound.revoke {l : Ledger κ π} {live : Set π} (h : l.Sound live) (p : π) :
    (l.revoke p).Sound (live \ {p}) := by
  refine ⟨fun q => ?_, fun k q hq => ?_⟩
  · rw [tag_revoke]
    by_cases hqp : q = p <;> simp [hqp, h.tagged]
  · rw [tag_revoke]
    unfold Ledger.revoke at hq
    split at hq
    · rename_i hnone
      have hq' := h.resolves k q hq
      have hqp : q ≠ p := by
        rintro rfl
        rw [hnone] at hq'
        cases hq'
      rw [if_neg hqp, hq']
    · rename_i k' hk'
      have hkk : k ≠ k' := by
        rintro rfl
        simp at hq
      have hq' := h.resolves k q ((Function.update_of_ne hkk _ _).symm.trans hq)
      have hqp : q ≠ p := by
        rintro rfl
        exact hkk (Option.some.inj (hq'.symm.trans hk'))
      rw [if_neg hqp, hq']

theorem Sound.revokeAll {l : Ledger κ π} {live : Set π} (h : l.Sound live) (ps : List π) :
    (ps.foldl Ledger.revoke l).Sound {p ∈ live | p ∉ ps} := by
  induction ps generalizing l live with
  | nil => simpa using h
  | cons p ps ih =>
    have hrest := ih (h.revoke p)
    have hlive : {q ∈ live \ {p} | q ∉ ps} = {q ∈ live | q ∉ p :: ps} := by
      ext q
      simp [and_assoc]
    rwa [hlive] at hrest

/-! ### Exactness -/

theorem Exact.issue {l : Ledger κ π} (h : l.Exact) {k : κ} (hk : l.owner k = none) (p : π) :
    (l.issue k p).Exact := by
  intro q k' hq
  by_cases hqp : q = p
  · subst hqp
    simp only [Ledger.issue, Function.update_self, Option.some.injEq] at hq ⊢
    rw [hq, Function.update_self]
  · simp only [Ledger.issue, ne_eq, hqp, not_false_eq_true, Function.update_of_ne] at hq ⊢
    have hq' := h q k' hq
    have hkk : k' ≠ k := by
      rintro rfl
      rw [hk] at hq'
      cases hq'
    rw [Function.update_of_ne hkk, hq']

theorem Exact.revoke {l : Ledger κ π} (h : l.Exact) (p : π) : (l.revoke p).Exact := by
  intro q k hq
  rw [tag_revoke] at hq
  split at hq
  · cases hq
  · rename_i hqp
    have hq' := h q k hq
    unfold Ledger.revoke
    split
    · exact hq'
    · rename_i k' hk'
      -- Two parties of an exact ledger cannot share the tag that is given up.
      have hkk : k ≠ k' := by
        rintro rfl
        exact hqp (h.injective hq hk')
      rw [← hq']
      exact Function.update_of_ne hkk _ _

theorem Exact.revokeAll {l : Ledger κ π} (h : l.Exact) (ps : List π) :
    (ps.foldl Ledger.revoke l).Exact := by
  induction ps generalizing l with
  | nil => exact h
  | cons p ps ih => exact ih (h.revoke p)

/-- The issue of a tag that another party holds leaves that party with a tag that does not resolve
to it. -/
theorem Sound.not_exact_issue {l : Ledger κ π} {live : Set π} (h : l.Sound live) {p q : π} {k : κ}
    (hp : p ∉ live) (hk : l.owner k = some q) :
    (l.issue k p).tag q = some k ∧ (l.issue k p).owner k = some p ∧ q ≠ p := by
  have hq := h.resolves k q hk
  have hqp : q ≠ p := fun heq => hp (heq ▸ (h.tagged q).mp ⟨k, hq⟩)
  refine ⟨?_, Function.update_self _ _ _, hqp⟩
  rw [← hq]
  exact Function.update_of_ne hqp _ _

/-! ### Range -/

theorem Within.issue {l : Ledger κ π} {range : Set κ} (h : l.Within range) {k : κ}
    (hk : k ∈ range) (p : π) : (l.issue k p).Within range := by
  intro q k' hq
  by_cases hqp : q = p
  · simp only [Ledger.issue, hqp, Function.update_self, Option.some.injEq] at hq
    exact hq ▸ hk
  · simp only [Ledger.issue, ne_eq, hqp, not_false_eq_true, Function.update_of_ne] at hq
    exact h q k' hq

theorem Within.revokeAll {l : Ledger κ π} {range : Set κ} (h : l.Within range) (ps : List π) :
    (ps.foldl Ledger.revoke l).Within range := by
  intro q k hq
  rw [tag_revokeAll] at hq
  split at hq
  · cases hq
  · exact h q k hq

end Ledger
