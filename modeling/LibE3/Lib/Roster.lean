import Mathlib.Data.Finset.Insert
import Mathlib.Data.Finset.Basic
import Mathlib.Data.Set.Insert

/-! A roster: members, and links from members to topics.  This is what a subscription store is for,
over arbitrary members and topics.  A `Change` is one step of a roster, and a topic is active while
some member is linked to it.  `Indexes` is a roster as a store keeps it, once by member and once by
topic, and `Coherent` says that the two agree. -/

variable {δ φ : Type}

/-- Members and their links.  A link always starts at a member. -/
@[ext] structure Roster (δ φ : Type) where
  members : Set δ
  links : Set (δ × φ)
  closed : ∀ p ∈ links, p.1 ∈ members

namespace Roster

/-- The roster without members. -/
def empty : Roster δ φ where
  members := ∅
  links := ∅
  closed := fun _ hp => hp.elim

/-- The steps of a roster. -/
inductive Change (δ φ : Type)
  | stay
  | join (d : δ)
  | leave (d : δ)
  | link (d : δ) (f : φ)
  | unlink (d : δ) (f : φ)
  | reset

/-- The roster after a change.  A link of a stranger is refused. -/
def Change.apply : Change δ φ → Roster δ φ → Roster δ φ
  | .stay, r => r
  | .join d, r =>
    { members := insert d r.members
      links := r.links
      closed := fun p hp => Set.mem_insert_of_mem _ (r.closed p hp) }
  | .leave d, r =>
    { members := r.members \ {d}
      links := {p ∈ r.links | p.1 ≠ d}
      closed := fun p hp => ⟨r.closed p hp.1, hp.2⟩ }
  | .link d f, r =>
    { members := r.members
      links := {p | p ∈ r.links ∨ (p = (d, f) ∧ d ∈ r.members)}
      closed := by
        rintro p (hp | ⟨rfl, hd⟩)
        · exact r.closed p hp
        · exact hd }
  | .unlink d f, r =>
    { members := r.members
      links := r.links \ {(d, f)}
      closed := fun p hp => r.closed p hp.1 }
  | .reset, _ => empty

/-- The topics with at least one link. -/
def active (r : Roster δ φ) : Set φ := {f | ∃ d, (d, f) ∈ r.links}

/-- A roster kept by member and by topic.  `rows` are the members that have an entry in the index by
member. -/
@[ext] structure Indexes (δ φ : Type) where
  members : Set δ
  rows : Set δ
  topics : δ → Finset φ
  holders : φ → Finset δ

namespace Indexes

/-- The rows are those of the members, and the two indexes hold the same links. -/
structure Coherent (x : Indexes δ φ) : Prop where
  rows : x.rows = x.members
  closed : ∀ d f, f ∈ x.topics d → d ∈ x.rows
  agree : ∀ d f, f ∈ x.topics d ↔ d ∈ x.holders f

/-- The roster that coherent indexes keep. -/
def roster (x : Indexes δ φ) (h : x.Coherent) : Roster δ φ where
  members := x.members
  links := {p | p.2 ∈ x.topics p.1}
  closed := fun p hp => h.rows ▸ h.closed p.1 p.2 hp

theorem mem_active {x : Indexes δ φ} (h : x.Coherent) {f : φ} :
    f ∈ (x.roster h).active ↔ (x.holders f).Nonempty := by
  constructor
  · rintro ⟨d, hd⟩
    exact ⟨d, (h.agree d f).mp hd⟩
  · rintro ⟨d, hd⟩
    exact ⟨d, (h.agree d f).mpr hd⟩

variable [DecidableEq δ] [DecidableEq φ]

/-- What a change does to the indexes. -/
def after (x : Indexes δ φ) : Change δ φ → Indexes δ φ
  | .stay => x
  | .join d =>
    { x with
      members := insert d x.members
      rows := insert d x.rows
      topics := fun e => if e = d then ∅ else x.topics e }
  | .leave d =>
    { members := x.members \ {d}
      rows := x.rows \ {d}
      topics := fun e => if e = d then ∅ else x.topics e
      holders := fun g => (x.holders g).erase d }
  | .link d f =>
    { x with
      rows := insert d x.rows
      topics := fun e => if e = d then insert f (x.topics d) else x.topics e
      holders := fun g => if g = f then insert d (x.holders f) else x.holders g }
  | .unlink d f =>
    { x with
      topics := fun e => if e = d then (x.topics d).erase f else x.topics e
      holders := fun g => if g = f then (x.holders f).erase d else x.holders g }
  | .reset => ⟨∅, ∅, fun _ => ∅, fun _ => ∅⟩

/-- Only strangers join and only members are linked. -/
def Admits (x : Indexes δ φ) : Change δ φ → Prop
  | .join d => d ∉ x.members
  | .link d _ => d ∈ x.members
  | _ => True

theorem Coherent.after {x : Indexes δ φ} (h : x.Coherent) {c : Change δ φ} (hc : x.Admits c) :
    (x.after c).Coherent := by
  obtain ⟨hrows, hclosed, hagree⟩ := h
  cases c with
  | stay => exact ⟨hrows, hclosed, hagree⟩
  | join d =>
    -- A stranger holds no topic, so emptying its row loses nothing.
    have hfresh : ∀ f, d ∉ x.holders f := fun f hf =>
      hc (hrows ▸ hclosed d f ((hagree d f).mpr hf))
    refine ⟨by simp [Indexes.after, hrows], fun e f hf => ?_, fun e f => ?_⟩
    · simp only [Indexes.after] at hf ⊢
      split at hf
      · simp at hf
      · exact Or.inr (hclosed e f hf)
    · simp only [Indexes.after]
      split
      · rename_i he
        subst he
        simp [hfresh f]
      · exact hagree e f
  | leave d =>
    refine ⟨by simp [Indexes.after, hrows], fun e f hf => ?_, fun e f => ?_⟩
    · simp only [Indexes.after] at hf ⊢
      split at hf
      · simp at hf
      · rename_i he
        exact ⟨hclosed e f hf, he⟩
    · simp only [Indexes.after, Finset.mem_erase]
      split
      · rename_i he
        simp [he]
      · rename_i he
        rw [hagree e f]
        exact ⟨fun hd => ⟨he, hd⟩, fun hd => hd.2⟩
  | link d f =>
    refine ⟨?_, fun e g hg => ?_, fun e g => ?_⟩
    · simp only [Indexes.after, hrows]
      exact Set.insert_eq_of_mem hc
    · simp only [Indexes.after] at hg ⊢
      split at hg
      · rename_i he
        exact Or.inl he
      · exact Or.inr (hclosed e g hg)
    · simp only [Indexes.after]
      by_cases he : e = d <;> by_cases hg : g = f <;> simp [he, hg, hagree]
  | unlink d f =>
    refine ⟨hrows, fun e g hg => ?_, fun e g => ?_⟩
    · simp only [Indexes.after] at hg
      split at hg
      · rename_i he
        subst he
        exact hclosed e g (Finset.mem_of_mem_erase hg)
      · exact hclosed e g hg
    · simp only [Indexes.after]
      by_cases he : e = d <;> by_cases hg : g = f <;> simp [he, hg, hagree]
  | reset => exact ⟨rfl, by simp [Indexes.after], by simp [Indexes.after]⟩

/-- A change of the indexes is the change of the roster they keep. -/
theorem roster_after {x : Indexes δ φ} (h : x.Coherent) {c : Change δ φ} (hc : x.Admits c) :
    (x.after c).roster (h.after hc) = c.apply (x.roster h) := by
  ext p
  · cases c <;> simp [roster, Indexes.after, Change.apply, empty]
  · obtain ⟨e, g⟩ := p
    cases c with
    | stay => rfl
    | join d =>
      have hfresh : g ∉ x.topics d := fun hg => hc (h.rows ▸ h.closed d g hg)
      simp only [roster, Indexes.after, Change.apply, Set.mem_ofPred_eq]
      by_cases he : e = d <;> simp [he, hfresh]
    | leave d =>
      simp only [roster, Indexes.after, Change.apply, Set.mem_ofPred_eq]
      by_cases he : e = d <;> simp [he]
    | link d f =>
      have hd : d ∈ x.members := hc
      simp only [roster, Indexes.after, Change.apply, Set.mem_ofPred_eq, Prod.mk.injEq, hd, and_true]
      by_cases he : e = d <;> simp [he, or_comm]
    | unlink d f =>
      simp only [roster, Indexes.after, Change.apply, Set.mem_ofPred_eq, Set.mem_sdiff,
        Set.mem_singleton_iff, Prod.mk.injEq]
      by_cases he : e = d <;> simp [he, and_comm]
    | reset => simp [roster, Indexes.after, Change.apply, empty]

end Indexes

end Roster
