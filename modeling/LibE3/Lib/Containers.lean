import Mathlib.Data.Finmap
import Mathlib.Data.List.Sort

/-! Unordered containers.  A map is a finite partial function and a set is a finite set, so two
containers with the same entries are equal.  The order in which a program walks one is not part of
it: an `Enumeration` is a choice of that order. -/

universe u v

/-- A finite map from keys to values. -/
abbrev UnorderedMap (κ : Type u) (ν : Type v) : Type (max u v) := Finmap fun _ : κ => ν

namespace UnorderedMap

variable {κ : Type u} {ν : Type v} [DecidableEq κ]

/-- The value at `k`, or `default` where there is none. -/
def getD (m : UnorderedMap κ ν) (k : κ) (default : ν) : ν := (m.lookup k).getD default

theorem lookup_insert_ite (m : UnorderedMap κ ν) (k k' : κ) (v : ν) :
    (m.insert k v).lookup k' = if k' = k then some v else m.lookup k' := by
  by_cases h : k' = k
  · subst h
    rw [if_pos rfl, Finmap.lookup_insert]
  · rw [if_neg h, Finmap.lookup_insert_of_ne _ h]

theorem lookup_erase_ite (m : UnorderedMap κ ν) (k k' : κ) :
    (m.erase k).lookup k' = if k' = k then none else m.lookup k' := by
  by_cases h : k' = k
  · subst h
    rw [if_pos rfl, Finmap.lookup_erase]
  · rw [if_neg h, Finmap.lookup_erase_ne h]

theorem getD_insert (m : UnorderedMap κ ν) (k k' : κ) (v default : ν) :
    getD (m.insert k v) k' default = if k' = k then v else m.getD k' default := by
  unfold getD
  rw [lookup_insert_ite]
  split <;> rfl

theorem getD_erase (m : UnorderedMap κ ν) (k k' : κ) (default : ν) :
    getD (m.erase k) k' default = if k' = k then default else m.getD k' default := by
  unfold getD
  rw [lookup_erase_ite]
  split <;> rfl

@[simp] theorem getD_empty (k : κ) (default : ν) :
    getD (∅ : UnorderedMap κ ν) k default = default := rfl

theorem getD_of_notMem {m : UnorderedMap κ ν} {k : κ} (h : k ∉ m) (default : ν) :
    m.getD k default = default := by
  rw [getD, Finmap.lookup_eq_none.mpr h]
  rfl

/-- Writing back what is there changes nothing. -/
theorem insert_of_lookup {m : UnorderedMap κ ν} {k : κ} {v : ν} (h : m.lookup k = some v) :
    m.insert k v = m := by
  refine Finmap.ext_lookup fun k' => ?_
  rw [lookup_insert_ite]
  split
  · rename_i hk
    rw [hk, h]
  · rfl

theorem mem_of_getD_ne {m : UnorderedMap κ ν} {k : κ} {d : ν} (h : m.getD k d ≠ d) : k ∈ m := by
  by_contra hk
  exact h (getD_of_notMem hk d)

/-! ### The values -/

/-- The values of a map, each as often as it stands there. -/
def values (m : UnorderedMap κ ν) : Multiset ν := m.entries.map Sigma.snd

omit [DecidableEq κ] in
@[simp] theorem values_empty : values (∅ : UnorderedMap κ ν) = 0 := rfl

theorem values_insert {m : UnorderedMap κ ν} {k : κ} (h : k ∉ m) (v : ν) :
    values (m.insert k v) = v ::ₘ values m := by
  rw [values, Finmap.entries_insert_of_notMem h, Multiset.map_cons, values]

theorem insert_erase (m : UnorderedMap κ ν) (k : κ) (v : ν) : (m.erase k).insert k v = m.insert k v := by
  refine Finmap.ext_lookup fun k' => ?_
  rw [lookup_insert_ite, lookup_insert_ite, lookup_erase_ite]
  split <;> rfl

/-- What stands at `k` is one of the values, and a new value at `k` takes its place. -/
theorem values_insert_of_mem (m : UnorderedMap κ ν) (k : κ) (v : ν) :
    values (m.insert k v) = v ::ₘ values (m.erase k) := by
  rw [← insert_erase, values_insert Finmap.notMem_erase_self]

theorem values_of_lookup {m : UnorderedMap κ ν} {k : κ} {v : ν} (h : m.lookup k = some v) :
    values m = v ::ₘ values (m.erase k) := by
  rw [← values_insert_of_mem, insert_of_lookup h]

theorem mem_values {m : UnorderedMap κ ν} {v : ν} : v ∈ values m ↔ ∃ k, m.lookup k = some v := by
  simp [values, Finmap.lookup_eq_some_iff]

/-- The values in the order of some walk of the keys. -/
theorem filterMap_lookup (m : UnorderedMap κ ν) : m.keys.val.filterMap m.lookup = values m := by
  have hentries : ∀ entries ≤ m.entries,
      (entries.map Sigma.fst).filterMap m.lookup = entries.map Sigma.snd := by
    intro entries
    induction entries using Multiset.induction_on with
    | empty => exact fun _ => rfl
    | cons entry entries ih =>
      intro hle
      have hlookup : m.lookup entry.1 = some entry.2 :=
        Finmap.lookup_eq_some_iff.mpr (Multiset.mem_of_le hle (Multiset.mem_cons_self _ _))
      rw [Multiset.map_cons, Multiset.map_cons,
        Multiset.filterMap_cons_some (fun k => m.lookup k) _ _ hlookup,
        ih ((Multiset.le_cons_self _ _).trans hle)]
  exact hentries m.entries le_rfl

end UnorderedMap

/-! ### Relabelled maps -/

/-- `m'` is `m` with every key renamed by `e` and every value translated by `g`. -/
def Relabelled {κ : Type u} {ν : Type v} [DecidableEq κ] (e : Equiv.Perm κ) (g : ν → ν)
    (m m' : UnorderedMap κ ν) : Prop :=
  ∀ k, m'.lookup (e k) = (m.lookup k).map g

namespace Relabelled

variable {κ : Type u} {ν : Type v} [DecidableEq κ] {e : Equiv.Perm κ} {g : ν → ν}
  {m m' : UnorderedMap κ ν}

theorem empty : Relabelled e g ∅ ∅ := fun _ => rfl

theorem insert (h : Relabelled e g m m') (k : κ) (v : ν) :
    Relabelled e g (m.insert k v) (m'.insert (e k) (g v)) := by
  intro k'
  rw [UnorderedMap.lookup_insert_ite, UnorderedMap.lookup_insert_ite]
  by_cases hk : k' = k
  · simp [hk]
  · simp [hk, h k']

theorem erase (h : Relabelled e g m m') (k : κ) :
    Relabelled e g (m.erase k) (m'.erase (e k)) := by
  intro k'
  rw [UnorderedMap.lookup_erase_ite, UnorderedMap.lookup_erase_ite]
  by_cases hk : k' = k
  · simp [hk]
  · simp [hk, h k']

theorem mem (h : Relabelled e g m m') {k : κ} : e k ∈ m' ↔ k ∈ m := by
  simp [Finmap.mem_iff, h k]

theorem getD (h : Relabelled e g m m') (k : κ) (default : ν) :
    m'.getD (e k) (g default) = g (m.getD k default) := by
  rw [UnorderedMap.getD, UnorderedMap.getD, h k]
  cases m.lookup k <;> rfl

theorem keys (h : Relabelled e g m m') : m'.keys = m.keys.map e.toEmbedding := by
  ext k
  rw [Finset.mem_map_equiv, Finmap.mem_keys, Finmap.mem_keys, ← h.mem, Equiv.apply_symm_apply]

end Relabelled

instance isTrans_uInt32 : IsTrans UInt32 (· ≤ ·) :=
  ⟨fun _ _ _ => UInt32.le_trans⟩

/-- An order in which the elements of a finite set are visited, each once. -/
structure Enumeration (α : Type u) where
  list : Finset α → List α
  nodup : ∀ s, (list s).Nodup
  mem_list : ∀ s a, a ∈ list s ↔ a ∈ s

/-- Without its order, an enumeration of a set is the set. -/
theorem Enumeration.coe_list {α : Type u} (e : Enumeration α) (s : Finset α) :
    (e.list s : Multiset α) = s.val :=
  (Multiset.Nodup.ext (Multiset.coe_nodup.mpr (e.nodup s)) s.nodup).mpr (e.mem_list s)

@[simp] theorem Enumeration.list_empty {α : Type u} (e : Enumeration α) : e.list ∅ = [] :=
  List.eq_nil_iff_forall_not_mem.mpr fun a ha => Finset.notMem_empty a ((e.mem_list ∅ a).mp ha)

section Ascending

variable {α : Type u} [LE α] [DecidableLE α] [IsTrans α (· ≤ ·)]
  [Std.Antisymm (α := α) (· ≤ ·)] [Std.Total (α := α) (· ≤ ·)]

/-- The elements of a multiset in ascending order, by a sort that evaluates. -/
def ascendingList (m : Multiset α) : List α :=
  Quot.liftOn m (List.insertionSort (· ≤ ·)) fun l l' h =>
    ((List.perm_insertionSort _ l).trans (h.trans (List.perm_insertionSort _ l').symm)).eq_of_pairwise'
      (List.pairwise_insertionSort _ l) (List.pairwise_insertionSort _ l')

theorem coe_ascendingList (m : Multiset α) : (ascendingList m : Multiset α) = m :=
  Quot.inductionOn m fun l => Multiset.coe_eq_coe.mpr (List.perm_insertionSort (· ≤ ·) l)

theorem pairwise_ascendingList (m : Multiset α) : (ascendingList m).Pairwise (· ≤ ·) :=
  Quot.inductionOn m fun l => List.pairwise_insertionSort (· ≤ ·) l

variable (α)

/-- The order by the elements themselves. -/
def Enumeration.ascending : Enumeration α where
  list s := ascendingList s.val
  nodup s := by
    rw [← Multiset.coe_nodup, coe_ascendingList]
    exact s.nodup
  mem_list s a := by
    rw [← Multiset.mem_coe, coe_ascendingList]
    rfl

end Ascending
