import LibE3.Mpmc.ResponseQueue
import Mathlib.Order.Bounds.Basic

/-! The sizes that the constructor of `MpmcQueue` computes.  The loop doubles a 64-bit value until it
reaches `min_capacity`.  Above `2^63` it never does: the bit is shifted out, and zero stays below every
`min_capacity`.  The size in bytes of the buffer is a product of 64-bit values, which wraps from some
capacity on. -/

namespace LibE3

/-! ### The loop -/

/-- The capacities that the documentation allows: the powers of two from 2 on that have at least
`min_capacity` slots. -/
def capacities (minCapacity : UInt64) : Set Nat :=
  { n | (∃ k, n = 2 ^ k) ∧ max 2 minCapacity.toNat ≤ n }

/-- Once the capacity is zero, the loop goes on for ever. -/
theorem roundUp_zero {minCapacity : UInt64} (h : 0 < minCapacity) (rounds : Nat) :
    roundUp minCapacity rounds 0 = none := by
  induction rounds with
  | zero => rfl
  | succ rounds ih =>
    rw [roundUp, if_pos h]
    exact ih

theorem shiftLeft_one_eq_zero {x : UInt64} (h : x.toNat = 2 ^ 63) : x <<< 1 = 0 := by
  obtain rfl : x = 0x8000000000000000 := UInt64.toNat_inj.mp h
  rfl

/-- No power of two of 64 bits reaches a capacity above `2^63`. -/
theorem roundUp_eq_none {minCapacity : UInt64} (hmin : 2 ^ 63 < minCapacity.toNat) (rounds : Nat)
    {k : Nat} (hk : k ≤ 63) {start : UInt64} (hstart : start.toNat = 2 ^ k) :
    roundUp minCapacity rounds start = none := by
  induction rounds generalizing k start with
  | zero => rfl
  | succ rounds ih =>
    have hpow : 2 ^ k ≤ 2 ^ 63 := Nat.pow_le_pow_right (by omega) hk
    have hlt : start < minCapacity := by
      rw [UInt64.lt_iff_toNat_lt]
      omega
    rw [roundUp, if_pos hlt]
    by_cases hlast : k = 63
    · subst hlast
      rw [shiftLeft_one_eq_zero hstart]
      refine roundUp_zero ?_ rounds
      rw [UInt64.lt_iff_toNat_lt, UInt64.toNat_zero]
      omega
    · exact ih (by omega) (toNat_shiftLeft_one (by omega) hstart)

/-- The loop ends with the least of the capacities. -/
theorem roundUp_isLeast {minCapacity capacity : UInt64} {rounds k : Nat} (hk1 : 1 ≤ k)
    (hk63 : k ≤ 63) {start : UInt64} (hstart : start.toNat = 2 ^ k)
    (hbelow : ∀ j, max 2 minCapacity.toNat ≤ 2 ^ j → k ≤ j)
    (h : roundUp minCapacity rounds start = some capacity) :
    IsLeast (capacities minCapacity) capacity.toNat := by
  have hmin : minCapacity.toNat ≤ 2 ^ 63 := by
    by_contra hover
    rw [roundUp_eq_none (by omega) rounds hk63 hstart] at h
    cases h
  induction rounds generalizing k start with
  | zero => cases h
  | succ rounds ih =>
    rw [roundUp] at h
    split at h
    · rename_i hlt
      rw [UInt64.lt_iff_toNat_lt, hstart] at hlt
      have hk : k < 63 := (Nat.pow_lt_pow_iff_right (a := 2) (by omega)).mp (by omega)
      refine ih (by omega) hk (toNat_shiftLeft_one (by omega) hstart) (fun j hj => ?_) h
      exact (Nat.pow_lt_pow_iff_right (a := 2) (by omega)).mp (by omega)
    · rename_i hge
      cases h
      rw [UInt64.lt_iff_toNat_lt, hstart, not_lt] at hge
      have htwo : 2 ≤ 2 ^ k := Nat.le_self_pow (by omega) 2
      rw [hstart]
      refine ⟨⟨⟨k, rfl⟩, max_le htwo hge⟩, ?_⟩
      rintro n ⟨⟨j, rfl⟩, hj⟩
      exact Nat.pow_le_pow_right (by omega) (hbelow j hj)

/-! ### The constructor -/

namespace MpmcQueue

variable {α : Type}

/-- What the constructor promises for elements of which `slotSize` is the size of a slot. -/
structure WellSized (q : MpmcQueue α) (slotSize minCapacity : UInt64) : Prop where
  ends : ∃ rounds, roundUp minCapacity rounds 2 = some q.capacity
  capacity : IsLeast (capacities minCapacity) q.capacity.toNat
  mask : q.mask = q.capacity - 1
  index : ∀ pos, (q.index pos).toNat = pos.toNat % q.capacity.toNat
  /-- The argument of `operator new` is the product. -/
  bytes : (slotSize * q.capacity).toNat = slotSize.toNat * q.capacity.toNat

/-- The condition on the sizes: some power of two has room for `min_capacity`, and that many slots have
fewer than `2^64` bytes. -/
def Allocatable (slotSize minCapacity : UInt64) : Prop :=
  ∃ k, 1 ≤ k ∧ k ≤ 63 ∧ minCapacity.toNat ≤ 2 ^ k ∧ slotSize.toNat * 2 ^ k < 2 ^ 64

theorem toNat_mul_eq_iff {a b : UInt64} :
    (a * b).toNat = a.toNat * b.toNat ↔ a.toNat * b.toNat < 2 ^ 64 := by
  rw [UInt64.toNat_mul]
  constructor
  · intro h
    rw [← h]
    exact Nat.mod_lt _ (Nat.two_pow_pos 64)
  · exact Nat.mod_eq_of_lt

theorem isLeast_new {minCapacity : UInt64} {q : MpmcQueue α} (h : new minCapacity = some q) :
    IsLeast (capacities minCapacity) q.capacity.toNat := by
  obtain ⟨capacity, hround, rfl⟩ := Option.map_eq_some_iff.mp h
  refine roundUp_isLeast (k := 1) le_rfl (by omega) rfl (fun j hj => ?_) hround
  have htwo : 2 ^ 1 ≤ 2 ^ j := le_trans (le_max_left _ _) hj
  exact (Nat.pow_le_pow_iff_right (by omega)).mp htwo

/-- A constructed queue keeps its promises where the number of bytes does not wrap. -/
theorem wellSized_iff {slotSize minCapacity : UInt64} {q : MpmcQueue α}
    (h : new minCapacity = some q) :
    q.WellSized slotSize minCapacity ↔ slotSize.toNat * q.capacity.toNat < 2 ^ 64 := by
  constructor
  · intro hsized
    exact toNat_mul_eq_iff.mp hsized.bytes
  · intro hbytes
    have hleast := isLeast_new h
    have hindex := (sized_new h).toNat_index
    obtain ⟨capacity, hround, rfl⟩ := Option.map_eq_some_iff.mp h
    exact ⟨⟨63, hround⟩, hleast, rfl, hindex, toNat_mul_eq_iff.mpr hbytes⟩

/-- The constructor keeps its promises exactly where the sizes allow it. -/
theorem constructs_iff (slotSize minCapacity : UInt64) :
    (∃ q : MpmcQueue α, new minCapacity = some q ∧ q.WellSized slotSize minCapacity) ↔
      Allocatable slotSize minCapacity := by
  constructor
  · rintro ⟨q, hq, hsized⟩
    obtain ⟨k, hk1, hk63, hk⟩ := (sized_new hq).pow
    have hbytes := (wellSized_iff hq).mp hsized
    have hroom := hsized.capacity.1.2
    rw [hk] at hbytes hroom
    exact ⟨k, hk1, hk63, le_trans (le_max_right _ _) hroom, hbytes⟩
  · rintro ⟨k, hk1, hk63, hroom, hbytes⟩
    have hmin : minCapacity.toNat ≤ 2 ^ 63 :=
      le_trans hroom (Nat.pow_le_pow_right (by omega) hk63)
    obtain ⟨q, hq⟩ := Option.isSome_iff_exists.mp (new_isSome (α := α) hmin)
    refine ⟨q, hq, (wellSized_iff hq).mpr ?_⟩
    have htwo : 2 ≤ 2 ^ k := Nat.le_self_pow (by omega) 2
    have hle : q.capacity.toNat ≤ 2 ^ k := (isLeast_new hq).2 ⟨⟨k, rfl⟩, max_le htwo hroom⟩
    exact lt_of_le_of_lt (Nat.mul_le_mul_left _ hle) hbytes

/-- Where the constructor has no value, no number of tests ends the loop. -/
theorem new_eq_none_iff {minCapacity : UInt64} :
    (new minCapacity : Option (MpmcQueue α)) = none ↔
      ∀ rounds, roundUp minCapacity rounds 2 = none := by
  constructor
  · intro h rounds
    refine roundUp_eq_none (k := 1) ?_ rounds (by omega) rfl
    by_contra hmin
    have hsome : (new minCapacity : Option (MpmcQueue α)).isSome = true := new_isSome (by omega)
    rw [h] at hsome
    cases hsome
  · intro h
    rw [new, h 63]
    rfl

/-- Both queues are sized as documented exactly where some power of two has room for `min_capacity` and
that many slots have fewer than `2^64` bytes; where they are not constructed at all, the loop never
ends. -/
theorem ring_sizing_iff (α : Type) (slotSize minCapacity : UInt64) :
    ((∃ q : MpmcQueue α, new minCapacity = some q ∧ q.WellSized slotSize minCapacity) ↔
      Allocatable slotSize minCapacity) ∧
    ((∃ q, LockFree.ResponseQueue.new minCapacity = some q ∧
      q.ring.WellSized slotSize minCapacity) ↔ Allocatable slotSize minCapacity) ∧
    ((new minCapacity : Option (MpmcQueue α)) = none ↔
      ∀ rounds, roundUp minCapacity rounds 2 = none) := by
  refine ⟨constructs_iff slotSize minCapacity, ?_, new_eq_none_iff⟩
  rw [← constructs_iff (α := Pdu)]
  constructor
  · rintro ⟨q, hq, hsized⟩
    obtain ⟨ring, hring, rfl⟩ := Option.map_eq_some_iff.mp hq
    exact ⟨ring, hring, hsized⟩
  · rintro ⟨ring, hring, hsized⟩
    exact ⟨{ ring }, by rw [LockFree.ResponseQueue.new, hring]; rfl, hsized⟩

/-- One more than `2^63` slots of sixteen bytes are never constructed, and for `2^60` of them, no byte
is allocated. -/
theorem ring_sizing_fails :
    (∀ rounds, roundUp 0x8000000000000001 rounds 2 = none) ∧
    ¬(∃ q : MpmcQueue UInt32, new 0x8000000000000001 = some q ∧
      q.WellSized 16 0x8000000000000001) ∧
    (∃ q : MpmcQueue UInt32, new 0x1000000000000000 = some q ∧ 16 * q.capacity = 0 ∧
      ¬q.WellSized 16 0x1000000000000000) := by
  have hloop : ∀ rounds, roundUp 0x8000000000000001 rounds 2 = none :=
    fun rounds => roundUp_eq_none (k := 1) (by decide) rounds (by omega) rfl
  obtain ⟨q, hq, hcapacity⟩ : ∃ q : MpmcQueue UInt32, new 0x1000000000000000 = some q ∧
      q.capacity = 0x1000000000000000 := by
    refine ⟨_, rfl, ?_⟩
    decide +kernel
  refine ⟨hloop, ?_, q, hq, ?_, fun h => ?_⟩
  · rintro ⟨q, -, hsized⟩
    obtain ⟨rounds, hrounds⟩ := hsized.ends
    rw [hloop rounds] at hrounds
    cases hrounds
  · rw [hcapacity]
    rfl
  · have hbytes := (wellSized_iff hq).mp h
    rw [hcapacity] at hbytes
    exact absurd hbytes (by decide)

end MpmcQueue

end LibE3
