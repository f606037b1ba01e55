import LibE3.Mpmc.Steps

/-! `try_push` and `try_pop` called one at a time.  `Represents` relates the ring to the list of the
values in it.  It speaks of positions only relative to `tail_`, so it outlives every wrap of the two
counters: the capacity divides `2^64`, and a full or an empty ring shows in a signed difference of less
than `2^63`. -/

namespace LibE3

namespace MpmcQueue

variable {α : Type}

/-! ### The calls -/

/-- A successful exchange of `head_`, with the write and the store that follow it. -/
def publish (q : MpmcQueue α) (pos : UInt64) (data : α) : MpmcQueue α :=
  { q with head := pos + 1 }.setSlot pos { sequence := pos + 1, data := some data }

/-- A successful exchange of `tail_`, with the move and the store that follow it. -/
def recycle (q : MpmcQueue α) (pos : UInt64) : MpmcQueue α :=
  { q with tail := pos + 1 }.setSlot pos { sequence := pos + q.capacity, data := none }

/-- The loop of `try_push`.  `exchanges` has a round for each entry, which says whether the
`compare_exchange_weak` of that round fails spuriously.  `none` is a loop that is still going. -/
def tryPushLoop (q : MpmcQueue α) (data : α) : List Bool → UInt64 → Option (MpmcQueue α × Bool)
  | [], _ => none
  | spurious :: exchanges, pos =>
    let seq := (q.slot pos).sequence
    let diff := seq.toInt64 - pos.toInt64
    if diff = 0 then
      if q.head = pos ∧ spurious = false then some (q.publish pos data, true)
      else tryPushLoop q data exchanges q.head
    else if diff < 0 then some (q, false)
    else tryPushLoop q data exchanges q.head

/-- The loop of `try_pop`: the value is that of the slot, where `none` is a default or moved-from
value. -/
def tryPopLoop (q : MpmcQueue α) : List Bool → UInt64 → Option (MpmcQueue α × Option (Option α))
  | [], _ => none
  | spurious :: exchanges, pos =>
    let seq := (q.slot pos).sequence
    let diff := seq.toInt64 - (pos + 1).toInt64
    if diff = 0 then
      if q.tail = pos ∧ spurious = false then some (q.recycle pos, some (q.slot pos).data)
      else tryPopLoop q exchanges q.tail
    else if diff < 0 then some (q, none)
    else tryPopLoop q exchanges q.tail

/-- The rounds of a loop whose exchange fails spuriously `n` times. -/
def rounds (n : Nat) : List Bool := List.replicate n true ++ [false]

def tryPush (q : MpmcQueue α) (data : α) (spurious : Nat) : Option (MpmcQueue α × Bool) :=
  q.tryPushLoop data (rounds spurious) q.head

def tryPop (q : MpmcQueue α) (spurious : Nat) : Option (MpmcQueue α × Option (Option α)) :=
  q.tryPopLoop (rounds spurious) q.tail

def sizeApprox (q : MpmcQueue α) : UInt64 :=
  if q.head ≥ q.tail then q.head - q.tail else 0

section Updates

variable (q : MpmcQueue α) (data : α)

@[simp] theorem publish_tail (pos : UInt64) : (q.publish pos data).tail = q.tail := rfl

@[simp] theorem recycle_tail : (q.recycle q.tail).tail = q.tail + 1 := rfl

theorem publish_slot :
    (q.publish q.head data).slot q.head = { sequence := q.head + 1, data := some data } :=
  setSlot_slot _ _ _

variable {q}

theorem publish_slot_ne {pos : UInt64} (h : q.index pos ≠ q.index q.head) :
    (q.publish q.head data).slot pos = q.slot pos :=
  setSlot_slot_ne _ _ _ h

theorem recycle_slot {pos : UInt64} (h : q.index pos = q.index q.tail) :
    (q.recycle q.tail).slot pos = { sequence := q.tail + q.capacity, data := none } := by
  show Function.update q.buffer (q.index q.tail) _ (q.index pos) = _
  rw [h, Function.update_self]

theorem recycle_slot_ne {pos : UInt64} (h : q.index pos ≠ q.index q.tail) :
    (q.recycle q.tail).slot pos = q.slot pos :=
  setSlot_slot_ne _ _ _ h

end Updates

/-! ### Positions -/

/-- A position ahead of another by less than `2^63` leaves a negative difference. -/
theorem diff_neg {seq : UInt64} {n : Nat} (hpos : 0 < n) (h : n < 2 ^ 63) :
    seq.toInt64 - (seq + UInt64.ofNat n).toInt64 < 0 := by
  have hdiff : seq.toInt64 - (seq + UInt64.ofNat n).toInt64 = -Int64.ofNat n := by
    rw [UInt64.toInt64_add, UInt64.toInt64_ofNat', Int64.sub_eq_add_neg, Int64.neg_add,
      Int64.sub_eq_add_neg, ← Int64.add_assoc, ← Int64.sub_eq_add_neg seq.toInt64,
      Int64.sub_self, Int64.zero_add]
  rw [hdiff, Int64.lt_iff_toInt_lt, Int64.toInt_neg, Int64.toInt_ofNat_of_lt h]
  simp only [Int.bmod, Int64.toInt_zero]
  omega

/-- The capacity divides the range of the counters, so a wrap keeps the slot. -/
theorem Sized.mod_capacity {q : MpmcQueue α} (h : q.Sized) (pos : UInt64) (i : Nat) :
    (pos + UInt64.ofNat i).toNat % q.capacity.toNat = (pos.toNat + i) % q.capacity.toNat := by
  obtain ⟨k, -, hk63, hk⟩ := h.pow
  have hdvd : q.capacity.toNat ∣ 2 ^ 64 := by
    rw [hk]
    exact Nat.pow_dvd_pow 2 (by omega)
  rw [UInt64.toNat_add, UInt64.toNat_ofNat', Nat.mod_mod_of_dvd _ hdvd, Nat.add_mod,
    Nat.mod_mod_of_dvd _ hdvd, ← Nat.add_mod]

/-- Two positions of one round of the ring have different slots. -/
theorem Sized.index_ne {q : MpmcQueue α} (h : q.Sized) (pos : UInt64) {i j : Nat}
    (hi : i < q.capacity.toNat) (hj : j < q.capacity.toNat) (hij : i ≠ j) :
    q.index (pos + UInt64.ofNat i) ≠ q.index (pos + UInt64.ofNat j) := by
  rw [Ne, h.index_eq_iff, h.mod_capacity, h.mod_capacity]
  intro hmod
  have := eq_of_mod_eq_of_near hmod (by omega) (by omega)
  omega

/-- A whole round of the ring leads back to the slot. -/
theorem Sized.index_capacity {q : MpmcQueue α} (h : q.Sized) (pos : UInt64) :
    q.index (pos + q.capacity) = q.index pos := by
  rw [h.index_eq_iff]
  have hmod := h.mod_capacity pos q.capacity.toNat
  rw [UInt64.ofNat_toNat] at hmod
  rw [hmod, Nat.add_mod_right]

/-! ### The values in the ring -/

/-- The ring holds the values `values`, the oldest first: they lie in the slots from `tail_` on, and
the other slots are free for the pushes of one round ahead. -/
structure Represents (q : MpmcQueue α) (values : List α) : Prop where
  sized : q.Sized
  head : q.head = q.tail + UInt64.ofNat values.length
  bound : values.length ≤ q.capacity.toNat
  full : ∀ i data, values[i]? = some data →
    q.slot (q.tail + UInt64.ofNat i) = { sequence := q.tail + UInt64.ofNat i + 1, data := some data }
  free : ∀ i, values.length ≤ i → i < q.capacity.toNat →
    (q.slot (q.tail + UInt64.ofNat i)).sequence = q.tail + UInt64.ofNat i

theorem add_ofNat_zero (pos : UInt64) : pos + UInt64.ofNat 0 = pos := UInt64.add_zero pos

theorem represents_new {minCapacity : UInt64} {q : MpmcQueue α} (h : new minCapacity = some q) :
    q.Represents [] := by
  have hsized := sized_new h
  obtain ⟨capacity, -, rfl⟩ := Option.map_eq_some_iff.mp h
  refine ⟨hsized, rfl, Nat.zero_le _, fun i data hi => ?_, fun i _ hi => ?_⟩
  · cases hi
  · -- A position below the capacity is its own index.
    rw [← UInt64.toNat_inj]
    refine (hsized.toNat_index _).trans ?_
    rw [hsized.mod_capacity, Nat.mod_eq_of_lt (by simpa using hi)]
    have hle := hsized.capacity_le
    simp only [UInt64.zero_add, UInt64.toNat_ofNat', UInt64.toNat_zero, Nat.zero_add]
    rw [Nat.mod_eq_of_lt (by omega)]

namespace Represents

variable {q : MpmcQueue α} {values : List α}

/-- With room for another value, the slot of the next push is free. -/
theorem sequence_head (h : q.Represents values) (hroom : values.length < q.capacity.toNat) :
    (q.slot q.head).sequence = q.head := by
  rw [h.head]
  exact h.free _ le_rfl hroom

/-- In a full ring the next push finds the slot of the oldest value. -/
theorem sequence_head_full (h : q.Represents values) (hfull : values.length = q.capacity.toNat) :
    (q.slot q.head).sequence = q.tail + 1 := by
  have hpos : 0 < values.length := by
    rw [hfull]
    have := h.sized.two_le
    omega
  have hindex : q.index q.head = q.index q.tail := by
    rw [h.head, hfull, UInt64.ofNat_toNat, h.sized.index_capacity]
  have hslot := h.full 0 _ (List.getElem?_eq_getElem hpos)
  rw [add_ofNat_zero] at hslot
  calc (q.slot q.head).sequence = (q.slot q.tail).sequence := by rw [slot, slot, hindex]
    _ = q.tail + 1 := by rw [hslot]

/-- The slot of the next pop holds the oldest value. -/
theorem slot_tail {data : α} {rest : List α} (h : q.Represents (data :: rest)) :
    q.slot q.tail = { sequence := q.tail + 1, data := some data } := by
  have hslot := h.full 0 data rfl
  rwa [add_ofNat_zero] at hslot

theorem sequence_tail_empty (h : q.Represents []) : (q.slot q.tail).sequence = q.tail := by
  have hslot := h.free 0 le_rfl (by have := h.sized.two_le; omega)
  rwa [add_ofNat_zero] at hslot

/-- A push into a ring with room. -/
theorem publish (h : q.Represents values) (data : α) (hroom : values.length < q.capacity.toNat) :
    (q.publish q.head data).Represents (values ++ [data]) := by
  have hne : ∀ i, i < q.capacity.toNat → i ≠ values.length →
      q.index (q.tail + UInt64.ofNat i) ≠ q.index q.head := by
    intro i hi hlen
    rw [h.head]
    exact h.sized.index_ne q.tail hi hroom hlen
  refine ⟨⟨h.sized.pow, h.sized.mask⟩, ?_, ?_, fun i x hx => ?_, fun i hlo hhi => ?_⟩
  · rw [List.length_append, List.length_singleton, UInt64.ofNat_add, ← UInt64.add_assoc]
    exact congrArg (· + 1) h.head
  · rw [List.length_append, List.length_singleton]
    exact hroom
  · rw [publish_tail]
    rcases Machine.getElem?_concat_cases hx with hold | ⟨rfl, rfl⟩
    · have hlt := (List.getElem?_eq_some_iff.mp hold).1
      rw [publish_slot_ne _ (hne i (by omega) (by omega))]
      exact h.full i x hold
    · rw [← h.head]
      exact publish_slot q x
  · rw [List.length_append, List.length_singleton] at hlo
    rw [publish_tail, publish_slot_ne _ (hne i hhi (by omega))]
    exact h.free i (by omega) hhi

/-- A pop of the oldest value recycles its slot for the push of the next round. -/
theorem recycle {data : α} {rest : List α} (h : q.Represents (data :: rest)) :
    (q.recycle q.tail).Represents rest := by
  have htwo := h.sized.two_le
  have hbound : rest.length + 1 ≤ q.capacity.toNat := h.bound
  have hshift : ∀ i, q.tail + 1 + UInt64.ofNat i = q.tail + UInt64.ofNat (i + 1) := by
    intro i
    rw [UInt64.ofNat_add, UInt64.add_comm (UInt64.ofNat i), ← UInt64.add_assoc]
    rfl
  have hne : ∀ i, i + 1 < q.capacity.toNat →
      q.index (q.tail + UInt64.ofNat (i + 1)) ≠ q.index q.tail := by
    intro i hi
    have := h.sized.index_ne q.tail hi (show 0 < q.capacity.toNat by omega) (by omega)
    rwa [add_ofNat_zero] at this
  refine ⟨⟨h.sized.pow, h.sized.mask⟩, ?_, ?_, fun i x hx => ?_, fun i hlo hhi => ?_⟩
  · exact h.head.trans (hshift rest.length).symm
  · exact Nat.le_of_succ_le hbound
  · have hlt := (List.getElem?_eq_some_iff.mp hx).1
    rw [recycle_tail, hshift, recycle_slot_ne (hne i (by omega))]
    exact h.full (i + 1) x hx
  · rw [recycle_tail, hshift]
    rcases Nat.lt_or_ge (i + 1) q.capacity.toNat with hlt | hge
    · rw [recycle_slot_ne (hne i hlt)]
      exact h.free (i + 1) (Nat.succ_le_succ hlo) hlt
    · -- The recycled slot is the last of the round that is now ahead.
      have hlast : i + 1 = q.capacity.toNat := Nat.le_antisymm hhi hge
      rw [hlast, UInt64.ofNat_toNat, recycle_slot (h.sized.index_capacity q.tail)]

/-- A push succeeds exactly when there is room, however often its exchange fails spuriously. -/
theorem tryPush_eq (h : q.Represents values) (data : α) (spurious : Nat) :
    q.tryPush data spurious =
      some (if values.length < q.capacity.toNat then (q.publish q.head data, true)
        else (q, false)) := by
  unfold MpmcQueue.tryPush
  split
  case isTrue hroom =>
    have hdiff := diff_eq_zero.mpr (h.sequence_head hroom)
    induction spurious with
    | zero => simp only [rounds, List.replicate, List.nil_append, tryPushLoop, hdiff, if_true,
        and_self]
    | succ n ih =>
      rw [rounds, List.replicate_succ, List.cons_append, tryPushLoop, if_pos hdiff, if_neg (by simp)]
      exact ih
  case isFalse hroom =>
    have hfull : values.length = q.capacity.toNat := Nat.le_antisymm h.bound (by omega)
    have htwo := h.sized.two_le
    have hle := h.sized.capacity_le
    -- The slot has the sequence `tail_ + 1`, which is behind the head by the capacity less one.
    have hhead : q.head = q.tail + 1 + UInt64.ofNat (q.capacity.toNat - 1) := by
      rw [h.head, hfull, UInt64.add_assoc]
      refine congrArg (q.tail + ·) ?_
      calc UInt64.ofNat q.capacity.toNat = UInt64.ofNat (1 + (q.capacity.toNat - 1)) := by
            rw [Nat.add_sub_cancel' (by omega)]
        _ = 1 + UInt64.ofNat (q.capacity.toNat - 1) := UInt64.ofNat_add 1 _
    have hneg : (q.slot q.head).sequence.toInt64 - q.head.toInt64 < 0 := by
      rw [h.sequence_head_full hfull, hhead]
      exact diff_neg (by omega) (by omega)
    have hne : (q.slot q.head).sequence.toInt64 - q.head.toInt64 ≠ 0 := Int64.ne_of_lt hneg
    cases spurious <;>
      simp only [rounds, List.replicate, List.nil_append, List.cons_append, tryPushLoop, hne,
        hneg, if_true, if_false]

/-- A pop finds nothing in an empty ring. -/
theorem tryPop_nil (h : q.Represents []) (spurious : Nat) : q.tryPop spurious = some (q, none) := by
  unfold MpmcQueue.tryPop
  have hneg : (q.slot q.tail).sequence.toInt64 - (q.tail + 1).toInt64 < 0 := by
    rw [h.sequence_tail_empty]
    exact diff_neg (n := 1) Nat.one_pos (by decide)
  have hne : (q.slot q.tail).sequence.toInt64 - (q.tail + 1).toInt64 ≠ 0 := Int64.ne_of_lt hneg
  cases spurious <;>
    simp only [rounds, List.replicate, List.nil_append, List.cons_append, tryPopLoop, hne, hneg,
      if_true, if_false]

/-- A pop takes the oldest value. -/
theorem tryPop_cons {data : α} {rest : List α} (h : q.Represents (data :: rest)) (spurious : Nat) :
    q.tryPop spurious = some (q.recycle q.tail, some (some data)) := by
  unfold MpmcQueue.tryPop
  have hslot := h.slot_tail
  have hdiff : (q.slot q.tail).sequence.toInt64 - (q.tail + 1).toInt64 = 0 := by
    rw [diff_eq_zero, hslot]
  induction spurious with
  | zero =>
    simp only [rounds, List.replicate, List.nil_append, tryPopLoop, hdiff, if_true, and_self]
    rw [hslot]
  | succ n ih =>
    rw [rounds, List.replicate_succ, List.cons_append, tryPopLoop, if_pos hdiff, if_neg (by simp)]
    exact ih

/-- The difference of the counters is the number of values, as long as `head_` has not wrapped. -/
theorem sizeApprox_eq (h : q.Represents values) {pushes : Nat} (hhead : q.head = UInt64.ofNat pushes)
    (hle : values.length ≤ pushes) (hpushes : pushes < 2 ^ 64) :
    q.sizeApprox.toNat = values.length := by
  have hbound := h.bound
  have hcap := h.sized.capacity_le
  have htail : q.tail.toNat = pushes - values.length := by
    have hsum := congrArg UInt64.toNat (h.head.symm.trans hhead)
    have hlt := q.tail.toNat_lt
    rw [UInt64.toNat_add, UInt64.toNat_ofNat', UInt64.toNat_ofNat'] at hsum
    omega
  have hnat : q.head.toNat = pushes := by
    rw [hhead, UInt64.toNat_ofNat', Nat.mod_eq_of_lt hpushes]
  have hge : q.tail ≤ q.head := by
    rw [UInt64.le_iff_toNat_le]
    omega
  rw [sizeApprox, if_pos hge, UInt64.toNat_sub_of_le _ _ hge]
  omega

end Represents

end MpmcQueue

end LibE3
