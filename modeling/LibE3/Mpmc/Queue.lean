import LibE3.Lib.Transition
import Mathlib.Data.Nat.Bitwise
import Mathlib.Logic.Function.Basic

/-! `MpmcQueue`, from `mpmc_queue.hpp`: its slots, its constructor, and `try_push` and `try_pop` as the
atomic steps of any number of threads.  A thread's program counter holds the locals of its call.  The
memory is sequentially consistent, and `compare_exchange_weak` may fail spuriously.  The logs of a
machine record the tickets that the successful exchanges claim and what every pop returns. -/

namespace LibE3

structure Slot (α : Type) where
  sequence : UInt64 := 0
  /-- `none` is a default or moved-from value. -/
  data : Option α := none
  deriving DecidableEq, Repr

structure MpmcQueue (α : Type) where
  capacity : UInt64
  mask : UInt64
  buffer : UInt64 → Slot α
  head : UInt64 := 0
  tail : UInt64 := 0

/-- The loop `while (capacity_ < min_capacity) capacity_ <<= 1`, for at most `rounds` tests. -/
def roundUp (minCapacity : UInt64) : Nat → UInt64 → Option UInt64
  | 0, _ => none
  | rounds + 1, capacity =>
    if capacity < minCapacity then roundUp minCapacity rounds (capacity <<< 1) else some capacity

namespace MpmcQueue

variable {α : Type}

/-- The constructor.  A loop that has not ended after 63 tests shifts the capacity to zero and never
ends. -/
def new (minCapacity : UInt64) : Option (MpmcQueue α) :=
  (roundUp minCapacity 63 2).map fun capacity =>
    { capacity
      mask := capacity - 1
      buffer := fun i => { sequence := i } }

/-- The index `pos & mask_`. -/
def index (q : MpmcQueue α) (pos : UInt64) : UInt64 := pos &&& q.mask

/-- `buffer_[pos & mask_]`. -/
def slot (q : MpmcQueue α) (pos : UInt64) : Slot α := q.buffer (q.index pos)

def setSlot (q : MpmcQueue α) (pos : UInt64) (slot : Slot α) : MpmcQueue α :=
  { q with buffer := Function.update q.buffer (q.index pos) slot }

end MpmcQueue

/-! ### The atomic steps -/

/-- The next atomic step of a thread, with the locals `data`, `pos` and the popped value. -/
inductive Pc (α : Type)
  | idle
  | pushLoad (data : α)
  | pushSeq (data : α) (pos : UInt64)
  | pushCas (data : α) (pos : UInt64)
  | pushWrite (data : α) (pos : UInt64)
  | pushStore (pos : UInt64)
  | popLoad
  | popSeq (pos : UInt64)
  | popCas (pos : UInt64)
  | popRead (pos : UInt64)
  | popStore (pos : UInt64) (data : Option α)
  deriving DecidableEq, Repr

structure Machine (ι α : Type) where
  queue : MpmcQueue α
  pc : ι → Pc α
  /-- The tickets of the successful exchanges on `head_`, with the thread and its value. -/
  pushed : List (UInt64 × ι × α) := []
  /-- The tickets of the successful exchanges on `tail_`, with the thread. -/
  popped : List (UInt64 × ι) := []
  /-- The values that successful pops have returned, with their tickets. -/
  returned : List (UInt64 × ι × Option α) := []

/-- A thread calls `try_push` or `try_pop`, or takes the next step of its call.  `spurious` makes a
`compare_exchange_weak` fail although the values are equal. -/
inductive QueueEvent (ι α : Type)
  | callPush (i : ι) (data : α)
  | callPop (i : ι)
  | advance (i : ι) (spurious : Bool)

namespace Machine

variable {ι α : Type} [DecidableEq ι]

def start (q : MpmcQueue α) : Machine ι α where
  queue := q
  pc := fun _ => .idle

def goto (m : Machine ι α) (i : ι) (pc : Pc α) : Machine ι α :=
  { m with pc := Function.update m.pc i pc }

/-- The successful exchange of `head_`. -/
def claimPush (m : Machine ι α) (i : ι) (data : α) (pos : UInt64) : Machine ι α :=
  { m.goto i (.pushWrite data pos) with
    queue := { m.queue with head := pos + 1 }
    pushed := m.pushed ++ [(pos, i, data)] }

/-- The successful exchange of `tail_`. -/
def claimPop (m : Machine ι α) (i : ι) (pos : UInt64) : Machine ι α :=
  { m.goto i (.popRead pos) with
    queue := { m.queue with tail := pos + 1 }
    popped := m.popped ++ [(pos, i)] }

/-- A write to the slot of `pos`. -/
def write (m : Machine ι α) (i : ι) (pc : Pc α) (pos : UInt64) (slot : Slot α) : Machine ι α :=
  { m.goto i pc with queue := m.queue.setSlot pos slot }

/-- The next step of thread `i`. -/
def advance (m : Machine ι α) (i : ι) (spurious : Bool) : Option (Machine ι α) :=
  match m.pc i with
  | .idle => none
  | .pushLoad data => some (m.goto i (.pushSeq data m.queue.head))
  | .pushSeq data pos =>
    let seq := (m.queue.slot pos).sequence
    let diff := seq.toInt64 - pos.toInt64
    if diff = 0 then some (m.goto i (.pushCas data pos))
    else if diff < 0 then some (m.goto i .idle)
    else some (m.goto i (.pushLoad data))
  | .pushCas data pos =>
    if m.queue.head = pos ∧ spurious = false then some (m.claimPush i data pos)
    else some (m.goto i (.pushSeq data m.queue.head))
  | .pushWrite data pos =>
    some (m.write i (.pushStore pos) pos { m.queue.slot pos with data := some data })
  | .pushStore pos =>
    some (m.write i .idle pos { m.queue.slot pos with sequence := pos + 1 })
  | .popLoad => some (m.goto i (.popSeq m.queue.tail))
  | .popSeq pos =>
    let seq := (m.queue.slot pos).sequence
    let diff := seq.toInt64 - (pos + 1).toInt64
    if diff = 0 then some (m.goto i (.popCas pos))
    else if diff < 0 then some (m.goto i .idle)
    else some (m.goto i .popLoad)
  | .popCas pos =>
    if m.queue.tail = pos ∧ spurious = false then some (m.claimPop i pos)
    else some (m.goto i (.popSeq m.queue.tail))
  | .popRead pos =>
    let data := (m.queue.slot pos).data
    some (m.write i (.popStore pos data) pos { m.queue.slot pos with data := none })
  | .popStore pos data =>
    some { m.write i .idle pos { m.queue.slot pos with sequence := pos + m.queue.capacity } with
      returned := m.returned ++ [(pos, i, data)] }

def step (m : Machine ι α) : QueueEvent ι α → Option (Machine ι α)
  | .callPush i data =>
    match m.pc i with
    | .idle => some (m.goto i (.pushLoad data))
    | _ => none
  | .callPop i =>
    match m.pc i with
    | .idle => some (m.goto i .popLoad)
    | _ => none
  | .advance i spurious => m.advance i spurious

/-- The interleavings of the calls of any number of threads on the queue `q`. -/
def threads (ι : Type) [DecidableEq ι] (q : MpmcQueue α) :
    Transition.System (Machine ι α) (QueueEvent ι α) :=
  .ofStep (start q) step

end Machine

/-! ### The capacity -/

/-- The capacity is a power of two from 2 on, and the mask is one less. -/
structure MpmcQueue.Sized {α : Type} (q : MpmcQueue α) : Prop where
  pow : ∃ k, 1 ≤ k ∧ k ≤ 63 ∧ q.capacity.toNat = 2 ^ k
  mask : q.mask.toNat = q.capacity.toNat - 1

theorem toNat_shiftLeft_one {x : UInt64} {k : Nat} (hk : k ≤ 62) (hx : x.toNat = 2 ^ k) :
    (x <<< 1).toNat = 2 ^ (k + 1) := by
  rw [UInt64.toNat_shiftLeft, hx]
  simp only [UInt64.reduceToNat, Nat.reduceMod, Nat.shiftLeft_eq]
  rw [← pow_succ]
  exact Nat.mod_eq_of_lt (Nat.pow_lt_pow_right (by omega) (by omega))

theorem roundUp_pow {minCapacity capacity : UInt64} {k n : Nat} (hk : k + n = 64) (hk1 : 1 ≤ k)
    {start : UInt64} (hstart : k ≤ 63 → start.toNat = 2 ^ k)
    (h : roundUp minCapacity n start = some capacity) :
    ∃ k, 1 ≤ k ∧ k ≤ 63 ∧ capacity.toNat = 2 ^ k := by
  induction n generalizing k start with
  | zero => cases h
  | succ n ih =>
    have hk63 : k ≤ 63 := by omega
    unfold roundUp at h
    split at h
    · refine ih (k := k + 1) (by omega) (by omega) (fun hk62 => ?_) h
      exact toNat_shiftLeft_one (by omega) (hstart hk63)
    · cases h
      exact ⟨k, hk1, hk63, hstart hk63⟩

/-- The loop ends for every capacity up to `2^63`. -/
theorem roundUp_isSome {minCapacity : UInt64} (hmin : minCapacity.toNat ≤ 2 ^ 63) {k n : Nat}
    (hk : k + n = 63) {start : UInt64} (hstart : start.toNat = 2 ^ k) :
    (roundUp minCapacity (n + 1) start).isSome := by
  induction n generalizing k start with
  | zero =>
    have hge : ¬start < minCapacity := by
      rw [UInt64.lt_iff_toNat_lt, hstart, show k = 63 by omega]
      omega
    rw [roundUp, if_neg hge]
    rfl
  | succ n ih =>
    rw [roundUp]
    split
    · exact ih (k := k + 1) (by omega) (toNat_shiftLeft_one (by omega) hstart)
    · rfl

namespace MpmcQueue

variable {α : Type}

theorem sized_new {minCapacity : UInt64} {q : MpmcQueue α} (h : new minCapacity = some q) :
    q.Sized := by
  obtain ⟨capacity, hround, rfl⟩ := Option.map_eq_some_iff.mp h
  have hpow := roundUp_pow (k := 1) (by omega) (by omega) (fun _ => rfl) hround
  refine ⟨hpow, ?_⟩
  obtain ⟨k, hk1, hk63, hcap⟩ := hpow
  have hpos : 1 ≤ 2 ^ k := Nat.one_le_two_pow
  have hone : (1 : UInt64) ≤ capacity := by
    rw [UInt64.le_iff_toNat_le, hcap]
    exact hpos
  exact UInt64.toNat_sub_of_le _ _ hone

theorem new_isSome {minCapacity : UInt64} (h : minCapacity.toNat ≤ 2 ^ 63) :
    (new minCapacity : Option (MpmcQueue α)).isSome := by
  rw [new, Option.isSome_map]
  exact roundUp_isSome h (k := 1) (n := 62) rfl rfl

namespace Sized

variable {q : MpmcQueue α}

theorem two_le (h : q.Sized) : 2 ≤ q.capacity.toNat := by
  obtain ⟨k, hk1, -, hk⟩ := h.pow
  rw [hk]
  exact Nat.le_self_pow (by omega) 2

theorem capacity_le (h : q.Sized) : q.capacity.toNat ≤ 2 ^ 63 := by
  obtain ⟨k, -, hk63, hk⟩ := h.pow
  rw [hk]
  exact Nat.pow_le_pow_right (by omega) hk63

/-- Masking is the remainder by the capacity. -/
theorem toNat_index (h : q.Sized) (pos : UInt64) :
    (q.index pos).toNat = pos.toNat % q.capacity.toNat := by
  obtain ⟨k, -, -, hk⟩ := h.pow
  rw [index, UInt64.toNat_and, h.mask, hk, Nat.and_two_pow_sub_one_eq_mod]

theorem index_eq_iff (h : q.Sized) {a b : UInt64} :
    q.index a = q.index b ↔ a.toNat % q.capacity.toNat = b.toNat % q.capacity.toNat := by
  rw [← UInt64.toNat_inj, h.toNat_index, h.toNat_index]

end Sized

end MpmcQueue

/-- Equal counters are those whose signed difference is zero. -/
theorem diff_eq_zero {seq pos : UInt64} : seq.toInt64 - pos.toInt64 = 0 ↔ seq = pos := by
  rw [Int64.sub_eq_iff_eq_add, Int64.zero_add]
  exact ⟨fun h => congrArg Int64.toUInt64 h, fun h => by rw [h]⟩

end LibE3
