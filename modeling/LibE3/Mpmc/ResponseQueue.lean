import LibE3.Interface.Lifecycle
import LibE3.Mpmc.Sequential

/-! `ResponseQueue` over the lock-free ring, from `response_queue.cpp`, with calls made one at a time.
It answers every sequence of calls as the bounded list of the interface does, through every wrap of
the ring and of the counters. -/

namespace LibE3.LockFree

/-! ### The queue -/

structure ResponseQueue where
  ring : MpmcQueue Pdu
  shutdown : Bool := false

/-- What a call meets: how often the exchange of each attempt to pop fails spuriously, how many
attempts the phase of short sleeps has, and the clock that stamps a `Pdu{}`. -/
structure Circumstances where
  spurious : Nat → Nat → Nat := fun _ _ => 0
  sleeps : Nat := 0
  now : UInt64 := 0

/-- `Pdu{}`. -/
def Circumstances.blank (env : Circumstances) : Pdu := { timestamp := env.now }

/-- How a phase of waiting ends. -/
inductive Wait
  | popped (pdu : Pdu)
  | shutdown
  | nothing

namespace ResponseQueue

def SPIN_COUNT : Nat := 40

def YIELD_COUNT : Nat := 100

def new (capacity : UInt64) : Option ResponseQueue :=
  (MpmcQueue.new capacity).map fun ring => { ring }

variable (q : ResponseQueue) (env : Circumstances)

def push (pdu : Pdu) : Option (ResponseQueue × ErrorCode) :=
  if q.shutdown then some (q, .notInitialized)
  else
    (q.ring.tryPush pdu (env.spurious 0 0)).map fun result =>
      ({ q with ring := result.1 }, if result.2 then .success else .bufferTooSmall)

/-- An attempt on the ring, of which `spurious` exchanges fail. -/
def attempt (spurious : Nat) : Option (ResponseQueue × Option Pdu) :=
  (q.ring.tryPop spurious).map fun result =>
    ({ q with ring := result.1 }, result.2.map fun data => data.getD env.blank)

/-- The body that the phases of both `pop` functions share, run `rounds` times. -/
def wait (phase : Nat) (q : ResponseQueue) : Nat → Option (ResponseQueue × Wait)
  | 0 => some (q, .nothing)
  | rounds + 1 =>
    (q.attempt env (env.spurious phase rounds)).bind fun result =>
      match result with
      | (q, some pdu) => some (q, .popped pdu)
      | (q, none) => if q.shutdown then some (q, .shutdown) else wait phase q rounds

/-- The next phase, where the one before it ended with nothing. -/
def next (phase rounds : Nat) : ResponseQueue × Wait → Option (ResponseQueue × Wait)
  | (q, .nothing) => q.wait env phase rounds
  | ended => some ended

/-- The phases of spinning, yielding and sleeping. -/
def phases : Option (ResponseQueue × Wait) :=
  ((q.wait env 0 SPIN_COUNT).bind (next env 1 YIELD_COUNT)).bind (next env 2 env.sleeps)

/-- `pop()`: its last phase has no end of its own, and `none` is a call that still sleeps. -/
def pop : Option (ResponseQueue × Pdu) :=
  (q.phases env).bind fun result =>
    match result with
    | (q, .popped pdu) => some (q, pdu)
    | (q, .shutdown) => some (q, env.blank)
    | (_, .nothing) => none

/-- `pop(timeout)`: the deadline ends its last phase, and one last attempt follows. -/
def popTimeout : Option (ResponseQueue × Option Pdu) :=
  (q.phases env).bind fun result =>
    match result with
    | (q, .popped pdu) => some (q, some pdu)
    | (q, .shutdown) => some (q, none)
    | (q, .nothing) => q.attempt env (env.spurious 3 0)

def tryPop : Option (ResponseQueue × Option Pdu) := q.attempt env (env.spurious 0 0)

def empty : Bool := q.ring.sizeApprox == 0

def size : UInt64 := q.ring.sizeApprox

def capacity : UInt64 := q.ring.capacity

/-- The loop of `clear`, for at most `tests` tests. -/
def drain (q : ResponseQueue) : Nat → Option ResponseQueue
  | 0 => none
  | tests + 1 =>
    (q.ring.tryPop (env.spurious 0 tests)).bind fun result =>
      match result with
      | (ring, some _) => drain { q with ring } tests
      | (ring, none) => some { q with ring }

/-- A ring gives at most as many values as it has slots, so its capacity and one more tests are
enough. -/
def clear : Option ResponseQueue := q.drain env (q.ring.capacity.toNat + 1)

def signalShutdown : ResponseQueue := { q with shutdown := true }

def isShutdown : Bool := q.shutdown

end ResponseQueue

/-! ### The calls -/

inductive Call
  | push (pdu : Pdu)
  | pop
  | popTimeout
  | tryPop
  | clear
  | shutdown
  deriving DecidableEq, Repr

inductive Answer
  | code (error : ErrorCode)
  | pdu (pdu : Pdu)
  | found (pdu : Option Pdu)
  | done
  deriving DecidableEq, Repr

/-- A call of the lock-free queue.  `none` is a call that does not return. -/
def ResponseQueue.step (q : ResponseQueue) (call : Call × Circumstances) :
    Option (ResponseQueue × Answer) :=
  match call.1 with
  | .push pdu => (q.push call.2 pdu).map fun result => (result.1, .code result.2)
  | .pop => (q.pop call.2).map fun result => (result.1, .pdu result.2)
  | .popTimeout => (q.popTimeout call.2).map fun result => (result.1, .found result.2)
  | .tryPop => (q.tryPop call.2).map fun result => (result.1, .found result.2)
  | .clear => (q.clear call.2).map fun q' => (q', .done)
  | .shutdown => some (q.signalShutdown, .done)

/-- The bounded list that the queue stands for, with the number of pushes that have succeeded. -/
structure Fifo where
  queue : LibE3.ResponseQueue
  accepted : Nat := 0

namespace Fifo

def empty (capacity : Nat) : Fifo := { queue := { capacity } }

/-- What every call does to the list and answers: each `pop` takes the oldest PDU if there is one,
also after `shutdown`. -/
def step (f : Fifo) (call : Call × Circumstances) : Fifo × Answer :=
  match call.1 with
  | .push pdu =>
    let result := f.queue.push pdu
    ({ queue := result.1
       accepted := if result.2 = .success then f.accepted + 1 else f.accepted }, .code result.2)
  | .pop =>
    ({ f with queue := f.queue.tryPop.1 }, .pdu (f.queue.tryPop.2.getD call.2.blank))
  | .popTimeout => ({ f with queue := f.queue.tryPop.1 }, .found f.queue.tryPop.2)
  | .tryPop => ({ f with queue := f.queue.tryPop.1 }, .found f.queue.tryPop.2)
  | .clear => ({ f with queue := { f.queue with ring := [] } }, .done)
  | .shutdown => ({ f with queue := f.queue.signalShutdown }, .done)

/-- The bound never changes. -/
theorem step_capacity (f : Fifo) (call : Call × Circumstances) :
    (f.step call).1.queue.capacity = f.queue.capacity := by
  have hpop : f.queue.tryPop.1.capacity = f.queue.capacity := by
    unfold LibE3.ResponseQueue.tryPop
    split <;> rfl
  obtain ⟨call, env⟩ := call
  cases call with
  | push pdu =>
    show (f.queue.push pdu).1.capacity = _
    unfold LibE3.ResponseQueue.push
    split
    · rfl
    · split <;> rfl
  | pop => exact hpop
  | popTimeout => exact hpop
  | tryPop => exact hpop
  | clear => rfl
  | shutdown => rfl

/-- `pop()` waits for a PDU or the shutdown. -/
def Permitted (f : Fifo) (call : Call × Circumstances) : Prop :=
  call.1 = .pop → f.queue.ring ≠ [] ∨ f.queue.shutdown = true

end Fifo

/-! ### The refinement -/

/-- The queue stands for the list `f`. -/
structure Refines (q : ResponseQueue) (f : Fifo) : Prop where
  ring : q.ring.Represents f.queue.ring
  capacity : q.ring.capacity.toNat = f.queue.capacity
  shutdown : q.shutdown = f.queue.shutdown
  head : q.ring.head = UInt64.ofNat f.accepted
  le : f.queue.ring.length ≤ f.accepted

/-- The list after an attempt to pop. -/
def Fifo.taken (f : Fifo) : Fifo := { f with queue := f.queue.tryPop.1 }

/-- How a wait of at least one attempt on the list ends. -/
def Fifo.waited (f : Fifo) : Wait :=
  match f.queue.tryPop.2 with
  | some pdu => .popped pdu
  | none => if f.queue.shutdown then .shutdown else .nothing

theorem Fifo.taken_of_none {f : Fifo} (h : f.queue.tryPop.2 = none) : f.taken = f := by
  obtain ⟨⟨ring, capacity, shutdown⟩, accepted⟩ := f
  cases ring with
  | nil => rfl
  | cons pdu rest => cases h

theorem Fifo.taken_of_nothing {f : Fifo} (h : f.waited = .nothing) : f.taken = f := by
  unfold Fifo.waited at h
  split at h
  · cases h
  · exact taken_of_none ‹_›

namespace Refines

variable {q : ResponseQueue} {f : Fifo} (h : Refines q f) (env : Circumstances)

include h

theorem push (pdu : Pdu) :
    ∃ q', q.push env pdu = some (q', (f.queue.push pdu).2) ∧ Refines q' (f.step (.push pdu, env)).1 := by
  show ∃ q', _ ∧ Refines q' { queue := (f.queue.push pdu).1, accepted := _ }
  rw [ResponseQueue.push, h.ring.tryPush_eq, Option.map_some]
  have hcap := h.capacity
  by_cases hshutdown : f.queue.shutdown = true
  · have hlist : f.queue.push pdu = (f.queue, .notInitialized) := by
      rw [LibE3.ResponseQueue.push, if_pos hshutdown]
    rw [if_pos (h.shutdown.trans hshutdown), hlist]
    exact ⟨q, rfl, h⟩
  · rw [if_neg (h.shutdown ▸ hshutdown)]
    by_cases hroom : f.queue.ring.length < q.ring.capacity.toNat
    · have hfull : ¬f.queue.full = true := by
        rw [LibE3.ResponseQueue.full, decide_eq_true_eq]
        omega
      have hlist : f.queue.push pdu =
          ({ f.queue with ring := f.queue.ring ++ [pdu] }, .success) := by
        rw [LibE3.ResponseQueue.push, if_neg hshutdown, if_neg hfull]
      rw [if_pos hroom, hlist]
      refine ⟨_, rfl, h.ring.publish pdu hroom, h.capacity, h.shutdown, ?_, ?_⟩
      · rw [if_pos rfl, UInt64.ofNat_add, ← h.head]
        rfl
      · rw [if_pos rfl, List.length_append]
        exact Nat.succ_le_succ h.le
    · have hfull : f.queue.full = true := by
        rw [LibE3.ResponseQueue.full, decide_eq_true_eq]
        omega
      have hlist : f.queue.push pdu = (f.queue, .bufferTooSmall) := by
        rw [LibE3.ResponseQueue.push, if_neg hshutdown, if_pos hfull]
      rw [if_neg hroom, hlist]
      exact ⟨q, rfl, h⟩

theorem attempt (spurious : Nat) :
    ∃ q', q.attempt env spurious = some (q', f.queue.tryPop.2) ∧ Refines q' f.taken := by
  unfold ResponseQueue.attempt Fifo.taken LibE3.ResponseQueue.tryPop
  have hring := h.ring
  cases hlist : f.queue.ring with
  | nil =>
    rw [hlist] at hring
    rw [hring.tryPop_nil]
    exact ⟨q, rfl, h⟩
  | cons pdu rest =>
    rw [hlist] at hring
    rw [hring.tryPop_cons]
    have hle := h.le
    rw [hlist, List.length_cons] at hle
    exact ⟨_, rfl, hring.recycle, h.capacity, h.shutdown, h.head, Nat.le_of_succ_le hle⟩

/-- The first attempt of a phase decides it, unless there is nothing to wait for: then every attempt
leaves the queue as it was. -/
theorem wait (phase rounds : Nat) (hrounds : 0 < rounds ∨ f.waited = .nothing) :
    ∃ q', q.wait env phase rounds = some (q', f.waited) ∧ Refines q' f.taken := by
  induction rounds generalizing q with
  | zero =>
    have hnothing := hrounds.resolve_left (Nat.lt_irrefl 0)
    rw [hnothing, Fifo.taken_of_nothing hnothing]
    exact ⟨q, rfl, h⟩
  | succ rounds ih =>
    obtain ⟨q', hattempt, hq'⟩ := h.attempt env (env.spurious phase rounds)
    rw [ResponseQueue.wait, hattempt, Option.bind_some]
    cases hpop : f.queue.tryPop.2 with
    | some pdu =>
      refine ⟨q', ?_, hq'⟩
      simp only [Fifo.waited, hpop]
    | none =>
      rw [Fifo.taken_of_none hpop] at hq' ⊢
      simp only [hq'.shutdown]
      by_cases hshutdown : f.queue.shutdown
      · refine ⟨q', ?_, hq'⟩
        simp only [Fifo.waited, hpop, hshutdown, if_true]
      · have hnothing : f.waited = .nothing := by
          simp only [Fifo.waited, hpop, hshutdown, if_false, Bool.false_eq_true]
        obtain ⟨q'', hrest, hq''⟩ := ih hq' (.inr hnothing)
        rw [Fifo.taken_of_none hpop] at hq''
        refine ⟨q'', ?_, hq''⟩
        rw [if_neg hshutdown]
        exact hrest

omit h in
/-- A phase after the first adds nothing to what the list decides. -/
theorem next {q' : ResponseQueue} (h : Refines q' f.taken) (phase rounds : Nat) :
    ∃ q'', ResponseQueue.next env phase rounds (q', f.waited) = some (q'', f.waited) ∧
      Refines q'' f.taken := by
  cases hwaited : f.waited with
  | nothing =>
    have htaken := Fifo.taken_of_nothing hwaited
    rw [htaken] at h
    have hphase := h.wait env phase rounds (.inr hwaited)
    rwa [hwaited] at hphase
  | popped pdu => exact ⟨q', rfl, h⟩
  | shutdown => exact ⟨q', rfl, h⟩

theorem phases : ∃ q', q.phases env = some (q', f.waited) ∧ Refines q' f.taken := by
  obtain ⟨q1, hspin, h1⟩ := h.wait env 0 ResponseQueue.SPIN_COUNT (.inl (by decide))
  obtain ⟨q2, hyield, h2⟩ := next env h1 1 ResponseQueue.YIELD_COUNT
  obtain ⟨q3, hsleep, h3⟩ := next env h2 2 env.sleeps
  refine ⟨q3, ?_, h3⟩
  rw [ResponseQueue.phases, hspin, Option.bind_some, hyield, Option.bind_some, hsleep]

theorem pop (hpermitted : f.queue.ring ≠ [] ∨ f.queue.shutdown = true) :
    ∃ q', q.pop env = some (q', f.queue.tryPop.2.getD env.blank) ∧ Refines q' f.taken := by
  obtain ⟨q', hphases, hq'⟩ := h.phases env
  refine ⟨q', ?_, hq'⟩
  rw [ResponseQueue.pop, hphases, Option.bind_some, Fifo.waited]
  cases hpop : f.queue.tryPop.2 with
  | some pdu => rfl
  | none =>
    have hempty : f.queue.ring = [] := by
      unfold LibE3.ResponseQueue.tryPop at hpop
      split at hpop
      · assumption
      · cases hpop
    simp only [hpermitted.resolve_left (not_not.mpr hempty), if_true]
    rfl

theorem popTimeout :
    ∃ q', q.popTimeout env = some (q', f.queue.tryPop.2) ∧ Refines q' f.taken := by
  obtain ⟨q', hphases, hq'⟩ := h.phases env
  rw [ResponseQueue.popTimeout, hphases, Option.bind_some, Fifo.waited]
  cases hpop : f.queue.tryPop.2 with
  | some pdu => exact ⟨q', rfl, hq'⟩
  | none =>
    by_cases hshutdown : f.queue.shutdown
    · simp only [hshutdown, if_true]
      exact ⟨q', rfl, hq'⟩
    · simp only [hshutdown, if_false, Bool.false_eq_true]
      rw [Fifo.taken_of_none hpop] at hq' ⊢
      have hlast := hq'.attempt env (env.spurious 3 0)
      rwa [hpop, Fifo.taken_of_none hpop] at hlast

/-- The loop of `clear` ends after one test more than there are PDUs. -/
theorem drain {tests : Nat} (htests : f.queue.ring.length < tests) :
    ∃ q', q.drain env tests = some q' ∧ Refines q' (f.step (.clear, env)).1 := by
  induction tests generalizing q f with
  | zero => cases htests
  | succ tests ih =>
    have hring := h.ring
    rw [ResponseQueue.drain]
    cases hlist : f.queue.ring with
    | nil =>
      rw [hlist] at hring
      rw [hring.tryPop_nil]
      refine ⟨q, rfl, hring, h.capacity, h.shutdown, h.head, Nat.zero_le _⟩
    | cons pdu rest =>
      rw [hlist] at hring
      rw [hring.tryPop_cons]
      have hle := h.le
      rw [hlist, List.length_cons] at hle htests
      have hpopped : Refines { q with ring := q.ring.recycle q.ring.tail }
          { f with queue := { f.queue with ring := rest } } :=
        ⟨hring.recycle, h.capacity, h.shutdown, h.head, Nat.le_of_succ_le hle⟩
      have hrest := ih hpopped (Nat.lt_of_succ_lt_succ htests)
      exact hrest

theorem clear : ∃ q', q.clear env = some q' ∧ Refines q' (f.step (.clear, env)).1 :=
  h.drain env (Nat.lt_succ_of_le h.ring.bound)

theorem size (hsmall : f.accepted < 2 ^ 64) : q.size.toNat = f.queue.ring.length :=
  h.ring.sizeApprox_eq h.head h.le hsmall

/-- Every permitted call returns and answers as the list does. -/
theorem step (call : Call × Circumstances) (hpermitted : f.Permitted call) :
    ∃ q', q.step call = some (q', (f.step call).2) ∧ Refines q' (f.step call).1 := by
  obtain ⟨call, env⟩ := call
  cases call with
  | push pdu =>
    obtain ⟨q', hpush, hq'⟩ := h.push env pdu
    exact ⟨q', Option.map_eq_some_iff.mpr ⟨_, hpush, rfl⟩, hq'⟩
  | pop =>
    obtain ⟨q', hpop, hq'⟩ := h.pop env (hpermitted rfl)
    exact ⟨q', Option.map_eq_some_iff.mpr ⟨_, hpop, rfl⟩, hq'⟩
  | popTimeout =>
    obtain ⟨q', hpop, hq'⟩ := h.popTimeout env
    exact ⟨q', Option.map_eq_some_iff.mpr ⟨_, hpop, rfl⟩, hq'⟩
  | tryPop =>
    obtain ⟨q', hpop, hq'⟩ := h.attempt env (env.spurious 0 0)
    exact ⟨q', Option.map_eq_some_iff.mpr ⟨_, hpop, rfl⟩, hq'⟩
  | clear =>
    obtain ⟨q', hclear, hq'⟩ := h.clear env
    exact ⟨q', Option.map_eq_some_iff.mpr ⟨_, hclear, rfl⟩, hq'⟩
  | shutdown => exact ⟨q.signalShutdown, rfl, h.ring, h.capacity, rfl, h.head, h.le⟩

end Refines

theorem refines_new {capacity : UInt64} {q : ResponseQueue}
    (h : ResponseQueue.new capacity = some q) : Refines q (.empty q.capacity.toNat) := by
  obtain ⟨ring, hring, rfl⟩ := Option.map_eq_some_iff.mp h
  refine ⟨MpmcQueue.represents_new hring, rfl, rfl, ?_, le_rfl⟩
  obtain ⟨cap, -, rfl⟩ := Option.map_eq_some_iff.mp hring
  rfl

/-- The lock-free queue is the bounded list: for every requested capacity up to `2^32` and every
sequence of permitted calls, every call returns with the answer of the list of bound `capacity()`, and
`size()` is the number of PDUs in the list until `2^64` pushes have succeeded. -/
theorem responseQueue_refines_fifo (capacity : UInt64) (hcapacity : capacity.toNat ≤ 2 ^ 32) :
    ∃ q, ResponseQueue.new capacity = some q ∧
      ∀ calls, Transition.Along Fifo.step Fifo.Permitted (.empty q.capacity.toNat) calls →
        ∃ q', Transition.perform ResponseQueue.step q calls =
            some (q', Transition.history Fifo.step (.empty q.capacity.toNat) calls) ∧
          q'.capacity = q.capacity ∧
          q'.isShutdown = (Transition.final Fifo.step (.empty q.capacity.toNat) calls).queue.shutdown ∧
          ((Transition.final Fifo.step (.empty q.capacity.toNat) calls).accepted < 2 ^ 64 →
            q'.size.toNat =
              (Transition.final Fifo.step (.empty q.capacity.toNat) calls).queue.ring.length) := by
  obtain ⟨ring, hring⟩ := Option.isSome_iff_exists.mp
    (MpmcQueue.new_isSome (α := Pdu) (show capacity.toNat ≤ 2 ^ 63 by omega))
  have hnew : ResponseQueue.new capacity = some { ring } := by rw [ResponseQueue.new, hring]; rfl
  refine ⟨_, hnew, fun calls hcalls => ?_⟩
  obtain ⟨q', hrun, hlast⟩ := Transition.perform_refines
    (fun _ _ call h hpermitted => h.step call hpermitted) (refines_new hnew) hcalls
  have hkept : (Transition.final Fifo.step (.empty (ResponseQueue.capacity { ring }).toNat)
      calls).queue.capacity = (ResponseQueue.capacity { ring }).toNat :=
    Transition.final_induction (P := fun f : Fifo => f.queue.capacity = _) rfl
      fun f call _ hf => (f.step_capacity call).trans hf
  refine ⟨q', hrun, ?_, hlast.shutdown, hlast.size⟩
  rw [← UInt64.toNat_inj]
  exact hlast.capacity.trans hkept

/-- A queue of four slots is filled, refuses a fifth PDU, is shut down, and is drained. -/
def drained : List (Call × Circumstances) :=
  [.push { timestamp := 1 }, .push { timestamp := 2 }, .pop, .push { timestamp := 3 },
    .push { timestamp := 4 }, .push { timestamp := 5 }, .push { timestamp := 6 }, .shutdown,
    .push { timestamp := 7 }, .pop, .popTimeout, .tryPop, .clear, .popTimeout, .pop].map
    fun call => (call, { now := 9 })

theorem responseQueue_refines_fifo_drained :
    ∃ q q' answers, ResponseQueue.new 3 = some q ∧ q.capacity = 4 ∧
      Transition.perform ResponseQueue.step q drained = some (q', answers) ∧ q'.size = 0 ∧
      answers.map Prod.snd =
        [.code .success, .code .success, .pdu { timestamp := 1 }, .code .success,
          .code .success, .code .success, .code .bufferTooSmall, .done, .code .notInitialized,
          .pdu { timestamp := 2 }, .found (some { timestamp := 3 }),
          .found (some { timestamp := 4 }), .done, .found none, .pdu { timestamp := 9 }] := by
  obtain ⟨q, hnew, hruns⟩ := responseQueue_refines_fifo 3 (by decide)
  have hcapacity : (ResponseQueue.new 3).map ResponseQueue.capacity = some 4 := by decide +kernel
  rw [hnew, Option.map_some, Option.some.injEq] at hcapacity
  rw [hcapacity] at hruns
  obtain ⟨q', hrun, -, -, hsize⟩ := hruns drained (by
    simp [Transition.Along, Fifo.Permitted, drained, Fifo.step, Fifo.empty, LibE3.ResponseQueue.push,
      LibE3.ResponseQueue.tryPop, LibE3.ResponseQueue.full, LibE3.ResponseQueue.signalShutdown])
  refine ⟨q, q', _, hnew, hcapacity, hrun, ?_, rfl⟩
  rw [← UInt64.toNat_inj]
  exact hsize (by decide)

end LibE3.LockFree
