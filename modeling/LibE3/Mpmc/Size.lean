import LibE3.Mpmc.Fifo

/-! `size_approx` among the other threads.  It loads `head_` and then `tail_`, and any steps of other
threads may come in between.  `head_` is at most a capacity ahead of `tail_` when it is loaded, and
`tail_` only grows from then on, so the difference stays within the capacity. -/

namespace LibE3

open Transition

/-- The value that `size_approx` computes from its two loads. -/
def sizeOfLoads (h t : UInt64) : UInt64 := if h ≥ t then h - t else 0

/-- The next atomic step of a thread's call of `size_approx`, with the local `h`. -/
inductive SizePc
  | idle
  | loadHead
  | loadTail (h : UInt64)
  deriving DecidableEq, Repr

/-- The threads of a queue, which may also be in a call of `size_approx`. -/
structure Observed (ι α : Type) where
  machine : Machine ι α
  calls : ι → SizePc
  /-- The values that `size_approx` has returned, with the thread. -/
  sizes : List (ι × UInt64) := []

/-- A step of `try_push` or `try_pop`, or of `size_approx`. -/
inductive ObservedEvent (ι α : Type)
  | queue (e : QueueEvent ι α)
  | callSize (i : ι)
  | advanceSize (i : ι)

/-- The thread that takes a step. -/
def QueueEvent.thread {ι α : Type} : QueueEvent ι α → ι
  | .callPush i _ => i
  | .callPop i => i
  | .advance i _ => i

def ObservedEvent.isQueue {ι α : Type} : ObservedEvent ι α → Bool
  | .queue _ => true
  | _ => false

namespace Observed

variable {ι α : Type} [DecidableEq ι]

def start (q : MpmcQueue α) : Observed ι α where
  machine := .start q
  calls := fun _ => .idle

def goto (o : Observed ι α) (i : ι) (pc : SizePc) : Observed ι α :=
  { o with calls := Function.update o.calls i pc }

/-- A thread is in one call at a time. -/
def step (o : Observed ι α) : ObservedEvent ι α → Option (Observed ι α)
  | .queue e =>
    match o.calls e.thread with
    | .idle => (o.machine.step e).map fun machine => { o with machine }
    | _ => none
  | .callSize i =>
    match o.machine.pc i, o.calls i with
    | .idle, .idle => some (o.goto i .loadHead)
    | _, _ => none
  | .advanceSize i =>
    match o.calls i with
    | .idle => none
    | .loadHead => some (o.goto i (.loadTail o.machine.queue.head))
    | .loadTail h =>
      some { o.goto i .idle with
        sizes := o.sizes ++ [(i, sizeOfLoads h o.machine.queue.tail)] }

/-- The interleavings of the calls of any number of threads on the queue `q`. -/
def threads (ι : Type) [DecidableEq ι] (q : MpmcQueue α) :
    System (Observed ι α) (ObservedEvent ι α) :=
  .ofStep (start q) step

/-! ### What a step does -/

variable {o o' : Observed ι α}

theorem step_queue {e : QueueEvent ι α} (h : o.step (.queue e) = some o') :
    ∃ m, o.machine.step e = some m ∧ o' = { o with machine := m } := by
  simp only [step] at h
  split at h
  · obtain ⟨m, hm, rfl⟩ := Option.map_eq_some_iff.mp h
    exact ⟨m, hm, rfl⟩
  · cases h

theorem step_callSize {i : ι} (h : o.step (.callSize i) = some o') : o' = o.goto i .loadHead := by
  simp only [step] at h
  split at h
  · cases h
    rfl
  · cases h

theorem step_advanceSize {i : ι} (h : o.step (.advanceSize i) = some o') :
    (o.calls i = .loadHead ∧ o' = o.goto i (.loadTail o.machine.queue.head)) ∨
      ∃ h, o.calls i = .loadTail h ∧ o' = { o.goto i .idle with
        sizes := o.sizes ++ [(i, sizeOfLoads h o.machine.queue.tail)] } := by
  simp only [step] at h
  split at h
  · cases h
  · rename_i hload
    cases h
    exact .inl ⟨hload, rfl⟩
  · rename_i head hload
    cases h
    exact .inr ⟨head, hload, rfl⟩

/-- A call that has loaded `head_` has done so before, or in this step. -/
theorem calls_goto {i j : ι} {pc : SizePc} {h : UInt64}
    (hj : (o.goto i pc).calls j = .loadTail h) : pc = .loadTail h ∨ o.calls j = .loadTail h := by
  by_cases hji : j = i
  · rw [hji] at hj
    left
    simpa [goto] using hj
  · right
    simpa [goto, hji] using hj

/-! ### The range -/

/-- A loaded `head_` is within a capacity of `tail_`, and so is what was returned. -/
structure InRange (q : MpmcQueue α) (o : Observed ι α) : Prop where
  capacity : o.machine.queue.capacity = q.capacity
  loaded : ∀ i h, o.calls i = .loadTail h →
    h.toNat ≤ o.machine.popped.length + q.capacity.toNat
  returned : ∀ i v, (i, v) ∈ o.sizes → v ≤ q.capacity

theorem toNat_sizeOfLoads (h t : UInt64) : (sizeOfLoads h t).toNat = h.toNat - t.toNat := by
  unfold sizeOfLoads
  split
  · rename_i hle
    exact UInt64.toNat_sub_of_le _ _ hle
  · rename_i hlt
    have hlt := UInt64.lt_iff_toNat_lt.mp (UInt64.not_le.mp hlt)
    rw [UInt64.toNat_zero]
    omega

theorem reachable_machine {q : MpmcQueue α} (h : (threads ι q).Reachable o) :
    (Machine.threads ι q).Reachable o.machine := by
  refine System.Reachable.induction
    (P := fun o => (Machine.threads ι q).Reachable o.machine) ?_ ?_ h
  · rintro o rfl
    exact .start rfl
  · intro o e o' _ ih hstep
    cases e with
    | queue e =>
      obtain ⟨m, hm, rfl⟩ := step_queue hstep
      exact .next ih hm
    | callSize i =>
      obtain rfl := step_callSize hstep
      exact ih
    | advanceSize i =>
      rcases step_advanceSize hstep with ⟨-, rfl⟩ | ⟨h, -, rfl⟩ <;> exact ih

theorem step_pushed_length {e : ObservedEvent ι α} (h : o.step e = some o') :
    o.machine.pushed.length ≤ o'.machine.pushed.length := by
  cases e with
  | queue e =>
    obtain ⟨m, hm, rfl⟩ := step_queue h
    exact (Machine.step_grows hm).pushed.length_le
  | callSize i =>
    obtain rfl := step_callSize h
    exact le_rfl
  | advanceSize i =>
    rcases step_advanceSize h with ⟨-, rfl⟩ | ⟨h, -, rfl⟩ <;> exact le_rfl

/-- Every step keeps the range: `tail_` does not fall, and `head_` is in range when it is loaded. -/
theorem InRange.step {q : MpmcQueue α} (hrange : InRange q o) (hinv : o.machine.Inv)
    {e : ObservedEvent ι α} (hstep : o.step e = some o') : InRange q o' := by
  obtain ⟨hcap, hloaded, hreturned⟩ := hrange
  cases e with
  | queue e =>
    obtain ⟨m, hm, rfl⟩ := step_queue hstep
    obtain ⟨hsame, -, hpopped⟩ := Machine.step_grows hm
    refine ⟨hsame.trans hcap, fun i h hi => ?_, hreturned⟩
    have hle := hpopped.length_le
    have hbefore := hloaded i h hi
    dsimp only
    omega
  | callSize i =>
    obtain rfl := step_callSize hstep
    refine ⟨hcap, fun j h hj => ?_, hreturned⟩
    rcases calls_goto hj with hpc | hj
    · cases hpc
    · exact hloaded j h hj
  | advanceSize i =>
    rcases step_advanceSize hstep with ⟨-, rfl⟩ | ⟨head, hhead, rfl⟩
    · refine ⟨hcap, fun j h hj => ?_, hreturned⟩
      rcases calls_goto hj with hpc | hj
      · cases hpc
        have hbound := hinv.bound
        rw [hcap] at hbound
        rw [hinv.head]
        exact hbound
      · exact hloaded j h hj
    · refine ⟨hcap, fun j h hj => ?_, fun j v hv => ?_⟩
      · rcases calls_goto hj with hpc | hj
        · cases hpc
        · exact hloaded j h hj
      · rcases List.mem_append.mp hv with hv | hv
        · exact hreturned j v hv
        · cases List.mem_singleton.mp hv
          have hbefore := hloaded i head hhead
          rw [UInt64.le_iff_toNat_le, toNat_sizeOfLoads, hinv.tail]
          omega

theorem inRange_of_reachable {minCapacity : UInt64} {q : MpmcQueue α}
    (hq : MpmcQueue.new minCapacity = some q) (h : (threads ι q).Reachable o)
    (hsmall : o.machine.pushed.length < 2 ^ 63) : InRange q o := by
  refine System.Reachable.induction
    (P := fun o => o.machine.pushed.length < 2 ^ 63 → InRange q o) ?_ ?_ h hsmall
  · rintro o rfl _
    refine ⟨rfl, fun i h hi => ?_, fun i v hv => ?_⟩
    · cases hi
    · cases hv
  · intro o e o' hreach ih hstep hsmall'
    have hmono := step_pushed_length hstep
    have hinv := Machine.inv_of_reachable hq (reachable_machine hreach) (by omega)
    exact (ih (by omega)).step hinv hstep

/-! ### The exact number -/

/-- Every call of thread `i` from the start of a quiet interval on has the counters of the interval. -/
structure Quiet (o o' : Observed ι α) (i : ι) : Prop where
  machine : o'.machine = o.machine
  loaded : ∀ h, o'.calls i = .loadTail h → h = o.machine.queue.head
  returned : ∃ new, o'.sizes = o.sizes ++ new ∧
    ∀ v, (i, v) ∈ new → v = sizeOfLoads o.machine.queue.head o.machine.queue.tail

theorem quiet_of_execute {trace : List (ObservedEvent ι α)} {i : ι} (hidle : o.calls i = .idle)
    (hquiet : ∀ e ∈ trace, e.isQueue = false) (hrun : System.execute step o trace = some o') :
    Quiet o o' i := by
  refine System.execute_induction (P := fun o' => Quiet o o' i) ?_ ?_ hrun
  · refine ⟨rfl, fun h hi => ?_, [], (List.append_nil _).symm, fun v hv => ?_⟩
    · rw [hidle] at hi
      cases hi
    · cases hv
  · rintro s e s' he ⟨hmachine, hloaded, new, hsizes, hnew⟩ hstep
    cases e with
    | queue e => cases hquiet _ he
    | callSize j =>
      obtain rfl := step_callSize hstep
      refine ⟨hmachine, fun h hi => ?_, new, hsizes, hnew⟩
      rcases calls_goto hi with hpc | hi
      · cases hpc
      · exact hloaded h hi
    | advanceSize j =>
      rcases step_advanceSize hstep with ⟨-, rfl⟩ | ⟨head, hhead, rfl⟩
      · refine ⟨hmachine, fun h hi => ?_, new, hsizes, hnew⟩
        rcases calls_goto hi with hpc | hi
        · cases hpc
          rw [hmachine]
        · exact hloaded h hi
      · refine ⟨hmachine, fun h hi => ?_, new ++ [(j, sizeOfLoads head s.machine.queue.tail)], ?_,
          fun v hv => ?_⟩
        · rcases calls_goto hi with hpc | hi
          · cases hpc
          · exact hloaded h hi
        · dsimp only
          rw [hsizes, List.append_assoc]
        · rcases List.mem_append.mp hv with hv | hv
          · exact hnew v hv
          · cases List.mem_singleton.mp hv
            rw [hloaded head hhead, hmachine]

end Observed

namespace Machine

variable {ι α : Type}

/-- The pushes whose value no pop has returned. -/
def remaining (m : Machine ι α) : List (UInt64 × ι × α) :=
  m.pushed.filter fun push => push.1 ∉ m.returned.map Prod.fst

/-- Once every call has returned, exactly the tickets that no pop has claimed remain. -/
theorem Inv.remaining_eq {m : Machine ι α} (h : m.Inv) (hidle : ∀ i, m.pc i = .idle) :
    m.remaining = m.pushed.drop m.popped.length := by
  have hticket : ∀ k push, m.pushed[k]? = some push →
      (push.1 ∈ m.returned.map Prod.fst ↔ k < m.popped.length) := by
    rintro k ⟨t, j, data⟩ hpush
    have hk := h.pushTickets k t j data hpush
    subst hk
    constructor
    · intro hmem
      obtain ⟨⟨t', i, r⟩, hr, rfl⟩ := List.mem_map.mp hmem
      exact (List.getElem?_eq_some_iff.mp (h.values _ i r hr).1).1
    · intro hlt
      rcases h.popped_value hpush hlt with ⟨i, hpc | hpc⟩ | ⟨i, hi⟩
      · rw [hidle i] at hpc
        cases hpc
      · rw [hidle i] at hpc
        cases hpc
      · exact List.mem_map.mpr ⟨_, hi, rfl⟩
  have hfirst : (m.pushed.take m.popped.length).filter
      (fun push => push.1 ∉ m.returned.map Prod.fst) = [] := by
    rw [List.filter_eq_nil_iff]
    intro push hpush
    obtain ⟨k, hk⟩ := List.mem_iff_getElem?.mp hpush
    rw [List.getElem?_take] at hk
    split at hk
    · rename_i hlt
      simpa using (hticket k push hk).mpr hlt
    · cases hk
  have hrest : (m.pushed.drop m.popped.length).filter
      (fun push => push.1 ∉ m.returned.map Prod.fst) = m.pushed.drop m.popped.length := by
    rw [List.filter_eq_self]
    intro push hpush
    obtain ⟨k, hk⟩ := List.mem_iff_getElem?.mp hpush
    rw [List.getElem?_drop] at hk
    have hnot := (hticket _ push hk).not.mpr (by omega)
    simpa using hnot
  have hsplit := List.take_append_drop m.popped.length m.pushed
  rw [remaining, ← hsplit, List.filter_append, hfirst, hrest, List.nil_append, hsplit]

end Machine

namespace Observed

/-- Every value that `size_approx` has returned is at most the capacity, as long as fewer than `2^63`
pushes have been made.  A call that begins once all pushes and pops have returned, and during which
none begins, returns the number of values that were pushed and not popped. -/
theorem sizeApprox_in_range (ι α : Type) [DecidableEq ι] (minCapacity : UInt64) (q : MpmcQueue α)
    (hq : MpmcQueue.new minCapacity = some q) (o : Observed ι α)
    (hreach : (threads ι q).Reachable o) (hsmall : o.machine.pushed.length < 2 ^ 63) :
    (∀ i v, (i, v) ∈ o.sizes → v ≤ q.capacity) ∧
    ((∀ i, o.machine.pc i = .idle) → ∀ trace o' i v, o.calls i = .idle →
      (∀ e ∈ trace, e.isQueue = false) → System.execute step o trace = some o' →
      (i, v) ∈ o'.sizes.drop o.sizes.length → v.toNat = o.machine.remaining.length) := by
  refine ⟨(inRange_of_reachable hq hreach hsmall).returned, ?_⟩
  intro hidle trace o' i v hi hquiet hrun hv
  have hinv := Machine.inv_of_reachable hq (reachable_machine hreach) hsmall
  obtain ⟨-, -, new, hsizes, hnew⟩ := quiet_of_execute hi hquiet hrun
  rw [hsizes, List.drop_left] at hv
  rw [hnew v hv, toNat_sizeOfLoads, hinv.head, hinv.tail, hinv.remaining_eq hidle,
    List.length_drop]

/-- One thread pushes a value. -/
def onePush : List (ObservedEvent Bool Nat) :=
  .queue (.callPush true 7) :: List.replicate 5 (.queue (.advance true false))

/-- Then another one calls `size_approx`. -/
def oneSize : List (ObservedEvent Bool Nat) :=
  [.callSize false, .advanceSize false, .advanceSize false]

theorem sizeApprox_in_range_onePush :
    ∃ q o o', MpmcQueue.new 2 = some q ∧ System.execute step (start q) onePush = some o ∧
      System.execute step o oneSize = some o' ∧ o'.sizes = [(false, 1)] ∧ (1 : UInt64) ≤ q.capacity ∧
      (1 : UInt64).toNat = o.machine.remaining.length := by
  obtain ⟨q, hq⟩ := Option.isSome_iff_exists.mp
    (show (MpmcQueue.new 2 : Option (MpmcQueue Nat)).isSome = true from
      MpmcQueue.new_isSome (by decide))
  have hrun : ((MpmcQueue.new 2).bind fun q =>
      (System.execute step (start q) onePush).bind fun o =>
        (System.execute step o oneSize).map fun o' =>
          (decide ((∀ i, o.machine.pc i = .idle) ∧ o.calls false = .idle),
            [o.sizes.length, o.machine.pushed.length, o'.machine.pushed.length], o'.sizes)) =
      some (true, [0, 1, 1], [(false, 1)]) := by decide +kernel
  rw [hq, Option.bind_some] at hrun
  obtain ⟨o, ho, hrun⟩ := Option.bind_eq_some_iff.mp hrun
  obtain ⟨o', ho', heq⟩ := Option.map_eq_some_iff.mp hrun
  simp only [Prod.mk.injEq, List.cons.injEq, and_true, decide_eq_true_eq] at heq
  obtain ⟨⟨hidle, hcalls⟩, ⟨hsizes, hpushed, hpushed'⟩, hsizes'⟩ := heq
  have hreach : (threads Bool q).Reachable o := System.reachable_of_execute _ ho
  have hfirst := sizeApprox_in_range Bool Nat 2 q hq o hreach (by rw [hpushed]; decide)
  have hsecond := sizeApprox_in_range Bool Nat 2 q hq o' (hreach.execute ho')
    (by rw [hpushed']; decide)
  refine ⟨q, o, o', hq, ho, ho', hsizes', hsecond.1 false 1 (by simp [hsizes']), ?_⟩
  exact hfirst.2 hidle oneSize o' false 1 hcalls (by decide) ho'
    (by simp [hsizes, hsizes'])

end Observed

end LibE3
