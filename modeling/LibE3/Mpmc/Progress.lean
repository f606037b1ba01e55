import LibE3.Mpmc.Sequential
import LibE3.Mpmc.Size
import LibE3.Mpmc.Verdicts
import Mathlib.Algebra.BigOperators.Ring.Finset
import Mathlib.Algebra.Order.BigOperators.Group.Finset

/-! Progress on the ring.  A call of `try_push` or `try_pop` goes round its loop again only where
another thread has claimed a ticket of the same counter, or where its exchange failed spuriously.  A
rank for each program counter says how many steps a call still takes if it is left alone; the claim of
another thread adds two at most. -/

namespace LibE3

open Transition

namespace QueueEvent

variable {ι α : Type}

/-- A step of a call that is in progress. -/
def isStep : QueueEvent ι α → Bool
  | .advance _ _ => true
  | _ => false

/-- A step in which a `compare_exchange_weak` fails although the values are equal. -/
def isSpurious : QueueEvent ι α → Bool
  | .advance _ spurious => spurious
  | _ => false

/-- A new call of `try_push` or `try_pop`. -/
def isCall : QueueEvent ι α → Bool
  | .advance _ _ => false
  | _ => true

/-- A new call of `try_pop`. -/
def isPopCall : QueueEvent ι α → Bool
  | .callPop _ => true
  | _ => false

end QueueEvent

/-- The pcs of a call that has not claimed a ticket. -/
def Pc.claiming {α : Type} : Pc α → Bool
  | .pushLoad _ | .pushSeq _ _ | .pushCas _ _ | .popLoad | .popSeq _ | .popCas _ => true
  | _ => false

/-- The steps that a call still takes at `pc`, if no other thread moves the counter of its position. -/
def Pc.rank {α : Type} (head tail : UInt64) : Pc α → Nat
  | .idle => 0
  | .pushLoad _ => 5
  | .pushSeq _ pos => if pos = head then 4 else 6
  | .pushCas _ pos => if pos = head then 3 else 5
  | .pushWrite _ _ => 2
  | .pushStore _ => 1
  | .popLoad => 5
  | .popSeq pos => if pos = tail then 4 else 6
  | .popCas pos => if pos = tail then 3 else 5
  | .popRead _ => 2
  | .popStore _ _ => 1

namespace Machine

variable {ι α : Type}

def rank (m : Machine ι α) (i : ι) : Nat := (m.pc i).rank m.queue.head m.queue.tail

variable {m m' : Machine ι α}

theorem rank_of_pc {i : ι} {pc : Pc α} (h : m.pc i = pc) :
    m.rank i = pc.rank m.queue.head m.queue.tail := by
  rw [rank, h]

theorem idle_of_rank_eq_zero {i : ι} (h : m.rank i = 0) : m.pc i = .idle := by
  cases hpc : m.pc i <;> rw [rank_of_pc hpc, Pc.rank] at h <;> try split at h
  all_goals first | rfl | omega

/-! ### A position that is up to date -/

section Current

variable (h : m.Inv)

include h

/-- The slot of the next ticket of `head_` is never ahead of it. -/
theorem Inv.sequence_head_le : (m.queue.slot m.queue.head).sequence.toNat ≤ m.queue.head.toNat := by
  obtain ⟨p, hp, hgen⟩ := h.generation m.queue.head
  have hhead := h.head
  have hle := h.le
  have hbound := h.bound
  cases hgen with
  | free hseq hlo hhi =>
    have heq := eq_of_mod_eq hp.symm (by omega) (by omega)
    omega
  | writing i pos hpos hseq hlo hhi hpc => omega
  | full t i data hseq hlo hhi hpush hdata => omega
  | reading i pos hpos hseq hlo hhi hpc => omega

/-- The slot of the next ticket of `tail_` is never ahead of its published state. -/
theorem Inv.sequence_tail_le :
    (m.queue.slot m.queue.tail).sequence.toNat ≤ m.queue.tail.toNat + 1 ∧
      m.queue.tail.toNat + 1 < (m.queue.slot m.queue.tail).sequence.toNat + 2 ^ 63 := by
  obtain ⟨p, hp, hgen⟩ := h.generation m.queue.tail
  have htail := h.tail
  have hsmall := h.small
  have hle := h.le
  have hbound := h.bound
  cases hgen with
  | free hseq hlo hhi =>
    have heq := eq_of_mod_eq hp.symm (by omega) (by omega)
    omega
  | writing i pos hpos hseq hlo hhi hpc =>
    have heq := eq_of_mod_eq hp.symm (by omega) (by omega)
    omega
  | full t i data hseq hlo hhi hpush hdata =>
    have heq := eq_of_mod_eq hp.symm (by omega) (by omega)
    omega
  | reading i pos hpos hseq hlo hhi hpc => omega

end Current

/-- A slot that is not ahead of a position leaves no positive difference. -/
theorem diff_nonpos {seq pos : UInt64} (hle : seq.toNat ≤ pos.toNat)
    (hnear : pos.toNat < seq.toNat + 2 ^ 63) :
    seq.toInt64 - pos.toInt64 = 0 ∨ seq.toInt64 - pos.toInt64 < 0 := by
  rcases hle.eq_or_lt with heq | hlt
  · exact .inl (diff_eq_zero.mpr (UInt64.toNat_inj.mp heq))
  · have hsum : pos = seq + UInt64.ofNat (pos.toNat - seq.toNat) := by
      rw [← UInt64.toNat_inj, UInt64.toNat_add, UInt64.toNat_ofNat']
      have := pos.toNat_lt
      omega
    rw [hsum]
    exact .inr (MpmcQueue.diff_neg (by omega) (by omega))

variable [DecidableEq ι]

/-! ### What a step does to the ranks -/

theorem rank_goto (i : ι) (pc : Pc α) :
    (m.goto i pc).rank i = pc.rank m.queue.head m.queue.tail := by
  simp only [rank, goto_pc_self]
  rfl

omit [DecidableEq ι] in
/-- A push whose position is `head_` is not told to load it again. -/
theorem Inv.not_retryPush (h : m.Inv) {pos : UInt64} (hhead : pos = m.queue.head)
    (hne : (m.queue.slot pos).sequence.toInt64 - pos.toInt64 ≠ 0) :
    (m.queue.slot pos).sequence.toInt64 - pos.toInt64 < 0 := by
  subst hhead
  have hsmall := h.small
  have hhead := h.head
  exact (diff_nonpos h.sequence_head_le (by omega)).resolve_left hne

omit [DecidableEq ι] in
/-- A pop whose position is `tail_` is not told to load it again. -/
theorem Inv.not_retryPop (h : m.Inv) {pos : UInt64} (htail : pos = m.queue.tail)
    (hne : (m.queue.slot pos).sequence.toInt64 - (pos + 1).toInt64 ≠ 0) :
    (m.queue.slot pos).sequence.toInt64 - (pos + 1).toInt64 < 0 := by
  subst htail
  have hle := h.le
  have htail := h.tail
  have hsucc : (m.queue.tail + 1).toNat = m.queue.tail.toNat + 1 := h.toNat_succ (by omega)
  obtain ⟨hahead, hnear⟩ := h.sequence_tail_le
  exact (diff_nonpos (by omega) (by omega)).resolve_left hne

/-- A step of a call lowers its rank, unless an exchange fails spuriously. -/
theorem Inv.rank_advance (h : m.Inv) {i : ι} {spurious : Bool}
    (hstep : m.advance i spurious = some m') :
    m'.rank i + 1 ≤ m.rank i + 2 * (if spurious then 1 else 0) := by
  unfold Machine.advance at hstep
  cases hpc : m.pc i with
  | idle =>
    rw [hpc] at hstep
    cases hstep
  | pushLoad data | popLoad =>
    rw [hpc] at hstep
    cases hstep
    rw [rank_goto, rank_of_pc hpc]
    simp only [Pc.rank, if_true]
    omega
  | pushSeq data pos =>
    rw [hpc] at hstep
    dsimp only at hstep
    rw [rank_of_pc hpc]
    split at hstep
    · cases hstep
      rw [rank_goto]
      simp only [Pc.rank]
      split <;> omega
    split at hstep
    · cases hstep
      rw [rank_goto]
      simp only [Pc.rank]
      split <;> omega
    · rename_i hne hnot
      cases hstep
      have hold : pos ≠ m.queue.head := fun heq => hnot (h.not_retryPush heq hne)
      rw [rank_goto]
      simp only [Pc.rank, if_neg hold]
      omega
  | popSeq pos =>
    rw [hpc] at hstep
    dsimp only at hstep
    rw [rank_of_pc hpc]
    split at hstep
    · cases hstep
      rw [rank_goto]
      simp only [Pc.rank]
      split <;> omega
    split at hstep
    · cases hstep
      rw [rank_goto]
      simp only [Pc.rank]
      split <;> omega
    · rename_i hne hnot
      cases hstep
      have hold : pos ≠ m.queue.tail := fun heq => hnot (h.not_retryPop heq hne)
      rw [rank_goto]
      simp only [Pc.rank, if_neg hold]
      omega
  | pushCas data pos =>
    rw [hpc] at hstep
    dsimp only at hstep
    rw [rank_of_pc hpc]
    split at hstep
    · rename_i hcas
      cases hstep
      rw [rank_of_pc (claimPush_pc m i data pos)]
      simp only [Pc.rank, hcas.1, if_true]
      omega
    · rename_i hmiss
      cases hstep
      rw [rank_goto]
      simp only [Pc.rank, if_true]
      cases spurious <;> grind
  | popCas pos =>
    rw [hpc] at hstep
    dsimp only at hstep
    rw [rank_of_pc hpc]
    split at hstep
    · rename_i hcas
      cases hstep
      rw [rank_of_pc (claimPop_pc m i pos)]
      simp only [Pc.rank, hcas.1, if_true]
      omega
    · rename_i hmiss
      cases hstep
      rw [rank_goto]
      simp only [Pc.rank, if_true]
      cases spurious <;> grind
  | pushWrite data pos =>
    rw [hpc] at hstep
    cases hstep
    rw [rank_of_pc (write_pc m i _ pos _), rank_of_pc hpc]
    simp only [Pc.rank]
    omega
  | pushStore pos =>
    rw [hpc] at hstep
    cases hstep
    rw [rank_of_pc (write_pc m i _ pos _), rank_of_pc hpc]
    simp only [Pc.rank]
    omega
  | popRead pos =>
    rw [hpc] at hstep
    cases hstep
    rw [rank_of_pc (write_pc m i _ pos _), rank_of_pc hpc]
    simp only [Pc.rank]
    omega
  | popStore pos r =>
    rw [hpc] at hstep
    cases hstep
    change (m.write i .idle pos _).rank i + 1 ≤ _
    rw [rank_of_pc (write_pc m i _ pos _), rank_of_pc hpc]
    simp only [Pc.rank]
    omega

/-- What the step of thread `i` means to the other threads: they stay where they are, and either both
counters do, or `i` claims a ticket of one of them. -/
inductive Elsewhere (m m' : Machine ι α) (i : ι) : Prop
  | still (hpc : ∀ j, j ≠ i → m'.pc j = m.pc j) (hhead : m'.queue.head = m.queue.head)
      (htail : m'.queue.tail = m.queue.tail)
      (hclaiming : (m.pc i).claiming = false → (m'.pc i).claiming = false)
      (hpushed : m'.pushed = m.pushed) (hpopped : m'.popped = m.popped)
  | push (data : α) (pos : UInt64) (hpc : m.pc i = .pushCas data pos)
      (hm : m' = m.claimPush i data pos)
  | pop (pos : UInt64) (hpc : m.pc i = .popCas pos) (hm : m' = m.claimPop i pos)

theorem elsewhere_of_advance {i : ι} {spurious : Bool} (h : m.advance i spurious = some m') :
    m.Elsewhere m' i := by
  cases advances_of_advance h with
  | claimPush data pos hpc => exact .push data pos hpc rfl
  | claimPop pos hpc => exact .pop pos hpc rfl
  | loadHead data hpc | freeSlot data pos hpc | refusePush data pos hpc | retryPush data pos hpc
  | missPush data pos hpc | loadTail hpc | fullSlot pos hpc | refusePop pos hpc | retryPop pos hpc
  | missPop pos hpc =>
    refine .still (fun j hj => goto_pc_ne _ hj) rfl rfl (fun hi => ?_) rfl rfl
    rw [hpc] at hi
    cases hi
  | writeData data pos hpc | publish pos hpc | takeData pos hpc | recycle pos r hpc =>
    refine .still (fun j hj => goto_pc_ne _ hj) rfl rfl (fun _ => ?_) rfl rfl
    simp only [write, goto_pc_self]
    rfl

omit [DecidableEq ι] in
/-- A thread that stays where it is while `head_` moves loses at most one round of a push. -/
theorem Pc.rank_head_le (pc : Pc α) (head head' tail : UInt64) :
    pc.rank head' tail ≤ pc.rank head tail + 2 * if pc.isPush && pc.claiming then 1 else 0 := by
  cases pc <;> simp [Pc.rank, Pc.isPush, Pc.claiming] <;> split <;> split <;> omega

omit [DecidableEq ι] in
/-- A thread that stays where it is while `tail_` moves loses at most one round of a pop. -/
theorem Pc.rank_tail_le (pc : Pc α) (head tail tail' : UInt64) :
    pc.rank head tail' ≤ pc.rank head tail + 2 * if pc.isPop && pc.claiming then 1 else 0 := by
  cases pc <;> simp [Pc.rank, Pc.isPop, Pc.claiming] <;> split <;> split <;> omega

/-- An event leaves the threads alone that it does not name. -/
theorem step_pc_ne {e : QueueEvent ι α} {i : ι} (h : m.step e = some m') (hne : i ≠ e.thread) :
    m'.pc i = m.pc i := by
  cases e with
  | callPush j data =>
    obtain ⟨-, rfl⟩ := step_callPush h
    exact goto_pc_ne _ hne
  | callPop j =>
    obtain ⟨-, rfl⟩ := step_callPop h
    exact goto_pc_ne _ hne
  | advance j spurious => exact (stepped_of_advance h).others i hne

/-! ### One call -/

/-- The calls of one kind; a thread between calls is of both. -/
def Pc.ofKind {α : Type} (pops : Bool) (pc : Pc α) : Bool :=
  bif pops then !pc.isPush else !pc.isPop

/-- The tickets of one counter that threads other than `i` have claimed. -/
def rivals (m : Machine ι α) (i : ι) (pops : Bool) : Nat :=
  bif pops then m.popped.countP fun claim => decide (claim.2 ≠ i)
  else m.pushed.countP fun claim => decide (claim.2.1 ≠ i)

/-- A step of the call of thread `i`. -/
def ownStep (i : ι) (e : QueueEvent ι α) : Bool := e.isStep && decide (e.thread = i)

/-- A step of the call of thread `i` in which its exchange fails spuriously. -/
def ownFailure (i : ι) (e : QueueEvent ι α) : Bool := e.isSpurious && decide (e.thread = i)

theorem rivals_claimPush (i j : ι) (data : α) (pos : UInt64) (pops : Bool) :
    (m.claimPush j data pos).rivals i pops =
      m.rivals i pops + if pops = false ∧ j ≠ i then 1 else 0 := by
  cases pops <;> simp [rivals, claimPush, goto, List.countP_cons]

theorem rivals_claimPop (i j : ι) (pos : UInt64) (pops : Bool) :
    (m.claimPop j pos).rivals i pops =
      m.rivals i pops + if pops = true ∧ j ≠ i then 1 else 0 := by
  cases pops <;> simp [rivals, claimPop, goto, List.countP_cons]

omit [DecidableEq ι] in
theorem Pc.ofKind_of_goes {pops : Bool} {pc pc' : Pc α} (hgoes : m.Goes pc pc')
    (h : Pc.ofKind pops pc = true) : Pc.ofKind pops pc' = true := by
  obtain rfl | ⟨hpush, hpop, -⟩ := hgoes
  · cases pops <;> rfl
  · unfold Pc.ofKind at *
    rw [hpush, hpop]
    exact h

/-- Every event but a new call of thread `i` keeps the kind of its call, and its work is paid for. -/
theorem Inv.rank_step (h : m.Inv) {e : QueueEvent ι α} (hstep : m.step e = some m') {i : ι}
    (hcall : e.isCall = true → e.thread ≠ i) {pops : Bool}
    (hkind : Pc.ofKind pops (m.pc i) = true) :
    Pc.ofKind pops (m'.pc i) = true ∧
      m'.rank i + (if ownStep i e then 1 else 0) + 2 * m.rivals i pops ≤
        m.rank i + (if ownFailure i e then 2 else 0) + 2 * m'.rivals i pops := by
  cases e with
  | callPush j data =>
    obtain ⟨-, rfl⟩ := step_callPush hstep
    have hpc : (m.goto j (.pushLoad data)).pc i = m.pc i := goto_pc_ne _ (hcall rfl).symm
    rw [rank, hpc]
    exact ⟨hkind, le_rfl⟩
  | callPop j =>
    obtain ⟨-, rfl⟩ := step_callPop hstep
    have hpc : (m.goto j .popLoad).pc i = m.pc i := goto_pc_ne _ (hcall rfl).symm
    rw [rank, hpc]
    exact ⟨hkind, le_rfl⟩
  | advance j spurious =>
    by_cases hij : i = j
    · subst hij
      have hrank := h.rank_advance hstep
      have hrivals : m'.rivals i pops = m.rivals i pops := by
        cases elsewhere_of_advance hstep with
        | still _ _ _ _ hpushed hpopped => rw [rivals, rivals, hpushed, hpopped]
        | push data pos _ hm =>
          subst hm
          simp [rivals_claimPush]
        | pop pos _ hm =>
          subst hm
          simp [rivals_claimPop]
      refine ⟨Pc.ofKind_of_goes (stepped_of_advance hstep).own hkind, ?_⟩
      simp only [ownStep, ownFailure, QueueEvent.isStep, QueueEvent.isSpurious, QueueEvent.thread,
        decide_true, Bool.and_true, if_true, hrivals]
      cases spurious <;> simp_all
    · have hpc := (stepped_of_advance hstep).others i hij
      have hji : j ≠ i := fun heq => hij heq.symm
      have hstep' : ownStep i (.advance j spurious : QueueEvent ι α) = false := by
        simp [ownStep, QueueEvent.thread, hji]
      have hfailure : ownFailure i (.advance j spurious : QueueEvent ι α) = false := by
        simp [ownFailure, QueueEvent.thread, hji]
      refine ⟨by rw [hpc]; exact hkind, ?_⟩
      rw [rank_of_pc hpc, hstep', hfailure, rank]
      cases elsewhere_of_advance hstep with
      | still _ hhead htail _ hpushed hpopped =>
        rw [rivals, rivals, hpushed, hpopped, hhead, htail]
        exact le_rfl
      | push data pos _ hm =>
        subst hm
        have hrank := Pc.rank_head_le (m.pc i) m.queue.head (pos + 1) m.queue.tail
        change (m.pc i).rank (pos + 1) m.queue.tail + _ + _ ≤ _
        rw [rivals_claimPush]
        cases pops with
        | false => grind
        | true =>
          rw [Pc.ofKind, cond_true, Bool.not_eq_true'] at hkind
          grind
      | pop pos _ hm =>
        subst hm
        have hrank := Pc.rank_tail_le (m.pc i) m.queue.head m.queue.tail (pos + 1)
        change (m.pc i).rank m.queue.head (pos + 1) + _ + _ ≤ _
        rw [rivals_claimPop]
        cases pops with
        | false =>
          rw [Pc.ofKind, cond_false, Bool.not_eq_true'] at hkind
          grind
        | true => grind

/-- A new call has five steps before it, and no ticket is claimed by it. -/
theorem rank_of_call {e : QueueEvent ι α} (hcall : e.isCall = true) (hstep : m.step e = some m') :
    Pc.ofKind e.isPopCall (m'.pc e.thread) = true ∧ m'.rank e.thread = 5 ∧
      m'.pushed = m.pushed ∧ m'.popped = m.popped := by
  cases e with
  | callPush i data =>
    obtain ⟨-, rfl⟩ := step_callPush hstep
    refine ⟨?_, rank_goto i _, rfl, rfl⟩
    rw [show (QueueEvent.callPush i data).thread = i from rfl, goto_pc_self]
    rfl
  | callPop i =>
    obtain ⟨-, rfl⟩ := step_callPop hstep
    refine ⟨?_, rank_goto i _, rfl, rfl⟩
    rw [show (QueueEvent.callPop i : QueueEvent ι α).thread = i from rfl, goto_pc_self]
    rfl
  | advance i spurious => cases hcall

/-- In every run of threads on a new queue with fewer than `2^63` claimed pushes, a call takes at most
five steps, two more for each ticket that another thread claims meanwhile from the counter it works on,
and two more for each of its exchanges that fails spuriously.  While it has not returned it has taken
fewer. -/
theorem call_steps_bounded (ι α : Type) [DecidableEq ι] (minCapacity : UInt64) (q : MpmcQueue α)
    (hq : MpmcQueue.new minCapacity = some q) (m m' : Machine ι α) (hm : (threads ι q).Reachable m)
    (call : QueueEvent ι α) (hcall : call.isCall = true) (trace : List (QueueEvent ι α))
    (hone : ∀ e ∈ trace, e.isCall = true → e.thread ≠ call.thread)
    (hrun : System.execute step m (call :: trace) = some m') (hsmall : m'.pushed.length < 2 ^ 63) :
    let claimed := m'.rivals call.thread call.isPopCall - m.rivals call.thread call.isPopCall
    let bound := 5 + 2 * claimed + 2 * trace.countP (ownFailure call.thread)
    trace.countP (ownStep call.thread) ≤ bound ∧
      (m'.pc call.thread ≠ .idle → trace.countP (ownStep call.thread) < bound) := by
  intro claimed bound
  obtain ⟨m₁, hfirst, hrest⟩ := Option.bind_eq_some_iff.mp hrun
  obtain ⟨hkind, hrank, hpushed, hpopped⟩ := rank_of_call hcall hfirst
  have hsmall₁ : m₁.pushed.length < 2 ^ 63 := by
    have hgrows : m₁.pushed.length ≤ m'.pushed.length :=
      System.execute_induction (P := fun n => m₁.pushed.length ≤ n.pushed.length) le_rfl
        (fun _ _ _ _ hle hstep => hle.trans (step_pushed_length hstep)) hrest
    omega
  have hinv : m₁.Inv := inv_of_reachable hq (.next hm hfirst) hsmall₁
  have hwork := (System.execute_amortised
    (P := fun n => n.Inv ∧ Pc.ofKind call.isPopCall (n.pc call.thread) = true)
    (Q := fun n => n.pushed.length < 2 ^ 63) (fun n => n.rank call.thread)
    (fun n => 2 * n.rivals call.thread call.isPopCall)
    (fun e => if ownStep call.thread e then 1 else 0)
    (fun e => if ownFailure call.thread e then 2 else 0) ?_ ?_ ⟨hinv, hkind⟩ hsmall hrest).2
  · rw [System.sum_map_ite, System.sum_map_ite, hrank] at hwork
    have hrivals : m₁.rivals call.thread call.isPopCall = m.rivals call.thread call.isPopCall := by
      rw [rivals, rivals, hpushed, hpopped]
    have hbusy : m'.pc call.thread ≠ .idle → 0 < m'.rank call.thread := fun hne =>
      Nat.pos_of_ne_zero fun hzero => hne (idle_of_rank_eq_zero hzero)
    rw [hrivals] at hwork
    refine ⟨by omega, fun hne => ?_⟩
    have := hbusy hne
    omega
  · rintro n e n' he ⟨hn, hnkind⟩ hnsmall hnstep
    obtain ⟨hnkind', hpaid⟩ := hn.rank_step hnstep (hone e he) hnkind
    exact ⟨⟨hn.step hnstep hnsmall, hnkind'⟩, hpaid⟩
  · intro n e n' hnstep hnsmall
    have := step_pushed_length hnstep
    omega

/-- A push that loads `head_` before another push claims that ticket: it misses the exchange, and takes
two steps more. -/
def overtaken : List (QueueEvent Bool Nat) :=
  .advance true false :: .callPush false 8 :: List.replicate 3 (.advance false false) ++
    List.replicate 6 (.advance true false)

theorem call_steps_bounded_overtaken :
    ∃ q m, MpmcQueue.new 2 = some q ∧
      System.execute step (start q) (.callPush true 7 :: overtaken) = some m ∧
      overtaken.countP (ownStep true) = 7 ∧ m.rivals true false = 1 ∧
      overtaken.countP (ownStep true) ≤ 5 + 2 * (m.rivals true false - 0) + 2 * 0 := by
  obtain ⟨q, hq⟩ := Option.isSome_iff_exists.mp
    (show (MpmcQueue.new 2 : Option (MpmcQueue Nat)).isSome = true from
      MpmcQueue.new_isSome (by decide))
  have hrun : ((MpmcQueue.new 2).bind fun q =>
      (System.execute step (start q) (.callPush true 7 :: overtaken)).map fun m =>
        (m.rivals true false, m.pushed.length)) = some (1, 2) := by decide +kernel
  rw [hq, Option.bind_some] at hrun
  obtain ⟨m, hm, heq⟩ := Option.map_eq_some_iff.mp hrun
  simp only [Prod.mk.injEq] at heq
  have hbound := call_steps_bounded Bool Nat 2 q hq (start q) m (.start rfl) (.callPush true 7) rfl
    overtaken (by decide) hm (by rw [heq.2]; decide)
  exact ⟨q, m, hq, hm, by decide, heq.1, hbound.1⟩

/-! ### All calls -/

/-- The steps that a call of one of `n` threads still takes at most, with the rounds of the others that
its claim will cost. -/
def weight (m : Machine ι α) (n : Nat) (i : ι) : Nat :=
  m.rank i + if (m.pc i).claiming then 2 * (n - 1) else 0

omit [DecidableEq ι] in
theorem weight_of_pc {n : Nat} {i : ι} (hpc : m'.pc i = m.pc i)
    (hhead : m'.queue.head = m.queue.head) (htail : m'.queue.tail = m.queue.tail) :
    m'.weight n i = m.weight n i := by
  rw [weight, weight, rank, rank, hpc, hhead, htail]

omit [DecidableEq ι] in
theorem weight_le_of_head {n : Nat} {i : ι} (hpc : m'.pc i = m.pc i)
    (htail : m'.queue.tail = m.queue.tail) : m'.weight n i ≤ m.weight n i + 2 := by
  have hrank := Pc.rank_head_le (m.pc i) m.queue.head m'.queue.head m.queue.tail
  rw [weight, weight, rank, rank, hpc, htail]
  split at hrank <;> omega

omit [DecidableEq ι] in
theorem weight_le_of_tail {n : Nat} {i : ι} (hpc : m'.pc i = m.pc i)
    (hhead : m'.queue.head = m.queue.head) : m'.weight n i ≤ m.weight n i + 2 := by
  have hrank := Pc.rank_tail_le (m.pc i) m.queue.head m.queue.tail m'.queue.tail
  rw [weight, weight, rank, rank, hpc, hhead]
  split at hrank <;> omega

/-- The claim of a ticket gives back what the other threads lose by it. -/
theorem weight_of_claim {S : Finset ι} {i : ι} (hi : i ∈ S) {spurious : Bool}
    (hrank : m'.rank i + 1 ≤ m.rank i + 2 * if spurious then 1 else 0)
    (hclaiming : (m.pc i).claiming = true) (hclaimed : (m'.pc i).claiming = false)
    (hothers : ∀ j, j ≠ i → m'.weight S.card j ≤ m.weight S.card j + 2) :
    (∑ j ∈ S, m'.weight S.card j) + 1 ≤
      (∑ j ∈ S, m.weight S.card j) + 2 * if spurious then 1 else 0 := by
  have hsum : ∑ j ∈ S.erase i, m'.weight S.card j ≤
      (∑ j ∈ S.erase i, m.weight S.card j) + 2 * (S.card - 1) :=
    calc ∑ j ∈ S.erase i, m'.weight S.card j
        ≤ ∑ j ∈ S.erase i, (m.weight S.card j + 2) :=
          Finset.sum_le_sum fun j hj => hothers j (Finset.ne_of_mem_erase hj)
      _ = (∑ j ∈ S.erase i, m.weight S.card j) + 2 * (S.card - 1) := by
          rw [Finset.sum_add_distrib, Finset.sum_const_nat fun _ _ => rfl, Finset.card_erase_of_mem hi,
            Nat.mul_comm]
  have hown : m'.weight S.card i = m'.rank i := by rw [weight, hclaimed]; simp
  have hown' : m.weight S.card i = m.rank i + 2 * (S.card - 1) := by rw [weight, hclaiming]; simp
  rw [← Finset.add_sum_erase S _ hi, ← Finset.add_sum_erase S _ hi, hown, hown']
  omega

/-- A step of one of the threads `S` lowers the weight of all of them, but for spurious failures. -/
theorem Inv.weight_advance (h : m.Inv) {S : Finset ι} {i : ι} (hi : i ∈ S) {spurious : Bool}
    (hstep : m.advance i spurious = some m') :
    (∑ j ∈ S, m'.weight S.card j) + 1 ≤
      (∑ j ∈ S, m.weight S.card j) + 2 * if spurious then 1 else 0 := by
  have hrank := h.rank_advance hstep
  cases elsewhere_of_advance hstep with
  | still hpc hhead htail hclaiming _ _ =>
    have hothers : ∑ j ∈ S.erase i, m'.weight S.card j = ∑ j ∈ S.erase i, m.weight S.card j :=
      Finset.sum_congr rfl fun j hj => weight_of_pc (hpc j (Finset.ne_of_mem_erase hj)) hhead htail
    have hown : m'.weight S.card i + m.rank i ≤ m.weight S.card i + m'.rank i := by
      unfold weight
      split <;> split <;> grind
    rw [← Finset.add_sum_erase S _ hi, ← Finset.add_sum_erase S _ hi, hothers]
    omega
  | push data pos hpc hm =>
    subst hm
    refine weight_of_claim hi hrank (by rw [hpc]; rfl) ?_ fun j hj => ?_
    · rw [claimPush_pc]
      rfl
    · exact weight_le_of_head (goto_pc_ne _ hj) rfl
  | pop pos hpc hm =>
    subst hm
    refine weight_of_claim hi hrank (by rw [hpc]; rfl) ?_ fun j hj => ?_
    · rw [claimPop_pc]
      rfl
    · exact weight_le_of_tail (goto_pc_ne _ hj) rfl

/-- A new call of one of the threads `S` has its steps and those its claim costs before it. -/
theorem weight_call {S : Finset ι} {i : ι} (hi : i ∈ S) {pc : Pc α} (hidle : m.pc i = .idle)
    (hrank : pc.rank m.queue.head m.queue.tail = 5) (hclaiming : pc.claiming = true) :
    ∑ j ∈ S, (m.goto i pc).weight S.card j = (∑ j ∈ S, m.weight S.card j) + (2 * S.card + 3) := by
  have hothers : ∑ j ∈ S.erase i, (m.goto i pc).weight S.card j =
      ∑ j ∈ S.erase i, m.weight S.card j :=
    Finset.sum_congr rfl fun j hj => weight_of_pc (goto_pc_ne _ (Finset.ne_of_mem_erase hj)) rfl rfl
  have hown : (m.goto i pc).weight S.card i = 5 + 2 * (S.card - 1) := by
    rw [weight, rank_goto, goto_pc_self, hrank, hclaiming]
    simp
  have hbefore : m.weight S.card i = 0 := by
    rw [weight, rank_of_pc hidle, hidle]
    rfl
  have hcard : 0 < S.card := Finset.card_pos.mpr ⟨i, hi⟩
  rw [← Finset.add_sum_erase S _ hi, ← Finset.add_sum_erase S _ hi, hothers, hown, hbefore]
  omega

/-- Every event of one of the threads `S` is paid for by the weights, by the call that it opens or by
its spurious failure. -/
theorem Inv.weight_step (h : m.Inv) {S : Finset ι} {e : QueueEvent ι α} (he : e.thread ∈ S)
    (hstep : m.step e = some m') :
    (∑ j ∈ S, m'.weight S.card j) + (if e.isStep then 1 else 0) ≤
      (∑ j ∈ S, m.weight S.card j) +
        ((if e.isCall then 2 * S.card + 3 else 0) + if e.isSpurious then 2 else 0) := by
  cases e with
  | callPush i data =>
    obtain ⟨hidle, rfl⟩ := step_callPush hstep
    exact (weight_call he hidle rfl rfl).le
  | callPop i =>
    obtain ⟨hidle, rfl⟩ := step_callPop hstep
    exact (weight_call he hidle rfl rfl).le
  | advance i spurious =>
    have hpaid := h.weight_advance he hstep
    cases spurious <;> simpa [QueueEvent.isStep, QueueEvent.isCall, QueueEvent.isSpurious] using hpaid

/-- In every run of the threads `S` on a new queue with fewer than `2^63` claimed pushes, all calls
together take at most `2n + 3` steps a call, `n` the number of threads, and two more for each exchange
that fails spuriously.  So calls that are in progress return, whatever the order of the steps. -/
theorem steps_amortised (ι α : Type) [DecidableEq ι] (minCapacity : UInt64) (q : MpmcQueue α)
    (hq : MpmcQueue.new minCapacity = some q) (S : Finset ι) (trace : List (QueueEvent ι α))
    (hthreads : ∀ e ∈ trace, e.thread ∈ S) (m : Machine ι α)
    (hrun : System.execute step (start q) trace = some m) (hsmall : m.pushed.length < 2 ^ 63) :
    let bound := (2 * S.card + 3) * trace.countP QueueEvent.isCall +
      2 * trace.countP QueueEvent.isSpurious
    trace.countP QueueEvent.isStep ≤ bound ∧
      ((∃ i, m.pc i ≠ .idle) → trace.countP QueueEvent.isStep < bound) := by
  intro bound
  have hrule := System.execute_amortised (P := fun n => n.Inv ∧ ∀ i, i ∉ S → n.pc i = .idle)
    (Q := fun n => n.pushed.length < 2 ^ 63) (fun n => ∑ j ∈ S, n.weight S.card j) (fun _ => 0)
    (fun e => if e.isStep then 1 else 0)
    (fun e => (if e.isCall then 2 * S.card + 3 else 0) + if e.isSpurious then 2 else 0)
    ?_ ?_ ⟨inv_start hq, fun _ _ => rfl⟩ hsmall hrun
  · obtain ⟨⟨-, houtside⟩, hpaid⟩ := hrule
    have hstart : ∑ j ∈ S, (start q : Machine ι α).weight S.card j = 0 :=
      Finset.sum_eq_zero fun _ _ => rfl
    rw [hstart, System.sum_map_ite, List.sum_map_add, System.sum_map_ite, System.sum_map_ite]
      at hpaid
    refine ⟨by omega, fun ⟨i, hi⟩ => ?_⟩
    have hmem : i ∈ S := by
      by_contra hout
      exact hi (houtside i hout)
    have hpos : 0 < m.rank i := Nat.pos_of_ne_zero fun hzero => hi (idle_of_rank_eq_zero hzero)
    have hle : m.rank i ≤ ∑ j ∈ S, m.weight S.card j :=
      (Nat.le_add_right _ _).trans (Finset.single_le_sum (f := m.weight S.card)
        (fun _ _ => Nat.zero_le _) hmem)
    omega
  · rintro n e n' he ⟨hn, hidle⟩ hnsmall hnstep
    refine ⟨⟨hn.step hnstep hnsmall, fun i hi => ?_⟩, ?_⟩
    · have hne : i ≠ e.thread := fun heq => hi (heq ▸ hthreads e he)
      rw [step_pc_ne hnstep hne, hidle i hi]
    · have := hn.weight_step (hthreads e he) hnstep
      omega
  · intro n e n' hnstep hnsmall
    have := step_pushed_length hnstep
    omega

theorem steps_amortised_overtaken :
    ∃ q m, MpmcQueue.new 2 = some q ∧
      System.execute step (start q) (.callPush true 7 :: overtaken) = some m ∧
      (QueueEvent.callPush true 7 :: overtaken).countP QueueEvent.isStep = 10 ∧
      (QueueEvent.callPush true 7 :: overtaken).countP QueueEvent.isStep < 7 * 2 + 2 * 0 := by
  obtain ⟨q, hq⟩ := Option.isSome_iff_exists.mp
    (show (MpmcQueue.new 2 : Option (MpmcQueue Nat)).isSome = true from
      MpmcQueue.new_isSome (by decide))
  have hrun : ((MpmcQueue.new 2).bind fun q =>
      (System.execute step (start q) (.callPush true 7 :: overtaken)).map fun m =>
        (m.pc false, m.pushed.length)) = some (.pushWrite 8 0, 2) := by decide +kernel
  rw [hq, Option.bind_some] at hrun
  obtain ⟨m, hm, heq⟩ := Option.map_eq_some_iff.mp hrun
  simp only [Prod.mk.injEq] at heq
  have hbound := steps_amortised Bool Nat 2 q hq {true, false} (.callPush true 7 :: overtaken)
    (by decide) m hm (by rw [heq.2]; decide)
  exact ⟨q, m, hq, hm, by decide, hbound.2 ⟨false, by rw [heq.1]; nofun⟩⟩

end Machine

end LibE3
