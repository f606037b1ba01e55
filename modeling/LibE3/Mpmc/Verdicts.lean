import LibE3.Mpmc.Fifo

/-! When `try_push` and `try_pop` return false.  A call reads the sequence of a slot for a position that
it loaded earlier.  The generation of the slot says what a negative difference can mean: the ring is
full, or empty, or a thread of the other kind is between its claim and its store.  A position that is
stale by `2^63` also leaves a negative difference, but then other threads have popped in the
meantime. -/

namespace LibE3

/-- The pcs of a call of `try_push`. -/
def Pc.isPush {α : Type} : Pc α → Bool
  | .pushLoad _ | .pushSeq _ _ | .pushCas _ _ | .pushWrite _ _ | .pushStore _ => true
  | _ => false

/-- The pcs of a call of `try_pop`. -/
def Pc.isPop {α : Type} : Pc α → Bool
  | .popLoad | .popSeq _ | .popCas _ | .popRead _ | .popStore _ _ => true
  | _ => false

/-- What the call returns whose next step is its last: the loop gives up after the load of a sequence,
and a call that has claimed a ticket ends with its store. -/
def Pc.returns {α : Type} : Pc α → Option Bool
  | .pushSeq _ _ | .popSeq _ => some false
  | .pushStore _ | .popStore _ _ => some true
  | _ => none

namespace Machine

open Transition

variable {ι α : Type}

/-- `head_ - tail_ = capacity_`. -/
def Full (m : Machine ι α) : Prop := m.queue.head - m.queue.tail = m.queue.capacity

/-- Some `try_pop` has claimed its ticket and has not stored the new sequence of its slot. -/
def PopClaimed (m : Machine ι α) : Prop :=
  ∃ j pos, m.pc j = .popRead pos ∨ ∃ data, m.pc j = .popStore pos data

def Empty (m : Machine ι α) : Prop := m.queue.head = m.queue.tail

/-- The push that claimed the oldest ticket that no pop has claimed has not published it. -/
def PushUnpublished (m : Machine ι α) : Prop :=
  ∃ j, m.pc j = .pushStore m.queue.tail ∨ ∃ data, m.pc j = .pushWrite data m.queue.tail

/-! ### The instant of the verdict -/

/-- A sequence that is not ahead by `2^63` and leaves a negative difference is behind. -/
theorem toNat_lt_of_diff_neg {seq pos : UInt64} (h : seq.toInt64 - pos.toInt64 < 0)
    (hnear : seq.toNat < pos.toNat + 2 ^ 63) : seq.toNat < pos.toNat := by
  by_contra hge
  have hseq : seq = pos + UInt64.ofNat (seq.toNat - pos.toNat) := by
    rw [← UInt64.toNat_inj, UInt64.toNat_add, UInt64.toNat_ofNat']
    have := seq.toNat_lt
    omega
  have hdiff : seq.toInt64 - pos.toInt64 = Int64.ofNat (seq.toNat - pos.toNat) := by
    rw [Int64.sub_eq_iff_eq_add, Int64.add_comm, ← UInt64.toInt64_ofNat', ← UInt64.toInt64_add,
      ← hseq]
  rw [hdiff, Int64.lt_iff_toInt_lt, Int64.toInt_ofNat_of_lt (by omega)] at h
  simp only [Int64.toInt_zero] at h
  omega

theorem Inv.full_iff {m : Machine ι α} (h : m.Inv) :
    m.Full ↔ m.pushed.length = m.popped.length + m.queue.capacity.toNat := by
  have hle : m.queue.tail ≤ m.queue.head := by
    rw [UInt64.le_iff_toNat_le, h.head, h.tail]
    exact h.le
  have hlens := h.le
  rw [Full, ← UInt64.toNat_inj, UInt64.toNat_sub_of_le _ _ hle, h.head, h.tail]
  omega

theorem Inv.empty_iff {m : Machine ι α} (h : m.Inv) :
    m.Empty ↔ m.pushed.length = m.popped.length := by
  rw [Empty, ← UInt64.toNat_inj, h.head, h.tail]

/-- A ticket of the slot that comes before another is at least a round before it. -/
theorem add_le_of_mod_eq {c p q : Nat} (h : p % c = q % c) (hlt : p < q) : p + c ≤ q := by
  by_contra hnot
  have := eq_of_mod_eq h (by omega) (by omega)
  omega

/-- A push that gives up over a position that no pop has passed finds the ring full or a pop on the
slot. -/
theorem Inv.full_of_refused {m : Machine ι α} (h : m.Inv) {pos : UInt64}
    (hhead : pos.toNat ≤ m.pushed.length) (htail : m.popped.length ≤ pos.toNat)
    (hneg : (m.queue.slot pos).sequence.toInt64 - pos.toInt64 < 0) : m.Full ∨ m.PopClaimed := by
  have hsmall := h.small
  have hcap := h.sized.capacity_le
  obtain ⟨p, hmod, hgen⟩ := h.generation pos
  cases hgen with
  | free hseq hlo hhi =>
    have := toNat_lt_of_diff_neg hneg (by omega)
    omega
  | writing j t ht hseq hlo hhi hpc =>
    -- The slot still serves a ticket of the round before.
    have hlt := toNat_lt_of_diff_neg hneg (by omega)
    have hround := add_le_of_mod_eq hmod (by omega)
    have hbound := h.bound
    exact .inl (h.full_iff.mpr (by omega))
  | full t j data hseq hlo hhi hpush hdata =>
    have hlt := toNat_lt_of_diff_neg hneg (by omega)
    have hround := add_le_of_mod_eq hmod (by omega)
    have hbound := h.bound
    exact .inl (h.full_iff.mpr (by omega))
  | reading j t ht hseq hlo hhi hpc => exact .inr ⟨j, t, hpc⟩

/-- A pop that gives up finds the ring empty or a push on the slot of the oldest ticket. -/
theorem Inv.empty_of_refused {m : Machine ι α} (h : m.Inv) {pos : UInt64}
    (htail : pos.toNat ≤ m.popped.length)
    (hneg : (m.queue.slot pos).sequence.toInt64 - (pos + 1).toInt64 < 0) :
    m.Empty ∨ m.PushUnpublished := by
  have hsmall := h.small
  have hle := h.le
  have hsucc : (pos + 1).toNat = pos.toNat + 1 := h.toNat_succ (by omega)
  obtain ⟨p, hmod, hgen⟩ := h.generation pos
  cases hgen with
  | free hseq hlo hhi =>
    have hnear : p < pos.toNat + 1 + 2 ^ 63 := by
      -- The capacity divides `2^63`, so the next ticket of the slot is a whole round further.
      by_contra hfar
      obtain ⟨k, -, hk63, hk⟩ := h.sized.pow
      have hdvd : m.queue.capacity.toNat ∣ p - pos.toNat - 2 ^ 63 := by
        refine Nat.dvd_sub (Nat.dvd_of_mod_eq_zero (Nat.sub_mod_eq_zero_of_mod_eq hmod)) ?_
        rw [hk]
        exact Nat.pow_dvd_pow 2 hk63
      have hround := Nat.le_of_dvd (by omega) hdvd
      omega
    have hlt := toNat_lt_of_diff_neg hneg (by omega)
    exact .inl (h.empty_iff.mpr (by omega))
  | writing j t ht hseq hlo hhi hpc =>
    have hlt := toNat_lt_of_diff_neg hneg (by omega)
    have heq : t = m.queue.tail := by
      rw [← UInt64.toNat_inj, h.tail]
      omega
    exact .inr ⟨j, heq ▸ hpc⟩
  | full t j data hseq hlo hhi hpush hdata =>
    have hlt := toNat_lt_of_diff_neg hneg (by omega)
    omega
  | reading j t ht hseq hlo hhi hpc =>
    have hlt := toNat_lt_of_diff_neg hneg (by omega)
    have hround := add_le_of_mod_eq hmod (by omega)
    exact .inl (h.empty_iff.mpr (by omega))

/-! ### The steps of a call -/

variable [DecidableEq ι] {m m' : Machine ι α}

/-- From `pc` a call may go to `pc'`: it ends or goes on as a call of its kind, and a position that a
push loads is `head_`. -/
def Goes (m : Machine ι α) (pc pc' : Pc α) : Prop :=
  pc' = .idle ∨ (pc'.isPush = pc.isPush ∧ pc'.isPop = pc.isPop ∧
    ∀ data pos, pc' = .pushSeq data pos → pos = m.queue.head)

/-- What a step of thread `i` does to the program counters and the claimed pops. -/
structure Stepped (m m' : Machine ι α) (i : ι) : Prop where
  own : m.Goes (m.pc i) (m'.pc i)
  others : ∀ j, j ≠ i → m'.pc j = m.pc j
  popped : m'.popped = m.popped ∨ m'.PopClaimed

theorem stepped {i : ι} {pc pc' : Pc α} (hi : m.pc i = pc) (hpc : m'.pc = Function.update m.pc i pc')
    (hown : m.Goes pc pc') (hpopped : m'.popped = m.popped ∨ m'.PopClaimed) :
    m.Stepped m' i := by
  refine ⟨?_, fun j hj => ?_, hpopped⟩
  · rw [hi, hpc, Function.update_self]
    exact hown
  · rw [hpc, Function.update_of_ne hj]

theorem stepped_of_advance {i : ι} {spurious : Bool} (h : m.advance i spurious = some m') :
    m.Stepped m' i := by
  cases advances_of_advance h with
  | loadHead data hpc | missPush data pos hpc =>
    exact stepped hpc rfl (.inr ⟨rfl, rfl, fun _ _ heq => (Pc.pushSeq.inj heq).2.symm⟩) (.inl rfl)
  | refusePush data pos hpc | publish pos hpc | refusePop pos hpc | recycle pos r hpc =>
    exact stepped hpc rfl (.inl rfl) (.inl rfl)
  | freeSlot data pos hpc | retryPush data pos hpc | claimPush data pos hpc
  | writeData data pos hpc | loadTail hpc | fullSlot pos hpc | retryPop pos hpc
  | missPop pos hpc | takeData pos hpc =>
    exact stepped hpc rfl (.inr ⟨rfl, rfl, nofun⟩) (.inl rfl)
  | claimPop pos hpc =>
    -- The exchange on `tail_` leaves a pop with a claimed ticket.
    exact stepped hpc rfl (.inr ⟨rfl, rfl, nofun⟩) (.inr ⟨i, pos, .inl (goto_pc_self _ _)⟩)

/-- Every step leaves the claimed pops, or leaves a pop between its claim and its store. -/
theorem step_popped {e : QueueEvent ι α} (h : m.step e = some m') :
    m'.popped = m.popped ∨ m'.PopClaimed := by
  cases e with
  | callPush i data =>
    obtain ⟨-, rfl⟩ := step_callPush h
    exact .inl rfl
  | callPop i =>
    obtain ⟨-, rfl⟩ := step_callPop h
    exact .inl rfl
  | advance i spurious => exact (stepped_of_advance h).popped

/-- Every step leaves the pc of a thread whose call is in progress, or is a step of the call. -/
theorem step_busy {e : QueueEvent ι α} {i : ι} (h : m.step e = some m') (hi : m.pc i ≠ .idle) :
    m'.pc i = m.pc i ∨ m.Goes (m.pc i) (m'.pc i) := by
  cases e with
  | callPush j data =>
    obtain ⟨hj, rfl⟩ := step_callPush h
    exact .inl (goto_pc_ne _ fun hij => hi (hij ▸ hj))
  | callPop j =>
    obtain ⟨hj, rfl⟩ := step_callPop h
    exact .inl (goto_pc_ne _ fun hij => hi (hij ▸ hj))
  | advance j spurious =>
    have hstep := stepped_of_advance h
    by_cases hij : i = j
    · subst hij
      exact .inr hstep.own
    · exact .inl (hstep.others i hij)

/-- A call of thread `i` in a run of the threads on `q`: `opening` makes it, it is in progress in the
states `instants`, and its step from the last of them, `last`, ends it with `result`. -/
inductive Call (q : MpmcQueue α) (i : ι) (opening : QueueEvent ι α)
    (instants : List (Machine ι α)) (last : Machine ι α) (result : Bool) : Prop
  | mk {before first after : Machine ι α} {spurious : Bool}
      (hbefore : (threads ι q).Reachable before) (hopening : before.step opening = some first)
      (hspan : System.Interval step (fun m => m.pc i ≠ .idle) first instants last)
      (hend : last.step (.advance i spurious) = some after) (hidle : after.pc i = .idle)
      (hresult : (last.pc i).returns = some result)

section Span

variable {minCapacity : UInt64} {q : MpmcQueue α} (hq : MpmcQueue.new minCapacity = some q) {i : ι}
  {first last : Machine ι α} {instants : List (Machine ι α)}
  (hfirst : (threads ι q).Reachable first)
  (hspan : System.Interval step (fun m : Machine ι α => m.pc i ≠ .idle) first instants last)
  (hsmall : last.pushed.length < 2 ^ 63)

include hq hfirst hspan hsmall

theorem inv_of_span : ∀ m ∈ instants, m.Inv := by
  intro m hm
  have hle := hspan.le_last (f := fun m => m.pushed.length)
    (fun _ _ _ hstep => step_pushed_length hstep) m hm
  exact inv_of_reachable hq (hspan.reachable hfirst m hm) (by omega)

end Span

/-- While no pop is between its claim and its store, no pop is claimed, so every position that a push
loads is at or past `tail_`. -/
theorem push_of_span {q : MpmcQueue α} {minCapacity : UInt64} (hq : MpmcQueue.new minCapacity = some q)
    {i : ι} {first last : Machine ι α} {instants : List (Machine ι α)}
    (hfirst : (threads ι q).Reachable first) (hload : ∃ data, first.pc i = .pushLoad data)
    (hspan : System.Interval step (fun m : Machine ι α => m.pc i ≠ .idle) first instants last)
    (hsmall : last.pushed.length < 2 ^ 63) (hnone : ∀ m ∈ instants, ¬m.PopClaimed) :
    ∀ data pos, last.pc i = .pushSeq data pos → last.popped.length ≤ pos.toNat := by
  have hinv := inv_of_span hq hfirst hspan hsmall
  have hlast : last.popped = first.popped ∧
      ∀ data pos, last.pc i = .pushSeq data pos → first.popped.length ≤ pos.toNat := by
    refine hspan.induction (Q := fun m => m.popped = first.popped ∧
      ∀ data pos, m.pc i = .pushSeq data pos → first.popped.length ≤ pos.toNat) ⟨rfl, ?_⟩ ?_
    · obtain ⟨data, hdata⟩ := hload
      rw [hdata]
      nofun
    · rintro a e b ha hb hstep ⟨hpopped, hpos⟩
      refine ⟨((step_popped hstep).resolve_right (hnone b hb)).trans hpopped, ?_⟩
      intro data pos hseq
      rcases step_busy hstep (hspan.holds a ha) with hsame | hidle | ⟨-, -, hhead⟩
      · exact hpos data pos (hsame ▸ hseq)
      · exact absurd hidle (hspan.holds b hb)
      · have hle := (hinv a ha).le
        rw [hhead data pos hseq, (hinv a ha).head, ← hpopped]
        exact hle
  rw [hlast.1]
  exact hlast.2

/-- A call stays a call of its kind to its end. -/
theorem kind_of_span {i : ι} {first last : Machine ι α} {instants : List (Machine ι α)}
    (hspan : System.Interval step (fun m : Machine ι α => m.pc i ≠ .idle) first instants last) :
    (last.pc i).isPush = (first.pc i).isPush ∧ (last.pc i).isPop = (first.pc i).isPop := by
  refine hspan.induction (Q := fun m => (m.pc i).isPush = (first.pc i).isPush ∧
    (m.pc i).isPop = (first.pc i).isPop) ⟨rfl, rfl⟩ ?_
  rintro a e b ha hb hstep ⟨hpush, hpop⟩
  rcases step_busy hstep (hspan.holds a ha) with hsame | hidle | ⟨hpush', hpop', -⟩
  · rw [hsame]
    exact ⟨hpush, hpop⟩
  · exact absurd hidle (hspan.holds b hb)
  · exact ⟨hpush'.trans hpush, hpop'.trans hpop⟩

/-- A call that ends after its load of a sequence found a negative difference. -/
theorem diff_neg_of_idle {i : ι} {diff : Int64} {pc pc' : Pc α}
    (h : (if diff = 0 then some (m.goto i pc)
      else if diff < 0 then some (m.goto i .idle) else some (m.goto i pc')) = some m')
    (hidle : m'.pc i = .idle) (hpc : pc ≠ .idle) (hpc' : pc' ≠ .idle) : diff < 0 := by
  split at h
  · cases h
    rw [goto_pc_self] at hidle
    exact absurd hidle hpc
  split at h
  · assumption
  · cases h
    rw [goto_pc_self] at hidle
    exact absurd hidle hpc'

/-- A push that returns false read a sequence that leaves a negative difference. -/
theorem push_refused {i : ι} {spurious : Bool} (hpush : (m.pc i).isPush = true)
    (hresult : (m.pc i).returns = some false) (hend : m.advance i spurious = some m')
    (hidle : m'.pc i = .idle) :
    ∃ data pos, m.pc i = .pushSeq data pos ∧
      (m.queue.slot pos).sequence.toInt64 - pos.toInt64 < 0 := by
  cases hpc : m.pc i with
  | pushSeq data pos =>
    refine ⟨data, pos, rfl, ?_⟩
    unfold advance at hend
    rw [hpc] at hend
    exact diff_neg_of_idle hend hidle (by rintro ⟨⟩) (by rintro ⟨⟩)
  | popSeq pos =>
    rw [hpc] at hpush
    cases hpush
  | _ =>
    rw [hpc] at hresult
    cases hresult

/-- A pop that returns false read a sequence that leaves a negative difference. -/
theorem pop_refused {i : ι} {spurious : Bool} (hpop : (m.pc i).isPop = true)
    (hresult : (m.pc i).returns = some false) (hend : m.advance i spurious = some m')
    (hidle : m'.pc i = .idle) :
    ∃ pos, m.pc i = .popSeq pos ∧
      (m.queue.slot pos).sequence.toInt64 - (pos + 1).toInt64 < 0 := by
  cases hpc : m.pc i with
  | popSeq pos =>
    refine ⟨pos, rfl, ?_⟩
    unfold advance at hend
    rw [hpc] at hend
    exact diff_neg_of_idle hend hidle (by rintro ⟨⟩) (by rintro ⟨⟩)
  | pushSeq data pos =>
    rw [hpc] at hpop
    cases hpop
  | _ =>
    rw [hpc] at hresult
    cases hresult

omit [DecidableEq ι] in
theorem not_popClaimed (h : ∀ j, (m.pc j).isPop = false) : ¬m.PopClaimed := by
  rintro ⟨j, pos, hj | ⟨data, hj⟩⟩ <;> have hnot := h j <;> rw [hj] at hnot <;> cases hnot

omit [DecidableEq ι] in
theorem not_pushUnpublished (h : ∀ j, (m.pc j).isPush = false) : ¬m.PushUnpublished := by
  rintro ⟨j, hj | ⟨data, hj⟩⟩ <;> have hnot := h j <;> rw [hj] at hnot <;> cases hnot

/-- A push that returns false, with no pop in flight at any instant of the call, decides in a full
ring; and there is always an instant of the call that is full or has a pop in flight. -/
theorem full_of_call {minCapacity : UInt64} {q : MpmcQueue α}
    (hq : MpmcQueue.new minCapacity = some q) {i : ι} {data : α} {instants : List (Machine ι α)}
    {last : Machine ι α} (hcall : Call q i (.callPush i data) instants last false)
    (hsmall : last.pushed.length < 2 ^ 63) (hnone : ∀ m ∈ instants, ¬m.PopClaimed) : last.Full := by
  obtain ⟨hbefore, hopening, hspan, hend, hidle, hresult⟩ := hcall
  obtain ⟨-, rfl⟩ := step_callPush hopening
  have hfirst := System.Reachable.next hbefore hopening
  have hinv := inv_of_span hq hfirst hspan hsmall _ hspan.last_mem
  have hpush : (last.pc i).isPush = true := by
    rw [(kind_of_span hspan).1, goto_pc_self]
    rfl
  obtain ⟨x, pos, hpc, hneg⟩ := push_refused hpush hresult hend hidle
  have htail := push_of_span hq hfirst ⟨data, goto_pc_self i _⟩ hspan hsmall hnone x pos hpc
  have hhead : pos.toNat ≤ last.pushed.length := hinv.holds hpc
  exact (hinv.full_of_refused hhead htail hneg).resolve_right (hnone _ hspan.last_mem)

/-- A pop that returns false decides in an empty ring, or while the push of the oldest ticket has not
published it. -/
theorem empty_of_call {minCapacity : UInt64} {q : MpmcQueue α}
    (hq : MpmcQueue.new minCapacity = some q) {i : ι} {instants : List (Machine ι α)}
    {last : Machine ι α} (hcall : Call q i (.callPop i) instants last false)
    (hsmall : last.pushed.length < 2 ^ 63) :
    last ∈ instants ∧ (last.Empty ∨ last.PushUnpublished) := by
  obtain ⟨hbefore, hopening, hspan, hend, hidle, hresult⟩ := hcall
  obtain ⟨-, rfl⟩ := step_callPop hopening
  have hfirst := System.Reachable.next hbefore hopening
  have hinv := inv_of_span hq hfirst hspan hsmall _ hspan.last_mem
  have hpop : (last.pc i).isPop = true := by
    rw [(kind_of_span hspan).2, goto_pc_self]
    rfl
  obtain ⟨pos, hpc, hneg⟩ := pop_refused hpop hresult hend hidle
  have htail : pos.toNat ≤ last.popped.length := hinv.holds hpc
  exact ⟨hspan.last_mem, hinv.empty_of_refused htail hneg⟩

theorem last_mem_of_call {q : MpmcQueue α} {i : ι} {opening : QueueEvent ι α}
    {instants : List (Machine ι α)} {last : Machine ι α} {result : Bool}
    (h : Call q i opening instants last result) : last ∈ instants := by
  obtain ⟨-, -, hspan, -, -, -⟩ := h
  exact hspan.last_mem

/-- The verdicts of the queue are justified in every interleaving of any number of threads with fewer
than `2^63` pushes.  A push that returns false has an instant at which the ring is full or a pop has
claimed its ticket and not stored the slot's sequence; a pop that returns false has one at which the
ring is empty or the push of the oldest ticket has not published it.  With no operation of the other
kind in flight, the ring is full, or empty, when the call decides. -/
theorem verdicts_justified (ι α : Type) [DecidableEq ι] (minCapacity : UInt64) (q : MpmcQueue α)
    (hq : MpmcQueue.new minCapacity = some q) :
    (∀ (i : ι) data instants last, Call q i (.callPush i data) instants last false →
      last.pushed.length < 2 ^ 63 →
      (∃ m ∈ instants, m.Full ∨ m.PopClaimed) ∧
      ((∀ m ∈ instants, ∀ j, (m.pc j).isPop = false) → last ∈ instants ∧ last.Full)) ∧
    ∀ (i : ι) instants last, Call q i (.callPop i) instants last false →
      last.pushed.length < 2 ^ 63 →
      (∃ m ∈ instants, m.Empty ∨ m.PushUnpublished) ∧
      ((∀ m ∈ instants, ∀ j, (m.pc j).isPush = false) → last ∈ instants ∧ last.Empty) := by
  refine ⟨fun i data instants last hcall hsmall => ⟨?_, fun hnone => ?_⟩,
    fun i instants last hcall hsmall => ⟨?_, fun hnone => ?_⟩⟩
  · by_cases hpop : ∃ m ∈ instants, m.PopClaimed
    · obtain ⟨m, hm, hpop⟩ := hpop
      exact ⟨m, hm, .inr hpop⟩
    · have hnone : ∀ m ∈ instants, ¬m.PopClaimed := fun m hm hm' => hpop ⟨m, hm, hm'⟩
      exact ⟨last, last_mem_of_call hcall, .inl (full_of_call hq hcall hsmall hnone)⟩
  · have hclaimed : ∀ m ∈ instants, ¬m.PopClaimed := fun m hm => not_popClaimed (hnone m hm)
    exact ⟨last_mem_of_call hcall, full_of_call hq hcall hsmall hclaimed⟩
  · obtain ⟨hmem, hverdict⟩ := empty_of_call hq hcall hsmall
    exact ⟨last, hmem, hverdict⟩
  · obtain ⟨hmem, hverdict⟩ := empty_of_call hq hcall hsmall
    exact ⟨hmem, hverdict.resolve_right (not_pushUnpublished (hnone last hmem))⟩

/-- A call that is not disturbed, and ends after it has loaded a position and a sequence. -/
theorem call_of_refused {q : MpmcQueue α} (hm : (threads ι q).Reachable m) {i : ι}
    {opening : QueueEvent ι α} {pc pc' : Pc α} (hopening : m.step opening = some (m.goto i pc))
    (hload : (m.goto i pc).step (.advance i false) = some (m.goto i pc'))
    (hrefused : (m.goto i pc').step (.advance i false) = some (m.goto i .idle)) (hpc : pc ≠ .idle)
    (hresult : pc'.returns = some false) :
    Call q i opening [m.goto i pc, m.goto i pc'] (m.goto i pc') false := by
  refine .mk hm hopening (.next ?_ hload (.last ?_)) hrefused (goto_pc_self _ _) ?_
  · rw [goto_pc_self]
    exact hpc
  · rw [goto_pc_self]
    rintro rfl
    cases hresult
  · rw [goto_pc_self]
    exact hresult

/-- A thread that calls `try_push` and is not disturbed is refused over a sequence behind `head_`. -/
theorem call_push {q : MpmcQueue α} (hm : (threads ι q).Reachable m) {i : ι} (data : α)
    (hidle : m.pc i = .idle)
    (hneg : (m.queue.slot m.queue.head).sequence.toInt64 - m.queue.head.toInt64 < 0) :
    Call q i (.callPush i data) [m.goto i (.pushLoad data), m.goto i (.pushSeq data m.queue.head)]
      (m.goto i (.pushSeq data m.queue.head)) false := by
  have hload : (m.goto i (.pushLoad data)).step (.advance i false) =
      some (m.goto i (.pushSeq data m.queue.head)) := by
    simp only [step, advance, goto_pc_self, goto_goto]
    rfl
  have hrefused : (m.goto i (.pushSeq data m.queue.head)).step (.advance i false) =
      some (m.goto i .idle) := by
    simp only [step, advance, goto_pc_self, goto_goto]
    exact (if_neg (Int64.ne_of_lt hneg)).trans (if_pos hneg)
  exact call_of_refused hm (by simp only [step, hidle]) hload hrefused (by rintro ⟨⟩) rfl

/-- A thread that calls `try_pop` and is not disturbed is refused over a sequence that is not past
`tail_`. -/
theorem call_pop {q : MpmcQueue α} (hm : (threads ι q).Reachable m) {i : ι} (hidle : m.pc i = .idle)
    (hneg : (m.queue.slot m.queue.tail).sequence.toInt64 - (m.queue.tail + 1).toInt64 < 0) :
    Call q i (.callPop i) [m.goto i .popLoad, m.goto i (.popSeq m.queue.tail)]
      (m.goto i (.popSeq m.queue.tail)) false := by
  have hload : (m.goto i .popLoad).step (.advance i false) =
      some (m.goto i (.popSeq m.queue.tail)) := by
    simp only [step, advance, goto_pc_self, goto_goto]
    rfl
  have hrefused : (m.goto i (.popSeq m.queue.tail)).step (.advance i false) =
      some (m.goto i .idle) := by
    simp only [step, advance, goto_pc_self, goto_goto]
    exact (if_neg (Int64.ne_of_lt hneg)).trans (if_pos hneg)
  exact call_of_refused hm (by simp only [step, hidle]) hload hrefused (by rintro ⟨⟩) rfl

/-- With every other thread idle, what holds of an idle thread and of thread `i` holds of all. -/
theorem idle_or_goto (hidle : ∀ j, m.pc j = .idle) {i : ι} {pc : Pc α} {kind : Pc α → Bool}
    (hnone : kind .idle = false) (hpc : kind pc = false) (j : ι) :
    kind ((m.goto i pc).pc j) = false := by
  by_cases hji : j = i
  · rw [hji, goto_pc_self]
    exact hpc
  · rw [goto_pc_ne _ hji, hidle]
    exact hnone

/-- One thread fills a ring of two slots. -/
def filled : List (QueueEvent Bool Nat) :=
  .callPush true 1 :: List.replicate 5 (.advance true false) ++
    .callPush true 2 :: List.replicate 5 (.advance true false)

/-- A push of another thread into the full ring is refused, as is a pop from the new one. -/
theorem verdicts_justified_filled :
    ∃ q instants last, MpmcQueue.new 2 = some q ∧
      Call q false (.callPush false (3 : Nat)) instants last false ∧ last.Full ∧
      ∃ instants' last', Call q false (.callPop false) instants' last' false ∧ last'.Empty := by
  obtain ⟨q, hq⟩ := Option.isSome_iff_exists.mp
    (show (MpmcQueue.new 2 : Option (MpmcQueue Nat)).isSome = true from
      MpmcQueue.new_isSome (by decide))
  have hrun : ((MpmcQueue.new 2).bind fun q =>
      (System.execute step (start q) filled).map fun m =>
        ((m.pc true, m.pc false), m.queue.head, (m.queue.slot m.queue.head).sequence,
          m.pushed.length)) = some ((.idle, .idle), 2, 1, 2) := by decide +kernel
  have hnew : ((MpmcQueue.new 2 : Option (MpmcQueue Nat)).map fun q =>
      (q.slot q.tail).sequence.toInt64 - (q.tail + 1).toInt64) = some (-1) := by decide +kernel
  rw [hq, Option.bind_some] at hrun
  rw [hq, Option.map_some, Option.some.injEq] at hnew
  obtain ⟨m, hm, heq⟩ := Option.map_eq_some_iff.mp hrun
  simp only [Prod.mk.injEq] at heq
  obtain ⟨⟨htrue, hfalse⟩, hhead, hseq, hpushed⟩ := heq
  have hidle : ∀ j, m.pc j = .idle := Bool.forall_bool.mpr ⟨hfalse, htrue⟩
  have hneg : (m.queue.slot m.queue.head).sequence.toInt64 - m.queue.head.toInt64 < 0 := by
    rw [hseq, hhead]
    decide
  have hneg' : (q.slot q.tail).sequence.toInt64 - (q.tail + 1).toInt64 < 0 := by
    rw [hnew]
    decide
  have hcall := call_push (System.reachable_of_execute _ hm) 3 hfalse hneg
  have hcall' : Call q false (.callPop false) _ _ false :=
    call_pop (m := start q) (.start rfl) rfl hneg'
  obtain ⟨hpush, hpop⟩ := verdicts_justified Bool Nat 2 q hq
  refine ⟨q, _, _, hq, hcall, ?_, _, _, hcall', ?_⟩
  · refine ((hpush false 3 _ _ hcall (lt_of_eq_of_lt hpushed (by decide))).2 ?_).2
    intro n hn j
    simp only [List.mem_cons, List.not_mem_nil, or_false] at hn
    rcases hn with rfl | rfl <;> exact idle_or_goto hidle rfl rfl j
  · refine ((hpop false _ _ hcall' (Nat.two_pow_pos 63)).2 ?_).2
    intro n hn j
    simp only [List.mem_cons, List.not_mem_nil, or_false] at hn
    rcases hn with rfl | rfl <;> exact idle_or_goto (fun _ => rfl) rfl rfl j

end Machine

end LibE3
