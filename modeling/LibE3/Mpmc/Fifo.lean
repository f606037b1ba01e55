import LibE3.Mpmc.Steps
import Mathlib.Data.List.Nodup

/-! Every interleaving of the threads keeps the invariant, and what follows from it: the counters
stay within a capacity of each other, every ticket is claimed once on each side, a slot is written by
one thread at a time, and the `k`-th claimed pop returns the value of the `k`-th claimed push. -/

namespace LibE3

/-- The position of the slot whose `data` the next step of a thread writes. -/
def Pc.writesData {α : Type} : Pc α → Option UInt64
  | .pushWrite _ pos => some pos
  | .popRead pos => some pos
  | _ => none

/-- The ticket of a thread between its exchange on `tail_` and its sequence store. -/
def Pc.pops {α : Type} : Pc α → Option UInt64
  | .popRead pos => some pos
  | .popStore pos _ => some pos
  | _ => none

theorem Pc.ticket_of_writesData {α : Type} {pc : Pc α} {pos : UInt64} (h : pc.writesData = some pos) :
    pc.ticket = some pos := by
  cases pc <;> first | exact h | cases h

theorem Pc.ticket_of_pops {α : Type} {pc : Pc α} {pos : UInt64} (h : pc.pops = some pos) :
    pc.ticket = some pos := by
  cases pc <;> first | exact h | cases h

namespace Machine

variable {ι α : Type} [DecidableEq ι] {m m' : Machine ι α}

open Transition

/-! ### What a step can do -/

/-- A new call moves only the thread that makes it. -/
theorem step_callPush {i : ι} {data : α} (h : m.step (.callPush i data) = some m') :
    m.pc i = .idle ∧ m' = m.goto i (.pushLoad data) := by
  simp only [step] at h
  split at h
  · cases h
    exact ⟨‹_›, rfl⟩
  · cases h

theorem step_callPop {i : ι} (h : m.step (.callPop i) = some m') :
    m.pc i = .idle ∧ m' = m.goto i .popLoad := by
  simp only [step] at h
  split at h
  · cases h
    exact ⟨‹_›, rfl⟩
  · cases h

/-- What the next step of thread `i` can be, with what its branch tells. -/
inductive Advances (m : Machine ι α) (i : ι) : Machine ι α → Prop
  | loadHead (data : α) (hpc : m.pc i = .pushLoad data) :
      Advances m i (m.goto i (.pushSeq data m.queue.head))
  | freeSlot (data : α) (pos : UInt64) (hpc : m.pc i = .pushSeq data pos)
      (hdiff : (m.queue.slot pos).sequence.toInt64 - pos.toInt64 = 0) :
      Advances m i (m.goto i (.pushCas data pos))
  | refusePush (data : α) (pos : UInt64) (hpc : m.pc i = .pushSeq data pos)
      (hdiff : (m.queue.slot pos).sequence.toInt64 - pos.toInt64 < 0) :
      Advances m i (m.goto i .idle)
  | retryPush (data : α) (pos : UInt64) (hpc : m.pc i = .pushSeq data pos) :
      Advances m i (m.goto i (.pushLoad data))
  | claimPush (data : α) (pos : UInt64) (hpc : m.pc i = .pushCas data pos)
      (hhead : m.queue.head = pos) : Advances m i (m.claimPush i data pos)
  | missPush (data : α) (pos : UInt64) (hpc : m.pc i = .pushCas data pos) :
      Advances m i (m.goto i (.pushSeq data m.queue.head))
  | writeData (data : α) (pos : UInt64) (hpc : m.pc i = .pushWrite data pos) :
      Advances m i (m.write i (.pushStore pos) pos { m.queue.slot pos with data := some data })
  | publish (pos : UInt64) (hpc : m.pc i = .pushStore pos) :
      Advances m i (m.write i .idle pos { m.queue.slot pos with sequence := pos + 1 })
  | loadTail (hpc : m.pc i = .popLoad) : Advances m i (m.goto i (.popSeq m.queue.tail))
  | fullSlot (pos : UInt64) (hpc : m.pc i = .popSeq pos)
      (hdiff : (m.queue.slot pos).sequence.toInt64 - (pos + 1).toInt64 = 0) :
      Advances m i (m.goto i (.popCas pos))
  | refusePop (pos : UInt64) (hpc : m.pc i = .popSeq pos)
      (hdiff : (m.queue.slot pos).sequence.toInt64 - (pos + 1).toInt64 < 0) :
      Advances m i (m.goto i .idle)
  | retryPop (pos : UInt64) (hpc : m.pc i = .popSeq pos) : Advances m i (m.goto i .popLoad)
  | claimPop (pos : UInt64) (hpc : m.pc i = .popCas pos) (htail : m.queue.tail = pos) :
      Advances m i (m.claimPop i pos)
  | missPop (pos : UInt64) (hpc : m.pc i = .popCas pos) :
      Advances m i (m.goto i (.popSeq m.queue.tail))
  | takeData (pos : UInt64) (hpc : m.pc i = .popRead pos) :
      Advances m i (m.write i (.popStore pos (m.queue.slot pos).data) pos
        { m.queue.slot pos with data := none })
  | recycle (pos : UInt64) (r : Option α) (hpc : m.pc i = .popStore pos r) :
      Advances m i { m.write i .idle pos { m.queue.slot pos with
          sequence := pos + m.queue.capacity } with
        returned := m.returned ++ [(pos, i, r)] }

theorem advances_of_advance {i : ι} {spurious : Bool} (h : m.advance i spurious = some m') :
    m.Advances i m' := by
  unfold advance at h
  cases hpc : m.pc i with
  | idle =>
    rw [hpc] at h
    cases h
  | pushLoad data =>
    rw [hpc] at h
    cases h
    exact .loadHead data hpc
  | pushSeq data pos =>
    rw [hpc] at h
    dsimp only at h
    split at h
    · cases h
      exact .freeSlot data pos hpc ‹_›
    split at h
    · cases h
      exact .refusePush data pos hpc ‹_›
    · cases h
      exact .retryPush data pos hpc
  | pushCas data pos =>
    rw [hpc] at h
    dsimp only at h
    split at h
    · rename_i hcas
      cases h
      exact .claimPush data pos hpc hcas.1
    · cases h
      exact .missPush data pos hpc
  | pushWrite data pos =>
    rw [hpc] at h
    cases h
    exact .writeData data pos hpc
  | pushStore pos =>
    rw [hpc] at h
    cases h
    exact .publish pos hpc
  | popLoad =>
    rw [hpc] at h
    cases h
    exact .loadTail hpc
  | popSeq pos =>
    rw [hpc] at h
    dsimp only at h
    split at h
    · cases h
      exact .fullSlot pos hpc ‹_›
    split at h
    · cases h
      exact .refusePop pos hpc ‹_›
    · cases h
      exact .retryPop pos hpc
  | popCas pos =>
    rw [hpc] at h
    dsimp only at h
    split at h
    · rename_i hcas
      cases h
      exact .claimPop pos hpc hcas.1
    · cases h
      exact .missPop pos hpc
  | popRead pos =>
    rw [hpc] at h
    cases h
    exact .takeData pos hpc
  | popStore pos r =>
    rw [hpc] at h
    cases h
    exact .recycle pos r hpc

/-- What every step keeps: the capacity, and the claims that were made before. -/
structure Grows (m m' : Machine ι α) : Prop where
  capacity : m'.queue.capacity = m.queue.capacity
  pushed : m.pushed <+: m'.pushed
  popped : m.popped <+: m'.popped

theorem advance_grows {i : ι} {spurious : Bool} (h : m.advance i spurious = some m') :
    m.Grows m' := by
  cases advances_of_advance h with
  | claimPush => exact ⟨rfl, List.prefix_append _ _, List.prefix_rfl⟩
  | claimPop => exact ⟨rfl, List.prefix_rfl, List.prefix_append _ _⟩
  | _ => exact ⟨rfl, List.prefix_rfl, List.prefix_rfl⟩

theorem step_grows {e : QueueEvent ι α} (h : m.step e = some m') : m.Grows m' := by
  cases e with
  | callPush i data =>
    obtain ⟨-, rfl⟩ := step_callPush h
    exact ⟨rfl, List.prefix_rfl, List.prefix_rfl⟩
  | callPop i =>
    obtain ⟨-, rfl⟩ := step_callPop h
    exact ⟨rfl, List.prefix_rfl, List.prefix_rfl⟩
  | advance i spurious => exact advance_grows h

theorem step_pushed_length {e : QueueEvent ι α} (h : m.step e = some m') :
    m.pushed.length ≤ m'.pushed.length :=
  (step_grows h).pushed.length_le

/-! ### Every step keeps the invariant -/

theorem Inv.advance (h : m.Inv) {i : ι} {spurious : Bool} (hstep : m.advance i spurious = some m')
    (hsmall : m'.pushed.length < 2 ^ 63) : m'.Inv := by
  have hholds := h.threads i
  cases advances_of_advance hstep with
  | loadHead data hpc | missPush data pos hpc => exact h.goto (by rw [hpc]; rfl) h.head.le
  | loadTail hpc | missPop pos hpc => exact h.goto (by rw [hpc]; rfl) h.tail.le
  | freeSlot data pos hpc hdiff | fullSlot pos hpc hdiff =>
    rw [hpc] at hholds
    exact h.goto (by rw [hpc]; rfl) ⟨hholds, fun _ => diff_eq_zero.mp hdiff⟩
  | refusePush data pos hpc | retryPush data pos hpc | refusePop pos hpc | retryPop pos hpc =>
    exact h.goto (by rw [hpc]; rfl) trivial
  | claimPush data pos hpc hhead =>
    refine h.claimPush hpc (by rw [← hhead, h.head]) ?_
    simpa [Machine.claimPush] using hsmall
  | claimPop pos hpc htail => exact h.claimPop hpc (by rw [← htail, h.tail])
  | writeData data pos hpc => exact h.writeData hpc
  | publish pos hpc => exact h.publish hpc
  | takeData pos hpc => exact h.takeData hpc
  | recycle pos r hpc => exact h.recycle hpc

theorem Inv.step (h : m.Inv) {e : QueueEvent ι α} (hstep : m.step e = some m')
    (hsmall : m'.pushed.length < 2 ^ 63) : m'.Inv := by
  cases e with
  | callPush i data =>
    obtain ⟨hpc, rfl⟩ := step_callPush hstep
    exact h.goto (by rw [hpc]; rfl) trivial
  | callPop i =>
    obtain ⟨hpc, rfl⟩ := step_callPop hstep
    exact h.goto (by rw [hpc]; rfl) trivial
  | advance i spurious => exact h.advance hstep hsmall

omit [DecidableEq ι] in
theorem inv_start {minCapacity : UInt64} {q : MpmcQueue α}
    (hq : MpmcQueue.new minCapacity = some q) : (start q : Machine ι α).Inv := by
  have hsized := MpmcQueue.sized_new hq
  have hC := hsized.two_le
  obtain ⟨capacity, -, rfl⟩ := Option.map_eq_some_iff.mp hq
  refine ⟨⟨hsized, by simp [start], rfl, rfl, le_rfl, Nat.zero_le _, ?_, ?_⟩, ⟨?_, ?_, ?_⟩,
    fun x hx => ?_, fun _ => trivial⟩
  · intro k t i data hk
    cases hk
  · intro k t i hk
    cases hk
  · intro t i r hr
    cases hr
  · exact List.nodup_nil
  · intro k t i hk
    cases hk
  · refine ⟨x.toNat, Nat.mod_eq_of_lt hx, .free rfl (Nat.zero_le _) ?_⟩
    show x.toNat < 0 + _
    omega

/-- The invariant holds in every reachable state with fewer than `2^63` claimed pushes. -/
theorem inv_of_reachable {minCapacity : UInt64} {q : MpmcQueue α}
    (hq : MpmcQueue.new minCapacity = some q) (h : (threads ι q).Reachable m)
    (hsmall : m.pushed.length < 2 ^ 63) : m.Inv := by
  refine System.Reachable.induction (P := fun m => m.pushed.length < 2 ^ 63 → m.Inv) ?_ ?_ h hsmall
  · rintro m rfl _
    exact inv_start hq
  · intro m e m' _ ih hstep hsmall'
    have hmono := step_pushed_length hstep
    exact (ih (by omega)).step hstep hsmall'

/-! ### What follows -/

omit [DecidableEq ι] in
theorem Inv.relies_of_ticket (h : m.Inv) {i : ι} {pos : UInt64}
    (hi : (m.pc i).ticket = some pos) : m.Relies i pos := by
  obtain ⟨data, hpush⟩ | ⟨data, hpop⟩ := h.claims hi
  · exact .pushing data hpush
  · exact .popping data hpop

omit [DecidableEq ι] in
/-- Threads with tickets are on different slots. -/
theorem Inv.exclusive (h : m.Inv) {i j : ι} {pos pos' : UInt64} (hij : i ≠ j)
    (hi : (m.pc i).ticket = some pos) (hj : (m.pc j).ticket = some pos') :
    m.queue.index pos ≠ m.queue.index pos' := fun hindex =>
  hij (h.alone (h.claims hj) (h.relies_of_ticket hi) hindex)

omit [DecidableEq ι] in
theorem Inv.mem_pushed (h : m.Inv) {t : UInt64} {i : ι} {data : α} :
    (t, i, data) ∈ m.pushed ↔ m.pushed[t.toNat]? = some (t, i, data) := by
  constructor
  · intro hmem
    obtain ⟨k, hk⟩ := List.mem_iff_getElem?.mp hmem
    rw [h.pushTickets k t i data hk]
    exact hk
  · exact List.mem_of_getElem?

omit [DecidableEq ι] in
theorem Inv.pushed_tickets (h : m.Inv) :
    m.pushed.map (fun x => x.1.toNat) = List.range m.pushed.length := by
  refine List.ext_getElem? fun k => ?_
  rw [List.getElem?_map]
  rcases hk : m.pushed[k]? with _ | ⟨t, i, data⟩
  · rw [List.getElem?_eq_none_iff] at hk
    simp [hk]
  · have hlt := (List.getElem?_eq_some_iff.mp hk).1
    simp [h.pushTickets k t i data hk, hlt]

omit [DecidableEq ι] in
theorem Inv.popped_tickets (h : m.Inv) :
    m.popped.map (fun x => x.1.toNat) = List.range m.popped.length := by
  refine List.ext_getElem? fun k => ?_
  rw [List.getElem?_map]
  rcases hk : m.popped[k]? with _ | ⟨t, i⟩
  · rw [List.getElem?_eq_none_iff] at hk
    simp [hk]
  · have hlt := (List.getElem?_eq_some_iff.mp hk).1
    simp [h.popTickets k t i hk, hlt]

omit [DecidableEq ι] in
/-- A claimed push that no pop has claimed yet is being written or lies in its slot. -/
theorem Inv.unpopped (h : m.Inv) {t : UInt64} {i : ι} {data : α}
    (hpush : m.pushed[t.toNat]? = some (t, i, data)) (ht : m.popped.length ≤ t.toNat) :
    m.pc i = .pushWrite data t ∨ m.pc i = .pushStore t ∨
      ((m.queue.slot t).sequence.toNat = t.toNat + 1 ∧ (m.queue.slot t).data = some data) := by
  have hlt := (List.getElem?_eq_some_iff.mp hpush).1
  have hbound := h.bound
  obtain ⟨p, hp, hgen⟩ := h.generation t
  cases hgen with
  | free hseq hlo hhi =>
    have heq := eq_of_mod_eq hp.symm (by omega) (by omega)
    omega
  | writing j pos hpos hseq hlo hhi hpc =>
    have heq : p = t.toNat := eq_of_mod_eq_of_near hp (by omega) (by omega)
    have hpt : pos = t := UInt64.toNat_inj.mp (hpos.trans heq)
    obtain hpc | ⟨data', hpc⟩ := hpc
    · obtain ⟨data', hpushing, -⟩ := h.holds hpc
      rw [hpt] at hpushing hpc
      have hsame := hpushing.pushed.symm.trans hpush
      simp only [Option.some.injEq, Prod.mk.injEq, true_and] at hsame
      exact .inr (.inl (hsame.1 ▸ hpc))
    · have hpushing : m.Pushing j pos data' := h.holds hpc
      rw [hpt] at hpushing hpc
      have hsame := hpushing.pushed.symm.trans hpush
      simp only [Option.some.injEq, Prod.mk.injEq, true_and] at hsame
      exact .inl (hsame.1 ▸ hsame.2 ▸ hpc)
  | full t' j data' hseq hlo hhi hpush' hdata =>
    have heq : p = t.toNat := eq_of_mod_eq_of_near hp (by omega) (by omega)
    rw [heq] at hseq hpush'
    have hsame := hpush'.symm.trans hpush
    simp only [Option.some.injEq, Prod.mk.injEq] at hsame
    exact .inr (.inr ⟨hseq, by rw [hdata, hsame.2.2]⟩)
  | reading j pos hpos hseq hlo hhi hpc =>
    have heq := eq_of_mod_eq hp (by omega) (by omega)
    omega

omit [DecidableEq ι] in
/-- A claimed push whose ticket a pop has claimed is being popped or has been returned. -/
theorem Inv.popped_value (h : m.Inv) {t : UInt64} {j : ι} {data : α}
    (hpush : m.pushed[t.toNat]? = some (t, j, data)) (ht : t.toNat < m.popped.length) :
    (∃ i, m.pc i = .popRead t ∨ m.pc i = .popStore t (some data)) ∨
      ∃ i, (t, i, some data) ∈ m.returned := by
  have hsame : ∀ {j' data'}, m.pushed[t.toNat]? = some (t, j', data') → data' = data := by
    intro j' data' hpush'
    have heq := hpush'.symm.trans hpush
    simp only [Option.some.injEq, Prod.mk.injEq] at heq
    exact heq.2.2
  obtain ⟨⟨t', i⟩, hpop⟩ : ∃ x, m.popped[t.toNat]? = some x :=
    ⟨_, List.getElem?_eq_getElem ht⟩
  have htt : t' = t := UInt64.toNat_inj.mp (h.popTickets _ t' i hpop)
  subst htt
  rcases h.accounted _ t' i hpop with ⟨r, hr⟩ | hpc | ⟨r, hpc⟩
  · obtain ⟨-, j', data', hpush', hdata'⟩ := h.values t' i r hr
    rw [hdata', hsame hpush'] at hr
    exact .inr ⟨i, hr⟩
  · exact .inl ⟨i, .inl hpc⟩
  · obtain ⟨data', hpopping, hr⟩ := h.holds hpc
    obtain ⟨j', hpush'⟩ := hpopping.pushed
    rw [hr, hsame hpush'] at hpc
    exact .inl ⟨i, .inr hpc⟩

/-- The values of the claimed pops in the order of their claims, each with its producer. -/
def delivered (m : Machine ι α) : List (ι × α) :=
  m.popped.filterMap fun p => (m.pushed.find? fun x => x.1 = p.1).map Prod.snd

omit [DecidableEq ι] in
theorem Inv.find_pushed (h : m.Inv) (t : UInt64) :
    (m.pushed.find? fun x => x.1 = t) = m.pushed[t.toNat]? := by
  rcases hk : m.pushed[t.toNat]? with _ | ⟨t', i, data⟩
  · rw [List.find?_eq_none]
    rintro ⟨t', i, data⟩ hmem heq
    have heq : t' = t := of_decide_eq_true heq
    rw [heq, h.mem_pushed, hk] at hmem
    cases hmem
  · have htt : t' = t := UInt64.toNat_inj.mp (h.pushTickets _ t' i data hk)
    subst htt
    obtain ⟨x, hx⟩ : ∃ x, (m.pushed.find? fun x => x.1 = t') = some x := by
      rw [← Option.isSome_iff_exists, List.find?_isSome]
      exact ⟨_, List.mem_of_getElem? hk, by simp⟩
    have hx1 : x.1 = t' := by simpa using List.find?_some hx
    have hmem := List.mem_of_find?_eq_some hx
    obtain ⟨xt, xi, xdata⟩ := x
    subst hx1
    rw [h.mem_pushed, hk] at hmem
    rw [hx, hmem]

omit [DecidableEq ι] in
/-- The `k`-th claimed pop gets the value of the `k`-th claimed push. -/
theorem Inv.delivered_eq (h : m.Inv) :
    m.delivered = (m.pushed.map Prod.snd).take m.popped.length := by
  have hmap : m.popped.map (fun p => (m.pushed.find? fun x => x.1 = p.1).map Prod.snd) =
      ((m.pushed.map Prod.snd).take m.popped.length).map some := by
    refine List.ext_getElem? fun k => ?_
    have hle := h.le
    simp only [List.getElem?_map, h.find_pushed]
    rcases hk : m.popped[k]? with _ | ⟨t, i⟩
    · rw [List.getElem?_eq_none_iff] at hk
      have hnone : ((m.pushed.map Prod.snd).take m.popped.length)[k]? = none := by
        rw [List.getElem?_eq_none_iff, List.length_take]
        omega
      rw [hnone]
      rfl
    · have hlt := (List.getElem?_eq_some_iff.mp hk).1
      have hget : m.pushed[k]? = some (m.pushed[k]) := List.getElem?_eq_getElem (by omega)
      rw [List.getElem?_take_of_lt hlt, List.getElem?_map, Option.map_some,
        h.popTickets k t i hk, hget]
      rfl
  calc m.delivered
      = (m.popped.map fun p => (m.pushed.find? fun x => x.1 = p.1).map Prod.snd).filterMap id := by
        rw [List.filterMap_map]
        rfl
    _ = (m.pushed.map Prod.snd).take m.popped.length := by
        rw [hmap, List.filterMap_map]
        exact List.filterMap_some

/-- In every state that threads on a new queue can reach, with fewer than `2^63` claimed pushes:
`tail_ ≤ head_ ≤ tail_ + capacity_`; each ticket is claimed by one producer and one consumer; no
thread writes the data of a slot that another is popping; a pop returns the value that was pushed
under its ticket, once; a pushed value is still being written, in its slot, being popped, or
returned; and values are delivered in the order of the tickets, so in each producer's order. -/
theorem mpmc_fifo (ι α : Type) [DecidableEq ι] (minCapacity : UInt64) (q : MpmcQueue α)
    (hq : MpmcQueue.new minCapacity = some q) (m : Machine ι α) (hm : (threads ι q).Reachable m)
    (hsmall : m.pushed.length < 2 ^ 63) :
    (m.queue.tail.toNat ≤ m.queue.head.toNat ∧
      m.queue.head.toNat ≤ m.queue.tail.toNat + m.queue.capacity.toNat) ∧
    ((m.pushed.map Prod.fst).Nodup ∧ (m.popped.map Prod.fst).Nodup) ∧
    (∀ i j pos pos', i ≠ j → (m.pc i).writesData = some pos → (m.pc j).pops = some pos' →
      m.queue.index pos ≠ m.queue.index pos') ∧
    (∀ t i r, (t, i, r) ∈ m.returned → ∃ j data, (t, j, data) ∈ m.pushed ∧ r = some data) ∧
    (m.returned.map Prod.fst).Nodup ∧
    (∀ t j data, (t, j, data) ∈ m.pushed →
      m.pc j = .pushWrite data t ∨ m.pc j = .pushStore t ∨
      (m.queue.tail.toNat ≤ t.toNat ∧ (m.queue.slot t).sequence.toNat = t.toNat + 1 ∧
        (m.queue.slot t).data = some data) ∨
      (∃ i, m.pc i = .popRead t ∨ m.pc i = .popStore t (some data)) ∨
      ∃ i, (t, i, some data) ∈ m.returned) ∧
    (m.pushed.map (fun x => x.1.toNat) = List.range m.queue.head.toNat ∧
      m.popped.map (fun x => x.1.toNat) = List.range m.queue.tail.toNat) ∧
    m.delivered = (m.pushed.map Prod.snd).take m.queue.tail.toNat ∧
    (∀ j, (m.delivered.filter fun x => x.1 = j) <+:
      (m.pushed.map Prod.snd).filter fun x => x.1 = j) := by
  have h := inv_of_reachable hq hm hsmall
  have htickets : ∀ l : List UInt64, (l.map UInt64.toNat).Nodup → l.Nodup := fun l hl =>
    List.Nodup.of_map _ hl
  refine ⟨?_, ⟨?_, ?_⟩, ?_, ?_, h.once, ?_, ?_, ?_, fun j => ?_⟩
  · rw [h.head, h.tail]
    exact ⟨h.le, h.bound⟩
  · refine htickets _ ?_
    rw [List.map_map]
    exact h.pushed_tickets ▸ List.nodup_range
  · refine htickets _ ?_
    rw [List.map_map]
    exact h.popped_tickets ▸ List.nodup_range
  · intro i j pos pos' hij hi hj
    exact h.exclusive hij (Pc.ticket_of_writesData hi) (Pc.ticket_of_pops hj)
  · intro t i r hr
    obtain ⟨-, j, data, hpush, hdata⟩ := h.values t i r hr
    exact ⟨j, data, List.mem_of_getElem? hpush, hdata⟩
  · intro t j data hmem
    have hpush := h.mem_pushed.mp hmem
    rw [h.tail]
    rcases Nat.lt_or_ge t.toNat m.popped.length with ht | ht
    · exact .inr (.inr (.inr (h.popped_value hpush ht)))
    · rcases h.unpopped hpush ht with hpc | hpc | hslot
      · exact .inl hpc
      · exact .inr (.inl hpc)
      · exact .inr (.inr (.inl ⟨ht, hslot⟩))
  · rw [h.head, h.tail]
    exact ⟨h.pushed_tickets, h.popped_tickets⟩
  · rw [h.tail]
    exact h.delivered_eq
  · rw [h.delivered_eq]
    exact (List.take_prefix _ _).filter _

/-- Two threads push at the same time.  Both read the first ticket, the second thread claims it, and the
first has to try again and is done first.  A third thread pops both values. -/
def handOver : List (QueueEvent Nat Nat) :=
  [.callPush 0 7, .callPush 1 8, .advance 0 false, .advance 1 false, .advance 0 false, .advance 1 false,
    .advance 1 false] ++ List.replicate 5 (.advance 0 false) ++ List.replicate 2 (.advance 1 false) ++
    .callPop 2 :: List.replicate 5 (.advance 2 false) ++
    .callPop 2 :: List.replicate 5 (.advance 2 false)

theorem mpmc_fifo_handOver :
    ∃ q m, MpmcQueue.new 2 = some q ∧ System.execute step (start q) handOver = some m ∧
      m.returned = [(0, 2, some 8), (1, 2, some 7)] ∧ m.queue.tail.toNat ≤ m.queue.head.toNat ∧
      m.delivered = (m.pushed.map Prod.snd).take m.queue.tail.toNat := by
  obtain ⟨q, hq⟩ := Option.isSome_iff_exists.mp
    (show (MpmcQueue.new 2 : Option (MpmcQueue Nat)).isSome = true from
      MpmcQueue.new_isSome (by decide))
  have hrun : ((MpmcQueue.new 2).bind fun q =>
      (System.execute step (start q) handOver).map fun m => (m.returned, m.pushed.length)) =
      some ([(0, 2, some 8), (1, 2, some 7)], 2) := by decide +kernel
  rw [hq, Option.bind_some] at hrun
  obtain ⟨m, hm, heq⟩ := Option.map_eq_some_iff.mp hrun
  simp only [Prod.mk.injEq] at heq
  have hfifo := mpmc_fifo Nat Nat 2 q hq m (System.reachable_of_execute _ hm)
    (by rw [heq.2]; decide)
  exact ⟨q, m, hq, hm, heq.1, hfifo.1.1, hfifo.2.2.2.2.2.2.2.1⟩

end Machine

end LibE3
