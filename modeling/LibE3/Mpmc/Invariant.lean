import LibE3.Mpmc.Queue

/-! The invariant of the ring.  The slots of a ring of capacity `C` serve the tickets of one residue
class each, and `Generation` says which ticket a slot serves now and how far that ticket has come:
free for a push, being written, full, or being read.  `Holds` says what a thread knows of the slot of
its position, and that a thread with a claimed ticket is alone on its slot. -/

namespace LibE3

/-! ### Residues -/

theorem eq_of_mod_eq {c p q : Nat} (h : p % c = q % c) (hle : p ≤ q) (hlt : q < p + c) : p = q := by
  have hzero := Nat.sub_mod_eq_zero_of_mod_eq h.symm
  rw [Nat.mod_eq_of_lt (by omega)] at hzero
  omega

theorem eq_of_mod_eq_of_near {c p q : Nat} (h : p % c = q % c) (hp : p < q + c) (hq : q < p + c) :
    p = q := by
  rcases Nat.le_total p q with hle | hle
  · exact eq_of_mod_eq h hle hq
  · exact (eq_of_mod_eq h.symm hle hp).symm

theorem succ_mod_ne {c : Nat} (hc : 2 ≤ c) (p : Nat) : (p + 1) % c ≠ p % c := fun h => by
  have := eq_of_mod_eq h.symm (by omega) (by omega)
  omega

/-- The ticket that a thread has claimed and not yet handed on. -/
def Pc.ticket {α : Type} : Pc α → Option UInt64
  | .pushWrite _ pos => some pos
  | .pushStore pos => some pos
  | .popRead pos => some pos
  | .popStore pos _ => some pos
  | _ => none

namespace Machine

variable {ι α : Type}

/-! ### The invariant -/

/-- The stage of ticket `p` in the slot that serves it. -/
inductive Generation (m : Machine ι α) (slot : Slot α) (p : Nat) : Prop
  | free (hseq : slot.sequence.toNat = p) (hlo : m.pushed.length ≤ p)
      (hhi : p < m.popped.length + m.queue.capacity.toNat)
  | writing (i : ι) (pos : UInt64) (hpos : pos.toNat = p) (hseq : slot.sequence.toNat = p)
      (hlo : m.popped.length ≤ p) (hhi : p < m.pushed.length)
      (hpc : m.pc i = .pushStore pos ∨ ∃ data, m.pc i = .pushWrite data pos)
  | full (t : UInt64) (i : ι) (data : α) (hseq : slot.sequence.toNat = p + 1)
      (hlo : m.popped.length ≤ p) (hhi : p < m.pushed.length)
      (hpush : m.pushed[p]? = some (t, i, data)) (hdata : slot.data = some data)
  | reading (i : ι) (pos : UInt64) (hpos : pos.toNat = p) (hseq : slot.sequence.toNat = p + 1)
      (hlo : p < m.popped.length) (hhi : m.pushed.length ≤ p + m.queue.capacity.toNat)
      (hpc : m.pc i = .popRead pos ∨ ∃ data, m.pc i = .popStore pos data)

/-- Thread `i` has claimed `pos` for a push and has not yet published the slot. -/
structure Pushing (m : Machine ι α) (i : ι) (pos : UInt64) (data : α) : Prop where
  pushed : m.pushed[pos.toNat]? = some (pos, i, data)
  unpopped : m.popped.length ≤ pos.toNat
  sequence : (m.queue.slot pos).sequence = pos

/-- Thread `i` has claimed `pos` for a pop and has not yet recycled the slot; `data` is the value that
was pushed under the ticket. -/
structure Popping (m : Machine ι α) (i : ι) (pos : UInt64) (data : α) : Prop where
  popped : m.popped[pos.toNat]? = some (pos, i)
  unpushed : m.pushed.length ≤ pos.toNat + m.queue.capacity.toNat
  sequence : (m.queue.slot pos).sequence = pos + 1
  pushed : ∃ j, m.pushed[pos.toNat]? = some (pos, j, data)
  unreturned : pos ∉ m.returned.map Prod.fst

/-- What a thread may rely on at its program counter. -/
def Holds (m : Machine ι α) (i : ι) : Pc α → Prop
  | .pushSeq _ pos => pos.toNat ≤ m.pushed.length
  | .pushCas _ pos =>
    pos.toNat ≤ m.pushed.length ∧
      (pos.toNat = m.pushed.length → (m.queue.slot pos).sequence = pos)
  | .pushWrite data pos => m.Pushing i pos data
  | .pushStore pos => ∃ data, m.Pushing i pos data ∧ (m.queue.slot pos).data = some data
  | .popSeq pos => pos.toNat ≤ m.popped.length
  | .popCas pos =>
    pos.toNat ≤ m.popped.length ∧
      (pos.toNat = m.popped.length → (m.queue.slot pos).sequence = pos + 1)
  | .popRead pos => ∃ data, m.Popping i pos data ∧ (m.queue.slot pos).data = some data
  | .popStore pos r => ∃ data, m.Popping i pos data ∧ r = some data
  | _ => True

/-- The counters are the numbers of claimed tickets, and a ticket is the number of the claim. -/
structure Counters (m : Machine ι α) : Prop where
  sized : m.queue.Sized
  small : m.pushed.length < 2 ^ 63
  head : m.queue.head.toNat = m.pushed.length
  tail : m.queue.tail.toNat = m.popped.length
  le : m.popped.length ≤ m.pushed.length
  bound : m.pushed.length ≤ m.popped.length + m.queue.capacity.toNat
  pushTickets : ∀ (k : Nat) t i data, m.pushed[k]? = some (t, i, data) → t.toNat = k
  popTickets : ∀ (k : Nat) t i, m.popped[k]? = some (t, i) → t.toNat = k

/-- Every claimed pop is in progress or has returned, once, the value pushed under its ticket. -/
structure Returns (m : Machine ι α) : Prop where
  values : ∀ t i r, (t, i, r) ∈ m.returned →
    m.popped[t.toNat]? = some (t, i) ∧
    ∃ j data, m.pushed[t.toNat]? = some (t, j, data) ∧ r = some data
  once : (m.returned.map Prod.fst).Nodup
  accounted : ∀ (k : Nat) t i, m.popped[k]? = some (t, i) →
    (∃ r, (t, i, r) ∈ m.returned) ∨ m.pc i = .popRead t ∨ ∃ r, m.pc i = .popStore t r

structure Inv (m : Machine ι α) : Prop extends m.Counters, m.Returns where
  slots : ∀ x : UInt64, x.toNat < m.queue.capacity.toNat →
    ∃ p, p % m.queue.capacity.toNat = x.toNat ∧ m.Generation (m.queue.buffer x) p
  threads : ∀ i, m.Holds i (m.pc i)

/-! ### Positions and slots -/

section Positions

variable {m : Machine ι α} (h : m.Inv)

include h

theorem Inv.index_lt (pos : UInt64) :
    (m.queue.index pos).toNat < m.queue.capacity.toNat := by
  rw [h.sized.toNat_index]
  exact Nat.mod_lt _ (by have := h.sized.two_le; omega)

/-- The generation of the slot of a position. -/
theorem Inv.generation (pos : UInt64) :
    ∃ p, p % m.queue.capacity.toNat = pos.toNat % m.queue.capacity.toNat ∧
      m.Generation (m.queue.slot pos) p := by
  obtain ⟨p, hp, hgen⟩ := h.slots _ (h.index_lt pos)
  rw [h.sized.toNat_index] at hp
  exact ⟨p, hp, hgen⟩

theorem Inv.toNat_succ {pos : UInt64} (hpos : pos.toNat ≤ m.pushed.length) :
    (pos + 1).toNat = pos.toNat + 1 := by
  have := h.small
  rw [UInt64.toNat_add, UInt64.toNat_one]
  omega

/-- A slot that waits for the next push is free for it. -/
theorem Inv.free_of_sequence {pos : UInt64} (hpos : pos.toNat = m.pushed.length)
    (hseq : (m.queue.slot pos).sequence.toNat = pos.toNat) :
    pos.toNat < m.popped.length + m.queue.capacity.toNat := by
  obtain ⟨p, hp, hgen⟩ := h.generation pos
  have hne := succ_mod_ne h.sized.two_le p
  cases hgen with
  | free hfree hlo hhi => omega
  | writing i pos' hpos' hwriting hlo hhi hpc => omega
  | full t i data hfull hlo hhi hpush hdata =>
    rw [← hseq, hfull] at hp
    exact absurd hp.symm hne
  | reading i pos' hpos' hreading hlo hhi hpc =>
    rw [← hseq, hreading] at hp
    exact absurd hp.symm hne

/-- A slot that waits for the next pop is full. -/
theorem Inv.full_of_sequence {pos : UInt64} (hpos : pos.toNat = m.popped.length)
    (hseq : (m.queue.slot pos).sequence.toNat = pos.toNat + 1) :
    ∃ t i data, m.pushed[pos.toNat]? = some (t, i, data) ∧
      (m.queue.slot pos).data = some data := by
  obtain ⟨p, hp, hgen⟩ := h.generation pos
  have hne := succ_mod_ne h.sized.two_le pos.toNat
  cases hgen with
  | free hfree hlo hhi =>
    rw [← hfree, hseq] at hp
    exact absurd hp hne
  | writing i pos' hpos' hwriting hlo hhi hpc =>
    rw [← hwriting, hseq] at hp
    exact absurd hp hne
  | full t i data hfull hlo hhi hpush hdata =>
    have hpp : p = pos.toNat := by omega
    exact ⟨t, i, data, hpp ▸ hpush, hdata⟩
  | reading i pos' hpos' hreading hlo hhi hpc => omega

end Positions

/-! ### Threads on one slot -/

/-- The ways in which a thread relies on the slot of a position: it may still win the exchange for
it, or it has won it. -/
inductive Relies (m : Machine ι α) (i : ι) (pos : UInt64) : Prop
  | nextPush (hpos : pos.toNat = m.pushed.length) (hseq : (m.queue.slot pos).sequence = pos)
  | pushing (data : α) (h : m.Pushing i pos data)
  | nextPop (hpos : pos.toNat = m.popped.length)
      (hseq : (m.queue.slot pos).sequence = pos + 1)
  | popping (data : α) (h : m.Popping i pos data)

theorem Pushing.lt {m : Machine ι α} {i : ι} {pos : UInt64} {data : α}
    (h : m.Pushing i pos data) : pos.toNat < m.pushed.length :=
  (List.getElem?_eq_some_iff.mp h.pushed).1

theorem Popping.lt {m : Machine ι α} {i : ι} {pos : UInt64} {data : α}
    (h : m.Popping i pos data) : pos.toNat < m.popped.length :=
  (List.getElem?_eq_some_iff.mp h.popped).1

/-- A thread with a claimed ticket shares its slot with no thread that relies on it. -/
theorem Inv.alone {m : Machine ι α} (h : m.Inv) {i j : ι} {pos pos' : UInt64}
    (hi : (∃ data, m.Pushing i pos data) ∨ ∃ data, m.Popping i pos data)
    (hj : m.Relies j pos') (hindex : m.queue.index pos' = m.queue.index pos) : j = i := by
  have hslot : m.queue.slot pos' = m.queue.slot pos := congrArg m.queue.buffer hindex
  have hmod := h.sized.index_eq_iff.mp hindex
  have hle := h.le
  have hne := succ_mod_ne h.sized.two_le pos.toNat
  have hne' := succ_mod_ne h.sized.two_le pos'.toNat
  obtain ⟨data, hi⟩ | ⟨data, hi⟩ := hi
  · have hlt := hi.lt
    have hseqi := congrArg UInt64.toNat hi.sequence
    cases hj with
    | nextPush hpos hseq =>
      rw [hslot, hi.sequence] at hseq
      subst hseq
      omega
    | pushing data' hj =>
      have heq := hj.sequence
      rw [hslot, hi.sequence] at heq
      subst heq
      have hsame := hj.pushed.symm.trans hi.pushed
      simp only [Option.some.injEq, Prod.mk.injEq] at hsame
      exact hsame.2.1
    | nextPop hpos hseq =>
      have hsucc : (pos' + 1).toNat = pos'.toNat + 1 := h.toNat_succ (by omega)
      rw [hslot, hi.sequence] at hseq
      rw [hseq, hsucc] at hmod
      exact absurd hmod.symm hne'
    | popping data' hj =>
      have hlt' := hj.lt
      have hsucc : (pos' + 1).toNat = pos'.toNat + 1 := h.toNat_succ (by omega)
      have hseq := hj.sequence
      rw [hslot, hi.sequence] at hseq
      rw [hseq, hsucc] at hmod
      exact absurd hmod.symm hne'
  · have hlt := hi.lt
    have hsucc : (pos + 1).toNat = pos.toNat + 1 := h.toNat_succ (by omega)
    cases hj with
    | nextPush hpos hseq =>
      rw [hslot, hi.sequence] at hseq
      rw [← hseq, hsucc] at hmod
      exact absurd hmod hne
    | pushing data' hj =>
      have hseq := hj.sequence
      rw [hslot, hi.sequence] at hseq
      rw [← hseq, hsucc] at hmod
      exact absurd hmod hne
    | nextPop hpos hseq =>
      rw [hslot, hi.sequence] at hseq
      have heq : pos = pos' := by simpa using hseq
      subst heq
      omega
    | popping data' hj =>
      have hseq := hj.sequence
      rw [hslot, hi.sequence] at hseq
      have heq : pos = pos' := by simpa using hseq
      subst heq
      have hsame := hj.popped.symm.trans hi.popped
      simp only [Option.some.injEq, Prod.mk.injEq] at hsame
      exact hsame.2

/-- A thread keeps what its program counter promises. -/
theorem Inv.holds {m : Machine ι α} (h : m.Inv) {i : ι} {pc : Pc α} (hpc : m.pc i = pc) :
    m.Holds i pc := by
  rw [← hpc]
  exact h.threads i

/-- A thread with a ticket is pushing or popping under it. -/
theorem Inv.claims {m : Machine ι α} (h : m.Inv) {i : ι} {pos : UInt64}
    (hi : (m.pc i).ticket = some pos) :
    (∃ data, m.Pushing i pos data) ∨ ∃ data, m.Popping i pos data := by
  have hholds := h.threads i
  cases hpc : m.pc i <;> rw [hpc] at hi hholds <;> simp only [Pc.ticket, reduceCtorEq,
    Option.some.injEq] at hi <;> subst hi
  · exact .inl ⟨_, hholds⟩
  · obtain ⟨data, hpush, -⟩ := hholds
    exact .inl ⟨data, hpush⟩
  · obtain ⟨data, hpop, -⟩ := hholds
    exact .inr ⟨data, hpop⟩
  · obtain ⟨data, hpop, -⟩ := hholds
    exact .inr ⟨data, hpop⟩

end Machine

end LibE3
