import LibE3.Mpmc.Invariant

/-! Every atomic step of a thread keeps the invariant of the ring.  The steps are of four kinds: those
that only move a program counter, the exchange on `head_`, the exchange on `tail_`, and the writes of
a thread to the slot of its ticket. -/

namespace LibE3

namespace MpmcQueue

variable {α : Type} (q : MpmcQueue α) (pos : UInt64) (s : Slot α)

@[simp] theorem setSlot_slot : (q.setSlot pos s).slot pos = s := Function.update_self _ _ _

theorem setSlot_slot_ne {pos' : UInt64} (h : q.index pos' ≠ q.index pos) :
    (q.setSlot pos s).slot pos' = q.slot pos' :=
  Function.update_of_ne h _ _

end MpmcQueue

namespace Machine

variable {ι α : Type} {m m' : Machine ι α}

/-! ### What a thread keeps while another moves -/

theorem Pushing.frame {j : ι} {pos : UInt64} {data : α} (h : m.Pushing j pos data)
    (hpushed : ∀ (k : Nat) x, m.pushed[k]? = some x → m'.pushed[k]? = some x)
    (hslot : m'.queue.slot pos = m.queue.slot pos) (hwrite : m'.popped.length ≤ pos.toNat) :
    m'.Pushing j pos data := by
  refine ⟨hpushed _ _ h.pushed, hwrite, ?_⟩
  rw [hslot]
  exact h.sequence

theorem Popping.frame {j : ι} {pos : UInt64} {data : α} (h : m.Popping j pos data)
    (hpushed : ∀ (k : Nat) x, m.pushed[k]? = some x → m'.pushed[k]? = some x)
    (hpopped : ∀ (k : Nat) x, m.popped[k]? = some x → m'.popped[k]? = some x)
    (hslot : m'.queue.slot pos = m.queue.slot pos)
    (hunpushed : m'.pushed.length ≤ pos.toNat + m'.queue.capacity.toNat)
    (hunreturned : pos ∉ m'.returned.map Prod.fst) : m'.Popping j pos data := by
  obtain ⟨k, hk⟩ := h.pushed
  refine ⟨hpopped _ _ h.popped, hunpushed, ?_, ⟨k, hpushed _ _ hk⟩, hunreturned⟩
  rw [hslot]
  exact h.sequence

/-- What thread `j` relies on survives a step of another thread that only adds to the logs, leaves
the slots that `j` relies on alone, and passes no ticket that `j` holds. -/
theorem Holds.frame {j : ι} {pc : Pc α} (hj : m.Holds j pc)
    (hcap : m'.queue.capacity = m.queue.capacity)
    (hpushed : ∀ (k : Nat) x, m.pushed[k]? = some x → m'.pushed[k]? = some x)
    (hpopped : ∀ (k : Nat) x, m.popped[k]? = some x → m'.popped[k]? = some x)
    (hH : m.pushed.length ≤ m'.pushed.length) (hT : m.popped.length ≤ m'.popped.length)
    (hslot : ∀ pos, m.Relies j pos → m'.queue.slot pos = m.queue.slot pos)
    (hwrite : ∀ pos data, m.Pushing j pos data → m'.popped.length ≤ pos.toNat)
    (hread : ∀ pos data, m.Popping j pos data →
      m'.pushed.length ≤ pos.toNat + m.queue.capacity.toNat ∧ pos ∉ m'.returned.map Prod.fst) :
    m'.Holds j pc := by
  have hpushing : ∀ pos data, m.Pushing j pos data → m'.Pushing j pos data := by
    intro pos data h
    exact h.frame hpushed (hslot pos (.pushing data h)) (hwrite pos data h)
  have hpopping : ∀ pos data, m.Popping j pos data → m'.Popping j pos data := by
    intro pos data h
    obtain ⟨hunpushed, hunreturned⟩ := hread pos data h
    rw [← hcap] at hunpushed
    exact h.frame hpushed hpopped (hslot pos (.popping data h)) hunpushed hunreturned
  cases pc with
  | pushSeq data pos =>
    have hj : pos.toNat ≤ m.pushed.length := hj
    show pos.toNat ≤ m'.pushed.length
    omega
  | pushCas data pos =>
    obtain ⟨hle, hseq⟩ := hj
    refine ⟨by omega, fun hpos => ?_⟩
    have hpos' : pos.toNat = m.pushed.length := by omega
    rw [hslot pos (.nextPush hpos' (hseq hpos'))]
    exact hseq hpos'
  | pushWrite data pos => exact hpushing pos data hj
  | pushStore pos =>
    obtain ⟨data, hpush, hdata⟩ := hj
    refine ⟨data, hpushing pos data hpush, ?_⟩
    rw [hslot pos (.pushing data hpush)]
    exact hdata
  | popSeq pos =>
    have hj : pos.toNat ≤ m.popped.length := hj
    show pos.toNat ≤ m'.popped.length
    omega
  | popCas pos =>
    obtain ⟨hle, hseq⟩ := hj
    refine ⟨by omega, fun hpos => ?_⟩
    have hpos' : pos.toNat = m.popped.length := by omega
    rw [hslot pos (.nextPop hpos' (hseq hpos'))]
    exact hseq hpos'
  | popRead pos =>
    obtain ⟨data, hpop, hdata⟩ := hj
    refine ⟨data, hpopping pos data hpop, ?_⟩
    rw [hslot pos (.popping data hpop)]
    exact hdata
  | popStore pos r =>
    obtain ⟨data, hpop, hr⟩ := hj
    exact ⟨data, hpopping pos data hpop, hr⟩
  | idle => trivial
  | pushLoad data => trivial
  | popLoad => trivial

/-- The generation of a slot survives a step that leaves the slot and the threads on it alone, and
passes its ticket with neither counter. -/
theorem Generation.frame {slot : Slot α} {p : Nat} (h : m.Generation slot p)
    (hcap : m'.queue.capacity = m.queue.capacity)
    (hpushed : ∀ (k : Nat) x, m.pushed[k]? = some x → m'.pushed[k]? = some x)
    (hH : m.pushed.length ≤ m'.pushed.length) (hT : m.popped.length ≤ m'.popped.length)
    (hpc : ∀ j pos, (m.pc j).ticket = some pos → pos.toNat = p → m'.pc j = m.pc j)
    (hfree : m.pushed.length ≤ p → m'.pushed.length ≤ p)
    (hheld : m.popped.length ≤ p → m'.popped.length ≤ p)
    (hreading : m.pushed.length ≤ p + m.queue.capacity.toNat →
      m'.pushed.length ≤ p + m.queue.capacity.toNat) : m'.Generation slot p := by
  cases h with
  | free hseq hlo hhi =>
    refine .free hseq (hfree hlo) ?_
    rw [hcap]
    omega
  | writing i pos hpos hseq hlo hhi hi =>
    refine .writing i pos hpos hseq (hheld hlo) (by omega) ?_
    rw [hpc i pos ?_ hpos]
    · exact hi
    · obtain hi | ⟨data, hi⟩ := hi <;> rw [hi] <;> rfl
  | full t i data hseq hlo hhi hpush hdata =>
    exact .full t i data hseq (hheld hlo) (by omega) (hpushed _ _ hpush) hdata
  | reading i pos hpos hseq hlo hhi hi =>
    refine .reading i pos hpos hseq (by omega) ?_ ?_
    · rw [hcap]
      exact hreading hhi
    · rw [hpc i pos ?_ hpos]
      · exact hi
      · obtain hi | ⟨data, hi⟩ := hi <;> rw [hi] <;> rfl

theorem getElem?_concat_cases {β : Type} {l : List β} {a x : β} {k : Nat}
    (h : (l ++ [a])[k]? = some x) : l[k]? = some x ∨ (k = l.length ∧ x = a) := by
  rcases Nat.lt_or_ge k l.length with hk | hk
  · rw [List.getElem?_append_left hk] at h
    exact .inl h
  · have hlt := (List.getElem?_eq_some_iff.mp h).1
    have hkl : k = l.length := by
      simp at hlt
      omega
    rw [hkl, List.getElem?_concat_length] at h
    exact .inr ⟨hkl, (Option.some.inj h).symm⟩

theorem getElem?_concat_of_eq_some {β : Type} {l : List β} (a : β) {x : β} {k : Nat}
    (h : l[k]? = some x) : (l ++ [a])[k]? = some x := by
  rw [List.getElem?_append_left (List.getElem?_eq_some_iff.mp h).1, h]

/-- A slot other than that of `pos` serves no ticket of `pos`'s residue class. -/
theorem Inv.mod_ne_of_index_ne (h : m.Inv) {x pos : UInt64} {p : Nat}
    (hx : x ≠ m.queue.index pos) (hp : p % m.queue.capacity.toNat = x.toNat) :
    p % m.queue.capacity.toNat ≠ pos.toNat % m.queue.capacity.toNat := by
  rw [← h.sized.toNat_index, hp]
  exact fun heq => hx (UInt64.toNat_inj.mp heq)

/-- The returns survive a step of a thread that is not popping and adds to neither the pops nor the
returns. -/
theorem Returns.frame (h : m.Returns) {i : ι} (hi : ∀ t r, m.pc i ≠ .popRead t ∧ m.pc i ≠ .popStore t r)
    (hpc : ∀ j, j ≠ i → m'.pc j = m.pc j)
    (hpushed : ∀ (k : Nat) x, m.pushed[k]? = some x → m'.pushed[k]? = some x)
    (hpopped : m'.popped = m.popped) (hreturned : m'.returned = m.returned) : m'.Returns := by
  refine ⟨fun t j r hr => ?_, by rw [hreturned]; exact h.once, fun k t j hk => ?_⟩
  · rw [hreturned] at hr
    obtain ⟨hpop, j', data, hpush, hdata⟩ := h.values t j r hr
    exact ⟨by rw [hpopped]; exact hpop, j', data, hpushed _ _ hpush, hdata⟩
  · rw [hpopped] at hk
    rw [hreturned]
    refine (h.accounted k t j hk).imp_right fun hj => ?_
    rw [hpc j ?_]
    · exact hj
    · rintro rfl
      obtain hj | ⟨r, hj⟩ := hj
      · exact (hi t none).1 hj
      · exact (hi t r).2 hj

variable [DecidableEq ι]

@[simp] theorem goto_pc_self (i : ι) (pc : Pc α) : (m.goto i pc).pc i = pc :=
  Function.update_self _ _ _

theorem goto_pc_ne {i j : ι} (pc : Pc α) (h : j ≠ i) : (m.goto i pc).pc j = m.pc j :=
  Function.update_of_ne h _ _

@[simp] theorem goto_goto (i : ι) (pc pc' : Pc α) :
    (m.goto i pc).goto i pc' = m.goto i pc' := by
  simp only [goto, Function.update_idem]

theorem claimPush_pc (m : Machine ι α) (i : ι) (data : α) (pos : UInt64) :
    (m.claimPush i data pos).pc i = .pushWrite data pos :=
  Function.update_self _ _ _

theorem write_pc (m : Machine ι α) (i : ι) (pc : Pc α) (pos : UInt64) (slot : Slot α) :
    (m.write i pc pos slot).pc i = pc :=
  Function.update_self _ _ _

theorem claimPop_pc (m : Machine ι α) (i : ι) (pos : UInt64) :
    (m.claimPop i pos).pc i = .popRead pos :=
  Function.update_self _ _ _

/-! ### Steps that move a program counter -/

theorem Holds.goto {i j : ι} {pc pc' : Pc α} (h : m.Holds j pc') : (m.goto i pc).Holds j pc' :=
  h.frame rfl (fun _ _ hk => hk) (fun _ _ hk => hk) le_rfl le_rfl (fun _ _ => rfl)
    (fun _ _ hpush => hpush.unpopped) fun _ _ hpop => ⟨hpop.unpushed, hpop.unreturned⟩

/-- A thread without a ticket may go wherever it may rely on what it finds there. -/
theorem Inv.goto (h : m.Inv) {i : ι} {pc : Pc α} (hi : (m.pc i).ticket = none)
    (hholds : m.Holds i pc) : (m.goto i pc).Inv := by
  refine ⟨{ h.toCounters with }, ?_, fun x hx => ?_, fun j => ?_⟩
  · refine h.toReturns.frame (i := i) (fun t r => ⟨fun heq => ?_, fun heq => ?_⟩)
      (fun j hj => goto_pc_ne pc hj) (fun _ _ hk => hk) rfl rfl <;> rw [heq] at hi <;> cases hi
  · obtain ⟨p, hp, hgen⟩ := h.slots x hx
    refine ⟨p, hp, hgen.frame rfl (fun _ _ hk => hk) le_rfl le_rfl (fun j pos hj _ => ?_) id id id⟩
    refine goto_pc_ne pc fun hji => ?_
    rw [hji, hi] at hj
    cases hj
  · by_cases hji : j = i
    · subst hji
      rw [goto_pc_self]
      exact hholds.goto
    · rw [goto_pc_ne pc hji]
      exact (h.threads j).goto

/-! ### The exchange on `head_` -/

section ClaimPush

variable (h : m.Inv) {i : ι} {data : α} {pos : UInt64} (hpc : m.pc i = .pushCas data pos)
  (hpos : pos.toNat = m.pushed.length)

include h hpc hpos

omit [DecidableEq ι] in
/-- A thread that wins the exchange has read the slot of its ticket, and the slot has not changed. -/
theorem Inv.sequence_of_pushCas : (m.queue.slot pos).sequence = pos := by
  obtain ⟨-, hsequence⟩ := h.holds hpc
  exact hsequence hpos

theorem Inv.claimPush_counters (hsmall : m.pushed.length + 1 < 2 ^ 63) :
    (m.claimPush i data pos).Counters := by
  have hfree := h.free_of_sequence hpos (congrArg UInt64.toNat (h.sequence_of_pushCas hpc hpos))
  have hsucc : (pos + 1).toNat = pos.toNat + 1 := h.toNat_succ hpos.le
  have hle := h.le
  have hlength : (m.claimPush i data pos).pushed.length = m.pushed.length + 1 := by
    simp [claimPush]
  refine ⟨⟨h.sized.pow, h.sized.mask⟩, by omega, hsucc.trans (by omega), h.tail, ?_, ?_, ?_,
    h.popTickets⟩
  · show m.popped.length ≤ _
    omega
  · show _ ≤ m.popped.length + m.queue.capacity.toNat
    omega
  · intro k t j x hk
    rcases getElem?_concat_cases hk with hk | ⟨rfl, hx⟩
    · exact h.pushTickets k t j x hk
    · cases hx
      exact hpos

theorem Inv.claimPush_slots (x : UInt64) (hx : x.toNat < m.queue.capacity.toNat) :
    ∃ p, p % m.queue.capacity.toNat = x.toNat ∧
      (m.claimPush i data pos).Generation (m.queue.buffer x) p := by
  have hseq := h.sequence_of_pushCas hpc hpos
  have hle := h.le
  have hlength : (m.claimPush i data pos).pushed.length = m.pushed.length + 1 := by
    simp [claimPush]
  by_cases hxi : x = m.queue.index pos
  · subst hxi
    refine ⟨pos.toNat, (h.sized.toNat_index pos).symm, ?_⟩
    refine .writing i pos rfl (congrArg UInt64.toNat hseq) ?_ (by omega)
      (.inr ⟨data, goto_pc_self i _⟩)
    show m.popped.length ≤ pos.toNat
    omega
  · obtain ⟨p, hp, hgen⟩ := h.slots x hx
    have hne := h.mod_ne_of_index_ne hxi hp
    refine ⟨p, hp, hgen.frame rfl (fun _ _ => getElem?_concat_of_eq_some _) (by omega) le_rfl
      (fun j t hj _ => goto_pc_ne _ fun hji => ?_) (fun hlo => ?_) id fun hhi => ?_⟩
    · rw [hji, hpc] at hj
      cases hj
    · have : p ≠ m.pushed.length := fun heq => hne (by rw [heq, hpos])
      omega
    · have : p + m.queue.capacity.toNat ≠ m.pushed.length := fun heq => hne (by
        rw [hpos, ← heq, Nat.add_mod_right])
      omega

omit [DecidableEq ι] in
/-- A pop that has not recycled its slot keeps the next ticket of the slot from being claimed. -/
theorem Inv.claimPush_popping {j : ι} {pos' : UInt64} {x : α} (hj : m.Popping j pos' x) :
    m.pushed.length + 1 ≤ pos'.toNat + m.queue.capacity.toNat := by
  have hunpushed := hj.unpushed
  have hlt := hj.lt
  have hle := h.le
  have hC := h.sized.two_le
  have hne : m.pushed.length ≠ pos'.toNat + m.queue.capacity.toNat := by
    intro heq
    have hindex : m.queue.index pos' = m.queue.index pos := by
      rw [h.sized.index_eq_iff, hpos, heq, Nat.add_mod_right]
    have hseq : pos = pos' + 1 := by
      rw [← h.sequence_of_pushCas hpc hpos, ← hj.sequence]
      exact congrArg (fun x => (m.queue.buffer x).sequence) hindex.symm
    have hsucc : (pos' + 1).toNat = pos'.toNat + 1 := h.toNat_succ (by omega)
    rw [← hseq] at hsucc
    omega
  omega

theorem Inv.claimPush_threads (j : ι) :
    (m.claimPush i data pos).Holds j ((m.claimPush i data pos).pc j) := by
  have hle := h.le
  have hlength : (m.claimPush i data pos).pushed.length = m.pushed.length + 1 := by
    simp [claimPush]
  by_cases hji : j = i
  · subst hji
    rw [show (m.claimPush j data pos).pc j = _ from goto_pc_self j _]
    refine ⟨?_, ?_, h.sequence_of_pushCas hpc hpos⟩
    · show (m.pushed ++ [(pos, j, data)])[pos.toNat]? = _
      rw [hpos]
      exact List.getElem?_concat_length
    · show m.popped.length ≤ pos.toNat
      omega
  · rw [show (m.claimPush i data pos).pc j = _ from goto_pc_ne _ hji]
    refine (h.threads j).frame rfl (fun _ _ => getElem?_concat_of_eq_some _) (fun _ _ hk => hk)
      (by omega) le_rfl (fun _ _ => rfl) (fun _ _ hpush => hpush.unpopped) fun pos' x hpop => ?_
    refine ⟨?_, hpop.unreturned⟩
    rw [hlength]
    exact h.claimPush_popping hpc hpos hpop

theorem Inv.claimPush (hsmall : m.pushed.length + 1 < 2 ^ 63) :
    (m.claimPush i data pos).Inv := by
  refine ⟨h.claimPush_counters hpc hpos hsmall, ?_, h.claimPush_slots hpc hpos,
    h.claimPush_threads hpc hpos⟩
  refine h.toReturns.frame (i := i) (fun t r => ⟨fun heq => ?_, fun heq => ?_⟩)
    (fun j hj => goto_pc_ne _ hj) (fun _ _ => getElem?_concat_of_eq_some _) rfl rfl <;>
    rw [heq] at hpc <;> cases hpc

end ClaimPush

/-! ### The exchange on `tail_` -/

section ClaimPop

variable (h : m.Inv) {i : ι} {pos : UInt64} (hpc : m.pc i = .popCas pos)
  (hpos : pos.toNat = m.popped.length)

include h hpc hpos

omit [DecidableEq ι] in
theorem Inv.sequence_of_popCas : (m.queue.slot pos).sequence = pos + 1 := by
  obtain ⟨-, hsequence⟩ := h.holds hpc
  exact hsequence hpos

omit [DecidableEq ι] in
theorem Inv.toNat_sequence_of_popCas :
    (m.queue.slot pos).sequence.toNat = pos.toNat + 1 := by
  have hle := h.le
  rw [h.sequence_of_popCas hpc hpos, h.toNat_succ (by omega)]

omit [DecidableEq ι] in
/-- The slot of a pop that wins the exchange holds the value that was pushed under the ticket. -/
theorem Inv.full_of_popCas :
    ∃ j data, m.pushed[pos.toNat]? = some (pos, j, data) ∧
      (m.queue.slot pos).data = some data := by
  obtain ⟨t, j, data, hpush, hdata⟩ :=
    h.full_of_sequence hpos (h.toNat_sequence_of_popCas hpc hpos)
  have ht : t = pos := UInt64.toNat_inj.mp (h.pushTickets _ t j data hpush)
  exact ⟨j, data, ht ▸ hpush, hdata⟩

theorem Inv.claimPop_counters : (m.claimPop i pos).Counters := by
  obtain ⟨j, data, hpush, -⟩ := h.full_of_popCas hpc hpos
  have hlt := (List.getElem?_eq_some_iff.mp hpush).1
  have hbound := h.bound
  have hsucc : (pos + 1).toNat = pos.toNat + 1 := h.toNat_succ (by omega)
  have hlength : (m.claimPop i pos).popped.length = m.popped.length + 1 := by simp [claimPop]
  refine ⟨⟨h.sized.pow, h.sized.mask⟩, h.small, h.head, hsucc.trans (by omega), ?_, ?_,
    h.pushTickets, ?_⟩
  · show _ ≤ m.pushed.length
    omega
  · show m.pushed.length ≤ _ + m.queue.capacity.toNat
    omega
  · intro k t j hk
    rcases getElem?_concat_cases hk with hk | ⟨rfl, hx⟩
    · exact h.popTickets k t j hk
    · cases hx
      exact hpos

theorem Inv.claimPop_slots (x : UInt64) (hx : x.toNat < m.queue.capacity.toNat) :
    ∃ p, p % m.queue.capacity.toNat = x.toNat ∧
      (m.claimPop i pos).Generation (m.queue.buffer x) p := by
  have hbound := h.bound
  have hlength : (m.claimPop i pos).popped.length = m.popped.length + 1 := by simp [claimPop]
  by_cases hxi : x = m.queue.index pos
  · subst hxi
    refine ⟨pos.toNat, (h.sized.toNat_index pos).symm, ?_⟩
    refine .reading i pos rfl (h.toNat_sequence_of_popCas hpc hpos) (by omega) ?_
      (.inl (goto_pc_self i _))
    show m.pushed.length ≤ pos.toNat + m.queue.capacity.toNat
    omega
  · obtain ⟨p, hp, hgen⟩ := h.slots x hx
    have hne := h.mod_ne_of_index_ne hxi hp
    refine ⟨p, hp, hgen.frame rfl (fun _ _ hk => hk) le_rfl (by omega)
      (fun j t hj _ => goto_pc_ne _ fun hji => ?_) id (fun hlo => ?_) id⟩
    · rw [hji, hpc] at hj
      cases hj
    · have : p ≠ m.popped.length := fun heq => hne (by rw [heq, hpos])
      omega

omit [DecidableEq ι] in
/-- A push that has not published its slot keeps its ticket from being popped. -/
theorem Inv.claimPop_pushing {j : ι} {pos' : UInt64} {x : α} (hj : m.Pushing j pos' x) :
    m.popped.length + 1 ≤ pos'.toNat := by
  have hunpopped := hj.unpopped
  have hne : pos'.toNat ≠ m.popped.length := by
    intro heq
    have hsame : pos' = pos := UInt64.toNat_inj.mp (heq.trans hpos.symm)
    have hseq := h.toNat_sequence_of_popCas hpc hpos
    rw [← hsame, hj.sequence] at hseq
    omega
  omega

theorem Inv.claimPop_threads (j : ι) :
    (m.claimPop i pos).Holds j ((m.claimPop i pos).pc j) := by
  have hbound := h.bound
  have hlength : (m.claimPop i pos).popped.length = m.popped.length + 1 := by simp [claimPop]
  by_cases hji : j = i
  · subst hji
    rw [show (m.claimPop j pos).pc j = _ from goto_pc_self j _]
    obtain ⟨k, data, hpush, hdata⟩ := h.full_of_popCas hpc hpos
    refine ⟨data, ⟨?_, ?_, h.sequence_of_popCas hpc hpos, ⟨k, hpush⟩, ?_⟩, hdata⟩
    · show (m.popped ++ [(pos, j)])[pos.toNat]? = _
      rw [hpos]
      exact List.getElem?_concat_length
    · show m.pushed.length ≤ pos.toNat + m.queue.capacity.toNat
      omega
    · intro hmem
      obtain ⟨⟨t, i', r⟩, hr, ht⟩ := List.mem_map.mp hmem
      have hlt := (List.getElem?_eq_some_iff.mp (h.values t i' r hr).1).1
      rw [show t = pos from ht] at hlt
      omega
  · rw [show (m.claimPop i pos).pc j = _ from goto_pc_ne _ hji]
    refine (h.threads j).frame rfl (fun _ _ hk => hk) (fun _ _ => getElem?_concat_of_eq_some _)
      le_rfl (by omega) (fun _ _ => rfl) (fun pos' x hpush => ?_)
      fun _ _ hpop => ⟨hpop.unpushed, hpop.unreturned⟩
    rw [hlength]
    exact h.claimPop_pushing hpc hpos hpush

omit hpos in
theorem Inv.claimPop_returns : (m.claimPop i pos).Returns := by
  refine ⟨fun t j r hr => ?_, h.once, fun k t j hk => ?_⟩
  · obtain ⟨hpop, hpush⟩ := h.values t j r hr
    exact ⟨getElem?_concat_of_eq_some _ hpop, hpush⟩
  · rcases getElem?_concat_cases hk with hk | ⟨-, hx⟩
    · refine (h.accounted k t j hk).imp_right fun hj => ?_
      rw [show (m.claimPop i pos).pc j = _ from goto_pc_ne _ ?_]
      · exact hj
      · rintro rfl
        rw [hpc] at hj
        simp at hj
    · cases hx
      exact .inr (.inl (goto_pc_self i _))

theorem Inv.claimPop : (m.claimPop i pos).Inv :=
  ⟨h.claimPop_counters hpc hpos, h.claimPop_returns hpc, h.claimPop_slots hpc hpos,
    h.claimPop_threads hpc hpos⟩

end ClaimPop

/-! ### Writes to the slot of a ticket -/

/-- A thread may write to the slot of its ticket, and only it can: no other thread relies on the
slot. -/
theorem Inv.write (h : m.Inv) {i : ι} {pos : UInt64} (hi : (m.pc i).ticket = some pos) {pc : Pc α}
    {slot : Slot α} {returned : List (UInt64 × ι × Option α)}
    (hreturned : ∀ t ∈ returned.map Prod.fst, t ∈ m.returned.map Prod.fst ∨ t = pos)
    (hgen : ∃ p, p % m.queue.capacity.toNat = pos.toNat % m.queue.capacity.toNat ∧
      ({ m.write i pc pos slot with returned := returned } : Machine ι α).Generation slot p)
    (hholds : ({ m.write i pc pos slot with returned := returned } : Machine ι α).Holds i pc)
    (hreturns : ({ m.write i pc pos slot with returned := returned } : Machine ι α).Returns) :
    ({ m.write i pc pos slot with returned := returned } : Machine ι α).Inv := by
  have halone : ∀ j pos', j ≠ i → m.Relies j pos' → m.queue.index pos' ≠ m.queue.index pos :=
    fun j pos' hji hj hindex => hji (h.alone (h.claims hi) hj hindex)
  refine ⟨⟨⟨h.sized.pow, h.sized.mask⟩, h.small, h.head, h.tail, h.le, h.bound, h.pushTickets,
    h.popTickets⟩, hreturns, fun x hx => ?_, fun j => ?_⟩
  · by_cases hxi : x = m.queue.index pos
    · subst hxi
      rw [show (m.write i pc pos slot).queue.buffer (m.queue.index pos) = slot from
        Function.update_self _ _ _]
      obtain ⟨p, hp, hgen⟩ := hgen
      exact ⟨p, hp.trans (h.sized.toNat_index pos).symm, hgen⟩
    · rw [show (m.write i pc pos slot).queue.buffer x = m.queue.buffer x from
        Function.update_of_ne hxi _ _]
      obtain ⟨p, hp, hgen⟩ := h.slots x hx
      have hne := h.mod_ne_of_index_ne hxi hp
      refine ⟨p, hp, hgen.frame rfl (fun _ _ hk => hk) le_rfl le_rfl (fun j t hj ht => ?_) id id id⟩
      refine goto_pc_ne _ fun hji => hne ?_
      rw [hji, hi] at hj
      rw [← ht, ← Option.some.inj hj]
  · by_cases hji : j = i
    · subst hji
      rw [show (m.write j pc pos slot).pc j = pc from goto_pc_self j _]
      exact hholds
    · rw [show (m.write i pc pos slot).pc j = m.pc j from goto_pc_ne _ hji]
      refine (h.threads j).frame rfl (fun _ _ hk => hk) (fun _ _ hk => hk) le_rfl le_rfl
        (fun pos' hrel => m.queue.setSlot_slot_ne pos slot (halone j pos' hji hrel))
        (fun _ _ hpush => hpush.unpopped) fun pos' x hpop => ⟨hpop.unpushed, fun hmem => ?_⟩
      rcases hreturned pos' hmem with hmem | rfl
      · exact hpop.unreturned hmem
      · exact halone j pos' hji (.popping x hpop) rfl

/-- A push moves its value into its slot. -/
theorem Inv.writeData (h : m.Inv) {i : ι} {data : α} {pos : UInt64}
    (hpc : m.pc i = .pushWrite data pos) :
    (m.write i (.pushStore pos) pos { m.queue.slot pos with data := some data }).Inv := by
  have hpush : m.Pushing i pos data := h.holds hpc
  refine h.write (by rw [hpc]; rfl) (fun t (ht : t ∈ m.returned.map Prod.fst) => .inl ht)
    ⟨pos.toNat, rfl, ?_⟩ ?_ ?_
  · exact .writing i pos rfl (congrArg UInt64.toNat hpush.sequence) hpush.unpopped hpush.lt
      (.inl (goto_pc_self i _))
  · refine ⟨data, ⟨hpush.pushed, hpush.unpopped, ?_⟩, ?_⟩
    · exact (congrArg Slot.sequence (m.queue.setSlot_slot pos _)).trans hpush.sequence
    · exact congrArg Slot.data (m.queue.setSlot_slot pos _)
  · refine h.toReturns.frame (i := i) (fun t r => ?_) (fun j hj => goto_pc_ne _ hj)
      (fun _ _ hk => hk) rfl rfl
    rw [hpc]
    exact ⟨by simp, by simp⟩

/-- A push publishes its slot. -/
theorem Inv.publish (h : m.Inv) {i : ι} {pos : UInt64} (hpc : m.pc i = .pushStore pos) :
    (m.write i .idle pos { m.queue.slot pos with sequence := pos + 1 }).Inv := by
  obtain ⟨data, hpush, hdata⟩ := h.holds hpc
  refine h.write (by rw [hpc]; rfl) (fun t (ht : t ∈ m.returned.map Prod.fst) => .inl ht)
    ⟨pos.toNat, rfl, ?_⟩ trivial ?_
  · exact .full pos i data (h.toNat_succ hpush.lt.le) hpush.unpopped hpush.lt hpush.pushed hdata
  · refine h.toReturns.frame (i := i) (fun t r => ?_) (fun j hj => goto_pc_ne _ hj)
      (fun _ _ hk => hk) rfl rfl
    rw [hpc]
    exact ⟨by simp, by simp⟩

/-- A pop moves the value out of its slot. -/
theorem Inv.takeData (h : m.Inv) {i : ι} {pos : UInt64} (hpc : m.pc i = .popRead pos) :
    (m.write i (.popStore pos (m.queue.slot pos).data) pos
      { m.queue.slot pos with data := none }).Inv := by
  obtain ⟨data, hpop, hdata⟩ := h.holds hpc
  have hle := h.le
  have hlt := hpop.lt
  refine h.write (by rw [hpc]; rfl) (fun t (ht : t ∈ m.returned.map Prod.fst) => .inl ht)
    ⟨pos.toNat, rfl, ?_⟩ ?_ ?_
  · refine .reading i pos rfl ?_ hpop.lt hpop.unpushed (.inr ⟨_, goto_pc_self i _⟩)
    exact (congrArg UInt64.toNat hpop.sequence).trans (h.toNat_succ (by omega))
  · refine ⟨data, ⟨hpop.popped, hpop.unpushed, ?_, hpop.pushed, hpop.unreturned⟩, hdata⟩
    exact (congrArg Slot.sequence (m.queue.setSlot_slot pos _)).trans hpop.sequence
  · refine ⟨h.values, h.once, fun k t j hk => (h.accounted k t j hk).imp_right fun hj => ?_⟩
    by_cases hji : j = i
    · subst hji
      rw [hpc] at hj
      have ht : pos = t := by simpa using hj
      refine .inr ⟨(m.queue.slot pos).data, ?_⟩
      rw [← ht]
      exact goto_pc_self j _
    · rw [show (m.write i _ pos _).pc j = m.pc j from goto_pc_ne _ hji]
      exact hj

/-- A pop recycles its slot for the push that comes round, and returns its value. -/
theorem Inv.recycle (h : m.Inv) {i : ι} {pos : UInt64} {r : Option α}
    (hpc : m.pc i = .popStore pos r) :
    ({ m.write i .idle pos { m.queue.slot pos with sequence := pos + m.queue.capacity } with
      returned := m.returned ++ [(pos, i, r)] } : Machine ι α).Inv := by
  obtain ⟨data, hpop, hr⟩ := h.holds hpc
  have hle := h.le
  have hlt := hpop.lt
  have hsmall := h.small
  have hcap := h.sized.capacity_le
  refine h.write (by rw [hpc]; rfl) (fun t ht => ?_)
    ⟨pos.toNat + m.queue.capacity.toNat, Nat.add_mod_right _ _, ?_⟩ trivial ?_
  · simp only [List.map_append, List.map_cons, List.map_nil, List.mem_append,
      List.mem_singleton] at ht
    exact ht
  · refine .free ?_ hpop.unpushed ?_
    · show (pos + m.queue.capacity).toNat = _
      rw [UInt64.toNat_add]
      omega
    · show _ < m.popped.length + m.queue.capacity.toNat
      omega
  · refine ⟨fun t j r' hr' => ?_, ?_, fun k t j hk => ?_⟩
    · rcases List.mem_append.mp hr' with hr' | hr'
      · exact h.values t j r' hr'
      · obtain ⟨k, hk⟩ := hpop.pushed
        cases List.mem_singleton.mp hr'
        exact ⟨hpop.popped, k, data, hk, hr⟩
    · show ((m.returned ++ [(pos, i, r)]).map Prod.fst).Nodup
      rw [List.map_append]
      refine List.nodup_append.mpr ⟨h.once, by simp, fun t ht t' ht' heq => ?_⟩
      rw [heq, List.mem_singleton.mp ht'] at ht
      exact hpop.unreturned ht
    · rcases h.accounted k t j hk with ⟨r', hr'⟩ | hj
      · exact .inl ⟨r', List.mem_append_left _ hr'⟩
      · by_cases hji : j = i
        · subst hji
          rw [hpc] at hj
          have ht : pos = t := by simpa using hj
          exact .inl ⟨r, by simp [ht]⟩
        · refine .inr ?_
          rw [show (m.write i .idle pos _).pc j = m.pc j from goto_pc_ne _ hji]
          exact hj

end Machine

end LibE3
