import LibE3.Connector.Frame
import LibE3.Connector.Stream
import LibE3.Mpmc.Verdicts

/-! The way of the outbound PDUs, from the threads that queue them to the peer.  Any number of threads
push to the ring of the response queue, one atomic step at a time and in any order, and one thread, that
of `publisher_loop`, pops, encodes and sends.  With one consumer the pops return in the order of their
tickets, so the loop takes the PDUs in the order in which the pushes claimed theirs. -/

namespace LibE3

open Transition

/-- The ring, what `pop` has returned to the loop and it has not handled yet, the PDUs that it has
handled, and the buffers that it has handed to `send`. -/
structure Outbound (ι : Type) where
  machine : Machine ι Pdu
  inHand : Option Pdu := none
  taken : List Pdu := []
  sent : List Octets := []

/-- A thread calls `queue_outbound`, the loop tries the ring, a thread takes the next step of its call,
or the loop encodes and sends what it has popped.  The timeouts of `pop` and the flags only decide how
often the loop tries. -/
inductive OutboundEvent (ι : Type)
  | push (i : ι) (pdu : Pdu)
  | pop
  | advance (i : ι) (spurious : Bool)
  | publish

namespace Outbound

variable {ι : Type} [DecidableEq ι]

def start (q : MpmcQueue Pdu) : Outbound ι where
  machine := Machine.start q

/-- What the next step of a pop returns, if it is the last one. -/
def returning : Pc Pdu → Option (Option Pdu)
  | .popStore _ r => some r
  | _ => none

/-- The buffer that the loop sends for a PDU, unless it cannot be encoded. -/
def encoded (encoder : E3Encoder) (pdu : Pdu) : Option Octets :=
  match encoder.encode pdu with
  | .ok message => some message.buffer
  | .error _ => none

def step (encoder : E3Encoder) (publisher : ι) (s : Outbound ι) :
    OutboundEvent ι → Option (Outbound ι)
  | .push i pdu =>
    if i = publisher then none
    else (s.machine.step (.callPush i pdu)).map fun machine => { s with machine }
  | .pop =>
    match s.inHand with
    | none => (s.machine.step (.callPop publisher)).map fun machine => { s with machine }
    | some _ => none
  | .advance i spurious =>
    (s.machine.step (.advance i spurious)).map fun machine =>
      if i = publisher then
        { s with machine, inHand := (returning (s.machine.pc publisher)).getD s.inHand }
      else { s with machine }
  | .publish =>
    match s.inHand with
    | none => none
    | some pdu =>
      some { s with
        inHand := none
        taken := s.taken ++ [pdu]
        sent := s.sent ++ (encoded encoder pdu).toList }

/-- The interleavings of any number of producers with the thread `publisher`. -/
def threads (encoder : E3Encoder) (publisher : ι) (q : MpmcQueue Pdu) :
    System (Outbound ι) (OutboundEvent ι) :=
  .ofStep (start q) (step encoder publisher)

/-- The PDUs in the order in which their pushes claimed tickets. -/
def queued (s : Outbound ι) : List Pdu := s.machine.pushed.map fun x => x.2.2

omit [DecidableEq ι] in
theorem queued_length (s : Outbound ι) : s.queued.length = s.machine.pushed.length :=
  List.length_map _

/-! ### One consumer -/

section Steps

variable {encoder : E3Encoder} {publisher : ι} {s s' : Outbound ι}

/-- An event of the ring, of a producer or of the publisher, or the publication of a PDU. -/
inductive Steps (encoder : E3Encoder) (publisher : ι) (s : Outbound ι) : Outbound ι → Prop
  | push (i : ι) (pdu : Pdu) (m : Machine ι Pdu) (hi : i ≠ publisher)
      (hm : s.machine.step (.callPush i pdu) = some m) :
      Steps encoder publisher s { s with machine := m }
  | pop (m : Machine ι Pdu) (hnone : s.inHand = none)
      (hm : s.machine.step (.callPop publisher) = some m) :
      Steps encoder publisher s { s with machine := m }
  | produce (i : ι) (spurious : Bool) (m : Machine ι Pdu) (hi : i ≠ publisher)
      (hm : s.machine.step (.advance i spurious) = some m) :
      Steps encoder publisher s { s with machine := m }
  | consume (spurious : Bool) (m : Machine ι Pdu)
      (hm : s.machine.step (.advance publisher spurious) = some m) :
      Steps encoder publisher s
        { s with machine := m, inHand := (returning (s.machine.pc publisher)).getD s.inHand }
  | publish (pdu : Pdu) (hsome : s.inHand = some pdu) :
      Steps encoder publisher s
        { s with
          inHand := none
          taken := s.taken ++ [pdu]
          sent := s.sent ++ (encoded encoder pdu).toList }

theorem steps_of_step {e : OutboundEvent ι} (h : step encoder publisher s e = some s') :
    Steps encoder publisher s s' := by
  cases e with
  | push i pdu =>
    simp only [step] at h
    split at h
    · cases h
    · obtain ⟨m, hm, rfl⟩ := Option.map_eq_some_iff.mp h
      exact .push i pdu m ‹_› hm
  | pop =>
    simp only [step] at h
    split at h
    · obtain ⟨m, hm, rfl⟩ := Option.map_eq_some_iff.mp h
      exact .pop m ‹_› hm
    · cases h
  | advance i spurious =>
    obtain ⟨m, hm, rfl⟩ := Option.map_eq_some_iff.mp h
    by_cases hi : i = publisher
    · subst hi
      rw [if_pos rfl]
      exact .consume spurious m hm
    · rw [if_neg hi]
      exact .produce i spurious m hi hm
  | publish =>
    simp only [step] at h
    split at h
    · cases h
    · cases h
      exact .publish _ ‹_›

/-- The ring takes a step of its own, or none. -/
theorem machine_of_steps (h : Steps encoder publisher s s') :
    s'.machine = s.machine ∨ ∃ e, s.machine.step e = some s'.machine := by
  cases h with
  | push i pdu m hi hm | pop m hnone hm | produce i spurious m hi hm | consume spurious m hm =>
    exact .inr ⟨_, hm⟩
  | publish pdu hsome => exact .inl rfl

end Steps

/-- Only the publisher pops, it does not push, and its pops return in the order of their tickets: those
that have returned, and then the one that it has claimed. -/
structure InTurn (publisher : ι) (s : Outbound ι) : Prop where
  alone : ∀ i, i ≠ publisher → (s.machine.pc i).isPop = false
  consumer : (s.machine.pc publisher).isPush = false
  tickets : s.machine.popped.map Prod.fst =
    s.machine.returned.map Prod.fst ++ (s.machine.pc publisher).pops.toList
  values : s.machine.returned.map (fun x => x.2.2) = (s.taken ++ s.inHand.toList).map some
  busy : s.inHand.isSome = true → s.machine.pc publisher = .idle

/-- A step of a call of `try_push` leaves the pops alone. -/
theorem pops_of_advance {m m' : Machine ι Pdu} {i : ι} {spurious : Bool}
    (h : m.advance i spurious = some m') (hi : (m.pc i).isPop = false) :
    m'.popped = m.popped ∧ m'.returned = m.returned := by
  cases Machine.advances_of_advance h with
  | claimPop pos hpc | recycle pos r hpc =>
    rw [hpc] at hi
    cases hi
  | _ => exact ⟨rfl, rfl⟩

namespace InTurn

variable {encoder : E3Encoder} {publisher : ι} {s s' : Outbound ι}

/-- What a producer does leaves the publisher and the pops alone. -/
theorem of_producer (h : InTurn publisher s) {i : ι} (hi : i ≠ publisher) {m : Machine ι Pdu}
    (hothers : ∀ j, j ≠ i → m.pc j = s.machine.pc j) (hown : (m.pc i).isPop = false)
    (hpopped : m.popped = s.machine.popped) (hreturned : m.returned = s.machine.returned) :
    InTurn publisher { s with machine := m } := by
  have hpublisher := hothers publisher hi.symm
  refine ⟨fun j hj => ?_, ?_, ?_, ?_, ?_⟩
  · by_cases hji : j = i
    · exact hji ▸ hown
    · exact hothers j hji ▸ h.alone j hj
  · rw [hpublisher]
    exact h.consumer
  · rw [hpopped, hreturned, hpublisher]
    exact h.tickets
  · rw [hreturned]
    exact h.values
  · rw [hpublisher]
    exact h.busy

/-- What the publisher does between the claims and the returns of its pops. -/
theorem of_publisher (h : InTurn publisher s) {m : Machine ι Pdu}
    {pc : Pc Pdu} (hpc : m.pc = Function.update s.machine.pc publisher pc)
    (hpush : pc.isPush = false) {inHand : Option Pdu}
    (htickets : m.popped.map Prod.fst = m.returned.map Prod.fst ++ pc.pops.toList)
    (hvalues : m.returned.map (fun x => x.2.2) = (s.taken ++ inHand.toList).map some)
    (hbusy : inHand.isSome = true → pc = .idle) :
    InTurn publisher { s with machine := m, inHand } := by
  have hown : m.pc publisher = pc := by rw [hpc, Function.update_self]
  refine ⟨fun j hj => ?_, by rw [hown]; exact hpush, by rw [hown]; exact htickets, hvalues,
    by rw [hown]; exact hbusy⟩
  rw [hpc, Function.update_of_ne hj]
  exact h.alone j hj

theorem consume (h : InTurn publisher s) (hinv : s.machine.Inv) {m : Machine ι Pdu}
    {spurious : Bool} (hm : s.machine.advance publisher spurious = some m) :
    InTurn publisher { s with
      machine := m, inHand := (returning (s.machine.pc publisher)).getD s.inHand } := by
  have hnone : s.inHand = none := by
    cases hhand : s.inHand with
    | none => rfl
    | some pdu =>
      have hidle := h.busy (by rw [hhand]; rfl)
      simp [Machine.advance, hidle] at hm
  have hconsumer := h.consumer
  have htickets := h.tickets
  have hvalues := h.values
  rw [hnone] at hvalues
  cases Machine.advances_of_advance hm with
  | loadHead data hpc | freeSlot data pos hpc | refusePush data pos hpc | retryPush data pos hpc
  | claimPush data pos hpc | missPush data pos hpc | writeData data pos hpc | publish pos hpc =>
    rw [hpc] at hconsumer
    cases hconsumer
  | loadTail hpc | fullSlot pos hpc | retryPop pos hpc | missPop pos hpc | refusePop pos hpc
  | takeData pos hpc =>
    rw [hpc] at htickets ⊢
    rw [hnone]
    exact h.of_publisher rfl rfl (by exact htickets) hvalues (by simp [returning])
  | claimPop pos hpc =>
    rw [hpc] at htickets ⊢
    rw [hnone]
    refine h.of_publisher rfl rfl ?_ hvalues (by simp [returning])
    simp only [Pc.pops, Option.toList_none, List.append_nil] at htickets
    change (s.machine.popped ++ [(pos, publisher)]).map Prod.fst = _ ++ [pos]
    rw [List.map_append, htickets]
    rfl
  | recycle pos r hpc =>
    obtain ⟨data, -, rfl⟩ := hinv.holds hpc
    rw [hpc] at htickets ⊢
    refine h.of_publisher rfl rfl ?_ ?_ fun _ => rfl
    · change s.machine.popped.map Prod.fst = _ ++ []
      rw [htickets, List.append_nil, List.map_append]
      rfl
    · simp only [Option.toList_none, List.append_nil] at hvalues
      simp [returning, hvalues]

theorem steps (h : InTurn publisher s) (hinv : s.machine.Inv)
    (hsteps : Steps encoder publisher s s') : InTurn publisher s' := by
  cases hsteps with
  | push i pdu m hi hm =>
    obtain ⟨-, rfl⟩ := Machine.step_callPush hm
    refine h.of_producer hi (fun j hj => Machine.goto_pc_ne _ hj) ?_ rfl rfl
    rw [Machine.goto_pc_self]
    rfl
  | pop m hnone hm =>
    obtain ⟨hidle, rfl⟩ := Machine.step_callPop hm
    have htickets := h.tickets
    have hvalues := h.values
    rw [hidle] at htickets
    exact h.of_publisher rfl rfl (by exact htickets) hvalues (by rw [hnone]; simp)
  | produce i spurious m hi hm =>
    have hstepped := Machine.stepped_of_advance hm
    obtain ⟨hpopped, hreturned⟩ := pops_of_advance hm (h.alone i hi)
    refine h.of_producer hi hstepped.others ?_ hpopped hreturned
    obtain hidle | ⟨-, hpop, -⟩ := hstepped.own
    · rw [hidle]
      rfl
    · rw [hpop]
      exact h.alone i hi
  | consume spurious m hm => exact h.consume hinv hm
  | publish pdu hsome =>
    have hvalues := h.values
    rw [hsome] at hvalues
    exact ⟨h.alone, h.consumer, h.tickets, by simpa using hvalues, (by simp)⟩

end InTurn

omit [DecidableEq ι] in
theorem inTurn_start (publisher : ι) (q : MpmcQueue Pdu) : InTurn publisher (start q) :=
  ⟨fun _ _ => rfl, rfl, rfl, rfl, fun _ => rfl⟩

/-- Both invariants hold in every reachable state with fewer than `2^63` claimed pushes. -/
theorem inTurn_of_reachable {encoder : E3Encoder} {publisher : ι} {minCapacity : UInt64}
    {q : MpmcQueue Pdu} (hq : MpmcQueue.new minCapacity = some q) {s : Outbound ι}
    (hs : (threads encoder publisher q).Reachable s) (hsmall : s.machine.pushed.length < 2 ^ 63) :
    s.machine.Inv ∧ InTurn publisher s ∧ s.sent = s.taken.filterMap (encoded encoder) := by
  refine System.Reachable.induction (P := fun s => s.machine.pushed.length < 2 ^ 63 →
    s.machine.Inv ∧ InTurn publisher s ∧ s.sent = s.taken.filterMap (encoded encoder)) ?_ ?_ hs hsmall
  · rintro s rfl -
    exact ⟨Machine.inv_start hq, inTurn_start publisher q, rfl⟩
  · intro s e s' _ ih hstep hsmall'
    have hsteps := steps_of_step hstep
    have hbefore : s.machine.pushed.length ≤ s'.machine.pushed.length := by
      obtain hsame | ⟨e, he⟩ := machine_of_steps hsteps
      · rw [hsame]
      · exact Machine.step_pushed_length he
    obtain ⟨hinv, hturn, hsent⟩ := ih (by omega)
    refine ⟨?_, hturn.steps hinv hsteps, ?_⟩
    · obtain hsame | ⟨e, he⟩ := machine_of_steps hsteps
      · rw [hsame]
        exact hinv
      · exact hinv.step he hsmall'
    · cases hsteps with
      | publish pdu hsome =>
        simp only [List.filterMap_append, hsent]
        cases hencoded : encoded encoder pdu <;> simp [hencoded]
      | _ => exact hsent

/-! ### The order of the PDUs -/

omit [DecidableEq ι] in
/-- The `k`-th pop of the publisher to return has the `k`-th ticket. -/
theorem InTurn.returned_ticket {publisher : ι} {s : Outbound ι} (h : InTurn publisher s)
    (hinv : s.machine.Inv) {k : Nat} {t : UInt64} {i : ι} {r : Option Pdu}
    (hk : s.machine.returned[k]? = some (t, i, r)) : t.toNat = k := by
  have hlt := (List.getElem?_eq_some_iff.mp hk).1
  have hfirst : (s.machine.popped.map Prod.fst)[k]? = some t := by
    rw [h.tickets, List.getElem?_append_left (by rwa [List.length_map]), List.getElem?_map, hk]
    rfl
  rw [List.getElem?_map] at hfirst
  obtain ⟨⟨t', j⟩, hpopped, rfl⟩ := Option.map_eq_some_iff.mp hfirst
  exact hinv.popTickets k t' j hpopped

omit [DecidableEq ι] in
/-- What the loop has popped is what was queued first. -/
theorem InTurn.handled_eq {publisher : ι} {s : Outbound ι} (h : InTurn publisher s)
    (hinv : s.machine.Inv) :
    s.taken ++ s.inHand.toList = s.queued.take s.machine.returned.length := by
  refine List.map_injective_iff.mpr (Option.some_injective Pdu) ?_
  rw [← h.values]
  refine List.ext_getElem? fun k => ?_
  rcases hk : s.machine.returned[k]? with _ | ⟨t, i, r⟩
  · have hle := List.getElem?_eq_none_iff.mp hk
    rw [List.getElem?_map, hk, List.getElem?_map, List.getElem?_take_eq_none hle]
    rfl
  · have hlt := (List.getElem?_eq_some_iff.mp hk).1
    have ht := h.returned_ticket hinv hk
    obtain ⟨-, j, data, hpushed, rfl⟩ := hinv.values t i r (List.mem_of_getElem? hk)
    rw [ht] at hpushed
    rw [List.getElem?_map, hk, List.getElem?_map, List.getElem?_take_of_lt hlt, queued,
      List.getElem?_map, hpushed]
    rfl

omit [DecidableEq ι] in
/-- With nothing in the ring and no call in progress, everything that was queued has been popped. -/
theorem InTurn.returned_length {publisher : ι} {s : Outbound ι} (h : InTurn publisher s)
    (hinv : s.machine.Inv) (hidle : s.machine.pc publisher = .idle)
    (hempty : s.machine.queue.head = s.machine.queue.tail) :
    s.machine.returned.length = s.machine.pushed.length := by
  have htickets := congrArg List.length h.tickets
  rw [hidle] at htickets
  have hcounters : s.machine.pushed.length = s.machine.popped.length := by
    rw [← hinv.head, ← hinv.tail, hempty]
  simpa [hcounters, Pc.pops] using htickets.symm

/-- However the threads interleave, `publisher_loop` takes the PDUs in the order in which the pushes
claimed their tickets, which is that of each thread, each once and with none left out: what it has
handled and what it has in hand is what was queued first.  It sends the encodings of what it has
handled, without those that cannot be encoded; and once the ring is empty and the loop is between two
calls of `pop`, everything that was queued has been handled or is in hand. -/
theorem published_in_order (ι : Type) [DecidableEq ι] (encoder : E3Encoder) (publisher : ι)
    (minCapacity : UInt64) (q : MpmcQueue Pdu) (hq : MpmcQueue.new minCapacity = some q)
    (s : Outbound ι) (hs : (threads encoder publisher q).Reachable s)
    (hsmall : s.machine.pushed.length < 2 ^ 63) :
    s.taken ++ s.inHand.toList <+: s.queued ∧
    s.sent = s.taken.filterMap (encoded encoder) ∧
    (s.machine.pc publisher = .idle → s.machine.queue.head = s.machine.queue.tail →
      s.taken ++ s.inHand.toList = s.queued) := by
  obtain ⟨hinv, hturn, hsent⟩ := inTurn_of_reachable hq hs hsmall
  rw [hturn.handled_eq hinv]
  refine ⟨List.take_prefix _ _, hsent, fun hidle hempty => ?_⟩
  rw [hturn.returned_length hinv hidle hempty]
  exact List.take_of_length_le (queued_length s).le

/-- An indication for a dApp. -/
def indication (dappIdentifier : UInt32) : Pdu where
  type := .indicationMessage
  choice := .indicationMessage ⟨dappIdentifier, 1, [0xAB]⟩
  messageId := 1
  timestamp := 0

/-- Two threads queue an indication each at the same time, and the one that began later claims the first
ticket.  A third thread publishes both. -/
def handOver : List (OutboundEvent (Fin 3)) :=
  [.push 0 (indication 1), .push 1 (indication 2), .advance 0 false, .advance 1 false,
    .advance 0 false, .advance 1 false, .advance 1 false] ++
    List.replicate 5 (.advance 0 false) ++ List.replicate 2 (.advance 1 false) ++
    .pop :: List.replicate 5 (.advance 2 false) ++ .publish ::
    .pop :: List.replicate 5 (.advance 2 false) ++ [.publish]

/-- The run of `handOver` ends with everything taken. -/
theorem execute_handOver :
    ∃ (q : MpmcQueue Pdu) (s : Outbound (Fin 3)), MpmcQueue.new 2 = some q ∧
      (threads (JsonE3.encoder Json.textCodec) 2 q).Reachable s ∧
      s.queued = [indication 2, indication 1] ∧ s.sent.length = 2 ∧ s.inHand = none ∧
      s.machine.pc 2 = .idle ∧ s.machine.queue.head = s.machine.queue.tail := by
  obtain ⟨q, hq⟩ := Option.isSome_iff_exists.mp
    (show (MpmcQueue.new 2 : Option (MpmcQueue Pdu)).isSome = true from
      MpmcQueue.new_isSome (by decide))
  have hrun : ((MpmcQueue.new 2).bind fun q =>
      (System.execute (step (JsonE3.encoder Json.textCodec) 2) (start q) handOver).map fun s =>
        (s.queued, s.sent.length, s.inHand, s.machine.pc 2,
          decide (s.machine.queue.head = s.machine.queue.tail))) =
      some ([indication 2, indication 1], 2, none, .idle, true) := by decide +kernel
  rw [hq, Option.bind_some] at hrun
  obtain ⟨s, hs, heq⟩ := Option.map_eq_some_iff.mp hrun
  simp only [Prod.mk.injEq, decide_eq_true_eq] at heq
  exact ⟨q, s, hq, System.reachable_of_execute _ hs, heq⟩

theorem published_in_order_handOver :
    ∃ (q : MpmcQueue Pdu) (s : Outbound (Fin 3)), MpmcQueue.new 2 = some q ∧
      (threads (JsonE3.encoder Json.textCodec) 2 q).Reachable s ∧
      s.queued = [indication 2, indication 1] ∧ s.taken ++ s.inHand.toList = s.queued := by
  obtain ⟨q, s, hq, hs, hqueued, -, -, hidle, hempty⟩ := execute_handOver
  have hsmall : s.machine.pushed.length < 2 ^ 63 := by
    rw [← queued_length, hqueued]
    decide
  obtain ⟨-, -, hall⟩ :=
    published_in_order (Fin 3) (JsonE3.encoder Json.textCodec) 2 2 q hq s hs hsmall
  exact ⟨q, s, hq, hs, hqueued, hall hidle hempty⟩

/-! ### The peer -/

/-- The PDUs that both ends of an encoder understand alike. -/
inductive Conveyed : E3Encoder → Pdu → Prop
  | json (codec : JsonCodec) {pdu : Pdu} (h : Stream.Textual pdu) :
      Conveyed (JsonE3.encoder codec) pdu
  | asn1 (aper : Asn1.Aper) {pdu : Pdu} (h : pdu.Carried) : Conveyed (Asn1.encoder aper) pdu

theorem Conveyed.restored {encoder : E3Encoder} {pdu : Pdu} (h : Conveyed encoder pdu)
    {message : EncodedMessage} (hencode : encoder.encode pdu = .ok message) :
    Stream.Restored encoder (pdu, message) := by
  cases h with
  | json codec h => exact Stream.restored_of_textual hencode h
  | asn1 aper h => exact Stream.restored_of_carried hencode h

/-- The PDUs that can be encoded. -/
def encodable (encoder : E3Encoder) (pdus : List Pdu) : List Pdu :=
  pdus.filter fun pdu => (encoded encoder pdu).isSome

/-- What is decoded from the buffers of PDUs is what the PDUs say. -/
theorem read_encoded {encoder : E3Encoder} {pdus : List Pdu}
    (hconveyed : ∀ pdu ∈ pdus, Conveyed encoder pdu) (now : UInt64) :
    (pdus.filterMap (encoded encoder)).filterMap (fun m => Stream.read encoder (m, now)) =
      (encodable encoder pdus).map Pdu.content := by
  induction pdus with
  | nil => rfl
  | cons pdu pdus ih =>
    obtain ⟨hpdu, hpdus⟩ := List.forall_mem_cons.mp hconveyed
    rw [encodable, List.filter_cons]
    cases hencode : encoder.encode pdu with
    | error code =>
      have hnone : encoded encoder pdu = none := by rw [encoded, hencode]
      rw [List.filterMap_cons_none hnone, hnone]
      exact ih hpdus
    | ok message =>
      have hsome : encoded encoder pdu = some message.buffer := by rw [encoded, hencode]
      obtain ⟨pdu', hdecode, hcontent⟩ := hpdu.restored hencode now
      have hread : Stream.read encoder (message.buffer, now) = some pdu.content := by
        simp only [Stream.read, Stream.Round.decode, hdecode, Option.map_some, hcontent]
      have hrest := congrArg (pdu.content :: ·) (ih hpdus)
      rw [List.filterMap_cons_some hsome, List.filterMap_cons, hread, hsome]
      exact hrest

theorem sendAll_accepting {messages : List Octets} {sends : List Posix.Sends}
    (hlength : sends.length = messages.length) (hsends : ∀ x ∈ sends, x.Accepting) :
    Posix.sendAll (messages.zip sends) =
      some ((messages.map Posix.frame).flatten, messages.map fun _ => true) := by
  induction messages generalizing sends with
  | nil => rfl
  | cons m messages ih =>
    cases sends with
    | nil => cases hlength
    | cons x sends =>
      obtain ⟨hx, hsends⟩ := List.forall_mem_cons.mp hsends
      rw [List.zip_cons_cons, Posix.sendAll, Posix.sendInChunks_takes (hx.takes _), Option.bind_some,
        ih (Nat.succ.inj hlength) hsends]
      rfl

/-- From the threads that queue PDUs to the peer.  The PDUs that were queued are among those that both
ends understand alike, their messages have a length that a frame can have, every header goes out in one
`::send`, and no `::send` and no `::recv` fails.  Then every message that the loop has sent is written
whole, the peer's successive calls of `recv_with_size` return these messages however the bodies and what
is received are cut, and what the peer decodes is what the encodable PDUs say that were queued first, in
the order of their tickets: all of them, once the ring is empty and the loop has nothing in hand. -/
theorem peer_reads_queued (ι : Type) [DecidableEq ι] (encoder : E3Encoder) (publisher : ι)
    (minCapacity : UInt64) (q : MpmcQueue Pdu) (hq : MpmcQueue.new minCapacity = some q)
    (s : Outbound ι) (hs : (threads encoder publisher q).Reachable s)
    (hsmall : s.machine.pushed.length < 2 ^ 63)
    (hconveyed : ∀ pdu ∈ s.queued, Conveyed encoder pdu)
    (hframed : ∀ pdu ∈ s.queued, ∀ message, encoded encoder pdu = some message →
      Posix.Framed message)
    (sends : List Posix.Sends) (hsends : ∀ x ∈ sends, x.Accepting)
    (hwritten : sends.length = s.sent.length) (scripts : List Transfer.Script)
    (hscripts : ∀ script ∈ scripts, script.Willing) (hread : scripts.length = s.sent.length) :
    ∃ (stream : Octets) (messages : List Octets),
      Posix.sendAll (s.sent.zip sends) = some (stream, s.sent.map fun _ => true) ∧
      Posix.receiveAll scripts stream = some (messages.map fun m => (.message m, 4 + m.length), []) ∧
      ∀ now,
        messages.filterMap (fun m => Stream.read encoder (m, now)) <+:
          (encodable encoder s.queued).map Pdu.content ∧
        (s.machine.pc publisher = .idle → s.machine.queue.head = s.machine.queue.tail →
          s.inHand = none →
          messages.filterMap (fun m => Stream.read encoder (m, now)) =
            (encodable encoder s.queued).map Pdu.content) := by
  obtain ⟨hinv, hturn, hsent⟩ := inTurn_of_reachable hq hs hsmall
  have hhandled := hturn.handled_eq hinv
  have htaken : s.taken <+: s.queued :=
    (List.prefix_append _ _).trans (hhandled ▸ List.take_prefix _ _)
  have hmessages : ∀ m ∈ s.sent, Posix.Framed m := by
    intro m hm
    rw [hsent] at hm
    obtain ⟨pdu, hpdu, hmessage⟩ := List.mem_filterMap.mp hm
    exact hframed pdu (htaken.subset hpdu) m hmessage
  have hreceived := Posix.receiveAll_frames hmessages hscripts hread []
  rw [List.append_nil] at hreceived
  refine ⟨_, s.sent, sendAll_accepting hwritten hsends, hreceived, fun now => ?_⟩
  have hcontents : s.sent.filterMap (fun m => Stream.read encoder (m, now)) =
      (encodable encoder s.taken).map Pdu.content := by
    rw [hsent]
    exact read_encoded (fun pdu hpdu => hconveyed pdu (htaken.subset hpdu)) now
  rw [hcontents]
  refine ⟨(htaken.filter _).map _, fun hidle hempty hnone => ?_⟩
  rw [hnone, Option.toList_none, List.append_nil, hturn.returned_length hinv hidle hempty,
    List.take_of_length_le (queued_length s).le] at hhandled
  rw [hhandled]

/-- The texts of the indications fit a frame. -/
theorem framed_indication : ∀ pdu ∈ [indication 2, indication 1], ∃ message,
    encoded (JsonE3.encoder Json.textCodec) pdu = some message ∧ Posix.Framed message := by
  have hlength : ∀ pdu ∈ [indication 2, indication 1],
      (encoded (JsonE3.encoder Json.textCodec) pdu).map List.length = some 139 := by decide +kernel
  intro pdu hpdu
  obtain ⟨message, hmessage, hlength⟩ := Option.map_eq_some_iff.mp (hlength pdu hpdu)
  refine ⟨message, hmessage, ?_⟩
  rw [Posix.Framed, hlength]
  decide

theorem peer_reads_queued_handOver :
    ∃ (q : MpmcQueue Pdu) (s : Outbound (Fin 3)) (stream : Octets) (messages : List Octets),
      MpmcQueue.new 2 = some q ∧ (threads (JsonE3.encoder Json.textCodec) 2 q).Reachable s ∧
      Posix.sendAll (s.sent.zip (List.replicate 2 { header := some 3, body := fun _ => some 0 })) =
        some (stream, s.sent.map fun _ => true) ∧
      Posix.receiveAll (List.replicate 2 fun _ => some 0) stream =
        some (messages.map fun m => (.message m, 4 + m.length), []) ∧
      ∀ now, messages.filterMap (fun m => Stream.read (JsonE3.encoder Json.textCodec) (m, now)) =
        [(indication 2).content, (indication 1).content] := by
  obtain ⟨q, s, hq, hs, hqueued, hsent, hnone, hidle, hempty⟩ := execute_handOver
  have hencodable : encodable (JsonE3.encoder Json.textCodec) [indication 2, indication 1] =
      [indication 2, indication 1] := by
    refine List.filter_eq_self.mpr fun pdu hpdu => ?_
    obtain ⟨message, hmessage, -⟩ := framed_indication pdu hpdu
    rw [hmessage]
    rfl
  obtain ⟨stream, messages, hsend, hreceive, hcontents⟩ :=
    peer_reads_queued (Fin 3) (JsonE3.encoder Json.textCodec) 2 2 q hq s hs
      (by rw [← queued_length, hqueued]; decide)
      (by
        rw [hqueued]
        refine List.forall_mem_cons.mpr ⟨.json _ ⟨rfl, nofun, trivial⟩, ?_⟩
        exact List.forall_mem_singleton.mpr (.json _ ⟨rfl, nofun, trivial⟩))
      (by
        rw [hqueued]
        intro pdu hpdu m hm
        obtain ⟨message, hmessage, hframed⟩ := framed_indication pdu hpdu
        exact Option.some.inj (hmessage.symm.trans hm) ▸ hframed)
      (List.replicate 2 { header := some 3, body := fun _ => some 0 })
      (fun x hx => List.eq_of_mem_replicate hx ▸ ⟨⟨3, rfl, Nat.le_refl 3⟩, fun _ => rfl⟩) hsent.symm
      (List.replicate 2 fun _ => some 0)
      (fun script hscript => List.eq_of_mem_replicate hscript ▸ fun _ => rfl) hsent.symm
  refine ⟨q, s, stream, messages, hq, hs, hsend, hreceive, fun now => ?_⟩
  rw [(hcontents now).2 hidle hempty hnone, hqueued, hencodable]
  rfl

end Outbound

end LibE3
