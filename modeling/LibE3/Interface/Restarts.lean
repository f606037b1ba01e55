import LibE3.Interface.Outbound

/-! The outbound queue across the sessions of one interface.  `stop` closes the response queue and ends
the thread of `publisher_loop` with whatever the ring still holds, and `start` makes a new thread on the
same queue, which nothing opens again and nothing empties.  So all that the sessions after a `stop`
publish is what the sessions before it have left. -/

namespace LibE3

open Transition

/-- Where the thread of `publisher_loop` stands. -/
inductive Publishing
  /-- There is no thread, or it has returned. -/
  | ended
  /-- Before the test of `should_stop_` that an attempt to connect begins with. -/
  | sleeping
  | connecting
  /-- Before the test of `should_stop_` that a round of the loop begins with. -/
  | looping
  /-- In `pop`, before a call of `try_pop`, in the call, and after one that returned false. -/
  | popping
  | trying
  | missed
  | handling
  deriving DecidableEq, Repr

/-- The way of the PDUs with the flags that decide who may take it. -/
structure Relay (ι : Type) where
  outbound : Outbound ι
  state : AgentState := .initialized
  shouldStop : Bool := false
  /-- `shutdown_` of the response queue. -/
  shutdown : Bool := false
  loop : Publishing := .ended
  /-- What the calls of `queue_outbound` carry that have found the queue open and go on to
  `try_push`. -/
  checked : ι → Option Pdu := fun _ => none

/-- The calls of `start` and `stop`, which one thread makes, the latter in the steps that the other
threads can tell apart; the calls of `queue_outbound`, which load the flag and then go on to the ring;
and the steps of `publisher_loop`. -/
inductive RelayEvent (ι : Type)
  | start (connection : ErrorCode)
  | stop
  | raise
  | close
  | join
  | queue (i : ι) (pdu : Pdu)
  | push (i : ι)
  | advance (i : ι) (spurious : Bool)
  | test
  | connect (result : ErrorCode)
  | attempt
  | observe (expired : Bool)
  | publish

namespace Relay

variable {ι : Type} [DecidableEq ι]

/-- After `init`. -/
def start (q : MpmcQueue Pdu) : Relay ι where
  outbound := Outbound.start q

/-- Where `pop` stands after a step of its call of `try_pop`. -/
def progress (publisher : ι) (outbound : Outbound ι) : Publishing :=
  match outbound.machine.pc publisher, outbound.inHand with
  | .idle, some _ => .handling
  | .idle, none => .missed
  | _, _ => .trying

def step (encoder : E3Encoder) (publisher : ι) (s : Relay ι) : RelayEvent ι → Option (Relay ι)
  | .start connection =>
    if s.state ≠ .initialized then none
    else if connection ≠ .success then some { s with shouldStop := false, state := .error }
    else some { s with shouldStop := false, state := .running, loop := .sleeping }
  | .stop =>
    if s.state = .uninitialized ∨ s.state = .stopping then none
    else some { s with state := .stopping }
  | .raise => if s.state = .stopping then some { s with shouldStop := true } else none
  | .close =>
    if s.state = .stopping ∧ s.shouldStop = true then some { s with shutdown := true } else none
  | .join =>
    if s.state = .stopping ∧ s.shouldStop = true ∧ s.shutdown = true ∧ s.loop = .ended then
      some { s with state := .initialized }
    else none
  -- A closed queue refuses the PDU: `push` returns `NOT_INITIALIZED`.
  | .queue i pdu =>
    if i = publisher ∨ s.checked i ≠ none ∨ s.outbound.machine.pc i ≠ .idle then none
    else if s.shutdown then some s
    else some { s with checked := Function.update s.checked i (some pdu) }
  | .push i =>
    match s.checked i with
    | none => none
    | some pdu =>
      (Outbound.step encoder publisher s.outbound (.push i pdu)).map fun outbound =>
        { s with outbound, checked := Function.update s.checked i none }
  | .advance i spurious =>
    (Outbound.step encoder publisher s.outbound (.advance i spurious)).map fun outbound =>
      { s with outbound, loop := if i = publisher then progress publisher outbound else s.loop }
  | .test =>
    match s.loop with
    | .sleeping => some { s with loop := if s.shouldStop then .ended else .connecting }
    | .looping => some { s with loop := if s.shouldStop then .ended else .popping }
    | _ => none
  -- After a failed attempt the test of `should_stop_` decides as the one of the next attempt does.
  | .connect result =>
    match s.loop with
    | .connecting => some { s with loop := if result = .success then .looping else .sleeping }
    | _ => none
  | .attempt =>
    match s.loop with
    | .popping =>
      (Outbound.step encoder publisher s.outbound .pop).map fun outbound =>
        { s with outbound, loop := .trying }
    | _ => none
  -- The last attempt of `pop` is made after the deadline and without a look at the flag.
  | .observe expired =>
    match s.loop with
    | .missed => some { s with loop := if s.shutdown || expired then .looping else .popping }
    | _ => none
  | .publish =>
    match s.loop with
    | .handling =>
      (Outbound.step encoder publisher s.outbound .publish).map fun outbound =>
        { s with outbound, loop := .looping }
    | _ => none

/-- The sessions of one interface: any number of producers, the threads of `publisher_loop`, which
follow one another, and the thread that starts and stops them. -/
def sessions (encoder : E3Encoder) (publisher : ι) (q : MpmcQueue Pdu) :
    System (Relay ι) (RelayEvent ι) :=
  .ofStep (start q) (step encoder publisher)

/-! ### What a step does to the outbound PDUs -/

section Steps

variable {encoder : E3Encoder} {publisher : ι} {s s' : Relay ι}

/-- A call of `queue_outbound` finds the queue open or closed, another goes on to the ring, a thread
takes a step on the way of the PDUs that no call enters, or only the state of the interface and that of
the loop change. -/
inductive Steps (encoder : E3Encoder) (publisher : ι) (s : Relay ι) : Relay ι → Prop
  | rest (state : AgentState) (shouldStop shutdown : Bool) (loop : Publishing)
      (hshutdown : s.shutdown = true → shutdown = true) :
      Steps encoder publisher s { s with state, shouldStop, shutdown, loop }
  | queue (i : ι) (pdu : Pdu) (hi : i ≠ publisher) (hopen : s.shutdown = false)
      (hnone : s.checked i = none) (hidle : s.outbound.machine.pc i = .idle) :
      Steps encoder publisher s { s with checked := Function.update s.checked i (some pdu) }
  | push (i : ι) (pdu : Pdu) (outbound : Outbound ι) (hsome : s.checked i = some pdu)
      (h : Outbound.step encoder publisher s.outbound (.push i pdu) = some outbound) :
      Steps encoder publisher s
        { s with outbound, checked := Function.update s.checked i none }
  | carry (e : OutboundEvent ι) (he : ∀ i pdu, e ≠ .push i pdu) (outbound : Outbound ι)
      (loop : Publishing) (h : Outbound.step encoder publisher s.outbound e = some outbound) :
      Steps encoder publisher s { s with outbound, loop }

theorem steps_of_step {e : RelayEvent ι} (h : step encoder publisher s e = some s') :
    Steps encoder publisher s s' := by
  cases e with
  | start connection =>
    simp only [step] at h
    split_ifs at h <;> cases h <;> exact .rest _ _ _ _ id
  | stop | raise | join =>
    simp only [step] at h
    split_ifs at h
    cases h
    exact .rest _ _ _ _ id
  | close =>
    simp only [step] at h
    split_ifs at h
    cases h
    exact .rest _ _ _ _ fun _ => rfl
  | queue i pdu =>
    simp only [step] at h
    split_ifs at h with hbusy hclosed
    · cases h
      exact .rest _ _ _ _ id
    · cases h
      simp only [not_or, not_not] at hbusy
      exact .queue i pdu hbusy.1 (Bool.eq_false_of_not_eq_true hclosed) hbusy.2.1 hbusy.2.2
  | push i =>
    simp only [step] at h
    split at h
    · cases h
    · obtain ⟨outbound, hstep, rfl⟩ := Option.map_eq_some_iff.mp h
      exact .push i _ outbound ‹_› hstep
  | advance i spurious =>
    obtain ⟨outbound, hstep, rfl⟩ := Option.map_eq_some_iff.mp h
    exact .carry _ (by simp) outbound _ hstep
  | test =>
    simp only [step] at h
    split at h <;> cases h <;> exact .rest _ _ _ _ id
  | connect result | observe expired =>
    simp only [step] at h
    split at h <;> cases h
    exact .rest _ _ _ _ id
  | attempt | publish =>
    simp only [step] at h
    split at h
    · obtain ⟨outbound, hstep, rfl⟩ := Option.map_eq_some_iff.mp h
      exact .carry _ (by simp) outbound _ hstep
    · cases h

/-- The PDUs go the way of `Outbound`, whatever the sessions do. -/
theorem outbound_of_steps (h : Steps encoder publisher s s') :
    s'.outbound = s.outbound ∨ ∃ e, Outbound.step encoder publisher s.outbound e = some s'.outbound := by
  cases h with
  | rest state shouldStop shutdown loop hshutdown => exact .inl rfl
  | queue i pdu hi hopen hnone hidle => exact .inl rfl
  | push i pdu outbound hsome h => exact .inr ⟨_, h⟩
  | carry e he outbound loop h => exact .inr ⟨_, h⟩

theorem reachable_outbound {q : MpmcQueue Pdu} (hs : (sessions encoder publisher q).Reachable s) :
    (Outbound.threads encoder publisher q).Reachable s.outbound := by
  refine System.Reachable.component Relay.outbound ?_ ?_ hs
  · rintro s rfl
    rfl
  · intro s e s' hstep
    exact outbound_of_steps (steps_of_step hstep)

end Steps

/-! ### The calls that a closed queue still lets in -/

/-- The PDU that a call of `try_push` has not claimed a ticket for. -/
def offered : Pc Pdu → Option Pdu
  | .pushLoad data | .pushSeq data _ | .pushCas data _ => some data
  | _ => none

/-- The PDU that a call of `queue_outbound` has found the queue open for and has not claimed a ticket
for. -/
def pending (s : Relay ι) (i : ι) : Option Pdu :=
  (s.checked i).or (offered (s.outbound.machine.pc i))

section Offers

variable {m m' : Machine ι Pdu}

/-- A step of the ring that is not a call takes up at most one offer, and then claims the next ticket
for it. -/
theorem offered_of_advance {i : ι} {spurious : Bool} (h : m.advance i spurious = some m') :
    (m'.pushed = m.pushed ∧ ∀ j pdu, offered (m'.pc j) = some pdu → offered (m.pc j) = some pdu) ∨
      ∃ pos pdu, offered (m.pc i) = some pdu ∧ m'.pushed = m.pushed ++ [(pos, i, pdu)] ∧
        offered (m'.pc i) = none ∧ ∀ j, j ≠ i → m'.pc j = m.pc j := by
  have hothers := (Machine.stepped_of_advance h).others
  -- Only the program counter of `i` matters where no ticket is claimed.
  have hkeep : ∀ {pc' : Pc Pdu}, m'.pc i = pc' → m'.pushed = m.pushed →
      (∀ pdu, offered pc' = some pdu → offered (m.pc i) = some pdu) →
      m'.pushed = m.pushed ∧
        ∀ j pdu, offered (m'.pc j) = some pdu → offered (m.pc j) = some pdu := by
    intro pc' hpc' hpushed hown
    refine ⟨hpushed, fun j pdu hj => ?_⟩
    by_cases hji : j = i
    · rw [hji] at hj ⊢
      rw [hpc'] at hj
      exact hown pdu hj
    · rwa [hothers j hji] at hj
  cases Machine.advances_of_advance h with
  | loadHead data hpc | freeSlot data pos hpc | retryPush data pos hpc | missPush data pos hpc =>
    exact .inl (hkeep (Machine.goto_pc_self i _) rfl fun _ ho => by rw [hpc]; exact ho)
  | claimPush data pos hpc =>
    refine .inr ⟨pos, data, by rw [hpc]; rfl, rfl, ?_, hothers⟩
    change offered (Function.update m.pc i _ i) = none
    rw [Function.update_self]
    rfl
  | _ => exact .inl (hkeep (Function.update_self i _ _) rfl (by simp [offered]))

variable {encoder : E3Encoder} {publisher : ι} {o o' : Outbound ι} {e : OutboundEvent ι}

theorem push_of_step {i : ι} {pdu : Pdu}
    (h : Outbound.step encoder publisher o (.push i pdu) = some o') :
    o.machine.pc i = .idle ∧ o' = { o with machine := o.machine.goto i (.pushLoad pdu) } := by
  simp only [Outbound.step] at h
  split at h
  · cases h
  · obtain ⟨m, hm, rfl⟩ := Option.map_eq_some_iff.mp h
    obtain ⟨hidle, rfl⟩ := Machine.step_callPush hm
    exact ⟨hidle, rfl⟩

/-- What a step on the way of the PDUs does to the ring that is not the call of a producer. -/
theorem machine_of_step (h : Outbound.step encoder publisher o e = some o')
    (he : ∀ i pdu, e ≠ .push i pdu) :
    o'.machine = o.machine ∨ o'.machine = o.machine.goto publisher .popLoad ∨
      ∃ i spurious, o.machine.advance i spurious = some o'.machine := by
  cases e with
  | push i pdu => exact absurd rfl (he i pdu)
  | pop =>
    simp only [Outbound.step] at h
    split at h
    · obtain ⟨m, hm, rfl⟩ := Option.map_eq_some_iff.mp h
      exact .inr (.inl (Machine.step_callPop hm).2)
    · cases h
  | advance i spurious =>
    obtain ⟨m, hm, rfl⟩ := Option.map_eq_some_iff.mp h
    refine .inr (.inr ⟨i, spurious, hm.trans ?_⟩)
    split <;> rfl
  | publish =>
    simp only [Outbound.step] at h
    split at h <;> cases h
    exact .inl rfl

theorem offered_of_step (h : Outbound.step encoder publisher o e = some o')
    (he : ∀ i pdu, e ≠ .push i pdu) :
    (o'.queued = o.queued ∧
        ∀ j pdu, offered (o'.machine.pc j) = some pdu → offered (o.machine.pc j) = some pdu) ∨
      ∃ i pdu, offered (o.machine.pc i) = some pdu ∧ o'.queued = o.queued ++ [pdu] ∧
        offered (o'.machine.pc i) = none ∧ ∀ j, j ≠ i → o'.machine.pc j = o.machine.pc j := by
  unfold Outbound.queued
  obtain hsame | hpop | ⟨i, spurious, hadvance⟩ := machine_of_step h he
  · rw [hsame]
    exact .inl ⟨rfl, fun _ _ hj => hj⟩
  · rw [hpop]
    refine .inl ⟨rfl, fun j pdu hj => ?_⟩
    by_cases hji : j = publisher
    · rw [hji, Machine.goto_pc_self] at hj
      cases hj
    · rwa [Machine.goto_pc_ne _ hji] at hj
  · obtain ⟨hpushed, hkeep⟩ | ⟨pos, pdu, hoffered, hpushed, hnone, hothers⟩ :=
      offered_of_advance hadvance
    · exact .inl ⟨by rw [hpushed], hkeep⟩
    · refine .inr ⟨i, pdu, hoffered, ?_, hnone, hothers⟩
      rw [hpushed, List.map_append]
      rfl

/-- A producer between two calls stays there. -/
theorem idle_of_step (h : Outbound.step encoder publisher o e = some o')
    (he : ∀ i pdu, e ≠ .push i pdu) {j : ι} (hj : j ≠ publisher) (hidle : o.machine.pc j = .idle) :
    o'.machine.pc j = .idle := by
  obtain hsame | hpop | ⟨i, spurious, hadvance⟩ := machine_of_step h he
  · rw [hsame]
    exact hidle
  · rw [hpop, Machine.goto_pc_ne _ hj]
    exact hidle
  · have hji : j ≠ i := by
      rintro rfl
      simp [Machine.advance, hidle] at hadvance
    rw [(Machine.stepped_of_advance hadvance).others j hji]
    exact hidle

end Offers

/-- A call that has found the queue open is one of a producer, and has not reached the ring. -/
def Waiting (publisher : ι) (s : Relay ι) : Prop :=
  ∀ i, s.checked i ≠ none → i ≠ publisher ∧ s.outbound.machine.pc i = .idle

section Waits

variable {encoder : E3Encoder} {publisher : ι} {s s' : Relay ι}

theorem Waiting.steps (h : Waiting publisher s) (hsteps : Steps encoder publisher s s') :
    Waiting publisher s' := by
  intro j hj
  cases hsteps with
  | rest state shouldStop shutdown loop hshutdown => exact h j hj
  | queue i pdu hi hopen hnone hidle =>
    by_cases hji : j = i
    · subst hji
      exact ⟨hi, hidle⟩
    · have hother : Function.update s.checked i (some pdu) j = s.checked j :=
        Function.update_of_ne hji _ _
      exact h j fun hj' => hj (hother.trans hj')
  | push i pdu outbound hsome hstep =>
    have hji : j ≠ i := by
      rintro rfl
      exact hj (Function.update_self j _ _)
    have hother : Function.update s.checked i none j = s.checked j := Function.update_of_ne hji _ _
    obtain ⟨hpublisher, hidle⟩ := h j fun hj' => hj (hother.trans hj')
    obtain ⟨-, rfl⟩ := push_of_step hstep
    exact ⟨hpublisher, (Machine.goto_pc_ne _ hji).trans hidle⟩
  | carry e he outbound loop hstep =>
    obtain ⟨hpublisher, hidle⟩ := h j hj
    exact ⟨hpublisher, idle_of_step hstep he hpublisher hidle⟩

theorem waiting_of_reachable {q : MpmcQueue Pdu} (hs : (sessions encoder publisher q).Reachable s) :
    Waiting publisher s := by
  refine System.Reachable.induction (P := Waiting publisher) ?_ ?_ hs
  · rintro s rfl i hi
    exact absurd rfl hi
  · exact fun s e s' _ h hstep => h.steps (steps_of_step hstep)

end Waits

/-- What has become of the calls that were pending when the queue was closed, in `closed`: `threads` are
those that have claimed a ticket since, in this order. -/
structure Settling (closed s : Relay ι) (threads : List ι) : Prop where
  shutdown : s.shutdown = true
  nodup : threads.Nodup
  queued : ∃ late, late.map some = threads.map closed.pending ∧
    s.outbound.queued = closed.outbound.queued ++ late
  pending : ∀ i pdu, s.pending i = some pdu → i ∉ threads ∧ closed.pending i = some pdu

namespace Settling

variable {encoder : E3Encoder} {publisher : ι} {closed s s' : Relay ι} {threads : List ι}

omit [DecidableEq ι] in
theorem self (h : s.shutdown = true) : Settling s s [] where
  shutdown := h
  nodup := .nil
  queued := ⟨[], rfl, (List.append_nil _).symm⟩
  pending := fun _ _ hpending => ⟨List.not_mem_nil, hpending⟩

omit [DecidableEq ι] in
/-- No call becomes pending and nothing is queued. -/
theorem of_fewer (h : Settling closed s threads) (hshutdown : s'.shutdown = true)
    (hqueued : s'.outbound.queued = s.outbound.queued)
    (hfewer : ∀ i pdu, s'.pending i = some pdu → s.pending i = some pdu) :
    Settling closed s' threads where
  shutdown := hshutdown
  nodup := h.nodup
  queued := hqueued ▸ h.queued
  pending := fun i pdu hi => h.pending i pdu (hfewer i pdu hi)

omit [DecidableEq ι] in
/-- A pending call claims the next ticket. -/
theorem of_claim (h : Settling closed s threads) (hshutdown : s'.shutdown = true) {i : ι} {pdu : Pdu}
    (hi : s.pending i = some pdu) (hqueued : s'.outbound.queued = s.outbound.queued ++ [pdu])
    (hdone : s'.pending i = none) (hothers : ∀ j, j ≠ i → s'.pending j = s.pending j) :
    Settling closed s' (threads ++ [i]) := by
  obtain ⟨hnew, hclosed⟩ := h.pending i pdu hi
  obtain ⟨late, hlate, hbefore⟩ := h.queued
  refine ⟨hshutdown, ?_, ⟨late ++ [pdu], ?_, ?_⟩, fun j pdu' hj => ?_⟩
  · exact List.nodup_append.mpr ⟨h.nodup, List.nodup_singleton i, by
      rintro j hj k hk rfl
      exact hnew (List.mem_singleton.mp hk ▸ hj)⟩
  · simp [hlate, hclosed]
  · rw [hqueued, hbefore, List.append_assoc]
  · have hji : j ≠ i := by
      rintro rfl
      rw [hdone] at hj
      cases hj
    rw [hothers j hji] at hj
    obtain ⟨hold, hpending⟩ := h.pending j pdu' hj
    exact ⟨by simpa [hji] using hold, hpending⟩

theorem steps (h : Settling closed s threads) (hwaiting : Waiting publisher s)
    (hsteps : Steps encoder publisher s s') : ∃ threads', Settling closed s' threads' := by
  cases hsteps with
  | rest state shouldStop shutdown loop hshutdown =>
    exact ⟨threads, h.of_fewer (hshutdown h.shutdown) rfl fun _ _ hi => hi⟩
  | queue i pdu hi hopen hnone hidle =>
    rw [h.shutdown] at hopen
    cases hopen
  | push i pdu outbound hsome hstep =>
    obtain ⟨-, rfl⟩ := push_of_step hstep
    refine ⟨threads, h.of_fewer h.shutdown rfl fun j pdu' hj => ?_⟩
    by_cases hji : j = i
    · subst hji
      simp only [Relay.pending, Function.update_self, Machine.goto_pc_self, offered,
        Option.none_or] at hj
      rw [Relay.pending, hsome, Option.some_or, hj]
    · simpa only [Relay.pending, Function.update_of_ne hji, Machine.goto_pc_ne _ hji] using hj
  | carry e he outbound loop hstep =>
    obtain ⟨hqueued, hkeep⟩ | ⟨i, pdu, hoffered, hqueued, hnone, hothers⟩ := offered_of_step hstep he
    · refine ⟨threads, h.of_fewer h.shutdown hqueued fun j pdu hj => ?_⟩
      rcases Option.or_eq_some_iff.mp hj with hchecked | ⟨hchecked, hj⟩
      · exact Option.or_eq_some_iff.mpr (.inl hchecked)
      · exact Option.or_eq_some_iff.mpr (.inr ⟨hchecked, hkeep j pdu hj⟩)
    · -- A call that has reached the ring is no longer before it.
      have hchecked : s.checked i = none := by
        by_contra hsome
        rw [(hwaiting i hsome).2] at hoffered
        cases hoffered
      refine ⟨_, h.of_claim (i := i) (by exact h.shutdown) ?_ hqueued ?_ fun j hji => ?_⟩
      · rw [Relay.pending, hchecked, hoffered, Option.none_or]
      · simp only [Relay.pending, hchecked, hnone, Option.none_or]
      · simp only [Relay.pending, hothers j hji]

end Settling

theorem settling_of_reachable {encoder : E3Encoder} {publisher : ι} {q : MpmcQueue Pdu}
    {closed s : Relay ι} (hclosed : (sessions encoder publisher q).Reachable closed)
    (hshutdown : closed.shutdown = true)
    (hs : (System.ofStep closed (step encoder publisher)).Reachable s) :
    ∃ threads, Settling closed s threads := by
  refine System.Reachable.induction (P := fun s => ∃ threads, Settling closed s threads) ?_ ?_ hs
  · rintro s rfl
    exact ⟨[], .self hshutdown⟩
  · rintro s e s' hreach ⟨threads, h⟩ hstep
    exact h.steps (waiting_of_reachable (hclosed.trans hreach)) (steps_of_step hstep)

/-! ### What later sessions publish -/

/-- What has been queued and the loop has not handled. -/
def left (s : Relay ι) : List Pdu := s.outbound.queued.drop s.outbound.taken.length

theorem taken_of_step {encoder : E3Encoder} {publisher : ι} {o o' : Outbound ι} {e : OutboundEvent ι}
    (h : Outbound.step encoder publisher o e = some o') : o.taken <+: o'.taken := by
  cases Outbound.steps_of_step h with
  | publish pdu hsome => exact List.prefix_append _ _
  | _ => exact List.prefix_rfl

theorem taken_of_reachable {encoder : E3Encoder} {publisher : ι} {closed s : Relay ι}
    (hs : (System.ofStep closed (step encoder publisher)).Reachable s) :
    closed.outbound.taken <+: s.outbound.taken := by
  refine System.Reachable.induction (P := fun s => closed.outbound.taken <+: s.outbound.taken) ?_ ?_ hs
  · rintro s rfl
    exact List.prefix_rfl
  · intro s e s' _ h hstep
    obtain hsame | ⟨e', he⟩ := outbound_of_steps (steps_of_step hstep)
    · rw [hsame]
      exact h
    · exact h.trans (taken_of_step he)

/-- What all sessions after a `stop` publish.  Take any state in which the queue is closed, and any
further run with any number of calls of `start` and `stop` and however the threads interleave.  The only
PDUs that come to the queue are those of calls of `queue_outbound` that had found it open and were
pending at that moment, at most one a thread.  What the loop handles from then on, in whatever session
and to whatever peer, is what had been queued before and was left, in its order, and then these, each
once and with none left out; it sends their encodings; and with the ring empty and the loop between two
calls of `pop` it has handled all of them. -/
theorem leftovers_published (ι : Type) [DecidableEq ι] (encoder : E3Encoder) (publisher : ι)
    (minCapacity : UInt64) (q : MpmcQueue Pdu) (hq : MpmcQueue.new minCapacity = some q)
    (closed s : Relay ι) (hclosed : (sessions encoder publisher q).Reachable closed)
    (hshutdown : closed.shutdown = true)
    (hs : (System.ofStep closed (step encoder publisher)).Reachable s)
    (hsmall : s.outbound.machine.pushed.length < 2 ^ 63) :
    ∃ (threads : List ι) (late handled : List Pdu),
      threads.Nodup ∧ late.map some = threads.map closed.pending ∧
      s.outbound.queued = closed.outbound.queued ++ late ∧
      s.outbound.taken = closed.outbound.taken ++ handled ∧
      s.outbound.sent = closed.outbound.sent ++ handled.filterMap (Outbound.encoded encoder) ∧
      handled ++ s.outbound.inHand.toList <+: closed.left ++ late ∧
      (s.outbound.machine.pc publisher = .idle →
        s.outbound.machine.queue.head = s.outbound.machine.queue.tail →
        handled ++ s.outbound.inHand.toList = closed.left ++ late) := by
  obtain ⟨threads, hsettling⟩ := settling_of_reachable hclosed hshutdown hs
  obtain ⟨late, hlate, hqueued⟩ := hsettling.queued
  obtain ⟨handled, htaken⟩ := taken_of_reachable hs
  have hbefore : closed.outbound.machine.pushed.length < 2 ^ 63 := by
    have hlengths := congrArg List.length hqueued
    rw [List.length_append, Outbound.queued_length, Outbound.queued_length] at hlengths
    omega
  obtain ⟨hinv₀, hturn₀, hsent₀⟩ :=
    Outbound.inTurn_of_reachable hq (reachable_outbound hclosed) hbefore
  obtain ⟨hinv, hturn, hsent⟩ :=
    Outbound.inTurn_of_reachable hq (reachable_outbound (hclosed.trans hs)) hsmall
  have hhandled := hturn.handled_eq hinv
  have hle : closed.outbound.taken.length ≤ closed.outbound.queued.length := by
    have hprefix : closed.outbound.taken <+: closed.outbound.queued :=
      (List.prefix_append _ _).trans (hturn₀.handled_eq hinv₀ ▸ List.take_prefix _ _)
    exact hprefix.length_le
  have hrest : s.outbound.queued.drop closed.outbound.taken.length = closed.left ++ late := by
    rw [hqueued, List.drop_append_of_le_length hle]
    rfl
  rw [← htaken, List.append_assoc] at hhandled
  have hdropped := congrArg (List.drop closed.outbound.taken.length) hhandled
  rw [List.drop_left] at hdropped
  refine ⟨threads, late, handled, hsettling.nodup, hlate, hqueued, htaken.symm, ?_, ?_, ?_⟩
  · rw [hsent, ← htaken, List.filterMap_append, hsent₀]
  · rw [hdropped, ← hrest]
    exact (List.take_prefix _ _).drop _
  · intro hidle hempty
    rw [hturn.returned_length hinv hidle hempty,
      List.take_of_length_le (Outbound.queued_length s.outbound).le] at hdropped
    rw [hdropped, hrest]

/-- A PDU is queued, the interface is stopped while the loop still connects, and started again. -/
def stale : List (RelayEvent Bool) :=
  [.start .success, .queue false (Outbound.indication 1), .push false] ++
    List.replicate 5 (.advance false false) ++ [.test, .stop, .raise, .close]

def restarted : List (RelayEvent Bool) :=
  [.connect .connectionFailed, .test, .join, .start .success, .test, .connect .success, .test,
    .attempt] ++ List.replicate 5 (.advance true false) ++ [.publish]

/-- The second session sends the PDU of the first. -/
theorem leftovers_published_stale :
    ∃ (q : MpmcQueue Pdu) (closed s : Relay Bool), MpmcQueue.new 2 = some q ∧
      System.execute (step (JsonE3.encoder Json.textCodec) true) (start q) stale = some closed ∧
      System.execute (step (JsonE3.encoder Json.textCodec) true) closed restarted = some s ∧
      closed.outbound.sent = [] ∧ closed.left = [Outbound.indication 1] ∧
      s.outbound.sent = [Outbound.indication 1].filterMap
        (Outbound.encoded (JsonE3.encoder Json.textCodec)) := by
  obtain ⟨q, hq⟩ := Option.isSome_iff_exists.mp
    (show (MpmcQueue.new 2 : Option (MpmcQueue Pdu)).isSome = true from
      MpmcQueue.new_isSome (by decide))
  have hstale : ((MpmcQueue.new 2).bind fun q =>
      (System.execute (step (JsonE3.encoder Json.textCodec) true) (start q) stale).map fun s =>
        (s.shutdown, s.outbound.sent, s.left, s.pending false, s.pending true)) =
      some (true, [], [Outbound.indication 1], none, none) := by decide +kernel
  have hrestarted : ((MpmcQueue.new 2).bind fun q =>
      ((System.execute (step (JsonE3.encoder Json.textCodec) true) (start q) stale).bind fun s =>
        System.execute (step (JsonE3.encoder Json.textCodec) true) s restarted).map fun s =>
          (s.outbound.queued.length, s.outbound.inHand, s.outbound.machine.pc true,
            decide (s.outbound.machine.queue.head = s.outbound.machine.queue.tail))) =
      some (1, none, .idle, true) := by decide +kernel
  rw [hq, Option.bind_some] at hstale hrestarted
  obtain ⟨closed, hclosed, hflags⟩ := Option.map_eq_some_iff.mp hstale
  rw [hclosed, Option.bind_some] at hrestarted
  obtain ⟨s, hs, hends⟩ := Option.map_eq_some_iff.mp hrestarted
  simp only [Prod.mk.injEq, decide_eq_true_eq] at hflags hends
  obtain ⟨hshutdown, hsent, hleft, hfalse, htrue⟩ := hflags
  obtain ⟨hcount, hnone, hidle, hempty⟩ := hends
  have hsmall : s.outbound.machine.pushed.length < 2 ^ 63 := by
    rw [← Outbound.queued_length, hcount]
    decide
  obtain ⟨threads, late, handled, -, hlate, -, -, hafter, -, hall⟩ :=
    leftovers_published Bool (JsonE3.encoder Json.textCodec) true 2 q hq closed s
      (System.reachable_of_execute _ hclosed) hshutdown (System.reachable_of_execute _ hs) hsmall
  have hnolate : late = [] := by
    cases threads with
    | nil => exact List.map_eq_nil_iff.mp hlate
    | cons i threads =>
      cases late with
      | nil => rfl
      | cons pdu late =>
        have hfirst := (List.cons.inj hlate).1
        cases i
        · rw [hfalse] at hfirst
          cases hfirst
        · rw [htrue] at hfirst
          cases hfirst
  have hhandled := hall hidle hempty
  rw [hnone, hleft, hnolate, Option.toList_none, List.append_nil, List.append_nil] at hhandled
  rw [hsent, hhandled, List.nil_append] at hafter
  exact ⟨q, closed, s, hq, hclosed, hs, hsent, hleft, hafter⟩

end Relay

end LibE3
