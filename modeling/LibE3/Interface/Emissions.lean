import LibE3.Interface.Handlers

/-! The worker of a service model, from `simple_agent.cpp`, and what reaches the response queue through
it.  `E3Interface::register_sm` gives a model two functions: one asks the subscription manager who is
subscribed, the other passes a PDU to `queue_outbound`.  The worker of `SimpleServiceModel` asks once a
round and then sends to everyone on the list, while the subscriber thread goes on editing the manager.  It
is started with the first subscription and stopped with the last, and `stop` waits for it to return.  So
the worker is gone when the handler that took the last subscription returns, and a dApp that has left gets
at most one indication more.  One agent uses the registry here, and one model of the example. -/

namespace LibE3.Emissions

open Transition System SubscriptionManager

/-! ### The functions of a service model -/

/-- `SimpleServiceModel::RAN_FUNCTION_ID`. -/
def RAN_FUNCTION_ID : UInt32 := 1

def makeIndicationPdu (timestamp : UInt64) (dappId ranFunctionId : UInt32) (protocolData : Octets) :
    Pdu where
  type := .indicationMessage
  choice := .indicationMessage ⟨dappId, ranFunctionId, protocolData⟩
  timestamp := timestamp

def makeMessageAckPdu (timestamp : UInt64) (requestMessageId : UInt32) (responseCode : ResponseCode) :
    Pdu where
  type := .messageAck
  choice := .messageAck ⟨requestMessageId, responseCode⟩
  timestamp := timestamp

/-- The PDU that the emitter of `register_sm` passes to `queue_outbound`. -/
def outboundEmitter (messageId : GeneratedId) (pdu : Pdu) : Pdu :=
  if pdu.messageId = 0 then { pdu with messageId := messageId.id } else pdu

/-- Where `worker_` stands in `worker_loop`, or that it holds no thread. -/
inductive Worker
  | absent
  /-- At the condition of the loop. -/
  | testing
  /-- In `sleep_for`, with the second test of `running_` to follow. -/
  | sleeping
  /-- Before `get_subscribers`. -/
  | collecting
  /-- In the loop over the subscribers, with those that are left. -/
  | emitting (subscribers : List UInt32) (encoded : Octets)
  | returned
  deriving DecidableEq, Repr

/-- `running_`, `worker_` and `seq_`. -/
structure SimpleServiceModel where
  running : Bool := false
  worker : Worker := .absent
  seq : UInt32 := 0
  deriving DecidableEq, Repr

/-- Where the thread stands that calls the manager and the registry: between two messages, with
callbacks for the model to deliver, in the `join` of a `stop` that a callback has called, or in that of the
`stop` that `SmRegistry::clear` has called. -/
inductive Control
  | idle
  | delivering (callbacks : List Bool)
  | joining (callbacks : List Bool)
  | clearing
  deriving DecidableEq, Repr

namespace Control

def next : List Bool → Control
  | [] => .idle
  | b :: callbacks => .delivering (b :: callbacks)

/-- The thread is in `join`, with the lock of the registry. -/
def joins : Control → Bool
  | .joining _ | .clearing => true
  | _ => false

end Control

structure State where
  manager : SubscriptionManager := { smLifecycleCallback := true }
  queue : ResponseQueue := {}
  /-- Whether the registry holds a model for the function. -/
  registered : Bool := false
  model : SimpleServiceModel := {}
  control : Control := .idle
  /-- A `std::thread` was assigned to or destroyed while it held a thread. -/
  terminated : Bool := false
  /-- What the model has passed to `queue_outbound`. -/
  passed : List Pdu := []

/-- What a step of the worker takes from outside: the order of a set, the clock, what
`encode_simple_indication` gives, and the drawn message ID. -/
structure Turn where
  order : Enumeration UInt32
  timestamp : UInt64
  encoded : Option Octets
  messageId : GeneratedId

/-- The subscriber thread makes a call of the manager or delivers a callback of it, or handles a control
action; the setup thread registers a dApp; the application registers a model; `stop` clears the registry,
after the subscriber thread has returned; whoever waits in `join` goes on; the worker takes a step; or
others use the queue. -/
inductive Event
  | call (c : Call)
  | deliver
  | controlAction (requestMessageId : UInt32) (decoded : Bool) (timestamp : UInt64)
      (messageId : GeneratedId)
  | registerDapp (now : Timestamp)
  | registerSm
  | clear
  | join
  | worker (turn : Turn)
  | traffic (t : Traffic)

namespace State

variable (s : State)

/-- `emit_outbound`, whose result the model only prints. -/
def emit (messageId : GeneratedId) (pdu : Pdu) : State :=
  { s with
    queue := (s.queue.push (outboundEmitter messageId pdu)).1
    passed := s.passed ++ [outboundEmitter messageId pdu] }

/-- `SmRegistry::start_sm` with `SimpleServiceModel::start`, which assigns a new thread to `worker_`. -/
def startSm : State :=
  if !s.registered || s.model.running then s
  else
    { s with
      model := { s.model with running := true, worker := .testing }
      terminated := s.terminated || s.model.worker ≠ .absent }

/-- `SmRegistry::stop_sm` with `SimpleServiceModel::stop` up to its `join`, and the callbacks that are
left for afterwards. -/
def stopSm (callbacks : List Bool) : State :=
  if !s.registered || !s.model.running then { s with control := .next callbacks }
  else
    { s with
      model := { s.model with running := false }
      control := if s.model.worker = .absent then .next callbacks else .joining callbacks }

/-- The registry lets go of the model, whose destructor destroys `worker_`. -/
def deleteSm : State :=
  { s with
    registered := false
    model := {}
    control := .idle
    terminated := s.terminated || s.model.worker ≠ .absent }

/-- `SmRegistry::clear` up to the `join` in `stop`; without a thread it goes through. -/
def clear : State :=
  if !s.registered then s
  else if !s.model.running || s.model.worker = .absent then s.deleteSm
  else { s with model := { s.model with running := false }, control := .clearing }

/-- What follows a `join` that has returned. -/
def joined : State :=
  let s' := { s with model := { s.model with worker := .absent } }
  match s.control with
  | .joining callbacks => { s' with control := .next callbacks }
  | _ => s'.deleteSm

/-- A step of `worker_loop`. -/
def work (turn : Turn) : Option State :=
  let goto (s : State) (worker : Worker) : State := { s with model := { s.model with worker } }
  match s.model.worker with
  | .absent | .returned => none
  | .testing => some (goto s (if s.model.running then .sleeping else .returned))
  | .sleeping => some (goto s (if s.model.running then .collecting else .returned))
  | .collecting =>
    match s.manager.getSubscribedDapps turn.order RAN_FUNCTION_ID, turn.encoded with
    | [], _ => some (goto s .testing)
    | _ :: _, none => some (goto s .testing)
    | d :: subscribers, some encoded => some (goto s (.emitting (d :: subscribers) encoded))
  | .emitting [] _ =>
    some { s with model := { s.model with worker := .testing, seq := s.model.seq + 1 } }
  | .emitting (d :: subscribers) encoded =>
    some (goto (s.emit turn.messageId
      (makeIndicationPdu turn.timestamp d RAN_FUNCTION_ID encoded)) (.emitting subscribers encoded))

def step : Event → Option State
  | .call c =>
    if s.control = .idle ∧ c.isClear = false then
      some
        { s with
          manager := (c.perform s.manager).1
          control := .next (callbacksFor RAN_FUNCTION_ID (c.perform s.manager).2.callbacks) }
    else none
  | .deliver =>
    match s.control with
    | .delivering (true :: callbacks) => some { s.startSm with control := .next callbacks }
    | .delivering (false :: callbacks) => some (s.stopSm callbacks)
    | _ => none
  | .controlAction requestMessageId decoded timestamp messageId =>
    if s.control ≠ .idle then none
    else if s.registered && s.model.running then
      some (s.emit messageId (makeMessageAckPdu timestamp requestMessageId
        (if decoded then .positive else .negative)))
    else some s
  | .registerDapp now => some { s with manager := (s.manager.registerDapp now).1 }
  | .registerSm =>
    if s.control.joins then none
    else if s.registered then some s
    else some { s with registered := true, model := {} }
  | .clear => if s.control = .idle then some s.clear else none
  | .join =>
    if s.control.joins = true ∧ s.model.worker = .returned then some s.joined else none
  | .worker turn => s.work turn
  | .traffic t => some { s with queue := t.perform s.queue }

end State

/-! ### What holds in every state -/

theorem nodup_getSubscribedDapps (s : SubscriptionManager) (order : Enumeration UInt32)
    (f : UInt32) : (s.getSubscribedDapps order f).Nodup := by
  unfold getSubscribedDapps
  split
  · exact List.nodup_nil
  · exact order.nodup _

@[simp] theorem Control.joins_next (callbacks : List Bool) : (Control.next callbacks).joins = false := by
  cases callbacks <;> rfl

/-- The thread of a model that runs is in its loop; one that does not run has a thread only while
somebody waits for it.  A model that runs has subscribers, unless the callback that stops it is still to be
delivered. -/
structure Inv (s : State) : Prop where
  watched : s.manager.Watched
  sound : s.terminated = false
  unregistered : s.registered = false → s.model = {}
  runs : s.model.running = true → s.model.worker ≠ .absent ∧ s.model.worker ≠ .returned
  waits : s.control.joins = true ↔ s.model.running = false ∧ s.model.worker ≠ .absent
  delivers : ∀ callbacks, s.control = .delivering callbacks →
    callbacks = [s.manager.hasSubscribers RAN_FUNCTION_ID]
  joining : ∀ callbacks, s.control = .joining callbacks → callbacks = []
  follows : s.model.running = true → s.manager.hasSubscribers RAN_FUNCTION_ID = true ∨
    ∃ callbacks, s.control = .delivering callbacks
  nodup : ∀ subscribers encoded, s.model.worker = .emitting subscribers encoded → subscribers.Nodup

/-- A model that goes without a thread leaves nothing behind. -/
theorem inv_deleteSm {s : State} (hwatched : s.manager.Watched) (hsound : s.terminated = false)
    (hworker : s.model.worker = .absent) : Inv s.deleteSm := by
  refine ⟨hwatched, ?_, fun _ => rfl, by simp [State.deleteSm],
    by simp [State.deleteSm, Control.joins], by simp [State.deleteSm], by simp [State.deleteSm],
    by simp [State.deleteSm], by simp [State.deleteSm]⟩
  simp [State.deleteSm, hsound, hworker]

namespace Inv

variable {s : State}

/-- Outside `join`, a model that does not run has no thread. -/
theorem absent (h : Inv s) (hjoins : s.control.joins = false) (hrunning : s.model.running = false) :
    s.model.worker = .absent := by
  by_contra hworker
  rw [h.waits.mpr ⟨hrunning, hworker⟩] at hjoins
  cases hjoins

theorem registered (h : Inv s) (hworker : s.model.worker ≠ .absent) : s.registered = true := by
  by_contra hregistered
  rw [h.unregistered (by simpa using hregistered)] at hworker
  exact hworker rfl

/-- What a step keeps that changes neither the model nor the control. -/
theorem of_same (h : Inv s) {s' : State} (hwatched : s'.manager.Watched)
    (hsame : s'.manager.hasSubscribers RAN_FUNCTION_ID = s.manager.hasSubscribers RAN_FUNCTION_ID)
    (hregistered : s'.registered = s.registered) (hmodel : s'.model = s.model)
    (hcontrol : s'.control = s.control) (hsound : s'.terminated = s.terminated) : Inv s' := by
  constructor
  · exact hwatched
  · rw [hsound]
    exact h.sound
  · rw [hregistered, hmodel]
    exact h.unregistered
  · rw [hmodel]
    exact h.runs
  · rw [hcontrol, hmodel]
    exact h.waits
  · rw [hcontrol, hsame]
    exact h.delivers
  · rw [hcontrol]
    exact h.joining
  · rw [hmodel, hsame, hcontrol]
    exact h.follows
  · rw [hmodel]
    exact h.nodup

theorem emit (h : Inv s) (messageId : GeneratedId) (pdu : Pdu) : Inv (s.emit messageId pdu) :=
  h.of_same h.watched rfl rfl rfl rfl rfl

theorem call (h : Inv s) (hidle : s.control = .idle) {c : Call} (hc : c ≠ .clear) :
    Inv { s with
      manager := (c.perform s.manager).1
      control := .next (callbacksFor RAN_FUNCTION_ID (c.perform s.manager).2.callbacks) } := by
  have hwaits := h.waits
  have hfollows := h.follows
  rw [hidle] at hwaits hfollows
  rw [h.watched.perform_callbacksFor hc, report]
  refine ⟨h.watched.locked c, h.sound, h.unregistered, h.runs, ?_, ?_, ?_, ?_, h.nodup⟩
  · rw [Control.joins_next]
    exact hwaits
  · intro callbacks hcontrol
    split at hcontrol
    · cases hcontrol
    · cases hcontrol
      rfl
  · intro callbacks hcontrol
    split at hcontrol <;> cases hcontrol
  · intro hrunning
    obtain hbefore | ⟨callbacks, hcontrol⟩ := hfollows hrunning
    · -- With subscribers before and none after, a callback is to be delivered.
      split
      · rename_i hsame
        exact Or.inl (hsame ▸ hbefore)
      · exact Or.inr ⟨_, rfl⟩
    · cases hcontrol

theorem startSm (h : Inv s) (hcontrol : s.control = .delivering [true]) :
    Inv { s.startSm with control := .idle } := by
  have hsubscribers : s.manager.hasSubscribers RAN_FUNCTION_ID = true := by
    simpa using (h.delivers _ hcontrol).symm
  have hjoins : s.control.joins = false := by
    rw [hcontrol]
    rfl
  unfold State.startSm
  split
  · rename_i hskip
    refine ⟨h.watched, h.sound, h.unregistered, h.runs, ?_, by simp, by simp, ?_, h.nodup⟩
    · rw [← h.waits, hjoins]
      rfl
    · exact fun _ => Or.inl hsubscribers
  · rename_i hstart
    simp only [Bool.or_eq_true, Bool.not_eq_true', not_or, Bool.not_eq_false, Bool.not_eq_true] at hstart
    have hworker := h.absent hjoins hstart.2
    refine ⟨h.watched, ?_, ?_, by simp, by simp [Control.joins], by simp, by simp, ?_, by simp⟩
    · simp [h.sound, hworker]
    · intro hregistered
      rw [hstart.1] at hregistered
      cases hregistered
    · exact fun _ => Or.inl hsubscribers

theorem stopSm (h : Inv s) (hcontrol : s.control = .delivering [false]) : Inv (s.stopSm []) := by
  have hjoins : s.control.joins = false := by
    rw [hcontrol]
    rfl
  unfold State.stopSm
  split
  · rename_i hskip
    have hrunning : s.model.running = false := by
      cases hregistered : s.registered with
      | false => rw [h.unregistered hregistered]
      | true => simpa [hregistered] using hskip
    refine ⟨h.watched, h.sound, h.unregistered, h.runs, ?_, ?_, ?_, ?_, h.nodup⟩
    · rw [← h.waits, hjoins]
      rfl
    · intro callbacks hnext
      cases hnext
    · intro callbacks hnext
      cases hnext
    · intro hruns
      rw [hrunning] at hruns
      cases hruns
  · rename_i hstop
    simp only [Bool.or_eq_true, Bool.not_eq_true', not_or, Bool.not_eq_false] at hstop
    have hworker := (h.runs hstop.2).1
    rw [if_neg hworker]
    refine ⟨h.watched, h.sound, ?_, by simp, by simp [Control.joins, hworker], by simp, by simp,
      by simp, h.nodup⟩
    intro hregistered
    rw [hstop.1] at hregistered
    cases hregistered

theorem clear (h : Inv s) (hidle : s.control = .idle) : Inv s.clear := by
  have hjoins : s.control.joins = false := by
    rw [hidle]
    rfl
  unfold State.clear
  split
  · exact h
  · rename_i hregistered
    split
    · rename_i hthrough
      refine inv_deleteSm h.watched h.sound ?_
      rw [Bool.or_eq_true, Bool.not_eq_true', decide_eq_true_eq] at hthrough
      exact hthrough.elim (h.absent hjoins) id
    · rename_i hwait
      simp only [Bool.or_eq_true, Bool.not_eq_true', decide_eq_true_eq, not_or,
        Bool.not_eq_false] at hwait
      refine ⟨h.watched, h.sound, ?_, by simp, by simp [Control.joins, hwait.2], by simp, by simp,
        by simp, h.nodup⟩
      intro hunregistered
      rw [hunregistered] at hregistered
      exact absurd rfl hregistered

theorem joined (h : Inv s) (hjoins : s.control.joins = true) : Inv s.joined := by
  have hrunning := (h.waits.mp hjoins).1
  unfold State.joined
  split
  · rename_i callbacks hcontrol
    rw [h.joining callbacks hcontrol]
    refine ⟨h.watched, h.sound, ?_, ?_, by simp [Control.next, Control.joins], by simp [Control.next],
      by simp [Control.next], ?_, by simp⟩
    · intro hregistered
      rw [h.registered (h.waits.mp hjoins).2] at hregistered
      cases hregistered
    · intro hruns
      exact absurd (hruns.symm.trans hrunning) (by simp)
    · intro hruns
      exact absurd (hruns.symm.trans hrunning) (by simp)
  · exact inv_deleteSm h.watched h.sound rfl

/-- A step of the worker that changes only where it stands. -/
theorem goto (h : Inv s) {worker : Worker} (hbefore : s.model.worker ≠ .absent)
    (hafter : worker ≠ .absent) (hreturned : worker = .returned → s.model.running = false)
    (hnodup : ∀ subscribers encoded, worker = .emitting subscribers encoded → subscribers.Nodup)
    (seq : UInt32) : Inv { s with model := { s.model with worker, seq } } := by
  refine ⟨h.watched, h.sound, ?_, ?_, ?_, h.delivers, h.joining, h.follows, hnodup⟩
  · intro hregistered
    rw [h.registered hbefore] at hregistered
    cases hregistered
  · intro hruns
    refine ⟨hafter, fun hworker => ?_⟩
    exact absurd (hruns.symm.trans (hreturned hworker)) (by simp)
  · rw [h.waits]
    exact and_congr_right fun _ => iff_of_true hbefore hafter

theorem work (h : Inv s) {turn : Turn} {s' : State} (hstep : s.work turn = some s') : Inv s' := by
  unfold State.work at hstep
  split at hstep
  · cases hstep
  · cases hstep
  · rename_i hworker
    cases hstep
    refine h.goto (by simp [hworker]) ?_ ?_ ?_ _ <;> split <;> simp_all
  · rename_i hworker
    cases hstep
    refine h.goto (by simp [hworker]) ?_ ?_ ?_ _ <;> split <;> simp_all
  · rename_i hworker
    split at hstep
    · cases hstep
      exact h.goto (by simp [hworker]) (by simp) (by simp) (by simp) _
    · cases hstep
      exact h.goto (by simp [hworker]) (by simp) (by simp) (by simp) _
    · rename_i d subscribers encoded hsubscribers _
      cases hstep
      refine h.goto (by simp [hworker]) (by simp) (by simp) (fun l _ hl => ?_) _
      cases hl
      rw [← hsubscribers]
      exact nodup_getSubscribedDapps _ _ _
  · rename_i hworker
    cases hstep
    exact h.goto (by simp [hworker]) (by simp) (by simp) (by simp) _
  · rename_i d subscribers encoded hworker
    cases hstep
    refine (h.emit _ _).goto (by simp [State.emit, hworker]) (by simp) (by simp) (fun l _ hl => ?_) _
    cases hl
    exact (List.nodup_cons.mp (h.nodup _ _ hworker)).2

theorem step (h : Inv s) {e : Event} {s' : State} (hstep : s.step e = some s') : Inv s' := by
  cases e with
  | call c =>
    obtain ⟨⟨hidle, hc⟩, hstep⟩ := Option.ite_none_right_eq_some.mp hstep
    cases hstep
    refine h.call hidle ?_
    rintro rfl
    cases hc
  | deliver =>
    simp only [State.step] at hstep
    split at hstep
    · rename_i callbacks hcontrol
      cases hstep
      obtain ⟨hsubscribers, rfl⟩ := List.cons.inj (h.delivers _ hcontrol)
      exact h.startSm hcontrol
    · rename_i callbacks hcontrol
      cases hstep
      obtain ⟨hsubscribers, rfl⟩ := List.cons.inj (h.delivers _ hcontrol)
      exact h.stopSm hcontrol
    · cases hstep
  | controlAction requestMessageId decoded timestamp messageId =>
    simp only [State.step] at hstep
    split at hstep
    · cases hstep
    · split at hstep
      · cases hstep
        exact h.emit _ _
      · cases hstep
        exact h
  | registerDapp now =>
    cases hstep
    exact h.of_same (h.watched.locked (.registerDapp now)) (hasSubscribers_registerDapp _ _ _) rfl rfl
      rfl rfl
  | registerSm =>
    simp only [State.step] at hstep
    split at hstep
    · cases hstep
    · rename_i hjoins
      split at hstep
      · cases hstep
        exact h
      · rename_i hregistered
        cases hstep
        have hmodel := h.unregistered (by simpa using hregistered)
        refine ⟨h.watched, h.sound, by simp, by simp, ?_, h.delivers, h.joining, by simp, by simp⟩
        simpa using hjoins
  | clear =>
    obtain ⟨hidle, hstep⟩ := Option.ite_none_right_eq_some.mp hstep
    cases hstep
    exact h.clear hidle
  | join =>
    obtain ⟨⟨hjoins, -⟩, hstep⟩ := Option.ite_none_right_eq_some.mp hstep
    cases hstep
    exact h.joined hjoins
  | worker turn => exact h.work hstep
  | traffic t =>
    cases hstep
    exact h.of_same h.watched rfl rfl rfl rfl rfl

end Inv

theorem inv_start : Inv {} :=
  ⟨watched_fresh, rfl, fun _ => rfl, by simp, by simp [Control.joins], by simp, by simp, by simp,
    by simp⟩

theorem inv_reachable {s : State} (h : (ofStep {} State.step).Reachable s) : Inv s := by
  refine h.induction ?_ fun _ _ _ _ hs hstep => hs.step hstep
  rintro _ rfl
  exact inv_start

/-- Whatever the threads do in which order, `worker_` is never assigned to nor destroyed while it holds a
thread, which would end the process. -/
theorem never_terminated {s : State} (h : (ofStep {} State.step).Reachable s) : s.terminated = false :=
  (inv_reachable h).sound

/-! ### Indications to a dApp that has left -/

/-- The PDU is an indication for the dApp. -/
def indicates (d : UInt32) (pdu : Pdu) : Bool :=
  match pdu.choice with
  | .indicationMessage msg => msg.dappIdentifier = d
  | _ => false

namespace State

variable (s : State)

/-- How many indications for the dApp the model has passed to `queue_outbound`. -/
def indications (d : UInt32) : Nat := s.passed.countP (indicates d)

/-- The dApps that the round of the worker has still to send to. -/
def pending : List UInt32 :=
  match s.model.worker with
  | .emitting subscribers _ => subscribers
  | _ => []

end State

theorem choice_outboundEmitter (messageId : GeneratedId) (pdu : Pdu) :
    (outboundEmitter messageId pdu).choice = pdu.choice := by
  unfold outboundEmitter
  split <;> rfl

theorem indications_emit (s : State) (messageId : GeneratedId) (pdu : Pdu) (d : UInt32) :
    (s.emit messageId pdu).indications d = s.indications d + if indicates d pdu then 1 else 0 := by
  have hsame : indicates d (outboundEmitter messageId pdu) = indicates d pdu := by
    unfold indicates
    rw [choice_outboundEmitter]
  simp only [State.indications, State.emit, List.countP_append, List.countP_singleton, hsame]

theorem Inv.count_pending_le {s : State} (h : Inv s) (d : UInt32) : s.pending.count d ≤ 1 := by
  unfold State.pending
  split
  · rename_i subscribers encoded hworker
    exact List.nodup_iff_count_le_one.mp (h.nodup subscribers encoded hworker) d
  · simp

/-- Whoever is not the worker passes no indications on, and leaves it where it stands unless it is
before or after its loop. -/
theorem step_others {s s' : State} {e : Event} (hworker : ∀ turn, e ≠ .worker turn)
    (hstep : s.step e = some s') :
    (∀ d, s'.indications d = s.indications d) ∧ (s'.pending = s.pending ∨ s'.pending = []) := by
  cases e with
  | call c =>
    obtain ⟨-, hstep⟩ := Option.ite_none_right_eq_some.mp hstep
    cases hstep
    exact ⟨fun _ => rfl, Or.inl rfl⟩
  | deliver =>
    simp only [State.step] at hstep
    split at hstep
    · cases hstep
      unfold State.startSm
      split
      · exact ⟨fun _ => rfl, Or.inl rfl⟩
      · exact ⟨fun _ => rfl, Or.inr rfl⟩
    · cases hstep
      unfold State.stopSm
      split <;> exact ⟨fun _ => rfl, Or.inl rfl⟩
    · cases hstep
  | controlAction requestMessageId decoded timestamp messageId =>
    simp only [State.step] at hstep
    split at hstep
    · cases hstep
    · split at hstep
      · cases hstep
        exact ⟨fun d => indications_emit s _ _ d, Or.inl rfl⟩
      · cases hstep
        exact ⟨fun _ => rfl, Or.inl rfl⟩
  | registerDapp now =>
    cases hstep
    exact ⟨fun _ => rfl, Or.inl rfl⟩
  | registerSm =>
    simp only [State.step] at hstep
    split at hstep
    · cases hstep
    · split at hstep
      · cases hstep
        exact ⟨fun _ => rfl, Or.inl rfl⟩
      · cases hstep
        exact ⟨fun _ => rfl, Or.inr rfl⟩
  | clear =>
    obtain ⟨-, hstep⟩ := Option.ite_none_right_eq_some.mp hstep
    cases hstep
    unfold State.clear
    split
    · exact ⟨fun _ => rfl, Or.inl rfl⟩
    · split
      · exact ⟨fun _ => rfl, Or.inr rfl⟩
      · exact ⟨fun _ => rfl, Or.inl rfl⟩
  | join =>
    obtain ⟨-, hstep⟩ := Option.ite_none_right_eq_some.mp hstep
    cases hstep
    unfold State.joined
    split <;> exact ⟨fun _ => rfl, Or.inr rfl⟩
  | worker turn => exact absurd rfl (hworker turn)
  | traffic t =>
    cases hstep
    exact ⟨fun _ => rfl, Or.inl rfl⟩

/-- A step of the worker passes an indication on for a dApp on its list, and only for that; a dApp that
is not subscribed does not come onto the list. -/
theorem indications_work {s s' : State} (h : Inv s) {turn : Turn} {d : UInt32}
    (hd : s.manager.isSubscribed d RAN_FUNCTION_ID = false) (hstep : s.work turn = some s') :
    s'.indications d + s'.pending.count d = s.indications d + s.pending.count d := by
  unfold State.work at hstep
  split at hstep
  · cases hstep
  · cases hstep
  · rename_i hworker
    cases hstep
    cases hrunning : s.model.running <;> simp [State.pending, State.indications, hworker]
  · rename_i hworker
    cases hstep
    cases hrunning : s.model.running <;> simp [State.pending, State.indications, hworker]
  · rename_i hworker
    split at hstep
    · cases hstep
      simp [State.pending, State.indications, hworker]
    · cases hstep
      simp [State.pending, State.indications, hworker]
    · rename_i d' subscribers encoded hsubscribers _
      cases hstep
      have hnone : d ∉ d' :: subscribers := by
        rw [← hsubscribers, mem_getSubscribedDapps, ← h.watched.indexed.agree, ← isSubscribed_iff, hd]
        simp
      simp [State.pending, State.indications, hworker, List.count_eq_zero.mpr hnone]
  · rename_i hworker
    cases hstep
    simp [State.pending, State.indications, hworker]
  · rename_i d' subscribers encoded hworker
    cases hstep
    have hemit := indications_emit s turn.messageId
      (makeIndicationPdu turn.timestamp d' RAN_FUNCTION_ID encoded) d
    simp only [State.pending, hworker, List.count_cons]
    simp only [State.indications] at hemit ⊢
    rw [hemit]
    by_cases hsame : d' = d
    · simp [indicates, makeIndicationPdu, hsame]
      omega
    · simp [indicates, makeIndicationPdu, hsame]

/-- While a dApp is not subscribed, every indication for it was on the list of the worker before. -/
theorem indications_step {s s' : State} (h : Inv s) {e : Event} {d : UInt32}
    (hd : s.manager.isSubscribed d RAN_FUNCTION_ID = false) (hstep : s.step e = some s') :
    s'.indications d + s'.pending.count d ≤ s.indications d + s.pending.count d := by
  by_cases hworker : ∃ turn, e = .worker turn
  · obtain ⟨turn, rfl⟩ := hworker
    exact Nat.le_of_eq (indications_work h hd hstep)
  · obtain ⟨hsame, hpending⟩ := step_others (fun turn he => hworker ⟨turn, he⟩) hstep
    rw [hsame]
    obtain hpending | hpending := hpending
    · rw [hpending]
    · simp [hpending]

/-- As long as a dApp is not subscribed, whatever the threads do in which order, the model passes at most
one indication for it to `queue_outbound`, and none if its worker had not yet read the subscribers when the
dApp left. -/
theorem stale_indications {s t : State} {instants : List State} (d : UInt32)
    (hs : (ofStep {} State.step).Reachable s)
    (hunsubscribed : Interval State.step
      (fun n => n.manager.isSubscribed d RAN_FUNCTION_ID = false) s instants t) :
    t.indications d ≤ s.indications d + 1 ∧
      (d ∉ s.pending → t.indications d ≤ s.indications d) := by
  have hreachable := hunsubscribed.reachable hs
  have hbound : t.indications d + t.pending.count d ≤ s.indications d + s.pending.count d := by
    refine hunsubscribed.induction
      (Q := fun n => n.indications d + n.pending.count d ≤ s.indications d + s.pending.count d)
      (Nat.le_refl _) ?_
    intro a e b ha _ hstep hle
    have hinv := inv_reachable (hreachable a ha)
    exact Nat.le_trans (indications_step hinv (hunsubscribed.holds a ha) hstep) hle
  have hone := (inv_reachable hs).count_pending_le d
  refine ⟨by omega, fun hnone => ?_⟩
  rw [List.count_eq_zero.mpr hnone] at hbound
  omega

def turn : Turn where
  order := .ascending UInt32
  timestamp := 0
  encoded := some [0xAB]
  messageId := default

/-- A dApp subscribes, and unsubscribes after the worker has read the list. -/
def leaving : List Event :=
  [.registerSm, .registerDapp 0, .call (.addSubscription 1 1), .deliver, .worker turn, .worker turn,
    .worker turn, .call (.removeSubscriptionById 1 1)]

/-- It gets an indication all the same. -/
theorem stale_indications_leaving :
    ∃ s t, execute State.step {} leaving = some s ∧ s.step (.worker turn) = some t ∧
      t.indications 1 = 1 ∧ t.indications 1 ≤ s.indications 1 + 1 := by
  obtain ⟨s, hrun⟩ : ∃ s, execute State.step {} leaving = some s :=
    Option.isSome_iff_exists.mp (by decide +kernel)
  have hfacts : ((execute State.step {} leaving).bind fun s => (s.step (.worker turn)).map fun t =>
      (s.manager.isSubscribed 1 1, t.manager.isSubscribed 1 1, t.indications 1)) =
      some (false, false, 1) := by
    decide +kernel
  rw [hrun, Option.bind_some] at hfacts
  obtain ⟨t, hstep, heq⟩ := Option.map_eq_some_iff.mp hfacts
  simp only [Prod.mk.injEq] at heq
  obtain ⟨hs, ht, hone⟩ := heq
  exact ⟨s, t, hrun, hstep, hone,
    (stale_indications 1 (reachable_of_execute leaving hrun) (.next hs hstep (.last ht))).1⟩

/-! ### After the last subscription -/

/-- Between two messages, a model without subscribers does not run and has no thread. -/
theorem Inv.at_rest {s : State} (h : Inv s) (hidle : s.control = .idle)
    (hnone : s.manager.hasSubscribers RAN_FUNCTION_ID = false) :
    s.model.running = false ∧ s.model.worker = .absent := by
  have hrunning : s.model.running = false := by
    by_contra hruns
    obtain hsome | ⟨callbacks, hcontrol⟩ := h.follows (by simpa using hruns)
    · rw [hnone] at hsome
      cases hsome
    · rw [hidle] at hcontrol
      cases hcontrol
  exact ⟨hrunning, h.absent (by rw [hidle]; rfl) hrunning⟩

/-- Where nobody is subscribed and no handler is at work, a step that leaves it so passes nothing on and
starts nothing. -/
theorem quiet_step {s s' : State} (h : Inv s) (hidle : s.control = .idle)
    (hnone : s.manager.hasSubscribers RAN_FUNCTION_ID = false) {e : Event}
    (hstep : s.step e = some s') (hnone' : s'.manager.hasSubscribers RAN_FUNCTION_ID = false) :
    s'.control = .idle ∧ s'.passed = s.passed := by
  obtain ⟨hrunning, hworker⟩ := h.at_rest hidle hnone
  cases e with
  | call c =>
    obtain ⟨⟨-, hc⟩, hstep⟩ := Option.ite_none_right_eq_some.mp hstep
    cases hstep
    have hclear : c ≠ .clear := by
      rintro rfl
      cases hc
    refine ⟨?_, rfl⟩
    simp only [h.watched.perform_callbacksFor hclear, report, hnone, hnone', if_true, Control.next]
  | deliver => simp [State.step, hidle] at hstep
  | controlAction requestMessageId decoded timestamp messageId =>
    simp only [State.step, hidle, hrunning, Bool.and_false, ne_eq, not_true_eq_false, if_false,
      Bool.false_eq_true, Option.some.injEq] at hstep
    cases hstep
    exact ⟨hidle, rfl⟩
  | registerDapp now =>
    cases hstep
    exact ⟨hidle, rfl⟩
  | registerSm =>
    simp only [State.step, hidle, Control.joins, Bool.false_eq_true, if_false] at hstep
    split at hstep
    · cases hstep
      exact ⟨hidle, rfl⟩
    · cases hstep
      exact ⟨rfl, rfl⟩
  | clear =>
    simp only [State.step, hidle, if_true, Option.some.injEq] at hstep
    cases hstep
    unfold State.clear
    simp only [hrunning, Bool.not_false, Bool.true_or, if_true]
    split
    · exact ⟨hidle, rfl⟩
    · exact ⟨rfl, rfl⟩
  | join => simp [State.step, hidle, Control.joins] at hstep
  | worker turn => simp [State.step, State.work, hworker] at hstep
  | traffic t =>
    cases hstep
    exact ⟨hidle, rfl⟩

/-- Once the handler that took the last subscription has returned, and until there is a subscription
again, the model has no thread and passes nothing to `queue_outbound`, neither an indication nor an
acknowledgement. -/
theorem quiet_without_subscribers {s t : State} {instants : List State}
    (hs : (ofStep {} State.step).Reachable s) (hidle : s.control = .idle)
    (hnone : Interval State.step
      (fun n => n.manager.hasSubscribers RAN_FUNCTION_ID = false) s instants t) :
    t.passed = s.passed ∧ t.control = .idle ∧ t.model.worker = .absent := by
  have hreachable := hnone.reachable hs
  obtain ⟨hcontrol, hpassed⟩ := hnone.induction (Q := fun n => n.control = .idle ∧ n.passed = s.passed)
    ⟨hidle, rfl⟩ fun a e b ha hb hstep hq => by
      obtain ⟨hcontrol, hpassed⟩ := quiet_step (inv_reachable (hreachable a ha)) hq.1
        (hnone.holds a ha) hstep (hnone.holds b hb)
      exact ⟨hcontrol, hpassed.trans hq.2⟩
  have hinv := inv_reachable (hreachable t hnone.last_mem)
  exact ⟨hpassed, hcontrol, (hinv.at_rest hcontrol (hnone.holds t hnone.last_mem)).2⟩

/-- The rest of `leaving`: the worker is stopped, sends what it has on its list and returns. -/
def left : List Event := [.deliver, .worker turn, .worker turn, .worker turn, .join]

/-- Another dApp comes and does not subscribe. -/
theorem quiet_without_subscribers_left :
    ∃ s t, execute State.step {} (leaving ++ left) = some s ∧ s.step (.registerDapp 0) = some t ∧
      s.passed.length = 1 ∧ t.passed = s.passed ∧ t.model.worker = .absent := by
  obtain ⟨s, hrun⟩ : ∃ s, execute State.step {} (leaving ++ left) = some s :=
    Option.isSome_iff_exists.mp (by decide +kernel)
  have hfacts : ((execute State.step {} (leaving ++ left)).bind fun s =>
      (s.step (.registerDapp 0)).map fun t => (s.manager.hasSubscribers 1,
        t.manager.hasSubscribers 1, s.control, s.passed.length)) = some (false, false, .idle, 1) := by
    decide +kernel
  rw [hrun, Option.bind_some] at hfacts
  obtain ⟨t, hstep, heq⟩ := Option.map_eq_some_iff.mp hfacts
  simp only [Prod.mk.injEq] at heq
  obtain ⟨hs, ht, hidle, hone⟩ := heq
  obtain ⟨hpassed, -, hworker⟩ := quiet_without_subscribers (reachable_of_execute _ hrun) hidle
    (.next hs hstep (.last ht))
  exact ⟨s, t, hrun, hstep, hone, hpassed, hworker⟩

/-! ### Waiting for the worker -/

def Event.isWorker : Event → Bool
  | .worker _ => true
  | _ => false

/-- A bound on the steps that a worker which has been told to stop takes before it returns. -/
def State.rank (s : State) : Nat :=
  match s.model.worker with
  | .absent | .returned => 0
  | .testing | .sleeping => 1
  | .collecting => s.manager.getSubscriberCount RAN_FUNCTION_ID + 3
  | .emitting subscribers _ => subscribers.length + 2

theorem length_getSubscribedDapps (s : SubscriptionManager) (order : Enumeration UInt32) (f : UInt32) :
    (s.getSubscribedDapps order f).length = s.getSubscriberCount f := by
  unfold getSubscribedDapps getSubscriberCount
  split
  · rfl
  · rw [← Multiset.coe_card, order.coe_list]
    rfl

/-- A worker that finds `running_` reset comes closer to its end with every step. -/
theorem rank_work {s s' : State} (hrunning : s.model.running = false) {turn : Turn}
    (hstep : s.work turn = some s') :
    s'.rank + 1 ≤ s.rank ∧ s'.control = s.control := by
  unfold State.work at hstep
  split at hstep
  · cases hstep
  · cases hstep
  · rename_i hworker
    cases hstep
    simp [State.rank, hworker, hrunning]
  · rename_i hworker
    cases hstep
    simp [State.rank, hworker, hrunning]
  · rename_i hworker
    split at hstep
    · cases hstep
      simp [State.rank, hworker]
    · cases hstep
      simp [State.rank, hworker]
    · rename_i d subscribers encoded hsubscribers _
      cases hstep
      have hlength := length_getSubscribedDapps s.manager turn.order RAN_FUNCTION_ID
      rw [hsubscribers] at hlength
      simp [State.rank, hworker, ← hlength]
  · rename_i hworker
    cases hstep
    simp [State.rank, hworker]
  · rename_i d subscribers encoded hworker
    cases hstep
    simp [State.rank, State.emit, hworker]

/-- While somebody waits for the worker, nobody else brings it further from its end, and the wait ends
with the `join` only. -/
theorem rank_step {s s' : State} (h : Inv s) (hjoins : s.control.joins = true) {e : Event}
    (he : e ≠ .join) (hstep : s.step e = some s') :
    s'.control.joins = true ∧ s'.rank + (if e.isWorker then 1 else 0) ≤ s.rank := by
  have hidle : s.control ≠ .idle := by
    intro hidle
    rw [hidle] at hjoins
    cases hjoins
  cases e with
  | call c => simp [State.step, hidle] at hstep
  | deliver =>
    simp only [State.step] at hstep
    split at hstep
    · rename_i hcontrol
      simp [hcontrol, Control.joins] at hjoins
    · rename_i hcontrol
      simp [hcontrol, Control.joins] at hjoins
    · cases hstep
  | controlAction requestMessageId decoded timestamp messageId => simp [State.step, hidle] at hstep
  | registerDapp now =>
    cases hstep
    refine ⟨hjoins, Nat.le_of_eq ?_⟩
    simp only [State.rank, getSubscriberCount, registerDapp_ranFunctionSubscribers]
    rfl
  | registerSm => simp [State.step, hjoins] at hstep
  | clear => simp [State.step, hidle] at hstep
  | join => exact absurd rfl he
  | worker turn =>
    obtain ⟨hrank, hcontrol⟩ := rank_work (h.waits.mp hjoins).1 hstep
    exact ⟨hcontrol ▸ hjoins, hrank⟩
  | traffic t =>
    cases hstep
    exact ⟨hjoins, Nat.le_refl _⟩

/-- From every state in which a handler or `stop` waits for the worker, and as long as the wait lasts: the
worker takes at most as many steps as it has dApps left to send to, and a few more; until it has returned
it can take the next one; and then the wait ends, the worker is gone, and no thread was destroyed that
still ran. -/
theorem join_returns {s t : State} (hs : (ofStep {} State.step).Reachable s)
    (hjoins : s.control.joins = true) (trace : List Event) (hwaiting : Event.join ∉ trace)
    (hrun : execute State.step s trace = some t) :
    trace.countP Event.isWorker ≤ s.rank ∧
    (t.model.worker ≠ .returned → ∀ turn, ∃ t', t.step (.worker turn) = some t') ∧
    (t.model.worker = .returned → ∃ t', t.step .join = some t' ∧ t'.control.joins = false ∧
      t'.model.worker = .absent ∧ t'.terminated = false) := by
  obtain ⟨⟨hinv, hjoins'⟩, hpaid⟩ := execute_amortised
    (P := fun n => Inv n ∧ n.control.joins = true) (Q := fun _ => True) State.rank (fun _ => 0)
    (fun e => if e.isWorker then 1 else 0) (fun _ => 0) (fun n e n' he hn _ hstep => by
      have hne : e ≠ .join := fun heq => hwaiting (heq ▸ he)
      obtain ⟨hjoins', hrank⟩ := rank_step hn.1 hn.2 hne hstep
      exact ⟨⟨hn.1.step hstep, hjoins'⟩, by omega⟩) (fun _ _ _ _ _ => trivial)
    ⟨inv_reachable hs, hjoins⟩ trivial hrun
  have hzero : (trace.map fun _ => 0).sum = 0 := by simp
  rw [sum_map_ite, Nat.one_mul, hzero] at hpaid
  refine ⟨by omega, fun hworking turn => ?_, fun hreturned => ?_⟩
  · have hpresent := (hinv.waits.mp hjoins').2
    simp only [State.step, State.work]
    split
    · rename_i habsent
      exact absurd habsent hpresent
    · rename_i hreturned
      exact absurd hreturned hworking
    · exact ⟨_, rfl⟩
    · exact ⟨_, rfl⟩
    · split <;> exact ⟨_, rfl⟩
    · exact ⟨_, rfl⟩
    · exact ⟨_, rfl⟩
  · have hafter := hinv.joined hjoins'
    refine ⟨t.joined, if_pos ⟨hjoins', hreturned⟩, ?_, ?_, hafter.sound⟩
    · unfold State.joined
      split
      · exact Control.joins_next _
      · rfl
    · unfold State.joined
      split <;> rfl

/-- The handler that takes the last subscription waits for a worker with one dApp on its list. -/
theorem join_returns_leaving :
    ∃ s t t', execute State.step {} (leaving ++ [.deliver]) = some s ∧ s.rank = 3 ∧
      execute State.step s [.worker turn, .registerDapp 0, .worker turn, .worker turn] = some t ∧
      t.step .join = some t' ∧ t'.terminated = false := by
  obtain ⟨s, hrun⟩ : ∃ s, execute State.step {} (leaving ++ [.deliver]) = some s :=
    Option.isSome_iff_exists.mp (by decide +kernel)
  have hfacts : ((execute State.step {} (leaving ++ [.deliver])).bind fun s =>
      (execute State.step s [.worker turn, .registerDapp 0, .worker turn, .worker turn]).map fun t =>
        (s.control.joins, s.rank, t.model.worker)) = some (true, 3, .returned) := by
    decide +kernel
  rw [hrun, Option.bind_some] at hfacts
  obtain ⟨t, hlater, heq⟩ := Option.map_eq_some_iff.mp hfacts
  simp only [Prod.mk.injEq] at heq
  obtain ⟨hjoins, hrank, hreturned⟩ := heq
  obtain ⟨-, -, hjoin⟩ := join_returns (reachable_of_execute _ hrun) hjoins _ (by simp) hlater
  obtain ⟨t', hstep, -, -, hsound⟩ := hjoin hreturned
  exact ⟨s, t, t', hrun, hrank, hlater, hstep, hsound⟩

end LibE3.Emissions
