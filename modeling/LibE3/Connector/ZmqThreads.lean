import LibE3.Connector.ZmqSockets

/-! The threads of `E3Interface` on a ZeroMQ link, with `start` and `stop`.  `shutdown` wakes no thread
here; the loops come back to `should_stop_` because `zmq_recv` gives up after `ZMQ_RCVTIMEO` and neither
`zmq_send` on a REP or a PUB socket nor `pop` waits for the peer.  So every call of a thread returns, and
what is left to wait for is `zmq_ctx_destroy` in `dispose`. -/

namespace LibE3

namespace Zmq

namespace Threads

open Transition.System Sockets

/-! ### The loops -/

/-- What the call of a thread comes to. -/
inductive Answer
  | done
  | recvSetup (recv : SetupRecv)
  | handled (answers : Bool)
  | sentResponse (send : SetupSend)
  | connected (calls : BindCalls)
  | received (data : Bool)
  | popped (pdu : Bool)
  | encoded (ok : Bool)
  deriving DecidableEq, Repr

/-- Where `setup_loop` is. -/
inductive Setup
  | check
  | recv
  | handle
  | send
  | recheck
  | returned
  deriving DecidableEq, Repr

/-- `handle_setup_request` calls `send_response` unless there is nothing to answer. -/
def setupStep (shouldStop : Bool) (c : Connector) : Setup → Answer → Option (Connector × Setup)
  | .check, .done => some (c, if shouldStop then .returned else .recv)
  | .recv, .recvSetup recv =>
    (c.recvSetupRequest recv).map fun r =>
      (r.1, match r.2 with
        | .ok 0 | .error _ => .recheck
        | .ok _ => .handle)
  | .handle, .handled answers => some (c, if answers then .send else .check)
  | .send, .sentResponse send => (c.sendResponse send).map fun r => (r.1, .check)
  | .recheck, .done => some (c, if shouldStop then .returned else .check)
  | _, _ => none

/-- Where `subscriber_loop` is. -/
inductive Subscriber
  | connect
  | check
  | receive
  | handle
  | recheck
  | returned
  deriving DecidableEq, Repr

def subscriberStep (shouldStop : Bool) (c : Connector) :
    Subscriber → Answer → Option (Connector × Subscriber)
  | .connect, .connected calls =>
    (c.setupInboundConnection calls).map fun r =>
      (r.1, if r.2 = .success then .check else .returned)
  | .check, .done => some (c, if shouldStop then .returned else .receive)
  | .receive, .received data => some (c, if data then .handle else .recheck)
  | .handle, .done => some (c, .check)
  | .recheck, .done => some (c, if shouldStop then .returned else .check)
  | _, _ => none

/-- Where `publisher_loop` is. -/
inductive Publisher
  | sleep
  | stopCheck
  | connect
  | retryCheck
  | check
  | pop
  | encode
  | send
  | returned
  deriving DecidableEq, Repr

/-- The loop tries to connect again until it succeeds or `should_stop_` is set. -/
def publisherStep (shouldStop : Bool) (c : Connector) :
    Publisher → Answer → Option (Connector × Publisher)
  | .sleep, .done => some (c, .stopCheck)
  | .stopCheck, .done => some (c, if shouldStop then .returned else .connect)
  | .connect, .connected calls =>
    (c.setupOutboundConnection calls).map fun r =>
      (r.1, if r.2 = .success then .check else .retryCheck)
  | .retryCheck, .done => some (c, if shouldStop then .returned else .sleep)
  | .check, .done => some (c, if shouldStop then .returned else .pop)
  | .pop, .popped pdu => some (c, if pdu then .encode else .check)
  | .encode, .encoded ok => some (c, if ok then .send else .check)
  | .send, .done => some (c, .check)
  | _, _ => none

/-! ### The interface -/

/-- Where the caller of `start` and `stop` is. -/
inductive Control
  | initialized
  | running
  | error
  | flagged
  | joinSetup
  | joinSubscriber
  | joinPublisher
  | dispose
  deriving DecidableEq, Repr

structure State where
  connector : Connector
  control : Control := .initialized
  shouldStop : Bool := false
  setup : Setup := .returned
  subscriber : Subscriber := .returned
  publisher : Publisher := .returned
  deriving DecidableEq

/-- A call of `start`, or the next step of one thing; for `dispose` in `stop`, with the number of messages
that are not delivered. -/
inductive Event
  | start (calls : InitialCalls)
  | stop (undelivered : Nat)
  | setup (answer : Answer)
  | subscriber (answer : Answer)
  | publisher (answer : Answer)
  deriving DecidableEq, Repr

namespace State

variable (destroy : Destroy) (s : State)

/-- The whole call is one step, and `stop` runs in one thread: two calls of them at once on one agent,
which `e3_agent.hpp` calls thread-safe though neither takes a lock, are left out. -/
def start (calls : InitialCalls) : Option State :=
  if s.control ≠ .initialized then none
  else (s.connector.setupInitialConnection destroy calls).map fun r =>
    if r.2 = .success then
      { connector := r.1
        control := .running
        setup := .check
        subscriber := .connect
        publisher := .sleep }
    else { s with connector := r.1, control := .error, shouldStop := false }

/-- The next step of `stop`.  A `join` waits for its thread, and `dispose` for the sockets and the
messages.  The calls of the service models in `SmRegistry::clear`, before `dispose`, are left out. -/
def stop (undelivered : Nat) : Option State :=
  match s.control with
  | .initialized | .running | .error => some { s with control := .flagged, shouldStop := true }
  | .flagged => some { s with control := .joinSetup }
  | .joinSetup => if s.setup = .returned then some { s with control := .joinSubscriber } else none
  | .joinSubscriber =>
    if s.subscriber = .returned then some { s with control := .joinPublisher } else none
  | .joinPublisher =>
    if s.publisher = .returned then some { s with control := .dispose } else none
  | .dispose =>
    (s.connector.dispose destroy undelivered).map fun connector =>
      { s with connector, control := .initialized }

def step : Event → Option State
  | .start calls => s.start destroy calls
  | .stop undelivered => s.stop destroy undelivered
  | .setup answer =>
    (setupStep s.shouldStop s.connector s.setup answer).map fun r =>
      { s with connector := r.1, setup := r.2 }
  | .subscriber answer =>
    (subscriberStep s.shouldStop s.connector s.subscriber answer).map fun r =>
      { s with connector := r.1, subscriber := r.2 }
  | .publisher answer =>
    (publisherStep s.shouldStop s.connector s.publisher answer).map fun r =>
      { s with connector := r.1, publisher := r.2 }

/-- `stop` has begun and has not returned. -/
def stopping : Bool :=
  s.control ≠ .initialized && s.control ≠ .running && s.control ≠ .error

end State

/-! ### The calls of the connector -/

/-- The call that an event makes of the connector. -/
def call (s : State) : Event → Option Call
  | .start calls => some (.setupInitialConnection calls)
  | .setup (.recvSetup recv) => some (.recvSetupRequest recv)
  | .setup (.sentResponse send) => some (.sendResponse send)
  | .subscriber (.connected calls) => some (.setupInboundConnection calls)
  | .publisher (.connected calls) => some (.setupOutboundConnection calls)
  | .stop undelivered => if s.control = .dispose then some (.dispose undelivered) else none
  | _ => none

section Calls

variable (destroy : Destroy) (s : State) {c c' : Connector} {shouldStop : Bool}

theorem step_of_setupStep {pc pc' : Setup} {answer : Answer}
    (h : setupStep shouldStop c pc answer = some (c', pc')) :
    pc ≠ .returned ∧
      match call s (.setup answer) with
      | none => c' = c
      | some call => Sockets.step destroy c call = some c' := by
  cases pc <;> cases answer <;> simp only [setupStep, reduceCtorEq, Option.some.injEq,
    Prod.mk.injEq] at h <;> refine ⟨nofun, ?_⟩
  case check.done | handle.handled | recheck.done => exact h.1.symm
  case recv.recvSetup recv =>
    obtain ⟨r, hr, heq⟩ := Option.map_eq_some_iff.mp h
    cases heq
    exact Option.map_eq_some_iff.mpr ⟨r, hr, rfl⟩
  case send.sentResponse send =>
    obtain ⟨r, hr, heq⟩ := Option.map_eq_some_iff.mp h
    cases heq
    exact Option.map_eq_some_iff.mpr ⟨r, hr, rfl⟩

theorem step_of_subscriberStep {pc pc' : Subscriber} {answer : Answer}
    (h : subscriberStep shouldStop c pc answer = some (c', pc')) :
    pc ≠ .returned ∧ (pc = .connect ↔ ∃ calls, answer = .connected calls) ∧ pc' ≠ .connect ∧
      match call s (.subscriber answer) with
      | none => c' = c
      | some call => Sockets.step destroy c call = some c' := by
  cases pc <;> cases answer <;> simp only [subscriberStep, reduceCtorEq, Option.some.injEq,
    Prod.mk.injEq] at h
  case connect.connected calls =>
    obtain ⟨r, hr, heq⟩ := Option.map_eq_some_iff.mp h
    cases heq
    refine ⟨nofun, by simp, by split <;> nofun, Option.map_eq_some_iff.mpr ⟨r, hr, rfl⟩⟩
  case handle.done =>
    obtain ⟨rfl, rfl⟩ := h
    exact ⟨nofun, by simp, nofun, rfl⟩
  case check.done | receive.received data | recheck.done =>
    obtain ⟨rfl, rfl⟩ := h
    exact ⟨nofun, by simp, by split <;> nofun, rfl⟩

theorem step_of_publisherStep {pc pc' : Publisher} {answer : Answer}
    (h : publisherStep shouldStop c pc answer = some (c', pc')) :
    pc ≠ .returned ∧
      match call s (.publisher answer) with
      | none => c' = c
      | some call => Sockets.step destroy c call = some c' := by
  cases pc <;> cases answer <;> simp only [publisherStep, reduceCtorEq, Option.some.injEq,
    Prod.mk.injEq] at h <;> refine ⟨nofun, ?_⟩
  case connect.connected calls =>
    obtain ⟨r, hr, heq⟩ := Option.map_eq_some_iff.mp h
    cases heq
    exact Option.map_eq_some_iff.mpr ⟨r, hr, rfl⟩
  all_goals exact h.1.symm

variable {destroy s} {s' : State}

/-- An event changes the connector by its call only. -/
theorem connector_of_step {e : Event} (h : s.step destroy e = some s') :
    match call s e with
    | none => s'.connector = s.connector
    | some call => Sockets.step destroy s.connector call = some s'.connector := by
  cases e with
  | start calls =>
    simp only [State.step, State.start] at h
    split at h
    · cases h
    obtain ⟨r, hr, rfl⟩ := Option.map_eq_some_iff.mp h
    refine Option.map_eq_some_iff.mpr ⟨r, hr, ?_⟩
    split <;> rfl
  | stop =>
    simp only [State.step, State.stop] at h
    split at h
    case h_8 hcontrol =>
      obtain ⟨c, hc, rfl⟩ := Option.map_eq_some_iff.mp h
      simp only [call, hcontrol, if_true]
      exact hc
    all_goals
      rename_i hcontrol
      simp only [call, hcontrol, reduceCtorEq, if_false]
    case h_1 | h_2 | h_3 | h_4 =>
      cases h
      rfl
    all_goals
      split at h
      · cases h
        rfl
      · cases h
  | setup answer =>
    obtain ⟨r, hr, rfl⟩ := Option.map_eq_some_iff.mp h
    exact (step_of_setupStep destroy s hr).2
  | subscriber answer =>
    obtain ⟨r, hr, rfl⟩ := Option.map_eq_some_iff.mp h
    exact (step_of_subscriberStep destroy s hr).2.2.2
  | publisher answer =>
    obtain ⟨r, hr, rfl⟩ := Option.map_eq_some_iff.mp h
    exact (step_of_publisherStep destroy s hr).2

end Calls

/-! ### The invariant -/

theorem kept_of_reset {c : Connector} {calls : BindCalls} {r : Connector × Bool}
    (h : c.resetSetupSocket calls = some r) :
    r.1.context = c.context ∧ r.1.inboundSocket = c.inboundSocket := by
  unfold Connector.resetSetupSocket at h
  dsimp only at h
  split at h
  · cases h
    exact ⟨rfl, rfl⟩
  · obtain ⟨library, -, rfl⟩ := Option.map_eq_some_iff.mp h
    split
    · exact ⟨rfl, rfl⟩
    · split <;> exact ⟨rfl, rfl⟩

/-- The calls of the setup thread leave the context and the inbound socket alone. -/
theorem kept_of_setupStep {shouldStop : Bool} {c c' : Connector} {pc pc' : Setup} {answer : Answer}
    (h : setupStep shouldStop c pc answer = some (c', pc')) :
    c'.context = c.context ∧ c'.inboundSocket = c.inboundSocket := by
  cases pc <;> cases answer <;> simp only [setupStep, reduceCtorEq, Option.some.injEq,
    Prod.mk.injEq] at h
  case recv.recvSetup recv =>
    obtain ⟨r, hr, heq⟩ := Option.map_eq_some_iff.mp h
    cases heq
    unfold Connector.recvSetupRequest at hr
    split at hr
    case h_4 =>
      obtain ⟨r, hreset, rfl⟩ := Option.map_eq_some_iff.mp hr
      exact kept_of_reset hreset
    all_goals
      cases hr
      exact ⟨rfl, rfl⟩
  case send.sentResponse send =>
    obtain ⟨r, hr, heq⟩ := Option.map_eq_some_iff.mp h
    cases heq
    unfold Connector.sendResponse at hr
    split at hr
    case h_3 =>
      obtain ⟨r, hreset, rfl⟩ := Option.map_eq_some_iff.mp hr
      exact kept_of_reset hreset
    all_goals
      cases hr
      exact ⟨rfl, rfl⟩
  all_goals
    obtain ⟨rfl, -⟩ := h
    exact ⟨rfl, rfl⟩

theorem kept_of_setupConnection {c : Connector} {put : Connector → Option (Nat × Nat) → Connector}
    {calls : BindCalls} {r : Connector × ErrorCode} (h : c.setupConnection put calls = some r) :
    r.1 = c ∨ ∃ library socket, r.1 = put { c with library } socket := by
  unfold Connector.setupConnection at h
  split at h
  · cases h
    exact .inl rfl
  · rename_i context _
    obtain ⟨library, -, rfl⟩ := Option.map_eq_some_iff.mp h
    refine .inr ⟨library, calls.socket.map (·, context), ?_⟩
    dsimp only
    split <;> rfl

theorem kept_of_subscriberStep {shouldStop : Bool} {c c' : Connector} {pc pc' : Subscriber}
    {answer : Answer} (h : subscriberStep shouldStop c pc answer = some (c', pc')) :
    c'.context = c.context ∧ c'.setupSocket = c.setupSocket := by
  cases pc <;> cases answer <;> simp only [subscriberStep, reduceCtorEq, Option.some.injEq,
    Prod.mk.injEq] at h
  case connect.connected calls =>
    obtain ⟨r, hr, heq⟩ := Option.map_eq_some_iff.mp h
    cases heq
    obtain heq | ⟨library, socket, heq⟩ := kept_of_setupConnection hr <;> rw [heq] <;>
      exact ⟨rfl, rfl⟩
  all_goals
    obtain ⟨rfl, -⟩ := h
    exact ⟨rfl, rfl⟩

theorem kept_of_publisherStep {shouldStop : Bool} {c c' : Connector} {pc pc' : Publisher}
    {answer : Answer} (h : publisherStep shouldStop c pc answer = some (c', pc')) :
    c'.context = c.context ∧ c'.setupSocket = c.setupSocket ∧
      c'.inboundSocket = c.inboundSocket := by
  cases pc <;> cases answer <;> simp only [publisherStep, reduceCtorEq, Option.some.injEq,
    Prod.mk.injEq] at h
  case connect.connected calls =>
    obtain ⟨r, hr, heq⟩ := Option.map_eq_some_iff.mp h
    cases heq
    obtain heq | ⟨library, socket, heq⟩ := kept_of_setupConnection hr <;> rw [heq] <;>
      exact ⟨rfl, rfl, rfl⟩
  all_goals
    obtain ⟨rfl, -⟩ := h
    exact ⟨rfl, rfl, rfl⟩

/-- A reset of the setup socket that fails. -/
def failedReset : Answer → Bool
  | .recvSetup (.error calls) | .sentResponse (.error calls) => !calls.succeed
  | _ => false

theorem socket_of_reset {c : Connector} (hcontext : c.context.isSome = true) {calls : BindCalls}
    {r : Connector × Bool} (h : c.resetSetupSocket calls = some r) :
    r.1.setupSocket.isSome = calls.succeed := by
  obtain ⟨context, hcontext⟩ := Option.isSome_iff_exists.mp hcontext
  unfold Connector.resetSetupSocket at h
  simp only [show c.closeSetup.context = some context from hcontext] at h
  obtain ⟨library, -, rfl⟩ := Option.map_eq_some_iff.mp h
  cases hsocket : calls.socket with
  | none => simp [BindCalls.succeed, hsocket]
  | some socket => cases hbind : calls.bind <;> simp [BindCalls.succeed, hsocket, hbind]

/-- The setup thread keeps its socket exactly where it does not fail to reset it, and without it has no
request. -/
theorem socket_of_setupStep {shouldStop : Bool} {c c' : Connector} {pc pc' : Setup} {answer : Answer}
    (hcontext : c.context.isSome = true)
    (h : setupStep shouldStop c pc answer = some (c', pc')) :
    (c'.setupSocket.isSome = true ↔
      c.setupSocket.isSome = true ∧ failedReset answer = false) ∧
    (pc' = .handle → c'.setupSocket.isSome = true) ∧ (pc' = .send → pc = .handle ∧ c' = c) := by
  cases pc <;> cases answer <;> simp only [setupStep, reduceCtorEq, Option.some.injEq,
    Prod.mk.injEq] at h
  case recv.recvSetup recv =>
    obtain ⟨r, hr, heq⟩ := Option.map_eq_some_iff.mp h
    cases heq
    unfold Connector.recvSetupRequest at hr
    cases hsocket : c.setupSocket with
    | none =>
      simp only [hsocket] at hr
      cases hr
      simp [hsocket]
    | some socket =>
      simp only [hsocket] at hr
      cases recv with
      | message length =>
        cases hr
        cases length <;> simp [hsocket, failedReset]
      | timeout =>
        cases hr
        simp [hsocket, failedReset]
      | error calls =>
        obtain ⟨r, hreset, rfl⟩ := Option.map_eq_some_iff.mp hr
        simp [failedReset, socket_of_reset hcontext hreset]
  case send.sentResponse send =>
    obtain ⟨r, hr, heq⟩ := Option.map_eq_some_iff.mp h
    cases heq
    unfold Connector.sendResponse at hr
    cases hsocket : c.setupSocket with
    | none =>
      simp only [hsocket] at hr
      cases hr
      simp [hsocket]
    | some socket =>
      simp only [hsocket] at hr
      cases send with
      | sent =>
        cases hr
        simp [hsocket, failedReset]
      | error calls =>
        obtain ⟨r, hreset, rfl⟩ := Option.map_eq_some_iff.mp hr
        simp [failedReset, socket_of_reset hcontext hreset]
  case handle.handled answers =>
    obtain ⟨rfl, rfl⟩ := h
    cases answers <;> simp [failedReset]
  case check.done | recheck.done =>
    obtain ⟨rfl, rfl⟩ := h
    cases shouldStop <;> simp [failedReset]

/-- The threads that have returned, by where `stop` is. -/
def State.Joined (s : State) : Prop :=
  match s.control with
  | .initialized | .error | .dispose =>
    s.setup = .returned ∧ s.subscriber = .returned ∧ s.publisher = .returned
  | .joinPublisher => s.setup = .returned ∧ s.subscriber = .returned
  | .joinSubscriber => s.setup = .returned
  | _ => True

/-- Between `stop` and `start` all fields are empty; the subscriber thread connects once; the setup and
the publisher thread run with a context; and the setup thread has no request without its socket. -/
structure State.Inv (s : State) : Prop where
  sound : s.connector.slots.Sound
  fresh : s.control = .initialized → ∀ f, s.connector.get f = none
  joined : s.Joined
  inbound : s.subscriber = .connect → s.connector.inboundSocket = none
  context : s.setup ≠ .returned ∨ s.publisher ≠ .returned → s.connector.context.isSome = true
  asked : s.connector.setupSocket = none → s.setup ≠ .handle ∧ s.setup ≠ .send
  flagged : s.stopping = true → s.shouldStop = true

section Invariant

variable {destroy : Destroy} {s s' : State}

theorem vacant_of_inv (h : s.Inv) {e : Event} (hstep : s.step destroy e = some s')
    (houtbound : ∀ calls, e = .publisher (.connected calls) → s.connector.outboundSocket = none)
    {c : Call} (hc : call s e = some c) : Vacant s.connector c := by
  cases e with
  | start calls =>
    cases hc
    have hcontrol : s.control = .initialized := by
      simp only [State.step, State.start] at hstep
      split at hstep
      · cases hstep
      · exact not_not.mp ‹_›
    have hempty := h.fresh hcontrol
    exact ⟨Option.map_eq_none_iff.mp (hempty .context),
      fun _ _ _ => Option.map_eq_none_iff.mp (hempty .setupSocket)⟩
  | stop =>
    simp only [call] at hc
    split at hc <;> cases hc
    trivial
  | setup answer => cases answer <;> cases hc <;> trivial
  | subscriber answer =>
    cases answer <;> cases hc
    obtain ⟨r, hr, -⟩ := Option.map_eq_some_iff.mp hstep
    have hconnect := (step_of_subscriberStep destroy s hr).2.1.mpr ⟨_, rfl⟩
    exact fun _ => h.inbound hconnect
  | publisher answer =>
    cases answer <;> cases hc
    exact fun _ => houtbound _ rfl

theorem inv_init (transportLayer : E3TransportLayer) :
    State.Inv { connector := { transportLayer } } :=
  ⟨sound_start transportLayer, fun _ f => by cases f <;> rfl, ⟨rfl, rfl, rfl⟩, nofun,
    fun h => absurd h (by simp), fun _ => ⟨nofun, nofun⟩, nofun⟩

theorem sound_of_step (h : s.Inv) {e : Event} (hstep : s.step destroy e = some s') :
    s'.connector.slots.Sound := by
  have hconnector := connector_of_step hstep
  split at hconnector
  · rw [hconnector]
    exact h.sound
  · exact (sound_step h.sound hconnector).1

theorem context_of_setupInitialConnection {c : Connector} {calls : InitialCalls}
    {r : Connector × ErrorCode} (h : c.setupInitialConnection destroy calls = some r)
    (hsuccess : r.2 = .success) :
    r.1.context.isSome = true ∧ r.1.inboundSocket = c.inboundSocket := by
  obtain ⟨library, -, hrest⟩ := Option.bind_eq_some_iff.mp h
  dsimp only at hrest
  split at hrest
  · cases hrest
    cases hsuccess
  · rename_i context hcontext
    split at hrest
    · split at hrest
      · obtain ⟨library', -, rfl⟩ := Option.map_eq_some_iff.mp hrest
        split
        · exact ⟨by simp [hcontext], rfl⟩
        · simp_all
      · cases hrest
        cases hsuccess
    · obtain ⟨library', -, rfl⟩ := Option.map_eq_some_iff.mp hrest
      cases hsuccess

theorem inv_start (h : s.Inv) {calls : InitialCalls} (hstep : s.start destroy calls = some s') :
    s'.Inv := by
  have hsound := sound_of_step (e := .start calls) h hstep
  unfold State.start at hstep
  split at hstep
  · cases hstep
  rename_i hcontrol
  have hcontrol : s.control = .initialized := not_not.mp hcontrol
  have hjoined : s.setup = .returned ∧ s.subscriber = .returned ∧ s.publisher = .returned := by
    have hjoined := h.joined
    rwa [State.Joined, hcontrol] at hjoined
  obtain ⟨r, hr, rfl⟩ := Option.map_eq_some_iff.mp hstep
  by_cases hsuccess : r.2 = .success
  · obtain ⟨hcontext, hinbound⟩ := context_of_setupInitialConnection hr hsuccess
    rw [if_pos hsuccess] at hsound ⊢
    refine ⟨hsound, nofun, trivial, fun _ => ?_, fun _ => hcontext, fun _ => ⟨nofun, nofun⟩, nofun⟩
    exact hinbound.trans (Option.map_eq_none_iff.mp (h.fresh hcontrol .inboundSocket))
  · rw [if_neg hsuccess] at hsound ⊢
    refine ⟨hsound, nofun, hjoined, fun hconnect => ?_, fun hne => ?_, fun _ => ?_, nofun⟩
    · exact absurd (hjoined.2.1.symm.trans hconnect) nofun
    · simp [hjoined] at hne
    · simp [hjoined]

theorem inv_stop (h : s.Inv) {undelivered : Nat} (hstep : s.stop destroy undelivered = some s') :
    s'.Inv := by
  have hsound := sound_of_step (e := .stop undelivered) h hstep
  have hjoined := h.joined
  have hflagged := h.flagged
  unfold State.stop at hstep
  unfold State.Joined at hjoined
  split at hstep
  case h_1 | h_2 | h_3 =>
    cases hstep
    exact ⟨hsound, nofun, trivial, h.inbound, h.context, h.asked, fun _ => rfl⟩
  all_goals
    rename_i hcontrol
    rw [hcontrol] at hjoined
    have hstop : s.shouldStop = true := hflagged (by simp [State.stopping, hcontrol])
  case h_4 =>
    cases hstep
    exact ⟨hsound, nofun, trivial, h.inbound, h.context, h.asked, fun _ => hstop⟩
  case h_5 | h_6 | h_7 =>
    split at hstep
    · rename_i hreturned
      cases hstep
      refine ⟨hsound, nofun, ?_, h.inbound, h.context, h.asked, fun _ => hstop⟩
      simp_all [State.Joined]
    · cases hstep
  case h_8 =>
    obtain ⟨c, hc, rfl⟩ := Option.map_eq_some_iff.mp hstep
    have hempty : ∀ f, c.get f = none := by
      rw [dispose_eq_some hc]
      intro f
      cases f <;> rfl
    refine ⟨hsound, fun _ => hempty, hjoined, fun hconnect => ?_, fun hne => ?_, fun _ => ?_, nofun⟩
    · exact absurd (hjoined.2.1.symm.trans hconnect) nofun
    · simp [hjoined] at hne
    · simp [hjoined]

/-- A thread that has not returned can take a step only before `stop` has joined it. -/
theorem not_joined (h : s.Inv) (hbusy : s.setup ≠ .returned ∨ s.subscriber ≠ .returned ∨
    s.publisher ≠ .returned) : s.control ≠ .initialized ∧ s.control ≠ .error ∧
    s.control ≠ .dispose := by
  have hjoined := h.joined
  unfold State.Joined at hjoined
  refine ⟨?_, ?_, ?_⟩ <;>
  · intro hcontrol
    rw [hcontrol] at hjoined
    obtain ⟨hsetup, hsubscriber, hpublisher⟩ := hjoined
    rcases hbusy with hne | hne | hne <;> contradiction

theorem inv_setup (h : s.Inv) {answer : Answer} (hstep : s.step destroy (.setup answer) = some s') :
    s'.Inv := by
  have hsound := sound_of_step h hstep
  have hjoined := h.joined
  obtain ⟨⟨c', pc'⟩, hr, rfl⟩ := Option.map_eq_some_iff.mp hstep
  have hne := (step_of_setupStep destroy s hr).1
  obtain ⟨hinitialized, herror, hdispose⟩ := not_joined h (.inl hne)
  obtain ⟨hcontext, hinbound⟩ := kept_of_setupStep hr
  refine ⟨hsound, fun hcontrol => absurd hcontrol hinitialized, ?_, ?_, ?_, ?_, h.flagged⟩
  · unfold State.Joined at hjoined ⊢
    cases hcontrol : s.control <;> simp_all
  · exact fun hconnect => hinbound.trans (h.inbound hconnect)
  · exact fun _ => hcontext ▸ h.context (.inl hne)
  · obtain ⟨-, hhandle, hsend⟩ := socket_of_setupStep (h.context (.inl hne)) hr
    intro hnone
    refine ⟨fun heq => ?_, fun heq => ?_⟩
    · have hsome := hhandle heq
      rw [hnone] at hsome
      cases hsome
    · obtain ⟨hpc, rfl⟩ := hsend heq
      exact (h.asked hnone).1 hpc

theorem inv_subscriber (h : s.Inv) {answer : Answer}
    (hstep : s.step destroy (.subscriber answer) = some s') : s'.Inv := by
  have hsound := sound_of_step h hstep
  have hjoined := h.joined
  obtain ⟨⟨c', pc'⟩, hr, rfl⟩ := Option.map_eq_some_iff.mp hstep
  obtain ⟨hne, -, hconnected, -⟩ := step_of_subscriberStep destroy s hr
  obtain ⟨hinitialized, herror, hdispose⟩ := not_joined h (.inr (.inl hne))
  obtain ⟨hcontext, hsocket⟩ := kept_of_subscriberStep hr
  refine ⟨hsound, fun hcontrol => absurd hcontrol hinitialized, ?_, ?_, ?_, ?_, h.flagged⟩
  · unfold State.Joined at hjoined ⊢
    cases hcontrol : s.control <;> simp_all
  · exact fun hconnect => absurd hconnect hconnected
  · exact fun hbusy => hcontext ▸ h.context hbusy
  · exact fun hnone => h.asked (hsocket ▸ hnone)

theorem inv_publisher (h : s.Inv) {answer : Answer}
    (hstep : s.step destroy (.publisher answer) = some s') : s'.Inv := by
  have hsound := sound_of_step h hstep
  have hjoined := h.joined
  obtain ⟨⟨c', pc'⟩, hr, rfl⟩ := Option.map_eq_some_iff.mp hstep
  have hne := (step_of_publisherStep destroy s hr).1
  obtain ⟨hinitialized, herror, hdispose⟩ := not_joined h (.inr (.inr hne))
  obtain ⟨hcontext, hsocket, hinbound⟩ := kept_of_publisherStep hr
  refine ⟨hsound, fun hcontrol => absurd hcontrol hinitialized, ?_, ?_, ?_, ?_, h.flagged⟩
  · unfold State.Joined at hjoined ⊢
    cases hcontrol : s.control <;> simp_all
  · exact fun hconnect => hinbound.trans (h.inbound hconnect)
  · exact fun _ => hcontext ▸ h.context (.inr hne)
  · exact fun hnone => h.asked (hsocket ▸ hnone)

theorem inv_step (h : s.Inv) {e : Event} (hstep : s.step destroy e = some s') : s'.Inv := by
  cases e with
  | start calls => exact inv_start h hstep
  | stop undelivered => exact inv_stop h hstep
  | setup answer => exact inv_setup h hstep
  | subscriber answer => exact inv_subscriber h hstep
  | publisher answer => exact inv_publisher h hstep

/-- An event keeps the fields tight exactly where the publisher does not replace a socket. -/
theorem tight_step (h : s.Inv) {e : Event} (hstep : s.step destroy e = some s') :
    s'.connector.slots.Tight ↔ s.connector.slots.Tight ∧
      ∀ calls, e = .publisher (.connected calls) → s.connector.outboundSocket = none := by
  have hconnector := connector_of_step hstep
  split at hconnector
  · rename_i hcall
    rw [hconnector]
    refine (and_iff_left fun calls heq => ?_).symm
    rw [heq] at hcall
    cases hcall
  · rename_i c hcall
    rw [(sound_step h.sound hconnector).2]
    refine and_congr_right fun _ => ⟨fun hvacant calls heq => ?_, fun houtbound => ?_⟩
    · subst heq
      cases hcall
      obtain ⟨r, hr, -⟩ := Option.map_eq_some_iff.mp hstep
      exact hvacant (h.context (.inr (step_of_publisherStep destroy s hr).1))
    · exact vacant_of_inv h hstep houtbound hcall

end Invariant

/-- In every run of the interface, whatever the library, the peers and the order of the threads: once no
message is undelivered, `stop` would get past `dispose` in every state, with no context and no socket left
open, if and only if `publisher_loop` never sets up the outbound connection while it holds a socket of an
earlier attempt.  `start`, the subscriber thread and the reset of the setup socket never replace one. -/
theorem stop_disposes_iff (destroy : Destroy) (transportLayer : E3TransportLayer)
    (trace : List Event) :
    (∀ before after s, trace = before ++ after →
        execute (State.step destroy) { connector := { transportLayer } } before = some s →
        Disposable destroy s.connector) ↔
      ∀ before calls after s s', trace = before ++ .publisher (.connected calls) :: after →
        execute (State.step destroy) { connector := { transportLayer } } before = some s →
        s.step destroy (.publisher (.connected calls)) = some s' →
        s.connector.outboundSocket = none := by
  have hstep : ∀ (s : State) (e : Event) (s' : State), s.Inv → s.step destroy e = some s' →
      s'.Inv ∧ (s.connector.slots.Tight → (s'.connector.slots.Tight ↔
        ∀ calls, e = .publisher (.connected calls) → s.connector.outboundSocket = none)) :=
    fun s e s' h hstep =>
      ⟨inv_step h hstep, fun htight => (tight_step h hstep).trans (and_iff_right htight)⟩
  have hrule := execute_always_iff hstep (inv_init transportLayer)
    (fun r hr => by cases r <;> cases hr) trace
  simp only [disposable_iff]
  rw [hrule]
  constructor
  · intro h before calls after s s' htrace hrun hs'
    exact h before _ after s s' htrace hrun hs' calls rfl
  · intro h before e after s s' htrace hrun hs' calls heq
    subst heq
    exact h before calls after s s' htrace hrun hs'

/-! ### The setup socket of a session -/

def Event.isThread : Event → Bool
  | .start _ | .stop _ => false
  | _ => true

/-- The setup thread loses its socket. -/
def Event.losesSocket : Event → Bool
  | .setup answer => failedReset answer
  | _ => false

/-- The steps of the threads, between `start` and `stop`. -/
def session (destroy : Destroy) : State → Event → Option State :=
  guarded (fun _ e => e.isThread) (State.step destroy)

section Sessions

variable {destroy : Destroy}

theorem socket_of_session {s s' : State} (h : s.Inv) {e : Event} (hstep : session destroy s e = some s') :
    s'.Inv ∧ (s'.connector.setupSocket.isSome = true ↔
      s.connector.setupSocket.isSome = true ∧ e.losesSocket = false) := by
  obtain ⟨hthread, hstep⟩ := guarded_eq_some.mp hstep
  refine ⟨inv_step h hstep, ?_⟩
  cases e with
  | start calls | stop undelivered => cases hthread
  | setup answer =>
    obtain ⟨⟨c', pc'⟩, hr, rfl⟩ := Option.map_eq_some_iff.mp hstep
    exact (socket_of_setupStep (h.context (.inl (step_of_setupStep destroy s hr).1)) hr).1
  | subscriber answer =>
    obtain ⟨⟨c', pc'⟩, hr, rfl⟩ := Option.map_eq_some_iff.mp hstep
    simp [(kept_of_subscriberStep hr).2, Event.losesSocket]
  | publisher answer =>
    obtain ⟨⟨c', pc'⟩, hr, rfl⟩ := Option.map_eq_some_iff.mp hstep
    simp [(kept_of_publisherStep hr).2.1, Event.losesSocket]

theorem control_of_session {s s' : State} {e : Event} (hstep : session destroy s e = some s') :
    s'.control = s.control := by
  obtain ⟨hthread, hstep⟩ := guarded_eq_some.mp hstep
  cases e with
  | start calls | stop undelivered => cases hthread
  | setup answer | subscriber answer | publisher answer =>
    obtain ⟨r, -, rfl⟩ := Option.map_eq_some_iff.mp hstep
    rfl

/-- Without its socket the setup thread does not come to handle a request. -/
theorem not_handled {s s' : State} (h : s.Inv) (hnone : s.connector.setupSocket = none)
    {answers : Bool} (hstep : session destroy s (.setup (.handled answers)) = some s') : False := by
  obtain ⟨-, hstep⟩ := guarded_eq_some.mp hstep
  obtain ⟨r, hr, -⟩ := Option.map_eq_some_iff.mp hstep
  have hhandle := (h.asked hnone).1
  generalize s.setup = pc at hr hhandle
  cases pc with
  | handle => exact hhandle rfl
  | check | recv | send | recheck | returned => cases hr

theorem lost_of_session {s s' : State} {later : List Event} (h : s.Inv)
    (hnone : s.connector.setupSocket = none) (hrun : execute (session destroy) s later = some s') :
    s'.connector.setupSocket = none ∧ ∀ answers, Event.setup (.handled answers) ∉ later := by
  induction later generalizing s with
  | nil =>
    cases hrun
    exact ⟨hnone, fun _ => List.not_mem_nil⟩
  | cons e later ih =>
    obtain ⟨t, ht, hrest⟩ := Option.bind_eq_some_iff.mp hrun
    obtain ⟨hinv, hsocket⟩ := socket_of_session h ht
    have hlost : t.connector.setupSocket = none := by
      rw [← Option.not_isSome_iff_eq_none, hsocket, hnone]
      simp
    obtain ⟨hend, hhandled⟩ := ih hinv hlost hrest
    refine ⟨hend, fun answers hmem => ?_⟩
    obtain heq | hmem := List.mem_cons.mp hmem
    · exact not_handled h hnone (heq ▸ ht)
    · exact hhandled answers hmem

end Sessions

/-- In a session on a ZeroMQ link the setup thread has its socket in every state if and only if no reset
of the socket fails.  After the first that does it handles no request any more, although the state of
the interface stays RUNNING: nothing but the next `start` opens the socket again. -/
theorem setup_served_iff (destroy : Destroy) (transportLayer : E3TransportLayer)
    (trace later : List Event) (s : State)
    (hrun : execute (State.step destroy) { connector := { transportLayer } } trace = some s)
    (hsocket : s.connector.setupSocket.isSome = true) :
    ((∀ before after t, later = before ++ after → execute (session destroy) s before = some t →
        t.connector.setupSocket.isSome = true) ↔
      ∀ before e after t t', later = before ++ e :: after → execute (session destroy) s before = some t →
        session destroy t e = some t' → e.losesSocket = false) ∧
    ∀ before after t t', later = before ++ after → execute (session destroy) s before = some t →
      t.connector.setupSocket = none → execute (session destroy) t after = some t' →
      t'.control = s.control ∧ t'.connector.setupSocket = none ∧
        ∀ answers, Event.setup (.handled answers) ∉ after := by
  have hinv : s.Inv := execute_induction (inv_init transportLayer)
    (fun _ _ _ _ h hstep => inv_step h hstep) hrun
  have hstep : ∀ (s : State) (e : Event) (s' : State), s.Inv → session destroy s e = some s' →
      s'.Inv ∧ (s.connector.setupSocket.isSome = true →
        (s'.connector.setupSocket.isSome = true ↔ e.losesSocket = false)) := by
    intro s e s' h hsession
    obtain ⟨h', hkept⟩ := socket_of_session h hsession
    exact ⟨h', fun hsocket => hkept.trans (and_iff_right hsocket)⟩
  refine ⟨execute_always_iff hstep hinv hsocket later, ?_⟩
  intro before after t t' _ hbefore hnone hafter
  have hcontrol : ∀ {s s' : State} {trace : List Event}, execute (session destroy) s trace = some s' →
      s'.control = s.control := fun {s _ _} hrun =>
    execute_induction (P := fun t => t.control = s.control) rfl
      (fun _ _ _ _ h hstep => (control_of_session hstep).trans h) hrun
  have htinv : t.Inv := execute_induction (P := State.Inv) hinv
    (fun _ _ _ _ h hstep => (socket_of_session h hstep).1) hbefore
  exact ⟨(hcontrol hafter).trans (hcontrol hbefore), lost_of_session htinv hnone hafter⟩

/-- The start of a session, and a reply that cannot be sent, with the endpoint taken by then. -/
def lostEndpoint : List Event :=
  [.setup .done, .setup (.recvSetup (.message 40)), .setup (.handled true),
    .setup (.sentResponse (.error { socket := some 12, bind := false }))]

theorem setup_served_lostEndpoint :
    ∃ s t, execute (State.step .lingering) { connector := { transportLayer := .tcp } }
        [.start { ctxNew := some 1, socket := some 11 }] = some s ∧
      execute (session .lingering) s lostEndpoint = some t ∧ t.control = .running ∧
      t.connector.setupSocket = none ∧
      ∀ later t', execute (session .lingering) t later = some t' →
        ∀ answers, Event.setup (.handled answers) ∉ later := by
  have hfacts : ((execute (State.step .lingering) { connector := { transportLayer := .tcp } }
      [.start { ctxNew := some 1, socket := some 11 }]).bind fun s =>
        (execute (session .lingering) s lostEndpoint).map fun t =>
          (s.connector.setupSocket.isSome, t.control, t.connector.setupSocket)) =
      some (true, .running, none) := by decide
  obtain ⟨s, hrun, hrest⟩ := Option.bind_eq_some_iff.mp hfacts
  obtain ⟨t, ht, heq⟩ := Option.map_eq_some_iff.mp hrest
  simp only [Prod.mk.injEq] at heq
  obtain ⟨hsocket, hcontrol, hnone⟩ := heq
  refine ⟨s, t, hrun, ht, hcontrol, hnone, fun later t' hlater => ?_⟩
  exact ((setup_served_iff .lingering .tcp _ (lostEndpoint ++ later) s hrun hsocket).2 lostEndpoint
    later t t' rfl ht hnone hlater).2.2

/-! ### The end of `stop` -/

/-- The steps that a thread takes at most before it returns, once `should_stop_` is set. -/
def Setup.rank : Setup → Nat
  | .recv => 4
  | .handle => 3
  | .send => 2
  | .check | .recheck => 1
  | .returned => 0

def Subscriber.rank : Subscriber → Nat
  | .receive => 3
  | .connect | .handle => 2
  | .check | .recheck => 1
  | .returned => 0

def Publisher.rank : Publisher → Nat
  | .pop => 4
  | .encode => 3
  | .sleep | .connect | .send => 2
  | .stopCheck | .retryCheck | .check => 1
  | .returned => 0

/-- The steps of `stop` that are left. -/
def Control.rank : Control → Nat
  | .flagged => 5
  | .joinSetup => 4
  | .joinSubscriber => 3
  | .joinPublisher => 2
  | .dispose => 1
  | _ => 0

def State.rank (s : State) : Nat :=
  s.control.rank + s.setup.rank + s.subscriber.rank + s.publisher.rank

theorem State.rank_le (s : State) : s.rank ≤ 16 := by
  have hcontrol : s.control.rank ≤ 5 := by cases s.control <;> decide
  have hsetup : s.setup.rank ≤ 4 := by cases s.setup <;> decide
  have hsubscriber : s.subscriber.rank ≤ 3 := by cases s.subscriber <;> decide
  have hpublisher : s.publisher.rank ≤ 4 := by cases s.publisher <;> decide
  unfold State.rank
  omega

section Ranks

variable {c c' : Connector} {answer : Answer}

theorem rank_of_setupStep {pc pc' : Setup} (h : setupStep true c pc answer = some (c', pc')) :
    pc'.rank < pc.rank := by
  cases pc <;> cases answer <;> simp only [setupStep, reduceCtorEq, Option.some.injEq,
    Prod.mk.injEq, if_true] at h
  case recv.recvSetup recv =>
    obtain ⟨r, -, heq⟩ := Option.map_eq_some_iff.mp h
    cases heq
    split <;> decide
  case send.sentResponse send =>
    obtain ⟨r, -, heq⟩ := Option.map_eq_some_iff.mp h
    cases heq
    decide
  all_goals
    obtain ⟨-, rfl⟩ := h
    first
      | decide
      | split <;> decide

theorem rank_of_subscriberStep {pc pc' : Subscriber}
    (h : subscriberStep true c pc answer = some (c', pc')) : pc'.rank < pc.rank := by
  cases pc <;> cases answer <;> simp only [subscriberStep, reduceCtorEq, Option.some.injEq,
    Prod.mk.injEq, if_true] at h
  case connect.connected calls =>
    obtain ⟨r, -, heq⟩ := Option.map_eq_some_iff.mp h
    cases heq
    split <;> decide
  all_goals
    obtain ⟨-, rfl⟩ := h
    first
      | decide
      | split <;> decide

theorem rank_of_publisherStep {pc pc' : Publisher}
    (h : publisherStep true c pc answer = some (c', pc')) : pc'.rank < pc.rank := by
  cases pc <;> cases answer <;> simp only [publisherStep, reduceCtorEq, Option.some.injEq,
    Prod.mk.injEq, if_true] at h
  case connect.connected calls =>
    obtain ⟨r, -, heq⟩ := Option.map_eq_some_iff.mp h
    cases heq
    split <;> decide
  all_goals
    obtain ⟨-, rfl⟩ := h
    first
      | decide
      | split <;> decide

/-- The next call of the setup thread returns. -/
theorem exists_setupStep (shouldStop : Bool) (c : Connector) {pc : Setup} (h : pc ≠ .returned) :
    ∃ answer r, setupStep shouldStop c pc answer = some r := by
  cases pc with
  | check | recheck => exact ⟨.done, _, rfl⟩
  | recv =>
    refine ⟨.recvSetup .timeout, ?_⟩
    cases hsocket : c.setupSocket <;>
      simp [setupStep, Connector.recvSetupRequest, hsocket]
  | handle => exact ⟨.handled false, _, rfl⟩
  | send =>
    refine ⟨.sentResponse .sent, ?_⟩
    cases hsocket : c.setupSocket <;>
      simp [setupStep, Connector.sendResponse, hsocket]
  | returned => exact absurd rfl h

theorem exists_setupConnection (c : Connector)
    (put : Connector → Option (Nat × Nat) → Connector) :
    ∃ r, c.setupConnection put { socket := none } = some r := by
  cases hcontext : c.context <;> simp [Connector.setupConnection, hcontext, Library.socket]

theorem exists_subscriberStep (shouldStop : Bool) (c : Connector) {pc : Subscriber}
    (h : pc ≠ .returned) : ∃ answer r, subscriberStep shouldStop c pc answer = some r := by
  cases pc with
  | check | recheck | handle => exact ⟨.done, _, rfl⟩
  | connect =>
    obtain ⟨r, hr⟩ := exists_setupConnection c fun c socket => { c with inboundSocket := socket }
    exact ⟨.connected { socket := none }, _, Option.map_eq_some_iff.mpr ⟨r, hr, rfl⟩⟩
  | receive => exact ⟨.received false, _, rfl⟩
  | returned => exact absurd rfl h

theorem exists_publisherStep (shouldStop : Bool) (c : Connector) {pc : Publisher}
    (h : pc ≠ .returned) : ∃ answer r, publisherStep shouldStop c pc answer = some r := by
  cases pc with
  | sleep | stopCheck | retryCheck | check | send => exact ⟨.done, _, rfl⟩
  | connect =>
    obtain ⟨r, hr⟩ := exists_setupConnection c fun c socket => { c with outboundSocket := socket }
    exact ⟨.connected { socket := none }, _, Option.map_eq_some_iff.mpr ⟨r, hr, rfl⟩⟩
  | pop => exact ⟨.popped false, _, rfl⟩
  | encode => exact ⟨.encoded false, _, rfl⟩
  | returned => exact absurd rfl h

end Ranks

section Stopping

variable {destroy : Destroy} {s s' : State}

/-- Every step of `stop` and of a thread brings `stop` nearer to its end. -/
theorem rank_step (h : s.Inv) (hstopping : s.stopping = true) {e : Event}
    (hstep : s.step destroy e = some s') : s'.rank < s.rank := by
  have hstop := h.flagged hstopping
  cases e with
  | start calls =>
    simp only [State.step, State.start] at hstep
    split at hstep
    · cases hstep
    · simp_all [State.stopping]
  | stop =>
    simp only [State.step, State.stop] at hstep
    split at hstep
    case h_1 | h_2 | h_3 => simp_all [State.stopping]
    case h_4 =>
      cases hstep
      simp_all [State.rank, Control.rank]
    case h_8 =>
      obtain ⟨c, -, rfl⟩ := Option.map_eq_some_iff.mp hstep
      simp_all [State.rank, Control.rank]
    all_goals
      split at hstep
      · cases hstep
        simp_all [State.rank, Control.rank]
      · cases hstep
  | setup answer =>
    obtain ⟨⟨c', pc'⟩, hr, rfl⟩ := Option.map_eq_some_iff.mp hstep
    rw [hstop] at hr
    have hrank := rank_of_setupStep hr
    simp only [State.rank]
    omega
  | subscriber answer =>
    obtain ⟨⟨c', pc'⟩, hr, rfl⟩ := Option.map_eq_some_iff.mp hstep
    rw [hstop] at hr
    have hrank := rank_of_subscriberStep hr
    simp only [State.rank]
    omega
  | publisher answer =>
    obtain ⟨⟨c', pc'⟩, hr, rfl⟩ := Option.map_eq_some_iff.mp hstep
    rw [hstop] at hr
    have hrank := rank_of_publisherStep hr
    simp only [State.rank]
    omega

/-- Before `dispose`, `stop` or the thread that it joins has a step. -/
theorem exists_step (hstopping : s.stopping = true) (hdispose : s.control ≠ .dispose) :
    ∃ e s', s.step destroy e = some s' := by
  cases hcontrol : s.control with
  | initialized | running | error => simp [State.stopping, hcontrol] at hstopping
  | dispose => exact absurd hcontrol hdispose
  | flagged =>
    refine ⟨.stop 0, { s with control := .joinSetup }, ?_⟩
    simp only [State.step, State.stop, hcontrol]
  | joinSetup =>
    by_cases hreturned : s.setup = .returned
    · refine ⟨.stop 0, { s with control := .joinSubscriber }, ?_⟩
      simp only [State.step, State.stop, hcontrol, hreturned, if_true]
    · obtain ⟨answer, r, hr⟩ := exists_setupStep s.shouldStop s.connector hreturned
      exact ⟨.setup answer, _, Option.map_eq_some_iff.mpr ⟨r, hr, rfl⟩⟩
  | joinSubscriber =>
    by_cases hreturned : s.subscriber = .returned
    · refine ⟨.stop 0, { s with control := .joinPublisher }, ?_⟩
      simp only [State.step, State.stop, hcontrol, hreturned, if_true]
    · obtain ⟨answer, r, hr⟩ := exists_subscriberStep s.shouldStop s.connector hreturned
      exact ⟨.subscriber answer, _, Option.map_eq_some_iff.mpr ⟨r, hr, rfl⟩⟩
  | joinPublisher =>
    by_cases hreturned : s.publisher = .returned
    · refine ⟨.stop 0, { s with control := .dispose }, ?_⟩
      simp only [State.step, State.stop, hcontrol, hreturned, if_true]
    · obtain ⟨answer, r, hr⟩ := exists_publisherStep s.shouldStop s.connector hreturned
      exact ⟨.publisher answer, _, Option.map_eq_some_iff.mpr ⟨r, hr, rfl⟩⟩

end Stopping

/-- From every state of a run, as long as `stop` has begun and has not returned, and whatever the
library and the peers do: the threads and `stop` take at most 16 steps together; until `dispose` one
of them has a step; and at `dispose` all threads have returned, and once no message is undelivered
`stop` returns with nothing left open, if and only if every context and socket that is open is in its
field. -/
theorem stop_returns (destroy : Destroy) (transportLayer : E3TransportLayer)
    (trace later : List Event) (s s' : State)
    (hrun : execute (State.step destroy) { connector := { transportLayer } } trace = some s)
    (hlater : execute (guarded (fun s _ => s.stopping) (State.step destroy)) s later = some s') :
    later.length ≤ 16 ∧
    (s'.stopping = true → s'.control ≠ .dispose → ∃ e t, s'.step destroy e = some t) ∧
    (s'.control = .dispose →
      (s'.setup = .returned ∧ s'.subscriber = .returned ∧ s'.publisher = .returned) ∧
      ((∃ t, s'.step destroy (.stop 0) = some t ∧ t.control = .initialized ∧
          t.connector.library = {}) ↔
        ∀ r ∈ s'.connector.slots.live, ∃ f, s'.connector.get f = some r)) := by
  have hinv : s.Inv := execute_induction (inv_init transportLayer)
    (fun _ _ _ _ h hstep => inv_step h hstep) hrun
  obtain ⟨hinv', hpaid⟩ := execute_amortised (P := State.Inv) (Q := fun _ => True) State.rank
    (fun _ => 0) (fun _ => 1) (fun _ => 0) (fun t e t' _ ht _ hstep => by
      obtain ⟨hguard, hstep⟩ := guarded_eq_some.mp hstep
      have hrank := rank_step ht hguard hstep
      exact ⟨inv_step ht hstep, by omega⟩) (fun _ _ _ _ _ => trivial) hinv trivial hlater
  have hlength : (later.map fun _ => 1).sum = later.length := by simp
  have hzero : (later.map fun _ => 0).sum = 0 := by simp
  have hbound := s.rank_le
  refine ⟨by omega, exists_step, fun hdispose => ?_⟩
  have hjoined := hinv'.joined
  rw [State.Joined, hdispose] at hjoined
  have htight : (∃ c, s'.connector.dispose destroy 0 = some c ∧ c.library = {}) ↔
      ∀ r ∈ s'.connector.slots.live, ∃ f, s'.connector.get f = some r :=
    disposable_iff destroy s'.connector
  refine ⟨hjoined, Iff.trans ⟨?_, ?_⟩ htight⟩
  · rintro ⟨t, ht, -, hlibrary⟩
    simp only [State.step, State.stop, hdispose] at ht
    obtain ⟨c, hc, rfl⟩ := Option.map_eq_some_iff.mp ht
    exact ⟨c, hc, hlibrary⟩
  · rintro ⟨c, hc, hlibrary⟩
    refine ⟨{ s' with connector := c, control := .initialized }, ?_, rfl, hlibrary⟩
    simp only [State.step, State.stop, hdispose, hc, Option.map_some]

/-- `stop` while the setup thread is in `zmq_recv` and the publisher is about to try the connection. -/
def interrupted : List Event :=
  [.start { ctxNew := some 1, socket := some 11 }, .setup .done, .publisher .done, .publisher .done,
    .stop 0]

/-- The outbound endpoint is taken; the threads return, and `stop` comes to `dispose`. -/
def rest : List Event :=
  [.stop 0, .setup (.recvSetup .timeout), .setup .done, .stop 0,
    .subscriber (.connected { socket := some 12 }), .subscriber .done, .stop 0,
    .publisher (.connected { socket := some 13, bind := false }), .publisher .done, .stop 0]

/-- The connector when `stop` comes to `dispose`. -/
def held : Connector where
  transportLayer := .tcp
  context := some 1
  setupSocket := some (11, 1)
  inboundSocket := some (12, 1)
  outboundSocket := some (13, 1)
  connected := true
  library := { contexts := {1}, sockets := {(13, 1), (12, 1), (11, 1)} }

theorem stop_returns_interrupted :
    ∃ s s' t, execute (State.step .lingering) { connector := { transportLayer := .tcp } }
        interrupted = some s ∧
      execute (guarded (fun s _ => s.stopping) (State.step .lingering)) s rest = some s' ∧
      rest.length ≤ 16 ∧ s'.step .lingering (.stop 0) = some t ∧ t.connector.library = {} := by
  obtain ⟨s, hrun⟩ : ∃ s, execute (State.step .lingering)
      { connector := { transportLayer := .tcp } } interrupted = some s :=
    Option.isSome_iff_exists.mp (by decide)
  have hfacts : ((execute (State.step .lingering) { connector := { transportLayer := .tcp } }
      interrupted).bind fun s =>
        (execute (guarded (fun s _ => s.stopping) (State.step .lingering)) s rest).map fun s' =>
          (s'.control, s'.connector)) = some (.dispose, held) := by decide
  rw [hrun, Option.bind_some] at hfacts
  obtain ⟨s', hlater, heq⟩ := Option.map_eq_some_iff.mp hfacts
  simp only [Prod.mk.injEq] at heq
  obtain ⟨hcontrol, hconnector⟩ := heq
  obtain ⟨hlength, -, hreturns⟩ := stop_returns .lingering .tcp interrupted rest s s' hrun hlater
  obtain ⟨t, ht, -, hclosed⟩ := (hreturns hcontrol).2.mpr (by
    rw [hconnector]
    rintro (context | socket) hr
    · exact ⟨.context, congrArg (some ∘ Sum.inl) (Finset.mem_singleton.mp hr).symm⟩
    · have hmem : socket ∈ ({(13, 1), (12, 1), (11, 1)} : Finset (Nat × Nat)) := hr
      simp only [Finset.mem_insert, Finset.mem_singleton] at hmem
      rcases hmem with rfl | rfl | rfl
      · exact ⟨.outboundSocket, rfl⟩
      · exact ⟨.inboundSocket, rfl⟩
      · exact ⟨.setupSocket, rfl⟩)
  exact ⟨s, s', t, hrun, hlater, hlength, ht, hclosed⟩

end Threads

end Zmq

end LibE3
