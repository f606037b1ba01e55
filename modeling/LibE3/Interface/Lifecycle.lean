import LibE3.Interface.Registry
import LibE3.Subscription.Manager

/-! `E3Interface` from `init` to `stop`, with the response queue and the connector, and the sending
functions of `E3Agent`.  `stop` shuts the queue and a POSIX connector down for good: neither has a way
back, and `start` makes no new ones.  So the interface works in exactly those runs in which it is not
started again after it was stopped. -/

namespace LibE3

/-! ### The response queue -/

/-- `ResponseQueue`, with its ring as the bounded queue that it is to calls made one at a time. -/
structure ResponseQueue where
  ring : List Pdu := []
  capacity : Nat := 128
  shutdown : Bool := false
  deriving DecidableEq, Repr

namespace ResponseQueue

variable (q : ResponseQueue)

def full : Bool := decide (q.capacity ≤ q.ring.length)

def push (pdu : Pdu) : ResponseQueue × ErrorCode :=
  if q.shutdown then (q, .notInitialized)
  else if q.full then (q, .bufferTooSmall)
  else ({ q with ring := q.ring ++ [pdu] }, .success)

def tryPop : ResponseQueue × Option Pdu :=
  match q.ring with
  | [] => (q, none)
  | pdu :: rest => ({ q with ring := rest }, some pdu)

def signalShutdown : ResponseQueue := { q with shutdown := true }

end ResponseQueue

/-! ### The connector -/

structure Connector where
  linkLayer : E3LinkLayer
  connected : Bool := false
  /-- `shutdown_requested_`, which the POSIX connector has. -/
  shutdownRequested : Bool := false
  deriving DecidableEq, Repr

/-- What a `poll` on the inbound socket comes back with. -/
inductive Poll
  | ready
  | timeout
  | interrupted
  | failed
  deriving DecidableEq, Repr

namespace Connector

variable (c : Connector)

/-- `result` is what the operating system makes of the sockets. -/
def setupInitialConnection (result : ErrorCode) : Connector :=
  if result = .success then { c with connected := true } else c

/-- The ZMQ connector relies on the timeouts of its sockets and does nothing here. -/
def shutdown : Connector :=
  match c.linkLayer with
  | .zmq => c
  | .posix => { c with shutdownRequested := true }

def dispose : Connector := { c with connected := false }

/-- What `setup_inbound_connection` of the POSIX connector returns after its wait. -/
def acceptInbound (accepted : Bool) : ErrorCode :=
  if accepted then .success
  else if c.shutdownRequested then .cancelled
  else .connectionFailed

/-- The wait of `setup_inbound_connection`, with the results of its polls: what the function returns,
unless it still waits, and how many polls it makes.  The flag is the one at the call: a `stop` that
raises it later has first taken the interface out of `RUNNING`. -/
def awaitInbound (accepted : Bool) : List Poll → Option ErrorCode × Nat
  | [] => (if c.shutdownRequested then some .cancelled else none, 0)
  | poll :: polls =>
    if c.shutdownRequested then (some .cancelled, 0)
    else
      match poll with
      | .timeout => ((awaitInbound accepted polls).1, (awaitInbound accepted polls).2 + 1)
      | .failed => (some .connectionFailed, 1)
      | .interrupted => (some (c.acceptInbound accepted), 1)
      | .ready => (some (c.acceptInbound accepted), 1)

/-- `listening` says whether the socket was created, bound and made to listen. -/
def setupInboundConnection (listening accepted : Bool) (polls : List Poll) :
    Option ErrorCode × Nat :=
  if listening then c.awaitInbound accepted polls else (some .connectionFailed, 0)

end Connector

/-! ### The interface -/

structure E3Interface where
  linkLayer : E3LinkLayer
  state : AgentState := .uninitialized
  shouldStop : Bool := false
  subscriptionManager : Option SubscriptionManager := none
  responseQueue : Option ResponseQueue := none
  connector : Option Connector := none
  /-- `SmRegistry::instance()`. -/
  registry : SmRegistry := {}

namespace E3Interface

variable (x : E3Interface)

/-- `encoder` says whether the build has the encoder of the configured format.  There is a connector
for each link layer. -/
def init (encoder : Bool) : E3Interface × ErrorCode :=
  if x.state ≠ .uninitialized then (x, .alreadyInitialized)
  else if !encoder then (x, .internalError)
  else
    ({ x with
        subscriptionManager := some (SubscriptionManager.setSmLifecycleCallback {})
        responseQueue := some {}
        connector := some { linkLayer := x.linkLayer }
        state := .initialized }, .success)

/-- `connection` is what `setup_initial_connection` returns. -/
def start (connection : ErrorCode) : E3Interface × ErrorCode :=
  if x.state ≠ .initialized then (x, .stateError)
  else
    let connecting : E3Interface :=
      { x with
        state := .connecting
        shouldStop := false
        connector := x.connector.map fun c => c.setupInitialConnection connection }
    if connection ≠ .success then ({ connecting with state := .error }, connection)
    else ({ connecting with state := .running }, .success)

def stop (order : Enumeration UInt32) : E3Interface :=
  if x.state = .uninitialized ∨ x.state = .stopping then x
  else
    { x with
      state := .initialized
      shouldStop := true
      responseQueue := x.responseQueue.map (·.signalShutdown)
      connector := x.connector.map fun c => c.shutdown.dispose
      registry := x.registry.clear order }

def queueOutbound (pdu : Pdu) : E3Interface × ErrorCode :=
  match x.responseQueue with
  | none => (x, .notInitialized)
  | some q => ({ x with responseQueue := some (q.push pdu).1 }, (q.push pdu).2)

/-- The body that the sending functions of `E3Agent` share. -/
def sendOutbound (pdu : Pdu) : E3Interface × ErrorCode :=
  if x.state = .running then x.queueOutbound pdu else (x, .notInitialized)

def sendIndication (timestamp : UInt64) (messageId : GeneratedId) (dappId ranFunctionId : UInt32)
    (data : Octets) : E3Interface × ErrorCode :=
  x.sendOutbound
    { type := .indicationMessage
      choice := .indicationMessage ⟨dappId, ranFunctionId, data⟩
      messageId := messageId.id
      timestamp := timestamp }

def sendXappControl (timestamp : UInt64) (messageId : GeneratedId) (dappId ranFunctionId : UInt32)
    (controlData : Octets) : E3Interface × ErrorCode :=
  x.sendOutbound
    { type := .xappControlAction
      choice := .xappControlAction ⟨dappId, ranFunctionId, controlData⟩
      messageId := messageId.id
      timestamp := timestamp }

def sendMessageAck (timestamp : UInt64) (messageId : GeneratedId) (requestId : UInt32)
    (responseCode : ResponseCode) : E3Interface × ErrorCode :=
  x.sendOutbound
    { type := .messageAck
      choice := .messageAck ⟨requestId, responseCode⟩
      messageId := messageId.id
      timestamp := timestamp }

end E3Interface

/-! ### Runs -/

/-- The calls of the application, and the traffic between them: a PDU is queued or published, a
handler calls the subscription manager, or the registry changes in any way. -/
inductive Action
  | init (encoder : Bool)
  | start (connection : ErrorCode)
  | stop (order : Enumeration UInt32)
  | queueOutbound (pdu : Pdu)
  | publish
  | manage (call : Call)
  | serve (registry : SmRegistry)

def Action.perform (x : E3Interface) : Action → E3Interface × ErrorCode
  | .init encoder => x.init encoder
  | .start connection => x.start connection
  | .stop order => (x.stop order, .success)
  | .queueOutbound pdu => x.queueOutbound pdu
  | .publish => ({ x with responseQueue := x.responseQueue.map fun q => q.tryPop.1 }, .success)
  | .manage call =>
    ({ x with subscriptionManager := x.subscriptionManager.map fun s => (call.perform s).1 },
      .success)
  | .serve registry => ({ x with registry }, .success)

namespace E3Interface

open Transition

/-- The interface after a run from its construction. -/
def after (linkLayer : E3LinkLayer) (actions : List Action) : E3Interface :=
  final Action.perform { linkLayer } actions

/-- A `stop` of the run found the interface initialised, so that it did not return at once. -/
def Stopped (linkLayer : E3LinkLayer) (actions : List Action) : Prop :=
  ∃ before order rest, actions = before ++ .stop order :: rest ∧
    (after linkLayer before).state ≠ .uninitialized

/-- No `start` of the run that brings the interface up comes after such a `stop`. -/
def NeverRestarted (linkLayer : E3LinkLayer) (actions : List Action) : Prop :=
  ∀ before connection rest, actions = before ++ .start connection :: rest →
    (after linkLayer before).state = .initialized → connection = .success →
      ¬Stopped linkLayer before

/-- What a running interface should do: its flags are down, sending fails only when the ring is full,
and the wait for an inbound connection gets to its first poll. -/
structure Operational (x : E3Interface) : Prop where
  queue : ∃ q, x.responseQueue = some q ∧ q.shutdown = false
  connector : ∃ c, x.connector = some c ∧ (c.linkLayer = .posix → c.shutdownRequested = false)
  queueOutbound : ∀ pdu, (x.queueOutbound pdu).2 = .success ∨
    (x.queueOutbound pdu).2 = .bufferTooSmall ∧ (x.responseQueue.all (·.full)) = true
  sendIndication : ∀ timestamp messageId dappId ranFunctionId data,
    (x.sendIndication timestamp messageId dappId ranFunctionId data).2 = .success ∨
    (x.responseQueue.all (·.full)) = true
  sendXappControl : ∀ timestamp messageId dappId ranFunctionId data,
    (x.sendXappControl timestamp messageId dappId ranFunctionId data).2 = .success ∨
    (x.responseQueue.all (·.full)) = true
  sendMessageAck : ∀ timestamp messageId requestId responseCode,
    (x.sendMessageAck timestamp messageId requestId responseCode).2 = .success ∨
    (x.responseQueue.all (·.full)) = true
  inbound : ∀ c, x.connector = some c → c.linkLayer = .posix → ∀ accepted poll polls,
    1 ≤ (c.setupInboundConnection true accepted (poll :: polls)).2

/-! ### The flags over a run -/

section Flags

variable {linkLayer : E3LinkLayer} {actions : List Action} {x : E3Interface}

theorem after_concat (linkLayer : E3LinkLayer) (actions : List Action) (a : Action) :
    after linkLayer (actions ++ [a]) = (a.perform (after linkLayer actions)).1 :=
  final_concat _ _ _ _

theorem stopped_concat {a : Action} :
    Stopped linkLayer (actions ++ [a]) ↔
      Stopped linkLayer actions ∨
        (∃ order, a = .stop order) ∧ (after linkLayer actions).state ≠ .uninitialized := by
  constructor
  · rintro ⟨before, order, rest, heq, hstate⟩
    rcases List.eq_nil_or_concat rest with rfl | ⟨rest, last, rfl⟩
    · obtain ⟨rfl, hlast⟩ := List.append_inj' heq rfl
      cases hlast
      exact Or.inr ⟨⟨order, rfl⟩, hstate⟩
    · rw [List.concat_eq_append, ← List.cons_append, ← List.append_assoc] at heq
      obtain ⟨rfl, -⟩ := List.append_inj' heq rfl
      exact Or.inl ⟨before, order, rest, rfl, hstate⟩
  · rintro (⟨before, order, rest, rfl, hstate⟩ | ⟨⟨order, rfl⟩, hstate⟩)
    · exact ⟨before, order, rest ++ [a], by simp, hstate⟩
    · exact ⟨actions, order, [], rfl, hstate⟩

/-- The parts of an interface that is not uninitialised, with both flags saying whether it was
stopped. -/
structure Flags (x : E3Interface) (stopped : Prop) : Prop where
  resting : x.state ≠ .stopping
  parts : x.state ≠ .uninitialized → ∃ q c, x.responseQueue = some q ∧ x.connector = some c ∧
    (q.shutdown = true ↔ stopped) ∧
    (c.linkLayer = .posix → (c.shutdownRequested = true ↔ stopped))
  begun : stopped → x.state ≠ .uninitialized

variable {stopped : Prop}

theorem push_shutdown (q : ResponseQueue) (pdu : Pdu) : (q.push pdu).1.shutdown = q.shutdown := by
  unfold ResponseQueue.push
  split
  · rfl
  · split <;> rfl

theorem tryPop_shutdown (q : ResponseQueue) : q.tryPop.1.shutdown = q.shutdown := by
  unfold ResponseQueue.tryPop
  split <;> rfl

theorem Flags.init (h : x.Flags stopped) (encoder : Bool) : (x.init encoder).1.Flags stopped := by
  unfold E3Interface.init
  split
  · exact h
  split
  · exact h
  · rename_i huninitialized _
    have hnot : ¬stopped := fun hstopped => huninitialized (h.begun hstopped)
    exact ⟨nofun, fun _ => ⟨_, _, rfl, rfl, by simp [hnot], fun _ => by simp [hnot]⟩,
      fun _ => nofun⟩

theorem Flags.start (h : x.Flags stopped) (connection : ErrorCode) :
    (x.start connection).1.Flags stopped := by
  unfold E3Interface.start
  split
  · exact h
  rename_i hinitialized
  obtain ⟨q, c, hq, hc, hshutdown, hrequested⟩ := h.parts (by simp_all)
  have hparts : ∃ q' c', x.responseQueue = some q' ∧
      (x.connector.map fun c => c.setupInitialConnection connection) = some c' ∧
      (q'.shutdown = true ↔ stopped) ∧
      (c'.linkLayer = .posix → (c'.shutdownRequested = true ↔ stopped)) := by
    refine ⟨q, c.setupInitialConnection connection, hq, by rw [hc]; rfl, hshutdown, ?_⟩
    unfold Connector.setupInitialConnection
    split <;> exact hrequested
  dsimp only
  split <;> exact ⟨nofun, fun _ => hparts, fun _ => nofun⟩

theorem Flags.stop (h : x.Flags stopped) (order : Enumeration UInt32) :
    (x.stop order).Flags (stopped ∨ x.state ≠ .uninitialized) := by
  unfold E3Interface.stop
  split
  · rename_i hstate
    have huninitialized := hstate.resolve_right h.resting
    have hsame : (stopped ∨ x.state ≠ .uninitialized) ↔ stopped := by simp [huninitialized]
    rw [hsame]
    exact h
  · rename_i hstate
    have hbegun : x.state ≠ .uninitialized := fun hstate' => hstate (Or.inl hstate')
    obtain ⟨q, c, hq, hc, -, -⟩ := h.parts hbegun
    refine ⟨nofun, fun _ => ⟨q.signalShutdown, c.shutdown.dispose, by rw [hq]; rfl, by rw [hc]; rfl,
      iff_of_true rfl (Or.inr hbegun), fun hposix => iff_of_true ?_ (Or.inr hbegun)⟩,
      fun _ => nofun⟩
    unfold Connector.shutdown at hposix ⊢
    split at hposix
    · rename_i hzmq
      cases hzmq.symm.trans hposix
    · rfl

/-- The traffic between the calls leaves the flags alone. -/
theorem Flags.traffic (h : x.Flags stopped) {x' : E3Interface} (hstate : x'.state = x.state)
    (hconnector : x'.connector = x.connector)
    (hqueue : ∀ q, x.responseQueue = some q →
      ∃ q', x'.responseQueue = some q' ∧ q'.shutdown = q.shutdown) : x'.Flags stopped := by
  refine ⟨by rw [hstate]; exact h.resting, fun hbegun => ?_, by rw [hstate]; exact h.begun⟩
  rw [hstate] at hbegun
  obtain ⟨q, c, hq, hc, hshutdown, hrequested⟩ := h.parts hbegun
  obtain ⟨q', hq', hsame⟩ := hqueue q hq
  exact ⟨q', c, hq', hconnector.trans hc, by rw [hsame]; exact hshutdown, hrequested⟩

theorem Flags.perform (h : x.Flags stopped) {a : Action} (ha : ¬∃ order, a = .stop order) :
    (a.perform x).1.Flags stopped := by
  cases a with
  | init encoder => exact h.init encoder
  | start connection => exact h.start connection
  | stop order => exact absurd ⟨order, rfl⟩ ha
  | queueOutbound pdu =>
    show (x.queueOutbound pdu).1.Flags stopped
    unfold E3Interface.queueOutbound
    split
    · exact h
    · rename_i q hq
      refine h.traffic rfl rfl fun q' hq' => ?_
      cases hq.symm.trans hq'
      exact ⟨_, rfl, push_shutdown q pdu⟩
  | publish =>
    refine h.traffic rfl rfl fun q hq => ⟨q.tryPop.1, ?_, tryPop_shutdown q⟩
    show x.responseQueue.map _ = _
    rw [hq]
    rfl
  | manage call => exact h.traffic rfl rfl fun q hq => ⟨q, hq, rfl⟩
  | serve registry => exact h.traffic rfl rfl fun q hq => ⟨q, hq, rfl⟩

theorem flags_after (linkLayer : E3LinkLayer) (actions : List Action) :
    (after linkLayer actions).Flags (Stopped linkLayer actions) := by
  induction actions using List.reverseRecOn with
  | nil => exact ⟨nofun, fun h => absurd rfl h, fun ⟨_, _, _, heq, _⟩ => by simp at heq⟩
  | append_singleton actions a ih =>
    rw [after_concat, stopped_concat]
    by_cases ha : ∃ order, a = .stop order
    · simp only [ha, true_and]
      obtain ⟨order, rfl⟩ := ha
      exact ih.stop order
    · simp only [ha, false_and, or_false]
      exact ih.perform ha

/-! ### When the interface works -/

/-- With both flags down the interface is operational. -/
theorem Flags.operational (h : x.Flags stopped) (hnot : ¬stopped) (hrunning : x.state = .running) :
    x.Operational := by
  obtain ⟨q, c, hq, hc, hshutdown, hrequested⟩ := h.parts (by simp [hrunning])
  have hup : q.shutdown = false := by
    rw [← Bool.not_eq_true, hshutdown]
    exact hnot
  have hopen : c.linkLayer = .posix → c.shutdownRequested = false := fun hposix => by
    rw [← Bool.not_eq_true, hrequested hposix]
    exact hnot
  have hpush : ∀ pdu, (x.queueOutbound pdu).2 = .success ∨
      (x.queueOutbound pdu).2 = .bufferTooSmall ∧ (x.responseQueue.all (·.full)) = true := by
    intro pdu
    simp only [E3Interface.queueOutbound, hq, ResponseQueue.push, hup, Option.all_some]
    by_cases hfull : q.full = true <;> simp [hfull]
  have hsend : ∀ pdu, (x.sendOutbound pdu).2 = .success ∨
      (x.responseQueue.all (·.full)) = true := by
    intro pdu
    rw [E3Interface.sendOutbound, if_pos hrunning]
    exact (hpush pdu).imp_right And.right
  refine ⟨⟨q, hq, hup⟩, ⟨c, hc, hopen⟩, hpush, fun _ _ _ _ _ => hsend _, fun _ _ _ _ _ => hsend _,
    fun _ _ _ _ => hsend _, ?_⟩
  intro c' hc' hposix accepted poll polls
  cases hc.symm.trans hc'
  cases poll <;> simp [Connector.setupInboundConnection, Connector.awaitInbound, hopen hposix]

/-- Only a `start` that succeeds brings an interface up. -/
theorem running_perform {a : Action} (h : (a.perform x).1.state = .running) :
    x.state = .running ∨ a = .start .success ∧ x.state = .initialized := by
  cases a with
  | init encoder =>
    simp only [Action.perform, E3Interface.init] at h
    split at h
    · exact Or.inl h
    split at h
    · exact Or.inl h
    · cases h
  | start connection =>
    simp only [Action.perform, E3Interface.start] at h
    split at h
    · exact Or.inl h
    rename_i hinitialized
    split at h
    · cases h
    · rename_i hconnection
      rw [ne_eq, not_not] at hinitialized hconnection
      exact Or.inr ⟨by rw [hconnection], hinitialized⟩
  | stop order =>
    simp only [Action.perform, E3Interface.stop] at h
    split at h
    · exact Or.inl h
    · cases h
  | queueOutbound pdu =>
    simp only [Action.perform, E3Interface.queueOutbound] at h
    split at h <;> exact Or.inl h
  | publish => exact Or.inl h
  | manage call => exact Or.inl h
  | serve registry => exact Or.inl h

theorem stop_not_running (x : E3Interface) (order : Enumeration UInt32) :
    (x.stop order).state ≠ .running := by
  unfold E3Interface.stop
  split
  · rename_i hstate
    rcases hstate with hstate | hstate <;> simp [hstate]
  · nofun

/-- A run that never restarts the interface has not stopped it when it runs. -/
theorem NeverRestarted.not_stopped (h : NeverRestarted linkLayer actions)
    (hrunning : (after linkLayer actions).state = .running) : ¬Stopped linkLayer actions := by
  induction actions using List.reverseRecOn with
  | nil => cases hrunning
  | append_singleton actions a ih =>
    have hbefore : NeverRestarted linkLayer actions := fun before connection rest heq =>
      h before connection (rest ++ [a]) (by simp [heq])
    rw [after_concat] at hrunning
    rw [stopped_concat]
    rintro (hstopped | ⟨⟨order, rfl⟩, -⟩)
    · rcases running_perform hrunning with hwas | ⟨rfl, hinitialized⟩
      · exact ih hbefore hwas hstopped
      · exact h actions .success [] rfl hinitialized rfl hstopped
    · exact stop_not_running _ order hrunning

end Flags

/-- Over any run, the interface is operational whenever it is `RUNNING` if and only if it is never
brought up again after it was stopped. -/
theorem operational_iff (linkLayer : E3LinkLayer) (actions : List Action) :
    (∀ before, before <+: actions → (after linkLayer before).state = .running →
      (after linkLayer before).Operational) ↔ NeverRestarted linkLayer actions := by
  constructor
  · intro hworks before connection rest heq hinitialized hconnection hstopped
    subst hconnection
    have hrunning : (after linkLayer (before ++ [.start .success])).state = .running := by
      rw [after_concat]
      simp [Action.perform, E3Interface.start, hinitialized]
    obtain ⟨q, hq, hup⟩ :=
      (hworks (before ++ [.start .success]) ⟨rest, by simp [heq]⟩ hrunning).queue
    -- The queue is the one that was shut down: nothing after `init` makes another.
    obtain ⟨q', c, hq', -, hshutdown, -⟩ :=
      (flags_after linkLayer (before ++ [.start .success])).parts (by simp [hrunning])
    cases hq.symm.trans hq'
    rw [hshutdown.mpr (stopped_concat.mpr (Or.inl hstopped))] at hup
    cases hup
  · rintro hnever before ⟨rest, rfl⟩ hrunning
    have hbefore : NeverRestarted linkLayer before := fun b connection r heq =>
      hnever b connection (r ++ rest) (by simp [heq])
    exact (flags_after linkLayer before).operational (hbefore.not_stopped hrunning) hrunning

/-- An agent that is started, stopped and started again. -/
def restart : List Action :=
  [.init true, .start .success, .stop (.ascending UInt32), .start .success]

/-- The restarted interface is `RUNNING`, but it refuses every PDU with its ring empty, and its wait
for an inbound connection is cancelled before the first poll. -/
theorem not_operational_restart :
    (after .posix restart).state = .running ∧
    (∃ q, (after .posix restart).responseQueue = some q ∧ q.shutdown = true ∧ q.ring = []) ∧
    (∃ c, (after .posix restart).connector = some c ∧ c.shutdownRequested = true ∧
      c.setupInboundConnection true true [.ready] = (some .cancelled, 0)) ∧
    ((after .posix restart).sendMessageAck 0 default 1 .positive).2 = .notInitialized ∧
    ¬(after .posix restart).Operational := by
  refine ⟨rfl, ⟨_, rfl, rfl, rfl⟩, ⟨_, rfl, rfl, rfl⟩, rfl, fun h => ?_⟩
  obtain ⟨q, hq, hup⟩ := h.queue
  cases hq
  cases hup

end E3Interface

end LibE3
