import LibE3.Connector.Sockets

/-! The threads of `E3Interface` on a POSIX link, as far as they can wait: `setup_loop`,
`subscriber_loop` and `publisher_loop` with every call that may block, and `stop`. -/

namespace LibE3

namespace Threads

/-! ### The loops -/

inductive Thread
  | setup
  | subscriber
  | publisher
  deriving DecidableEq, Repr

/-- Where `setup_loop` is, in `recv_setup_request` and in `send_response`. -/
inductive Setup
  | check
  | poll
  | accept
  | recv
  | handle (answer : Option Nat)
  | send (left : Nat)
  | recheck
  | returned
  deriving DecidableEq, Repr

/-- The size of a message is sent before it, in four octets. -/
def setupStep (shouldStop : Bool) (l : Link) : Setup → Outcome → Option (Link × Setup)
  | .check, .ok => some (l, if shouldStop then .returned else .poll)
  | .poll, .ok => if l.acceptable then some (l, .accept) else none
  | .poll, _ => some (l, .recheck)
  | .accept, .ok => (l.accept .ok).map fun l' => (l', .recv)
  | .accept, .failed => (l.accept .failed).map fun l' => (l', .recheck)
  | .recv, .ok => l.recv.map fun r => (r.2, .handle r.1)
  | .recv, .failed => if l.recvFails then some (l, .recheck) else none
  | .handle none, .ok => some (l, .check)
  | .handle (some n), .ok => some (l, .send (n + 4))
  | .send left, .ok => (l.send left).map fun r => (r.2, if r.1 = 0 then .check else .send r.1)
  | .send _, .failed => if l.sendFails then some (l, .check) else none
  | .recheck, .ok => some (l, if shouldStop then .returned else .check)
  | _, _ => none

/-- Where `subscriber_loop` is, in `setup_inbound_connection` and in `receive`. -/
inductive Subscriber
  | listen
  | waitCheck
  | poll
  | flagCheck
  | accept
  | loopCheck
  | receivePoll
  | recv
  | handle
  | recheck
  | returned
  deriving DecidableEq, Repr

def subscriberStep (shouldStop shutdownRequested : Bool) (l : Link) :
    Subscriber → Outcome → Option (Link × Subscriber)
  | .listen, .ok => some (l.listen, .waitCheck)
  | .listen, .failed => some (l, .returned)
  | .waitCheck, .ok => some (l, if shutdownRequested then .flagCheck else .poll)
  | .poll, .ok => if l.acceptable then some (l, .flagCheck) else none
  | .poll, .timeout => some (l, .waitCheck)
  | .poll, .interrupted => some (l, .flagCheck)
  | .poll, .failed => some (l, if shutdownRequested then .flagCheck else .returned)
  | .flagCheck, .ok => some (l, if shutdownRequested then .returned else .accept)
  | .accept, .ok => (l.accept .ok).map fun l' => (l', .loopCheck)
  | .accept, .failed => (l.accept .failed).map fun l' => (l', .returned)
  | .loopCheck, .ok => some (l, if shouldStop then .returned else .receivePoll)
  | .receivePoll, .ok => if l.readable then some (l, .recv) else none
  | .receivePoll, _ => some (l, .recheck)
  | .recv, .ok => l.recv.map fun r => (r.2, .handle)
  | .recv, .failed => if l.recvFails then some (l, .recheck) else none
  | .handle, .ok => some (l, .loopCheck)
  | .recheck, .ok => some (l, if shouldStop then .returned else .loopCheck)
  | _, _ => none

/-- Where `publisher_loop` is, in `setup_outbound_connection` and in `send`. -/
inductive Publisher
  | sleep
  | stopCheck
  | listen
  | accept
  | retryCheck
  | loopCheck
  | pop
  | encode (pdu : Option Nat)
  | send (left : Nat)
  | returned
  deriving DecidableEq, Repr

/-- The PDUs of the response queue, each as the length of its message, if it can be encoded. -/
abbrev Ring := List (Option Nat)

/-- `pop` looks into the ring before it looks at `shutdown_`, and gives up after its timeout. -/
def publisherStep (shouldStop : Bool) (ring : Ring) (l : Link) :
    Publisher → Outcome → Option (Ring × Link × Publisher)
  | .sleep, .ok => some (ring, l, .stopCheck)
  | .stopCheck, .ok => some (ring, l, if shouldStop then .returned else .listen)
  | .listen, .ok => some (ring, l.listen, .accept)
  | .listen, .failed => some (ring, l, .retryCheck)
  | .accept, .ok => (l.accept .ok).map fun l' => (ring, l', .loopCheck)
  | .accept, .failed => (l.accept .failed).map fun l' => (ring, l', .retryCheck)
  | .retryCheck, .ok => some (ring, l, if shouldStop then .returned else .sleep)
  | .loopCheck, .ok => some (ring, l, if shouldStop then .returned else .pop)
  | .pop, .ok =>
    match ring with
    | [] => some ([], l, .loopCheck)
    | pdu :: rest => some (rest, l, .encode pdu)
  | .encode none, .ok => some (ring, l, .loopCheck)
  | .encode (some n), .ok => some (ring, l, .send (n + 4))
  | .send left, .ok =>
    (l.send left).map fun r => (ring, r.2, if r.1 = 0 then .loopCheck else .send r.1)
  | .send _, .failed => if l.sendFails then some (ring, l, .loopCheck) else none
  | _, _ => none

/-! ### The interface -/

/-- Where the caller of `start` and `stop` is.  `flagged` to `setupShut` are the steps of `stop` up to
the end of `shutdown`, which sets `shutdown_requested_` before it goes through the sockets. -/
inductive Control
  | initialized
  | running
  | error
  | flagged
  | queueShut
  | requested
  | setupShut
  | joinSetup
  | joinSubscriber
  | joinPublisher
  | dispose
  deriving DecidableEq, Repr

/-- The threads that `stop` still has to join, once it has shut the connector down. -/
def Control.toJoin : Control → List Thread
  | .joinSetup => [.setup, .subscriber, .publisher]
  | .joinSubscriber => [.subscriber, .publisher]
  | .joinPublisher => [.publisher]
  | _ => []

structure State where
  control : Control := .initialized
  shouldStop : Bool := false
  queueShutdown : Bool := false
  shutdownRequested : Bool := false
  ring : Ring := []
  setup : Setup := .returned
  subscriber : Subscriber := .returned
  publisher : Publisher := .returned
  setupLink : Link := {}
  inboundLink : Link := {}
  outboundLink : Link := {}
  deriving DecidableEq, Repr

inductive Event
  | start (ok : Bool)
  | stop
  | push (pdu : Option Nat)
  | peer (thread : Thread) (action : LinkAction)
  | thread (thread : Thread) (outcome : Outcome)
  deriving DecidableEq, Repr

namespace State

variable (s : State)

/-- `ok` says whether `setup_initial_connection` succeeds.  The whole call is one step, and `stop` runs
in one thread: two calls of them at once on one agent, which `e3_agent.hpp` calls thread-safe though
neither takes a lock, are left out. -/
def start (ok : Bool) : Option State :=
  if s.control ≠ .initialized then none
  else if ok then
    some { s with
      control := .running
      shouldStop := false
      setupLink := s.setupLink.listen
      setup := .check
      subscriber := .listen
      publisher := .sleep }
  else some { s with control := .error, shouldStop := false }

/-- The next step of `stop`.  A `join` waits for its thread. -/
def stop : Option State :=
  match s.control with
  | .initialized | .running | .error => some { s with control := .flagged, shouldStop := true }
  | .flagged => some { s with control := .queueShut, queueShutdown := true }
  | .queueShut => some { s with control := .requested, shutdownRequested := true }
  | .requested => some { s with control := .setupShut, setupLink := s.setupLink.shutdown }
  | .setupShut => some { s with control := .joinSetup, inboundLink := s.inboundLink.shutdown }
  | .joinSetup => if s.setup = .returned then some { s with control := .joinSubscriber } else none
  | .joinSubscriber =>
    if s.subscriber = .returned then some { s with control := .joinPublisher } else none
  | .joinPublisher =>
    if s.publisher = .returned then some { s with control := .dispose } else none
  | .dispose =>
    some { s with control := .initialized, setupLink := {}, inboundLink := {}, outboundLink := {} }

/-- `queue_outbound`, by whichever thread. -/
def push (pdu : Option Nat) : Option State :=
  if s.queueShutdown || decide (128 ≤ s.ring.length) then none
  else some { s with ring := s.ring ++ [pdu] }

def peer (action : LinkAction) : Thread → State
  | .setup => { s with setupLink := s.setupLink.peer action }
  | .subscriber => { s with inboundLink := s.inboundLink.peer action }
  | .publisher => { s with outboundLink := s.outboundLink.peer action }

def advance (outcome : Outcome) : Thread → Option State
  | .setup =>
    (setupStep s.shouldStop s.setupLink s.setup outcome).map fun r =>
      { s with setupLink := r.1, setup := r.2 }
  | .subscriber =>
    (subscriberStep s.shouldStop s.shutdownRequested s.inboundLink s.subscriber outcome).map
      fun r => { s with inboundLink := r.1, subscriber := r.2 }
  | .publisher =>
    (publisherStep s.shouldStop s.ring s.outboundLink s.publisher outcome).map fun r =>
      { s with ring := r.1, outboundLink := r.2.1, publisher := r.2.2 }

def step : Event → Option State
  | .start ok => s.start ok
  | .stop => s.stop
  | .push pdu => s.push pdu
  | .peer thread action => some (s.peer action thread)
  | .thread thread outcome => s.advance outcome thread

def returned : Thread → Bool
  | .setup => s.setup == .returned
  | .subscriber => s.subscriber == .returned
  | .publisher => s.publisher == .returned

/-- Every thread that `stop` still has to join has returned or has a step of its own. -/
def Awake : Prop :=
  ∀ thread ∈ s.control.toJoin,
    s.returned thread = true ∨ ∃ outcome s', s.step (.thread thread outcome) = some s'

end State

end Threads

end LibE3
