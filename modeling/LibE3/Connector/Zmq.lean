import LibE3.Lib.Transition
import LibE3.Types

/-! The inbound link of `ZmqE3Connector`: one SUB socket for all dApps, on which
`setup_inbound_connection` sets `ZMQ_CONFLATE`, and `subscriber_loop` that receives from it.  The
socket keeps only the newest unread message.  So of the messages that arrive between two receives the
loop gets the newest and no other. -/

namespace LibE3

namespace Zmq

open Transition.System

/-- A SUB socket that is subscribed to every message.  It stands for one of libzmq, as far as its
documentation goes: with `ZMQ_CONFLATE` the socket keeps only the newest unread message, and without it
all of them in the order of their arrival. -/
structure SubSocket where
  /-- `ZMQ_CONFLATE`. -/
  conflate : Bool := false
  unread : List Octets := []
  deriving DecidableEq, Repr

namespace SubSocket

variable (socket : SubSocket)

def arrive (message : Octets) : SubSocket :=
  { socket with unread := if socket.conflate then [message] else socket.unread ++ [message] }

/-- `zmq_recv` copies at most `size` octets of a message and returns its whole length; without one it
fails with `EAGAIN` after the timeout. -/
def zmqRecv (size : Nat) : SubSocket × Option (Octets × Nat) :=
  match socket.unread with
  | [] => (socket, none)
  | message :: rest => ({ socket with unread := rest }, some (message.take size, message.length))

end SubSocket

/-- The socket as `setup_inbound_connection` leaves it. -/
def setupInboundConnection : SubSocket := { conflate := true }

/-- `buffer.resize(n)`: a longer buffer is filled up with zeros. -/
def resize (buffer : Octets) (n : Nat) : Octets :=
  buffer.take n ++ List.replicate (n - buffer.length) 0

/-- The buffer that `receive` leaves, if there was a message. -/
def receive (socket : SubSocket) : SubSocket × Option Octets :=
  match socket.zmqRecv DEFAULT_BUFFER_SIZE with
  | (socket, none) => (socket, none)
  | (socket, some (copied, ret)) => (socket, some (resize copied ret))

/-! ### The loop -/

/-- A message of some dApp arrives, `receive` returns, it fails with an error other than `EAGAIN`, or
the loop decodes the buffer that it has received and handles it. -/
inductive Event
  | arrive (message : Octets)
  | receive
  | fail
  | handle
  deriving DecidableEq, Repr

structure State where
  socket : SubSocket := setupInboundConnection
  arrived : List Octets := []
  /-- The buffer that the loop is about to decode. -/
  inHand : Option Octets := none
  /-- The buffers that the loop has passed to `decode`. -/
  decoded : List Octets := []
  deriving DecidableEq, Repr

/-- An encoded PDU is never empty.  The loop receives only when it has handled what it received, and
goes on at once when `receive` returns no octet. -/
def step (s : State) : Event → Option State
  | .arrive message =>
    if message = [] then none
    else some { s with socket := s.socket.arrive message, arrived := s.arrived ++ [message] }
  | .receive =>
    if s.inHand = none then
      let (socket, buffer) := receive s.socket
      some { s with socket, inHand := buffer.filter (· ≠ []) }
    else none
  | .fail => if s.inHand = none then some s else none
  | .handle =>
    match s.inHand with
    | none => none
    | some buffer => some { s with inHand := none, decoded := s.decoded ++ [buffer] }

/-! ### Batches -/

/-- The arrivals between one receive and the next: the closed batches, and the open one. -/
def gather (acc : List (List Octets) × List Octets) : Event → List (List Octets) × List Octets
  | .arrive message => (acc.1, acc.2 ++ [message])
  | .receive => (acc.1 ++ [acc.2], [])
  | _ => acc

def batches (trace : List Event) : List (List Octets) × List Octets := trace.foldl gather ([], [])

/-- What a receive makes of a message. -/
def deliver (message : Octets) : Octets :=
  resize (message.take DEFAULT_BUFFER_SIZE) message.length

theorem deliver_of_fits {message : Octets} (h : message.length ≤ DEFAULT_BUFFER_SIZE) :
    deliver message = message := by
  simp [deliver, resize, List.take_of_length_le h]

theorem deliver_ne_nil {message : Octets} (h : message ≠ []) : deliver message ≠ [] := by
  have hlength : (deliver message).length = message.length := by
    simp only [deliver, resize, List.length_append, List.length_take, List.length_replicate]
    omega
  rw [← List.length_pos_iff, hlength]
  exact List.length_pos_iff.mpr h

theorem sublist_flatten_newest (closed : List (List Octets)) :
    (closed.filterMap List.getLast?).Sublist closed.flatten := by
  induction closed with
  | nil => exact List.Sublist.refl _
  | cons batch closed ih =>
    rw [List.filterMap_cons, List.flatten_cons]
    cases hlast : batch.getLast? with
    | none => exact ih.trans (List.sublist_append_right _ _)
    | some message =>
      have hbatch : [message].Sublist batch :=
        List.singleton_sublist.mpr (List.mem_of_getLast? hlast)
      exact hbatch.append ih

/-! ### What the loop gets -/

/-- The state after a trace: its batches are the arrivals, the socket holds the newest message of the
open one, and the loop has got the newest of every closed one. -/
structure Conflated (s : State) (closed : List (List Octets)) (last : List Octets) : Prop where
  conflate : s.socket.conflate = true
  arrived : s.arrived = closed.flatten ++ last
  nonempty : ∀ message ∈ last, message ≠ []
  unread : s.socket.unread = last.getLast?.toList
  received : s.decoded ++ s.inHand.toList = (closed.filterMap List.getLast?).map deliver

section Steps

variable {s : State} {closed : List (List Octets)} {last : List Octets}

theorem Conflated.arrive (h : Conflated s closed last) {message : Octets} (hne : message ≠ []) :
    Conflated { s with socket := s.socket.arrive message, arrived := s.arrived ++ [message] }
      closed (last ++ [message]) := by
  refine ⟨h.conflate, ?_, ?_, ?_, h.received⟩
  · rw [h.arrived, List.append_assoc]
  · intro m hm
    rcases List.mem_append.mp hm with hm | hm
    · exact h.nonempty m hm
    · rw [List.mem_singleton.mp hm]
      exact hne
  · simp [SubSocket.arrive, h.conflate]

/-- A receive closes the open batch and takes the newest message of it. -/
theorem Conflated.receive (h : Conflated s closed last) (hidle : s.inHand = none) :
    Conflated { s with
      socket := (Zmq.receive s.socket).1
      inHand := (Zmq.receive s.socket).2.filter (· ≠ []) } (closed ++ [last]) [] := by
  have hunread := h.unread
  have hreceived := h.received
  rw [hidle, Option.toList_none, List.append_nil] at hreceived
  cases hlast : last.getLast? with
  | none =>
    rw [hlast, Option.toList_none] at hunread
    have hsocket : Zmq.receive s.socket = (s.socket, none) := by
      simp [Zmq.receive, SubSocket.zmqRecv, hunread]
    rw [hsocket]
    refine ⟨h.conflate, by simp [h.arrived], by simp, by simpa using hunread, ?_⟩
    simp [hreceived, hlast]
  | some message =>
    rw [hlast, Option.toList_some] at hunread
    have hsocket : Zmq.receive s.socket = ({ s.socket with unread := [] }, some (deliver message)) := by
      simp [Zmq.receive, SubSocket.zmqRecv, hunread, deliver]
    have hne := deliver_ne_nil (h.nonempty message (List.mem_of_getLast? hlast))
    rw [hsocket]
    refine ⟨h.conflate, by simp [h.arrived], by simp, rfl, ?_⟩
    simp [hreceived, hlast, hne]

theorem Conflated.handle (h : Conflated s closed last) {buffer : Octets}
    (hbuffer : s.inHand = some buffer) :
    Conflated { s with inHand := none, decoded := s.decoded ++ [buffer] } closed last := by
  have hreceived := h.received
  rw [hbuffer] at hreceived
  exact ⟨h.conflate, h.arrived, h.nonempty, h.unread, by simpa using hreceived⟩

end Steps

theorem Conflated.step {s s' : State} {acc : List (List Octets) × List Octets}
    (h : Conflated s acc.1 acc.2) {e : Event} (hstep : step s e = some s') :
    Conflated s' (gather acc e).1 (gather acc e).2 := by
  cases e with
  | arrive message =>
    simp only [Zmq.step] at hstep
    split at hstep
    · cases hstep
    · rename_i hne
      cases hstep
      exact h.arrive hne
  | receive =>
    simp only [Zmq.step] at hstep
    split at hstep
    · rename_i hidle
      cases hstep
      exact h.receive hidle
    · cases hstep
  | fail =>
    simp only [Zmq.step] at hstep
    split at hstep
    · cases hstep
      exact h
    · cases hstep
  | handle =>
    simp only [Zmq.step] at hstep
    split at hstep
    · cases hstep
    · rename_i buffer hbuffer
      cases hstep
      exact h.handle hbuffer

theorem conflated_execute {s s' : State} {acc : List (List Octets) × List Octets}
    (h : Conflated s acc.1 acc.2) {trace : List Event} (hrun : execute step s trace = some s') :
    Conflated s' (trace.foldl gather acc).1 (trace.foldl gather acc).2 := by
  induction trace generalizing s acc with
  | nil =>
    cases hrun
    exact h
  | cons e trace ih =>
    obtain ⟨t, ht, hrest⟩ := Option.bind_eq_some_iff.mp hrun
    exact ih (h.step ht) hrest

theorem conflated_fresh : Conflated {} [] [] :=
  ⟨rfl, rfl, by simp, rfl, rfl⟩

/-- In every run the loop receives the newest message of every batch that arrives between one receive
and the next, and nothing else: what it passes to `decode` and what it is about to pass are these
messages in the order of their arrival, each once and, where it fits in the buffer, unchanged. -/
theorem received_newest (trace : List Event) (s : State) (hrun : execute step {} trace = some s) :
    let closed := (batches trace).1
    let newest := closed.filterMap List.getLast?
    s.arrived = closed.flatten ++ (batches trace).2 ∧
    s.decoded ++ s.inHand.toList = newest.map deliver ∧
    newest.Sublist s.arrived ∧
    ∀ message, message.length ≤ DEFAULT_BUFFER_SIZE → deliver message = message := by
  intro closed newest
  have h : Conflated s (batches trace).1 (batches trace).2 := conflated_execute conflated_fresh hrun
  refine ⟨h.arrived, h.received, ?_, fun message => deliver_of_fits⟩
  rw [h.arrived]
  exact (sublist_flatten_newest closed).trans (List.sublist_append_left _ _)

/-- The releases of dApps 1 and 2, in their aligned packed encoding. -/
def firstRelease : Octets := [0x00, 0x00, 0x90, 0x00]
def secondRelease : Octets := [0x00, 0x00, 0x90, 0x20]

/-- Both arrive while the loop handles nothing, and it receives once. -/
def overtaken : List Event := [.arrive firstRelease, .arrive secondRelease, .receive, .handle]

/-- The state that the trace leads to. -/
def overtakenState : State where
  arrived := [firstRelease, secondRelease]
  decoded := [secondRelease]

theorem received_newest_overtaken :
    execute step {} overtaken = some overtakenState ∧
    overtakenState.decoded ++ overtakenState.inHand.toList =
      ((batches overtaken).1.filterMap List.getLast?).map deliver := by
  have hrun : execute step {} overtaken = some overtakenState := by decide +kernel
  exact ⟨hrun, (received_newest overtaken overtakenState hrun).2.1⟩

/-- The first release is skipped. -/
theorem overtaken_not_prefix :
    (ofStep {} step).Reachable overtakenState ∧
    ¬overtakenState.decoded <+: overtakenState.arrived :=
  ⟨reachable_of_execute overtaken (by decide +kernel), by decide⟩

end Zmq

end LibE3
