import LibE3.Lib.Slots
import LibE3.Lib.Transition
import LibE3.Types
import Mathlib.Data.Finset.Basic

/-! The descriptors of `PosixE3Connector`, from `posix_connector.cpp`: the six fields that hold them,
and what every call opens, stores and closes, for all results of the calls of the system.  A call that
stores a new descriptor in a field does not close the one that was there. -/

namespace LibE3

namespace Posix

namespace Descriptors

open Transition.System

/-! ### The system -/

/-- The descriptors that `socket` or `accept` has returned and that are not closed, and the ones on
which `close` was called although they were not open. -/
structure Kernel where
  live : Finset Nat := ∅
  strayCloses : List Nat := []
  deriving DecidableEq

namespace Kernel

/-- `socket` or `accept` returns `ret`, which is negative or a descriptor that is not open. -/
def take (k : Kernel) (ret : Int) : Option Kernel :=
  if ret < 0 then some k
  else if ret.toNat ∈ k.live then none
  else some { k with live := insert ret.toNat k.live }

def close (k : Kernel) (fd : Int) : Kernel :=
  if fd.toNat ∈ k.live then { k with live := k.live.erase fd.toNat }
  else { k with strayCloses := k.strayCloses ++ [fd.toNat] }

end Kernel

/-- What the calls come to that open a listening socket. -/
structure ListenCalls where
  stat : Int := 0
  mkdir : Int := 0
  /-- `errno` is `EEXIST` after `mkdir`. -/
  exist : Bool := false
  socket : Int
  bind : Int := 0
  listen : Int := 0

/-- A call of `poll`.  Another thread may call `shutdown` in the meantime. -/
structure PollCall where
  ret : Int
  /-- `errno` is `EINTR`. -/
  interrupted : Bool := false
  shutdown : Bool := false

/-- A call of `accept`.  Another thread may call `shutdown` in the meantime. -/
structure AcceptCall where
  ret : Int
  /-- `errno` is `EINTR`, `EAGAIN` or `EWOULDBLOCK`. -/
  again : Bool := false
  shutdown : Bool := false

/-- A call of `recv`. -/
structure RecvCall where
  ret : Int
  /-- `errno` is `EINTR`, `EAGAIN` or `EWOULDBLOCK`. -/
  again : Bool := false

/-! ### The connector -/

def UNUSED_SOCKET : Int := -2

structure Connector where
  transportLayer : E3TransportLayer
  setupSocket : Int := -1
  setupConnectionSocket : Int := UNUSED_SOCKET
  inboundSocket : Int := -1
  inboundConnectionSocket : Int := UNUSED_SOCKET
  outboundSocket : Int := -1
  outboundConnectionSocket : Int := UNUSED_SOCKET
  connected : Bool := false
  shutdownRequested : Bool := false
  kernel : Kernel := {}
  deriving DecidableEq

/-- The directory of the IPC sockets is there, or is not needed. -/
def ListenCalls.directory (calls : ListenCalls) (transportLayer : E3TransportLayer) : Bool :=
  transportLayer != .ipc || calls.stat != -1 || calls.mkdir != -1 || calls.exist

/-- How the three functions begin that set up a connection: the listening socket, if they get one.
`bind` is called even where `socket` has failed. -/
def openListening (transportLayer : E3TransportLayer) (calls : ListenCalls) (k : Kernel) :
    Option (Kernel × Option Int) :=
  if calls.directory transportLayer then
    (k.take calls.socket).map fun k =>
      if calls.socket < 0 then (k, none)
      else if calls.bind < 0 then (k.close calls.socket, none)
      else if calls.listen < 0 then (k.close calls.socket, none)
      else (k, some calls.socket)
  else some (k, none)

namespace Connector

variable (c : Connector)

def setupInitialConnection (calls : ListenCalls) : Option (Connector × ErrorCode) :=
  (openListening c.transportLayer calls c.kernel).map fun result =>
    match result with
    | (kernel, none) => ({ c with kernel }, .connectionFailed)
    | (kernel, some sock) => ({ c with kernel, setupSocket := sock, connected := true }, .success)

def recvSetupRequest (poll : PollCall) (accept : AcceptCall) (recv : RecvCall) :
    Option (Connector × Except ErrorCode Nat) :=
  if c.setupSocket < 0 then some (c, .error .notConnected)
  else if poll.ret = 0 then some (c, .ok 0)
  else if poll.ret < 0 then
    if poll.interrupted then some (c, .ok 0) else some (c, .error .transportError)
  else
    (c.kernel.take accept.ret).map fun kernel =>
      let c := { c with
        kernel
        setupConnectionSocket := accept.ret
        shutdownRequested := c.shutdownRequested || accept.shutdown }
      if accept.ret < 0 then
        if accept.again || c.shutdownRequested then (c, .ok 0) else (c, .error .transportError)
      else if recv.ret < 0 then (c, .error .transportError)
      else (c, .ok recv.ret.toNat)

def sendResponse (sent : Bool) : ErrorCode :=
  if c.setupConnectionSocket < 0 then .notConnected
  else if sent then .success
  else .transportError

/-- The loop that waits for a connection: whether `shutdown` was called by its end, and whether it did
not end with an error of `poll`.  Without a further call of `poll` it goes on. -/
def awaitConnection : Bool → List PollCall → Option (Bool × Bool)
  | true, _ => some (true, true)
  | false, [] => none
  | false, poll :: polls =>
    if poll.ret < 0 then some (poll.shutdown, poll.interrupted || poll.shutdown)
    else if poll.ret = 0 then awaitConnection poll.shutdown polls
    else some (poll.shutdown, true)

def setupInboundConnection (calls : ListenCalls) (polls : List PollCall) (accept : AcceptCall) :
    Option (Connector × ErrorCode) :=
  (openListening c.transportLayer calls c.kernel).bind fun result =>
    match result with
    | (kernel, none) => some ({ c with kernel }, .connectionFailed)
    | (kernel, some sock) =>
      (awaitConnection c.shutdownRequested polls).bind fun wait =>
        let c := { c with kernel, inboundSocket := sock, shutdownRequested := wait.1 }
        if wait.2 = false then some (c, .connectionFailed)
        else if c.shutdownRequested then some (c, .cancelled)
        else
          (c.kernel.take accept.ret).map fun kernel =>
            let c := { c with
              kernel
              inboundConnectionSocket := accept.ret
              shutdownRequested := accept.shutdown }
            if accept.ret < 0 then
              if c.shutdownRequested then (c, .cancelled) else (c, .connectionFailed)
            else (c, .success)

def receive (poll : PollCall) (recv : RecvCall) : Except ErrorCode Nat :=
  if c.inboundConnectionSocket < 0 then .error .notConnected
  else if poll.ret = 0 then .ok 0
  else if poll.ret < 0 then if poll.interrupted then .ok 0 else .error .transportError
  else if recv.ret < 0 then if recv.again then .ok 0 else .error .transportError
  else .ok recv.ret.toNat

def setupOutboundConnection (calls : ListenCalls) (accept : AcceptCall) :
    Option (Connector × ErrorCode) :=
  (openListening c.transportLayer calls c.kernel).bind fun result =>
    match result with
    | (kernel, none) => some ({ c with kernel }, .connectionFailed)
    | (kernel, some sock) =>
      (kernel.take accept.ret).map fun kernel =>
        let c := { c with
          kernel
          outboundSocket := sock
          outboundConnectionSocket := accept.ret
          shutdownRequested := c.shutdownRequested || accept.shutdown }
        if accept.ret < 0 then (c, .connectionFailed) else (c, .success)

def send (sent : Bool) : ErrorCode :=
  if c.outboundConnectionSocket < 0 then .notConnected
  else if sent then .success
  else .transportError

/-- `::shutdown` on the listening sockets closes no descriptor. -/
def shutdown : Connector := { c with shutdownRequested := true }

def dispose : Connector :=
  let connections := [c.inboundConnectionSocket, c.setupConnectionSocket, c.outboundConnectionSocket]
  let sockets := [c.inboundSocket, c.outboundSocket, c.setupSocket]
  let kernel := connections.foldl
    (fun k fd => if fd ≠ UNUSED_SOCKET ∧ 0 ≤ fd then k.close fd else k) c.kernel
  { c with
    setupSocket := -1
    setupConnectionSocket := UNUSED_SOCKET
    inboundSocket := -1
    inboundConnectionSocket := UNUSED_SOCKET
    outboundSocket := -1
    outboundConnectionSocket := UNUSED_SOCKET
    connected := false
    kernel := sockets.foldl (fun k fd => if 0 ≤ fd then k.close fd else k) kernel }

end Connector

/-! ### Runs -/

/-- A call of the connector, with what the calls of the system in it come to. -/
inductive Call
  | setupInitialConnection (calls : ListenCalls)
  | recvSetupRequest (poll : PollCall) (accept : AcceptCall) (recv : RecvCall)
  | sendResponse (sent : Bool)
  | setupInboundConnection (calls : ListenCalls) (polls : List PollCall) (accept : AcceptCall)
  | receive (poll : PollCall) (recv : RecvCall)
  | setupOutboundConnection (calls : ListenCalls) (accept : AcceptCall)
  | send (sent : Bool)
  | shutdown
  | dispose

/-- What a call returns. -/
inductive Result
  | code (code : ErrorCode)
  | count (count : Except ErrorCode Nat)
  | nothing

/-- The connector after a call, and what the call returns.  There is neither where the system would
return a descriptor that is open, or where the call does not return. -/
def perform (c : Connector) : Call → Option (Connector × Result)
  | .setupInitialConnection calls =>
    (c.setupInitialConnection calls).map fun result => (result.1, .code result.2)
  | .recvSetupRequest poll accept recv =>
    (c.recvSetupRequest poll accept recv).map fun result => (result.1, .count result.2)
  | .sendResponse sent => some (c, .code (c.sendResponse sent))
  | .setupInboundConnection calls polls accept =>
    (c.setupInboundConnection calls polls accept).map fun result => (result.1, .code result.2)
  | .receive poll recv => some (c, .count (c.receive poll recv))
  | .setupOutboundConnection calls accept =>
    (c.setupOutboundConnection calls accept).map fun result => (result.1, .code result.2)
  | .send sent => some (c, .code (c.send sent))
  | .shutdown => some (c.shutdown, .nothing)
  | .dispose => some (c.dispose, .nothing)

def step (c : Connector) (call : Call) : Option Connector := (perform c call).map Prod.fst

/-! ### Fields -/

inductive Field
  | setup
  | setupConnection
  | inbound
  | inboundConnection
  | outbound
  | outboundConnection
  deriving DecidableEq, Repr

namespace Connector

variable (c : Connector)

def get : Field → Int
  | .setup => c.setupSocket
  | .setupConnection => c.setupConnectionSocket
  | .inbound => c.inboundSocket
  | .inboundConnection => c.inboundConnectionSocket
  | .outbound => c.outboundSocket
  | .outboundConnection => c.outboundConnectionSocket

/-- The connector as slots for descriptors. -/
def slots : Slots Field Nat where
  slot field := (c.get field).toNat?
  live := c.kernel.live

end Connector

/-- `openListening` gets to its end. -/
def ListenCalls.succeed (calls : ListenCalls) (transportLayer : E3TransportLayer) : Bool :=
  calls.directory transportLayer && decide (0 ≤ calls.socket) && decide (0 ≤ calls.bind) &&
    decide (0 ≤ calls.listen)

/-- The fields in which a call stores what `socket` and `accept` have returned. -/
def stores (c : Connector) : Call → List (Field × Int)
  | .setupInitialConnection calls =>
    if calls.succeed c.transportLayer then [(.setup, calls.socket)] else []
  | .recvSetupRequest poll accept _ =>
    if 0 ≤ c.setupSocket ∧ 0 < poll.ret then [(.setupConnection, accept.ret)] else []
  | .setupInboundConnection calls polls accept =>
    if calls.succeed c.transportLayer then
      if Connector.awaitConnection c.shutdownRequested polls = some (false, true) then
        [(.inbound, calls.socket), (.inboundConnection, accept.ret)]
      else [(.inbound, calls.socket)]
    else []
  | .setupOutboundConnection calls accept =>
    if calls.succeed c.transportLayer then
      [(.outbound, calls.socket), (.outboundConnection, accept.ret)]
    else []
  | _ => []

/-- The call stores nothing in a field that holds a descriptor. -/
def Vacant (c : Connector) (call : Call) : Prop := ∀ store ∈ stores c call, c.get store.1 < 0

/-! ### What a call does to the slots -/

section Slots

variable {c c' : Connector} {k k' : Kernel} {ret : Int}

theorem take_cases (h : k.take ret = some k') :
    (ret < 0 ∧ k' = k) ∨
      (0 ≤ ret ∧ ret.toNat ∉ k.live ∧ k' = { k with live := insert ret.toNat k.live }) := by
  unfold Kernel.take at h
  split at h
  · rename_i hneg
    cases h
    exact Or.inl ⟨hneg, rfl⟩
  split at h
  · cases h
  · rename_i hnonneg hfresh
    cases h
    exact Or.inr ⟨by omega, hfresh, rfl⟩

theorem openListening_cases {transportLayer : E3TransportLayer} {calls : ListenCalls}
    {sock : Option Int} (h : openListening transportLayer calls k = some (k', sock)) :
    (calls.succeed transportLayer = false ∧ sock = none ∧ k' = k) ∨
      (calls.succeed transportLayer = true ∧ sock = some calls.socket ∧
        k.take calls.socket = some k') := by
  unfold openListening at h
  split at h
  case isFalse hdirectory =>
    cases h
    exact Or.inl ⟨by simp [ListenCalls.succeed, hdirectory], rfl, rfl⟩
  case isTrue hdirectory =>
    obtain ⟨k₁, htake, hrest⟩ := Option.map_eq_some_iff.mp h
    rcases take_cases htake with ⟨hneg, rfl⟩ | ⟨hnonneg, hfresh, rfl⟩
    · rw [if_pos hneg] at hrest
      cases hrest
      exact Or.inl ⟨by simp [ListenCalls.succeed, hneg], rfl, rfl⟩
    rw [if_neg (by omega)] at hrest
    -- The new descriptor is the only one that is closed again.
    have hclose : Kernel.close { k with live := insert calls.socket.toNat k.live } calls.socket =
        k := by
      simp [Kernel.close, Finset.erase_insert hfresh]
    rw [hclose] at hrest
    split at hrest
    · rename_i hbind
      cases hrest
      exact Or.inl ⟨by simp [ListenCalls.succeed, hbind], rfl, rfl⟩
    split at hrest
    · rename_i hlisten
      cases hrest
      exact Or.inl ⟨by simp [ListenCalls.succeed, hlisten], rfl, rfl⟩
    · rename_i hbind hlisten
      cases hrest
      refine Or.inr ⟨?_, rfl, htake⟩
      simp only [ListenCalls.succeed, hdirectory, Bool.true_and, Bool.and_eq_true, decide_eq_true_eq]
      omega

theorem take_strayCloses (h : k.take ret = some k') : k'.strayCloses = k.strayCloses := by
  rcases take_cases h with ⟨-, rfl⟩ | ⟨-, -, rfl⟩ <;> rfl

/-- The connector differs in one field, which has what `socket` or `accept` has returned. -/
theorem slots_of_take {field : Field} (htake : c.kernel.take ret = some c'.kernel)
    (hget : ∀ f, c'.get f = if f = field then ret else c.get f) :
    c.slots.Fresh ret.toNat? ∧ c'.slots = c.slots.assign field ret.toNat? := by
  have hslot : c'.slots.slot = Function.update c.slots.slot field ret.toNat? := by
    funext f
    rw [Function.update_apply]
    show (c'.get f).toNat? = _
    rw [hget f]
    split <;> rfl
  rcases take_cases htake with ⟨hneg, hk⟩ | ⟨hnonneg, hfresh, hk⟩
  · have hnone : ret.toNat? = none := by
      cases hret : ret.toNat? with
      | none => rfl
      | some n =>
        rw [Int.mem_toNat?] at hret
        omega
    refine ⟨by simp [Slots.Fresh, hnone], Slots.ext hslot ?_⟩
    simp [Connector.slots, Slots.assign, hk, hnone]
  · have hsome : ret.toNat? = some ret.toNat := by
      rw [Int.mem_toNat?]
      omega
    refine ⟨by simpa [Slots.Fresh, hsome, Connector.slots] using hfresh, Slots.ext hslot ?_⟩
    ext n
    simp only [Connector.slots, Slots.assign, hk, hsome, Finset.coe_insert, Set.mem_insert_iff,
      Set.mem_union, Set.mem_ofPred_eq, Option.some.injEq]
    rw [or_comm, eq_comm]

end Slots

/-- What the calls but `dispose` do: they store what the system returns, and close no descriptor that
was open before. -/
structure Effect (c c' : Connector) (call : Call) : Prop where
  assigns : Slots.Assigns c.slots ((stores c call).map fun s => (s.1, s.2.toNat?)) c'.slots
  strayCloses : c'.kernel.strayCloses = c.kernel.strayCloses

namespace Effect

variable {c c' : Connector} {call : Call} {calls : ListenCalls} {accept : AcceptCall}

theorem nothing (hstores : stores c call = []) (hkernel : c'.kernel = c.kernel)
    (hget : ∀ f, c'.get f = c.get f) : Effect c c' call := by
  have hslots : c'.slots = c.slots := by
    unfold Connector.slots
    rw [hkernel, funext hget]
  refine ⟨?_, by rw [hkernel]⟩
  rw [hstores, hslots]
  exact .done _

theorem one {field : Field} {ret : Int} (hstores : stores c call = [(field, ret)])
    (htake : c.kernel.take ret = some c'.kernel)
    (hget : ∀ f, c'.get f = if f = field then ret else c.get f) : Effect c c' call := by
  obtain ⟨hfresh, hslots⟩ := slots_of_take htake hget
  refine ⟨?_, take_strayCloses htake⟩
  rw [hstores, hslots]
  exact .next hfresh (.done _)

theorem two (c₁ : Connector) {field field' : Field} {ret ret' : Int}
    (hstores : stores c call = [(field, ret), (field', ret')])
    (htake : c.kernel.take ret = some c₁.kernel)
    (hget : ∀ f, c₁.get f = if f = field then ret else c.get f)
    (htake' : c₁.kernel.take ret' = some c'.kernel)
    (hget' : ∀ f, c'.get f = if f = field' then ret' else c₁.get f) : Effect c c' call := by
  obtain ⟨hfresh, hslots⟩ := slots_of_take htake hget
  obtain ⟨hfresh', hslots'⟩ := slots_of_take htake' hget'
  refine ⟨?_, (take_strayCloses htake').trans (take_strayCloses htake)⟩
  rw [hslots] at hfresh' hslots'
  rw [hstores, hslots']
  exact .next hfresh (.next hfresh' (.done _))

theorem setupInitialConnection {code : ErrorCode}
    (h : c.setupInitialConnection calls = some (c', code)) :
    Effect c c' (.setupInitialConnection calls) := by
  obtain ⟨⟨k, sock⟩, hopen, hrest⟩ := Option.map_eq_some_iff.mp h
  rcases openListening_cases hopen with ⟨hfails, rfl, rfl⟩ | ⟨hsucceeds, rfl, htake⟩
  · cases hrest
    exact nothing (by simp [stores, hfails]) rfl fun _ => rfl
  · cases hrest
    refine one (by simp only [stores, hsucceeds, if_true]; rfl) htake fun f => ?_
    cases f <;> rfl

theorem recvSetupRequest {poll : PollCall} {recv : RecvCall} {count : Except ErrorCode Nat}
    (h : c.recvSetupRequest poll accept recv = some (c', count)) :
    Effect c c' (.recvSetupRequest poll accept recv) := by
  unfold Connector.recvSetupRequest at h
  split at h
  · rename_i hneg
    cases h
    exact nothing (if_neg (by omega)) rfl fun _ => rfl
  split at h
  · rename_i hpoll
    cases h
    exact nothing (if_neg (by omega)) rfl fun _ => rfl
  split at h
  · rename_i hpoll
    have hsame : c' = c := by
      split at h <;> cases h <;> rfl
    subst hsame
    exact nothing (if_neg (by omega)) rfl fun _ => rfl
  · obtain ⟨k, htake, hrest⟩ := Option.map_eq_some_iff.mp h
    have hc' : c' = { c with
        kernel := k
        setupConnectionSocket := accept.ret
        shutdownRequested := c.shutdownRequested || accept.shutdown } := by
      dsimp only at hrest
      split at hrest
      · split at hrest <;> cases hrest <;> rfl
      · split at hrest <;> cases hrest <;> rfl
    subst hc'
    refine one (if_pos (by omega)) htake fun f => ?_
    cases f <;> rfl

theorem setupInboundConnection {polls : List PollCall} {code : ErrorCode}
    (h : c.setupInboundConnection calls polls accept = some (c', code)) :
    Effect c c' (.setupInboundConnection calls polls accept) := by
  obtain ⟨⟨k, sock⟩, hopen, hrest⟩ := Option.bind_eq_some_iff.mp h
  rcases openListening_cases hopen with ⟨hfails, rfl, rfl⟩ | ⟨hsucceeds, rfl, htake⟩
  · cases hrest
    exact nothing (by simp [stores, hfails]) rfl fun _ => rfl
  obtain ⟨⟨requested, ok⟩, hwait, hrest⟩ := Option.bind_eq_some_iff.mp hrest
  -- Without an `accept` only the listening socket is stored.
  have hone : (requested, ok) ≠ (false, true) →
      c' = { c with kernel := k, inboundSocket := calls.socket, shutdownRequested := requested } →
      Effect c c' (.setupInboundConnection calls polls accept) := by
    rintro hne rfl
    have hstores : stores c (.setupInboundConnection calls polls accept) =
        [(.inbound, calls.socket)] := by
      simp only [stores, hsucceeds, if_true, hwait]
      exact if_neg fun heq => hne (Option.some.inj heq)
    refine one hstores htake fun f => ?_
    cases f <;> rfl
  dsimp only at hrest
  split at hrest
  · rename_i hfailed
    cases hrest
    subst hfailed
    exact hone nofun rfl
  split at hrest
  · rename_i hrequested
    cases hrest
    refine hone ?_ rfl
    subst hrequested
    nofun
  · rename_i hok hrequested
    obtain rfl : requested = false := Bool.eq_false_iff.mpr hrequested
    obtain rfl : ok = true := Bool.eq_true_of_not_eq_false hok
    obtain ⟨k', htake', hrest⟩ := Option.map_eq_some_iff.mp hrest
    have hc' : c' = { c with
        kernel := k'
        inboundSocket := calls.socket
        inboundConnectionSocket := accept.ret
        shutdownRequested := accept.shutdown } := by
      split at hrest
      · split at hrest <;> cases hrest <;> rfl
      · cases hrest
        rfl
    subst hc'
    have hstores : stores c (.setupInboundConnection calls polls accept) =
        [(.inbound, calls.socket), (.inboundConnection, accept.ret)] := by
      simp only [stores, hsucceeds, if_true, hwait]
    refine two { c with kernel := k, inboundSocket := calls.socket } hstores htake (fun f => ?_)
      htake' fun f => ?_
    · cases f <;> rfl
    · cases f <;> rfl

theorem setupOutboundConnection {code : ErrorCode}
    (h : c.setupOutboundConnection calls accept = some (c', code)) :
    Effect c c' (.setupOutboundConnection calls accept) := by
  obtain ⟨⟨k, sock⟩, hopen, hrest⟩ := Option.bind_eq_some_iff.mp h
  rcases openListening_cases hopen with ⟨hfails, rfl, rfl⟩ | ⟨hsucceeds, rfl, htake⟩
  · cases hrest
    exact nothing (by simp [stores, hfails]) rfl fun _ => rfl
  obtain ⟨k', htake', hrest⟩ := Option.map_eq_some_iff.mp hrest
  have hc' : c' = { c with
      kernel := k'
      outboundSocket := calls.socket
      outboundConnectionSocket := accept.ret
      shutdownRequested := c.shutdownRequested || accept.shutdown } := by
    dsimp only at hrest
    split at hrest <;> cases hrest <;> rfl
  subst hc'
  have hstores : stores c (.setupOutboundConnection calls accept) =
      [(.outbound, calls.socket), (.outboundConnection, accept.ret)] := by
    simp only [stores, hsucceeds, if_true]
  refine two { c with kernel := k, outboundSocket := calls.socket } hstores htake (fun f => ?_)
    htake' fun f => ?_
  · cases f <;> rfl
  · cases f <;> rfl

theorem exists_of_map {β : Type} {f : Option (Connector × β)} {g : β → Result} {result : Result}
    (h : (f.map fun r => (r.1, g r.2)) = some (c', result)) : ∃ b, f = some (c', b) := by
  obtain ⟨⟨c₁, b⟩, hf, heq⟩ := Option.map_eq_some_iff.mp h
  cases heq
  exact ⟨b, hf⟩

/-- Every call but `dispose` has its effect. -/
theorem of_step (h : step c call = some c') (hcall : call ≠ .dispose) : Effect c c' call := by
  obtain ⟨⟨c₂, result⟩, hperform, rfl⟩ := Option.map_eq_some_iff.mp h
  cases call with
  | setupInitialConnection calls =>
    obtain ⟨code, hcall⟩ := exists_of_map hperform
    exact setupInitialConnection hcall
  | recvSetupRequest poll accept recv =>
    obtain ⟨count, hcall⟩ := exists_of_map hperform
    exact recvSetupRequest hcall
  | setupInboundConnection calls polls accept =>
    obtain ⟨code, hcall⟩ := exists_of_map hperform
    exact setupInboundConnection hcall
  | setupOutboundConnection calls accept =>
    obtain ⟨code, hcall⟩ := exists_of_map hperform
    exact setupOutboundConnection hcall
  | dispose => exact absurd rfl hcall
  | sendResponse sent =>
    cases hperform
    exact nothing rfl rfl fun _ => rfl
  | receive poll recv =>
    cases hperform
    exact nothing rfl rfl fun _ => rfl
  | send sent =>
    cases hperform
    exact nothing rfl rfl fun _ => rfl
  | shutdown =>
    cases hperform
    refine nothing rfl rfl fun f => ?_
    cases f <;> rfl

end Effect

/-! ### Disposal -/

section Dispose

variable {c : Connector}

theorem slot_eq_none_iff (field : Field) : c.slots.slot field = none ↔ c.get field < 0 := by
  show (c.get field).toNat? = none ↔ _
  cases c.get field with
  | ofNat n => simp [Int.toNat?]
  | negSucc n => simp [Int.toNat?]

theorem slot_eq_some_iff {field : Field} {fd : Nat} :
    c.slots.slot field = some fd ↔ c.get field = fd := Int.mem_toNat?

def Kernel.closeUsed (k : Kernel) (fd : Int) : Kernel := if 0 ≤ fd then k.close fd else k

/-- The fields in the order in which `dispose` closes them. -/
def closeOrder : List Field :=
  [.inboundConnection, .setupConnection, .outboundConnection, .inbound, .outbound, .setup]

theorem kernel_dispose (c : Connector) :
    c.dispose.kernel = closeOrder.foldl (fun k field => k.closeUsed (c.get field)) c.kernel := by
  have hunused : ∀ (k : Kernel) (fd : Int),
      (if fd ≠ UNUSED_SOCKET ∧ 0 ≤ fd then k.close fd else k) = k.closeUsed fd := by
    intro k fd
    refine if_congr (and_iff_right_of_imp fun hnonneg => ?_) rfl rfl
    unfold UNUSED_SOCKET
    omega
  simp only [Connector.dispose, hunused]
  rfl

/-- The descriptors in different fields are closed, each once. -/
theorem closeUsed_fields (h : c.slots.Sound) {fields : List Field} (hnodup : fields.Nodup)
    {k : Kernel} (hlive : ∀ field ∈ fields, ∀ fd, c.slots.slot field = some fd → fd ∈ k.live) :
    (∀ fd, fd ∈ (fields.foldl (fun k field => k.closeUsed (c.get field)) k).live ↔
      fd ∈ k.live ∧ ∀ field ∈ fields, c.slots.slot field ≠ some fd) ∧
    (fields.foldl (fun k field => k.closeUsed (c.get field)) k).strayCloses = k.strayCloses := by
  induction fields generalizing k with
  | nil => simp
  | cons field fields ih =>
    obtain ⟨hnew, hnodup⟩ := List.nodup_cons.mp hnodup
    obtain ⟨hfield, hrest⟩ := List.forall_mem_cons.mp hlive
    rw [List.foldl_cons]
    cases hslot : c.slots.slot field with
    | none =>
      have hsame : k.closeUsed (c.get field) = k :=
        if_neg (Int.not_le.mpr ((slot_eq_none_iff field).mp hslot))
      rw [hsame]
      obtain ⟨hmem, hstray⟩ := ih hnodup hrest
      exact ⟨fun fd => by rw [hmem fd, List.forall_mem_cons, hslot]; simp, hstray⟩
    | some fd =>
      have hopen := hfield fd hslot
      have hclose : k.closeUsed (c.get field) = { k with live := k.live.erase fd } := by
        rw [slot_eq_some_iff.mp hslot]
        simp [Kernel.closeUsed, Kernel.close, hopen]
      -- The other fields hold other descriptors, which are still open.
      have hstill : ∀ f ∈ fields, ∀ fd', c.slots.slot f = some fd' → fd' ∈ k.live.erase fd := by
        intro f hf fd' hfd'
        refine Finset.mem_erase.mpr ⟨?_, hrest f hf fd' hfd'⟩
        rintro rfl
        exact hnew (h.injective field f fd' hslot hfd' ▸ hf)
      rw [hclose]
      obtain ⟨hmem, hstray⟩ := ih (k := { k with live := k.live.erase fd }) hnodup hstill
      refine ⟨fun fd' => ?_, hstray⟩
      rw [hmem fd', List.forall_mem_cons, hslot, Finset.mem_erase, and_comm (a := fd' ≠ fd),
        and_assoc]
      refine and_congr_right fun _ => and_congr_left fun _ => ?_
      rw [ne_eq, ne_eq, Option.some.injEq, eq_comm]

theorem dispose_slots (h : c.slots.Sound) :
    c.dispose.slots = c.slots.clear ∧ c.dispose.kernel.strayCloses = c.kernel.strayCloses := by
  have hall : ∀ field, field ∈ closeOrder := by
    intro field
    cases field <;> decide
  obtain ⟨hmem, hstray⟩ := closeUsed_fields h (show closeOrder.Nodup by decide)
    fun field _ fd hslot => h.live field fd hslot
  rw [← kernel_dispose] at hmem hstray
  refine ⟨Slots.ext (funext fun field => ?_) (Set.ext fun fd => ?_), hstray⟩
  · cases field <;> rfl
  · exact (hmem fd).trans (and_congr_right fun _ => ⟨fun hnone field => hnone field (hall field),
      fun hnone field _ => hnone field⟩)

end Dispose

/-! ### Runs of the connector -/

/-- Every open descriptor is held in a field, none was closed twice, and `dispose` would close all of
them, each once. -/
structure Accounted (c : Connector) : Prop where
  held : ∀ fd ∈ c.kernel.live, ∃ field, c.get field = fd
  once : c.kernel.strayCloses = []
  disposed : c.dispose.kernel = {}

/-- What holds whatever the calls are. -/
structure Sound (c : Connector) : Prop where
  slots : c.slots.Sound
  once : c.kernel.strayCloses = []

theorem sound_start (transportLayer : E3TransportLayer) : Sound { transportLayer } := by
  refine ⟨⟨fun field fd h => ?_, fun field field' fd h => ?_⟩, rfl⟩ <;>
  · rw [slot_eq_some_iff] at h
    cases field <;> cases h

theorem Sound.accounted_iff {c : Connector} (h : Sound c) : Accounted c ↔ c.slots.Tight := by
  constructor
  · intro haccounted fd hfd
    obtain ⟨field, hfield⟩ := haccounted.held fd hfd
    exact ⟨field, slot_eq_some_iff.mpr hfield⟩
  · intro htight
    obtain ⟨hslots, hstray⟩ := dispose_slots h.slots
    refine ⟨fun fd hfd => ?_, h.once, ?_⟩
    · obtain ⟨field, hfield⟩ := htight fd hfd
      exact ⟨field, slot_eq_some_iff.mp hfield⟩
    · have hlive : (c.dispose.kernel.live : Set Nat) = ∅ := by
        rw [← htight.live_clear, ← hslots]
        rfl
      rw [Finset.coe_eq_empty] at hlive
      rw [h.once] at hstray
      generalize c.dispose.kernel = k at hlive hstray
      obtain ⟨live, strayCloses⟩ := k
      subst hlive hstray
      rfl

theorem stores_nodup (c : Connector) (call : Call) : ((stores c call).map Prod.fst).Nodup := by
  cases call with
  | setupInitialConnection calls =>
    simp only [stores]
    split <;> simp
  | recvSetupRequest poll accept recv =>
    simp only [stores]
    split <;> simp
  | setupInboundConnection calls polls accept =>
    simp only [stores]
    split
    · split <;> simp
    · simp
  | setupOutboundConnection calls accept =>
    simp only [stores]
    split <;> simp
  | _ => exact List.nodup_nil

theorem vacant_iff (c : Connector) (call : Call) :
    Vacant c call ↔ ∀ field ∈ (stores c call).map Prod.fst, c.slots.slot field = none := by
  rw [List.forall_mem_map]
  exact forall₂_congr fun store _ => (slot_eq_none_iff store.1).symm

/-- A step keeps the slots tight exactly where it stores in empty fields. -/
theorem Sound.step {c c' : Connector} {call : Call} (h : Sound c)
    (hstep : Descriptors.step c call = some c') :
    Sound c' ∧ (c'.slots.Tight ↔ c.slots.Tight ∧ Vacant c call) := by
  by_cases hcall : call = .dispose
  · subst hcall
    cases hstep
    obtain ⟨hslots, hstray⟩ := dispose_slots h.slots
    refine ⟨⟨hslots ▸ Slots.sound_clear _, hstray.trans h.once⟩, ?_⟩
    rw [hslots, Slots.tight_clear_iff]
    exact (and_iff_left nofun).symm
  · have heffect := Effect.of_step hstep hcall
    refine ⟨⟨heffect.assigns.sound h.slots, heffect.strayCloses.trans h.once⟩, ?_⟩
    have hfields : ((stores c call).map fun s => (s.1, s.2.toNat?)).map Prod.fst =
        (stores c call).map Prod.fst := by
      rw [List.map_map]
      rfl
    rw [heffect.assigns.tight_iff h.slots (hfields ▸ stores_nodup c call), hfields, vacant_iff]

theorem sound_of_execute {transportLayer : E3TransportLayer} {calls : List Call} {c : Connector}
    (h : execute step { transportLayer } calls = some c) : Sound c :=
  (reachable_of_execute calls h).induction (fun _ hs => hs ▸ sound_start transportLayer)
    fun _ _ _ _ hs hstep => (hs.step hstep).1

/-- Every state of the run is accounted for. -/
def NoLeak (transportLayer : E3TransportLayer) (calls : List Call) : Prop :=
  ∀ before after c, calls = before ++ after →
    execute step { transportLayer } before = some c → Accounted c

/-- No descriptor leaks in a run exactly when no call of it stores a descriptor, or the error of an
`accept`, in a field that holds one. -/
theorem noLeak_iff (transportLayer : E3TransportLayer) (calls : List Call) :
    NoLeak transportLayer calls ↔
      ∀ before call after c c', calls = before ++ call :: after →
        execute step { transportLayer } before = some c → step c call = some c' →
        Vacant c call := by
  constructor
  · intro h before call after c c' hcalls hrun hstep
    have hrun' : execute step { transportLayer } (before ++ [call]) = some c' := by
      rw [execute_concat, hrun]
      exact hstep
    have hsound := sound_of_execute hrun
    obtain ⟨hsound', htight⟩ := hsound.step hstep
    have haccounted := h (before ++ [call]) after c' (by rw [hcalls, List.append_assoc]; rfl) hrun'
    exact (htight.mp (hsound'.accounted_iff.mp haccounted)).2
  · intro h before after c hcalls hrun
    rw [(sound_of_execute hrun).accounted_iff]
    -- The run is followed to its end, call by call.
    induction before using List.reverseRecOn generalizing after c with
    | nil =>
      cases hrun
      exact fun fd hfd => absurd hfd (Finset.notMem_empty fd)
    | append_singleton before call ih =>
      rw [execute_concat] at hrun
      obtain ⟨c₁, hrun₁, hstep⟩ := Option.bind_eq_some_iff.mp hrun
      rw [List.append_assoc] at hcalls
      have htight := ih (call :: after) c₁ hcalls hrun₁
      have hvacant := h before call after c₁ c hcalls hrun₁ hstep
      exact ((sound_of_execute hrun₁).step hstep).2.mpr ⟨htight, hvacant⟩

/-- A descriptor that is open after `dispose` has leaked. -/
theorem not_noLeak_of_open (transportLayer : E3TransportLayer) (calls : List Call) (fd : Nat)
    (h : (execute step { transportLayer } (calls ++ [.dispose])).map (·.kernel.live) = some {fd}) :
    ¬NoLeak transportLayer (calls ++ [.dispose]) := by
  intro hnoLeak
  obtain ⟨c, hrun, hlive⟩ := Option.map_eq_some_iff.mp h
  have hopen : fd ∈ c.kernel.live := by
    rw [hlive]
    exact Finset.mem_singleton_self fd
  obtain ⟨field, hfield⟩ := (hnoLeak _ [] c (List.append_nil _).symm hrun).held fd hopen
  -- Every field is negative by now.
  rw [execute_concat] at hrun
  obtain ⟨c₁, -, hdispose⟩ := Option.bind_eq_some_iff.mp hrun
  cases hdispose
  cases field <;> cases hfield

/-- Two dApps send setup requests, one after the other, and the connector is disposed. -/
def twoRequests : List Call :=
  [.setupInitialConnection { socket := 3 },
    .recvSetupRequest { ret := 1 } { ret := 4 } { ret := 90 }, .sendResponse true,
    .recvSetupRequest { ret := 1 } { ret := 5 } { ret := 90 }, .sendResponse true,
    .shutdown, .dispose]

/-- `publisher_loop` tries again after an `accept` that has failed. -/
def retriedOutbound : List Call :=
  [.setupOutboundConnection { socket := 3 } { ret := -1 },
    .setupOutboundConnection { socket := 4 } { ret := 5 }, .shutdown, .dispose]

/-- The connection of the first dApp, and the first listening socket, are never closed. -/
theorem not_noLeak_twoRequests :
    (execute step { transportLayer := .tcp } twoRequests).map (·.kernel.live) = some {4} ∧
      (execute step { transportLayer := .ipc } retriedOutbound).map (·.kernel.live) = some {3} ∧
      ¬NoLeak .tcp twoRequests ∧ ¬NoLeak .ipc retriedOutbound := by
  have hfirst : (execute step { transportLayer := .tcp } twoRequests).map (·.kernel.live) =
      some {4} := by decide
  have hretried : (execute step { transportLayer := .ipc } retriedOutbound).map (·.kernel.live) =
      some {3} := by decide
  exact ⟨hfirst, hretried, not_noLeak_of_open .tcp twoRequests.dropLast 4 hfirst,
    not_noLeak_of_open .ipc retriedOutbound.dropLast 3 hretried⟩

end Descriptors

end Posix

end LibE3
