import LibE3.Connector.Stream
import LibE3.Connector.Zmq
import LibE3.Interface.Setup

/-! Setup requests that wait on the REP socket of `ZmqE3Connector`.  A REP socket gives the next request
only after the last one was answered.  `setup_loop` passes over a message that it cannot decode, that
is no setup request, or whose response cannot be encoded, without an answer; the next receive then
fails, `reset_setup_socket` closes the socket and opens a new one, and the requests that waited on the
old one are gone. -/

namespace LibE3

namespace SetupQueue

/-! ### The socket -/

/-- A REP socket with the requests of its peers.  It stands for one of libzmq, as far as its
documentation goes: a receive succeeds only where no reply is owed and fails with an error other than
`EAGAIN` where one is, a send succeeds only where one is, and to close the socket discards what waits on
it.  To create and bind it again is taken to succeed. -/
structure RepSocket where
  /-- The requests that wait, each with its peer. -/
  queue : List (Octets × Nat) := []
  /-- The peer whose request was received and not answered. -/
  owed : Option Nat := none
  replies : List (Nat × Octets) := []
  deriving DecidableEq, Repr

/-- The errors `EAGAIN`, after the timeout, and `EFSM`, in the wrong state of the socket. -/
inductive ZmqError
  | again
  | state
  deriving DecidableEq, Repr

namespace RepSocket

variable (socket : RepSocket)

def zmqRecv (size : Nat) : RepSocket × Except ZmqError (Octets × Nat) :=
  match socket.owed with
  | some _ => (socket, .error .state)
  | none =>
    match socket.queue with
    | [] => (socket, .error .again)
    | (message, peer) :: queue =>
      ({ socket with queue, owed := some peer }, .ok (message.take size, message.length))

def zmqSend (data : Octets) : RepSocket × Except ZmqError Nat :=
  match socket.owed with
  | none => (socket, .error .state)
  | some peer =>
    ({ socket with owed := none, replies := socket.replies ++ [(peer, data)] }, .ok data.length)

/-- `zmq_close` discards the requests that wait, and a new socket is bound. -/
def resetSetupSocket : RepSocket := { socket with queue := [], owed := none }

/-- The octets that `recv_setup_request` returns; none where it returns 0. -/
def recvSetupRequest : RepSocket × Except ErrorCode Octets :=
  match socket.zmqRecv DEFAULT_BUFFER_SIZE with
  | (socket, .error .again) => (socket, .ok [])
  | (socket, .error .state) => (socket.resetSetupSocket, .error .transportError)
  | (socket, .ok (copied, ret)) => (socket, .ok (Zmq.resize copied ret))

def sendResponse (data : Octets) : RepSocket × ErrorCode :=
  match socket.zmqSend data with
  | (socket, .error _) => (socket.resetSetupSocket, .transportError)
  | (socket, .ok _) => (socket, .success)

end RepSocket

/-! ### The loop -/

/-- What one turn of the loop takes from outside: the clock at the decoding, and what the handler
takes. -/
structure Turn where
  received : UInt64
  env : Surroundings

/-- The state of `setup_loop`, with the requests that it has passed to `handle_setup_request`. -/
structure Loop where
  socket : RepSocket
  manager : SubscriptionManager
  registry : SmRegistry
  handled : List (Nat × SetupRequest × UInt32) := []

variable (encoder : E3Encoder) (config : E3Config)

/-- The setup request and the message ID in a buffer.  Where there is none, the loop goes on to the
next turn. -/
def requestOf (received : UInt64) (buffer : Octets) : Option (SetupRequest × UInt32) :=
  match encoder.decode buffer received with
  | .error _ => none
  | .ok pdu =>
    if pdu.type ≠ .setupRequest then none
    else pdu.choice.setupRequest?.map fun request => (request, pdu.messageId)

/-- One turn of `setup_loop`. -/
def pass (turn : Turn) (s : Loop) : Loop :=
  match s.socket.recvSetupRequest with
  | (socket, .error _) => { s with socket }
  | (socket, .ok []) => { s with socket }
  | (socket, .ok buffer) =>
    match requestOf encoder turn.received buffer with
    | none => { s with socket }
    | some (request, messageId) =>
      let outcome :=
        handleSetupRequest encoder config turn.env s.manager s.registry request messageId
      { socket := outcome.sent.foldl (fun socket data => (socket.sendResponse data).1) socket
        manager := outcome.manager
        registry := outcome.registry
        handled := s.handled ++ socket.owed.toList.map fun peer => (peer, request, messageId) }

/-- The first `n` turns. -/
def setupLoop : (Nat → Turn) → Nat → Loop → Loop
  | _, 0, s => s
  | turns, n + 1, s => setupLoop (fun k => turns (k + 1)) n (pass encoder config (turns 0) s)

/-! ### What the loop reads -/

/-- The setup request that the loop finds in a message. -/
def found (received : UInt64) (message : Octets) : Option (SetupRequest × UInt32) :=
  if message = [] then none else requestOf encoder received (Zmq.deliver message)

/-- The response to a request is encoded. -/
def encodes (env : Surroundings) (manager : SubscriptionManager) (registry : SmRegistry)
    (messageId : UInt32) : Bool :=
  (encoder.encode
    (setupReply config env registry (manager.registerDapp env.now).2 messageId)).isOk

/-- All messages are setup requests, and the response to each is encoded. -/
def allAnswered : (Nat → Turn) → SubscriptionManager → SmRegistry → List Octets → Bool
  | _, _, _, [] => true
  | turns, manager, registry, message :: rest =>
    match found encoder (turns 0).received message with
    | none => false
    | some (request, messageId) =>
      let outcome :=
        handleSetupRequest encoder config (turns 0).env manager registry request messageId
      encodes encoder config (turns 0).env manager registry messageId &&
        allAnswered (fun k => turns (k + 1)) outcome.manager outcome.registry rest

/-- The requests that the loop passes on, of those that wait. -/
def passed : (Nat → Turn) → SubscriptionManager → SmRegistry → List (Octets × Nat) →
    List (Nat × SetupRequest × UInt32)
  | _, _, _, [] => []
  | turns, manager, registry, (message, peer) :: rest =>
    match found encoder (turns 0).received message with
    | none => []
    | some (request, messageId) =>
      let outcome :=
        handleSetupRequest encoder config (turns 0).env manager registry request messageId
      (peer, request, messageId) ::
        if encodes encoder config (turns 0).env manager registry messageId then
          passed (fun k => turns (k + 1)) outcome.manager outcome.registry rest
        else []

/-! ### One turn -/

section Turns

variable {encoder config} {s : Loop} {turn : Turn}

/-- A handling answers exactly where the response is encoded. -/
theorem sent_eq (encoder : E3Encoder) (config : E3Config) (env : Surroundings)
    (manager : SubscriptionManager) (registry : SmRegistry) (request : SetupRequest)
    (messageId : UInt32) :
    (encodes encoder config env manager registry messageId = true ∧
      ∃ data, (handleSetupRequest encoder config env manager registry request messageId).sent =
        [data]) ∨
    (encodes encoder config env manager registry messageId = false ∧
      (handleSetupRequest encoder config env manager registry request messageId).sent = []) := by
  unfold encodes handleSetupRequest
  dsimp only
  cases encoder.encode
      (setupReply config env registry (manager.registerDapp env.now).2 messageId) with
  | error code => exact Or.inr ⟨rfl, rfl⟩
  | ok message => exact Or.inl ⟨rfl, message.buffer, rfl⟩

theorem pass_idle (hqueue : s.socket.queue = []) (howed : s.socket.owed = none) :
    pass encoder config turn s = s := by
  simp only [pass, RepSocket.recvSetupRequest, RepSocket.zmqRecv, howed, hqueue]

/-- While an answer is owed, the socket is replaced. -/
theorem pass_owed {peer : Nat} (howed : s.socket.owed = some peer) :
    pass encoder config turn s = { s with socket := s.socket.resetSetupSocket } := by
  simp only [pass, RepSocket.recvSetupRequest, RepSocket.zmqRecv, howed]

theorem pass_next {message : Octets} {peer : Nat} {rest : List (Octets × Nat)}
    (howed : s.socket.owed = none) (hqueue : s.socket.queue = (message, peer) :: rest) :
    pass encoder config turn s =
      match found encoder turn.received message with
      | none => { s with socket := { s.socket with queue := rest, owed := some peer } }
      | some (request, messageId) =>
        let outcome :=
          handleSetupRequest encoder config turn.env s.manager s.registry request messageId
        { socket := outcome.sent.foldl (fun socket data => (socket.sendResponse data).1)
            { s.socket with queue := rest, owed := some peer }
          manager := outcome.manager
          registry := outcome.registry
          handled := s.handled ++ [(peer, request, messageId)] } := by
  have hreceive : s.socket.recvSetupRequest =
      ({ s.socket with queue := rest, owed := some peer }, .ok (Zmq.deliver message)) := by
    simp only [RepSocket.recvSetupRequest, RepSocket.zmqRecv, howed, hqueue]
    rfl
  unfold pass found
  rw [hreceive]
  by_cases hempty : message = []
  · subst hempty
    rfl
  · rw [if_neg hempty]
    cases hdeliver : Zmq.deliver message with
    | nil => exact absurd hdeliver (Zmq.deliver_ne_nil hempty)
    | cons b buffer => rfl

end Turns

/-! ### All turns -/

section Runs

variable {encoder config} {s : Loop}

theorem setupLoop_idle (turns : Nat → Turn) (n : Nat) (hqueue : s.socket.queue = [])
    (howed : s.socket.owed = none) : setupLoop encoder config turns n s = s := by
  induction n generalizing turns with
  | zero => rfl
  | succ n ih => rw [setupLoop, pass_idle hqueue howed, ih]

/-- Once an answer is owed, nothing that waits is handled any more. -/
theorem handled_owed (turns : Nat → Turn) (n peer : Nat)
    (howed : s.socket.owed = some peer) :
    (setupLoop encoder config turns n s).handled = s.handled := by
  cases n with
  | zero => rfl
  | succ n => rw [setupLoop, pass_owed howed, setupLoop_idle _ _ rfl rfl]

/-- Every turn handles the next of the requests that the loop passes on. -/
theorem handled_setupLoop (turns : Nat → Turn) (n : Nat) (howed : s.socket.owed = none) :
    (setupLoop encoder config turns n s).handled = s.handled ++
      (passed encoder config turns s.manager s.registry s.socket.queue).take n := by
  induction n generalizing turns s with
  | zero => rw [List.take_zero, List.append_nil, setupLoop]
  | succ n ih =>
    cases hqueue : s.socket.queue with
    | nil =>
      rw [setupLoop_idle turns _ hqueue howed, passed, List.take_nil, List.append_nil]
    | cons entry rest =>
      obtain ⟨message, peer⟩ := entry
      rw [setupLoop, pass_next howed hqueue, passed]
      cases hfound : found encoder (turns 0).received message with
      | none => rw [handled_owed _ _ peer rfl, List.take_nil, List.append_nil]
      | some entry =>
        obtain ⟨request, messageId⟩ := entry
        dsimp only
        rcases sent_eq encoder config (turns 0).env s.manager s.registry request messageId with
          ⟨hencodes, data, hsent⟩ | ⟨hfails, hsent⟩
        · -- The answer is sent, and the next turn begins as this one did.
          rw [hencodes, if_pos rfl, hsent, ih]
          · rw [List.take_succ_cons, List.append_assoc]
            rfl
          · rfl
        · rw [hfails, hsent, handled_owed _ _ peer rfl, if_neg nofun, List.take_succ_cons,
            List.take_nil]

/-- A request that waits is passed on exactly where the loop finds it and all messages before it are
answered. -/
theorem mem_passed_iff {turns : Nat → Turn} {manager : SubscriptionManager} {registry : SmRegistry}
    {messages : List Octets} {k i : Nat} {request : SetupRequest × UInt32} :
    (i, request) ∈ passed encoder config turns manager registry (messages.zipIdx k) ↔
      ∃ j message, i = k + j ∧ messages[j]? = some message ∧
        allAnswered encoder config turns manager registry (messages.take j) = true ∧
        found encoder (turns j).received message = some request := by
  induction messages generalizing turns manager registry k with
  | nil =>
    refine iff_of_false List.not_mem_nil ?_
    rintro ⟨j, message, -, hmessage, -⟩
    cases hmessage
  | cons message rest ih =>
    rw [List.zipIdx_cons, passed]
    constructor
    · intro hmem
      cases hfound : found encoder (turns 0).received message with
      | none =>
        rw [hfound] at hmem
        cases hmem
      | some first =>
        rw [hfound] at hmem
        rcases List.mem_cons.mp hmem with heq | hmem
        · cases heq
          exact ⟨0, message, rfl, rfl, rfl, hfound⟩
        · split at hmem
          · rename_i hencodes
            obtain ⟨j, m, hi, hm, hanswered, hj⟩ := ih.mp hmem
            refine ⟨j + 1, m, by omega, hm, ?_, hj⟩
            rw [List.take_succ_cons, allAnswered, hfound]
            exact Bool.and_eq_true_iff.mpr ⟨hencodes, hanswered⟩
          · cases hmem
    · rintro ⟨j, m, hi, hm, hanswered, hj⟩
      cases j with
      | zero =>
        cases hm
        rw [hj, hi]
        exact List.mem_cons_self
      | succ j =>
        rw [List.take_succ_cons, allAnswered] at hanswered
        cases hfound : found encoder (turns 0).received message with
        | none =>
          rw [hfound] at hanswered
          cases hanswered
        | some first =>
          rw [hfound] at hanswered
          obtain ⟨hencodes, hrest⟩ := Bool.and_eq_true_iff.mp hanswered
          refine List.mem_cons_of_mem _ ?_
          rw [if_pos hencodes]
          exact ih.mpr ⟨j, m, by omega, hm, hrest, hj⟩

end Runs

/-- The message decodes to the setup request, with its message ID. -/
def WellFormed (message : Octets) (request : SetupRequest × UInt32) : Prop :=
  ∀ received, requestOf encoder received message = some request

/-- Every setup request among the messages, each of a peer of its own, is passed on within some number
of turns. -/
def AllHeard (turns : Nat → Turn) (manager : SubscriptionManager) (registry : SmRegistry)
    (messages : List Octets) : Prop :=
  ∃ n, ∀ i message request, messages[i]? = some message → WellFormed encoder message request →
    (i, request) ∈ (setupLoop encoder config turns n
      { socket := { queue := messages.zipIdx }, manager, registry }).handled

/-- Every setup request is passed on exactly when the loop finds it in what it receives of the message,
and every message before it is a setup request whose response is encoded. -/
theorem allHeard_iff (encoder : E3Encoder) (config : E3Config) (turns : Nat → Turn)
    (manager : SubscriptionManager) (registry : SmRegistry) (messages : List Octets) :
    AllHeard encoder config turns manager registry messages ↔
      ∀ i message request, messages[i]? = some message → WellFormed encoder message request →
        allAnswered encoder config turns manager registry (messages.take i) = true ∧
          found encoder (turns i).received message = some request := by
  have hhandled : ∀ n, (setupLoop encoder config turns n
      { socket := { queue := messages.zipIdx }, manager, registry }).handled =
        (passed encoder config turns manager registry messages.zipIdx).take n := by
    intro n
    rw [handled_setupLoop turns n rfl]
    exact List.nil_append _
  constructor
  · rintro ⟨n, h⟩ i message request hmessage hrequest
    have hmem := h i message request hmessage hrequest
    rw [hhandled] at hmem
    obtain ⟨j, m, hi, hm, hanswered, hfound⟩ := mem_passed_iff.mp (List.mem_of_mem_take hmem)
    obtain rfl : i = j := by omega
    rw [hmessage] at hm
    cases hm
    exact ⟨hanswered, hfound⟩
  · intro h
    refine ⟨(passed encoder config turns manager registry messages.zipIdx).length, ?_⟩
    intro i message request hmessage hrequest
    obtain ⟨hanswered, hfound⟩ := h i message request hmessage hrequest
    rw [hhandled, List.take_length]
    exact mem_passed_iff.mpr ⟨i, message, (Nat.zero_add i).symm, hmessage, hanswered, hfound⟩

/-! ### A message that is no JSON -/

/-- An encoded setup request is well formed. -/
theorem wellFormed_encode (codec : JsonCodec) (request : SetupRequest) (messageId : UInt32)
    (timestamp : UInt64) (message : EncodedMessage) (htext : JsonE3.ValidText (.setupRequest request))
    (h : JsonE3.encode codec { choice := .setupRequest request, messageId, timestamp } =
      .ok message) :
    WellFormed (JsonE3.encoder codec) message.buffer (request, messageId) := by
  intro received
  obtain ⟨message', hencode, hdecode⟩ := JsonE3.decode_encode_whole codec
    { choice := .setupRequest request, messageId, timestamp } rfl nofun htext
  rw [h] at hencode
  cases hencode
  simp only [requestOf, JsonE3.encoder, hdecode]
  rfl

/-- The setup request of a dApp. -/
def samplePdu : Pdu where
  choice := .setupRequest { dappName := lit "dapp" }
  messageId := 7
  timestamp := 0

/-- A peer sends something else before the dApp sends its request. -/
def strangerFirst : List Octets := [lit "hello", Json.Text.text (JsonE3.encodeRoot samplePdu)]

/-- The request of the dApp is decoded by nobody: it waits on a socket that is closed. -/
theorem not_allHeard_strangerFirst :
    WellFormed (JsonE3.encoder Json.textCodec) (Json.Text.text (JsonE3.encodeRoot samplePdu))
        ({ dappName := lit "dapp" }, 7) ∧
      (∀ n, (setupLoop (JsonE3.encoder Json.textCodec) {} (fun _ => ⟨0, plainSurroundings⟩) n
        { socket := { queue := strangerFirst.zipIdx }
          manager := { smLifecycleCallback := true }
          registry := {} }).handled = []) ∧
      ¬AllHeard (JsonE3.encoder Json.textCodec) {} (fun _ => ⟨0, plainSurroundings⟩)
        { smLifecycleCallback := true } {} strangerFirst := by
  have hstranger : found (JsonE3.encoder Json.textCodec) 0 (lit "hello") = none := by
    have hlength : (lit "hello").length = 5 := by decide +kernel
    have hfits : (lit "hello").length ≤ DEFAULT_BUFFER_SIZE := by
      unfold DEFAULT_BUFFER_SIZE
      omega
    have hdecode : requestOf (JsonE3.encoder Json.textCodec) 0 (lit "hello") = none := by
      decide +kernel
    rw [found, Zmq.deliver_of_fits hfits, hdecode, ite_self]
  have hpassed : passed (JsonE3.encoder Json.textCodec) {} (fun _ => ⟨0, plainSurroundings⟩)
      { smLifecycleCallback := true } {} strangerFirst.zipIdx = [] := by
    rw [strangerFirst, List.zipIdx_cons, passed, hstranger]
  have hnone : ∀ n, (setupLoop (JsonE3.encoder Json.textCodec) {}
      (fun _ => ⟨0, plainSurroundings⟩) n
      { socket := { queue := strangerFirst.zipIdx }
        manager := { smLifecycleCallback := true }
        registry := {} }).handled = [] := by
    intro n
    rw [handled_setupLoop _ n rfl]
    simp only [hpassed, List.take_nil, List.append_nil]
  have hwellFormed : WellFormed (JsonE3.encoder Json.textCodec)
      (Json.Text.text (JsonE3.encodeRoot samplePdu)) ({ dappName := lit "dapp" }, 7) :=
    wellFormed_encode Json.textCodec { dappName := lit "dapp" } 7 0
      ⟨Json.Text.text (JsonE3.encodeRoot samplePdu), .json⟩
      ⟨⟨"", rfl⟩, ⟨"dapp", rfl⟩, ⟨"", rfl⟩, ⟨"", rfl⟩⟩ rfl
  refine ⟨hwellFormed, hnone, ?_⟩
  rintro ⟨n, h⟩
  have hmem := h 1 _ _ rfl hwellFormed
  rw [hnone n] at hmem
  cases hmem

end SetupQueue

end LibE3
