import LibE3.Asn1.Encoder
import LibE3.Interface.Registry
import LibE3.Subscription.Registration

/-! The setup procedure: `E3Interface::handle_setup_request`, with `encode_setup_response` of
`e3_encoder.cpp`.  With the ASN.1 encoding a setup request is answered exactly when a dApp ID is
free: the refusal carries the ID 0, which the schema does not have, and is never sent. -/

namespace LibE3

/-- `E3Encoder`; the clock gives the timestamp of a PDU that carries none. -/
structure E3Encoder where
  encode : Pdu → Except ErrorCode EncodedMessage
  decode : Octets → UInt64 → Except ErrorCode Pdu

def Asn1.encoder (aper : Asn1.Aper) : E3Encoder := ⟨Asn1.encode aper, Asn1.decode aper⟩

/-- The PDU that `encode_setup_response` encodes. -/
def setupResponsePdu (timestamp : UInt64) (messageId requestId : UInt32)
    (responseCode : ResponseCode) (e3apProtocolVersion : Option Octets)
    (dappIdentifier : Option UInt32) (ranIdentifier : Octets)
    (ranFunctionList : List RanFunctionDef) : Pdu where
  type := .setupResponse
  choice := .setupResponse
    { requestId, responseCode, e3apProtocolVersion, dappIdentifier, ranIdentifier,
      ranFunctionList }
  messageId := messageId
  timestamp := timestamp

/-- The fields of `E3Config` that the handlers read. -/
structure E3Config where
  ranIdentifier : Octets := []
  e3apVersion : Octets := lit "1.0.0"
  deriving DecidableEq, Repr

/-- What a handler takes from outside: the clocks, the message ID it draws and what the factories of
the registry make. -/
structure Surroundings where
  now : Timestamp
  timestamp : UInt64
  messageId : GeneratedId
  create : UInt32 → Option ServiceModel

/-! ### The advertised RAN functions -/

def ranFunctionDef (id : UInt32) : Option ServiceModel → RanFunctionDef
  | none => { ranFunctionIdentifier := id }
  | some sm =>
    { ranFunctionIdentifier := id
      telemetryIdentifierList := sm.telemetryIds
      controlIdentifierList := sm.controlIds
      ranFunctionData := sm.ranFunctionData }

/-- The loop of `handle_setup_request` over the available RAN functions.  A lookup may make a service
model and so change the registry. -/
def buildRanFunctionList (create : UInt32 → Option ServiceModel) :
    SmRegistry → List UInt32 → SmRegistry × List RanFunctionDef
  | registry, [] => (registry, [])
  | registry, id :: ids =>
    let (registry, sm) := registry.getByRanFunction create id
    let (registry, rest) := buildRanFunctionList create registry ids
    (registry, ranFunctionDef id sm :: rest)

/-- The definitions that a setup response advertises. -/
def SmRegistry.advertised (registry : SmRegistry) (create : UInt32 → Option ServiceModel) :
    List RanFunctionDef :=
  (buildRanFunctionList create registry registry.getAvailableRanFunctions).2

/-! ### The handler -/

/-- What the handler leaves: the manager, the registry, how often it called
`notify_dapp_status_changed`, and the buffers that it handed to `send_response`. -/
structure SetupOutcome where
  manager : SubscriptionManager
  registry : SmRegistry
  notified : Nat
  sent : List Octets

/-- The PDU that `handle_setup_request` makes from what `register_dapp` returned. -/
def setupReply (config : E3Config) (env : Surroundings) (registry : SmRegistry)
    (registration : Outcome) (requestMessageId : UInt32) : Pdu :=
  let responseCode : ResponseCode :=
    if registration.code = .success then .positive else .negative
  let assignedDappId := registration.id
  setupResponsePdu env.timestamp env.messageId.id requestMessageId responseCode
    (some config.e3apVersion) (some assignedDappId) config.ranIdentifier
    (registry.advertised env.create)

/-- The request itself is only logged. -/
def handleSetupRequest (encoder : E3Encoder) (config : E3Config) (env : Surroundings)
    (manager : SubscriptionManager) (registry : SmRegistry) (_request : SetupRequest)
    (requestMessageId : UInt32) : SetupOutcome :=
  let (registered, registration) := manager.registerDapp env.now
  let reply := setupReply config env registry registration requestMessageId
  { manager := registered
    registry :=
      (buildRanFunctionList env.create registry registry.getAvailableRanFunctions).1
    notified := if registration.code = .success then 1 else 0
    sent :=
      match encoder.encode reply with
      | .error _ => []
      | .ok message => [message.buffer] }

/-! ### Which requests are answered -/

/-- The request was answered by one message, which decodes to a setup response for it, positive if
and only if the call registered a new dApp. -/
def Answered (aper : Asn1.Aper) (before : SubscriptionManager) (requestMessageId : UInt32)
    (outcome : SetupOutcome) : Prop :=
  ∃ buffer, outcome.sent = [buffer] ∧ ∀ received, ∃ pdu resp,
    Asn1.decode aper buffer received = .ok pdu ∧ pdu.type = .setupResponse ∧
    pdu.choice = .setupResponse resp ∧ resp.requestId = requestMessageId ∧
    (resp.responseCode = .positive ↔
      ∃ d, d ∉ before.registeredDapps ∧ d ∈ outcome.manager.registeredDapps)

/-- A PDU that conforms to the schema fits in the buffer of the encoder. -/
def FitsBuffer (aper : Asn1.Aper) (pdu : Pdu) : Prop :=
  ∀ x, Asn1.pduToAsn1 aper pdu = some x → x.conforms = true → aper.bits x ≤ 8 * Asn1.BUFFER_SIZE

section Replies

variable {aper : Asn1.Aper} {config : E3Config} {env : Surroundings} {registry : SmRegistry}
  {registration : Outcome} {requestMessageId : UInt32}

/-- The structure that the reply is converted to. -/
def setupReplyAsn1 (aper : Asn1.Aper) (config : E3Config) (env : Surroundings) (registry : SmRegistry)
    (registration : Outcome) (requestMessageId : UInt32) : Asn1.E3Pdu where
  id := Asn1.toLong env.messageId.id
  msg := .setupResponse <| Asn1.setupResponseToAsn1 aper
    { requestId := requestMessageId
      responseCode := if registration.code = .success then .positive else .negative
      e3apProtocolVersion := some config.e3apVersion
      dappIdentifier := some registration.id
      ranIdentifier := config.ranIdentifier
      ranFunctionList := registry.advertised env.create }

theorem pduToAsn1_setupReply :
    Asn1.pduToAsn1 aper (setupReply config env registry registration requestMessageId) =
      some (setupReplyAsn1 aper config env registry registration requestMessageId) := rfl

/-- The reply conforms exactly when its request ID, its dApp ID and every advertised definition do. -/
theorem conforms_setupReply_iff :
    (setupReplyAsn1 aper config env registry registration requestMessageId).conforms = true ↔
      Asn1.messageId (Asn1.toLong requestMessageId) = true ∧
      Asn1.dAppId (Asn1.toLong registration.id) = true ∧
      ∀ func ∈ registry.advertised env.create,
        (Asn1.ranFunctionDefToAsn1 aper func).conforms = true := by
  have hlist : ((Asn1.setupResponseToAsn1 aper
      { ranFunctionList := registry.advertised env.create }).ranFunctionList.all fun l =>
        l.all Asn1.E3RanFunctionDefinition.conforms) = true ↔
      ∀ func ∈ registry.advertised env.create,
        (Asn1.ranFunctionDefToAsn1 aper func).conforms = true := by
    simp only [Asn1.setupResponseToAsn1]
    split
    · rename_i hempty
      simp [List.isEmpty_iff.mp hempty]
    · simp
  have hmessage : Asn1.messageId (Asn1.toLong env.messageId.id) = true :=
    Asn1.messageId_toLong.mpr env.messageId.range
  simp only [setupReplyAsn1, Asn1.E3Pdu.conforms, Asn1.E3Msg.conforms, hmessage, Bool.true_and,
    Bool.and_eq_true]
  simp only [Asn1.setupResponseToAsn1] at hlist ⊢
  rw [hlist, Asn1.responseCode_toAsn1]
  simp only [and_true, Option.map_some, Option.all_some, and_assoc]

/-- With advertised definitions that conform, the reply conforms exactly when its dApp ID does. -/
theorem conforms_setupReply (hid : 1 ≤ requestMessageId ∧ requestMessageId ≤ 1000)
    (hdefs : ∀ func ∈ registry.advertised env.create,
      (Asn1.ranFunctionDefToAsn1 aper func).conforms = true) :
    (setupReplyAsn1 aper config env registry registration requestMessageId).conforms =
      Asn1.dAppId (Asn1.toLong registration.id) := by
  rw [Bool.eq_iff_iff, conforms_setupReply_iff]
  constructor
  · intro h
    exact h.2.1
  · intro h
    exact ⟨Asn1.messageId_toLong.mpr hid, h, hdefs⟩

/-- With every ID taken the reply carries the ID 0, and nothing is sent. -/
theorem sent_of_full {manager : SubscriptionManager} (hnumbered : manager.Numbered)
    (hfull : ¬manager.dappCount < 100) (hid : 1 ≤ requestMessageId ∧ requestMessageId ≤ 1000)
    (hdefs : ∀ func ∈ registry.advertised env.create,
      (Asn1.ranFunctionDefToAsn1 aper func).conforms = true) (request : SetupRequest) :
    (handleSetupRequest (Asn1.encoder aper) config env manager registry request
      requestMessageId).sent = [] := by
  rcases hnumbered.registerDapp env.now with ⟨hfree, -⟩ | ⟨-, hregistration⟩
  · exact absurd hfree hfull
  have hrefused : (setupReplyAsn1 aper config env registry (manager.registerDapp env.now).2
      requestMessageId).conforms = false := by
    rw [conforms_setupReply hid hdefs, hregistration]
    rfl
  have hencode : Asn1.encode aper (setupReply config env registry
      (manager.registerDapp env.now).2 requestMessageId) = .error .encodeFailed :=
    Asn1.encode_error pduToAsn1_setupReply hrefused
  simp only [handleSetupRequest, Asn1.encoder, hencode]

end Replies

/-- In a state reached by any calls, with advertised definitions that conform to the schema and fit in
the buffer, a setup request is answered if and only if fewer than a hundred dApps are registered. -/
theorem setup_answered_iff (aper : Asn1.Aper) (callback : Bool) (calls : List Call)
    (config : E3Config) (env : Surroundings) (registry : SmRegistry) (request : SetupRequest)
    (requestMessageId : UInt32) (hid : 1 ≤ requestMessageId ∧ requestMessageId ≤ 1000)
    (hdefs : ∀ func ∈ registry.advertised env.create,
      (Asn1.ranFunctionDefToAsn1 aper func).conforms = true) :
    let manager := Transition.final Call.perform { smLifecycleCallback := callback } calls
    FitsBuffer aper
      (setupReply config env registry (manager.registerDapp env.now).2 requestMessageId) →
    (Answered aper manager requestMessageId
        (handleSetupRequest (Asn1.encoder aper) config env manager registry request
          requestMessageId) ↔
      manager.dappCount < 100) := by
  intro manager hfits
  have hnumbered : manager.Numbered := SubscriptionManager.numbered_final callback calls
  rcases hnumbered.registerDapp env.now with
    ⟨hfree, id, hrange, hnew, hregistration, hregistered⟩ | ⟨hfull, -⟩
  · refine iff_of_true ?_ hfree
    have hconforms : (setupReplyAsn1 aper config env registry (manager.registerDapp env.now).2
        requestMessageId).conforms = true := by
      rw [conforms_setupReply hid hdefs, hregistration]
      exact Asn1.dAppId_toLong.mpr hrange
    obtain ⟨message, hencode, hdecode⟩ :=
      Asn1.encode_ok pduToAsn1_setupReply hconforms (hfits _ pduToAsn1_setupReply hconforms)
    refine ⟨message.buffer, ?_, fun received =>
      ⟨_, _, hdecode received, rfl, rfl, Asn1.toUint32_toLong _, ?_⟩⟩
    · simp only [handleSetupRequest, Asn1.encoder, hencode]
    · refine iff_of_true ?_ ⟨id, hnew, hregistered⟩
      show Asn1.responseCodeOfAsn1 (Asn1.responseCodeToAsn1 _) = _
      rw [Asn1.responseCodeOfAsn1_toAsn1, hregistration]
      rfl
  · refine iff_of_false ?_ hfull
    rintro ⟨buffer, hsent, -⟩
    rw [sent_of_full hnumbered hfull hid hdefs] at hsent
    cases hsent

/-! ### The first request and the hundred and first -/

/-- The answer to the first setup request of an agent without service models. -/
def firstReply : Asn1.E3Pdu where
  id := 1
  msg := .setupResponse
    { requestId := 1
      responseCode := 0
      ranIdentifier := [0x72]
      e3apProtocolVersion := some [0x31, 0x2E, 0x30, 0x2E, 0x30]
      dAppIdentifier := some 1
      ranFunctionList := none }

/-- The aligned packed encoding of `firstReply`, in 119 bits. -/
def firstReplyAper : Asn1.Aper :=
  .coding firstReply 119
    [0x00, 0x00, 0x1C, 0x00, 0x00, 0x00, 0x01, 0x72, 0x05, 0x31, 0x2E, 0x30, 0x2E, 0x30, 0x00]
    rfl (by decide) (by decide)

/-- The surroundings of a handler that draws message ID 1. -/
def plainSurroundings : Surroundings where
  now := 0
  timestamp := 0
  messageId := default
  create := fun _ => none

theorem setup_answered_first :
    Answered firstReplyAper { smLifecycleCallback := true } 1
      (handleSetupRequest (Asn1.encoder firstReplyAper) { ranIdentifier := lit "r" }
        plainSurroundings { smLifecycleCallback := true } {} {} 1) := by
  have hfits : FitsBuffer firstReplyAper
      (setupReply { ranIdentifier := lit "r" } plainSurroundings {}
        (SubscriptionManager.registerDapp { smLifecycleCallback := true }
          plainSurroundings.now).2 1) := by
    intro x hx _
    cases hx
    decide +kernel
  exact (setup_answered_iff firstReplyAper true [] { ranIdentifier := lit "r" } plainSurroundings
    {} {} 1 (by decide) (by decide) hfits).mpr (by decide +kernel)

/-- The manager after a hundred registrations. -/
def fullTable : SubscriptionManager :=
  Transition.final Call.perform { smLifecycleCallback := true }
    (List.replicate 100 (.registerDapp 0))

/-- With a hundred dApps registered the next setup request gets no answer, although no service model
is advertised. -/
theorem not_answered_full :
    fullTable.dappCount = 100 ∧
    ({} : SmRegistry).advertised plainSurroundings.create = [] ∧
    (handleSetupRequest (Asn1.encoder firstReplyAper) { ranIdentifier := lit "r" }
      plainSurroundings fullTable {} {} 1).sent = [] ∧
    ¬Answered firstReplyAper fullTable 1
      (handleSetupRequest (Asn1.encoder firstReplyAper) { ranIdentifier := lit "r" }
        plainSurroundings fullTable {} {} 1) := by
  have hcount : fullTable.dappCount = 100 :=
    (SubscriptionManager.numbered_final true []).dappCount_registrations 0 (by decide)
  have hsent : (handleSetupRequest (Asn1.encoder firstReplyAper) { ranIdentifier := lit "r" }
      plainSurroundings fullTable {} {} 1).sent = [] := by
    have hnumbered : fullTable.Numbered := SubscriptionManager.numbered_final true _
    exact sent_of_full hnumbered (by omega) (by decide) (by decide) {}
  refine ⟨hcount, rfl, hsent, ?_⟩
  rintro ⟨buffer, hbuffer, -⟩
  rw [hsent] at hbuffer
  cases hbuffer

end LibE3
