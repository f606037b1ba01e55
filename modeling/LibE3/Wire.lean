import LibE3.Asn1.RoundTrip
import LibE3.Json.RoundTrip

/-! A subscription request through the two wire formats.  All four conversions know five of its six
fields: none of them writes or reads `periodicity`. -/

namespace LibE3

/-- The PDU of a subscription request. -/
def requestPdu (messageId : UInt32) (timestamp : UInt64) (req : SubscriptionRequest) : Pdu where
  type := .subscriptionRequest
  choice := .subscriptionRequest req
  messageId := messageId
  timestamp := timestamp

/-- What comes back of a request. -/
def SubscriptionRequest.withoutPeriodicity (req : SubscriptionRequest) : SubscriptionRequest :=
  { req with periodicity := none }

theorem SubscriptionRequest.withoutPeriodicity_eq_self {req : SubscriptionRequest} :
    req.withoutPeriodicity = req ↔ req.periodicity = none := by
  constructor
  · intro h
    rw [← h]
    rfl
  · intro h
    unfold withoutPeriodicity
    rw [← h]

theorem requestPdu_inj {messageId : UInt32} {timestamp : UInt64} {req req' : SubscriptionRequest} :
    requestPdu messageId timestamp req = requestPdu messageId timestamp req' ↔ req = req' := by
  simp [requestPdu]

/-! ### JSON -/

namespace JsonE3

theorem decodeSubscriptionRequest_encode (req : SubscriptionRequest) :
    decodeSubscriptionRequest (encodeSubscriptionRequest req) = some req.withoutPeriodicity := by
  simp [decodeSubscriptionRequest, encodeSubscriptionRequest,
    SubscriptionRequest.withoutPeriodicity]

theorem decodeRoot_requestPdu (messageId : UInt32) (timestamp : UInt64)
    (req : SubscriptionRequest) :
    decodeRoot (encodeRoot (requestPdu messageId timestamp req)) =
      some (requestPdu messageId timestamp req.withoutPeriodicity) := by
  simp [decodeRoot, encodeRoot, requestPdu, stringToPduType_pduTypeToString, readMember,
    decodeChoice, encodeChoice, decodeSubscriptionRequest_encode]

/-- A request is always encoded, and its text decodes to the request without its periodicity. -/
theorem decode_encode_requestPdu (codec : JsonCodec) (messageId : UInt32) (timestamp : UInt64)
    (req : SubscriptionRequest) :
    ∃ message, encode codec (requestPdu messageId timestamp req) = .ok message ∧
      decode codec message.buffer =
        .ok (requestPdu messageId timestamp req.withoutPeriodicity) := by
  have hplain : (encodeRoot (requestPdu messageId timestamp req)).Plain := plain_encodeRoot trivial
  exact decode_encode_of_plain codec hplain (decodeRoot_requestPdu messageId timestamp req)

/-- A PDU of any kind comes back whole, if its tag matches, its strings are UTF-8, and it is no request
with a periodicity. -/
theorem decode_encode_whole (codec : JsonCodec) (pdu : Pdu) (htag : pdu.type = pdu.choice.type)
    (hperiodicity : ∀ req, pdu.choice = .subscriptionRequest req → req.periodicity = none)
    (htext : ValidText pdu.choice) :
    ∃ message, encode codec pdu = .ok message ∧ decode codec message.buffer = .ok pdu := by
  by_cases hkind : pdu.type = .subscriptionRequest
  · obtain ⟨type, choice, messageId, timestamp⟩ := pdu
    cases hkind
    cases choice with
    | subscriptionRequest req =>
      have hback := decode_encode_requestPdu codec messageId timestamp req
      rw [SubscriptionRequest.withoutPeriodicity_eq_self.mpr (hperiodicity req rfl)] at hback
      exact hback
    | _ => cases htag
  · exact decode_encode_of_plain codec (plain_encodeRoot htext) (decodeRoot_encodeRoot htag hkind)

end JsonE3

/-! ### ASN.1 -/

namespace Asn1

theorem subscriptionRequestOfAsn1_toAsn1 (req : SubscriptionRequest) :
    subscriptionRequestOfAsn1 (subscriptionRequestToAsn1 req) = req.withoutPeriodicity := by
  simp only [subscriptionRequestOfAsn1, subscriptionRequestToAsn1, toUint32_toLong,
    map_toUint32_toLong, option_toUint32_toLong, SubscriptionRequest.withoutPeriodicity]

/-- A request is always converted, and comes back without its periodicity. -/
theorem asn1ToPdu_requestPdu (aper : Aper) (messageId : UInt32) (timestamp : UInt64)
    (req : SubscriptionRequest) :
    ∃ x, pduToAsn1 aper (requestPdu messageId timestamp req) = some x ∧
      ∀ now, asn1ToPdu x now = requestPdu messageId now req.withoutPeriodicity := by
  refine ⟨_, rfl, fun now => ?_⟩
  simp only [asn1ToPdu, choiceOfAsn1, toUint32_toLong, subscriptionRequestOfAsn1_toAsn1]
  rfl

end Asn1

/-! ### Both formats -/

/-- A request comes back whole from both formats. -/
structure Survives (codec : JsonCodec) (aper : Asn1.Aper) (messageId : UInt32) (timestamp : UInt64)
    (req : SubscriptionRequest) : Prop where
  json : ∃ message, JsonE3.encode codec (requestPdu messageId timestamp req) = .ok message ∧
    JsonE3.decode codec message.buffer = .ok (requestPdu messageId timestamp req)
  asn1 : ∃ x, Asn1.pduToAsn1 aper (requestPdu messageId timestamp req) = some x ∧
    ∀ now, Asn1.asn1ToPdu x now = requestPdu messageId now req

/-- A request survives if and only if it has no periodicity. -/
theorem subscriptionRequest_survives_iff (codec : JsonCodec) (aper : Asn1.Aper) (messageId : UInt32)
    (timestamp : UInt64) (req : SubscriptionRequest) :
    Survives codec aper messageId timestamp req ↔ req.periodicity = none := by
  obtain ⟨x, hx, hback⟩ := Asn1.asn1ToPdu_requestPdu aper messageId timestamp req
  rw [← SubscriptionRequest.withoutPeriodicity_eq_self]
  constructor
  · intro h
    obtain ⟨x', hx', hback'⟩ := h.asn1
    rw [hx] at hx'
    cases hx'
    exact requestPdu_inj.mp ((hback timestamp).symm.trans (hback' timestamp))
  · intro h
    constructor
    · have hjson := JsonE3.decode_encode_requestPdu codec messageId timestamp req
      rw [h] at hjson
      exact hjson
    · rw [h] at hback
      exact ⟨x, hx, hback⟩

/-- A request for a report every hundred microseconds. -/
def periodicRequest : SubscriptionRequest where
  dappIdentifier := 1
  ranFunctionIdentifier := 1
  telemetryIdentifierList := [1]
  periodicity := some 100

/-- It is within the schema, and neither format gives it back. -/
theorem periodicRequest_lost :
    (Asn1.E3Msg.subscriptionRequest ⟨1, 1, [1], [], none, some 100⟩).conforms = true ∧
    (∃ message, JsonE3.encode Json.textCodec (requestPdu 1 0 periodicRequest) = .ok message ∧
      JsonE3.decode Json.textCodec message.buffer =
        .ok (requestPdu 1 0 { periodicRequest with periodicity := none })) ∧
    (∃ x, Asn1.pduToAsn1 Asn1.sampleReportAper (requestPdu 1 0 periodicRequest) = some x ∧
      ∀ now, Asn1.asn1ToPdu x now =
        requestPdu 1 now { periodicRequest with periodicity := none }) ∧
    ¬Survives Json.textCodec Asn1.sampleReportAper 1 0 periodicRequest := by
  refine ⟨by decide, JsonE3.decode_encode_requestPdu _ _ _ _, Asn1.asn1ToPdu_requestPdu _ _ _ _, ?_⟩
  intro h
  obtain ⟨x, hx, hback⟩ := h.asn1
  cases hx
  exact absurd (hback 0) (by decide)

end LibE3
