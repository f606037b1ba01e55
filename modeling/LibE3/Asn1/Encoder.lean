import LibE3.Asn1.Schema
import Mathlib.Logic.Equiv.List
import Mathlib.Tactic.DeriveEncodable

/-! `Asn1E3Encoder`, from `asn1_encoder.cpp`: the conversions between the generic PDU and the
structures of the schema, and `encode` and `decode` around the generated APER code. -/

namespace LibE3

namespace Asn1

def BUFFER_SIZE : Nat := 65536

def toLong (x : UInt32) : Int := x.toNat

/-- `static_cast<uint32_t>` of a `long`. -/
def toUint32 (x : Int) : UInt32 := UInt32.ofInt x

def responseCodeToAsn1 (code : ResponseCode) : Int := if code = .positive then 0 else 1

def responseCodeOfAsn1 (x : Int) : ResponseCode := if x = 0 then .positive else .negative

/-! ### Generic to ASN.1 -/

section ToAsn1

variable (aper : Aper)

def setupRequestToAsn1 (req : SetupRequest) : E3SetupRequest where
  e3apProtocolVersion := aper.octetStringFromBuf req.e3apProtocolVersion
  dAppName := aper.octetStringFromBuf req.dappName
  dAppVersion := aper.octetStringFromBuf req.dappVersion
  vendor := aper.octetStringFromBuf req.vendor

def ranFunctionDefToAsn1 (func : RanFunctionDef) : E3RanFunctionDefinition where
  ranFunctionIdentifier := toLong func.ranFunctionIdentifier
  telemetryIdentifierList := func.telemetryIdentifierList.map toLong
  controlIdentifierList := func.controlIdentifierList.map toLong
  ranFunctionData := aper.octetStringFromBuf func.ranFunctionData

/-- The container of `ranFunctionList` is allocated with its first element. -/
def setupResponseToAsn1 (resp : SetupResponse) : E3SetupResponse where
  requestId := toLong resp.requestId
  responseCode := responseCodeToAsn1 resp.responseCode
  ranIdentifier := aper.octetStringFromBuf resp.ranIdentifier
  e3apProtocolVersion := resp.e3apProtocolVersion.map aper.octetStringFromBuf
  dAppIdentifier := resp.dappIdentifier.map toLong
  ranFunctionList :=
    if resp.ranFunctionList.isEmpty then none
    else some (resp.ranFunctionList.map (ranFunctionDefToAsn1 aper))

/-- `periodicity` is not set. -/
def subscriptionRequestToAsn1 (req : SubscriptionRequest) : E3SubscriptionRequest where
  dAppIdentifier := toLong req.dappIdentifier
  ranFunctionIdentifier := toLong req.ranFunctionIdentifier
  telemetryIdentifierList := req.telemetryIdentifierList.map toLong
  controlIdentifierList := req.controlIdentifierList.map toLong
  subscriptionTime := req.subscriptionTime.map toLong
  periodicity := none

def subscriptionDeleteToAsn1 (del : SubscriptionDelete) : E3SubscriptionDelete where
  dAppIdentifier := toLong del.dappIdentifier
  subscriptionId := toLong del.subscriptionId

def subscriptionResponseToAsn1 (resp : SubscriptionResponse) : E3SubscriptionResponse where
  requestId := toLong resp.requestId
  dAppIdentifier := toLong resp.dappIdentifier
  responseCode := responseCodeToAsn1 resp.responseCode
  subscriptionId := resp.subscriptionId.map toLong
  telemetryIdentifierList := none
  controlIdentifierList := none

def indicationMessageToAsn1 (msg : IndicationMessage) : E3IndicationMessage where
  dAppIdentifier := toLong msg.dappIdentifier
  ranFunctionIdentifier := toLong msg.ranFunctionIdentifier
  protocolData := aper.octetStringFromBuf msg.protocolData

def dappControlActionToAsn1 (action : DAppControlAction) : E3DAppControlAction where
  dAppIdentifier := toLong action.dappIdentifier
  ranFunctionIdentifier := toLong action.ranFunctionIdentifier
  controlIdentifier := toLong action.controlIdentifier
  actionData := aper.octetStringFromBuf action.actionData

def dappReportToAsn1 (report : DAppReport) : E3DAppReport where
  dAppIdentifier := toLong report.dappIdentifier
  ranFunctionIdentifier := toLong report.ranFunctionIdentifier
  reportData := aper.octetStringFromBuf report.reportData

def xappControlActionToAsn1 (action : XAppControlAction) : E3XAppControlAction where
  dAppIdentifier := toLong action.dappIdentifier
  ranFunctionIdentifier := toLong action.ranFunctionIdentifier
  xAppControlData := aper.octetStringFromBuf action.xappControlData

/-- The alternative that `pdu_to_asn1` builds: the type tag selects the case, and `std::get_if` fails
where the choice holds another alternative. -/
def choiceToAsn1 (type : PduType) (choice : PduChoice) : Option E3Msg :=
  match type with
  | .setupRequest => choice.setupRequest?.map fun req => .setupRequest (setupRequestToAsn1 aper req)
  | .setupResponse =>
    choice.setupResponse?.map fun resp => .setupResponse (setupResponseToAsn1 aper resp)
  | .subscriptionRequest =>
    choice.subscriptionRequest?.map fun req => .subscriptionRequest (subscriptionRequestToAsn1 req)
  | .subscriptionDelete =>
    choice.subscriptionDelete?.map fun del => .subscriptionDelete (subscriptionDeleteToAsn1 del)
  | .subscriptionResponse =>
    choice.subscriptionResponse?.map fun resp =>
      .subscriptionResponse (subscriptionResponseToAsn1 resp)
  | .indicationMessage =>
    choice.indicationMessage?.map fun msg => .indicationMessage (indicationMessageToAsn1 aper msg)
  | .dappControlAction =>
    choice.dappControlAction?.map fun action =>
      .dAppControlAction (dappControlActionToAsn1 aper action)
  | .dappReport => choice.dappReport?.map fun report => .dAppReport (dappReportToAsn1 aper report)
  | .xappControlAction =>
    choice.xappControlAction?.map fun action =>
      .xAppControlAction (xappControlActionToAsn1 aper action)
  | .messageAck =>
    choice.messageAck?.map fun ack =>
      .messageAck ⟨toLong ack.requestId, responseCodeToAsn1 ack.responseCode⟩
  | .releaseMessage =>
    choice.releaseMessage?.map fun msg => .releaseMessage ⟨toLong msg.dappIdentifier⟩

def pduToAsn1 (pdu : Pdu) : Option E3Pdu :=
  (choiceToAsn1 aper pdu.type pdu.choice).map fun msg => ⟨toLong pdu.messageId, msg⟩

end ToAsn1

/-! ### ASN.1 to generic -/

def ranFunctionDefOfAsn1 (func : E3RanFunctionDefinition) : RanFunctionDef where
  ranFunctionIdentifier := toUint32 func.ranFunctionIdentifier
  telemetryIdentifierList := func.telemetryIdentifierList.map toUint32
  controlIdentifierList := func.controlIdentifierList.map toUint32
  ranFunctionData := func.ranFunctionData

def setupResponseOfAsn1 (resp : E3SetupResponse) : SetupResponse where
  requestId := toUint32 resp.requestId
  responseCode := responseCodeOfAsn1 resp.responseCode
  e3apProtocolVersion := resp.e3apProtocolVersion
  dappIdentifier := resp.dAppIdentifier.map toUint32
  ranIdentifier := resp.ranIdentifier
  ranFunctionList := (resp.ranFunctionList.getD []).map ranFunctionDefOfAsn1

/-- `periodicity` is not read. -/
def subscriptionRequestOfAsn1 (req : E3SubscriptionRequest) : SubscriptionRequest where
  dappIdentifier := toUint32 req.dAppIdentifier
  ranFunctionIdentifier := toUint32 req.ranFunctionIdentifier
  telemetryIdentifierList := req.telemetryIdentifierList.map toUint32
  controlIdentifierList := req.controlIdentifierList.map toUint32
  subscriptionTime := req.subscriptionTime.map toUint32

def choiceOfAsn1 : E3Msg → PduChoice
  | .setupRequest req =>
    .setupRequest ⟨req.e3apProtocolVersion, req.dAppName, req.dAppVersion, req.vendor⟩
  | .setupResponse resp => .setupResponse (setupResponseOfAsn1 resp)
  | .subscriptionRequest req => .subscriptionRequest (subscriptionRequestOfAsn1 req)
  | .subscriptionDelete del =>
    .subscriptionDelete ⟨toUint32 del.dAppIdentifier, toUint32 del.subscriptionId⟩
  | .subscriptionResponse resp =>
    .subscriptionResponse ⟨toUint32 resp.requestId, toUint32 resp.dAppIdentifier,
      responseCodeOfAsn1 resp.responseCode, resp.subscriptionId.map toUint32⟩
  | .indicationMessage msg =>
    .indicationMessage ⟨toUint32 msg.dAppIdentifier, toUint32 msg.ranFunctionIdentifier,
      msg.protocolData⟩
  | .dAppControlAction action =>
    .dappControlAction ⟨toUint32 action.dAppIdentifier, toUint32 action.ranFunctionIdentifier,
      toUint32 action.controlIdentifier, action.actionData⟩
  | .dAppReport report =>
    .dappReport ⟨toUint32 report.dAppIdentifier, toUint32 report.ranFunctionIdentifier,
      report.reportData⟩
  | .xAppControlAction action =>
    .xappControlAction ⟨toUint32 action.dAppIdentifier, toUint32 action.ranFunctionIdentifier,
      action.xAppControlData⟩
  | .messageAck ack =>
    .messageAck ⟨toUint32 ack.requestId, responseCodeOfAsn1 ack.responseCode⟩
  | .releaseMessage msg => .releaseMessage ⟨toUint32 msg.dAppIdentifier⟩

/-- The type tag is set with the alternative, and the timestamp is that of the new PDU. -/
def asn1ToPdu (pdu : E3Pdu) (now : UInt64) : Pdu where
  type := (choiceOfAsn1 pdu.msg).type
  choice := choiceOfAsn1 pdu.msg
  messageId := toUint32 pdu.id
  timestamp := now

/-! ### Encoder -/

def encode (aper : Aper) (pdu : Pdu) : Except ErrorCode EncodedMessage :=
  match pduToAsn1 aper pdu with
  | none => .error .encodeFailed
  | some asn1Pdu =>
    match aper.encodeToBuffer asn1Pdu BUFFER_SIZE with
    | none => .error .encodeFailed
    | some (encoded, buffer) => .ok ⟨buffer.take ((encoded + 7) / 8), .asn1⟩

def decode (aper : Aper) (data : Octets) (now : UInt64) : Except ErrorCode Pdu :=
  if data = [] then .error .invalidParam
  else
    match aper.decode data with
    | none => .error .encodeFailed
    | some asn1Pdu => .ok (asn1ToPdu asn1Pdu now)

/-! ### What the encoder does -/

section Encoder

variable {aper : Aper} {pdu : Pdu} {x : E3Pdu}

/-- A PDU is encoded if its structure conforms to the schema and fits in the buffer, and then decodes
to what the structure says. -/
theorem encode_ok (hx : pduToAsn1 aper pdu = some x) (hconforms : x.conforms = true)
    (hfits : aper.bits x ≤ 8 * BUFFER_SIZE) :
    ∃ message, encode aper pdu = .ok message ∧
      ∀ now, decode aper message.buffer now = .ok (asn1ToPdu x now) := by
  rcases henc : aper.encodeToBuffer x BUFFER_SIZE with _ | ⟨encoded, buffer⟩
  · rcases (aper.encode_eq_none x BUFFER_SIZE).mp henc with hnot | hlarge
    · rw [hconforms] at hnot
      cases hnot
    · omega
  · obtain ⟨hne, hdecode⟩ := aper.decode_encode x BUFFER_SIZE encoded buffer henc
    refine ⟨⟨buffer.take ((encoded + 7) / 8), .asn1⟩, ?_, fun now => ?_⟩
    · simp only [encode, hx, henc]
    · simp only [decode, hne, if_false, hdecode]

/-- A PDU whose structure violates the schema is refused. -/
theorem encode_error (hx : pduToAsn1 aper pdu = some x) (hconforms : x.conforms = false) :
    encode aper pdu = .error .encodeFailed := by
  have henc := (aper.encode_eq_none x BUFFER_SIZE).mpr (Or.inl hconforms)
  simp only [encode, hx, henc]

/-- A converted PDU is encoded exactly when its structure conforms and fits in the buffer. -/
theorem encode_ok_iff (hx : pduToAsn1 aper pdu = some x) :
    (∃ message, encode aper pdu = .ok message) ↔
      x.conforms = true ∧ aper.bits x ≤ 8 * BUFFER_SIZE := by
  have hnone := aper.encode_eq_none x BUFFER_SIZE
  simp only [encode, hx]
  cases henc : aper.encodeToBuffer x BUFFER_SIZE with
  | none =>
    rw [henc, eq_self_iff_true, true_iff] at hnone
    refine iff_of_false (by simp) fun ⟨hconforms, hfits⟩ => ?_
    rcases hnone with hnot | hlarge
    · rw [hconforms] at hnot
      cases hnot
    · omega
  | some result =>
    rw [henc, iff_false_left (by simp), not_or, Bool.not_eq_false, not_lt] at hnone
    exact iff_of_true ⟨_, rfl⟩ hnone

end Encoder

/-! ### Numbers -/

@[simp] theorem toUint32_toLong (x : UInt32) : toUint32 (toLong x) = x := by
  unfold toUint32 toLong
  apply UInt32.toNat_inj.mp
  have hx := x.toNat_lt
  simp [UInt32.ofInt]
  omega

@[simp] theorem responseCodeOfAsn1_toAsn1 (code : ResponseCode) :
    responseCodeOfAsn1 (responseCodeToAsn1 code) = code := by
  cases code <;> rfl

@[simp] theorem responseCode_toAsn1 (code : ResponseCode) :
    responseCode (responseCodeToAsn1 code) = true := by
  cases code <;> rfl

theorem dAppId_toLong {x : UInt32} : dAppId (toLong x) = true ↔ 1 ≤ x ∧ x ≤ 100 := by
  unfold dAppId inRange toLong
  rw [decide_eq_true_iff, UInt32.le_iff_toNat_le, UInt32.le_iff_toNat_le]
  simp only [UInt32.reduceToNat]
  omega

theorem messageId_toLong {x : UInt32} : messageId (toLong x) = true ↔ 1 ≤ x ∧ x ≤ 1000 := by
  unfold messageId inRange toLong
  rw [decide_eq_true_iff, UInt32.le_iff_toNat_le, UInt32.le_iff_toNat_le]
  simp only [UInt32.reduceToNat]
  omega

/-! ### A codec for one value -/

instance encodableUInt8 : Encodable UInt8 :=
  .ofLeftInverse UInt8.toNat UInt8.ofNat fun _ => UInt8.ofNat_toNat

deriving instance Encodable for E3SetupRequest, E3RanFunctionDefinition, E3SetupResponse,
  E3SubscriptionRequest, E3SubscriptionDelete, E3SubscriptionResponse, E3IndicationMessage,
  E3DAppControlAction, E3DAppReport, E3XAppControlAction, E3ReleaseMessage, E3MessageAck, E3Msg,
  E3Pdu

/-- A codec may copy data of any length. -/
theorem id_of_short (data : Octets) (_ : data.length < 2 ^ 31) : id data = data := rfl

/-- A codec with the given lengths that writes `sample` as `octets`, and any other value as an octet that
`octets` does not start with, followed by as many octets as the number of the value. -/
def Aper.codingAs (bits : E3Pdu → Nat) (sample : E3Pdu) (octets : Octets)
    (hlength : octets.length = (bits sample + 7) / 8) (hne : octets ≠ [])
    (hmark : octets.head? ≠ some 255) : Aper where
  octetStringFromBuf := id
  octetStringFromBuf_of_short := id_of_short
  bits := bits
  encodeToBuffer x size :=
    if x.conforms = false ∨ 8 * size < bits x then none
    else if x = sample then some (bits sample, octets)
    else some (8 * (Encodable.encode x + 1), 255 :: List.replicate (Encodable.encode x) 0)
  decode data := if data = octets then some sample else Encodable.decode (data.length - 1)
  encode_eq_none x size := by
    split
    · rename_i hnone
      exact ⟨fun _ => hnone, fun _ => rfl⟩
    · rename_i hnone
      refine ⟨fun h => ?_, fun h => absurd h hnone⟩
      split at h <;> cases h
  decode_encode x size encoded buffer h := by
    split at h
    · cases h
    split at h
    · rename_i hx
      cases h
      rw [List.take_of_length_le hlength.le]
      exact ⟨hne, by rw [if_pos rfl, hx]⟩
    · cases h
      rw [List.take_of_length_le (by simp; omega)]
      have hother : 255 :: List.replicate (Encodable.encode x) 0 ≠ octets := by
        rintro rfl
        exact hmark rfl
      refine ⟨List.cons_ne_nil _ _, ?_⟩
      rw [if_neg hother]
      simp [Encodable.encodek]

/-- The length of a value under `Aper.coding`. -/
def codingBits (sample : E3Pdu) (length : Nat) (x : E3Pdu) : Nat :=
  if x = sample then length else 8 * (Encodable.encode x + 1)

/-- A codec whose lengths are those of what it writes. -/
def Aper.coding (sample : E3Pdu) (length : Nat) (octets : Octets)
    (hlength : octets.length = (length + 7) / 8) (hne : octets ≠ [])
    (hmark : octets.head? ≠ some 255) : Aper :=
  .codingAs (codingBits sample length) sample octets (by rw [hlength, codingBits, if_pos rfl]) hne hmark

end Asn1

end LibE3
