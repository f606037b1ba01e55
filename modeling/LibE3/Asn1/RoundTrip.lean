import LibE3.Asn1.Encoder
import Mathlib.Algebra.Group.Int.Defs
import Mathlib.Algebra.Group.Nat.Defs

/-! The two conversions of `asn1_encoder.cpp` undo each other.  From the generic side a PDU comes back
whole, unless it is a subscription request.  From the side of the schema a value comes back without
what the generic types have no place for: the identifier lists of a subscription response, and the
difference between an empty and an absent list of RAN functions. -/

namespace LibE3

/-- The strings and payloads of a message, all of which go through `OCTET_STRING_fromBuf`. -/
def PduChoice.octetFields : PduChoice → List Octets
  | .setupRequest m => [m.e3apProtocolVersion, m.dappName, m.dappVersion, m.vendor]
  | .setupResponse m =>
    m.ranIdentifier :: m.e3apProtocolVersion.toList ++ m.ranFunctionList.map (·.ranFunctionData)
  | .indicationMessage m => [m.protocolData]
  | .dappControlAction m => [m.actionData]
  | .dappReport m => [m.reportData]
  | .xappControlAction m => [m.xappControlData]
  | .subscriptionRequest _ | .subscriptionDelete _ | .subscriptionResponse _
  | .releaseMessage _ | .messageAck _ => []

namespace Asn1

/-! ### Fields -/

theorem toLong_toUint32 {x : Int} (h : 0 ≤ x) (h' : x < 2 ^ 32) : toLong (toUint32 x) = x := by
  unfold toLong toUint32
  simp only [UInt32.ofInt, UInt32.toNat_ofNat']
  omega

theorem responseCodeToAsn1_ofAsn1 {x : Int} (h : responseCode x = true) :
    responseCodeToAsn1 (responseCodeOfAsn1 x) = x := by
  unfold responseCode inRange at h
  rw [decide_eq_true_iff] at h
  unfold responseCodeOfAsn1
  split
  · rename_i hzero
    rw [hzero]
    rfl
  · show (1 : Int) = x
    omega

theorem map_toUint32_toLong (l : List UInt32) : (l.map toLong).map toUint32 = l := by
  induction l with
  | nil => rfl
  | cons x l ih => rw [List.map_cons, List.map_cons, toUint32_toLong, ih]

theorem option_toUint32_toLong (x : Option UInt32) : (x.map toLong).map toUint32 = x := by
  cases x with
  | none => rfl
  | some x => rw [Option.map_some, Option.map_some, toUint32_toLong]

/-! ### From the generic side -/

section

variable {aper : Aper}

theorem ranFunctionDefOfAsn1_toAsn1 {func : RanFunctionDef}
    (h : func.ranFunctionData.length < 2 ^ 31) :
    ranFunctionDefOfAsn1 (ranFunctionDefToAsn1 aper func) = func := by
  simp only [ranFunctionDefOfAsn1, ranFunctionDefToAsn1, toUint32_toLong, map_toUint32_toLong,
    aper.octetStringFromBuf_of_short _ h]

theorem ranFunctionListOfAsn1_toAsn1 {l : List RanFunctionDef}
    (h : ∀ func ∈ l, func.ranFunctionData.length < 2 ^ 31) :
    (l.map (ranFunctionDefToAsn1 aper)).map ranFunctionDefOfAsn1 = l := by
  induction l with
  | nil => rfl
  | cons func l ih =>
    obtain ⟨hfunc, hl⟩ := List.forall_mem_cons.mp h
    rw [List.map_cons, List.map_cons, ranFunctionDefOfAsn1_toAsn1 hfunc, ih hl]

/-- The list is absent exactly when it is empty, and reads as empty where it is absent. -/
theorem setupResponseOfAsn1_toAsn1 {resp : SetupResponse} (hran : resp.ranIdentifier.length < 2 ^ 31)
    (hversion : ∀ v, resp.e3apProtocolVersion = some v → v.length < 2 ^ 31)
    (hlist : ∀ func ∈ resp.ranFunctionList, func.ranFunctionData.length < 2 ^ 31) :
    setupResponseOfAsn1 (setupResponseToAsn1 aper resp) = resp := by
  have hv : resp.e3apProtocolVersion.map aper.octetStringFromBuf = resp.e3apProtocolVersion := by
    cases hsome : resp.e3apProtocolVersion with
    | none => rfl
    | some v => rw [Option.map_some, aper.octetStringFromBuf_of_short _ (hversion v hsome)]
  have hl : ((setupResponseToAsn1 aper resp).ranFunctionList.getD []).map ranFunctionDefOfAsn1 =
      resp.ranFunctionList := by
    simp only [setupResponseToAsn1]
    split
    · rename_i hempty
      exact (List.isEmpty_iff.mp hempty).symm
    · exact ranFunctionListOfAsn1_toAsn1 hlist
  unfold setupResponseOfAsn1
  rw [hl]
  simp only [setupResponseToAsn1, toUint32_toLong, responseCodeOfAsn1_toAsn1, hv,
    option_toUint32_toLong, aper.octetStringFromBuf_of_short _ hran]

/-- Every alternative but a subscription request is converted, and comes back whole. -/
theorem choiceOfAsn1_toAsn1 {choice : PduChoice} (hkind : choice.type ≠ .subscriptionRequest)
    (hshort : ∀ data ∈ choice.octetFields, data.length < 2 ^ 31) :
    ∃ msg, choiceToAsn1 aper choice.type choice = some msg ∧ choiceOfAsn1 msg = choice := by
  have hbuf : ∀ data ∈ choice.octetFields, aper.octetStringFromBuf data = data := fun data hdata =>
    aper.octetStringFromBuf_of_short _ (hshort data hdata)
  cases choice with
  | setupRequest m =>
    refine ⟨_, rfl, ?_⟩
    simp only [choiceOfAsn1, setupRequestToAsn1]
    rw [hbuf m.e3apProtocolVersion (by simp [PduChoice.octetFields]),
      hbuf m.dappName (by simp [PduChoice.octetFields]),
      hbuf m.dappVersion (by simp [PduChoice.octetFields]),
      hbuf m.vendor (by simp [PduChoice.octetFields])]
  | setupResponse m =>
    refine ⟨_, rfl, congrArg PduChoice.setupResponse (setupResponseOfAsn1_toAsn1 ?_ ?_ ?_)⟩
    · exact hshort _ (by simp [PduChoice.octetFields])
    · exact fun v hv => hshort v (by simp [PduChoice.octetFields, hv])
    · intro func hfunc
      apply hshort
      simp only [PduChoice.octetFields, List.mem_append, List.mem_map]
      exact Or.inr ⟨func, hfunc, rfl⟩
  | subscriptionRequest m => exact absurd rfl hkind
  | subscriptionDelete m =>
    refine ⟨_, rfl, ?_⟩
    simp only [choiceOfAsn1, subscriptionDeleteToAsn1, toUint32_toLong]
  | subscriptionResponse m =>
    refine ⟨_, rfl, ?_⟩
    simp only [choiceOfAsn1, subscriptionResponseToAsn1, toUint32_toLong,
      responseCodeOfAsn1_toAsn1, option_toUint32_toLong]
  | indicationMessage m =>
    refine ⟨_, rfl, ?_⟩
    simp only [choiceOfAsn1, indicationMessageToAsn1, toUint32_toLong]
    rw [hbuf m.protocolData (by simp [PduChoice.octetFields])]
  | dappControlAction m =>
    refine ⟨_, rfl, ?_⟩
    simp only [choiceOfAsn1, dappControlActionToAsn1, toUint32_toLong]
    rw [hbuf m.actionData (by simp [PduChoice.octetFields])]
  | dappReport m =>
    refine ⟨_, rfl, ?_⟩
    simp only [choiceOfAsn1, dappReportToAsn1, toUint32_toLong]
    rw [hbuf m.reportData (by simp [PduChoice.octetFields])]
  | xappControlAction m =>
    refine ⟨_, rfl, ?_⟩
    simp only [choiceOfAsn1, xappControlActionToAsn1, toUint32_toLong]
    rw [hbuf m.xappControlData (by simp [PduChoice.octetFields])]
  | releaseMessage m =>
    refine ⟨_, rfl, ?_⟩
    simp only [choiceOfAsn1, toUint32_toLong]
  | messageAck m =>
    refine ⟨_, rfl, ?_⟩
    simp only [choiceOfAsn1, toUint32_toLong, responseCodeOfAsn1_toAsn1]

theorem asn1ToPdu_pduToAsn1 {pdu : Pdu} (htag : pdu.type = pdu.choice.type)
    (hkind : pdu.type ≠ .subscriptionRequest)
    (hshort : ∀ data ∈ pdu.choice.octetFields, data.length < 2 ^ 31) :
    ∃ x, pduToAsn1 aper pdu = some x ∧ ∀ now, asn1ToPdu x now = { pdu with timestamp := now } := by
  rw [htag] at hkind
  obtain ⟨msg, hmsg, hback⟩ := choiceOfAsn1_toAsn1 hkind hshort
  refine ⟨⟨toLong pdu.messageId, msg⟩, ?_, fun now => ?_⟩
  · rw [pduToAsn1, htag, hmsg, Option.map_some]
  · simp only [asn1ToPdu, hback, toUint32_toLong, ← htag]

/-- Whatever the encoder has written decodes to what the structure says. -/
theorem decode_of_encode {pdu : Pdu} {x : E3Pdu} {message : EncodedMessage}
    (hx : pduToAsn1 aper pdu = some x) (hencode : encode aper pdu = .ok message) (now : UInt64) :
    decode aper message.buffer now = .ok (asn1ToPdu x now) := by
  simp only [encode, hx] at hencode
  split at hencode
  · cases hencode
  · rename_i encoded buffer henc
    cases hencode
    obtain ⟨hne, hdecode⟩ := aper.decode_encode x BUFFER_SIZE encoded buffer henc
    simp only [decode, hne, if_false, hdecode]

end

/-- A PDU whose tag matches its alternative, of any kind but a subscription request and with strings
and payloads below `2^31` octets, is converted and comes back from the conversion, and so from the
octets whenever it can be encoded. -/
theorem conversion_round_trip (aper : Aper) (pdu : Pdu) (htag : pdu.type = pdu.choice.type)
    (hkind : pdu.type ≠ .subscriptionRequest)
    (hshort : ∀ data ∈ pdu.choice.octetFields, data.length < 2 ^ 31) :
    (∃ x, pduToAsn1 aper pdu = some x ∧ ∀ now, asn1ToPdu x now = { pdu with timestamp := now }) ∧
      ∀ message, encode aper pdu = .ok message →
        ∀ now, decode aper message.buffer now = .ok { pdu with timestamp := now } := by
  obtain ⟨x, hx, hback⟩ := asn1ToPdu_pduToAsn1 htag hkind hshort
  refine ⟨⟨x, hx, hback⟩, fun message hencode now => ?_⟩
  rw [decode_of_encode hx hencode now, hback now]

/-- A report of one octet, and its aligned packed encoding. -/
def sampleReport : Pdu where
  type := .dappReport
  choice := .dappReport ⟨1, 1, [0xAB]⟩
  messageId := 1
  timestamp := 0

def sampleReportAper : Aper :=
  .coding ⟨1, .dAppReport ⟨1, 1, [0xAB]⟩⟩ 64 [0x00, 0x00, 0x70, 0x00, 0x00, 0x00, 0x00, 0xAB]
    rfl (by decide) (by decide)

theorem conversion_round_trip_sampleReport :
    sampleReport.type = sampleReport.choice.type ∧
    (∃ x, pduToAsn1 sampleReportAper sampleReport = some x ∧
      ∀ now, asn1ToPdu x now = { sampleReport with timestamp := now }) ∧
    ∃ message, encode sampleReportAper sampleReport = .ok message ∧
      ∀ now, decode sampleReportAper message.buffer now =
        .ok { sampleReport with timestamp := now } := by
  have hround := conversion_round_trip sampleReportAper sampleReport rfl (by decide) (by decide)
  have hencode : encode sampleReportAper sampleReport =
      .ok ⟨[0x00, 0x00, 0x70, 0x00, 0x00, 0x00, 0x00, 0xAB], .asn1⟩ := by decide +kernel
  exact ⟨rfl, hround.1, _, hencode, hround.2 _ hencode⟩

/-! ### From the side of the schema -/

/-- A character takes at most four octets. -/
theorem length_utf8Encode_le (l : List Char) : l.utf8Encode.size ≤ 4 * l.length := by
  induction l with
  | nil => simp
  | cons c l ih =>
    rw [List.utf8Encode_cons, ByteArray.size_append, List.length_cons]
    have hc : [c].utf8Encode.size ≤ 4 := by
      simp [List.utf8Encode, Char.utf8Size_le_four]
    omega

theorem Utf8String.length_le {lo hi : Nat} {s : Octets} (h : Utf8String lo hi s) :
    s.length ≤ 4 * hi := by
  obtain ⟨t, rfl, -, hle⟩ := h
  have hbytes : (lit t).length = t.toList.utf8Encode.size := by
    rw [String.utf8Encode_toList]
    exact Array.length_toList
  have hsize := length_utf8Encode_le t.toList
  rw [String.length_toList] at hsize
  omega

/-- The number is one of a `uint32_t`. -/
def isUint32 (x : Int) : Prop := 0 ≤ x ∧ x < 2 ^ 32

/-- The octets are fewer than `2^31`. -/
def isShort (s : Octets) : Prop := s.length < 2 ^ 31

structure E3RanFunctionDefinition.Fits (x : E3RanFunctionDefinition) : Prop where
  ranFunctionIdentifier : isUint32 x.ranFunctionIdentifier
  telemetryIdentifierList : ∀ id ∈ x.telemetryIdentifierList, isUint32 id
  controlIdentifierList : ∀ id ∈ x.controlIdentifierList, isUint32 id
  ranFunctionData : isShort x.ranFunctionData

/-- The parts of a message that the generic types have a place for fit in it. -/
def E3Msg.Fits : E3Msg → Prop
  | .setupRequest x =>
    isShort x.e3apProtocolVersion ∧ isShort x.dAppName ∧ isShort x.dAppVersion ∧ isShort x.vendor
  | .setupResponse x =>
    isUint32 x.requestId ∧ responseCode x.responseCode = true ∧ isShort x.ranIdentifier ∧
      (∀ v ∈ x.e3apProtocolVersion, isShort v) ∧ (∀ v ∈ x.dAppIdentifier, isUint32 v) ∧
      ∀ l ∈ x.ranFunctionList, ∀ func ∈ l, func.Fits
  | .subscriptionRequest x =>
    isUint32 x.dAppIdentifier ∧ isUint32 x.ranFunctionIdentifier ∧
      (∀ id ∈ x.telemetryIdentifierList, isUint32 id) ∧
      (∀ id ∈ x.controlIdentifierList, isUint32 id) ∧ ∀ v ∈ x.subscriptionTime, isUint32 v
  | .subscriptionDelete x => isUint32 x.dAppIdentifier ∧ isUint32 x.subscriptionId
  | .subscriptionResponse x =>
    isUint32 x.requestId ∧ isUint32 x.dAppIdentifier ∧ responseCode x.responseCode = true ∧
      ∀ v ∈ x.subscriptionId, isUint32 v
  | .indicationMessage x =>
    isUint32 x.dAppIdentifier ∧ isUint32 x.ranFunctionIdentifier ∧ isShort x.protocolData
  | .dAppControlAction x =>
    isUint32 x.dAppIdentifier ∧ isUint32 x.ranFunctionIdentifier ∧
      isUint32 x.controlIdentifier ∧ isShort x.actionData
  | .dAppReport x =>
    isUint32 x.dAppIdentifier ∧ isUint32 x.ranFunctionIdentifier ∧ isShort x.reportData
  | .xAppControlAction x =>
    isUint32 x.dAppIdentifier ∧ isUint32 x.ranFunctionIdentifier ∧ isShort x.xAppControlData
  | .releaseMessage x => isUint32 x.dAppIdentifier
  | .messageAck x => isUint32 x.requestId ∧ responseCode x.responseCode = true

def E3Pdu.Fits (x : E3Pdu) : Prop := isUint32 x.id ∧ x.msg.Fits

section

variable {aper : Aper}

theorem isUint32.toLong_eq {x : Int} (h : isUint32 x) : toLong (toUint32 x) = x :=
  toLong_toUint32 h.1 h.2

theorem isShort.fromBuf_eq {s : Octets} (h : isShort s) : aper.octetStringFromBuf s = s :=
  aper.octetStringFromBuf_of_short _ h

theorem option_toLong_toUint32 {x : Option Int} (h : ∀ v ∈ x, isUint32 v) :
    (x.map toUint32).map toLong = x := by
  cases x with
  | none => rfl
  | some x => rw [Option.map_some, Option.map_some, (h x rfl).toLong_eq]

theorem map_toLong_toUint32 {l : List Int} (h : ∀ x ∈ l, isUint32 x) :
    (l.map toUint32).map toLong = l := by
  induction l with
  | nil => rfl
  | cons x l ih =>
    obtain ⟨hx, hl⟩ := List.forall_mem_cons.mp h
    rw [List.map_cons, List.map_cons, hx.toLong_eq, ih hl]

theorem ranFunctionDefToAsn1_ofAsn1 {func : E3RanFunctionDefinition} (h : func.Fits) :
    ranFunctionDefToAsn1 aper (ranFunctionDefOfAsn1 func) = func := by
  simp only [ranFunctionDefToAsn1, ranFunctionDefOfAsn1, h.ranFunctionIdentifier.toLong_eq,
    map_toLong_toUint32 h.telemetryIdentifierList, map_toLong_toUint32 h.controlIdentifierList,
    h.ranFunctionData.fromBuf_eq]

theorem ranFunctionListToAsn1_ofAsn1 {l : List E3RanFunctionDefinition}
    (h : ∀ func ∈ l, func.Fits) :
    (l.map ranFunctionDefOfAsn1).map (ranFunctionDefToAsn1 aper) = l := by
  induction l with
  | nil => rfl
  | cons func l ih =>
    obtain ⟨hfunc, hl⟩ := List.forall_mem_cons.mp h
    rw [List.map_cons, List.map_cons, ranFunctionDefToAsn1_ofAsn1 hfunc, ih hl]

/-- The optional list goes through a list, so an empty one does not come back. -/
theorem optionalListToAsn1_ofAsn1 {l : Option (List E3RanFunctionDefinition)}
    (h : ∀ funcs ∈ l, ∀ func ∈ funcs, func.Fits) :
    (if ((l.getD []).map ranFunctionDefOfAsn1).isEmpty then none
      else some (((l.getD []).map ranFunctionDefOfAsn1).map (ranFunctionDefToAsn1 aper))) =
      l.filter (!·.isEmpty) := by
  rcases l with _ | _ | ⟨func, funcs⟩
  · rfl
  · rfl
  · rw [Option.getD_some, ranFunctionListToAsn1_ofAsn1 (h _ rfl)]
    rfl

/-- What the generic types carry of a message: a subscription response has no identifier lists, and
an empty list of RAN functions is the same as none. -/
def E3Msg.carried : E3Msg → E3Msg
  | .setupResponse x =>
    .setupResponse { x with ranFunctionList := x.ranFunctionList.filter (!·.isEmpty) }
  | .subscriptionResponse x =>
    .subscriptionResponse { x with telemetryIdentifierList := none, controlIdentifierList := none }
  | msg => msg

/-- What comes back of a message: the conversions lose the periodicity of a subscription request. -/
def E3Msg.reconverted : E3Msg → E3Msg
  | .subscriptionRequest x => .subscriptionRequest { x with periodicity := none }
  | msg => msg.carried

theorem setupResponseToAsn1_ofAsn1 {resp : E3SetupResponse}
    (h : (E3Msg.setupResponse resp).Fits) :
    setupResponseToAsn1 aper (setupResponseOfAsn1 resp) =
      { resp with ranFunctionList := resp.ranFunctionList.filter (!·.isEmpty) } := by
  obtain ⟨hid, hcode, hran, hversion, hdapp, hlist⟩ := h
  have hv : resp.e3apProtocolVersion.map aper.octetStringFromBuf = resp.e3apProtocolVersion := by
    cases hsome : resp.e3apProtocolVersion with
    | none => rfl
    | some v => rw [Option.map_some, (hversion v hsome).fromBuf_eq]
  have hl : (setupResponseToAsn1 aper (setupResponseOfAsn1 resp)).ranFunctionList =
      resp.ranFunctionList.filter (!·.isEmpty) := optionalListToAsn1_ofAsn1 hlist
  have hfields : setupResponseToAsn1 aper (setupResponseOfAsn1 resp) = { resp with
      ranFunctionList := (setupResponseToAsn1 aper (setupResponseOfAsn1 resp)).ranFunctionList } := by
    simp only [setupResponseToAsn1, setupResponseOfAsn1, hid.toLong_eq,
      responseCodeToAsn1_ofAsn1 hcode, option_toLong_toUint32 hdapp, hv, hran.fromBuf_eq]
  rw [hfields, hl]

/-- What the conversions make of a message. -/
theorem choiceToAsn1_ofAsn1 {msg : E3Msg} (h : msg.Fits) :
    choiceToAsn1 aper (choiceOfAsn1 msg).type (choiceOfAsn1 msg) = some msg.reconverted := by
  cases msg with
  | setupRequest x =>
    obtain ⟨hversion, hname, hdapp, hvendor⟩ := h
    refine congrArg (some ∘ E3Msg.setupRequest) ?_
    simp only [setupRequestToAsn1, hversion.fromBuf_eq, hname.fromBuf_eq, hdapp.fromBuf_eq,
      hvendor.fromBuf_eq]
  | setupResponse x =>
    exact congrArg (some ∘ E3Msg.setupResponse) (setupResponseToAsn1_ofAsn1 h)
  | subscriptionRequest x =>
    obtain ⟨hdapp, hran, htelemetry, hcontrol, htime⟩ := h
    refine congrArg (some ∘ E3Msg.subscriptionRequest) ?_
    simp only [subscriptionRequestToAsn1, subscriptionRequestOfAsn1, hdapp.toLong_eq,
      hran.toLong_eq, map_toLong_toUint32 htelemetry, map_toLong_toUint32 hcontrol,
      option_toLong_toUint32 htime]
  | subscriptionDelete x =>
    refine congrArg (some ∘ E3Msg.subscriptionDelete) ?_
    simp only [subscriptionDeleteToAsn1, h.1.toLong_eq, h.2.toLong_eq]
  | subscriptionResponse x =>
    obtain ⟨hid, hdapp, hcode, hsubscription⟩ := h
    refine congrArg (some ∘ E3Msg.subscriptionResponse) ?_
    simp only [subscriptionResponseToAsn1, hid.toLong_eq, hdapp.toLong_eq,
      responseCodeToAsn1_ofAsn1 hcode, option_toLong_toUint32 hsubscription]
  | indicationMessage x =>
    obtain ⟨hdapp, hran, hdata⟩ := h
    refine congrArg (some ∘ E3Msg.indicationMessage) ?_
    simp only [indicationMessageToAsn1, hdapp.toLong_eq, hran.toLong_eq, hdata.fromBuf_eq]
  | dAppControlAction x =>
    obtain ⟨hdapp, hran, hcontrol, hdata⟩ := h
    refine congrArg (some ∘ E3Msg.dAppControlAction) ?_
    simp only [dappControlActionToAsn1, hdapp.toLong_eq, hran.toLong_eq, hcontrol.toLong_eq,
      hdata.fromBuf_eq]
  | dAppReport x =>
    obtain ⟨hdapp, hran, hdata⟩ := h
    refine congrArg (some ∘ E3Msg.dAppReport) ?_
    simp only [dappReportToAsn1, hdapp.toLong_eq, hran.toLong_eq, hdata.fromBuf_eq]
  | xAppControlAction x =>
    obtain ⟨hdapp, hran, hdata⟩ := h
    refine congrArg (some ∘ E3Msg.xAppControlAction) ?_
    simp only [xappControlActionToAsn1, hdapp.toLong_eq, hran.toLong_eq, hdata.fromBuf_eq]
  | releaseMessage x =>
    refine congrArg (some ∘ E3Msg.releaseMessage) ?_
    rw [isUint32.toLong_eq h]
  | messageAck x =>
    refine congrArg (some ∘ E3Msg.messageAck) ?_
    rw [h.1.toLong_eq, responseCodeToAsn1_ofAsn1 h.2]

theorem pduToAsn1_asn1ToPdu (aper : Aper) {x : E3Pdu} (h : x.Fits) (now : UInt64) :
    pduToAsn1 aper (asn1ToPdu x now) = some { x with msg := x.msg.reconverted } := by
  simp only [pduToAsn1, asn1ToPdu, choiceToAsn1_ofAsn1 h.2, Option.map_some, h.1.toLong_eq]

end

/-! ### Values of the schema fit -/

theorem isUint32_of_inRange {lo hi x : Int} (h : inRange lo hi x = true) (hlo : 0 ≤ lo)
    (hhi : hi ≤ 3600) : isUint32 x := by
  rw [inRange, decide_eq_true_iff] at h
  exact ⟨by omega, by omega⟩

theorem isUint32_of_dAppId {x : Int} (h : dAppId x = true) : isUint32 x :=
  isUint32_of_inRange h (by decide) (by decide)

theorem isUint32_of_messageId {x : Int} (h : messageId x = true) : isUint32 x :=
  isUint32_of_inRange h (by decide) (by decide)

theorem isUint32_of_all {x : Option Int} {hi lo : Int} (h : x.all (inRange lo hi) = true)
    (hlo : 0 ≤ lo) (hhi : hi ≤ 3600) : ∀ v ∈ x, isUint32 v := by
  rintro v rfl
  exact isUint32_of_inRange h hlo hhi

theorem isUint32_of_identifierList {l : List Int} (h : identifierList l = true) :
    ∀ id ∈ l, isUint32 id := by
  rw [identifierList, Bool.and_eq_true, List.all_eq_true] at h
  exact fun id hid => isUint32_of_dAppId (h.2 id hid)

theorem isShort_of_octetString {data : Octets} (h : octetString data = true) : isShort data := by
  rw [octetString, decide_eq_true_iff] at h
  show data.length < 2 ^ 31
  omega

theorem Utf8String.isShort {lo hi : Nat} {s : Octets} (h : Utf8String lo hi s) (hhi : hi ≤ 64) :
    isShort s := by
  have hlength := h.length_le
  show s.length < 2 ^ 31
  omega

theorem E3RanFunctionDefinition.fits_of_conforms {x : E3RanFunctionDefinition}
    (h : x.conforms = true) : x.Fits := by
  simp only [E3RanFunctionDefinition.conforms, Bool.and_eq_true] at h
  obtain ⟨⟨⟨hid, htelemetry⟩, hcontrol⟩, hdata⟩ := h
  exact ⟨isUint32_of_dAppId hid, isUint32_of_identifierList htelemetry,
    isUint32_of_identifierList hcontrol, isShort_of_octetString hdata⟩

theorem E3Msg.fits_of_conforms {msg : E3Msg} (h : msg.conforms = true)
    (hstrings : msg.ValidStrings) : msg.Fits := by
  cases msg with
  | setupRequest x =>
    obtain ⟨hversion, hname, hdapp, hvendor⟩ := hstrings
    exact ⟨hversion.isShort (by omega), hname.isShort le_rfl, hdapp.isShort (by omega),
      hvendor.isShort le_rfl⟩
  | setupResponse x =>
    simp only [E3Msg.conforms, Bool.and_eq_true] at h
    obtain ⟨⟨⟨hid, hcode⟩, hdapp⟩, hlist⟩ := h
    refine ⟨isUint32_of_messageId hid, hcode, hstrings.1.isShort le_rfl, fun v hv => ?_,
      isUint32_of_all hdapp (by decide) (by decide), fun l hl func hfunc => ?_⟩
    · exact (hstrings.2 v hv).isShort (by omega)
    · rw [hl, Option.all_some, List.all_eq_true] at hlist
      exact E3RanFunctionDefinition.fits_of_conforms (hlist func hfunc)
  | subscriptionRequest x =>
    simp only [E3Msg.conforms, Bool.and_eq_true] at h
    obtain ⟨⟨⟨⟨⟨hdapp, hran⟩, htelemetry⟩, hcontrol⟩, htime⟩, -⟩ := h
    exact ⟨isUint32_of_dAppId hdapp, isUint32_of_dAppId hran, isUint32_of_identifierList htelemetry,
      isUint32_of_identifierList hcontrol, isUint32_of_all htime (by decide) (by decide)⟩
  | subscriptionDelete x =>
    simp only [E3Msg.conforms, Bool.and_eq_true] at h
    exact ⟨isUint32_of_dAppId h.1, isUint32_of_dAppId h.2⟩
  | subscriptionResponse x =>
    simp only [E3Msg.conforms, Bool.and_eq_true] at h
    obtain ⟨⟨⟨⟨⟨hid, hdapp⟩, hcode⟩, hsubscription⟩, -⟩, -⟩ := h
    exact ⟨isUint32_of_messageId hid, isUint32_of_dAppId hdapp, hcode,
      isUint32_of_all hsubscription (by decide) (by decide)⟩
  | indicationMessage x =>
    simp only [E3Msg.conforms, Bool.and_eq_true] at h
    exact ⟨isUint32_of_dAppId h.1.1, isUint32_of_dAppId h.1.2, isShort_of_octetString h.2⟩
  | dAppControlAction x =>
    simp only [E3Msg.conforms, Bool.and_eq_true] at h
    exact ⟨isUint32_of_dAppId h.1.1.1, isUint32_of_dAppId h.1.1.2, isUint32_of_dAppId h.1.2,
      isShort_of_octetString h.2⟩
  | dAppReport x =>
    simp only [E3Msg.conforms, Bool.and_eq_true] at h
    exact ⟨isUint32_of_dAppId h.1.1, isUint32_of_dAppId h.1.2, isShort_of_octetString h.2⟩
  | xAppControlAction x =>
    simp only [E3Msg.conforms, Bool.and_eq_true] at h
    exact ⟨isUint32_of_dAppId h.1.1, isUint32_of_dAppId h.1.2, isShort_of_octetString h.2⟩
  | releaseMessage x => exact isUint32_of_dAppId h
  | messageAck x =>
    simp only [E3Msg.conforms, Bool.and_eq_true] at h
    exact ⟨isUint32_of_messageId h.1, h.2⟩

theorem E3Pdu.Valid.fits {x : E3Pdu} (h : x.Valid) : x.Fits := by
  have hconforms := h.conforms
  rw [E3Pdu.conforms, Bool.and_eq_true] at hconforms
  exact ⟨isUint32_of_messageId hconforms.1, E3Msg.fits_of_conforms hconforms.2 h.strings⟩

/-- A value of the schema of any alternative but a subscription request goes through the generic PDU
without loss, the identifier lists of a subscription response and an empty list of RAN functions
apart. -/
theorem reconversion_carried (aper : Aper) (x : E3Pdu) (hvalid : x.Valid)
    (hkind : ∀ m, x.msg ≠ .subscriptionRequest m) (now : UInt64) :
    pduToAsn1 aper (asn1ToPdu x now) = some { x with msg := x.msg.carried } := by
  rw [pduToAsn1_asn1ToPdu aper hvalid.fits now]
  unfold E3Msg.reconverted
  split
  · rename_i m hmsg
    exact absurd hmsg (hkind m)
  · rfl

/-- A positive subscription response that grants one telemetry identifier. -/
def grantingResponse : E3Pdu where
  id := 1
  msg := .subscriptionResponse
    { requestId := 1
      dAppIdentifier := 1
      responseCode := 0
      subscriptionId := some 1
      telemetryIdentifierList := some [5]
      controlIdentifierList := none }

theorem reconversion_carried_grantingResponse :
    grantingResponse.Valid ∧
    pduToAsn1 sampleReportAper (asn1ToPdu grantingResponse 0) =
      some { grantingResponse with msg := grantingResponse.msg.carried } := by
  have hvalid : grantingResponse.Valid := ⟨by decide, trivial⟩
  exact ⟨hvalid, reconversion_carried sampleReportAper grantingResponse hvalid nofun 0⟩

/-- A setup response whose list of RAN functions is present and empty. -/
def emptyListResponse : E3Pdu where
  id := 1
  msg := .setupResponse
    { requestId := 1
      responseCode := 0
      ranIdentifier := lit "r"
      e3apProtocolVersion := none
      dAppIdentifier := none
      ranFunctionList := some [] }

/-- Both kinds of loss occur on values of the schema. -/
theorem reconversion_loses :
    (grantingResponse.Valid ∧ (∀ m, grantingResponse.msg ≠ .subscriptionRequest m) ∧
      pduToAsn1 sampleReportAper (asn1ToPdu grantingResponse 0) ≠ some grantingResponse) ∧
    (emptyListResponse.Valid ∧ (∀ m, emptyListResponse.msg ≠ .subscriptionRequest m) ∧
      pduToAsn1 sampleReportAper (asn1ToPdu emptyListResponse 0) ≠ some emptyListResponse) := by
  have hstrings : emptyListResponse.msg.ValidStrings := ⟨⟨"r", rfl, by decide, by decide⟩, nofun⟩
  exact ⟨⟨⟨by decide, trivial⟩, nofun, by decide⟩, ⟨⟨by decide, hstrings⟩, nofun, by decide⟩⟩

end Asn1

end LibE3
