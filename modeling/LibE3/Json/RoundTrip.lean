import LibE3.Json.Encoder
import LibE3.Lib.JsonText

/-! `decode` after `encode`.  The document that `encode` builds is plain, so the library gives it back,
and every decoding helper reads the members that its encoding helper has written. -/

namespace LibE3

@[simp] theorem lit_inj {s t : String} : lit s = lit t ↔ s = t := by
  refine ⟨fun h => ?_, fun h => by rw [h]⟩
  unfold lit at h
  exact String.toByteArray_inj.mp (ByteArray.ext (Array.toList_inj.mp h))

namespace JsonE3

open Json (ValidUtf8 PlainAssignment)

/-! ### Hexadecimal payloads -/

theorem stoi16_hexChar : ∀ hi < 16, ∀ lo < 16,
    stoi16 [hexChar hi, hexChar lo] = some ((16 * hi + lo : Nat) : Int) := by
  decide +kernel

@[simp] theorem hexToBinary_binaryToHex (data : Octets) :
    hexToBinary (binaryToHex data) = some data := by
  induction data with
  | nil => rfl
  | cons b data ih =>
    have hlt := b.toNat_lt
    have hstoi := stoi16_hexChar (b.toNat / 16) (by omega) (b.toNat % 16) (by omega)
    rw [Nat.div_add_mod] at hstoi
    show hexToBinary (hexChar _ :: hexChar _ :: binaryToHex data) = _
    have hoctet : UInt8.ofInt (b.toNat : Int) = b := by
      apply UInt8.toNat_inj.mp
      simp only [UInt8.ofInt, UInt8.toNat_ofNat']
      omega
    simp [hexToBinary, hstoi, ih, hoctet]

theorem validUtf8_hexChar : ∀ d < 16, ∃ t : String, t.toByteArray.data.toList = [hexChar d] := by
  intro d hd
  interval_cases d
  exacts [⟨"0", rfl⟩, ⟨"1", rfl⟩, ⟨"2", rfl⟩, ⟨"3", rfl⟩, ⟨"4", rfl⟩, ⟨"5", rfl⟩, ⟨"6", rfl⟩,
    ⟨"7", rfl⟩, ⟨"8", rfl⟩, ⟨"9", rfl⟩, ⟨"a", rfl⟩, ⟨"b", rfl⟩, ⟨"c", rfl⟩, ⟨"d", rfl⟩, ⟨"e", rfl⟩,
    ⟨"f", rfl⟩]

theorem validUtf8_binaryToHex (data : Octets) : ValidUtf8 (binaryToHex data) := by
  induction data with
  | nil => exact ⟨"", rfl⟩
  | cons b data ih =>
    have hlt := b.toNat_lt
    have hhi : ValidUtf8 [hexChar (b.toNat / 16)] := validUtf8_hexChar _ (by omega)
    have hlo : ValidUtf8 [hexChar (b.toNat % 16)] := validUtf8_hexChar _ (by omega)
    exact (hhi.append hlo).append ih

/-! ### What the helpers read -/

section Reading

variable {α : Type} (get : Json → Option α) (assignments : List (Octets × Option Json))
  (key : String)

/-- The member that a sequence of assignments leaves under a key. -/
@[simp] def found : Option Json :=
  Json.findMember (lit key) (assignments.foldl Json.assignMember [])

@[simp] theorem value_build (default : α) :
    value get (.build assignments) key default =
      match found assignments key with
      | none => some default
      | some v => get v := rfl

/-- What `optional` makes of a member that may be missing. -/
def readMember : Option Json → Option (Option α)
  | none => some none
  | some v => (get v).map some

@[simp] theorem optional_build :
    optional get (.build assignments) key = readMember get (found assignments key) := by
  show (match found assignments key with
    | none => some none
    | some v => (get v).map some) = _
  cases found assignments key <;> rfl

end Reading

attribute [simp] set setIf Json.findMember Json.findMember_assignMember

@[simp] theorem getString_string (s : Octets) : getString (.string s) = some s := rfl

@[simp] theorem getUint32_number (x : UInt32) : getUint32 (number x) = some x := by
  simp [getUint32, number]

@[simp] theorem getUint64_unsigned (x : UInt64) : getUint64 (.unsigned x) = some x := rfl

/-- Reading a list of what was written element by element. -/
theorem mapM_map {α : Type} {write : α → Json} {read : Json → Option α}
    (h : ∀ x, read (write x) = some x) (l : List α) : (l.map write).mapM read = some l := by
  induction l with
  | nil => rfl
  | cons x l ih => simp [List.mapM_cons, h, ih]

@[simp] theorem readMember_string (s : Option Octets) :
    readMember getString (s.map .string) = some s := by
  cases s <;> rfl

@[simp] theorem readMember_number (x : Option UInt32) :
    readMember getUint32 (x.map number) = some x := by
  cases x <;> simp [readMember]

@[simp] theorem getUint32List_numbers (l : List UInt32) : getUint32List (numbers l) = some l :=
  mapM_map getUint32_number l

@[simp] theorem payload_build (assignments : List (Octets × Option Json)) (key : String) :
    payload (.build assignments) key =
      (value getString (.build assignments) key []).bind hexToBinary := rfl

@[simp] theorem getString_hex (data : Octets) : getString (hex data) = some (binaryToHex data) :=
  rfl

@[simp] theorem getString_responseCodeText (code : ResponseCode) :
    getString (responseCodeText code) =
      some (if code = .positive then lit "positive" else lit "negative") := rfl

@[simp] theorem ite_positive (code : ResponseCode) :
    (if code = .positive then ResponseCode.positive else .negative) = code := by
  cases code <;> rfl

/-! ### Every helper undoes its counterpart -/

theorem decodeSetupRequest_encode (req : SetupRequest) :
    decodeSetupRequest (encodeSetupRequest req) = some req := by
  simp [decodeSetupRequest, encodeSetupRequest]

theorem decodeRanFunctionDef_encode (func : RanFunctionDef) :
    decodeRanFunctionDef (encodeRanFunctionDef func) = some func := by
  simp [decodeRanFunctionDef, encodeRanFunctionDef]

/-- An empty list of RAN functions is not written, and a missing one is read as empty. -/
theorem readMember_ranFunctionList (l : List RanFunctionDef) :
    readMember decodeRanFunctionList
        (if l = [] then none else some (.array (l.map encodeRanFunctionDef))) =
      some (if l = [] then none else some l) := by
  split
  · rfl
  · simp [readMember, decodeRanFunctionList, elements, mapM_map decodeRanFunctionDef_encode]

theorem decodeSetupResponse_encode (resp : SetupResponse) :
    decodeSetupResponse (encodeSetupResponse resp) = some resp := by
  have hlist : (if resp.ranFunctionList = [] then none else some resp.ranFunctionList).getD [] =
      resp.ranFunctionList := by
    split
    · rename_i hempty
      rw [hempty]
      rfl
    · rfl
  simp [decodeSetupResponse, encodeSetupResponse, responseCode, readMember_ranFunctionList, hlist]

theorem decodeSubscriptionDelete_encode (del : SubscriptionDelete) :
    decodeSubscriptionDelete (encodeSubscriptionDelete del) = some del := by
  simp [decodeSubscriptionDelete, encodeSubscriptionDelete]

theorem decodeSubscriptionResponse_encode (resp : SubscriptionResponse) :
    decodeSubscriptionResponse (encodeSubscriptionResponse resp) = some resp := by
  simp [decodeSubscriptionResponse, encodeSubscriptionResponse, responseCode]

theorem decodeIndicationMessage_encode (msg : IndicationMessage) :
    decodeIndicationMessage (encodeIndicationMessage msg) = some msg := by
  simp [decodeIndicationMessage, encodeIndicationMessage]

theorem decodeDappControlAction_encode (action : DAppControlAction) :
    decodeDappControlAction (encodeDappControlAction action) = some action := by
  simp [decodeDappControlAction, encodeDappControlAction]

theorem decodeDappReport_encode (report : DAppReport) :
    decodeDappReport (encodeDappReport report) = some report := by
  simp [decodeDappReport, encodeDappReport]

theorem decodeXappControlAction_encode (action : XAppControlAction) :
    decodeXappControlAction (encodeXappControlAction action) = some action := by
  simp [decodeXappControlAction, encodeXappControlAction]

theorem decodeReleaseMessage_encode (msg : ReleaseMessage) :
    decodeReleaseMessage (encodeReleaseMessage msg) = some msg := by
  simp [decodeReleaseMessage, encodeReleaseMessage]

theorem decodeMessageAck_encode (ack : MessageAck) :
    decodeMessageAck (encodeMessageAck ack) = some ack := by
  simp [decodeMessageAck, encodeMessageAck, responseCode]

/-! ### Every document is plain -/

/-- The strings of a message are UTF-8. -/
def ValidText : PduChoice → Prop
  | .setupRequest m => ValidUtf8 m.e3apProtocolVersion ∧ ValidUtf8 m.dappName ∧
      ValidUtf8 m.dappVersion ∧ ValidUtf8 m.vendor
  | .setupResponse m => (∀ v, m.e3apProtocolVersion = some v → ValidUtf8 v) ∧
      ValidUtf8 m.ranIdentifier
  | _ => True

theorem validUtf8_lit (s : String) : ValidUtf8 (lit s) := ⟨s, rfl⟩

@[simp] theorem plainAssignment_some {key : String} {v : Json} :
    PlainAssignment (lit key, some v) ↔ v.Plain := by
  simp [PlainAssignment, validUtf8_lit]

@[simp] theorem plain_number (x : UInt32) : (number x).Plain := .unsigned _

@[simp] theorem plainAssignment_number (key : String) (x : Option UInt32) :
    PlainAssignment (lit key, x.map number) := by
  cases x <;> simp [PlainAssignment, validUtf8_lit]

@[simp] theorem plain_numbers (l : List UInt32) : (numbers l).Plain := by simp [numbers]

@[simp] theorem plain_hex (data : Octets) : (hex data).Plain := .string (validUtf8_binaryToHex data)

@[simp] theorem plain_responseCodeText (code : ResponseCode) : (responseCodeText code).Plain := by
  cases code <;> exact .string (validUtf8_lit _)

theorem plain_encodeRanFunctionDef (func : RanFunctionDef) : (encodeRanFunctionDef func).Plain :=
  Json.plain_build (by simp)

theorem plain_encodeSetupResponse {resp : SetupResponse} (h : ValidText (.setupResponse resp)) :
    (encodeSetupResponse resp).Plain := by
  have hversion : PlainAssignment
      (lit "e3ap_protocol_version", resp.e3apProtocolVersion.map .string) := by
    refine ⟨validUtf8_lit _, fun w hw => ?_⟩
    obtain ⟨v, hv, rfl⟩ := Option.map_eq_some_iff.mp hw
    exact .string (h.1 v hv)
  have hlist : PlainAssignment (lit "ran_function_list",
      if resp.ranFunctionList = [] then none
      else some (.array (resp.ranFunctionList.map encodeRanFunctionDef))) := by
    refine ⟨validUtf8_lit _, fun w hw => ?_⟩
    split at hw
    · cases hw
    · cases hw
      simp [plain_encodeRanFunctionDef]
  exact Json.plain_build (by simp [hversion, hlist, h.2])

theorem plain_encodeChoice {choice : PduChoice} (h : ValidText choice) :
    (encodeChoice choice).Plain := by
  cases choice with
  | setupRequest m =>
    obtain ⟨hversion, hname, hdapp, hvendor⟩ := h
    exact Json.plain_build (by simp [hversion, hname, hdapp, hvendor])
  | setupResponse m => exact plain_encodeSetupResponse h
  | subscriptionRequest m => exact Json.plain_build (by simp)
  | subscriptionDelete m => exact Json.plain_build (by simp)
  | subscriptionResponse m => exact Json.plain_build (by simp)
  | indicationMessage m => exact Json.plain_build (by simp)
  | dappControlAction m => exact Json.plain_build (by simp)
  | dappReport m => exact Json.plain_build (by simp)
  | xappControlAction m => exact Json.plain_build (by simp)
  | releaseMessage m => exact Json.plain_build (by simp)
  | messageAck m => exact Json.plain_build (by simp)

theorem plain_encodeRoot {pdu : Pdu} (h : ValidText pdu.choice) : (encodeRoot pdu).Plain :=
  Json.plain_build (by simp [plain_encodeChoice h, validUtf8_lit])

/-! ### The round trip -/

theorem stringToPduType_pduTypeToString (type : PduType) :
    stringToPduType (lit (pduTypeToString type)) = type := by
  cases type <;> simp [stringToPduType, pduTypeToString]

/-- The data of every kind but a subscription request is read back whole. -/
theorem decodeChoice_encodeChoice {choice : PduChoice}
    (h : choice.type ≠ .subscriptionRequest) :
    decodeChoice (encodeChoice choice) choice.type = some choice := by
  cases choice with
  | setupRequest m => simp [decodeChoice, encodeChoice, PduChoice.type, decodeSetupRequest_encode]
  | setupResponse m => simp [decodeChoice, encodeChoice, PduChoice.type, decodeSetupResponse_encode]
  | subscriptionRequest m => exact absurd rfl h
  | subscriptionDelete m =>
    simp [decodeChoice, encodeChoice, PduChoice.type, decodeSubscriptionDelete_encode]
  | subscriptionResponse m =>
    simp [decodeChoice, encodeChoice, PduChoice.type, decodeSubscriptionResponse_encode]
  | indicationMessage m =>
    simp [decodeChoice, encodeChoice, PduChoice.type, decodeIndicationMessage_encode]
  | dappControlAction m =>
    simp [decodeChoice, encodeChoice, PduChoice.type, decodeDappControlAction_encode]
  | dappReport m => simp [decodeChoice, encodeChoice, PduChoice.type, decodeDappReport_encode]
  | xappControlAction m =>
    simp [decodeChoice, encodeChoice, PduChoice.type, decodeXappControlAction_encode]
  | releaseMessage m =>
    simp [decodeChoice, encodeChoice, PduChoice.type, decodeReleaseMessage_encode]
  | messageAck m => simp [decodeChoice, encodeChoice, PduChoice.type, decodeMessageAck_encode]

theorem decodeRoot_encodeRoot {pdu : Pdu} (htag : pdu.type = pdu.choice.type)
    (hkind : pdu.type ≠ .subscriptionRequest) : decodeRoot (encodeRoot pdu) = some pdu := by
  have hchoice : decodeChoice (encodeChoice pdu.choice) pdu.type = some pdu.choice := by
    rw [htag] at hkind ⊢
    exact decodeChoice_encodeChoice hkind
  simp [decodeRoot, encodeRoot, stringToPduType_pduTypeToString, readMember, hchoice]

/-- A plain document is printed, and its text decodes to what is read from the document. -/
theorem decode_encode_of_plain (codec : JsonCodec) {pdu received : Pdu}
    (hplain : (encodeRoot pdu).Plain) (hroot : decodeRoot (encodeRoot pdu) = some received) :
    ∃ message, encode codec pdu = .ok message ∧ decode codec message.buffer = .ok received := by
  obtain ⟨text, hdump, hparse⟩ := codec.parse_dump _ hplain
  have hne : text ≠ [] := by
    rintro rfl
    rw [codec.parse_nil] at hparse
    cases hparse
  refine ⟨⟨text, .json⟩, by simp only [encode, hdump], ?_⟩
  simp only [decode, hne, if_false, hparse, Option.bind_some, hroot]

/-- A PDU whose tag matches its alternative, of any kind but a subscription request and with strings
of UTF-8, is encoded, and its text decodes to the same PDU. -/
theorem decode_encode (codec : JsonCodec) (pdu : Pdu) (htag : pdu.type = pdu.choice.type)
    (hkind : pdu.type ≠ .subscriptionRequest) (htext : ValidText pdu.choice) :
    ∃ message, encode codec pdu = .ok message ∧ decode codec message.buffer = .ok pdu :=
  decode_encode_of_plain codec (plain_encodeRoot htext) (decodeRoot_encodeRoot htag hkind)

/-- A setup response with one RAN function and one of its optional members, through the compact
text. -/
def sampleResponse : Pdu where
  type := .setupResponse
  choice := .setupResponse
    { requestId := 7
      responseCode := .positive
      dappIdentifier := some 4294967295
      ranIdentifier := lit "DU-1"
      ranFunctionList := [⟨1, [1, 2], [], [0x00, 0xFF]⟩] }
  messageId := 12
  timestamp := 18446744073709551615

theorem decode_encode_sampleResponse :
    sampleResponse.type = sampleResponse.choice.type ∧
    ∃ message, encode Json.textCodec sampleResponse = .ok message ∧
      decode Json.textCodec message.buffer = .ok sampleResponse := by
  have htext : ValidText sampleResponse.choice := ⟨nofun, validUtf8_lit "DU-1"⟩
  exact ⟨rfl, decode_encode Json.textCodec sampleResponse rfl (by decide) htext⟩

end JsonE3

end LibE3
