import LibE3.Lib.Json
import LibE3.Types
import Mathlib.Algebra.Group.Int.Defs

/-! `JsonE3Encoder`, from `json_encoder.cpp`.  Every helper builds or reads one JSON object, member by
member.  An exception of a helper or of the library ends `encode` or `decode` with an error, and so
is `none` here. -/

namespace LibE3

namespace JsonE3

/-! ### Type names -/

def pduTypeToString : PduType → String
  | .setupRequest => "SetupRequest"
  | .setupResponse => "SetupResponse"
  | .subscriptionRequest => "SubscriptionRequest"
  | .subscriptionDelete => "SubscriptionDelete"
  | .subscriptionResponse => "SubscriptionResponse"
  | .indicationMessage => "IndicationMessage"
  | .dappControlAction => "DAppControlAction"
  | .dappReport => "DAppReport"
  | .xappControlAction => "XAppControlAction"
  | .releaseMessage => "ReleaseMessage"
  | .messageAck => "MessageAck"

/-- A name that is none of these is taken for a setup request. -/
def stringToPduType (s : Octets) : PduType :=
  if s = lit "SetupRequest" then .setupRequest
  else if s = lit "SetupResponse" then .setupResponse
  else if s = lit "SubscriptionRequest" then .subscriptionRequest
  else if s = lit "SubscriptionDelete" then .subscriptionDelete
  else if s = lit "SubscriptionResponse" then .subscriptionResponse
  else if s = lit "IndicationMessage" then .indicationMessage
  else if s = lit "DAppControlAction" then .dappControlAction
  else if s = lit "DAppReport" then .dappReport
  else if s = lit "XAppControlAction" then .xappControlAction
  else if s = lit "ReleaseMessage" then .releaseMessage
  else if s = lit "MessageAck" then .messageAck
  else .setupRequest

/-! ### Hexadecimal payloads -/

def hexChar (d : Nat) : UInt8 := if d < 10 then .ofNat (0x30 + d) else .ofNat (0x57 + d)

def binaryToHex (data : Octets) : Octets :=
  data.flatMap fun b => [hexChar (b.toNat / 16), hexChar (b.toNat % 16)]

def isSpace (c : UInt8) : Bool := decide (c = 0x20 ∨ 0x09 ≤ c ∧ c ≤ 0x0D)

def hexValue (c : UInt8) : Option Nat :=
  if 0x30 ≤ c ∧ c ≤ 0x39 then some (c.toNat - 0x30)
  else if 0x61 ≤ c ∧ c ≤ 0x66 then some (c.toNat - 0x57)
  else if 0x41 ≤ c ∧ c ≤ 0x46 then some (c.toNat - 0x37)
  else none

/-- The digits that `strtol` converts in base 16, after white space, a sign and a prefix `0x` that a
digit follows. -/
def stoiDigits (s : Octets) : Octets :=
  let digits :=
    match s with
    | 0x30 :: x :: d :: rest =>
      if (x = 0x78 ∨ x = 0x58) ∧ (hexValue d).isSome then d :: rest else s
    | _ => s
  digits.takeWhile fun c => (hexValue c).isSome

/-- `std::stoi(s, nullptr, 16)`; it throws where there is no digit or the number is no `int`. -/
def stoi16 (s : Octets) : Option Int :=
  let unsigned (negative : Bool) (s : Octets) : Option Int :=
    let digits := stoiDigits s
    let n : Int := digits.foldl (fun n c => 16 * n + ((hexValue c).getD 0 : Nat)) 0
    let n := if negative then -n else n
    if digits = [] ∨ n < -2 ^ 31 ∨ 2 ^ 31 ≤ n then none else some n
  match s.dropWhile isSpace with
  | 0x2D :: rest => unsigned true rest
  | 0x2B :: rest => unsigned false rest
  | rest => unsigned false rest

/-- An octet for every two characters; a last one alone is not read. -/
def hexToBinary : Octets → Option Octets
  | a :: b :: rest => do
    let n ← stoi16 [a, b]
    let data ← hexToBinary rest
    some (UInt8.ofInt n :: data)
  | _ => some []

/-! ### Reading -/

def getString : Json → Option Octets
  | .string s => some s
  | _ => none

def getUint32 : Json → Option UInt32
  | .unsigned n => some n.toUInt32
  | .integer n => some n.toUInt64.toUInt32
  | .float to32 _ => some to32
  | .bool b => some (if b then 1 else 0)
  | _ => none

def getUint64 : Json → Option UInt64
  | .unsigned n => some n
  | .integer n => some n.toUInt64
  | .float _ to64 => some to64
  | .bool b => some (if b then 1 else 0)
  | _ => none

def getUint32List : Json → Option (List UInt32)
  | .array elements => elements.mapM getUint32
  | _ => none

section Reading

variable {α : Type} (get : Json → Option α) (j : Json) (key : String)

/-- `j.value(key, default)`, which throws where `j` is no object or the member has another type. -/
def value (default : α) : Option α :=
  match j with
  | .object members =>
    match Json.findMember (lit key) members with
    | none => some default
    | some v => get v
  | _ => none

/-- `j[key].get<T>()` where `j.contains(key)`. -/
def optional : Option (Option α) :=
  match j with
  | .object members =>
    match Json.findMember (lit key) members with
    | none => some none
    | some v => (get v).map some
  | _ => some none

end Reading

/-- What a range-based `for` over a value visits. -/
def elements : Json → List Json
  | .null => []
  | .array elements => elements
  | .object members => members.map Prod.snd
  | v => [v]

/-- The response code of a member, which is negative unless it reads `positive`. -/
def responseCode (j : Json) : Option ResponseCode := do
  let s ← value getString j "response_code" (lit "negative")
  some (if s = lit "positive" then .positive else .negative)

/-- A payload, in hexadecimal. -/
def payload (j : Json) (key : String) : Option Octets := do
  hexToBinary (← value getString j key [])

/-! ### Encoding helpers -/

def number (x : UInt32) : Json := .unsigned x.toUInt64

def numbers (l : List UInt32) : Json := .array (l.map number)

def responseCodeText (code : ResponseCode) : Json :=
  .string (if code = .positive then lit "positive" else lit "negative")

def hex (data : Octets) : Json := .string (binaryToHex data)

/-- `j[key] = value`. -/
def set (key : String) (value : Json) : Octets × Option Json := (lit key, some value)

/-- `j[key] = *value` where there is a value. -/
def setIf (key : String) (value : Option Json) : Octets × Option Json := (lit key, value)

def encodeSetupRequest (req : SetupRequest) : Json :=
  .build
    [set "e3ap_protocol_version" (.string req.e3apProtocolVersion),
      set "dapp_name" (.string req.dappName),
      set "dapp_version" (.string req.dappVersion),
      set "vendor" (.string req.vendor)]

def encodeRanFunctionDef (func : RanFunctionDef) : Json :=
  .build
    [set "ran_function_identifier" (number func.ranFunctionIdentifier),
      set "telemetry_identifier_list" (numbers func.telemetryIdentifierList),
      set "control_identifier_list" (numbers func.controlIdentifierList),
      set "ran_function_data" (hex func.ranFunctionData)]

def encodeSetupResponse (resp : SetupResponse) : Json :=
  .build
    [set "request_id" (number resp.requestId),
      set "response_code" (responseCodeText resp.responseCode),
      setIf "e3ap_protocol_version" (resp.e3apProtocolVersion.map .string),
      setIf "dapp_identifier" (resp.dappIdentifier.map number),
      set "ran_identifier" (.string resp.ranIdentifier),
      setIf "ran_function_list"
        (if resp.ranFunctionList = [] then none
          else some (.array (resp.ranFunctionList.map encodeRanFunctionDef)))]

/-- `periodicity` is not written. -/
def encodeSubscriptionRequest (req : SubscriptionRequest) : Json :=
  .build
    [set "dapp_identifier" (number req.dappIdentifier),
      set "ran_function_identifier" (number req.ranFunctionIdentifier),
      set "telemetry_identifier_list" (numbers req.telemetryIdentifierList),
      set "control_identifier_list" (numbers req.controlIdentifierList),
      setIf "subscription_time" (req.subscriptionTime.map number)]

def encodeSubscriptionDelete (del : SubscriptionDelete) : Json :=
  .build
    [set "dapp_identifier" (number del.dappIdentifier),
      set "subscription_id" (number del.subscriptionId)]

def encodeSubscriptionResponse (resp : SubscriptionResponse) : Json :=
  .build
    [set "request_id" (number resp.requestId),
      set "dapp_identifier" (number resp.dappIdentifier),
      set "response_code" (responseCodeText resp.responseCode),
      setIf "subscription_id" (resp.subscriptionId.map number)]

def encodeIndicationMessage (msg : IndicationMessage) : Json :=
  .build
    [set "dapp_identifier" (number msg.dappIdentifier),
      set "ran_function_identifier" (number msg.ranFunctionIdentifier),
      set "protocol_data" (hex msg.protocolData)]

def encodeDappControlAction (action : DAppControlAction) : Json :=
  .build
    [set "dapp_identifier" (number action.dappIdentifier),
      set "ran_function_identifier" (number action.ranFunctionIdentifier),
      set "control_identifier" (number action.controlIdentifier),
      set "action_data" (hex action.actionData)]

def encodeDappReport (report : DAppReport) : Json :=
  .build
    [set "dapp_identifier" (number report.dappIdentifier),
      set "ran_function_identifier" (number report.ranFunctionIdentifier),
      set "report_data" (hex report.reportData)]

def encodeXappControlAction (action : XAppControlAction) : Json :=
  .build
    [set "dapp_identifier" (number action.dappIdentifier),
      set "ran_function_identifier" (number action.ranFunctionIdentifier),
      set "xapp_control_data" (hex action.xappControlData)]

def encodeReleaseMessage (msg : ReleaseMessage) : Json :=
  .build [set "dapp_identifier" (number msg.dappIdentifier)]

def encodeMessageAck (ack : MessageAck) : Json :=
  .build
    [set "request_id" (number ack.requestId),
      set "response_code" (responseCodeText ack.responseCode)]

/-! ### Decoding helpers -/

def decodeSetupRequest (j : Json) : Option SetupRequest := do
  let e3apProtocolVersion ← value getString j "e3ap_protocol_version" []
  let dappName ← value getString j "dapp_name" []
  let dappVersion ← value getString j "dapp_version" []
  let vendor ← value getString j "vendor" []
  some { e3apProtocolVersion, dappName, dappVersion, vendor }

def decodeRanFunctionDef (j : Json) : Option RanFunctionDef := do
  let ranFunctionIdentifier ← value getUint32 j "ran_function_identifier" 0
  let telemetryIdentifierList ← value getUint32List j "telemetry_identifier_list" []
  let controlIdentifierList ← value getUint32List j "control_identifier_list" []
  let ranFunctionData ← payload j "ran_function_data"
  some { ranFunctionIdentifier, telemetryIdentifierList, controlIdentifierList, ranFunctionData }

def decodeRanFunctionList (j : Json) : Option (List RanFunctionDef) :=
  (elements j).mapM decodeRanFunctionDef

def decodeSetupResponse (j : Json) : Option SetupResponse := do
  let requestId ← value getUint32 j "request_id" 0
  let responseCode ← responseCode j
  let e3apProtocolVersion ← optional getString j "e3ap_protocol_version"
  let dappIdentifier ← optional getUint32 j "dapp_identifier"
  let ranIdentifier ← value getString j "ran_identifier" []
  let ranFunctionList ← optional decodeRanFunctionList j "ran_function_list"
  some
    { requestId, responseCode, e3apProtocolVersion, dappIdentifier, ranIdentifier
      ranFunctionList := ranFunctionList.getD [] }

def decodeSubscriptionRequest (j : Json) : Option SubscriptionRequest := do
  let dappIdentifier ← value getUint32 j "dapp_identifier" 0
  let ranFunctionIdentifier ← value getUint32 j "ran_function_identifier" 0
  let telemetryIdentifierList ← value getUint32List j "telemetry_identifier_list" []
  let controlIdentifierList ← value getUint32List j "control_identifier_list" []
  let subscriptionTime ← optional getUint32 j "subscription_time"
  some
    { dappIdentifier, ranFunctionIdentifier, telemetryIdentifierList, controlIdentifierList,
      subscriptionTime }

def decodeSubscriptionDelete (j : Json) : Option SubscriptionDelete := do
  let dappIdentifier ← value getUint32 j "dapp_identifier" 0
  let subscriptionId ← value getUint32 j "subscription_id" 0
  some { dappIdentifier, subscriptionId }

def decodeSubscriptionResponse (j : Json) : Option SubscriptionResponse := do
  let requestId ← value getUint32 j "request_id" 0
  let dappIdentifier ← value getUint32 j "dapp_identifier" 0
  let responseCode ← responseCode j
  let subscriptionId ← optional getUint32 j "subscription_id"
  some { requestId, dappIdentifier, responseCode, subscriptionId }

def decodeIndicationMessage (j : Json) : Option IndicationMessage := do
  let dappIdentifier ← value getUint32 j "dapp_identifier" 0
  let ranFunctionIdentifier ← value getUint32 j "ran_function_identifier" 0
  let protocolData ← payload j "protocol_data"
  some { dappIdentifier, ranFunctionIdentifier, protocolData }

def decodeDappControlAction (j : Json) : Option DAppControlAction := do
  let dappIdentifier ← value getUint32 j "dapp_identifier" 0
  let ranFunctionIdentifier ← value getUint32 j "ran_function_identifier" 0
  let controlIdentifier ← value getUint32 j "control_identifier" 0
  let actionData ← payload j "action_data"
  some { dappIdentifier, ranFunctionIdentifier, controlIdentifier, actionData }

def decodeDappReport (j : Json) : Option DAppReport := do
  let dappIdentifier ← value getUint32 j "dapp_identifier" 0
  let ranFunctionIdentifier ← value getUint32 j "ran_function_identifier" 0
  let reportData ← payload j "report_data"
  some { dappIdentifier, ranFunctionIdentifier, reportData }

def decodeXappControlAction (j : Json) : Option XAppControlAction := do
  let dappIdentifier ← value getUint32 j "dapp_identifier" 0
  let ranFunctionIdentifier ← value getUint32 j "ran_function_identifier" 0
  let xappControlData ← payload j "xapp_control_data"
  some { dappIdentifier, ranFunctionIdentifier, xappControlData }

def decodeReleaseMessage (j : Json) : Option ReleaseMessage := do
  let dappIdentifier ← value getUint32 j "dapp_identifier" 0
  some { dappIdentifier }

def decodeMessageAck (j : Json) : Option MessageAck := do
  let requestId ← value getUint32 j "request_id" 0
  let responseCode ← responseCode j
  some { requestId, responseCode }

/-! ### Encoder -/

def encodeChoice : PduChoice → Json
  | .setupRequest m => encodeSetupRequest m
  | .setupResponse m => encodeSetupResponse m
  | .subscriptionRequest m => encodeSubscriptionRequest m
  | .subscriptionDelete m => encodeSubscriptionDelete m
  | .subscriptionResponse m => encodeSubscriptionResponse m
  | .indicationMessage m => encodeIndicationMessage m
  | .dappControlAction m => encodeDappControlAction m
  | .dappReport m => encodeDappReport m
  | .xappControlAction m => encodeXappControlAction m
  | .releaseMessage m => encodeReleaseMessage m
  | .messageAck m => encodeMessageAck m

/-- The type tag names the kind, and the choice gives the data. -/
def encodeRoot (pdu : Pdu) : Json :=
  .build
    [set "pdu_type" (.string (lit (pduTypeToString pdu.type))),
      set "message_id" (number pdu.messageId),
      set "timestamp" (.unsigned pdu.timestamp),
      set "data" (encodeChoice pdu.choice)]

def encode (codec : JsonCodec) (pdu : Pdu) : Except ErrorCode EncodedMessage :=
  match codec.dump (encodeRoot pdu) with
  | none => .error .encodeFailed
  | some text => .ok ⟨text, .json⟩

def decodeChoice (j : Json) : PduType → Option PduChoice
  | .setupRequest => (decodeSetupRequest j).map .setupRequest
  | .setupResponse => (decodeSetupResponse j).map .setupResponse
  | .subscriptionRequest => (decodeSubscriptionRequest j).map .subscriptionRequest
  | .subscriptionDelete => (decodeSubscriptionDelete j).map .subscriptionDelete
  | .subscriptionResponse => (decodeSubscriptionResponse j).map .subscriptionResponse
  | .indicationMessage => (decodeIndicationMessage j).map .indicationMessage
  | .dappControlAction => (decodeDappControlAction j).map .dappControlAction
  | .dappReport => (decodeDappReport j).map .dappReport
  | .xappControlAction => (decodeXappControlAction j).map .xappControlAction
  | .releaseMessage => (decodeReleaseMessage j).map .releaseMessage
  | .messageAck => (decodeMessageAck j).map .messageAck

/-- The timestamp of the new PDU is replaced by the member, or by zero where it is missing. -/
def decodeRoot (root : Json) : Option Pdu := do
  let pduType ← value getString root "pdu_type" []
  let type := stringToPduType pduType
  let messageId ← value getUint32 root "message_id" 0
  let timestamp ← value getUint64 root "timestamp" 0
  let data ← (← optional some root "data")
  let choice ← decodeChoice data type
  some { type, choice, messageId, timestamp }

def decode (codec : JsonCodec) (data : Octets) : Except ErrorCode Pdu :=
  if data = [] then .error .decodeFailed
  else
    match (codec.parse data).bind decodeRoot with
    | none => .error .decodeFailed
    | some pdu => .ok pdu

end JsonE3

end LibE3
