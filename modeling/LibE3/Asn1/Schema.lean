import LibE3.Types
import Mathlib.Algebra.Group.Nat.Defs

/-! The types of `e3ap-1.0.0.asn1`, as the structures that the ASN.1 compiler generates for it: an
`INTEGER` is a `long`, the strings are octets, and an `OPTIONAL` component may be absent.
`E3Pdu.conforms` is the conjunction of the constraints of the schema that the packed encoding rules
see.  The sizes of `UTF8String` are not among them. -/

namespace LibE3

namespace Asn1

structure E3SetupRequest where
  e3apProtocolVersion : Octets
  dAppName : Octets
  dAppVersion : Octets
  vendor : Octets
  deriving DecidableEq

structure E3RanFunctionDefinition where
  ranFunctionIdentifier : Int
  telemetryIdentifierList : List Int
  controlIdentifierList : List Int
  ranFunctionData : Octets
  deriving DecidableEq

structure E3SetupResponse where
  requestId : Int
  responseCode : Int
  ranIdentifier : Octets
  e3apProtocolVersion : Option Octets
  dAppIdentifier : Option Int
  ranFunctionList : Option (List E3RanFunctionDefinition)
  deriving DecidableEq

structure E3SubscriptionRequest where
  dAppIdentifier : Int
  ranFunctionIdentifier : Int
  telemetryIdentifierList : List Int
  controlIdentifierList : List Int
  subscriptionTime : Option Int
  periodicity : Option Int
  deriving DecidableEq

structure E3SubscriptionDelete where
  dAppIdentifier : Int
  subscriptionId : Int
  deriving DecidableEq

structure E3SubscriptionResponse where
  requestId : Int
  dAppIdentifier : Int
  responseCode : Int
  subscriptionId : Option Int
  telemetryIdentifierList : Option (List Int)
  controlIdentifierList : Option (List Int)
  deriving DecidableEq

structure E3IndicationMessage where
  dAppIdentifier : Int
  ranFunctionIdentifier : Int
  protocolData : Octets
  deriving DecidableEq

structure E3DAppControlAction where
  dAppIdentifier : Int
  ranFunctionIdentifier : Int
  controlIdentifier : Int
  actionData : Octets
  deriving DecidableEq

structure E3DAppReport where
  dAppIdentifier : Int
  ranFunctionIdentifier : Int
  reportData : Octets
  deriving DecidableEq

structure E3XAppControlAction where
  dAppIdentifier : Int
  ranFunctionIdentifier : Int
  xAppControlData : Octets
  deriving DecidableEq

structure E3ReleaseMessage where
  dAppIdentifier : Int
  deriving DecidableEq

structure E3MessageAck where
  requestId : Int
  responseCode : Int
  deriving DecidableEq

/-- The alternatives of `E3-PDU.msg`. -/
inductive E3Msg
  | setupRequest (m : E3SetupRequest)
  | setupResponse (m : E3SetupResponse)
  | subscriptionRequest (m : E3SubscriptionRequest)
  | subscriptionDelete (m : E3SubscriptionDelete)
  | subscriptionResponse (m : E3SubscriptionResponse)
  | indicationMessage (m : E3IndicationMessage)
  | dAppControlAction (m : E3DAppControlAction)
  | dAppReport (m : E3DAppReport)
  | xAppControlAction (m : E3XAppControlAction)
  | releaseMessage (m : E3ReleaseMessage)
  | messageAck (m : E3MessageAck)
  deriving DecidableEq

structure E3Pdu where
  id : Int
  msg : E3Msg
  deriving DecidableEq

/-! ### Constraints -/

/-- `INTEGER (lo..hi)`. -/
def inRange (lo hi x : Int) : Bool := decide (lo ≤ x ∧ x ≤ hi)

/-- `E3-MessageID`. -/
def messageId (x : Int) : Bool := inRange 1 1000 x

/-- `E3-DAppID`, and the other identifiers of the schema, `INTEGER (1..100)`. -/
def dAppId (x : Int) : Bool := inRange 1 100 x

/-- `E3-ResponseCode`. -/
def responseCode (x : Int) : Bool := inRange 0 1 x

/-- `SEQUENCE (SIZE (0..100)) OF INTEGER (1..100)`. -/
def identifierList (l : List Int) : Bool := decide (l.length ≤ 100) && l.all dAppId

/-- `OCTET STRING (SIZE (1..32768))`. -/
def octetString (data : Octets) : Bool := decide (1 ≤ data.length ∧ data.length ≤ 32768)

def E3RanFunctionDefinition.conforms (x : E3RanFunctionDefinition) : Bool :=
  dAppId x.ranFunctionIdentifier && identifierList x.telemetryIdentifierList &&
    identifierList x.controlIdentifierList && octetString x.ranFunctionData

def E3Msg.conforms : E3Msg → Bool
  | .setupRequest _ => true
  | .setupResponse x =>
    messageId x.requestId && responseCode x.responseCode && x.dAppIdentifier.all dAppId &&
      x.ranFunctionList.all fun l => l.all E3RanFunctionDefinition.conforms
  | .subscriptionRequest x =>
    dAppId x.dAppIdentifier && dAppId x.ranFunctionIdentifier &&
      identifierList x.telemetryIdentifierList && identifierList x.controlIdentifierList &&
      x.subscriptionTime.all (inRange 0 3600) && x.periodicity.all (inRange 0 1000)
  | .subscriptionDelete x => dAppId x.dAppIdentifier && dAppId x.subscriptionId
  | .subscriptionResponse x =>
    messageId x.requestId && dAppId x.dAppIdentifier && responseCode x.responseCode &&
      x.subscriptionId.all dAppId && x.telemetryIdentifierList.all identifierList &&
      x.controlIdentifierList.all identifierList
  | .indicationMessage x =>
    dAppId x.dAppIdentifier && dAppId x.ranFunctionIdentifier && octetString x.protocolData
  | .dAppControlAction x =>
    dAppId x.dAppIdentifier && dAppId x.ranFunctionIdentifier && dAppId x.controlIdentifier &&
      octetString x.actionData
  | .dAppReport x =>
    dAppId x.dAppIdentifier && dAppId x.ranFunctionIdentifier && octetString x.reportData
  | .xAppControlAction x =>
    dAppId x.dAppIdentifier && dAppId x.ranFunctionIdentifier && octetString x.xAppControlData
  | .releaseMessage x => dAppId x.dAppIdentifier
  | .messageAck x => messageId x.requestId && responseCode x.responseCode

def E3Pdu.conforms (x : E3Pdu) : Bool := messageId x.id && x.msg.conforms

/-- `UTF8String (SIZE (lo..hi))`, which counts characters. -/
def Utf8String (lo hi : Nat) (s : Octets) : Prop :=
  ∃ t : String, lit t = s ∧ lo ≤ t.length ∧ t.length ≤ hi

/-- The constraints on the strings of a message: `E3-Version` is `UTF8String (SIZE (1..11))`. -/
def E3Msg.ValidStrings : E3Msg → Prop
  | .setupRequest x =>
    Utf8String 1 11 x.e3apProtocolVersion ∧ Utf8String 1 64 x.dAppName ∧
      Utf8String 1 11 x.dAppVersion ∧ Utf8String 1 64 x.vendor
  | .setupResponse x =>
    Utf8String 1 64 x.ranIdentifier ∧ ∀ v, x.e3apProtocolVersion = some v → Utf8String 1 11 v
  | _ => True

/-- All constraints of the schema, those of the strings included. -/
structure E3Pdu.Valid (x : E3Pdu) : Prop where
  conforms : x.conforms = true
  strings : x.msg.ValidStrings

/-- The code that the ASN.1 compiler generates, which is not in the repository.  `OCTET_STRING_fromBuf`,
which gets the length as an `int`, copies data below `2^31` octets.  The encoder fails exactly on a value
that violates a constraint or does not fit in the buffer; otherwise it returns the number of bits it has
written and the buffer, and the decoder gives the value back from the octets of those bits. -/
structure Aper where
  octetStringFromBuf : Octets → Octets
  /-- The length in bits of the encoding of a value. -/
  bits : E3Pdu → Nat
  encodeToBuffer : E3Pdu → Nat → Option (Nat × Octets)
  decode : Octets → Option E3Pdu
  octetStringFromBuf_of_short : ∀ data : Octets, data.length < 2 ^ 31 → octetStringFromBuf data = data
  encode_eq_none : ∀ x size, encodeToBuffer x size = none ↔ x.conforms = false ∨ 8 * size < bits x
  decode_encode : ∀ x size encoded buffer, encodeToBuffer x size = some (encoded, buffer) →
    buffer.take ((encoded + 7) / 8) ≠ [] ∧ decode (buffer.take ((encoded + 7) / 8)) = some x

end Asn1

end LibE3
