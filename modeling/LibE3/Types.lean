import Mathlib.Init

/-! The protocol types of `types.hpp` and `error_codes.h`.  A `std::string` and a
`std::vector<uint8_t>` are both sequences of octets; `timestamp` and `registered_time` are read from
a clock and so are arguments of the functions that set them. -/

namespace LibE3

abbrev Octets := List UInt8

/-- The octets of a string literal. -/
def lit (s : String) : Octets := s.toByteArray.data.toList

/-- `LIBE3_ERROR_CODE_LIST`. -/
inductive ErrorCode
  | success
  | invalidParam
  | notInitialized
  | alreadyInitialized
  | notConnected
  | connectionFailed
  | timeout
  | encodeFailed
  | decodeFailed
  | smNotFound
  | smAlreadyRegistered
  | bufferTooSmall
  | internalError
  | subscriptionExists
  | subscriptionNotFound
  | dappNotRegistered
  | transportError
  | stateError
  | smStartFailed
  | notFound
  | smErrorInvalidParam
  | smErrorNotFound
  | smErrorAlreadyExists
  | smErrorThreadFailed
  | smErrorMemory
  | cancelled
  | genericError
  deriving DecidableEq, Repr

inductive EncodingFormat
  | asn1
  | json
  deriving DecidableEq, Repr

inductive E3LinkLayer
  | zmq
  | posix
  deriving DecidableEq, Repr

inductive E3TransportLayer
  | sctp
  | tcp
  | ipc
  deriving DecidableEq, Repr

inductive ResponseCode
  | positive
  | negative
  deriving DecidableEq, Repr

inductive PduType
  | setupRequest
  | setupResponse
  | subscriptionRequest
  | subscriptionDelete
  | subscriptionResponse
  | indicationMessage
  | dappControlAction
  | dappReport
  | xappControlAction
  | releaseMessage
  | messageAck
  deriving DecidableEq, Repr

inductive AgentState
  | uninitialized
  | initialized
  | connecting
  | connected
  | running
  | stopping
  | stopped
  | error
  deriving DecidableEq, Repr

def MAX_PROTOCOL_DATA_SIZE : Nat := 32768

def DEFAULT_BUFFER_SIZE : Nat := 60000

structure EncodedMessage where
  buffer : Octets
  format : EncodingFormat
  deriving DecidableEq, Repr

structure SetupRequest where
  e3apProtocolVersion : Octets := []
  dappName : Octets := []
  dappVersion : Octets := []
  vendor : Octets := []
  deriving DecidableEq, Repr

structure RanFunctionDef where
  ranFunctionIdentifier : UInt32 := 0
  telemetryIdentifierList : List UInt32 := []
  controlIdentifierList : List UInt32 := []
  ranFunctionData : Octets := []
  deriving DecidableEq, Repr

structure SetupResponse where
  requestId : UInt32 := 0
  responseCode : ResponseCode := .negative
  e3apProtocolVersion : Option Octets := none
  dappIdentifier : Option UInt32 := none
  ranIdentifier : Octets := []
  ranFunctionList : List RanFunctionDef := []
  deriving DecidableEq, Repr

structure SubscriptionRequest where
  dappIdentifier : UInt32 := 0
  ranFunctionIdentifier : UInt32 := 0
  telemetryIdentifierList : List UInt32 := []
  controlIdentifierList : List UInt32 := []
  subscriptionTime : Option UInt32 := none
  periodicity : Option UInt32 := none
  deriving DecidableEq, Repr

structure SubscriptionDelete where
  dappIdentifier : UInt32 := 0
  subscriptionId : UInt32 := 0
  deriving DecidableEq, Repr

structure SubscriptionResponse where
  requestId : UInt32 := 0
  dappIdentifier : UInt32 := 0
  responseCode : ResponseCode := .negative
  subscriptionId : Option UInt32 := none
  deriving DecidableEq, Repr

structure IndicationMessage where
  dappIdentifier : UInt32 := 0
  ranFunctionIdentifier : UInt32 := 0
  protocolData : Octets := []
  deriving DecidableEq, Repr

structure DAppControlAction where
  dappIdentifier : UInt32 := 0
  ranFunctionIdentifier : UInt32 := 0
  controlIdentifier : UInt32 := 0
  actionData : Octets := []
  deriving DecidableEq, Repr

structure MessageAck where
  requestId : UInt32 := 0
  responseCode : ResponseCode := .negative
  deriving DecidableEq, Repr

structure DAppReport where
  dappIdentifier : UInt32 := 0
  ranFunctionIdentifier : UInt32 := 0
  reportData : Octets := []
  deriving DecidableEq, Repr

structure XAppControlAction where
  dappIdentifier : UInt32 := 0
  ranFunctionIdentifier : UInt32 := 0
  xappControlData : Octets := []
  deriving DecidableEq, Repr

structure ReleaseMessage where
  dappIdentifier : UInt32 := 0
  deriving DecidableEq, Repr

/-- The alternatives of the variant `PduChoice`. -/
inductive PduChoice
  | setupRequest (m : SetupRequest)
  | setupResponse (m : SetupResponse)
  | subscriptionRequest (m : SubscriptionRequest)
  | subscriptionDelete (m : SubscriptionDelete)
  | subscriptionResponse (m : SubscriptionResponse)
  | indicationMessage (m : IndicationMessage)
  | dappControlAction (m : DAppControlAction)
  | dappReport (m : DAppReport)
  | xappControlAction (m : XAppControlAction)
  | releaseMessage (m : ReleaseMessage)
  | messageAck (m : MessageAck)
  deriving DecidableEq, Repr

/-- The type tag that belongs to an alternative. -/
def PduChoice.type : PduChoice → PduType
  | .setupRequest _ => .setupRequest
  | .setupResponse _ => .setupResponse
  | .subscriptionRequest _ => .subscriptionRequest
  | .subscriptionDelete _ => .subscriptionDelete
  | .subscriptionResponse _ => .subscriptionResponse
  | .indicationMessage _ => .indicationMessage
  | .dappControlAction _ => .dappControlAction
  | .dappReport _ => .dappReport
  | .xappControlAction _ => .xappControlAction
  | .releaseMessage _ => .releaseMessage
  | .messageAck _ => .messageAck

/-! `std::get_if` for each alternative. -/

namespace PduChoice

def setupRequest? : PduChoice → Option SetupRequest
  | .setupRequest m => some m
  | _ => none

def setupResponse? : PduChoice → Option SetupResponse
  | .setupResponse m => some m
  | _ => none

def subscriptionRequest? : PduChoice → Option SubscriptionRequest
  | .subscriptionRequest m => some m
  | _ => none

def subscriptionDelete? : PduChoice → Option SubscriptionDelete
  | .subscriptionDelete m => some m
  | _ => none

def subscriptionResponse? : PduChoice → Option SubscriptionResponse
  | .subscriptionResponse m => some m
  | _ => none

def indicationMessage? : PduChoice → Option IndicationMessage
  | .indicationMessage m => some m
  | _ => none

def dappControlAction? : PduChoice → Option DAppControlAction
  | .dappControlAction m => some m
  | _ => none

def dappReport? : PduChoice → Option DAppReport
  | .dappReport m => some m
  | _ => none

def xappControlAction? : PduChoice → Option XAppControlAction
  | .xappControlAction m => some m
  | _ => none

def releaseMessage? : PduChoice → Option ReleaseMessage
  | .releaseMessage m => some m
  | _ => none

def messageAck? : PduChoice → Option MessageAck
  | .messageAck m => some m
  | _ => none

end PduChoice

structure Pdu where
  type : PduType := .setupRequest
  choice : PduChoice := .setupRequest {}
  messageId : UInt32 := 0
  timestamp : UInt64
  deriving DecidableEq, Repr

/-- What `generate_message_id` draws, a number of the uniform distribution on `1..1000`. -/
structure GeneratedId where
  id : UInt32
  range : 1 ≤ id ∧ id ≤ 1000

instance GeneratedId.inhabited : Inhabited GeneratedId := ⟨1, by decide⟩

/-- `std::chrono::steady_clock` ticks. -/
abbrev Timestamp := Int64

structure DAppEntry where
  dappIdentifier : UInt32 := 0
  registeredTime : Timestamp
  deriving DecidableEq, Repr

end LibE3
