import LibE3.Asn1.Encoder
import Mathlib.Algebra.GroupWithZero.Nat

/-! How long a setup response is in the aligned packed encoding.  It is the only message of the agent
whose length depends on what was registered: it carries the definition of every service model. -/

namespace LibE3

namespace Asn1

/-- The octets of a length determinant: up to 65536 items in blocks of 16384 go behind an octet of their
own, and the rest behind one octet, or two from 128 on. -/
def lengthOctets (n : Nat) : Nat := (n / 16384 + 3) / 4 + if n % 16384 < 128 then 1 else 2

/-- `UTF8String`, whose size constraint the encoding does not see. -/
def stringOctets (s : Octets) : Nat := lengthOctets s.length + s.length

/-- An identifier and the lengths of its lists have 7 bits each.  The data starts at an octet, behind its
length in two octets. -/
def E3RanFunctionDefinition.octets (x : E3RanFunctionDefinition) : Nat :=
  (21 + 7 * x.telemetryIdentifierList.length + 7 * x.controlIdentifierList.length + 7) / 8 + 2 +
    x.ranFunctionData.length

/-- The message ID, the choice, which components are there, the request ID and the response code take 6
octets with their padding.  The strings start at an octet, and so does the list. -/
def E3SetupResponse.bits (x : E3SetupResponse) : Nat :=
  let strings := stringOctets x.ranIdentifier + x.e3apProtocolVersion.elim 0 stringOctets
  let fixed := 8 * (6 + strings) + if x.dAppIdentifier.isSome then 7 else 0
  match x.ranFunctionList with
  | none => fixed
  | some l =>
    8 * ((fixed + 7) / 8 + lengthOctets l.length + (l.map E3RanFunctionDefinition.octets).sum)

/-- The length of a setup response of the schema, as the aligned packed encoding rules give it. -/
def Aper.SetupLengths (aper : Aper) : Prop :=
  ∀ id x, E3Pdu.conforms ⟨id, .setupResponse x⟩ = true → aper.bits ⟨id, .setupResponse x⟩ = x.bits

/-- Lengths of which those of the setup responses are right. -/
def packedBits (x : E3Pdu) : Nat :=
  match x.msg with
  | .setupResponse m => m.bits
  | _ => 8 * (Encodable.encode x + 1)

end Asn1

end LibE3
