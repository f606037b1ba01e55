import LibE3.Connector.Stream
import LibE3.Json.Documents

/-! PDUs whose type tag is not that of the alternative in their choice.  `pdu_to_asn1` dispatches on the
tag and asks the choice for that alternative, so it refuses them.  `JsonE3Encoder::encode` writes the
tag and visits the choice, and compares the two nowhere: it writes the data of one kind under the name
of another, which decodes to something else or not at all. -/

namespace LibE3

/-! ### JSON -/

namespace JsonE3

open Json (ValidUtf8)

theorem validUtf8_of_member {j : Json} (h : j.Utf8) (key : String) {s : Octets}
    (hs : member j key = some (.string s)) : ValidUtf8 s :=
  utf8_of_member h hs

theorem validText_of_utf8 {choice : PduChoice} (h : (encodeChoice choice).Utf8) :
    ValidText choice := by
  cases choice with
  | setupRequest m =>
    refine ⟨validUtf8_of_member h "e3ap_protocol_version" ?_, validUtf8_of_member h "dapp_name" ?_,
      validUtf8_of_member h "dapp_version" ?_, validUtf8_of_member h "vendor" ?_⟩ <;>
      simp [encodeChoice, encodeSetupRequest]
  | setupResponse m =>
    constructor
    · intro v hv
      refine validUtf8_of_member h "e3ap_protocol_version" ?_
      simp [encodeChoice, encodeSetupResponse, hv]
    · refine validUtf8_of_member h "ran_identifier" ?_
      simp [encodeChoice, encodeSetupResponse]
  | _ => trivial

theorem validText_of_encodeRoot {pdu : Pdu} (h : (encodeRoot pdu).Utf8) : ValidText pdu.choice := by
  have hdata : member (encodeRoot pdu) "data" = some (encodeChoice pdu.choice) := by
    simp [encodeRoot]
  exact validText_of_utf8 (utf8_of_member h hdata)

/-- The tag plays no part in what is encoded: only a string that is not UTF-8 is refused. -/
theorem encode_eq_error_iff (codec : Utf8Codec) (pdu : Pdu) :
    encode codec pdu = .error .encodeFailed ↔ ¬ValidText pdu.choice := by
  constructor
  · intro h htext
    obtain ⟨text, hdump, -⟩ := codec.parse_dump _ (plain_encodeRoot htext)
    simp only [encode, hdump] at h
    cases h
  · intro htext
    cases hdump : codec.dump (encodeRoot pdu) with
    | none => simp only [encode, hdump]
    | some text =>
      exact absurd (validText_of_encodeRoot (codec.utf8_of_dump _ text hdump)) htext

end JsonE3

/-! ### ASN.1 -/

/-- The tag chooses the alternative that is converted. -/
theorem Asn1.encode_mistagged (aper : Asn1.Aper) {pdu : Pdu} (h : pdu.type ≠ pdu.choice.type) :
    Asn1.encode aper pdu = .error .encodeFailed := by
  have hnone : Asn1.pduToAsn1 aper pdu = none := by
    rw [Option.eq_none_iff_forall_not_mem]
    intro x hx
    obtain ⟨msg, hmsg, -⟩ := Option.map_eq_some_iff.mp hx
    exact h (Stream.type_of_choiceToAsn1 hmsg)
  simp only [Asn1.encode, hnone]

/-! ### Both encoders -/

/-- What an encoder emits for a PDU decodes to what the PDU says, or not at all. -/
def E3Encoder.Faithful (encoder : E3Encoder) (pdu : Pdu) : Prop :=
  ∀ message now received, encoder.encode pdu = .ok message →
    encoder.decode message.buffer now = .ok received → received.content = pdu.content

/-- A PDU is refused by both encoders, and so neither emits another message for it. -/
structure Refused (codec : JsonCodec) (aper : Asn1.Aper) (pdu : Pdu) : Prop where
  json : (JsonE3.encoder codec).encode pdu = .error .encodeFailed
  asn1 : (Asn1.encoder aper).encode pdu = .error .encodeFailed
  faithful : (JsonE3.encoder codec).Faithful pdu ∧ (Asn1.encoder aper).Faithful pdu

theorem E3Encoder.faithful_of_error {encoder : E3Encoder} {pdu : Pdu} {code : ErrorCode}
    (h : encoder.encode pdu = .error code) : encoder.Faithful pdu := by
  intro message now received hencode
  rw [h] at hencode
  cases hencode

/-- A PDU with the wrong tag is refused by both encoders exactly if one of its strings is not
UTF-8. -/
theorem mistagged_refused_iff (codec : Utf8Codec) (aper : Asn1.Aper) (pdu : Pdu) :
    (pdu.type ≠ pdu.choice.type → Refused codec aper pdu) ↔
      pdu.type = pdu.choice.type ∨ ¬JsonE3.ValidText pdu.choice := by
  constructor
  · intro h
    by_cases htag : pdu.type = pdu.choice.type
    · exact Or.inl htag
    · exact Or.inr ((JsonE3.encode_eq_error_iff codec pdu).mp (h htag).json)
  · rintro (htag | htext) hne
    · exact absurd htag hne
    · have hjson := (JsonE3.encode_eq_error_iff codec pdu).mpr htext
      have hasn1 := Asn1.encode_mistagged aper hne
      exact ⟨hjson, hasn1, E3Encoder.faithful_of_error hjson, E3Encoder.faithful_of_error hasn1⟩

/-- A release that is tagged as a setup request. -/
def releaseAsSetup : Pdu where
  type := .setupRequest
  choice := .releaseMessage ⟨7⟩
  messageId := 3
  timestamp := 0

/-- The JSON encoder emits it, and its text decodes to the setup request of another dApp. -/
theorem releaseAsSetup_emitted :
    releaseAsSetup.type ≠ releaseAsSetup.choice.type ∧
    (∃ message, JsonE3.encode Json.utf8Codec releaseAsSetup = .ok message ∧
      JsonE3.decode Json.utf8Codec message.buffer = .ok ⟨.setupRequest, .setupRequest {}, 3, 0⟩) ∧
    ¬(releaseAsSetup.type ≠ releaseAsSetup.choice.type →
      Refused Json.utf8Codec firstReplyAper releaseAsSetup) := by
  have hencode : JsonE3.encode Json.utf8Codec releaseAsSetup =
      .ok ⟨Json.Text.text (JsonE3.encodeRoot releaseAsSetup), .json⟩ := by decide +kernel
  refine ⟨by decide, ⟨_, hencode, by decide +kernel⟩, fun h => ?_⟩
  have hrefused := (h (by decide)).json
  cases hencode.symm.trans hrefused

end LibE3
