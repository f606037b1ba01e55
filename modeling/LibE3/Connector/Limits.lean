import LibE3.Asn1.RoundTrip
import LibE3.Connector.Frame
import LibE3.Connector.Zmq
import LibE3.Json.RoundTrip

/-! The limits on the size of a message.  `types.hpp` bounds the payload of a PDU, `receive` of
`ZmqE3Connector` has a buffer of `DEFAULT_BUFFER_SIZE` octets, and `recv_with_size` of
`PosixE3Connector` rejects what is longer than twice `MAX_PROTOCOL_DATA_SIZE`.  `JsonE3Encoder` writes
two characters for every octet of a payload, and so makes messages that neither receives. -/

namespace LibE3

def MAX_ACTION_DATA_SIZE : Nat := 32768

def MAX_DAPP_REPORT_DATA_SIZE : Nat := 32768

/-- The payload of a PDU that a dApp sends is within its limit. -/
def PduChoice.WithinLimits : PduChoice → Prop
  | .dappControlAction action => action.actionData.length ≤ MAX_ACTION_DATA_SIZE
  | .dappReport report => report.reportData.length ≤ MAX_DAPP_REPORT_DATA_SIZE
  | _ => True

namespace Limits

/-- `octets` are what one of the encoders makes of a PDU.  The JSON library refuses a string that is
not UTF-8. -/
inductive Encoded (codec : JsonCodec) (aper : Asn1.Aper) (pdu : Pdu) (octets : Octets) : Prop
  | json (htext : JsonE3.ValidText pdu.choice) (h : JsonE3.encode codec pdu = .ok ⟨octets, .json⟩)
  | asn1 (h : Asn1.encode aper pdu = .ok ⟨octets, .asn1⟩)

/-- `receive` of `ZmqE3Connector` returns the octets that arrive. -/
def ZmqDelivers (octets : Octets) : Prop :=
  (Zmq.receive (Zmq.setupInboundConnection.arrive octets)).2 = some octets

/-- `send_in_chunks` makes a frame of the octets wherever the system takes them, and `recv_with_size`
returns them, whatever counts its calls return and whatever follows the frame. -/
def PosixDelivers (octets : Octets) : Prop :=
  ∀ sends : Posix.Sends, sends.Takes octets.length →
    ∃ written, Posix.sendInChunks sends octets = some (written, true) ∧
      ∀ (script : Transfer.Script) (later : Octets), script.Willing →
        Posix.recvWithSize script (written ++ later) = some (.message octets, later)

structure Delivered (octets : Octets) : Prop where
  zmq : ZmqDelivers octets
  posix : PosixDelivers octets

/-! ### What each path delivers -/

theorem deliver_eq (octets : Octets) :
    Zmq.deliver octets = octets.take DEFAULT_BUFFER_SIZE ++
      List.replicate (octets.length - DEFAULT_BUFFER_SIZE) 0 := by
  have hsize : octets.length - (octets.take DEFAULT_BUFFER_SIZE).length =
      octets.length - DEFAULT_BUFFER_SIZE := by
    rw [List.length_take]
    omega
  rw [Zmq.deliver, Zmq.resize, hsize, List.take_take, Nat.min_comm, ← List.take_take,
    List.take_length]

theorem take_append_zeros_eq_iff (n : Nat) (octets : Octets) :
    octets.take n ++ List.replicate (octets.length - n) 0 = octets ↔ ∀ x ∈ octets.drop n, x = 0 := by
  have hsplit : octets.take n ++ List.replicate (octets.length - n) 0 = octets ↔
      octets.take n ++ List.replicate (octets.length - n) 0 = octets.take n ++ octets.drop n := by
    rw [List.take_append_drop]
  rw [hsplit, List.append_cancel_left_eq, eq_comm, List.eq_replicate_iff]
  exact and_iff_right List.length_drop

/-- What does not fit in the buffer is replaced by zeros. -/
theorem zmqDelivers_iff (octets : Octets) :
    ZmqDelivers octets ↔ ∀ x ∈ octets.drop DEFAULT_BUFFER_SIZE, x = 0 := by
  have hreceive : ZmqDelivers octets ↔ Zmq.deliver octets = octets := Option.some_inj
  rw [hreceive, deliver_eq]
  exact take_append_zeros_eq_iff _ _

/-- The size check of `recv_with_size` decides. -/
theorem posixDelivers_iff (octets : Octets) : PosixDelivers octets ↔ Posix.Framed octets := by
  constructor
  · intro h
    have haccepting : Posix.Sends.Accepting { header := some 3, body := fun _ => some 0 } :=
      ⟨⟨3, rfl, Nat.le_refl 3⟩, fun _ => rfl⟩
    obtain ⟨written, -, hreceive⟩ := h _ (haccepting.takes _)
    exact Posix.framed_of_recvWithSize (hreceive (fun _ => some 0) [] fun _ => rfl)
  · intro h sends htakes
    refine ⟨_, Posix.sendInChunks_takes htakes, fun script later hscript => ?_⟩
    exact Posix.recvWithSize_frame hscript h later

/-! ### What the encoders make -/

section Encoders

variable {codec : JsonCodec} {aper : Asn1.Aper} {pdu : Pdu} {octets : Octets}

theorem Encoded.ne_nil (h : Encoded codec aper pdu octets) : octets ≠ [] := by
  cases h with
  | json htext h =>
    obtain ⟨text, hdump, hparse⟩ := codec.parse_dump _ (JsonE3.plain_encodeRoot htext)
    simp only [JsonE3.encode, hdump] at h
    cases h
    rintro rfl
    rw [codec.parse_nil] at hparse
    cases hparse
  | asn1 h =>
    unfold Asn1.encode at h
    split at h
    · cases h
    split at h
    · cases h
    · rename_i encoded buffer hencode
      cases h
      exact (aper.decode_encode _ _ _ _ hencode).1

end Encoders

/-- An encoded PDU is delivered by both paths exactly when it has at most 65536 octets and none but
zeros after the first 60000. -/
theorem encoded_delivered_iff (codec : JsonCodec) (aper : Asn1.Aper) (pdu : Pdu) (octets : Octets)
    (hencoded : Encoded codec aper pdu octets) :
    Delivered octets ↔ octets.length ≤ 65536 ∧ ∀ x ∈ octets.drop 60000, x = 0 := by
  have hpos : 1 ≤ octets.length := List.length_pos_iff.mpr hencoded.ne_nil
  constructor
  · intro h
    obtain ⟨-, hle⟩ := (posixDelivers_iff octets).mp h.posix
    exact ⟨hle, (zmqDelivers_iff octets).mp h.zmq⟩
  · rintro ⟨hle, hzero⟩
    exact ⟨(zmqDelivers_iff octets).mpr hzero, (posixDelivers_iff octets).mpr ⟨hpos, hle⟩⟩

/-- A report of one octet is delivered as it is encoded. -/
theorem encoded_delivered_sampleReport :
    Encoded Json.textCodec Asn1.sampleReportAper Asn1.sampleReport
        [0x00, 0x00, 0x70, 0x00, 0x00, 0x00, 0x00, 0xAB] ∧
      Delivered [0x00, 0x00, 0x70, 0x00, 0x00, 0x00, 0x00, 0xAB] := by
  have hencoded : Encoded Json.textCodec Asn1.sampleReportAper Asn1.sampleReport
      [0x00, 0x00, 0x70, 0x00, 0x00, 0x00, 0x00, 0xAB] := .asn1 (by decide +kernel)
  have hiff := encoded_delivered_iff Json.textCodec Asn1.sampleReportAper Asn1.sampleReport _ hencoded
  have hdrop : List.drop 60000 [0x00, 0x00, 0x70, 0x00, 0x00, 0x00, 0x00, (0xAB : UInt8)] = [] :=
    List.drop_of_length_le (by decide)
  refine ⟨hencoded, hiff.mpr ⟨by decide, ?_⟩⟩
  rw [hdrop]
  nofun

/-! ### Reports in JSON -/

open Json.Text (text quoted length_le_escape)

theorem length_binaryToHex (data : Octets) :
    (JsonE3.binaryToHex data).length = 2 * data.length := by
  induction data with
  | nil => rfl
  | cons b data ih =>
    rw [JsonE3.binaryToHex, List.flatMap_cons, List.length_append]
    show 2 + (JsonE3.binaryToHex data).length = _
    rw [ih, List.length_cons]
    omega

/-- The text of a report has two characters for each octet of the payload, and the quotation marks. -/
theorem length_text_report (report : DAppReport) (type : PduType) (messageId : UInt32)
    (timestamp : UInt64) :
    2 * report.reportData.length + 2 ≤
      (text (JsonE3.encodeRoot
        { type, choice := .dappReport report, messageId, timestamp })).length := by
  have hdata : (text (JsonE3.encodeDappReport report)).length ≤
      (text (JsonE3.encodeRoot
        { type, choice := .dappReport report, messageId, timestamp })).length :=
    Json.Text.length_text_le_object (lit "data") (by simp [JsonE3.encodeChoice])
  have hpayload : (text (JsonE3.hex report.reportData)).length ≤
      (text (JsonE3.encodeDappReport report)).length :=
    Json.Text.length_text_le_object (lit "report_data") (by simp)
  have hquoted : 2 * report.reportData.length + 2 ≤
      (text (JsonE3.hex report.reportData)).length := by
    have hescape := length_le_escape (JsonE3.binaryToHex report.reportData)
    rw [length_binaryToHex] at hescape
    simp only [JsonE3.hex, text, quoted, List.length_append, List.length_cons, List.length_nil]
    omega
  omega

/-- A text of more than 60000 octets arrives with its end, a brace, replaced by a zero. -/
theorem not_zmqDelivers_text {ms : List (Octets × Json)}
    (h : DEFAULT_BUFFER_SIZE < (text (.object ms)).length) : ¬ZmqDelivers (text (.object ms)) := by
  obtain ⟨front, hfront⟩ := Json.Text.text_object_ends ms
  rw [hfront, List.length_append, List.length_singleton] at h
  rw [zmqDelivers_iff, hfront, List.drop_append_of_le_length (by omega)]
  intro hzero
  have hbrace := hzero Json.Text.closeObject (List.mem_append_right _ (List.mem_singleton_self _))
  exact absurd hbrace (by decide)

/-- A report with a payload of 32768 octets or more is encoded, and neither path delivers it. -/
theorem report_lost (report : DAppReport) (type : PduType) (messageId : UInt32) (timestamp : UInt64)
    (h : 32768 ≤ report.reportData.length) :
    ∃ octets, JsonE3.encode Json.textCodec
        { type, choice := .dappReport report, messageId, timestamp } = .ok ⟨octets, .json⟩ ∧
      ¬ZmqDelivers octets ∧ ¬PosixDelivers octets := by
  have hlength := length_text_report report type messageId timestamp
  refine ⟨_, rfl, not_zmqDelivers_text ?_, fun hposix => ?_⟩
  · refine Nat.lt_of_lt_of_le ?_ hlength
    unfold DEFAULT_BUFFER_SIZE
    omega
  · have hle := ((posixDelivers_iff _).mp hposix).2
    have hlarge := Nat.le_trans hlength hle
    unfold MAX_PROTOCOL_DATA_SIZE at hlarge
    omega

/-- A report with a payload of the greatest length. -/
def largestReport : Pdu where
  type := .dappReport
  choice := .dappReport ⟨1, 1, List.replicate 32768 0x41⟩
  messageId := 1
  timestamp := 0

theorem largestReport_lost :
    largestReport.choice.WithinLimits ∧
      ∃ octets, JsonE3.encode Json.textCodec largestReport = .ok ⟨octets, .json⟩ ∧
        ¬ZmqDelivers octets ∧ ¬PosixDelivers octets :=
  ⟨List.length_replicate.le, report_lost _ _ _ _ List.length_replicate.ge⟩

end Limits

end LibE3
