import LibE3.Interface.Setup
import LibE3.Lib.Segments
import LibE3.Wire

/-! The inbound link of `PosixE3Connector`: `receive` hands over what one `recv` returned, and
`subscriber_loop` decodes exactly that.  A stream has no message boundaries, and nothing in `receive`
restores them, so the loop gets the PDUs that the peer has written exactly when every `recv` returns
one message. -/

namespace LibE3

/-- What a PDU says, without the time of its making. -/
def Pdu.content (pdu : Pdu) : PduType × PduChoice × UInt32 := (pdu.type, pdu.choice, pdu.messageId)

/-- A PDU of which nothing is lost in its message: a request has no periodicity, and the strings and
payloads are below `2^31` octets. -/
def Pdu.Carried (pdu : Pdu) : Prop :=
  (∀ req, pdu.choice = .subscriptionRequest req → req.periodicity = none) ∧
    ∀ data ∈ pdu.choice.octetFields, data.length < 2 ^ 31

def JsonE3.encoder (codec : JsonCodec) : E3Encoder :=
  ⟨JsonE3.encode codec, fun data _ => JsonE3.decode codec data⟩

/-- What the packed encoding rules say about lengths.  The encoder writes the bits of the encoding of
a value, and a decoder that returns a value has read as many bits as its encoding has, so that its
numbers and strings are no larger than the data; a component that is left out takes no bits. -/
structure Asn1.Aper.Measured (aper : Asn1.Aper) : Prop where
  encoded : ∀ x size encoded buffer, aper.encodeToBuffer x size = some (encoded, buffer) →
    encoded = aper.bits x
  decoded : ∀ data x, aper.decode data = some x → aper.bits x ≤ 8 * data.length
  fits : ∀ data x, aper.decode data = some x → data.length ≤ DEFAULT_BUFFER_SIZE → x.Fits
  leftOut : ∀ x : Asn1.E3Pdu, aper.bits { x with msg := x.msg.reconverted } ≤ aper.bits x

namespace Stream

/-- A round of the loop: no data within the timeout of the poll, or what a `recv` returned, with the
time at which it is decoded. -/
inductive Round
  | idle
  | data (segment : Octets) (now : UInt64)

def Round.segment : Round → Option Octets
  | .idle => none
  | .data segment _ => some segment

/-- What a round decodes; the loop goes on where nothing was received or decoding fails. -/
def Round.decode (encoder : E3Encoder) : Round → Option Pdu
  | .idle => none
  | .data segment now =>
    match encoder.decode segment now with
    | .error _ => none
    | .ok pdu => some pdu

/-- The PDUs that `subscriber_loop` decodes and dispatches. -/
def subscriberLoop (encoder : E3Encoder) (rounds : List Round) : List Pdu :=
  rounds.filterMap (Round.decode encoder)

def segments (rounds : List Round) : List Octets := rounds.filterMap Round.segment

/-- The PDUs that the peer writes, each with its message. -/
abbrev Written := List (Pdu × EncodedMessage)

def Written.messages (written : Written) : List Octets := written.map fun w => w.2.buffer

/-- Every message is what `encode` makes of its PDU. -/
def Written.Encoded (encoder : E3Encoder) (written : Written) : Prop :=
  ∀ w ∈ written, encoder.encode w.1 = .ok w.2

/-- The rounds receive the stream that was written, in segments of any size that `recv` returns. -/
structure Cut (written : Written) (rounds : List Round) : Prop where
  stream : (segments rounds).flatten = written.messages.flatten
  size : ∀ segment ∈ segments rounds, 1 ≤ segment.length ∧ segment.length ≤ DEFAULT_BUFFER_SIZE

/-- The loop decodes exactly the PDUs that were written, each once and in order. -/
def Delivered (encoder : E3Encoder) (written : Written) (rounds : List Round) : Prop :=
  (subscriberLoop encoder rounds).map Pdu.content = written.map fun w => w.1.content

/-- Every `recv` returned one whole message. -/
def Aligned (written : Written) (rounds : List Round) : Prop := segments rounds = written.messages

/-- The decoder gives back the PDU that a message was made from. -/
def Restored (encoder : E3Encoder) (w : Pdu × EncodedMessage) : Prop :=
  ∀ now, ∃ pdu, encoder.decode w.2.buffer now = .ok pdu ∧ pdu.content = w.1.content

/-- Where every `recv` returns one message, the loop gets what the messages decode to. -/
theorem contents_of_aligned {encoder : E3Encoder} {written : Written} {rounds : List Round}
    (haligned : Aligned written rounds)
    {content : Pdu × EncodedMessage → PduType × PduChoice × UInt32}
    (hdecodes : ∀ w ∈ written, ∀ now, ∃ pdu,
      encoder.decode w.2.buffer now = .ok pdu ∧ pdu.content = content w) :
    (subscriberLoop encoder rounds).map Pdu.content = written.map content := by
  unfold Aligned segments Written.messages at haligned
  unfold subscriberLoop
  induction rounds generalizing written with
  | nil =>
    have hwritten : written = [] := by simpa using haligned.symm
    rw [hwritten]
    rfl
  | cons round rounds ih =>
    cases round with
    | idle => exact ih haligned hdecodes
    | data segment now =>
      cases written with
      | nil => simp [Round.segment] at haligned
      | cons w written =>
        obtain ⟨hw, hrest⟩ := List.forall_mem_cons.mp hdecodes
        obtain ⟨pdu, hdecode, hcontent⟩ := hw now
        simp only [Round.segment, List.filterMap_cons, List.map_cons, List.cons.injEq] at haligned
        obtain ⟨hsegment, htail⟩ := haligned
        have hround : Round.decode encoder (.data segment now) = some pdu := by
          simp only [Round.decode, hsegment, hdecode]
        rw [List.filterMap_cons, hround, List.map_cons, List.map_cons, hcontent, ih htail hrest]

theorem delivered_of_aligned {encoder : E3Encoder} {written : Written} {rounds : List Round}
    (haligned : Aligned written rounds) (hrestored : ∀ w ∈ written, Restored encoder w) :
    Delivered encoder written rounds := contents_of_aligned haligned hrestored

/-- A loop that gets what the peer has written from whole messages, each of which decodes to the same
at any time, has a decoder that restores them. -/
theorem restored_of_delivered {encoder : E3Encoder} {written : Written} {rounds : List Round}
    (haligned : Aligned written rounds) (hdelivered : Delivered encoder written rounds)
    {content : Pdu × EncodedMessage → PduType × PduChoice × UInt32}
    (hdecodes : ∀ w ∈ written, ∀ now, ∃ pdu,
      encoder.decode w.2.buffer now = .ok pdu ∧ pdu.content = content w) :
    ∀ w ∈ written, Restored encoder w := by
  have hcontents := contents_of_aligned haligned hdecodes
  have hsame : ∀ w ∈ written, content w = w.1.content :=
    List.map_inj_left.mp (hcontents.symm.trans hdelivered)
  intro w hw now
  obtain ⟨pdu, hdecode, hcontent⟩ := hdecodes w hw now
  exact ⟨pdu, hdecode, hcontent.trans (hsame w hw)⟩

/-! ### ASN.1 -/

section Asn1

variable {aper : Asn1.Aper} {pdu : Pdu} {message : EncodedMessage}

theorem pduToAsn1_of_encode (hencode : Asn1.encode aper pdu = .ok message) :
    ∃ x, Asn1.pduToAsn1 aper pdu = some x := by
  cases hx : Asn1.pduToAsn1 aper pdu with
  | none => simp [Asn1.encode, hx] at hencode
  | some x => exact ⟨x, rfl⟩

theorem length_le_of_encode (h : aper.Measured) {x : Asn1.E3Pdu}
    (hx : Asn1.pduToAsn1 aper pdu = some x) (hencode : Asn1.encode aper pdu = .ok message) :
    message.buffer.length ≤ (aper.bits x + 7) / 8 := by
  simp only [Asn1.encode, hx] at hencode
  split at hencode
  · cases hencode
  · rename_i encoded buffer henc
    cases hencode
    rw [h.encoded x _ _ _ henc]
    exact List.length_take_le _ _

/-- The structure that a PDU is converted to depends on what it says only. -/
theorem pduToAsn1_congr {pdu' : Pdu} (h : pdu'.content = pdu.content) :
    Asn1.pduToAsn1 aper pdu' = Asn1.pduToAsn1 aper pdu := by
  obtain ⟨htype, hchoice, hid⟩ : pdu'.type = pdu.type ∧ pdu'.choice = pdu.choice ∧
      pdu'.messageId = pdu.messageId := by simpa [Pdu.content] using h
  unfold Asn1.pduToAsn1
  rw [htype, hchoice, hid]

theorem decode_ok {segment : Octets} {now : UInt64}
    (h : Asn1.decode aper segment now = .ok pdu) :
    ∃ x, aper.decode segment = some x ∧ pdu = Asn1.asn1ToPdu x now := by
  unfold Asn1.decode at h
  split at h
  · cases h
  split at h
  · cases h
  · rename_i x hx
    cases h
    exact ⟨x, hx, rfl⟩

/-- Data that decodes to what a PDU says is no shorter than the message of the PDU. -/
theorem message_length_le (h : aper.Measured) (hencode : Asn1.encode aper pdu = .ok message)
    {segment : Octets} (hsize : segment.length ≤ DEFAULT_BUFFER_SIZE) {now : UInt64} {pdu' : Pdu}
    (hdecode : Asn1.decode aper segment now = .ok pdu') (hcontent : pdu'.content = pdu.content) :
    message.buffer.length ≤ segment.length := by
  obtain ⟨x, hx⟩ := pduToAsn1_of_encode hencode
  obtain ⟨y, hy, rfl⟩ := decode_ok hdecode
  have hmessage := length_le_of_encode h hx hencode
  have hback := Asn1.pduToAsn1_asn1ToPdu aper (h.fits segment y hy hsize) now
  rw [pduToAsn1_congr hcontent, hx] at hback
  have hbits : aper.bits x ≤ aper.bits y := by
    rw [Option.some.inj hback]
    exact h.leftOut y
  have hdata := h.decoded segment y hy
  omega

theorem type_of_choiceToAsn1 {type : PduType} {choice : PduChoice} {msg : Asn1.E3Msg}
    (h : Asn1.choiceToAsn1 aper type choice = some msg) : type = choice.type := by
  cases type <;> cases choice <;> first | rfl | cases h

theorem short_octetFields {msg : Asn1.E3Msg} (hfits : msg.Fits) :
    ∀ data ∈ (Asn1.choiceOfAsn1 msg).octetFields, data.length < 2 ^ 31 := by
  intro data hdata
  cases msg with
  | setupRequest m =>
    obtain ⟨hversion, hname, hdapp, hvendor⟩ := hfits
    simp only [Asn1.choiceOfAsn1, PduChoice.octetFields, List.mem_cons, List.not_mem_nil,
      or_false] at hdata
    rcases hdata with rfl | rfl | rfl | rfl
    · exact hversion
    · exact hname
    · exact hdapp
    · exact hvendor
  | setupResponse m =>
    obtain ⟨-, -, hran, hversion, -, hlist⟩ := hfits
    simp only [Asn1.choiceOfAsn1, Asn1.setupResponseOfAsn1, PduChoice.octetFields, List.cons_append,
      List.mem_cons, List.mem_append, List.mem_map, Option.mem_toList] at hdata
    rcases hdata with rfl | hdata | ⟨_, ⟨func, hfunc, rfl⟩, rfl⟩
    · exact hran
    · exact hversion data hdata
    · cases hsome : m.ranFunctionList with
      | none => simp [hsome] at hfunc
      | some l =>
        rw [hsome] at hfunc
        exact (hlist l hsome func hfunc).ranFunctionData
  | _ => simp_all [Asn1.choiceOfAsn1, PduChoice.octetFields, Asn1.E3Msg.Fits, Asn1.isShort]

/-- What comes back of a structure within bounds is within bounds, and has no periodicity. -/
theorem carried_asn1ToPdu {x : Asn1.E3Pdu} (hfits : x.Fits) (now : UInt64) :
    (Asn1.asn1ToPdu x now).Carried := by
  refine ⟨?_, short_octetFields hfits.2⟩
  intro req hreq
  simp only [Asn1.asn1ToPdu] at hreq
  generalize x.msg = msg at hreq
  cases msg <;> cases hreq
  rfl

theorem content_asn1ToPdu {x : Asn1.E3Pdu} (hx : Asn1.pduToAsn1 aper pdu = some x)
    (hcarried : pdu.Carried) (now : UInt64) : (Asn1.asn1ToPdu x now).content = pdu.content := by
  obtain ⟨hperiodicity, hshort⟩ := hcarried
  have htag : pdu.type = pdu.choice.type := by
    obtain ⟨msg, hmsg, -⟩ := Option.map_eq_some_iff.mp hx
    exact type_of_choiceToAsn1 hmsg
  by_cases hkind : pdu.type = .subscriptionRequest
  · obtain ⟨type, choice, messageId, timestamp⟩ := pdu
    cases hkind
    cases choice with
    | subscriptionRequest req =>
      obtain ⟨y, hy, hback⟩ := Asn1.asn1ToPdu_requestPdu aper messageId timestamp req
      cases hx.symm.trans hy
      rw [hback, SubscriptionRequest.withoutPeriodicity_eq_self.mpr (hperiodicity req rfl)]
      rfl
    | _ => cases htag
  · obtain ⟨y, hy, hback⟩ := Asn1.asn1ToPdu_pduToAsn1 htag hkind hshort
    cases hx.symm.trans hy
    rw [hback]
    rfl

/-- A message is what the structure of its PDU decodes from. -/
theorem decode_content (hencode : Asn1.encode aper pdu = .ok message) :
    ∃ x, Asn1.pduToAsn1 aper pdu = some x ∧
      ∀ now, Asn1.decode aper message.buffer now = .ok (Asn1.asn1ToPdu x now) := by
  obtain ⟨x, hx⟩ := pduToAsn1_of_encode hencode
  exact ⟨x, hx, Asn1.decode_of_encode hx hencode⟩

/-- What the message of a PDU says, where it has one. -/
def reread (aper : Asn1.Aper) (w : Pdu × EncodedMessage) : PduType × PduChoice × UInt32 :=
  (Asn1.pduToAsn1 aper w.1).elim w.1.content fun x => (Asn1.asn1ToPdu x 0).content

theorem restored_of_carried (hencode : Asn1.encode aper pdu = .ok message)
    (hcarried : pdu.Carried) : Restored (Asn1.encoder aper) (pdu, message) := by
  intro now
  obtain ⟨x, hx, hdecode⟩ := decode_content hencode
  exact ⟨_, hdecode now, content_asn1ToPdu hx hcarried now⟩

theorem carried_of_restored (h : aper.Measured)
    (hsize : message.buffer.length ≤ DEFAULT_BUFFER_SIZE)
    (hrestored : Restored (Asn1.encoder aper) (pdu, message)) : pdu.Carried := by
  obtain ⟨pdu', hdecode, hcontent⟩ := hrestored 0
  obtain ⟨x, hx, rfl⟩ := decode_ok hdecode
  have hcarried := carried_asn1ToPdu (h.fits message.buffer x hx hsize) 0
  obtain ⟨-, hchoice, -⟩ : _ = pdu.type ∧ _ = pdu.choice ∧ _ = pdu.messageId := by
    simpa [Pdu.content] using hcontent
  unfold Pdu.Carried at hcarried
  rwa [hchoice] at hcarried

end Asn1

/-- The rounds with data. -/
def received (rounds : List Round) : List (Octets × UInt64) :=
  rounds.filterMap fun
    | .idle => none
    | .data segment now => some (segment, now)

/-- What a segment is decoded to. -/
def read (encoder : E3Encoder) (p : Octets × UInt64) : Option (PduType × PduChoice × UInt32) :=
  (Round.decode encoder (.data p.1 p.2)).map Pdu.content

theorem received_segments (rounds : List Round) :
    (received rounds).map Prod.fst = segments rounds := by
  unfold received segments
  rw [List.map_filterMap]
  congr 1
  funext round
  cases round <;> rfl

theorem received_read (encoder : E3Encoder) (rounds : List Round) :
    (received rounds).filterMap (read encoder) =
      (subscriberLoop encoder rounds).map Pdu.content := by
  unfold received subscriberLoop
  rw [List.filterMap_filterMap, List.map_filterMap]
  congr 1
  funext round
  cases round <;> rfl

/-- The segments of a run of rounds that decodes to the PDUs that were written are their messages. -/
theorem aligned_of_delivered {aper : Asn1.Aper} (h : aper.Measured) {written : Written}
    {rounds : List Round} (hencoded : written.Encoded (Asn1.encoder aper))
    (hcut : Cut written rounds) (hdelivered : Delivered (Asn1.encoder aper) written rounds) :
    Aligned written rounds := by
  have hmem : ∀ p ∈ received rounds, p.1 ∈ segments rounds := by
    intro p hp
    rw [← received_segments]
    exact List.mem_map_of_mem hp
  have hread : (received rounds).filterMap (read (Asn1.encoder aper)) =
      written.map fun w => w.1.content := by
    rw [received_read]
    exact hdelivered
  unfold Aligned Written.messages
  rw [← received_segments]
  refine Segments.eq_of_filterMap ?_ ?_ hread ?_
  · rw [received_segments]
    exact hcut.stream
  · intro p hp hnil
    have hsize := (hcut.size p.1 (hmem p hp)).1
    rw [hnil] at hsize
    exact absurd hsize (by simp)
  · intro p hp w hw hvalue
    obtain ⟨pdu, hdecode, hcontent⟩ := Option.map_eq_some_iff.mp hvalue
    simp only [Round.decode] at hdecode
    split at hdecode
    · cases hdecode
    · rename_i pdu' hok
      cases hdecode
      exact message_length_le h (hencoded w hw) (hcut.size p.1 (hmem p hp)).2 hok hcontent

/-- With ASN.1, the loop gets what the peer has written if and only if every `recv` returned one
message and nothing is lost in a message. -/
theorem delivered_iff {aper : Asn1.Aper} (h : aper.Measured) {written : Written}
    {rounds : List Round} (hencoded : written.Encoded (Asn1.encoder aper))
    (hcut : Cut written rounds) :
    Delivered (Asn1.encoder aper) written rounds ↔
      Aligned written rounds ∧ ∀ w ∈ written, w.1.Carried := by
  constructor
  · intro hdelivered
    have haligned := aligned_of_delivered h hencoded hcut hdelivered
    have hdecodes : ∀ w ∈ written, ∀ now, ∃ pdu,
        (Asn1.encoder aper).decode w.2.buffer now = .ok pdu ∧ pdu.content = reread aper w := by
      intro w hw now
      obtain ⟨x, hx, hdecode⟩ := decode_content (hencoded w hw)
      refine ⟨_, hdecode now, ?_⟩
      rw [reread, hx]
      rfl
    have hrestored := restored_of_delivered haligned hdelivered hdecodes
    refine ⟨haligned, fun w hw => carried_of_restored h ?_ (hrestored w hw)⟩
    -- an aligned message is one of the segments, and so fits in the buffer of `receive`
    have hsegment : w.2.buffer ∈ segments rounds := by
      rw [haligned]
      exact List.mem_map_of_mem hw
    exact (hcut.size _ hsegment).2
  · rintro ⟨haligned, hcarried⟩
    exact delivered_of_aligned haligned fun w hw =>
      restored_of_carried (hencoded w hw) (hcarried w hw)

/-! ### JSON -/

/-- A PDU that is the same after its text. -/
structure Textual (pdu : Pdu) : Prop where
  tag : pdu.type = pdu.choice.type
  periodicity : ∀ req, pdu.choice = .subscriptionRequest req → req.periodicity = none
  text : JsonE3.ValidText pdu.choice

theorem restored_of_textual {codec : JsonCodec} {pdu : Pdu} {message : EncodedMessage}
    (hencode : JsonE3.encode codec pdu = .ok message) (h : Textual pdu) :
    Restored (JsonE3.encoder codec) (pdu, message) := by
  obtain ⟨message', hencode', hdecode⟩ :=
    JsonE3.decode_encode_whole codec pdu h.tag h.periodicity h.text
  cases hencode.symm.trans hencode'
  exact fun _ => ⟨pdu, hdecode, rfl⟩

/-- A PDU is read from an object. -/
theorem object_of_decodeRoot {root : Json} {pdu : Pdu} (h : JsonE3.decodeRoot root = some pdu) :
    ∃ members, root = .object members := by
  cases root with
  | object members => exact ⟨members, rfl⟩
  | _ => cases h

/-- The stream octet by octet. -/
def octetwise (written : Written) : List Round :=
  written.messages.flatten.map fun octet => .data [octet] 0

theorem segments_octetwise (written : Written) :
    segments (octetwise written) = written.messages.flatten.map fun octet => [octet] := by
  unfold segments octetwise
  generalize written.messages.flatten = stream
  induction stream with
  | nil => rfl
  | cons octet stream ih =>
    rw [List.map_cons, List.map_cons, List.filterMap_cons, ih]
    rfl

theorem cut_octetwise (written : Written) : Cut written (octetwise written) := by
  constructor
  · rw [segments_octetwise]
    generalize written.messages.flatten = stream
    induction stream with
    | nil => rfl
    | cons octet stream ih => rw [List.map_cons, List.flatten_cons, ih, List.singleton_append]
  · intro segment hsegment
    rw [segments_octetwise] at hsegment
    obtain ⟨octet, -, rfl⟩ := List.mem_map.mp hsegment
    exact ⟨Nat.le_refl 1, Nat.succ_le_of_lt (by decide : 0 < DEFAULT_BUFFER_SIZE)⟩

/-- A text is more than one octet, so a stream that arrives octet by octet is lost whole. -/
theorem octetwise_lost {codec : JsonCodec}
    (hoctet : ∀ octet members, codec.parse [octet] ≠ some (.object members)) (written : Written) :
    subscriberLoop (JsonE3.encoder codec) (octetwise written) = [] := by
  unfold subscriberLoop octetwise
  rw [List.filterMap_eq_nil_iff]
  intro round hround
  obtain ⟨octet, -, rfl⟩ := List.mem_map.mp hround
  have hnone : (codec.parse [octet]).bind JsonE3.decodeRoot = none := by
    cases hparse : codec.parse [octet] with
    | none => rfl
    | some root =>
      rw [Option.bind_some]
      cases hroot : JsonE3.decodeRoot root with
      | none => rfl
      | some pdu =>
        obtain ⟨members, rfl⟩ := object_of_decodeRoot hroot
        exact absurd hparse (hoctet octet members)
  simp [Round.decode, JsonE3.encoder, JsonE3.decode, hnone]

/-! ### Message boundaries -/

/-- A segment gives at most one PDU. -/
theorem length_subscriberLoop_le (encoder : E3Encoder) (rounds : List Round) :
    (subscriberLoop encoder rounds).length ≤ (segments rounds).length := by
  have hlength := List.length_filterMap_le (read encoder) (received rounds)
  rw [received_read, List.length_map] at hlength
  rwa [← received_segments, List.length_map]

/-- The loop gets the PDUs that were written where every `recv` returns one message and the PDUs are
the same after their messages.  With ASN.1 it gets them in no other case.  With any encoder there are
at least as many segments as messages, and with JSON every stream has a segmentation that loses all of
it. -/
theorem boundaries_kept_iff (aper : Asn1.Aper) (codec : JsonCodec) (encoder : E3Encoder)
    (written : Written) (rounds : List Round) :
    (aper.Measured → written.Encoded (Asn1.encoder aper) → Cut written rounds →
      (Delivered (Asn1.encoder aper) written rounds ↔
        Aligned written rounds ∧ ∀ w ∈ written, w.1.Carried)) ∧
    (written.Encoded (JsonE3.encoder codec) → (∀ w ∈ written, Textual w.1) →
      Aligned written rounds → Delivered (JsonE3.encoder codec) written rounds) ∧
    (Delivered encoder written rounds → written.length ≤ (segments rounds).length) ∧
    ((∀ octet members, codec.parse [octet] ≠ some (.object members)) → written ≠ [] →
      ∃ rounds, Cut written rounds ∧ ¬Delivered (JsonE3.encoder codec) written rounds) := by
  refine ⟨fun h hencoded hcut => delivered_iff h hencoded hcut, ?_, ?_, ?_⟩
  · intro hencoded htextual haligned
    exact delivered_of_aligned haligned fun w hw =>
      restored_of_textual (hencoded w hw) (htextual w hw)
  · intro hdelivered
    have hlength := length_subscriberLoop_le encoder rounds
    rwa [← List.length_map, hdelivered, List.length_map] at hlength
  · intro hoctet hwritten
    refine ⟨octetwise written, cut_octetwise written, fun hdelivered => ?_⟩
    unfold Delivered at hdelivered
    rw [octetwise_lost hoctet, List.map_nil] at hdelivered
    exact hwritten (List.map_eq_nil_iff.mp hdelivered.symm)

end Stream

namespace Asn1

/-! ### A codec with lengths -/

/-- What comes back of a value of the schema. -/
def E3Pdu.reconverted (x : E3Pdu) : E3Pdu := { x with msg := x.msg.reconverted }

theorem E3Pdu.reconverted_reconverted (x : E3Pdu) : x.reconverted.reconverted = x.reconverted := by
  obtain ⟨id, msg⟩ := x
  cases msg with
  | setupResponse m => simp [reconverted, E3Msg.reconverted, E3Msg.carried]
  | _ => rfl

open Classical in
/-- A number for the values that differ from what comes back of them, or do not fit in the generic
types. -/
noncomputable def rank (x : E3Pdu) : Nat :=
  if x = x.reconverted then if x.Fits then 0 else DEFAULT_BUFFER_SIZE
  else Encodable.encode x + DEFAULT_BUFFER_SIZE + 1

/-- The number of a value, which is no larger for what comes back of it. -/
noncomputable def order (x : E3Pdu) : Nat := Nat.pair (Encodable.encode x.reconverted) (rank x)

theorem rank_le {x : E3Pdu} (hx : x = x.reconverted) : rank x ≤ DEFAULT_BUFFER_SIZE := by
  unfold rank
  rw [if_pos hx]
  split <;> omega

theorem rank_eq {x : E3Pdu} (hx : x ≠ x.reconverted) :
    rank x = Encodable.encode x + DEFAULT_BUFFER_SIZE + 1 := if_neg hx

theorem order_injective {x y : E3Pdu} (h : order x = order y) : x = y := by
  obtain ⟨hback, hrank⟩ := Nat.pair_eq_pair.mp h
  by_cases hx : x = x.reconverted
  · have hle := rank_le hx
    by_cases hy : y = y.reconverted
    · rw [hx, hy, Encodable.encode_injective hback]
    · rw [hrank, rank_eq hy] at hle
      omega
  · rw [rank_eq hx] at hrank
    by_cases hy : y = y.reconverted
    · have hle := rank_le hy
      omega
    · rw [rank_eq hy] at hrank
      exact Encodable.encode_injective (by omega)

theorem order_reconverted_le (x : E3Pdu) : order x.reconverted ≤ order x := by
  by_cases hx : x = x.reconverted
  · rw [← hx]
  · have hle := rank_le x.reconverted_reconverted.symm
    have hrank : rank x.reconverted < rank x := by
      rw [rank_eq hx]
      omega
    unfold order
    rw [x.reconverted_reconverted]
    exact (Nat.pair_lt_pair_right _ hrank).le

theorem fits_of_order_lt {x : E3Pdu} (h : order x < DEFAULT_BUFFER_SIZE) : x.Fits := by
  have hrank : rank x < DEFAULT_BUFFER_SIZE := lt_of_le_of_lt (Nat.right_le_pair _ _) h
  unfold rank at hrank
  split at hrank
  · split at hrank
    · assumption
    · omega
  · omega

def sampleValue : E3Pdu := ⟨1, .dAppReport ⟨1, 1, [0xAB]⟩⟩

def sampleOctets : Octets := [0x00, 0x00, 0x70, 0x00, 0x00, 0x00, 0x00, 0xAB]

/-- The octets of a value: those of the packed encoding for the sample, and as many as the number of
the value for any other. -/
noncomputable def octets (x : E3Pdu) : Octets :=
  if x = sampleValue then sampleOctets else 255 :: List.replicate (order x) 0

theorem octets_injective {x y : E3Pdu} (h : octets x = octets y) : x = y := by
  unfold octets at h
  split at h <;> split at h
  · simp_all
  · cases h
  · cases h
  · apply order_injective
    simpa using congrArg List.length h

theorem octets_reconverted_le (x : E3Pdu) :
    (octets x.reconverted).length ≤ (octets x).length := by
  have hsample : x.reconverted = sampleValue ↔ x = sampleValue := by
    obtain ⟨id, msg⟩ := x
    cases msg <;> simp [E3Pdu.reconverted, sampleValue, E3Msg.reconverted, E3Msg.carried]
  unfold octets
  simp only [hsample]
  split
  · exact Nat.le_refl _
  · simpa using order_reconverted_le x

theorem octets_ne_nil (x : E3Pdu) : octets x ≠ [] := by
  unfold octets
  split <;> exact List.cons_ne_nil _ _

open Classical in
/-- A codec whose octets are those of `octets`. -/
noncomputable def measuredAper : Aper where
  octetStringFromBuf := id
  octetStringFromBuf_of_short := id_of_short
  bits x := 8 * (octets x).length
  encodeToBuffer x size :=
    if x.conforms = false ∨ 8 * size < 8 * (octets x).length then none
    else some (8 * (octets x).length, octets x)
  decode data := if h : ∃ x, octets x = data then some h.choose else none
  encode_eq_none x size := by simp only [ite_eq_left_iff, reduceCtorEq, imp_false, not_not]
  decode_encode x size encoded buffer h := by
    split at h
    · cases h
    · cases h
      have hoctets : ∃ y, octets y = octets x := ⟨x, rfl⟩
      rw [List.take_of_length_le (by omega), dif_pos hoctets, octets_injective hoctets.choose_spec]
      exact ⟨octets_ne_nil x, rfl⟩

theorem octets_of_decode {data : Octets} {x : E3Pdu} (h : measuredAper.decode data = some x) :
    octets x = data := by
  simp only [measuredAper] at h
  split at h
  · rename_i hoctets
    cases h
    exact hoctets.choose_spec
  · cases h

theorem measured_measuredAper : measuredAper.Measured where
  encoded x size encoded buffer h := by
    simp only [measuredAper] at h
    split at h
    · cases h
    · cases h
      rfl
  decoded data x h := by
    rw [← octets_of_decode h]
    exact Nat.le_refl _
  fits data x h hsize := by
    rw [← octets_of_decode h] at hsize
    unfold octets at hsize
    split at hsize
    · rename_i hx
      rw [hx]
      exact ⟨⟨by decide, by decide⟩, ⟨by decide, by decide⟩, ⟨by decide, by decide⟩,
        (by decide : [0xAB].length < 2 ^ 31)⟩
    · rw [List.length_cons, List.length_replicate] at hsize
      exact fits_of_order_lt hsize
  leftOut x := Nat.mul_le_mul_left 8 (octets_reconverted_le x)

end Asn1

namespace Stream

/-- Two reports, with their messages. -/
def twoReports : Written :=
  [(Asn1.sampleReport, ⟨Asn1.sampleOctets, .asn1⟩),
    (Asn1.sampleReport, ⟨Asn1.sampleOctets, .asn1⟩)]

theorem encoded_twoReports {encoder : E3Encoder}
    (hencode : encoder.encode Asn1.sampleReport = .ok ⟨Asn1.sampleOctets, .asn1⟩) :
    twoReports.Encoded encoder := by
  intro w hw
  have hw : w = (Asn1.sampleReport, ⟨Asn1.sampleOctets, .asn1⟩) := by simpa [twoReports] using hw
  rw [hw]
  exact hencode

theorem encode_sampleReport : Asn1.encode Asn1.measuredAper Asn1.sampleReport =
    .ok ⟨Asn1.sampleOctets, .asn1⟩ := by
  have hx : Asn1.pduToAsn1 Asn1.measuredAper Asn1.sampleReport = some Asn1.sampleValue := by decide +kernel
  have hoctets : Asn1.octets Asn1.sampleValue = Asn1.sampleOctets := if_pos rfl
  have hfits : ¬(Asn1.sampleValue.conforms = false ∨
      8 * Asn1.BUFFER_SIZE < 8 * Asn1.sampleOctets.length) := by decide
  have hbuffer : Asn1.measuredAper.encodeToBuffer Asn1.sampleValue Asn1.BUFFER_SIZE =
      some (8 * Asn1.sampleOctets.length, Asn1.sampleOctets) := by
    simp only [Asn1.measuredAper, hoctets]
    rw [if_neg hfits]
  simp only [Asn1.encode, hx, hbuffer]
  rfl

/-- One octet is no object. -/
theorem textCodec_octet (octet : UInt8) (members : List (List UInt8 × Json)) :
    Json.textCodec.parse [octet] ≠ some (.object members) := by
  intro h
  have hvalue : ∃ rest, Json.Text.parseValue 2 [octet] = some (.object members, rest) := by
    have hparse : Json.Text.parse [octet] = some (.object members) := h
    unfold Json.Text.parse at hparse
    split at hparse
    · rename_i v hv
      cases hparse
      exact ⟨[], hv⟩
    · cases hparse
  obtain ⟨rest, hrest⟩ := hvalue
  simp only [Json.Text.parseValue, List.head?_nil, reduceCtorEq, if_false, Option.bind_none,
    Json.Text.parseKey, Json.Text.parseString] at hrest
  split at hrest
  · simp at hrest
  split at hrest
  · cases hrest
  split at hrest
  · cases hrest
  split at hrest
  · unfold Json.Text.parseNumber at hrest
    simp only at hrest
    split at hrest <;> simp at hrest
  · cases hrest
/-- Each report in a segment of its own. -/
def separate : List Round := [.data Asn1.sampleOctets 0, .idle, .data Asn1.sampleOctets 7]

theorem boundaries_kept_separate :
    (Asn1.measuredAper.Measured ∧ twoReports.Encoded (Asn1.encoder Asn1.measuredAper) ∧
      Cut twoReports separate ∧
      Delivered (Asn1.encoder Asn1.measuredAper) twoReports separate) ∧
    ∃ message, Written.Encoded (JsonE3.encoder Json.textCodec) [(Asn1.sampleReport, message)] ∧
      Delivered (JsonE3.encoder Json.textCodec) [(Asn1.sampleReport, message)]
        [.data message.buffer 0] ∧
      ∃ rounds, Cut [(Asn1.sampleReport, message)] rounds ∧
        ¬Delivered (JsonE3.encoder Json.textCodec) [(Asn1.sampleReport, message)] rounds := by
  constructor
  · have hencoded : twoReports.Encoded (Asn1.encoder Asn1.measuredAper) :=
      encoded_twoReports encode_sampleReport
    have hcut : Cut twoReports separate := ⟨rfl, by decide⟩
    have hcarried : ∀ w ∈ twoReports, w.1.Carried := by
      intro w hw
      have hw : w.1 = Asn1.sampleReport := by
        simp only [twoReports, List.mem_cons, List.not_mem_nil, or_false, or_self] at hw
        rw [hw]
      rw [hw]
      exact ⟨nofun, by decide⟩
    have hiff := (boundaries_kept_iff Asn1.measuredAper Json.textCodec
      (Asn1.encoder Asn1.measuredAper) twoReports separate).1
      Asn1.measured_measuredAper hencoded hcut
    exact ⟨Asn1.measured_measuredAper, hencoded, hcut, hiff.mpr ⟨rfl, hcarried⟩⟩
  · have htextual : Textual Asn1.sampleReport := ⟨rfl, nofun, trivial⟩
    obtain ⟨message, hencode, -⟩ := JsonE3.decode_encode_whole Json.textCodec Asn1.sampleReport
      htextual.tag htextual.periodicity htextual.text
    have hencoded : Written.Encoded (JsonE3.encoder Json.textCodec) [(Asn1.sampleReport, message)] :=
      List.forall_mem_singleton.mpr hencode
    obtain ⟨-, haligned, -, hoctets⟩ := boundaries_kept_iff Asn1.measuredAper Json.textCodec
      (JsonE3.encoder Json.textCodec) [(Asn1.sampleReport, message)] [.data message.buffer 0]
    exact ⟨message, hencoded, haligned hencoded (List.forall_mem_singleton.mpr htextual) rfl,
      hoctets textCodec_octet (List.cons_ne_nil _ _)⟩

/-- Both reports in one segment. -/
def coalesced : List Round := [.data (Asn1.sampleOctets ++ Asn1.sampleOctets) 0]

/-- At most one of them is decoded. -/
theorem coalesced_lost :
    twoReports.Encoded (Asn1.encoder Asn1.sampleReportAper) ∧ Cut twoReports coalesced ∧
    ¬Delivered (Asn1.encoder Asn1.sampleReportAper) twoReports coalesced := by
  refine ⟨encoded_twoReports (by decide +kernel), ⟨rfl, by decide⟩, fun hdelivered => ?_⟩
  have hlength := length_subscriberLoop_le (Asn1.encoder Asn1.sampleReportAper) coalesced
  rw [← List.length_map, hdelivered] at hlength
  exact absurd hlength (by decide)

end Stream

end LibE3
