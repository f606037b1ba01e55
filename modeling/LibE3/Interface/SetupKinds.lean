import LibE3.Interface.SetupQueue
import LibE3.Json.Documents

/-! The kinds of message that `JsonE3Encoder::decode` accepts.  `decode` refuses an unknown kind in the
last branch of its `switch`, but `string_to_pdu_type` has no value for one: it takes every other name,
and a missing one, for a setup request, and `setup_loop` registers a dApp for it. -/

namespace LibE3

namespace JsonE3

/-! ### Documents without a known kind -/

/-- The document names the kind of a PDU. -/
def Names (root : Json) (type : PduType) : Prop :=
  member root "pdu_type" = some (.string (lit (pduTypeToString type)))

/-- The document names no kind, or one that is none of the eleven. -/
def Unnamed (root : Json) : Prop :=
  member root "pdu_type" = none ∨
    ∃ name, member root "pdu_type" = some (.string name) ∧
      ∀ type, name ≠ lit (pduTypeToString type)

/-- A value that converts to an unsigned integer. -/
def numeric : Json → Bool
  | .unsigned _ => true
  | .integer _ => true
  | .float _ _ => true
  | .bool _ => true
  | _ => false

/-- A member, where it is there, is numeric. -/
def NumericIn (j : Json) (key : String) : Prop :=
  ∀ v, member j key = some v → numeric v = true

/-- A member, where it is there, is a string. -/
def StringIn (j : Json) (key : String) : Prop :=
  ∀ v, member j key = some v → ∃ s, v = .string s

/-- The members of a document can be those of a setup request, whatever its kind. -/
structure SetupShaped (root : Json) : Prop where
  messageId : NumericIn root "message_id"
  timestamp : NumericIn root "timestamp"
  data : ∃ members, member root "data" = some (.object members) ∧
    StringIn (.object members) "e3ap_protocol_version" ∧ StringIn (.object members) "dapp_name" ∧
    StringIn (.object members) "dapp_version" ∧ StringIn (.object members) "vendor"

/-! ### What the helpers accept -/

theorem isSome_getUint32 (v : Json) : (getUint32 v).isSome = numeric v := by
  cases v <;> rfl

theorem isSome_getUint64 (v : Json) : (getUint64 v).isSome = numeric v := by
  cases v <;> rfl

theorem isSome_getString {v : Json} : (getString v).isSome = true ↔ ∃ s, v = .string s := by
  cases v <;> simp [getString]

section Members

variable {members : List (List UInt8 × Json)} {key : String}

/-- A member is read from an object where its default stands in for it or its type fits. -/
theorem isSome_value_iff {α : Type} {get : Json → Option α} {default : α} :
    (value get (.object members) key default).isSome = true ↔
      ∀ v, member (.object members) key = some v → (get v).isSome = true := by
  simp only [value, member]
  cases Json.findMember (lit key) members <;> simp

theorem isSome_value_uint32 :
    (value getUint32 (.object members) key 0).isSome = true ↔ NumericIn (.object members) key := by
  simp only [isSome_value_iff, isSome_getUint32, NumericIn]

theorem isSome_value_uint64 :
    (value getUint64 (.object members) key 0).isSome = true ↔ NumericIn (.object members) key := by
  simp only [isSome_value_iff, isSome_getUint64, NumericIn]

theorem isSome_value_string :
    (value getString (.object members) key []).isSome = true ↔ StringIn (.object members) key := by
  simp only [isSome_value_iff, isSome_getString, StringIn]

end Members

/-- A setup request is read from every object whose four members are strings. -/
theorem isSome_decodeSetupRequest (j : Json) :
    (decodeSetupRequest j).isSome = true ↔
      ∃ members, j = .object members ∧ StringIn j "e3ap_protocol_version" ∧ StringIn j "dapp_name" ∧
        StringIn j "dapp_version" ∧ StringIn j "vendor" := by
  cases j with
  | object members =>
    simp only [← isSome_value_string, Json.object.injEq, exists_eq_left', decodeSetupRequest]
    cases value getString (.object members) "e3ap_protocol_version" [] with
    | none => simp
    | some version =>
      cases value getString (.object members) "dapp_name" [] with
      | none => simp
      | some name =>
        cases value getString (.object members) "dapp_version" [] with
        | none => simp
        | some dapp => cases value getString (.object members) "vendor" [] <;> simp
  | _ => simp [decodeSetupRequest, value]

/-- A name that is none of the eleven is taken for the first of them. -/
theorem stringToPduType_default {name : Octets} (h : ∀ type, name ≠ lit (pduTypeToString type)) :
    stringToPduType name = .setupRequest :=
  (if_neg (h .setupRequest)).trans <| (if_neg (h .setupResponse)).trans <|
    (if_neg (h .subscriptionRequest)).trans <| (if_neg (h .subscriptionDelete)).trans <|
    (if_neg (h .subscriptionResponse)).trans <| (if_neg (h .indicationMessage)).trans <|
    (if_neg (h .dappControlAction)).trans <| (if_neg (h .dappReport)).trans <|
    (if_neg (h .xappControlAction)).trans <| (if_neg (h .releaseMessage)).trans <|
    if_neg (h .messageAck)

/-- The empty name, which stands in for a missing one, is none of the eleven. -/
theorem nil_ne_pduTypeToString (type : PduType) : [] ≠ lit (pduTypeToString type) := by
  cases type <;> decide

/-- The kind of a document that names none is a setup request. -/
theorem value_of_unnamed {members : List (List UInt8 × Json)} (h : Unnamed (.object members)) :
    ∃ name, value getString (.object members) "pdu_type" [] = some name ∧
      stringToPduType name = .setupRequest := by
  rcases h with hnone | ⟨name, hname, hne⟩
  · refine ⟨[], ?_, stringToPduType_default nil_ne_pduTypeToString⟩
    exact value_eq_some_iff.mpr ⟨members, rfl, Or.inl ⟨hnone, rfl⟩⟩
  · exact ⟨name, value_of_member hname, stringToPduType_default hne⟩

/-- A document without a known kind is decoded as a setup request exactly where it has the members of
one. -/
theorem decodeRoot_unnamed {root : Json} (h : Unnamed root) :
    (∃ pdu, decodeRoot root = some pdu) ↔ SetupShaped root := by
  constructor
  · rintro ⟨pdu, hpdu⟩
    obtain ⟨name, data, hname, htype, hid, htime, hdata, hchoice⟩ :=
      decodeRoot_eq_some_iff.mp hpdu
    obtain ⟨members, rfl, -⟩ := value_eq_some_iff.mp hname
    obtain ⟨name', hname', hsetup⟩ := value_of_unnamed h
    rw [hname] at hname'
    cases hname'
    rw [← htype, hsetup] at hchoice
    obtain ⟨req, hreq, -⟩ := Option.map_eq_some_iff.mp hchoice
    obtain ⟨ms, rfl, hstrings⟩ :=
      (isSome_decodeSetupRequest data).mp (Option.isSome_of_eq_some hreq)
    have hid := isSome_value_uint32.mp (Option.isSome_of_eq_some hid)
    have htime := isSome_value_uint64.mp (Option.isSome_of_eq_some htime)
    exact ⟨hid, htime, ms, hdata, hstrings⟩
  · rintro ⟨hid, htime, ms, hdata, hstrings⟩
    obtain ⟨members, rfl⟩ : ∃ members, root = .object members := by
      cases root with
      | object members => exact ⟨members, rfl⟩
      | _ => cases hdata
    obtain ⟨name, hname, hsetup⟩ := value_of_unnamed h
    obtain ⟨messageId, hid⟩ := Option.isSome_iff_exists.mp (isSome_value_uint32.mpr hid)
    obtain ⟨timestamp, htime⟩ := Option.isSome_iff_exists.mp (isSome_value_uint64.mpr htime)
    obtain ⟨req, hreq⟩ := Option.isSome_iff_exists.mp
      ((isSome_decodeSetupRequest (.object ms)).mpr ⟨ms, rfl, hstrings⟩)
    refine ⟨⟨.setupRequest, .setupRequest req, messageId, timestamp⟩, ?_⟩
    exact decodeRoot_eq_some_iff.mpr ⟨name, .object ms, hname, hsetup, hid, htime, hdata, by
      simp only [decodeChoice, hreq, Option.map_some]⟩

/-- A document that is decoded names the kind of its PDU, unless it names no kind. -/
theorem names_of_decodeRoot {root : Json} {pdu : Pdu} (hkind : ¬Unnamed root)
    (h : decodeRoot root = some pdu) : Names root pdu.type := by
  obtain ⟨name, data, hname, htype, -⟩ := decodeRoot_eq_some_iff.mp h
  obtain ⟨members, rfl, ⟨hnone, -⟩ | ⟨v, hv, hget⟩⟩ := value_eq_some_iff.mp hname
  · exact absurd (Or.inl hnone) hkind
  · obtain ⟨s, rfl⟩ := isSome_getString.mp (Option.isSome_of_eq_some hget)
    cases hget
    by_cases hknown : ∃ type, name = lit (pduTypeToString type)
    · obtain ⟨type, rfl⟩ := hknown
      rw [stringToPduType_pduTypeToString] at htype
      rw [Names, ← htype]
      exact hv
    · exact absurd (Or.inr ⟨name, hv, fun type hname => hknown ⟨type, hname⟩⟩) hkind

theorem Unnamed.not_names {root : Json} (h : Unnamed root) (type : PduType) : ¬Names root type := by
  intro hnames
  rcases h with hnone | ⟨name, hname, hne⟩
  · rw [Names, hnone] at hnames
    cases hnames
  · rw [Names, hname] at hnames
    cases hnames
    exact hne type rfl

/-! ### What is taken for a setup request -/

open SetupQueue (Loop Turn requestOf)

/-- The text names a kind. -/
def NamesKind (codec : JsonCodec) (data : Octets) (type : PduType) : Prop :=
  ∃ root, codec.parse data = some root ∧ Names root type

/-- The text names the kind that it is decoded to, and only if it names a setup request, `setup_loop`
takes it for one and registers a dApp. -/
structure KnownKind (codec : JsonCodec) (data : Octets) : Prop where
  decoded : ∀ pdu, decode codec data = .ok pdu → NamesKind codec data pdu.type
  taken : ∀ received request, requestOf (encoder codec) received data = some request →
    NamesKind codec data .setupRequest
  registers : ∀ (config : E3Config) (turn : Turn) (s : Loop) (dappId : UInt32),
    s.socket.recvSetupRequest.2 = .ok data → dappId ∉ s.manager.registeredDapps →
    dappId ∈ (SetupQueue.pass (encoder codec) config turn s).manager.registeredDapps →
    NamesKind codec data .setupRequest

theorem decode_of_requestOf {codec : JsonCodec} {received : UInt64} {data : Octets}
    {request : SetupRequest × UInt32}
    (h : requestOf (encoder codec) received data = some request) :
    ∃ pdu, decode codec data = .ok pdu ∧ pdu.type = .setupRequest := by
  unfold requestOf at h
  split at h
  · cases h
  · rename_i pdu hdecode
    split at h
    · cases h
    · rename_i htype
      exact ⟨pdu, hdecode, not_not.mp htype⟩

/-- A turn leaves the dApps as they are, unless it finds a request in what it receives. -/
theorem manager_pass {e : E3Encoder} {config : E3Config} {turn : Turn} {s : Loop} {data : Octets}
    (hreceived : s.socket.recvSetupRequest.2 = .ok data)
    (h : requestOf e turn.received data = none) :
    (SetupQueue.pass e config turn s).manager = s.manager := by
  unfold SetupQueue.pass
  split
  · rfl
  · rfl
  · rename_i buffer hreceive
    rw [hreceive] at hreceived
    cases hreceived
    rw [h]

/-- A text is known by its kind unless its document names none of the eleven and has the members of a
setup request. -/
theorem knownKind_iff (codec : JsonCodec) (data : Octets) :
    KnownKind codec data ↔
      ∀ root, codec.parse data = some root → Unnamed root → ¬SetupShaped root := by
  constructor
  · intro h root hparse hunnamed hshaped
    obtain ⟨pdu, hpdu⟩ := (decodeRoot_unnamed hunnamed).mpr hshaped
    obtain ⟨root', hparse', hnames⟩ := h.decoded pdu (decode_eq_ok_iff.mpr ⟨root, hparse, hpdu⟩)
    rw [hparse] at hparse'
    cases hparse'
    exact hunnamed.not_names pdu.type hnames
  · intro h
    have hdecoded : ∀ pdu, decode codec data = .ok pdu → NamesKind codec data pdu.type := by
      intro pdu hpdu
      obtain ⟨root, hparse, hroot⟩ := decode_eq_ok_iff.mp hpdu
      have hnamed : ¬Unnamed root := fun hunnamed =>
        h root hparse hunnamed ((decodeRoot_unnamed hunnamed).mp ⟨pdu, hroot⟩)
      exact ⟨root, hparse, names_of_decodeRoot hnamed hroot⟩
    have htaken : ∀ received request, requestOf (encoder codec) received data = some request →
        NamesKind codec data .setupRequest := by
      intro received request hrequest
      obtain ⟨pdu, hpdu, htype⟩ := decode_of_requestOf hrequest
      rw [← htype]
      exact hdecoded pdu hpdu
    refine ⟨hdecoded, htaken, fun config turn s dappId hreceived hnew hin => ?_⟩
    cases hrequest : requestOf (encoder codec) turn.received data with
    | none =>
      rw [manager_pass hreceived hrequest] at hin
      exact absurd hin hnew
    | some request => exact htaken turn.received request hrequest

/-- A message of a kind that does not exist, without any of the members of a setup request. -/
def strangerText : Octets := lit "\x7b\"data\":\x7b\x7d,\"pdu_type\":\"Hello\"\x7d"

/-- It is decoded to a setup request, and a dApp is registered for it. -/
theorem strangerText_registers :
    ¬KnownKind Json.textCodec strangerText ∧
    decode Json.textCodec strangerText = .ok ⟨.setupRequest, .setupRequest {}, 0, 0⟩ ∧
    (SetupQueue.pass (encoder Json.textCodec) {} ⟨0, plainSurroundings⟩
      { socket := { queue := [(strangerText, 0)] }
        manager := { smLifecycleCallback := true }
        registry := {} }).manager.registeredDapps.keys = {1} := by
  have hdecode : decode Json.textCodec strangerText =
      .ok ⟨.setupRequest, .setupRequest {}, 0, 0⟩ := by decide +kernel
  refine ⟨fun h => ?_, hdecode, ?_⟩
  · obtain ⟨root, hparse, hnames⟩ := h.decoded _ hdecode
    cases hparse
    cases hnames
  · decide +kernel

end JsonE3

end LibE3
