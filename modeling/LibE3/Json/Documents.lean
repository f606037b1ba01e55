import LibE3.Json.RoundTrip
import LibE3.Lib.JsonUtf8
import LibE3.Wire

/-! What `decode` makes of any document, not only of those that `encode` writes: which texts it takes
for a payload, and that what it accepts is read back unchanged from then on. -/

namespace LibE3

namespace JsonE3

/-! ### Hexadecimal texts -/

def HexDigit (c : UInt8) : Prop :=
  0x30 ≤ c ∧ c ≤ 0x39 ∨ 0x61 ≤ c ∧ c ≤ 0x66 ∨ 0x41 ≤ c ∧ c ≤ 0x46

instance : DecidablePred HexDigit := fun c =>
  inferInstanceAs (Decidable (0x30 ≤ c ∧ c ≤ 0x39 ∨ 0x61 ≤ c ∧ c ≤ 0x66 ∨ 0x41 ≤ c ∧ c ≤ 0x46))

/-- A letter in lower case. -/
def lower (c : UInt8) : UInt8 := if 0x41 ≤ c ∧ c ≤ 0x5A then c + 0x20 else c

/-- The text of a payload: two digits for each octet. -/
def Exact (s : Octets) : Prop := s.length % 2 = 0 ∧ ∀ c ∈ s, HexDigit c

/-- `std::stoi` finds a digit in two characters: the first one, or the second after white space or a
sign. -/
def Readable (a b : UInt8) : Prop :=
  HexDigit a ∨ (isSpace a = true ∨ a = 0x2D ∨ a = 0x2B) ∧ HexDigit b

instance (a b : UInt8) : Decidable (Readable a b) :=
  inferInstanceAs (Decidable (HexDigit a ∨ (isSpace a = true ∨ a = 0x2D ∨ a = 0x2B) ∧ HexDigit b))

/-- Some two characters of a text stop `std::stoi`. -/
def Unreadable (s : Octets) : Prop :=
  ∃ i a b, s[2 * i]? = some a ∧ s[2 * i + 1]? = some b ∧ ¬Readable a b

theorem hexValue_isSome {c : UInt8} : (hexValue c).isSome = true ↔ HexDigit c := by
  unfold hexValue HexDigit
  split
  · simp_all
  split
  · simp_all
  split <;> simp_all

theorem octet_cases {p : UInt8 → Prop} (h : ∀ n < 256, p (.ofNat n)) (c : UInt8) : p c := by
  have hc := h c.toNat c.toNat_lt
  rwa [UInt8.ofNat_toNat] at hc

theorem hexChar_of_hexValue : ∀ c : UInt8, ∀ v ∈ hexValue c, v < 16 ∧ hexChar v = lower c :=
  octet_cases (by decide +kernel)

theorem not_space_of_hexDigit : ∀ c : UInt8, HexDigit c →
    isSpace c = false ∧ c ≠ 0x2D ∧ c ≠ 0x2B :=
  octet_cases (by decide +kernel)

/-- There is no room for a prefix in two characters. -/
theorem stoiDigits_short {s : Octets} (h : s.length ≤ 2) :
    stoiDigits s = s.takeWhile fun c => (hexValue c).isSome := by
  unfold stoiDigits
  split
  · simp at h
  · rfl

/-- The number that `std::stoi` makes of what follows the sign. -/
def stoiAfterSign (negative : Bool) (s : Octets) : Option Int :=
  let digits := stoiDigits s
  let n : Int := digits.foldl (fun n c => 16 * n + ((hexValue c).getD 0 : Nat)) 0
  let n := if negative then -n else n
  if digits = [] ∨ n < -2 ^ 31 ∨ 2 ^ 31 ≤ n then none else some n

theorem stoi16_eq (s : Octets) :
    stoi16 s =
      match s.dropWhile isSpace with
      | 0x2D :: rest => stoiAfterSign true rest
      | 0x2B :: rest => stoiAfterSign false rest
      | rest => stoiAfterSign false rest := rfl

theorem hexValue_eq_none {c : UInt8} (h : ¬HexDigit c) : hexValue c = none := by
  rw [← hexValue_isSome, Bool.not_eq_true] at h
  simpa using h

theorem stoiAfterSign_nil (negative : Bool) : stoiAfterSign negative [] = none := rfl

theorem stoiAfterSign_none (negative : Bool) {a : UInt8} (b : UInt8) (h : ¬HexDigit a) :
    stoiAfterSign negative [a, b] = none := by
  simp [stoiAfterSign, stoiDigits_short, hexValue_eq_none h]

theorem stoiAfterSign_one (negative : Bool) (b : UInt8) :
    (stoiAfterSign negative [b]).isSome = true ↔ HexDigit b := by
  have hdigits := stoiDigits_short (s := [b]) (by simp)
  by_cases hb : HexDigit b
  · obtain ⟨lo, hlo⟩ := Option.isSome_iff_exists.mp (hexValue_isSome.mpr hb)
    have hlt := (hexChar_of_hexValue b lo hlo).1
    cases negative <;> simp [stoiAfterSign, hdigits, hlo, hb] <;> omega
  · simp [stoiAfterSign, hdigits, hexValue_eq_none hb, hb]

theorem stoi16_of_hexDigit {a : UInt8} (b : UInt8) {hi : Nat} (ha : hexValue a = some hi) :
    stoi16 [a, b] = some ((hexValue b).elim (hi : Int) fun lo => 16 * hi + lo) := by
  obtain ⟨hspace, hminus, hplus⟩ := not_space_of_hexDigit a (hexValue_isSome.mp (by simp [ha]))
  have hhi := (hexChar_of_hexValue a hi ha).1
  have hdrop : [a, b].dropWhile isSpace = [a, b] := by simp [hspace]
  rw [stoi16_eq, hdrop]
  split
  · simp_all
  · simp_all
  · cases hb : hexValue b with
    | none =>
      simp [stoiAfterSign, stoiDigits_short, ha, hb]
      omega
    | some lo =>
      have hlo := (hexChar_of_hexValue b lo hb).1
      simp [stoiAfterSign, stoiDigits_short, ha, hb]
      omega

theorem stoi16_of_space {a : UInt8} (b : UInt8) (ha : isSpace a = true) :
    (stoi16 [a, b]).isSome = true ↔ HexDigit b := by
  by_cases hb : isSpace b = true
  · have hdigit : ¬HexDigit b := by
      intro h
      rw [(not_space_of_hexDigit b h).1] at hb
      cases hb
    have hdrop : [a, b].dropWhile isSpace = [] := by simp [ha, hb]
    rw [stoi16_eq, hdrop]
    simp [hdigit, stoiAfterSign_nil]
  · have hdrop : [a, b].dropWhile isSpace = [b] := by simp [ha, hb]
    rw [stoi16_eq, hdrop]
    split
    · rename_i heq
      cases heq
      decide
    · rename_i heq
      cases heq
      decide
    · exact stoiAfterSign_one false b

/-- `std::stoi` returns exactly where it finds a digit. -/
theorem stoi16_isSome_iff (a b : UInt8) : (stoi16 [a, b]).isSome = true ↔ Readable a b := by
  by_cases ha : HexDigit a
  · obtain ⟨hi, hhi⟩ := Option.isSome_iff_exists.mp (hexValue_isSome.mpr ha)
    simp [stoi16_of_hexDigit b hhi, Readable, ha]
  by_cases hspace : isSpace a = true
  · rw [stoi16_of_space b hspace]
    simp [Readable, ha, hspace]
  have hdrop : [a, b].dropWhile isSpace = [a, b] := by simp [hspace]
  rw [stoi16_eq, hdrop]
  split
  · rename_i heq
    cases heq
    rw [stoiAfterSign_one]
    simp [Readable, ha]
  · rename_i heq
    cases heq
    rw [stoiAfterSign_one]
    simp [Readable, ha]
  · rename_i hminus hplus
    have hsign : a ≠ 0x2D ∧ a ≠ 0x2B := by
      constructor
      · rintro rfl
        exact hminus _ rfl
      · rintro rfl
        exact hplus _ rfl
    simp [stoiAfterSign_none false b ha, Readable, ha, hspace, hsign]
theorem unreadable_cons {a b : UInt8} {rest : Octets} :
    Unreadable (a :: b :: rest) ↔ ¬Readable a b ∨ Unreadable rest := by
  constructor
  · rintro ⟨i, c, d, hc, hd, h⟩
    cases i with
    | zero =>
      cases hc
      cases hd
      exact Or.inl h
    | succ i => exact Or.inr ⟨i, c, d, hc, hd, h⟩
  · rintro (h | ⟨i, c, d, hc, hd, h⟩)
    · exact ⟨0, a, b, rfl, rfl, h⟩
    · exact ⟨i + 1, c, d, hc, hd, h⟩

/-- A payload is refused exactly where some two of its characters stop `std::stoi`. -/
theorem hexToBinary_eq_none_iff (s : Octets) : hexToBinary s = none ↔ Unreadable s := by
  induction s using hexToBinary.induct with
  | case1 a b rest ih =>
    rw [unreadable_cons, ← ih, ← stoi16_isSome_iff, hexToBinary]
    cases stoi16 [a, b] with
    | none => simp
    | some n => cases hexToBinary rest <;> simp
  | case2 s hshort =>
    have hsome : hexToBinary s = some [] := by
      unfold hexToBinary
      split
      · exact absurd rfl (hshort _ _ _)
      · rfl
    rw [hsome]
    refine iff_of_false (by simp) ?_
    rintro ⟨i, a, b, -, hb, -⟩
    rcases s with _ | ⟨c, _ | ⟨d, rest⟩⟩
    · cases hb
    · simp at hb
    · exact hshort c d rest rfl

theorem binaryToHex_ofInt {hi lo : Nat} (hhi : hi < 16) (hlo : lo < 16) (data : Octets) :
    binaryToHex (UInt8.ofInt (16 * hi + lo) :: data) =
      hexChar hi :: hexChar lo :: binaryToHex data := by
  have hoctet : (UInt8.ofInt (16 * hi + lo)).toNat = 16 * hi + lo := by
    simp only [UInt8.ofInt, UInt8.toNat_ofNat']
    omega
  have hdiv : (16 * hi + lo) / 16 = hi := by omega
  have hmod : (16 * hi + lo) % 16 = lo := by omega
  show hexChar (_ / 16) :: hexChar (_ % 16) :: binaryToHex data = _
  rw [hoctet, hdiv, hmod]

/-- The octets of an exact text are written as the same text, in lower case. -/
theorem binaryToHex_hexToBinary {s v : Octets} (hexact : Exact s) (h : hexToBinary s = some v) :
    binaryToHex v = s.map lower := by
  induction s using hexToBinary.induct generalizing v with
  | case1 a b rest ih =>
    obtain ⟨hlength, hdigits⟩ := hexact
    obtain ⟨hi, ha⟩ :=
      Option.isSome_iff_exists.mp (hexValue_isSome.mpr (hdigits a (by simp)))
    obtain ⟨lo, hb⟩ :=
      Option.isSome_iff_exists.mp (hexValue_isSome.mpr (hdigits b (by simp)))
    obtain ⟨hhi, hchi⟩ := hexChar_of_hexValue a hi ha
    obtain ⟨hlo, hclo⟩ := hexChar_of_hexValue b lo hb
    have hrest : Exact rest := by
      refine ⟨?_, fun c hc => hdigits c (by simp [hc])⟩
      simp only [List.length_cons] at hlength
      omega
    rw [hexToBinary, stoi16_of_hexDigit b ha, hb] at h
    obtain ⟨data, hdata, rfl⟩ : ∃ data, hexToBinary rest = some data ∧
        UInt8.ofInt (16 * hi + lo) :: data = v := by
      simpa [Option.bind_eq_some_iff] using h
    rw [binaryToHex_ofInt hhi hlo, ih hrest hdata, hchi, hclo]
    rfl
  | case2 s hshort =>
    rcases s with _ | ⟨c, _ | ⟨d, rest⟩⟩
    · cases h
      rfl
    · exact absurd hexact.1 (by simp)
    · exact absurd rfl (hshort c d rest)

/-! ### Members of a document -/

/-- The member of an object under a key. -/
def member (j : Json) (key : String) : Option Json :=
  match j with
  | .object members => Json.findMember (lit key) members
  | _ => none

@[simp] theorem member_build (assignments : List (Octets × Option Json)) (key : String) :
    member (.build assignments) key = found assignments key := rfl

section Members

variable {α : Type} {get : Json → Option α} {j : Json} {key : String}

theorem value_eq_some_iff {default x : α} :
    value get j key default = some x ↔
      ∃ members, j = .object members ∧ (member j key = none ∧ x = default ∨
        ∃ v, member j key = some v ∧ get v = some x) := by
  unfold value
  cases j with
  | object members =>
    simp only [member, Json.object.injEq, exists_eq_left']
    cases Json.findMember (lit key) members <;> simp [eq_comm]
  | _ => simp

theorem optional_eq_some_iff {x : Option α} :
    optional get j key = some x ↔
      member j key = none ∧ x = none ∨ ∃ v y, member j key = some v ∧ get v = some y ∧ x = some y := by
  unfold optional
  cases j with
  | object members =>
    simp only [member]
    cases Json.findMember (lit key) members <;> simp [eq_comm]
  | _ => simp [member, eq_comm]

end Members

/-- What `decode` has read of a document that it accepts. -/
theorem decodeRoot_eq_some_iff {root : Json} {pdu : Pdu} :
    decodeRoot root = some pdu ↔
      ∃ name data, value getString root "pdu_type" [] = some name ∧
        stringToPduType name = pdu.type ∧
        value getUint32 root "message_id" 0 = some pdu.messageId ∧
        value getUint64 root "timestamp" 0 = some pdu.timestamp ∧
        member root "data" = some data ∧ decodeChoice data pdu.type = some pdu.choice := by
  unfold decodeRoot
  constructor
  · intro h
    simp only [Option.bind_eq_bind, Option.bind_eq_some_iff] at h
    obtain ⟨name, hname, messageId, hid, timestamp, htime, x, hx, data, rfl, choice, hchoice, h⟩ := h
    cases h
    rcases optional_eq_some_iff.mp hx with ⟨-, hnone⟩ | ⟨v, y, hmember, hy, hsome⟩
    · cases hnone
    · cases hsome
      cases hy
      exact ⟨name, data, hname, rfl, hid, htime, hmember, hchoice⟩
  · rintro ⟨name, data, hname, htype, hid, htime, hmember, hchoice⟩
    have hdata : optional some root "data" = some (some data) :=
      optional_eq_some_iff.mpr (Or.inr ⟨data, data, hmember, rfl, rfl⟩)
    simp [hname, hid, htime, hdata, hchoice, htype]

theorem decode_eq_ok_iff {codec : JsonCodec} {data : Octets} {pdu : Pdu} :
    decode codec data = .ok pdu ↔ ∃ root, codec.parse data = some root ∧ decodeRoot root = some pdu := by
  unfold decode
  split
  · rename_i hnil
    subst hnil
    simp [codec.parse_nil]
  · cases h : (codec.parse data).bind decodeRoot with
    | none =>
      simp only [reduceCtorEq, false_iff]
      rintro ⟨root, hparse, hroot⟩
      rw [hparse, Option.bind_some, hroot] at h
      cases h
    | some p =>
      simp only [Except.ok.injEq]
      rw [← Option.bind_eq_some_iff, h, Option.some.injEq]

/-! ### Payloads -/

/-- The member that holds the payload of a kind.  The payloads of a setup response are in its list of
RAN functions. -/
def payloadKey : PduType → Option String
  | .indicationMessage => some "protocol_data"
  | .dappControlAction => some "action_data"
  | .dappReport => some "report_data"
  | .xappControlAction => some "xapp_control_data"
  | _ => none

/-- A document of a known kind carries a text as a payload. -/
def Carries (root : Json) (s : Octets) : Prop :=
  ∃ type data, member root "pdu_type" = some (.string (lit (pduTypeToString type))) ∧
    member root "data" = some data ∧
    ((∃ key, payloadKey type = some key ∧ member data key = some (.string s)) ∨
      type = .setupResponse ∧ ∃ list func, member data "ran_function_list" = some list ∧
        func ∈ elements list ∧ member func "ran_function_data" = some (.string s))

theorem value_of_member {α : Type} {get : Json → Option α} {j v : Json} {key : String} {default : α}
    (h : member j key = some v) : value get j key default = get v := by
  cases j with
  | object members =>
    simp only [member] at h
    simp only [value, h]
  | _ => cases h

theorem payload_of_member {j : Json} {key : String} {s : Octets}
    (h : member j key = some (.string s)) : payload j key = hexToBinary s := by
  simp [payload, value_of_member h]

theorem decodeRanFunctionDef_none {j : Json} {s : Octets} (hs : hexToBinary s = none)
    (h : member j "ran_function_data" = some (.string s)) : decodeRanFunctionDef j = none := by
  simp [decodeRanFunctionDef, payload_of_member h, hs]

/-- Every kind with a payload reads it. -/
theorem decodeChoice_none {j : Json} {type : PduType} {key : String} {s : Octets}
    (hs : hexToBinary s = none) (hkey : payloadKey type = some key)
    (h : member j key = some (.string s)) : decodeChoice j type = none := by
  cases type <;> cases hkey
  · simp [decodeChoice, decodeIndicationMessage, payload_of_member h, hs]
  · simp [decodeChoice, decodeDappControlAction, payload_of_member h, hs]
  · simp [decodeChoice, decodeDappReport, payload_of_member h, hs]
  · simp [decodeChoice, decodeXappControlAction, payload_of_member h, hs]

theorem mapM_none {α : Type} {read : Json → Option α} {l : List Json} {v : Json} (hv : v ∈ l)
    (h : read v = none) : l.mapM read = none := by
  induction l with
  | nil => cases hv
  | cons x l ih =>
    rw [List.mapM_cons]
    rcases List.mem_cons.mp hv with rfl | hv
    · simp [h]
    · simp [ih hv]

theorem decodeSetupResponse_none {j list func : Json} {s : Octets} (hs : hexToBinary s = none)
    (hlist : member j "ran_function_list" = some list) (hfunc : func ∈ elements list)
    (h : member func "ran_function_data" = some (.string s)) : decodeSetupResponse j = none := by
  have hread : decodeRanFunctionList list = none :=
    mapM_none hfunc (decodeRanFunctionDef_none hs h)
  have hoptional : optional decodeRanFunctionList j "ran_function_list" = none := by
    cases j with
    | object members =>
      simp only [member] at hlist
      simp [optional, hlist, hread]
    | _ => cases hlist
  simp [decodeSetupResponse, hoptional]

/-- A document with a payload that is refused is refused. -/
theorem decodeRoot_none {root : Json} {s : Octets} (hs : hexToBinary s = none)
    (h : Carries root s) : decodeRoot root = none := by
  obtain ⟨type, data, hkind, hdata, hpayload⟩ := h
  rw [Option.eq_none_iff_forall_not_mem]
  intro pdu hpdu
  obtain ⟨name, data', hname, htype, -, -, hdata', hchoice⟩ := decodeRoot_eq_some_iff.mp hpdu
  rw [value_of_member hkind] at hname
  cases hname
  rw [stringToPduType_pduTypeToString] at htype
  rw [hdata] at hdata'
  cases hdata'
  rw [← htype] at hchoice
  rcases hpayload with ⟨key, hkey, hmember⟩ | ⟨rfl, list, func, hlist, hfunc, hmember⟩
  · rw [decodeChoice_none hs hkey hmember] at hchoice
    cases hchoice
  · simp only [decodeChoice, decodeSetupResponse_none hs hlist hfunc hmember] at hchoice
    cases hchoice

/-- A text is taken for a payload only if it is the text of one, and then for that payload; every
document that carries another text is refused. -/
structure ParsedExactly (codec : JsonCodec) (s : Octets) : Prop where
  accepted : Exact s → (hexToBinary s).isSome = true
  exact : ∀ v, hexToBinary s = some v → Exact s ∧ binaryToHex v = s.map lower
  refused : ¬Exact s → ∀ data root, codec.parse data = some root → Carries root s →
    decode codec data = .error .decodeFailed

theorem Exact.not_unreadable {s : Octets} (h : Exact s) : ¬Unreadable s := by
  rintro ⟨i, a, b, ha, -, hunreadable⟩
  exact hunreadable (Or.inl (h.2 a (List.mem_of_getElem? ha)))

theorem decode_error_of_none {codec : JsonCodec} {data : Octets} {root : Json}
    (hparse : codec.parse data = some root) (h : decodeRoot root = none) :
    decode codec data = .error .decodeFailed := by
  simp only [decode, hparse, Option.bind_some, h, ite_self]

/-- A text is parsed exactly if it is the text of a payload, or if some two of its characters stop
`std::stoi`. -/
theorem parsedExactly_iff (codec : JsonCodec) (s : Octets) :
    ParsedExactly codec s ↔ Exact s ∨ Unreadable s := by
  constructor
  · intro h
    by_cases hexact : Exact s
    · exact Or.inl hexact
    · right
      rw [← hexToBinary_eq_none_iff, Option.eq_none_iff_forall_not_mem]
      intro v hv
      exact hexact (h.exact v hv).1
  · rintro (hexact | hunreadable)
    · refine ⟨fun _ => ?_, fun v hv => ⟨hexact, binaryToHex_hexToBinary hexact hv⟩,
        fun hnot => absurd hexact hnot⟩
      rw [Option.isSome_iff_ne_none, ne_eq, hexToBinary_eq_none_iff]
      exact hexact.not_unreadable
    · have hnone := (hexToBinary_eq_none_iff s).mpr hunreadable
      refine ⟨fun hexact => absurd hunreadable hexact.not_unreadable, fun v hv => ?_,
        fun _ data root hparse hcarries =>
          decode_error_of_none hparse (decodeRoot_none hnone hcarries)⟩
      rw [hnone] at hv
      cases hv

/-- The document of an indication with a payload. -/
def indicationText (payload : String) : Octets :=
  lit "\x7b\"data\":\x7b\"protocol_data\":\"" ++ lit payload ++
    lit "\"\x7d,\"pdu_type\":\"IndicationMessage\"\x7d"

/-- A payload that lost its last character, and one with characters that are no digits, are delivered
as the octets `c0 ff` and `01 ff`. -/
theorem payloads_altered :
    ¬ParsedExactly Json.textCodec (lit "c0ffe") ∧ ¬ParsedExactly Json.textCodec (lit "1g-1") ∧
    decode Json.textCodec (indicationText "c0ffe") =
      .ok ⟨.indicationMessage, .indicationMessage ⟨0, 0, [0xC0, 0xFF]⟩, 0, 0⟩ ∧
    decode Json.textCodec (indicationText "1g-1") =
      .ok ⟨.indicationMessage, .indicationMessage ⟨0, 0, [0x01, 0xFF]⟩, 0, 0⟩ := by
  refine ⟨fun h => ?_, fun h => ?_, ?_, ?_⟩
  · have hlength := (h.exact [0xC0, 0xFF] (by decide +kernel)).1.1
    exact absurd hlength (by decide)
  · have hdigits := (h.exact [0x01, 0xFF] (by decide +kernel)).1.2
    exact absurd hdigits (by decide +kernel)
  · rfl
  · rfl

/-! ### Relaying -/

open Json (ValidUtf8)

theorem type_of_decodeChoice {j : Json} {type : PduType} {choice : PduChoice}
    (h : decodeChoice j type = some choice) : type = choice.type := by
  cases type <;> obtain ⟨m, -, rfl⟩ := Option.map_eq_some_iff.mp h <;> rfl

theorem utf8_of_member {j v : Json} {key : String} (hj : j.Utf8) (h : member j key = some v) :
    v.Utf8 := by
  cases j with
  | object members => exact hj.findMember h
  | _ => cases h

theorem validUtf8_of_getString {v : Json} {s : Octets} (hv : v.Utf8) (h : getString v = some s) :
    ValidUtf8 s := by
  cases v with
  | string t =>
    cases h
    exact hv
  | _ => cases h

/-- A string that is read from a document of UTF-8, or left at its default. -/
theorem validUtf8_of_value {j : Json} {key : String} {s : Octets} (hj : j.Utf8)
    (h : value getString j key [] = some s) : ValidUtf8 s := by
  obtain ⟨-, -, ⟨-, rfl⟩ | ⟨v, hmember, hget⟩⟩ := value_eq_some_iff.mp h
  · exact validUtf8_lit ""
  · exact validUtf8_of_getString (utf8_of_member hj hmember) hget

theorem validUtf8_of_optional {j : Json} {key : String} {s : Octets} (hj : j.Utf8)
    (h : optional getString j key = some (some s)) : ValidUtf8 s := by
  rcases optional_eq_some_iff.mp h with ⟨-, hnone⟩ | ⟨v, t, hmember, hget, hsome⟩
  · cases hnone
  · cases hsome
    exact validUtf8_of_getString (utf8_of_member hj hmember) hget

theorem validText_of_setupRequest {j : Json} {req : SetupRequest} (hj : j.Utf8)
    (h : decodeSetupRequest j = some req) : ValidText (.setupRequest req) := by
  simp only [decodeSetupRequest, Option.bind_eq_bind, Option.bind_eq_some_iff] at h
  obtain ⟨version, hversion, name, hname, dapp, hdapp, vendor, hvendor, h⟩ := h
  cases h
  exact ⟨validUtf8_of_value hj hversion, validUtf8_of_value hj hname, validUtf8_of_value hj hdapp,
    validUtf8_of_value hj hvendor⟩

theorem validText_of_setupResponse {j : Json} {resp : SetupResponse} (hj : j.Utf8)
    (h : decodeSetupResponse j = some resp) : ValidText (.setupResponse resp) := by
  simp only [decodeSetupResponse, Option.bind_eq_bind, Option.bind_eq_some_iff] at h
  obtain ⟨_, -, _, -, version, hversion, _, -, ran, hran, _, -, h⟩ := h
  cases h
  refine ⟨fun v hv => ?_, validUtf8_of_value hj hran⟩
  cases hv
  exact validUtf8_of_optional hj hversion

/-- The strings of what is decoded are those of the document. -/
theorem validText_of_decodeChoice {j : Json} {type : PduType} {choice : PduChoice} (hj : j.Utf8)
    (h : decodeChoice j type = some choice) : ValidText choice := by
  cases type with
  | setupRequest =>
    obtain ⟨req, hreq, rfl⟩ := Option.map_eq_some_iff.mp h
    exact validText_of_setupRequest hj hreq
  | setupResponse =>
    obtain ⟨resp, hresp, rfl⟩ := Option.map_eq_some_iff.mp h
    exact validText_of_setupResponse hj hresp
  | _ =>
    obtain ⟨m, -, rfl⟩ := Option.map_eq_some_iff.mp h
    trivial

/-- A request is read without a periodicity. -/
theorem periodicity_of_decodeChoice {j : Json} {type : PduType} {choice : PduChoice}
    (h : decodeChoice j type = some choice) (req : SubscriptionRequest)
    (hreq : choice = .subscriptionRequest req) : req.periodicity = none := by
  subst hreq
  obtain rfl := type_of_decodeChoice h
  simp only [PduChoice.type, decodeChoice, decodeSubscriptionRequest, Option.bind_eq_bind,
    Option.map_eq_some_iff, Option.bind_eq_some_iff] at h
  obtain ⟨_, ⟨_, -, _, -, _, -, _, -, _, -, hread⟩, heq⟩ := h
  cases hread
  cases heq
  rfl

/-- What the decoder gives, the encoder writes and the decoder reads back. -/
theorem decode_encode_of_decodeRoot (codec : JsonCodec) {root : Json} {pdu : Pdu}
    (hroot : root.Utf8) (h : decodeRoot root = some pdu) :
    pdu.type = pdu.choice.type ∧
      ∃ message, encode codec pdu = .ok message ∧ decode codec message.buffer = .ok pdu := by
  obtain ⟨name, data, -, -, -, -, hdata, hchoice⟩ := decodeRoot_eq_some_iff.mp h
  have htag := type_of_decodeChoice hchoice
  have htext := validText_of_decodeChoice (utf8_of_member hroot hdata) hchoice
  exact ⟨htag, decode_encode_whole codec pdu htag (periodicity_of_decodeChoice hchoice) htext⟩

/-- A message that is sent on by `hops` parties, each of which decodes and encodes it. -/
def relay (codec : JsonCodec) : Nat → Pdu → Except ErrorCode Pdu
  | 0, pdu => .ok pdu
  | hops + 1, pdu => do
    let message ← encode codec pdu
    let received ← decode codec message.buffer
    relay codec hops received

theorem relay_eq {codec : JsonCodec} {pdu : Pdu} {message : EncodedMessage}
    (hencode : encode codec pdu = .ok message) (hdecode : decode codec message.buffer = .ok pdu)
    (hops : Nat) : relay codec hops pdu = .ok pdu := by
  induction hops with
  | zero => rfl
  | succ hops ih =>
    rw [relay, hencode]
    show (decode codec message.buffer).bind (relay codec hops) = _
    rw [hdecode]
    exact ih

/-- Whatever text it came from, a PDU that was decoded has the tag of its alternative, and is encoded
to a text that decodes to it; so any number of parties may send it on. -/
theorem decode_settles (codec : Utf8Codec) (data : Octets) (pdu : Pdu)
    (h : decode codec data = .ok pdu) :
    pdu.type = pdu.choice.type ∧
      (∃ message, encode codec pdu = .ok message ∧ decode codec message.buffer = .ok pdu) ∧
      ∀ hops, relay codec hops pdu = .ok pdu := by
  obtain ⟨root, hparse, hroot⟩ := decode_eq_ok_iff.mp h
  obtain ⟨htag, message, hencode, hdecode⟩ :=
    decode_encode_of_decodeRoot codec.toJsonCodec (codec.utf8_of_parse data root hparse) hroot
  exact ⟨htag, ⟨message, hencode, hdecode⟩, relay_eq hencode hdecode⟩

/-- A setup response out of order, with a member too many, members missing and a payload in upper case
with a last digit alone. -/
def looseResponse : Octets :=
  lit "\x7b\"x\":[1],\"data\":\x7b\"ran_function_list\":[\x7b\"ran_function_data\":\"C0F\"\x7d]" ++
    lit ",\"response_code\":\"positive\"\x7d,\"pdu_type\":\"SetupResponse\"\x7d"

def looseResponsePdu : Pdu where
  type := .setupResponse
  choice := .setupResponse
    { responseCode := .positive
      ranFunctionList := [⟨0, [], [], [0xC0]⟩] }
  timestamp := 0

theorem decode_settles_looseResponse :
    decode Json.utf8Codec looseResponse = .ok looseResponsePdu ∧
    looseResponsePdu.type = looseResponsePdu.choice.type ∧
    (∃ message, encode Json.utf8Codec looseResponsePdu = .ok message ∧
      decode Json.utf8Codec message.buffer = .ok looseResponsePdu) ∧
    ∀ hops, relay Json.utf8Codec hops looseResponsePdu = .ok looseResponsePdu := by
  have hdecode : decode Json.utf8Codec looseResponse = .ok looseResponsePdu := by decide +kernel
  exact ⟨hdecode, decode_settles Json.utf8Codec looseResponse looseResponsePdu hdecode⟩

end JsonE3

end LibE3
