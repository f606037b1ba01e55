import LibE3.Lib.JsonText

/-! JSON values whose strings and keys are UTF-8, and codecs that check it: the printer refuses a value
with another string, and the parser gives none. -/

namespace Json

theorem validUtf8_iff {s : List UInt8} :
    (ByteArray.mk s.toArray).IsValidUTF8 ↔ ValidUtf8 s := by
  constructor
  · intro h
    exact ⟨.ofByteArray _ h, rfl⟩
  · rintro ⟨t, rfl⟩
    exact t.isValidUTF8

instance (s : List UInt8) : Decidable (ValidUtf8 s) := decidable_of_iff _ validUtf8_iff

/-! ### Values of UTF-8 -/

mutual

def Utf8 : Json → Prop
  | .string s => ValidUtf8 s
  | .array vs => Utf8Elements vs
  | .object ms => Utf8Members ms
  | _ => True

def Utf8Elements : List Json → Prop
  | [] => True
  | v :: vs => Utf8 v ∧ Utf8Elements vs

def Utf8Members : List (List UInt8 × Json) → Prop
  | [] => True
  | (k, v) :: ms => ValidUtf8 k ∧ Utf8 v ∧ Utf8Members ms

end

mutual

def decidableUtf8 : (v : Json) → Decidable (Utf8 v)
  | .string s => inferInstanceAs (Decidable (ValidUtf8 s))
  | .array vs => decidableUtf8Elements vs
  | .object ms => decidableUtf8Members ms
  | .null => isTrue trivial
  | .bool _ => isTrue trivial
  | .unsigned _ => isTrue trivial
  | .integer _ => isTrue trivial
  | .float _ _ => isTrue trivial

def decidableUtf8Elements : (vs : List Json) → Decidable (Utf8Elements vs)
  | [] => isTrue trivial
  | v :: vs => @instDecidableAnd _ _ (decidableUtf8 v) (decidableUtf8Elements vs)

def decidableUtf8Members : (ms : List (List UInt8 × Json)) → Decidable (Utf8Members ms)
  | [] => isTrue trivial
  | (_, v) :: ms =>
    @instDecidableAnd _ _ _
      (@instDecidableAnd _ _ (decidableUtf8 v) (decidableUtf8Members ms))

end

instance (v : Json) : Decidable (Utf8 v) := decidableUtf8 v

theorem utf8Elements_iff {vs : List Json} : Utf8Elements vs ↔ ∀ v ∈ vs, v.Utf8 := by
  induction vs with
  | nil => simp [Utf8Elements]
  | cons v vs ih => simp [Utf8Elements, ih]

theorem utf8Members_iff {ms : List (List UInt8 × Json)} :
    Utf8Members ms ↔ ∀ m ∈ ms, ValidUtf8 m.1 ∧ m.2.Utf8 := by
  induction ms with
  | nil => simp [Utf8Members]
  | cons m ms ih =>
    obtain ⟨k, v⟩ := m
    simp [Utf8Members, ih, and_assoc]

@[simp] theorem utf8_string {s : List UInt8} : (Json.string s).Utf8 ↔ ValidUtf8 s := Iff.rfl

@[simp] theorem utf8_array {vs : List Json} : (Json.array vs).Utf8 ↔ ∀ v ∈ vs, v.Utf8 :=
  utf8Elements_iff

@[simp] theorem utf8_object {ms : List (List UInt8 × Json)} :
    (Json.object ms).Utf8 ↔ ∀ m ∈ ms, ValidUtf8 m.1 ∧ m.2.Utf8 :=
  utf8Members_iff

theorem Plain.utf8 {v : Json} (h : v.Plain) : v.Utf8 := by
  induction h with
  | unsigned n => exact trivial
  | string h => exact h
  | array _ ih => exact utf8_array.mpr ih
  | object _ hkeys _ ih => exact utf8_object.mpr fun m hm => ⟨hkeys m hm, ih m hm⟩

theorem mem_of_findMember {key : List UInt8} {v : Json} {ms : List (List UInt8 × Json)}
    (h : findMember key ms = some v) : (key, v) ∈ ms := by
  induction ms with
  | nil => cases h
  | cons m ms ih =>
    rw [findMember] at h
    split at h
    · rename_i hkey
      cases h
      rw [hkey]
      exact List.mem_cons_self
    · exact List.mem_cons_of_mem _ (ih h)

theorem Utf8.findMember {key : List UInt8} {v : Json} {ms : List (List UInt8 × Json)}
    (h : (Json.object ms).Utf8) (hfind : findMember key ms = some v) : v.Utf8 :=
  (utf8_object.mp h (key, v) (mem_of_findMember hfind)).2

end Json

/-! ### Codecs that check -/

/-- A codec that refuses to print and to parse what is not UTF-8. -/
structure Utf8Codec extends JsonCodec where
  utf8_of_dump : ∀ (v : Json) (text : List UInt8), dump v = some text → v.Utf8
  utf8_of_parse : ∀ (text : List UInt8) (v : Json), parse text = some v → v.Utf8

instance : CoeOut Utf8Codec JsonCodec := ⟨Utf8Codec.toJsonCodec⟩

namespace Json

/-- The compact text of values of UTF-8. -/
def utf8Codec : Utf8Codec where
  dump v := if v.Utf8 then some (Text.text v) else none
  parse data := (Text.parse data).filter fun v => decide v.Utf8
  parse_nil := rfl
  parse_dump v h := by
    refine ⟨Text.text v, if_pos h.utf8, ?_⟩
    rw [Text.parse_text h]
    exact Option.filter_some_pos (decide_eq_true h.utf8)
  utf8_of_dump v text h := by
    by_contra hutf8
    rw [if_neg hutf8] at h
    cases h
  utf8_of_parse text v h := of_decide_eq_true (Option.filter_eq_some_iff.mp h).2

end Json
