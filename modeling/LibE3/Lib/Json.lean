import Mathlib.Data.List.Lex

/-! JSON documents.  The members of an object are kept sorted by key, as a map keeps them, so that an
object does not depend on the order in which its members were assigned.  A `JsonCodec` is a printer
and a parser that agree on plain values: strings of UTF-8, unsigned integers, arrays and objects. -/

/-- A JSON value.  A floating-point number is kept as the unsigned integers that it converts to. -/
inductive Json
  | null
  | bool (b : Bool)
  | unsigned (n : UInt64)
  | integer (n : Int64)
  | float (to32 : UInt32) (to64 : UInt64)
  | string (s : List UInt8)
  | array (elements : List Json)
  | object (members : List (List UInt8 × Json))

namespace Json

/-! ### Members -/

/-- The assignment `j[key] = value` on the members of an object. -/
def insertMember (key : List UInt8) (value : Json) :
    List (List UInt8 × Json) → List (List UInt8 × Json)
  | [] => [(key, value)]
  | (k, v) :: members =>
    if key = k then (key, value) :: members
    else if key < k then (key, value) :: (k, v) :: members
    else (k, v) :: insertMember key value members

def findMember (key : List UInt8) : List (List UInt8 × Json) → Option Json
  | [] => none
  | (k, v) :: members => if key = k then some v else findMember key members

/-- An assignment that is made only if there is a value. -/
def assignMember (members : List (List UInt8 × Json)) (a : List UInt8 × Option Json) :
    List (List UInt8 × Json) :=
  match a.2 with
  | none => members
  | some value => insertMember a.1 value members

/-- The object that a sequence of assignments builds. -/
def build (assignments : List (List UInt8 × Option Json)) : Json :=
  .object (assignments.foldl assignMember [])

theorem findMember_insertMember (key k : List UInt8) (value : Json)
    (members : List (List UInt8 × Json)) :
    findMember k (insertMember key value members) =
      if k = key then some value else findMember k members := by
  induction members with
  | nil => rfl
  | cons m members ih =>
    simp only [insertMember]
    split
    · rename_i hkey
      subst hkey
      simp only [findMember]
      split <;> rfl
    split
    · rfl
    · rename_i hkey _
      simp only [findMember, ih]
      split
      · rename_i hk
        subst hk
        rw [if_neg (Ne.symm hkey)]
      · rfl

theorem findMember_assignMember (k : List UInt8) (members : List (List UInt8 × Json))
    (a : List UInt8 × Option Json) :
    findMember k (assignMember members a) =
      if k = a.1 then a.2.or (findMember k members) else findMember k members := by
  unfold assignMember
  split
  · rename_i hnone
    rw [hnone, Option.none_or, ite_self]
  · rename_i value hvalue
    rw [findMember_insertMember, hvalue, Option.some_or]

theorem mem_insertMember {key : List UInt8} {value : Json} {members : List (List UInt8 × Json)}
    {m : List UInt8 × Json} (h : m ∈ insertMember key value members) :
    m = (key, value) ∨ m ∈ members := by
  induction members with
  | nil => exact Or.inl (List.mem_singleton.mp h)
  | cons head members ih =>
    simp only [insertMember] at h
    split at h
    · exact (List.mem_cons.mp h).imp_right (List.mem_cons_of_mem _)
    split at h
    · exact List.mem_cons.mp h
    · rcases List.mem_cons.mp h with h | h
      · exact Or.inr (h ▸ List.mem_cons_self)
      · exact (ih h).imp_right (List.mem_cons_of_mem _)

/-- The keys of an object are in strictly ascending order. -/
def Sorted (members : List (List UInt8 × Json)) : Prop := members.Pairwise fun a b => a.1 < b.1

theorem lt_of_not_lt {a b : List UInt8} (hne : a ≠ b) (h : ¬a < b) : b < a := by
  rcases List.le_iff_lt_or_eq.mp (List.not_lt.mp h) with h | h
  · exact h
  · exact absurd h.symm hne

theorem Sorted.insertMember {members : List (List UInt8 × Json)} (h : Sorted members)
    (key : List UInt8) (value : Json) : Sorted (insertMember key value members) := by
  induction members with
  | nil => exact List.pairwise_singleton _ _
  | cons m members ih =>
    obtain ⟨hm, hrest⟩ := List.pairwise_cons.mp h
    simp only [Json.insertMember]
    split
    · rename_i hkey
      subst hkey
      exact List.pairwise_cons.mpr ⟨hm, hrest⟩
    split
    · rename_i hlt
      refine List.pairwise_cons.mpr ⟨fun b hb => ?_, h⟩
      rcases List.mem_cons.mp hb with rfl | hb
      · exact hlt
      · exact List.lt_trans hlt (hm b hb)
    · rename_i hkey hlt
      refine List.pairwise_cons.mpr ⟨fun b hb => ?_, ih hrest⟩
      rcases mem_insertMember hb with rfl | hb
      · exact lt_of_not_lt hkey hlt
      · exact hm b hb

/-! ### Plain values -/

/-- The octets are the UTF-8 encoding of a string. -/
def ValidUtf8 (s : List UInt8) : Prop := ∃ t : String, t.toByteArray.data.toList = s

theorem ValidUtf8.append {s t : List UInt8} (hs : ValidUtf8 s) (ht : ValidUtf8 t) :
    ValidUtf8 (s ++ t) := by
  obtain ⟨a, rfl⟩ := hs
  obtain ⟨b, rfl⟩ := ht
  exact ⟨a ++ b, by simp⟩

/-- Values made of UTF-8 strings, unsigned integers, arrays and objects. -/
inductive Plain : Json → Prop
  | unsigned (n : UInt64) : Plain (.unsigned n)
  | string {s : List UInt8} (h : ValidUtf8 s) : Plain (.string s)
  | array {elements : List Json} (h : ∀ v ∈ elements, Plain v) : Plain (.array elements)
  | object {members : List (List UInt8 × Json)} (hsorted : Sorted members)
      (hkeys : ∀ m ∈ members, ValidUtf8 m.1) (h : ∀ m ∈ members, Plain m.2) :
      Plain (.object members)

@[simp] theorem plain_unsigned (n : UInt64) : (Json.unsigned n).Plain := .unsigned n

@[simp] theorem plain_string {s : List UInt8} : (Json.string s).Plain ↔ ValidUtf8 s :=
  ⟨fun h => by cases h; assumption, .string⟩

@[simp] theorem plain_array {elements : List Json} :
    (Json.array elements).Plain ↔ ∀ v ∈ elements, v.Plain :=
  ⟨fun h => by cases h; assumption, .array⟩

/-- An assignment of a plain value under a key of UTF-8. -/
def PlainAssignment (a : List UInt8 × Option Json) : Prop :=
  ValidUtf8 a.1 ∧ ∀ v, a.2 = some v → v.Plain

/-- An object that is built by plain assignments is plain. -/
theorem plain_build {assignments : List (List UInt8 × Option Json)}
    (h : ∀ a ∈ assignments, PlainAssignment a) : (build assignments).Plain := by
  have hmembers : ∀ members : List (List UInt8 × Json), Sorted members →
      (∀ m ∈ members, ValidUtf8 m.1 ∧ m.2.Plain) →
      (Json.object (assignments.foldl assignMember members)).Plain := by
    induction assignments with
    | nil => exact fun members hsorted hplain =>
        .object hsorted (fun m hm => (hplain m hm).1) fun m hm => (hplain m hm).2
    | cons a assignments ih =>
      intro members hsorted hplain
      have hrest := ih fun b hb => h b (List.mem_cons_of_mem _ hb)
      rw [List.foldl_cons, assignMember]
      split
      · exact hrest members hsorted hplain
      · rename_i value hvalue
        refine hrest _ (hsorted.insertMember a.1 value) fun m hm => ?_
        rcases mem_insertMember hm with rfl | hm
        · obtain ⟨hkey, hplain⟩ := h a List.mem_cons_self
          exact ⟨hkey, hplain value hvalue⟩
        · exact hplain m hm
  exact hmembers [] List.Pairwise.nil (by simp)

end Json

/-- A printer, which may refuse a value, and a parser. -/
structure JsonCodec where
  dump : Json → Option (List UInt8)
  parse : List UInt8 → Option Json
  parse_nil : parse [] = none
  parse_dump : ∀ v : Json, v.Plain → ∃ text, dump v = some text ∧ parse text = some v
