import LibE3.Lib.Json
import Mathlib.Data.Nat.Digits.Defs
import Mathlib.Data.Nat.Digits.Lemmas
import Mathlib.Tactic.IntervalCases

/-! The compact text of plain JSON values, and a parser for it.  A string escapes the quotation mark,
the backslash and the control characters; an integer is written in decimal; members and elements are
separated by commas alone. -/

namespace Json

namespace Text

def quote : UInt8 := 0x22
def backslash : UInt8 := 0x5C
def comma : UInt8 := 0x2C
def colon : UInt8 := 0x3A
def openArray : UInt8 := 0x5B
def closeArray : UInt8 := 0x5D
def openObject : UInt8 := 0x7B
def closeObject : UInt8 := 0x7D

/-! ### Numbers -/

def isDigit (c : UInt8) : Bool := decide (0x30 ≤ c ∧ c ≤ 0x39)

def digit (d : Nat) : UInt8 := .ofNat (0x30 + d)

def decimal (n : Nat) : List UInt8 :=
  if n = 0 then [0x30] else ((Nat.digits 10 n).map digit).reverse

/-- The number that a list of digits denotes, the most significant one first. -/
def valueOf (digits : List UInt8) : Nat := digits.foldl (fun n c => 10 * n + (c.toNat - 0x30)) 0

theorem digit_toNat {d : Nat} (h : d < 10) : (digit d).toNat = 0x30 + d := by
  unfold digit
  rw [UInt8.toNat_ofNat']
  omega

theorem isDigit_digit {d : Nat} (h : d < 10) : isDigit (digit d) = true := by
  unfold isDigit
  rw [decide_eq_true_iff, UInt8.le_iff_toNat_le, UInt8.le_iff_toNat_le, digit_toNat h]
  simp only [UInt8.reduceToNat]
  omega

theorem decimal_digits (n : Nat) : ∀ c ∈ decimal n, isDigit c = true := by
  intro c hc
  unfold decimal at hc
  split at hc
  · rw [List.mem_singleton] at hc
    rw [hc]
    rfl
  · rw [List.mem_reverse, List.mem_map] at hc
    obtain ⟨d, hd, rfl⟩ := hc
    exact isDigit_digit (Nat.digits_lt_base (by omega) hd)

theorem decimal_ne_nil (n : Nat) : decimal n ≠ [] := by
  unfold decimal
  split
  · exact List.cons_ne_nil _ _
  · rename_i hn
    rw [ne_eq, List.reverse_eq_nil_iff, List.map_eq_nil_iff, Nat.digits_eq_nil_iff_eq_zero]
    exact hn

theorem valueOf_digits {ds : List Nat} (h : ∀ d ∈ ds, d < 10) :
    valueOf (ds.map digit).reverse = Nat.ofDigits 10 ds := by
  unfold valueOf
  rw [List.foldl_reverse]
  induction ds with
  | nil => rfl
  | cons d ds ih =>
    rw [List.map_cons, List.foldr_cons, ih fun e he => h e (List.mem_cons_of_mem _ he),
      Nat.ofDigits_cons, digit_toNat (h d List.mem_cons_self)]
    omega

theorem valueOf_decimal (n : Nat) : valueOf (decimal n) = n := by
  unfold decimal
  split
  · rename_i hn
    rw [hn]
    rfl
  · rw [valueOf_digits fun d hd => Nat.digits_lt_base (by omega) hd, Nat.ofDigits_digits]

/-- What follows a number does not go on with a digit. -/
def EndsNumber (rest : List UInt8) : Prop := ∀ c ∈ rest.head?, isDigit c = false

theorem span_decimal (n : Nat) {rest : List UInt8} (h : EndsNumber rest) :
    (decimal n ++ rest).takeWhile isDigit = decimal n ∧
      (decimal n ++ rest).dropWhile isDigit = rest := by
  have htake : rest.takeWhile isDigit = [] ∧ rest.dropWhile isDigit = rest := by
    cases rest with
    | nil => exact ⟨rfl, rfl⟩
    | cons c rest =>
      have hc := h c rfl
      simp [hc]
  rw [List.takeWhile_append_of_pos (decimal_digits n),
    List.dropWhile_append_of_pos (decimal_digits n), htake.1, htake.2, List.append_nil]
  exact ⟨rfl, rfl⟩

/-! ### Strings -/

def hexDigit (d : Nat) : UInt8 := if d < 10 then .ofNat (0x30 + d) else .ofNat (0x57 + d)

def escapeOctet (b : UInt8) : List UInt8 :=
  if b = quote then [backslash, quote]
  else if b = backslash then [backslash, backslash]
  else if b = 0x08 then [backslash, 0x62]
  else if b = 0x09 then [backslash, 0x74]
  else if b = 0x0A then [backslash, 0x6E]
  else if b = 0x0C then [backslash, 0x66]
  else if b = 0x0D then [backslash, 0x72]
  else if b < 0x20 then
    [backslash, 0x75, 0x30, 0x30, hexDigit (b.toNat / 16), hexDigit (b.toNat % 16)]
  else [b]

/-- The octet of the escape sequence with the letter `c`. -/
def unescapeLetter (c : UInt8) : Option UInt8 :=
  if c = quote then some quote
  else if c = backslash then some backslash
  else if c = 0x62 then some 0x08
  else if c = 0x74 then some 0x09
  else if c = 0x6E then some 0x0A
  else if c = 0x66 then some 0x0C
  else if c = 0x72 then some 0x0D
  else none

def hexValue (c : UInt8) : UInt8 := if isDigit c then c - 0x30 else c - 0x57

/-- The next octet of a string, with `c` read. -/
def unescape (c : UInt8) (rest : List UInt8) : Option (UInt8 × List UInt8) :=
  if c = backslash then
    match rest with
    | [] => none
    | e :: rest =>
      if e = 0x75 then
        match rest with
        | _ :: _ :: hi :: lo :: rest => some (16 * hexValue hi + hexValue lo, rest)
        | _ => none
      else (unescapeLetter e).map fun b => (b, rest)
  else some (c, rest)

theorem unescape_escapeOctet (b : UInt8) :
    ∃ c e, escapeOctet b = c :: e ∧ c ≠ quote ∧
      ∀ rest, unescape c (e ++ rest) = some (b, rest) := by
  by_cases hcontrol : b < 0x20
  · -- Thirty-two octets, each of which the definitions compute.
    have hlt : b.toNat < 32 := hcontrol
    obtain ⟨n, hn, rfl⟩ : ∃ n < 32, b = UInt8.ofNat n :=
      ⟨b.toNat, hlt, UInt8.ofNat_toNat.symm⟩
    interval_cases n <;> exact ⟨_, _, rfl, by decide, fun _ => rfl⟩
  by_cases hquote : b = quote
  · subst hquote
    exact ⟨_, _, rfl, by decide, fun _ => rfl⟩
  by_cases hbackslash : b = backslash
  · subst hbackslash
    exact ⟨_, _, rfl, by decide, fun _ => rfl⟩
  refine ⟨b, [], ?_, hquote, fun rest => by simp [unescape, hbackslash]⟩
  have hne : ∀ n : UInt8, n < 0x20 → b ≠ n := fun n hn hb => hcontrol (hb ▸ hn)
  simp [escapeOctet, hquote, hbackslash, hcontrol, hne 0x08 (by decide), hne 0x09 (by decide),
    hne 0x0A (by decide), hne 0x0C (by decide), hne 0x0D (by decide)]

def escape (s : List UInt8) : List UInt8 := s.flatMap escapeOctet

def quoted (s : List UInt8) : List UInt8 := quote :: escape s ++ [quote]

/-- The rest of a string whose quotation mark was read, in at most `fuel` octets. -/
def parseChars : Nat → List UInt8 → Option (List UInt8 × List UInt8)
  | 0, _ => none
  | _ + 1, [] => none
  | fuel + 1, c :: rest =>
    if c = quote then some ([], rest)
    else
      match unescape c rest with
      | none => none
      | some (b, rest) => (parseChars fuel rest).map fun p => (b :: p.1, p.2)

theorem parseChars_escape (s rest : List UInt8) {fuel : Nat} (h : s.length < fuel) :
    parseChars fuel (escape s ++ quote :: rest) = some (s, rest) := by
  induction s generalizing fuel with
  | nil =>
    obtain ⟨fuel, rfl⟩ := Nat.exists_eq_add_of_lt h
    rw [List.length_nil, Nat.zero_add]
    simp [escape, parseChars]
  | cons b s ih =>
    obtain ⟨fuel, rfl⟩ : ∃ f, fuel = f + 1 := ⟨fuel - 1, by omega⟩
    obtain ⟨c, e, hescape, hc, hunescape⟩ := unescape_escapeOctet b
    have hsplit : escape (b :: s) ++ quote :: rest = c :: (e ++ (escape s ++ quote :: rest)) := by
      simp [escape, hescape]
    rw [hsplit, parseChars, if_neg hc, hunescape]
    simp only
    rw [ih (by simpa using h)]
    rfl

/-! ### Values -/

mutual

/-- The text of a plain value.  Values of the other kinds have none. -/
def text : Json → List UInt8
  | .unsigned n => decimal n.toNat
  | .string s => quoted s
  | .array [] => [openArray, closeArray]
  | .array (v :: vs) => openArray :: text v ++ textElements vs
  | .object [] => [openObject, closeObject]
  | .object ((k, v) :: ms) => openObject :: quoted k ++ colon :: text v ++ textMembers ms
  | _ => []

/-- The elements after the first one, and the end of the array. -/
def textElements : List Json → List UInt8
  | [] => [closeArray]
  | v :: vs => comma :: text v ++ textElements vs

/-- The members after the first one, and the end of the object. -/
def textMembers : List (List UInt8 × Json) → List UInt8
  | [] => [closeObject]
  | (k, v) :: ms => comma :: quoted k ++ colon :: text v ++ textMembers ms

end

/-- A string with its quotation marks. -/
def parseString : List UInt8 → Option (List UInt8 × List UInt8)
  | [] => none
  | c :: rest => if c = quote then parseChars (rest.length + 1) rest else none

/-- A key and the colon after it. -/
def parseKey (input : List UInt8) : Option (List UInt8 × List UInt8) :=
  match parseString input with
  | some (k, c :: rest) => if c = colon then some (k, rest) else none
  | _ => none

def parseNumber (input : List UInt8) : Option (Json × List UInt8) :=
  let n := valueOf (input.takeWhile isDigit)
  if n < 2 ^ 64 then some (.unsigned (.ofNat n), input.dropWhile isDigit) else none

mutual

/-- One value, nested at most `fuel` deep. -/
def parseValue : Nat → List UInt8 → Option (Json × List UInt8)
  | 0, _ => none
  | _ + 1, [] => none
  | fuel + 1, c :: rest =>
    if c = quote then (parseString (c :: rest)).map fun p => (.string p.1, p.2)
    else if c = openArray then
      if rest.head? = some closeArray then some (.array [], rest.tail)
      else
        (parseValue fuel rest).bind fun (v, rest) =>
          (parseElements fuel rest).map fun (vs, rest) => (.array (v :: vs), rest)
    else if c = openObject then
      if rest.head? = some closeObject then some (.object [], rest.tail)
      else
        (parseKey rest).bind fun (k, rest) => (parseValue fuel rest).bind fun (v, rest) =>
          (parseMembers fuel rest).map fun (ms, rest) => (.object ((k, v) :: ms), rest)
    else if isDigit c then parseNumber (c :: rest)
    else none

def parseElements : Nat → List UInt8 → Option (List Json × List UInt8)
  | 0, _ => none
  | _ + 1, [] => none
  | fuel + 1, c :: rest =>
    if c = closeArray then some ([], rest)
    else if c = comma then
      (parseValue fuel rest).bind fun (v, rest) =>
        (parseElements fuel rest).map fun (vs, rest) => (v :: vs, rest)
    else none

def parseMembers : Nat → List UInt8 → Option (List (List UInt8 × Json) × List UInt8)
  | 0, _ => none
  | _ + 1, [] => none
  | fuel + 1, c :: rest =>
    if c = closeObject then some ([], rest)
    else if c = comma then
      (parseKey rest).bind fun (k, rest) => (parseValue fuel rest).bind fun (v, rest) =>
        (parseMembers fuel rest).map fun (ms, rest) => ((k, v) :: ms, rest)
    else none

end

def parse (input : List UInt8) : Option Json :=
  match parseValue (input.length + 1) input with
  | some (v, []) => some v
  | _ => none

section Equations

variable (fuel : Nat) (k rest : List UInt8) (v : Json) (vs : List Json)
  (ms : List (List UInt8 × Json))

@[simp] theorem text_unsigned (n : UInt64) : text (.unsigned n) = decimal n.toNat := rfl

@[simp] theorem text_string (s : List UInt8) : text (.string s) = quoted s := rfl

@[simp] theorem text_array_nil : text (.array []) = [openArray, closeArray] := rfl

@[simp] theorem text_array_cons :
    text (.array (v :: vs)) = openArray :: text v ++ textElements vs := rfl

@[simp] theorem text_object_nil : text (.object []) = [openObject, closeObject] := rfl

@[simp] theorem text_object_cons : text (.object ((k, v) :: ms)) =
    openObject :: quoted k ++ colon :: text v ++ textMembers ms := rfl

@[simp] theorem textElements_nil : textElements [] = [closeArray] := rfl

@[simp] theorem textElements_cons :
    textElements (v :: vs) = comma :: text v ++ textElements vs := rfl

@[simp] theorem textMembers_nil : textMembers [] = [closeObject] := rfl

@[simp] theorem textMembers_cons : textMembers ((k, v) :: ms) =
    comma :: quoted k ++ colon :: text v ++ textMembers ms := rfl

theorem parseValue_quote : parseValue (fuel + 1) (quote :: rest) =
    (parseString (quote :: rest)).map fun p => (.string p.1, p.2) := rfl

theorem parseValue_openArray : parseValue (fuel + 1) (openArray :: rest) =
    if rest.head? = some closeArray then some (.array [], rest.tail)
    else
      (parseValue fuel rest).bind fun (v, rest) =>
        (parseElements fuel rest).map fun (vs, rest) => (.array (v :: vs), rest) := rfl

theorem parseValue_openObject : parseValue (fuel + 1) (openObject :: rest) =
    if rest.head? = some closeObject then some (.object [], rest.tail)
    else
      (parseKey rest).bind fun (k, rest) => (parseValue fuel rest).bind fun (v, rest) =>
        (parseMembers fuel rest).map fun (ms, rest) => (.object ((k, v) :: ms), rest) := rfl

theorem parseValue_digit {c : UInt8} (h : isDigit c = true) :
    parseValue (fuel + 1) (c :: rest) = parseNumber (c :: rest) := by
  have hother : ∀ d : UInt8, isDigit d = false → c ≠ d := by
    rintro d hd rfl
    rw [h] at hd
    cases hd
  rw [parseValue, if_neg (hother quote rfl), if_neg (hother openArray rfl),
    if_neg (hother openObject rfl), if_pos h]

theorem parseElements_comma : parseElements (fuel + 1) (comma :: rest) =
    (parseValue fuel rest).bind fun (v, rest) =>
      (parseElements fuel rest).map fun (vs, rest) => (v :: vs, rest) := rfl

theorem parseMembers_comma : parseMembers (fuel + 1) (comma :: rest) =
    (parseKey rest).bind fun (k, rest) => (parseValue fuel rest).bind fun (v, rest) =>
      (parseMembers fuel rest).map fun (ms, rest) => ((k, v) :: ms, rest) := rfl

end Equations

/-! ### The parser reads what the printer writes -/

theorem length_le_escape (s : List UInt8) : s.length ≤ (escape s).length := by
  induction s with
  | nil => exact le_rfl
  | cons b s ih =>
    obtain ⟨c, e, hescape, -, -⟩ := unescape_escapeOctet b
    simp only [escape, List.flatMap_cons, hescape, List.length_cons, List.length_append] at ih ⊢
    omega

theorem parseString_quoted (s rest : List UInt8) :
    parseString (quoted s ++ rest) = some (s, rest) := by
  have hsplit : quoted s ++ rest = quote :: (escape s ++ quote :: rest) := by simp [quoted]
  rw [hsplit, parseString, if_pos rfl]
  refine parseChars_escape s rest ?_
  have hlength := length_le_escape s
  simp only [List.length_append, List.length_cons]
  omega

theorem parseKey_quoted (k rest : List UInt8) :
    parseKey (quoted k ++ colon :: rest) = some (k, rest) := by
  simp [parseKey, parseString_quoted]

/-- The parser reads the text of `v` back, whatever follows it. -/
def Reads (v : Json) : Prop :=
  ∀ fuel rest, (text v).length ≤ fuel → EndsNumber rest →
    parseValue fuel (text v ++ rest) = some (v, rest)

theorem endsNumber_elements (vs : List Json) (rest : List UInt8) :
    EndsNumber (textElements vs ++ rest) := by
  cases vs <;> simp [EndsNumber, comma, closeArray, isDigit]

theorem endsNumber_members (ms : List (List UInt8 × Json)) (rest : List UInt8) :
    EndsNumber (textMembers ms ++ rest) := by
  rcases ms with _ | ⟨⟨k, v⟩, ms⟩ <;> simp [EndsNumber, comma, closeObject, isDigit]

/-- The text of a plain value does not start with the end of an array. -/
theorem text_head {v : Json} (h : v.Plain) : ∃ c t, text v = c :: t ∧ c ≠ closeArray := by
  cases h with
  | unsigned n =>
    obtain ⟨c, t, htext⟩ := List.exists_cons_of_ne_nil (decimal_ne_nil n.toNat)
    refine ⟨c, t, htext, ?_⟩
    rintro rfl
    have hdigit := decimal_digits n.toNat closeArray (by simp [htext])
    cases hdigit
  | string => exact ⟨_, _, rfl, by decide⟩
  | @array elements =>
    cases elements with
    | nil => exact ⟨_, _, rfl, by decide⟩
    | cons v vs => exact ⟨_, _, rfl, by decide⟩
  | @object members =>
    cases members with
    | nil => exact ⟨_, _, rfl, by decide⟩
    | cons m ms => exact ⟨_, _, rfl, by decide⟩

theorem reads_unsigned (n : UInt64) : Reads (.unsigned n) := by
  intro fuel rest hfuel hrest
  obtain ⟨c, t, htext⟩ := List.exists_cons_of_ne_nil (decimal_ne_nil n.toNat)
  have hdigit : isDigit c = true := decimal_digits n.toNat c (by simp [htext])
  obtain ⟨fuel, rfl⟩ : ∃ f, fuel = f + 1 := ⟨fuel - 1, by
    have hlength := congrArg List.length htext
    simp only [text_unsigned, List.length_cons] at hfuel hlength
    omega⟩
  obtain ⟨htake, hdrop⟩ := span_decimal n.toNat hrest
  have hparse : parseNumber (text (.unsigned n) ++ rest) = some (.unsigned n, rest) := by
    simp only [parseNumber, text_unsigned, htake, hdrop, valueOf_decimal]
    rw [if_pos n.toNat_lt, UInt64.ofNat_toNat]
  rw [← hparse, text_unsigned, htext, List.cons_append, parseValue_digit _ _ hdigit]

theorem reads_string (s : List UInt8) : Reads (.string s) := by
  intro fuel rest hfuel _
  obtain ⟨fuel, rfl⟩ : ∃ f, fuel = f + 1 := ⟨fuel - 1, by
    simp only [text_string, quoted, List.length_cons, List.length_append] at hfuel
    omega⟩
  rw [text_string, quoted, List.cons_append, List.cons_append, parseValue_quote,
    ← List.cons_append, ← List.cons_append, ← quoted, parseString_quoted]
  rfl

theorem parseElements_text {vs : List Json} (h : ∀ v ∈ vs, Reads v) {fuel : Nat}
    {rest : List UInt8} (hfuel : (textElements vs).length ≤ fuel) :
    parseElements fuel (textElements vs ++ rest) = some (vs, rest) := by
  induction vs generalizing fuel with
  | nil =>
    obtain ⟨fuel, rfl⟩ : ∃ f, fuel = f + 1 := ⟨fuel - 1, by
      simp only [textElements_nil, List.length_singleton] at hfuel
      omega⟩
    rfl
  | cons v vs ih =>
    simp only [textElements_cons, List.length_cons, List.length_append] at hfuel
    obtain ⟨fuel, rfl⟩ : ∃ f, fuel = f + 1 := ⟨fuel - 1, by omega⟩
    have hv := h v List.mem_cons_self fuel (textElements vs ++ rest) (by omega)
      (endsNumber_elements vs rest)
    have hvs : parseElements fuel (textElements vs ++ rest) = some (vs, rest) :=
      ih (fun w hw => h w (List.mem_cons_of_mem _ hw)) (by omega)
    rw [textElements_cons, List.cons_append, List.cons_append, parseElements_comma,
      List.append_assoc, hv]
    simp only [Option.bind_some]
    rw [hvs]
    rfl

theorem parseMembers_text {ms : List (List UInt8 × Json)} (h : ∀ m ∈ ms, Reads m.2) {fuel : Nat}
    {rest : List UInt8} (hfuel : (textMembers ms).length ≤ fuel) :
    parseMembers fuel (textMembers ms ++ rest) = some (ms, rest) := by
  induction ms generalizing fuel with
  | nil =>
    obtain ⟨fuel, rfl⟩ : ∃ f, fuel = f + 1 := ⟨fuel - 1, by
      simp only [textMembers_nil, List.length_singleton] at hfuel
      omega⟩
    rfl
  | cons m ms ih =>
    obtain ⟨k, v⟩ := m
    simp only [textMembers_cons, List.length_cons, List.length_append] at hfuel
    obtain ⟨fuel, rfl⟩ : ∃ f, fuel = f + 1 := ⟨fuel - 1, by omega⟩
    have hreads : Reads v := h (k, v) List.mem_cons_self
    have hv := hreads fuel (textMembers ms ++ rest) (by omega) (endsNumber_members ms rest)
    have hms : parseMembers fuel (textMembers ms ++ rest) = some (ms, rest) :=
      ih (fun w hw => h w (List.mem_cons_of_mem _ hw)) (by omega)
    have hsplit : textMembers ((k, v) :: ms) ++ rest =
        comma :: (quoted k ++ colon :: (text v ++ (textMembers ms ++ rest))) := by
      simp
    rw [hsplit, parseMembers_comma, parseKey_quoted]
    simp only [Option.bind_some]
    rw [hv]
    simp only [Option.bind_some]
    rw [hms]
    rfl

theorem reads_array {vs : List Json} (hplain : ∀ v ∈ vs, v.Plain) (h : ∀ v ∈ vs, Reads v) :
    Reads (.array vs) := by
  intro fuel rest hfuel _
  cases vs with
  | nil =>
    obtain ⟨fuel, rfl⟩ : ∃ f, fuel = f + 1 := ⟨fuel - 1, by
      simp only [text_array_nil, List.length_cons] at hfuel
      omega⟩
    rfl
  | cons v vs =>
    simp only [text_array_cons, List.length_cons, List.length_append] at hfuel
    obtain ⟨fuel, rfl⟩ : ∃ f, fuel = f + 1 := ⟨fuel - 1, by omega⟩
    obtain ⟨c, t, htext, hc⟩ := text_head (hplain v List.mem_cons_self)
    have hv := h v List.mem_cons_self fuel (textElements vs ++ rest) (by omega)
      (endsNumber_elements vs rest)
    have hvs : parseElements fuel (textElements vs ++ rest) = some (vs, rest) :=
      parseElements_text (fun w hw => h w (List.mem_cons_of_mem _ hw)) (by omega)
    have hopen : (text v ++ (textElements vs ++ rest)).head? ≠ some closeArray := by
      simpa [htext] using hc
    rw [text_array_cons, List.cons_append, List.cons_append, parseValue_openArray,
      List.append_assoc, if_neg hopen, hv]
    simp only [Option.bind_some]
    rw [hvs]
    rfl

theorem reads_object {ms : List (List UInt8 × Json)} (h : ∀ m ∈ ms, Reads m.2) :
    Reads (.object ms) := by
  intro fuel rest hfuel _
  cases ms with
  | nil =>
    obtain ⟨fuel, rfl⟩ : ∃ f, fuel = f + 1 := ⟨fuel - 1, by
      simp only [text_object_nil, List.length_cons] at hfuel
      omega⟩
    rfl
  | cons m ms =>
    obtain ⟨k, v⟩ := m
    simp only [text_object_cons, List.length_cons, List.length_append] at hfuel
    obtain ⟨fuel, rfl⟩ : ∃ f, fuel = f + 1 := ⟨fuel - 1, by omega⟩
    have hreads : Reads v := h (k, v) List.mem_cons_self
    have hv := hreads fuel (textMembers ms ++ rest) (by omega) (endsNumber_members ms rest)
    have hms : parseMembers fuel (textMembers ms ++ rest) = some (ms, rest) :=
      parseMembers_text (fun w hw => h w (List.mem_cons_of_mem _ hw)) (by omega)
    have hsplit : text (.object ((k, v) :: ms)) ++ rest =
        openObject :: (quoted k ++ colon :: (text v ++ (textMembers ms ++ rest))) := by
      simp
    rw [hsplit, parseValue_openObject, if_neg (by simp [quoted, quote, closeObject]),
      parseKey_quoted]
    simp only [Option.bind_some]
    rw [hv]
    simp only [Option.bind_some]
    rw [hms]
    rfl

theorem reads_plain {v : Json} (h : v.Plain) : Reads v := by
  induction h with
  | unsigned n => exact reads_unsigned n
  | string _ => exact reads_string _
  | array hplain ih => exact reads_array hplain ih
  | object _ _ _ ih => exact reads_object ih

/-- The parser inverts the printer on plain values. -/
theorem parse_text {v : Json} (h : v.Plain) : parse (text v) = some v := by
  have hread := reads_plain h ((text v).length + 1) [] (by omega) (by simp [EndsNumber])
  rw [List.append_nil] at hread
  simp only [parse, hread]

/-! ### The shape of the text -/

theorem textMembers_ends (ms : List (List UInt8 × Json)) :
    ∃ front, textMembers ms = front ++ [closeObject] := by
  induction ms with
  | nil => exact ⟨[], rfl⟩
  | cons m ms ih =>
    obtain ⟨front, hfront⟩ := ih
    refine ⟨comma :: quoted m.1 ++ colon :: text m.2 ++ front, ?_⟩
    rw [textMembers_cons, hfront]
    simp only [List.append_assoc]

/-- The text of an object ends with a brace. -/
theorem text_object_ends (ms : List (List UInt8 × Json)) :
    ∃ front, text (.object ms) = front ++ [closeObject] := by
  cases ms with
  | nil => exact ⟨[openObject], rfl⟩
  | cons m ms =>
    obtain ⟨front, hfront⟩ := textMembers_ends ms
    refine ⟨openObject :: quoted m.1 ++ colon :: text m.2 ++ front, ?_⟩
    rw [text_object_cons, hfront]
    simp only [List.append_assoc]

theorem length_text_le_textMembers {key : List UInt8} {v : Json} {ms : List (List UInt8 × Json)}
    (h : findMember key ms = some v) : (text v).length ≤ (textMembers ms).length := by
  induction ms with
  | nil => cases h
  | cons m ms ih =>
    obtain ⟨k, w⟩ := m
    simp only [textMembers_cons, List.length_append, List.length_cons]
    rw [findMember] at h
    split at h
    · cases h
      omega
    · have := ih h
      omega

/-- The text of an object is at least as long as that of any of its members. -/
theorem length_text_le_object (key : List UInt8) {v : Json} {ms : List (List UInt8 × Json)}
    (h : findMember key ms = some v) : (text v).length ≤ (text (.object ms)).length := by
  cases ms with
  | nil => cases h
  | cons m ms =>
    obtain ⟨k, w⟩ := m
    have hmembers : (textMembers ((k, w) :: ms)).length =
        (text (.object ((k, w) :: ms))).length := by
      simp only [textMembers_cons, text_object_cons, List.length_append, List.length_cons]
    exact hmembers ▸ length_text_le_textMembers h

end Text

/-- The compact text as a codec. -/
def textCodec : JsonCodec where
  dump v := some (Text.text v)
  parse := Text.parse
  parse_nil := rfl
  parse_dump v h := ⟨Text.text v, rfl, Text.parse_text h⟩

end Json
