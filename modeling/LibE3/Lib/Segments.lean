import Mathlib.Init

/-! A stream of words, cut into pieces.  A reader makes at most one value of a piece.  If the pieces
read as the values of the words, and no piece that reads as the value of a word is shorter than it,
then the pieces are the words: there is no room for a piece that reads as nothing. -/

namespace Segments

universe u v w x

variable {α : Type u} {β : Type v} {γ : Type w} {δ : Type x}
  {piece : γ → List α} {word : δ → List α} {read : γ → Option β} {value : δ → β}
  {pieces : List γ} {words : List δ}

/-- The words are no longer than the pieces, and where they are as long they have the same lengths. -/
theorem lengths_of_filterMap (hnonempty : ∀ p ∈ pieces, piece p ≠ [])
    (hread : pieces.filterMap read = words.map value)
    (hlong : ∀ p ∈ pieces, ∀ w ∈ words, read p = some (value w) →
      (word w).length ≤ (piece p).length) :
    (words.map word).flatten.length ≤ (pieces.map piece).flatten.length ∧
      ((words.map word).flatten.length = (pieces.map piece).flatten.length →
        (pieces.map piece).map List.length = (words.map word).map List.length) := by
  induction pieces generalizing words with
  | nil =>
    have hwords : words = [] := by simpa using hread.symm
    subst hwords
    exact ⟨Nat.le_refl _, fun _ => rfl⟩
  | cons p pieces ih =>
    obtain ⟨hp, hpieces⟩ := List.forall_mem_cons.mp hnonempty
    have hpositive : 0 < (piece p).length := List.length_pos_iff.mpr hp
    have hrest : ∀ q ∈ pieces, ∀ w ∈ words, read q = some (value w) →
        (word w).length ≤ (piece q).length := fun q hq => hlong q (List.mem_cons_of_mem _ hq)
    simp only [List.map_cons, List.flatten_cons, List.length_append]
    rw [List.filterMap_cons] at hread
    cases hvalue : read p with
    | none =>
      rw [hvalue] at hread
      obtain ⟨hle, -⟩ := ih hpieces hread hrest
      exact ⟨by omega, fun heq => by omega⟩
    | some b =>
      rw [hvalue] at hread
      cases words with
      | nil => cases hread
      | cons w words =>
        rw [List.map_cons] at hread
        obtain ⟨hb, htail⟩ := List.cons.inj hread
        have hw := hlong p List.mem_cons_self w List.mem_cons_self (by rw [hvalue, hb])
        obtain ⟨hle, heq⟩ := ih hpieces htail fun q hq w' hw' =>
          hrest q hq w' (List.mem_cons_of_mem _ hw')
        simp only [List.map_cons, List.flatten_cons, List.length_append]
        refine ⟨by omega, fun htotal => ?_⟩
        rw [heq (by omega)]
        congr 1
        omega

/-- Pieces of the stream that read as the words, none shorter than its word, are the words. -/
theorem eq_of_filterMap (hstream : (pieces.map piece).flatten = (words.map word).flatten)
    (hnonempty : ∀ p ∈ pieces, piece p ≠ []) (hread : pieces.filterMap read = words.map value)
    (hlong : ∀ p ∈ pieces, ∀ w ∈ words, read p = some (value w) →
      (word w).length ≤ (piece p).length) :
    pieces.map piece = words.map word := by
  obtain ⟨-, hlengths⟩ := lengths_of_filterMap hnonempty hread hlong
  rw [List.eq_iff_flatten_eq]
  exact ⟨hstream, hlengths (congrArg List.length hstream).symm⟩

end Segments
