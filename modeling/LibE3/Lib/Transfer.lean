import Mathlib.Data.List.Basic
import Mathlib.Data.List.TakeDrop

/-! Transfers whose calls move as much as the other side takes.  A script says what each call comes to:
`none` is a failure, and `some n` is a call that moves up to `n + 1` items, so at least one and at most
as many as were asked for.  `drain` is the loop that writes a list, and `fill` the loop that reads a
number of items from a stream.  Both end after at most one test more than there are items. -/

namespace Transfer

universe u

variable {α : Type u}

abbrev Script := Nat → Option Nat

/-- No call of the script fails. -/
def Script.Willing (script : Script) : Prop := ∀ k, (script k).isSome

/-! ### Writing -/

/-- What has been written, and by how many calls. -/
structure Progress (α : Type u) where
  written : List α := []
  calls : Nat := 0

/-- The loop that writes `data` from item `sent` on, for at most `tests` tests of its condition: the
number of items sent at its end, or `none` where a call fails. -/
def drain (script : Script) (data : List α) :
    Nat → Progress α → Nat → Option (Progress α × Option Nat)
  | 0, _, _ => none
  | tests + 1, p, sent =>
    if sent < data.length then
      match script p.calls with
      | none => some ({ p with calls := p.calls + 1 }, none)
      | some willing =>
        let count := min (willing + 1) (data.length - sent)
        drain script data tests ⟨p.written ++ (data.drop sent).take count, p.calls + 1⟩ (sent + count)
    else some (p, some sent)

/-- How many items are out after `k` calls of which none fails, where a call asks for `ask t` once `t`
items are out. -/
def out (script : Script) (ask : Nat → Nat) : Nat → Nat
  | 0 => 0
  | k + 1 => out script ask k + min ((script k).getD 0 + 1) (ask (out script ask k))

theorem out_mono (script : Script) (ask : Nat → Nat) {j k : Nat} (h : j ≤ k) :
    out script ask j ≤ out script ask k := by
  induction h with
  | refl => exact Nat.le_refl _
  | step _ ih => exact Nat.le_trans ih (Nat.le_add_right _ _)

theorem out_le {ask : Nat → Nat} {n : Nat} (hask : ∀ t ≤ n, ask t ≤ n - t) (script : Script) (k : Nat) :
    out script ask k ≤ n := by
  induction k with
  | zero => exact Nat.zero_le n
  | succ k ih =>
    have hnext := hask _ ih
    rw [out]
    omega

/-- The calls that were made bring `t` items out, and none of them failed. -/
structure Out (script : Script) (ask : Nat → Nat) (calls t : Nat) : Prop where
  count : out script ask calls = t
  willing : ∀ k < calls, (script k).isSome

theorem Out.start (script : Script) (ask : Nat → Nat) : Out script ask 0 0 :=
  ⟨rfl, fun k hk => absurd hk (Nat.not_lt_zero k)⟩

theorem Out.next {script : Script} {ask : Nat → Nat} {calls t willing : Nat}
    (h : Out script ask calls t) (hcall : script calls = some willing) :
    Out script ask (calls + 1) (t + min (willing + 1) (ask t)) := by
  refine ⟨?_, fun k hk => ?_⟩
  · rw [out, h.count, hcall]
    rfl
  · rcases Nat.lt_succ_iff_lt_or_eq.mp hk with hk | rfl
    · exact h.willing k hk
    · rw [hcall]
      rfl

/-- Calls that bring more items out than are out at a failing call include the failing call. -/
theorem Out.le_of_failed {script : Script} {ask : Nat → Nat} {calls t calls' t' : Nat}
    (h : Out script ask calls t) (hfailed : script calls = none) (h' : Out script ask calls' t') :
    t' ≤ t := by
  have hle : calls' ≤ calls := by
    refine Nat.not_lt.mp fun hlt => ?_
    have hsome := h'.willing calls hlt
    rw [hfailed] at hsome
    cases hsome
  rw [← h.count, ← h'.count]
  exact out_mono script ask hle

/-- Calls that do not fail bring everything out in the end. -/
theorem exists_out {script : Script} (hscript : script.Willing) {ask : Nat → Nat} {n : Nat}
    (hask : ∀ t < n, 1 ≤ ask t ∧ ask t ≤ n - t) {calls t : Nat} (h : Out script ask calls t)
    (ht : t ≤ n) : ∃ calls', Out script ask calls' n := by
  induction hmissing : n - t using Nat.strongRecOn generalizing calls t with
  | _ missing ih =>
    rcases Nat.lt_or_eq_of_le ht with hlt | rfl
    · obtain ⟨willing, hcall⟩ := Option.isSome_iff_exists.mp (hscript calls)
      obtain ⟨hpos, hle⟩ := hask t hlt
      exact ih _ (by omega) (h.next hcall) (by omega) rfl
    · exact ⟨calls, h⟩

/-- How a write of `data`, made when `base` items are out and `before` is written, ends: all of it is
written, or a call fails with a part of it missing. -/
inductive Wrote (script : Script) (ask : Nat → Nat) (base : Nat) (data before : List α)
    (p : Progress α) : Option Nat → Prop
  | all (h : p.written = before ++ data) (hout : Out script ask p.calls (base + data.length)) :
      Wrote script ask base data before p (some data.length)
  | cut (n : Nat) (hn : n < data.length) (h : p.written = before ++ data.take n) (calls : Nat)
      (hout : Out script ask calls (base + n)) (hfailed : script calls = none) :
      Wrote script ask base data before p none

theorem take_append_take_drop (data : List α) (m n : Nat) :
    data.take m ++ (data.drop m).take n = data.take (m + n) :=
  (List.take_add).symm

theorem drain_ends {script : Script} {ask : Nat → Nat} {base : Nat} {data before : List α}
    {tests sent : Nat} {p : Progress α} (hask : ∀ s < data.length, ask (base + s) = data.length - s)
    (hsent : sent ≤ data.length) (htests : data.length - sent < tests)
    (hp : p.written = before ++ data.take sent) (hout : Out script ask p.calls (base + sent)) :
    ∃ p' result, drain script data tests p sent = some (p', result) ∧
      Wrote script ask base data before p' result := by
  induction tests generalizing p sent with
  | zero => omega
  | succ tests ih =>
    unfold drain
    split
    case isTrue hlt =>
      cases hcall : script p.calls with
      | none => exact ⟨_, _, rfl, .cut sent hlt hp p.calls hout hcall⟩
      | some willing =>
        have hnext := hout.next hcall
        rw [hask sent hlt, Nat.add_assoc] at hnext
        refine ih (by omega) (by omega) ?_ hnext
        rw [hp, List.append_assoc, take_append_take_drop]
    case isFalse hge =>
      have heq : sent = data.length := Nat.le_antisymm hsent (Nat.not_lt.mp hge)
      subst heq
      refine ⟨p, _, rfl, .all ?_ hout⟩
      rw [hp, List.take_length]

/-! ### Reading -/

/-- What has been read, what is still to come, and how many calls were made. -/
structure Reading (α : Type u) where
  received : List α := []
  stream : List α
  calls : Nat := 0

/-- How a reading loop ends: it has what it wants, the stream is at its end, or a call fails. -/
inductive End
  | full
  | closed
  | failed
  deriving DecidableEq, Repr

/-- The loop that reads `size` items, of which every call asks for `ask` of what is missing, for at
most `tests` tests of its condition. -/
def fill (ask : Nat → Nat) (size : Nat) (script : Script) :
    Nat → Reading α → Option (Reading α × End)
  | 0, _ => none
  | tests + 1, r =>
    if r.received.length < size then
      match script r.calls with
      | none => some ({ r with calls := r.calls + 1 }, .failed)
      | some willing =>
        if r.stream.isEmpty then some ({ r with calls := r.calls + 1 }, .closed)
        else
          let count := min (willing + 1) (ask (size - r.received.length))
          fill ask size script tests
            ⟨r.received ++ r.stream.take count, r.stream.drop count, r.calls + 1⟩
    else some (r, .full)

section Fill

variable {ask : Nat → Nat} {size : Nat} {script : Script} {tests : Nat} {r r' : Reading α}

/-- A loop whose calls do not fail gets the items that it wants where the stream has them, and takes
no others. -/
theorem fill_full (hask : ∀ n, 1 ≤ n → 1 ≤ ask n ∧ ask n ≤ n) (hscript : script.Willing)
    {data rest : List α} (hstream : r.stream = data ++ rest)
    (hsize : r.received.length + data.length = size) (htests : data.length < tests) :
    ∃ calls, fill ask size script tests r = some (⟨r.received ++ data, rest, calls⟩, .full) := by
  induction tests generalizing r data with
  | zero => omega
  | succ tests ih =>
    unfold fill
    split
    case isTrue hlt =>
      obtain ⟨willing, hcall⟩ := Option.isSome_iff_exists.mp (hscript r.calls)
      have hdata : data ≠ [] := by
        rintro rfl
        simp at hsize
        omega
      have hempty : r.stream.isEmpty = false := by
        rw [hstream]
        cases data with
        | nil => exact absurd rfl hdata
        | cons x data => rfl
      obtain ⟨hpos, hle⟩ := hask (size - r.received.length) (by omega)
      simp only [hcall, hempty, Bool.false_eq_true, if_false]
      generalize hmin : min (willing + 1) (ask (size - r.received.length)) = count
      have hcount : count ≤ data.length := by omega
      have hdrop : r.stream.drop count = data.drop count ++ rest := by
        rw [hstream, List.drop_append_of_le_length hcount]
      have htake : r.stream.take count = data.take count := by
        rw [hstream, List.take_append_of_le_length hcount]
      rw [hdrop, htake]
      obtain ⟨calls, hrun⟩ := ih (r := ⟨r.received ++ data.take count, data.drop count ++ rest,
          r.calls + 1⟩) rfl
        (by
          simp only [List.length_append, List.length_drop, List.length_take]
          omega)
        (by
          rw [List.length_drop]
          omega)
      refine ⟨calls, hrun.trans ?_⟩
      simp only [List.append_assoc, List.take_append_drop]
    case isFalse hge =>
      have hnil : data = [] := List.length_eq_zero_iff.mp (by omega)
      subst hnil
      refine ⟨r.calls, ?_⟩
      rw [List.append_nil]
      simp only [List.nil_append] at hstream
      rw [← hstream]

/-- A loop that gets what it wants has taken it from the stream, and nothing else. -/
theorem fill_eq_full (hask : ∀ n, ask n ≤ n) (hr : r.received.length ≤ size)
    (h : fill ask size script tests r = some (r', .full)) :
    r'.received ++ r'.stream = r.received ++ r.stream ∧ r'.received.length = size := by
  induction tests generalizing r with
  | zero => cases h
  | succ tests ih =>
    unfold fill at h
    split at h
    case isTrue hlt =>
      split at h
      · cases h
      · split at h
        · cases h
        · have hle := hask (size - r.received.length)
          obtain ⟨hsame, hsize⟩ := ih (by
            simp only [List.length_append, List.length_take]
            omega) h
          refine ⟨hsame.trans ?_, hsize⟩
          simp only [List.append_assoc, List.take_append_drop]
    case isFalse hge =>
      cases h
      exact ⟨rfl, Nat.le_antisymm hr (Nat.not_lt.mp hge)⟩

end Fill

end Transfer
