import Mathlib.Algebra.GroupWithZero.Nat
import Mathlib.Data.List.Induction

/-! Runs and reachable states.  `final` and `history` describe a component whose calls are made one
at a time: every call has a result, and a run is the list of its calls.  `System` describes
components whose parties take steps in any order, each step enabled or not. -/

namespace Transition

universe u v w

section Calls

variable {σ : Type u} {ι : Type v} {ο : Type w} (step : σ → ι → σ × ο)

/-- The state after the calls `calls`, made in order from `s`. -/
def final (s : σ) : List ι → σ
  | [] => s
  | i :: calls => final (step s i).1 calls

/-- The calls made from `s`, each with its result. -/
def history (s : σ) : List ι → List (ι × ο)
  | [] => []
  | i :: calls => (i, (step s i).2) :: history (step s i).1 calls

theorem final_append (s : σ) (xs ys : List ι) :
    final step s (xs ++ ys) = final step (final step s xs) ys := by
  induction xs generalizing s with
  | nil => rfl
  | cons x xs ih => exact ih _

theorem history_append (s : σ) (xs ys : List ι) :
    history step s (xs ++ ys) = history step s xs ++ history step (final step s xs) ys := by
  induction xs generalizing s with
  | nil => rfl
  | cons x xs ih => simp only [List.cons_append, history, final, ih]

theorem final_concat (s : σ) (xs : List ι) (x : ι) :
    final step s (xs ++ [x]) = (step (final step s xs) x).1 := by
  rw [final_append]
  rfl

theorem history_concat (s : σ) (xs : List ι) (x : ι) :
    history step s (xs ++ [x]) = history step s xs ++ [(x, (step (final step s xs) x).2)] := by
  rw [history_append]
  rfl

variable {step}

/-- Every entry of a history is one of the calls with its result in some state. -/
theorem exists_of_mem_history {s : σ} {calls : List ι} {entry : ι × ο}
    (h : entry ∈ history step s calls) : entry.1 ∈ calls ∧ ∃ t, entry.2 = (step t entry.1).2 := by
  induction calls generalizing s with
  | nil => cases h
  | cons i calls ih =>
    rcases List.mem_cons.mp h with rfl | hrest
    · exact ⟨List.mem_cons_self, s, rfl⟩
    · exact ⟨List.mem_cons_of_mem i (ih hrest).1, (ih hrest).2⟩

/-- A relation between the state and the history that holds at the start and that every call of
`calls` keeps holds after all of them. -/
theorem run_induction {P : σ → List (ι × ο) → Prop} {s : σ} {calls : List ι} (h0 : P s [])
    (hstep : ∀ s past i, i ∈ calls → P s past → P (step s i).1 (past ++ [(i, (step s i).2)])) :
    P (final step s calls) (history step s calls) := by
  -- The run grows at its end, so the induction is on the reversed list of calls.
  induction calls using List.reverseRecOn with
  | nil => exact h0
  | append_singleton xs x ih =>
    rw [final_concat, history_concat]
    refine hstep _ _ _ (by simp) (ih fun s past i hi => hstep s past i ?_)
    exact List.mem_append_left _ hi

/-- A property of the state that every call of `calls` keeps. -/
theorem final_induction {P : σ → Prop} {s : σ} {calls : List ι} (h0 : P s)
    (hstep : ∀ s i, i ∈ calls → P s → P (step s i).1) : P (final step s calls) :=
  run_induction (P := fun s _ => P s) h0 fun s _ i hi h => hstep s i hi h

/-- Where a call keeps a property exactly if it meets the condition `ok`, the property holds in every
state of a run if and only if every call of the run meets the condition. -/
theorem always_iff {P : σ → Prop} {ok : σ → ι → Prop}
    (hstep : ∀ s i, P s → (P (step s i).1 ↔ ok s i)) {s : σ} (h0 : P s) (calls : List ι) :
    (∀ before, before <+: calls → P (final step s before)) ↔
      ∀ before i rest, calls = before ++ i :: rest → ok (final step s before) i := by
  constructor
  · intro h before i rest hcalls
    have hbefore := h before ⟨i :: rest, hcalls.symm⟩
    have hnext := h (before ++ [i]) ⟨rest, by simp [hcalls]⟩
    rw [final_concat] at hnext
    exact (hstep _ i hbefore).mp hnext
  · rintro h before ⟨rest, hcalls⟩
    induction before using List.reverseRecOn generalizing rest with
    | nil => exact h0
    | append_singleton before i ih =>
      have hsplit : calls = before ++ i :: rest := by simp [← hcalls]
      rw [final_concat]
      exact (hstep _ i (ih (i :: rest) hsplit.symm)).mpr (h before i rest hsplit)

/-- Two components of which one answers every translated call with the translated answer, as long as
their states are related, do so along whole runs. -/
theorem simulation {σ' : Type u} {ι' : Type v} {ο' : Type w} {step' : σ' → ι' → σ' × ο'}
    {R : σ → σ' → Prop} {call : ι → ι'} {answer : ι → ο → ο'}
    (hstep : ∀ s s' i, R s s' → R (step s i).1 (step' s' (call i)).1 ∧
      (step' s' (call i)).2 = answer i (step s i).2) {s : σ} {s' : σ'} (h : R s s')
    (calls : List ι) :
    R (final step s calls) (final step' s' (calls.map call)) ∧
      history step' s' (calls.map call) =
        (history step s calls).map fun entry => (call entry.1, answer entry.1 entry.2) := by
  induction calls generalizing s s' with
  | nil => exact ⟨h, rfl⟩
  | cons i calls ih =>
    obtain ⟨hnext, hanswer⟩ := hstep s s' i h
    obtain ⟨hfinal, hhistory⟩ := ih hnext
    refine ⟨hfinal, ?_⟩
    simp only [List.map_cons, history, hanswer, hhistory]

end Calls

section Partial

variable {σ : Type u} {σ' : Type u} {ι : Type v} {ο : Type w}

/-- The calls made from `s`, each with its result, and the state after them, unless one of them does
not return. -/
def perform (step : σ → ι → Option (σ × ο)) (s : σ) : List ι → Option (σ × List (ι × ο))
  | [] => some (s, [])
  | i :: calls =>
    (step s i).bind fun result =>
      (perform step result.1 calls).map fun rest => (rest.1, (i, result.2) :: rest.2)

/-- Every call meets the condition `ok` in the state that the calls before it lead to. -/
def Along (step : σ → ι → σ × ο) (ok : σ → ι → Prop) (s : σ) : List ι → Prop
  | [] => True
  | i :: calls => ok s i ∧ Along step ok (step s i).1 calls

/-- A component of which every permitted call returns the answer that another component gives, as long
as their states are related, gives the same answers along whole runs. -/
theorem perform_refines {step : σ → ι → Option (σ × ο)} {step' : σ' → ι → σ' × ο}
    {R : σ → σ' → Prop} {ok : σ' → ι → Prop}
    (hstep : ∀ s s' i, R s s' → ok s' i →
      ∃ t, step s i = some (t, (step' s' i).2) ∧ R t (step' s' i).1)
    {s : σ} {s' : σ'} (h : R s s') {calls : List ι} (hcalls : Along step' ok s' calls) :
    ∃ t, perform step s calls = some (t, history step' s' calls) ∧ R t (final step' s' calls) := by
  induction calls generalizing s s' with
  | nil => exact ⟨s, rfl, h⟩
  | cons i calls ih =>
    obtain ⟨t, hfirst, hnext⟩ := hstep s s' i h hcalls.1
    obtain ⟨u, hrest, hlast⟩ := ih hnext hcalls.2
    refine ⟨u, ?_, hlast⟩
    rw [perform, hfirst, Option.bind_some, hrest]
    rfl

end Partial

/-- A transition system: `step s e s'` says that event `e` can take `s` to `s'`. -/
structure System (σ : Type u) (ε : Type v) where
  init : σ → Prop
  step : σ → ε → σ → Prop

namespace System

variable {σ : Type u} {ε : Type v}

/-- The states that the events of a system lead to. -/
inductive Reachable (sys : System σ ε) : σ → Prop
  | start {s : σ} : sys.init s → Reachable sys s
  | next {s s' : σ} {e : ε} : Reachable sys s → sys.step s e s' → Reachable sys s'

/-- A property of the initial states that every step from a reachable state keeps holds in every
reachable state. -/
theorem Reachable.induction {sys : System σ ε} {P : σ → Prop} (h0 : ∀ s, sys.init s → P s)
    (hstep : ∀ s e s', sys.Reachable s → P s → sys.step s e s' → P s') {s : σ}
    (h : sys.Reachable s) : P s := by
  induction h with
  | start hs => exact h0 _ hs
  | next hr hs ih => exact hstep _ _ _ hr ih hs

/-- The system of a partial step function: an event is enabled where the function has a value. -/
def ofStep (start : σ) (step : σ → ε → Option σ) : System σ ε where
  init s := s = start
  step s e s' := step s e = some s'

theorem Reachable.trans {start t s : σ} {step : σ → ε → Option σ}
    (h : (ofStep start step).Reachable t) (h' : (ofStep t step).Reachable s) :
    (ofStep start step).Reachable s := by
  induction h' with
  | start hs =>
    cases hs
    exact h
  | next _ hstep ih => exact .next ih hstep

/-- A component of a system that each step leaves alone or moves as another system does. -/
theorem Reachable.component {σ' : Type w} {ε' : Type*} {sys : System σ ε} {sys' : System σ' ε'}
    (f : σ → σ') (h0 : ∀ s, sys.init s → sys'.init (f s))
    (hstep : ∀ s e s', sys.step s e s' → f s' = f s ∨ ∃ e', sys'.step (f s) e' (f s')) {s : σ}
    (h : sys.Reachable s) : sys'.Reachable (f s) := by
  induction h with
  | start hs => exact .start (h0 _ hs)
  | next _ hs ih =>
    obtain hsame | ⟨e', he⟩ := hstep _ _ _ hs
    · rw [hsame]
      exact ih
    · exact .next ih he

/-- The steps that also meet the condition `ok` on the state before them. -/
def guarded (ok : σ → ε → Bool) (step : σ → ε → Option σ) (s : σ) (e : ε) : Option σ :=
  if ok s e then step s e else none

theorem guarded_eq_some {ok : σ → ε → Bool} {step : σ → ε → Option σ} {s s' : σ} {e : ε} :
    guarded ok step s e = some s' ↔ ok s e = true ∧ step s e = some s' := by
  unfold guarded
  split <;> simp_all

/-- Steps lead to a state that is not `done` and has no step. -/
inductive CanBlock (step : σ → ε → Option σ) (done : σ → Prop) : σ → Prop
  | blocked {s : σ} : ¬done s → (∀ e, step s e = none) → CanBlock step done s
  | next {s s' : σ} {e : ε} : step s e = some s' → CanBlock step done s' → CanBlock step done s

/-- The state that a trace of events leads to, if every event of it is enabled in turn. -/
def execute (step : σ → ε → Option σ) (s : σ) : List ε → Option σ
  | [] => some s
  | e :: trace => (step s e).bind fun s' => execute step s' trace

theorem execute_append (step : σ → ε → Option σ) (s : σ) (trace trace' : List ε) :
    execute step s (trace ++ trace') =
      (execute step s trace).bind fun s' => execute step s' trace' := by
  induction trace generalizing s with
  | nil => rfl
  | cons e trace ih =>
    rw [List.cons_append, execute, execute, Option.bind_assoc]
    exact congrArg _ (funext fun s' => ih s')

theorem execute_concat (step : σ → ε → Option σ) (s : σ) (trace : List ε) (e : ε) :
    execute step s (trace ++ [e]) = (execute step s trace).bind fun s' => step s' e := by
  rw [execute_append]
  refine congrArg _ (funext fun s' => ?_)
  cases h : step s' e <;> simp [execute, h]

/-- A property that every event of a trace keeps holds after the trace. -/
theorem execute_induction {step : σ → ε → Option σ} {P : σ → Prop} {s s' : σ} {trace : List ε}
    (h0 : P s) (hstep : ∀ s e s', e ∈ trace → P s → step s e = some s' → P s')
    (hrun : execute step s trace = some s') : P s' := by
  induction trace generalizing s with
  | nil =>
    cases hrun
    exact h0
  | cons e trace ih =>
    obtain ⟨t, ht, hrest⟩ := Option.bind_eq_some_iff.mp hrun
    refine ih (hstep s e t List.mem_cons_self h0 ht) ?_ hrest
    exact fun s e s' he => hstep s e s' (List.mem_cons_of_mem _ he)

theorem Reachable.execute {start : σ} {step : σ → ε → Option σ} {s s' : σ} {trace : List ε}
    (h : (ofStep start step).Reachable s) (hrun : execute step s trace = some s') :
    (ofStep start step).Reachable s' :=
  execute_induction h (fun _ _ _ _ hs hstep => .next hs hstep) hrun

/-- A trace that runs from the start ends in a reachable state. -/
theorem reachable_of_execute {start : σ} {step : σ → ε → Option σ} {s : σ} (trace : List ε)
    (hrun : execute step start trace = some s) : (ofStep start step).Reachable s :=
  Reachable.execute (.start rfl) hrun

/-- Where a step keeps `P` exactly if it meets the condition `ok`, `P` holds in every state of a run if
and only if every step of the run meets the condition.  `Q` holds in any case. -/
theorem execute_always_iff {step : σ → ε → Option σ} {P Q : σ → Prop} {ok : σ → ε → Prop}
    (hstep : ∀ s e s', Q s → step s e = some s' → Q s' ∧ (P s → (P s' ↔ ok s e))) {s : σ}
    (hQ : Q s) (hP : P s) (trace : List ε) :
    (∀ before after t, trace = before ++ after → execute step s before = some t → P t) ↔
      ∀ before e after t t', trace = before ++ e :: after → execute step s before = some t →
        step t e = some t' → ok t e := by
  have hinv : ∀ before t, execute step s before = some t → Q t := fun before t hrun =>
    execute_induction hQ (fun s e s' _ hs hs' => (hstep s e s' hs hs').1) hrun
  constructor
  · intro h before e after t t' htrace hrun hnext
    have hrun' : execute step s (before ++ [e]) = some t' := by
      rw [execute_concat, hrun]
      exact hnext
    have hP₁ := h before (e :: after) t htrace hrun
    have hP' := h (before ++ [e]) after t' (by rw [htrace, List.append_assoc]; rfl) hrun'
    exact ((hstep t e t' (hinv before t hrun) hnext).2 hP₁).mp hP'
  · intro h before after t htrace hrun
    -- The run is followed to its end, event by event.
    induction before using List.reverseRecOn generalizing after t with
    | nil =>
      cases hrun
      exact hP
    | append_singleton before e ih =>
      rw [execute_concat] at hrun
      obtain ⟨t₁, hrun₁, hnext⟩ := Option.bind_eq_some_iff.mp hrun
      rw [List.append_assoc] at htrace
      have hP₁ := ih (e :: after) t₁ htrace hrun₁
      have hok := h before e after t₁ t htrace hrun₁ hnext
      exact ((hstep t₁ e t (hinv before t₁ hrun₁) hnext).2 hP₁).mpr hok

/-- Amortised counting.  If the work of every event is paid for by the potential `Φ`, by what the
event itself pays, or by the growth of `credit`, then so is the work of a whole trace.  `Q` is known at
the end of the run and holds before it. -/
theorem execute_amortised {step : σ → ε → Option σ} {P Q : σ → Prop} (Φ credit : σ → Nat)
    (work pay : ε → Nat) {trace : List ε}
    (hstep : ∀ s e s', e ∈ trace → P s → Q s' → step s e = some s' →
      P s' ∧ Φ s' + work e + credit s ≤ Φ s + pay e + credit s')
    (hback : ∀ s e s', step s e = some s' → Q s' → Q s) {s s' : σ} (h : P s) (h' : Q s')
    (hrun : execute step s trace = some s') :
    P s' ∧ Φ s' + (trace.map work).sum + credit s ≤ Φ s + (trace.map pay).sum + credit s' := by
  induction trace using List.reverseRecOn generalizing s' with
  | nil =>
    cases hrun
    simpa using h
  | append_singleton trace e ih =>
    rw [execute_concat] at hrun
    obtain ⟨t, ht, hlast⟩ := Option.bind_eq_some_iff.mp hrun
    obtain ⟨hP, hbefore⟩ := ih (fun s e s' he => hstep s e s' (List.mem_append_left _ he))
      (hback t e s' hlast h') ht
    obtain ⟨hP', hnow⟩ := hstep t e s' (by simp) hP h' hlast
    refine ⟨hP', ?_⟩
    simp only [List.map_append, List.map_cons, List.map_nil, List.sum_append, List.sum_cons,
      List.sum_nil]
    omega

theorem sum_map_ite (p : ε → Bool) (n : Nat) (trace : List ε) :
    (trace.map fun e => if p e then n else 0).sum = n * trace.countP p := by
  induction trace with
  | nil => rfl
  | cons e trace ih =>
    rw [List.map_cons, List.sum_cons, ih, List.countP_cons]
    split <;> simp [Nat.mul_add, Nat.add_comm]

/-! ### Intervals of a run -/

/-- Steps lead from `s` to `t` through the states `instants`, the first and the last among them, and
`P` holds in each. -/
inductive Interval (step : σ → ε → Option σ) (P : σ → Prop) : σ → List σ → σ → Prop
  | last {s : σ} : P s → Interval step P s [s] s
  | next {s s' t : σ} {e : ε} {instants : List σ} : P s → step s e = some s' →
      Interval step P s' instants t → Interval step P s (s :: instants) t

namespace Interval

variable {step : σ → ε → Option σ} {P : σ → Prop} {s t : σ} {instants : List σ}

theorem first_mem (h : Interval step P s instants t) : s ∈ instants := by
  cases h with
  | last _ => exact List.mem_cons_self
  | next _ _ _ => exact List.mem_cons_self

theorem last_mem (h : Interval step P s instants t) : t ∈ instants := by
  induction h with
  | last _ => exact List.mem_cons_self
  | next _ _ _ ih => exact List.mem_cons_of_mem _ ih

theorem holds (h : Interval step P s instants t) : ∀ n ∈ instants, P n := by
  induction h with
  | last hs =>
    intro n hn
    rw [List.mem_singleton.mp hn]
    exact hs
  | next hs _ _ ih =>
    intro n hn
    rcases List.mem_cons.mp hn with rfl | hn
    · exact hs
    · exact ih n hn

/-- What the first state has and every step within the interval keeps, the last state has. -/
theorem induction {Q : σ → Prop} (h : Interval step P s instants t) (h0 : Q s)
    (hstep : ∀ a e b, a ∈ instants → b ∈ instants → step a e = some b → Q a → Q b) : Q t := by
  induction h with
  | last _ => exact h0
  | next _ hfirst hrest ih =>
    refine ih (hstep _ _ _ List.mem_cons_self (List.mem_cons_of_mem _ hrest.first_mem) hfirst h0) ?_
    intro a e b ha hb
    exact hstep a e b (List.mem_cons_of_mem _ ha) (List.mem_cons_of_mem _ hb)

/-- A count that no step lowers is at most that of the last state. -/
theorem le_last {f : σ → Nat} (hmono : ∀ a e b, step a e = some b → f a ≤ f b)
    (h : Interval step P s instants t) : ∀ n ∈ instants, f n ≤ f t := by
  induction h with
  | last _ =>
    intro n hn
    obtain rfl := List.mem_singleton.mp hn
    exact Nat.le_refl _
  | next _ hfirst hrest ih =>
    intro n hn
    rcases List.mem_cons.mp hn with rfl | hn
    · exact Nat.le_trans (hmono _ _ _ hfirst) (ih _ hrest.first_mem)
    · exact ih n hn

theorem reachable {start : σ} (hs : (ofStep start step).Reachable s)
    (h : Interval step P s instants t) : ∀ n ∈ instants, (ofStep start step).Reachable n := by
  induction h with
  | last _ =>
    intro n hn
    rw [List.mem_singleton.mp hn]
    exact hs
  | next _ hfirst _ ih =>
    intro n hn
    rcases List.mem_cons.mp hn with rfl | hn
    · exact hs
    · exact ih (.next hs hfirst) n hn

end Interval

end System

end Transition
