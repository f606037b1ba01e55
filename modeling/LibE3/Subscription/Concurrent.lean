import LibE3.Subscription.Lifecycle

/-! The lifecycle callbacks of concurrent calls.  A call is no longer one step: its critical section,
the `has_subscribers` read of each of its checks, and each callback are steps of their own, and those
of other calls may come between.  A callback that is decided before another call's edit can be
delivered after it, and then the last callback of a RAN function need not agree with the store. -/

namespace LibE3

namespace Concurrent

open Transition

/-- Where a thread is in a call of the manager. -/
inductive Task
  | idle
  /-- After the unlock, before the read of the first of the checks. -/
  | checking (check : Check) (todo : List Check)
  /-- After a read that decided on a callback, before the callback. -/
  | calling (callback : Callback) (todo : List Check)
  deriving DecidableEq

/-- The checks that a task has still to make. -/
def Task.todo : Task → List Check
  | .idle => []
  | .checking check todo => check :: todo
  | .calling _ todo => todo

/-- The callback that a task has decided on. -/
def Task.decided : Task → Option Callback
  | .calling callback _ => some callback
  | _ => none

/-- A call goes on with its next check, and returns after the last. -/
def Task.next : List Check → Task
  | [] => .idle
  | check :: todo => .checking check todo

@[simp] theorem Task.todo_next (todo : List Check) : (Task.next todo).todo = todo := by
  cases todo <;> rfl

structure State (ι : Type) where
  manager : SubscriptionManager
  tasks : ι → Task
  /-- The callbacks delivered so far. -/
  log : List Callback

/-- The atomic steps of the calls. -/
inductive Event (ι : Type)
  | edit (i : ι) (c : Call)
  | read (i : ι)
  | callback (i : ι)

variable {ι : Type} [DecidableEq ι]

def fresh : State ι where
  manager := { smLifecycleCallback := true }
  tasks := fun _ => .idle
  log := []

/-- One atomic step.  A thread begins a call only when it is in none, and `clear` is not among the
calls. -/
def step (s : State ι) : Event ι → Option (State ι)
  | .edit i c =>
    match s.tasks i with
    | .idle =>
      if c.isClear then none
      else
        let e := c.locked s.manager
        some { s with
          manager := e.manager
          tasks := Function.update s.tasks i (Task.next e.checks) }
    | _ => none
  | .read i =>
    match s.tasks i with
    | .checking check todo =>
      match s.manager.checkSmLifecycle check with
      | none => some { s with tasks := Function.update s.tasks i (Task.next todo) }
      | some callback => some { s with tasks := Function.update s.tasks i (.calling callback todo) }
    | _ => none
  | .callback i =>
    match s.tasks i with
    | .calling callback todo =>
      some { s with
        tasks := Function.update s.tasks i (Task.next todo)
        log := s.log ++ [callback] }
    | _ => none

/-- The interleavings of any number of calls on a fresh manager. -/
def calls (ι : Type) [DecidableEq ι] : System (State ι) (Event ι) := .ofStep fresh step

/-- No call is in progress. -/
def Quiet (s : State ι) : Prop := ∀ i, s.tasks i = .idle

/-- While no call is in progress, the last callback of every RAN function that has had one says
whether the function has subscribers. -/
def Settled (s : State ι) : Prop :=
  Quiet s → ∀ f, callbacksFor f s.log ≠ [] →
    ((callbacksFor f s.log).getLast? = some true ↔ s.manager.hasSubscribers f = true)

/-- A callback is delivered only while the store still says what the callback says. -/
def timely (s : State ι) : Event ι → Bool
  | .callback i =>
    match (s.tasks i).decided with
    | none => true
    | some callback => s.manager.hasSubscribers callback.1 == callback.2
  | _ => true

/-! ### What a step can do -/

theorem step_cases {s s' : State ι} {e : Event ι} (h : step s e = some s') :
    (∃ i c, e = .edit i c ∧ c ≠ .clear ∧ s.tasks i = .idle ∧
      s' = ⟨(c.locked s.manager).manager,
        Function.update s.tasks i (Task.next (c.locked s.manager).checks), s.log⟩) ∨
    (∃ i check todo, e = .read i ∧ s.tasks i = .checking check todo ∧
      s' = ⟨s.manager, Function.update s.tasks i
        (match s.manager.checkSmLifecycle check with
          | none => Task.next todo
          | some callback => .calling callback todo), s.log⟩) ∨
    (∃ i callback todo, e = .callback i ∧ s.tasks i = .calling callback todo ∧
      s' = ⟨s.manager, Function.update s.tasks i (Task.next todo), s.log ++ [callback]⟩) := by
  cases e with
  | edit i c =>
    simp only [step] at h
    split at h
    · rename_i hidle
      split at h
      · cases h
      · rename_i hc
        cases h
        exact .inl ⟨i, c, rfl, fun heq => hc (by rw [heq]; rfl), hidle, rfl⟩
    · cases h
  | read i =>
    simp only [step] at h
    split at h
    · rename_i check todo htask
      refine .inr (.inl ⟨i, check, todo, rfl, htask, ?_⟩)
      split at h <;> cases h <;> rfl
    · cases h
  | callback i =>
    simp only [step] at h
    split at h
    · rename_i callback todo htask
      cases h
      exact .inr (.inr ⟨i, callback, todo, rfl, htask, rfl⟩)
    · cases h

/-! ### What is still owed -/

/-- Some task will still report about `f` what the store says now: it has decided to, or it has a
check to make that will find the change. -/
def Pending (s : State ι) (f : UInt32) : Prop :=
  ∃ i, ⟨f, !s.manager.hasSubscribers f⟩ ∈ (s.tasks i).todo ∨
    (s.tasks i).decided = some (f, s.manager.hasSubscribers f)

/-- What the callbacks of `f` last said, off at first. -/
def lastSaid (f : UInt32) (log : List Callback) : Bool := (callbacksFor f log).getLast?.getD false

/-- Where the last callback of a function disagrees with the store, a report is pending. -/
structure Owing (s : State ι) : Prop where
  watched : s.manager.Watched
  settles : ∀ f, lastSaid f s.log = s.manager.hasSubscribers f ∨ Pending s f

theorem lastSaid_append (f : UInt32) (log : List Callback) (callback : Callback) :
    lastSaid f (log ++ [callback]) = if callback.1 = f then callback.2 else lastSaid f log := by
  unfold lastSaid
  rw [callbacksFor_append]
  by_cases hf : callback.1 = f <;> simp [callbacksFor, hf]

/-- A report that was pending stays so when one task moves on, if the store still says the same and
the task keeps what it had to report. -/
theorem Pending.update {s : State ι} {f : UInt32} (h : Pending s f) {i : ι} {t : Task}
    {manager : SubscriptionManager} {log : List Callback}
    (hsame : manager.hasSubscribers f = s.manager.hasSubscribers f)
    (htodo : ⟨f, !s.manager.hasSubscribers f⟩ ∈ (s.tasks i).todo →
      ⟨f, !s.manager.hasSubscribers f⟩ ∈ t.todo ∨
        t.decided = some (f, s.manager.hasSubscribers f))
    (hdecided : (s.tasks i).decided = some (f, s.manager.hasSubscribers f) →
      t.decided = some (f, s.manager.hasSubscribers f)) :
    Pending (⟨manager, Function.update s.tasks i t, log⟩ : State ι) f := by
  obtain ⟨j, hj⟩ := h
  dsimp only [Pending]
  rw [hsame]
  by_cases hji : j = i
  · subst hji
    refine ⟨j, ?_⟩
    rw [Function.update_self]
    exact hj.elim htodo fun hd => Or.inr (hdecided hd)
  · refine ⟨j, ?_⟩
    rwa [Function.update_of_ne hji]

theorem Owing.edit {s : State ι} (h : Owing s) {i : ι} (hidle : s.tasks i = .idle) {c : Call}
    (hc : c ≠ .clear) :
    Owing (⟨(c.locked s.manager).manager,
      Function.update s.tasks i (Task.next (c.locked s.manager).checks), s.log⟩ : State ι) := by
  refine ⟨h.watched.locked c, fun f => ?_⟩
  have howes := SubscriptionManager.owes_locked h.watched.indexed hc
  by_cases hsame : (c.locked s.manager).manager.hasSubscribers f = s.manager.hasSubscribers f
  · refine (h.settles f).imp (fun hlast => hlast.trans hsame.symm) fun hpending => ?_
    refine hpending.update hsame ?_ ?_ <;> rw [hidle]
    · exact fun hmem => by cases hmem
    · exact fun hdecided => by cases hdecided
  · -- The edit has flipped `f`, so the new task owes a check that will find it.
    have hflip : (c.locked s.manager).manager.hasSubscribers f = !s.manager.hasSubscribers f :=
      Bool.eq_not.mpr hsame
    refine Or.inr ⟨i, Or.inl ?_⟩
    dsimp only
    rw [Function.update_self, Task.todo_next, howes.mem]
    simp [hflip]

theorem Owing.read {s : State ι} (h : Owing s) {i : ι} {check : Check} {todo : List Check}
    (htask : s.tasks i = .checking check todo) :
    Owing (⟨s.manager, Function.update s.tasks i
      (match s.manager.checkSmLifecycle check with
        | none => Task.next todo
        | some callback => .calling callback todo), s.log⟩ : State ι) := by
  refine ⟨h.watched, fun f => (h.settles f).imp_right fun hpending => ?_⟩
  refine hpending.update rfl ?_ ?_ <;> rw [htask]
  · intro hmem
    rcases List.mem_cons.mp hmem with hcheck | hmem
    · -- The check for `f` is the one that reads: it finds the change and decides.
      refine Or.inr ?_
      subst hcheck
      cases hhas : s.manager.hasSubscribers f <;>
        simp [SubscriptionManager.checkSmLifecycle, h.watched.callback, hhas, Task.decided]
    · refine Or.inl ?_
      split
      · simpa using hmem
      · exact hmem
  · exact fun hdecided => by cases hdecided

theorem Owing.callback {s : State ι} (h : Owing s) {i : ι} {callback : Callback}
    {todo : List Check} (htask : s.tasks i = .calling callback todo)
    (htimely : s.manager.hasSubscribers callback.1 = callback.2) :
    Owing (⟨s.manager, Function.update s.tasks i (Task.next todo), s.log ++ [callback]⟩ :
      State ι) := by
  refine ⟨h.watched, fun f => ?_⟩
  rw [lastSaid_append]
  by_cases hf : callback.1 = f
  · rw [if_pos hf, ← hf]
    exact Or.inl htimely.symm
  · rw [if_neg hf]
    refine (h.settles f).imp_right fun hpending => ?_
    refine hpending.update rfl ?_ ?_ <;> rw [htask]
    · intro hmem
      rw [Task.todo_next]
      exact Or.inl hmem
    · intro hdecided
      exact absurd (congrArg Prod.fst (Option.some.inj hdecided)) hf

theorem Owing.step {s s' : State ι} {e : Event ι} (h : Owing s) (htimely : timely s e = true)
    (hstep : step s e = some s') : Owing s' := by
  obtain ⟨i, c, rfl, hc, hidle, rfl⟩ | ⟨i, check, todo, rfl, htask, rfl⟩ |
    ⟨i, callback, todo, rfl, htask, rfl⟩ := step_cases hstep
  · exact h.edit hidle hc
  · exact h.read htask
  · refine h.callback htask ?_
    simpa [timely, htask, Task.decided] using htimely

omit [DecidableEq ι] in
theorem owing_fresh : Owing (fresh : State ι) :=
  ⟨SubscriptionManager.watched_fresh, fun _ => Or.inl rfl⟩

/-- In every interleaving that delivers each callback while the store still says the same, the last
callback of every RAN function agrees with the store whenever no call is in progress. -/
theorem settled_of_timely (ι : Type) [DecidableEq ι] (s : State ι)
    (h : (System.ofStep fresh (System.guarded timely step)).Reachable s) : Settled s := by
  have howing : Owing s := by
    refine System.Reachable.induction (P := Owing) ?_ ?_ h
    · rintro s rfl
      exact owing_fresh
    · intro s e s' _ hs hstep
      obtain ⟨htimely, hstep⟩ := System.guarded_eq_some.mp hstep
      exact hs.step htimely hstep
  intro hquiet f _
  have hlast : lastSaid f s.log = s.manager.hasSubscribers f := by
    refine (howing.settles f).resolve_right ?_
    rintro ⟨i, hi⟩
    rw [hquiet i] at hi
    exact hi.elim (fun hmem => by cases hmem) fun hdecided => by cases hdecided
  rw [← hlast, lastSaid]
  cases (callbacksFor f s.log).getLast? <;> simp

/-- A subscription and its removal by two threads, each callback delivered in time. -/
def inTime : List (Event Bool) :=
  [.edit true (.registerDapp 0), .edit true (.addSubscription 1 7), .read true, .callback true,
    .edit false (.removeSubscription 1 7), .read false, .callback false]

theorem settled_inTime :
    ∃ s : State Bool, System.execute (System.guarded timely step) fresh inTime = some s ∧
      callbacksFor 7 s.log = [true, false] ∧ Settled s := by
  have hsome : (System.execute (System.guarded timely step) fresh inTime).isSome = true := by
    decide +kernel
  obtain ⟨s, hs⟩ := Option.isSome_iff_exists.mp hsome
  have hlog : ((System.execute (System.guarded timely step) fresh inTime).map fun s =>
      callbacksFor 7 s.log) = some [true, false] := by decide +kernel
  simp only [hs, Option.map_some, Option.some.injEq] at hlog
  exact ⟨s, hs, hlog, settled_of_timely Bool s (System.reachable_of_execute _ hs)⟩

/-- One thread subscribes dApp 1 to function 7 and has read the store when the other unsubscribes
it; the other's callback comes first. -/
def overtaken : List (Event Bool) :=
  [.edit true (.registerDapp 0), .edit true (.addSubscription 1 7), .read true,
    .edit false (.removeSubscription 1 7), .read false, .callback false, .callback true]

/-- The two calls leave function 7 started with no subscriber. -/
theorem not_settled_overtaken :
    ∃ s : State Bool, System.execute step fresh overtaken = some s ∧ (calls Bool).Reachable s ∧
      Quiet s ∧ callbacksFor 7 s.log = [false, true] ∧ s.manager.hasSubscribers 7 = false ∧
      ¬Settled s := by
  have hsome : (System.execute step fresh overtaken).isSome = true := by decide +kernel
  obtain ⟨s, hs⟩ := Option.isSome_iff_exists.mp hsome
  have hquiet : ∀ i, ((System.execute step fresh overtaken).map fun s => s.tasks i) =
      some Task.idle := by decide +kernel
  have hlog : ((System.execute step fresh overtaken).map fun s => callbacksFor 7 s.log) =
      some [false, true] := by decide +kernel
  have hnone : ((System.execute step fresh overtaken).map fun s => s.manager.hasSubscribers 7) =
      some false := by decide +kernel
  simp only [hs, Option.map_some, Option.some.injEq] at hquiet hlog hnone
  refine ⟨s, hs, System.reachable_of_execute _ hs, hquiet, hlog, hnone, fun h => ?_⟩
  have hlast := h hquiet 7 (by simp [hlog])
  simp [hlog, hnone] at hlast

end Concurrent

end LibE3
