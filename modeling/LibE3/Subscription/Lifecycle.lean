import LibE3.Subscription.Ids

/-! The lifecycle callbacks of sequential calls.  `Owes` says what the checks of a critical section
are: one for every RAN function whose subscriber set the edit has emptied or has begun to fill, and
no other.  When nothing comes between an edit and its checks, every check leads to its callback, so
the callbacks of a RAN function alternate. -/

namespace LibE3

/-- The checks are those of the RAN functions whose subscriber sets differ in emptiness between `s`
and `s'`, each once, with what `s` said. -/
structure Owes (checks : List Check) (s s' : SubscriptionManager) : Prop where
  nodup : (checks.map Check.ranFunctionId).Nodup
  mem : ∀ f b, ⟨f, b⟩ ∈ checks ↔ s.hasSubscribers f = b ∧ s'.hasSubscribers f = !b

theorem not_flipped {x b : Bool} : ¬(x = b ∧ x = !b) := by
  cases x <;> cases b <;> simp

theorem Owes.of_same {s s' : SubscriptionManager}
    (h : ∀ f, s'.hasSubscribers f = s.hasSubscribers f) : Owes [] s s' := by
  refine ⟨List.nodup_nil, fun f b => ?_⟩
  rw [h f]
  simp only [List.not_mem_nil, not_flipped]

namespace SubscriptionManager

theorem hasSubscribers_eq (s : SubscriptionManager) (f : UInt32) :
    s.hasSubscribers f = decide (s.subscribersOf f).Nonempty := by
  rw [Bool.eq_iff_iff, hasSubscribers_iff, decide_eq_true_iff]

theorem hasSubscribers_congr {s s' : SubscriptionManager} {f : UInt32}
    (h : s'.subscribersOf f = s.subscribersOf f) : s'.hasSubscribers f = s.hasSubscribers f := by
  rw [hasSubscribers_eq, hasSubscribers_eq, h]

/-- A registration touches no set of subscribers. -/
theorem registerDapp_ranFunctionSubscribers (s : SubscriptionManager) (now : Timestamp) :
    (s.registerDapp now).1.ranFunctionSubscribers = s.ranFunctionSubscribers := by
  simp only [registerDapp, registerDappLocked, Edit.finish]
  split <;> rfl

theorem hasSubscribers_registerDapp (s : SubscriptionManager) (now : Timestamp) (f : UInt32) :
    (s.registerDapp now).1.hasSubscribers f = s.hasSubscribers f := by
  unfold hasSubscribers
  rw [registerDapp_ranFunctionSubscribers]

theorem locked_subscribersOf {s : SubscriptionManager} (h : s.Indexed) (c : Call) (f : UInt32) :
    (c.locked s).manager.subscribersOf f = (s.indexes.after (s.changeOf c)).holders f := by
  rw [← locked_indexes h c]
  rfl

/-! ### What each critical section owes -/

/-- The test of the deletion paths: the set had an element and has none after the erasure. -/
def removesLast (s : SubscriptionManager) (d f : UInt32) : Bool :=
  decide (s.subscribersOf f).Nonempty && !decide ((s.subscribersOf f).erase d).Nonempty

theorem mem_stopChecks {f g : UInt32} {b removedLast : Bool} :
    (⟨g, b⟩ : Check) ∈ stopChecks f removedLast ↔ g = f ∧ b = true ∧ removedLast = true := by
  cases removedLast <;> simp [stopChecks]

theorem map_flatMap_stopChecks (l : List UInt32) (removedLast : UInt32 → Bool) :
    (l.flatMap fun f => stopChecks f (removedLast f)).map Check.ranFunctionId =
      l.filter removedLast := by
  induction l with
  | nil => rfl
  | cons f l ih =>
    rw [List.flatMap_cons, List.map_append, ih, List.filter_cons]
    cases removedLast f <;> rfl

theorem nodup_stopChecks (f : UInt32) (removedLast : Bool) :
    ((stopChecks f removedLast).map Check.ranFunctionId).Nodup := by
  cases removedLast <;> simp [stopChecks]

/-- A removal of one subscriber owes the check that its test says. -/
theorem owes_stopChecks {s s' : SubscriptionManager} {d f : UInt32}
    (h : ∀ g, s'.subscribersOf g =
      if g = f then (s.subscribersOf f).erase d else s.subscribersOf g) :
    Owes (stopChecks f (s.removesLast d f)) s s' := by
  refine ⟨nodup_stopChecks _ _, fun g b => ?_⟩
  rw [mem_stopChecks, hasSubscribers_eq, hasSubscribers_eq, h]
  by_cases hg : g = f
  · subst hg
    -- A set that is not empty after the erasure was not empty before.
    have hmono : ((s.subscribersOf g).erase d).Nonempty → (s.subscribersOf g).Nonempty :=
      Finset.Nonempty.mono (Finset.erase_subset _ _)
    by_cases h1 : (s.subscribersOf g).Nonempty <;>
      by_cases h2 : ((s.subscribersOf g).erase d).Nonempty <;>
      cases b <;> simp_all [removesLast]
  · simp only [hg, false_and, if_false, not_flipped]

theorem owes_registerDapp (s : SubscriptionManager) (now : Timestamp) :
    Owes (s.registerDappLocked now).checks s (s.registerDappLocked now).manager := by
  unfold registerDappLocked
  split <;> exact Owes.of_same fun _ => rfl

theorem owes_addSubscription {s : SubscriptionManager} (h : s.Indexed) (d f : UInt32) :
    Owes (s.addSubscriptionLocked d f).checks s (s.addSubscriptionLocked d f).manager := by
  have hafter := locked_subscribersOf h (.addSubscription d f)
  simp only [Call.locked] at hafter
  by_cases hnew : d ∈ s.registeredDapps ∧ f ∉ s.subsOf d
  · simp only [changeOf, hnew, not_false_eq_true, and_self, if_true] at hafter
    have hchecks : (s.addSubscriptionLocked d f).checks =
        if (s.subscribersOf f).Nonempty then [] else [⟨f, false⟩] := by
      rw [addSubscriptionLocked_of_new hnew.1 hnew.2]
    rw [hchecks]
    refine ⟨by split <;> simp, fun g b => ?_⟩
    rw [hasSubscribers_eq, hasSubscribers_eq, hafter]
    by_cases hg : g = f
    · subst hg
      by_cases h1 : (s.subscribersOf g).Nonempty <;> cases b <;>
        simp [h1, Roster.Indexes.after, indexes]
    · simp only [Roster.Indexes.after, indexes, hg, if_false, not_flipped, iff_false]
      split <;> simp [hg]
  · -- The call refuses or finds the subscription: nothing changes and nothing is owed.
    have hchecks : (s.addSubscriptionLocked d f).checks = [] := by
      by_cases hd : d ∈ s.registeredDapps
      · have hf : f ∈ s.subsOf d := by
          by_contra hf
          exact hnew ⟨hd, hf⟩
        rw [addSubscriptionLocked_of_live hd hf]
      · rw [addSubscriptionLocked_of_unregistered hd]
    rw [hchecks]
    refine Owes.of_same fun g => hasSubscribers_congr ?_
    rw [hafter, changeOf, if_neg hnew]
    rfl

theorem owes_removeSubscription {s : SubscriptionManager} (h : s.Indexed) (d f : UInt32) :
    Owes (s.removeSubscriptionLocked d f).checks s (s.removeSubscriptionLocked d f).manager := by
  have hafter := locked_subscribersOf h (.removeSubscription d f)
  simp only [Call.locked] at hafter
  by_cases hf : f ∈ s.subsOf d
  · simp only [changeOf, hf, if_true] at hafter
    obtain ⟨subs, hsubs⟩ := Finmap.mem_iff.mp (mem_of_mem_subsOf hf)
    have hf' : f ∈ subs := subsOf_of_lookup hsubs ▸ hf
    have hchecks : (s.removeSubscriptionLocked d f).checks =
        stopChecks f (s.removesLast d f) := by
      simp only [removeSubscriptionLocked, hsubs, hf', if_true]
      rw [removesLast, ← s.dropRow_subscribersOf d f]
      rfl
    rw [hchecks]
    exact owes_stopChecks hafter
  · have hchecks : (s.removeSubscriptionLocked d f).checks = [] := by
      unfold removeSubscriptionLocked
      split
      · rfl
      · rename_i subs hsubs
        have hf' : f ∉ subs := subsOf_of_lookup hsubs ▸ hf
        rw [if_neg hf']
    rw [hchecks]
    refine Owes.of_same fun g => hasSubscribers_congr ?_
    rw [hafter, changeOf, if_neg hf]
    rfl

theorem owes_removeSubscriptionById {s : SubscriptionManager} (h : s.Indexed) (d k : UInt32) :
    Owes (s.removeSubscriptionByIdLocked d k).checks s
      (s.removeSubscriptionByIdLocked d k).manager := by
  have hafter := locked_subscribersOf h (.removeSubscriptionById d k)
  simp only [Call.locked, changeOf] at hafter
  rcases hk : s.subscriptionIds.lookup k with _ | ⟨d', f⟩
  · simp only [hk] at hafter
    simp only [removeSubscriptionByIdLocked, hk] at hafter ⊢
    exact Owes.of_same fun g => hasSubscribers_congr (hafter g)
  by_cases hd : d' = d
  · have hchecks : (s.removeSubscriptionByIdLocked d k).checks =
        stopChecks f (s.removesLast d f) := by
      simp only [removeSubscriptionByIdLocked, hk, hd, ne_eq, not_true_eq_false, if_false]
      rw [removesLast, ← s.dropRow_subscribersOf d f]
      rfl
    rw [hchecks]
    simp only [hk, hd, if_true] at hafter
    exact owes_stopChecks hafter
  · simp only [removeSubscriptionByIdLocked, hk, ne_eq, hd, not_false_eq_true, if_true]
    exact Owes.of_same fun _ => rfl

/-- A round of the loop of `unregister_dapp` leaves the tests of the other functions alone. -/
theorem unregisterRound_removesLast (d : UInt32) (acc : SubscriptionManager × List Check)
    {f g : UInt32} (hne : g ≠ f) :
    (unregisterRound d acc f).1.removesLast d g = acc.1.removesLast d g := by
  have hsame := (sweep_index d [f] acc).2.2 g
  simp only [List.foldl_cons, List.foldl_nil, List.mem_singleton, hne, if_false] at hsame
  rw [removesLast, removesLast, hsame]

/-- The loop of `unregister_dapp` visits each function once, so its tests are those of the state
before the loop. -/
theorem sweep_checks (d : UInt32) {l : List UInt32} (hl : l.Nodup)
    (acc : SubscriptionManager × List Check) :
    (l.foldl (unregisterRound d) acc).2 =
      acc.2 ++ l.flatMap fun f => stopChecks f (acc.1.removesLast d f) := by
  induction l generalizing acc with
  | nil => simp
  | cons f l ih =>
    obtain ⟨hf, hl⟩ := List.nodup_cons.mp hl
    have hrest : ∀ g ∈ l, (unregisterRound d acc f).1.removesLast d g = acc.1.removesLast d g :=
      fun g hg => unregisterRound_removesLast d acc fun heq => hf (heq ▸ hg)
    have hround : (unregisterRound d acc f).2 =
        acc.2 ++ stopChecks f (acc.1.removesLast d f) := rfl
    have htail : (l.flatMap fun g => stopChecks g ((unregisterRound d acc f).1.removesLast d g)) =
        l.flatMap fun g => stopChecks g (acc.1.removesLast d g) :=
      List.flatMap_congr fun g hg => by rw [hrest g hg]
    rw [List.foldl_cons, ih hl, hround, htail, List.flatMap_cons, List.append_assoc]

theorem owes_unregisterDapp {s : SubscriptionManager} (h : s.Indexed)
    (order : Enumeration UInt32) (d : UInt32) :
    Owes (s.unregisterDappLocked order d).checks s (s.unregisterDappLocked order d).manager := by
  have hafter := locked_subscribersOf h (.unregisterDapp order d)
  simp only [Call.locked, changeOf] at hafter
  by_cases hd : d ∈ s.registeredDapps
  · obtain ⟨subs, hsubs⟩ := Finmap.mem_iff.mp (h.mem_rows.mpr hd)
    have hsubsOf := subsOf_of_lookup hsubs
    have hchecks : (s.unregisterDappLocked order d).checks =
        (order.list (s.subsOf d)).flatMap fun f => stopChecks f (s.removesLast d f) := by
      simp only [unregisterDappLocked, hd, if_true, hsubs, hsubsOf]
      exact sweep_checks d (order.nodup subs) (s, [])
    have hids : (s.unregisterDappLocked order d).checks.map Check.ranFunctionId =
        (order.list (s.subsOf d)).filter fun f => s.removesLast d f := by
      rw [hchecks, map_flatMap_stopChecks]
    simp only [hd, if_true, Roster.Indexes.after, indexes] at hafter
    refine ⟨hids ▸ (order.nodup _).filter _, fun f b => ?_⟩
    rw [hchecks, List.mem_flatMap, hasSubscribers_eq, hasSubscribers_eq, hafter]
    simp only [mem_stopChecks, order.mem_list, h.agree]
    constructor
    · rintro ⟨g, -, rfl, rfl, hlast⟩
      simp only [removesLast, Bool.and_eq_true] at hlast
      simpa using hlast
    · rintro ⟨h1, h2⟩
      cases b with
      | false =>
        -- The erasure cannot fill an empty set.
        rw [decide_eq_false_iff_not, Finset.not_nonempty_iff_eq_empty] at h1
        simp [h1] at h2
      | true =>
        have hlast : s.removesLast d f = true := by simp_all [removesLast]
        refine ⟨f, ?_, rfl, rfl, hlast⟩
        -- Only the erasure of a member can empty a set.
        by_contra hmem
        rw [Finset.erase_eq_of_notMem hmem, h1] at h2
        cases h2
  · simp only [unregisterDappLocked, hd, if_false]
    exact Owes.of_same fun _ => rfl

/-- What the critical section of a call owes. -/
theorem owes_locked {s : SubscriptionManager} (h : s.Indexed) {c : Call} (hc : c ≠ .clear) :
    Owes (c.locked s).checks s (c.locked s).manager := by
  cases c with
  | registerDapp now => exact s.owes_registerDapp now
  | unregisterDapp order d => exact owes_unregisterDapp h order d
  | addSubscription d f => exact owes_addSubscription h d f
  | removeSubscription d f => exact owes_removeSubscription h d f
  | removeSubscriptionById d k => exact owes_removeSubscriptionById h d k
  | clear => exact absurd rfl hc

end SubscriptionManager

/-! ### The callbacks of one RAN function -/

/-- What the callbacks said about `f`, in order. -/
def callbacksFor (f : UInt32) (callbacks : List Callback) : List Bool :=
  (callbacks.filter fun callback => callback.1 = f).map Prod.snd

theorem callbacksFor_append (f : UInt32) (xs ys : List Callback) :
    callbacksFor f (xs ++ ys) = callbacksFor f xs ++ callbacksFor f ys := by
  simp [callbacksFor]

theorem callbacksFor_eq_nil {f : UInt32} {callbacks : List Callback}
    (h : f ∉ callbacks.map Prod.fst) : callbacksFor f callbacks = [] := by
  rw [callbacksFor, List.map_eq_nil_iff, List.filter_eq_nil_iff]
  intro callback hmem
  simp only [decide_eq_true_eq]
  exact fun heq => h (List.mem_map.mpr ⟨callback, hmem, heq⟩)

theorem callbacksFor_eq_singleton {f : UInt32} {b : Bool} {callbacks : List Callback}
    (hnodup : (callbacks.map Prod.fst).Nodup) (h : (f, b) ∈ callbacks) :
    callbacksFor f callbacks = [b] := by
  induction callbacks with
  | nil => cases h
  | cons callback callbacks ih =>
    obtain ⟨hnew, hrest⟩ := List.nodup_cons.mp hnodup
    rw [← List.singleton_append, callbacksFor_append]
    rcases List.mem_cons.mp h with rfl | hmem
    · rw [callbacksFor_eq_nil hnew]
      simp [callbacksFor]
    · -- Another entry for `f` follows, so this one is for another function.
      have hne : callback.1 ≠ f := fun heq => hnew (heq ▸ List.mem_map.mpr ⟨_, hmem, rfl⟩)
      rw [ih hrest hmem]
      simp [callbacksFor, hne]

/-- What a flag that goes from `before` to `after` has to report. -/
def report (before after : Bool) : List Bool := if before = after then [] else [after]

/-- A check that nothing has overtaken leads to its callback. -/
theorem Owes.callbacks {checks : List Check} {s s' : SubscriptionManager} (h : Owes checks s s')
    (hcallback : s'.smLifecycleCallback = true) :
    checks.filterMap s'.checkSmLifecycle =
      checks.map fun c => (c.ranFunctionId, !c.hadSubscribers) := by
  rw [← List.filterMap_eq_map]
  refine List.filterMap_congr fun c hc => ?_
  have hnow := ((h.mem c.ranFunctionId c.hadSubscribers).mp hc).2
  cases hhad : c.hadSubscribers <;>
    simp [SubscriptionManager.checkSmLifecycle, hcallback, hnow, hhad]

/-- Checks that nothing has overtaken report every change once. -/
theorem Owes.callbacksFor {checks : List Check} {s s' : SubscriptionManager}
    (h : Owes checks s s') (hcallback : s'.smLifecycleCallback = true) (f : UInt32) :
    callbacksFor f (checks.filterMap s'.checkSmLifecycle) =
      report (s.hasSubscribers f) (s'.hasSubscribers f) := by
  rw [h.callbacks hcallback]
  have hnodup : ((checks.map fun c => (c.ranFunctionId, !c.hadSubscribers)).map
      Prod.fst).Nodup := by
    rw [List.map_map]
    exact h.nodup
  unfold report
  split
  · rename_i hsame
    refine callbacksFor_eq_nil fun hmem => ?_
    rw [List.map_map] at hmem
    obtain ⟨c, hc, rfl⟩ := List.mem_map.mp hmem
    have hflip := (h.mem c.ranFunctionId c.hadSubscribers).mp hc
    exact not_flipped ⟨hsame ▸ hflip.1, hflip.2⟩
  · rename_i hne
    have hflip : s'.hasSubscribers f = !s.hasSubscribers f := Bool.eq_not.mpr (Ne.symm hne)
    refine callbacksFor_eq_singleton hnodup (List.mem_map.mpr ⟨⟨f, s.hasSubscribers f⟩, ?_, ?_⟩)
    · exact (h.mem f _).mpr ⟨rfl, hflip⟩
    · rw [hflip]

/-! ### Alternation over a run -/

/-- A log of a flag that was off at first and is now `now`: its entries alternate, the first is on,
and the last is `now`. -/
structure Alternates (log : List Bool) (now : Bool) : Prop where
  chain : log.IsChain (· ≠ ·)
  first : ∀ b ∈ log.head?, b = true
  last : log.getLast?.getD false = now

theorem Alternates.append_report {log : List Bool} {before : Bool} (h : Alternates log before)
    (after : Bool) : Alternates (log ++ report before after) after := by
  unfold report
  split
  · rename_i heq
    rw [List.append_nil, ← heq]
    exact h
  · rename_i hne
    refine ⟨List.isChain_append.mpr ⟨h.chain, List.isChain_singleton _, ?_⟩, ?_, by simp⟩
    · intro x hx y hy
      have hlast := h.last
      rw [Option.mem_def.mp hx] at hlast
      simp only [List.head?_cons, Option.mem_def, Option.some.injEq] at hy
      rw [← hy]
      exact fun heq => hne (hlast.symm.trans heq)
    · cases log with
      | nil =>
        -- The flag was off, so the first entry is on.
        have hoff : before = false := h.last.symm
        intro b hb
        simp only [List.nil_append, List.head?_cons, Option.mem_def, Option.some.injEq] at hb
        rw [← hb]
        exact Bool.eq_true_of_not_eq_false fun hfalse => hne (hoff.trans hfalse.symm)
      | cons x log => exact h.first

namespace SubscriptionManager

open Transition

/-- An indexed manager with the callback installed. -/
structure Watched (s : SubscriptionManager) : Prop where
  indexed : s.Indexed
  callback : s.smLifecycleCallback = true

theorem Watched.locked {s : SubscriptionManager} (h : s.Watched) (c : Call) :
    (c.locked s).manager.Watched :=
  ⟨h.indexed.locked c, (congrArg Prod.fst (s.locked_settings c)).trans h.callback⟩

theorem watched_fresh : ({ smLifecycleCallback := true } : SubscriptionManager).Watched :=
  ⟨indexed_fresh true, rfl⟩

/-- What a call reports about `f` is the change of `has_subscribers(f)` that it makes. -/
theorem Watched.perform_callbacksFor {s : SubscriptionManager} (h : s.Watched) {c : Call}
    (hc : c ≠ .clear) (f : UInt32) :
    callbacksFor f (c.perform s).2.callbacks =
      report (s.hasSubscribers f) ((c.perform s).1.hasSubscribers f) :=
  (owes_locked h.indexed hc).callbacksFor (h.locked c).callback f

/-- With the callback installed on a fresh manager and no `clear`, every call reports a RAN function
once when it takes the first subscriber or loses the last, and not at all otherwise.  So the
callbacks of a function alternate, beginning with a start, and the last is a start exactly while the
function has subscribers. -/
theorem lifecycle_callbacks_exact (calls : List Call) (h : WithoutClear calls) :
    let fresh : SubscriptionManager := { smLifecycleCallback := true }
    (∀ before c after f, calls = before ++ c :: after →
      let s := final Call.perform fresh before
      let s' := (c.perform s).1
      let called := callbacksFor f (c.perform s).2.callbacks
      (s.hasSubscribers f = false ∧ s'.hasSubscribers f = true → called = [true]) ∧
      (s.hasSubscribers f = true ∧ s'.hasSubscribers f = false → called = [false]) ∧
      (s.hasSubscribers f = s'.hasSubscribers f → called = [])) ∧
    (∀ f,
      let log := callbacksFor f ((history Call.perform fresh calls).flatMap (·.2.callbacks))
      log.IsChain (· ≠ ·) ∧ (∀ b ∈ log.head?, b = true) ∧
      (log.getLast? = some true ↔
        (final Call.perform fresh calls).hasSubscribers f = true)) := by
  intro fresh
  have hwatched : ∀ calls, (final Call.perform fresh calls).Watched := fun calls =>
    final_induction watched_fresh fun s c _ hs => hs.locked c
  constructor
  · intro before c after f hcalls s s' called
    have hc : c ≠ .clear := fun heq => h (by simp [hcalls, heq])
    have hcalled : called = report (s.hasSubscribers f) (s'.hasSubscribers f) :=
      (hwatched before).perform_callbacksFor hc f
    rw [hcalled]
    refine ⟨fun hf => ?_, fun hf => ?_, fun hf => ?_⟩
    · rw [hf.1, hf.2]
      rfl
    · rw [hf.1, hf.2]
      rfl
    · exact if_pos hf
  · intro f log
    have halternates : Alternates log ((final Call.perform fresh calls).hasSubscribers f) := by
      refine (run_induction (P := fun (s : SubscriptionManager) (past : List (Call × Outcome)) =>
        s.Watched ∧
        Alternates (callbacksFor f (past.flatMap (·.2.callbacks))) (s.hasSubscribers f))
        ⟨watched_fresh, ⟨List.isChain_nil, by simp [callbacksFor], rfl⟩⟩ ?_).2
      intro s past c hmem hs
      have hc : c ≠ .clear := fun heq => h (heq ▸ hmem)
      refine ⟨hs.1.locked c, ?_⟩
      rw [List.flatMap_append, callbacksFor_append, List.flatMap_singleton,
        hs.1.perform_callbacksFor hc]
      exact hs.2.append_report _
    refine ⟨halternates.chain, halternates.first, ?_⟩
    rw [← halternates.last]
    cases log.getLast? <;> simp

/-- Two dApps subscribe to function 7, and both are released. -/
theorem lifecycle_callbacks_exact_released :
    WithoutClear [.registerDapp 0, .registerDapp 0, .addSubscription 1 7, .addSubscription 2 7,
      .unregisterDapp (.ascending UInt32) 1, .unregisterDapp (.ascending UInt32) 2] ∧
    callbacksFor 7 ((history Call.perform { smLifecycleCallback := true }
      [.registerDapp 0, .registerDapp 0, .addSubscription 1 7, .addSubscription 2 7,
        .unregisterDapp (.ascending UInt32) 1,
        .unregisterDapp (.ascending UInt32) 2]).flatMap (·.2.callbacks)) = [true, false] ∧
    (callbacksFor 7 ((history Call.perform { smLifecycleCallback := true }
      [.registerDapp 0, .registerDapp 0, .addSubscription 1 7, .addSubscription 2 7,
        .unregisterDapp (.ascending UInt32) 1,
        .unregisterDapp (.ascending UInt32) 2]).flatMap (·.2.callbacks))).IsChain (· ≠ ·) := by
  have h : WithoutClear [.registerDapp 0, .registerDapp 0, .addSubscription 1 7,
      .addSubscription 2 7, .unregisterDapp (.ascending UInt32) 1,
      .unregisterDapp (.ascending UInt32) 2] := by
    simp [WithoutClear]
  exact ⟨h, by decide +kernel, ((lifecycle_callbacks_exact _ h).2 7).1⟩

end SubscriptionManager

end LibE3
