import LibE3.Subscription.Ids

/-! What a live subscription remembers.  `clear` leaves both ID maps as they are, so in a run with
`clear` an ID may resolve to a subscription that is gone, and the ledger is no longer sound.  What
every call keeps, `clear` included, is the memory of the live subscriptions: `subscription_id_reverse_`
holds each of them with the ID that its creation returned.  So `operator[]` finds what it looks for,
and a call that fails changes nothing. -/

namespace LibE3

namespace SubscriptionManager

open Transition

/-! ### The remembered IDs after a call -/

/-- Every call changes the remembered IDs by its issue or its revocations, as long as the live
subscriptions have IDs.  This asks less of the ledger than that it is sound: an erasure by an ID that
a `clear` has left behind is an erasure of the pair that the ID resolves to. -/
theorem locked_tag {s : SubscriptionManager} (h : s.Indexed)
    (htagged : ∀ d f, f ∈ s.subsOf d → ∃ k, s.ledger.tag (d, f) = some k) (c : Call) :
    (c.locked s).manager.ledger.tag = (s.ledgerAfter c).tag := by
  cases c with
  | registerDapp now =>
    show (s.registerDappLocked now).manager.ledger.tag = _
    unfold registerDappLocked
    split <;> rfl
  | unregisterDapp order d =>
    exact congrArg Ledger.tag (unregisterDappLocked_ledger h order d)
  | addSubscription d f => exact congrArg Ledger.tag (addSubscriptionLocked_ledger (htagged d f))
  | removeSubscription d f => exact congrArg Ledger.tag (s.removeSubscriptionLocked_ledger d f)
  | removeSubscriptionById d k =>
    simp only [Call.locked, removeSubscriptionByIdLocked, ledgerAfter, issuedBy, revokedBy]
    rcases s.subscriptionIds.lookup k with _ | ⟨d', f⟩
    · rfl
    by_cases hd : d' = d
    · subst hd
      funext p
      simp only [ne_eq, not_true_eq_false, if_false, if_true, List.foldl_cons, List.foldl_nil,
        Ledger.tag_revoke]
      rw [← dropRow_ledger s d' f]
      refine (UnorderedMap.lookup_erase_ite _ _ _).trans ?_
      simp only [makeSubKey_eq_iff]
      rfl
    · simp only [ne_eq, hd, not_false_eq_true, if_true, if_false]
      rfl
  | clear => rfl

/-! ### The most recent subscription -/

/-- The most recent `add_subscription(d, f)` of the run that succeeded has returned `k`. -/
def LastAdd (d f : UInt32) (past : List (Call × Outcome)) (k : UInt32) : Prop :=
  ∃ earlier o later, past = earlier ++ (.addSubscription d f, o) :: later ∧
    o.code = .success ∧ o.id = k ∧ ∀ o', (.addSubscription d f, o') ∈ later → o'.code ≠ .success

theorem lastAdd_concat_self {d f : UInt32} (past : List (Call × Outcome)) {o : Outcome}
    (h : o.code = .success) : LastAdd d f (past ++ [(.addSubscription d f, o)]) o.id :=
  ⟨past, o, [], rfl, h, rfl, fun _ hmem => absurd hmem (List.not_mem_nil)⟩

theorem LastAdd.concat {d f k : UInt32} {past : List (Call × Outcome)} (h : LastAdd d f past k)
    {e : Call × Outcome} (he : e.1 = .addSubscription d f → e.2.code ≠ .success) :
    LastAdd d f (past ++ [e]) k := by
  obtain ⟨earlier, o, later, rfl, hcode, hid, hlater⟩ := h
  refine ⟨earlier, o, later ++ [e], by simp, hcode, hid, fun o' hmem => ?_⟩
  rcases List.mem_append.mp hmem with hmem | hmem
  · exact hlater o' hmem
  · obtain rfl := List.mem_singleton.mp hmem
    exact he rfl

/-! ### The memory of a run -/

/-- The invariant of the ID maps of a run, `clear` included: every live subscription remembers the ID
that its creation returned, and all IDs that are remembered at all are IDs of the range. -/
structure Remembers (s : SubscriptionManager) (past : List (Call × Outcome)) : Prop where
  indexed : s.Indexed
  recorded : ∀ d f, f ∈ s.subsOf d → ∃ k, s.ledger.tag (d, f) = some k ∧ LastAdd d f past k
  within : s.ledger.Within idRange
  next : s.nextSubscriptionId ∈ idRange

theorem Remembers.tagged {s : SubscriptionManager} {past : List (Call × Outcome)}
    (h : s.Remembers past) (d f : UInt32) (hf : f ∈ s.subsOf d) :
    ∃ k, s.ledger.tag (d, f) = some k := by
  obtain ⟨k, hk, -⟩ := h.recorded d f hf
  exact ⟨k, hk⟩

/-- What was live before a call and kept its ID remembers the same creation: the call is not another
creation of it. -/
theorem Remembers.keep {s : SubscriptionManager} {past : List (Call × Outcome)}
    (h : s.Remembers past) {c : Call} {d f : UInt32} (hlive : f ∈ s.subsOf d)
    (htag : (c.locked s).manager.ledger.tag (d, f) = s.ledger.tag (d, f)) :
    ∃ k, (c.locked s).manager.ledger.tag (d, f) = some k ∧
      LastAdd d f (past ++ [(c, (c.perform s).2)]) k := by
  obtain ⟨k, hk, hlast⟩ := h.recorded d f hlive
  refine ⟨k, htag.trans hk, hlast.concat fun hc hcode => ?_⟩
  obtain rfl : c = .addSubscription d f := hc
  exact (addSubscriptionLocked_success.mp hcode).2 hlive

theorem Remembers.perform {s : SubscriptionManager} {past : List (Call × Outcome)}
    (h : s.Remembers past) (c : Call) :
    (c.perform s).1.Remembers (past ++ [(c, (c.perform s).2)]) := by
  have htag := locked_tag h.indexed h.tagged c
  refine ⟨h.indexed.locked c, fun d f hf => ?_, fun p k hk => ?_,
    locked_nextSubscriptionId h.next c⟩
  · by_cases hclear : c = .clear
    · subst hclear
      exact absurd hf (Finset.notMem_empty f)
    replace hf : (d, f) ∈ s.liveAfter c := by
      rw [← locked_live h.indexed hclear]
      exact hf
    unfold liveAfter at hf
    cases hissue : s.issuedBy c with
    | some issue =>
      obtain ⟨k, p⟩ := issue
      obtain ⟨rfl, rfl, hp, hnew⟩ := issuedBy_eq_some hissue
      have hcode : (s.addSubscriptionLocked p.1 p.2).code = .success :=
        addSubscriptionLocked_success.mpr ⟨hp, hnew⟩
      rw [hissue] at hf
      simp only [ledgerAfter, hissue, Ledger.issue] at htag
      rcases hf with hdf | hlive
      · subst hdf
        refine ⟨s.nextSubscriptionId, ?_, ?_⟩
        · exact (congrFun htag (d, f)).trans (Function.update_self _ _ _)
        · rw [← addSubscriptionLocked_id hcode]
          exact lastAdd_concat_self past hcode
      · have hne : (d, f) ≠ p := fun heq => hnew (heq ▸ hlive)
        exact h.keep hlive ((congrFun htag (d, f)).trans (Function.update_of_ne hne _ _))
    | none =>
      rw [hissue] at hf
      simp only [ledgerAfter, hissue] at htag
      refine h.keep hf.1 ((congrFun htag (d, f)).trans ?_)
      rw [Ledger.tag_revokeAll, if_neg hf.2]
  · refine within_ledgerAfter h.within h.next c p k ?_
    rw [← htag]
    exact hk

theorem remembers_run (callback : Bool) (calls : List Call) :
    (final Call.perform { smLifecycleCallback := callback } calls).Remembers
      (history Call.perform { smLifecycleCallback := callback } calls) := by
  refine run_induction ⟨indexed_fresh callback, fun d f hf => ?_, fun p k hk => ?_, ?_⟩
    fun s past c _ h => h.perform c
  · exact absurd hf (Finset.notMem_empty f)
  · cases hk
  · exact (resolving_fresh callback).next

/-! ### Repeated subscriptions -/

theorem addSubscription_exists {s : SubscriptionManager} {d f : UInt32} :
    (s.addSubscription d f).2.code = .subscriptionExists ↔
      d ∈ s.registeredDapps ∧ f ∈ s.subsOf d := by
  simp only [addSubscription, Edit.finish]
  by_cases hd : d ∈ s.registeredDapps
  swap
  · simp [addSubscriptionLocked_of_unregistered hd, hd]
  by_cases hf : f ∈ s.subsOf d
  · simp [addSubscriptionLocked_of_live hd hf, hd, hf]
  · simp [addSubscriptionLocked_of_new hd hf, hf]

theorem Indexed.addSubscription_again {s : SubscriptionManager} (h : s.Indexed) {d f k : UInt32}
    (hf : f ∈ s.subsOf d) (hk : s.ledger.tag (d, f) = some k) :
    s.addSubscription d f = (s, ⟨.subscriptionExists, k, []⟩) := by
  rw [addSubscription, addSubscriptionLocked_again (h.registered hf) hf hk]
  rfl

/-- After any calls, an `add_subscription(d, f)` that returns `SUBSCRIPTION_EXISTS` returns the ID of
the most recent one that succeeded, which is an ID between 1 and 100.  Its lookup finds the key, so
that it creates no entry, and no entry is zero. -/
theorem repeated_subscription_returns_original (callback : Bool) (calls : List Call) :
    let fresh : SubscriptionManager := { smLifecycleCallback := callback }
    let s := final Call.perform fresh calls
    (∀ d f, (s.addSubscription d f).2.code = .subscriptionExists →
      LastAdd d f (history Call.perform fresh calls) (s.addSubscription d f).2.id ∧
      1 ≤ (s.addSubscription d f).2.id ∧ (s.addSubscription d f).2.id ≤ 100 ∧
      makeSubKey d f ∈ s.subscriptionIdReverse ∧
      (s.addSubscription d f).1.subscriptionIdReverse = s.subscriptionIdReverse) ∧
    ∀ key, s.subscriptionIdReverse.lookup key ≠ some 0 := by
  intro fresh s
  have h : s.Remembers _ := remembers_run callback calls
  constructor
  · intro d f hcode
    have hf := (addSubscription_exists.mp hcode).2
    obtain ⟨k, hk, hlast⟩ := h.recorded d f hf
    obtain ⟨hlow, hhigh⟩ := h.within (d, f) k hk
    rw [h.indexed.addSubscription_again hf hk]
    exact ⟨hlast, hlow, hhigh, Finmap.mem_of_lookup_eq_some hk, rfl⟩
  · intro key hzero
    obtain ⟨d, f, rfl⟩ := makeSubKey_surj key
    have hrange : (0 : UInt32) ∈ idRange := h.within (d, f) 0 hzero
    exact absurd hrange.1 (by decide)

/-- A subscription that a `clear` has ended is made again under the next ID, which is the one that a
repetition reports. -/
theorem repeated_subscription_after_clear :
    let calls : List Call := [.registerDapp 0, .addSubscription 1 7, .clear, .registerDapp 0,
      .registerDapp 0, .addSubscription 2 7]
    let s := final Call.perform {} calls
    s.addSubscription 2 7 = (s, ⟨.subscriptionExists, 2, []⟩) ∧
      LastAdd 2 7 (history Call.perform {} calls) 2 := by
  intro calls s
  have hagain : s.addSubscription 2 7 = (s, ⟨.subscriptionExists, 2, []⟩) := by decide +kernel
  have hlast := (repeated_subscription_returns_original false calls).1 2 7
    (show (s.addSubscription 2 7).2.code = _ by rw [hagain])
  rw [show final Call.perform _ calls = s from rfl, hagain] at hlast
  exact ⟨hagain, hlast.1⟩

/-! ### Failed calls -/

/-- Where the live subscriptions have IDs, a call that fails changes nothing and owes no check. -/
theorem locked_of_failed {s : SubscriptionManager}
    (htagged : ∀ d f, f ∈ s.subsOf d → ∃ k, s.ledger.tag (d, f) = some k) {c : Call}
    (hcode : (c.locked s).code ≠ .success) :
    (c.locked s).manager = s ∧ (c.locked s).checks = [] := by
  cases c with
  | registerDapp now =>
    simp only [Call.locked, registerDappLocked] at hcode ⊢
    split
    · exact ⟨rfl, rfl⟩
    · rename_i id hid
      simp [hid] at hcode
  | unregisterDapp order d =>
    have hd : d ∉ s.registeredDapps := fun hd => hcode (unregisterDappLocked_success.mpr hd)
    have hsame := unregisterDappLocked_of_unregistered hd order
    exact ⟨congrArg Edit.manager hsame, congrArg Edit.checks hsame⟩
  | addSubscription d f =>
    by_cases hd : d ∈ s.registeredDapps
    · have hf : f ∈ s.subsOf d := by
        by_contra hf
        exact hcode (addSubscriptionLocked_success.mpr ⟨hd, hf⟩)
      obtain ⟨k, hk⟩ := htagged d f hf
      have hsame := addSubscriptionLocked_again hd hf hk
      exact ⟨congrArg Edit.manager hsame, congrArg Edit.checks hsame⟩
    · have hsame := addSubscriptionLocked_of_unregistered (f := f) hd
      exact ⟨congrArg Edit.manager hsame, congrArg Edit.checks hsame⟩
  | removeSubscription d f =>
    simp only [Call.locked, removeSubscriptionLocked] at hcode ⊢
    split
    · exact ⟨rfl, rfl⟩
    · rename_i subs hsubs
      by_cases hf : f ∈ subs
      · simp [hsubs, hf] at hcode
      · rw [if_neg hf]
        exact ⟨rfl, rfl⟩
  | removeSubscriptionById d k =>
    simp only [Call.locked, removeSubscriptionByIdLocked] at hcode ⊢
    rcases hk : s.subscriptionIds.lookup k with _ | ⟨e, f⟩
    · exact ⟨rfl, rfl⟩
    · by_cases he : e = d
      · simp [hk, he] at hcode
      · simp [he]
  | clear => exact absurd rfl hcode

/-- In a state that any calls lead to, a call that returns anything but `SUCCESS` leaves the five maps
and both counters as they are and invokes no callback. -/
theorem failed_calls_change_nothing (callback : Bool) (calls : List Call) (c : Call)
    (hcode : (c.perform (final Call.perform { smLifecycleCallback := callback } calls)).2.code ≠
      .success) :
    let s := final Call.perform { smLifecycleCallback := callback } calls
    (c.perform s).1 = s ∧ (c.perform s).2.callbacks = [] := by
  intro s
  have h : s.Remembers _ := remembers_run callback calls
  obtain ⟨hmanager, hchecks⟩ := locked_of_failed h.tagged hcode
  refine ⟨hmanager, ?_⟩
  show (c.locked s).checks.filterMap _ = []
  rw [hchecks, List.filterMap_nil]

/-- A duplicate subscription, which passes through both `operator[]` lookups. -/
theorem failed_calls_change_nothing_duplicate :
    let s := final Call.perform {} [.registerDapp 0, .addSubscription 1 7]
    (s.addSubscription 1 7).2.code = .subscriptionExists ∧ (s.addSubscription 1 7).1 = s := by
  intro s
  have hcode : (s.addSubscription 1 7).2.code = .subscriptionExists := by decide +kernel
  refine ⟨hcode, (failed_calls_change_nothing false [.registerDapp 0, .addSubscription 1 7]
    (.addSubscription 1 7) ?_).1⟩
  exact fun hsuccess => absurd (hcode.symm.trans hsuccess) (by decide)

end SubscriptionManager

end LibE3
