import LibE3.Subscription.Ids

/-! What a subscription ID resolves to in a run.  After any calls but `clear`, an ID resolves only to
a live subscription that was issued it.  The converse, that every live subscription can be deleted
by its ID, holds in exactly those runs in which the counter never comes back to an ID that is still
in use. -/

namespace LibE3

namespace SubscriptionManager

open Transition

theorem removeSubscriptionByIdLocked_success {s : SubscriptionManager} {d k : UInt32} :
    (s.removeSubscriptionByIdLocked d k).code = .success ↔
      ∃ f, s.subscriptionIds.lookup k = some (d, f) := by
  unfold removeSubscriptionByIdLocked
  rcases s.subscriptionIds.lookup k with _ | ⟨d', f⟩
  · simp
  · by_cases hd : d' = d <;> simp [hd]

/-- A deletion by an ID that resolves removes the one subscription it resolves to. -/
theorem Indexed.removeSubscriptionById_live {s : SubscriptionManager} (h : s.Indexed)
    {d f k : UInt32} (hk : s.subscriptionIds.lookup k = some (d, f)) :
    (s.removeSubscriptionById d k).1.live = {p ∈ s.live | p ≠ (d, f)} := by
  refine (locked_live h (c := .removeSubscriptionById d k) (by simp)).trans ?_
  simp [liveAfter, issuedBy, revokedBy, hk]

theorem Indexed.removeSubscriptionById_isSubscribed {s : SubscriptionManager} (h : s.Indexed)
    {d f k : UInt32} (hk : s.subscriptionIds.lookup k = some (d, f)) (d' f' : UInt32) :
    (s.removeSubscriptionById d k).1.isSubscribed d' f' = true ↔
      s.isSubscribed d' f' = true ∧ (d', f') ≠ (d, f) := by
  rw [isSubscribed_iff, isSubscribed_iff, ← mem_live, ← mem_live, h.removeSubscriptionById_live hk]
  rfl

/-! ### Sound resolution -/

theorem Resolving.mem_subscriptionIdReverse {s : SubscriptionManager} (h : s.Resolving)
    (key : UInt64) :
    key ∈ s.subscriptionIdReverse ↔ ∃ d f, s.isSubscribed d f = true ∧ key = makeSubKey d f := by
  rw [Finmap.mem_iff]
  constructor
  · intro hkey
    obtain ⟨d, f, rfl⟩ := makeSubKey_surj key
    exact ⟨d, f, (s.isSubscribed_iff d f).mpr ((h.sound.tagged (d, f)).mp hkey), rfl⟩
  · rintro ⟨d, f, hf, rfl⟩
    exact (h.sound.tagged (d, f)).mpr ((s.isSubscribed_iff d f).mp hf)

/-- After a run without `clear` the keys of `subscription_id_reverse_` are the live pairs, and an ID
that resolves, resolves to a live pair that was issued it and remembers it.  So a successful deletion
by ID removes one subscription, of the caller, that was issued the ID since the caller was
registered. -/
theorem subscription_ids_resolve (callback : Bool) (calls : List Call) (h : WithoutClear calls) :
    let fresh : SubscriptionManager := { smLifecycleCallback := callback }
    let s := final Call.perform fresh calls
    let past := history Call.perform fresh calls
    (∀ key, key ∈ s.subscriptionIdReverse ↔
      ∃ d f, s.isSubscribed d f = true ∧ key = makeSubKey d f) ∧
    (∀ d f d' f', makeSubKey d f = makeSubKey d' f' → d = d' ∧ f = f') ∧
    (∀ k d f, s.subscriptionIds.lookup k = some (d, f) →
      s.isSubscribed d f = true ∧
      s.subscriptionIdReverse.lookup (makeSubKey d f) = some k ∧ 1 ≤ k ∧ k ≤ 100) ∧
    (∀ d k, (s.removeSubscriptionById d k).2.code = .success →
      ∃ f, s.isSubscribed d f = true ∧ issuedId d f past = some k ∧
        ∀ d' f', (s.removeSubscriptionById d k).1.isSubscribed d' f' = true ↔
          s.isSubscribed d' f' = true ∧ (d', f') ≠ (d, f)) ∧
    (∀ before order d after, calls = before ++ .unregisterDapp order d :: after →
      ((final Call.perform fresh before).unregisterDapp order d).2.code = .success →
      ∀ k f, s.subscriptionIds.lookup k = some (d, f) →
        ∃ o, (.addSubscription d f, o) ∈
            history Call.perform (final Call.perform fresh (before ++ [.unregisterDapp order d]))
              after ∧
          o.code = .success ∧ o.id = k) := by
  intro fresh s past
  have htracked : s.Tracked past := tracked_run callback h
  have hsound := htracked.sound
  refine ⟨htracked.mem_subscriptionIdReverse, fun _ _ _ _ => makeSubKey_inj, ?_, ?_, ?_⟩
  · intro k d f hk
    have htag := hsound.resolves k (d, f) hk
    exact ⟨(s.isSubscribed_iff d f).mpr ((hsound.tagged (d, f)).mp ⟨k, htag⟩), htag,
      htracked.within _ _ htag⟩
  · intro d k hcode
    obtain ⟨f, hk⟩ := removeSubscriptionByIdLocked_success.mp hcode
    have htag := hsound.resolves k (d, f) hk
    exact ⟨f, (s.isSubscribed_iff d f).mpr ((hsound.tagged (d, f)).mp ⟨k, htag⟩),
      htracked.issued d f k htag, htracked.indexed.removeSubscriptionById_isSubscribed hk⟩
  · intro before order d after hcalls hcode k f hk
    have hissued := htracked.issued d f k (hsound.resolves k (d, f) hk)
    -- The release takes the ID back, so what is held at the end was issued after it.
    have hsplit : past = history Call.perform fresh (before ++ [.unregisterDapp order d]) ++
        history Call.perform (final Call.perform fresh (before ++ [.unregisterDapp order d]))
          after := by
      rw [← history_append]
      simp [past, hcalls]
    have hreleased : issuedId d f
        (history Call.perform fresh (before ++ [.unregisterDapp order d])) = none := by
      rw [history_concat, issuedId_concat]
      exact if_pos ⟨rfl, hcode⟩
    rw [hsplit, issuedId, List.foldl_append, ← issuedId.eq_def, hreleased] at hissued
    exact foldl_issueStep_eq_some _ hissued

/-- Two dApps, the first of them released: ID 2 still resolves, and only for the second. -/
theorem subscription_ids_resolve_released :
    WithoutClear [.registerDapp 0, .registerDapp 0, .addSubscription 1 7, .addSubscription 2 7,
      .unregisterDapp (.ascending UInt32) 1] ∧
    ∃ f, (final Call.perform {} [.registerDapp 0, .registerDapp 0, .addSubscription 1 7,
        .addSubscription 2 7, .unregisterDapp (.ascending UInt32) 1]).isSubscribed 2 f = true ∧
      issuedId 2 f (history Call.perform {} [.registerDapp 0, .registerDapp 0,
        .addSubscription 1 7, .addSubscription 2 7,
        .unregisterDapp (.ascending UInt32) 1]) = some 2 := by
  have h : WithoutClear [.registerDapp 0, .registerDapp 0, .addSubscription 1 7,
      .addSubscription 2 7, .unregisterDapp (.ascending UInt32) 1] := by
    simp [WithoutClear]
  obtain ⟨f, hlive, hissued, -⟩ :=
    (subscription_ids_resolve false _ h).2.2.2.1 2 2 (by decide +kernel)
  exact ⟨h, f, hlive, hissued⟩

/-! ### Deletable by ID -/

/-- Every live subscription resolves from the ID that its creation returned: no two live
subscriptions share one, and the deletion by it succeeds and removes that subscription alone. -/
structure DeletableById (s : SubscriptionManager) (past : List (Call × Outcome)) : Prop where
  issued : ∀ d f, s.isSubscribed d f = true → ∃ k, issuedId d f past = some k
  resolves : ∀ d f k, s.isSubscribed d f = true → issuedId d f past = some k →
    s.subscriptionIds.lookup k = some (d, f)
  distinct : ∀ d f d' f' k, s.isSubscribed d f = true → s.isSubscribed d' f' = true →
    issuedId d f past = some k → issuedId d' f' past = some k → d = d' ∧ f = f'
  removes : ∀ d f k, s.isSubscribed d f = true → issuedId d f past = some k →
    (s.removeSubscriptionById d k).2.code = .success ∧
    ∀ d' f', (s.removeSubscriptionById d k).1.isSubscribed d' f' = true ↔
      s.isSubscribed d' f' = true ∧ (d', f') ≠ (d, f)

/-- Every `add_subscription` of the run that creates a subscription is made while the ID under the
counter is not in use. -/
def CreatesWithFreeIds (fresh : SubscriptionManager) (calls : List Call) : Prop :=
  ∀ before d f after, calls = before ++ .addSubscription d f :: after →
    let s := final Call.perform fresh before
    s.isDappRegistered d = true → s.isSubscribed d f = false →
      s.subscriptionIds.lookup s.nextSubscriptionId = none

/-- What a live subscription of a tracked run was issued is what it remembers. -/
theorem Tracked.tag_of_live {s : SubscriptionManager} {past : List (Call × Outcome)}
    (h : s.Tracked past) {d f k : UInt32} (hlive : s.isSubscribed d f = true)
    (hk : issuedId d f past = some k) : s.ledger.tag (d, f) = some k := by
  obtain ⟨k', hk'⟩ := (h.sound.tagged (d, f)).mpr ((s.isSubscribed_iff d f).mp hlive)
  rw [hk', ← h.issued d f k' hk', hk]

theorem Tracked.deletableById {s : SubscriptionManager} {past : List (Call × Outcome)}
    (h : s.Tracked past) (hexact : s.ledger.Exact) : s.DeletableById past := by
  have hresolves : ∀ d f k, s.isSubscribed d f = true → issuedId d f past = some k →
      s.subscriptionIds.lookup k = some (d, f) := fun d f k hlive hk =>
    hexact (d, f) k (h.tag_of_live hlive hk)
  refine ⟨fun d f hlive => ?_, hresolves, fun d f d' f' k hlive hlive' hk hk' => ?_,
    fun d f k hlive hk => ⟨?_, ?_⟩⟩
  · obtain ⟨k, hk⟩ := (h.sound.tagged (d, f)).mpr ((s.isSubscribed_iff d f).mp hlive)
    exact ⟨k, h.issued d f k hk⟩
  · exact Prod.mk.inj (hexact.injective (h.tag_of_live hlive hk) (h.tag_of_live hlive' hk'))
  · exact removeSubscriptionByIdLocked_success.mpr ⟨f, hresolves d f k hlive hk⟩
  · exact h.indexed.removeSubscriptionById_isSubscribed (hresolves d f k hlive hk)

/-- A call keeps the ledger exact if the ID that it issues, if any, is not in use. -/
theorem exact_locked {s : SubscriptionManager} (h : s.Resolving) (hexact : s.ledger.Exact)
    {c : Call} (hfree : ∀ p, c = .addSubscription p.1 p.2 → p.1 ∈ s.registeredDapps → p ∉ s.live →
      s.ledger.owner s.nextSubscriptionId = none) : (c.locked s).manager.ledger.Exact := by
  rw [locked_ledger h.indexed h.sound, ledgerAfter]
  split
  · rename_i k p hissue
    obtain ⟨rfl, rfl, hp, hlive⟩ := issuedBy_eq_some hissue
    exact hexact.issue (hfree p rfl hp hlive) p
  · exact hexact.revokeAll _

theorem exact_final (callback : Bool) {calls : List Call} (h : WithoutClear calls)
    (hfree : CreatesWithFreeIds { smLifecycleCallback := callback } calls) :
    (final Call.perform { smLifecycleCallback := callback } calls).ledger.Exact := by
  induction calls using List.reverseRecOn with
  | nil => exact fun p k hk => by cases hk
  | append_singleton calls c ih =>
    have hcalls : WithoutClear calls := fun hmem => h (List.mem_append_left _ hmem)
    have hexact := ih hcalls fun before d f after heq =>
      hfree before d f (after ++ [c]) (by simp [heq])
    rw [final_concat]
    refine exact_locked (tracked_run callback hcalls).toResolving hexact fun p hc hp hlive => ?_
    refine hfree calls p.1 p.2 [] (by rw [hc]) (decide_eq_true hp) ?_
    rw [← Bool.not_eq_true, isSubscribed_iff]
    exact hlive

/-- In a run without `clear`, every live subscription is deletable by its ID in every state of the
run, if and only if every creation finds the ID under the counter unused. -/
theorem deletableById_iff (callback : Bool) (calls : List Call) (h : WithoutClear calls) :
    let fresh : SubscriptionManager := { smLifecycleCallback := callback }
    (∀ before, before <+: calls →
      (final Call.perform fresh before).DeletableById (history Call.perform fresh before)) ↔
    CreatesWithFreeIds fresh calls := by
  intro fresh
  constructor
  · intro hdel before d f after hcalls s hd hf
    have hwithout : WithoutClear (before ++ [.addSubscription d f]) := fun hmem => h <| by
      rw [hcalls]
      simp at hmem ⊢
      exact Or.inl hmem
    have hbefore : s.Tracked _ := tracked_run callback fun hmem =>
      hwithout (List.mem_append_left _ hmem)
    have hafter := tracked_run callback hwithout
    have hnew : (d, f) ∉ s.live := by
      rw [mem_live, ← isSubscribed_iff, hf]
      simp
    rw [← Option.not_isSome_iff_eq_none]
    intro hsome
    obtain ⟨q, hq⟩ := Option.isSome_iff_exists.mp hsome
    -- The holder `q` of the ID stays live and remembers it, and the ID now resolves to `(d, f)`.
    obtain ⟨htag, howner, hne⟩ := hbefore.sound.not_exact_issue hnew hq
    have hledger : (final Call.perform fresh (before ++ [.addSubscription d f])).ledger =
        s.ledger.issue s.nextSubscriptionId (d, f) := by
      rw [final_concat]
      refine (locked_ledger hbefore.indexed hbefore.sound _).trans ?_
      have hnew' : f ∉ s.subsOf d := hnew
      simp [ledgerAfter, issuedBy, of_decide_eq_true hd, hnew']
    rw [← hledger] at htag howner
    have hlive := (isSubscribed_iff _ _ _).mpr ((hafter.sound.tagged q).mp ⟨_, htag⟩)
    have hresolves := (hdel (before ++ [.addSubscription d f]) ⟨after, by simp [hcalls]⟩).resolves
      q.1 q.2 _ hlive (hafter.issued _ _ _ htag)
    exact hne (Option.some.inj (hresolves.symm.trans howner))
  · rintro hfree before ⟨after, rfl⟩
    have hbefore : WithoutClear before := fun hmem => h (List.mem_append_left _ hmem)
    exact (tracked_run callback hbefore).deletableById <| exact_final callback hbefore
      fun b d f a heq => hfree b d f (a ++ after) (by simp [heq])

/-- One dApp keeps its subscription to function 0 while it adds and drops function 1, until the
counter is back at ID 1. -/
def wrapRun : List Call :=
  [.registerDapp 0, .addSubscription 1 0] ++
    (List.replicate 99 [Call.addSubscription 1 1, .removeSubscription 1 1]).flatten ++
    [.addSubscription 1 1]

theorem withoutClear_wrapRun : WithoutClear wrapRun := by
  simp only [WithoutClear, wrapRun, List.mem_append, List.mem_flatten, List.mem_replicate]
  rintro ((h | ⟨l, ⟨-, rfl⟩, h⟩) | h) <;> simp at h

/-- The live subscription `(1, 0)` was issued ID 1, which now resolves to `(1, 1)`, and the deletion
by it leaves `(1, 0)` in place. -/
theorem not_deletableById_wrapRun :
    WithoutClear wrapRun ∧
    (final Call.perform {} wrapRun).isSubscribed 1 0 = true ∧
    issuedId 1 0 (history Call.perform {} wrapRun) = some 1 ∧
    (final Call.perform {} wrapRun).subscriptionIds.lookup 1 = some (1, 1) ∧
    ((final Call.perform {} wrapRun).removeSubscriptionById 1 1).1.isSubscribed 1 0 = true ∧
    ¬(final Call.perform {} wrapRun).DeletableById (history Call.perform {} wrapRun) := by
  have hlive : (final Call.perform {} wrapRun).isSubscribed 1 0 = true := by decide +kernel
  have hissued : issuedId 1 0 (history Call.perform {} wrapRun) = some 1 := by decide +kernel
  have hlookup : (final Call.perform {} wrapRun).subscriptionIds.lookup 1 = some (1, 1) := by
    decide +kernel
  refine ⟨withoutClear_wrapRun, hlive, hissued, hlookup, by decide +kernel, fun h => ?_⟩
  have hresolves := h.resolves 1 0 1 hlive hissued
  rw [hlookup] at hresolves
  cases hresolves

/-- A run that ends long before the counter wraps. -/
theorem deletableById_iff_short :
    WithoutClear [.registerDapp 0, .addSubscription 1 0, .removeSubscription 1 0] ∧
    ((∀ before, before <+: [.registerDapp 0, .addSubscription 1 0, .removeSubscription 1 0] →
      (final Call.perform {} before).DeletableById (history Call.perform {} before)) ↔
    CreatesWithFreeIds {} [.registerDapp 0, .addSubscription 1 0, .removeSubscription 1 0]) := by
  have h : WithoutClear [.registerDapp 0, .addSubscription 1 0, .removeSubscription 1 0] := by
    simp [WithoutClear]
  exact ⟨h, deletableById_iff false _ h⟩

end SubscriptionManager

end LibE3
