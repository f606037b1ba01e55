import LibE3.Subscription.Lifecycle
import LibE3.Subscription.Registration

/-! The three deletion paths.  `remove_subscription` finds the ID by the pair,
`remove_subscription_by_id` the pair by the ID, and `unregister_dapp` takes every function of a row in
a loop.  After calls without `clear` an ID that resolves is the one that its pair remembers, so the
first two agree.  The loop agrees with single removals in any order, since its rounds commute: two
rounds that erase one ID erase it once. -/

namespace LibE3

namespace SubscriptionManager

open Transition

/-! ### By ID and by pair -/

section ById

variable (s : SubscriptionManager) (d f : UInt32)

@[simp] theorem dropRow_subscriptionIdReverse :
    (s.dropRow d f).subscriptionIdReverse = s.subscriptionIdReverse := by
  unfold dropRow
  split <;> rfl

@[simp] theorem dropSubscriber_subscriptionIdReverse :
    (s.dropSubscriber d f).1.subscriptionIdReverse = s.subscriptionIdReverse := rfl

end ById

theorem removeSubscriptionLocked_of_mem {s : SubscriptionManager} {d f : UInt32}
    {subs : Finset UInt32} (hsubs : s.dappSubscriptions.lookup d = some subs) (hf : f ∈ subs) :
    s.removeSubscriptionLocked d f =
      { manager := ((s.dropRow d f).dropSubscriber d f).1.dropSubscriptionId d f
        code := .success
        checks := stopChecks f ((s.dropRow d f).dropSubscriber d f).2 } := by
  simp only [removeSubscriptionLocked, hsubs, hf, if_true]

/-- The critical sections of the two calls are one and the same. -/
theorem Resolving.removeSubscriptionById_eq {s : SubscriptionManager} (h : s.Resolving)
    {d f k : UInt32} (hk : s.subscriptionIds.lookup k = some (d, f)) :
    s.removeSubscriptionByIdLocked d k = s.removeSubscriptionLocked d f := by
  have htag : s.subscriptionIdReverse.lookup (makeSubKey d f) = some k :=
    h.sound.resolves k (d, f) hk
  have hf : f ∈ s.subsOf d := (h.sound.tagged (d, f)).mp ⟨k, htag⟩
  obtain ⟨subs, hsubs⟩ := Finmap.mem_iff.mp (mem_of_mem_subsOf hf)
  rw [removeSubscriptionLocked_of_mem hsubs (subsOf_of_lookup hsubs ▸ hf)]
  simp only [removeSubscriptionByIdLocked, hk, ne_eq, not_true_eq_false, if_false,
    dropSubscriptionId, dropSubscriber_subscriptionIdReverse, dropRow_subscriptionIdReverse, htag]

/-! ### The rounds of the loop commute -/

/-- What a round of the loop of `unregister_dapp` does to the manager. -/
def unregisterStep (d : UInt32) (s : SubscriptionManager) (f : UInt32) : SubscriptionManager :=
  (s.dropSubscriber d f).1.dropSubscriptionId d f

theorem sweep_manager (d : UInt32) (l : List UInt32) (acc : SubscriptionManager × List Check) :
    (l.foldl (unregisterRound d) acc).1 = l.foldl (unregisterStep d) acc.1 := by
  induction l generalizing acc with
  | nil => rfl
  | cons f l ih => exact ih _

/-- The loop leaves the registrations and the rows for the statements after it. -/
theorem foldl_unregisterStep (d : UInt32) (l : List UInt32) (s : SubscriptionManager) :
    (l.foldl (unregisterStep d) s).registeredDapps = s.registeredDapps ∧
    (l.foldl (unregisterStep d) s).dappSubscriptions = s.dappSubscriptions := by
  rw [← sweep_manager d l (s, [])]
  exact ⟨(sweep_index d l (s, [])).1, (sweep_index d l (s, [])).2.1⟩

/-- A manager is its registrations, its two indexes, its ledger and its settings. -/
theorem eq_of_parts {s s' : SubscriptionManager}
    (hregistered : s.registeredDapps = s'.registeredDapps)
    (hrows : s.dappSubscriptions = s'.dappSubscriptions)
    (hsubscribers : s.ranFunctionSubscribers = s'.ranFunctionSubscribers)
    (hledger : s.ledger = s'.ledger) (hsettings : s.settings = s'.settings)
    (hnext : s.nextDappId = s'.nextDappId) : s = s' := by
  have hids : s.subscriptionIds = s'.subscriptionIds :=
    Finmap.ext_lookup fun k => congrFun (congrArg Ledger.owner hledger) k
  have hreverse : s.subscriptionIdReverse = s'.subscriptionIdReverse := by
    refine Finmap.ext_lookup fun key => ?_
    obtain ⟨d, f, rfl⟩ := makeSubKey_surj key
    exact congrFun (congrArg Ledger.tag hledger) (d, f)
  obtain ⟨hcallback, hnextId⟩ := Prod.mk.inj hsettings
  cases s
  cases s'
  simp_all

theorem unregisterStep_ranFunctionSubscribers (d : UInt32) (s : SubscriptionManager) (f g : UInt32) :
    (unregisterStep d s f).ranFunctionSubscribers.lookup g =
      if g = f then some ((s.subscribersOf f).erase d)
      else s.ranFunctionSubscribers.lookup g := by
  rw [unregisterStep, dropSubscriptionId_ranFunctionSubscribers]
  exact UnorderedMap.lookup_insert_ite _ _ _ _

theorem unregisterStep_subscribersOf (d : UInt32) (s : SubscriptionManager) {f g : UInt32}
    (hne : g ≠ f) : (unregisterStep d s f).subscribersOf g = s.subscribersOf g := by
  rw [subscribersOf, UnorderedMap.getD, unregisterStep_ranFunctionSubscribers, if_neg hne]
  rfl

theorem unregisterStep_comm (d : UInt32) (s : SubscriptionManager) (f g : UInt32) :
    unregisterStep d (unregisterStep d s f) g = unregisterStep d (unregisterStep d s g) f := by
  by_cases hfg : f = g
  · rw [hfg]
  refine eq_of_parts ?_ ?_ (Finmap.ext_lookup fun e => ?_) ?_ ?_ ?_
  · simp [unregisterStep]
  · simp [unregisterStep]
  · simp only [unregisterStep_ranFunctionSubscribers, unregisterStep_subscribersOf d s hfg,
      unregisterStep_subscribersOf d s (Ne.symm hfg)]
    split
    · rename_i he
      rw [he, if_neg (Ne.symm hfg)]
    · rfl
  · simp only [unregisterStep, dropSubscriptionId_ledger, dropSubscriber_ledger]
    exact Ledger.revoke_comm _ _ _
  · simp [unregisterStep]
  · simp [unregisterStep, dropSubscriber]

/-! ### The loop and single removals -/

/-- `t` is `s` but for the row of `d`. -/
structure RowApart (d : UInt32) (s t : SubscriptionManager) : Prop where
  rest : t = { s with dappSubscriptions := t.dappSubscriptions }
  others : ∀ e, e ≠ d → t.dappSubscriptions.lookup e = s.dappSubscriptions.lookup e

theorem RowApart.refl (d : UInt32) (s : SubscriptionManager) : RowApart d s s :=
  ⟨rfl, fun _ _ => rfl⟩

/-- The callback that the removal of `d` from the subscribers of `f` leads to. -/
def stopCallbacks (s : SubscriptionManager) (d f : UInt32) : List Callback :=
  if s.smLifecycleCallback && s.removesLast d f then [(f, false)] else []

/-- The checks of removals that have left their functions without subscribers lead to the stop
callbacks, if there is a callback to make. -/
theorem filterMap_stopChecks (s' : SubscriptionManager) (removedLast : UInt32 → Bool)
    (l : List UInt32) (h : ∀ f ∈ l, removedLast f = true → s'.hasSubscribers f = false) :
    (l.flatMap fun f => stopChecks f (removedLast f)).filterMap s'.checkSmLifecycle =
      l.flatMap fun f => if s'.smLifecycleCallback && removedLast f then [(f, false)] else [] := by
  induction l with
  | nil => rfl
  | cons f l ih =>
    rw [List.flatMap_cons, List.filterMap_append, List.flatMap_cons,
      ih fun g hg => h g (List.mem_cons_of_mem f hg)]
    congr 1
    cases hlast : removedLast f with
    | false => simp [stopChecks]
    | true =>
      have hnow := h f List.mem_cons_self hlast
      cases hcallback : s'.smLifecycleCallback <;>
        simp [stopChecks, checkSmLifecycle, hcallback, hnow]

theorem stopCallbacks_congr {s s' : SubscriptionManager} {d f : UInt32}
    (hcallback : s'.smLifecycleCallback = s.smLifecycleCallback)
    (hlast : s'.removesLast d f = s.removesLast d f) :
    s'.stopCallbacks d f = s.stopCallbacks d f := by
  rw [stopCallbacks, stopCallbacks, hcallback, hlast]

theorem unregisterStep_smLifecycleCallback (d : UInt32) (s : SubscriptionManager) (f : UInt32) :
    (unregisterStep d s f).smLifecycleCallback = s.smLifecycleCallback := by
  unfold unregisterStep dropSubscriptionId
  split <;> rfl

/-- One removal is a round of the loop that also takes the function out of the row. -/
theorem RowApart.removeSubscription {d f : UInt32} {s t : SubscriptionManager}
    {subs : Finset UInt32} (h : RowApart d s t) (hsubs : t.dappSubscriptions.lookup d = some subs)
    (hf : f ∈ subs) :
    RowApart d (unregisterStep d s f) (t.removeSubscription d f).1 ∧
    (t.removeSubscription d f).1.dappSubscriptions.lookup d = some (subs.erase f) ∧
    (t.removeSubscription d f).2.callbacks = s.stopCallbacks d f := by
  have hrows : (unregisterStep d s f).dappSubscriptions = s.dappSubscriptions := by
    simp [unregisterStep]
  have hmanager : (t.removeSubscription d f).1 =
      { unregisterStep d s f with
        dappSubscriptions := t.dappSubscriptions.insert d (subs.erase f) } := by
    simp only [SubscriptionManager.removeSubscription, removeSubscriptionLocked_of_mem hsubs hf,
      Edit.finish, dropRow, hsubs]
    rw [h.rest]
    simp only [unregisterStep, dropSubscriptionId, dropSubscriber]
    split <;> rfl
  have hnow : s.removesLast d f = true → (t.removeSubscription d f).1.hasSubscribers f = false := by
    intro hlast
    simp only [removesLast, Bool.and_eq_true, Bool.not_eq_true'] at hlast
    rw [hasSubscribers_eq, ← hlast.2, hmanager]
    congr 1
    rw [subscribersOf, UnorderedMap.getD]
    simp [unregisterStep_ranFunctionSubscribers]
  have hcallback : (t.removeSubscription d f).1.smLifecycleCallback = s.smLifecycleCallback := by
    rw [hmanager]
    exact unregisterStep_smLifecycleCallback d s f
  refine ⟨⟨?_, fun e he => ?_⟩, ?_, ?_⟩
  · rw [hmanager]
  · rw [hmanager, hrows, ← h.others e he]
    exact Finmap.lookup_insert_of_ne _ he
  · rw [hmanager]
    exact Finmap.lookup_insert _
  · have hchecks : (t.removeSubscriptionLocked d f).checks =
        stopChecks f (s.removesLast d f) := by
      rw [removeSubscriptionLocked_of_mem hsubs hf, dropRow, hsubs, h.rest]
      rfl
    have hfilter := filterMap_stopChecks (t.removeSubscription d f).1 (s.removesLast d) [f]
      fun g hg hlast => by
        obtain rfl := List.mem_singleton.mp hg
        exact hnow hlast
    rw [List.flatMap_singleton, List.flatMap_singleton, hcallback, ← hchecks] at hfilter
    exact hfilter

/-- The calls that remove the functions of a list one after the other. -/
def removals (d : UInt32) (l : List UInt32) : List Call := l.map (Call.removeSubscription d)

/-- A run of removals does what the rounds of the loop do, empties the row, and makes the callbacks
that the tests of the state before it say. -/
theorem RowApart.removals {d : UInt32} {s t : SubscriptionManager} {subs : Finset UInt32}
    {l : List UInt32} (h : RowApart d s t) (hsubs : t.dappSubscriptions.lookup d = some subs)
    (hl : l.Nodup) (hmem : ∀ f ∈ l, f ∈ subs) :
    RowApart d (l.foldl (unregisterStep d) s) (final Call.perform t (removals d l)) ∧
    (final Call.perform t (removals d l)).dappSubscriptions.lookup d = some (subs \ l.toFinset) ∧
    (history Call.perform t (removals d l)).flatMap (·.2.callbacks) =
      l.flatMap (s.stopCallbacks d) := by
  induction l generalizing s t subs with
  | nil => exact ⟨h, by simpa [SubscriptionManager.removals, final] using hsubs, rfl⟩
  | cons f l ih =>
    obtain ⟨hnew, hl⟩ := List.nodup_cons.mp hl
    obtain ⟨happart, hrow, hcallbacks⟩ := h.removeSubscription hsubs (hmem f List.mem_cons_self)
    have hrest : ∀ g ∈ l, g ∈ subs.erase f := fun g hg =>
      Finset.mem_erase.mpr ⟨fun heq => hnew (heq ▸ hg), hmem g (List.mem_cons_of_mem f hg)⟩
    obtain ⟨ihapart, ihrow, ihcallbacks⟩ := ih happart hrow hl hrest
    refine ⟨ihapart, ?_, ?_⟩
    · refine ihrow.trans (congrArg some ?_)
      ext g
      simp only [Finset.mem_sdiff, Finset.mem_erase, List.mem_toFinset, List.mem_cons]
      tauto
    · show (t.removeSubscription d f).2.callbacks ++ _ = _
      rw [hcallbacks, List.flatMap_cons]
      refine congrArg (s.stopCallbacks d f ++ ·) (ihcallbacks.trans ?_)
      -- The rounds of the other functions leave the test of each function alone.
      refine List.flatMap_congr fun g hg => ?_
      exact stopCallbacks_congr (unregisterStep_smLifecycleCallback d s f)
        (unregisterRound_removesLast d (s, []) fun heq => hnew (heq ▸ hg))

theorem unregisterDapp_of_row {s : SubscriptionManager} {d : UInt32} {subs : Finset UInt32}
    (hd : d ∈ s.registeredDapps) (hsubs : s.dappSubscriptions.lookup d = some subs)
    (order : Enumeration UInt32) :
    (s.unregisterDapp order d).1 =
      { (order.list subs).foldl (unregisterStep d) s with
        dappSubscriptions := s.dappSubscriptions.erase d
        registeredDapps := s.registeredDapps.erase d } := by
  obtain ⟨hregistered, hrows⟩ := foldl_unregisterStep d (order.list subs) s
  simp only [unregisterDapp, unregisterDappLocked, hd, hsubs, if_true, Edit.finish, sweep_manager,
    hregistered, hrows]

theorem unregisterDapp_callbacks {s : SubscriptionManager} (h : s.Indexed) {d : UInt32}
    (hd : d ∈ s.registeredDapps) (order : Enumeration UInt32) :
    (s.unregisterDapp order d).2.callbacks =
      (order.list (s.subsOf d)).flatMap (s.stopCallbacks d) := by
  obtain ⟨subs, hsubs⟩ := Finmap.mem_iff.mp (h.mem_rows.mpr hd)
  have hchecks : (s.unregisterDappLocked order d).checks =
      (order.list (s.subsOf d)).flatMap fun f => stopChecks f (s.removesLast d f) := by
    simp only [unregisterDappLocked, hd, if_true, hsubs, subsOf_of_lookup hsubs]
    exact sweep_checks d (order.nodup subs) (s, [])
  have howes := owes_unregisterDapp h order d
  have hcallback : (s.unregisterDapp order d).1.smLifecycleCallback = s.smLifecycleCallback :=
    congrArg Prod.fst (s.locked_settings (.unregisterDapp order d))
  have hfilter := filterMap_stopChecks (s.unregisterDapp order d).1 (s.removesLast d)
    (order.list (s.subsOf d)) fun f hf hlast => by
      refine ((howes.mem f true).mp ?_).2
      rw [hchecks]
      exact List.mem_flatMap.mpr ⟨f, hf, mem_stopChecks.mpr ⟨rfl, rfl, hlast⟩⟩
  rw [hcallback, ← hchecks] at hfilter
  exact hfilter

theorem nodup_getDappSubscriptions (s : SubscriptionManager) (order : Enumeration UInt32)
    (d : UInt32) : (s.getDappSubscriptions order d).Nodup := by
  unfold getDappSubscriptions
  split
  · exact List.nodup_nil
  · exact order.nodup _

/-- A stranger has no row, so there is nothing to remove. -/
theorem unregisterDapp_after_removals_of_stranger {s : SubscriptionManager} (h : s.Indexed)
    {d : UInt32} (hd : d ∉ s.registeredDapps) {l : List UInt32} (hmem : ∀ f ∈ l, f ∈ s.subsOf d)
    (order order' : Enumeration UInt32) :
    final Call.perform s (removals d l ++ [.unregisterDapp order' d]) =
      (s.unregisterDapp order d).1 ∧
    ((history Call.perform s (removals d l ++ [.unregisterDapp order' d])).flatMap
      (·.2.callbacks)).Perm (s.unregisterDapp order d).2.callbacks := by
  have hnil : l = [] := by
    refine List.eq_nil_iff_forall_not_mem.mpr fun f hf => hd ?_
    exact h.registered (hmem f hf)
  have hsame : ∀ order, s.unregisterDapp order d = (s, ⟨.dappNotRegistered, 0, []⟩) := by
    intro order
    rw [unregisterDapp, unregisterDappLocked_of_unregistered hd]
    rfl
  subst hnil
  show (s.unregisterDapp order' d).1 = _ ∧ ((s.unregisterDapp order' d).2.callbacks ++ []).Perm _
  rw [hsame order, hsame order']
  exact ⟨rfl, List.Perm.refl _⟩

/-- What is left of a dApp whose row was emptied is its registration, and its release then does what
the loop did not. -/
theorem RowApart.unregisterDapp {d : UInt32} {s t : SubscriptionManager} {subs : Finset UInt32}
    {l : List UInt32} (h : RowApart d (l.foldl (unregisterStep d) s) t)
    (hd : d ∈ s.registeredDapps) (hsubs : s.dappSubscriptions.lookup d = some subs)
    (hrow : t.dappSubscriptions.lookup d = some ∅) {order : Enumeration UInt32}
    (hperm : l.Perm (order.list subs)) (order' : Enumeration UInt32) :
    (t.unregisterDapp order' d).1 = (s.unregisterDapp order d).1 := by
  obtain ⟨hregistered, hrows⟩ := foldl_unregisterStep d l s
  have htregistered : t.registeredDapps = s.registeredDapps := by
    rw [h.rest]
    exact hregistered
  have htrows : t.dappSubscriptions.erase d = s.dappSubscriptions.erase d := by
    refine Finmap.ext_lookup fun e => ?_
    rw [UnorderedMap.lookup_erase_ite, UnorderedMap.lookup_erase_ite]
    split
    · rfl
    · rename_i he
      rw [h.others e he, hrows]
  have hsweep : l.foldl (unregisterStep d) s = (order.list subs).foldl (unregisterStep d) s :=
    hperm.foldl_eq' (fun f _ g _ s => unregisterStep_comm d s f g) s
  rw [unregisterDapp_of_row (htregistered ▸ hd) hrow order', unregisterDapp_of_row hd hsubs order,
    order'.list_empty, List.foldl_nil, htrows, htregistered, ← hsweep, h.rest]

/-- Removing the subscriptions of a dApp one by one and then the dApp is removing the dApp. -/
theorem unregisterDapp_after_removals {s : SubscriptionManager} (h : s.Indexed) {d : UInt32}
    {l : List UInt32} (hl : l.Nodup) (hmem : ∀ f, f ∈ l ↔ f ∈ s.subsOf d)
    (order order' : Enumeration UInt32) :
    final Call.perform s (removals d l ++ [.unregisterDapp order' d]) =
      (s.unregisterDapp order d).1 ∧
    ((history Call.perform s (removals d l ++ [.unregisterDapp order' d])).flatMap
      (·.2.callbacks)).Perm (s.unregisterDapp order d).2.callbacks := by
  by_cases hd : d ∈ s.registeredDapps
  swap
  · exact unregisterDapp_after_removals_of_stranger h hd (fun f hf => (hmem f).mp hf) order order'
  obtain ⟨subs, hsubs⟩ := Finmap.mem_iff.mp (h.mem_rows.mpr hd)
  have hsubsOf := subsOf_of_lookup hsubs
  rw [hsubsOf] at hmem
  have hperm : l.Perm (order.list subs) :=
    (List.perm_ext_iff_of_nodup hl (order.nodup subs)).mpr fun f => by
      rw [hmem, order.mem_list]
  obtain ⟨happart, hrow, hcallbacks⟩ :=
    (RowApart.refl d s).removals hsubs hl fun f hf => (hmem f).mp hf
  have hempty : subs \ l.toFinset = ∅ := by
    refine Finset.sdiff_eq_empty_iff_subset.mpr fun f hf => ?_
    exact List.mem_toFinset.mpr ((hmem f).mpr hf)
  rw [hempty] at hrow
  constructor
  · rw [final_concat]
    exact happart.unregisterDapp hd hsubs hrow hperm order'
  · have hindexed := h.final (removals d l)
    have hregistered := hindexed.mem_rows.mp (Finmap.mem_of_lookup_eq_some hrow)
    rw [history_concat, List.flatMap_append, hcallbacks, List.flatMap_singleton]
    show (_ ++ (SubscriptionManager.unregisterDapp _ order' d).2.callbacks).Perm _
    rw [unregisterDapp_callbacks hindexed hregistered, unregisterDapp_callbacks h hd,
      subsOf_of_lookup hrow, hsubsOf, order'.list_empty, List.flatMap_nil, List.append_nil]
    exact hperm.flatMap_right _

/-- After any calls but `clear`, a deletion by an ID that resolves and the deletion of the pair that
it resolves to succeed, lead to the same manager and make the same callbacks.  The release of a dApp
leads to the same manager, and to the same callbacks up to their order, as the deletion of its
subscriptions in any order followed by its release, whatever the orders in which the sets are
walked. -/
theorem deletion_paths_agree (callback : Bool) (calls : List Call) (h : WithoutClear calls) :
    let s := final Call.perform { smLifecycleCallback := callback } calls
    (∀ k d f, s.subscriptionIds.lookup k = some (d, f) →
      (s.removeSubscriptionById d k).2.code = .success ∧
      s.removeSubscriptionById d k = s.removeSubscription d f) ∧
    ∀ d order order' listing l, l.Perm (s.getDappSubscriptions listing d) →
      final Call.perform s (removals d l ++ [.unregisterDapp order' d]) =
        (s.unregisterDapp order d).1 ∧
      ((history Call.perform s (removals d l ++ [.unregisterDapp order' d])).flatMap
        (·.2.callbacks)).Perm (s.unregisterDapp order d).2.callbacks := by
  intro s
  have hresolving : s.Resolving := (tracked_run callback h).toResolving
  constructor
  · intro k d f hk
    have hsame := hresolving.removeSubscriptionById_eq hk
    refine ⟨?_, congrArg Edit.finish hsame⟩
    show (s.removeSubscriptionByIdLocked d k).code = .success
    simp only [removeSubscriptionByIdLocked, hk, ne_eq, not_true_eq_false, if_false]
  · intro d order order' listing l hperm
    refine unregisterDapp_after_removals hresolving.indexed ?_ (fun f => ?_) order order'
    · exact hperm.nodup_iff.mpr (s.nodup_getDappSubscriptions listing d)
    · rw [hperm.mem_iff, mem_getDappSubscriptions]

/-- Two subscriptions of one dApp, of which one is shared: the release and the deletions stop the
service model of the other. -/
theorem deletion_paths_agree_shared :
    let calls : List Call := [.registerDapp 0, .registerDapp 0, .addSubscription 1 7,
      .addSubscription 1 8, .addSubscription 2 7]
    let s := final Call.perform { smLifecycleCallback := true } calls
    WithoutClear calls ∧ s.subscriptionIds.lookup 2 = some (1, 8) ∧
    s.removeSubscriptionById 1 2 = s.removeSubscription 1 8 ∧
    final Call.perform s (removals 1 [8, 7] ++ [.unregisterDapp (.ascending UInt32) 1]) =
      (s.unregisterDapp (.ascending UInt32) 1).1 := by
  intro calls s
  have h : WithoutClear calls := by
    simp [WithoutClear, calls]
  have hlookup : s.subscriptionIds.lookup 2 = some (1, 8) := by decide +kernel
  have hperm : [8, 7].Perm (s.getDappSubscriptions (.ascending UInt32) 1) := by decide +kernel
  obtain ⟨hid, hall⟩ := deletion_paths_agree true calls h
  exact ⟨h, hlookup, (hid 2 1 8 hlookup).2, (hall 1 _ _ _ [8, 7] hperm).1⟩

end SubscriptionManager

end LibE3
