import LibE3.Subscription.Resolve

/-! A manager as its callers see it.  What the calls of a run returned, `clear` among them, determines a
roster of dApps and RAN functions, and the manager is that roster: its queries and its return codes are
those of the roster.  No call changes it in a way that its callers are not told. -/

namespace LibE3

namespace SubscriptionManager

open Transition

/-! ### The roster of a manager -/

/-- The roster of dApps and RAN functions that an indexed manager keeps. -/
def roster (s : SubscriptionManager) (h : s.Indexed) : Roster UInt32 UInt32 :=
  s.indexes.roster (indexed_iff_coherent.mp h)

/-- The active topics of the roster are the active RAN functions. -/
theorem Indexed.mem_active {s : SubscriptionManager} (h : s.Indexed) (order : Enumeration UInt32)
    (f : UInt32) : f ∈ (s.roster h).active ↔ f ∈ s.getActiveRanFunctions order := by
  rw [roster, Roster.Indexes.mem_active, mem_getActiveRanFunctions]
  rfl

/-- A critical section changes the roster of the manager by its roster change. -/
theorem Indexed.locked_roster {s : SubscriptionManager} (h : s.Indexed) (c : Call) :
    (c.locked s).manager.roster (h.locked c) = (s.changeOf c).apply (s.roster h) := by
  unfold roster
  rw [← Roster.Indexes.roster_after _ (s.admits_changeOf c)]
  congr 1
  exact locked_indexes h c

/-! ### What the callers know -/

/-- What the results of calls tell: who is registered and subscribed, and for which pair each
subscription ID was last issued. -/
structure Known where
  roster : Roster UInt32 UInt32 := .empty
  issued : UInt32 → Option (UInt32 × UInt32) := fun _ => none

namespace Known

/-- The roster change that a call reports which succeeds and returns `id`. -/
def reported (x : Known) (id : UInt32) : Call → Roster.Change UInt32 UInt32
  | .registerDapp _ => .join id
  | .unregisterDapp _ d => .leave d
  | .addSubscription d f => .link d f
  | .removeSubscription d f => .unlink d f
  | .removeSubscriptionById d k =>
    match x.issued k with
    | none => .stay
    | some (_, f) => .unlink d f
  | .clear => .reset

/-- The roster change that a result reports. -/
def change (x : Known) (e : Call × Outcome) : Roster.Change UInt32 UInt32 :=
  if e.2.code = .success then x.reported e.2.id e.1 else .stay

/-- What is known of the IDs after a result. -/
def issuedAfter (x : Known) : Call × Outcome → UInt32 → Option (UInt32 × UInt32)
  | (.addSubscription d f, o) =>
    if o.code = .success then Function.update x.issued o.id (some (d, f)) else x.issued
  | _ => x.issued

def after (x : Known) (e : Call × Outcome) : Known :=
  ⟨(x.change e).apply x.roster, x.issuedAfter e⟩

end Known

/-- What the callers know after a run. -/
def known (past : List (Call × Outcome)) : Known := past.foldl Known.after {}

/-! ### The IDs that resolve -/

section Resolving

variable {s : SubscriptionManager} {k : UInt32} {p : UInt32 × UInt32}

theorem dropSubscriptionId_resolves {d f : UInt32}
    (h : (s.dropSubscriptionId d f).subscriptionIds.lookup k = some p) :
    s.subscriptionIds.lookup k = some p := by
  unfold dropSubscriptionId at h
  split at h
  · exact h
  · rw [UnorderedMap.lookup_erase_ite] at h
    split at h
    · cases h
    · exact h

theorem sweep_resolves {d : UInt32} {l : List UInt32} {acc : SubscriptionManager × List Check}
    (h : (l.foldl (unregisterRound d) acc).1.subscriptionIds.lookup k = some p) :
    acc.1.subscriptionIds.lookup k = some p := by
  induction l generalizing acc with
  | nil => exact h
  | cons f l ih => exact dropSubscriptionId_resolves (s := (acc.1.dropSubscriber d f).1) (ih h)

@[simp] theorem dropRow_subscriptionIds (d f : UInt32) :
    (s.dropRow d f).subscriptionIds = s.subscriptionIds := by
  unfold dropRow
  split <;> rfl

/-- Where every ID that resolves was last issued for its pair, so it is after a call. -/
theorem issuedAfter_of_locked {x : Known}
    (hissued : ∀ k p, s.subscriptionIds.lookup k = some p → x.issued k = some p) (c : Call)
    (h : (c.locked s).manager.subscriptionIds.lookup k = some p) :
    x.issuedAfter (c, (c.perform s).2) k = some p := by
  cases c with
  | registerDapp now =>
    simp only [Call.locked, registerDappLocked] at h
    split at h <;> exact hissued k p h
  | unregisterDapp order d =>
    simp only [Call.locked, unregisterDappLocked] at h
    split at h
    · split at h
      · exact hissued k p h
      · exact hissued k p (sweep_resolves h)
    · exact hissued k p h
  | addSubscription d f =>
    show (if (s.addSubscriptionLocked d f).code = .success
      then Function.update x.issued (s.addSubscriptionLocked d f).id (some (d, f))
      else x.issued) k = some p
    by_cases hd : d ∈ s.registeredDapps
    swap
    · simp only [Call.locked, addSubscriptionLocked_of_unregistered hd] at h ⊢
      exact hissued k p h
    by_cases hf : f ∈ s.subsOf d
    · simp only [Call.locked, addSubscriptionLocked_of_live hd hf] at h ⊢
      exact hissued k p h
    · simp only [Call.locked, addSubscriptionLocked_of_new hd hf, UnorderedMap.lookup_insert_ite,
        if_true, Function.update_apply] at h ⊢
      split at h
      · rw [if_pos ‹_›]
        exact h
      · rw [if_neg ‹_›]
        exact hissued k p h
  | removeSubscription d f =>
    simp only [Call.locked, removeSubscriptionLocked] at h
    split at h
    · exact hissued k p h
    · split at h
      · refine hissued k p ?_
        simpa [dropSubscriber] using dropSubscriptionId_resolves h
      · exact hissued k p h
  | removeSubscriptionById d id =>
    simp only [Call.locked, removeSubscriptionByIdLocked] at h
    split at h
    · exact hissued k p h
    · split at h
      · exact hissued k p h
      · simp only [dropSubscriber, UnorderedMap.lookup_erase_ite, dropRow_subscriptionIds] at h
        split at h
        · cases h
        · exact hissued k p h
  | clear => exact hissued k p h

end Resolving

/-! ### The callers know the roster -/

/-- The roster is the one that the callers know, and an ID that resolves was last issued for the pair it
resolves to. -/
structure KnownTo (s : SubscriptionManager) (x : Known) : Prop where
  indexed : s.Indexed
  roster : s.roster indexed = x.roster
  issued : ∀ k p, s.subscriptionIds.lookup k = some p → x.issued k = some p

/-- A call that fails makes no roster change. -/
theorem changeOf_of_failed {s : SubscriptionManager} {c : Call} (hcode : (c.locked s).code ≠ .success) :
    s.changeOf c = .stay := by
  cases c with
  | registerDapp now =>
    cases hsearch : s.searchDappId (MAX_DAPP_ID.toNat + 1) s.nextDappId with
    | none => simp [changeOf, hsearch]
    | some id => simp [Call.locked, registerDappLocked, hsearch] at hcode
  | unregisterDapp order d => exact if_neg (mt unregisterDappLocked_success.mpr hcode)
  | addSubscription d f => exact if_neg (mt addSubscriptionLocked_success.mpr hcode)
  | removeSubscription d f => exact if_neg (mt removeSubscriptionLocked_success.mpr hcode)
  | removeSubscriptionById d k =>
    simp only [changeOf]
    split
    · rfl
    · rename_i d' f hk
      refine if_neg ?_
      rintro rfl
      exact hcode (removeSubscriptionByIdLocked_success.mpr ⟨f, hk⟩)
  | clear => exact absurd rfl hcode

/-- A call that succeeds makes the roster change that it reports. -/
theorem KnownTo.changeOf_of_success {s : SubscriptionManager} {x : Known} (h : s.KnownTo x) {c : Call}
    (hcode : (c.locked s).code = .success) : s.changeOf c = x.reported (c.locked s).id c := by
  cases c with
  | registerDapp now =>
    cases hsearch : s.searchDappId (MAX_DAPP_ID.toNat + 1) s.nextDappId with
    | none => simp [Call.locked, registerDappLocked, hsearch] at hcode
    | some id => simp [changeOf, Known.reported, Call.locked, registerDappLocked, hsearch]
  | unregisterDapp order d => exact if_pos (unregisterDappLocked_success.mp hcode)
  | addSubscription d f => exact if_pos (addSubscriptionLocked_success.mp hcode)
  | removeSubscription d f => exact if_pos (removeSubscriptionLocked_success.mp hcode)
  | removeSubscriptionById d k =>
    obtain ⟨f, hk⟩ := removeSubscriptionByIdLocked_success.mp hcode
    simp [changeOf, Known.reported, hk, h.issued k _ hk]
  | clear => rfl

/-- The results report every roster change. -/
theorem KnownTo.changeOf_eq {s : SubscriptionManager} {x : Known} (h : s.KnownTo x) (c : Call) :
    s.changeOf c = x.change (c, (c.perform s).2) := by
  by_cases hcode : (c.locked s).code = .success
  · exact (h.changeOf_of_success hcode).trans (if_pos hcode).symm
  · exact (changeOf_of_failed hcode).trans (if_neg hcode).symm

theorem KnownTo.perform {s : SubscriptionManager} {x : Known} (h : s.KnownTo x) (c : Call) :
    (c.perform s).1.KnownTo (x.after (c, (c.perform s).2)) := by
  refine ⟨h.indexed.locked c, ?_, fun k p hk => issuedAfter_of_locked h.issued c hk⟩
  calc (c.locked s).manager.roster (h.indexed.locked c)
      = (s.changeOf c).apply (s.roster h.indexed) := h.indexed.locked_roster c
    _ = (x.change (c, (c.perform s).2)).apply x.roster := by rw [h.changeOf_eq c, h.roster]

theorem knownTo_run (callback : Bool) (calls : List Call) :
    (final Call.perform { smLifecycleCallback := callback } calls).KnownTo
      (known (history Call.perform { smLifecycleCallback := callback } calls)) := by
  refine run_induction (P := fun t past => KnownTo t (known past)) ?_ fun s past c _ h => ?_
  · refine ⟨indexed_fresh callback, Roster.ext ?_ ?_, fun k p hk => by cases hk⟩
    · exact Set.eq_empty_iff_forall_notMem.mpr fun _ => Finmap.notMem_empty
    · exact Set.eq_empty_iff_forall_notMem.mpr fun _ => Finset.notMem_empty _
  · rw [known, List.foldl_concat]
    exact h.perform c

/-- After any calls, `clear` among them, a manager is the roster that its callers know from what the
calls returned.  Its queries are those of the roster, and a registration is released, a subscription
added or a subscription removed exactly where the roster says so. -/
theorem manager_refines_roster (callback : Bool) (calls : List Call) (order : Enumeration UInt32) :
    let fresh : SubscriptionManager := { smLifecycleCallback := callback }
    let s := final Call.perform fresh calls
    let r := (known (history Call.perform fresh calls)).roster
    (∀ d, s.isDappRegistered d = true ↔ d ∈ r.members) ∧
    (∀ d f, s.isSubscribed d f = true ↔ (d, f) ∈ r.links) ∧
    (∀ f, f ∈ s.getActiveRanFunctions order ↔ f ∈ r.active) ∧
    (∀ d, (s.unregisterDapp order d).2.code = .success ↔ d ∈ r.members) ∧
    (∀ d f, (s.addSubscription d f).2.code = .success ↔ d ∈ r.members ∧ (d, f) ∉ r.links) ∧
    (∀ d f, (s.removeSubscription d f).2.code = .success ↔ (d, f) ∈ r.links) := by
  intro fresh s r
  have h := knownTo_run callback calls
  have hroster : s.roster h.indexed = r := h.roster
  rw [← hroster]
  refine ⟨fun d => decide_eq_true_iff, s.isSubscribed_iff, fun f => (h.indexed.mem_active order f).symm,
    fun d => unregisterDappLocked_success, fun d f => addSubscriptionLocked_success, fun d f => ?_⟩
  exact removeSubscriptionLocked_success

end SubscriptionManager

end LibE3
