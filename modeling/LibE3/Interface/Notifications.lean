import LibE3.Interface.Served
import LibE3.Subscription.Memory

/-! The status notifications.  The handlers decide from the code that the manager returns, and the
manager returns `SUCCESS` exactly when it has changed the registrations or the subscriptions.  For a
deletion by ID this rests on the ID maps: an ID that resolves, resolves to a live subscription. -/

namespace LibE3

open Transition

namespace SubscriptionManager

/-- The set of registered dApps or the set of live subscriptions differs. -/
def Changed (s s' : SubscriptionManager) : Prop :=
  s'.registeredDapps.keys ≠ s.registeredDapps.keys ∨ s'.live ≠ s.live

theorem not_changed_self (s : SubscriptionManager) : ¬s.Changed s := by
  rintro (hkeys | hlive)
  · exact hkeys rfl
  · exact hlive rfl

theorem changed_of_member {s s' : SubscriptionManager} {d : UInt32}
    (h : ¬(d ∈ s'.registeredDapps ↔ d ∈ s.registeredDapps)) : s.Changed s' := by
  refine Or.inl fun hsame => h ?_
  rw [← Finmap.mem_keys, hsame, Finmap.mem_keys]

theorem changed_of_pair {s s' : SubscriptionManager} {p : UInt32 × UInt32}
    (h : ¬(p ∈ s'.live ↔ p ∈ s.live)) : s.Changed s' :=
  Or.inr fun hsame => h (hsame ▸ Iff.rfl)

/-- A call that succeeds has changed something. -/
theorem Resolving.changed_of_success {s : SubscriptionManager} (h : s.Resolving) {c : Call}
    (hc : c ≠ .clear) (hcode : (c.perform s).2.code = .success) : s.Changed (c.perform s).1 := by
  have hlive := locked_live h.indexed hc
  cases c with
  | registerDapp now =>
    cases hsearch : s.searchDappId (MAX_DAPP_ID.toNat + 1) s.nextDappId with
    | none => simp [Call.perform, Call.locked, registerDappLocked, hsearch, Edit.finish] at hcode
    | some id =>
      refine changed_of_member (d := id) fun hsame => s.searchDappId_free hsearch (hsame.mp ?_)
      simp only [Call.perform, Call.locked, registerDappLocked, hsearch, Edit.finish]
      exact Finmap.mem_insert.mpr (Or.inl rfl)
  | unregisterDapp order d =>
    have hd := unregisterDappLocked_success.mp hcode
    have hmembers := congrArg Roster.Indexes.members
      (locked_indexes h.indexed (.unregisterDapp order d))
    simp only [changeOf, hd, if_true, Roster.Indexes.after] at hmembers
    refine changed_of_member (d := d) fun hsame => ?_
    have hgone : d ∈ s.indexes.members \ {d} := hmembers ▸ hsame.mpr hd
    exact hgone.2 rfl
  | addSubscription d f =>
    obtain ⟨hd, hf⟩ := addSubscriptionLocked_success.mp hcode
    refine changed_of_pair (p := (d, f)) fun hsame => hf (hsame.mp ?_)
    rw [show (Call.perform s (.addSubscription d f)).1.live = _ from hlive]
    simp only [liveAfter, issuedBy, hd, hf, not_false_eq_true, and_self, if_true]
    exact Set.mem_insert _ _
  | removeSubscription d f =>
    have hf := removeSubscriptionLocked_success.mp hcode
    refine changed_of_pair (p := (d, f)) fun hsame => ?_
    have hstill := hsame.mpr hf
    rw [show (Call.perform s (.removeSubscription d f)).1.live = _ from hlive] at hstill
    simp [liveAfter, issuedBy, revokedBy, hf] at hstill
  | removeSubscriptionById d k =>
    obtain ⟨f, hk⟩ := removeSubscriptionByIdLocked_success.mp hcode
    have hf : (d, f) ∈ s.live := (h.sound.tagged (d, f)).mp ⟨k, h.sound.resolves k (d, f) hk⟩
    refine changed_of_pair (p := (d, f)) fun hsame => ?_
    have hstill := hsame.mpr hf
    rw [show (Call.perform s (.removeSubscriptionById d k)).1.live = _ from hlive] at hstill
    simp [liveAfter, issuedBy, revokedBy, hk] at hstill
  | clear => exact absurd rfl hc

/-- The code of a call says whether it has changed anything. -/
theorem Resolving.changed_iff {s : SubscriptionManager} (h : s.Resolving) {c : Call}
    (hc : c ≠ .clear) : s.Changed (c.perform s).1 ↔ (c.perform s).2.code = .success := by
  refine ⟨fun hchanged => ?_, h.changed_of_success hc⟩
  by_contra hcode
  have hsame : (c.perform s).1 = s :=
    (locked_of_failed (fun d f => (h.sound.tagged (d, f)).mpr) hcode).1
  rw [hsame] at hchanged
  exact not_changed_self s hchanged

end SubscriptionManager

namespace Handlers

open SubscriptionManager

/-- What the calls of `notify_dapp_status_changed` invoke. -/
def Effects.statusInvocations {σ : Type} (handler : Option σ) (effects : Effects) : List σ :=
  (List.replicate effects.notified handler.toList).flatten

/-- Every handler notifies once if the call that it makes succeeds, and not at all otherwise. -/
theorem perform_notified (core : Core) (e : Event) :
    (e.perform core).2.notified = (e.call core).elim 0 fun c =>
      if (c.perform core.manager).2.code = .success then 1 else 0 := by
  cases e with
  | subscriptionRequest env request requestMessageId =>
    simp only [Event.perform, Core.handleSubscriptionRequest, Event.call]
    split <;> rfl
  | _ => rfl

/-- In a state reached by any events, the handling of one more invokes the status handler, if one is
set, exactly once if the set of registered dApps or the set of live subscriptions differs afterwards,
and not at all if both are unchanged. -/
theorem status_notifications_exact (events : List Event) (e : Event) {σ : Type}
    (handler : Option σ) :
    let core := after events
    (core.manager.Changed (e.perform core).1.manager →
      (e.perform core).2.statusInvocations handler = handler.toList) ∧
    (¬core.manager.Changed (e.perform core).1.manager →
      (e.perform core).2.statusInvocations handler = []) := by
  intro core
  have h : Managed core := managed_after events
  have hmanager := perform_manager core e
  have hnotified := perform_notified core e
  unfold Effects.statusInvocations
  rw [hmanager, hnotified]
  cases hcall : e.call core with
  | none =>
    exact ⟨fun hchanged => absurd hchanged (not_changed_self _), fun _ => rfl⟩
  | some c =>
    simp only [Option.elim_some]
    rw [h.resolving.changed_iff (Event.call_ne_clear hcall)]
    constructor
    · intro hcode
      rw [if_pos hcode, List.replicate_one, List.flatten_singleton]
    · intro hcode
      rw [if_neg hcode]
      rfl

/-- The first subscription of a dApp is notified, and a deletion with an ID that no one has is not. -/
theorem status_notifications_exact_first :
    (firstSubscription.perform (after [firstSetup])).2.statusInvocations (some ()) = [()] ∧
    ((Event.subscriptionDelete plainEnv ⟨1, 42⟩ 2).perform
      (after [firstSetup])).2.statusInvocations (some ()) = [] := by
  constructor
  · refine (status_notifications_exact [firstSetup] firstSubscription (some ())).1 ?_
    refine changed_of_pair (p := (1, 7)) fun hsame => ?_
    rw [mem_live, mem_live, ← isSubscribed_iff, ← isSubscribed_iff] at hsame
    exact absurd hsame (by decide +kernel)
  · refine (status_notifications_exact [firstSetup] (.subscriptionDelete plainEnv ⟨1, 42⟩ 2)
      (some ())).2 ?_
    have hsame : ((Event.subscriptionDelete plainEnv ⟨1, 42⟩ 2).perform
        (after [firstSetup])).1.manager = (after [firstSetup]).manager := by decide +kernel
    rw [hsame]
    exact not_changed_self _

end Handlers

end LibE3
