import LibE3.Subscription.Ids

/-! Every call that acts for one dApp leaves the other dApps alone.  The maps by dApp are edited at
the row of that dApp only, the shared subscriber sets at its element only, and the ID maps by pair at
its keys only, since the composite key is injective.  An ID that a pair remembers may have been issued
again or be left over from before a `clear`: nothing here depends on what `subscription_ids_` holds. -/

namespace LibE3

namespace SubscriptionManager

open Transition

/-- `s'` agrees with `s` on all that belongs to another dApp than `d`. -/
structure Frame (d : UInt32) (s s' : SubscriptionManager) : Prop where
  registered : ∀ e, e ≠ d → (e ∈ s'.registeredDapps ↔ e ∈ s.registeredDapps)
  row : ∀ e, e ≠ d → s'.dappSubscriptions.lookup e = s.dappSubscriptions.lookup e
  subscriber : ∀ e f, e ≠ d → (e ∈ s'.subscribersOf f ↔ e ∈ s.subscribersOf f)
  recorded : ∀ e f, e ≠ d →
    s'.subscriptionIdReverse.lookup (makeSubKey e f) =
      s.subscriptionIdReverse.lookup (makeSubKey e f)

namespace Frame

variable {d : UInt32} {s s' s'' : SubscriptionManager}

theorem refl (d : UInt32) (s : SubscriptionManager) : Frame d s s :=
  ⟨fun _ _ => Iff.rfl, fun _ _ => rfl, fun _ _ _ => Iff.rfl, fun _ _ _ => rfl⟩

theorem trans (h : Frame d s s') (h' : Frame d s' s'') : Frame d s s'' where
  registered e he := (h'.registered e he).trans (h.registered e he)
  row e he := (h'.row e he).trans (h.row e he)
  subscriber e f he := (h'.subscriber e f he).trans (h.subscriber e f he)
  recorded e f he := (h'.recorded e f he).trans (h.recorded e f he)

theorem subsOf (h : Frame d s s') {e : UInt32} (he : e ≠ d) : s'.subsOf e = s.subsOf e := by
  unfold SubscriptionManager.subsOf UnorderedMap.getD
  rw [h.row e he]

end Frame

/-! ### The pieces of the critical sections -/

section Pieces

variable {d : UInt32} {s s' : SubscriptionManager}

theorem makeSubKey_ne {e : UInt32} (he : e ≠ d) (g f : UInt32) :
    makeSubKey e g ≠ makeSubKey d f :=
  fun h => he (makeSubKey_inj h).1

/-- An edit of the registration and the row of `d`. -/
theorem Frame.of_rows {registeredDapps : UnorderedMap UInt32 DAppEntry}
    {dappSubscriptions : UnorderedMap UInt32 (Finset UInt32)} {nextDappId : UInt32}
    (hregistered : ∀ e, e ≠ d → (e ∈ registeredDapps ↔ e ∈ s.registeredDapps))
    (hrow : ∀ e, e ≠ d → dappSubscriptions.lookup e = s.dappSubscriptions.lookup e) :
    Frame d s { s with registeredDapps, dappSubscriptions, nextDappId } :=
  ⟨hregistered, hrow, fun _ _ _ => Iff.rfl, fun _ _ _ => rfl⟩

theorem frame_dropRow (s : SubscriptionManager) (d f : UInt32) : Frame d s (s.dropRow d f) := by
  unfold dropRow
  split
  · exact Frame.refl d s
  · exact Frame.of_rows (fun _ _ => Iff.rfl) fun e he => Finmap.lookup_insert_of_ne _ he

theorem frame_dropSubscriber (s : SubscriptionManager) (d f : UInt32) :
    Frame d s (s.dropSubscriber d f).1 := by
  refine ⟨fun _ _ => Iff.rfl, fun _ _ => rfl, fun e g he => ?_, fun _ _ _ => rfl⟩
  rw [dropSubscriber_subscribersOf]
  split
  · rename_i hg
    rw [hg, Finset.mem_erase, and_iff_right he]
  · exact Iff.rfl

theorem frame_dropSubscriptionId (s : SubscriptionManager) (d f : UInt32) :
    Frame d s (s.dropSubscriptionId d f) := by
  unfold dropSubscriptionId
  split
  · exact Frame.refl d s
  · refine ⟨fun _ _ => Iff.rfl, fun _ _ => rfl, fun _ _ _ => Iff.rfl, fun e g he => ?_⟩
    exact Finmap.lookup_erase_ne (makeSubKey_ne he g f)

theorem frame_sweep (d : UInt32) (l : List UInt32) (acc : SubscriptionManager × List Check) :
    Frame d acc.1 (l.foldl (unregisterRound d) acc).1 := by
  induction l generalizing acc with
  | nil => exact Frame.refl d acc.1
  | cons f l ih =>
    have hround : Frame d acc.1 (unregisterRound d acc f).1 :=
      (frame_dropSubscriber acc.1 d f).trans (frame_dropSubscriptionId _ d f)
    exact hround.trans (ih _)

end Pieces

/-! ### What each critical section leaves alone -/

section Frames

variable (s : SubscriptionManager) (d : UInt32)

theorem frame_registerDapp (now : Timestamp) (h : (s.registerDappLocked now).id = d) :
    Frame d s (s.registerDappLocked now).manager := by
  unfold registerDappLocked at h ⊢
  split at h
  · exact Frame.refl d s
  · subst h
    refine Frame.of_rows (fun e he => ?_) fun e he => Finmap.lookup_insert_of_ne _ he
    rw [Finmap.mem_insert, or_iff_right he]

theorem frame_unregisterDapp (order : Enumeration UInt32) :
    Frame d s (s.unregisterDappLocked order d).manager := by
  have hleave : ∀ e, e ≠ d → (e ∈ s.registeredDapps.erase d ↔ e ∈ s.registeredDapps) :=
    fun e he => by rw [Finmap.mem_erase, and_iff_right he]
  unfold unregisterDappLocked
  split
  · cases s.dappSubscriptions.lookup d with
    | none => exact Frame.of_rows hleave fun _ _ => rfl
    | some subs =>
      refine (frame_sweep d (order.list subs) (s, [])).trans ?_
      refine Frame.of_rows (fun e he => ?_) fun e he => Finmap.lookup_erase_ne he
      rw [Finmap.mem_erase, and_iff_right he]
  · exact Frame.refl d s

theorem frame_addSubscription (f : UInt32) : Frame d s (s.addSubscriptionLocked d f).manager := by
  unfold addSubscriptionLocked
  split
  · dsimp only
    split
    · -- `operator[]` writes at the row and at the key of the pair.
      exact ⟨fun _ _ => Iff.rfl, fun e he => Finmap.lookup_insert_of_ne _ he, fun _ _ _ => Iff.rfl,
        fun e g he => Finmap.lookup_insert_of_ne _ (makeSubKey_ne he g f)⟩
    · refine ⟨fun _ _ => Iff.rfl, fun e he => Finmap.lookup_insert_of_ne _ he, fun e g he => ?_,
        fun e g he => Finmap.lookup_insert_of_ne _ (makeSubKey_ne he g f)⟩
      simp only [subscribersOf, UnorderedMap.getD_insert]
      split
      · rename_i hg
        rw [hg, Finset.mem_insert, or_iff_right he]
      · exact Iff.rfl
  · exact Frame.refl d s

theorem frame_removeSubscription (f : UInt32) :
    Frame d s (s.removeSubscriptionLocked d f).manager := by
  unfold removeSubscriptionLocked
  split
  · exact Frame.refl d s
  · split
    · exact ((frame_dropRow s d f).trans (frame_dropSubscriber _ d f)).trans
        (frame_dropSubscriptionId _ d f)
    · exact Frame.refl d s

theorem frame_removeSubscriptionById (k : UInt32) :
    Frame d s (s.removeSubscriptionByIdLocked d k).manager := by
  unfold removeSubscriptionByIdLocked
  split
  · exact Frame.refl d s
  · rename_i e f _
    split
    · exact Frame.refl d s
    · refine ((frame_dropRow s d f).trans (frame_dropSubscriber _ d f)).trans ?_
      refine ⟨fun _ _ => Iff.rfl, fun _ _ => rfl, fun _ _ _ => Iff.rfl, fun e g he => ?_⟩
      exact Finmap.lookup_erase_ne (makeSubKey_ne he g f)

end Frames

/-- The call acts for the dApp `d`: it names `d`, or it registers and returns `d`. -/
def ActsFor (s : SubscriptionManager) (d : UInt32) : Call → Prop
  | .registerDapp now => (s.registerDapp now).2.code = .success ∧ (s.registerDapp now).2.id = d
  | .unregisterDapp _ e => e = d
  | .addSubscription e _ => e = d
  | .removeSubscription e _ => e = d
  | .removeSubscriptionById e _ => e = d
  | .clear => False

theorem ActsFor.frame {s : SubscriptionManager} {d : UInt32} {c : Call} (h : s.ActsFor d c) :
    Frame d s (c.perform s).1 := by
  cases c with
  | registerDapp now => exact s.frame_registerDapp d now h.2
  | unregisterDapp order e =>
    obtain rfl : e = d := h
    exact s.frame_unregisterDapp e order
  | addSubscription e f =>
    obtain rfl : e = d := h
    exact s.frame_addSubscription e f
  | removeSubscription e f =>
    obtain rfl : e = d := h
    exact s.frame_removeSubscription e f
  | removeSubscriptionById e k =>
    obtain rfl : e = d := h
    exact s.frame_removeSubscriptionById e k
  | clear => exact h.elim

/-- What a repeated subscription reports is what the pair remembers. -/
theorem addSubscription_of_subscribed {s : SubscriptionManager} (h : s.Indexed) {d f : UInt32}
    (hf : f ∈ s.subsOf d) :
    (s.addSubscription d f).2 =
      ⟨.subscriptionExists, s.subscriptionIdReverse.getD (makeSubKey d f) 0, []⟩ := by
  rw [addSubscription, addSubscriptionLocked_of_live (h.registered hf) hf]
  rfl

/-- In a state that any calls lead to, a call that acts for one dApp changes nothing that another
dApp can see of itself: its registration, its subscriptions, its place among the subscribers of every
RAN function, the IDs recorded for its pairs, and what a repeated subscription would report. -/
theorem dapps_do_not_interfere (callback : Bool) (calls : List Call) (c : Call) (d d' : UInt32)
    (hfor : (final Call.perform { smLifecycleCallback := callback } calls).ActsFor d c)
    (hne : d' ≠ d) :
    let s := final Call.perform { smLifecycleCallback := callback } calls
    let s' := (c.perform s).1
    s'.isDappRegistered d' = s.isDappRegistered d' ∧
    (∀ order, s'.getDappSubscriptions order d' = s.getDappSubscriptions order d') ∧
    (∀ order f', d' ∈ s'.getSubscribedDapps order f' ↔ d' ∈ s.getSubscribedDapps order f') ∧
    ∀ f', s'.subscriptionIdReverse.lookup (makeSubKey d' f') =
        s.subscriptionIdReverse.lookup (makeSubKey d' f') ∧
      (s.isSubscribed d' f' = true →
        (s'.addSubscription d' f').2 = (s.addSubscription d' f').2) := by
  intro s s'
  have hindexed : s.Indexed := indexed_final callback calls
  have hframe : Frame d s s' := hfor.frame
  refine ⟨?_, fun order => ?_, fun order f' => ?_, fun f' => ⟨hframe.recorded d' f' hne, ?_⟩⟩
  · exact decide_eq_decide.mpr (hframe.registered d' hne)
  · unfold getDappSubscriptions
    rw [hframe.row d' hne]
  · rw [mem_getSubscribedDapps, mem_getSubscribedDapps]
    exact hframe.subscriber d' f' hne
  · intro hlive
    have hf : f' ∈ s.subsOf d' := (s.isSubscribed_iff d' f').mp hlive
    have hf' : f' ∈ s'.subsOf d' := by rwa [hframe.subsOf hne]
    have hindexed' : s'.Indexed := hindexed.locked c
    rw [addSubscription_of_subscribed hindexed hf, addSubscription_of_subscribed hindexed' hf',
      UnorderedMap.getD, UnorderedMap.getD, hframe.recorded d' f' hne]

/-- A dApp that deletes by an ID that is not its own. -/
theorem dapps_do_not_interfere_foreign_id :
    let s := final Call.perform {} [.registerDapp 0, .registerDapp 0, .addSubscription 1 7,
      .addSubscription 2 7]
    s.isSubscribed 1 7 = true ∧
      ((s.removeSubscriptionById 2 1).1.addSubscription 1 7).2 = (s.addSubscription 1 7).2 := by
  have hlive : (final Call.perform {} [.registerDapp 0, .registerDapp 0, .addSubscription 1 7,
      .addSubscription 2 7]).isSubscribed 1 7 = true := by decide +kernel
  have hframe := dapps_do_not_interfere false [.registerDapp 0, .registerDapp 0,
    .addSubscription 1 7, .addSubscription 2 7] (.removeSubscriptionById 2 1) 2 1 rfl (by decide)
  exact ⟨hlive, (hframe.2.2.2 7).2 hlive⟩

end SubscriptionManager

end LibE3
