import LibE3.Lib.Ledger
import LibE3.Subscription.Index

/-! Subscription IDs.  The two ID maps of a manager are a ledger of tags whose parties are the live
subscriptions.  `next_subscription_id_` wraps at 100 without a look at `subscription_ids_`, so the
ledger is sound after every call, and exact as long as no call issues an ID that still resolves. -/

namespace LibE3

/-! ### The composite key -/

theorem makeSubKey_toNat (d f : UInt32) :
    (makeSubKey d f).toNat = d.toNat * 2 ^ 32 + f.toNat := by
  have hd := d.toNat_lt
  have hf := f.toNat_lt
  have hshift : (d.toUInt64 <<< 32).toNat = d.toNat <<< 32 := by
    rw [UInt64.toNat_shiftLeft]
    simp only [UInt32.toNat_toUInt64, UInt64.reduceToNat, Nat.reduceMod]
    refine Nat.mod_eq_of_lt ?_
    rw [Nat.shiftLeft_eq]
    omega
  rw [makeSubKey, UInt64.toNat_or, hshift, UInt32.toNat_toUInt64,
    ← Nat.shiftLeft_add_eq_or_of_lt hf, Nat.shiftLeft_eq]

theorem makeSubKey_inj {d f d' f' : UInt32} (h : makeSubKey d f = makeSubKey d' f') :
    d = d' ∧ f = f' := by
  have hkey := congrArg UInt64.toNat h
  have hf := f.toNat_lt
  have hf' := f'.toNat_lt
  rw [makeSubKey_toNat, makeSubKey_toNat] at hkey
  refine ⟨UInt32.toNat_inj.mp ?_, UInt32.toNat_inj.mp ?_⟩ <;> omega

theorem makeSubKey_surj (key : UInt64) : ∃ d f, makeSubKey d f = key := by
  have hkey := key.toNat_lt
  refine ⟨.ofNat (key.toNat / 2 ^ 32), .ofNat (key.toNat % 2 ^ 32), UInt64.toNat_inj.mp ?_⟩
  rw [makeSubKey_toNat, UInt32.toNat_ofNat', UInt32.toNat_ofNat']
  omega

namespace SubscriptionManager

/-! ### The ledger of a manager -/

/-- The live subscriptions. -/
def live (s : SubscriptionManager) : Set (UInt32 × UInt32) := {p | p.2 ∈ s.subsOf p.1}

theorem mem_live {s : SubscriptionManager} {d f : UInt32} : (d, f) ∈ s.live ↔ f ∈ s.subsOf d :=
  Iff.rfl

/-- `subscription_ids_` and `subscription_id_reverse_`. -/
def ledger (s : SubscriptionManager) : Ledger UInt32 (UInt32 × UInt32) where
  owner := s.subscriptionIds.lookup
  tag := fun p => s.subscriptionIdReverse.lookup (makeSubKey p.1 p.2)

/-- The IDs that the schema allows for a subscription and that the counter goes through. -/
def idRange : Set UInt32 := {k | 1 ≤ k ∧ k ≤ MAX_DAPP_ID}

theorem cyclicNext_mem_idRange {k : UInt32} (h : k ∈ idRange) : cyclicNext k ∈ idRange := by
  obtain ⟨h1, h2⟩ := h
  unfold cyclicNext
  simp only [idRange, MAX_DAPP_ID, MIN_DAPP_ID, Set.mem_ofPred_eq, gt_iff_lt,
    UInt32.le_iff_toNat_le, UInt32.lt_iff_toNat_lt, UInt32.toNat_add, UInt32.reduceToNat] at *
  split <;> simp only [UInt32.toNat_add, UInt32.reduceToNat] <;> omega

/-- The issue that a call makes in state `s`: the ID and the subscription. -/
def issuedBy (s : SubscriptionManager) : Call → Option (UInt32 × UInt32 × UInt32)
  | .addSubscription d f =>
    if d ∈ s.registeredDapps ∧ f ∉ s.subsOf d then some (s.nextSubscriptionId, d, f) else none
  | _ => none

/-- The subscriptions that a call ends in state `s`. -/
def revokedBy (s : SubscriptionManager) : Call → List (UInt32 × UInt32)
  | .unregisterDapp order d =>
    if d ∈ s.registeredDapps then (order.list (s.subsOf d)).map (d, ·) else []
  | .removeSubscription d f => if f ∈ s.subsOf d then [(d, f)] else []
  | .removeSubscriptionById d id =>
    match s.subscriptionIds.lookup id with
    | none => []
    | some (d', f) => if d' = d then [(d, f)] else []
  | _ => []

/-- The ledger after a call. -/
def ledgerAfter (s : SubscriptionManager) (c : Call) : Ledger UInt32 (UInt32 × UInt32) :=
  match s.issuedBy c with
  | some (k, p) => s.ledger.issue k p
  | none => (s.revokedBy c).foldl Ledger.revoke s.ledger

/-- The live subscriptions after a call other than `clear`. -/
def liveAfter (s : SubscriptionManager) (c : Call) : Set (UInt32 × UInt32) :=
  match s.issuedBy c with
  | some (_, p) => insert p s.live
  | none => {p ∈ s.live | p ∉ s.revokedBy c}

/-! ### What each critical section does to the ledger -/

section Pieces

variable (s : SubscriptionManager) (d f : UInt32)

@[simp] theorem dropRow_ledger : (s.dropRow d f).ledger = s.ledger := by
  unfold dropRow
  split <;> rfl

@[simp] theorem dropSubscriber_ledger : (s.dropSubscriber d f).1.ledger = s.ledger := rfl

end Pieces

theorem makeSubKey_eq_iff {p : UInt32 × UInt32} {d f : UInt32} :
    makeSubKey p.1 p.2 = makeSubKey d f ↔ p = (d, f) :=
  ⟨fun h => Prod.ext (makeSubKey_inj h).1 (makeSubKey_inj h).2, fun h => by rw [h]⟩

/-- Erasing the two entries of a subscription revokes its ID. -/
theorem erase_ledger {s s' : SubscriptionManager} {d f id : UInt32}
    (hids : s'.subscriptionIds = s.subscriptionIds.erase id)
    (hreverse : s'.subscriptionIdReverse = s.subscriptionIdReverse.erase (makeSubKey d f))
    (htag : s.ledger.tag (d, f) = some id) : s'.ledger = s.ledger.revoke (d, f) := by
  unfold Ledger.revoke
  rw [htag]
  refine Ledger.ext (funext fun k => ?_) (funext fun p => ?_)
  · show s'.subscriptionIds.lookup k = Function.update s.ledger.owner id none k
    rw [hids, UnorderedMap.lookup_erase_ite, Function.update_apply]
    rfl
  · show s'.subscriptionIdReverse.lookup (makeSubKey p.1 p.2) =
      Function.update s.ledger.tag (d, f) none p
    rw [hreverse, UnorderedMap.lookup_erase_ite, Function.update_apply]
    simp only [makeSubKey_eq_iff]
    rfl

theorem dropSubscriptionId_ledger (s : SubscriptionManager) (d f : UInt32) :
    (s.dropSubscriptionId d f).ledger = s.ledger.revoke (d, f) := by
  cases htag : s.ledger.tag (d, f) with
  | none =>
    have hnone : s.subscriptionIdReverse.lookup (makeSubKey d f) = none := htag
    simp only [dropSubscriptionId, Ledger.revoke, hnone, htag]
  | some id =>
    have hsome : s.subscriptionIdReverse.lookup (makeSubKey d f) = some id := htag
    refine erase_ledger ?_ ?_ htag <;> simp only [dropSubscriptionId, hsome]

theorem unregisterRound_ledger (d : UInt32) (acc : SubscriptionManager × List Check)
    (f : UInt32) : (unregisterRound d acc f).1.ledger = acc.1.ledger.revoke (d, f) := by
  simp [unregisterRound, dropSubscriptionId_ledger]

theorem sweep_ledger (d : UInt32) (l : List UInt32) (acc : SubscriptionManager × List Check) :
    (l.foldl (unregisterRound d) acc).1.ledger =
      (l.map (d, ·)).foldl Ledger.revoke acc.1.ledger := by
  induction l generalizing acc with
  | nil => rfl
  | cons f l ih => rw [List.foldl_cons, ih, unregisterRound_ledger, List.map_cons, List.foldl_cons]

theorem unregisterDappLocked_ledger {s : SubscriptionManager} (h : s.Indexed)
    (order : Enumeration UInt32) (d : UInt32) :
    (s.unregisterDappLocked order d).manager.ledger =
      s.ledgerAfter (.unregisterDapp order d) := by
  by_cases hd : d ∈ s.registeredDapps
  · obtain ⟨subs, hsubs⟩ := Finmap.mem_iff.mp (h.mem_rows.mpr hd)
    have hsubsOf := subsOf_of_lookup hsubs
    simp only [unregisterDappLocked, ledgerAfter, issuedBy, revokedBy, hd, if_true, hsubs, hsubsOf]
    exact sweep_ledger d _ (s, [])
  · simp only [unregisterDappLocked, ledgerAfter, issuedBy, revokedBy, hd, if_false]
    rfl

/-- A repeated subscription reports what the pair remembers and changes nothing. -/
theorem addSubscriptionLocked_again {s : SubscriptionManager} {d f k : UInt32}
    (hd : d ∈ s.registeredDapps) (hf : f ∈ s.subsOf d) (hk : s.ledger.tag (d, f) = some k) :
    s.addSubscriptionLocked d f = { manager := s, code := .subscriptionExists, id := k } := by
  have hk' : s.subscriptionIdReverse.lookup (makeSubKey d f) = some k := hk
  have hid : s.subscriptionIdReverse.getD (makeSubKey d f) 0 = k := by
    rw [UnorderedMap.getD, hk']
    rfl
  rw [addSubscriptionLocked_of_live hd hf, hid, UnorderedMap.insert_of_lookup hk']

theorem addSubscriptionLocked_ledger {s : SubscriptionManager} {d f : UInt32}
    (h : f ∈ s.subsOf d → ∃ k, s.ledger.tag (d, f) = some k) :
    (s.addSubscriptionLocked d f).manager.ledger = s.ledgerAfter (.addSubscription d f) := by
  simp only [ledgerAfter, issuedBy, revokedBy]
  by_cases hd : d ∈ s.registeredDapps
  swap
  · rw [addSubscriptionLocked_of_unregistered hd, if_neg fun h => hd h.1]
    rfl
  by_cases hf : f ∈ s.subsOf d
  · -- The pair has an ID, so `operator[]` writes back what it reads.
    obtain ⟨k, hk⟩ := h hf
    rw [addSubscriptionLocked_again hd hf hk, if_neg fun h => h.2 hf]
    rfl
  · have hnew : d ∈ s.registeredDapps ∧ f ∉ s.subsOf d := ⟨hd, hf⟩
    rw [addSubscriptionLocked_of_new hd hf, if_pos hnew]
    refine Ledger.ext (funext fun k => ?_) (funext fun p => ?_)
    · simp only [Ledger.issue, Function.update_apply]
      exact UnorderedMap.lookup_insert_ite _ _ _ _
    · simp only [Ledger.issue, Function.update_apply, ← makeSubKey_eq_iff]
      exact UnorderedMap.lookup_insert_ite _ _ _ _

theorem removeSubscriptionLocked_ledger (s : SubscriptionManager) (d f : UInt32) :
    (s.removeSubscriptionLocked d f).manager.ledger =
      s.ledgerAfter (.removeSubscription d f) := by
  unfold removeSubscriptionLocked ledgerAfter issuedBy revokedBy
  split
  · rename_i hnone
    simp only [subsOf_of_lookup_none hnone, Finset.notMem_empty, if_false]
    rfl
  · rename_i subs hsome
    have hsubsOf := subsOf_of_lookup hsome
    by_cases hf : f ∈ subs
    · simp [hf, hsubsOf, dropSubscriptionId_ledger]
    · simp only [hf, if_false, hsubsOf]
      rfl

theorem removeSubscriptionByIdLocked_ledger {s : SubscriptionManager}
    (h : s.ledger.Sound s.live) (d id : UInt32) :
    (s.removeSubscriptionByIdLocked d id).manager.ledger =
      s.ledgerAfter (.removeSubscriptionById d id) := by
  rcases hid : s.subscriptionIds.lookup id with _ | ⟨d', f⟩
  · simp only [removeSubscriptionByIdLocked, ledgerAfter, issuedBy, revokedBy, hid]
    rfl
  by_cases hd : d' = d
  · -- A sound ledger remembers `id` for the pair, so the erasure by ID is the one by pair.
    subst hd
    have htag : (s.dropRow d' f).ledger.tag (d', f) = some id := by
      rw [dropRow_ledger]
      exact h.resolves id _ hid
    simp only [removeSubscriptionByIdLocked, ledgerAfter, issuedBy, revokedBy, hid, ne_eq,
      not_true_eq_false, if_false, if_true, List.foldl_cons, List.foldl_nil]
    rw [← dropRow_ledger s d' f]
    exact erase_ledger rfl rfl htag
  · simp only [removeSubscriptionByIdLocked, ledgerAfter, issuedBy, revokedBy, hid, ne_eq, hd,
      not_false_eq_true, if_true, if_false]
    rfl

/-- Every critical section changes the ledger by its issue or its revocations. -/
theorem locked_ledger {s : SubscriptionManager} (h : s.Indexed) (hl : s.ledger.Sound s.live)
    (c : Call) : (c.locked s).manager.ledger = s.ledgerAfter c := by
  cases c with
  | registerDapp now =>
    show (s.registerDappLocked now).manager.ledger = _
    unfold registerDappLocked
    split <;> rfl
  | unregisterDapp order d => exact unregisterDappLocked_ledger h order d
  | addSubscription d f => exact addSubscriptionLocked_ledger (hl.tagged (d, f)).mpr
  | removeSubscription d f => exact s.removeSubscriptionLocked_ledger d f
  | removeSubscriptionById d id => exact removeSubscriptionByIdLocked_ledger hl d id
  | clear => rfl

/-- Every critical section but that of `clear` changes the live subscriptions in the same way. -/
theorem locked_live {s : SubscriptionManager} (h : s.Indexed) {c : Call} (hc : c ≠ .clear) :
    (c.locked s).manager.live = s.liveAfter c := by
  have htopics : ∀ d f, (d, f) ∈ (c.locked s).manager.live ↔
      f ∈ (s.indexes.after (s.changeOf c)).topics d := fun d f => by
    rw [← locked_indexes h c]
    rfl
  ext ⟨d, f⟩
  rw [htopics]
  cases c with
  | registerDapp now =>
    simp only [changeOf, liveAfter, issuedBy, revokedBy, List.not_mem_nil, not_false_eq_true,
      and_true, Set.mem_ofPred_eq]
    split
    · rfl
    · rename_i id hid
      -- The new member is a stranger, so it had no subscription.
      have hfree : f ∉ s.subsOf id := fun hf => s.searchDappId_free hid (h.registered hf)
      by_cases hd : d = id
      · simp [Roster.Indexes.after, hd, mem_live, hfree]
      · simp [Roster.Indexes.after, hd, mem_live, indexes]
  | unregisterDapp order e =>
    simp only [changeOf, liveAfter, issuedBy, revokedBy]
    split
    · by_cases hd : d = e
      · simp [Roster.Indexes.after, hd, mem_live, order.mem_list]
      · simp [Roster.Indexes.after, hd, mem_live, indexes, Ne.symm hd]
    · simp [Roster.Indexes.after, mem_live, indexes]
  | addSubscription e g =>
    simp only [changeOf, liveAfter, issuedBy, revokedBy]
    split
    · by_cases hd : d = e <;> simp [Roster.Indexes.after, hd, mem_live, indexes]
    · simp [Roster.Indexes.after, mem_live, indexes]
  | removeSubscription e g =>
    simp only [changeOf, liveAfter, issuedBy, revokedBy]
    split
    · by_cases hd : d = e <;> simp [Roster.Indexes.after, hd, mem_live, indexes, and_comm]
    · simp [Roster.Indexes.after, mem_live, indexes]
  | removeSubscriptionById e id =>
    simp only [changeOf, liveAfter, issuedBy, revokedBy]
    rcases s.subscriptionIds.lookup id with _ | ⟨e', g⟩
    · simp [Roster.Indexes.after, mem_live, indexes]
    · dsimp only
      split
      · by_cases hd : d = e <;> simp [Roster.Indexes.after, hd, mem_live, indexes, and_comm]
      · simp [Roster.Indexes.after, mem_live, indexes]
  | clear => exact absurd rfl hc

/-! ### Soundness over runs -/

/-- The invariant of the ID maps of a run without `clear`. -/
structure Resolving (s : SubscriptionManager) : Prop where
  indexed : s.Indexed
  sound : s.ledger.Sound s.live
  within : s.ledger.Within idRange
  next : s.nextSubscriptionId ∈ idRange

/-- A subscription that a call issues an ID to is new, and its ID is the counter. -/
theorem issuedBy_eq_some {s : SubscriptionManager} {c : Call} {k : UInt32} {p : UInt32 × UInt32}
    (h : s.issuedBy c = some (k, p)) :
    c = .addSubscription p.1 p.2 ∧ k = s.nextSubscriptionId ∧ p.1 ∈ s.registeredDapps ∧
      p ∉ s.live := by
  cases c with
  | addSubscription d f =>
    simp only [issuedBy] at h
    split at h
    · rename_i hnew
      cases h
      exact ⟨rfl, rfl, hnew.1, hnew.2⟩
    · cases h
  | _ => cases h

/-- What the deletion paths leave alone besides the registrations: whether a callback is installed,
and the ID counter. -/
def settings (s : SubscriptionManager) : Bool × UInt32 :=
  (s.smLifecycleCallback, s.nextSubscriptionId)

section Settings

variable (s : SubscriptionManager) (d f : UInt32)

@[simp] theorem dropRow_settings : (s.dropRow d f).settings = s.settings := by
  unfold dropRow
  split <;> rfl

@[simp] theorem dropSubscriber_settings : (s.dropSubscriber d f).1.settings = s.settings := rfl

@[simp] theorem dropSubscriptionId_settings :
    (s.dropSubscriptionId d f).settings = s.settings := by
  unfold dropSubscriptionId
  split <;> rfl

theorem sweep_settings (l : List UInt32) (acc : SubscriptionManager × List Check) :
    (l.foldl (unregisterRound d) acc).1.settings = acc.1.settings := by
  induction l generalizing acc with
  | nil => rfl
  | cons f l ih =>
    rw [List.foldl_cons, ih]
    simp [unregisterRound]

end Settings

/-- No call installs or removes the callback, and the counter moves on with every issue and rests
otherwise. -/
theorem locked_settings (s : SubscriptionManager) (c : Call) :
    (c.locked s).manager.settings =
      (s.smLifecycleCallback,
        if (s.issuedBy c).isSome then cyclicNext s.nextSubscriptionId
        else s.nextSubscriptionId) := by
  cases c with
  | registerDapp now =>
    simp only [Call.locked, registerDappLocked]
    split <;> rfl
  | unregisterDapp order d =>
    simp only [Call.locked, unregisterDappLocked]
    split
    · split
      · rfl
      · exact sweep_settings d _ (s, [])
    · rfl
  | addSubscription d f =>
    simp only [Call.locked, addSubscriptionLocked, issuedBy, ← subsOf.eq_def]
    by_cases hd : d ∈ s.registeredDapps <;> by_cases hf : f ∈ s.subsOf d <;>
      simp [hd, hf, settings]
  | removeSubscription d f =>
    simp only [Call.locked, removeSubscriptionLocked]
    split
    · rfl
    · split
      · simp [issuedBy, settings.eq_def s]
      · rfl
  | removeSubscriptionById d id =>
    simp only [Call.locked, removeSubscriptionByIdLocked]
    split
    · rfl
    · split
      · rfl
      · exact s.dropRow_settings d _
  | clear => rfl

/-- The counter stays in the range of the IDs. -/
theorem locked_nextSubscriptionId {s : SubscriptionManager} (h : s.nextSubscriptionId ∈ idRange)
    (c : Call) : (c.locked s).manager.nextSubscriptionId ∈ idRange := by
  rw [show (c.locked s).manager.nextSubscriptionId = _ from
    congrArg Prod.snd (s.locked_settings c)]
  dsimp only
  split
  · exact cyclicNext_mem_idRange h
  · exact h

/-- A call issues an ID of the range or none. -/
theorem within_ledgerAfter {s : SubscriptionManager} (h : s.ledger.Within idRange)
    (hnext : s.nextSubscriptionId ∈ idRange) (c : Call) : (s.ledgerAfter c).Within idRange := by
  unfold ledgerAfter
  split
  · rename_i k p hissue
    refine h.issue ?_ p
    rw [(issuedBy_eq_some hissue).2.1]
    exact hnext
  · exact h.revokeAll _

theorem Resolving.locked {s : SubscriptionManager} (h : s.Resolving) {c : Call}
    (hc : c ≠ .clear) : (c.locked s).manager.Resolving := by
  refine ⟨h.indexed.locked c, ?_, ?_, locked_nextSubscriptionId h.next c⟩
  · rw [locked_ledger h.indexed h.sound, locked_live h.indexed hc, ledgerAfter, liveAfter]
    split
    · rename_i k p hissue
      exact h.sound.issue (issuedBy_eq_some hissue).2.2.2 k
    · exact h.sound.revokeAll _
  · rw [locked_ledger h.indexed h.sound]
    exact within_ledgerAfter h.within h.next c

theorem resolving_fresh (callback : Bool) :
    ({ smLifecycleCallback := callback } : SubscriptionManager).Resolving := by
  refine ⟨indexed_fresh callback, ⟨fun p => ?_, fun k p h => ?_⟩, fun p k h => ?_,
    show (1 : UInt32) ∈ idRange from ⟨by decide, by decide⟩⟩
  · simp [ledger, live, subsOf]
  · cases h
  · cases h

/-! ### What a run has issued -/

/-- What one call of a run does to the ID that `d` holds for `f`: a successful `add_subscription`
issues one, and the release of `d` takes every ID of `d` back. -/
def issueStep (d f : UInt32) (last : Option UInt32) : Call × Outcome → Option UInt32
  | (.addSubscription d' f', o) =>
    if d' = d ∧ f' = f ∧ o.code = .success then some o.id else last
  | (.unregisterDapp _ d', o) => if d' = d ∧ o.code = .success then none else last
  | _ => last

/-- The ID that the last successful `add_subscription(d, f)` of a run returned, if the run has not
released `d` since. -/
def issuedId (d f : UInt32) (past : List (Call × Outcome)) : Option UInt32 :=
  past.foldl (issueStep d f) none

theorem issuedId_concat (d f : UInt32) (past : List (Call × Outcome)) (e : Call × Outcome) :
    issuedId d f (past ++ [e]) = issueStep d f (issuedId d f past) e := by
  simp [issuedId]

/-- An ID that is held after some calls and was not held before them was issued by one of them. -/
theorem foldl_issueStep_eq_some {d f k : UInt32} (past : List (Call × Outcome)) :
    past.foldl (issueStep d f) none = some k →
      ∃ o, (.addSubscription d f, o) ∈ past ∧ o.code = .success ∧ o.id = k := by
  induction past using List.reverseRecOn with
  | nil => exact fun h => by cases h
  | append_singleton past e ih =>
    intro h
    have hkeep : past.foldl (issueStep d f) none = some k →
        ∃ o, (.addSubscription d f, o) ∈ past ++ [e] ∧ o.code = .success ∧ o.id = k := fun h => by
      obtain ⟨o, hmem, ho⟩ := ih h
      exact ⟨o, List.mem_append_left _ hmem, ho⟩
    rw [List.foldl_concat] at h
    unfold issueStep at h
    split at h
    · rename_i d' f' o
      split at h
      · rename_i hadd
        obtain ⟨rfl, rfl, hcode⟩ := hadd
        exact ⟨o, by simp, hcode, Option.some.inj h⟩
      · exact hkeep h
    · split at h
      · cases h
      · exact hkeep h
    · exact hkeep h

theorem addSubscriptionLocked_success {s : SubscriptionManager} {d f : UInt32} :
    (s.addSubscriptionLocked d f).code = .success ↔
      d ∈ s.registeredDapps ∧ f ∉ s.subsOf d := by
  by_cases hd : d ∈ s.registeredDapps
  swap
  · simp [addSubscriptionLocked_of_unregistered hd, hd]
  by_cases hf : f ∈ s.subsOf d
  · simp [addSubscriptionLocked_of_live hd hf, hf]
  · simp [addSubscriptionLocked_of_new hd hf, hd, hf]

theorem addSubscriptionLocked_id {s : SubscriptionManager} {d f : UInt32}
    (h : (s.addSubscriptionLocked d f).code = .success) :
    (s.addSubscriptionLocked d f).id = s.nextSubscriptionId := by
  obtain ⟨hd, hf⟩ := addSubscriptionLocked_success.mp h
  rw [addSubscriptionLocked_of_new hd hf]

theorem removeSubscriptionLocked_success {s : SubscriptionManager} {d f : UInt32} :
    (s.removeSubscriptionLocked d f).code = .success ↔ f ∈ s.subsOf d := by
  unfold removeSubscriptionLocked
  cases hsubs : s.dappSubscriptions.lookup d with
  | none => simp [subsOf_of_lookup_none hsubs]
  | some subs => by_cases hf : f ∈ subs <;> simp [subsOf_of_lookup hsubs, hf]

theorem unregisterDappLocked_success {s : SubscriptionManager} {order : Enumeration UInt32}
    {d : UInt32} :
    (s.unregisterDappLocked order d).code = .success ↔ d ∈ s.registeredDapps := by
  unfold unregisterDappLocked
  by_cases hd : d ∈ s.registeredDapps <;> simp [hd]

/-- The invariant of a run: what a subscription remembers as its ID is what it was issued. -/
structure Tracked (s : SubscriptionManager) (past : List (Call × Outcome)) : Prop
    extends s.Resolving where
  issued : ∀ d f k, s.ledger.tag (d, f) = some k → issuedId d f past = some k

theorem Tracked.perform {s : SubscriptionManager} {past : List (Call × Outcome)}
    (h : s.Tracked past) {c : Call} (hc : c ≠ .clear) :
    (c.perform s).1.Tracked (past ++ [(c, (c.perform s).2)]) := by
  refine ⟨h.toResolving.locked hc, fun d f k hk => ?_⟩
  rw [issuedId_concat]
  replace hk : (s.ledgerAfter c).tag (d, f) = some k := by
    rw [← locked_ledger h.indexed h.sound]
    exact hk
  unfold ledgerAfter at hk
  split at hk
  · rename_i k' p hissue
    obtain ⟨rfl, rfl, hp, hlive⟩ := issuedBy_eq_some hissue
    have hcode : (s.addSubscriptionLocked p.1 p.2).code = .success :=
      addSubscriptionLocked_success.mpr ⟨hp, hlive⟩
    by_cases hdf : (d, f) = p
    · subst hdf
      simp only [Ledger.issue, Function.update_self, Option.some.injEq] at hk
      rw [← hk, ← addSubscriptionLocked_id hcode]
      exact if_pos ⟨rfl, rfl, hcode⟩
    · simp only [Ledger.issue, ne_eq, hdf, not_false_eq_true, Function.update_of_ne] at hk
      rw [← h.issued d f k hk]
      exact if_neg fun hadd => hdf (Prod.ext hadd.1.symm hadd.2.1.symm)
  · rename_i hnone
    rw [Ledger.tag_revokeAll] at hk
    split at hk
    · cases hk
    rename_i hkept
    rw [← h.issued d f k hk]
    cases c with
    | addSubscription d' f' =>
      -- Nothing was issued, so the call did not succeed.
      refine if_neg fun hadd => ?_
      have hnew := addSubscriptionLocked_success.mp hadd.2.2
      simp [issuedBy, hnew] at hnone
    | unregisterDapp order d' =>
      -- The release of `d` would have revoked the ID.
      refine if_neg fun hleave => hkept ?_
      obtain ⟨rfl, hcode⟩ := hleave
      have hf : f ∈ s.subsOf d' := (h.sound.tagged (d', f)).mp ⟨k, hk⟩
      simp [revokedBy, unregisterDappLocked_success.mp hcode, order.mem_list, hf]
    | _ => rfl

/-- The invariant holds after every run without `clear`. -/
theorem tracked_run (callback : Bool) {calls : List Call} (h : WithoutClear calls) :
    (Transition.final Call.perform { smLifecycleCallback := callback } calls).Tracked
      (Transition.history Call.perform { smLifecycleCallback := callback } calls) := by
  refine Transition.run_induction ⟨resolving_fresh callback, fun _ _ _ hk => by cases hk⟩ ?_
  intro s past c hc hs
  exact hs.perform fun heq => h (heq ▸ hc)

end SubscriptionManager

end LibE3
