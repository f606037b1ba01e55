import LibE3.Lib.Roster
import LibE3.Subscription.Manager
import Mathlib.Algebra.BigOperators.Group.Finset.Sigma
import Mathlib.Algebra.BigOperators.Ring.Finset
import Mathlib.Data.FinEnum

/-! The two indexes of a manager describe one relation.  `Indexed` is the invariant, and every call
keeps it: on the indexes it makes one change of a roster of dApps and RAN functions. -/

namespace LibE3

namespace SubscriptionManager

/-- `dapp_subscriptions_[d]`. -/
def subsOf (s : SubscriptionManager) (d : UInt32) : Finset UInt32 := s.dappSubscriptions.getD d ∅

/-- `ran_function_subscribers_[f]`. -/
def subscribersOf (s : SubscriptionManager) (f : UInt32) : Finset UInt32 :=
  s.ranFunctionSubscribers.getD f ∅

theorem subsOf_of_lookup {s : SubscriptionManager} {d : UInt32} {subs : Finset UInt32}
    (h : s.dappSubscriptions.lookup d = some subs) : s.subsOf d = subs := by
  simp [subsOf, UnorderedMap.getD, h]

theorem subsOf_of_lookup_none {s : SubscriptionManager} {d : UInt32}
    (h : s.dappSubscriptions.lookup d = none) : s.subsOf d = ∅ := by
  simp [subsOf, UnorderedMap.getD, h]

/-- The registrations and the two indexes of a manager. -/
def indexes (s : SubscriptionManager) : Roster.Indexes UInt32 UInt32 where
  members := {d | d ∈ s.registeredDapps}
  rows := {d | d ∈ s.dappSubscriptions}
  topics := s.subsOf
  holders := s.subscribersOf

/-- The key sets of `dapp_subscriptions_` and `registered_dapps_` are equal, and the forward and
reverse indexes agree. -/
structure Indexed (s : SubscriptionManager) : Prop where
  keys : s.dappSubscriptions.keys = s.registeredDapps.keys
  agree : ∀ d f, f ∈ s.subsOf d ↔ d ∈ s.subscribersOf f

theorem mem_of_mem_subsOf {s : SubscriptionManager} {d f : UInt32} (h : f ∈ s.subsOf d) :
    d ∈ s.dappSubscriptions := by
  refine UnorderedMap.mem_of_getD_ne (d := ∅) fun h0 => ?_
  rw [subsOf, h0] at h
  exact Finset.notMem_empty _ h

theorem indexed_iff_coherent {s : SubscriptionManager} : s.Indexed ↔ s.indexes.Coherent := by
  have hkeys : s.dappSubscriptions.keys = s.registeredDapps.keys ↔
      s.indexes.rows = s.indexes.members := by
    simp [Finset.ext_iff, Set.ext_iff, indexes, Finmap.mem_keys]
  constructor
  · rintro ⟨h1, h2⟩
    exact ⟨hkeys.mp h1, fun d f h => mem_of_mem_subsOf h, h2⟩
  · rintro ⟨h1, -, h2⟩
    exact ⟨hkeys.mpr h1, h2⟩

theorem Indexed.mem_rows {s : SubscriptionManager} (h : s.Indexed) {d : UInt32} :
    d ∈ s.dappSubscriptions ↔ d ∈ s.registeredDapps := by
  rw [← Finmap.mem_keys, h.keys, Finmap.mem_keys]

/-- Every subscriber is registered. -/
theorem Indexed.registered {s : SubscriptionManager} (h : s.Indexed) {d f : UInt32}
    (hf : f ∈ s.subsOf d) : d ∈ s.registeredDapps :=
  h.mem_rows.mp (mem_of_mem_subsOf hf)

/-! ### What the queries say -/

section Queries

variable (s : SubscriptionManager)

theorem isSubscribed_iff (d f : UInt32) : s.isSubscribed d f = true ↔ f ∈ s.subsOf d := by
  unfold isSubscribed subsOf UnorderedMap.getD
  cases s.dappSubscriptions.lookup d <;> simp

theorem mem_getDappSubscriptions (order : Enumeration UInt32) (d f : UInt32) :
    f ∈ s.getDappSubscriptions order d ↔ f ∈ s.subsOf d := by
  unfold getDappSubscriptions subsOf UnorderedMap.getD
  cases s.dappSubscriptions.lookup d <;> simp [order.mem_list]

theorem mem_getSubscribedDapps (order : Enumeration UInt32) (d f : UInt32) :
    d ∈ s.getSubscribedDapps order f ↔ d ∈ s.subscribersOf f := by
  unfold getSubscribedDapps subscribersOf UnorderedMap.getD
  cases s.ranFunctionSubscribers.lookup f <;> simp [order.mem_list]

theorem getSubscriberCount_eq (f : UInt32) :
    s.getSubscriberCount f = (s.subscribersOf f).card := by
  unfold getSubscriberCount subscribersOf UnorderedMap.getD
  cases s.ranFunctionSubscribers.lookup f <;> simp

theorem hasSubscribers_iff (f : UInt32) :
    s.hasSubscribers f = true ↔ (s.subscribersOf f).Nonempty := by
  unfold hasSubscribers subscribersOf UnorderedMap.getD
  cases s.ranFunctionSubscribers.lookup f <;> simp

theorem nodup_getActiveRanFunctions (order : Enumeration UInt32) :
    (s.getActiveRanFunctions order).Nodup :=
  (order.nodup _).filter _

theorem mem_getActiveRanFunctions (order : Enumeration UInt32) (f : UInt32) :
    f ∈ s.getActiveRanFunctions order ↔ (s.subscribersOf f).Nonempty := by
  simp only [getActiveRanFunctions, List.mem_filter, order.mem_list, Finmap.mem_keys,
    decide_eq_true_eq, ← subscribersOf.eq_def]
  refine ⟨fun h => h.2, fun h => ⟨?_, h⟩⟩
  exact UnorderedMap.mem_of_getD_ne (d := ∅) h.ne_empty

/-- Counting the links by dApp and by RAN function gives the same number. -/
theorem Indexed.subscriptionCount_eq {s : SubscriptionManager} (h : s.Indexed) :
    s.subscriptionCount = ∑ f : UInt32, s.getSubscriberCount f := by
  calc s.subscriptionCount
      = ∑ d : UInt32, (s.subsOf d).card := by
        refine Finset.sum_subset (Finset.subset_univ _) fun d _ hd => ?_
        rw [Finmap.mem_keys] at hd
        rw [UnorderedMap.getD_of_notMem hd, Finset.card_empty]
    _ = ∑ d : UInt32, ∑ f : UInt32, if f ∈ s.subsOf d then 1 else 0 := by
        simp only [Finset.sum_boole, Finset.filter_univ_mem, Nat.cast_id]
    _ = ∑ f : UInt32, ∑ d : UInt32, if d ∈ s.subscribersOf f then 1 else 0 := by
        rw [Finset.sum_comm]
        simp only [h.agree]
    _ = ∑ f : UInt32, s.getSubscriberCount f := by
        simp only [Finset.sum_boole, Finset.filter_univ_mem, Nat.cast_id, getSubscriberCount_eq]

end Queries

/-! ### The pieces of the critical sections -/

section Pieces

variable (s : SubscriptionManager) (d f : UInt32)

@[simp] theorem dropRow_registeredDapps : (s.dropRow d f).registeredDapps = s.registeredDapps := by
  unfold dropRow
  split <;> rfl

@[simp] theorem dropRow_subscribersOf : (s.dropRow d f).subscribersOf = s.subscribersOf := by
  unfold dropRow
  split <;> rfl

theorem dropRow_mem_rows (e : UInt32) :
    e ∈ (s.dropRow d f).dappSubscriptions ↔ e ∈ s.dappSubscriptions := by
  unfold dropRow
  split
  · rfl
  · rename_i subs hsome
    rw [Finmap.mem_insert, or_iff_right_iff_imp]
    rintro rfl
    exact Finmap.mem_of_lookup_eq_some hsome

theorem dropRow_subsOf (e : UInt32) :
    (s.dropRow d f).subsOf e = if e = d then (s.subsOf d).erase f else s.subsOf e := by
  unfold dropRow subsOf
  split
  · rename_i hnone
    have hempty : s.dappSubscriptions.getD d ∅ = ∅ := by simp [UnorderedMap.getD, hnone]
    rw [hempty, Finset.erase_empty]
    split
    · rename_i he
      rw [he, hempty]
    · rfl
  · rename_i subs hsome
    rw [UnorderedMap.getD_insert]
    simp [UnorderedMap.getD, hsome]

@[simp] theorem dropSubscriber_registeredDapps :
    (s.dropSubscriber d f).1.registeredDapps = s.registeredDapps := rfl

@[simp] theorem dropSubscriber_dappSubscriptions :
    (s.dropSubscriber d f).1.dappSubscriptions = s.dappSubscriptions := rfl

theorem dropSubscriber_subscribersOf (g : UInt32) :
    (s.dropSubscriber d f).1.subscribersOf g =
      if g = f then (s.subscribersOf f).erase d else s.subscribersOf g :=
  UnorderedMap.getD_insert _ _ _ _ _

@[simp] theorem dropSubscriptionId_registeredDapps :
    (s.dropSubscriptionId d f).registeredDapps = s.registeredDapps := by
  unfold dropSubscriptionId
  split <;> rfl

@[simp] theorem dropSubscriptionId_dappSubscriptions :
    (s.dropSubscriptionId d f).dappSubscriptions = s.dappSubscriptions := by
  unfold dropSubscriptionId
  split <;> rfl

@[simp] theorem dropSubscriptionId_ranFunctionSubscribers :
    (s.dropSubscriptionId d f).ranFunctionSubscribers = s.ranFunctionSubscribers := by
  unfold dropSubscriptionId
  split <;> rfl

end Pieces

/-- The loop of `unregister_dapp` leaves the registrations and the forward index alone and takes the
dApp out of the subscribers of every function it visits. -/
theorem sweep_index (d : UInt32) (l : List UInt32) (acc : SubscriptionManager × List Check) :
    (l.foldl (unregisterRound d) acc).1.registeredDapps = acc.1.registeredDapps ∧
    (l.foldl (unregisterRound d) acc).1.dappSubscriptions = acc.1.dappSubscriptions ∧
    ∀ g, (l.foldl (unregisterRound d) acc).1.subscribersOf g =
      if g ∈ l then (acc.1.subscribersOf g).erase d else acc.1.subscribersOf g := by
  induction l generalizing acc with
  | nil => simp
  | cons f l ih =>
    obtain ⟨hreg, hsubs, hsubscribers⟩ := ih (unregisterRound d acc f)
    have hround : ∀ g, (unregisterRound d acc f).1.subscribersOf g =
        if g = f then (acc.1.subscribersOf f).erase d else acc.1.subscribersOf g := by
      intro g
      rw [← dropSubscriber_subscribersOf]
      simp [unregisterRound, subscribersOf]
    refine ⟨hreg.trans ?_, hsubs.trans ?_, fun g => ?_⟩
    · simp [unregisterRound]
    · simp [unregisterRound]
    · rw [List.foldl_cons, hsubscribers, hround]
      by_cases hgf : g = f
      · subst hgf
        simp
      · simp [hgf]

/-! ### What each critical section does to the indexes -/

/-- The roster change that a call makes in state `s`. -/
def changeOf (s : SubscriptionManager) : Call → Roster.Change UInt32 UInt32
  | .registerDapp _ =>
    match s.searchDappId (MAX_DAPP_ID.toNat + 1) s.nextDappId with
    | none => .stay
    | some id => .join id
  | .unregisterDapp _ d => if d ∈ s.registeredDapps then .leave d else .stay
  | .addSubscription d f =>
    if d ∈ s.registeredDapps ∧ f ∉ s.subsOf d then .link d f else .stay
  | .removeSubscription d f => if f ∈ s.subsOf d then .unlink d f else .stay
  | .removeSubscriptionById d id =>
    match s.subscriptionIds.lookup id with
    | none => .stay
    | some (d', f) => if d' = d then .unlink d f else .stay
  | .clear => .reset

/-- The search of `register_dapp` returns an unregistered ID. -/
theorem searchDappId_free (s : SubscriptionManager) {n : Nat} {start id : UInt32}
    (h : s.searchDappId n start = some id) : id ∉ s.registeredDapps := by
  induction n generalizing start with
  | zero => cases h
  | succ n ih =>
    unfold searchDappId at h
    split at h
    · exact ih h
    · cases h
      assumption

theorem admits_changeOf (s : SubscriptionManager) (c : Call) : s.indexes.Admits (s.changeOf c) := by
  cases c with
  | registerDapp now =>
    simp only [changeOf]
    split
    · trivial
    · rename_i id hid
      exact s.searchDappId_free hid
  | addSubscription d f =>
    simp only [changeOf]
    split
    · rename_i h
      exact h.1
    · trivial
  | unregisterDapp order d =>
    simp only [changeOf]
    split <;> trivial
  | removeSubscription d f =>
    simp only [changeOf]
    split <;> trivial
  | removeSubscriptionById d id =>
    simp only [changeOf]
    split
    · trivial
    · split <;> trivial
  | clear => trivial

theorem registerDappLocked_indexes (s : SubscriptionManager) (now : Timestamp) :
    (s.registerDappLocked now).manager.indexes =
      s.indexes.after (s.changeOf (.registerDapp now)) := by
  cases hsearch : s.searchDappId (MAX_DAPP_ID.toNat + 1) s.nextDappId with
  | none =>
    simp only [registerDappLocked, changeOf, hsearch]
    rfl
  | some id =>
    simp only [registerDappLocked, changeOf, hsearch]
    refine Roster.Indexes.ext ?_ ?_ ?_ rfl
    · ext d
      simp [indexes, Roster.Indexes.after]
    · ext d
      simp [indexes, Roster.Indexes.after]
    · funext d
      exact UnorderedMap.getD_insert _ _ _ _ _

theorem unregisterDappLocked_of_unregistered {s : SubscriptionManager} {d : UInt32}
    (hd : d ∉ s.registeredDapps) (order : Enumeration UInt32) :
    s.unregisterDappLocked order d = { manager := s, code := .dappNotRegistered } :=
  if_neg hd

theorem unregisterDappLocked_indexes {s : SubscriptionManager} (h : s.Indexed)
    (order : Enumeration UInt32) (d : UInt32) :
    (s.unregisterDappLocked order d).manager.indexes =
      s.indexes.after (s.changeOf (.unregisterDapp order d)) := by
  simp only [changeOf]
  by_cases hd : d ∈ s.registeredDapps
  swap
  · rw [unregisterDappLocked_of_unregistered hd, if_neg hd]
    rfl
  obtain ⟨subs, hsubs⟩ := Finmap.mem_iff.mp (h.mem_rows.mpr hd)
  have hsubsOf := subsOf_of_lookup hsubs
  obtain ⟨hreg, hrows, hholders⟩ := sweep_index d (order.list subs) (s, [])
  simp only [unregisterDappLocked, hd, if_true, hsubs]
  refine Roster.Indexes.ext ?_ ?_ ?_ ?_
  · ext e
    simp [indexes, Roster.Indexes.after, hreg, and_comm]
  · ext e
    simp [indexes, Roster.Indexes.after, hrows, and_comm]
  · funext e
    simp only [indexes, Roster.Indexes.after, subsOf, hrows]
    exact UnorderedMap.getD_erase _ _ _ _
  · funext g
    refine (hholders g).trans ?_
    simp only [indexes, Roster.Indexes.after, order.mem_list, ← hsubsOf, h.agree]
    split
    · rfl
    · rename_i hg
      exact (Finset.erase_eq_of_notMem hg).symm

section AddSubscription

variable {s : SubscriptionManager} {d f : UInt32}

theorem addSubscriptionLocked_of_unregistered (hd : d ∉ s.registeredDapps) :
    s.addSubscriptionLocked d f = { manager := s, code := .dappNotRegistered } :=
  if_neg hd

/-- The row of a live pair is there, so the first `operator[]` writes nothing. -/
theorem addSubscriptionLocked_of_live (hd : d ∈ s.registeredDapps) (hf : f ∈ s.subsOf d) :
    s.addSubscriptionLocked d f =
      { manager :=
          { s with
            subscriptionIdReverse := s.subscriptionIdReverse.insert (makeSubKey d f)
              (s.subscriptionIdReverse.getD (makeSubKey d f) 0) }
        code := .subscriptionExists
        id := s.subscriptionIdReverse.getD (makeSubKey d f) 0 } := by
  obtain ⟨subs, hsubs⟩ := Finmap.mem_iff.mp (mem_of_mem_subsOf hf)
  have hrow : s.dappSubscriptions.getD d ∅ = subs := subsOf_of_lookup hsubs
  have hf' : f ∈ subs := hrow ▸ hf
  simp only [addSubscriptionLocked, hd, hrow, hf', if_true, UnorderedMap.insert_of_lookup hsubs]

theorem addSubscriptionLocked_of_new (hd : d ∈ s.registeredDapps) (hf : f ∉ s.subsOf d) :
    s.addSubscriptionLocked d f =
      { manager :=
          { s with
            nextSubscriptionId := cyclicNext s.nextSubscriptionId
            dappSubscriptions := s.dappSubscriptions.insert d (insert f (s.subsOf d))
            ranFunctionSubscribers :=
              s.ranFunctionSubscribers.insert f (insert d (s.subscribersOf f))
            subscriptionIds := s.subscriptionIds.insert s.nextSubscriptionId (d, f)
            subscriptionIdReverse :=
              s.subscriptionIdReverse.insert (makeSubKey d f) s.nextSubscriptionId }
        code := .success
        id := s.nextSubscriptionId
        checks := if (s.subscribersOf f).Nonempty then [] else [⟨f, false⟩] } := by
  rw [addSubscriptionLocked, if_pos hd]
  exact if_neg hf

end AddSubscription

theorem addSubscriptionLocked_indexes (s : SubscriptionManager) (d f : UInt32) :
    (s.addSubscriptionLocked d f).manager.indexes =
      s.indexes.after (s.changeOf (.addSubscription d f)) := by
  simp only [changeOf]
  by_cases hd : d ∈ s.registeredDapps
  swap
  · rw [addSubscriptionLocked_of_unregistered hd, if_neg fun h => hd h.1]
    rfl
  by_cases hf : f ∈ s.subsOf d
  · rw [addSubscriptionLocked_of_live hd hf, if_neg fun h => h.2 hf]
    rfl
  · have hnew : d ∈ s.registeredDapps ∧ f ∉ s.subsOf d := ⟨hd, hf⟩
    rw [addSubscriptionLocked_of_new hd hf, if_pos hnew]
    refine Roster.Indexes.ext rfl ?_ ?_ ?_
    · ext e
      simp [indexes, Roster.Indexes.after]
    · funext e
      exact UnorderedMap.getD_insert _ _ _ _ _
    · funext g
      exact UnorderedMap.getD_insert _ _ _ _ _

/-- The part that the deletion paths share: `f` leaves the row of `d`, where there is one, and `d`
leaves the subscribers of `f`. -/
theorem unlink_indexes {s s' : SubscriptionManager} {d f : UInt32}
    (hreg : s'.registeredDapps = s.registeredDapps)
    (hrows : s'.dappSubscriptions = (s.dropRow d f).dappSubscriptions)
    (hsubscribers : s'.subscribersOf = ((s.dropRow d f).dropSubscriber d f).1.subscribersOf) :
    s'.indexes = s.indexes.after (.unlink d f) := by
  refine Roster.Indexes.ext ?_ ?_ ?_ ?_
  · simp [indexes, Roster.Indexes.after, hreg]
  · ext e
    simp [indexes, Roster.Indexes.after, hrows, dropRow_mem_rows]
  · funext e
    show s'.dappSubscriptions.getD e ∅ = _
    rw [hrows]
    exact s.dropRow_subsOf d f e
  · funext g
    show s'.subscribersOf g = _
    rw [hsubscribers, dropSubscriber_subscribersOf, dropRow_subscribersOf]
    rfl

theorem removeSubscriptionLocked_indexes (s : SubscriptionManager) (d f : UInt32) :
    (s.removeSubscriptionLocked d f).manager.indexes =
      s.indexes.after (s.changeOf (.removeSubscription d f)) := by
  unfold removeSubscriptionLocked changeOf
  split
  · rename_i hnone
    simp only [subsOf_of_lookup_none hnone, Finset.notMem_empty, if_false]
    rfl
  · rename_i subs hsome
    have hsubsOf := subsOf_of_lookup hsome
    by_cases hf : f ∈ subs
    · simp only [hf, if_true, hsubsOf]
      refine unlink_indexes (by simp) (by simp) (funext fun g => ?_)
      simp only [subscribersOf, dropSubscriptionId_ranFunctionSubscribers]
    · simp only [hf, if_false, hsubsOf]
      rfl

theorem removeSubscriptionByIdLocked_indexes (s : SubscriptionManager) (d id : UInt32) :
    (s.removeSubscriptionByIdLocked d id).manager.indexes =
      s.indexes.after (s.changeOf (.removeSubscriptionById d id)) := by
  rcases hid : s.subscriptionIds.lookup id with _ | ⟨d', f⟩
  · simp only [removeSubscriptionByIdLocked, changeOf, hid]
    rfl
  · by_cases hd : d' = d
    · simp only [removeSubscriptionByIdLocked, changeOf, hid, ne_eq, hd, not_true_eq_false,
        if_false, if_true]
      exact unlink_indexes (by simp) (by simp) rfl
    · simp only [removeSubscriptionByIdLocked, changeOf, hid, ne_eq, hd, not_false_eq_true, if_true,
        if_false]
      rfl

theorem clearLocked_indexes (s : SubscriptionManager) :
    s.clearLocked.manager.indexes = s.indexes.after (s.changeOf .clear) := by
  refine Roster.Indexes.ext ?_ ?_ rfl rfl
  · exact Set.eq_empty_iff_forall_notMem.mpr fun _ => Finmap.notMem_empty
  · exact Set.eq_empty_iff_forall_notMem.mpr fun _ => Finmap.notMem_empty

/-- Every critical section changes the indexes by its roster change. -/
theorem locked_indexes {s : SubscriptionManager} (h : s.Indexed) (c : Call) :
    (c.locked s).manager.indexes = s.indexes.after (s.changeOf c) := by
  cases c with
  | registerDapp now => exact s.registerDappLocked_indexes now
  | unregisterDapp order d => exact unregisterDappLocked_indexes h order d
  | addSubscription d f => exact s.addSubscriptionLocked_indexes d f
  | removeSubscription d f => exact s.removeSubscriptionLocked_indexes d f
  | removeSubscriptionById d id => exact s.removeSubscriptionByIdLocked_indexes d id
  | clear => exact s.clearLocked_indexes

theorem Indexed.locked {s : SubscriptionManager} (h : s.Indexed) (c : Call) :
    (c.locked s).manager.Indexed := by
  rw [indexed_iff_coherent, locked_indexes h c]
  exact (indexed_iff_coherent.mp h).after (s.admits_changeOf c)

theorem indexed_fresh (callback : Bool) :
    ({ smLifecycleCallback := callback } : SubscriptionManager).Indexed :=
  ⟨rfl, fun _ _ => by simp [subsOf, subscribersOf]⟩

theorem Indexed.final {s : SubscriptionManager} (h : s.Indexed) (calls : List Call) :
    (Transition.final Call.perform s calls).Indexed :=
  Transition.final_induction h fun _ c _ h => h.locked c

/-- Every manager that calls lead to from a fresh one is indexed. -/
theorem indexed_final (callback : Bool) (calls : List Call) :
    (Transition.final Call.perform { smLifecycleCallback := callback } calls).Indexed :=
  (indexed_fresh callback).final calls

/-! ### The agreement of the indexes -/

/-- After any calls on a fresh manager the two key sets are equal and the two indexes agree, so the
queries describe one relation between registered dApps and RAN functions. -/
theorem indexes_agree (callback : Bool) (calls : List Call) (order : Enumeration UInt32) :
    let s := Transition.final Call.perform { smLifecycleCallback := callback } calls
    s.dappSubscriptions.keys = s.registeredDapps.keys ∧
    (∀ d f, f ∈ s.dappSubscriptions.getD d ∅ ↔ d ∈ s.ranFunctionSubscribers.getD f ∅) ∧
    (∀ d f, d ∈ s.getSubscribedDapps order f → s.isDappRegistered d = true) ∧
    (∀ d f, (s.isSubscribed d f = true ↔ f ∈ s.getDappSubscriptions order d) ∧
      (s.isSubscribed d f = true ↔ d ∈ s.getSubscribedDapps order f)) ∧
    (s.getActiveRanFunctions order).Nodup ∧
    (∀ f, f ∈ s.getActiveRanFunctions order ↔
      ∃ d, s.isDappRegistered d = true ∧ s.isSubscribed d f = true) ∧
    s.subscriptionCount = ∑ f : UInt32, s.getSubscriberCount f := by
  intro s
  have h : s.Indexed := indexed_final callback calls
  have hregistered : ∀ d f, f ∈ s.subsOf d → s.isDappRegistered d = true := fun d f hf =>
    decide_eq_true (h.registered hf)
  refine ⟨h.keys, h.agree, fun d f hd => ?_, fun d f => ⟨?_, ?_⟩,
    s.nodup_getActiveRanFunctions order, fun f => ?_, h.subscriptionCount_eq⟩
  · rw [mem_getSubscribedDapps, ← h.agree] at hd
    exact hregistered d f hd
  · rw [isSubscribed_iff, mem_getDappSubscriptions]
  · rw [isSubscribed_iff, mem_getSubscribedDapps, h.agree]
  · rw [mem_getActiveRanFunctions]
    constructor
    · rintro ⟨d, hd⟩
      rw [← h.agree] at hd
      exact ⟨d, hregistered d f hd, (s.isSubscribed_iff d f).mpr hd⟩
    · rintro ⟨d, -, hd⟩
      exact ⟨d, (h.agree d f).mp ((s.isSubscribed_iff d f).mp hd)⟩

end SubscriptionManager

end LibE3
