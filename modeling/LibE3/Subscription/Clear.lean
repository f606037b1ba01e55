import LibE3.Subscription.Resolve
import LibE3.Subscription.Registration

/-! What `clear` leaves behind.  A cleared manager differs from a fresh one in its two counters, which
only changes the IDs that it hands out, and in the two ID maps, which `clear` does not empty.  An
entry left in `subscription_id_reverse_` is never read before it is overwritten.  An entry left in
`subscription_ids_` still resolves, so a cleared manager behaves like a fresh one exactly where that
map was empty. -/

namespace LibE3

open Transition

/-! ### Operations and their answers -/

/-- The operations of a manager: its mutating calls, the installation of the callback, and its
queries, with the order in which a query walks an unordered container. -/
inductive Operation
  | call (c : Call)
  | setSmLifecycleCallback
  | isDappRegistered (dappId : UInt32)
  | getRegisteredDapps (order : Enumeration UInt32)
  | isSubscribed (dappId ranFunctionId : UInt32)
  | getDappSubscriptions (order : Enumeration UInt32) (dappId : UInt32)
  | getSubscribedDapps (order : Enumeration UInt32) (ranFunctionId : UInt32)
  | getSubscriberCount (ranFunctionId : UInt32)
  | getActiveRanFunctions (order : Enumeration UInt32)
  | hasSubscribers (ranFunctionId : UInt32)
  | dappCount
  | subscriptionCount

/-- What an operation returns.  The vectors that the queries build from unordered containers are
compared without their order. -/
inductive Answer
  | outcome (o : Outcome)
  | nothing
  | flag (b : Bool)
  | ids (l : Multiset UInt32)
  | count (n : Nat)
  deriving DecidableEq

def Operation.perform (s : SubscriptionManager) : Operation → SubscriptionManager × Answer
  | .call c => ((c.perform s).1, .outcome (c.perform s).2)
  | .setSmLifecycleCallback => (s.setSmLifecycleCallback, .nothing)
  | .isDappRegistered d => (s, .flag (s.isDappRegistered d))
  | .getRegisteredDapps order => (s, .ids (s.getRegisteredDapps order))
  | .isSubscribed d f => (s, .flag (s.isSubscribed d f))
  | .getDappSubscriptions order d => (s, .ids (s.getDappSubscriptions order d))
  | .getSubscribedDapps order f => (s, .ids (s.getSubscribedDapps order f))
  | .getSubscriberCount f => (s, .count (s.getSubscriberCount f))
  | .getActiveRanFunctions order => (s, .ids (s.getActiveRanFunctions order))
  | .hasSubscribers f => (s, .flag (s.hasSubscribers f))
  | .dappCount => (s, .count s.dappCount)
  | .subscriptionCount => (s, .count s.subscriptionCount)

/-! ### Renaming -/

namespace SubscriptionManager

/-- A renaming of IDs that turns the cycle 1, 2, ..., 100 of a counter and leaves every other number
alone. -/
structure Rotation where
  perm : Equiv.Perm UInt32
  fixes : ∀ k, k ∉ idRange → perm k = k
  next : ∀ k, k ∈ idRange → perm (cyclicNext k) = cyclicNext (perm k)

theorem Rotation.zero (ρ : Rotation) : ρ.perm 0 = 0 :=
  ρ.fixes 0 fun h => absurd h.1 (by decide)

end SubscriptionManager

open SubscriptionManager

/-- A call with the dApp IDs and the subscription IDs in its arguments renamed. -/
def Call.rename (ρ σ : Rotation) : Call → Call
  | .registerDapp now => .registerDapp now
  | .unregisterDapp order d => .unregisterDapp order (ρ.perm d)
  | .addSubscription d f => .addSubscription (ρ.perm d) f
  | .removeSubscription d f => .removeSubscription (ρ.perm d) f
  | .removeSubscriptionById d k => .removeSubscriptionById (ρ.perm d) (σ.perm k)
  | .clear => .clear

def Operation.rename (ρ σ : Rotation) : Operation → Operation
  | .call c => .call (c.rename ρ σ)
  | .isDappRegistered d => .isDappRegistered (ρ.perm d)
  | .isSubscribed d f => .isSubscribed (ρ.perm d) f
  | .getDappSubscriptions order d => .getDappSubscriptions order (ρ.perm d)
  | op => op

/-- The number in the outcome of a call is a dApp ID, a subscription ID, or zero. -/
def Call.renameId (ρ σ : Rotation) : Call → UInt32 → UInt32
  | .registerDapp _ => ρ.perm
  | .addSubscription _ _ => σ.perm
  | _ => id

/-- The answer of an operation with the IDs in it renamed. -/
def Operation.renameAnswer (ρ σ : Rotation) : Operation → Answer → Answer
  | .call c, .outcome o => .outcome { o with id := c.renameId ρ σ o.id }
  | .getRegisteredDapps _, .ids l => .ids (l.map ρ.perm)
  | .getSubscribedDapps _ _, .ids l => .ids (l.map ρ.perm)
  | _, answer => answer

namespace SubscriptionManager

/-- The number `i` places further along the cycle. -/
def turn (i : Nat) (k : UInt32) : UInt32 :=
  if 1 ≤ k ∧ k ≤ MAX_DAPP_ID then idAt (k.toNat - 1 + i) else k

theorem turn_idAt (i j : Nat) : turn i (idAt j) = idAt (j + i) := by
  refine (if_pos (idAt_mem_idRange j)).trans ?_
  apply UInt32.toNat_inj.mp
  rw [idAt_toNat, idAt_toNat, idAt_toNat]
  omega

/-- Turns that add up to a full round cancel. -/
theorem turn_turn {i j : Nat} (h : (i + j) % 100 = 0) (k : UInt32) : turn j (turn i k) = k := by
  by_cases hk : k ∈ idRange
  · obtain ⟨l, -, rfl⟩ := exists_idAt hk 0
    rw [turn_idAt, turn_idAt]
    apply UInt32.toNat_inj.mp
    rw [idAt_toNat, idAt_toNat]
    omega
  · have hturn : ∀ i, turn i k = k := fun i => if_neg hk
    rw [hturn, hturn]

/-- The rotation by `i` places. -/
def rotateBy (i : Nat) : Rotation where
  perm :=
    { toFun := turn i
      invFun := turn (100 - i % 100)
      left_inv := turn_turn (by omega)
      right_inv := turn_turn (by omega) }
  fixes _ hk := if_neg hk
  next k hk := by
    obtain ⟨j, -, rfl⟩ := exists_idAt hk 0
    show turn i (cyclicNext _) = cyclicNext (turn i _)
    rw [cyclicNext_idAt, turn_idAt, turn_idAt, cyclicNext_idAt, Nat.add_right_comm]

/-- Some rotation takes 1, where the counters of a fresh manager stand, to any number of the cycle. -/
theorem exists_rotation {k : UInt32} (h : k ∈ idRange) : ∃ ρ : Rotation, ρ.perm 1 = k := by
  obtain ⟨i, -, rfl⟩ := exists_idAt h 0
  exact ⟨rotateBy i, turn_idAt i 0⟩

/-! ### The renamed run -/

/-- `s` is `t` with its IDs renamed, but for the entries of `subscription_id_reverse_` whose
subscription is not live. -/
structure Renamed (ρ σ : Rotation) (t s : SubscriptionManager) : Prop where
  registered : Relabelled ρ.perm (fun entry => { entry with
    dappIdentifier := ρ.perm entry.dappIdentifier }) t.registeredDapps s.registeredDapps
  rows : Relabelled ρ.perm id t.dappSubscriptions s.dappSubscriptions
  subscribers : Relabelled (Equiv.refl _) (Finset.map ρ.perm.toEmbedding)
    t.ranFunctionSubscribers s.ranFunctionSubscribers
  ids : Relabelled σ.perm (Prod.map ρ.perm id) t.subscriptionIds s.subscriptionIds
  tags : ∀ d f, f ∈ t.subsOf d → s.subscriptionIdReverse.lookup (makeSubKey (ρ.perm d) f) =
    (t.subscriptionIdReverse.lookup (makeSubKey d f)).map σ.perm
  callback : s.smLifecycleCallback = t.smLifecycleCallback
  nextDapp : s.nextDappId = ρ.perm t.nextDappId
  nextSubscription : s.nextSubscriptionId = σ.perm t.nextSubscriptionId
  dappRange : t.nextDappId ∈ idRange
  subscriptionRange : t.nextSubscriptionId ∈ idRange

variable {ρ σ : Rotation} {t s : SubscriptionManager}

theorem Renamed.subsOf (h : Renamed ρ σ t s) (d : UInt32) : s.subsOf (ρ.perm d) = t.subsOf d :=
  h.rows.getD d ∅

theorem Renamed.subscribersOf (h : Renamed ρ σ t s) (f : UInt32) :
    s.subscribersOf f = (t.subscribersOf f).map ρ.perm.toEmbedding :=
  h.subscribers.getD f ∅

theorem Renamed.hasSubscribers (h : Renamed ρ σ t s) (f : UInt32) :
    s.hasSubscribers f = t.hasSubscribers f := by
  rw [Bool.eq_iff_iff, hasSubscribers_iff, hasSubscribers_iff, h.subscribersOf,
    Finset.map_nonempty]

theorem Renamed.checkSmLifecycle (h : Renamed ρ σ t s) (check : Check) :
    s.checkSmLifecycle check = t.checkSmLifecycle check := by
  simp only [SubscriptionManager.checkSmLifecycle, h.callback, h.hasSubscribers]

/-- The search walks the renamed cycle in step. -/
theorem Renamed.searchDappId (h : Renamed ρ σ t s) (n : Nat) {k : UInt32} (hk : k ∈ idRange) :
    s.searchDappId n (ρ.perm k) = (t.searchDappId n k).map ρ.perm := by
  induction n generalizing k with
  | zero => rfl
  | succ n ih =>
    simp only [SubscriptionManager.searchDappId, h.registered.mem, ← ρ.next k hk,
      ih (cyclicNext_mem_idRange hk)]
    split <;> rfl

/-- The renaming is injective on composite keys. -/
theorem makeSubKey_perm_eq_iff {d f d' f' : UInt32} :
    makeSubKey (ρ.perm d') f' = makeSubKey (ρ.perm d) f ↔ makeSubKey d' f' = makeSubKey d f := by
  constructor
  · intro heq
    obtain ⟨hd, rfl⟩ := makeSubKey_inj heq
    rw [ρ.perm.injective hd]
  · intro heq
    obtain ⟨rfl, rfl⟩ := makeSubKey_inj heq
    rfl

/-- The same entry may be written to the two reverse maps. -/
theorem Renamed.insert_tag (h : Renamed ρ σ t s) (d f k : UInt32) {d' f' : UInt32}
    (hlive : f' ∈ t.subsOf d' ∨ (d', f') = (d, f)) :
    (s.subscriptionIdReverse.insert (makeSubKey (ρ.perm d) f) (σ.perm k)).lookup
        (makeSubKey (ρ.perm d') f') =
      ((t.subscriptionIdReverse.insert (makeSubKey d f) k).lookup (makeSubKey d' f')).map σ.perm := by
  rw [UnorderedMap.lookup_insert_ite, UnorderedMap.lookup_insert_ite]
  simp only [makeSubKey_perm_eq_iff]
  split
  · rfl
  · rename_i hne
    refine h.tags d' f' (hlive.resolve_right fun heq => hne ?_)
    cases heq
    rfl

theorem Renamed.erase_tag (h : Renamed ρ σ t s) (d f d' f' : UInt32) (hlive : f' ∈ t.subsOf d') :
    (s.subscriptionIdReverse.erase (makeSubKey (ρ.perm d) f)).lookup (makeSubKey (ρ.perm d') f') =
      ((t.subscriptionIdReverse.erase (makeSubKey d f)).lookup (makeSubKey d' f')).map σ.perm := by
  rw [UnorderedMap.lookup_erase_ite, UnorderedMap.lookup_erase_ite]
  simp only [makeSubKey_perm_eq_iff]
  split
  · rfl
  · exact h.tags d' f' hlive

/-! ### One lemma for each critical section -/

/-- The critical sections of a call and of the renamed call leave the same. -/
structure RenamedEdit (ρ σ : Rotation) (c : Call) (e e' : Edit) : Prop where
  manager : Renamed ρ σ e.manager e'.manager
  code : e'.code = e.code
  id : e'.id = c.renameId ρ σ e.id
  checks : e'.checks = e.checks

theorem Renamed.registerDapp (h : Renamed ρ σ t s) (now : Timestamp) :
    RenamedEdit ρ σ (.registerDapp now) (t.registerDappLocked now) (s.registerDappLocked now) := by
  unfold registerDappLocked
  rw [h.nextDapp, h.searchDappId _ h.dappRange]
  cases hsearch : t.searchDappId (MAX_DAPP_ID.toNat + 1) t.nextDappId with
  | none => exact ⟨h, rfl, ρ.zero.symm, rfl⟩
  | some assigned =>
    have hassigned : assigned ∈ idRange := searchDappId_mem h.dappRange hsearch
    refine ⟨?_, rfl, rfl, rfl⟩
    exact
      { registered := h.registered.insert assigned ⟨assigned, now⟩
        rows := h.rows.insert assigned ∅
        subscribers := h.subscribers
        ids := h.ids
        tags := by
          intro d f hf
          refine h.tags d f ?_
          unfold SubscriptionManager.subsOf at hf ⊢
          rw [UnorderedMap.getD_insert] at hf
          split at hf
          · cases hf
          · exact hf
        callback := h.callback
        nextDapp := (ρ.next assigned hassigned).symm
        nextSubscription := h.nextSubscription
        dappRange := cyclicNext_mem_idRange hassigned
        subscriptionRange := h.subscriptionRange }

theorem Renamed.dropRow (h : Renamed ρ σ t s) (d f : UInt32) :
    Renamed ρ σ (t.dropRow d f) (s.dropRow (ρ.perm d) f) := by
  have hrow : s.dappSubscriptions.lookup (ρ.perm d) = t.dappSubscriptions.lookup d := by
    rw [h.rows d, Option.map_id_fun, id]
  have hsubsOf := t.dropRow_subsOf d f
  unfold SubscriptionManager.dropRow at hsubsOf ⊢
  rw [hrow]
  cases hlookup : t.dappSubscriptions.lookup d with
  | none => exact h
  | some subs =>
    rw [hlookup] at hsubsOf
    refine { h with rows := h.rows.insert d _, tags := fun d' f' hf' => h.tags d' f' ?_ }
    -- A pair that is live after the removal was live before it.
    rw [hsubsOf] at hf'
    split at hf'
    · rename_i hd
      rw [hd]
      exact Finset.mem_of_mem_erase hf'
    · exact hf'

theorem Renamed.dropSubscriber (h : Renamed ρ σ t s) (d f : UInt32) :
    Renamed ρ σ (t.dropSubscriber d f).1 (s.dropSubscriber (ρ.perm d) f).1 ∧
      (s.dropSubscriber (ρ.perm d) f).2 = (t.dropSubscriber d f).2 := by
  have hbefore := h.subscribersOf f
  have herase : (s.subscribersOf f).erase (ρ.perm d) =
      ((t.subscribersOf f).erase d).map ρ.perm.toEmbedding := by
    rw [hbefore, Finset.map_erase]
    rfl
  constructor
  · refine { h with subscribers := ?_ }
    have hinsert := h.subscribers.insert f ((t.subscribersOf f).erase d)
    rw [← herase] at hinsert
    exact hinsert
  · unfold SubscriptionManager.subscribersOf at hbefore herase
    simp only [SubscriptionManager.dropSubscriber, herase]
    simp only [hbefore, Finset.map_nonempty]

/-- The cleanup of the ID maps by a pair is in step where the two managers remember the same ID for
it. -/
theorem Renamed.dropSubscriptionId (h : Renamed ρ σ t s) {d f : UInt32}
    (htag : s.subscriptionIdReverse.lookup (makeSubKey (ρ.perm d) f) =
      (t.subscriptionIdReverse.lookup (makeSubKey d f)).map σ.perm) :
    Renamed ρ σ (t.dropSubscriptionId d f) (s.dropSubscriptionId (ρ.perm d) f) := by
  unfold SubscriptionManager.dropSubscriptionId
  rw [htag]
  cases t.subscriptionIdReverse.lookup (makeSubKey d f) with
  | none => exact h
  | some id => exact { h with ids := h.ids.erase id, tags := h.erase_tag d f }

theorem Renamed.sweep (d : UInt32) (l : List UInt32) (acc acc' : SubscriptionManager × List Check)
    (h : Renamed ρ σ acc.1 acc'.1) (hchecks : acc'.2 = acc.2)
    (hlive : ∀ f ∈ l, f ∈ acc.1.subsOf d) :
    Renamed ρ σ (l.foldl (unregisterRound d) acc).1
        (l.foldl (unregisterRound (ρ.perm d)) acc').1 ∧
      (l.foldl (unregisterRound (ρ.perm d)) acc').2 = (l.foldl (unregisterRound d) acc).2 := by
  induction l generalizing acc acc' with
  | nil => exact ⟨h, hchecks⟩
  | cons f l ih =>
    obtain ⟨hdropped, hlast⟩ := h.dropSubscriber d f
    have htag := h.tags d f (hlive f List.mem_cons_self)
    refine ih _ _ (hdropped.dropSubscriptionId htag) ?_ fun g hg => ?_
    · simp only [unregisterRound, hlast, hchecks]
    · -- The loop leaves the row of the dApp alone.
      have hrow : (unregisterRound d acc f).1.subsOf d = acc.1.subsOf d := by
        simp [SubscriptionManager.subsOf, unregisterRound]
      rw [hrow]
      exact hlive g (List.mem_cons_of_mem f hg)

theorem Renamed.unregisterDapp (h : Renamed ρ σ t s) (order : Enumeration UInt32) (d : UInt32) :
    RenamedEdit ρ σ (.unregisterDapp order d) (t.unregisterDappLocked order d)
      (s.unregisterDappLocked order (ρ.perm d)) := by
  have hrow : s.dappSubscriptions.lookup (ρ.perm d) = t.dappSubscriptions.lookup d := by
    rw [h.rows d, Option.map_id_fun, id]
  unfold unregisterDappLocked
  simp only [h.registered.mem, hrow]
  split
  · cases hlookup : t.dappSubscriptions.lookup d with
    | none => exact ⟨{ h with registered := h.registered.erase d }, rfl, rfl, rfl⟩
    | some subs =>
      have hlive : ∀ f ∈ order.list subs, f ∈ t.subsOf d := by
        intro f hf
        rw [SubscriptionManager.subsOf_of_lookup hlookup]
        exact (order.mem_list _ _).mp hf
      obtain ⟨hswept, hchecks⟩ :=
        Renamed.sweep d (order.list subs) (t, []) (s, []) h rfl hlive
      refine ⟨?_, rfl, rfl, hchecks⟩
      refine { hswept with
        registered := hswept.registered.erase d
        rows := hswept.rows.erase d
        tags := fun d' f' hf' => hswept.tags d' f' ?_ }
      unfold SubscriptionManager.subsOf at hf' ⊢
      rw [UnorderedMap.getD_erase] at hf'
      split at hf'
      · cases hf'
      · exact hf'
  · exact ⟨h, rfl, rfl, rfl⟩

theorem Renamed.addSubscription (h : Renamed ρ σ t s) (d f : UInt32) :
    RenamedEdit ρ σ (.addSubscription d f) (t.addSubscriptionLocked d f)
      (s.addSubscriptionLocked (ρ.perm d) f) := by
  unfold addSubscriptionLocked
  simp only [h.registered.mem, ← subsOf.eq_def, h.subsOf, ← subscribersOf.eq_def,
    h.subscribersOf, Finset.map_nonempty, h.nextSubscription]
  split
  swap
  · exact ⟨h, rfl, σ.zero.symm, rfl⟩
  split
  · rename_i hf
    have hexisting : s.subscriptionIdReverse.getD (makeSubKey (ρ.perm d) f) 0 =
        σ.perm (t.subscriptionIdReverse.getD (makeSubKey d f) 0) := by
      rw [UnorderedMap.getD, UnorderedMap.getD, h.tags d f hf]
      cases t.subscriptionIdReverse.lookup (makeSubKey d f) with
      | none => exact σ.zero.symm
      | some k => rfl
    simp only [hexisting]
    refine ⟨?_, rfl, rfl, rfl⟩
    refine { h with
      rows := h.rows.insert d (t.subsOf d)
      tags := fun d' f' hf' => h.insert_tag d f _ (Or.inl ?_)
      nextSubscription := rfl }
    simp only [SubscriptionManager.subsOf, UnorderedMap.getD_insert] at hf' ⊢
    split at hf'
    · rename_i hd
      rw [hd]
      exact hf'
    · exact hf'
  · refine ⟨?_, rfl, rfl, rfl⟩
    refine { h with
      rows := h.rows.insert d (insert f (t.subsOf d))
      subscribers := ?_
      ids := h.ids.insert t.nextSubscriptionId (d, f)
      tags := fun d' f' hf' => h.insert_tag d f _ ?_
      nextSubscription := (σ.next _ h.subscriptionRange).symm
      subscriptionRange := cyclicNext_mem_idRange h.subscriptionRange }
    · have hinsert := h.subscribers.insert f (insert d (t.subscribersOf f))
      rw [Finset.map_insert] at hinsert
      exact hinsert
    · simp only [SubscriptionManager.subsOf, UnorderedMap.getD_insert] at hf' ⊢
      split at hf'
      · rename_i hd
        rcases Finset.mem_insert.mp hf' with rfl | hf'
        · exact Or.inr (by rw [hd])
        · exact Or.inl (by rwa [hd])
      · exact Or.inl hf'

theorem Renamed.removeSubscription (h : Renamed ρ σ t s) (d f : UInt32) :
    RenamedEdit ρ σ (.removeSubscription d f) (t.removeSubscriptionLocked d f)
      (s.removeSubscriptionLocked (ρ.perm d) f) := by
  have hrow : s.dappSubscriptions.lookup (ρ.perm d) = t.dappSubscriptions.lookup d := by
    rw [h.rows d, Option.map_id_fun, id]
  unfold removeSubscriptionLocked
  rw [hrow]
  cases hlookup : t.dappSubscriptions.lookup d with
  | none => exact ⟨h, rfl, rfl, rfl⟩
  | some subs =>
    dsimp only
    split
    · rename_i hf
      have hlive : f ∈ t.subsOf d := by
        rw [SubscriptionManager.subsOf_of_lookup hlookup]
        exact hf
      obtain ⟨hdropped, hlast⟩ := (h.dropRow d f).dropSubscriber d f
      refine ⟨hdropped.dropSubscriptionId ?_, rfl, rfl, by rw [hlast]⟩
      have hkeep : ∀ (u : SubscriptionManager) (e : UInt32),
          ((u.dropRow e f).dropSubscriber e f).1.subscriptionIdReverse =
            u.subscriptionIdReverse := by
        intro u e
        simp only [SubscriptionManager.dropSubscriber, SubscriptionManager.dropRow]
        split <;> rfl
      rw [hkeep, hkeep]
      exact h.tags d f hlive
    · exact ⟨h, rfl, rfl, rfl⟩

theorem Renamed.removeSubscriptionById (h : Renamed ρ σ t s) (d k : UInt32) :
    RenamedEdit ρ σ (.removeSubscriptionById d k) (t.removeSubscriptionByIdLocked d k)
      (s.removeSubscriptionByIdLocked (ρ.perm d) (σ.perm k)) := by
  unfold removeSubscriptionByIdLocked
  rw [h.ids k]
  rcases t.subscriptionIds.lookup k with _ | ⟨d', f⟩
  · exact ⟨h, rfl, rfl, rfl⟩
  · simp only [Option.map_some, Prod.map_apply, id, ne_eq, ρ.perm.injective.eq_iff]
    split
    · exact ⟨h, rfl, rfl, rfl⟩
    · obtain ⟨hdropped, hlast⟩ := (h.dropRow d f).dropSubscriber d f
      refine ⟨?_, rfl, rfl, by rw [hlast]⟩
      exact { hdropped with ids := hdropped.ids.erase k, tags := hdropped.erase_tag d f }

theorem Renamed.clear (h : Renamed ρ σ t s) :
    RenamedEdit ρ σ .clear t.clearLocked s.clearLocked := by
  refine ⟨?_, rfl, rfl, rfl⟩
  exact { h with
    registered := .empty
    rows := .empty
    subscribers := .empty
    tags := fun d f hf => absurd hf (Finset.notMem_empty f) }

theorem Renamed.locked (h : Renamed ρ σ t s) (c : Call) :
    RenamedEdit ρ σ c (c.locked t) ((c.rename ρ σ).locked s) := by
  cases c with
  | registerDapp now => exact h.registerDapp now
  | unregisterDapp order d => exact h.unregisterDapp order d
  | addSubscription d f => exact h.addSubscription d f
  | removeSubscription d f => exact h.removeSubscription d f
  | removeSubscriptionById d k => exact h.removeSubscriptionById d k
  | clear => exact h.clear

/-! ### Queries -/

theorem Renamed.registeredDapps (h : Renamed ρ σ t s) (order : Enumeration UInt32) :
    (s.getRegisteredDapps order : Multiset UInt32) =
      Multiset.map ρ.perm (t.getRegisteredDapps order) := by
  rw [SubscriptionManager.getRegisteredDapps, SubscriptionManager.getRegisteredDapps,
    order.coe_list, order.coe_list, h.registered.keys]
  rfl

theorem Renamed.subscribedDapps (h : Renamed ρ σ t s) (order : Enumeration UInt32) (f : UInt32) :
    (s.getSubscribedDapps order f : Multiset UInt32) =
      Multiset.map ρ.perm (t.getSubscribedDapps order f) := by
  have hlookup := h.subscribers f
  unfold SubscriptionManager.getSubscribedDapps
  rw [Equiv.refl_apply] at hlookup
  rw [hlookup]
  cases t.ranFunctionSubscribers.lookup f with
  | none => rfl
  | some subscribers => simp [order.coe_list]

theorem Renamed.dappSubscriptions (h : Renamed ρ σ t s) (order : Enumeration UInt32) (d : UInt32) :
    s.getDappSubscriptions order (ρ.perm d) = t.getDappSubscriptions order d := by
  unfold SubscriptionManager.getDappSubscriptions
  rw [h.rows d, Option.map_id_fun, id]

theorem Renamed.activeRanFunctions (h : Renamed ρ σ t s) (order : Enumeration UInt32) :
    (s.getActiveRanFunctions order : Multiset UInt32) = t.getActiveRanFunctions order := by
  refine (Multiset.Nodup.ext (Multiset.coe_nodup.mpr (s.nodup_getActiveRanFunctions order))
    (Multiset.coe_nodup.mpr (t.nodup_getActiveRanFunctions order))).mpr fun f => ?_
  rw [Multiset.mem_coe, Multiset.mem_coe, mem_getActiveRanFunctions, mem_getActiveRanFunctions,
    h.subscribersOf, Finset.map_nonempty]

theorem Renamed.subscriptionCount (h : Renamed ρ σ t s) :
    s.subscriptionCount = t.subscriptionCount := by
  unfold SubscriptionManager.subscriptionCount
  rw [h.rows.keys, Finset.sum_map]
  refine Finset.sum_congr rfl fun d _ => ?_
  exact congrArg Finset.card (h.subsOf d)

/-- A renamed operation does to the renamed manager what the operation does to the manager, and its
answer is the renamed answer. -/
theorem Renamed.perform (h : Renamed ρ σ t s) (op : Operation) :
    Renamed ρ σ (op.perform t).1 ((op.rename ρ σ).perform s).1 ∧
      ((op.rename ρ σ).perform s).2 = op.renameAnswer ρ σ (op.perform t).2 := by
  cases op with
  | call c =>
    obtain ⟨hmanager, hcode, hid, hchecks⟩ := h.locked c
    refine ⟨hmanager, ?_⟩
    have hcallbacks := List.filterMap_congr fun check (_ : check ∈ (c.locked t).checks) =>
      hmanager.checkSmLifecycle check
    simp only [Operation.perform, Operation.rename, Operation.renameAnswer, Call.perform,
      Edit.finish, hcode, hid, hchecks, hcallbacks]
  | setSmLifecycleCallback => exact ⟨{ h with callback := rfl }, rfl⟩
  | isDappRegistered d =>
    refine ⟨h, congrArg Answer.flag ?_⟩
    exact decide_eq_decide.mpr h.registered.mem
  | getRegisteredDapps order => exact ⟨h, congrArg Answer.ids (h.registeredDapps order)⟩
  | isSubscribed d f =>
    refine ⟨h, congrArg Answer.flag ?_⟩
    rw [Bool.eq_iff_iff, isSubscribed_iff, isSubscribed_iff, h.subsOf]
  | getDappSubscriptions order d =>
    refine ⟨h, congrArg Answer.ids ?_⟩
    rw [h.dappSubscriptions]
  | getSubscribedDapps order f => exact ⟨h, congrArg Answer.ids (h.subscribedDapps order f)⟩
  | getSubscriberCount f =>
    refine ⟨h, congrArg Answer.count ?_⟩
    rw [getSubscriberCount_eq, getSubscriberCount_eq, h.subscribersOf, Finset.card_map]
  | getActiveRanFunctions order => exact ⟨h, congrArg Answer.ids (h.activeRanFunctions order)⟩
  | hasSubscribers f => exact ⟨h, congrArg Answer.flag (h.hasSubscribers f)⟩
  | dappCount =>
    refine ⟨h, congrArg Answer.count ?_⟩
    rw [SubscriptionManager.dappCount, SubscriptionManager.dappCount, h.registered.keys,
      Finset.card_map]
  | subscriptionCount => exact ⟨h, congrArg Answer.count h.subscriptionCount⟩

/-! ### A run after `clear` -/

/-- The run `ops` from `s` has an `add_subscription(d, f)` that returned `k`, and the subscription
that it made has been live ever since. -/
def IssuedLive (s : SubscriptionManager) (ops : List Operation) (d f k : UInt32) : Prop :=
  ∃ before after, ops = before ++ .call (.addSubscription d f) :: after ∧
    ((final Operation.perform s before).addSubscription d f).2.code = .success ∧
    ((final Operation.perform s before).addSubscription d f).2.id = k ∧
    ∀ mid, mid <+: after →
      (final Operation.perform s
        (before ++ .call (.addSubscription d f) :: mid)).isSubscribed d f = true

/-- A `clear` in state `s` leaves nothing behind: what follows it has the answers of the same
operations on a fresh manager, but for the IDs that the counters hand out, and until the next `clear`
a deletion by ID finds only what was issued the ID since. -/
structure ClearsAll (s : SubscriptionManager) : Prop where
  likeFresh : ∃ ρ σ : Rotation, ∀ ops,
    history Operation.perform s.clear.1 (ops.map (Operation.rename ρ σ)) =
      (history Operation.perform { smLifecycleCallback := s.smLifecycleCallback } ops).map
        fun entry => (entry.1.rename ρ σ, entry.1.renameAnswer ρ σ entry.2)
  resolvesNew : ∀ ops d k, .call .clear ∉ ops →
    let u := final Operation.perform s.clear.1 ops
    (u.removeSubscriptionById d k).2.code ≠ .subscriptionNotFound →
      ∃ f, IssuedLive s.clear.1 ops d f k ∧
        ∀ d' f', (u.removeSubscriptionById d k).1.isSubscribed d' f' = true ↔
          u.isSubscribed d' f' = true ∧ (d', f') ≠ (d, f)

/-- The counters stand in the cycle in every state. -/
theorem numbered_operations (ops : List Operation) :
    (final Operation.perform {} ops).Numbered ∧
      (final Operation.perform {} ops).nextSubscriptionId ∈ idRange := by
  refine final_induction
    (P := fun s : SubscriptionManager => s.Numbered ∧ s.nextSubscriptionId ∈ idRange)
    ⟨numbered_fresh false, (resolving_fresh false).next⟩ fun s op _ h => ?_
  cases op with
  | call c =>
    refine ⟨h.1.locked c, ?_⟩
    rw [show ((Operation.call c).perform s).1.nextSubscriptionId = _ from
      congrArg Prod.snd (s.locked_settings c)]
    dsimp only
    split
    · exact cyclicNext_mem_idRange h.2
    · exact h.2
  | setSmLifecycleCallback =>
    exact ⟨⟨⟨h.1.indexed.keys, h.1.indexed.agree⟩, h.1.registered, h.1.next⟩, h.2⟩
  | _ => exact h

/-- A cleared manager without an entry in `subscription_ids_` is a renamed fresh one. -/
theorem renamed_clear (hids : s.subscriptionIds = ∅) (hdapp : ρ.perm 1 = s.nextDappId)
    (hsubscription : σ.perm 1 = s.nextSubscriptionId) :
    Renamed ρ σ { smLifecycleCallback := s.smLifecycleCallback } s.clear.1 where
  registered := .empty
  rows := .empty
  subscribers := .empty
  ids := by
    show Relabelled _ _ _ s.subscriptionIds
    rw [hids]
    exact .empty
  tags d f hf := absurd hf (Finset.notMem_empty f)
  callback := rfl
  nextDapp := hdapp.symm
  nextSubscription := hsubscription.symm
  dappRange := (numbered_fresh s.smLifecycleCallback).next
  subscriptionRange := (resolving_fresh s.smLifecycleCallback).next

/-! ### Resolution after `clear` -/

/-- The rotation that renames nothing. -/
def Rotation.refl : Rotation := ⟨Equiv.refl _, fun _ _ => rfl, fun _ _ => rfl⟩

@[simp] theorem Rotation.refl_perm (k : UInt32) : Rotation.refl.perm k = k := rfl

theorem rename_refl (op : Operation) : op.rename .refl .refl = op := by
  cases op with
  | call c => cases c <;> rfl
  | _ => rfl

/-- Up to entries of `subscription_id_reverse_` that no live subscription owns, the ID maps of `s`
are those of a run without `clear`. -/
def Clean (s : SubscriptionManager) : Prop := ∃ t, t.Resolving ∧ Renamed .refl .refl t s

theorem Clean.clear (hids : s.subscriptionIds = ∅) (hnext : s.nextSubscriptionId ∈ idRange)
    (hdapp : s.nextDappId ∈ idRange) : s.clear.1.Clean := by
  refine ⟨{ s.clear.1 with subscriptionIdReverse := ∅ }, ⟨⟨rfl, ?_⟩, ⟨?_, ?_⟩, ?_, hnext⟩, ?_⟩
  · exact fun d f => ⟨fun h => absurd h (Finset.notMem_empty _),
      fun h => absurd h (Finset.notMem_empty _)⟩
  · exact fun p => ⟨fun ⟨k, hk⟩ => (by cases hk), fun h => absurd h (Finset.notMem_empty _)⟩
  · intro k p hk
    have hnone : s.subscriptionIds.lookup k = some p := hk
    rw [hids] at hnone
    cases hnone
  · exact fun p k hk => by cases hk
  · exact
      { registered := .empty
        rows := .empty
        subscribers := .empty
        ids := fun k => by
          show _ = Option.map (Prod.map id id) _
          rw [Prod.map_id, Option.map_id_fun]
          rfl
        tags := fun d f hf => absurd hf (Finset.notMem_empty f)
        callback := rfl
        nextDapp := rfl
        nextSubscription := rfl
        dappRange := hdapp
        subscriptionRange := hnext }

theorem Clean.perform (h : s.Clean) {op : Operation} (hop : op ≠ .call .clear) :
    (op.perform s).1.Clean := by
  obtain ⟨t, ht, hrenamed⟩ := h
  have hnext := (hrenamed.perform op).1
  rw [rename_refl] at hnext
  refine ⟨(op.perform t).1, ?_, hnext⟩
  cases op with
  | call c => exact ht.locked fun heq => hop (heq ▸ rfl)
  | setSmLifecycleCallback =>
    exact ⟨⟨ht.indexed.keys, ht.indexed.agree⟩, ⟨ht.sound.tagged, ht.sound.resolves⟩, ht.within,
      ht.next⟩
  | _ => exact ht

/-- An ID of a clean manager resolves to a live subscription. -/
theorem Clean.isSubscribed (h : s.Clean) {d f k : UInt32}
    (hk : s.subscriptionIds.lookup k = some (d, f)) : s.isSubscribed d f = true := by
  obtain ⟨t, ht, hrenamed⟩ := h
  have hlookup : t.subscriptionIds.lookup k = some (d, f) := by
    have hrelabelled := hrenamed.ids k
    rw [Rotation.refl_perm, hk] at hrelabelled
    obtain ⟨p, hp, hpair⟩ := Option.map_eq_some_iff.mp hrelabelled.symm
    rw [hp, ← hpair]
    rfl
  rw [isSubscribed_iff, ← Rotation.refl_perm d, hrenamed.subsOf]
  exact (ht.sound.tagged (d, f)).mp ⟨k, ht.sound.resolves k (d, f) hlookup⟩

/-- An ID that resolves after an operation resolved to the same subscription before it, or the
operation is the `add_subscription` that returned it. -/
theorem Clean.issued_or_kept (h : s.Clean) {op : Operation} {d f k : UInt32}
    (hk : (op.perform s).1.subscriptionIds.lookup k = some (d, f)) :
    s.subscriptionIds.lookup k = some (d, f) ∨
      op = .call (.addSubscription d f) ∧ (s.addSubscription d f).2.code = .success ∧
        (s.addSubscription d f).2.id = k := by
  obtain ⟨t, ht, hrenamed⟩ := h
  have hids : ∀ {t s : SubscriptionManager}, Renamed .refl .refl t s →
      s.subscriptionIds.lookup k = t.subscriptionIds.lookup k := fun hrenamed => by
    refine (hrenamed.ids k).trans ?_
    show Option.map (Prod.map id id) _ = _
    rw [Prod.map_id, Option.map_id_fun]
    rfl
  cases op with
  | call c =>
    have hnext := (hrenamed.perform (.call c)).1
    rw [rename_refl] at hnext
    rw [hids hnext] at hk
    rw [hids hrenamed]
    have howner : (t.ledgerAfter c).owner k = some (d, f) := by
      rw [← locked_ledger ht.indexed ht.sound c]
      exact hk
    unfold ledgerAfter at howner
    split at howner
    · rename_i k' p hissue
      obtain ⟨rfl, rfl, hregistered, hnew⟩ := issuedBy_eq_some hissue
      by_cases hkk : k = t.nextSubscriptionId
      · right
        simp only [Ledger.issue, hkk, Function.update_self, Option.some.injEq] at howner
        subst howner
        have hcode := addSubscriptionLocked_success.mpr ⟨hregistered, hnew⟩
        have hedit := hrenamed.addSubscription d f
        refine ⟨rfl, hedit.code.trans hcode, ?_⟩
        rw [hkk, ← addSubscriptionLocked_id hcode]
        exact hedit.id
      · left
        exact (Function.update_of_ne hkk _ _).symm.trans howner
    · exact Or.inl (Ledger.owner_of_revokeAll howner)
  | _ => exact Or.inl hk

theorem Clean.after_run (h : s.Clean) {ops : List Operation} (hops : .call .clear ∉ ops) :
    (Transition.final Operation.perform s ops).Clean :=
  final_induction h fun _ _ hop hs => hs.perform fun heq => hops (heq ▸ hop)

/-- In a run without `clear` from a clean manager that resolves no ID, an ID that resolves was issued
in the run to a subscription that is live since. -/
theorem Clean.issuedLive (h : s.Clean) (hempty : s.subscriptionIds = ∅) {ops : List Operation}
    (hops : .call .clear ∉ ops) {d f k : UInt32}
    (hk : (final Operation.perform s ops).subscriptionIds.lookup k = some (d, f)) :
    IssuedLive s ops d f k := by
  -- The run grows at its end: the entry is old, or the last operation made it.
  induction ops using List.reverseRecOn with
  | nil =>
    rw [final, hempty] at hk
    cases hk
  | append_singleton ops op ih =>
    have hbefore : .call .clear ∉ ops := fun hmem => hops (List.mem_append_left _ hmem)
    have hlive := (h.after_run hops).isSubscribed hk
    rw [final_concat] at hk
    rcases (h.after_run hbefore).issued_or_kept hk with hkept | ⟨rfl, hcode, hid⟩
    · obtain ⟨before, after, rfl, hcode, hid, hsince⟩ := ih hbefore hkept
      refine ⟨before, after ++ [op], by simp, hcode, hid, fun mid hmid => ?_⟩
      rcases List.prefix_concat_iff.mp hmid with rfl | hmid
      · simpa using hlive
      · exact hsince mid hmid
    · refine ⟨ops, [], rfl, hcode, hid, fun mid hmid => ?_⟩
      rw [List.prefix_nil.mp hmid]
      exact hlive

theorem removeSubscriptionByIdLocked_code (s : SubscriptionManager) (d k : UInt32) :
    (s.removeSubscriptionByIdLocked d k).code = .success ∨
      (s.removeSubscriptionByIdLocked d k).code = .subscriptionNotFound := by
  unfold removeSubscriptionByIdLocked
  split
  · exact Or.inr rfl
  · split
    · exact Or.inr rfl
    · exact Or.inl rfl

/-- In every reachable state, `clear` leaves nothing behind if and only if no subscription ID is
recorded in `subscription_ids_` when it is called. -/
theorem clearsAll_iff (past : List Operation) :
    let s := final Operation.perform {} past
    s.ClearsAll ↔ s.subscriptionIds = ∅ := by
  intro s
  obtain ⟨hnumbered, hnext⟩ := numbered_operations past
  constructor
  · intro h
    refine Finmap.ext_lookup fun k => ?_
    rcases hk : s.subscriptionIds.lookup k with _ | ⟨d, f⟩
    · rfl
    · -- The deletion by a recorded ID succeeds right after the `clear`.
      have hcode : (s.clear.1.removeSubscriptionById d k).2.code = .success :=
        removeSubscriptionByIdLocked_success.mpr ⟨f, hk⟩
      obtain ⟨f', ⟨before, after, hops, -⟩, -⟩ := h.resolvesNew [] d k (by simp) (by
        show (s.clear.1.removeSubscriptionById d k).2.code ≠ _
        rw [hcode]
        decide)
      simp at hops
  · intro hids
    obtain ⟨ρ, hρ⟩ := exists_rotation hnumbered.next
    obtain ⟨σ, hσ⟩ := exists_rotation hnext
    have hclean : s.clear.1.Clean := .clear hids hnext hnumbered.next
    refine ⟨⟨ρ, σ, fun ops => ?_⟩, ?_⟩
    · exact (simulation (fun _ _ op h => h.perform op) (renamed_clear hids hρ hσ) ops).2
    · intro ops d k hops u hcode
      obtain ⟨f, hk⟩ := removeSubscriptionByIdLocked_success.mp
        ((removeSubscriptionByIdLocked_code u d k).resolve_right hcode)
      refine ⟨f, hclean.issuedLive hids hops hk, ?_⟩
      have hrun : final Operation.perform {} (past ++ .call .clear :: ops) = u :=
        final_append _ _ _ _
      have hindexed : u.Indexed := hrun ▸ (numbered_operations _).1.indexed
      exact hindexed.removeSubscriptionById_isSubscribed hk

/-- One dApp with one subscription, cleared: its ID still resolves, while on a fresh manager the same
deletion is refused. -/
theorem not_clearsAll_subscribed :
    let s := final Operation.perform {}
      [.call (.registerDapp 0), .call (.addSubscription 1 7)]
    ¬s.ClearsAll ∧
    (s.clear.1.removeSubscriptionById 1 1).2.code = .success ∧
    (({} : SubscriptionManager).removeSubscriptionById 1 1).2.code = .subscriptionNotFound := by
  intro s
  have hrecorded : s.subscriptionIds.lookup 1 = some (1, 7) := by decide +kernel
  refine ⟨fun h => ?_, removeSubscriptionByIdLocked_success.mpr ⟨7, hrecorded⟩, rfl⟩
  obtain ⟨f, ⟨before, after, hops, -⟩, -⟩ := h.resolvesNew [] 1 1 (by simp) (by decide +kernel)
  simp at hops

end SubscriptionManager

end LibE3
