import LibE3.Subscription.Ids

/-! Registration.  The IDs of dApps are those of the cycle 1, 2, ..., 100, and the search of
`register_dapp` goes once around it, so that it fails only when all hundred are taken. -/

namespace LibE3

namespace SubscriptionManager

open Transition

/-! ### The cycle -/

/-- The identifier at position `i` of the cycle. -/
def idAt (i : Nat) : UInt32 := .ofNat (i % 100 + 1)

theorem idAt_toNat (i : Nat) : (idAt i).toNat = i % 100 + 1 := by
  unfold idAt
  rw [UInt32.toNat_ofNat']
  omega

theorem idAt_mem_idRange (i : Nat) : idAt i ∈ idRange := by
  show (1 : UInt32) ≤ idAt i ∧ idAt i ≤ 100
  rw [UInt32.le_iff_toNat_le, UInt32.le_iff_toNat_le, idAt_toNat]
  simp only [UInt32.reduceToNat]
  omega

theorem mem_idRange_toNat {k : UInt32} : k ∈ idRange ↔ 1 ≤ k.toNat ∧ k.toNat ≤ 100 := by
  show (1 : UInt32) ≤ k ∧ k ≤ 100 ↔ _
  rw [UInt32.le_iff_toNat_le, UInt32.le_iff_toNat_le]
  rfl

/-- Starting anywhere, the cycle comes to every identifier within a hundred steps. -/
theorem exists_idAt {k : UInt32} (h : k ∈ idRange) (i : Nat) : ∃ j < 100, idAt (i + j) = k := by
  obtain ⟨h1, h2⟩ := mem_idRange_toNat.mp h
  refine ⟨(k.toNat - 1 + 100 - i % 100) % 100, Nat.mod_lt _ (by omega), ?_⟩
  apply UInt32.toNat_inj.mp
  rw [idAt_toNat]
  omega

theorem cyclicNext_idAt (i : Nat) : cyclicNext (idAt i) = idAt (i + 1) := by
  apply UInt32.toNat_inj.mp
  have hnext : (idAt i + 1).toNat = i % 100 + 2 := by
    rw [UInt32.toNat_add, idAt_toNat]
    simp only [UInt32.reduceToNat]
    omega
  rw [idAt_toNat]
  unfold cyclicNext
  split
  · rename_i hwrap
    rw [gt_iff_lt, UInt32.lt_iff_toNat_lt, hnext, show MAX_DAPP_ID.toNat = 100 from rfl] at hwrap
    show 1 = _
    omega
  · rename_i hwrap
    rw [gt_iff_lt, UInt32.lt_iff_toNat_lt, hnext, show MAX_DAPP_ID.toNat = 100 from rfl] at hwrap
    rw [hnext]
    omega

/-! ### The search -/

variable {s : SubscriptionManager}

/-- What the search finds is the first free identifier from where it starts. -/
theorem searchDappId_idAt (n i : Nat) :
    (s.searchDappId n (idAt i) = none ∧ ∀ j < n, idAt (i + j) ∈ s.registeredDapps) ∨
    ∃ j < n, s.searchDappId n (idAt i) = some (idAt (i + j)) ∧
      idAt (i + j) ∉ s.registeredDapps ∧ ∀ j' < j, idAt (i + j') ∈ s.registeredDapps := by
  induction n generalizing i with
  | zero => exact Or.inl ⟨rfl, fun j hj => absurd hj (Nat.not_lt_zero j)⟩
  | succ n ih =>
    by_cases htaken : idAt i ∈ s.registeredDapps
    · have hsearch : s.searchDappId (n + 1) (idAt i) = s.searchDappId n (idAt (i + 1)) := by
        rw [searchDappId, if_pos htaken, cyclicNext_idAt]
      have hshift : ∀ k, (∀ j < k, idAt (i + 1 + j) ∈ s.registeredDapps) →
          ∀ j < k + 1, idAt (i + j) ∈ s.registeredDapps := by
        intro k hall j hj
        cases j with
        | zero => exact htaken
        | succ j =>
          rw [show i + (j + 1) = i + 1 + j by omega]
          exact hall j (by omega)
      rw [hsearch]
      rcases ih (i + 1) with ⟨hnone, hall⟩ | ⟨j, hj, hsome, hfree, hbefore⟩
      · exact Or.inl ⟨hnone, hshift n hall⟩
      · refine Or.inr ⟨j + 1, by omega, ?_, ?_, hshift j hbefore⟩
        · rw [hsome, show i + (j + 1) = i + 1 + j by omega]
        · rw [show i + (j + 1) = i + 1 + j by omega]
          exact hfree
    · refine Or.inr ⟨0, by omega, ?_, htaken, fun j hj => absurd hj (Nat.not_lt_zero j)⟩
      rw [searchDappId, if_neg htaken, Nat.add_zero]

/-! ### The numbers in use -/

/-- The registered IDs and the counter are numbers of the cycle. -/
structure Numbered (s : SubscriptionManager) : Prop where
  indexed : s.Indexed
  registered : ∀ d, d ∈ s.registeredDapps → d ∈ idRange
  next : s.nextDappId ∈ idRange

/-- A search that starts in the cycle stays in it. -/
theorem searchDappId_mem {n : Nat} {start id : UInt32} (hstart : start ∈ idRange)
    (hid : s.searchDappId n start = some id) : id ∈ idRange := by
  obtain ⟨i, -, rfl⟩ := exists_idAt hstart 0
  rcases searchDappId_idAt (s := s) n (0 + i) with ⟨hnone, -⟩ | ⟨j, -, hsome, -⟩
  · rw [hnone] at hid
    cases hid
  · rw [hsome] at hid
    cases hid
    exact idAt_mem_idRange _

section NextDappId

variable (s : SubscriptionManager) (d f : UInt32)

@[simp] theorem dropRow_nextDappId : (s.dropRow d f).nextDappId = s.nextDappId := by
  unfold dropRow
  split <;> rfl

@[simp] theorem dropSubscriptionId_nextDappId :
    (s.dropSubscriptionId d f).nextDappId = s.nextDappId := by
  unfold dropSubscriptionId
  split <;> rfl

theorem sweep_nextDappId (l : List UInt32) (acc : SubscriptionManager × List Check) :
    (l.foldl (unregisterRound d) acc).1.nextDappId = acc.1.nextDappId := by
  induction l generalizing acc with
  | nil => rfl
  | cons f l ih =>
    rw [List.foldl_cons, ih]
    simp [unregisterRound, dropSubscriber]

/-- The counter moves on with every registration and rests otherwise. -/
theorem locked_nextDappId (c : Call) :
    (c.locked s).manager.nextDappId = s.nextDappId ∨
      ∃ id, s.searchDappId (MAX_DAPP_ID.toNat + 1) s.nextDappId = some id ∧
        (c.locked s).manager.nextDappId = cyclicNext id := by
  cases c with
  | registerDapp now =>
    simp only [Call.locked, registerDappLocked]
    split
    · exact Or.inl rfl
    · rename_i id hid
      exact Or.inr ⟨id, hid, rfl⟩
  | unregisterDapp order d =>
    left
    simp only [Call.locked, unregisterDappLocked]
    split
    · split
      · rfl
      · exact sweep_nextDappId d _ (s, [])
    · rfl
  | addSubscription d f =>
    left
    simp only [Call.locked, addSubscriptionLocked]
    split
    · split <;> rfl
    · rfl
  | removeSubscription d f =>
    left
    simp only [Call.locked, removeSubscriptionLocked]
    split
    · rfl
    · split
      · simp [dropSubscriber]
      · rfl
  | removeSubscriptionById d k =>
    left
    simp only [Call.locked, removeSubscriptionByIdLocked]
    split
    · rfl
    · split
      · rfl
      · simp [dropSubscriber]
  | clear => exact Or.inl rfl

end NextDappId

/-- A call registers at most the ID that the search finds. -/
theorem Indexed.locked_registered (h : s.Indexed) (c : Call) {d : UInt32}
    (hd : d ∈ (c.locked s).manager.registeredDapps) :
    d ∈ s.registeredDapps ∨ s.searchDappId (MAX_DAPP_ID.toNat + 1) s.nextDappId = some d := by
  have hmembers : d ∈ (s.indexes.after (s.changeOf c)).members := by
    rw [← locked_indexes h c]
    exact hd
  cases c with
  | registerDapp now =>
    simp only [changeOf] at hmembers
    split at hmembers
    · exact Or.inl hmembers
    · rename_i id hid
      rcases hmembers with rfl | hmembers
      · exact Or.inr hid
      · exact Or.inl hmembers
  | unregisterDapp order e =>
    simp only [changeOf] at hmembers
    split at hmembers
    · exact Or.inl hmembers.1
    · exact Or.inl hmembers
  | addSubscription e f =>
    simp only [changeOf] at hmembers
    split at hmembers <;> exact Or.inl hmembers
  | removeSubscription e f =>
    simp only [changeOf] at hmembers
    split at hmembers <;> exact Or.inl hmembers
  | removeSubscriptionById e k =>
    simp only [changeOf] at hmembers
    split at hmembers
    · exact Or.inl hmembers
    · split at hmembers <;> exact Or.inl hmembers
  | clear => exact absurd hmembers (Set.notMem_empty d)

theorem Numbered.locked (h : s.Numbered) (c : Call) : (c.locked s).manager.Numbered := by
  refine ⟨h.indexed.locked c, fun d hd => ?_, ?_⟩
  · rcases h.indexed.locked_registered c hd with hd | hd
    · exact h.registered d hd
    · exact searchDappId_mem h.next hd
  · rcases s.locked_nextDappId c with hrest | ⟨id, hid, hmove⟩
    · rw [hrest]
      exact h.next
    · rw [hmove]
      exact cyclicNext_mem_idRange (searchDappId_mem h.next hid)

theorem numbered_fresh (callback : Bool) :
    ({ smLifecycleCallback := callback } : SubscriptionManager).Numbered :=
  ⟨indexed_fresh callback, fun d hd => absurd hd (Finmap.notMem_empty),
    show (1 : UInt32) ∈ idRange from ⟨by decide, by decide⟩⟩

theorem numbered_final (callback : Bool) (calls : List Call) :
    (final Call.perform { smLifecycleCallback := callback } calls).Numbered :=
  final_induction (numbered_fresh callback) fun _ c _ h => h.locked c

/-! ### When the search fails -/

/-- The identifiers of the cycle, as a finite set. -/
def cycle : Finset UInt32 := (Finset.range 100).image idAt

theorem mem_cycle {k : UInt32} : k ∈ cycle ↔ k ∈ idRange := by
  unfold cycle
  rw [Finset.mem_image]
  constructor
  · rintro ⟨i, -, rfl⟩
    exact idAt_mem_idRange i
  · intro hk
    obtain ⟨j, hj, rfl⟩ := exists_idAt hk 0
    exact ⟨j, Finset.mem_range.mpr hj, by rw [Nat.zero_add]⟩

theorem card_cycle : cycle.card = 100 := by
  refine (Finset.card_image_of_injOn fun i hi j hj hij => ?_).trans (Finset.card_range 100)
  have hi := Finset.mem_range.mp hi
  have hj := Finset.mem_range.mp hj
  have htoNat := congrArg UInt32.toNat hij
  rw [idAt_toNat, idAt_toNat] at htoNat
  omega

/-- `register_dapp` finds an identifier exactly when fewer than a hundred dApps are registered. -/
theorem Numbered.searchDappId_isSome (h : s.Numbered) :
    (s.searchDappId (MAX_DAPP_ID.toNat + 1) s.nextDappId).isSome = true ↔ s.dappCount < 100 := by
  have hsub : s.registeredDapps.keys ⊆ cycle := fun d hd =>
    mem_cycle.mpr (h.registered d (Finmap.mem_keys.mp hd))
  obtain ⟨i, -, hi⟩ := exists_idAt h.next 0
  rw [← hi, dappCount]
  rcases searchDappId_idAt (s := s) (MAX_DAPP_ID.toNat + 1) (0 + i) with
    ⟨hnone, hall⟩ | ⟨j, -, hsome, hfree, -⟩
  · have hfull : cycle ⊆ s.registeredDapps.keys := fun d hd => by
      obtain ⟨j, hj, rfl⟩ := exists_idAt (mem_cycle.mp hd) (0 + i)
      exact Finmap.mem_keys.mpr (hall j (Nat.lt_succ_of_lt hj))
    have hcard := Finset.card_le_card hfull
    rw [card_cycle] at hcard
    rw [hnone]
    simp only [Option.isSome_none, Bool.false_eq_true, false_iff, not_lt]
    exact hcard
  · have hstrict : s.registeredDapps.keys ⊂ cycle := by
      refine Finset.ssubset_iff_subset_ne.mpr ⟨hsub, fun heq => hfree ?_⟩
      rw [← Finmap.mem_keys, heq, mem_cycle]
      exact idAt_mem_idRange _
    have hcard := Finset.card_lt_card hstrict
    rw [card_cycle] at hcard
    rw [hsome]
    simp only [Option.isSome_some, true_iff]
    exact hcard

/-- What a registration does: it takes a free identifier of the cycle, or it changes nothing. -/
theorem Numbered.registerDapp (h : s.Numbered) (now : Timestamp) :
    (s.dappCount < 100 ∧ ∃ id, id ∈ idRange ∧ id ∉ s.registeredDapps ∧
      (s.registerDapp now).2 = ⟨.success, id, []⟩ ∧ id ∈ (s.registerDapp now).1.registeredDapps) ∨
    (¬s.dappCount < 100 ∧ s.registerDapp now = (s, ⟨.internalError, 0, []⟩)) := by
  rw [← h.searchDappId_isSome]
  cases hid : s.searchDappId (MAX_DAPP_ID.toNat + 1) s.nextDappId with
  | none =>
    right
    refine ⟨by simp, ?_⟩
    simp only [SubscriptionManager.registerDapp, registerDappLocked, hid, Edit.finish,
      List.filterMap_nil]
  | some id =>
    left
    refine ⟨rfl, id, searchDappId_mem h.next hid, s.searchDappId_free hid, ?_, ?_⟩
    · simp only [SubscriptionManager.registerDapp, registerDappLocked, hid, Edit.finish,
        List.filterMap_nil]
    · simp only [SubscriptionManager.registerDapp, registerDappLocked, hid, Edit.finish]
      rw [Finmap.mem_insert]
      exact Or.inl rfl

/-- Where an ID is free a registration adds one dApp. -/
theorem Numbered.registerDapp_keys (h : s.Numbered) (now : Timestamp) (hfree : s.dappCount < 100) :
    ∃ id, id ∉ s.registeredDapps.keys ∧
      (s.registerDapp now).1.registeredDapps.keys = insert id s.registeredDapps.keys := by
  have hsome := h.searchDappId_isSome.mpr hfree
  obtain ⟨id, hid⟩ := Option.isSome_iff_exists.mp hsome
  refine ⟨id, fun hmem => s.searchDappId_free hid (Finmap.mem_keys.mp hmem), ?_⟩
  ext d
  simp only [SubscriptionManager.registerDapp, registerDappLocked, hid, Edit.finish,
    Finset.mem_insert, Finmap.mem_keys, Finmap.mem_insert]

theorem Numbered.registerDapp_of_full (h : s.Numbered) (now : Timestamp)
    (hfull : ¬s.dappCount < 100) : (s.registerDapp now).1 = s := by
  rcases h.registerDapp now with ⟨hfree, -⟩ | ⟨-, hsame⟩
  · exact absurd hfree hfull
  · rw [hsame]

theorem Numbered.registerDapp_dappCount (h : s.Numbered) (now : Timestamp) :
    (s.registerDapp now).1.dappCount =
      if s.dappCount < 100 then s.dappCount + 1 else s.dappCount := by
  split
  · rename_i hfree
    obtain ⟨id, hnew, hkeys⟩ := h.registerDapp_keys now hfree
    rw [dappCount, hkeys, Finset.card_insert_of_notMem hnew]
    rfl
  · rename_i hfull
    rw [h.registerDapp_of_full now hfull]

/-- Registrations fill one ID after the other. -/
theorem Numbered.dappCount_registrations (h : s.Numbered) (now : Timestamp) {n : Nat}
    (hn : s.dappCount + n ≤ 100) :
    (Transition.final Call.perform s (List.replicate n (.registerDapp now))).dappCount =
      s.dappCount + n := by
  induction n generalizing s with
  | zero => rfl
  | succ n ih =>
    have hcount := h.registerDapp_dappCount now
    rw [if_pos (by omega)] at hcount
    have hnext : (s.registerDapp now).1.Numbered := h.locked (.registerDapp now)
    rw [List.replicate_succ]
    show (Transition.final Call.perform (s.registerDapp now).1 _).dappCount = _
    rw [ih hnext (by omega), hcount]
    omega

/-! ### The loop as it is written -/

/-- The condition of the search loop of `register_dapp`. -/
def SearchesOn (s : SubscriptionManager) (assignedId attempts : UInt32) : Prop :=
  assignedId ∈ s.registeredDapps ∧ attempts ≤ MAX_DAPP_ID

/-- The loop, entered with `assignedId` and `attempts`, is left with the other two values. -/
inductive SearchEnds (s : SubscriptionManager) : UInt32 → UInt32 → UInt32 → UInt32 → Prop
  | leave {assignedId attempts : UInt32} : ¬s.SearchesOn assignedId attempts →
      SearchEnds s assignedId attempts assignedId attempts
  | round {assignedId attempts assignedId' attempts' : UInt32} :
      s.SearchesOn assignedId attempts →
      SearchEnds s (cyclicNext assignedId) (attempts + 1) assignedId' attempts' →
      SearchEnds s assignedId attempts assignedId' attempts'

/-- The loop ends, and the test after it says what the search says. -/
theorem searchEnds {n : Nat} (assignedId attempts : UInt32) (h : attempts.toNat + n = 101) :
    ∃ assignedId' attempts', s.SearchEnds assignedId attempts assignedId' attempts' ∧
      s.searchDappId n assignedId =
        if attempts' > MAX_DAPP_ID then none else some assignedId' := by
  have hmax : MAX_DAPP_ID.toNat = 100 := rfl
  induction n generalizing assignedId attempts with
  | zero =>
    have hout : MAX_DAPP_ID < attempts := by
      rw [UInt32.lt_iff_toNat_lt, hmax]
      omega
    refine ⟨assignedId, attempts, .leave fun hon => ?_, (if_pos hout).symm⟩
    exact absurd hout (UInt32.not_lt.mpr hon.2)
  | succ n ih =>
    have hin : attempts ≤ MAX_DAPP_ID := by
      rw [UInt32.le_iff_toNat_le, hmax]
      omega
    by_cases htaken : assignedId ∈ s.registeredDapps
    · have hattempts : (attempts + 1).toNat = attempts.toNat + 1 := by
        rw [UInt32.toNat_add]
        simp only [UInt32.reduceToNat]
        omega
      obtain ⟨assignedId', attempts', hends, hsearch⟩ :=
        ih (cyclicNext assignedId) (attempts + 1) (by omega)
      refine ⟨assignedId', attempts', .round ⟨htaken, hin⟩ hends, ?_⟩
      rw [searchDappId, if_pos htaken, hsearch]
    · refine ⟨assignedId, attempts, .leave fun hon => htaken hon.1, ?_⟩
      rw [searchDappId, if_neg htaken, if_neg (UInt32.not_lt.mpr hin)]

/-! ### The first free identifier -/

theorem iterate_cyclicNext_idAt (i j : Nat) : cyclicNext^[j] (idAt i) = idAt (i + j) := by
  induction j with
  | zero => rfl
  | succ j ih =>
    rw [Function.iterate_succ_apply', ih, cyclicNext_idAt]
    rfl

/-- Within one round the cycle does not come back. -/
theorem idAt_injective {i j j' : Nat} (hj : j < 100) (hj' : j' < 100)
    (h : idAt (i + j) = idAt (i + j')) : j = j' := by
  have htoNat := congrArg UInt32.toNat h
  rw [idAt_toNat, idAt_toNat] at htoNat
  omega

/-- Where fewer than a hundred dApps are registered, the search returns the first identifier from the
counter on that is free. -/
theorem Numbered.searchDappId_first (h : s.Numbered) (hfree : s.dappCount < 100) :
    ∃ j < 100, s.searchDappId (MAX_DAPP_ID.toNat + 1) s.nextDappId =
        some (cyclicNext^[j] s.nextDappId) ∧
      cyclicNext^[j] s.nextDappId ∉ s.registeredDapps ∧
      ∀ j' < j, cyclicNext^[j'] s.nextDappId ∈ s.registeredDapps := by
  have hsome := h.searchDappId_isSome.mpr hfree
  obtain ⟨i, -, hi⟩ := exists_idAt h.next 0
  rw [← hi] at hsome ⊢
  simp only [iterate_cyclicNext_idAt]
  rcases searchDappId_idAt (s := s) (MAX_DAPP_ID.toNat + 1) (0 + i) with
    ⟨hnone, -⟩ | ⟨j, hj, hsearch, hunused, hbefore⟩
  · rw [hnone] at hsome
    cases hsome
  · refine ⟨j, ?_, hsearch, hunused, hbefore⟩
    -- The identifier at position 100 is the one at position 0, which the search has seen before.
    by_contra hfar
    have hlast : j = 100 := by
      have hbound : j < 101 := hj
      omega
    have hfirst := hbefore 0 (by omega)
    rw [hlast] at hunused
    refine hunused ?_
    have hsame : idAt (0 + i + 100) = idAt (0 + i + 0) := by
      unfold idAt
      rw [Nat.add_mod_right]
      rfl
    rw [hsame]
    exact hfirst

/-- What a registration does that finds the identifier `id`. -/
def registered (s : SubscriptionManager) (id : UInt32) (now : Timestamp) : SubscriptionManager :=
  { s with
    registeredDapps := s.registeredDapps.insert id ⟨id, now⟩
    dappSubscriptions := s.dappSubscriptions.insert id ∅
    nextDappId := cyclicNext id }

theorem registerDapp_of_search {id : UInt32} (now : Timestamp)
    (h : s.searchDappId (MAX_DAPP_ID.toNat + 1) s.nextDappId = some id) :
    s.registerDapp now = (s.registered id now, ⟨.success, id, []⟩) := by
  simp only [SubscriptionManager.registerDapp, registerDappLocked, h, Edit.finish,
    List.filterMap_nil]
  rfl

/-- In a state that any calls lead to, the registered IDs and the counter lie between 1 and 100 and
the search loop ends.  `register_dapp` succeeds if and only if fewer than a hundred dApps are
registered.  It then takes the first free ID in cyclic order from the counter on, so no free ID that
another one precedes, adds a dApp with that ID and without subscriptions, and moves the counter behind
it.  Otherwise it returns `INTERNAL_ERROR` and 0 and changes nothing. -/
theorem register_dapp_takes_first_free (callback : Bool) (calls : List Call) (now : Timestamp) :
    let s := final Call.perform { smLifecycleCallback := callback } calls
    (∀ d, s.isDappRegistered d = true → 1 ≤ d ∧ d ≤ 100) ∧
    (1 ≤ s.nextDappId ∧ s.nextDappId ≤ 100) ∧
    (∃ assignedId attempts, s.SearchEnds s.nextDappId 0 assignedId attempts) ∧
    ((s.registerDapp now).2.code = .success ↔ s.dappCount < 100) ∧
    (s.dappCount < 100 → ∃ j < 100,
      let i := cyclicNext^[j] s.nextDappId
      i ∉ s.registeredDapps ∧ (∀ j' < j, cyclicNext^[j'] s.nextDappId ∈ s.registeredDapps) ∧
      s.registerDapp now = (s.registered i now, ⟨.success, i, []⟩) ∧
      (∀ order f, (s.registered i now).isSubscribed i f = false ∧
        i ∉ (s.registered i now).getSubscribedDapps order f) ∧
      ∀ k < 100, ∀ k' < k, cyclicNext^[k'] s.nextDappId ∉ s.registeredDapps →
        i ≠ cyclicNext^[k] s.nextDappId) ∧
    (¬s.dappCount < 100 → s.registerDapp now = (s, ⟨.internalError, 0, []⟩)) := by
  intro s
  have h : s.Numbered := numbered_final callback calls
  refine ⟨fun d hd => h.registered d (of_decide_eq_true hd), h.next, ?_, ?_, fun hfree => ?_,
    fun hfull => ?_⟩
  · obtain ⟨assignedId, attempts, hends, -⟩ := searchEnds (s := s) (n := 101) s.nextDappId 0 rfl
    exact ⟨assignedId, attempts, hends⟩
  · rcases h.registerDapp now with ⟨hfree, id, -, -, hresult, -⟩ | ⟨hfull, hsame⟩
    · rw [hresult]
      exact iff_of_true rfl hfree
    · rw [hsame]
      exact iff_of_false (show ErrorCode.internalError ≠ .success by decide) hfull
  · obtain ⟨j, hj, hsearch, hunused, hbefore⟩ := h.searchDappId_first hfree
    have hresult := registerDapp_of_search now hsearch
    have hindexed : (s.registered (cyclicNext^[j] s.nextDappId) now).Indexed := by
      have hlocked := h.indexed.locked (.registerDapp now)
      rwa [show (Call.locked s (.registerDapp now)).manager = _ from congrArg Prod.fst hresult]
        at hlocked
    have hempty : (s.registered (cyclicNext^[j] s.nextDappId) now).subsOf
        (cyclicNext^[j] s.nextDappId) = ∅ := by
      rw [subsOf, registered, UnorderedMap.getD_insert, if_pos rfl]
    refine ⟨j, hj, hunused, hbefore, hresult, fun order f => ⟨?_, ?_⟩, fun k hk k' hk' hfree' => ?_⟩
    · rw [← Bool.not_eq_true, isSubscribed_iff, hempty]
      exact Finset.notMem_empty f
    · rw [mem_getSubscribedDapps, ← hindexed.agree, hempty]
      exact Finset.notMem_empty f
    · -- The free identifier at position `k'` bounds the one that is found.
      have hle : j ≤ k' := by
        by_contra hlt
        exact hfree' (hbefore k' (by omega))
      obtain ⟨i, -, hi⟩ := exists_idAt h.next 0
      rw [← hi, iterate_cyclicNext_idAt, iterate_cyclicNext_idAt]
      intro heq
      have hsame := idAt_injective hj hk heq
      omega
  · rcases h.registerDapp now with ⟨hfree, -⟩ | ⟨-, hsame⟩
    · exact absurd hfree hfull
    · exact hsame

/-- All hundred IDs are taken and the last is released: the one gap lies just behind the counter. -/
def oneGap : List Call :=
  List.replicate 100 (.registerDapp 0) ++ [.unregisterDapp (.ascending UInt32) 100]

/-- The search takes the gap after a whole round. -/
theorem register_dapp_takes_last_gap :
    (final Call.perform {} oneGap).nextDappId = 1 ∧
    (final Call.perform {} oneGap).dappCount < 100 ∧
    ∃ j < 100, ((final Call.perform {} oneGap).registerDapp 0).2 =
      ⟨.success, cyclicNext^[j] (final Call.perform {} oneGap).nextDappId, []⟩ := by
  have hgap : (final Call.perform {} oneGap).nextDappId = 1 ∧
      (final Call.perform {} oneGap).dappCount < 100 := by decide +kernel
  obtain ⟨-, -, -, -, hfree, -⟩ := register_dapp_takes_first_free false oneGap 0
  obtain ⟨j, hj, -, -, hresult, -⟩ := hfree hgap.2
  exact ⟨hgap.1, hgap.2, j, hj, congrArg Prod.snd hresult⟩

end SubscriptionManager

end LibE3
