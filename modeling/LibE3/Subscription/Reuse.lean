import LibE3.Subscription.Registration

/-! How long an identifier stays out of use.  A message that names a dApp or a subscription by an ID
can arrive after the ID was given up; what it then reaches depends on when the ID is handed out
again. -/

namespace LibE3

namespace SubscriptionManager

open Transition

variable {s : SubscriptionManager}

/-! ### IDs of dApps -/

/-- Only a registration moves the counter. -/
theorem perform_nextDappId {c : Call} (hc : ∀ now, c ≠ .registerDapp now) :
    (c.perform s).1.nextDappId = s.nextDappId := by
  cases c with
  | registerDapp now => exact absurd rfl (hc now)
  | unregisterDapp order d =>
    simp only [Call.perform, Edit.finish, Call.locked, unregisterDappLocked]
    split
    · split
      · rfl
      · exact sweep_nextDappId d _ (s, [])
    · rfl
  | addSubscription d f =>
    simp only [Call.perform, Edit.finish, Call.locked, addSubscriptionLocked]
    split
    · split <;> rfl
    · rfl
  | removeSubscription d f =>
    simp only [Call.perform, Edit.finish, Call.locked, removeSubscriptionLocked]
    split
    · rfl
    · split
      · simp [dropSubscriber]
      · rfl
  | removeSubscriptionById d k =>
    simp only [Call.perform, Edit.finish, Call.locked, removeSubscriptionByIdLocked]
    split
    · rfl
    · split
      · rfl
      · simp [dropSubscriber]
  | clear => rfl

/-- The IDs that the search loop of `register_dapp` tests, as `searchDappId` does: it passes over those
that are taken and hands out the first that is not. -/
def searchedIds (s : SubscriptionManager) : Nat → UInt32 → List UInt32
  | 0, _ => []
  | remaining + 1, assigned =>
    assigned :: if assigned ∈ s.registeredDapps then s.searchedIds remaining (cyclicNext assigned) else []

/-- A registration in state `s` comes to the ID: it hands it out or passes over it. -/
def Visits (s : SubscriptionManager) (id : UInt32) : Prop :=
  id ∈ s.searchedIds (MAX_DAPP_ID.toNat + 1) s.nextDappId

/-- The search tests the positions from its start on up to the first that is free. -/
theorem mem_searchedIds {n j : Nat} {p : Nat} (hj : j < n)
    (htaken : ∀ i < j, idAt (p + i) ∈ s.registeredDapps) {i : Nat} (hi : i ≤ j) :
    idAt (p + i) ∈ s.searchedIds n (idAt p) := by
  induction n generalizing p j i with
  | zero => omega
  | succ n ih =>
    cases i with
    | zero => exact List.mem_cons_self
    | succ i =>
      have hfirst : idAt p ∈ s.registeredDapps := htaken 0 (by omega)
      refine List.mem_cons_of_mem _ ?_
      rw [if_pos hfirst, cyclicNext_idAt, show p + (i + 1) = p + 1 + i by omega]
      refine ih (j := j - 1) (by omega) (fun k hk => ?_) (by omega)
      rw [show p + 1 + k = p + (k + 1) by omega]
      exact htaken (k + 1) (by omega)

/-- One of the registrations of a run from `s` visits the ID. -/
def Visited (s : SubscriptionManager) (calls : List Call) (id : UInt32) : Prop :=
  ∃ before now after, calls = before ++ .registerDapp now :: after ∧
    (final Call.perform s before).Visits id

theorem Visited.append {calls : List Call} {id : UInt32} (h : s.Visited calls id)
    (later : List Call) : s.Visited (calls ++ later) id := by
  obtain ⟨before, now, after, rfl, hvisits⟩ := h
  exact ⟨before, now, after ++ later, by simp, hvisits⟩

/-- A registration visits the positions of the cycle from the counter on, up to the ID that it hands
out, and leaves the counter behind it. -/
theorem registerDapp_visits {p : Nat} (hp : s.nextDappId = idAt p) (now : Timestamp) :
    ∃ q, p ≤ q ∧ (s.registerDapp now).1.nextDappId = idAt q ∧
      (∀ r, p ≤ r → r < q → s.Visits (idAt r)) ∧
      ((s.registerDapp now).2.code = .success →
        p < q ∧ (s.registerDapp now).2.id = idAt (q - 1) ∧
        ∀ r, p ≤ r → r < q - 1 → idAt r ∈ s.registeredDapps) := by
  rcases searchDappId_idAt (s := s) (MAX_DAPP_ID.toNat + 1) p with
    ⟨hnone, -⟩ | ⟨j, hj, hsome, -, hbefore⟩
  · have hfail : s.registerDapp now = (s, ⟨.internalError, 0, []⟩) := by
      simp [SubscriptionManager.registerDapp, registerDappLocked, hp, hnone, Edit.finish]
    refine ⟨p, le_rfl, by rw [hfail, hp], fun r hle hlt => absurd hlt (by omega), fun hcode => ?_⟩
    rw [hfail] at hcode
    cases hcode
  · have hresult := registerDapp_of_search now (hp ▸ hsome)
    refine ⟨p + j + 1, by omega, ?_, fun r hle hlt => ?_, fun _ => ⟨by omega, ?_, fun r hle hlt => ?_⟩⟩
    · rw [hresult]
      exact cyclicNext_idAt (p + j)
    · have hvisits := mem_searchedIds hj hbefore (show r - p ≤ j by omega)
      rwa [show p + (r - p) = r by omega, ← hp] at hvisits
    · rw [hresult]
      rfl
    · have hr := hbefore (r - p) (by omega)
      rwa [show p + (r - p) = r by omega] at hr

/-- Along a run the counter moves forward over positions that the registrations have visited. -/
theorem counter_visits {p : Nat} (hp : s.nextDappId = idAt p) (calls : List Call) :
    ∃ q, p ≤ q ∧ (final Call.perform s calls).nextDappId = idAt q ∧
      ∀ r, p ≤ r → r < q → s.Visited calls (idAt r) := by
  -- The run grows at its end: what the earlier calls have visited stays visited.
  induction calls using List.reverseRecOn with
  | nil => exact ⟨p, le_rfl, hp, fun r hle hlt => absurd hlt (by omega)⟩
  | append_singleton calls c ih =>
    obtain ⟨q, hpq, hq, hvisited⟩ := ih
    rw [final_concat]
    cases c with
    | registerDapp now =>
      obtain ⟨q', hqq', hq', hvisits, -⟩ := registerDapp_visits hq now
      refine ⟨q', by omega, hq', fun r hle hlt => ?_⟩
      rcases Nat.lt_or_ge r q with hr | hr
      · exact (hvisited r hle hr).append _
      · exact ⟨calls, now, [], rfl, hvisits r hr hlt⟩
    | unregisterDapp order d | addSubscription d f | removeSubscription d f
    | removeSubscriptionById d k | clear =>
      refine ⟨q, hpq, ?_, fun r hle hlt => (hvisited r hle hlt).append _⟩
      rw [perform_nextDappId (fun _ h => by cases h), hq]

/-- A dApp ID comes back only after a whole round.  In every run, with any calls before and between: if
two registrations return the same ID, then a registration between them came to each of the other 99 IDs,
to hand it out or to pass over it, or the second found it taken and passed over it. -/
theorem dapp_id_reused_after_round (callback : Bool) (before between : List Call)
    (now now' : Timestamp) (id : UInt32) :
    let s := final Call.perform { smLifecycleCallback := callback } before
    let s' := final Call.perform (s.registerDapp now).1 between
    (s.registerDapp now).2.code = .success → (s.registerDapp now).2.id = id →
    (s'.registerDapp now').2.code = .success → (s'.registerDapp now').2.id = id →
    ∀ other, 1 ≤ other → other ≤ 100 → other ≠ id →
      (s.registerDapp now).1.Visited between other ∨ s'.Visits other ∧ other ∈ s'.registeredDapps := by
  intro s s' hcode hid hcode' hid' other hlow hhigh hne
  obtain ⟨i, -, hi⟩ := exists_idAt (numbered_final callback before).next 0
  obtain ⟨p, -, hp, -, hfirst⟩ := registerDapp_visits hi.symm now
  obtain ⟨hip, hidp, -⟩ := hfirst hcode
  obtain ⟨q, hpq, hq, hvisited⟩ := counter_visits hp between
  obtain ⟨q', hqq', -, hvisits, hsecond⟩ := registerDapp_visits hq now'
  obtain ⟨hlt, hidq, htaken⟩ := hsecond hcode'
  -- The two positions of the ID are a multiple of the cycle apart, so at least one round.
  have hround : p - 1 + 100 ≤ q' - 1 := by
    have hsame := congrArg UInt32.toNat (hidp.symm.trans (hid.trans (hid'.symm.trans hidq)))
    rw [idAt_toNat, idAt_toNat] at hsame
    omega
  obtain ⟨j, hj, hother⟩ := exists_idAt (k := other) ⟨hlow, hhigh⟩ p
  have hj' : j ≠ 99 := by
    rintro rfl
    refine hne ?_
    rw [← hother, ← hid, hidp]
    apply UInt32.toNat_inj.mp
    rw [idAt_toNat, idAt_toNat]
    omega
  rw [← hother]
  rcases Nat.lt_or_ge (p + j) q with hr | hr
  · exact .inl (hvisited (p + j) (by omega) hr)
  · exact .inr ⟨hvisits (p + j) hr (by omega), htaken (p + j) hr (by omega)⟩

/-- A hundred dApps come and go, one at a time. -/
def comings : List Call :=
  (List.range 99).flatMap (fun i =>
    [.unregisterDapp (.ascending UInt32) (idAt i), .registerDapp 0]) ++
    [.unregisterDapp (.ascending UInt32) 100]

/-- The ID 1 comes back after the other 99. -/
theorem dapp_id_reused_comings :
    ((final Call.perform (SubscriptionManager.registerDapp {} 0).1 comings).registerDapp 0).2.id = 1 ∧
    (SubscriptionManager.registerDapp {} 0).1.Visited comings 57 := by
  have hfacts : (SubscriptionManager.registerDapp {} 0).2 = ⟨.success, 1, []⟩ ∧
      ((final Call.perform (SubscriptionManager.registerDapp {} 0).1 comings).registerDapp 0).2 =
        ⟨.success, 1, []⟩ ∧
      57 ∉ (final Call.perform (SubscriptionManager.registerDapp {} 0).1 comings).registeredDapps := by
    decide +kernel
  obtain ⟨hfirst, hsecond, hfree⟩ := hfacts
  have hvisited := dapp_id_reused_after_round false [] comings 0 0 1 (congrArg Outcome.code hfirst)
    (congrArg Outcome.id hfirst) (congrArg Outcome.code hsecond) (congrArg Outcome.id hsecond) 57
    (by decide) (by decide) (by decide)
  simp only [final] at hvisited
  have hvisited := hvisited.resolve_right (not_and_of_not_right _ hfree)
  exact ⟨congrArg Outcome.id hsecond, hvisited⟩

/-! ### IDs of subscriptions -/

/-- The entry of a call that made a subscription. -/
def created : Call × Outcome → Bool
  | (.addSubscription _ _, outcome) => outcome.code == .success
  | _ => false

theorem issuedBy_isSome (s : SubscriptionManager) (c : Call) :
    (s.issuedBy c).isSome = created (c, (c.perform s).2) := by
  cases c with
  | addSubscription d f =>
    rw [Bool.eq_iff_iff, created, beq_iff_eq]
    refine Iff.trans ?_ addSubscriptionLocked_success.symm
    simp [issuedBy]
  | _ => rfl

/-- The counter has moved on once for every subscription made. -/
theorem counter_creations {p : Nat} (hp : s.nextSubscriptionId = idAt p) (calls : List Call) :
    (final Call.perform s calls).nextSubscriptionId =
      idAt (p + (history Call.perform s calls).countP created) := by
  refine run_induction
    (P := fun (t : SubscriptionManager) past => t.nextSubscriptionId = idAt (p + past.countP created))
    hp fun t past c _ ht => ?_
  have hsettings : (c.perform t).1.nextSubscriptionId = _ :=
    congrArg Prod.snd (t.locked_settings c)
  rw [hsettings, issuedBy_isSome, List.countP_append, List.countP_singleton, ← Nat.add_assoc, ht]
  dsimp only
  split
  · exact cyclicNext_idAt _
  · rfl

/-- In every run, `clear` included, two calls that make a subscription return the same ID if and only if
the number of subscriptions made after the first, up to and with the second, is a multiple of a hundred:
whether the first is still there plays no part. -/
theorem subscription_id_repeats_iff (callback : Bool) (before between : List Call)
    (d f d' f' : UInt32) :
    let s := final Call.perform { smLifecycleCallback := callback } before
    let t := (s.addSubscription d f).1
    let s' := final Call.perform t between
    (s.addSubscription d f).2.code = .success → (s'.addSubscription d' f').2.code = .success →
      ((s'.addSubscription d' f').2.id = (s.addSubscription d f).2.id ↔
        100 ∣ (history Call.perform t between).countP created + 1) := by
  intro s t s' hcode hcode'
  have hrange : s.nextSubscriptionId ∈ idRange :=
    final_induction (P := fun s : SubscriptionManager => s.nextSubscriptionId ∈ idRange)
      (show (1 : UInt32) ∈ idRange from ⟨by decide, by decide⟩)
      fun _ c _ h => locked_nextSubscriptionId h c
  obtain ⟨p, -, hp⟩ := exists_idAt hrange 0
  have hid : (s.addSubscription d f).2.id = idAt (0 + p) :=
    (addSubscriptionLocked_id hcode).trans hp.symm
  have ht : t.nextSubscriptionId = idAt (0 + p + 1) := by
    have hone := counter_creations hp.symm [.addSubscription d f]
    have hcreated : created (.addSubscription d f, (Call.perform s (.addSubscription d f)).2) = true :=
      beq_iff_eq.mpr hcode
    rwa [history, history, List.countP_singleton, if_pos hcreated] at hone
  have hid' : (s'.addSubscription d' f').2.id = _ :=
    (addSubscriptionLocked_id hcode').trans (counter_creations ht between)
  rw [hid, hid', ← UInt32.toNat_inj, idAt_toNat, idAt_toNat]
  omega

/-- The subscriptions of one dApp to the functions 1 to 99. -/
def ninetyNine : List Call := (List.range 99).map fun i => .addSubscription 1 (.ofNat (i + 1))

/-- The subscriptions to the functions 0 and 100, with 99 others between them, have one ID. -/
theorem subscription_id_repeats_ninetyNine :
    ((final Call.perform
        ((final Call.perform {} [.registerDapp 0]).addSubscription 1 0).1 ninetyNine).addSubscription
          1 100).2.id =
      ((final Call.perform {} [.registerDapp 0]).addSubscription 1 0).2.id := by
  have hfacts : ((final Call.perform {} [.registerDapp 0]).addSubscription 1 0).2.code = .success ∧
      ((final Call.perform
        ((final Call.perform {} [.registerDapp 0]).addSubscription 1 0).1 ninetyNine).addSubscription
          1 100).2.code = .success ∧
      (history Call.perform
        ((final Call.perform {} [.registerDapp 0]).addSubscription 1 0).1 ninetyNine).countP created =
          99 := by decide +kernel
  obtain ⟨hcode, hcode', hcount⟩ := hfacts
  refine (subscription_id_repeats_iff false [.registerDapp 0] ninetyNine 1 0 1 100 hcode hcode').mpr ?_
  exact ⟨1, congrArg (· + 1) hcount⟩

end SubscriptionManager

end LibE3
