import LibE3.Interface.Protocol
import LibE3.Interface.Setup

/-! Who provides a RAN function.  `register_sm_factory` refuses a function that has a model or a
factory, while `register_sm` looks for a model only.  So a function can have both, and is then listed
twice and outlives its `unregister_sm`, exactly when a model is registered where there is a factory. -/

namespace LibE3

open Transition

namespace SmRegistry

/-- No RAN function has both a model and a factory. -/
def Exclusive (r : SmRegistry) : Prop := ∀ f, f ∈ r.sms → f ∉ r.factories

/-! ### What the registry lists -/

section Listing

variable {r : SmRegistry}

theorem mem_getAvailableRanFunctions {f : UInt32} :
    f ∈ r.getAvailableRanFunctions ↔ f ∈ r.sms ∨ f ∈ r.factories := by
  rw [getAvailableRanFunctions, ← Multiset.mem_coe, coe_ascendingList, Multiset.mem_add,
    Finset.mem_val, Finset.mem_val, Finmap.mem_keys]

theorem nodup_getAvailableRanFunctions : r.getAvailableRanFunctions.Nodup ↔ r.Exclusive := by
  rw [getAvailableRanFunctions, ← Multiset.coe_nodup, coe_ascendingList, Multiset.nodup_add]
  constructor
  · rintro ⟨-, -, hdisjoint⟩ f hsms hfactory
    exact Multiset.disjoint_left.mp hdisjoint (Finmap.mem_keys.mpr hsms) hfactory
  · intro hexclusive
    refine ⟨r.sms.keys.nodup, r.factories.nodup, Multiset.disjoint_left.mpr fun hsms hfactory => ?_⟩
    exact hexclusive _ (Finmap.mem_keys.mp hsms) hfactory

/-- The list is sorted, so it increases strictly as soon as nothing stands twice. -/
theorem increasing_getAvailableRanFunctions :
    r.getAvailableRanFunctions.Pairwise (· < ·) ↔ r.Exclusive := by
  rw [← nodup_getAvailableRanFunctions]
  constructor
  · intro hincreasing
    refine hincreasing.imp fun {a b} hlt heq => ?_
    rw [heq] at hlt
    exact UInt32.lt_irrefl b hlt
  · intro hnodup
    refine ((pairwise_ascendingList _).and hnodup).imp fun hboth => ?_
    exact UInt32.lt_of_le_of_ne hboth.1 hboth.2

/-- A setup response has one entry for every RAN function that is listed. -/
theorem identifiers_buildRanFunctionList (create : UInt32 → Option ServiceModel) (r : SmRegistry)
    (ids : List UInt32) :
    (buildRanFunctionList create r ids).2.map (·.ranFunctionIdentifier) = ids := by
  induction ids generalizing r with
  | nil => rfl
  | cons id ids ih =>
    simp only [buildRanFunctionList, List.map_cons, ih]
    cases (r.getByRanFunction create id).2 <;> rfl

end Listing

/-- What it means that every RAN function has one provider. -/
structure OneProvider (r : SmRegistry) : Prop where
  exclusive : ∀ f, ¬(f ∈ r.sms ∧ f ∈ r.factories)
  increasing : r.getAvailableRanFunctions.Pairwise (· < ·)
  advertised : ∀ create, ((r.advertised create).map (·.ranFunctionIdentifier)).Nodup
  unregistered : ∀ f, (r.unregisterSm f).2 = .success →
    f ∉ (r.unregisterSm f).1.getAvailableRanFunctions

theorem Exclusive.unregisterSm {r : SmRegistry} (h : r.Exclusive) {f : UInt32}
    (hcode : (r.unregisterSm f).2 = .success) :
    f ∉ (r.unregisterSm f).1.getAvailableRanFunctions := by
  rw [mem_getAvailableRanFunctions]
  unfold SmRegistry.unregisterSm at hcode ⊢
  cases hlookup : r.sms.lookup f with
  | some sm =>
    have hfactory := h f (Finmap.mem_of_lookup_eq_some hlookup)
    simp [hfactory]
  | none =>
    have hsms : f ∉ r.sms := Finmap.lookup_eq_none.mp hlookup
    by_cases hfactory : f ∈ r.factories
    · simp [hfactory, hsms]
    · simp [hlookup, hfactory] at hcode

theorem oneProvider_iff_exclusive {r : SmRegistry} : r.OneProvider ↔ r.Exclusive := by
  constructor
  · intro h f hsms hfactory
    exact h.exclusive f ⟨hsms, hfactory⟩
  · intro h
    refine ⟨fun f hboth => h f hboth.1 hboth.2, increasing_getAvailableRanFunctions.mpr h,
      fun create => ?_, fun f => h.unregisterSm⟩
    rw [advertised, identifiers_buildRanFunctionList]
    exact nodup_getAvailableRanFunctions.mpr h

/-! ### Which runs keep one provider -/

/-- The call is not a `register_sm` that succeeds where there is a factory. -/
def AvoidsFactories (r : SmRegistry) : SmOperation → Prop
  | .registerSm (some sm) => sm.val.ranFunctionId ∉ r.sms → sm.val.initResult = .success →
      sm.val.ranFunctionId ∉ r.factories
  | _ => True

section Steps

variable {r : SmRegistry}

theorem Exclusive.of_subset {r' : SmRegistry} (h : r.Exclusive) (hsms : ∀ f, f ∈ r'.sms → f ∈ r.sms)
    (hfactories : ∀ f, f ∈ r'.factories → f ∈ r.factories) : r'.Exclusive :=
  fun f hf hfactory => h f (hsms f hf) (hfactories f hfactory)

/-- A model that is replaced under its own key. -/
theorem mem_insert_of_lookup {f g : UInt32} {sm sm' : ServiceModel}
    (h : r.sms.lookup f = some sm) (hg : g ∈ r.sms.insert f sm') : g ∈ r.sms := by
  rcases Finmap.mem_insert.mp hg with rfl | hg
  · exact Finmap.mem_of_lookup_eq_some h
  · exact hg

theorem Exclusive.registerSm (h : r.Exclusive) {offer : Option NewModel}
    (hop : r.AvoidsFactories (.registerSm offer)) : (r.perform (.registerSm offer)).1.Exclusive := by
  cases offer with
  | none => exact h
  | some sm =>
    simp only [perform, Option.map_some]
    by_cases htaken : sm.val.ranFunctionId ∈ r.sms
    · rw [registerSm_of_taken htaken]
      exact h
    by_cases hinit : sm.val.initResult = .success
    · rw [registerSm_of_free htaken hinit]
      intro f hf hfactory
      rcases Finmap.mem_insert.mp hf with rfl | hf
      · exact hop htaken hinit hfactory
      · exact h f hf hfactory
    · rw [registerSm_of_failed htaken hinit]
      exact h

theorem Exclusive.getByRanFunction (h : r.Exclusive) (create : UInt32 → Option NewModel)
    (f : UInt32) : (r.perform (.getByRanFunction create f)).1.Exclusive := by
  simp only [perform, SmRegistry.getByRanFunction]
  split
  · exact h
  · split
    · split
      · exact h
      · split
        · -- The factory goes when its model comes.
          intro g hg hfactory
          rw [Finset.mem_erase] at hfactory
          rcases Finmap.mem_insert.mp hg with rfl | hg
          · exact hfactory.1 rfl
          · exact h g hg hfactory.2
        · exact h
    · exact h

theorem Exclusive.perform (h : r.Exclusive) {op : SmOperation} (hop : r.AvoidsFactories op) :
    (r.perform op).1.Exclusive := by
  cases op with
  | registerSm offer => exact h.registerSm hop
  | registerSmFactory f callable =>
    simp only [SmRegistry.perform, registerSmFactory, Prod.map_fst]
    split
    · exact h
    · split
      · exact h
      · rename_i hfree
        intro g hg hfactory
        rcases Finset.mem_insert.mp hfactory with rfl | hfactory
        · exact hfree (Or.inl hg)
        · exact h g hg hfactory
  | unregisterSm f =>
    simp only [SmRegistry.perform, SmRegistry.unregisterSm, Prod.map_fst]
    split
    · exact h.of_subset (fun g hg => (Finmap.mem_erase.mp hg).2) fun _ hg => hg
    · split
      · exact h.of_subset (fun _ hg => hg) fun g hg => Finset.mem_of_mem_erase hg
      · exact h
  | getByRanFunction create f => exact h.getByRanFunction create f
  | startSm result f =>
    simp only [SmRegistry.perform, startSm, Prod.map_fst]
    split
    · exact h
    · rename_i sm hlookup
      split
      · exact h
      · exact h.of_subset (fun g hg => mem_insert_of_lookup hlookup hg) fun _ hg => hg
  | stopSm f =>
    simp only [SmRegistry.perform, stopSm, Prod.map_fst]
    split
    · exact h
    · rename_i sm hlookup
      split
      · exact h
      · exact h.of_subset (fun g hg => mem_insert_of_lookup hlookup hg) fun _ hg => hg
  | clear order => exact fun _ hf => absurd hf Finmap.notMem_empty

/-- A model that is registered where there is a factory has company. -/
theorem avoidsFactories_of_exclusive {op : SmOperation} (h : (r.perform op).1.Exclusive) :
    r.AvoidsFactories op := by
  cases op with
  | registerSm offer =>
    cases offer with
    | none => trivial
    | some sm =>
      intro hnew hinit
      simp only [SmRegistry.perform, Option.map_some, registerSm_of_free hnew hinit] at h
      exact h sm.val.ranFunctionId (Finmap.mem_insert.mpr (Or.inl rfl))
  | _ => trivial

end Steps

/-- In every state of a run every RAN function has one provider, if and only if no `register_sm` of
the run succeeds for a function that has a factory. -/
theorem one_provider_iff (ops : List SmOperation) :
    (∀ before, before <+: ops → (after before).OneProvider) ↔
      ∀ before op rest, ops = before ++ op :: rest → (after before).AvoidsFactories op := by
  simp only [oneProvider_iff_exclusive]
  refine always_iff (P := Exclusive) (fun r op h => ?_) ?_ ops
  · exact ⟨avoidsFactories_of_exclusive, h.perform⟩
  · exact fun f hf => absurd hf Finmap.notMem_empty

/-- A factory and then a model for RAN function 7: the function is listed and advertised twice, and a
successful `unregister_sm` leaves it available. -/
theorem two_providers :
    let r := after [.registerSmFactory 7 true, .registerSm (some firstModel)]
    r.getAvailableRanFunctions = [7, 7] ∧
    (r.advertised fun _ => none).map (·.ranFunctionIdentifier) = [7, 7] ∧
    (r.unregisterSm 7).2 = .success ∧ (r.unregisterSm 7).1.getAvailableRanFunctions = [7] ∧
    ¬r.OneProvider := by
  intro r
  refine ⟨by decide +kernel, by decide +kernel, by decide +kernel, by decide +kernel, fun h => ?_⟩
  have hincreasing := h.increasing
  rw [show r.getAvailableRanFunctions = [7, 7] by decide +kernel] at hincreasing
  exact absurd hincreasing (by decide)

end SmRegistry

end LibE3
