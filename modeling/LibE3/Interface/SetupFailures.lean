import LibE3.Asn1.Lengths
import LibE3.Interface.Setup

/-! When the setup procedure goes wrong.  `handle_setup_request` registers the dApp first and encodes
and sends its answer afterwards; where one of these fails the dApp stays registered, and every
unanswered request takes one more of the hundred IDs.  And a service model that the registry accepts
may be one that the schema cannot express, which leaves every later request without an answer. -/

namespace LibE3

open Transition SubscriptionManager

/-! ### What an unanswered request leaves -/

/-- A handling of a setup request, with what it meets: the encoder, the state of the registry and the
result of `send_response`. -/
structure SetupAttempt where
  encoder : E3Encoder
  config : E3Config
  env : Surroundings
  registry : SmRegistry
  request : SetupRequest
  requestMessageId : UInt32
  sendResult : ErrorCode

namespace SetupAttempt

variable (a : SetupAttempt) (manager : SubscriptionManager)

def handle : SetupOutcome :=
  handleSetupRequest a.encoder a.config a.env manager a.registry a.request a.requestMessageId

/-- What `encode_setup_response` returns. -/
def encoded : Except ErrorCode EncodedMessage :=
  a.encoder.encode
    (setupReply a.config a.env a.registry (manager.registerDapp a.env.now).2 a.requestMessageId)

/-- The manager after the handling, and whether a response was sent. -/
def perform : SubscriptionManager × Bool :=
  ((a.handle manager).manager,
    !(a.handle manager).sent.isEmpty && decide (a.sendResult = .success))

end SetupAttempt

namespace SetupAttempt

variable {a : SetupAttempt} {manager : SubscriptionManager}

theorem perform_manager : (a.perform manager).1 = (manager.registerDapp a.env.now).1 := rfl

theorem numbered_perform (h : manager.Numbered) : (a.perform manager).1.Numbered :=
  h.locked (.registerDapp a.env.now)

theorem responded_iff :
    (a.perform manager).2 = true ↔
      (∃ message, a.encoded manager = .ok message) ∧ a.sendResult = .success := by
  have hsent : (a.handle manager).sent.isEmpty = false ↔
      ∃ message, a.encoded manager = .ok message := by
    cases hencoded : a.encoded manager with
    | error code =>
      unfold encoded at hencoded
      simp [handle, handleSetupRequest, hencoded]
    | ok message =>
      unfold encoded at hencoded
      simp [handle, handleSetupRequest, hencoded]
  unfold perform
  rw [Bool.and_eq_true, Bool.not_eq_true', decide_eq_true_iff, hsent]

/-- A handling keeps the set of registered dApps exactly when no ID is free. -/
theorem perform_keys (h : manager.Numbered) :
    (a.perform manager).1.registeredDapps.keys = manager.registeredDapps.keys ↔
      ¬manager.dappCount < 100 := by
  rw [perform_manager]
  constructor
  · intro hsame hfree
    obtain ⟨id, hnew, hkeys⟩ := h.registerDapp_keys a.env.now hfree
    rw [← hsame, hkeys] at hnew
    exact hnew (Finset.mem_insert_self id _)
  · intro hfull
    rw [h.registerDapp_of_full a.env.now hfull]

theorem perform_dappCount (h : manager.Numbered) :
    (a.perform manager).1.dappCount =
      if manager.dappCount < 100 then manager.dappCount + 1 else manager.dappCount := by
  rw [perform_manager]
  exact h.registerDapp_dappCount a.env.now

end SetupAttempt

/-- A sequence of handlings, whatever their outcomes, fills one ID after the other. -/
theorem dappCount_attempts (attempts : List SetupAttempt) {manager : SubscriptionManager}
    (h : manager.Numbered) :
    (final (fun s (a : SetupAttempt) => a.perform s) manager attempts).dappCount =
      max manager.dappCount (min 100 (manager.dappCount + attempts.length)) := by
  induction attempts generalizing manager with
  | nil =>
    show manager.dappCount = max manager.dappCount (min 100 (manager.dappCount + 0))
    omega
  | cons a attempts ih =>
    have hcount := SetupAttempt.perform_dappCount (a := a) h
    show (final _ (a.perform manager).1 attempts).dappCount = _
    rw [ih (SetupAttempt.numbered_perform h), hcount, List.length_cons]
    split <;> omega

/-- Registered dApps stay registered through a sequence of handlings. -/
theorem keys_subset_attempts (attempts : List SetupAttempt) {manager : SubscriptionManager}
    (h : manager.Numbered) :
    manager.registeredDapps.keys ⊆
      (final (fun s (a : SetupAttempt) => a.perform s) manager attempts).registeredDapps.keys := by
  induction attempts generalizing manager with
  | nil => exact Finset.Subset.refl _
  | cons a attempts ih =>
    refine Finset.Subset.trans ?_ (ih (SetupAttempt.numbered_perform h))
    by_cases hfree : manager.dappCount < 100
    · obtain ⟨id, -, hkeys⟩ := h.registerDapp_keys a.env.now hfree
      rw [SetupAttempt.perform_manager, hkeys]
      exact Finset.subset_insert id _
    · rw [SetupAttempt.perform_keys h |>.mpr hfree]

/-- A sequence of handlings keeps the set of registered dApps exactly when it is empty or no ID is
free. -/
theorem keys_attempts (attempts : List SetupAttempt) {manager : SubscriptionManager}
    (h : manager.Numbered) :
    (final (fun s (a : SetupAttempt) => a.perform s) manager attempts).registeredDapps.keys =
        manager.registeredDapps.keys ↔
      attempts = [] ∨ ¬manager.dappCount < 100 := by
  have hcount := dappCount_attempts attempts h
  constructor
  · intro hsame
    by_contra hcon
    obtain ⟨hne, hfree⟩ := not_or.mp hcon
    have hlength := List.length_pos_iff.mpr hne
    have hcard : (final (fun s (a : SetupAttempt) => a.perform s) manager attempts).dappCount =
        manager.dappCount := congrArg Finset.card hsame
    omega
  · intro hcase
    refine (Finset.eq_of_subset_of_card_le (keys_subset_attempts attempts h) ?_).symm
    have hlength : attempts = [] → attempts.length = 0 := fun hnil => by rw [hnil]; rfl
    show (final (fun s (a : SetupAttempt) => a.perform s) manager attempts).dappCount ≤
      manager.dappCount
    rcases hcase with hnil | hfull
    · have hzero := hlength hnil
      omega
    · omega

/-- In a state reached by any calls, an unanswered setup request leaves the registered dApps as they
were if and only if the response was encoded and sent after all, or no ID was free; so a sequence of
unanswered requests leaves them if and only if it is empty or no ID was free, and `n` of them take
`n` IDs, up to the last one. -/
theorem unanswered_setup_iff (callback : Bool) (calls : List Call) :
    let manager := final Call.perform { smLifecycleCallback := callback } calls
    (∀ a : SetupAttempt,
      ((a.perform manager).2 = false →
        (a.perform manager).1.registeredDapps.keys = manager.registeredDapps.keys) ↔
      (∃ message, a.encoded manager = .ok message) ∧ a.sendResult = .success ∨
        ¬manager.dappCount < 100) ∧
    ∀ attempts : List SetupAttempt,
      (∀ x ∈ history (fun s (a : SetupAttempt) => a.perform s) manager attempts, x.2 = false) →
      let after := final (fun s (a : SetupAttempt) => a.perform s) manager attempts
      (after.registeredDapps.keys = manager.registeredDapps.keys ↔
        attempts = [] ∨ ¬manager.dappCount < 100) ∧
      after.dappCount = max manager.dappCount (min 100 (manager.dappCount + attempts.length)) := by
  intro manager
  have hnumbered : manager.Numbered := numbered_final callback calls
  refine ⟨fun a => ?_, fun attempts _ =>
    ⟨keys_attempts attempts hnumbered, dappCount_attempts attempts hnumbered⟩⟩
  rw [SetupAttempt.perform_keys hnumbered, ← SetupAttempt.responded_iff]
  cases (a.perform manager).2 <;> simp

/-- The first setup request of an agent whose `send_response` fails. -/
def unsentAttempt : SetupAttempt where
  encoder := Asn1.encoder firstReplyAper
  config := { ranIdentifier := lit "r" }
  env := plainSurroundings
  registry := {}
  request := {}
  requestMessageId := 1
  sendResult := .transportError

/-- Its dApp stays registered without an answer, and a hundred such requests take every ID. -/
theorem unsentAttempt_leaks :
    let fresh : SubscriptionManager := { smLifecycleCallback := true }
    (unsentAttempt.perform fresh).2 = false ∧
    fresh.registeredDapps.keys = ∅ ∧
    (unsentAttempt.perform fresh).1.registeredDapps.keys = {1} ∧
    (∀ x ∈ history (fun s (a : SetupAttempt) => a.perform s) fresh
      (List.replicate 100 unsentAttempt), x.2 = false) ∧
    (final (fun s (a : SetupAttempt) => a.perform s) fresh
      (List.replicate 100 unsentAttempt)).dappCount = 100 := by
  intro fresh
  have hunsent : ∀ s, (unsentAttempt.perform s).2 = false := fun s => by
    simp [SetupAttempt.perform, unsentAttempt]
  refine ⟨hunsent fresh, rfl, by decide +kernel, fun x hx => ?_, ?_⟩
  · obtain ⟨hcall, t, ht⟩ := exists_of_mem_history hx
    rw [ht, List.eq_of_mem_replicate hcall, hunsent]
  · rw [dappCount_attempts _ (numbered_fresh true), List.length_replicate]
    rfl

/-! ### Which service models can be advertised -/

/-- A `register_sm` of each pointer of a list, from an empty registry. -/
def SmRegistry.offered (offers : List (Option ServiceModel)) : SmRegistry :=
  final SmRegistry.registerSm {} offers

/-- The service model of a `register_sm` that returned `SUCCESS`. -/
def SmRegistry.taken (call : Option ServiceModel × ErrorCode) : Option ServiceModel :=
  if call.2 = .success then call.1 else none

/-- The service models for which `register_sm` returned `SUCCESS`. -/
def SmRegistry.accepted (offers : List (Option ServiceModel)) : List ServiceModel :=
  (history SmRegistry.registerSm {} offers).filterMap taken

/-- What the schema asks of the definition of a service model: its identifiers are in `1..100`, its
lists have at most a hundred of them, and the data that is copied has `1..32768` octets. -/
structure ServiceModel.Advertisable (aper : Asn1.Aper) (sm : ServiceModel) : Prop where
  ranFunctionId : 1 ≤ sm.ranFunctionId ∧ sm.ranFunctionId ≤ 100
  telemetryIds : sm.telemetryIds.length ≤ 100 ∧ ∀ x ∈ sm.telemetryIds, 1 ≤ x ∧ x ≤ 100
  controlIds : sm.controlIds.length ≤ 100 ∧ ∀ x ∈ sm.controlIds, 1 ≤ x ∧ x ≤ 100
  ranFunctionData : 1 ≤ (aper.octetStringFromBuf sm.ranFunctionData).length ∧
    (aper.octetStringFromBuf sm.ranFunctionData).length ≤ 32768

theorem identifierList_toLong {l : List UInt32} :
    Asn1.identifierList (l.map Asn1.toLong) = true ↔
      l.length ≤ 100 ∧ ∀ x ∈ l, 1 ≤ x ∧ x ≤ 100 := by
  rw [Asn1.identifierList, Bool.and_eq_true, decide_eq_true_iff, List.length_map,
    List.all_eq_true]
  simp only [List.mem_map, forall_exists_index, and_imp, forall_apply_eq_imp_iff₂,
    Asn1.dAppId_toLong]

/-- The definition that a service model is advertised by. -/
def ServiceModel.definition (aper : Asn1.Aper) (sm : ServiceModel) : Asn1.E3RanFunctionDefinition :=
  Asn1.ranFunctionDefToAsn1 aper (ranFunctionDef sm.ranFunctionId (some sm))

theorem conforms_definition {aper : Asn1.Aper} {sm : ServiceModel} :
    (sm.definition aper).conforms = true ↔ sm.Advertisable aper := by
  simp only [Asn1.E3RanFunctionDefinition.conforms, ServiceModel.definition,
    Asn1.ranFunctionDefToAsn1, ranFunctionDef, Bool.and_eq_true, identifierList_toLong,
    Asn1.dAppId_toLong, Asn1.octetString]
  constructor
  · rintro ⟨⟨⟨hid, htelemetry⟩, hcontrol⟩, hdata⟩
    exact ⟨hid, htelemetry, hcontrol, of_decide_eq_true hdata⟩
  · intro h
    exact ⟨⟨⟨h.ranFunctionId, h.telemetryIds⟩, h.controlIds⟩, decide_eq_true h.ranFunctionData⟩

/-- The octets of a setup response that grants an ID and advertises the given models. -/
def setupReplyOctets (aper : Asn1.Aper) (config : E3Config) (models : List ServiceModel) : Nat :=
  7 + Asn1.stringOctets (aper.octetStringFromBuf config.ranIdentifier) +
    Asn1.stringOctets (aper.octetStringFromBuf config.e3apVersion) +
    if models.isEmpty then 0
    else Asn1.lengthOctets models.length + (models.map fun sm => (sm.definition aper).octets).sum

namespace SmRegistry

variable {registry : SmRegistry}

/-- The registry holds the given models, each for an identifier of its own and after its `init`, and no
factory. -/
structure Holds (registry : SmRegistry) (models : List ServiceModel) : Prop where
  factories : registry.factories = ∅
  distinct : (models.map ServiceModel.ranFunctionId).Nodup
  lookup : ∀ id sm', registry.sms.lookup id = some sm' ↔
    ∃ sm ∈ models, sm.ranFunctionId = id ∧ sm.init = sm'

section Holding

variable {models : List ServiceModel}

theorem Holds.insert (h : registry.Holds models) {sm : ServiceModel}
    (hnew : sm.ranFunctionId ∉ registry.sms) :
    ({ registry with sms := registry.sms.insert sm.ranFunctionId sm.init } : SmRegistry).Holds
      (models ++ [sm]) := by
  have hdistinct : ((models ++ [sm]).map ServiceModel.ranFunctionId).Nodup := by
    rw [List.map_append, List.nodup_append]
    refine ⟨h.distinct, List.nodup_singleton _, fun id hid id' hid' heq => hnew ?_⟩
    obtain ⟨other, hmem, rfl⟩ := List.mem_map.mp hid
    rw [← List.mem_singleton.mp hid', ← heq]
    exact Finmap.mem_of_lookup_eq_some
      ((h.lookup other.ranFunctionId other.init).mpr ⟨other, hmem, rfl, rfl⟩)
  refine ⟨h.factories, hdistinct, fun id sm' => ?_⟩
  rw [UnorderedMap.lookup_insert_ite]
  simp only [List.mem_append, List.mem_singleton]
  split
  · rename_i hid
    subst hid
    constructor
    · rintro ⟨⟩
      exact ⟨sm, Or.inr rfl, rfl, rfl⟩
    · rintro ⟨other, hmem | rfl, hother, rfl⟩
      · have hlookup := (h.lookup sm.ranFunctionId other.init).mpr ⟨other, hmem, hother, rfl⟩
        exact absurd (Finmap.mem_of_lookup_eq_some hlookup) hnew
      · rfl
  · rename_i hid
    rw [h.lookup]
    constructor
    · rintro ⟨other, hmem, hother⟩
      exact ⟨other, Or.inl hmem, hother⟩
    · rintro ⟨other, hmem | rfl, hother⟩
      · exact ⟨other, hmem, hother⟩
      · exact absurd hother.1.symm hid

/-- A `register_sm` adds its model if it returns `SUCCESS`, and otherwise adds none. -/
theorem Holds.registerSm (h : registry.Holds models) (offer : Option ServiceModel) :
    (registry.registerSm offer).1.Holds
      (models ++ (taken (offer, (registry.registerSm offer).2)).toList) := by
  cases offer with
  | none =>
    rw [show taken (none, (registry.registerSm none).2) = none from rfl, Option.toList_none,
      List.append_nil]
    exact h
  | some sm =>
    by_cases htaken : sm.ranFunctionId ∈ registry.sms
    · simp only [registerSm_of_taken htaken, taken, reduceCtorEq, if_false, Option.toList_none,
        List.append_nil]
      exact ⟨h.factories, h.distinct, h.lookup⟩
    · by_cases hinit : sm.initResult = .success
      · simp only [registerSm_of_free htaken hinit, taken, if_true, Option.toList_some]
        exact h.insert htaken
      · simp only [registerSm_of_failed htaken hinit, hinit, taken, if_false, Option.toList_none,
          List.append_nil]
        exact ⟨h.factories, h.distinct, h.lookup⟩

end Holding

theorem holds_accepted (offers : List (Option ServiceModel)) :
    (offered offers).Holds (accepted offers) := by
  refine run_induction (P := fun (registry : SmRegistry) past =>
    registry.Holds (past.filterMap taken)) ?_ ?_
  · exact ⟨rfl, List.nodup_nil, fun id sm' => by simp⟩
  · intro registry past offer _ h
    rw [List.filterMap_append, List.filterMap_cons, List.filterMap_nil]
    have hnext := h.registerSm offer
    cases htaken : taken (offer, (registry.registerSm offer).2) with
    | none => simpa [htaken] using hnext
    | some sm => simpa [htaken] using hnext

/-- Where every identifier has its model, the loop over them makes no new one. -/
theorem buildRanFunctionList_of_found (create : UInt32 → Option ServiceModel) {ids : List UInt32}
    (h : ∀ id ∈ ids, id ∈ registry.sms) :
    buildRanFunctionList create registry ids =
      (registry, ids.map fun id => ranFunctionDef id (registry.sms.lookup id)) := by
  induction ids with
  | nil => rfl
  | cons id ids ih =>
    obtain ⟨hid, hids⟩ := List.forall_mem_cons.mp h
    obtain ⟨sm, hsm⟩ := Finmap.mem_iff.mp hid
    have hget : registry.getByRanFunction create id = (registry, some sm) := by
      simp only [getByRanFunction, hsm]
    simp only [buildRanFunctionList, hget, ih hids, List.map_cons, hsm]

section Advertising

variable {models : List ServiceModel}

theorem Holds.advertised_eq (h : registry.Holds models) (create : UInt32 → Option ServiceModel) :
    registry.advertised create = registry.getAvailableRanFunctions.map fun id =>
      ranFunctionDef id (registry.sms.lookup id) := by
  rw [advertised, buildRanFunctionList_of_found create fun id hid => ?_]
  rw [getAvailableRanFunctions, ← Multiset.mem_coe, coe_ascendingList, h.factories] at hid
  simpa [← Finmap.mem_keys] using hid

theorem Holds.nodup_advertised (h : registry.Holds models) (create : UInt32 → Option ServiceModel) :
    (registry.advertised create).Nodup := by
  have hids : registry.getAvailableRanFunctions.Nodup := by
    rw [getAvailableRanFunctions, ← Multiset.coe_nodup, coe_ascendingList, h.factories]
    simpa using registry.sms.keys.nodup
  rw [h.advertised_eq create]
  refine hids.map_on fun id _ id' _ heq => ?_
  have hfield : ∀ sm, (ranFunctionDef id sm).ranFunctionIdentifier = id ∧
      (ranFunctionDef id' sm).ranFunctionIdentifier = id' := fun sm => by cases sm <;> exact ⟨rfl, rfl⟩
  rw [← (hfield _).1, heq, (hfield _).2]

theorem Holds.mem_advertised (h : registry.Holds models) (create : UInt32 → Option ServiceModel)
    (func : RanFunctionDef) :
    func ∈ registry.advertised create ↔
      ∃ sm ∈ models, func = ranFunctionDef sm.ranFunctionId (some sm) := by
  have hmem : ∀ id, id ∈ registry.getAvailableRanFunctions ↔ id ∈ registry.sms := fun id => by
    rw [getAvailableRanFunctions, ← Multiset.mem_coe, coe_ascendingList, h.factories,
      ← Finmap.mem_keys]
    simp
  rw [h.advertised_eq create]
  simp only [List.mem_map, hmem]
  constructor
  · rintro ⟨id, hid, rfl⟩
    obtain ⟨sm', hsm'⟩ := Finmap.mem_iff.mp hid
    obtain ⟨sm, hsm, rfl, rfl⟩ := (h.lookup id sm').mp hsm'
    exact ⟨sm, hsm, by rw [hsm']; rfl⟩
  · rintro ⟨sm, hsm, rfl⟩
    have hlookup := (h.lookup sm.ranFunctionId sm.init).mpr ⟨sm, hsm, rfl, rfl⟩
    exact ⟨sm.ranFunctionId, Finmap.mem_of_lookup_eq_some hlookup, by rw [hlookup]; rfl⟩

/-- The advertised definitions are those of the models, each once. -/
theorem Holds.perm_advertised (h : registry.Holds models) (create : UInt32 → Option ServiceModel)
    (aper : Asn1.Aper) :
    ((registry.advertised create).map (Asn1.ranFunctionDefToAsn1 aper)).Perm
      (models.map (ServiceModel.definition aper)) := by
  have hmodels : (models.map fun sm => ranFunctionDef sm.ranFunctionId (some sm)).Nodup := by
    refine List.Nodup.of_map RanFunctionDef.ranFunctionIdentifier ?_
    rw [List.map_map]
    exact h.distinct
  have hperm : (registry.advertised create).Perm
      (models.map fun sm => ranFunctionDef sm.ranFunctionId (some sm)) := by
    refine (List.perm_ext_iff_of_nodup (h.nodup_advertised create) hmodels).mpr fun func => ?_
    rw [h.mem_advertised create, List.mem_map]
    simp only [eq_comm]
  have hmap := hperm.map (Asn1.ranFunctionDefToAsn1 aper)
  rwa [List.map_map] at hmap

theorem Holds.conforms_advertised (h : registry.Holds models) (create : UInt32 → Option ServiceModel)
    {aper : Asn1.Aper} :
    (∀ func ∈ registry.advertised create, (Asn1.ranFunctionDefToAsn1 aper func).conforms = true) ↔
      ∀ sm ∈ models, sm.Advertisable aper := by
  have hmap : (∀ x ∈ (registry.advertised create).map (Asn1.ranFunctionDefToAsn1 aper),
      x.conforms = true) ↔ ∀ sm ∈ models, sm.Advertisable aper := by
    simp only [(h.perm_advertised create aper).mem_iff, List.forall_mem_map, conforms_definition]
  rwa [List.forall_mem_map] at hmap

/-- Whether the response fits in a buffer depends on the models and the configuration only. -/
theorem Holds.bits_setupReply_le_iff (h : registry.Holds models) {aper : Asn1.Aper}
    (hlengths : aper.SetupLengths) {config : E3Config} {env : Surroundings} {registration : Outcome}
    {requestMessageId : UInt32}
    (hconforms : (setupReplyAsn1 aper config env registry registration requestMessageId).conforms =
      true) (size : Nat) :
    aper.bits (setupReplyAsn1 aper config env registry registration requestMessageId) ≤ 8 * size ↔
      setupReplyOctets aper config models ≤ size := by
  have hperm := h.perm_advertised env.create aper
  have hcount : (registry.advertised env.create).length = models.length := by
    simpa using hperm.length_eq
  have hsum : (((registry.advertised env.create).map (Asn1.ranFunctionDefToAsn1 aper)).map
      Asn1.E3RanFunctionDefinition.octets).sum =
      (models.map fun sm => (sm.definition aper).octets).sum := by
    rw [(hperm.map Asn1.E3RanFunctionDefinition.octets).sum_eq, List.map_map]
    rfl
  unfold setupReplyAsn1 at hconforms ⊢
  rw [hlengths _ _ hconforms]
  simp only [Asn1.E3SetupResponse.bits, Asn1.setupResponseToAsn1, Option.map_some, Option.elim_some,
    Option.isSome_some, if_true, setupReplyOctets, List.isEmpty_iff_length_eq_zero, hcount]
  by_cases hnone : models.length = 0
  · simp only [hnone, if_true]
    omega
  · simp only [hnone, if_false, hsum, List.length_map, hcount]
    omega

end Advertising

end SmRegistry

/-- In a state reached by any calls and with a free dApp ID, with a registry that was offered any
service models, a setup request is answered if and only if its message ID is one of the schema, every
accepted model can be advertised, and the octets of their definitions and of the configured strings
are few enough. -/
theorem setup_encodable_iff (aper : Asn1.Aper) (hlengths : aper.SetupLengths) (callback : Bool)
    (calls : List Call) (config : E3Config) (env : Surroundings) (offers : List (Option ServiceModel))
    (request : SetupRequest) (requestMessageId : UInt32) :
    let manager := final Call.perform { smLifecycleCallback := callback } calls
    let registry := SmRegistry.offered offers
    manager.dappCount < 100 →
    ((∃ buffer, (handleSetupRequest (Asn1.encoder aper) config env manager registry request
        requestMessageId).sent = [buffer]) ↔
      (1 ≤ requestMessageId ∧ requestMessageId ≤ 1000) ∧
      (∀ sm ∈ SmRegistry.accepted offers, sm.Advertisable aper) ∧
      setupReplyOctets aper config (SmRegistry.accepted offers) ≤ Asn1.BUFFER_SIZE) := by
  intro manager registry hfree
  have hholds : registry.Holds (SmRegistry.accepted offers) := SmRegistry.holds_accepted offers
  have hnumbered : manager.Numbered := numbered_final callback calls
  have hdapp : Asn1.dAppId (Asn1.toLong (manager.registerDapp env.now).2.id) = true := by
    rcases hnumbered.registerDapp env.now with ⟨-, id, hrange, -, hregistration, -⟩ | ⟨hfull, -⟩
    · rw [hregistration]
      exact Asn1.dAppId_toLong.mpr hrange
    · exact absurd hfree hfull
  have hsent : (∃ buffer, (handleSetupRequest (Asn1.encoder aper) config env manager registry
      request requestMessageId).sent = [buffer]) ↔
      ∃ message, Asn1.encode aper (setupReply config env registry
        (manager.registerDapp env.now).2 requestMessageId) = .ok message := by
    simp only [handleSetupRequest, Asn1.encoder]
    cases Asn1.encode aper (setupReply config env registry (manager.registerDapp env.now).2
      requestMessageId) <;> simp
  have hconforms : (setupReplyAsn1 aper config env registry (manager.registerDapp env.now).2
      requestMessageId).conforms = true ↔
      (1 ≤ requestMessageId ∧ requestMessageId ≤ 1000) ∧
        ∀ sm ∈ SmRegistry.accepted offers, sm.Advertisable aper := by
    rw [conforms_setupReply_iff, hdapp, Asn1.messageId_toLong, hholds.conforms_advertised env.create]
    simp only [true_and]
  rw [hsent, Asn1.encode_ok_iff pduToAsn1_setupReply, ← and_assoc, ← hconforms]
  exact and_congr_right fun h => hholds.bits_setupReply_le_iff hlengths h Asn1.BUFFER_SIZE

/-- The answer to the first setup request of an agent with one service model, and its aligned packed
encoding. -/
def modelReply : Asn1.E3Pdu where
  id := 1
  msg := .setupResponse
    { requestId := 1
      responseCode := 0
      ranIdentifier := [0x72]
      e3apProtocolVersion := some [0x31, 0x2E, 0x30, 0x2E, 0x30]
      dAppIdentifier := some 1
      ranFunctionList := some [⟨1, [], [], [0xAB]⟩] }

def modelReplyAper : Asn1.Aper :=
  .codingAs Asn1.packedBits modelReply
    [0x00, 0x00, 0x1E, 0x00, 0x00, 0x00, 0x01, 0x72, 0x05, 0x31, 0x2E, 0x30, 0x2E, 0x30, 0x00, 0x01,
      0x00, 0x00, 0x00, 0x00, 0x00, 0xAB]
    rfl (by decide) (by decide)

theorem setup_encodable_modelReply :
    modelReplyAper.SetupLengths ∧
    ∃ buffer, (handleSetupRequest (Asn1.encoder modelReplyAper) { ranIdentifier := lit "r" }
      plainSurroundings { smLifecycleCallback := true }
      (SmRegistry.offered [some { ranFunctionId := 1, ranFunctionData := [0xAB] }]) {} 1).sent =
        [buffer] := by
  have hlengths : modelReplyAper.SetupLengths := fun _ _ _ => rfl
  have hiff := setup_encodable_iff modelReplyAper hlengths true [] { ranIdentifier := lit "r" }
    plainSurroundings [some { ranFunctionId := 1, ranFunctionData := [0xAB] }] {} 1
    (by decide +kernel)
  have haccepted : SmRegistry.accepted [some { ranFunctionId := 1, ranFunctionData := [0xAB] }] =
      [{ ranFunctionId := 1, ranFunctionData := [0xAB] }] := by decide +kernel
  rw [haccepted] at hiff
  refine ⟨hlengths, hiff.mpr ⟨by decide, fun sm hsm => ?_, by decide +kernel⟩⟩
  rw [List.mem_singleton] at hsm
  subst hsm
  exact ⟨by decide, by simp, by simp, by decide +kernel⟩

/-- A service model that keeps the default of `ran_function_data()` is accepted, and the setup request
after it gets no answer. -/
theorem default_model_silences_setup :
    let offers : List (Option ServiceModel) := [some { ranFunctionId := 1 }]
    SmRegistry.accepted offers = [{ ranFunctionId := 1 }] ∧
    ({ smLifecycleCallback := true } : SubscriptionManager).dappCount < 100 ∧
    (handleSetupRequest (Asn1.encoder firstReplyAper) { ranIdentifier := lit "r" }
      plainSurroundings { smLifecycleCallback := true } (SmRegistry.offered offers) {} 1).sent =
        [] := by
  intro offers
  have hrefused : (setupReplyAsn1 firstReplyAper { ranIdentifier := lit "r" } plainSurroundings
      (SmRegistry.offered offers)
      (SubscriptionManager.registerDapp { smLifecycleCallback := true }
        plainSurroundings.now).2 1).conforms = false := by decide +kernel
  have hencode := @Asn1.encode_error firstReplyAper _ _ pduToAsn1_setupReply hrefused
  refine ⟨by decide +kernel, by decide +kernel, ?_⟩
  simp only [handleSetupRequest, Asn1.encoder, hencode]

end LibE3
