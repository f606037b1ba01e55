import LibE3.Interface.Handlers

/-! Whether a subscribed RAN function is served.  The manager and the registry meet only in
`on_sm_lifecycle_change`, which logs a start that fails.  So every subscribed function has a running
service model exactly in those runs in which every first subscription finds a model that runs or
starts. -/

namespace LibE3

open Transition SubscriptionManager

/-! ### Service models -/

namespace ServiceModel

variable (sm : ServiceModel)

theorem isRunning_receive (call : SmCall) :
    (sm.receive call).isRunning = runningAfter sm.isRunning call := by
  unfold isRunning receive
  rw [List.foldl_append]
  rfl

theorem isRunning_start (result : ErrorCode) :
    (sm.receive (.start result)).isRunning = true ↔ sm.isRunning = true ∨ result = .success := by
  rw [isRunning_receive]
  cases result <;> simp [runningAfter]

end ServiceModel

namespace SmRegistry

/-- A service model is registered for the function and runs. -/
def Serves (registry : SmRegistry) (f : UInt32) : Prop :=
  ∃ sm, registry.sms.lookup f = some sm ∧ sm.isRunning = true

/-- Everything that is registered stays as it is. -/
def Keeps (r r' : SmRegistry) : Prop :=
  ∀ f sm, r.sms.lookup f = some sm → r'.sms.lookup f = some sm

theorem Keeps.serves {r r' : SmRegistry} (h : r.Keeps r') {f : UInt32} (hf : r.Serves f) :
    r'.Serves f := by
  obtain ⟨sm, hsm, hrunning⟩ := hf
  exact ⟨sm, h f sm hsm, hrunning⟩

theorem keeps_of_eq {r r' : SmRegistry} (h : r'.sms = r.sms) : r.Keeps r' :=
  fun _ _ hsm => h ▸ hsm

theorem Keeps.refl (r : SmRegistry) : r.Keeps r := keeps_of_eq rfl

theorem Keeps.trans {r r' r'' : SmRegistry} (h : r.Keeps r') (h' : r'.Keeps r'') : r.Keeps r'' :=
  fun f sm hsm => h' f sm (h f sm hsm)

section Keeping

variable (r : SmRegistry)

theorem keeps_insert {id : UInt32} (h : id ∉ r.sms) (sm : ServiceModel) {r' : SmRegistry}
    (hr' : r'.sms = r.sms.insert id sm) : r.Keeps r' := by
  intro f other hother
  have hne : f ≠ id := by
    rintro rfl
    exact h (Finmap.mem_of_lookup_eq_some hother)
  rw [hr', Finmap.lookup_insert_of_ne _ hne]
  exact hother

theorem keeps_registerSm (offer : Option ServiceModel) : r.Keeps (r.registerSm offer).1 := by
  rcases r.registerSm_sms offer with hsame | ⟨sm, -, hnew, hinsert⟩
  · exact keeps_of_eq hsame
  · exact r.keeps_insert hnew sm.init hinsert

theorem keeps_registerSmFactory (id : UInt32) (callable : Bool) :
    r.Keeps (r.registerSmFactory id callable).1 :=
  keeps_of_eq (r.registerSmFactory_sms id callable)

theorem keeps_getByRanFunction (create : UInt32 → Option ServiceModel) (id : UInt32) :
    r.Keeps (r.getByRanFunction create id).1 := by
  rcases r.getByRanFunction_sms create id with hsame | ⟨sm, -, hnew, hinsert⟩
  · exact keeps_of_eq hsame
  · exact r.keeps_insert hnew sm.init hinsert

theorem keeps_buildRanFunctionList (create : UInt32 → Option ServiceModel) (ids : List UInt32) :
    r.Keeps (buildRanFunctionList create r ids).1 := by
  induction ids generalizing r with
  | nil => exact Keeps.refl r
  | cons id ids ih => exact (r.keeps_getByRanFunction create id).trans (ih _)

end Keeping

end SmRegistry

/-! ### Lifecycle callbacks -/

namespace Handlers

/-- What a lifecycle callback makes of the model of its function. -/
def modelAfter (result : ErrorCode) (sm : Option ServiceModel) (shouldStart : Bool) :
    Option ServiceModel :=
  sm.map fun sm =>
    if shouldStart then if sm.isRunning then sm else sm.receive (.start result)
    else if sm.isRunning then sm.receive .stop else sm

theorem lookup_onSmLifecycleChange (startResult : UInt32 → ErrorCode) (registry : SmRegistry)
    (callback : Callback) (f : UInt32) :
    (onSmLifecycleChange startResult registry callback).sms.lookup f =
      if callback.1 = f then modelAfter (startResult f) (registry.sms.lookup f) callback.2
      else registry.sms.lookup f := by
  obtain ⟨g, shouldStart⟩ := callback
  unfold onSmLifecycleChange SmRegistry.startSm SmRegistry.stopSm modelAfter
  by_cases hg : g = f
  · subst hg
    cases hlookup : registry.sms.lookup g with
    | none => cases shouldStart <;> simp [hlookup]
    | some sm =>
      cases shouldStart <;> cases hrunning : sm.isRunning <;> simp [hlookup, hrunning]
  · have hne : f ≠ g := Ne.symm hg
    cases hlookup : registry.sms.lookup g with
    | none => cases shouldStart <;> simp [hg]
    | some sm =>
      cases shouldStart <;> cases hrunning : sm.isRunning <;>
        simp [hg, hrunning, Finmap.lookup_insert_of_ne _ hne]

/-- The model of a function sees exactly the callbacks for the function. -/
theorem lookup_lifecycle (startResult : UInt32 → ErrorCode) (callbacks : List Callback)
    (registry : SmRegistry) (f : UInt32) :
    (callbacks.foldl (onSmLifecycleChange startResult) registry).sms.lookup f =
      (callbacksFor f callbacks).foldl (modelAfter (startResult f)) (registry.sms.lookup f) := by
  induction callbacks generalizing registry with
  | nil => rfl
  | cons callback callbacks ih =>
    rw [List.foldl_cons, ih, lookup_onSmLifecycleChange]
    by_cases hf : callback.1 = f <;> simp [callbacksFor, hf]

/-- The model of a function after a call of the manager: it is started with the first subscriber of
the function and stopped with the last. -/
theorem lookup_call {core : Core} (h : Managed core) (env : Env) {c : Call} (hc : c ≠ .clear)
    (f : UInt32) :
    (core.call env c).1.registry.sms.lookup f =
      (report (core.manager.hasSubscribers f)
        ((core.call env c).1.manager.hasSubscribers f)).foldl (modelAfter (env.startResult f))
        (core.registry.sms.lookup f) := by
  have hcallbacks := h.watched.perform_callbacksFor hc f
  have hlookup := lookup_lifecycle env.startResult (c.perform core.manager).2.callbacks
    core.registry f
  rw [hcallbacks] at hlookup
  exact hlookup

/-! ### Serving every subscription -/

/-- A first subscription to the function would find a model that runs or starts. -/
def Startable (env : Env) (registry : SmRegistry) (f : UInt32) : Prop :=
  ∃ sm, registry.sms.lookup f = some sm ∧ (sm.isRunning = true ∨ env.startResult f = .success)

/-- Every function with a subscriber is served. -/
def Served (core : Core) : Prop :=
  ∀ f, core.manager.hasSubscribers f = true → core.registry.Serves f

/-- The model of a function that has got its first subscriber runs exactly if it could be started. -/
theorem serves_call_first {core : Core} (h : Managed core) (env : Env) {c : Call} (hc : c ≠ .clear)
    {f : UInt32} (hbefore : core.manager.hasSubscribers f = false)
    (hafter : (core.call env c).1.manager.hasSubscribers f = true) :
    (core.call env c).1.registry.Serves f ↔ Startable env core.registry f := by
  have hlookup := lookup_call h env hc f
  rw [hbefore, hafter] at hlookup
  unfold SmRegistry.Serves Startable
  rw [hlookup]
  cases core.registry.sms.lookup f with
  | none => simp [report, modelAfter]
  | some sm =>
    have hstart := sm.isRunning_start (env.startResult f)
    cases hrunning : sm.isRunning <;> simp_all [report, modelAfter]

theorem serves_call_same {core : Core} (h : Managed core) (env : Env) {c : Call} (hc : c ≠ .clear)
    {f : UInt32}
    (hsame : (core.call env c).1.manager.hasSubscribers f = core.manager.hasSubscribers f) :
    (core.call env c).1.registry.Serves f ↔ core.registry.Serves f := by
  have hlookup := lookup_call h env hc f
  rw [hsame] at hlookup
  unfold SmRegistry.Serves
  rw [hlookup]
  simp [report]

/-- A call of the manager keeps every subscribed function served if the models of new ones start. -/
theorem Served.call {core : Core} (hserved : Served core) (h : Managed core) (env : Env) {c : Call}
    (hc : c ≠ .clear)
    (hstart : ∀ f, core.manager.hasSubscribers f = false →
      (core.call env c).1.manager.hasSubscribers f = true → Startable env core.registry f) :
    Served (core.call env c).1 := by
  intro f hafter
  cases hbefore : core.manager.hasSubscribers f with
  | false => exact (serves_call_first h env hc hbefore hafter).mpr (hstart f hbefore hafter)
  | true =>
    exact (serves_call_same h env hc (hafter.trans hbefore.symm)).mpr (hserved f hbefore)

section Subscribers

variable {s : SubscriptionManager}

theorem hasSubscribers_iff_live (h : s.Indexed) (f : UInt32) :
    s.hasSubscribers f = true ↔ ∃ d, (d, f) ∈ s.live := by
  rw [hasSubscribers_iff]
  constructor
  · rintro ⟨d, hd⟩
    exact ⟨d, (h.agree d f).mpr hd⟩
  · rintro ⟨d, hd⟩
    exact ⟨d, (h.agree d f).mp hd⟩

/-- A function gets its first subscriber from a new subscription only. -/
theorem first_subscriber (h : s.Indexed) {c : Call} (hc : c ≠ .clear) {f : UInt32}
    (hbefore : s.hasSubscribers f = false)
    (hafter : (c.perform s).1.hasSubscribers f = true) :
    ∃ d, c = .addSubscription d f ∧ d ∈ s.registeredDapps := by
  obtain ⟨d, hd⟩ := (hasSubscribers_iff_live (h.locked c) f).mp hafter
  have hnone : (d, f) ∉ s.live := fun hlive => by
    rw [(hasSubscribers_iff_live h f).mpr ⟨d, hlive⟩] at hbefore
    cases hbefore
  rw [locked_live h hc, liveAfter] at hd
  split at hd
  · rename_i k p hissue
    obtain ⟨hcall, -, hregistered, -⟩ := issuedBy_eq_some hissue
    rcases hd with rfl | hlive
    · exact ⟨d, hcall, hregistered⟩
    · exact absurd hlive hnone
  · exact absurd hd.1 hnone

/-- A new subscription leaves its function subscribed. -/
theorem hasSubscribers_addSubscription (h : s.Indexed) {d : UInt32} (hd : d ∈ s.registeredDapps)
    (f : UInt32) : (s.addSubscription d f).1.hasSubscribers f = true := by
  have hsubscribed := (Subscriber.addSubscriptionLocked_registered hd f).2.1
  refine (hasSubscribers_iff_live (h.locked (.addSubscription d f)) f).mpr ⟨d, ?_⟩
  exact (isSubscribed_iff _ d f).mp hsubscribed

end Subscribers

/-! ### Runs -/

/-- The registry is not cleared, as it is at the end of `stop`. -/
def WithoutStop (events : List Event) : Prop := ∀ order, Event.clearRegistry order ∉ events

/-- An event that makes a first subscription finds a model for it that runs or starts. -/
def Event.StartsModel (core : Core) : Event → Prop
  | .subscriptionRequest env request _ =>
    core.manager.isDappRegistered request.dappIdentifier = true →
      core.manager.hasSubscribers request.ranFunctionIdentifier = false →
        Startable env core.registry request.ranFunctionIdentifier
  | _ => True

theorem Served.setup {core : Core} (hserved : Served core) (encoder : E3Encoder)
    (config : E3Config) (env : LibE3.Surroundings) (request : SetupRequest)
    (requestMessageId : UInt32) :
    Served (core.handleSetup encoder config env request requestMessageId).1 := by
  intro f hf
  have hsame : (core.manager.registerDapp env.now).1.hasSubscribers f =
      core.manager.hasSubscribers f := by
    simp only [registerDapp, registerDappLocked, Edit.finish]
    split <;> rfl
  have hbefore : core.manager.hasSubscribers f = true := hsame.symm.trans hf
  exact (core.registry.keeps_buildRanFunctionList env.create _).serves (hserved f hbefore)

/-- Every event but a clear of the registry keeps every subscribed function served, if it starts the
model of a first subscription. -/
theorem Served.perform {core : Core} (hserved : Served core) (h : Managed core) {e : Event}
    (hstop : ∀ order, e ≠ .clearRegistry order) (hstart : e.StartsModel core) :
    Served (e.perform core).1 := by
  cases e with
  | registerSm sm =>
    exact fun f hf => (core.registry.keeps_registerSm sm).serves (hserved f hf)
  | registerSmFactory id callable =>
    exact fun f hf => (core.registry.keeps_registerSmFactory id callable).serves (hserved f hf)
  | setupRequest encoder config env request requestMessageId =>
    exact hserved.setup encoder config env request requestMessageId
  | subscriptionRequest env request requestMessageId =>
    simp only [Event.perform, Core.handleSubscriptionRequest]
    split
    · rename_i hregistered
      refine hserved.call h env (by simp) fun f hbefore hafter => ?_
      obtain ⟨d, hcall, -⟩ := first_subscriber h.resolving.indexed (by simp) hbefore hafter
      cases hcall
      exact hstart hregistered hbefore
    · exact hserved
  | subscriptionDelete env del requestMessageId =>
    refine hserved.call h env (by simp) fun f hbefore hafter => ?_
    obtain ⟨d, hcall, -⟩ := first_subscriber h.resolving.indexed (by simp) hbefore hafter
    cases hcall
  | releaseMessage env release =>
    refine hserved.call h env (by simp) fun f hbefore hafter => ?_
    obtain ⟨d, hcall, -⟩ := first_subscriber h.resolving.indexed (by simp) hbefore hafter
    cases hcall
  | controlAction env action =>
    exact fun f hf => (core.registry.keeps_getByRanFunction env.create _).serves (hserved f hf)
  | dappReport report => exact hserved
  | traffic t => exact hserved
  | clearRegistry order => exact absurd rfl (hstop order)

/-- A first subscription whose model neither runs nor starts leaves its function unserved. -/
theorem startsModel_of_served {core : Core} (h : Managed core) {e : Event}
    (hserved : Served (e.perform core).1) : e.StartsModel core := by
  cases e with
  | subscriptionRequest env request requestMessageId =>
    intro hregistered hbefore
    have hafter := hasSubscribers_addSubscription h.resolving.indexed
      (of_decide_eq_true hregistered) request.ranFunctionIdentifier
    simp only [Event.perform, Core.handleSubscriptionRequest, hregistered, if_true] at hserved
    exact (serves_call_first h env (c := .addSubscription _ _) (by simp) hbefore hafter).mp
      (hserved _ hafter)
  | _ => trivial

/-- In every state of the run every subscribed function is served, and every positive subscription
response is for a function that is served. -/
structure AlwaysServed (events : List Event) : Prop where
  subscribed : ∀ before rest f, events = before ++ rest →
    (after before).manager.hasSubscribers f = true → (after before).registry.Serves f
  positive : ∀ before env request requestMessageId rest pdu resp,
    events = before ++ .subscriptionRequest env request requestMessageId :: rest →
    let handled := (after before).handleSubscriptionRequest env request requestMessageId
    pdu ∈ handled.2.passed → pdu.choice = .subscriptionResponse resp →
      resp.responseCode = .positive → handled.1.registry.Serves request.ranFunctionIdentifier

/-- Every subscription request of the run that makes the first subscription to a RAN function finds a
service model registered for it that runs or whose start succeeds. -/
def FirstSubscriptionsStart (events : List Event) : Prop :=
  ∀ before e rest, events = before ++ e :: rest → e.StartsModel (after before)

theorem after_concat (events : List Event) (e : Event) :
    after (events ++ [e]) = (e.perform (after events)).1 :=
  final_concat _ _ _ _

/-- A positive response is for a function that has a subscriber afterwards. -/
theorem hasSubscribers_of_positive {core : Core} (h : Managed core) {env : Env}
    {request : SubscriptionRequest} {requestMessageId : UInt32} {pdu : Pdu}
    {resp : SubscriptionResponse}
    (hpassed : pdu ∈ (core.handleSubscriptionRequest env request requestMessageId).2.passed)
    (hchoice : pdu.choice = .subscriptionResponse resp) (hpositive : resp.responseCode = .positive) :
    (core.handleSubscriptionRequest env request requestMessageId).1.manager.hasSubscribers
      request.ranFunctionIdentifier = true := by
  by_cases hregistered : core.manager.isDappRegistered request.dappIdentifier = true
  · simp only [Core.handleSubscriptionRequest, hregistered, if_true]
    exact hasSubscribers_addSubscription h.resolving.indexed (of_decide_eq_true hregistered) _
  · simp only [Core.handleSubscriptionRequest, hregistered] at hpassed
    cases List.mem_singleton.mp hpassed
    cases hchoice
    cases hpositive

theorem served_prefix {events : List Event} (hstop : WithoutStop events)
    (hstart : FirstSubscriptionsStart events) {before rest : List Event}
    (hevents : events = before ++ rest) : Served (after before) := by
  induction before using List.reverseRecOn generalizing rest with
  | nil =>
    intro f hf
    cases hf
  | append_singleton before e ih =>
    have hsplit : events = before ++ e :: rest := by rw [hevents, List.append_assoc]; rfl
    rw [after_concat]
    refine (ih hsplit).perform (managed_after before) (fun order he => ?_) (hstart _ _ _ hsplit)
    exact hstop order (by simp [hsplit, he])

/-- In a run without `stop`, every subscribed function is served in every state and every positive
response is for a served function, if and only if every first subscription finds a service model that
runs or starts. -/
theorem always_served_iff (events : List Event) (hstop : WithoutStop events) :
    AlwaysServed events ↔ FirstSubscriptionsStart events := by
  constructor
  · intro hserved before e rest hevents
    refine startsModel_of_served (managed_after before) fun f hf => ?_
    rw [← after_concat] at hf ⊢
    exact hserved.subscribed (before ++ [e]) rest f (by simp [hevents]) hf
  · intro hstart
    constructor
    · intro before rest f hevents hf
      exact served_prefix hstop hstart hevents f hf
    · intro before env request requestMessageId rest pdu resp hevents handled hpassed hchoice
        hpositive
      have hserved : Served handled.1 := by
        have hsplit : events =
            (before ++ [.subscriptionRequest env request requestMessageId]) ++ rest := by
          simp [hevents]
        have hprefix := served_prefix hstop hstart hsplit
        rw [after_concat] at hprefix
        exact hprefix
      exact hserved _ (hasSubscribers_of_positive (managed_after before) hpassed hchoice hpositive)

/-- The setup of a first dApp. -/
def firstSetup : Event :=
  .setupRequest (Asn1.encoder firstReplyAper) { ranIdentifier := lit "r" } plainSurroundings {} 1

/-- The request of dApp 1 for RAN function 7. -/
def firstSubscription : Event := .subscriptionRequest plainEnv ⟨1, 7, [], [], none, none⟩ 2

/-- A run in which a model for the function is registered before the request. -/
def servedRun : List Event := [firstSetup, .registerSm (some { ranFunctionId := 7 }), firstSubscription]

theorem always_served_servedRun : WithoutStop servedRun ∧ AlwaysServed servedRun := by
  have hstop : WithoutStop servedRun := fun order hmem => by
    simp [servedRun, firstSetup, firstSubscription] at hmem
  refine ⟨hstop, (always_served_iff servedRun hstop).mpr ?_⟩
  intro before e rest hevents
  rcases before with _ | ⟨_, _ | ⟨_, _ | ⟨_, before⟩⟩⟩ <;>
    simp only [servedRun, List.nil_append, List.cons_append, List.cons.injEq] at hevents
  · obtain ⟨rfl, -⟩ := hevents
    trivial
  · obtain ⟨-, rfl, -⟩ := hevents
    trivial
  · obtain ⟨rfl, rfl, rfl, -⟩ := hevents
    intro _ _
    exact ⟨ServiceModel.init { ranFunctionId := 7 }, by decide +kernel, Or.inr rfl⟩
  · obtain ⟨-, -, -, hempty⟩ := hevents
    simp at hempty

/-- Without a model the request is granted all the same, and nothing serves it. -/
theorem not_always_served_unregistered :
    WithoutStop [firstSetup, firstSubscription] ∧
    (after [firstSetup, firstSubscription]).manager.hasSubscribers 7 = true ∧
    (after [firstSetup, firstSubscription]).registry.isSmRunning 7 = false ∧
    (after [firstSetup, firstSubscription]).queue.ring.map (·.choice) =
      [.subscriptionResponse ⟨2, 1, .positive, some 1⟩] ∧
    ¬AlwaysServed [firstSetup, firstSubscription] := by
  have hsubscribed : (after [firstSetup, firstSubscription]).manager.hasSubscribers 7 = true := by
    decide +kernel
  have hnone : (after [firstSetup, firstSubscription]).registry.sms.lookup 7 = none := by
    decide +kernel
  refine ⟨fun order hmem => ?_, hsubscribed, by decide +kernel, by decide +kernel, fun h => ?_⟩
  · simp [firstSetup, firstSubscription] at hmem
  · obtain ⟨sm, hsm, -⟩ := h.subscribed _ [] 7 (List.append_nil _).symm hsubscribed
    rw [hnone] at hsm
    cases hsm

end Handlers

end LibE3
