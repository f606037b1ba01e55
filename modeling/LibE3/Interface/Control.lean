import LibE3.Interface.Served

/-! Control actions.  `handle_control_action` routes an action by its RAN function and does not look at
the dApp that it names: the service model of the function executes it if it runs.  What the running
flag says is that the function has a subscriber, since a model is started with the first and stopped
with the last.  So an action is executed only while some dApp is subscribed to its function, which
need not be the one that it names. -/

namespace LibE3

open Transition SubscriptionManager

/-! ### Registrations start nothing -/

theorem ServiceModel.isRunning_init (sm : ServiceModel) : sm.init.isRunning = sm.isRunning :=
  sm.isRunning_receive (.init sm.initResult)

/-- The models that a factory makes do not run. -/
def MakesStopped (create : UInt32 → Option ServiceModel) : Prop :=
  ∀ id sm, create id = some sm → sm.isRunning = false

namespace SmRegistry

/-- `r'` serves no function that `r` does not serve. -/
def StartsNone (r r' : SmRegistry) : Prop := ∀ f, r'.Serves f → r.Serves f

theorem startsNone_of_eq {r r' : SmRegistry} (h : r'.sms = r.sms) : r.StartsNone r' := by
  rintro f ⟨sm, hsm, hrunning⟩
  exact ⟨sm, h ▸ hsm, hrunning⟩

section StartsNone

variable (r : SmRegistry)

theorem startsNone_insert {id : UInt32} {sm : ServiceModel} (h : sm.isRunning = false)
    {r' : SmRegistry} (hr' : r'.sms = r.sms.insert id sm.init) : r.StartsNone r' := by
  rintro f ⟨other, hother, hrunning⟩
  rw [hr', UnorderedMap.lookup_insert_ite] at hother
  split at hother
  · obtain rfl := Option.some.inj hother
    rw [sm.isRunning_init, h] at hrunning
    cases hrunning
  · exact ⟨other, hother, hrunning⟩

theorem startsNone_registerSm {offer : Option ServiceModel}
    (h : ∀ sm, offer = some sm → sm.isRunning = false) : r.StartsNone (r.registerSm offer).1 := by
  rcases r.registerSm_sms offer with hsame | ⟨sm, hsm, -, hinsert⟩
  · exact startsNone_of_eq hsame
  · exact r.startsNone_insert (h sm hsm) hinsert

theorem startsNone_registerSmFactory (id : UInt32) (callable : Bool) :
    r.StartsNone (r.registerSmFactory id callable).1 :=
  startsNone_of_eq (r.registerSmFactory_sms id callable)

variable {create : UInt32 → Option ServiceModel} (h : MakesStopped create)

include h

theorem startsNone_getByRanFunction (id : UInt32) :
    r.StartsNone (r.getByRanFunction create id).1 := by
  rcases r.getByRanFunction_sms create id with hsame | ⟨sm, hsm, -, hinsert⟩
  · exact startsNone_of_eq hsame
  · exact r.startsNone_insert (h id sm hsm) hinsert

theorem startsNone_buildRanFunctionList (ids : List UInt32) :
    r.StartsNone (buildRanFunctionList create r ids).1 := by
  induction ids generalizing r with
  | nil => exact startsNone_of_eq rfl
  | cons id ids ih => exact fun f hf => r.startsNone_getByRanFunction h id f (ih _ f hf)

/-- The model that a lookup returns runs exactly if it did before. -/
theorem any_getByRanFunction (id : UInt32) :
    (r.getByRanFunction create id).2.any ServiceModel.isRunning = true ↔ r.Serves id := by
  unfold getByRanFunction Serves
  cases hlookup : r.sms.lookup id with
  | some sm => simp
  | none =>
    simp only [reduceCtorEq, false_and, exists_false, iff_false]
    split
    · split
      · simp
      · rename_i sm hsm
        split
        · simp [sm.isRunning_init, h id sm hsm]
        · simp
    · simp

end StartsNone

end SmRegistry

namespace Handlers

/-! ### Running models have subscribers -/

/-- Every function that is served has a subscriber. -/
def Attended (core : Core) : Prop :=
  ∀ f, core.registry.Serves f → core.manager.hasSubscribers f = true

/-- The service models that come to the registry with the event do not run. -/
def Event.HandsOverStopped : Event → Prop
  | .registerSm offer => ∀ sm, offer = some sm → sm.isRunning = false
  | .setupRequest _ _ env _ _ => MakesStopped env.create
  | .controlAction env _ => MakesStopped env.create
  | _ => True

/-- The model of a function that has lost its last subscriber does not run. -/
theorem not_serves_call_last {core : Core} (h : Managed core) (env : Env) {c : Call}
    (hc : c ≠ .clear) {f : UInt32} (hbefore : core.manager.hasSubscribers f = true)
    (hafter : (core.call env c).1.manager.hasSubscribers f = false) :
    ¬(core.call env c).1.registry.Serves f := by
  have hlookup := lookup_call h env hc f
  rw [hbefore, hafter] at hlookup
  rintro ⟨sm, hsm, hrunning⟩
  rw [hlookup] at hsm
  cases hmodel : core.registry.sms.lookup f with
  | none => simp [report, modelAfter, hmodel] at hsm
  | some model =>
    have hstop := model.isRunning_receive .stop
    cases hruns : model.isRunning <;> simp [report, modelAfter, hmodel, hruns] at hsm
    · rw [← hsm, hruns] at hrunning
      cases hrunning
    · rw [← hsm, hstop] at hrunning
      cases hrunning

theorem Attended.call {core : Core} (hattended : Attended core) (h : Managed core) (env : Env)
    {c : Call} (hc : c ≠ .clear) : Attended (core.call env c).1 := by
  intro f hserves
  cases hafter : (core.call env c).1.manager.hasSubscribers f with
  | true => rfl
  | false =>
    cases hbefore : core.manager.hasSubscribers f with
    | true => exact absurd hserves (not_serves_call_last h env hc hbefore hafter)
    | false =>
      have hsame := (serves_call_same h env hc (hafter.trans hbefore.symm)).mp hserves
      exact hbefore.symm.trans (hattended f hsame)

/-- Every event keeps the running models attended, if the models that come with it do not run. -/
theorem Attended.perform {core : Core} (hattended : Attended core) (h : Managed core) {e : Event}
    (hstopped : e.HandsOverStopped) : Attended (e.perform core).1 := by
  cases e with
  | registerSm offer =>
    exact fun f hf => hattended f (core.registry.startsNone_registerSm hstopped f hf)
  | registerSmFactory id callable =>
    exact fun f hf => hattended f (core.registry.startsNone_registerSmFactory id callable f hf)
  | setupRequest encoder config env request requestMessageId =>
    intro f hf
    have hsubscribers := hattended f (core.registry.startsNone_buildRanFunctionList hstopped _ f hf)
    refine Eq.trans ?_ hsubscribers
    simp only [Event.perform, Core.handleSetup, handleSetupRequest, registerDapp, registerDappLocked,
      Edit.finish]
    split <;> rfl
  | subscriptionRequest env request requestMessageId =>
    simp only [Event.perform, Core.handleSubscriptionRequest]
    split
    · exact hattended.call h env (by simp)
    · exact hattended
  | subscriptionDelete env del requestMessageId => exact hattended.call h env (by simp)
  | releaseMessage env release => exact hattended.call h env (by simp)
  | controlAction env action =>
    exact fun f hf => hattended f (core.registry.startsNone_getByRanFunction hstopped _ f hf)
  | dappReport report => exact hattended
  | traffic t => exact hattended
  | clearRegistry order =>
    rintro f ⟨sm, hsm, -⟩
    cases hsm

theorem attended_after {events : List Event} (hstopped : ∀ e ∈ events, e.HandsOverStopped) :
    Attended (after events) := by
  refine (final_induction (P := fun core => Managed core ∧ Attended core) ⟨managed_after [], ?_⟩
    fun core e he h => ⟨h.1.perform e, h.2.perform h.1 (hstopped e he)⟩).2
  rintro f ⟨sm, hsm, -⟩
  cases hsm

/-! ### Who can have an action executed -/

/-- The handling of the event ends the subscription of `d` to `f`: `d` is released, or deletes the
subscription by its ID. -/
def Event.Ends (core : Core) (d f : UInt32) : Event → Prop
  | .releaseMessage _ release => release.dappIdentifier = d
  | .subscriptionDelete _ del _ =>
    del.dappIdentifier = d ∧ core.manager.subscriptionIds.lookup del.subscriptionId = some (d, f)
  | _ => False

theorem Event.Ends.not_subscribed {core : Core} (h : Managed core) {d f : UInt32} {e : Event}
    (hends : e.Ends core d f) : (e.perform core).1.manager.isSubscribed d f = false := by
  rw [← Bool.not_eq_true]
  cases e with
  | releaseMessage env release =>
    obtain rfl : release.dappIdentifier = d := hends
    rw [isSubscribed_iff]
    have hlive := locked_live h.resolving.indexed
      (c := .unregisterDapp env.order release.dappIdentifier) (by simp)
    intro hf
    have hpair : (release.dappIdentifier, f) ∈ core.manager.liveAfter
        (.unregisterDapp env.order release.dappIdentifier) := hlive ▸ hf
    have hd := h.resolving.indexed.registered hpair.1
    refine hpair.2 ?_
    simp only [revokedBy, hd, if_true]
    exact List.mem_map.mpr ⟨f, (env.order.mem_list _ _).mpr hpair.1, rfl⟩
  | subscriptionDelete env del requestMessageId =>
    obtain ⟨rfl, hk⟩ := hends
    intro hf
    exact ((h.resolving.indexed.removeSubscriptionById_isSubscribed hk _ _).mp hf).2 rfl
  | _ => exact hends.elim

/-- In a state reached by any events that bring no running service model with them, a control action
is executed if and only if the model of its function runs, and then some registered dApp is subscribed
to the function.  That dApp is another than the one that the action names, if this one is not
subscribed, as after its release or after the deletion of its subscription. -/
theorem control_action_needs_subscriber (events : List Event)
    (hstopped : ∀ e ∈ events, e.HandsOverStopped) (env : Env) (henv : MakesStopped env.create)
    (action : DAppControlAction) :
    let core := after events
    let d := action.dappIdentifier
    let f := action.ranFunctionIdentifier
    let executed := (core.handleControlAction env action).2.executed
    (executed = [action] ↔ core.registry.isSmRunning f = true) ∧
    (executed = [] ↔ core.registry.isSmRunning f = false) ∧
    (executed = [action] → ∃ d', core.manager.isDappRegistered d' = true ∧
      core.manager.isSubscribed d' f = true ∧
      (core.manager.isSubscribed d f = false → d' ≠ d)) ∧
    ∀ before e, events = before ++ [e] → e.Ends (after before) d f →
      core.manager.isSubscribed d f = false := by
  intro core d f executed
  have hmanaged : Managed core := managed_after events
  have hruns : core.registry.isSmRunning f = true ↔ core.registry.Serves f := by
    unfold SmRegistry.isSmRunning SmRegistry.Serves
    cases core.registry.sms.lookup f <;> simp
  have hany : (core.registry.getByRanFunction env.create f).2.any ServiceModel.isRunning =
      core.registry.isSmRunning f := by
    rw [Bool.eq_iff_iff, core.registry.any_getByRanFunction henv, hruns]
  have hexecuted : executed = if core.registry.isSmRunning f then [action] else [] := by
    rw [← hany]
    rfl
  refine ⟨?_, ?_, fun hdone => ?_, ?_⟩
  · rw [hexecuted]
    cases core.registry.isSmRunning f <;> simp
  · rw [hexecuted]
    cases core.registry.isSmRunning f <;> simp
  · have hserves : core.registry.Serves f := by
      rw [← hruns]
      rw [hexecuted] at hdone
      by_contra hnot
      rw [if_neg hnot] at hdone
      cases hdone
    have hsubscribers := attended_after hstopped f hserves
    obtain ⟨d', hd'⟩ := (hasSubscribers_iff_live hmanaged.resolving.indexed f).mp hsubscribers
    have hsubscribed : core.manager.isSubscribed d' f = true := (isSubscribed_iff _ _ _).mpr hd'
    refine ⟨d', decide_eq_true (hmanaged.resolving.indexed.registered hd'), hsubscribed, ?_⟩
    rintro hnot rfl
    rw [hsubscribed] at hnot
    cases hnot
  · rintro before e hevents hends
    have hcore : core = (e.perform (after before)).1 := by
      rw [← after_concat, ← hevents]
    rw [hcore]
    exact hends.not_subscribed (managed_after before)

/-- Two dApps subscribe to function 7, whose model is registered, and the first is released. -/
def releasedRun : List Event :=
  [firstSetup, firstSetup, .registerSm (some { ranFunctionId := 7 }), firstSubscription,
    .subscriptionRequest plainEnv ⟨2, 7, [], [], none, none⟩ 3, .releaseMessage plainEnv ⟨1⟩]

theorem handsOverStopped_releasedRun : ∀ e ∈ releasedRun, e.HandsOverStopped := by
  have hnone : MakesStopped plainSurroundings.create := fun id sm hsm => by cases hsm
  intro e he
  simp only [releasedRun, List.mem_cons, List.not_mem_nil, or_false] at he
  rcases he with rfl | rfl | rfl | rfl | rfl | rfl
  · exact hnone
  · exact hnone
  · intro sm hsm
    obtain rfl := Option.some.inj hsm
    rfl
  · trivial
  · trivial
  · trivial

/-- An action of the released dApp is executed, for the other is still subscribed. -/
theorem control_action_needs_subscriber_released :
    ((after releasedRun).handleControlAction plainEnv ⟨1, 7, 0, []⟩).2.executed =
      [⟨1, 7, 0, []⟩] ∧
    ∃ d', (after releasedRun).manager.isDappRegistered d' = true ∧
      (after releasedRun).manager.isSubscribed d' 7 = true ∧ d' ≠ 1 := by
  have hexecuted : ((after releasedRun).handleControlAction plainEnv ⟨1, 7, 0, []⟩).2.executed =
      [⟨1, 7, 0, []⟩] := by decide +kernel
  obtain ⟨-, -, hsubscriber, -⟩ := control_action_needs_subscriber releasedRun
    handsOverStopped_releasedRun plainEnv (fun id sm hsm => by cases hsm) ⟨1, 7, 0, []⟩
  obtain ⟨d', hregistered, hsubscribed, hother⟩ := hsubscriber hexecuted
  exact ⟨hexecuted, d', hregistered, hsubscribed, hother (by decide +kernel)⟩

/-- The dApp that the action names is neither registered nor subscribed. -/
theorem control_action_of_released_executed :
    (after releasedRun).manager.isDappRegistered 1 = false ∧
    (after releasedRun).manager.isSubscribed 1 7 = false ∧
    ((after releasedRun).handleControlAction plainEnv ⟨1, 7, 0, []⟩).2.executed =
      [⟨1, 7, 0, []⟩] := by
  refine ⟨?_, ?_, ?_⟩ <;> decide +kernel

end Handlers

end LibE3
