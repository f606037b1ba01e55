import LibE3.Interface.Served

/-! Sessions.  A session of an interface goes from a `start` that succeeds to the next `stop`.  `stop`
clears the registry and disposes the connector, but the subscription manager is made by `init` alone
and nothing empties it.  So a session begins without dApps exactly when the sessions before it have
released all of theirs, and only then is the first subscription to a RAN function sure to start its
service model. -/

namespace LibE3

open Transition SubscriptionManager

namespace E3Interface

/-- What the message handlers of an initialised interface work on. -/
def core? (x : E3Interface) : Option Core :=
  x.subscriptionManager.bind fun manager => x.responseQueue.map fun queue =>
    { manager, queue, registry := x.registry }

/-- The interface with what a handler has left. -/
def withCore (x : E3Interface) (core : Core) : E3Interface :=
  { x with
    subscriptionManager := some core.manager
    responseQueue := some core.queue
    registry := core.registry }

theorem core?_withCore (x : E3Interface) (core : Core) : (x.withCore core).core? = some core := rfl

theorem manager_of_core? {x : E3Interface} {core : Core} (h : x.core? = some core) :
    x.subscriptionManager = some core.manager := by
  obtain ⟨manager, hmanager, hrest⟩ := Option.bind_eq_some_iff.mp h
  obtain ⟨queue, -, rfl⟩ := Option.map_eq_some_iff.mp hrest
  exact hmanager

end E3Interface

namespace Sessions

open Handlers E3Interface

/-- The calls of the application on an interface, and the messages that its threads handle.  The
threads live from `start` to `stop`, and a registration of a service model is possible at any time. -/
inductive Step
  | init (encoder : Bool)
  | start (connection : ErrorCode)
  | stop (order : Enumeration UInt32)
  | registerSm (sm : Option ServiceModel)
  | registerSmFactory (ranFunctionId : UInt32) (callable : Bool)
  | handle (e : Event)

def Step.perform (x : E3Interface) : Step → E3Interface × ErrorCode
  | .init encoder => x.init encoder
  | .start connection => x.start connection
  | .stop order => (x.stop order, .success)
  | .registerSm sm =>
    ({ x with registry := (x.registry.registerSm sm).1 }, (x.registry.registerSm sm).2)
  | .registerSmFactory ranFunctionId callable =>
    ({ x with registry := (x.registry.registerSmFactory ranFunctionId callable).1 },
      (x.registry.registerSmFactory ranFunctionId callable).2)
  | .handle e =>
    if x.state = .running then
      (x.core?.elim x fun core => x.withCore (e.perform core).1, .success)
    else (x, .success)

/-- The interface after a run from its construction. -/
def after (linkLayer : E3LinkLayer) (steps : List Step) : E3Interface :=
  final Step.perform { linkLayer } steps

/-- The manager, if there is one, knows no dApp and no subscription. -/
def Vacant (x : E3Interface) : Prop :=
  ∀ manager, x.subscriptionManager = some manager →
    manager.registeredDapps = ∅ ∧ manager.live = ∅

/-- Every `start` of the run that succeeds finds the manager empty. -/
def StartsVacant (linkLayer : E3LinkLayer) (steps : List Step) : Prop :=
  ∀ before connection rest, steps = before ++ .start connection :: rest →
    ((after linkLayer before).start connection).2 = .success → Vacant (after linkLayer before)

/-- The steps of a session before the first request for `f`. -/
def BeforeFirst (f : UInt32) (s : Step) : Prop :=
  (∀ order, s ≠ .stop order) ∧
    ∀ env request requestMessageId,
      s = .handle (.subscriptionRequest env request requestMessageId) →
        request.ranFunctionIdentifier ≠ f

/-- In every session of the run, the first request for a RAN function that a registered dApp makes
leaves the service model of the function running, if one is registered and its start succeeds. -/
def FirstRequestsStart (linkLayer : E3LinkLayer) (steps : List Step) : Prop :=
  ∀ before connection mid env request requestMessageId rest,
    steps = before ++ .start connection ::
      (mid ++ .handle (.subscriptionRequest env request requestMessageId) :: rest) →
    ((after linkLayer before).start connection).2 = .success →
    (∀ s ∈ mid, BeforeFirst request.ranFunctionIdentifier s) →
    let x := after linkLayer (before ++ .start connection :: mid)
    (∃ manager, x.subscriptionManager = some manager ∧
      manager.isDappRegistered request.dappIdentifier = true) →
    Startable env x.registry request.ranFunctionIdentifier →
    ((Step.handle (.subscriptionRequest env request requestMessageId)).perform x).1.registry.Serves
      request.ranFunctionIdentifier

/-- No `start` of the run succeeds after a `stop` that found a dApp registered. -/
def RestartsVacant (linkLayer : E3LinkLayer) (steps : List Step) : Prop :=
  ∀ before order mid connection rest,
    steps = before ++ .stop order :: (mid ++ .start connection :: rest) →
    ((after linkLayer (before ++ .stop order :: mid)).start connection).2 = .success →
    ∀ manager, (after linkLayer before).subscriptionManager = some manager →
      manager.registeredDapps = ∅

/-! ### What a step does to the manager -/

section Steps

variable {x : E3Interface}

theorem after_concat (linkLayer : E3LinkLayer) (steps : List Step) (s : Step) :
    after linkLayer (steps ++ [s]) = (s.perform (after linkLayer steps)).1 :=
  final_concat _ _ _ _

theorem start_success {connection : ErrorCode} (h : (x.start connection).2 = .success) :
    x.state = .initialized ∧ (x.start connection).1.state = .running ∧
      (x.start connection).1.subscriptionManager = x.subscriptionManager ∧
      (x.start connection).1.core? = x.core? := by
  unfold E3Interface.start at h ⊢
  split at h
  · cases h
  · rename_i hstate
    rw [ne_eq, not_not] at hstate
    split at h
    · rename_i hfailed
      exact absurd h hfailed
    · rename_i hconnected
      simp only [hstate, ne_eq, not_true_eq_false, if_false, hconnected]
      exact ⟨trivial, trivial, trivial, rfl⟩

theorem stop_manager (x : E3Interface) (order : Enumeration UInt32) :
    (x.stop order).subscriptionManager = x.subscriptionManager := by
  unfold E3Interface.stop
  split <;> rfl

theorem stop_idle (order : Enumeration UInt32) (h : x.state ≠ .uninitialized) :
    (x.stop order).state ≠ .running ∧ (x.stop order).state ≠ .uninitialized := by
  refine ⟨stop_not_running x order, ?_⟩
  unfold E3Interface.stop
  split
  · exact h
  · nofun

/-- A running interface runs until it is stopped. -/
theorem running_perform (h : x.state = .running) {s : Step} (hs : ∀ order, s ≠ .stop order) :
    (s.perform x).1.state = .running := by
  cases s with
  | init encoder => simp [Step.perform, E3Interface.init, h]
  | start connection => simp [Step.perform, E3Interface.start, h]
  | stop order => exact absurd rfl (hs order)
  | registerSm sm => exact h
  | registerSmFactory ranFunctionId callable => exact h
  | handle e =>
    simp only [Step.perform, h, if_true]
    cases x.core? <;> exact h

/-- An interface that does not run stays so until a `start` succeeds, and but for `init` nothing
touches its manager. -/
theorem idle_perform (h : x.state ≠ .running) (s : Step) :
    (∃ connection, s = .start connection ∧ (x.start connection).2 = .success) ∨
    (s.perform x).1.state ≠ .running ∧
      (x.state = .uninitialized ∧ (s.perform x).1.state ≠ .uninitialized ∧ Vacant (s.perform x).1 ∨
        (s.perform x).1.subscriptionManager = x.subscriptionManager ∧
          (x.state ≠ .uninitialized → (s.perform x).1.state ≠ .uninitialized)) := by
  cases s with
  | init encoder =>
    right
    simp only [Step.perform, E3Interface.init]
    split
    · exact ⟨h, Or.inr ⟨rfl, id⟩⟩
    split
    · exact ⟨h, Or.inr ⟨rfl, id⟩⟩
    · rename_i hstate _
      rw [ne_eq, not_not] at hstate
      have hrunning : AgentState.initialized ≠ .running := by decide
      have hbegun : AgentState.initialized ≠ .uninitialized := by decide
      refine ⟨hrunning, Or.inl ⟨hstate, hbegun, fun manager hmanager => ?_⟩⟩
      cases hmanager
      exact ⟨rfl, Set.eq_empty_of_forall_notMem fun p hp => Finset.notMem_empty _ hp⟩
  | start connection =>
    by_cases hsuccess : (x.start connection).2 = .success
    · exact Or.inl ⟨connection, rfl, hsuccess⟩
    · right
      simp only [Step.perform]
      unfold E3Interface.start at hsuccess ⊢
      split
      · exact ⟨h, Or.inr ⟨rfl, id⟩⟩
      · rename_i hstate
        rw [if_neg hstate] at hsuccess
        dsimp only
        split
        · have hrunning : AgentState.error ≠ .running := by decide
          have hbegun : AgentState.error ≠ .uninitialized := by decide
          exact ⟨hrunning, Or.inr ⟨rfl, fun _ => hbegun⟩⟩
        · rename_i hconnected
          exact absurd (by simp only [hconnected, if_false]) hsuccess
  | stop order =>
    right
    exact ⟨stop_not_running x order, Or.inr ⟨stop_manager x order, fun h => (stop_idle order h).2⟩⟩
  | registerSm sm => exact Or.inr ⟨h, Or.inr ⟨rfl, id⟩⟩
  | registerSmFactory ranFunctionId callable => exact Or.inr ⟨h, Or.inr ⟨rfl, id⟩⟩
  | handle e =>
    right
    rw [show (Step.handle e).perform x = (x, .success) from if_neg h]
    exact ⟨h, Or.inr ⟨rfl, id⟩⟩

end Steps

/-! ### Between the sessions -/

section Between

variable {linkLayer : E3LinkLayer} {steps : List Step}

/-- From an initialised interface that does not run, steps leave the manager alone up to the first
`start` that succeeds. -/
theorem idle_run {x : E3Interface} (hidle : x.state ≠ .running) (hbegun : x.state ≠ .uninitialized)
    (steps : List Step) :
    ((final Step.perform x steps).state ≠ .running ∧
      (final Step.perform x steps).state ≠ .uninitialized ∧
      (final Step.perform x steps).subscriptionManager = x.subscriptionManager) ∨
    ∃ before connection rest, steps = before ++ .start connection :: rest ∧
      ((final Step.perform x before).start connection).2 = .success ∧
      (final Step.perform x before).subscriptionManager = x.subscriptionManager := by
  induction steps using List.reverseRecOn with
  | nil => exact Or.inl ⟨hidle, hbegun, rfl⟩
  | append_singleton steps s ih =>
    rcases ih with ⟨hidle', hbegun', hsame⟩ | ⟨before, connection, rest, rfl, hstart, hsame⟩
    · rcases idle_perform hidle' s with ⟨connection, rfl, hstart⟩ | ⟨hstill, hnext⟩
      · exact Or.inr ⟨steps, connection, [], rfl, hstart, hsame⟩
      · obtain ⟨hkept, hstate⟩ := hnext.resolve_left fun h => hbegun' h.1
        rw [final_concat]
        exact Or.inl ⟨hstill, hstate hbegun', hkept.trans hsame⟩
    · exact Or.inr ⟨before, connection, rest ++ [s], by simp, hstart, hsame⟩

/-- The manager of an interface that does not run is vacant or is as some `stop` found it. -/
theorem idle_manager (h : (after linkLayer steps).state ≠ .running) :
    Vacant (after linkLayer steps) ∨
    ∃ before order mid, steps = before ++ .stop order :: mid ∧
      (after linkLayer steps).subscriptionManager =
        (after linkLayer before).subscriptionManager := by
  induction steps using List.reverseRecOn with
  | nil => exact Or.inl fun manager hmanager => by cases hmanager
  | append_singleton steps s ih =>
    rw [after_concat] at h ⊢
    by_cases hrunning : (after linkLayer steps).state = .running
    · -- Only a `stop` ends a session.
      by_cases hstop : ∃ order, s = .stop order
      · obtain ⟨order, rfl⟩ := hstop
        exact Or.inr ⟨steps, order, [], rfl, stop_manager _ order⟩
      · exact absurd (running_perform hrunning fun order heq => hstop ⟨order, heq⟩) h
    · rcases idle_perform hrunning s with ⟨connection, rfl, hstart⟩ | ⟨-, hnext⟩
      · exact absurd (start_success hstart).2.1 h
      rcases hnext with ⟨-, -, hvacant⟩ | ⟨hkept, -⟩
      · exact Or.inl hvacant
      rcases ih hrunning with hvacant | ⟨before, order, mid, rfl, hsame⟩
      · refine Or.inl fun manager hmanager => hvacant manager ?_
        rw [← hkept]
        exact hmanager
      · exact Or.inr ⟨before, order, mid ++ [s], by simp, hkept.trans hsame⟩

/-! ### Within a session -/

/-- The parts of an initialised interface. -/
def Kept (x : E3Interface) : Prop :=
  x.state ≠ .uninitialized → ∃ core, x.core? = some core ∧ Managed core

/-- Nothing but the registry of the parts has changed, or not even that. -/
theorem Kept.of_same {x x' : E3Interface} (h : Kept x)
    (hstate : x'.state ≠ .uninitialized → x.state ≠ .uninitialized)
    (hmanager : x'.subscriptionManager = x.subscriptionManager)
    (hqueue : ∀ q, x.responseQueue = some q → ∃ q', x'.responseQueue = some q') : Kept x' := by
  intro hbegun
  obtain ⟨core, hcore, hmanaged⟩ := h (hstate hbegun)
  obtain ⟨manager, hsome, hrest⟩ := Option.bind_eq_some_iff.mp hcore
  obtain ⟨queue, hq, rfl⟩ := Option.map_eq_some_iff.mp hrest
  obtain ⟨queue', hq'⟩ := hqueue queue hq
  refine ⟨⟨manager, queue', x'.registry⟩, ?_, ⟨hmanaged.resolving, hmanaged.callback⟩⟩
  simp [core?, hmanager, hsome, hq']

theorem Kept.perform {x : E3Interface} (h : Kept x) (s : Step) : Kept (s.perform x).1 := by
  cases s with
  | init encoder =>
    simp only [Step.perform, E3Interface.init]
    split
    · exact h
    split
    · exact h
    · exact fun _ => ⟨_, rfl, resolving_fresh true, rfl⟩
  | start connection =>
    simp only [Step.perform, E3Interface.start]
    split
    · exact h
    rename_i hstate
    have hbegun : x.state ≠ .uninitialized := by
      rw [ne_eq, not_not] at hstate
      rw [hstate]
      decide
    split
    · exact h.of_same (fun _ => hbegun) rfl fun q hq => ⟨q, hq⟩
    · exact h.of_same (fun _ => hbegun) rfl fun q hq => ⟨q, hq⟩
  | stop order =>
    simp only [Step.perform, E3Interface.stop]
    split
    · exact h
    · rename_i hstate
      refine h.of_same (fun _ hstate' => hstate (Or.inl hstate')) rfl fun q hq => ?_
      exact ⟨q.signalShutdown, by simp [hq]⟩
  | registerSm sm => exact h.of_same id rfl fun q hq => ⟨q, hq⟩
  | registerSmFactory ranFunctionId callable => exact h.of_same id rfl fun q hq => ⟨q, hq⟩
  | handle e =>
    simp only [Step.perform]
    split
    · rename_i hrunning
      obtain ⟨core, hcore, hmanaged⟩ := h (by simp [hrunning])
      rw [hcore]
      exact fun _ => ⟨_, core?_withCore _ _, hmanaged.perform e⟩
    · exact h

theorem kept_after (linkLayer : E3LinkLayer) (steps : List Step) : Kept (after linkLayer steps) :=
  final_induction (fun hbegun => absurd rfl hbegun) fun _ s _ h => h.perform s

/-- A session in which no dApp has subscribed to `f` yet. -/
structure Unrequested (f : UInt32) (x : E3Interface) : Prop where
  running : x.state = .running
  unsubscribed : ∃ core, x.core? = some core ∧ Managed core ∧
    core.manager.hasSubscribers f = false

/-- A message other than a request for `f` brings `f` no subscriber. -/
theorem unsubscribed_perform {core : Core} (h : Managed core) {f : UInt32}
    (hnone : core.manager.hasSubscribers f = false) {e : Event}
    (he : ∀ env request requestMessageId,
      e = .subscriptionRequest env request requestMessageId → request.ranFunctionIdentifier ≠ f) :
    (e.perform core).1.manager.hasSubscribers f = false := by
  rw [perform_manager]
  cases hcall : e.call core with
  | none => exact hnone
  | some c =>
    rw [← Bool.not_eq_true]
    intro hsome
    obtain ⟨d, rfl, -⟩ :=
      first_subscriber h.resolving.indexed (Event.call_ne_clear hcall) hnone hsome
    cases e with
    | subscriptionRequest env request requestMessageId =>
      simp only [Event.call] at hcall
      split at hcall
      · cases hcall
        exact he env request requestMessageId rfl rfl
      · cases hcall
    | _ => cases hcall

theorem Unrequested.perform {f : UInt32} {x : E3Interface} (h : Unrequested f x) {s : Step}
    (hs : BeforeFirst f s) : Unrequested f (s.perform x).1 := by
  refine ⟨running_perform h.running hs.1, ?_⟩
  obtain ⟨core, hcore, hmanaged, hnone⟩ := h.unsubscribed
  have hregistry : ∀ registry, ∃ core, ({ x with registry } : E3Interface).core? = some core ∧
      Managed core ∧ core.manager.hasSubscribers f = false := by
    intro registry
    obtain ⟨manager, hmanager, hrest⟩ := Option.bind_eq_some_iff.mp hcore
    obtain ⟨queue, hqueue, rfl⟩ := Option.map_eq_some_iff.mp hrest
    refine ⟨⟨manager, queue, registry⟩, ?_, ⟨hmanaged.resolving, hmanaged.callback⟩, hnone⟩
    simp [core?, hmanager, hqueue]
  cases s with
  | init encoder => exact ⟨core, by simpa [Step.perform, E3Interface.init, h.running], hmanaged, hnone⟩
  | start connection =>
    exact ⟨core, by simpa [Step.perform, E3Interface.start, h.running], hmanaged, hnone⟩
  | stop order => exact absurd rfl (hs.1 order)
  | registerSm sm => exact hregistry _
  | registerSmFactory ranFunctionId callable => exact hregistry _
  | handle e =>
    simp only [Step.perform, h.running, if_true, hcore]
    refine ⟨_, core?_withCore _ _, hmanaged.perform e, unsubscribed_perform hmanaged hnone ?_⟩
    exact fun env request requestMessageId heq => hs.2 env request requestMessageId (heq ▸ rfl)

/-- The first request for a RAN function starts its service model. -/
theorem Unrequested.serves {x : E3Interface} {env : Env} {request : SubscriptionRequest}
    (h : Unrequested request.ranFunctionIdentifier x) {manager : SubscriptionManager}
    (hmanager : x.subscriptionManager = some manager)
    (hregistered : manager.isDappRegistered request.dappIdentifier = true)
    (hstartable : Startable env x.registry request.ranFunctionIdentifier)
    (requestMessageId : UInt32) :
    ((Step.handle (.subscriptionRequest env request requestMessageId)).perform x).1.registry.Serves
      request.ranFunctionIdentifier := by
  obtain ⟨core, hcore, hmanaged, hnone⟩ := h.unsubscribed
  have hsame : core.manager = manager := by
    rw [manager_of_core? hcore] at hmanager
    exact Option.some.inj hmanager
  have hregistry : core.registry = x.registry := by
    obtain ⟨_, -, hrest⟩ := Option.bind_eq_some_iff.mp hcore
    obtain ⟨_, -, rfl⟩ := Option.map_eq_some_iff.mp hrest
    rfl
  rw [← hsame] at hregistered
  rw [← hregistry] at hstartable
  have hafter := hasSubscribers_addSubscription hmanaged.resolving.indexed
    (of_decide_eq_true hregistered) request.ranFunctionIdentifier
  have hserves := (serves_call_first hmanaged env (c := .addSubscription request.dappIdentifier
    request.ranFunctionIdentifier) (by simp) hnone hafter).mpr hstartable
  simp only [Step.perform, h.running, if_true, hcore, Option.elim_some, Event.perform,
    Core.handleSubscriptionRequest, hregistered]
  exact hserves

/-- Only `init` makes a manager, and it leaves the interface initialised. -/
theorem uninitialized_manager (linkLayer : E3LinkLayer) (steps : List Step) :
    (after linkLayer steps).state = .uninitialized →
      (after linkLayer steps).subscriptionManager = none := by
  refine final_induction (P := fun x : E3Interface =>
    x.state = .uninitialized → x.subscriptionManager = none) (fun _ => rfl) fun x s _ h => ?_
  intro hstate
  by_cases hrunning : x.state = .running
  · by_cases hstop : ∃ order, s = .stop order
    · obtain ⟨order, rfl⟩ := hstop
      simp [Step.perform, E3Interface.stop, hrunning] at hstate
    · rw [running_perform hrunning fun order heq => hstop ⟨order, heq⟩] at hstate
      cases hstate
  · rcases idle_perform hrunning s with ⟨connection, rfl, hstart⟩ | ⟨-, ⟨-, hbegun, -⟩ | hnext⟩
    · cases (start_success hstart).2.1.symm.trans hstate
    · exact absurd hstate hbegun
    · rw [hnext.1]
      exact h (by_contra fun hbegun => hnext.2 hbegun hstate)

end Between

/-! ### When no subscription outlives its session -/

/-- Over any run, every session begins without dApps and subscriptions and the first request for a
RAN function starts its service model, if and only if no `start` succeeds after a `stop` that found
a dApp registered. -/
theorem sessions_separate_iff (linkLayer : E3LinkLayer) (steps : List Step) :
    StartsVacant linkLayer steps ∧ FirstRequestsStart linkLayer steps ↔
      RestartsVacant linkLayer steps := by
  constructor
  · rintro ⟨hvacant, -⟩ before order mid connection rest rfl hstart manager hmanager
    have hbegun : (after linkLayer before).state ≠ .uninitialized := fun hstate => by
      rw [uninitialized_manager linkLayer before hstate] at hmanager
      cases hmanager
    have hstopped : ((after linkLayer before).stop order).subscriptionManager = some manager := by
      rw [stop_manager, hmanager]
    have hrun : ∀ mid, after linkLayer (before ++ .stop order :: mid) =
        final Step.perform ((after linkLayer before).stop order) mid := fun mid =>
      final_append _ _ _ _
    -- The first `start` after the `stop` that succeeds finds the manager that the `stop` left.
    obtain ⟨first, connection', rest', hmid, hfirst, hsame⟩ : ∃ first connection' rest',
        mid ++ .start connection :: rest = first ++ .start connection' :: rest' ∧
        ((after linkLayer (before ++ .stop order :: first)).start connection').2 = .success ∧
        (after linkLayer (before ++ .stop order :: first)).subscriptionManager = some manager := by
      obtain ⟨hidle, hbegun'⟩ := stop_idle order hbegun
      rcases idle_run hidle hbegun' mid with ⟨-, -, hsame⟩ | ⟨first, c, later, rfl, hfirst, hsame⟩
      · refine ⟨mid, connection, rest, rfl, hstart, ?_⟩
        rw [hrun, hsame, hstopped]
      · refine ⟨first, c, later ++ .start connection :: rest, by simp, ?_, ?_⟩
        · rw [hrun]
          exact hfirst
        · rw [hrun, hsame, hstopped]
    exact (hvacant (before ++ .stop order :: first) connection' rest' (by simp [hmid]) hfirst
      manager hsame).1
  · intro hrestarts
    have hvacant : StartsVacant linkLayer steps := by
      rintro before connection rest rfl hstart
      have hstate := (start_success hstart).1
      have hidle : (after linkLayer before).state ≠ .running := by
        rw [hstate]
        nofun
      rcases idle_manager hidle with hvacant | ⟨earlier, order, mid, rfl, hsame⟩
      · exact hvacant
      · intro manager hmanager
        have hempty := hrestarts earlier order mid connection rest (by simp) hstart manager
          (hsame.symm.trans hmanager)
        refine ⟨hempty, Set.eq_empty_of_forall_notMem fun p hp => ?_⟩
        obtain ⟨core, hcore, hmanaged⟩ := kept_after linkLayer _ (by rw [hstate]; nofun)
        cases (manager_of_core? hcore).symm.trans hmanager
        have hregistered := hmanaged.resolving.indexed.registered (d := p.1) (f := p.2) hp
        rw [hempty] at hregistered
        exact Finmap.notMem_empty hregistered
    refine ⟨hvacant, ?_⟩
    rintro before connection mid env request requestMessageId rest rfl hstart hmid x
      ⟨manager, hmanager, hregistered⟩ hstartable
    have hbegin : Unrequested request.ranFunctionIdentifier
        ((after linkLayer before).start connection).1 := by
      obtain ⟨hstate, hrunning, -, hparts⟩ := start_success hstart
      refine ⟨hrunning, ?_⟩
      obtain ⟨core, hcore, hmanaged⟩ := kept_after linkLayer before (by rw [hstate]; nofun)
      refine ⟨core, hparts.trans hcore, hmanaged, ?_⟩
      rw [← Bool.not_eq_true, hasSubscribers_iff_live hmanaged.resolving.indexed]
      rintro ⟨d, hd⟩
      rw [(hvacant before connection _ rfl hstart core.manager (manager_of_core? hcore)).2] at hd
      exact hd
    have hsession : Unrequested request.ranFunctionIdentifier x := by
      have hx : x = final Step.perform ((after linkLayer before).start connection).1 mid :=
        final_append _ _ _ _
      rw [hx]
      exact final_induction hbegin fun y s hs hy => hy.perform (hmid s hs)
    exact hsession.serves hmanager hregistered hstartable requestMessageId

/-- A dApp subscribes to function 7 and is not released.  After a restart the service model is
registered again, and a second dApp sets up and subscribes to the function. -/
def carriedRun : List Step :=
  [.init true, .registerSm (some { ranFunctionId := 7 }), .start .success, .handle firstSetup,
    .handle firstSubscription, .stop (.ascending UInt32),
    .registerSm (some { ranFunctionId := 7 }), .start .success, .handle firstSetup,
    .handle (.subscriptionRequest plainEnv ⟨2, 7, [], [], none, none⟩ 3)]

/-- The second session begins with the dApp and the subscription of the first, so the first request
in it finds a subscriber and the new model is never started. -/
theorem not_sessions_separate_carriedRun :
    ((after .zmq (carriedRun.take 7)).start .success).2 = .success ∧
    (after .zmq (carriedRun.take 7)).subscriptionManager.any (fun manager =>
      manager.isDappRegistered 1 && manager.isSubscribed 1 7) = true ∧
    (after .zmq carriedRun).subscriptionManager.any (·.isSubscribed 2 7) = true ∧
    (∃ sm, (after .zmq carriedRun).registry.sms.lookup 7 = some sm ∧ sm.received = [.init .success]) ∧
    ¬StartsVacant .zmq carriedRun := by
  have hstart : ((after .zmq (carriedRun.take 7)).start .success).2 = .success := by decide +kernel
  have hkept : (after .zmq (carriedRun.take 7)).subscriptionManager.any (fun manager =>
      manager.isDappRegistered 1 && manager.isSubscribed 1 7) = true := by decide +kernel
  refine ⟨hstart, hkept, by decide +kernel, ⟨ServiceModel.init { ranFunctionId := 7 },
    by decide +kernel, rfl⟩, fun h => ?_⟩
  obtain ⟨manager, hmanager, hregistered⟩ := (Option.any_eq_true _ _).mp hkept
  have hempty := (h (carriedRun.take 7) .success (carriedRun.drop 8) rfl hstart manager hmanager).1
  rw [Bool.and_eq_true] at hregistered
  have hmem := of_decide_eq_true hregistered.1
  rw [hempty] at hmem
  exact Finmap.notMem_empty hmem

end Sessions

end LibE3
