import LibE3.Interface.Lifecycle
import LibE3.Interface.Setup
import LibE3.Interface.Subscriber
import LibE3.Subscription.Lifecycle

/-! The message handlers of `E3Interface` on all that they share: the subscription manager, the
registry behind its lifecycle callback, and the response queue.  A handler edits the manager first and
passes its response to `queue_outbound` last, and does not look at what `queue_outbound` returns.  So
a subscription changes without a response exactly when the queue takes no more. -/

namespace LibE3

open Transition SubscriptionManager

structure Core where
  manager : SubscriptionManager := { smLifecycleCallback := true }
  queue : ResponseQueue := {}
  registry : SmRegistry := {}

/-- A push succeeds. -/
def ResponseQueue.Accepts (q : ResponseQueue) : Prop := q.shutdown = false ∧ q.full = false

/-- What happens to the queue between two uses of it by a handler: other threads and the service
models push, the publisher pops, and `stop` shuts it down. -/
inductive Traffic
  | queueOutbound (pdu : Pdu)
  | publish
  | shutdown

def Traffic.perform (q : ResponseQueue) : Traffic → ResponseQueue
  | .queueOutbound pdu => (q.push pdu).1
  | .publish => q.tryPop.1
  | .shutdown => q.signalShutdown

namespace Handlers

/-- What a handler takes from outside: besides the clock and the message ID, what the service models
that it starts return, what the factories make, and the traffic on the queue before its response. -/
structure Env extends Subscriber.Surroundings where
  startResult : UInt32 → ErrorCode
  create : UInt32 → Option ServiceModel
  traffic : List Traffic := []

/-- What a handling does to the outside: the PDUs it passed to `queue_outbound`, how often it called
`notify_dapp_status_changed`, the buffers it handed to `send_response`, and what it passed to a
service model or to the report handler. -/
structure Effects where
  passed : List Pdu := []
  notified : Nat := 0
  sent : List Octets := []
  executed : List DAppControlAction := []
  reported : List DAppReport := []

/-- A start that fails is logged. -/
def onSmLifecycleChange (startResult : UInt32 → ErrorCode) (registry : SmRegistry)
    (callback : Callback) : SmRegistry :=
  if callback.2 then (registry.startSm (startResult callback.1) callback.1).1
  else (registry.stopSm callback.1).1

end Handlers

namespace Core

open Handlers Subscriber

variable (core : Core) (env : Env)

/-- A call of the manager, with the lifecycle callbacks that it makes. -/
def call (c : Call) : Core × Outcome :=
  let (manager, result) := c.perform core.manager
  ({ core with
      manager
      registry := result.callbacks.foldl (onSmLifecycleChange env.startResult) core.registry },
    result)

/-- The end of a handler that answers: after the traffic of the others, its response. -/
def reply (notified : Nat) (pdu : Pdu) : Core × Effects :=
  let queue := env.traffic.foldl Traffic.perform core.queue
  ({ core with queue := (queue.push pdu).1 }, { passed := [pdu], notified })

def handleSubscriptionRequest (request : SubscriptionRequest) (requestMessageId : UInt32) :
    Core × Effects :=
  if core.manager.isDappRegistered request.dappIdentifier then
    let (edited, result) :=
      core.call env (.addSubscription request.dappIdentifier request.ranFunctionIdentifier)
    let responseCode := positiveIf (result.code = .success ∨ result.code = .subscriptionExists)
    edited.reply env (if result.code = .success then 1 else 0)
      (subscriptionResponsePdu env.toSurroundings request requestMessageId responseCode result.id)
  else
    core.reply env 0
      (subscriptionResponsePdu env.toSurroundings request requestMessageId .negative 1)

def handleSubscriptionDelete (del : SubscriptionDelete) (requestMessageId : UInt32) :
    Core × Effects :=
  let (edited, result) :=
    core.call env (.removeSubscriptionById del.dappIdentifier del.subscriptionId)
  edited.reply env (if result.code = .success then 1 else 0)
    (messageAckPdu env.toSurroundings requestMessageId (positiveIf (result.code = .success)))

/-- `handle_release_message` with `handle_dapp_disconnection`, which reads the subscriptions only to
log their number. -/
def handleReleaseMessage (release : ReleaseMessage) : Core × Effects :=
  let (edited, result) := core.call env (.unregisterDapp env.order release.dappIdentifier)
  (edited, { notified := if result.code = .success then 1 else 0 })

/-- Whoever sent the action, it goes to the service model that runs for its RAN function. -/
def handleControlAction (action : DAppControlAction) : Core × Effects :=
  let (registry, sm) := core.registry.getByRanFunction env.create action.ranFunctionIdentifier
  ({ core with registry },
    { executed := if sm.any ServiceModel.isRunning then [action] else [] })

def handleSetup (encoder : E3Encoder) (config : E3Config) (env : LibE3.Surroundings)
    (request : SetupRequest) (requestMessageId : UInt32) : Core × Effects :=
  let outcome := handleSetupRequest encoder config env core.manager core.registry request
    requestMessageId
  ({ core with manager := outcome.manager, registry := outcome.registry },
    { notified := outcome.notified, sent := outcome.sent })

end Core

namespace Handlers

/-- What moves the interface once it is initialised: registrations of service models, the messages of
the setup and the subscriber thread, the traffic on the queue, and the end of `stop`, which clears the
registry. -/
inductive Event
  | registerSm (sm : Option ServiceModel)
  | registerSmFactory (ranFunctionId : UInt32) (callable : Bool)
  | setupRequest (encoder : E3Encoder) (config : E3Config) (env : LibE3.Surroundings)
      (request : SetupRequest) (requestMessageId : UInt32)
  | subscriptionRequest (env : Env) (request : SubscriptionRequest) (requestMessageId : UInt32)
  | subscriptionDelete (env : Env) (del : SubscriptionDelete) (requestMessageId : UInt32)
  | releaseMessage (env : Env) (release : ReleaseMessage)
  | controlAction (env : Env) (action : DAppControlAction)
  | dappReport (report : DAppReport)
  | traffic (t : Traffic)
  | clearRegistry (order : Enumeration UInt32)

def Event.perform (core : Core) : Event → Core × Effects
  | .registerSm sm => ({ core with registry := (core.registry.registerSm sm).1 }, {})
  | .registerSmFactory ranFunctionId callable =>
    ({ core with registry := (core.registry.registerSmFactory ranFunctionId callable).1 }, {})
  | .setupRequest encoder config env request requestMessageId =>
    core.handleSetup encoder config env request requestMessageId
  | .subscriptionRequest env request requestMessageId =>
    core.handleSubscriptionRequest env request requestMessageId
  | .subscriptionDelete env del requestMessageId =>
    core.handleSubscriptionDelete env del requestMessageId
  | .releaseMessage env release => core.handleReleaseMessage env release
  | .controlAction env action => core.handleControlAction env action
  | .dappReport report => (core, { reported := [report] })
  | .traffic t => ({ core with queue := t.perform core.queue }, {})
  | .clearRegistry order => ({ core with registry := core.registry.clear order }, {})

/-- The interface after a run of events from its initialisation. -/
def after (events : List Event) : Core := final Event.perform {} events

/-! ### The manager over a run -/

/-- The call of the manager that an event makes, if any. -/
def Event.call (core : Core) : Event → Option Call
  | .setupRequest _ _ env _ _ => some (.registerDapp env.now)
  | .subscriptionRequest _ request _ =>
    if core.manager.isDappRegistered request.dappIdentifier then
      some (.addSubscription request.dappIdentifier request.ranFunctionIdentifier)
    else none
  | .subscriptionDelete _ del _ =>
    some (.removeSubscriptionById del.dappIdentifier del.subscriptionId)
  | .releaseMessage env release => some (.unregisterDapp env.order release.dappIdentifier)
  | _ => none

theorem Event.call_ne_clear {core : Core} {e : Event} {c : Call} (h : e.call core = some c) :
    c ≠ .clear := by
  rintro rfl
  cases e with
  | subscriptionRequest env request requestMessageId =>
    simp only [Event.call] at h
    split at h <;> cases h
  | _ => cases h

theorem perform_manager (core : Core) (e : Event) :
    (e.perform core).1.manager =
      (e.call core).elim core.manager fun c => (c.perform core.manager).1 := by
  cases e with
  | subscriptionRequest env request requestMessageId =>
    simp only [Event.perform, Core.handleSubscriptionRequest, Event.call]
    split <;> rfl
  | _ => rfl

/-- What holds of the manager of an interface: `init()` has installed the callback, and no handler
clears it. -/
structure Managed (core : Core) : Prop where
  resolving : core.manager.Resolving
  callback : core.manager.smLifecycleCallback = true

theorem Managed.watched {core : Core} (h : Managed core) : core.manager.Watched :=
  ⟨h.resolving.indexed, h.callback⟩

theorem Managed.perform {core : Core} (h : Managed core) (e : Event) : Managed (e.perform core).1 := by
  have hmanager := perform_manager core e
  cases hcall : e.call core with
  | none =>
    rw [hcall] at hmanager
    exact ⟨hmanager ▸ h.resolving, hmanager ▸ h.callback⟩
  | some c =>
    rw [hcall] at hmanager
    have hc := Event.call_ne_clear hcall
    exact ⟨hmanager ▸ h.resolving.locked hc, hmanager ▸ (h.watched.locked c).callback⟩

theorem managed_after (events : List Event) : Managed (after events) := by
  refine final_induction ?_ fun core e _ h => h.perform e
  exact ⟨resolving_fresh true, rfl⟩

/-! ### No change without a response -/

/-- The PDU is the response to the message of an event. -/
def Responds (pdu : Pdu) : Event → Prop
  | .subscriptionRequest _ request requestMessageId =>
    ∃ resp, pdu.type = .subscriptionResponse ∧ pdu.choice = .subscriptionResponse resp ∧
      resp.requestId = requestMessageId ∧ resp.dappIdentifier = request.dappIdentifier
  | .subscriptionDelete _ _ requestMessageId =>
    ∃ ack, pdu.type = .messageAck ∧ pdu.choice = .messageAck ack ∧
      ack.requestId = requestMessageId
  | _ => False

/-- The handling of an event has put one response at the end of `ring`, or has changed no
subscription. -/
def Accounted (core : Core) (ring : List Pdu) (e : Event) : Prop :=
  (∃ pdu, Responds pdu e ∧ (e.perform core).1.queue.ring = ring ++ [pdu]) ∨
    (e.perform core).1.manager.live = core.manager.live

/-- The queue that a handler finds when it comes to its response. -/
def Env.queue (env : Env) (core : Core) : ResponseQueue :=
  env.traffic.foldl Traffic.perform core.queue

theorem push_ring_iff {q : ResponseQueue} {pdu pdu' : Pdu} :
    (q.push pdu).1.ring = q.ring ++ [pdu'] ↔ q.Accepts ∧ pdu = pdu' := by
  have hsame : ¬q.ring = q.ring ++ [pdu'] := by simp
  unfold ResponseQueue.push ResponseQueue.Accepts
  by_cases hshutdown : q.shutdown = true
  · simp [hshutdown]
  · by_cases hfull : q.full = true
    · simp [hshutdown, hfull]
    · simp [hshutdown, hfull]

theorem reply_ring_iff {core : Core} {env : Env} {notified : Nat} {pdu : Pdu} {P : Pdu → Prop}
    (h : P pdu) :
    (∃ pdu', P pdu' ∧ (core.reply env notified pdu).1.queue.ring =
      (env.queue core).ring ++ [pdu']) ↔ (env.queue core).Accepts := by
  constructor
  · rintro ⟨pdu', -, hring⟩
    exact (push_ring_iff.mp hring).1
  · intro haccepts
    exact ⟨pdu, h, push_ring_iff.mpr ⟨haccepts, rfl⟩⟩

/-- A subscription is new if the dApp is registered and not yet subscribed to the function. -/
theorem addSubscription_live_iff {s : SubscriptionManager} (h : s.Indexed) (d f : UInt32) :
    (s.addSubscription d f).1.live = s.live ↔
      ¬(s.isDappRegistered d = true ∧ s.isSubscribed d f = false) := by
  have hlive : (s.addSubscription d f).1.live = s.liveAfter (.addSubscription d f) :=
    locked_live h (c := .addSubscription d f) (by simp)
  have hregistered : s.isDappRegistered d = true ↔ d ∈ s.registeredDapps := decide_eq_true_iff
  rw [hlive, hregistered, ← Bool.not_eq_true, isSubscribed_iff]
  by_cases hnew : d ∈ s.registeredDapps ∧ f ∉ s.subsOf d
  · refine iff_of_false (fun hsame => hnew.2 ?_) (not_not.mpr hnew)
    rw [← mem_live, ← hsame]
    simp only [liveAfter, issuedBy, hnew, not_false_eq_true, and_self, if_true]
    exact Set.mem_insert _ _
  · refine iff_of_true ?_ hnew
    simp [liveAfter, issuedBy, hnew, revokedBy]

/-- A deletion by ID removes a subscription if the ID is one of the dApp. -/
theorem removeSubscriptionById_live_iff {s : SubscriptionManager} (h : s.Resolving) (d k : UInt32) :
    (s.removeSubscriptionById d k).1.live = s.live ↔
      ¬∃ f, s.subscriptionIds.lookup k = some (d, f) := by
  constructor
  · rintro hsame ⟨f, hk⟩
    have hlive : (d, f) ∈ s.live := (h.sound.tagged (d, f)).mp ⟨k, h.sound.resolves k (d, f) hk⟩
    rw [← hsame, h.indexed.removeSubscriptionById_live hk] at hlive
    exact hlive.2 rfl
  · intro hnone
    refine (locked_live h.indexed (c := .removeSubscriptionById d k) (by simp)).trans ?_
    unfold liveAfter issuedBy revokedBy
    cases hk : s.subscriptionIds.lookup k with
    | none => simp [hk]
    | some p =>
      have hd : p.1 ≠ d := by
        rintro rfl
        exact hnone ⟨p.2, hk⟩
      simp [hk, hd]

/-- The message of a request has a subscription to create. -/
def Creates (core : Core) (request : SubscriptionRequest) : Prop :=
  core.manager.isDappRegistered request.dappIdentifier = true ∧
    core.manager.isSubscribed request.dappIdentifier request.ranFunctionIdentifier = false

/-- The message of a deletion has a subscription to delete. -/
def Deletes (core : Core) (del : SubscriptionDelete) : Prop :=
  ∃ f, core.manager.subscriptionIds.lookup del.subscriptionId = some (del.dappIdentifier, f)

section Accounting

variable {core : Core} (h : Managed core) (env : Env) (requestMessageId : UInt32)

include h

theorem accounted_subscriptionRequest (request : SubscriptionRequest) :
    Accounted core (env.queue core).ring (.subscriptionRequest env request requestMessageId) ↔
      (env.queue core).Accepts ∨ ¬Creates core request := by
  refine or_congr ?_ ?_
  · simp only [Event.perform, Core.handleSubscriptionRequest]
    split <;> exact reply_ring_iff ⟨_, rfl, rfl, rfl, rfl⟩
  · rw [perform_manager, Creates, ← addSubscription_live_iff h.resolving.indexed]
    simp only [Event.call]
    split
    · rfl
    · rename_i hnot
      refine iff_of_true rfl ((addSubscription_live_iff h.resolving.indexed _ _).mpr ?_)
      exact fun hnew => hnot hnew.1

theorem accounted_subscriptionDelete (del : SubscriptionDelete) :
    Accounted core (env.queue core).ring (.subscriptionDelete env del requestMessageId) ↔
      (env.queue core).Accepts ∨ ¬Deletes core del := by
  refine or_congr ?_ ?_
  · exact reply_ring_iff ⟨_, rfl, rfl, rfl⟩
  · rw [perform_manager]
    exact removeSubscriptionById_live_iff h.resolving _ _

end Accounting

/-- In a state reached by any events, the handling of a subscription request or of a deletion leaves
one response for it or changes no subscription, if and only if the queue accepts a PDU when the
response is passed or the message has no subscription to create or to delete. -/
theorem subscription_change_answered_iff (events : List Event) (env : Env)
    (requestMessageId : UInt32) :
    (∀ request : SubscriptionRequest,
      Accounted (after events) (env.queue (after events)).ring
          (.subscriptionRequest env request requestMessageId) ↔
        (env.queue (after events)).Accepts ∨ ¬Creates (after events) request) ∧
    ∀ del : SubscriptionDelete,
      Accounted (after events) (env.queue (after events)).ring
          (.subscriptionDelete env del requestMessageId) ↔
        (env.queue (after events)).Accepts ∨ ¬Deletes (after events) del :=
  ⟨accounted_subscriptionRequest (managed_after events) env requestMessageId,
    accounted_subscriptionDelete (managed_after events) env requestMessageId⟩

/-- Surroundings in which every service model starts and nothing else happens. -/
def plainEnv : Env where
  order := .ascending UInt32
  timestamp := 0
  messageId := default
  startResult := fun _ => .success
  create := fun _ => none

/-- A dApp has set up, and the ring is full: the outbound connection is not yet there. -/
def fullRing : List Event :=
  .setupRequest (Asn1.encoder firstReplyAper) { ranIdentifier := lit "r" } plainSurroundings {} 1 ::
    List.replicate 128 (.traffic (.queueOutbound { timestamp := 0 }))

/-- Its first subscription is made, and no response is left for it. -/
theorem not_accounted_fullRing :
    (after fullRing).queue.ring.length = (after fullRing).queue.capacity ∧
    (after fullRing).manager.isSubscribed 1 7 = false ∧
    ((Event.subscriptionRequest plainEnv ⟨1, 7, [], [], none, none⟩ 2).perform
      (after fullRing)).1.manager.isSubscribed 1 7 = true ∧
    ¬Accounted (after fullRing) (plainEnv.queue (after fullRing)).ring
      (.subscriptionRequest plainEnv ⟨1, 7, [], [], none, none⟩ 2) := by
  have hsubscribed : (after fullRing).manager.isSubscribed 1 7 = false := by decide +kernel
  refine ⟨by decide +kernel, hsubscribed, by decide +kernel, ?_⟩
  rw [accounted_subscriptionRequest (managed_after fullRing)]
  rintro (haccepts | hunchanged)
  · exact absurd haccepts.2 (by decide +kernel)
  · exact hunchanged ⟨by decide +kernel, hsubscribed⟩

end Handlers

end LibE3
