import LibE3.Asn1.Encoder
import LibE3.Subscription.Resolve
import Mathlib.Data.Prod.Lex

/-! The subscriber thread: `handle_subscription_request`, `handle_subscription_delete` and
`handle_release_message`, one lock of the manager at a time, while the setup thread registers dApps
in between.  The messages that the thread also takes, control actions and reports, leave the manager
alone.  Every handler passes one response to `queue_outbound`, and the response is true of the
manager at the end of the handler. -/

namespace LibE3

/-- The messages whose handlers change the manager. -/
inductive Inbound
  | subscriptionRequest (request : SubscriptionRequest)
  | subscriptionDelete (del : SubscriptionDelete)
  | releaseMessage (release : ReleaseMessage)
  deriving DecidableEq, Repr

/-- The PDU that the thread took a message from. -/
def Inbound.pdu (messageId : UInt32) (timestamp : UInt64) : Inbound → Pdu
  | .subscriptionRequest request =>
    { type := .subscriptionRequest, choice := .subscriptionRequest request, messageId, timestamp }
  | .subscriptionDelete del =>
    { type := .subscriptionDelete, choice := .subscriptionDelete del, messageId, timestamp }
  | .releaseMessage release =>
    { type := .releaseMessage, choice := .releaseMessage release, messageId, timestamp }

namespace Subscriber

open Transition Transition.System SubscriptionManager

/-- How far a handler has come: it has taken no lock yet, it has seen that the dApp is registered, it
has made its edit and owes lifecycle checks and a response, or it has passed its response. -/
inductive Stage
  | entered
  | registered
  | edited (todo : List Check) (responseCode : ResponseCode) (subscriptionId : UInt32)
  | replied

/-- A handler in progress, with the manager it was entered in and what it has passed to
`queue_outbound`. -/
structure Handling where
  message : Inbound
  messageId : UInt32
  before : SubscriptionManager
  stage : Stage := .entered
  passed : List Pdu := []

/-- A handler that has returned, with the manager it left. -/
structure Handled where
  message : Inbound
  messageId : UInt32
  before : SubscriptionManager
  after : SubscriptionManager
  passed : List Pdu

structure State where
  manager : SubscriptionManager
  handling : Option Handling := none
  finished : List Handled := []

/-- What a step of the thread takes from outside. -/
structure Surroundings where
  order : Enumeration UInt32
  timestamp : UInt64
  messageId : GeneratedId

/-- A registration by the setup thread, the next message of the subscriber thread, or its next
step. -/
inductive Event
  | register (now : Timestamp)
  | receive (message : Inbound) (messageId : UInt32)
  | advance (env : Surroundings)

/-- `subscription_id` is set in a positive response only. -/
def subscriptionResponsePdu (env : Surroundings) (request : SubscriptionRequest)
    (requestMessageId : UInt32) (responseCode : ResponseCode) (subscriptionId : UInt32) : Pdu where
  type := .subscriptionResponse
  choice := .subscriptionResponse
    { requestId := requestMessageId
      dappIdentifier := request.dappIdentifier
      responseCode := responseCode
      subscriptionId := if responseCode = .positive then some subscriptionId else none }
  messageId := env.messageId.id
  timestamp := env.timestamp

def messageAckPdu (env : Surroundings) (requestMessageId : UInt32) (responseCode : ResponseCode) :
    Pdu where
  type := .messageAck
  choice := .messageAck { requestId := requestMessageId, responseCode := responseCode }
  messageId := env.messageId.id
  timestamp := env.timestamp

/-- The PDUs that the handler of a message passes to `queue_outbound`. -/
def replies (env : Surroundings) (messageId : UInt32) (responseCode : ResponseCode)
    (subscriptionId : UInt32) : Inbound → List Pdu
  | .subscriptionRequest request =>
    [subscriptionResponsePdu env request messageId responseCode subscriptionId]
  | .subscriptionDelete _ => [messageAckPdu env messageId responseCode]
  | .releaseMessage _ => []

def positiveIf (success : Bool) : ResponseCode := if success then .positive else .negative

/-- The first lock that a handler takes. -/
def enter (env : Surroundings) (s : SubscriptionManager) : Inbound → SubscriptionManager × Stage
  | .subscriptionRequest request =>
    if s.isDappRegistered request.dappIdentifier then (s, .registered)
    else (s, .edited [] .negative 1)
  | .subscriptionDelete del =>
    let e := s.removeSubscriptionByIdLocked del.dappIdentifier del.subscriptionId
    (e.manager, .edited e.checks (positiveIf (e.code = .success)) 0)
  | .releaseMessage release =>
    let e := s.unregisterDappLocked env.order release.dappIdentifier
    (e.manager, .edited e.checks (positiveIf (e.code = .success)) 0)

/-- The critical section of `add_subscription`, once the dApp was seen to be registered. -/
def subscribe (s : SubscriptionManager) (request : SubscriptionRequest) :
    SubscriptionManager × Stage :=
  let e := s.addSubscriptionLocked request.dappIdentifier request.ranFunctionIdentifier
  (e.manager,
    .edited e.checks (positiveIf (e.code = .success ∨ e.code = .subscriptionExists)) e.id)

/-- One step of the handler in progress.  A lifecycle check reads the manager and starts or stops a
service model, and so leaves the manager as it is. -/
def advance (env : Surroundings) (s : State) (h : Handling) : Option State :=
  match h.stage, h.message with
  | .entered, message =>
    let (manager, stage) := enter env s.manager message
    some { s with manager, handling := some { h with stage } }
  | .registered, .subscriptionRequest request =>
    let (manager, stage) := subscribe s.manager request
    some { s with manager, handling := some { h with stage } }
  | .registered, _ => none
  | .edited (_ :: todo) code id, _ =>
    some { s with handling := some { h with stage := .edited todo code id } }
  | .edited [] code id, message =>
    let passed := h.passed ++ replies env h.messageId code id message
    some { s with handling := some { h with stage := .replied, passed } }
  | .replied, message =>
    some { s with
      handling := none
      finished := s.finished ++ [⟨message, h.messageId, h.before, s.manager, h.passed⟩] }

def step (s : State) : Event → Option State
  | .register now => some { s with manager := (s.manager.registerDappLocked now).manager }
  | .receive message messageId =>
    match s.handling with
    | none => some { s with handling := some { message, messageId, before := s.manager } }
    | some _ => none
  | .advance env =>
    match s.handling with
    | none => none
    | some h => advance env s h

/-- `init()` installs the lifecycle callback. -/
def fresh : State where
  manager := { smLifecycleCallback := true }

/-- The subscriber thread and the registrations of the setup thread. -/
def system : System State Event := .ofStep fresh step

/-! ### What a handler owes -/

/-- The response to a subscription request echoes it, is positive exactly when the dApp is
subscribed, and then carries the recorded ID. -/
structure TruthfulResponse (request : SubscriptionRequest) (messageId : UInt32)
    (after : SubscriptionManager) (pdu : Pdu) (resp : SubscriptionResponse) : Prop where
  type : pdu.type = .subscriptionResponse
  choice : pdu.choice = .subscriptionResponse resp
  requestId : resp.requestId = messageId
  dappIdentifier : resp.dappIdentifier = request.dappIdentifier
  responseCode : resp.responseCode = .positive ↔
    after.isSubscribed request.dappIdentifier request.ranFunctionIdentifier = true
  hasId : resp.subscriptionId.isSome = true ↔ resp.responseCode = .positive
  recorded : ∀ id, resp.subscriptionId = some id →
    after.subscriptionIdReverse.lookup
      (makeSubKey request.dappIdentifier request.ranFunctionIdentifier) = some id ∧
    1 ≤ id ∧ id ≤ 100

/-- Exactly one subscription is gone, and it is one of `d`. -/
def RemovedOne (d : UInt32) (before after : SubscriptionManager) : Prop :=
  ∃ f, ∀ d' f', (before.isSubscribed d' f' = true ∧ after.isSubscribed d' f' = false) ↔
    d' = d ∧ f' = f

/-- The acknowledgement of a deletion echoes it, and is positive exactly when one subscription of the
dApp was removed. -/
structure TruthfulAck (del : SubscriptionDelete) (messageId : UInt32)
    (before after : SubscriptionManager) (pdu : Pdu) (ack : MessageAck) : Prop where
  type : pdu.type = .messageAck
  choice : pdu.choice = .messageAck ack
  requestId : ack.requestId = messageId
  responseCode : ack.responseCode = .positive ↔ RemovedOne del.dappIdentifier before after

/-- The structure of the PDU conforms to the schema. -/
def Conforms (aper : Asn1.Aper) (pdu : Pdu) : Prop :=
  ∃ x, Asn1.pduToAsn1 aper pdu = some x ∧ x.conforms = true

/-- What the handler of a message owes: one true response, which conforms to the schema if the request
does, and none to a release. -/
def Truthful (messageId : UInt32) (before after : SubscriptionManager) (passed : List Pdu) :
    Inbound → Prop
  | .subscriptionRequest request =>
    ∃ pdu resp, passed = [pdu] ∧ TruthfulResponse request messageId after pdu resp ∧
      ∀ aper timestamp,
        Conforms aper (Inbound.pdu messageId timestamp (.subscriptionRequest request)) →
          Conforms aper pdu
  | .subscriptionDelete del =>
    ∃ pdu ack, passed = [pdu] ∧ TruthfulAck del messageId before after pdu ack ∧
      ∀ aper timestamp, Conforms aper (Inbound.pdu messageId timestamp (.subscriptionDelete del)) →
        Conforms aper pdu
  | .releaseMessage _ => passed = []

/-- How many stages a handler has before it, and how many checks in this one. -/
def Stage.rank : Stage → Nat ×ₗ Nat
  | .entered => toLex (3, 0)
  | .registered => toLex (2, 0)
  | .edited todo _ _ => toLex (1, todo.length)
  | .replied => toLex (0, 0)

/-! ### What the locks do -/

section Locks

variable {s s' : SubscriptionManager}

theorem isSubscribed_eq_of_live (h : s'.live = s.live) : s'.isSubscribed = s.isSubscribed := by
  funext d f
  rw [Bool.eq_iff_iff, isSubscribed_iff, isSubscribed_iff, ← mem_live, ← mem_live, h]

theorem register_isSubscribed (h : s.Indexed) (now : Timestamp) :
    (s.registerDappLocked now).manager.isSubscribed = s.isSubscribed := by
  refine isSubscribed_eq_of_live ((locked_live h (c := .registerDapp now) (by simp)).trans ?_)
  simp [liveAfter, issuedBy, revokedBy]

theorem register_subscriptionIdReverse (now : Timestamp) :
    (s.registerDappLocked now).manager.subscriptionIdReverse = s.subscriptionIdReverse := by
  unfold registerDappLocked
  split <;> rfl

theorem register_mem {d : UInt32} (h : d ∈ s.registeredDapps) (now : Timestamp) :
    d ∈ (s.registerDappLocked now).manager.registeredDapps := by
  unfold registerDappLocked
  split
  · exact h
  · exact Finmap.mem_insert.mpr (Or.inr h)

/-- `add_subscription` for a registered dApp leaves the subscription live, under the ID that it
returns. -/
theorem addSubscriptionLocked_registered {d : UInt32} (h : d ∈ s.registeredDapps) (f : UInt32) :
    let e := s.addSubscriptionLocked d f
    (e.code = .success ∨ e.code = .subscriptionExists) ∧ e.manager.isSubscribed d f = true ∧
      e.manager.subscriptionIdReverse.lookup (makeSubKey d f) = some e.id := by
  simp only [addSubscriptionLocked, h, if_true]
  split
  · rename_i hf
    simp [isSubscribed, hf]
  · simp [isSubscribed]

/-- A deletion by ID succeeds exactly when it removes one subscription, of the caller. -/
theorem removeSubscriptionByIdLocked_removedOne (h : s.Resolving) (d k : UInt32) :
    (s.removeSubscriptionByIdLocked d k).code = .success ↔
      RemovedOne d s (s.removeSubscriptionByIdLocked d k).manager := by
  rw [removeSubscriptionByIdLocked_success]
  constructor
  · rintro ⟨f, hk⟩
    have hlive : s.isSubscribed d f = true :=
      (s.isSubscribed_iff d f).mpr ((h.sound.tagged (d, f)).mp ⟨k, h.sound.resolves k (d, f) hk⟩)
    refine ⟨f, fun d' f' => ?_⟩
    have hafter := h.indexed.removeSubscriptionById_isSubscribed hk d' f'
    replace hafter : (s.removeSubscriptionByIdLocked d k).manager.isSubscribed d' f' = true ↔
      s.isSubscribed d' f' = true ∧ (d', f') ≠ (d, f) := hafter
    rw [← Bool.not_eq_true, hafter, ← Prod.mk.injEq]
    constructor
    · rintro ⟨hbefore, hgone⟩
      by_contra hne
      exact hgone ⟨hbefore, hne⟩
    · intro heq
      obtain ⟨rfl, rfl⟩ := Prod.mk.inj heq
      exact ⟨hlive, fun hkept => hkept.2 rfl⟩
  · rintro ⟨f, hremoved⟩
    obtain ⟨hbefore, hgone⟩ := (hremoved d f).mpr ⟨rfl, rfl⟩
    by_contra hnone
    have hsame : (s.removeSubscriptionByIdLocked d k).manager = s := by
      unfold removeSubscriptionByIdLocked
      rcases hk : s.subscriptionIds.lookup k with _ | ⟨d', f'⟩
      · rfl
      · have hd : d' ≠ d := by
          rintro rfl
          exact hnone ⟨f', hk⟩
        simp only [ne_eq, hd, not_false_eq_true, if_true]
    rw [hsame, hbefore] at hgone
    cases hgone

end Locks

/-! ### The invariant -/

/-- What a handler has decided to answer is true of the manager it was entered in and of the present
one. -/
def Verdict (before after : SubscriptionManager) (code : ResponseCode) (id : UInt32) :
    Inbound → Prop
  | .subscriptionRequest request =>
    (code = .positive ↔
      after.isSubscribed request.dappIdentifier request.ranFunctionIdentifier = true) ∧
    (code = .positive → after.subscriptionIdReverse.lookup
      (makeSubKey request.dappIdentifier request.ranFunctionIdentifier) = some id)
  | .subscriptionDelete del => code = .positive ↔ RemovedOne del.dappIdentifier before after
  | .releaseMessage _ => True

/-- What holds of a handler at each stage, in the manager `s`. -/
def Stage.Sound (s : SubscriptionManager) (h : Handling) : Stage → Prop
  | .entered => h.passed = [] ∧ s.isSubscribed = h.before.isSubscribed
  | .registered => h.passed = [] ∧ ∃ request, h.message = .subscriptionRequest request ∧
      request.dappIdentifier ∈ s.registeredDapps
  | .edited _ code id => h.passed = [] ∧ Verdict h.before s code id h.message
  | .replied => Truthful h.messageId h.before s h.passed h.message

structure Sound (s : State) : Prop where
  resolving : s.manager.Resolving
  handling : ∀ h, s.handling = some h → h.stage.Sound s.manager h
  finished : ∀ r ∈ s.finished, Truthful r.messageId r.before r.after r.passed r.message

section Stable

variable {before after after' : SubscriptionManager}
  (hsub : after'.isSubscribed = after.isSubscribed)
  (hreverse : after'.subscriptionIdReverse = after.subscriptionIdReverse)

include hsub hreverse

theorem Verdict.congr {code : ResponseCode} {id : UInt32} {message : Inbound}
    (h : Verdict before after code id message) : Verdict before after' code id message := by
  cases message with
  | subscriptionRequest request =>
    simp only [Verdict, hsub, hreverse]
    exact h
  | subscriptionDelete del =>
    simp only [Verdict, RemovedOne, hsub]
    exact h
  | releaseMessage release => trivial

theorem Truthful.congr {messageId : UInt32} {passed : List Pdu} {message : Inbound}
    (h : Truthful messageId before after passed message) :
    Truthful messageId before after' passed message := by
  cases message with
  | subscriptionRequest request =>
    obtain ⟨pdu, resp, hpassed, htrue, hconforms⟩ := h
    refine ⟨pdu, resp, hpassed, { htrue with responseCode := ?_, recorded := ?_ }, hconforms⟩
    · rw [hsub]
      exact htrue.responseCode
    · rw [hreverse]
      exact htrue.recorded
  | subscriptionDelete del =>
    obtain ⟨pdu, ack, hpassed, htrue, hconforms⟩ := h
    refine ⟨pdu, ack, hpassed, { htrue with responseCode := ?_ }, hconforms⟩
    simp only [RemovedOne, hsub]
    exact htrue.responseCode
  | releaseMessage release => exact h

end Stable

/-- A registration by the other thread does not disturb a handler. -/
theorem Stage.Sound.register {s : SubscriptionManager} (hs : s.Indexed) {h : Handling}
    {stage : Stage} (hstage : stage.Sound s h) (now : Timestamp) :
    stage.Sound (s.registerDappLocked now).manager h := by
  have hsub := register_isSubscribed hs now
  have hreverse := register_subscriptionIdReverse (s := s) now
  cases stage with
  | entered => exact ⟨hstage.1, hsub.trans hstage.2⟩
  | registered =>
    obtain ⟨hpassed, request, hmessage, hd⟩ := hstage
    exact ⟨hpassed, request, hmessage, register_mem hd now⟩
  | edited todo code id => exact ⟨hstage.1, hstage.2.congr hsub hreverse⟩
  | replied => exact Truthful.congr hsub hreverse hstage

/-! ### The stages of a handler -/

theorem positiveIf_eq_positive {b : Bool} : positiveIf b = .positive ↔ b = true := by
  cases b <;> simp [positiveIf]

/-- The first lock: the registration check of a request, and the edit of a deletion or a release. -/
theorem enter_sound {s : SubscriptionManager} (hs : s.Resolving) {h : Handling}
    (hpassed : h.passed = []) (hbefore : s.isSubscribed = h.before.isSubscribed)
    (env : Surroundings) :
    (enter env s h.message).1.Resolving ∧
      (enter env s h.message).2.Sound (enter env s h.message).1 h := by
  rcases hmessage : h.message with request | del | release
  · simp only [enter]
    split
    · rename_i hd
      exact ⟨hs, hpassed, request, hmessage, of_decide_eq_true hd⟩
    · rename_i hd
      refine ⟨hs, hpassed, ?_⟩
      rw [hmessage]
      refine ⟨iff_of_false (by simp) fun hf => hd ?_, fun hcode => by cases hcode⟩
      exact decide_eq_true (hs.indexed.registered ((s.isSubscribed_iff _ _).mp hf))
  · refine ⟨hs.locked (c := .removeSubscriptionById _ _) (by simp), hpassed, ?_⟩
    rw [hmessage]
    show positiveIf _ = .positive ↔ _
    rw [positiveIf_eq_positive, decide_eq_true_iff, removeSubscriptionByIdLocked_removedOne hs]
    simp only [RemovedOne, hbefore]
    rfl
  · refine ⟨hs.locked (c := .unregisterDapp _ _) (by simp), hpassed, ?_⟩
    rw [hmessage]
    trivial

/-- The edit of a request for a registered dApp. -/
theorem subscribe_sound {s : SubscriptionManager} (hs : s.Resolving) {h : Handling}
    (hpassed : h.passed = []) {request : SubscriptionRequest}
    (hmessage : h.message = .subscriptionRequest request)
    (hd : request.dappIdentifier ∈ s.registeredDapps) :
    (subscribe s request).1.Resolving ∧
      (subscribe s request).2.Sound (subscribe s request).1 h := by
  obtain ⟨hcode, hlive, hid⟩ :=
    addSubscriptionLocked_registered hd request.ranFunctionIdentifier
  refine ⟨hs.locked (c := .addSubscription _ _) (by simp), hpassed, ?_⟩
  rw [hmessage]
  exact ⟨iff_of_true (positiveIf_eq_positive.mpr (decide_eq_true hcode)) hlive, fun _ => hid⟩

section Conforming

variable {aper : Asn1.Aper} {messageId : UInt32} {timestamp : UInt64}

theorem conforms_subscriptionResponsePdu {request : SubscriptionRequest}
    (hrequest : Conforms aper (Inbound.pdu messageId timestamp (.subscriptionRequest request)))
    (env : Surroundings) {code : ResponseCode} {id : UInt32}
    (hid : code = .positive → 1 ≤ id ∧ id ≤ 100) :
    Conforms aper (subscriptionResponsePdu env request messageId code id) := by
  obtain ⟨x, hx, hconforms⟩ := hrequest
  cases hx
  simp only [Asn1.E3Pdu.conforms, Asn1.E3Msg.conforms, Bool.and_eq_true] at hconforms
  obtain ⟨hmessage, ⟨⟨⟨⟨⟨hdapp, -⟩, -⟩, -⟩, -⟩, -⟩⟩ := hconforms
  replace hmessage : Asn1.messageId (Asn1.toLong messageId) = true := hmessage
  replace hdapp : Asn1.dAppId (Asn1.toLong request.dappIdentifier) = true := hdapp
  have hgenerated := Asn1.messageId_toLong.mpr env.messageId.range
  refine ⟨_, rfl, ?_⟩
  cases code with
  | positive =>
    have hsubscription := Asn1.dAppId_toLong.mpr (hid rfl)
    simp [Asn1.E3Pdu.conforms, Asn1.E3Msg.conforms, Asn1.subscriptionResponseToAsn1,
      subscriptionResponsePdu, hgenerated, hmessage, hdapp, hsubscription]
  | negative =>
    simp [Asn1.E3Pdu.conforms, Asn1.E3Msg.conforms, Asn1.subscriptionResponseToAsn1,
      subscriptionResponsePdu, hgenerated, hmessage, hdapp]

theorem conforms_messageAckPdu {del : SubscriptionDelete}
    (hdel : Conforms aper (Inbound.pdu messageId timestamp (.subscriptionDelete del)))
    (env : Surroundings) (code : ResponseCode) : Conforms aper (messageAckPdu env messageId code) := by
  obtain ⟨x, hx, hconforms⟩ := hdel
  cases hx
  simp only [Asn1.E3Pdu.conforms, Bool.and_eq_true] at hconforms
  have hmessage : Asn1.messageId (Asn1.toLong messageId) = true := hconforms.1
  have hgenerated := Asn1.messageId_toLong.mpr env.messageId.range
  refine ⟨_, rfl, ?_⟩
  simp [Asn1.E3Pdu.conforms, Asn1.E3Msg.conforms, messageAckPdu, hgenerated, hmessage]

end Conforming

/-- The response that a true verdict leads to is true, and conforms if the request does. -/
theorem replies_truthful {s : SubscriptionManager} (hs : s.Resolving) {h : Handling}
    {code : ResponseCode} {id : UInt32} (hverdict : Verdict h.before s code id h.message)
    (env : Surroundings) :
    Truthful h.messageId h.before s (replies env h.messageId code id h.message) h.message := by
  rcases hmessage : h.message with request | del | release
  · rw [hmessage] at hverdict
    obtain ⟨hcode, hid⟩ := hverdict
    have hrange : code = .positive → 1 ≤ id ∧ id ≤ 100 := fun hpositive =>
      hs.within (request.dappIdentifier, request.ranFunctionIdentifier) id (hid hpositive)
    refine ⟨_, _, rfl, ⟨rfl, rfl, rfl, rfl, hcode, ?_, fun k hk => ?_⟩, fun _ _ hrequest =>
      conforms_subscriptionResponsePdu hrequest env hrange⟩
    · cases code <;> simp
    · cases code with
      | positive =>
        cases hk
        exact ⟨hid rfl, hrange rfl⟩
      | negative => cases hk
  · rw [hmessage] at hverdict
    exact ⟨_, _, rfl, ⟨rfl, rfl, rfl, hverdict⟩, fun _ _ hdel =>
      conforms_messageAckPdu hdel env code⟩
  · rfl

/-- A handler that goes on keeps the invariant by what holds at its next stage. -/
theorem Sound.proceed {s : State} (hs : Sound s) {manager : SubscriptionManager}
    (hmanager : manager.Resolving) {h : Handling} (hstage : h.stage.Sound manager h) :
    Sound { s with manager, handling := some h } := by
  refine ⟨hmanager, ?_, hs.finished⟩
  rintro _ ⟨⟩
  exact hstage

/-- Every step of a handler keeps the invariant. -/
theorem Sound.advance {s s' : State} (hs : Sound s) {h : Handling} (hh : s.handling = some h)
    {env : Surroundings} (hstep : advance env s h = some s') : Sound s' := by
  have hstage := hs.handling h hh
  unfold Subscriber.advance at hstep
  split at hstep
  · rename_i hentered
    rw [hentered] at hstage
    obtain ⟨hmanager, hnext⟩ := enter_sound hs.resolving hstage.1 hstage.2 env
    cases hstep
    exact hs.proceed hmanager hnext
  · rename_i request hregistered hmessage
    rw [hregistered] at hstage
    obtain ⟨hpassed, request', hmessage', hd⟩ := hstage
    cases hmessage.symm.trans hmessage'
    obtain ⟨hmanager, hnext⟩ := subscribe_sound hs.resolving hpassed hmessage hd
    cases hstep
    exact hs.proceed hmanager hnext
  · cases hstep
  · rename_i hedited
    rw [hedited] at hstage
    cases hstep
    exact hs.proceed hs.resolving hstage
  · rename_i hedited
    rw [hedited] at hstage
    cases hstep
    apply hs.proceed hs.resolving
    show Truthful _ _ _ (h.passed ++ _) _
    rw [hstage.1]
    exact replies_truthful hs.resolving hstage.2 env
  · rename_i hreplied
    rw [hreplied] at hstage
    cases hstep
    refine ⟨hs.resolving, nofun, fun r hr => ?_⟩
    rcases List.mem_append.mp hr with hr | hr
    · exact hs.finished r hr
    · rw [List.mem_singleton] at hr
      subst hr
      exact hstage

theorem Sound.step {s s' : State} {e : Event} (hs : Sound s) (hstep : step s e = some s') :
    Sound s' := by
  cases e with
  | register now =>
    cases hstep
    exact ⟨hs.resolving.locked (c := .registerDapp now) (by simp),
      fun h hh => (hs.handling h hh).register hs.resolving.indexed now, hs.finished⟩
  | receive message messageId =>
    simp only [Subscriber.step] at hstep
    split at hstep
    · cases hstep
      exact hs.proceed hs.resolving ⟨rfl, rfl⟩
    · cases hstep
  | advance env =>
    simp only [Subscriber.step] at hstep
    split at hstep
    · cases hstep
    · rename_i h hh
      exact hs.advance hh hstep

theorem sound_of_reachable {s : State} (h : system.Reachable s) : Sound s := by
  refine h.induction (P := Sound) ?_ fun _ _ _ _ hs hstep => hs.step hstep
  rintro _ rfl
  exact ⟨resolving_fresh true, nofun, nofun⟩

/-! ### Every handler ends -/

theorem enter_rank (env : Surroundings) (s : SubscriptionManager) (message : Inbound) :
    (enter env s message).2.rank < Stage.entered.rank := by
  cases message with
  | subscriptionRequest request =>
    simp only [enter]
    split <;> simp [Stage.rank, Prod.Lex.toLex_lt_toLex]
  | subscriptionDelete del => simp [enter, Stage.rank, Prod.Lex.toLex_lt_toLex]
  | releaseMessage release => simp [enter, Stage.rank, Prod.Lex.toLex_lt_toLex]

/-- The handler goes on with the same message, closer to its end, or it has returned. -/
def Continues (s s' : State) (h : Handling) : Prop :=
  match s'.handling with
  | some h' => h'.message = h.message ∧ h'.messageId = h.messageId ∧ h'.before = h.before ∧
      h'.stage.rank < h.stage.rank
  | none => s'.finished =
      s.finished ++ [⟨h.message, h.messageId, h.before, s'.manager, h.passed⟩]

/-- A handler in progress can always take its next step. -/
theorem Sound.progress {s : State} (hs : Sound s) {h : Handling} (hh : s.handling = some h)
    (env : Surroundings) :
    ∃ s', Subscriber.step s (.advance env) = some s' ∧ Continues s s' h := by
  have hstage := hs.handling h hh
  rw [show Subscriber.step s (.advance env) = Subscriber.advance env s h by
    simp only [Subscriber.step, hh]]
  unfold Subscriber.advance
  split
  · rename_i hentered
    refine ⟨_, rfl, rfl, rfl, rfl, ?_⟩
    rw [hentered]
    exact enter_rank env s.manager h.message
  · rename_i hregistered _
    refine ⟨_, rfl, rfl, rfl, rfl, ?_⟩
    rw [hregistered]
    simp [Stage.rank, Prod.Lex.toLex_lt_toLex]
  · rename_i hregistered hother
    rw [hregistered] at hstage
    obtain ⟨-, request, hmessage, -⟩ := hstage
    exact absurd hmessage (hother request)
  · rename_i hedited
    refine ⟨_, rfl, rfl, rfl, rfl, ?_⟩
    rw [hedited]
    simp [Stage.rank, Prod.Lex.toLex_lt_toLex]
  · rename_i hedited
    refine ⟨_, rfl, rfl, rfl, rfl, ?_⟩
    rw [hedited]
    simp [Stage.rank, Prod.Lex.toLex_lt_toLex]
  · exact ⟨_, rfl, rfl⟩

/-! ### Responses -/

/-- Whatever the messages and wherever the registrations fall, every handler goes on to its end, and
one that has returned passed exactly the response it owed. -/
theorem responses_truthful (s : State) (h : system.Reachable s) :
    (∀ r ∈ s.finished, Truthful r.messageId r.before r.after r.passed r.message) ∧
    ∀ h, s.handling = some h → ∀ env, ∃ s', step s (.advance env) = some s' ∧
      Continues s s' h := by
  have hsound := sound_of_reachable h
  exact ⟨hsound.finished, fun h hh env => hsound.progress hh env⟩

/-- A registration, then a subscription request of the new dApp, with another registration between
the check and the edit. -/
def firstRequest : List Event :=
  let env : Surroundings := ⟨.ascending UInt32, 0, default⟩
  [.register 0, .receive (.subscriptionRequest { dappIdentifier := 1, ranFunctionIdentifier := 7 }) 5,
    .advance env, .register 0, .advance env, .advance env, .advance env, .advance env]

theorem responses_truthful_firstRequest :
    ∃ s r, execute step fresh firstRequest = some s ∧ s.finished = [r] ∧
      r.after.isSubscribed 1 7 = true ∧
      Truthful r.messageId r.before r.after r.passed r.message := by
  have hrun : (execute step fresh firstRequest).map
      (fun s => s.finished.map fun r => r.after.isSubscribed 1 7) = some [true] := by
    decide +kernel
  obtain ⟨s, hs, hfinished⟩ := Option.map_eq_some_iff.mp hrun
  obtain ⟨r, hr, hlive⟩ := List.map_eq_singleton_iff.mp hfinished
  have htrue := (responses_truthful s (reachable_of_execute firstRequest hs)).1 r (by simp [hr])
  exact ⟨s, r, hs, hr, hlive, htrue⟩

end Subscriber

end LibE3
