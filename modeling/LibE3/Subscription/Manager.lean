import LibE3.Lib.Containers
import LibE3.Lib.Transition
import LibE3.Types
import Mathlib.Algebra.BigOperators.Group.Finset.Basic

/-! `SubscriptionManager`, from `subscription_manager.hpp` and `subscription_manager.cpp`.  Every
mutating call is a critical section, its locked edit, followed by the lifecycle checks that it runs
after `lock.unlock()`.  The edit returns the checks it owes, so that a sequential call and a call
interleaved with others are built from the same pieces.  A lifecycle callback is an event, the pair
of a RAN function and `should_start`. -/

namespace LibE3

def MAX_DAPP_ID : UInt32 := 100
def MIN_DAPP_ID : UInt32 := 1

/-- `(static_cast<uint64_t>(dapp_id) << 32) | ran_func_id`. -/
def makeSubKey (dappId ranFuncId : UInt32) : UInt64 :=
  (dappId.toUInt64 <<< 32) ||| ranFuncId.toUInt64

structure SubscriptionManager where
  registeredDapps : UnorderedMap UInt32 DAppEntry := ∅
  dappSubscriptions : UnorderedMap UInt32 (Finset UInt32) := ∅
  ranFunctionSubscribers : UnorderedMap UInt32 (Finset UInt32) := ∅
  subscriptionIds : UnorderedMap UInt32 (UInt32 × UInt32) := ∅
  subscriptionIdReverse : UnorderedMap UInt64 UInt32 := ∅
  /-- Whether `sm_lifecycle_callback_` holds a function. -/
  smLifecycleCallback : Bool := false
  nextDappId : UInt32 := 1
  nextSubscriptionId : UInt32 := 1
  deriving DecidableEq

/-- A lifecycle callback: the RAN function and whether its service model should start. -/
abbrev Callback := UInt32 × Bool

/-- A call of `check_sm_lifecycle` that is still to be made. -/
structure Check where
  ranFunctionId : UInt32
  hadSubscribers : Bool
  deriving DecidableEq, Repr

/-- What a critical section leaves: the manager, the values the call returns, and the checks that
follow the unlock. -/
structure Edit where
  manager : SubscriptionManager
  code : ErrorCode
  id : UInt32 := 0
  checks : List Check := []

/-- What a call returns, with the callbacks it made. -/
structure Outcome where
  code : ErrorCode
  id : UInt32 := 0
  callbacks : List Callback := []
  deriving DecidableEq, Repr

namespace SubscriptionManager

variable (s : SubscriptionManager)

def setSmLifecycleCallback : SubscriptionManager := { s with smLifecycleCallback := true }

/-! ### Queries -/

def isDappRegistered (dappId : UInt32) : Bool := decide (dappId ∈ s.registeredDapps)

def getRegisteredDapps (order : Enumeration UInt32) : List UInt32 :=
  order.list s.registeredDapps.keys

def isSubscribed (dappId ranFunctionId : UInt32) : Bool :=
  match s.dappSubscriptions.lookup dappId with
  | none => false
  | some subs => decide (ranFunctionId ∈ subs)

def getDappSubscriptions (order : Enumeration UInt32) (dappId : UInt32) : List UInt32 :=
  match s.dappSubscriptions.lookup dappId with
  | none => []
  | some subs => order.list subs

def getSubscribedDapps (order : Enumeration UInt32) (ranFunctionId : UInt32) : List UInt32 :=
  match s.ranFunctionSubscribers.lookup ranFunctionId with
  | none => []
  | some subscribers => order.list subscribers

def getSubscriberCount (ranFunctionId : UInt32) : Nat :=
  match s.ranFunctionSubscribers.lookup ranFunctionId with
  | none => 0
  | some subscribers => subscribers.card

def hasSubscribers (ranFunctionId : UInt32) : Bool :=
  match s.ranFunctionSubscribers.lookup ranFunctionId with
  | none => false
  | some subscribers => decide subscribers.Nonempty

def getActiveRanFunctions (order : Enumeration UInt32) : List UInt32 :=
  (order.list s.ranFunctionSubscribers.keys).filter fun ranFunc =>
    decide (s.ranFunctionSubscribers.getD ranFunc ∅).Nonempty

def dappCount : Nat := s.registeredDapps.keys.card

def subscriptionCount : Nat :=
  ∑ dappId ∈ s.dappSubscriptions.keys, (s.dappSubscriptions.getD dappId ∅).card

/-! ### Lifecycle checks -/

/-- The callback that `check_sm_lifecycle` makes, if any, from what `has_subscribers` now says. -/
def checkSmLifecycle (check : Check) : Option Callback :=
  if s.smLifecycleCallback then
    let hasSubscribersNow := s.hasSubscribers check.ranFunctionId
    if !check.hadSubscribers && hasSubscribersNow then some (check.ranFunctionId, true)
    else if check.hadSubscribers && !hasSubscribersNow then some (check.ranFunctionId, false)
    else none
  else none

end SubscriptionManager

/-- A call that nothing interrupts: its critical section, then its checks. -/
def Edit.finish (e : Edit) : SubscriptionManager × Outcome :=
  (e.manager, ⟨e.code, e.id, e.checks.filterMap e.manager.checkSmLifecycle⟩)

namespace SubscriptionManager

variable (s : SubscriptionManager)

/-! ### Registration -/

/-- The successor of an identifier in the cycle 1, 2, ..., 100, as both counters take it. -/
def cyclicNext (id : UInt32) : UInt32 := if id + 1 > MAX_DAPP_ID then MIN_DAPP_ID else id + 1

/-- The search loop of `register_dapp`; `remaining` is `MAX_DAPP_ID + 1 - attempts`.  The loop gives
up when `attempts` exceeds `MAX_DAPP_ID`. -/
def searchDappId : Nat → UInt32 → Option UInt32
  | 0, _ => none
  | remaining + 1, assigned =>
    if assigned ∈ s.registeredDapps then searchDappId remaining (cyclicNext assigned)
    else some assigned

def registerDappLocked (now : Timestamp) : Edit :=
  match s.searchDappId (MAX_DAPP_ID.toNat + 1) s.nextDappId with
  | none => { manager := s, code := .internalError }
  | some assigned =>
    { manager :=
        { s with
          registeredDapps := s.registeredDapps.insert assigned ⟨assigned, now⟩
          dappSubscriptions := s.dappSubscriptions.insert assigned ∅
          nextDappId := cyclicNext assigned }
      code := .success
      id := assigned }

/-! ### Subscriptions -/

/-- The removal of a RAN function from the row of a dApp, where `find` finds one. -/
def dropRow (dappId ranFunctionId : UInt32) : SubscriptionManager :=
  match s.dappSubscriptions.lookup dappId with
  | none => s
  | some subs =>
    { s with dappSubscriptions := s.dappSubscriptions.insert dappId (subs.erase ranFunctionId) }

/-- The removal of a dApp from the subscribers of a RAN function, which every deletion path has, and
whether it removed the last one. -/
def dropSubscriber (dappId ranFunctionId : UInt32) : SubscriptionManager × Bool :=
  let subscribers := s.ranFunctionSubscribers.getD ranFunctionId ∅
  let hadSubscribers := decide subscribers.Nonempty
  let left := subscribers.erase dappId
  let stillHasSubscribers := decide left.Nonempty
  ({ s with ranFunctionSubscribers := s.ranFunctionSubscribers.insert ranFunctionId left },
    hadSubscribers && !stillHasSubscribers)

/-- The cleanup of the two ID maps by the pair, in `unregister_dapp` and `remove_subscription`. -/
def dropSubscriptionId (dappId ranFunctionId : UInt32) : SubscriptionManager :=
  match s.subscriptionIdReverse.lookup (makeSubKey dappId ranFunctionId) with
  | none => s
  | some id =>
    { s with
      subscriptionIds := s.subscriptionIds.erase id
      subscriptionIdReverse := s.subscriptionIdReverse.erase (makeSubKey dappId ranFunctionId) }

/-- The checks that follow a removal. -/
def stopChecks (ranFunctionId : UInt32) (removedLast : Bool) : List Check :=
  if removedLast then [⟨ranFunctionId, true⟩] else []

/-- One round of the loop of `unregister_dapp`. -/
def unregisterRound (dappId : UInt32) (acc : SubscriptionManager × List Check)
    (ranFunc : UInt32) : SubscriptionManager × List Check :=
  let (dropped, removedLast) := acc.1.dropSubscriber dappId ranFunc
  (dropped.dropSubscriptionId dappId ranFunc, acc.2 ++ stopChecks ranFunc removedLast)

def unregisterDappLocked (order : Enumeration UInt32) (dappId : UInt32) : Edit :=
  if dappId ∈ s.registeredDapps then
    let (cleaned, affected) :=
      match s.dappSubscriptions.lookup dappId with
      | none => (s, [])
      | some subs =>
        let (swept, affected) := (order.list subs).foldl (unregisterRound dappId) (s, [])
        ({ swept with dappSubscriptions := swept.dappSubscriptions.erase dappId }, affected)
    { manager := { cleaned with registeredDapps := cleaned.registeredDapps.erase dappId }
      code := .success
      checks := affected }
  else { manager := s, code := .dappNotRegistered }

def addSubscriptionLocked (dappId ranFunctionId : UInt32) : Edit :=
  if dappId ∈ s.registeredDapps then
    let dappSubs := s.dappSubscriptions.getD dappId ∅
    let subKey := makeSubKey dappId ranFunctionId
    if ranFunctionId ∈ dappSubs then
      -- `subscription_id_reverse_[sub_key]` would insert a zero where the key is missing.
      let existingSubId := s.subscriptionIdReverse.getD subKey 0
      { manager :=
          { s with
            dappSubscriptions := s.dappSubscriptions.insert dappId dappSubs
            subscriptionIdReverse := s.subscriptionIdReverse.insert subKey existingSubId }
        code := .subscriptionExists
        id := existingSubId }
    else
      let subscribers := s.ranFunctionSubscribers.getD ranFunctionId ∅
      let subscriptionId := s.nextSubscriptionId
      { manager :=
          { s with
            nextSubscriptionId := cyclicNext subscriptionId
            dappSubscriptions := s.dappSubscriptions.insert dappId (insert ranFunctionId dappSubs)
            ranFunctionSubscribers :=
              s.ranFunctionSubscribers.insert ranFunctionId (insert dappId subscribers)
            subscriptionIds := s.subscriptionIds.insert subscriptionId (dappId, ranFunctionId)
            subscriptionIdReverse := s.subscriptionIdReverse.insert subKey subscriptionId }
        code := .success
        id := subscriptionId
        checks := if subscribers.Nonempty then [] else [⟨ranFunctionId, false⟩] }
  else { manager := s, code := .dappNotRegistered }

def removeSubscriptionLocked (dappId ranFunctionId : UInt32) : Edit :=
  match s.dappSubscriptions.lookup dappId with
  | none => { manager := s, code := .subscriptionNotFound }
  | some dappSubs =>
    if ranFunctionId ∈ dappSubs then
      let (dropped, removedLast) :=
        (s.dropRow dappId ranFunctionId).dropSubscriber dappId ranFunctionId
      { manager := dropped.dropSubscriptionId dappId ranFunctionId
        code := .success
        checks := stopChecks ranFunctionId removedLast }
    else { manager := s, code := .subscriptionNotFound }

def removeSubscriptionByIdLocked (dappId subscriptionId : UInt32) : Edit :=
  match s.subscriptionIds.lookup subscriptionId with
  | none => { manager := s, code := .subscriptionNotFound }
  | some (subDappId, ranFunctionId) =>
    if subDappId ≠ dappId then { manager := s, code := .subscriptionNotFound }
    else
      let (dropped, removedLast) :=
        (s.dropRow dappId ranFunctionId).dropSubscriber dappId ranFunctionId
      { manager :=
          { dropped with
            subscriptionIdReverse :=
              dropped.subscriptionIdReverse.erase (makeSubKey dappId ranFunctionId)
            subscriptionIds := dropped.subscriptionIds.erase subscriptionId }
        code := .success
        checks := stopChecks ranFunctionId removedLast }

/-- `clear` empties three of the five maps and leaves the ID maps and the counters. -/
def clearLocked : Edit :=
  { manager :=
      { s with
        registeredDapps := ∅
        dappSubscriptions := ∅
        ranFunctionSubscribers := ∅ }
    code := .success }

/-! ### Calls -/

def registerDapp (now : Timestamp) := (s.registerDappLocked now).finish
def unregisterDapp (order : Enumeration UInt32) (dappId : UInt32) :=
  (s.unregisterDappLocked order dappId).finish
def addSubscription (dappId ranFunctionId : UInt32) :=
  (s.addSubscriptionLocked dappId ranFunctionId).finish
def removeSubscription (dappId ranFunctionId : UInt32) :=
  (s.removeSubscriptionLocked dappId ranFunctionId).finish
def removeSubscriptionById (dappId subscriptionId : UInt32) :=
  (s.removeSubscriptionByIdLocked dappId subscriptionId).finish
def clear := s.clearLocked.finish

end SubscriptionManager

/-- The mutating calls of a manager, with what the environment chooses: the time of a registration
and the order in which `unregister_dapp` walks an unordered set. -/
inductive Call
  | registerDapp (now : Timestamp)
  | unregisterDapp (order : Enumeration UInt32) (dappId : UInt32)
  | addSubscription (dappId ranFunctionId : UInt32)
  | removeSubscription (dappId ranFunctionId : UInt32)
  | removeSubscriptionById (dappId subscriptionId : UInt32)
  | clear

/-- The critical section of a call. -/
def Call.locked (s : SubscriptionManager) : Call → Edit
  | .registerDapp now => s.registerDappLocked now
  | .unregisterDapp order dappId => s.unregisterDappLocked order dappId
  | .addSubscription dappId ranFunctionId => s.addSubscriptionLocked dappId ranFunctionId
  | .removeSubscription dappId ranFunctionId => s.removeSubscriptionLocked dappId ranFunctionId
  | .removeSubscriptionById dappId subscriptionId =>
    s.removeSubscriptionByIdLocked dappId subscriptionId
  | .clear => s.clearLocked

/-- A call made with no other in progress. -/
def Call.perform (s : SubscriptionManager) (c : Call) : SubscriptionManager × Outcome :=
  (c.locked s).finish

def Call.isClear : Call → Bool
  | .clear => true
  | _ => false

/-- A run without `clear`. -/
def WithoutClear (calls : List Call) : Prop := Call.clear ∉ calls

end LibE3
