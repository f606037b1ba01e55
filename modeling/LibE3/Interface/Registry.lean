import LibE3.Lib.Containers
import LibE3.Types

/-! `SmRegistry`, from `sm_registry.cpp` and `sm_interface.hpp`.  A service model is an object of a
class that the application derives from `ServiceModel`.  Here it is what its getters return, with the
calls it has received.  What the application decides at a call is an argument: the result of `start`,
and the object that a factory makes. -/

namespace LibE3

/-- The calls of the lifecycle of a service model, with what `init` and `start` returned. -/
inductive SmCall
  | init (result : ErrorCode)
  | start (result : ErrorCode)
  | stop
  | destroy
  deriving DecidableEq, Repr

structure ServiceModel where
  ranFunctionId : UInt32
  telemetryIds : List UInt32 := []
  controlIds : List UInt32 := []
  ranFunctionData : Octets := []
  /-- What its `init` returns. -/
  initResult : ErrorCode := .success
  /-- The calls it has received, the latest last. -/
  received : List SmCall := []
  deriving DecidableEq, Repr

namespace ServiceModel

variable (sm : ServiceModel)

/-- Whether a model that was running is so after a call: from a successful start to the next stop. -/
def runningAfter (running : Bool) : SmCall → Bool
  | .start .success => true
  | .stop => false
  | _ => running

def isRunning : Bool := sm.received.foldl runningAfter false

def receive (call : SmCall) : ServiceModel := { sm with received := sm.received ++ [call] }

def init : ServiceModel := sm.receive (.init sm.initResult)

/-- `stop` where the model runs, as the registry does before it lets go of one. -/
def halt : ServiceModel := if sm.isRunning then sm.receive .stop else sm

def destroy : ServiceModel := sm.receive .destroy

end ServiceModel

structure SmRegistry where
  sms : UnorderedMap UInt32 ServiceModel := ∅
  /-- The keys of `factories_`. -/
  factories : Finset UInt32 := ∅
  /-- The objects that the registry was given or made and has deleted. -/
  deleted : List ServiceModel := []
  deriving DecidableEq

namespace SmRegistry

variable (r : SmRegistry)

def registerSm : Option ServiceModel → SmRegistry × ErrorCode
  | none => (r, .invalidParam)
  | some sm =>
    if sm.ranFunctionId ∈ r.sms then
      ({ r with deleted := r.deleted ++ [sm] }, .smAlreadyRegistered)
    else if sm.initResult ≠ .success then
      ({ r with deleted := r.deleted ++ [sm.init] }, sm.initResult)
    else ({ r with sms := r.sms.insert sm.ranFunctionId sm.init }, .success)

/-- `callable` says whether the `std::function` holds a target. -/
def registerSmFactory (ranFunctionId : UInt32) (callable : Bool) : SmRegistry × ErrorCode :=
  if !callable then (r, .invalidParam)
  else if ranFunctionId ∈ r.sms ∨ ranFunctionId ∈ r.factories then (r, .smAlreadyRegistered)
  else ({ r with factories := insert ranFunctionId r.factories }, .success)

def unregisterSm (ranFunctionId : UInt32) : SmRegistry × ErrorCode :=
  match r.sms.lookup ranFunctionId with
  | some sm =>
    ({ r with
        sms := r.sms.erase ranFunctionId
        deleted := r.deleted ++ [sm.halt.destroy] }, .success)
  | none =>
    if ranFunctionId ∈ r.factories then
      ({ r with factories := r.factories.erase ranFunctionId }, .success)
    else (r, .smNotFound)

/-- `create` is what a call of the factory of a RAN function returns. -/
def getByRanFunction (create : UInt32 → Option ServiceModel) (ranFunctionId : UInt32) :
    SmRegistry × Option ServiceModel :=
  match r.sms.lookup ranFunctionId with
  | some sm => (r, some sm)
  | none =>
    if ranFunctionId ∈ r.factories then
      match create ranFunctionId with
      | none => (r, none)
      | some sm =>
        if sm.initResult = .success then
          ({ r with
              sms := r.sms.insert ranFunctionId sm.init
              factories := r.factories.erase ranFunctionId }, some sm.init)
        else ({ r with deleted := r.deleted ++ [sm.init] }, none)
    else (r, none)

/-- The keys of both maps, sorted.  A key of both would stand twice. -/
def getAvailableRanFunctions : List UInt32 := ascendingList (r.sms.keys.val + r.factories.val)

/-- `result` is what the `start` of the model returns. -/
def startSm (result : ErrorCode) (ranFunctionId : UInt32) : SmRegistry × ErrorCode :=
  match r.sms.lookup ranFunctionId with
  | none => (r, .smNotFound)
  | some sm =>
    if sm.isRunning then (r, .success)
    else ({ r with sms := r.sms.insert ranFunctionId (sm.receive (.start result)) }, result)

def stopSm (ranFunctionId : UInt32) : SmRegistry × ErrorCode :=
  match r.sms.lookup ranFunctionId with
  | none => (r, .smNotFound)
  | some sm =>
    if !sm.isRunning then (r, .success)
    else ({ r with sms := r.sms.insert ranFunctionId (sm.receive .stop) }, .success)

def isSmRunning (ranFunctionId : UInt32) : Bool :=
  match r.sms.lookup ranFunctionId with
  | some sm => sm.isRunning
  | none => false

def clear (order : Enumeration UInt32) : SmRegistry where
  deleted := r.deleted ++ (order.list r.sms.keys).filterMap fun id =>
    (r.sms.lookup id).map fun sm => sm.halt.destroy

section Registering

variable {r : SmRegistry} {sm : ServiceModel}

theorem registerSm_of_taken (htaken : sm.ranFunctionId ∈ r.sms) :
    r.registerSm (some sm) = ({ r with deleted := r.deleted ++ [sm] }, .smAlreadyRegistered) :=
  if_pos htaken

theorem registerSm_of_failed (hnew : sm.ranFunctionId ∉ r.sms) (hinit : sm.initResult ≠ .success) :
    r.registerSm (some sm) = ({ r with deleted := r.deleted ++ [sm.init] }, sm.initResult) := by
  rw [registerSm, if_neg hnew, if_pos hinit]

theorem registerSm_of_free (hnew : sm.ranFunctionId ∉ r.sms) (hinit : sm.initResult = .success) :
    r.registerSm (some sm) = ({ r with sms := r.sms.insert sm.ranFunctionId sm.init }, .success) := by
  rw [registerSm, if_neg hnew, if_neg (not_not.mpr hinit)]

end Registering

/-- What `register_sm` can do to the models: it adds the one it is given or leaves all as they are. -/
theorem registerSm_sms (offer : Option ServiceModel) :
    (r.registerSm offer).1.sms = r.sms ∨
      ∃ sm, offer = some sm ∧ sm.ranFunctionId ∉ r.sms ∧
        (r.registerSm offer).1.sms = r.sms.insert sm.ranFunctionId sm.init := by
  cases offer with
  | none => exact Or.inl rfl
  | some sm =>
    by_cases htaken : sm.ranFunctionId ∈ r.sms
    · rw [registerSm_of_taken htaken]
      exact Or.inl rfl
    by_cases hinit : sm.initResult = .success
    · rw [registerSm_of_free htaken hinit]
      exact Or.inr ⟨sm, rfl, htaken, rfl⟩
    · rw [registerSm_of_failed htaken hinit]
      exact Or.inl rfl

theorem registerSmFactory_sms (ranFunctionId : UInt32) (callable : Bool) :
    (r.registerSmFactory ranFunctionId callable).1.sms = r.sms := by
  unfold registerSmFactory
  split
  · rfl
  · split <;> rfl

/-- A lookup adds the model that the factory makes or leaves all models as they are. -/
theorem getByRanFunction_sms (create : UInt32 → Option ServiceModel) (ranFunctionId : UInt32) :
    (r.getByRanFunction create ranFunctionId).1.sms = r.sms ∨
      ∃ sm, create ranFunctionId = some sm ∧ ranFunctionId ∉ r.sms ∧
        (r.getByRanFunction create ranFunctionId).1.sms = r.sms.insert ranFunctionId sm.init := by
  unfold getByRanFunction
  split
  · exact Or.inl rfl
  · rename_i hnone
    split
    · split
      · exact Or.inl rfl
      · rename_i sm hsm
        split
        · exact Or.inr ⟨sm, hsm, Finmap.lookup_eq_none.mp hnone, rfl⟩
        · exact Or.inl rfl
    · exact Or.inl rfl

end SmRegistry

end LibE3
