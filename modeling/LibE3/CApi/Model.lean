import LibE3.Interface.Registry
import LibE3.Lib.Transition

/-! The handles of the C interface, from `c_api.cpp`.  A handle of a service model is owned by the
caller until `e3_agent_register_sm` succeeds, and from then on by the registry, which every agent of
the process shares.  `e3_agent_register_sm` puts the handle into a `unique_ptr` before it knows
whether the registration succeeds, and the registry deletes what it holds when an agent stops.  So
the header's rules are kept exactly in those runs in which every registration succeeds and no handle
is used after the stop that deleted it. -/

namespace LibE3

namespace CApi

open Transition

/-- The object behind an `e3_service_model_handle_t`.  Its memory is taken to keep its content after
it is deleted. -/
structure Handle where
  sm : ServiceModel
  transferredToAgent : Bool := false
  /-- Whether `outbound_emitter_` holds a function. -/
  emitter : Bool := false
  /-- How often it was deleted. -/
  deletions : Nat := 0
  deriving DecidableEq, Repr

/-- The object behind an `e3_agent_handle_t`, with the state of its interface where it has one. -/
structure Agent where
  interface : Option AgentState := none
  destroyed : Bool := false
  deriving DecidableEq, Repr

/-- The objects of a process.  A pointer is the position of its object in the order of creation. -/
structure Process where
  handles : List Handle := []
  agents : List Agent := []
  /-- `SmRegistry::instance()`. -/
  registry : SmRegistry := {}
  /-- The handle under each key of `sms_`. -/
  registered : UnorderedMap UInt32 Nat := ∅
  /-- The handles that were read after they were deleted. -/
  staleReads : List Nat := []

namespace Process

variable (s : Process)

/-- An access to the object behind `h`. -/
def read (h : Nat) : Process :=
  if (s.handles[h]?).any (·.deletions ≠ 0) then { s with staleReads := s.staleReads ++ [h] } else s

def modify (h : Nat) (f : Handle → Handle) : Process := { s with handles := s.handles.modify h f }

def delete (h : Nat) : Process := s.modify h fun handle =>
  { handle with deletions := handle.deletions + 1 }

def setInterface (a : Nat) (state : AgentState) : Process :=
  { s with agents := s.agents.modify a fun agent => { agent with interface := some state } }

def interface (a : Nat) : Option AgentState := (s.agents[a]?).bind (·.interface)

/-! ### Agents -/

/-- `E3Agent::init`: an interface that fails to initialise is dropped again. -/
def init (a : Nat) (encoder : Bool) : Process × ErrorCode :=
  if (s.interface a).isSome then (s, .alreadyInitialized)
  else if encoder then (s.setInterface a .initialized, .success)
  else (s, .internalError)

/-- The call of `init` with which `E3Agent::start` and `E3Agent::register_sm` begin. -/
def ensureInit (a : Nat) (encoder : Bool) : Process × ErrorCode :=
  if (s.interface a).isSome then (s, .success) else s.init a encoder

def start (a : Nat) (encoder : Bool) (connection : ErrorCode) : Process × ErrorCode :=
  let (s, initResult) := s.ensureInit a encoder
  if initResult ≠ .success then (s, initResult)
  else if s.interface a ≠ some .initialized then (s, .stateError)
  else if connection ≠ .success then (s.setInterface a .error, connection)
  else (s.setInterface a .running, .success)

/-- The handles that the registry holds, in the order in which `clear` walks it. -/
def heldHandles (order : Enumeration UInt32) : List Nat :=
  (order.list s.registered.keys).filterMap s.registered.lookup

/-- `SmRegistry::clear` reads every model it holds and deletes it. -/
def clearRegistry (order : Enumeration UInt32) : Process :=
  { (s.heldHandles order).foldl (fun s h => (s.read h).delete h) s with
    registry := s.registry.clear order
    registered := ∅ }

/-- `E3Agent::stop`, which goes to the interface where there is one. -/
def stop (a : Nat) (order : Enumeration UInt32) : Process :=
  match s.interface a with
  | none => s
  | some state =>
    if state = .uninitialized ∨ state = .stopping then s
    else (s.clearRegistry order).setInterface a .initialized

/-- The destructor of the agent stops it, and the destructor of its interface does so again. -/
def destroyAgent (a : Nat) (order : Enumeration UInt32) : Process :=
  let s := (s.stop a order).stop a order
  { s with agents := s.agents.modify a fun _ => { interface := none, destroyed := true } }

/-- The registration of the object behind `h`: from `E3Agent::register_sm` through
`E3Interface::register_sm` to the registry.  Every early return deletes the object with its
`unique_ptr`. -/
def registerSm (a h : Nat) (encoder : Bool) (handle : Handle) : Process × ErrorCode :=
  let (s, initResult) := s.ensureInit a encoder
  if initResult ≠ .success then (s.delete h, initResult)
  else
    let s := s.modify h fun handle => { handle with emitter := true }
    let (registry, result) := s.registry.registerSm (some handle.sm)
    if result = .success then
      ({ s with registry, registered := s.registered.insert handle.sm.ranFunctionId h }, result)
    else ({ s with registry }.delete h, result)

end Process

/-! ### The functions of the header -/

/-- What a call returns: an error code, and the pointer that a creation makes. -/
structure Result where
  code : ErrorCode := .success
  pointer : Option Nat := none
  deriving DecidableEq, Repr

/-- The calls, with null pointers as `none` and with what they take from outside: whether an
allocation succeeds, whether the build has the configured encoder, what `setup_initial_connection`
returns, what `queue_outbound` says to an emitted PDU, and the order in which the registry is walked.
`emit` is either of the two emitting functions, which differ in the PDU they build. -/
inductive Call
  | serviceModelCreateFromC (desc : Option ServiceModel) (allocated : Bool)
  | serviceModelDestroy (sm : Option Nat)
  | emit (sm : Option Nat) (queued : ErrorCode)
  | agentCreate (allocated : Bool)
  | agentInit (agent : Option Nat) (encoder : Bool)
  | agentStart (agent : Option Nat) (encoder : Bool) (connection : ErrorCode)
  | agentStop (agent : Option Nat) (order : Enumeration UInt32)
  | agentDestroy (agent : Option Nat) (order : Enumeration UInt32)
  | agentRegisterSm (agent sm : Option Nat) (encoder : Bool)

def Call.perform (s : Process) : Call → Process × Result
  | .serviceModelCreateFromC (some sm) true =>
    ({ s with handles := s.handles ++ [{ sm }] }, { pointer := some s.handles.length })
  | .serviceModelCreateFromC _ _ => (s, {})
  | .serviceModelDestroy none => (s, {})
  | .serviceModelDestroy (some h) =>
    if (s.handles[h]?).any (·.transferredToAgent) then (s.read h, {})
    else ((s.read h).delete h, {})
  | .emit none _ => (s, { code := .invalidParam })
  | .emit (some h) queued =>
    (s.read h, { code := if (s.handles[h]?).any (·.emitter) then queued else .notInitialized })
  | .agentCreate true =>
    ({ s with agents := s.agents ++ [{}] }, { pointer := some s.agents.length })
  | .agentCreate false => (s, {})
  | .agentInit none _ => (s, { code := .stateError })
  | .agentInit (some a) encoder => ((s.init a encoder).1, { code := (s.init a encoder).2 })
  | .agentStart none _ _ => (s, { code := .stateError })
  | .agentStart (some a) encoder connection =>
    ((s.start a encoder connection).1, { code := (s.start a encoder connection).2 })
  | .agentStop none _ => (s, {})
  | .agentStop (some a) order => (s.stop a order, {})
  | .agentDestroy none _ => (s, {})
  | .agentDestroy (some a) order => (s.destroyAgent a order, {})
  | .agentRegisterSm (some a) (some h) encoder =>
    match s.handles[h]? with
    -- No object was ever created behind the pointer.
    | none => (s, { code := .invalidParam })
    | some handle =>
      let s := (s.read h).modify h fun handle => { handle with transferredToAgent := true }
      ((s.registerSm a h encoder handle).1, { code := (s.registerSm a h encoder handle).2 })
  | .agentRegisterSm _ _ _ => (s, { code := .invalidParam })

/-! ### The rules of the header -/

/-- What a caller knows of a handle that it created. -/
inductive View
  | owned
  | transferred
  | released
  deriving DecidableEq, Repr

/-- What a call tells the caller about `h`.  A failed registration leaves the handle with the caller,
and destroying a handle that was transferred does nothing. -/
def viewStep (h : Nat) (view : Option View) : Call × Result → Option View
  | (.serviceModelCreateFromC _ _, r) => if r.pointer = some h then some .owned else view
  | (.serviceModelDestroy (some h'), _) =>
    if h' = h ∧ view = some .owned then some .released else view
  | (.agentRegisterSm _ (some h') _, r) =>
    if h' = h ∧ r.code = .success then some .transferred else view
  | _ => view

def viewOf (h : Nat) (past : List (Call × Result)) : Option View := past.foldl (viewStep h) none

/-- The agent is null or has not been destroyed. -/
def Alive (s : Process) (agent : Option Nat) : Prop :=
  ∀ a, agent = some a → ∃ object, s.agents[a]? = some object ∧ object.destroyed = false

/-- The caller may use a handle that it owns or has transferred, and register one that it owns. -/
def Permitted (s : Process) (past : List (Call × Result)) : Call → Prop
  | .serviceModelDestroy (some h) => viewOf h past = some .owned ∨ viewOf h past = some .transferred
  | .emit (some h) _ => viewOf h past = some .owned ∨ viewOf h past = some .transferred
  | .agentRegisterSm agent (some h) _ => viewOf h past = some .owned ∧ Alive s agent
  | .agentRegisterSm agent none _ => Alive s agent
  | .agentInit agent _ => Alive s agent
  | .agentStart agent _ _ => Alive s agent
  | .agentStop agent _ => Alive s agent
  | .agentDestroy agent _ => Alive s agent
  | _ => True

def after (calls : List Call) : Process := final Call.perform {} calls

def past (calls : List Call) : List (Call × Result) := history Call.perform {} calls

/-- The caller follows the header in every call of the run. -/
def FollowsHeader (calls : List Call) : Prop :=
  ∀ before c rest, calls = before ++ c :: rest → Permitted (after before) (past before) c

/-- No call of the run reads a deleted handle, none is deleted twice, and a registration that fails
leaves the handle to the caller. -/
structure OwnershipKept (calls : List Call) : Prop where
  noStaleRead : (after calls).staleReads = []
  deletedOnce : ∀ (h : Nat) (handle : Handle), (after calls).handles[h]? = some handle →
    handle.deletions ≤ 1
  failed : ∀ before agent h encoder rest,
    calls = before ++ .agentRegisterSm agent (some h) encoder :: rest →
    ((Call.agentRegisterSm agent (some h) encoder).perform (after before)).2.code ≠ .success →
    ∃ handle : Handle,
      ((Call.agentRegisterSm agent (some h) encoder).perform (after before)).1.handles[h]? =
        some handle ∧ handle.deletions = 0 ∧ handle.transferredToAgent = false

/-- The agent is initialised or can be, no model is registered for the RAN function of the handle,
and the `init` of the model succeeds. -/
def Registrable (s : Process) (a h : Nat) (encoder : Bool) : Prop :=
  ((s.interface a).isSome = true ∨ encoder = true) ∧
    ∀ handle : Handle, s.handles[h]? = some handle →
      handle.sm.ranFunctionId ∉ s.registry.sms ∧ handle.sm.initResult = .success

/-- The call stops or destroys an agent that has an interface. -/
def Clears (s : Process) (c : Call) : Prop :=
  ∃ a order, (c = .agentStop (some a) order ∨ c = .agentDestroy (some a) order) ∧
    (s.interface a).isSome = true

/-- The registry holds the handle. -/
def Holds (s : Process) (h : Nat) : Prop := ∃ f, s.registered.lookup f = some h

/-- The call hands the pointer to an emitting function or to `e3_service_model_destroy`. -/
def Uses (h : Nat) (c : Call) : Prop :=
  c = .serviceModelDestroy (some h) ∨ ∃ queued, c = .emit (some h) queued

/-- Every registration with an agent and a handle can succeed, and a handle that the registry held
when an agent was stopped or destroyed is not used afterwards. -/
structure Careful (calls : List Call) : Prop where
  registers : ∀ before a h encoder rest,
    calls = before ++ .agentRegisterSm (some a) (some h) encoder :: rest →
    Registrable (after before) a h encoder
  uses : ∀ before c mid c' rest h, calls = before ++ c :: (mid ++ c' :: rest) →
    Clears (after before) c → Holds (after before) h → ¬Uses h c'

end CApi

end LibE3
