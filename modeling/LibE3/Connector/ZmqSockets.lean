import LibE3.Lib.Slots
import LibE3.Lib.Transition
import LibE3.Types
import Mathlib.Data.Finset.Image

/-! The context and the sockets of `ZmqE3Connector`, from `zmq_connector.cpp`, for all results of the
calls of the library.  `zmq_ctx_destroy` waits until every socket of the context is closed, so a socket
that was replaced in its field without being closed keeps `dispose`, and with it `stop`, from
returning.  It also waits until the messages that were sent are delivered, for nothing sets
`ZMQ_LINGER`. -/

namespace LibE3

namespace Zmq

namespace Sockets

open Transition.System

/-! ### The library -/

/-- The contexts and the sockets that are open, each socket with its context. -/
@[ext] structure Library where
  contexts : Finset Nat := ∅
  sockets : Finset (Nat × Nat) := ∅
  deriving DecidableEq

namespace Library

variable (z : Library)

/-- `zmq_ctx_new` returns no context, or a new one. -/
def ctxNew (ret : Option Nat) : Option Library :=
  match ret with
  | none => some z
  | some context =>
    if context ∈ z.contexts then none else some { z with contexts := insert context z.contexts }

/-- `zmq_socket` returns no socket, or a new one. -/
def socket (context : Nat) (ret : Option Nat) : Option Library :=
  match ret with
  | none => some z
  | some socket =>
    if socket ∈ z.sockets.image Prod.fst then none
    else some { z with sockets := insert (socket, context) z.sockets }

def close (socket : Nat × Nat) : Library := { z with sockets := z.sockets.erase socket }

/-- Closes the socket of a field, if there is one. -/
def closeUsed (socket : Option (Nat × Nat)) : Library := socket.elim z z.close

end Library

/-- `zmq_ctx_destroy`, which is not in the repository: whether it returns in the end, for what is open and
the number of messages of the context that no peer will get.  What it does with such messages is left
open, for that depends on `ZMQ_LINGER`.  No signal interrupts it. -/
structure Destroy where
  returns : Library → Nat → Nat → Bool
  /-- It does not return while a socket of the context is open. -/
  waits : ∀ z context undelivered, context ∈ z.sockets.image Prod.snd →
    returns z context undelivered = false
  /-- It returns where all sockets of the context are closed and all messages are delivered. -/
  returns_of_delivered : ∀ z context, context ∉ z.sockets.image Prod.snd → returns z context 0 = true

/-- With `ZMQ_LINGER` as it is by default, it waits for every message. -/
def Destroy.lingering : Destroy where
  returns z context undelivered := context ∉ z.sockets.image Prod.snd ∧ undelivered = 0
  waits z context undelivered h := by simp [h]
  returns_of_delivered z context h := by simp [h]

def Library.ctxDestroy (z : Library) (destroy : Destroy) (context undelivered : Nat) :
    Option Library :=
  if destroy.returns z context undelivered then some { z with contexts := z.contexts.erase context }
  else none

/-- What the calls come to that open a socket. -/
structure BindCalls where
  socket : Option Nat
  bind : Bool := true
  deriving DecidableEq, Repr

/-- What the calls of `setup_initial_connection` come to. -/
structure InitialCalls extends BindCalls where
  ctxNew : Option Nat
  ctxSet : Bool := true
  stat : Bool := true
  mkdir : Bool := true
  deriving DecidableEq, Repr

/-- What `zmq_recv` comes to on the setup socket, with the calls that reset the socket after an error. -/
inductive SetupRecv
  | message (length : Nat)
  | timeout
  | error (calls : BindCalls)
  deriving DecidableEq, Repr

/-- What `zmq_send` comes to on the setup socket. -/
inductive SetupSend
  | sent
  | error (calls : BindCalls)
  deriving DecidableEq, Repr

/-! ### The connector -/

/-- The fields of the connector.  A socket is kept with the context that it belongs to. -/
structure Connector where
  transportLayer : E3TransportLayer
  context : Option Nat := none
  setupSocket : Option (Nat × Nat) := none
  inboundSocket : Option (Nat × Nat) := none
  outboundSocket : Option (Nat × Nat) := none
  connected : Bool := false
  library : Library := {}
  deriving DecidableEq

/-- The directory of the IPC sockets is there, or is not needed. -/
def InitialCalls.directory (calls : InitialCalls) (transportLayer : E3TransportLayer) : Bool :=
  transportLayer != .ipc || calls.stat || calls.mkdir

namespace Connector

variable (c : Connector)

/-- Nothing has been sent in the context that is destroyed here. -/
def setupInitialConnection (destroy : Destroy) (calls : InitialCalls) :
    Option (Connector × ErrorCode) :=
  (c.library.ctxNew calls.ctxNew).bind fun library =>
    let c := { c with library, context := calls.ctxNew }
    match calls.ctxNew with
    | none => some (c, .connectionFailed)
    | some context =>
      if calls.ctxSet then
        if calls.directory c.transportLayer then
          (c.library.socket context calls.socket).map fun library =>
            let c := { c with library, setupSocket := calls.socket.map (·, context) }
            if calls.socket.isSome && calls.bind then ({ c with connected := true }, .success)
            else (c, .connectionFailed)
        else some (c, .connectionFailed)
      else
        (c.library.ctxDestroy destroy context 0).map fun library =>
          ({ c with library, context := none }, .connectionFailed)

/-- Closes the setup socket, if there is one. -/
def closeSetup : Connector :=
  { c with library := c.library.closeUsed c.setupSocket, setupSocket := none }

/-- Closes the setup socket and opens it again. -/
def resetSetupSocket (calls : BindCalls) : Option (Connector × Bool) :=
  let c := c.closeSetup
  match c.context with
  | none => some (c, false)
  | some context =>
    (c.library.socket context calls.socket).map fun library =>
      match calls.socket with
      | none => ({ c with library, setupSocket := none }, false)
      | some socket =>
        if calls.bind then ({ c with library, setupSocket := some (socket, context) }, true)
        else ({ c with library := library.close (socket, context), setupSocket := none }, false)

def recvSetupRequest (recv : SetupRecv) : Option (Connector × Except ErrorCode Nat) :=
  match c.setupSocket, recv with
  | none, _ => some (c, .error .notConnected)
  | some _, .message length => some (c, .ok length)
  | some _, .timeout => some (c, .ok 0)
  | some _, .error calls => (c.resetSetupSocket calls).map fun r => (r.1, .error .transportError)

def sendResponse (send : SetupSend) : Option (Connector × ErrorCode) :=
  match c.setupSocket, send with
  | none, _ => some (c, .notConnected)
  | some _, .sent => some (c, .success)
  | some _, .error calls => (c.resetSetupSocket calls).map fun r => (r.1, .transportError)

/-- How `setup_inbound_connection` and `setup_outbound_connection` open a socket and keep it, bound or
not, in the field that `put` sets. -/
def setupConnection (put : Connector → Option (Nat × Nat) → Connector) (calls : BindCalls) :
    Option (Connector × ErrorCode) :=
  match c.context with
  | none => some (c, .notInitialized)
  | some context =>
    (c.library.socket context calls.socket).map fun library =>
      let c := put { c with library } (calls.socket.map (·, context))
      if calls.socket.isSome && calls.bind then (c, .success) else (c, .connectionFailed)

def setupInboundConnection (calls : BindCalls) : Option (Connector × ErrorCode) :=
  c.setupConnection (fun c socket => { c with inboundSocket := socket }) calls

def setupOutboundConnection (calls : BindCalls) : Option (Connector × ErrorCode) :=
  c.setupConnection (fun c socket => { c with outboundSocket := socket }) calls

/-- Closes the sockets and destroys the context, unless it waits for ever.  The files of the sockets are
left out. -/
def dispose (destroy : Destroy) (undelivered : Nat) : Option Connector :=
  let library :=
    ((c.library.closeUsed c.setupSocket).closeUsed c.inboundSocket).closeUsed c.outboundSocket
  (match c.context with
    | none => some library
    | some context => library.ctxDestroy destroy context undelivered).map fun library =>
      { transportLayer := c.transportLayer, library }

end Connector

/-! ### Runs -/

/-- A call of the connector, with what the calls of the library come to; for `dispose`, the number of
messages that are not delivered.  `receive`, `send` and `shutdown` change no field. -/
inductive Call
  | setupInitialConnection (calls : InitialCalls)
  | recvSetupRequest (recv : SetupRecv)
  | sendResponse (send : SetupSend)
  | setupInboundConnection (calls : BindCalls)
  | setupOutboundConnection (calls : BindCalls)
  | dispose (undelivered : Nat)
  deriving DecidableEq, Repr

def step (destroy : Destroy) (c : Connector) : Call → Option Connector
  | .setupInitialConnection calls => (c.setupInitialConnection destroy calls).map Prod.fst
  | .recvSetupRequest recv => (c.recvSetupRequest recv).map Prod.fst
  | .sendResponse send => (c.sendResponse send).map Prod.fst
  | .setupInboundConnection calls => (c.setupInboundConnection calls).map Prod.fst
  | .setupOutboundConnection calls => (c.setupOutboundConnection calls).map Prod.fst
  | .dispose undelivered => c.dispose destroy undelivered

/-! ### Fields -/

inductive Field
  | context
  | setupSocket
  | inboundSocket
  | outboundSocket
  deriving DecidableEq, Repr

/-- A context or a socket. -/
abbrev Resource := Nat ⊕ Nat × Nat

namespace Connector

variable (c : Connector)

def get : Field → Option Resource
  | .context => c.context.map .inl
  | .setupSocket => c.setupSocket.map .inr
  | .inboundSocket => c.inboundSocket.map .inr
  | .outboundSocket => c.outboundSocket.map .inr

def slots : Slots Field Resource where
  slot := c.get
  live := {r | Sum.elim (· ∈ c.library.contexts) (· ∈ c.library.sockets) r}

end Connector

open Slots (Edit)

/-- What the reset of the setup socket does to the fields. -/
def resetEdits (c : Connector) (calls : BindCalls) : List (Edit Field Resource) :=
  .release .setupSocket ::
    match c.context, calls.socket with
    | none, _ => []
    | some _, none => []
    | some context, some socket =>
      .store .setupSocket (some (.inr (socket, context))) ::
        if calls.bind then [] else [.release .setupSocket]

/-- What a call does to the fields. -/
def edits (c : Connector) : Call → List (Edit Field Resource)
  | .setupInitialConnection calls =>
    .store .context (calls.ctxNew.map .inl) ::
      match calls.ctxNew with
      | none => []
      | some context =>
        if calls.ctxSet then
          if calls.directory c.transportLayer then
            [.store .setupSocket (calls.socket.map fun socket => .inr (socket, context))]
          else []
        else [.release .context]
  | .recvSetupRequest (.error calls) | .sendResponse (.error calls) =>
    if c.setupSocket.isSome then resetEdits c calls else []
  | .setupInboundConnection calls =>
    match c.context with
    | none => []
    | some context =>
      [.store .inboundSocket (calls.socket.map fun socket => .inr (socket, context))]
  | .setupOutboundConnection calls =>
    match c.context with
    | none => []
    | some context =>
      [.store .outboundSocket (calls.socket.map fun socket => .inr (socket, context))]
  | _ => []

/-- A call stores what it opens only in fields that are empty. -/
def Vacant (c : Connector) : Call → Prop
  | .setupInitialConnection calls =>
    c.context = none ∧ (calls.ctxNew.isSome = true → calls.ctxSet = true →
      calls.directory c.transportLayer = true → c.setupSocket = none)
  | .setupInboundConnection _ => c.context.isSome = true → c.inboundSocket = none
  | .setupOutboundConnection _ => c.context.isSome = true → c.outboundSocket = none
  | _ => True

/-! ### What a call does to the fields -/

section Effects

variable {destroy : Destroy} {c c' : Connector} {z : Library}

theorem Library.ctxNew_cases {ret : Option Nat} (h : c.library.ctxNew ret = some z) :
    c.slots.Fresh (ret.map .inl) ∧ z.sockets = c.library.sockets ∧
      ∀ context, context ∈ z.contexts ↔ context ∈ c.library.contexts ∨ ret = some context := by
  cases ret with
  | none =>
    cases h
    exact ⟨nofun, rfl, by simp⟩
  | some context =>
    simp only [Library.ctxNew] at h
    split at h
    · cases h
    · rename_i hnew
      cases h
      refine ⟨fun r hr => ?_, rfl, fun other => ?_⟩
      · cases hr
        exact hnew
      · simp [eq_comm, or_comm]

theorem Library.socket_cases {context : Nat} {ret : Option Nat}
    (h : c.library.socket context ret = some z) :
    c.slots.Fresh (ret.map fun socket => .inr (socket, context)) ∧
      z.contexts = c.library.contexts ∧
      ∀ socket, socket ∈ z.sockets ↔ socket ∈ c.library.sockets ∨ ret.map (·, context) = some socket := by
  cases ret with
  | none =>
    cases h
    exact ⟨nofun, rfl, by simp⟩
  | some socket =>
    simp only [Library.socket] at h
    split at h
    · cases h
    · rename_i hnew
      cases h
      refine ⟨fun r hr => ?_, rfl, fun other => ?_⟩
      · cases hr
        exact fun hmem => hnew (Finset.mem_image_of_mem Prod.fst hmem)
      · simp [eq_comm, or_comm]

theorem slots_congr (hget : ∀ f, c'.get f = c.get f) (hlibrary : c'.library = c.library) :
    c'.slots = c.slots := by
  rw [Connector.slots, Connector.slots, hlibrary, funext hget]

@[simp] theorem Library.closeUsed_contexts (z : Library) (socket : Option (Nat × Nat)) :
    (z.closeUsed socket).contexts = z.contexts := by
  cases socket <;> rfl

@[simp] theorem Library.closeUsed_sockets (z : Library) (socket : Option (Nat × Nat)) :
    (z.closeUsed socket).sockets = z.sockets.filter fun other => socket ≠ some other := by
  cases socket with
  | none => simp [closeUsed]
  | some socket =>
    refine Finset.ext fun other => ?_
    simp [closeUsed, close, and_comm, eq_comm]

/-- A connector that differs by what one field stores. -/
theorem slots_assign {field : Field} {o : Option Resource}
    (hget : ∀ f, c'.get f = if f = field then o else c.get f)
    (hcontexts : ∀ x, x ∈ c'.library.contexts ↔ x ∈ c.library.contexts ∨ o = some (.inl x))
    (hsockets : ∀ x, x ∈ c'.library.sockets ↔ x ∈ c.library.sockets ∨ o = some (.inr x)) :
    c'.slots = c.slots.edit (.store field o) := by
  refine Slots.ext (funext fun f => ?_) (Set.ext fun r => ?_)
  · refine (hget f).trans ?_
    simp only [Slots.edit, Slots.assign, Function.update_apply]
    rfl
  · cases r with
    | inl context => exact hcontexts context
    | inr socket => exact hsockets socket

/-- A connector that differs by the release of one field. -/
theorem slots_release {field : Field} (hget : ∀ f, c'.get f = if f = field then none else c.get f)
    (hcontexts : ∀ x, x ∈ c'.library.contexts ↔
      x ∈ c.library.contexts ∧ c.get field ≠ some (.inl x))
    (hsockets : ∀ x, x ∈ c'.library.sockets ↔
      x ∈ c.library.sockets ∧ c.get field ≠ some (.inr x)) :
    c'.slots = c.slots.edit (.release field) := by
  refine Slots.ext (funext fun f => ?_) (Set.ext fun r => ?_)
  · refine (hget f).trans ?_
    simp only [Slots.edit, Slots.release, Function.update_apply]
    rfl
  · cases r with
    | inl context => exact hcontexts context
    | inr socket => exact hsockets socket

theorem slots_of_ctxNew {ret : Option Nat} (h : c.library.ctxNew ret = some z) :
    ({ c with library := z, context := ret } : Connector).slots =
      c.slots.edit (.store .context (ret.map .inl)) := by
  obtain ⟨-, hsockets, hcontexts⟩ := Library.ctxNew_cases h
  refine slots_assign (fun f => ?_) (fun x => ?_) fun x => ?_
  · cases f <;> rfl
  · cases ret <;> simp [hcontexts]
  · cases ret <;> simp [hsockets]

theorem slots_of_ctxDestroy {context undelivered : Nat} (hcontext : c.context = some context)
    (h : c.library.ctxDestroy destroy context undelivered = some z) (hlibrary : c'.library = z)
    (hget : ∀ f, c'.get f = if f = .context then none else c.get f) :
    c'.slots = c.slots.edit (.release .context) := by
  obtain ⟨-, h⟩ := Option.ite_none_right_eq_some.mp h
  cases h
  refine slots_release hget (fun x => ?_) fun x => ?_
  · simp [hlibrary, Connector.get, hcontext, eq_comm, and_comm]
  · simp [hlibrary, Connector.get, hcontext]

/-- A socket that is opened and kept in one of the fields. -/
theorem slots_of_socket {context : Nat} {ret : Option Nat} {field : Field}
    (h : c.library.socket context ret = some z) (hlibrary : c'.library = z)
    (hget : ∀ f, c'.get f =
      if f = field then ret.map fun socket => .inr (socket, context) else c.get f) :
    c'.slots = c.slots.edit
      (.store field (ret.map fun socket => .inr (socket, context))) := by
  obtain ⟨-, hcontexts, hsockets⟩ := Library.socket_cases h
  subst hlibrary
  refine slots_assign hget (fun x => ?_) fun x => ?_
  · cases ret <;> simp [hcontexts]
  · cases ret <;> simp [hsockets]

/-- The setup socket is closed, if there is one. -/
theorem slots_of_close (hcontext : c'.context = c.context)
    (hsetup : c'.setupSocket = none) (hinbound : c'.inboundSocket = c.inboundSocket)
    (houtbound : c'.outboundSocket = c.outboundSocket)
    (hlibrary : c'.library = c.library.closeUsed c.setupSocket) :
    c'.slots = c.slots.edit (.release .setupSocket) := by
  refine slots_release (fun f => ?_) (fun x => ?_) fun x => ?_
  · cases f <;> simp [Connector.get, hcontext, hsetup, hinbound, houtbound]
  · rw [hlibrary]
    cases hsocket : c.setupSocket <;> simp [Connector.get, hsocket]
  · rw [hlibrary]
    cases hsocket : c.setupSocket <;> simp [Connector.get, hsocket]

theorem edits_of_reset {calls : BindCalls} {result : Connector × Bool}
    (h : c.resetSetupSocket calls = some result) :
    Slots.Edits c.slots (resetEdits c calls) result.1.slots := by
  have hclosed : c.closeSetup.slots = c.slots.edit (.release .setupSocket) :=
    slots_of_close rfl rfl rfl rfl rfl
  have hcontext : c.closeSetup.context = c.context := rfl
  rw [Connector.resetSetupSocket] at h
  refine .next trivial ?_
  rw [← hclosed]
  cases hcase : c.context with
  | none =>
    rw [hcontext, hcase] at h
    cases h
    exact .done _
  | some context =>
    rw [hcontext, hcase] at h
    obtain ⟨library, hsocket, rfl⟩ := Option.map_eq_some_iff.mp h
    obtain ⟨hfresh, -, -⟩ := Library.socket_cases hsocket
    cases hret : calls.socket with
    | none =>
      rw [hret] at hsocket
      cases hsocket
      refine .nothing (slots_congr (fun f => ?_) rfl)
      cases f <;> simp [Connector.get, hcase, Connector.closeSetup]
    | some socket =>
      rw [hret] at hsocket hfresh
      refine .next hfresh ?_
      have hstored : Connector.slots { c.closeSetup with
            context := some context, library, setupSocket := some (socket, context) } =
          c.closeSetup.slots.edit
            (.store .setupSocket ((some socket).map fun socket => .inr (socket, context))) :=
        slots_of_socket hsocket rfl fun f => by
          cases f <;> simp [Connector.get, hcontext, hcase]
      rw [← Option.map_some (f := fun socket => (Sum.inr (socket, context) : Resource)), ← hstored]
      cases hbind : calls.bind with
      | true => exact .done _
      | false =>
        exact .one trivial (slots_of_close rfl rfl rfl rfl rfl)

/-- A socket that `put` keeps in a field of its own. -/
theorem edits_of_setupConnection (field : Field)
    {put : Connector → Option (Nat × Nat) → Connector} {calls : BindCalls}
    {result : Connector × ErrorCode} (h : c.setupConnection put calls = some result)
    (hlibrary : ∀ c socket, (put c socket).library = c.library)
    (hput : ∀ c socket f, (put c socket).get f = if f = field then socket.map .inr else c.get f) :
    Slots.Edits c.slots
      (match c.context with
        | none => []
        | some context =>
          [.store field (calls.socket.map fun socket => .inr (socket, context))])
      result.1.slots := by
  unfold Connector.setupConnection at h
  cases hcontext : c.context with
  | none =>
    rw [hcontext] at h
    cases h
    exact .done _
  | some context =>
    rw [hcontext] at h
    obtain ⟨library, hsocket, rfl⟩ := Option.map_eq_some_iff.mp h
    refine .one (Library.socket_cases hsocket).1 (slots_of_socket hsocket ?_ fun f => ?_)
    · dsimp only
      split <;> rw [hlibrary]
    · dsimp only
      split <;> rw [hput, Option.map_map] <;> cases f <;>
        simp [Connector.get, hcontext, Function.comp_def]

/-- Every call but `dispose` does to the fields what its edits say. -/
theorem edits_of_step {call : Call} (h : step destroy c call = some c')
    (hcall : ∀ undelivered, call ≠ .dispose undelivered) :
    Slots.Edits c.slots (edits c call) c'.slots := by
  cases call with
  | setupInitialConnection calls =>
    obtain ⟨⟨c'', code⟩, hresult, hc⟩ := Option.map_eq_some_iff.mp h
    obtain rfl : c'' = c' := hc
    obtain ⟨library, hnew, hrest⟩ := Option.bind_eq_some_iff.mp hresult
    have hfresh := (Library.ctxNew_cases hnew).1
    have hstored := slots_of_ctxNew hnew
    refine .next hfresh ?_
    rw [← hstored]
    dsimp only at hrest ⊢
    cases hret : calls.ctxNew with
    | none =>
      rw [hret] at hrest
      cases hrest
      exact .done _
    | some context =>
      rw [hret] at hrest
      dsimp only at hrest ⊢
      cases hset : calls.ctxSet with
      | false =>
        rw [hset] at hrest
        obtain ⟨library', hdestroy, heq⟩ := Option.map_eq_some_iff.mp hrest
        cases heq
        refine .one trivial (slots_of_ctxDestroy rfl hdestroy rfl fun f => ?_)
        cases f <;> rfl
      | true =>
        rw [hset] at hrest
        cases hdir : calls.directory c.transportLayer with
        | false =>
          simp only [hdir, Bool.false_eq_true, if_true, if_false] at hrest
          cases hrest
          exact .done _
        | true =>
          simp only [hdir, if_true] at hrest
          obtain ⟨library', hsocket, heq⟩ := Option.map_eq_some_iff.mp hrest
          refine .one (Library.socket_cases hsocket).1 (slots_of_socket hsocket ?_ fun f => ?_)
          · split at heq <;> cases heq <;> rfl
          · split at heq <;> cases heq <;> cases f <;>
              simp [Connector.get, Option.map_map, Function.comp_def]
  | recvSetupRequest recv =>
    obtain ⟨result, hresult, rfl⟩ := Option.map_eq_some_iff.mp h
    unfold Connector.recvSetupRequest at hresult
    cases hsocket : c.setupSocket with
    | none =>
      rw [hsocket] at hresult
      cases hresult
      cases recv <;> simp only [edits, hsocket, Option.isSome_none] <;> exact .done _
    | some socket =>
      rw [hsocket] at hresult
      cases recv with
      | message length | timeout =>
        cases hresult
        exact .done _
      | error calls =>
        obtain ⟨reset, hreset, rfl⟩ := Option.map_eq_some_iff.mp hresult
        simp only [edits, hsocket, Option.isSome_some, if_true]
        exact edits_of_reset hreset
  | sendResponse send =>
    obtain ⟨result, hresult, rfl⟩ := Option.map_eq_some_iff.mp h
    unfold Connector.sendResponse at hresult
    cases hsocket : c.setupSocket with
    | none =>
      rw [hsocket] at hresult
      cases hresult
      cases send <;> simp only [edits, hsocket, Option.isSome_none] <;> exact .done _
    | some socket =>
      rw [hsocket] at hresult
      cases send with
      | sent =>
        cases hresult
        exact .done _
      | error calls =>
        obtain ⟨reset, hreset, rfl⟩ := Option.map_eq_some_iff.mp hresult
        simp only [edits, hsocket, Option.isSome_some, if_true]
        exact edits_of_reset hreset
  | setupInboundConnection calls =>
    obtain ⟨result, hresult, rfl⟩ := Option.map_eq_some_iff.mp h
    refine edits_of_setupConnection .inboundSocket hresult (fun _ _ => rfl) ?_
    intro c socket f
    cases f <;> rfl
  | setupOutboundConnection calls =>
    obtain ⟨result, hresult, rfl⟩ := Option.map_eq_some_iff.mp h
    refine edits_of_setupConnection .outboundSocket hresult (fun _ _ => rfl) ?_
    intro c socket f
    cases f <;> rfl
  | dispose undelivered => exact absurd rfl (hcall undelivered)

theorem vacant_store (f : Field) (o : Option Resource) :
    c.slots.Vacant (.store f o) ↔ c.get f = none := Iff.rfl

/-- The reset closes the setup socket before it opens a new one. -/
theorem allVacant_resetEdits (c : Connector) (calls : BindCalls) :
    c.slots.AllVacant (resetEdits c calls) := by
  refine ⟨trivial, ?_⟩
  cases c.context with
  | none => trivial
  | some context =>
    cases calls.socket with
    | none => trivial
    | some socket =>
      refine ⟨?_, ?_⟩
      · simp [Slots.Vacant, Slots.edit, Slots.release]
      · cases calls.bind <;> simp [Slots.AllVacant, Slots.Vacant]

theorem allVacant_iff (c : Connector) (call : Call) :
    c.slots.AllVacant (edits c call) ↔ Vacant c call := by
  cases call with
  | setupInitialConnection calls =>
    have hsetup : ∀ o o', (c.slots.edit (.store .context o)).Vacant (.store .setupSocket o') ↔
        c.setupSocket = none := by
      intro o o'
      simp [Slots.Vacant, Slots.edit, Slots.assign, Connector.slots, Connector.get]
    rw [edits, Slots.AllVacant, Vacant, vacant_store, Connector.get, Option.map_eq_none_iff]
    refine and_congr_right fun _ => ?_
    cases calls.ctxNew with
    | none => simp [Slots.AllVacant]
    | some context =>
      cases calls.ctxSet with
      | false => simp [Slots.AllVacant, Slots.Vacant]
      | true =>
        cases hdir : calls.directory c.transportLayer with
        | false => simp [Slots.AllVacant]
        | true => simp [Slots.AllVacant, hsetup]
  | recvSetupRequest recv =>
    refine iff_of_true ?_ trivial
    cases recv with
    | message length | timeout => trivial
    | error calls =>
      rw [edits]
      split
      · exact allVacant_resetEdits c calls
      · trivial
  | sendResponse send =>
    refine iff_of_true ?_ trivial
    cases send with
    | sent => trivial
    | error calls =>
      rw [edits]
      split
      · exact allVacant_resetEdits c calls
      · trivial
  | setupInboundConnection calls =>
    rw [edits, Vacant]
    cases c.context with
    | none => simp [Slots.AllVacant]
    | some context => simp [Slots.AllVacant, vacant_store, Connector.get]
  | setupOutboundConnection calls =>
    rw [edits, Vacant]
    cases c.context with
    | none => simp [Slots.AllVacant]
    | some context => simp [Slots.AllVacant, vacant_store, Connector.get]
  | dispose undelivered => exact Iff.rfl

end Effects

/-! ### Disposal -/

section Disposal

variable {destroy : Destroy}

/-- Where no message is undelivered, `dispose` returns, and nothing that the connector opened is open any
longer. -/
def Disposable (destroy : Destroy) (c : Connector) : Prop :=
  ∃ c', c.dispose destroy 0 = some c' ∧ c'.library = {}

/-- The sockets that are open after those in the fields are closed. -/
def Connector.unclosed (c : Connector) : Finset (Nat × Nat) :=
  c.library.sockets.filter fun socket =>
    c.setupSocket ≠ some socket ∧ c.inboundSocket ≠ some socket ∧ c.outboundSocket ≠ some socket

/-- What `dispose` leaves, if it returns. -/
def Connector.disposed (c : Connector) : Connector where
  transportLayer := c.transportLayer
  library :=
    { contexts := c.library.contexts.filter fun x => c.context ≠ some x, sockets := c.unclosed }

theorem dispose_eq (destroy : Destroy) (c : Connector) (undelivered : Nat) :
    c.dispose destroy undelivered =
      if ∀ context ∈ c.context,
          destroy.returns { c.library with sockets := c.unclosed } context undelivered = true
      then some c.disposed else none := by
  have hlibrary : ((c.library.closeUsed c.setupSocket).closeUsed c.inboundSocket).closeUsed
      c.outboundSocket = { c.library with sockets := c.unclosed } := by
    refine Library.ext (by simp) (Finset.ext fun socket => ?_)
    simp [Connector.unclosed, and_assoc]
  rw [Connector.dispose, hlibrary, Connector.disposed]
  cases c.context with
  | none => simp
  | some context =>
    simp only [Library.ctxDestroy, Option.mem_some_iff, forall_eq']
    split
    · refine congrArg (fun library => some ({ transportLayer := c.transportLayer, library } :
        Connector)) (Library.ext (Finset.ext fun x => ?_) rfl)
      simp [and_comm, eq_comm]
    · rfl

theorem dispose_eq_some {c c' : Connector} {undelivered : Nat}
    (h : c.dispose destroy undelivered = some c') : c' = c.disposed := by
  rw [dispose_eq] at h
  exact (Option.some.inj (Option.ite_none_right_eq_some.mp h).2).symm

/-- A socket that is in no field keeps its context from being destroyed. -/
theorem dispose_of_unclosed {c : Connector} {context : Nat} (hcontext : c.context = some context)
    (h : context ∈ c.unclosed.image Prod.snd) (undelivered : Nat) :
    c.dispose destroy undelivered = none := by
  rw [dispose_eq, if_neg fun hreturns => ?_]
  have hwaits := destroy.waits { c.library with sockets := c.unclosed } context undelivered h
  rw [hreturns context hcontext] at hwaits
  cases hwaits

theorem mem_unclosed {c : Connector} {socket : Nat × Nat} :
    socket ∈ c.unclosed ↔ socket ∈ c.library.sockets ∧ ∀ f, c.get f ≠ some (.inr socket) := by
  simp only [Connector.unclosed, Finset.mem_filter]
  refine and_congr_right fun _ => ⟨?_, fun h => ?_⟩
  · rintro ⟨hsetup, hinbound, houtbound⟩ f
    cases f <;> simp [Connector.get, hsetup, hinbound, houtbound]
  · refine ⟨fun hs => h .setupSocket ?_, fun hs => h .inboundSocket ?_,
      fun hs => h .outboundSocket ?_⟩ <;> simp [Connector.get, hs]

theorem mem_undestroyed {c : Connector} {context : Nat} :
    (context ∈ c.library.contexts.filter fun x => c.context ≠ some x) ↔
      context ∈ c.library.contexts ∧ ∀ f, c.get f ≠ some (.inl context) := by
  rw [Finset.mem_filter]
  refine and_congr_right fun _ => ⟨fun hne f => ?_, fun h hs => h .context ?_⟩
  · cases f <;> simp [Connector.get, hne]
  · simp [Connector.get, hs]

theorem slots_of_dispose {c c' : Connector} {undelivered : Nat}
    (h : c.dispose destroy undelivered = some c') : c'.slots = c.slots.clear := by
  rw [dispose_eq_some h]
  refine Slots.ext (funext fun f => ?_) (Set.ext fun r => ?_)
  · cases f <;> rfl
  · cases r with
    | inl context => exact mem_undestroyed
    | inr socket => exact mem_unclosed

/-- `dispose` returns and leaves nothing open exactly where everything open is in a field. -/
theorem disposable_iff (destroy : Destroy) (c : Connector) :
    Disposable destroy c ↔ c.slots.Tight := by
  constructor
  · rintro ⟨c', hdispose, hlibrary⟩
    refine Slots.tight_of_live_clear ?_
    rw [← slots_of_dispose hdispose]
    refine Set.eq_empty_of_forall_notMem fun r hr => ?_
    cases r <;> simp [Connector.slots, hlibrary] at hr
  · intro htight
    have hsockets : c.unclosed = ∅ := by
      refine Finset.eq_empty_of_forall_notMem fun socket hmem => ?_
      obtain ⟨hopen, hnone⟩ := mem_unclosed.mp hmem
      obtain ⟨f, hf⟩ := htight (.inr socket) hopen
      exact hnone f hf
    have hcontexts : (c.library.contexts.filter fun x => c.context ≠ some x) = ∅ := by
      refine Finset.eq_empty_of_forall_notMem fun context hmem => ?_
      obtain ⟨hopen, hnone⟩ := mem_undestroyed.mp hmem
      obtain ⟨f, hf⟩ := htight (.inl context) hopen
      exact hnone f hf
    refine ⟨c.disposed, ?_, by rw [Connector.disposed, hsockets, hcontexts]⟩
    rw [dispose_eq, if_pos fun context _ => ?_]
    exact destroy.returns_of_delivered _ context (by simp [hsockets])

end Disposal

/-! ### Runs of the connector -/

theorem sound_start (transportLayer : E3TransportLayer) :
    (({ transportLayer } : Connector).slots).Sound := by
  refine ⟨fun f r h => ?_, fun f _ r h => ?_⟩ <;> cases f <;> cases h

/-- A step keeps the fields tight exactly where it stores in empty fields. -/
theorem sound_step {destroy : Destroy} {c c' : Connector} {call : Call} (h : c.slots.Sound)
    (hstep : step destroy c call = some c') :
    c'.slots.Sound ∧ (c'.slots.Tight ↔ c.slots.Tight ∧ Vacant c call) := by
  by_cases hcall : ∃ undelivered, call = .dispose undelivered
  · obtain ⟨undelivered, rfl⟩ := hcall
    rw [slots_of_dispose hstep, Slots.tight_clear_iff]
    exact ⟨Slots.sound_clear _, (and_iff_left trivial).symm⟩
  · rw [← allVacant_iff]
    exact (edits_of_step hstep (not_exists.mp hcall)).sound h

/-- The attempts of `publisher_loop` to set up the outbound connection: it tries again, with what the
library answers next, until one succeeds. -/
def connectOutbound (c : Connector) : List BindCalls → Option Connector
  | [] => some c
  | calls :: later =>
    (c.setupOutboundConnection calls).bind fun result =>
      if result.2 = .success then some result.1 else connectOutbound result.1 later

def BindCalls.succeed (calls : BindCalls) : Bool := calls.socket.isSome && calls.bind

/-- The attempts that are made, up to the first that succeeds. -/
def tried : List BindCalls → List BindCalls
  | [] => []
  | calls :: later => if calls.succeed then [calls] else calls :: tried later

theorem setupOutboundConnection_some {c c' : Connector} {context : Nat} {calls : BindCalls}
    {code : ErrorCode} (hcontext : c.context = some context)
    (h : c.setupOutboundConnection calls = some (c', code)) :
    c'.context = some context ∧ c'.outboundSocket = calls.socket.map (·, context) ∧
      c'.library.contexts = c.library.contexts ∧ (code = .success ↔ calls.succeed = true) := by
  unfold Connector.setupOutboundConnection Connector.setupConnection at h
  rw [hcontext] at h
  obtain ⟨library, hsocket, heq⟩ := Option.map_eq_some_iff.mp h
  have hcontexts := (Library.socket_cases hsocket).2.1
  dsimp only at heq
  rw [BindCalls.succeed]
  split at heq <;> cases heq <;> simp_all

/-- What the attempts of `publisher_loop` leave in the fields. -/
theorem tight_connectOutbound {c c' : Connector} {attempts : List BindCalls} (hsound : c.slots.Sound)
    {context : Nat} (hcontext : c.context = some context)
    (h : connectOutbound c attempts = some c') :
    c'.slots.Tight ↔ c.slots.Tight ∧ (attempts ≠ [] → c.outboundSocket = none) ∧
      ∀ calls ∈ (tried attempts).dropLast, calls.socket = none := by
  -- The induction is on the attempts; the socket of one is what the next finds in the field.
  induction attempts generalizing c with
  | nil =>
    cases h
    simp [tried]
  | cons calls later ih =>
    obtain ⟨⟨c₁, code⟩, hfirst, hrest⟩ := Option.bind_eq_some_iff.mp h
    obtain ⟨hcontext₁, hsocket, -, hcode⟩ := setupOutboundConnection_some hcontext hfirst
    have hstep : step .lingering c (.setupOutboundConnection calls) = some c₁ := by
      rw [step, hfirst]
      rfl
    obtain ⟨hsound₁, htight₁⟩ := sound_step hsound hstep
    have hvacant : Vacant c (.setupOutboundConnection calls) ↔ c.outboundSocket = none := by
      simp [Vacant, hcontext]
    rw [hvacant] at htight₁
    cases hsucceed : calls.succeed with
    | true =>
      rw [if_pos (hcode.mpr hsucceed)] at hrest
      cases hrest
      simp [htight₁, tried, hsucceed]
    | false =>
      have hcode' : code ≠ .success := fun heq => by simp [hcode.mp heq] at hsucceed
      rw [if_neg hcode'] at hrest
      rw [ih hsound₁ hcontext₁ hrest, htight₁, hsocket, tried, hsucceed]
      cases later with
      | nil => simp [tried]
      | cons next later =>
        have hmore : tried (next :: later) ≠ [] := by
          rw [tried]
          split <;> simp
        simp only [Bool.false_eq_true, if_false, List.dropLast_cons_of_ne_nil hmore,
          List.forall_mem_cons, ne_eq, reduceCtorEq, not_false_iff, forall_const,
          Option.map_eq_none_iff]
        tauto

/-! ### The context of a socket -/

/-- The context of every open socket is open. -/
def Library.Owned (z : Library) : Prop := ∀ socket ∈ z.sockets, socket.2 ∈ z.contexts

namespace Library.Owned

variable {destroy : Destroy} {c : Connector} {z : Library}

theorem ctxNew (h : c.library.Owned) {ret : Option Nat} (hz : c.library.ctxNew ret = some z) :
    z.Owned := by
  obtain ⟨-, hsockets, hcontexts⟩ := Library.ctxNew_cases hz
  intro socket hs
  rw [hsockets] at hs
  exact (hcontexts _).mpr (.inl (h socket hs))

theorem socket (h : c.library.Owned) {context : Nat} (hcontext : context ∈ c.library.contexts)
    {ret : Option Nat} (hz : c.library.socket context ret = some z) : z.Owned := by
  obtain ⟨-, hcontexts, hsockets⟩ := Library.socket_cases hz
  intro s hs
  rw [hcontexts]
  rcases (hsockets s).mp hs with hs | hs
  · exact h s hs
  · obtain ⟨_, -, rfl⟩ := Option.map_eq_some_iff.mp hs
    exact hcontext

theorem closeUsed (h : z.Owned) (socket : Option (Nat × Nat)) : (z.closeUsed socket).Owned := by
  intro s hs
  rw [Library.closeUsed_sockets] at hs
  rw [Library.closeUsed_contexts]
  exact h s (Finset.mem_of_mem_filter s hs)

theorem ctxDestroy (h : c.library.Owned) {context undelivered : Nat}
    (hz : c.library.ctxDestroy destroy context undelivered = some z) : z.Owned := by
  obtain ⟨hreturns, hz⟩ := Option.ite_none_right_eq_some.mp hz
  cases hz
  intro s hs
  refine Finset.mem_erase.mpr ⟨fun heq => ?_, h s hs⟩
  have hwaits := destroy.waits c.library context undelivered (heq ▸ Finset.mem_image_of_mem Prod.snd hs)
  rw [hreturns] at hwaits
  cases hwaits

theorem reset (h : c.library.Owned) (hsound : c.slots.Sound) {calls : BindCalls}
    {result : Connector × Bool} (hreset : c.resetSetupSocket calls = some result) :
    result.1.library.Owned := by
  have hclosed : c.closeSetup.library.Owned := h.closeUsed _
  unfold Connector.resetSetupSocket at hreset
  cases hcontext : c.context with
  | none =>
    simp only [Connector.closeSetup, hcontext] at hreset
    cases hreset
    exact hclosed
  | some context =>
    have hopen : context ∈ c.closeSetup.library.contexts := by
      rw [Connector.closeSetup, Library.closeUsed_contexts]
      exact hsound.live .context (.inl context) (by simp [Connector.slots, Connector.get, hcontext])
    simp only [show c.closeSetup.context = some context from hcontext] at hreset
    obtain ⟨library, hsocket, rfl⟩ := Option.map_eq_some_iff.mp hreset
    have howned := hclosed.socket hopen hsocket
    cases calls.socket with
    | none => exact howned
    | some socket =>
      dsimp only
      split
      · exact howned
      · exact howned.closeUsed (some (socket, context))

theorem setupConnection (h : c.library.Owned) (hsound : c.slots.Sound) {calls : BindCalls}
    {put : Connector → Option (Nat × Nat) → Connector}
    (hput : ∀ c socket, (put c socket).library = c.library) {result : Connector × ErrorCode}
    (hsetup : c.setupConnection put calls = some result) : result.1.library.Owned := by
  unfold Connector.setupConnection at hsetup
  cases hcontext : c.context with
  | none =>
    rw [hcontext] at hsetup
    cases hsetup
    exact h
  | some context =>
    have hopen : context ∈ c.library.contexts :=
      hsound.live .context (.inl context) (by simp [Connector.slots, Connector.get, hcontext])
    rw [hcontext] at hsetup
    obtain ⟨library, hsocket, rfl⟩ := Option.map_eq_some_iff.mp hsetup
    dsimp only
    split <;> rw [hput] <;> exact h.socket hopen hsocket

theorem step {c' : Connector} {call : Call} (h : c.library.Owned) (hsound : c.slots.Sound)
    (hstep : Sockets.step destroy c call = some c') : c'.library.Owned := by
  cases call with
  | setupInitialConnection calls =>
    obtain ⟨⟨c'', code⟩, hresult, hc⟩ := Option.map_eq_some_iff.mp hstep
    obtain rfl : c'' = c' := hc
    obtain ⟨library, hnew, hrest⟩ := Option.bind_eq_some_iff.mp hresult
    have howned := h.ctxNew hnew
    have hcontexts := (Library.ctxNew_cases hnew).2.2
    dsimp only at hrest
    split at hrest
    · cases hrest
      exact howned
    · rename_i context hret
      split at hrest
      · split at hrest
        · obtain ⟨library', hsocket, heq⟩ := Option.map_eq_some_iff.mp hrest
          have hopen : context ∈ library.contexts := (hcontexts context).mpr (.inr hret)
          have hlast := socket (c := { c with library }) howned hopen hsocket
          split at heq <;> cases heq <;> exact hlast
        · cases hrest
          exact howned
      · obtain ⟨library', hdestroy, heq⟩ := Option.map_eq_some_iff.mp hrest
        cases heq
        exact ctxDestroy (c := { c with library }) howned hdestroy
  | recvSetupRequest recv =>
    obtain ⟨result, hresult, rfl⟩ := Option.map_eq_some_iff.mp hstep
    unfold Connector.recvSetupRequest at hresult
    split at hresult
    · cases hresult
      exact h
    · cases hresult
      exact h
    · cases hresult
      exact h
    · obtain ⟨reset, hreset, rfl⟩ := Option.map_eq_some_iff.mp hresult
      exact h.reset hsound hreset
  | sendResponse send =>
    obtain ⟨result, hresult, rfl⟩ := Option.map_eq_some_iff.mp hstep
    unfold Connector.sendResponse at hresult
    split at hresult
    · cases hresult
      exact h
    · cases hresult
      exact h
    · obtain ⟨reset, hreset, rfl⟩ := Option.map_eq_some_iff.mp hresult
      exact h.reset hsound hreset
  | setupInboundConnection calls =>
    obtain ⟨result, hresult, rfl⟩ := Option.map_eq_some_iff.mp hstep
    refine h.setupConnection hsound (fun _ _ => ?_) hresult
    rfl
  | setupOutboundConnection calls =>
    obtain ⟨result, hresult, rfl⟩ := Option.map_eq_some_iff.mp hstep
    refine h.setupConnection hsound (fun _ _ => ?_) hresult
    rfl
  | dispose undelivered =>
    have hdispose : c.dispose destroy undelivered = some c' := hstep
    unfold Connector.dispose at hdispose
    obtain ⟨library, hlibrary, rfl⟩ := Option.map_eq_some_iff.mp hdispose
    have hclosed := ((h.closeUsed c.setupSocket).closeUsed c.inboundSocket).closeUsed c.outboundSocket
    split at hlibrary
    · cases hlibrary
      exact hclosed
    · exact ctxDestroy (c := { c with library := _ }) hclosed hlibrary

end Library.Owned

/-- The attempts leave the context and open no other. -/
theorem connectOutbound_owned {c c' : Connector} {attempts : List BindCalls} (hsound : c.slots.Sound)
    (howned : c.library.Owned) {context : Nat} (hcontext : c.context = some context)
    (h : connectOutbound c attempts = some c') :
    c'.library.Owned ∧ c'.context = some context ∧ c'.library.contexts = c.library.contexts := by
  induction attempts generalizing c with
  | nil =>
    cases h
    exact ⟨howned, hcontext, rfl⟩
  | cons calls later ih =>
    obtain ⟨⟨c₁, code⟩, hfirst, hrest⟩ := Option.bind_eq_some_iff.mp h
    obtain ⟨hcontext₁, -, hcontexts, -⟩ := setupOutboundConnection_some hcontext hfirst
    have hstep : step .lingering c (.setupOutboundConnection calls) = some c₁ := by
      rw [step, hfirst]
      rfl
    have howned₁ := howned.step hsound hstep
    dsimp only at hrest
    split at hrest
    · cases hrest
      exact ⟨howned₁, hcontext₁, hcontexts⟩
    · rw [← hcontexts]
      exact ih (sound_step hsound hstep).1 howned₁ hcontext₁ hrest

/-- From every state of a run in which the context is there and the outbound socket is not, and in which
`dispose` would clean up: after the attempts of `publisher_loop` to set up the outbound connection it
still would if and only if every attempt but the last got no socket.  Otherwise `dispose` does not
return, whether or not all messages are delivered. -/
theorem retries_disposable_iff (destroy : Destroy) (transportLayer : E3TransportLayer)
    (calls : List Call) (c c' : Connector)
    (hrun : execute (step destroy) { transportLayer } calls = some c)
    (hclean : Disposable destroy c) (hcontext : c.context.isSome = true)
    (hempty : c.outboundSocket = none) (attempts : List BindCalls)
    (h : connectOutbound c attempts = some c') :
    (Disposable destroy c' ↔ ∀ attempt ∈ (tried attempts).dropLast, attempt.socket = none) ∧
      (¬Disposable destroy c' → ∀ undelivered, c'.dispose destroy undelivered = none) := by
  obtain ⟨hsound, howned⟩ : c.slots.Sound ∧ c.library.Owned :=
    execute_induction (P := fun c => c.slots.Sound ∧ c.library.Owned)
      ⟨sound_start transportLayer, fun _ hs => absurd hs (Finset.notMem_empty _)⟩
      (fun _ _ _ _ hs hstep => ⟨(sound_step hs.1 hstep).1, hs.2.step hs.1 hstep⟩) hrun
  obtain ⟨context, hcontext⟩ := Option.isSome_iff_exists.mp hcontext
  have htight := (disposable_iff destroy c).mp hclean
  have hiff := tight_connectOutbound hsound hcontext h
  refine ⟨?_, fun hdirty undelivered => ?_⟩
  · rw [disposable_iff, hiff]
    exact ⟨fun hall => hall.2.2, fun hall => ⟨htight, fun _ => hempty, hall⟩⟩
  · obtain ⟨howned', hcontext', hcontexts⟩ := connectOutbound_owned hsound howned hcontext h
    -- The context is the only one that is open, so a socket that is lost keeps it from being destroyed.
    have honly : ∀ x ∈ c'.library.contexts, x = context := by
      intro x hx
      rw [hcontexts] at hx
      obtain ⟨f, hf⟩ := htight (.inl x) hx
      cases f with
      | context => simpa [Connector.slots, Connector.get, hcontext, eq_comm] using hf
      | setupSocket | inboundSocket | outboundSocket =>
        simp [Connector.slots, Connector.get] at hf
    obtain ⟨r, hr, hlost⟩ : ∃ r ∈ c'.slots.live, ∀ f, c'.get f ≠ some r := by
      rw [disposable_iff, Slots.Tight] at hdirty
      push Not at hdirty
      exact hdirty
    cases r with
    | inl x =>
      obtain rfl := honly x hr
      exact absurd (by simp [Connector.get, hcontext']) (hlost .context)
    | inr socket =>
      refine dispose_of_unclosed hcontext' ?_ undelivered
      rw [← honly _ (howned' socket hr)]
      exact Finset.mem_image_of_mem Prod.snd (mem_unclosed.mpr ⟨hr, hlost⟩)

/-- The outbound endpoint is taken at first, and free when `publisher_loop` tries again. -/
def takenEndpoint : List BindCalls := [{ socket := some 12, bind := false }, { socket := some 13 }]

theorem retries_disposable_takenEndpoint :
    ∃ c c', execute (step .lingering) { transportLayer := .tcp }
        [.setupInitialConnection { ctxNew := some 1, socket := some 11 }] = some c ∧
      connectOutbound c takenEndpoint = some c' ∧
      ∀ undelivered, c'.dispose .lingering undelivered = none := by
  obtain ⟨c, hrun⟩ : ∃ c, execute (step .lingering) { transportLayer := .tcp }
      [.setupInitialConnection { ctxNew := some 1, socket := some 11 }] = some c :=
    Option.isSome_iff_exists.mp (by decide)
  have hfacts : (execute (step .lingering) { transportLayer := .tcp }
      [.setupInitialConnection { ctxNew := some 1, socket := some 11 }]).map (fun c =>
        ((c.dispose .lingering 0).map (·.library), c.context.isSome, c.outboundSocket,
          (connectOutbound c takenEndpoint).isSome)) = some (some {}, true, none, true) := by decide
  rw [hrun, Option.map_some] at hfacts
  simp only [Option.some.injEq, Prod.mk.injEq] at hfacts
  obtain ⟨hdispose, hcontext, hempty, hsome⟩ := hfacts
  obtain ⟨c', hc'⟩ := Option.isSome_iff_exists.mp hsome
  obtain ⟨cleaned, hcleaned⟩ := Option.map_eq_some_iff.mp hdispose
  obtain ⟨hiff, hblocked⟩ := retries_disposable_iff .lingering .tcp _ c c' hrun
    ⟨cleaned, hcleaned⟩ hcontext hempty takenEndpoint hc'
  refine ⟨c, c', hrun, hc', hblocked fun hclean => ?_⟩
  exact absurd (hiff.mp hclean _ (List.mem_singleton.mpr rfl)) (by decide)

end Sockets

end Zmq

end LibE3
