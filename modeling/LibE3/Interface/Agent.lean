import LibE3.Interface.Lifecycle

/-! `E3Agent` with the handlers that the application sets, from `e3_agent.cpp`.  Each handler is
stored twice, in the agent and in its interface, and the interface is the one that invokes it.  The
agent passes a handler on only if it holds a function.  So the copies agree until an empty handler is
set on an initialised agent in place of one that is not: the interface then keeps the old one. -/

namespace LibE3

open Transition

/-! ### The agent -/

/-- The handlers that an object stores, each a `std::function` that may be empty. -/
structure AppHandlers (ρ σ : Type) where
  dappReportHandler : Option ρ := none
  dappStatusChangedHandler : Option σ := none
  deriving DecidableEq, Repr

/-- What is stored after the agent has passed `handler` on: an empty one is not passed. -/
def passOn {τ : Type} (handler stored : Option τ) : Option τ :=
  if handler.isSome then handler else stored

/-- `E3Agent::Impl`: the configured link layer, the handlers of the agent, and the interface with
those of its own. -/
structure E3Agent (ρ σ : Type) where
  linkLayer : E3LinkLayer
  handlers : AppHandlers ρ σ := {}
  interface : Option (E3Interface × AppHandlers ρ σ) := none

namespace E3Agent

variable {ρ σ : Type} (a : E3Agent ρ σ)

/-- `encoder` says whether the build has the encoder of the configured format. -/
def init (encoder : Bool) : E3Agent ρ σ × ErrorCode :=
  match a.interface with
  | some _ => (a, .alreadyInitialized)
  | none =>
    let (interface, result) := E3Interface.init { linkLayer := a.linkLayer } encoder
    if result ≠ .success then (a, result)
    else
      let copies : AppHandlers ρ σ :=
        { dappReportHandler := passOn a.handlers.dappReportHandler none
          dappStatusChangedHandler := passOn a.handlers.dappStatusChangedHandler none }
      ({ a with interface := some (interface, copies) }, .success)

/-- `connection` is what `setup_initial_connection` returns. -/
def start (encoder : Bool) (connection : ErrorCode) : E3Agent ρ σ × ErrorCode :=
  let (initialized, initResult) :=
    match a.interface with
    | some _ => (a, ErrorCode.success)
    | none => a.init encoder
  match initialized.interface with
  -- There is no interface exactly if the `init` has failed.
  | none => (initialized, initResult)
  | some (interface, copies) =>
    let (interface, result) := interface.start connection
    ({ initialized with interface := some (interface, copies) }, result)

def stop (order : Enumeration UInt32) : E3Agent ρ σ :=
  { a with interface := a.interface.map fun x => (x.1.stop order, x.2) }

def setDappReportHandler (handler : Option ρ) : E3Agent ρ σ :=
  { a with
    handlers := { a.handlers with dappReportHandler := handler }
    interface := a.interface.map fun x =>
      (x.1, { x.2 with dappReportHandler := passOn handler x.2.dappReportHandler }) }

def setDappStatusChangedHandler (handler : Option σ) : E3Agent ρ σ :=
  { a with
    handlers := { a.handlers with dappStatusChangedHandler := handler }
    interface := a.interface.map fun x =>
      (x.1, { x.2 with
        dappStatusChangedHandler := passOn handler x.2.dappStatusChangedHandler }) }

end E3Agent

/-- The calls of the application; the C API sets an empty handler for `NULL`. -/
inductive AgentCall (ρ σ : Type)
  | setDappReportHandler (handler : Option ρ)
  | setDappStatusChangedHandler (handler : Option σ)
  | init (encoder : Bool)
  | start (encoder : Bool) (connection : ErrorCode)
  | stop (order : Enumeration UInt32)

namespace E3Agent

variable {ρ σ : Type}

/-- A call of the application, with the error code of those that return one. -/
def perform (a : E3Agent ρ σ) : AgentCall ρ σ → E3Agent ρ σ × Option ErrorCode
  | .setDappReportHandler handler => (a.setDappReportHandler handler, none)
  | .setDappStatusChangedHandler handler => (a.setDappStatusChangedHandler handler, none)
  | .init encoder => (a.init encoder).map id some
  | .start encoder connection => (a.start encoder connection).map id some
  | .stop order => (a.stop order, none)

/-- The agent after a run of calls from its construction. -/
def after (linkLayer : E3LinkLayer) (calls : List (AgentCall ρ σ)) : E3Agent ρ σ :=
  final perform { linkLayer } calls

/-! ### The two copies -/

/-- The handlers that the interface stores, once there is one. -/
def copies (a : E3Agent ρ σ) : Option (AppHandlers ρ σ) := a.interface.map Prod.snd

/-- What a call sets in the agent. -/
def handlersAfter (handlers : AppHandlers ρ σ) : AgentCall ρ σ → AppHandlers ρ σ
  | .setDappReportHandler handler => { handlers with dappReportHandler := handler }
  | .setDappStatusChangedHandler handler => { handlers with dappStatusChangedHandler := handler }
  | _ => handlers

/-- What a call sets in an interface that is there. -/
def copiesAfter (copies : AppHandlers ρ σ) : AgentCall ρ σ → AppHandlers ρ σ
  | .setDappReportHandler handler =>
    { copies with dappReportHandler := passOn handler copies.dappReportHandler }
  | .setDappStatusChangedHandler handler =>
    { copies with dappStatusChangedHandler := passOn handler copies.dappStatusChangedHandler }
  | _ => copies

section Steps

variable {a : E3Agent ρ σ}

/-- An agent that initialises its interface gives it its handlers. -/
theorem init_of_none (h : a.interface = none) (encoder : Bool) :
    (a.init encoder).1 = a ∨
      ∃ x, (a.init encoder).1 = { a with interface := some (x, a.handlers) } := by
  have hpass : ∀ {τ : Type} (handler : Option τ), passOn handler none = handler := fun handler => by
    cases handler <;> rfl
  simp only [init, h, hpass]
  split
  · exact Or.inl rfl
  · exact Or.inr ⟨_, rfl⟩

theorem init_of_some {x : E3Interface × AppHandlers ρ σ} (h : a.interface = some x)
    (encoder : Bool) : (a.init encoder).1 = a := by
  simp only [init, h]

/-- A start leaves the handlers as the `init` leaves them that it begins with. -/
theorem start_copies (encoder : Bool) (connection : ErrorCode) :
    (a.start encoder connection).1.handlers = (a.init encoder).1.handlers ∧
    (a.start encoder connection).1.copies = (a.init encoder).1.copies := by
  cases h : a.interface with
  | some x =>
    rw [init_of_some h]
    constructor <;> simp [start, h, copies]
  | none =>
    simp only [start, h]
    split
    · exact ⟨rfl, rfl⟩
    · rename_i x copies hinit
      refine ⟨rfl, ?_⟩
      rw [E3Agent.copies, E3Agent.copies, hinit]
      rfl

theorem init_handlers (encoder : Bool) : (a.init encoder).1.handlers = a.handlers := by
  cases h : a.interface with
  | some x => rw [init_of_some h]
  | none => rcases init_of_none h encoder with hsame | ⟨x, hmade⟩ <;> simp [*]

theorem init_copies (encoder : Bool) :
    (a.init encoder).1.copies = a.copies ∨
      a.copies = none ∧ (a.init encoder).1.copies = some a.handlers := by
  cases h : a.interface with
  | some x => exact Or.inl (by rw [init_of_some h])
  | none =>
    rcases init_of_none h encoder with hsame | ⟨x, hmade⟩
    · exact Or.inl (by rw [hsame])
    · refine Or.inr ⟨by rw [copies, h]; rfl, ?_⟩
      rw [hmade]
      rfl

theorem perform_handlers (call : AgentCall ρ σ) :
    (a.perform call).1.handlers = handlersAfter a.handlers call := by
  cases call with
  | init encoder => exact init_handlers encoder
  | start encoder connection => exact (start_copies encoder connection).1.trans (init_handlers encoder)
  | _ => rfl

/-- A call edits the copies of an interface that is there, or makes an interface with the handlers of
the agent, which it then leaves as they are. -/
theorem perform_copies (call : AgentCall ρ σ) :
    (a.perform call).1.copies = a.copies.map (copiesAfter · call) ∨
      a.copies = none ∧ (a.perform call).1.copies = some (handlersAfter a.handlers call) := by
  have hkeep : a.copies.map (fun x => x) = a.copies := Option.map_id'
  cases call with
  | setDappReportHandler handler =>
    left
    simp only [perform, setDappReportHandler, copies, Option.map_map]
    rfl
  | setDappStatusChangedHandler handler =>
    left
    simp only [perform, setDappStatusChangedHandler, copies, Option.map_map]
    rfl
  | init encoder =>
    simp only [copiesAfter, hkeep, handlersAfter]
    exact init_copies encoder
  | start encoder connection =>
    simp only [copiesAfter, hkeep, handlersAfter]
    rw [show (a.perform (.start encoder connection)).1.copies = _ from
      (start_copies encoder connection).2]
    exact init_copies encoder
  | stop order =>
    left
    simp only [copiesAfter, hkeep]
    simp only [perform, stop, copies, Option.map_map]
    rfl

end Steps

/-! ### Which runs keep the copies in agreement -/

/-- The handlers of the interface are those of the agent. -/
def Agrees (a : E3Agent ρ σ) : Prop := ∀ copies, a.copies = some copies → copies = a.handlers

/-- The call sets an empty handler on an initialised agent that has one of the kind. -/
def ClearsLate (a : E3Agent ρ σ) : AgentCall ρ σ → Prop
  | .setDappReportHandler handler =>
    handler = none ∧ a.interface.isSome = true ∧ a.handlers.dappReportHandler.isSome = true
  | .setDappStatusChangedHandler handler =>
    handler = none ∧ a.interface.isSome = true ∧ a.handlers.dappStatusChangedHandler.isSome = true
  | _ => False

/-- A handler that is passed on arrives, unless it is empty and the stored one is not. -/
theorem passOn_eq_iff {τ : Type} (handler stored : Option τ) :
    passOn handler stored = handler ↔ ¬(handler = none ∧ stored.isSome = true) := by
  cases handler with
  | none => cases stored <;> simp [passOn]
  | some f => simp [passOn]

section Agreement

variable {a : E3Agent ρ σ}

theorem copiesAfter_eq_iff (h : a.interface.isSome = true) (call : AgentCall ρ σ) :
    copiesAfter a.handlers call = handlersAfter a.handlers call ↔ ¬a.ClearsLate call := by
  cases call with
  | setDappReportHandler handler =>
    have hpass := passOn_eq_iff handler a.handlers.dappReportHandler
    simp [copiesAfter, handlersAfter, ClearsLate, h, hpass]
  | setDappStatusChangedHandler handler =>
    have hpass := passOn_eq_iff handler a.handlers.dappStatusChangedHandler
    simp [copiesAfter, handlersAfter, ClearsLate, h, hpass]
  | _ => simp [copiesAfter, handlersAfter, ClearsLate]

/-- A call keeps the copies in agreement exactly if it does not clear late. -/
theorem Agrees.perform_iff (h : a.Agrees) (call : AgentCall ρ σ) :
    (a.perform call).1.Agrees ↔ ¬a.ClearsLate call := by
  unfold Agrees
  rw [perform_handlers]
  cases hcopies : a.copies with
  | some copies =>
    have hsome : a.interface.isSome = true := by
      rw [← Option.isSome_map (f := Prod.snd)]
      exact Option.isSome_iff_exists.mpr ⟨copies, hcopies⟩
    obtain rfl := h copies hcopies
    rw [← copiesAfter_eq_iff hsome]
    rcases perform_copies (a := a) call with hedit | ⟨hnone, -⟩
    · rw [hedit, hcopies]
      simp
    · rw [hcopies] at hnone
      cases hnone
  | none =>
    have hnone : a.interface = none := Option.map_eq_none_iff.mp hcopies
    refine iff_of_true (fun copies hmade => ?_) fun hlate => ?_
    · rcases perform_copies (a := a) call with hedit | ⟨-, hmake⟩
      · rw [hedit, hcopies] at hmade
        cases hmade
      · rw [hmake] at hmade
        exact (Option.some.inj hmade).symm
    · cases call <;> simp [ClearsLate, hnone] at hlate

end Agreement

/-! ### The handlers in force -/

/-- The function that the interface invokes on a report: `handle_dapp_report` tests its own copy. -/
def invokedOnReport (a : E3Agent ρ σ) : Option ρ :=
  a.interface.bind fun x => x.2.dappReportHandler

/-- The function that `notify_dapp_status_changed` invokes. -/
def invokedOnStatusChange (a : E3Agent ρ σ) : Option σ :=
  a.interface.bind fun x => x.2.dappStatusChangedHandler

/-- The handlers that a run has set most recently, empty ones included. -/
def lastSet (calls : List (AgentCall ρ σ)) : AppHandlers ρ σ := calls.foldl handlersAfter {}

/-- Once there is an interface, it would invoke exactly the handlers that were set last. -/
def InForce (linkLayer : E3LinkLayer) (calls : List (AgentCall ρ σ)) : Prop :=
  (after linkLayer calls).interface.isSome = true →
    (after linkLayer calls).invokedOnReport = (lastSet calls).dappReportHandler ∧
    (after linkLayer calls).invokedOnStatusChange = (lastSet calls).dappStatusChangedHandler

theorem after_concat (linkLayer : E3LinkLayer) (calls : List (AgentCall ρ σ))
    (call : AgentCall ρ σ) :
    after linkLayer (calls ++ [call]) = ((after linkLayer calls).perform call).1 :=
  final_concat _ _ _ _

/-- The agent itself always has the handlers that were set last. -/
theorem handlers_after (linkLayer : E3LinkLayer) (calls : List (AgentCall ρ σ)) :
    (after linkLayer calls).handlers = lastSet calls := by
  induction calls using List.reverseRecOn with
  | nil => rfl
  | append_singleton calls call ih =>
    rw [after_concat, perform_handlers, ih]
    simp [lastSet]

theorem inForce_iff_agrees (linkLayer : E3LinkLayer) (calls : List (AgentCall ρ σ)) :
    InForce linkLayer calls ↔ (after linkLayer calls).Agrees := by
  unfold InForce Agrees copies invokedOnReport invokedOnStatusChange
  rw [handlers_after]
  cases (after linkLayer calls).interface with
  | none => simp
  | some x =>
    obtain ⟨x, ⟨report, status⟩⟩ := x
    obtain ⟨last, last'⟩ := lastSet calls
    simp

/-- In every state of a run the interface would invoke exactly the handlers that were set last, if and
only if no call of the run sets an empty handler on an initialised agent in place of one that is
not. -/
theorem handlers_in_force_iff (linkLayer : E3LinkLayer) (calls : List (AgentCall ρ σ)) :
    (∀ before, before <+: calls → InForce linkLayer before) ↔
      ∀ before call rest, calls = before ++ call :: rest →
        ¬(after linkLayer before).ClearsLate call := by
  simp only [inForce_iff_agrees]
  refine always_iff (P := Agrees) (fun a call h => h.perform_iff call) ?_ calls
  intro copies hcopies
  cases hcopies

/-- A handler that is cleared after the `init` is still invoked. -/
theorem cleared_handler_in_force :
    let calls : List (AgentCall Unit Unit) :=
      [.init true, .setDappReportHandler (some ()), .setDappReportHandler none]
    (after .zmq calls).invokedOnReport = some () ∧ (lastSet calls).dappReportHandler = none ∧
      ¬InForce .zmq calls := by
  intro calls
  have hinvoked : (after .zmq calls).invokedOnReport = some () := rfl
  refine ⟨hinvoked, rfl, fun h => ?_⟩
  rw [(h rfl).1] at hinvoked
  cases hinvoked

end E3Agent

end LibE3
