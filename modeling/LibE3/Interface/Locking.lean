import LibE3.Lib.Locks

/-! The locks of the library: that of the registry of service models, that of the subscription manager
of each agent, and that of the logger.  `unregister_dapp`, `add_subscription` and the two removals let
go of the lock of the manager before `check_sm_lifecycle` leads to the registry, and the registry calls
the service models under its own.  The logger calls the callback of the application under its lock.  A
call is what it does with the locks. -/

namespace LibE3.Locking

open Locks Transition System

inductive Mutex (κ : Type)
  | registry
  | manager (a : κ)
  | logger
  deriving DecidableEq, Repr

/-- The order in which the locks are taken. -/
def Mutex.rank {κ : Type} : Mutex κ → Nat
  | .registry => 0
  | .manager _ => 1
  | .logger => 2

abbrev Script (κ : Type) := List (Action (Mutex κ))

/-- The functions of `SubscriptionManager` that take its lock. -/
inductive ManagerFunction
  | setSmLifecycleCallback
  | registerDapp
  | unregisterDapp
  | isDappRegistered
  | getRegisteredDapps
  | addSubscription
  | removeSubscription
  | removeSubscriptionById
  | isSubscribed
  | getDappSubscriptions
  | getSubscribedDapps
  | getSubscriberCount
  | getActiveRanFunctions
  | hasSubscribers
  | dappCount
  | subscriptionCount
  | clear
  | destroy
  deriving DecidableEq, Repr

def ManagerFunction.mode : ManagerFunction → Mode
  | .setSmLifecycleCallback | .registerDapp | .unregisterDapp | .addSubscription
  | .removeSubscription | .removeSubscriptionById | .clear | .destroy => .exclusive
  | .isDappRegistered | .getRegisteredDapps | .isSubscribed | .getDappSubscriptions
  | .getSubscribedDapps | .getSubscriberCount | .getActiveRanFunctions | .hasSubscribers | .dappCount
  | .subscriptionCount => .shared

/-- The functions of `SmRegistry`, all under its lock. -/
inductive RegistryFunction
  | registerSm
  | registerSmFactory
  | unregisterSm
  | getByRanFunction
  | getAvailableRanFunctions
  | startSm
  | stopSm
  | isSmRunning
  | clear
  deriving DecidableEq, Repr

/-- Whether the function runs code of the application under the lock: methods of a service model, its
destructor, or a factory. -/
def RegistryFunction.runsMethods : RegistryFunction → Bool
  | .registerSmFactory | .getAvailableRanFunctions => false
  | .registerSm | .unregisterSm | .getByRanFunction | .startSm | .stopSm | .isSmRunning
  | .clear => true

/-- The calls of `check_sm_lifecycle` that follow the locked part. -/
def ManagerFunction.notifies {α : Type} (f : ManagerFunction) (changes : List α) : List α :=
  match f with
  | .unregisterDapp => changes
  | .addSubscription | .removeSubscription | .removeSubscriptionById => changes.take 1
  | _ => []

/-! ### What the calls do with the locks -/

-- The lines of the log are told apart by level, component and text.
variable {κ ι : Type}

/-- A line of the log.  The callback of the logger runs under its lock. -/
def log (callback : ι → Script κ) (line : ι) : Script κ := locked .logger .exclusive (callback line)

/-- The locked part of a function of the manager, with the lines that it logs. -/
def managed (callback : ι → Script κ) (a : κ) (f : ManagerFunction) (lines : List ι) : Script κ :=
  locked (.manager a) f.mode (lines.flatMap (log callback))

/-- `check_sm_lifecycle`, with the line that it logs and what the lifecycle callback does where it finds
a change. -/
def checkSmLifecycle (callback : ι → Script κ) (a : κ) : Option (ι × Script κ) → Script κ
  | none => managed callback a .hasSubscribers []
  | some (line, onChange) => managed callback a .hasSubscribers [] ++ (log callback line ++ onChange)

/-- What the code of the application that runs under a lock may call: the logger, a function of the
manager of an agent, with the lines of the changes that `check_sm_lifecycle` finds, or one of the
registry. -/
inductive AppCall (κ ι : Type)
  | log (line : ι)
  | manager (a : κ) (f : ManagerFunction) (lines : List ι) (changes : List (Option ι))
  | registry
  deriving DecidableEq, Repr

namespace AppCall

/-- The locks that the call takes, up to that of the registry.  What would follow under it is left out:
code that the registry runs never gets there, since its thread has the lock, and the callback of the
logger is judged by the first lock that it takes. -/
def script (callback : ι → Script κ) : AppCall κ ι → Script κ
  | .log line => Locking.log callback line
  | .manager a f lines changes =>
    managed callback a f lines ++ (f.notifies changes).flatMap fun change =>
      checkSmLifecycle callback a (change.map fun line => (line, locked .registry .exclusive []))
  | .registry => locked .registry .exclusive []

end AppCall

/-- What the callback of the logger does at a line.  A line that it logs itself waits for the lock that
its own thread has, so what the callback would do there is left out. -/
def logCallback (callback : ι → List (AppCall κ ι)) (line : ι) : Script κ :=
  (callback line).flatMap (AppCall.script fun _ => [])

/-- What a function of the registry does under the lock: it logs a line or runs a method. -/
inductive Item (κ ι : Type)
  | log (line : ι)
  | method (calls : List (AppCall κ ι))
  deriving DecidableEq, Repr

def Item.script (callback : ι → Script κ) : Item κ ι → Script κ
  | .log line => Locking.log callback line
  | .method calls => calls.flatMap (AppCall.script callback)

/-- A call of a function of the registry. -/
structure RegistryCall (κ ι : Type) where
  function : RegistryFunction
  items : List (Item κ ι)
  deriving DecidableEq, Repr

namespace RegistryCall

/-- What the call does under the lock. -/
def body (c : RegistryCall κ ι) : List (Item κ ι) :=
  if c.function.runsMethods then c.items else c.items.filter fun item => item matches .log _

def script (callback : ι → Script κ) (c : RegistryCall κ ι) : Script κ :=
  locked .registry .exclusive (c.body.flatMap (Item.script callback))

end RegistryCall

/-- A change that `check_sm_lifecycle` finds and logs: the service model is to be started or stopped,
and `on_sm_lifecycle_change` may log that it could not be. -/
structure Change (κ ι : Type) where
  line : ι
  shouldStart : Bool
  items : List (Item κ ι)
  lines : List ι
  deriving DecidableEq, Repr

def Change.call (c : Change κ ι) : RegistryCall κ ι where
  function := if c.shouldStart then .startSm else .stopSm
  items := c.items

def onSmLifecycleChange (callback : ι → Script κ) (c : Change κ ι) : Script κ :=
  c.call.script callback ++ c.lines.flatMap (log callback)

/-- A call that a thread makes with no lock of the library. -/
inductive LibCall (κ ι : Type)
  | log (line : ι)
  | manager (a : κ) (f : ManagerFunction) (lines : List ι) (changes : List (Option (Change κ ι)))
  | registry (call : RegistryCall κ ι)

namespace LibCall

def script (callback : ι → Script κ) : LibCall κ ι → Script κ
  | .log line => Locking.log callback line
  | .manager a f lines changes =>
    managed callback a f lines ++ (f.notifies changes).flatMap fun change =>
      checkSmLifecycle callback a (change.map fun c => (c.line, onSmLifecycleChange callback c))
  | .registry call => call.script callback

end LibCall

/-- The threads of the process before their first call, whoever makes them. -/
def start {τ : Type} (callback : ι → List (AppCall κ ι)) (calls : τ → List (LibCall κ ι)) (t : τ) :
    Thread (Mutex κ) where
  script := (calls t).flatMap (LibCall.script (logCallback callback))

/-! ### The order of the locks -/

section Order

variable [DecidableEq κ] {held : List (Mutex κ × Mode)} {callback : ι → Script κ}

end Order

/-! ### Calls that wait for themselves -/

section Neutral

variable [DecidableEq κ] (held : List (Mutex κ × Mode)) {callback : ι → Script κ}

variable {held}

end Neutral

/-! ### Callbacks that call the library -/

section Callback

variable [DecidableEq κ] {callback : ι → List (AppCall κ ι)} {line : ι}

end Callback

theorem rank_le (l : Mutex κ) : l.rank ≤ 2 := by
  cases l <;> simp [Mutex.rank]

end LibE3.Locking
