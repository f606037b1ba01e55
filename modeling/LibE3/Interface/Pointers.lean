import LibE3.Interface.Registry
import LibE3.Lib.Transition

/-! The pointers that `get_by_ran_function` gives out.  The registry is one for the whole process and
owns the service models.  `handle_setup_request` and `handle_control_action` look a model up under the
lock of the registry and use it without, so between the two another thread may take it out of the
registry, which deletes it.  Any number of agents share the registry here, each with its setup thread and
its subscriber thread. -/

namespace LibE3.Pointers

open Transition System

/-- The threads of an agent that look service models up. -/
inductive Role
  | setup
  | subscriber
  deriving DecidableEq, Repr

inductive Method
  | telemetryIds
  | controlIds
  | ranFunctionData
  | isRunning
  | handleControlAction
  deriving DecidableEq, Repr

/-- What `handle_setup_request` and `handle_control_action` call through a pointer. -/
def Role.methods : Role → List Method
  | .setup => [.telemetryIds, .controlIds, .ranFunctionData]
  | .subscriber => [.isRunning, .handleControlAction]

/-- Where a thread stands: it has not been started or has returned, it is between two messages, it has
the models of RAN functions to look up, or it has a pointer, with the calls that it has not returned
from. -/
inductive Borrower
  | ended
  | waiting
  | looking (ids : List UInt32)
  | holding (object : Nat) (methods : List Method) (ids : List UInt32)
  deriving DecidableEq, Repr

namespace Borrower

def next : List UInt32 → Borrower
  | [] => .waiting
  | id :: ids => .looking (id :: ids)

def held : Borrower → Option Nat
  | .holding object _ _ => some object
  | _ => none

@[simp] theorem held_next (ids : List UInt32) : (next ids).held = none := by
  cases ids <;> rfl

end Borrower

/-- The registry, and with it which object a key of `sms_` owns: objects are numbered in the order in
which they come to the registry. -/
structure Shared (κ : Type) where
  registry : SmRegistry := {}
  objects : UnorderedMap UInt32 Nat := ∅
  made : Nat := 0
  states : κ → AgentState := fun _ => .initialized
  threads : κ → Role → Borrower := fun _ _ => .ended

/-- The calls of an agent, of which `clear` is the end of `stop`, when both threads have been joined; the
messages and the steps of its threads; and the calls on the registry that any thread may make. -/
inductive Event (κ : Type)
  | start (a : κ) (connection : ErrorCode)
  | stop (a : κ)
  | clear (a : κ) (order : Enumeration UInt32)
  | setup (a : κ)
  | control (a : κ) (ranFunctionId : UInt32)
  | lookUp (a : κ) (role : Role) (create : UInt32 → Option ServiceModel)
  | use (a : κ) (role : Role) (running : Bool)
  | finish (a : κ) (role : Role)
  | registerSm (sm : ServiceModel)
  | registerSmFactory (ranFunctionId : UInt32) (callable : Bool)
  | unregisterSm (ranFunctionId : UInt32)
  | startSm (result : ErrorCode) (ranFunctionId : UInt32)
  | stopSm (ranFunctionId : UInt32)

namespace Shared

variable {κ : Type} [DecidableEq κ] (s : Shared κ)

def goto (a : κ) (role : Role) (thread : Borrower) : Shared κ :=
  { s with threads := Function.update s.threads a (Function.update (s.threads a) role thread) }

def setState (a : κ) (state : AgentState) : Shared κ :=
  { s with states := Function.update s.states a state }

/-- The pointer of `get_by_ran_function`: to the object that is there, or to one that a factory has
made. -/
def getByRanFunction (create : UInt32 → Option ServiceModel) (ranFunctionId : UInt32) :
    Shared κ × Option Nat :=
  let found := s.registry.getByRanFunction create ranFunctionId
  match found.2, s.objects.lookup ranFunctionId with
  | none, _ => ({ s with registry := found.1 }, none)
  | some _, some object => ({ s with registry := found.1 }, some object)
  | some _, none =>
    ({ s with
        registry := found.1
        objects := s.objects.insert ranFunctionId s.made
        made := s.made + 1 }, some s.made)

/-- The thread goes on with the pointer, or with the next RAN function where it is null. -/
def lookUp (a : κ) (role : Role) (create : UInt32 → Option ServiceModel) (id : UInt32)
    (ids : List UInt32) : Shared κ :=
  let found := s.getByRanFunction create id
  match found.2 with
  | some object => found.1.goto a role (.holding object role.methods ids)
  | none => found.1.goto a role (.next ids)

def registerSm (sm : ServiceModel) : Shared κ :=
  let result := s.registry.registerSm (some sm)
  { s with
    registry := result.1
    objects := if result.2 = .success then s.objects.insert sm.ranFunctionId s.made else s.objects
    made := s.made + 1 }

/-- After a call through a pointer.  The rest of `handle_control_action` needs a model that runs. -/
def afterUse (object : Nat) (method : Method) (methods : List Method) (ids : List UInt32)
    (running : Bool) : Borrower :=
  if methods = [] ∨ (method = .isRunning ∧ running = false) then .next ids
  else .holding object methods ids

/-- One step.  The calls of `start` and `stop` on one agent come one after the other: a `start` is one
step, and none begins before the `stop` of its agent has ended.  `e3_agent.hpp` calls them thread-safe,
but neither takes a lock, and two of them at once are left out. -/
def step : Event κ → Option (Shared κ)
  | .start a connection =>
    if s.states a ≠ .initialized then none
    else if connection ≠ .success then some (s.setState a .error)
    else some (((s.setState a .running).goto a .setup .waiting).goto a .subscriber .waiting)
  | .stop a =>
    if s.states a = .uninitialized ∨ s.states a = .stopping then none
    else some (s.setState a .stopping)
  | .clear a order =>
    if s.states a = .stopping ∧ s.threads a .setup = .ended ∧ s.threads a .subscriber = .ended then
      some { s.setState a .initialized with registry := s.registry.clear order, objects := ∅ }
    else none
  | .setup a =>
    match s.threads a .setup with
    | .waiting => some (s.goto a .setup (.next s.registry.getAvailableRanFunctions))
    | _ => none
  | .control a ranFunctionId =>
    match s.threads a .subscriber with
    | .waiting => some (s.goto a .subscriber (.looking [ranFunctionId]))
    | _ => none
  | .lookUp a role create =>
    match s.threads a role with
    | .looking (id :: ids) => some (s.lookUp a role create id ids)
    | _ => none
  | .use a role running =>
    match s.threads a role with
    | .holding object (method :: methods) ids =>
      some (s.goto a role (afterUse object method methods ids running))
    | _ => none
  -- A thread returns between two messages: once it sees that the agent stops, or because its connection
  -- could not be set up.
  | .finish a role =>
    match s.threads a role with
    | .waiting => some (s.goto a role .ended)
    | _ => none
  | .registerSm sm => some (s.registerSm sm)
  | .registerSmFactory ranFunctionId callable =>
    some { s with registry := (s.registry.registerSmFactory ranFunctionId callable).1 }
  | .unregisterSm ranFunctionId =>
    some { s with
      registry := (s.registry.unregisterSm ranFunctionId).1
      objects := s.objects.erase ranFunctionId }
  | .startSm result ranFunctionId =>
    some { s with registry := (s.registry.startSm result ranFunctionId).1 }
  | .stopSm ranFunctionId => some { s with registry := (s.registry.stopSm ranFunctionId).1 }

/-- The registry has not deleted the object. -/
def Alive (object : Nat) : Prop := ∃ f, s.objects.lookup f = some object

/-- No thread has a pointer to a deleted object. -/
def Valid : Prop := ∀ a role object, (s.threads a role).held = some object → s.Alive object

/-- The event deletes no object that a thread has a pointer to.  Only the end of a `stop` and
`unregister_sm` delete any. -/
def Harmless : Event κ → Prop
  | .clear a _ => ∀ b role, b ≠ a → (s.threads b role).held = none
  | .unregisterSm f => ∀ a role object, (s.threads a role).held = some object →
      s.objects.lookup f ≠ some object
  | _ => True

end Shared

/-! ### What a step does to the objects -/

section Registry

variable {r : SmRegistry} {f : UInt32}

theorem mem_insert_of_mem {m : UnorderedMap UInt32 ServiceModel} (h : f ∈ m) (g : UInt32)
    (sm : ServiceModel) : f ∈ m.insert g sm :=
  Finmap.mem_insert.mpr (.inr h)

theorem mem_startSm (h : f ∈ r.sms) (result : ErrorCode) (g : UInt32) :
    f ∈ (r.startSm result g).1.sms := by
  unfold SmRegistry.startSm
  split
  · exact h
  · split
    · exact h
    · exact mem_insert_of_mem h g _

theorem mem_stopSm (h : f ∈ r.sms) (g : UInt32) : f ∈ (r.stopSm g).1.sms := by
  unfold SmRegistry.stopSm
  split
  · exact h
  · split
    · exact h
    · exact mem_insert_of_mem h g _

theorem mem_unregisterSm {g : UInt32} (h : f ∈ r.sms) (hne : f ≠ g) :
    f ∈ (r.unregisterSm g).1.sms := by
  unfold SmRegistry.unregisterSm
  split
  · exact Finmap.mem_erase.mpr ⟨hne, h⟩
  · split <;> exact h

theorem mem_getByRanFunction (h : f ∈ r.sms) (create : UInt32 → Option ServiceModel) (g : UInt32) :
    f ∈ (r.getByRanFunction create g).1.sms := by
  obtain hsame | ⟨sm, -, -, hinsert⟩ := r.getByRanFunction_sms create g
  · rw [hsame]
    exact h
  · rw [hinsert]
    exact mem_insert_of_mem h g _

/-- A lookup that finds a model finds it among those of the registry. -/
theorem mem_of_getByRanFunction {create : UInt32 → Option ServiceModel} {sm : ServiceModel}
    (h : (r.getByRanFunction create f).2 = some sm) : f ∈ (r.getByRanFunction create f).1.sms := by
  unfold SmRegistry.getByRanFunction at h ⊢
  split at h
  · rename_i hlookup
    exact Finmap.mem_of_lookup_eq_some hlookup
  · split at h
    · split at h
      · cases h
      · split at h
        · simp_all [Finmap.mem_insert]
        · cases h
    · cases h

end Registry

namespace Shared

variable {κ : Type} [DecidableEq κ] {s s' : Shared κ}

/-- The objects are those of the keys of `sms_`, each of its own key. -/
structure Inv (s : Shared κ) : Prop where
  owned : ∀ f, f ∈ s.objects → f ∈ s.registry.sms
  old : ∀ f object, s.objects.lookup f = some object → object < s.made
  injective : ∀ f g object, s.objects.lookup f = some object → s.objects.lookup g = some object → f = g

omit [DecidableEq κ] in
theorem inv_of_empty (h : s.objects = ∅) : s.Inv := by
  refine ⟨?_, ?_, ?_⟩ <;> rw [h]
  · exact fun f hf => absurd hf Finmap.notMem_empty
  · intro f object hf
    cases hf
  · intro f g object hf
    cases hf

/-- A step that deletes no object.  It leaves the objects as they are or adds one, and who has a pointer
afterwards had it before or has taken it from the registry. -/
inductive Adds (s s' : Shared κ) : Prop
  | rest (hobjects : s'.objects = s.objects) (hmade : s.made ≤ s'.made)
      (hsms : ∀ f, f ∈ s.registry.sms → f ∈ s'.registry.sms)
      (hheld : ∀ a role object, (s'.threads a role).held = some object →
        (s.threads a role).held = some object ∨ s.Alive object)
  | insert (f : UInt32) (hnew : f ∉ s.objects) (hobjects : s'.objects = s.objects.insert f s.made)
      (hmade : s'.made = s.made + 1) (hsms : ∀ g, g = f ∨ g ∈ s.registry.sms → g ∈ s'.registry.sms)
      (hheld : ∀ a role object, (s'.threads a role).held = some object →
        (s.threads a role).held = some object ∨ object = s.made)

theorem held_goto {a : κ} {role : Role} {thread : Borrower} {b : κ} {role' : Role} {object : Nat}
    (h : ((s.goto a role thread).threads b role').held = some object) :
    (s.threads b role').held = some object ∨ b = a ∧ role' = role ∧ thread.held = some object := by
  unfold goto at h
  by_cases hb : b = a
  · subst hb
    simp only [Function.update_self] at h
    by_cases hrole : role' = role
    · subst hrole
      rw [Function.update_self] at h
      exact .inr ⟨rfl, rfl, h⟩
    · rw [Function.update_of_ne hrole] at h
      exact .inl h
  · simp only [Function.update_of_ne hb] at h
    exact .inl h

/-- A thread goes on without a new pointer. -/
theorem adds_goto {a : κ} {role : Role} {thread : Borrower}
    (hheld : ∀ object, thread.held = some object → (s.threads a role).held = some object) :
    Adds s (s.goto a role thread) := by
  refine .rest rfl (Nat.le_refl _) (fun _ hf => hf) fun b role' object h => .inl ?_
  obtain hsame | ⟨rfl, rfl, hnew⟩ := held_goto h
  · exact hsame
  · exact hheld object hnew

theorem adds_lookUp (a : κ) (role : Role) (create : UInt32 → Option ServiceModel) (id : UInt32)
    (ids : List UInt32) : Adds s (s.lookUp a role create id ids) := by
  have hsms : ∀ f, f ∈ s.registry.sms → f ∈ (s.registry.getByRanFunction create id).1.sms :=
    fun f hf => mem_getByRanFunction hf create id
  cases hfound : (s.registry.getByRanFunction create id).2 with
  | none =>
    simp only [lookUp, getByRanFunction, hfound]
    refine .rest rfl (Nat.le_refl _) hsms fun b role' object h => .inl ?_
    simpa using held_goto h
  | some sm =>
    cases hobject : s.objects.lookup id with
    | some object =>
      simp only [lookUp, getByRanFunction, hfound, hobject]
      refine .rest rfl (Nat.le_refl _) hsms fun b role' object' h => ?_
      obtain hsame | ⟨-, -, hnew⟩ := held_goto h
      · exact .inl hsame
      · exact .inr ⟨id, hobject.trans hnew⟩
    | none =>
      simp only [lookUp, getByRanFunction, hfound, hobject]
      refine .insert id (Finmap.lookup_eq_none.mp hobject) rfl rfl ?_ fun b role' object' h => ?_
      · rintro g (rfl | hg)
        · exact mem_of_getByRanFunction hfound
        · exact hsms g hg
      · obtain hsame | ⟨-, -, hnew⟩ := held_goto h
        · exact .inl hsame
        · exact .inr (Option.some.inj hnew).symm

omit [DecidableEq κ] in
theorem adds_registerSm (h : s.Inv) (sm : ServiceModel) : Adds s (s.registerSm sm) := by
  by_cases htaken : sm.ranFunctionId ∈ s.registry.sms
  · refine .rest ?_ (Nat.le_succ _) (fun f hf => ?_) fun _ _ _ hheld => .inl hheld
    · simp [registerSm, SmRegistry.registerSm_of_taken htaken]
    · simpa [registerSm, SmRegistry.registerSm_of_taken htaken] using hf
  by_cases hinit : sm.initResult = .success
  · refine .insert sm.ranFunctionId (fun hf => htaken (h.owned _ hf)) ?_ rfl ?_
      fun _ _ _ hheld => .inl hheld
    · simp [registerSm, SmRegistry.registerSm_of_free htaken hinit]
    · intro g hg
      simpa [registerSm, SmRegistry.registerSm_of_free htaken hinit, Finmap.mem_insert] using hg
  · refine .rest ?_ (Nat.le_succ _) (fun f hf => ?_) fun _ _ _ hheld => .inl hheld
    · simp [registerSm, SmRegistry.registerSm_of_failed htaken hinit, hinit]
    · simpa [registerSm, SmRegistry.registerSm_of_failed htaken hinit] using hf

theorem adds_of_step (h : s.Inv) {e : Event κ} (hclear : ∀ a order, e ≠ .clear a order)
    (hunregister : ∀ f, e ≠ .unregisterSm f) (hstep : s.step e = some s') : Adds s s' := by
  cases e with
  | start a connection =>
    simp only [step] at hstep
    split_ifs at hstep
    · cases hstep
      exact .rest rfl (Nat.le_refl _) (fun _ hf => hf) fun _ _ _ hheld => .inl hheld
    · cases hstep
      refine .rest rfl (Nat.le_refl _) (fun _ hf => hf) fun b role object hheld => .inl ?_
      obtain hheld | ⟨-, -, hnone⟩ := held_goto hheld
      · obtain hheld | ⟨-, -, hnone⟩ := held_goto hheld
        · exact hheld
        · cases hnone
      · cases hnone
  | stop a =>
    simp only [step] at hstep
    split_ifs at hstep
    cases hstep
    exact .rest rfl (Nat.le_refl _) (fun _ hf => hf) fun _ _ _ hheld => .inl hheld
  | clear a order => exact absurd rfl (hclear a order)
  | setup a =>
    simp only [step] at hstep
    split at hstep <;> cases hstep
    exact adds_goto (by simp)
  | control a ranFunctionId | finish a role =>
    simp only [step] at hstep
    split at hstep <;> cases hstep
    exact adds_goto fun object hobject => by cases hobject
  | lookUp a role create =>
    simp only [step] at hstep
    split at hstep <;> cases hstep
    exact adds_lookUp a role create _ _
  | use a role running =>
    simp only [step] at hstep
    split at hstep
    · rename_i object method methods ids hholding
      cases hstep
      refine adds_goto fun object' hobject => ?_
      rw [hholding]
      unfold afterUse at hobject
      split at hobject
      · simp at hobject
      · exact hobject
    · cases hstep
  | registerSm sm =>
    cases hstep
    exact adds_registerSm h sm
  | registerSmFactory ranFunctionId callable =>
    cases hstep
    refine .rest rfl (Nat.le_refl _) (fun f hf => ?_) fun _ _ _ hheld => .inl hheld
    rw [SmRegistry.registerSmFactory_sms]
    exact hf
  | unregisterSm ranFunctionId => exact absurd rfl (hunregister ranFunctionId)
  | startSm result ranFunctionId =>
    cases hstep
    exact .rest rfl (Nat.le_refl _) (fun f hf => mem_startSm hf result ranFunctionId)
      fun _ _ _ hheld => .inl hheld
  | stopSm ranFunctionId =>
    cases hstep
    exact .rest rfl (Nat.le_refl _) (fun f hf => mem_stopSm hf ranFunctionId)
      fun _ _ _ hheld => .inl hheld

omit [DecidableEq κ] in
theorem Inv.adds (h : s.Inv) (hadds : Adds s s') : s'.Inv := by
  cases hadds with
  | rest hobjects hmade hsms hheld =>
    refine ⟨?_, ?_, ?_⟩ <;> rw [hobjects]
    · exact fun f hf => hsms f (h.owned f hf)
    · exact fun f object hf => (h.old f object hf).trans_le hmade
    · exact h.injective
  | insert f hnew hobjects hmade hsms hheld =>
    refine ⟨?_, ?_, ?_⟩ <;> rw [hobjects]
    · intro g hg
      exact hsms g ((Finmap.mem_insert.mp hg).imp_right (h.owned g))
    · intro g object hg
      rw [UnorderedMap.lookup_insert_ite] at hg
      rw [hmade]
      split at hg
      · cases hg
        exact Nat.lt_succ_self _
      · exact (h.old g object hg).trans (Nat.lt_succ_self _)
    · -- The new number is greater than those of the other objects.
      intro g g' object hg hg'
      rw [UnorderedMap.lookup_insert_ite] at hg hg'
      split at hg <;> split at hg'
      · rw [‹g = f›, ‹g' = f›]
      · cases hg
        exact absurd (h.old g' _ hg') (Nat.lt_irrefl _)
      · cases hg'
        exact absurd (h.old g _ hg) (Nat.lt_irrefl _)
      · exact h.injective g g' object hg hg'

omit [DecidableEq κ] in
theorem Adds.valid (hadds : Adds s s') (h : s.Valid) : s'.Valid := by
  intro a role object hobject
  cases hadds with
  | rest hobjects hmade hsms hheld =>
    unfold Alive
    rw [hobjects]
    obtain hbefore | halive := hheld a role object hobject
    · exact h a role object hbefore
    · exact halive
  | insert f hnew hobjects hmade hsms hheld =>
    unfold Alive
    simp only [hobjects, UnorderedMap.lookup_insert_ite]
    obtain hbefore | rfl := hheld a role object hobject
    · obtain ⟨g, hg⟩ := h a role object hbefore
      have hne : g ≠ f := by
        rintro rfl
        exact hnew (Finmap.mem_of_lookup_eq_some hg)
      exact ⟨g, by rw [if_neg hne]; exact hg⟩
    · exact ⟨f, if_pos rfl⟩

/-- The end of `stop`: the threads of the agent have returned, so only those of others can have
pointers. -/
theorem clear_step {a : κ} {order : Enumeration UInt32} (hstep : s.step (.clear a order) = some s') :
    s'.Inv ∧ (s'.Valid ↔ s.Harmless (.clear a order)) := by
  simp only [step] at hstep
  split at hstep
  · rename_i hended
    cases hstep
    refine ⟨inv_of_empty rfl, ?_⟩
    constructor
    · intro hvalid b role hb
      by_contra hsome
      obtain ⟨object, hobject⟩ := Option.ne_none_iff_exists'.mp hsome
      obtain ⟨f, hf⟩ := hvalid b role object hobject
      cases hf
    · intro hharmless b role object hobject
      change (s.threads b role).held = some object at hobject
      by_cases hb : b = a
      · have hown : s.threads b role = .ended := by
          rw [hb]
          cases role
          · exact hended.2.1
          · exact hended.2.2
        rw [hown] at hobject
        cases hobject
      · rw [hharmless b role hb] at hobject
        cases hobject
  · cases hstep

theorem unregisterSm_step (h : s.Inv) {f : UInt32} (hstep : s.step (.unregisterSm f) = some s') :
    s'.Inv ∧ (s.Valid → (s'.Valid ↔ s.Harmless (.unregisterSm f))) := by
  cases hstep
  refine ⟨⟨fun g hg => ?_, fun g object hg => ?_, fun g g' object hg hg' => ?_⟩, ?_⟩
  · obtain ⟨hne, hmem⟩ := Finmap.mem_erase.mp hg
    exact mem_unregisterSm (h.owned g hmem) hne
  · rw [UnorderedMap.lookup_erase_ite] at hg
    split at hg
    · cases hg
    · exact h.old g object hg
  · rw [UnorderedMap.lookup_erase_ite] at hg hg'
    split at hg
    · cases hg
    · split at hg'
      · cases hg'
      · exact h.injective g g' object hg hg'
  intro hvalid
  constructor
  · intro hafter a role object hobject hf
    obtain ⟨g, hg⟩ := hafter a role object hobject
    rw [UnorderedMap.lookup_erase_ite] at hg
    split at hg
    · cases hg
    · exact ‹g ≠ f› (h.injective g f object hg hf)
  · intro hharmless a role object hobject
    obtain ⟨g, hg⟩ := hvalid a role object hobject
    have hne : g ≠ f := by
      rintro rfl
      exact hharmless a role object hobject hg
    refine ⟨g, ?_⟩
    rw [UnorderedMap.lookup_erase_ite, if_neg hne]
    exact hg

theorem valid_step {e : Event κ} (h : s.Inv) (hstep : s.step e = some s') :
    s'.Inv ∧ (s.Valid → (s'.Valid ↔ s.Harmless e)) := by
  by_cases hclear : ∃ a order, e = .clear a order
  · obtain ⟨a, order, rfl⟩ := hclear
    obtain ⟨hinv, hvalid⟩ := clear_step hstep
    exact ⟨hinv, fun _ => hvalid⟩
  by_cases hunregister : ∃ f, e = .unregisterSm f
  · obtain ⟨f, rfl⟩ := hunregister
    exact unregisterSm_step h hstep
  simp only [not_exists] at hclear hunregister
  have hadds := adds_of_step h hclear hunregister hstep
  refine ⟨h.adds hadds, fun hvalid => iff_of_true (hadds.valid hvalid) ?_⟩
  cases e with
  | clear a order => exact absurd rfl (hclear a order)
  | unregisterSm f => exact absurd rfl (hunregister f)
  | _ => trivial

/-- However many agents share the registry and however their threads interleave: in every state of a run
no thread has a pointer to a deleted service model, if and only if no agent ends its `stop` while a thread
of another agent has a pointer, and no model is unregistered to which a thread has one.  The threads of
the agent itself have been joined by then, so with one agent only `unregister_sm` can do harm. -/
theorem pointers_valid_iff (κ : Type) [DecidableEq κ] (trace : List (Event κ)) :
    (∀ before after s, trace = before ++ after →
        execute step ({} : Shared κ) before = some s → s.Valid) ↔
      ∀ before e after s s', trace = before ++ e :: after →
        execute step ({} : Shared κ) before = some s → s.step e = some s' → s.Harmless e := by
  refine execute_always_iff (fun s e s' h hstep => valid_step h hstep) (inv_of_empty rfl) ?_ trace
  intro a role object hobject
  cases hobject

/-- The subscriber thread of one agent has looked a model up when the other agent is stopped. -/
def crossedStop : List (Event Bool) :=
  [.registerSm { ranFunctionId := 1 }, .start false .success, .start true .success, .control false 1,
    .lookUp false .subscriber fun _ => none, .stop true, .finish true .setup,
    .finish true .subscriber, .clear true (.ascending UInt32)]

example : (execute step ({} : Shared Bool) crossedStop).map
    (fun s => ((s.threads false .subscriber).held, s.objects.lookup 1)) = some (some 0, none) := by
  decide

end Shared

end LibE3.Pointers
