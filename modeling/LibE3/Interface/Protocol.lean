import LibE3.Interface.Registry
import LibE3.Lib.Transition

/-! The order in which the registry drives the service models.  A model is initialised once, started
and stopped by turns, and destroyed once while it does not run.  `SmPhase` is this protocol as a
partial automaton, and every object that the registry was given or made, whether it still holds it or
has deleted it, has received calls that the automaton runs through.  The one object that receives no
call at all is one that `register_sm` refuses. -/

namespace LibE3

open Transition

/-! ### The protocol -/

/-- Where the life of a service model stands. -/
inductive SmPhase
  | created
  | failed
  | stopped
  | running
  | destroyed
  deriving DecidableEq, Repr

/-- The phase that a call leads to, where the protocol allows the call. -/
def SmPhase.next : SmPhase → SmCall → Option SmPhase
  | .created, .init result => some (if result = .success then .stopped else .failed)
  | .stopped, .start result => some (if result = .success then .running else .stopped)
  | .running, .stop => some .stopped
  | .stopped, .destroy => some .destroyed
  | _, _ => none

/-- The phase after some calls, if the protocol allows them. -/
def SmPhase.after (calls : List SmCall) : Option SmPhase :=
  System.execute SmPhase.next .created calls

/-- A model that has received `calls` runs. -/
def runsAfter (calls : List SmCall) : Bool := calls.foldl ServiceModel.runningAfter false

/-- What the protocol says of the calls that one model receives: `init` comes first and once, `start`
after a successful `init` and while the model does not run, `stop` while it runs, and `destroy` once,
after a successful `init`, while it does not run, and last. -/
structure InOrder (calls : List SmCall) : Prop where
  init : ∃ result later, calls = .init result :: later ∧ ∀ r, .init r ∉ later
  start : ∀ earlier result later, calls = earlier ++ .start result :: later →
    .init .success ∈ earlier ∧ runsAfter earlier = false
  stop : ∀ earlier later, calls = earlier ++ .stop :: later → runsAfter earlier = true
  destroy : ∀ earlier later, calls = earlier ++ .destroy :: later →
    .init .success ∈ earlier ∧ .destroy ∉ earlier ∧ runsAfter earlier = false ∧ later = []

namespace SmPhase

theorem after_concat (calls : List SmCall) (call : SmCall) :
    after (calls ++ [call]) = (after calls).bind fun p => p.next call :=
  System.execute_concat _ _ _ _

/-- What a phase says of the calls that lead to it. -/
structure Describes (p : SmPhase) (calls : List SmCall) : Prop where
  created : p = .created ↔ calls = []
  runs : runsAfter calls = decide (p = .running)
  ready : .init .success ∈ calls ↔ p ≠ .created ∧ p ≠ .failed
  destroyed : .destroy ∈ calls → p = .destroyed

theorem runsAfter_concat (calls : List SmCall) (call : SmCall) :
    runsAfter (calls ++ [call]) = ServiceModel.runningAfter (runsAfter calls) call := by
  simp [runsAfter]

/-- A model that is not destroyed is not destroyed by another call than `destroy`. -/
theorem Describes.destroy_notMem {p : SmPhase} {calls : List SmCall} (h : p.Describes calls)
    (hp : p ≠ .destroyed) {call : SmCall} (hcall : call ≠ .destroy) :
    .destroy ∉ calls ++ [call] := by
  intro hmem
  rcases List.mem_append.mp hmem with hmem | hmem
  · exact hp (h.destroyed hmem)
  · exact hcall (List.mem_singleton.mp hmem).symm

theorem Describes.next {p p' : SmPhase} {calls : List SmCall} (h : p.Describes calls)
    {call : SmCall} (hnext : p.next call = some p') : p'.Describes (calls ++ [call]) := by
  have hruns := h.runs
  have hready := h.ready
  have hcall := runsAfter_concat calls call
  cases p <;> cases call <;> simp only [SmPhase.next, Option.some.injEq, reduceCtorEq] at hnext
  case created.init result =>
    obtain rfl := h.created.mp rfl
    subst hnext
    by_cases hresult : result = .success
    · subst hresult
      refine ⟨by simp, rfl, by simp, by simp⟩
    · refine ⟨by simp [hresult], ?_, ?_, by simp⟩
      · cases result <;> simp_all [runsAfter, ServiceModel.runningAfter]
      · simp [hresult, Ne.symm hresult]
  case stopped.start result =>
    subst hnext
    have hnone : SmCall.destroy ∉ calls ++ [.start result] :=
      h.destroy_notMem (by decide) (by simp)
    by_cases hresult : result = .success
    · subst hresult
      refine ⟨by simp, ?_, ?_, fun hmem => absurd hmem hnone⟩
      · rw [hcall]
        rfl
      · simp [hready]
    · refine ⟨by simp [hresult], ?_, ?_, fun hmem => absurd hmem hnone⟩
      · rw [hcall, hruns]
        cases result <;> simp_all [ServiceModel.runningAfter]
      · simp [hready, hresult]
  case running.stop =>
    subst hnext
    refine ⟨by simp, ?_, ?_, fun hmem => absurd hmem (h.destroy_notMem (by decide) (by decide))⟩
    · rw [hcall]
      rfl
    · simp [hready]
  case stopped.destroy =>
    subst hnext
    refine ⟨by simp, ?_, by simp [hready], fun _ => rfl⟩
    rw [hcall, hruns]
    rfl

/-- A phase describes the calls that lead to it. -/
theorem describes_of_after {calls : List SmCall} {p : SmPhase} (h : after calls = some p) :
    p.Describes calls := by
  induction calls using List.reverseRecOn generalizing p with
  | nil =>
    obtain rfl : SmPhase.created = p := Option.some.inj h
    exact ⟨by simp, rfl, by simp, by simp⟩
  | append_singleton calls call ih =>
    rw [after_concat] at h
    obtain ⟨q, hq, hnext⟩ := Option.bind_eq_some_iff.mp h
    exact (ih hq).next hnext

/-- A call within a sequence that the protocol allows is allowed after those before it. -/
theorem after_split {earlier later : List SmCall} {call : SmCall} {p : SmPhase}
    (h : after (earlier ++ call :: later) = some p) :
    ∃ q q', after earlier = some q ∧ q.next call = some q' ∧
      System.execute SmPhase.next q' later = some p := by
  unfold after at h
  rw [System.execute_append] at h
  obtain ⟨q, hq, hrest⟩ := Option.bind_eq_some_iff.mp h
  obtain ⟨q', hnext, hlater⟩ := Option.bind_eq_some_iff.mp hrest
  exact ⟨q, q', hq, hnext, hlater⟩

theorem execute_destroyed {calls : List SmCall} {p : SmPhase}
    (h : System.execute SmPhase.next .destroyed calls = some p) : calls = [] := by
  cases calls with
  | nil => rfl
  | cons call calls => cases call <;> cases h

/-- The calls that lead to some phase are in order, once there are any. -/
theorem inOrder_of_after {calls : List SmCall} {p : SmPhase} (h : after calls = some p)
    (hne : calls ≠ []) : InOrder calls := by
  have hinit : ∀ earlier result later, calls = earlier ++ .init result :: later → earlier = [] := by
    rintro earlier result later rfl
    obtain ⟨q, q', hq, hnext, -⟩ := after_split h
    refine (describes_of_after hq).created.mp ?_
    cases q <;> first | rfl | cases hnext
  refine ⟨?_, ?_, ?_, ?_⟩
  · obtain ⟨call, later, rfl⟩ := List.exists_cons_of_ne_nil hne
    obtain ⟨q, q', hq, hnext, -⟩ := after_split (show after ([] ++ call :: later) = some p from h)
    obtain rfl : SmPhase.created = q := Option.some.inj hq
    cases call with
    | init result =>
      refine ⟨result, later, rfl, fun r hmem => ?_⟩
      obtain ⟨a, b, rfl⟩ := List.append_of_mem hmem
      exact List.cons_ne_nil _ _ (hinit (.init result :: a) r b rfl)
    | _ => cases hnext
  · rintro earlier result later rfl
    obtain ⟨q, q', hq, hnext, -⟩ := after_split h
    have hq' := describes_of_after hq
    obtain rfl : q = .stopped := by cases q <;> first | rfl | cases hnext
    exact ⟨hq'.ready.mpr ⟨by decide, by decide⟩, hq'.runs⟩
  · rintro earlier later rfl
    obtain ⟨q, q', hq, hnext, -⟩ := after_split h
    obtain rfl : q = .running := by cases q <;> first | rfl | cases hnext
    exact (describes_of_after hq).runs
  · rintro earlier later rfl
    obtain ⟨q, q', hq, hnext, hlater⟩ := after_split h
    have hq' := describes_of_after hq
    obtain rfl : q = .stopped := by cases q <;> first | rfl | cases hnext
    obtain rfl : SmPhase.destroyed = q' := Option.some.inj hnext
    refine ⟨hq'.ready.mpr ⟨by decide, by decide⟩, fun hmem => ?_, hq'.runs, execute_destroyed hlater⟩
    cases hq'.destroyed hmem

theorem next_eq_destroyed {q : SmPhase} {call : SmCall} (h : q.next call = some .destroyed) :
    q = .stopped ∧ call = .destroy := by
  cases q <;> cases call <;> simp only [SmPhase.next, Option.some.injEq, reduceCtorEq] at h
  case stopped.destroy => exact ⟨rfl, rfl⟩
  all_goals split at h <;> cases h

/-- A model that has come to its end was destroyed once. -/
theorem count_destroy {calls : List SmCall} (h : after calls = some .destroyed) :
    calls.count .destroy = 1 := by
  induction calls using List.reverseRecOn with
  | nil => cases h
  | append_singleton calls call _ =>
    rw [after_concat] at h
    obtain ⟨q, hq, hnext⟩ := Option.bind_eq_some_iff.mp h
    obtain ⟨rfl, rfl⟩ := next_eq_destroyed hnext
    have hnone : SmCall.destroy ∉ calls := fun hmem => by
      cases (describes_of_after hq).destroyed hmem
    simp [List.count_eq_zero_of_not_mem hnone]

end SmPhase

/-! ### The calls of the registry -/

namespace ServiceModel

variable (sm : ServiceModel)

def phase : Option SmPhase := SmPhase.after sm.received

/-- The model after some more calls. -/
def receiveAll (calls : List SmCall) : ServiceModel :=
  { sm with received := sm.received ++ calls }

theorem phase_receive (call : SmCall) :
    (sm.receive call).phase = sm.phase.bind fun p => p.next call :=
  SmPhase.after_concat _ _

theorem receiveAll_receiveAll (calls calls' : List SmCall) :
    (sm.receiveAll calls).receiveAll calls' = sm.receiveAll (calls ++ calls') := by
  simp [receiveAll]

/-- The model is initialised and not destroyed. -/
def Ready : Prop := sm.phase = some .stopped ∨ sm.phase = some .running

variable {sm}

theorem Ready.of_running (h : sm.Ready) (hrunning : sm.isRunning = true) :
    sm.phase = some .running := by
  rcases h with hphase | hphase
  · have hstopped := (SmPhase.describes_of_after hphase).runs
    rw [show runsAfter sm.received = true from hrunning] at hstopped
    cases hstopped
  · exact hphase

theorem Ready.of_not_running (h : sm.Ready) (hrunning : sm.isRunning = false) :
    sm.phase = some .stopped := by
  rcases h with hphase | hphase
  · exact hphase
  · have hrunning' := (SmPhase.describes_of_after hphase).runs
    rw [show runsAfter sm.received = false from hrunning] at hrunning'
    cases hrunning'

theorem Ready.start (h : sm.Ready) (hrunning : sm.isRunning = false) (result : ErrorCode) :
    (sm.receive (.start result)).Ready := by
  unfold Ready
  rw [phase_receive, h.of_not_running hrunning]
  by_cases hresult : result = .success <;> simp [SmPhase.next, hresult]

theorem Ready.stop (h : sm.Ready) (hrunning : sm.isRunning = true) : (sm.receive .stop).Ready := by
  left
  rw [phase_receive, h.of_running hrunning]
  rfl

/-- A model that is let go of is destroyed after it was stopped. -/
theorem Ready.dismiss (h : sm.Ready) : sm.halt.destroy.phase = some .destroyed := by
  unfold halt destroy
  cases hrunning : sm.isRunning with
  | true =>
    rw [if_pos rfl, phase_receive, phase_receive, h.of_running hrunning]
    rfl
  | false =>
    rw [if_neg Bool.false_ne_true, phase_receive, h.of_not_running hrunning]
    rfl

theorem phase_init (h : sm.received = []) :
    sm.init.phase = some (if sm.initResult = .success then .stopped else .failed) := by
  rw [init, phase_receive, phase, h]
  rfl

theorem exists_halt_destroy (sm : ServiceModel) : ∃ calls, sm.halt.destroy = sm.receiveAll calls := by
  unfold halt destroy
  split
  · exact ⟨[.stop, .destroy], by simp [receive, receiveAll]⟩
  · exact ⟨[.destroy], rfl⟩

end ServiceModel

/-- A service model that has received no call. -/
abbrev NewModel := { sm : ServiceModel // sm.received = [] }

/-- The mutating calls of the registry, with what the application decides: the models it hands over,
what its factories make, and what the `start` of a model returns. -/
inductive SmOperation
  | registerSm (sm : Option NewModel)
  | registerSmFactory (ranFunctionId : UInt32) (callable : Bool)
  | unregisterSm (ranFunctionId : UInt32)
  | getByRanFunction (create : UInt32 → Option NewModel) (ranFunctionId : UInt32)
  | startSm (result : ErrorCode) (ranFunctionId : UInt32)
  | stopSm (ranFunctionId : UInt32)
  | clear (order : Enumeration UInt32)

namespace SmRegistry

/-- A call of the registry, with the error code of those that return one. -/
def perform (r : SmRegistry) : SmOperation → SmRegistry × Option ErrorCode
  | .registerSm sm => (r.registerSm (sm.map Subtype.val)).map id some
  | .registerSmFactory ranFunctionId callable =>
    (r.registerSmFactory ranFunctionId callable).map id some
  | .unregisterSm ranFunctionId => (r.unregisterSm ranFunctionId).map id some
  | .getByRanFunction create ranFunctionId =>
    ((r.getByRanFunction (fun id => (create id).map Subtype.val) ranFunctionId).1, none)
  | .startSm result ranFunctionId => (r.startSm result ranFunctionId).map id some
  | .stopSm ranFunctionId => (r.stopSm ranFunctionId).map id some
  | .clear order => (r.clear order, none)

/-- The registry after a run of calls. -/
def after (ops : List SmOperation) : SmRegistry := final perform {} ops

/-- The objects that come to the registry with a call: one that is handed over, or one that a factory
makes. -/
def handed (r : SmRegistry) : SmOperation → List ServiceModel
  | .registerSm sm => (sm.map Subtype.val).toList
  | .getByRanFunction create ranFunctionId =>
    if ranFunctionId ∉ r.sms ∧ ranFunctionId ∈ r.factories then
      ((create ranFunctionId).map Subtype.val).toList
    else []
  | _ => []

/-- The call is refused with `SM_ALREADY_REGISTERED`. -/
def Refuses (r : SmRegistry) : SmOperation → Prop
  | .registerSm (some sm) => sm.val.ranFunctionId ∈ r.sms
  | _ => False

instance (r : SmRegistry) (op : SmOperation) : Decidable (r.Refuses op) :=
  match op with
  | .registerSm (some sm) => inferInstanceAs (Decidable (sm.val.ranFunctionId ∈ r.sms))
  | .registerSm none | .registerSmFactory .. | .unregisterSm _ | .getByRanFunction .. | .startSm ..
  | .stopSm _ | .clear _ => inferInstanceAs (Decidable False)

/-- What a call can do to the objects of the registry: `r'` is the registry after it, `handed` the
objects that come with it, and `refused` says whether they were turned away. -/
inductive Drives (r : SmRegistry) : SmRegistry → List ServiceModel → Prop → Prop
  | rest (factories : Finset UInt32) : Drives r { r with factories } [] False
  | refuse (sm : NewModel) :
      Drives r { r with deleted := r.deleted ++ [sm.val] } [sm.val] True
  | fail (sm : NewModel) : sm.val.initResult ≠ .success →
      Drives r { r with deleted := r.deleted ++ [sm.val.init] } [sm.val] False
  | adopt (sm : NewModel) (f : UInt32) (factories : Finset UInt32) :
      f ∉ r.sms → sm.val.initResult = .success →
      Drives r { r with sms := r.sms.insert f sm.val.init, factories } [sm.val] False
  | dismiss {sm : ServiceModel} (f : UInt32) : r.sms.lookup f = some sm →
      Drives r { r with sms := r.sms.erase f, deleted := r.deleted ++ [sm.halt.destroy] } [] False
  | start {sm : ServiceModel} (f : UInt32) (result : ErrorCode) : r.sms.lookup f = some sm →
      sm.isRunning = false →
      Drives r { r with sms := r.sms.insert f (sm.receive (.start result)) } [] False
  | stop {sm : ServiceModel} (f : UInt32) : r.sms.lookup f = some sm → sm.isRunning = true →
      Drives r { r with sms := r.sms.insert f (sm.receive .stop) } [] False
  | clear (order : Enumeration UInt32) : Drives r (r.clear order) [] False

theorem drives_registerSm (r : SmRegistry) (offer : Option NewModel) :
    r.Drives (r.perform (.registerSm offer)).1 (r.handed (.registerSm offer))
      (r.Refuses (.registerSm offer)) := by
  cases offer with
  | none => exact .rest r.factories
  | some sm =>
    simp only [perform, Option.map_some, handed, Refuses, Option.toList_some]
    by_cases htaken : sm.val.ranFunctionId ∈ r.sms
    · simp only [registerSm_of_taken htaken, htaken]
      exact .refuse sm
    · by_cases hinit : sm.val.initResult = .success
      · simp only [registerSm_of_free htaken hinit, htaken]
        exact .adopt sm sm.val.ranFunctionId r.factories htaken hinit
      · simp only [registerSm_of_failed htaken hinit, htaken]
        exact .fail sm hinit

theorem drives_getByRanFunction (r : SmRegistry) (create : UInt32 → Option NewModel) (f : UInt32) :
    r.Drives (r.perform (.getByRanFunction create f)).1 (r.handed (.getByRanFunction create f))
      False := by
  simp only [perform, getByRanFunction, handed]
  cases hlookup : r.sms.lookup f with
  | some sm =>
    have hmem : f ∈ r.sms := Finmap.mem_of_lookup_eq_some hlookup
    simp only [hmem, not_true_eq_false, false_and, if_false]
    exact .rest r.factories
  | none =>
    have hnew : f ∉ r.sms := Finmap.lookup_eq_none.mp hlookup
    by_cases hfactory : f ∈ r.factories
    · simp only [hnew, hfactory, not_false_eq_true, and_self, if_true]
      cases create f with
      | none => exact .rest r.factories
      | some sm =>
        simp only [Option.map_some, Option.toList_some]
        split
        · rename_i hinit
          exact .adopt sm f _ hnew hinit
        · rename_i hinit
          exact .fail sm hinit
    · simp only [hfactory, and_false, if_false]
      exact .rest r.factories

/-- Every call of the registry drives its objects so. -/
theorem drives (r : SmRegistry) (op : SmOperation) :
    r.Drives (r.perform op).1 (r.handed op) (r.Refuses op) := by
  cases op with
  | registerSm offer => exact r.drives_registerSm offer
  | registerSmFactory f callable =>
    simp only [perform, registerSmFactory, Prod.map_fst, handed, Refuses]
    split
    · exact .rest r.factories
    · split
      · exact .rest r.factories
      · exact .rest _
  | unregisterSm f =>
    simp only [perform, unregisterSm, Prod.map_fst, handed, Refuses]
    split
    · rename_i sm hlookup
      exact .dismiss f hlookup
    · split
      · exact .rest _
      · exact .rest r.factories
  | getByRanFunction create f => exact r.drives_getByRanFunction create f
  | startSm result f =>
    simp only [perform, startSm, Prod.map_fst, handed, Refuses]
    split
    · exact .rest r.factories
    · rename_i sm hlookup
      split
      · exact .rest r.factories
      · rename_i hrunning
        exact .start f result hlookup (Bool.eq_false_of_not_eq_true hrunning)
  | stopSm f =>
    simp only [perform, stopSm, Prod.map_fst, handed, Refuses]
    split
    · exact .rest r.factories
    · rename_i sm hlookup
      cases hrunning : sm.isRunning with
      | true => exact .stop f hlookup hrunning
      | false => exact .rest r.factories
  | clear order => exact .clear order

/-! ### The invariant -/

/-- The models that are held are initialised and not destroyed.  Those that were deleted have not been
called at all, have failed their `init`, or were destroyed. -/
structure Driven (r : SmRegistry) : Prop where
  held : ∀ f sm, r.sms.lookup f = some sm → sm.Ready
  deleted : ∀ sm ∈ r.deleted, sm.received = [] ∨ sm.phase = some .failed ∨
    sm.phase = some .destroyed

theorem mem_clear {r : SmRegistry} {order : Enumeration UInt32} {sm : ServiceModel}
    (h : sm ∈ (r.clear order).deleted) :
    sm ∈ r.deleted ∨ ∃ f held, r.sms.lookup f = some held ∧ sm = held.halt.destroy := by
  rcases List.mem_append.mp h with hdeleted | hcleared
  · exact Or.inl hdeleted
  · obtain ⟨f, -, hf⟩ := List.mem_filterMap.mp hcleared
    obtain ⟨held, hheld, rfl⟩ := Option.map_eq_some_iff.mp hf
    exact Or.inr ⟨f, held, hheld, rfl⟩

/-- The models are still ready where one of them is replaced by another that is. -/
theorem Driven.held_insert {r : SmRegistry} (h : r.Driven) {f : UInt32} {sm : ServiceModel}
    (hsm : sm.Ready) (g : UInt32) (other : ServiceModel)
    (hother : (r.sms.insert f sm).lookup g = some other) : other.Ready := by
  rw [UnorderedMap.lookup_insert_ite] at hother
  split at hother
  · cases hother
    exact hsm
  · exact h.held g other hother

theorem Driven.deleted_concat {r : SmRegistry} (h : r.Driven) {sm : ServiceModel}
    (hsm : sm.received = [] ∨ sm.phase = some .failed ∨ sm.phase = some .destroyed) :
    ∀ other ∈ r.deleted ++ [sm], other.received = [] ∨ other.phase = some .failed ∨
      other.phase = some .destroyed := by
  intro other hother
  rcases List.mem_append.mp hother with hother | hother
  · exact h.deleted other hother
  · rw [List.mem_singleton.mp hother]
    exact hsm

theorem Driven.drives {r r' : SmRegistry} {handed : List ServiceModel} {refused : Prop}
    (h : r.Driven) (hdrives : r.Drives r' handed refused) : r'.Driven := by
  cases hdrives with
  | rest factories => exact ⟨h.held, h.deleted⟩
  | refuse sm => exact ⟨h.held, h.deleted_concat (Or.inl sm.property)⟩
  | fail sm hinit =>
    refine ⟨h.held, h.deleted_concat (Or.inr (Or.inl ?_))⟩
    rw [ServiceModel.phase_init sm.property, if_neg hinit]
  | adopt sm f factories hnew hinit =>
    refine ⟨h.held_insert (Or.inl ?_), h.deleted⟩
    rw [ServiceModel.phase_init sm.property, if_pos hinit]
  | dismiss f hlookup =>
    refine ⟨fun g other hother => ?_, h.deleted_concat (Or.inr (Or.inr (h.held f _ hlookup).dismiss))⟩
    rw [UnorderedMap.lookup_erase_ite] at hother
    split at hother
    · cases hother
    · exact h.held g other hother
  | start f result hlookup hrunning =>
    exact ⟨h.held_insert ((h.held f _ hlookup).start hrunning result), h.deleted⟩
  | stop f hlookup hrunning =>
    exact ⟨h.held_insert ((h.held f _ hlookup).stop hrunning), h.deleted⟩
  | clear order =>
    refine ⟨fun g other hother => (by cases hother), fun other hother => ?_⟩
    rcases mem_clear hother with hdeleted | ⟨f, held, hheld, rfl⟩
    · exact h.deleted other hdeleted
    · exact Or.inr (Or.inr (h.held f held hheld).dismiss)

theorem driven_after (ops : List SmOperation) : (after ops).Driven := by
  refine final_induction ⟨fun _ _ h => (by cases h), fun _ h => (by cases h)⟩ fun r op _ h => ?_
  exact h.drives (r.drives op)

/-! ### No object is lost -/

/-- The registry holds the object, as it now is, or has deleted it. -/
def Has (r : SmRegistry) (sm : ServiceModel) : Prop :=
  (∃ f, r.sms.lookup f = some sm) ∨ sm ∈ r.deleted

section Tracking

variable {r r' : SmRegistry} {handed : List ServiceModel} {refused : Prop} {sm : ServiceModel}

theorem Drives.mem_deleted (h : r.Drives r' handed refused) (hsm : sm ∈ r.deleted) :
    sm ∈ r'.deleted := by
  cases h <;> first | exact hsm | exact List.mem_append_left _ hsm

/-- An object that comes with a call is turned away or initialised. -/
theorem Drives.has_handed (h : r.Drives r' handed refused) (hsm : sm ∈ handed) :
    refused ∧ sm ∈ r'.deleted ∨ ¬refused ∧ r'.Has sm.init := by
  cases h with
  | refuse sm' =>
    obtain rfl := List.mem_singleton.mp hsm
    exact Or.inl ⟨trivial, by simp⟩
  | fail sm' hinit =>
    obtain rfl := List.mem_singleton.mp hsm
    exact Or.inr ⟨id, Or.inr (by simp)⟩
  | adopt sm' f factories hnew hinit =>
    obtain rfl := List.mem_singleton.mp hsm
    exact Or.inr ⟨id, Or.inl ⟨f, Finmap.lookup_insert _⟩⟩
  | _ => cases hsm

/-- A call to one of the models is a call to it or no call to any other. -/
theorem lookup_insert_receive {f g : UInt32} {called : ServiceModel}
    (hcalled : r.sms.lookup f = some called) (call : SmCall) (hsm : r.sms.lookup g = some sm) :
    ∃ calls, (r.sms.insert f (called.receive call)).lookup g = some (sm.receiveAll calls) := by
  by_cases hgf : g = f
  · subst hgf
    obtain rfl := Option.some.inj (hsm.symm.trans hcalled)
    exact ⟨[call], Finmap.lookup_insert _⟩
  · refine ⟨[], ?_⟩
    rw [Finmap.lookup_insert_of_ne _ hgf, hsm]
    simp [ServiceModel.receiveAll]

/-- A model that is held stays or is replaced by itself after a call, or is deleted after one. -/
theorem Drives.has (h : r.Drives r' handed refused) (hsm : r.Has sm) :
    ∃ calls, r'.Has (sm.receiveAll calls) := by
  have hself : sm.receiveAll [] = sm := by simp [ServiceModel.receiveAll]
  rcases hsm with ⟨g, hg⟩ | hsm
  swap
  · exact ⟨[], Or.inr (hself.symm ▸ h.mem_deleted hsm)⟩
  cases h with
  | rest factories => exact ⟨[], Or.inl ⟨g, hself.symm ▸ hg⟩⟩
  | refuse sm' => exact ⟨[], Or.inl ⟨g, hself.symm ▸ hg⟩⟩
  | fail sm' hinit => exact ⟨[], Or.inl ⟨g, hself.symm ▸ hg⟩⟩
  | adopt sm' f factories hnew hinit =>
    have hne : g ≠ f := fun heq => hnew (heq ▸ Finmap.mem_of_lookup_eq_some hg)
    refine ⟨[], Or.inl ⟨g, ?_⟩⟩
    rw [hself, Finmap.lookup_insert_of_ne _ hne]
    exact hg
  | dismiss f hlookup =>
    by_cases hgf : g = f
    · subst hgf
      obtain rfl := Option.some.inj (hg.symm.trans hlookup)
      obtain ⟨calls, hcalls⟩ := ServiceModel.exists_halt_destroy sm
      exact ⟨calls, Or.inr (hcalls ▸ by simp)⟩
    · refine ⟨[], Or.inl ⟨g, ?_⟩⟩
      rw [hself, Finmap.lookup_erase_ne hgf]
      exact hg
  | start f result hlookup hrunning =>
    obtain ⟨calls, hcalls⟩ := lookup_insert_receive hlookup (.start result) hg
    exact ⟨calls, Or.inl ⟨g, hcalls⟩⟩
  | stop f hlookup hrunning =>
    obtain ⟨calls, hcalls⟩ := lookup_insert_receive hlookup .stop hg
    exact ⟨calls, Or.inl ⟨g, hcalls⟩⟩
  | clear order =>
    obtain ⟨calls, hcalls⟩ := ServiceModel.exists_halt_destroy sm
    refine ⟨calls, Or.inr (hcalls ▸ List.mem_append_right _ (List.mem_filterMap.mpr ⟨g, ?_, ?_⟩))⟩
    · exact (order.mem_list _ _).mpr (Finmap.mem_keys.mpr (Finmap.mem_of_lookup_eq_some hg))
    · rw [hg]
      rfl

theorem Has.final (h : r.Has sm) (ops : List SmOperation) :
    ∃ calls, (Transition.final perform r ops).Has (sm.receiveAll calls) := by
  induction ops generalizing r sm with
  | nil => exact ⟨[], by simpa [ServiceModel.receiveAll, Transition.final] using h⟩
  | cons op ops ih =>
    obtain ⟨calls, hcalls⟩ := (r.drives op).has h
    obtain ⟨calls', hcalls'⟩ := ih hcalls
    exact ⟨calls ++ calls', ServiceModel.receiveAll_receiveAll sm calls calls' ▸ hcalls'⟩

theorem deleted_final (h : sm ∈ r.deleted) (ops : List SmOperation) :
    sm ∈ (Transition.final perform r ops).deleted :=
  final_induction (P := fun r : SmRegistry => sm ∈ r.deleted) h fun r op _ h =>
    (r.drives op).mem_deleted h

end Tracking

/-! ### Equal objects -/

/-- The objects that the registry holds or has deleted, as they now are, each as often as there are
equal ones. -/
def objects (r : SmRegistry) : Multiset ServiceModel := r.sms.values + r.deleted

/-- The objects that come to the registry with the calls of a run, with whether they are turned away. -/
def arrivals (r : SmRegistry) : List SmOperation → Multiset (ServiceModel × Bool)
  | [] => 0
  | op :: ops =>
    ((r.handed op).map fun sm => (sm, decide (r.Refuses op))) + arrivals (r.perform op).1 ops

/-- An object as it was when it came, with whether it has been left alone since. -/
def origin (sm : ServiceModel) : ServiceModel × Bool :=
  ({ sm with received := [] }, decide (sm.received = []))

section Conserved

variable {sm : ServiceModel}

/-- An object that has received nothing is as it came. -/
theorem received_nil_of_new (h : sm.received = []) : ({ sm with received := [] } : ServiceModel) = sm := by
  rw [← h]

theorem origin_new (h : sm.received = []) : origin sm = (sm, true) :=
  Prod.ext (received_nil_of_new h) (decide_eq_true h)

theorem origin_init (h : sm.received = []) : origin sm.init = (sm, false) :=
  Prod.ext (received_nil_of_new h) (decide_eq_false (by simp [ServiceModel.init, ServiceModel.receive]))

theorem origin_receive (hne : sm.received ≠ []) (call : SmCall) :
    origin (sm.receive call) = origin sm := by
  refine Prod.ext rfl ?_
  simp [origin, ServiceModel.receive, hne]

theorem origin_halt_destroy (hne : sm.received ≠ []) : origin sm.halt.destroy = origin sm := by
  unfold ServiceModel.halt ServiceModel.destroy
  split
  · rw [origin_receive (by simp [ServiceModel.receive]), origin_receive hne]
  · exact origin_receive hne .destroy

theorem received_ne_nil_of_ready (h : sm.Ready) : sm.received ≠ [] := by
  intro hnil
  unfold ServiceModel.Ready ServiceModel.phase at h
  rw [hnil] at h
  rcases h with hphase | hphase <;> cases hphase

variable {r r' : SmRegistry} {handed : List ServiceModel} {refused : Prop} [Decidable refused]

theorem origins_deleted_concat (r : SmRegistry) (sm : ServiceModel) :
    ({ r with deleted := r.deleted ++ [sm] } : SmRegistry).objects.map origin =
      r.objects.map origin + {origin sm} := by
  rw [objects, objects, ← Multiset.coe_add, Multiset.coe_singleton, ← add_assoc, Multiset.map_add,
    Multiset.map_singleton]

/-- A call to a model that is held leaves the origins as they are. -/
theorem Driven.origins_insert (h : r.Driven) {f : UInt32} (hlookup : r.sms.lookup f = some sm)
    (call : SmCall) :
    ({ r with sms := r.sms.insert f (sm.receive call) } : SmRegistry).objects.map origin =
      r.objects.map origin := by
  have horigin := origin_receive (received_ne_nil_of_ready (h.held f sm hlookup)) call
  rw [objects, objects, UnorderedMap.values_insert_of_mem, UnorderedMap.values_of_lookup hlookup,
    Multiset.cons_add, Multiset.cons_add, Multiset.map_cons, Multiset.map_cons, horigin]

theorem Driven.origins_dismiss (h : r.Driven) {f : UInt32} (hlookup : r.sms.lookup f = some sm) :
    ({ r with sms := r.sms.erase f, deleted := r.deleted ++ [sm.halt.destroy] } : SmRegistry).objects.map
      origin = r.objects.map origin := by
  have horigin := origin_halt_destroy (received_ne_nil_of_ready (h.held f sm hlookup))
  refine (origins_deleted_concat { r with sms := r.sms.erase f } sm.halt.destroy).trans ?_
  rw [objects, objects, UnorderedMap.values_of_lookup hlookup, Multiset.cons_add, Multiset.map_cons,
    horigin, Multiset.add_comm, Multiset.singleton_add]

theorem Driven.origins_clear (h : r.Driven) (order : Enumeration UInt32) :
    (r.clear order).objects.map origin = r.objects.map origin := by
  have hcleared : (((order.list r.sms.keys).filterMap fun id =>
      (r.sms.lookup id).map fun sm => sm.halt.destroy : List ServiceModel) : Multiset ServiceModel) =
        r.sms.values.map fun sm => sm.halt.destroy := by
    rw [← Multiset.filterMap_coe, order.coe_list, ← UnorderedMap.filterMap_lookup,
      Multiset.map_filterMap]
  have horigins : (r.sms.values.map fun sm => sm.halt.destroy).map origin = r.sms.values.map origin := by
    rw [Multiset.map_map]
    refine Multiset.map_congr rfl fun sm hsm => ?_
    obtain ⟨f, hf⟩ := UnorderedMap.mem_values.mp hsm
    exact origin_halt_destroy (received_ne_nil_of_ready (h.held f sm hf))
  show (0 + ((r.deleted ++ _ : List ServiceModel) : Multiset ServiceModel)).map origin = _
  rw [zero_add, ← Multiset.coe_add, hcleared, Multiset.map_add, horigins, objects, Multiset.map_add,
    Multiset.add_comm]

/-- A call adds the objects that come with it and neither loses nor doubles one. -/
theorem Driven.origins_drives (h : r.Driven) (hdrives : r.Drives r' handed refused) :
    r'.objects.map origin = r.objects.map origin +
      (handed.map fun sm => (sm, decide refused) : List (ServiceModel × Bool)) := by
  cases hdrives with
  | rest factories => simp [objects]
  | refuse sm => simp [origins_deleted_concat, origin_new sm.property]
  | fail sm hinit => simp [origins_deleted_concat, origin_init sm.property]
  | adopt sm f factories hnew hinit =>
    rw [objects, objects, UnorderedMap.values_insert hnew, Multiset.cons_add, Multiset.map_cons,
      origin_init sm.property]
    simp [add_comm]
  | dismiss f hlookup => simp [h.origins_dismiss hlookup]
  | start f result hlookup hrunning => simp [h.origins_insert hlookup]
  | stop f hlookup hrunning => simp [h.origins_insert hlookup]
  | clear order => simp [h.origins_clear order]

theorem Driven.origins_final (h : r.Driven) (ops : List SmOperation) :
    (final perform r ops).objects.map origin = r.objects.map origin + r.arrivals ops := by
  induction ops generalizing r with
  | nil => simp [arrivals, final]
  | cons op ops ih =>
    have hdrives := r.drives op
    rw [final, ih (h.drives hdrives), h.origins_drives hdrives, arrivals, add_assoc]

end Conserved

/-- What the registry has of an object that it did not turn away was driven in order, and is destroyed
if the registry has deleted it after a successful `init`. -/
theorem Driven.inOrder {r : SmRegistry} (h : r.Driven) {sm : ServiceModel}
    (hne : sm.received ≠ []) (hsm : r.Has sm) :
    InOrder sm.received ∧ ((∃ f, r.sms.lookup f = some sm) ∨
      sm ∈ r.deleted ∧ (.init .success ∈ sm.received → sm.received.count .destroy = 1)) := by
  rcases hsm with ⟨f, hf⟩ | hdeleted
  · refine ⟨?_, Or.inl ⟨f, hf⟩⟩
    rcases h.held f sm hf with hphase | hphase <;> exact SmPhase.inOrder_of_after hphase hne
  · rcases h.deleted sm hdeleted with hempty | hphase | hphase
    · exact absurd hempty hne
    · refine ⟨SmPhase.inOrder_of_after hphase hne, Or.inr ⟨hdeleted, fun hinit => ?_⟩⟩
      exact absurd rfl ((SmPhase.describes_of_after hphase).ready.mp hinit).2
    · exact ⟨SmPhase.inOrder_of_after hphase hne,
        Or.inr ⟨hdeleted, fun _ => SmPhase.count_destroy hphase⟩⟩

theorem mem_objects {r : SmRegistry} {sm : ServiceModel} : sm ∈ r.objects ↔ r.Has sm := by
  rw [objects, Multiset.mem_add, UnorderedMap.mem_values, Multiset.mem_coe, Has]

/-- Whatever calls are made on the registry, an object that comes to it with one of them is at the end
of the run held or deleted.  If `register_sm` turned it away because its RAN function was taken, it
was deleted and has received no call.  Otherwise it was driven in order, and if it was initialised and
is no longer held, it was destroyed exactly once.  Objects that are equal are told apart by their number:
what is held or deleted at the end is, one for one, what came to the registry, the objects that were
turned away without a call and all others with some, and each of those was driven in order. -/
theorem service_models_driven_in_order (before rest : List SmOperation) (op : SmOperation)
    (sm : ServiceModel) (hsm : sm ∈ (after before).handed op) :
    let r := after (before ++ op :: rest)
    (∃ calls, ((∃ f, r.sms.lookup f = some { sm with received := calls }) ∨
        { sm with received := calls } ∈ r.deleted ∧
          (.init .success ∈ calls → calls.count .destroy = 1)) ∧
      ((after before).Refuses op → calls = []) ∧ (¬(after before).Refuses op → InOrder calls)) ∧
    r.objects.map origin = arrivals {} (before ++ op :: rest) ∧
    ∀ o ∈ r.objects, o.received ≠ [] → InOrder o.received ∧ ((∃ f, r.sms.lookup f = some o) ∨
      o ∈ r.deleted ∧ (.init .success ∈ o.received → o.received.count .destroy = 1)) := by
  intro r
  have hdriven : r.Driven := driven_after _
  refine ⟨?_, ((driven_after []).origins_final _).trans (Multiset.zero_add _), fun o ho hne =>
    hdriven.inOrder hne (mem_objects.mp ho)⟩
  have hr : r = Transition.final perform ((after before).perform op).1 rest :=
    final_append perform {} before (op :: rest)
  have hnew : sm.received = [] := by
    cases op with
    | registerSm offer =>
      obtain ⟨sm', hsm', rfl⟩ := Option.map_eq_some_iff.mp (Option.mem_toList.mp hsm)
      exact sm'.property
    | getByRanFunction create f =>
      simp only [SmRegistry.handed] at hsm
      split at hsm
      · obtain ⟨sm', hsm', rfl⟩ := Option.map_eq_some_iff.mp (Option.mem_toList.mp hsm)
        exact sm'.property
      · cases hsm
    | _ => cases hsm
  rcases ((after before).drives op).has_handed hsm with ⟨hrefused, hdeleted⟩ | ⟨haccepted, hhas⟩
  · have hsame : ({ sm with received := [] } : ServiceModel) = sm := by rw [← hnew]
    refine ⟨[], Or.inr ⟨?_, fun hinit => by cases hinit⟩, fun _ => rfl, fun h => absurd hrefused h⟩
    rw [hsame, hr]
    exact deleted_final hdeleted rest
  · obtain ⟨calls, hcalls⟩ := hhas.final rest
    have hreceived : sm.init.receiveAll calls =
        { sm with received := .init sm.initResult :: calls } := by
      simp [ServiceModel.init, ServiceModel.receive, ServiceModel.receiveAll, hnew]
    rw [← hr, hreceived] at hcalls
    obtain ⟨horder, hplace⟩ := hdriven.inOrder (List.cons_ne_nil _ _) hcalls
    exact ⟨_, hplace, fun h => absurd h haccepted, fun _ => horder⟩

/-- A model for RAN function 7. -/
def firstModel : NewModel := ⟨{ ranFunctionId := 7 }, rfl⟩

/-- Another one for the same function. -/
def secondModel : NewModel := ⟨{ ranFunctionId := 7, telemetryIds := [1] }, rfl⟩

/-- The first model is started, and stopped and destroyed when it is unregistered. -/
theorem service_models_driven_in_order_unregistered :
    let r := after [.registerSm (some firstModel), .startSm .success 7, .unregisterSm 7]
    r.deleted.map ServiceModel.received = [[.init .success, .start .success, .stop, .destroy]] ∧
    ∃ calls, ((∃ f, r.sms.lookup f = some { firstModel.val with received := calls }) ∨
        { firstModel.val with received := calls } ∈ r.deleted ∧
          (.init .success ∈ calls → calls.count .destroy = 1)) ∧ InOrder calls := by
  intro r
  obtain ⟨⟨calls, hplace, -, horder⟩, -⟩ := service_models_driven_in_order []
    [.startSm .success 7, .unregisterSm 7] (.registerSm (some firstModel)) firstModel.val
    (List.mem_singleton.mpr rfl)
  exact ⟨by decide +kernel, calls, hplace, horder (Finmap.notMem_empty)⟩

/-- The second model is turned away: it is deleted without an `init`. -/
theorem second_model_not_initialised :
    secondModel.val ∈
      (after [.registerSm (some firstModel)]).handed (.registerSm (some secondModel)) ∧
    (after [.registerSm (some firstModel), .registerSm (some secondModel)]).deleted =
      [secondModel.val] ∧
    ¬InOrder secondModel.val.received := by
  refine ⟨List.mem_singleton.mpr rfl, by decide +kernel, fun h => ?_⟩
  obtain ⟨result, later, hcalls, -⟩ := h.init
  cases hcalls

end SmRegistry

end LibE3
