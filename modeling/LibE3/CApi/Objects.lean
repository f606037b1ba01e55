import LibE3.CApi.Model

/-! What the calls of the C interface do to the objects of a process, whatever the caller does.  No
object is taken back, the registry maps each RAN function to the handle whose model has it, and a
registration either moves the handle there or deletes it. -/

namespace LibE3

namespace CApi

open Transition

/-! ### What a call does to the objects -/

/-- All of a process but its agents. -/
def Process.objects (s : Process) : List Handle × SmRegistry × UnorderedMap UInt32 Nat × List Nat :=
  (s.handles, s.registry, s.registered, s.staleReads)

namespace Process

variable (s : Process)

theorem objects_init (a : Nat) (encoder : Bool) : (s.init a encoder).1.objects = s.objects := by
  unfold init
  split
  · rfl
  · split <;> rfl

theorem objects_ensureInit (a : Nat) (encoder : Bool) :
    (s.ensureInit a encoder).1.objects = s.objects := by
  unfold ensureInit
  split
  · rfl
  · exact s.objects_init a encoder

theorem objects_start (a : Nat) (encoder : Bool) (connection : ErrorCode) :
    (s.start a encoder connection).1.objects = s.objects := by
  have hinit := s.objects_ensureInit a encoder
  unfold start
  dsimp only
  split
  · exact hinit
  · split
    · exact hinit
    · split <;> exact hinit

theorem handles_modify (h : Nat) (f : Handle → Handle) (j : Nat) :
    (s.modify h f).handles[j]? = if h = j then (s.handles[j]?).map f else s.handles[j]? := by
  unfold modify
  rw [List.getElem?_modify]
  split <;> simp

@[simp] theorem handles_read (h : Nat) : (s.read h).handles = s.handles := by
  unfold read
  split <;> rfl

@[simp] theorem registered_read (h : Nat) : (s.read h).registered = s.registered := by
  unfold read
  split <;> rfl

@[simp] theorem registry_read (h : Nat) : (s.read h).registry = s.registry := by
  unfold read
  split <;> rfl

theorem interface_read (h a : Nat) : (s.read h).interface a = s.interface a := by
  unfold read
  split <;> rfl

/-- A read of a handle that is not deleted leaves no trace. -/
theorem read_of_alive {h : Nat} (halive : ∀ handle, s.handles[h]? = some handle →
    handle.deletions = 0) : s.read h = s := by
  refine if_neg fun hany => ?_
  obtain ⟨handle, hhandle, hdeleted⟩ := (Option.any_eq_true _ _).mp hany
  simp [halive handle hhandle] at hdeleted

/-- What the registry deletes, it deletes once for each time it holds it. -/
theorem handles_sweep (hs : List Nat) (j : Nat) :
    (hs.foldl (fun s h => (s.read h).delete h) s).handles[j]? =
      (s.handles[j]?).map fun handle =>
        { handle with deletions := handle.deletions + hs.count j } := by
  induction hs generalizing s with
  | nil => simp
  | cons h hs ih =>
    rw [List.foldl_cons, ih, delete, handles_modify, handles_read, List.count_cons]
    by_cases hj : h = j
    · simp only [hj, if_true, Option.map_map, beq_self_eq_true]
      congr 1
      funext handle
      simp
      omega
    · simp [hj]

theorem staleReads_sweep {hs : List Nat} (hnodup : hs.Nodup)
    (halive : ∀ h ∈ hs, ∀ handle, s.handles[h]? = some handle → handle.deletions = 0) :
    (hs.foldl (fun s h => (s.read h).delete h) s).staleReads = s.staleReads := by
  induction hs generalizing s with
  | nil => rfl
  | cons h hs ih =>
    obtain ⟨hnew, hnodup⟩ := List.nodup_cons.mp hnodup
    rw [List.foldl_cons, s.read_of_alive (halive h List.mem_cons_self), ih _ hnodup]
    · rfl
    · -- The handles that are still to come are not the one just deleted.
      intro h' hh' handle hhandle
      rw [delete, handles_modify, if_neg (by rintro rfl; exact hnew hh')] at hhandle
      exact halive h' (List.mem_cons_of_mem h hh') handle hhandle

end Process

/-- The states of an interface between two calls, and the registry as a map from RAN functions to
the handles whose models have them. -/
structure Placed (s : Process) : Prop where
  settled : ∀ a state, s.interface a = some state → state ≠ .uninitialized ∧ state ≠ .stopping
  keyed : ∀ f h, s.registered.lookup f = some h →
    ∃ handle, s.handles[h]? = some handle ∧ handle.sm.ranFunctionId = f
  keys : ∀ f, f ∈ s.registered ↔ f ∈ s.registry.sms

namespace Placed

variable {s : Process}

theorem mem_heldHandles (order : Enumeration UInt32) {h : Nat} :
    h ∈ s.heldHandles order ↔ Holds s h := by
  unfold Process.heldHandles Holds
  rw [List.mem_filterMap]
  constructor
  · rintro ⟨f, -, hf⟩
    exact ⟨f, hf⟩
  · rintro ⟨f, hf⟩
    refine ⟨f, (order.mem_list _ _).mpr (Finmap.mem_keys.mpr (Finmap.mem_iff.mpr ⟨h, hf⟩)), hf⟩

theorem nodup_heldHandles (hs : Placed s) (order : Enumeration UInt32) :
    (s.heldHandles order).Nodup := by
  refine (order.nodup _).filterMap fun f f' h hf hf' => ?_
  obtain ⟨handle, hhandle, rfl⟩ := hs.keyed f h hf
  obtain ⟨handle', hhandle', rfl⟩ := hs.keyed f' h hf'
  rw [hhandle] at hhandle'
  rw [Option.some.inj hhandle']

/-- The handles that the registry holds are deleted, and nothing else is touched. -/
theorem handles_clearRegistry (hs : Placed s) (order : Enumeration UInt32) (j : Nat) :
    (Holds s j → (s.clearRegistry order).handles[j]? = (s.handles[j]?).map fun handle =>
      { handle with deletions := handle.deletions + 1 }) ∧
    (¬Holds s j → (s.clearRegistry order).handles[j]? = s.handles[j]?) := by
  have hsweep := s.handles_sweep (s.heldHandles order) j
  refine ⟨fun hheld => ?_, fun hfree => ?_⟩
  · rw [List.count_eq_one_of_mem (hs.nodup_heldHandles order)
      ((mem_heldHandles order).mpr hheld)] at hsweep
    exact hsweep
  · rw [List.count_eq_zero.mpr fun hmem => hfree ((mem_heldHandles order).mp hmem)] at hsweep
    refine hsweep.trans ?_
    simp

theorem not_holds_clearRegistry (order : Enumeration UInt32) (h : Nat) :
    ¬Holds (s.clearRegistry order) h := by
  rintro ⟨f, hf⟩
  cases hf

end Placed

/-! ### Objects are never taken back -/

/-- Every object stays, with its model and at least as many deletions, and no stale read is
forgotten. -/
structure Grows (s s' : Process) : Prop where
  handles : ∀ (j : Nat) (handle : Handle), s.handles[j]? = some handle →
    ∃ handle' : Handle, s'.handles[j]? = some handle' ∧ handle'.sm = handle.sm ∧
      handle.deletions ≤ handle'.deletions
  staleReads : s.staleReads <+: s'.staleReads

namespace Grows

variable {s s' s'' : Process}

theorem of_objects (h : s'.objects = s.objects) : Grows s s' := by
  obtain ⟨hhandles, -, -, hstale⟩ : s'.handles = s.handles ∧ s'.registry = s.registry ∧
      s'.registered = s.registered ∧ s'.staleReads = s.staleReads := by
    simpa [Process.objects] using h
  refine ⟨fun j handle hj => ⟨handle, ?_, rfl, le_rfl⟩, hstale ▸ List.prefix_rfl⟩
  rw [hhandles]
  exact hj

theorem refl (s : Process) : Grows s s := of_objects rfl

theorem trans (h : Grows s s') (h' : Grows s' s'') : Grows s s'' := by
  refine ⟨fun j handle hj => ?_, h.staleReads.trans h'.staleReads⟩
  obtain ⟨handle', hj', hsm, hle⟩ := h.handles j handle hj
  obtain ⟨handle'', hj'', hsm', hle'⟩ := h'.handles j handle' hj'
  exact ⟨handle'', hj'', hsm'.trans hsm, hle.trans hle'⟩

theorem read (s : Process) (h : Nat) : Grows s (s.read h) := by
  unfold Process.read
  split
  · exact ⟨fun j handle hj => ⟨handle, hj, rfl, le_rfl⟩, List.prefix_append _ _⟩
  · exact refl s

theorem modify (s : Process) (h : Nat) {f : Handle → Handle}
    (hf : ∀ handle, (f handle).sm = handle.sm ∧ handle.deletions ≤ (f handle).deletions) :
    Grows s (s.modify h f) := by
  refine ⟨fun j handle hj => ?_, List.prefix_rfl⟩
  rw [Process.handles_modify]
  split
  · exact ⟨f handle, by rw [hj]; rfl, hf handle⟩
  · exact ⟨handle, hj, rfl, le_rfl⟩

theorem delete (s : Process) (h : Nat) : Grows s (s.delete h) :=
  modify s h fun _ => ⟨rfl, Nat.le_succ _⟩

theorem sweep (s : Process) (hs : List Nat) :
    Grows s (hs.foldl (fun s h => (s.read h).delete h) s) := by
  induction hs generalizing s with
  | nil => exact refl s
  | cons h hs ih => exact ((read s h).trans (delete _ h)).trans (ih _)

theorem stop (s : Process) (a : Nat) (order : Enumeration UInt32) :
    Grows s (s.stop a order) := by
  unfold Process.stop
  split
  · exact refl s
  · split
    · exact refl s
    · have hsweep := sweep s (s.heldHandles order)
      exact ⟨hsweep.handles, hsweep.staleReads⟩

theorem registerSm (s : Process) (a h : Nat) (encoder : Bool) (handle : Handle) :
    Grows s (s.registerSm a h encoder handle).1 := by
  have hinit := of_objects (s.objects_ensureInit a encoder)
  have hemitter := modify (s.ensureInit a encoder).1 h
    (f := fun handle => { handle with emitter := true }) fun _ => ⟨rfl, le_rfl⟩
  unfold Process.registerSm
  dsimp only
  split
  · exact hinit.trans (delete _ h)
  · split
    · have hall := hinit.trans hemitter
      exact ⟨hall.handles, hall.staleReads⟩
    · have hall := (hinit.trans hemitter).trans (delete _ h)
      exact ⟨hall.handles, hall.staleReads⟩

theorem perform (s : Process) (c : Call) : Grows s (c.perform s).1 := by
  cases c with
  | serviceModelCreateFromC desc allocated =>
    rcases desc with _ | sm <;> cases allocated <;> try exact refl s
    refine ⟨fun j handle hj => ⟨handle, ?_, rfl, le_rfl⟩, List.prefix_rfl⟩
    exact (List.getElem?_append_left (List.getElem?_eq_some_iff.mp hj).1).trans hj
  | serviceModelDestroy sm =>
    rcases sm with _ | h
    · exact refl s
    · simp only [Call.perform]
      split
      · exact read s h
      · exact (read s h).trans (delete _ h)
  | emit sm queued =>
    rcases sm with _ | h
    · exact refl s
    · exact read s h
  | agentCreate allocated => cases allocated <;> exact of_objects rfl
  | agentInit agent encoder =>
    rcases agent with _ | a
    · exact refl s
    · exact of_objects (s.objects_init a encoder)
  | agentStart agent encoder connection =>
    rcases agent with _ | a
    · exact refl s
    · exact of_objects (s.objects_start a encoder connection)
  | agentStop agent order =>
    rcases agent with _ | a
    · exact refl s
    · exact stop s a order
  | agentDestroy agent order =>
    rcases agent with _ | a
    · exact refl s
    · have hstops := (stop s a order).trans (stop _ a order)
      exact ⟨hstops.handles, hstops.staleReads⟩
  | agentRegisterSm agent sm encoder =>
    rcases agent with _ | a <;> rcases sm with _ | h <;> try exact refl s
    simp only [Call.perform]
    split
    · exact refl s
    · refine ((read s h).trans (modify _ h ?_)).trans (registerSm _ a h encoder _)
      exact fun _ => ⟨rfl, le_rfl⟩

theorem run (s : Process) (calls : List Call) : Grows s (final Call.perform s calls) := by
  induction calls generalizing s with
  | nil => exact refl s
  | cons c calls ih => exact (perform s c).trans (ih _)

end Grows

/-! ### Registration -/

namespace Process

variable {s : Process} {a h : Nat} {encoder : Bool} {handle : Handle}

theorem ensureInit_code :
    (s.ensureInit a encoder).2 = .success ↔ (s.interface a).isSome = true ∨ encoder = true := by
  unfold ensureInit
  split
  · rename_i hsome
    simp [hsome]
  · rename_i hnone
    cases encoder <;> simp [init, hnone]

theorem ensureInit_same (s : Process) (a : Nat) (encoder : Bool) :
    (s.ensureInit a encoder).1.handles = s.handles ∧
      (s.ensureInit a encoder).1.registry = s.registry ∧
      (s.ensureInit a encoder).1.registered = s.registered ∧
      (s.ensureInit a encoder).1.staleReads = s.staleReads := by
  simpa [objects] using s.objects_ensureInit a encoder

/-- A registration that succeeds puts the handle under its RAN function. -/
theorem registerSm_success (hinit : (s.interface a).isSome = true ∨ encoder = true)
    (hfree : handle.sm.ranFunctionId ∉ s.registry.sms) (hsm : handle.sm.initResult = .success) :
    (s.registerSm a h encoder handle).2 = .success ∧
    (s.registerSm a h encoder handle).1.handles =
      (s.modify h fun handle => { handle with emitter := true }).handles ∧
    (s.registerSm a h encoder handle).1.registered =
      s.registered.insert handle.sm.ranFunctionId h ∧
    (∀ f, f ∈ (s.registerSm a h encoder handle).1.registry.sms ↔
      f = handle.sm.ranFunctionId ∨ f ∈ s.registry.sms) ∧
    (s.registerSm a h encoder handle).1.staleReads = s.staleReads := by
  obtain ⟨hhandles, hregistry, hregistered, hstale⟩ := s.ensureInit_same a encoder
  simp [registerSm, ensureInit_code.mpr hinit, modify, SmRegistry.registerSm, hregistry, hfree,
    hsm, hhandles, hregistered, hstale]

/-- A registration that cannot succeed deletes the handle. -/
theorem registerSm_failure (hfail : ¬(((s.interface a).isSome = true ∨ encoder = true) ∧
      handle.sm.ranFunctionId ∉ s.registry.sms ∧ handle.sm.initResult = .success)) :
    (s.registerSm a h encoder handle).2 ≠ .success ∧
    (∀ object, s.handles[h]? = some object →
      ∃ object', (s.registerSm a h encoder handle).1.handles[h]? = some object' ∧
        object'.deletions = object.deletions + 1) ∧
    (s.registerSm a h encoder handle).1.registered = s.registered ∧
    (s.registerSm a h encoder handle).1.registry.sms = s.registry.sms := by
  obtain ⟨hhandles, hregistry, hregistered, -⟩ := s.ensureInit_same a encoder
  unfold registerSm
  by_cases hinit : (s.ensureInit a encoder).2 = .success
  · simp only [hinit, ne_eq, not_true_eq_false, if_false]
    -- The agent is there, so the registry refuses the model or its `init` fails.
    have hrefused := fun hok => hfail ⟨ensureInit_code.mp hinit, hok⟩
    obtain ⟨hcode, hsms⟩ : (s.registry.registerSm (some handle.sm)).2 ≠ .success ∧
        (s.registry.registerSm (some handle.sm)).1.sms = s.registry.sms := by
      simp only [SmRegistry.registerSm]
      split
      · simp
      · rename_i hfree
        split
        · rename_i hresult
          exact ⟨hresult, rfl⟩
        · rename_i hresult
          exact absurd ⟨hfree, not_not.mp hresult⟩ hrefused
    have hregistry' : ((s.ensureInit a encoder).1.modify h fun handle =>
        { handle with emitter := true }).registry = s.registry := hregistry
    simp only [hregistry', hcode, if_false, not_false_eq_true, true_and]
    refine ⟨fun object hobject => ?_, hregistered, hsms⟩
    refine ⟨{ object with emitter := true, deletions := object.deletions + 1 }, ?_, rfl⟩
    simp [delete, modify, hhandles, hobject]
  · simp only [ne_eq, hinit, not_false_eq_true, if_true, true_and]
    refine ⟨fun object hobject => ?_, hregistered, by rw [delete, modify]; exact congrArg _ hregistry⟩
    refine ⟨{ object with deletions := object.deletions + 1 }, ?_, rfl⟩
    simp [delete, modify, hhandles, hobject]

end Process

/-! ### The registry over a run -/

theorem Process.stop_cases (s : Process) (a : Nat) (order : Enumeration UInt32) :
    s.stop a order = s ∨
      s.stop a order = (s.clearRegistry order).setInterface a .initialized := by
  unfold Process.stop
  split
  · exact Or.inl rfl
  · split
    · exact Or.inl rfl
    · exact Or.inr rfl

theorem Process.agents_read (s : Process) (h : Nat) : (s.read h).agents = s.agents := by
  unfold Process.read
  split <;> rfl

/-- The states of interfaces that a step leaves are those of before or ones to rest in. -/
def Rests (s s' : Process) : Prop :=
  ∀ a state, s'.interface a = some state →
    s.interface a = some state ∨ state ≠ .uninitialized ∧ state ≠ .stopping

namespace Rests

variable {s s' s'' : Process}

theorem of_agents (h : s'.agents = s.agents) : Rests s s' := by
  intro a state hstate
  left
  rw [← hstate, Process.interface, Process.interface, h]

theorem trans (h : Rests s s') (h' : Rests s' s'') : Rests s s'' := by
  intro a state hstate
  rcases h' a state hstate with hbefore | hrests
  · exact h a state hbefore
  · exact Or.inr hrests

theorem setInterface (s : Process) (a : Nat) {state : AgentState} (h : state ≠ .uninitialized)
    (h' : state ≠ .stopping) : Rests s (s.setInterface a state) := by
  intro b state' hstate
  unfold Process.setInterface Process.interface at hstate
  rw [List.getElem?_modify] at hstate
  obtain ⟨agent, hagent, hstate⟩ := Option.bind_eq_some_iff.mp hstate
  obtain ⟨agent', hagent', rfl⟩ := Option.map_eq_some_iff.mp hagent
  split at hstate
  · cases hstate
    exact Or.inr ⟨h, h'⟩
  · left
    rw [Process.interface, hagent']
    exact hstate

theorem init (s : Process) (a : Nat) (encoder : Bool) : Rests s (s.init a encoder).1 := by
  unfold Process.init
  split
  · exact of_agents rfl
  · split
    · exact setInterface s a nofun nofun
    · exact of_agents rfl

theorem ensureInit (s : Process) (a : Nat) (encoder : Bool) :
    Rests s (s.ensureInit a encoder).1 := by
  unfold Process.ensureInit
  split
  · exact of_agents rfl
  · exact init s a encoder

theorem agents_sweep (s : Process) (hs : List Nat) :
    (hs.foldl (fun s h => (s.read h).delete h) s).agents = s.agents := by
  induction hs generalizing s with
  | nil => rfl
  | cons h hs ih => exact (ih _).trans (s.agents_read h)

theorem stop (s : Process) (a : Nat) (order : Enumeration UInt32) :
    Rests s (s.stop a order) := by
  rcases s.stop_cases a order with hsame | hclear
  · rw [hsame]
    exact of_agents rfl
  · rw [hclear]
    have hsweep : Rests s (s.clearRegistry order) := of_agents (agents_sweep s _)
    exact hsweep.trans (setInterface _ a nofun nofun)

theorem start (s : Process) (a : Nat) (encoder : Bool) (connection : ErrorCode) :
    Rests s (s.start a encoder connection).1 := by
  have hinit := ensureInit s a encoder
  unfold Process.start
  dsimp only
  split
  · exact hinit
  · split
    · exact hinit
    · split
      · exact hinit.trans (setInterface _ a nofun nofun)
      · exact hinit.trans (setInterface _ a nofun nofun)

theorem registerSm (s : Process) (a h : Nat) (encoder : Bool) (handle : Handle) :
    Rests s (s.registerSm a h encoder handle).1 := by
  have hinit := ensureInit s a encoder
  unfold Process.registerSm
  dsimp only
  split
  · exact hinit.trans (of_agents rfl)
  · split <;> exact hinit.trans (of_agents rfl)

end Rests

namespace Placed

variable {s s' : Process}

theorem of_same (hs : Placed s) (hgrows : Grows s s') (hrests : Rests s s')
    (hregistered : s'.registered = s.registered) (hsms : s'.registry.sms = s.registry.sms) :
    Placed s' := by
  refine ⟨fun a state hstate => ?_, fun f h hf => ?_, fun f => ?_⟩
  · rcases hrests a state hstate with hbefore | hrest
    · exact hs.settled a state hbefore
    · exact hrest
  · rw [hregistered] at hf
    obtain ⟨handle, hhandle, hkey⟩ := hs.keyed f h hf
    obtain ⟨handle', hhandle', hsm, -⟩ := hgrows.handles h handle hhandle
    exact ⟨handle', hhandle', by rw [hsm, hkey]⟩
  · rw [hregistered, hsms]
    exact hs.keys f

/-- The parts of the invariant that are about objects, for a step that changes no object. -/
theorem of_objects (hs : Placed s) (hobjects : s'.objects = s.objects) (hrests : Rests s s') :
    Placed s' := by
  obtain ⟨-, hregistry, hregistered, -⟩ : s'.handles = s.handles ∧ s'.registry = s.registry ∧
      s'.registered = s.registered ∧ s'.staleReads = s.staleReads := by
    simpa [Process.objects] using hobjects
  exact hs.of_same (.of_objects hobjects) hrests hregistered (by rw [hregistry])

theorem stop (hs : Placed s) (a : Nat) (order : Enumeration UInt32) : Placed (s.stop a order) := by
  have hrests := Rests.stop s a order
  rcases s.stop_cases a order with hsame | hclear
  · rw [hsame]
    exact hs
  · rw [hclear] at hrests ⊢
    refine ⟨fun b state hstate => ?_, fun f h hf => ?_, fun f => Iff.rfl⟩
    · rcases hrests b state hstate with hbefore | hrest
      · exact hs.settled b state hbefore
      · exact hrest
    · cases hf

/-- An agent with an interface has stopped and left the registry empty. -/
theorem not_holds_stop (hs : Placed s) {a : Nat} {order : Enumeration UInt32} {h : Nat}
    (hinterface : ((s.stop a order).interface a).isSome = true) : ¬Holds (s.stop a order) h := by
  cases hbefore : s.interface a with
  | none =>
    rw [Process.stop, hbefore] at hinterface
    simp [hbefore] at hinterface
  | some state =>
    obtain ⟨hbegun, hresting⟩ := hs.settled a state hbefore
    simp only [Process.stop, hbefore, hbegun, hresting, or_self, if_false]
    exact not_holds_clearRegistry (s := s) order h

theorem registerSm (hs : Placed s) (a : Nat) {h : Nat} (encoder : Bool) {handle : Handle}
    (object : Handle) (hobject : s.handles[h]? = some object) (hsm : object.sm = handle.sm) :
    Placed (s.registerSm a h encoder handle).1 := by
  have hgrows := Grows.registerSm s a h encoder handle
  have hrests := Rests.registerSm s a h encoder handle
  by_cases hok : ((s.interface a).isSome = true ∨ encoder = true) ∧
      handle.sm.ranFunctionId ∉ s.registry.sms ∧ handle.sm.initResult = .success
  · obtain ⟨-, -, hregistered, hsms, -⟩ := Process.registerSm_success (h := h) hok.1 hok.2.1 hok.2.2
    refine ⟨fun b state hstate => ?_, fun f h' hf => ?_, fun f => ?_⟩
    · rcases hrests b state hstate with hbefore | hrest
      · exact hs.settled b state hbefore
      · exact hrest
    · rw [hregistered, UnorderedMap.lookup_insert_ite] at hf
      split at hf
      · rename_i hkey
        cases hf
        obtain ⟨object', hobject', hsm', -⟩ := hgrows.handles h object hobject
        exact ⟨object', hobject', by rw [hsm', hsm, hkey]⟩
      · obtain ⟨handle', hhandle', hkey⟩ := hs.keyed f h' hf
        obtain ⟨handle'', hhandle'', hsm'', -⟩ := hgrows.handles h' handle' hhandle'
        exact ⟨handle'', hhandle'', by rw [hsm'', hkey]⟩
    · rw [hregistered, Finmap.mem_insert, hsms, hs.keys]
  · obtain ⟨-, -, hregistered, hsms⟩ := Process.registerSm_failure (h := h) hok
    exact hs.of_same hgrows hrests hregistered hsms

theorem perform (hs : Placed s) (c : Call) : Placed (c.perform s).1 := by
  have hgrows := Grows.perform s c
  cases c with
  | serviceModelCreateFromC desc allocated =>
    rcases desc with _ | sm <;> cases allocated <;>
      exact hs.of_same hgrows (.of_agents rfl) rfl rfl
  | serviceModelDestroy sm =>
    rcases sm with _ | h
    · exact hs
    · refine hs.of_same hgrows (.of_agents ?_) ?_ ?_ <;> simp only [Call.perform] <;> split <;>
        simp [Process.agents_read, Process.delete, Process.modify]
  | emit sm queued =>
    rcases sm with _ | h
    · exact hs
    · exact hs.of_same hgrows (.of_agents (s.agents_read h)) (s.registered_read h)
        (congrArg SmRegistry.sms (s.registry_read h))
  | agentCreate allocated =>
    cases allocated with
    | false => exact hs
    | true =>
      refine hs.of_objects rfl fun a state hstate => Or.inl ?_
      obtain ⟨agent, hagent, hstate⟩ := Option.bind_eq_some_iff.mp hstate
      have hagent' : (s.agents ++ [({} : Agent)])[a]? = some agent := hagent
      rw [List.getElem?_append] at hagent'
      split at hagent'
      · rw [Process.interface, hagent']
        exact hstate
      · -- A new agent has no interface.
        have hnew := List.mem_singleton.mp (List.mem_of_getElem? hagent')
        rw [hnew] at hstate
        cases hstate
  | agentInit agent encoder =>
    rcases agent with _ | a
    · exact hs
    · exact hs.of_objects (s.objects_init a encoder) (.init s a encoder)
  | agentStart agent encoder connection =>
    rcases agent with _ | a
    · exact hs
    · exact hs.of_objects (s.objects_start a encoder connection) (.start s a encoder connection)
  | agentStop agent order =>
    rcases agent with _ | a
    · exact hs
    · exact hs.stop a order
  | agentDestroy agent order =>
    rcases agent with _ | a
    · exact hs
    · refine ((hs.stop a order).stop a order).of_objects rfl fun b state hstate => Or.inl ?_
      obtain ⟨agent, hagent, hstate⟩ := Option.bind_eq_some_iff.mp hstate
      have hagent' := (List.getElem?_modify _ a _ b).symm.trans hagent
      obtain ⟨before, hbefore, hsame⟩ := Option.map_eq_some_iff.mp hagent'
      split at hsame
      · subst hsame
        cases hstate
      · rw [Process.interface, hbefore, hsame]
        exact hstate
  | agentRegisterSm agent sm encoder =>
    rcases agent with _ | a <;> rcases sm with _ | h <;> try exact hs
    simp only [Call.perform]
    split
    · exact hs
    · rename_i handle hhandle
      have htransferred : Placed ((s.read h).modify h fun handle =>
          { handle with transferredToAgent := true }) := by
        refine hs.of_same ((Grows.read s h).trans (.modify _ h fun _ => ⟨rfl, le_rfl⟩))
          (.of_agents (s.agents_read h)) (s.registered_read h)
          (congrArg SmRegistry.sms (s.registry_read h))
      refine htransferred.registerSm a encoder { handle with transferredToAgent := true } ?_ rfl
      rw [Process.handles_modify, if_pos rfl, Process.handles_read, hhandle]
      rfl

end Placed

theorem placed_after (calls : List Call) : Placed (after calls) := by
  refine final_induction ⟨fun a state hstate => ?_, fun f h hf => ?_, fun f => Iff.rfl⟩
    fun s c _ hs => hs.perform c
  · cases hstate
  · cases hf

end CApi

end LibE3
