import LibE3.CApi.Ownership

/-! The registry of a process with several agents.  The agents share it, and the stop of any of them
empties it.  A registered model keeps a function that refers to the interface of the agent through which
it was registered, so that interface must be there as long as the model is. -/

namespace LibE3

namespace CApi

open Transition

/-! ### What the registry holds after a call -/

section Holding

variable {s s' : Process}

theorem holds_congr (hregistered : s'.registered = s.registered) {h : Nat} :
    Holds s' h ↔ Holds s h := by
  unfold Holds
  rw [hregistered]

theorem not_clears_of {c : Call} (hstop : ∀ a order, c ≠ .agentStop (some a) order)
    (hdestroy : ∀ a order, c ≠ .agentDestroy (some a) order) : ¬Clears s c := by
  rintro ⟨a, order, hc | hc, -⟩
  · exact hstop a order hc
  · exact hdestroy a order hc

/-- A call that leaves the registry alone. -/
theorem holds_of_same {c : Call} {h : Nat}
    (hregistered : (c.perform s).1.registered = s.registered)
    (hclears : ¬Clears s c)
    (hcode : ∀ a encoder, c = .agentRegisterSm (some a) (some h) encoder →
      (c.perform s).2.code ≠ .success) :
    Holds (c.perform s).1 h ↔ Holds s h ∧ ¬Clears s c ∨
      ∃ a encoder, c = .agentRegisterSm (some a) (some h) encoder ∧
        (c.perform s).2.code = .success := by
  rw [holds_congr hregistered, and_iff_left hclears]
  refine (or_iff_left ?_).symm
  rintro ⟨a, encoder, hc, hsuccess⟩
  exact hcode a encoder hc hsuccess

theorem stop_of_none {a : Nat} (hnone : s.interface a = none) (order : Enumeration UInt32) :
    s.stop a order = s := by
  rw [Process.stop, hnone]

theorem not_holds_of_stop (hs : Placed s) {a : Nat} (hsome : (s.interface a).isSome = true)
    (order : Enumeration UInt32) (h : Nat) : ¬Holds (s.stop a order) h := by
  obtain ⟨state, hstate⟩ := Option.isSome_iff_exists.mp hsome
  obtain ⟨hbegun, hresting⟩ := hs.settled a state hstate
  simp only [Process.stop, hstate, hbegun, hresting, or_self, if_false]
  exact Placed.not_holds_clearRegistry (s := s) order h

/-- A stop leaves an empty registry empty. -/
theorem not_holds_stop_of_not {h : Nat} (hnot : ¬Holds s h) (a : Nat)
    (order : Enumeration UInt32) : ¬Holds (s.stop a order) h := by
  rcases s.stop_cases a order with hsame | hclear
  · rwa [hsame]
  · rw [hclear]
    exact Placed.not_holds_clearRegistry (s := s) order h

/-- What a registration that succeeds adds. -/
theorem holds_insert (hs : Placed s) {f : UInt32} (hfree : f ∉ s.registry.sms) {h₀ h : Nat}
    (hregistered : s'.registered = s.registered.insert f h₀) :
    Holds s' h ↔ Holds s h ∨ h = h₀ := by
  unfold Holds
  simp only [hregistered, UnorderedMap.lookup_insert_ite]
  constructor
  · rintro ⟨g, hg⟩
    split at hg
    · exact .inr (Option.some.inj hg).symm
    · exact .inl ⟨g, hg⟩
  · rintro (⟨g, hg⟩ | rfl)
    · refine ⟨g, ?_⟩
      rw [if_neg]
      · exact hg
      · rintro rfl
        refine hfree ((hs.keys g).mp ?_)
        exact Finmap.mem_iff.mpr ⟨h, hg⟩
    · exact ⟨f, if_pos rfl⟩

/-- The state in which `e3_agent_register_sm` hands the object to the agent. -/
def handedOver (s : Process) (h : Nat) : Process :=
  (s.read h).modify h fun handle => { handle with transferredToAgent := true }

theorem perform_agentRegisterSm {a h : Nat} {encoder : Bool} {handle : Handle}
    (hhandle : s.handles[h]? = some handle) :
    (Call.agentRegisterSm (some a) (some h) encoder).perform s =
      (((handedOver s h).registerSm a h encoder handle).1,
        { code := ((handedOver s h).registerSm a h encoder handle).2 }) := by
  simp only [Call.perform, hhandle]
  rfl

theorem interface_handedOver (a h : Nat) : (handedOver s h).interface a = s.interface a :=
  s.interface_read h a

theorem registry_handedOver (h : Nat) : (handedOver s h).registry = s.registry := s.registry_read h

theorem registered_handedOver (h : Nat) : (handedOver s h).registered = s.registered :=
  s.registered_read h

/-- What the registry holds after a call: what it held, unless an agent with an interface is stopped or
destroyed, and a handle whose registration succeeds. -/
theorem holds_perform (hs : Placed s) (c : Call) (h : Nat) :
    Holds (c.perform s).1 h ↔ Holds s h ∧ ¬Clears s c ∨
      ∃ a encoder, c = .agentRegisterSm (some a) (some h) encoder ∧
        (c.perform s).2.code = .success := by
  cases c with
  | serviceModelCreateFromC desc allocated =>
    refine holds_of_same ?_ (not_clears_of (by simp) (by simp)) (by simp)
    cases desc <;> cases allocated <;> rfl
  | serviceModelDestroy sm =>
    refine holds_of_same ?_ (not_clears_of (by simp) (by simp)) (by simp)
    cases sm with
    | none => rfl
    | some h =>
      simp only [Call.perform]
      split
      · exact s.registered_read h
      · exact s.registered_read h
  | emit sm queued =>
    refine holds_of_same ?_ (not_clears_of (by simp) (by simp)) (by simp)
    cases sm with
    | none => rfl
    | some h => exact s.registered_read h
  | agentCreate allocated =>
    refine holds_of_same ?_ (not_clears_of (by simp) (by simp)) (by simp)
    cases allocated <;> rfl
  | agentInit agent encoder =>
    refine holds_of_same ?_ (not_clears_of (by simp) (by simp)) (by simp)
    cases agent with
    | none => rfl
    | some a => exact congrArg (fun o => o.2.2.1) (s.objects_init a encoder)
  | agentStart agent encoder connection =>
    refine holds_of_same ?_ (not_clears_of (by simp) (by simp)) (by simp)
    cases agent with
    | none => rfl
    | some a => exact congrArg (fun o => o.2.2.1) (s.objects_start a encoder connection)
  | agentStop agent order =>
    cases agent with
    | none => exact holds_of_same rfl (not_clears_of (by simp) (by simp)) (by simp)
    | some a =>
      by_cases hsome : (s.interface a).isSome = true
      · refine iff_of_false (not_holds_of_stop hs hsome order h) ?_
        rintro (⟨-, hnot⟩ | ⟨_, _, hc, -⟩)
        · exact hnot ⟨a, order, .inl rfl, hsome⟩
        · cases hc
      · have hnone := Option.not_isSome_iff_eq_none.mp hsome
        refine holds_of_same (congrArg _ (stop_of_none hnone order)) ?_ (by simp)
        rintro ⟨b, order', hc | hc, hb⟩ <;> cases hc
        exact hsome hb
  | agentDestroy agent order =>
    cases agent with
    | none => exact holds_of_same rfl (not_clears_of (by simp) (by simp)) (by simp)
    | some a =>
      by_cases hsome : (s.interface a).isSome = true
      · refine iff_of_false ?_ ?_
        · exact not_holds_stop_of_not (not_holds_of_stop hs hsome order h) a order
        · rintro (⟨-, hnot⟩ | ⟨_, _, hc, -⟩)
          · exact hnot ⟨a, order, .inr rfl, hsome⟩
          · cases hc
      · have hnone := Option.not_isSome_iff_eq_none.mp hsome
        refine holds_of_same ?_ ?_ (by simp)
        · simp only [Call.perform, Process.destroyAgent, stop_of_none hnone]
        · rintro ⟨b, order', hc | hc, hb⟩ <;> cases hc
          exact hsome hb
  | agentRegisterSm agent sm encoder =>
    cases agent with
    | none => exact holds_of_same (by cases sm <;> rfl) (not_clears_of (by simp) (by simp)) (by simp)
    | some a =>
      cases sm with
      | none => exact holds_of_same rfl (not_clears_of (by simp) (by simp)) (by simp)
      | some h₀ =>
        have hclears : ¬Clears s (.agentRegisterSm (some a) (some h₀) encoder) :=
          not_clears_of (by simp) (by simp)
        cases hhandle : s.handles[h₀]? with
        | none =>
          refine holds_of_same ?_ hclears fun _ _ _ => ?_ <;>
            simp [Call.perform, hhandle]
        | some handle =>
          by_cases hok : ((s.interface a).isSome = true ∨ encoder = true) ∧
              handle.sm.ranFunctionId ∉ s.registry.sms ∧ handle.sm.initResult = .success
          · have hsuccess := Process.registerSm_success (s := handedOver s h₀) (h := h₀)
              (by rw [interface_handedOver]; exact hok.1)
              (by rw [registry_handedOver]; exact hok.2.1) hok.2.2
            rw [registered_handedOver] at hsuccess
            rw [perform_agentRegisterSm hhandle, and_iff_left hclears,
              holds_insert hs hok.2.1 hsuccess.2.2.1]
            refine or_congr_right ⟨fun heq => ⟨a, encoder, by rw [heq], hsuccess.1⟩, ?_⟩
            rintro ⟨_, _, hc, -⟩
            cases hc
            rfl
          · have hfailure := Process.registerSm_failure (s := handedOver s h₀) (h := h₀)
              (by rw [interface_handedOver, registry_handedOver]; exact hok)
            rw [registered_handedOver] at hfailure
            refine holds_of_same ?_ hclears fun _ _ _ => ?_ <;>
              rw [perform_agentRegisterSm hhandle]
            · exact hfailure.2.2.1
            · exact hfailure.1

end Holding

/-! ### The agent of a registration -/

/-- The agent has an interface and has not been destroyed. -/
def Serving (s : Process) (a : Nat) : Prop :=
  ∃ agent, s.agents[a]? = some agent ∧ agent.destroyed = false ∧ agent.interface.isSome = true

/-- The call names an agent that has not been destroyed, or none, and hands over no handle that was
deleted or is registered already. -/
def NamesLive (s : Process) : Call → Prop
  | .agentInit agent _ | .agentStart agent _ _ | .agentStop agent _ | .agentDestroy agent _ =>
    Alive s agent
  | .agentRegisterSm agent sm _ => Alive s agent ∧ ∀ h, sm = some h →
    (∀ handle, s.handles[h]? = some handle → handle.deletions = 0) ∧ ¬Holds s h
  | _ => True

section Serving

variable {s s' : Process} {a b : Nat}

theorem Serving.of_agents (h : Serving s a) (hagents : s'.agents = s.agents) : Serving s' a := by
  obtain ⟨agent, hagent, hrest⟩ := h
  exact ⟨agent, by rw [hagents, hagent], hrest⟩

theorem Serving.interface (h : Serving s a) : (s.interface a).isSome = true := by
  obtain ⟨agent, hagent, -, hinterface⟩ := h
  rw [Process.interface, hagent]
  exact hinterface

theorem Serving.setInterface (h : Serving s a) (b : Nat) (state : AgentState) :
    Serving (s.setInterface b state) a := by
  obtain ⟨agent, hagent, hdestroyed, hinterface⟩ := h
  unfold Serving Process.setInterface
  simp only [List.getElem?_modify, hagent, Option.map_eq_map, Option.map_some, Option.some.injEq,
    exists_eq_left']
  split
  · exact ⟨hdestroyed, rfl⟩
  · exact ⟨hdestroyed, hinterface⟩

theorem serving_setInterface (h : Alive s (some a)) (state : AgentState) :
    Serving (s.setInterface a state) a := by
  obtain ⟨agent, hagent, hdestroyed⟩ := h a rfl
  refine ⟨{ agent with interface := some state }, ?_, hdestroyed, rfl⟩
  simp [Process.setInterface, hagent]

theorem Serving.init (h : Serving s a) (b : Nat) (encoder : Bool) :
    Serving (s.init b encoder).1 a := by
  unfold Process.init
  split
  · exact h
  · split
    · exact h.setInterface b _
    · exact h

theorem Serving.ensureInit (h : Serving s a) (b : Nat) (encoder : Bool) :
    Serving (s.ensureInit b encoder).1 a := by
  unfold Process.ensureInit
  split
  · exact h
  · exact h.init b encoder

/-- An agent that a registration or a start has initialised serves. -/
theorem serving_ensureInit (h : Alive s (some a)) {encoder : Bool}
    (hcode : (s.ensureInit a encoder).2 = .success) : Serving (s.ensureInit a encoder).1 a := by
  by_cases hsome : (s.interface a).isSome = true
  · rw [Process.ensureInit, if_pos hsome]
    obtain ⟨agent, hagent, hdestroyed⟩ := h a rfl
    rw [Process.interface, hagent] at hsome
    exact ⟨agent, hagent, hdestroyed, hsome⟩
  · rw [Process.ensureInit, if_neg hsome, Process.init, if_neg hsome] at hcode ⊢
    cases encoder with
    | true => exact serving_setInterface h _
    | false => cases hcode

theorem agents_registerSm (s : Process) (b h : Nat) (encoder : Bool) (handle : Handle) :
    (s.registerSm b h encoder handle).1.agents = (s.ensureInit b encoder).1.agents := by
  unfold Process.registerSm
  dsimp only
  split
  · rfl
  · split <;> rfl

/-- An agent goes on serving until an agent with an interface is stopped or destroyed. -/
theorem Serving.perform (h : Serving s a) {c : Call} (hclears : ¬Clears s c) :
    Serving (c.perform s).1 a := by
  cases c with
  | serviceModelCreateFromC desc allocated =>
    refine h.of_agents ?_
    cases desc <;> cases allocated <;> rfl
  | serviceModelDestroy sm =>
    refine h.of_agents ?_
    cases sm with
    | none => rfl
    | some j =>
      simp only [Call.perform]
      split
      · exact s.agents_read j
      · exact s.agents_read j
  | emit sm queued =>
    refine h.of_agents ?_
    cases sm with
    | none => rfl
    | some j => exact s.agents_read j
  | agentCreate allocated =>
    cases allocated with
    | false => exact h
    | true =>
      obtain ⟨agent, hagent, hrest⟩ := h
      have hlt := (List.getElem?_eq_some_iff.mp hagent).1
      refine ⟨agent, ?_, hrest⟩
      exact (List.getElem?_append_left hlt).trans hagent
  | agentInit agent encoder =>
    cases agent with
    | none => exact h
    | some b => exact h.init b encoder
  | agentStart agent encoder connection =>
    cases agent with
    | none => exact h
    | some b =>
      have hinit := h.ensureInit b encoder
      simp only [Call.perform, Process.start]
      split
      · exact hinit
      · split
        · exact hinit
        · split
          · exact hinit.setInterface b _
          · exact hinit.setInterface b _
  | agentStop agent order =>
    cases agent with
    | none => exact h
    | some b =>
      have hnone : s.interface b = none :=
        Option.not_isSome_iff_eq_none.mp fun hsome => hclears ⟨b, order, .inl rfl, hsome⟩
      exact h.of_agents (congrArg _ (stop_of_none hnone order))
  | agentDestroy agent order =>
    cases agent with
    | none => exact h
    | some b =>
      have hnone : s.interface b = none :=
        Option.not_isSome_iff_eq_none.mp fun hsome => hclears ⟨b, order, .inr rfl, hsome⟩
      have hne : b ≠ a := by
        rintro rfl
        have hsome := h.interface
        rw [hnone] at hsome
        cases hsome
      obtain ⟨agent, hagent, hrest⟩ := h
      refine ⟨agent, ?_, hrest⟩
      simp only [Call.perform, Process.destroyAgent, stop_of_none hnone, List.getElem?_modify,
        if_neg hne, hagent]
      rfl
  | agentRegisterSm agent sm encoder =>
    cases agent with
    | none => exact h.of_agents (by cases sm <;> rfl)
    | some b =>
      cases sm with
      | none => exact h
      | some j =>
        cases hhandle : s.handles[j]? with
        | none => exact h.of_agents (by simp [Call.perform, hhandle])
        | some handle =>
          rw [perform_agentRegisterSm hhandle]
          have hhanded : Serving (handedOver s j) a := h.of_agents (s.agents_read j)
          exact (hhanded.ensureInit b encoder).of_agents (agents_registerSm _ b j encoder handle)

/-- A registration succeeds only with an agent that serves from then on. -/
theorem serving_of_registration {h : Nat} {encoder : Bool} (halive : Alive s (some a))
    (hcode : ((Call.agentRegisterSm (some a) (some h) encoder).perform s).2.code = .success) :
    Serving ((Call.agentRegisterSm (some a) (some h) encoder).perform s).1 a := by
  cases hhandle : s.handles[h]? with
  | none => simp [Call.perform, hhandle] at hcode
  | some handle =>
    rw [perform_agentRegisterSm hhandle] at hcode ⊢
    have hinit : ((handedOver s h).ensureInit a encoder).2 = .success := by
      by_contra hne
      refine (Process.registerSm_failure (h := h) fun hok => hne ?_).1 hcode
      exact Process.ensureInit_code.mpr hok.1
    have halive' : Alive (handedOver s h) (some a) := by
      intro b hb
      obtain ⟨object, hobject, hdestroyed⟩ := halive b hb
      exact ⟨object, (congrArg (·[b]?) (s.agents_read h)).trans hobject, hdestroyed⟩
    exact (serving_ensureInit halive' hinit).of_agents (agents_registerSm _ a h encoder handle)

end Serving

/-! ### The handles of the registry -/

/-- What the registry holds is not deleted, and destroying it does nothing. -/
def Intact (s : Process) : Prop :=
  ∀ h, Holds s h → ∃ handle : Handle, s.handles[h]? = some handle ∧ handle.deletions = 0 ∧
    handle.transferredToAgent = true

section Intact

variable {s : Process} {h j : Nat}

theorem handles_handedOver (h j : Nat) :
    (handedOver s h).handles[j]? = if h = j then
      (s.handles[j]?).map fun handle => { handle with transferredToAgent := true }
    else s.handles[j]? := by
  rw [handedOver, Process.handles_modify, Process.handles_read]

theorem handles_registerSm_of_ne (hne : h ≠ j) (a : Nat) (encoder : Bool) (handle : Handle) :
    (s.registerSm a h encoder handle).1.handles[j]? = s.handles[j]? := by
  obtain ⟨hhandles, -⟩ := s.ensureInit_same a encoder
  have hmodify : ∀ (s' : Process) (f : Handle → Handle), s'.handles[j]? = s.handles[j]? →
      (s'.modify h f).handles[j]? = s.handles[j]? := fun s' f hs' => by
    rw [Process.handles_modify, if_neg hne, hs']
  have hinit : (s.ensureInit a encoder).1.handles[j]? = s.handles[j]? := by rw [hhandles]
  unfold Process.registerSm
  dsimp only
  split
  · exact hmodify _ _ hinit
  · split
    · exact hmodify _ _ hinit
    · exact hmodify _ _ (hmodify _ _ hinit)

/-- A handle that the registry holds is left alone by every call but the stop or destruction of an
agent with an interface. -/
theorem Intact.handles_perform (hintact : Intact s) {c : Call} (hc : NamesLive s c)
    (hclears : ¬Clears s c) (hheld : Holds s j) :
    (c.perform s).1.handles[j]? = s.handles[j]? := by
  obtain ⟨object, hobject, -, htransferred⟩ := hintact j hheld
  cases c with
  | serviceModelCreateFromC desc allocated =>
    cases desc with
    | none => rfl
    | some sm =>
      cases allocated with
      | false => rfl
      | true => exact List.getElem?_append_left (List.getElem?_eq_some_iff.mp hobject).1
  | serviceModelDestroy sm =>
    cases sm with
    | none => rfl
    | some h =>
      simp only [Call.perform]
      split
      · rw [Process.handles_read]
      · -- The call deletes a handle that was never transferred.
        rename_i hnot
        rw [Process.delete, Process.handles_modify, if_neg, Process.handles_read]
        rintro rfl
        exact hnot (by rw [hobject]; exact htransferred)
  | emit sm queued =>
    cases sm with
    | none => rfl
    | some h => exact congrArg (·[j]?) (s.handles_read h)
  | agentCreate allocated => cases allocated <;> rfl
  | agentInit agent encoder =>
    cases agent with
    | none => rfl
    | some a => exact congrArg (fun o => o.1[j]?) (s.objects_init a encoder)
  | agentStart agent encoder connection =>
    cases agent with
    | none => rfl
    | some a => exact congrArg (fun o => o.1[j]?) (s.objects_start a encoder connection)
  | agentStop agent order =>
    cases agent with
    | none => rfl
    | some a =>
      have hnone : s.interface a = none :=
        Option.not_isSome_iff_eq_none.mp fun hsome => hclears ⟨a, order, .inl rfl, hsome⟩
      exact congrArg (·.handles[j]?) (stop_of_none hnone order)
  | agentDestroy agent order =>
    cases agent with
    | none => rfl
    | some a =>
      have hnone : s.interface a = none :=
        Option.not_isSome_iff_eq_none.mp fun hsome => hclears ⟨a, order, .inr rfl, hsome⟩
      simp only [Call.perform, Process.destroyAgent, stop_of_none hnone]
  | agentRegisterSm agent sm encoder =>
    cases agent with
    | none => cases sm <;> rfl
    | some a =>
      cases sm with
      | none => rfl
      | some h =>
        cases hhandle : s.handles[h]? with
        | none => simp [Call.perform, hhandle]
        | some handle =>
          have hne : h ≠ j := by
            rintro rfl
            exact (hc.2 h rfl).2 hheld
          rw [perform_agentRegisterSm hhandle, handles_registerSm_of_ne hne, handles_handedOver,
            if_neg hne]

/-- A handle that was not deleted is not deleted by its successful registration. -/
theorem handle_of_registration {a : Nat} {encoder : Bool}
    (halive : ∀ handle, s.handles[h]? = some handle → handle.deletions = 0)
    (hcode : ((Call.agentRegisterSm (some a) (some h) encoder).perform s).2.code = .success) :
    ∃ handle : Handle,
      ((Call.agentRegisterSm (some a) (some h) encoder).perform s).1.handles[h]? = some handle ∧
        handle.deletions = 0 ∧ handle.transferredToAgent = true := by
  cases hhandle : s.handles[h]? with
  | none => simp [Call.perform, hhandle] at hcode
  | some handle =>
    rw [perform_agentRegisterSm hhandle] at hcode ⊢
    have hok : (((handedOver s h).interface a).isSome = true ∨ encoder = true) ∧
        handle.sm.ranFunctionId ∉ (handedOver s h).registry.sms ∧
        handle.sm.initResult = .success := by
      by_contra hfail
      exact (Process.registerSm_failure (h := h) hfail).1 hcode
    obtain ⟨-, hhandles, -⟩ := Process.registerSm_success (h := h) hok.1 hok.2.1 hok.2.2
    refine ⟨{ handle with transferredToAgent := true, emitter := true }, ?_, halive handle hhandle, rfl⟩
    rw [hhandles, Process.handles_modify, if_pos rfl, handles_handedOver, if_pos rfl, hhandle]
    rfl

theorem Intact.perform (hintact : Intact s) (hs : Placed s) {c : Call} (hc : NamesLive s c) :
    Intact (c.perform s).1 := by
  intro j hheld
  rcases (holds_perform hs c j).mp hheld with ⟨hbefore, hclears⟩ | ⟨a, encoder, rfl, hcode⟩
  · rw [hintact.handles_perform hc hclears hbefore]
    exact hintact j hbefore
  · exact handle_of_registration (hc.2 j rfl).1 hcode

end Intact

/-! ### Runs -/

/-- What holds of every call of a run and the calls before it. -/
theorem forall_call_concat {P : List Call → Call → Prop} (calls : List Call) {c : Call} :
    (∀ before c' rest, calls ++ [c] = before ++ c' :: rest → P before c') ↔
      (∀ before c' rest, calls = before ++ c' :: rest → P before c') ∧ P calls c := by
  constructor
  · intro h
    refine ⟨fun before c' rest heq => h before c' (rest ++ [c]) ?_, h calls c [] rfl⟩
    rw [heq, List.append_assoc]
    rfl
  · rintro ⟨h, hc⟩ before c' rest heq
    rcases List.eq_nil_or_concat rest with rfl | ⟨rest, last, rfl⟩
    · obtain ⟨rfl, hlast⟩ := List.append_inj' heq rfl
      cases hlast
      exact hc
    · rw [List.concat_eq_append, ← List.cons_append, ← List.append_assoc] at heq
      obtain ⟨rfl, -⟩ := List.append_inj' heq rfl
      exact h before c' rest rfl

/-- The registration of `h` through agent `a` has succeeded, and no agent with an interface has been
stopped or destroyed since. -/
def RegisteredSince (calls : List Call) (a h : Nat) : Prop :=
  ∃ before encoder rest, calls = before ++ .agentRegisterSm (some a) (some h) encoder :: rest ∧
    ((Call.agentRegisterSm (some a) (some h) encoder).perform (after before)).2.code = .success ∧
    ∀ mid c later, rest = mid ++ c :: later →
      ¬Clears (after (before ++ .agentRegisterSm (some a) (some h) encoder :: mid)) c

theorem registeredSince_concat (calls : List Call) (c : Call) (a h : Nat) :
    RegisteredSince (calls ++ [c]) a h ↔
      RegisteredSince calls a h ∧ ¬Clears (after calls) c ∨
        ∃ encoder, c = .agentRegisterSm (some a) (some h) encoder ∧
          (c.perform (after calls)).2.code = .success := by
  constructor
  · rintro ⟨before, encoder, rest, heq, hcode, hclears⟩
    rcases List.eq_nil_or_concat rest with rfl | ⟨rest, last, rfl⟩
    · obtain ⟨rfl, hlast⟩ := List.append_inj' heq rfl
      cases hlast
      exact .inr ⟨encoder, rfl, hcode⟩
    · rw [List.concat_eq_append] at heq hclears
      rw [← List.cons_append, ← List.append_assoc] at heq
      obtain ⟨rfl, hlast⟩ := List.append_inj' heq rfl
      cases hlast
      obtain ⟨hbefore, hlast⟩ := (forall_call_concat _).mp hclears
      exact .inl ⟨⟨before, encoder, rest, rfl, hcode, hbefore⟩, hlast⟩
  · rintro (⟨⟨before, encoder, rest, rfl, hcode, hclears⟩, hnot⟩ | ⟨encoder, rfl, hcode⟩)
    · exact ⟨before, encoder, rest ++ [c], by simp, hcode, (forall_call_concat _).mpr ⟨hclears, hnot⟩⟩
    · refine ⟨calls, encoder, [], rfl, hcode, fun mid c' later hrest => ?_⟩
      simp at hrest

/-- The registry holds a model from its successful registration to the next call that empties it. -/
theorem holds_after_iff (calls : List Call) (h : Nat) :
    Holds (after calls) h ↔ ∃ a, RegisteredSince calls a h := by
  -- The run grows at its end.
  induction calls using List.reverseRecOn with
  | nil =>
    refine iff_of_false ?_ ?_
    · rintro ⟨f, hf⟩
      cases hf
    · rintro ⟨a, before, encoder, rest, heq, -⟩
      simp at heq
  | append_singleton calls c ih =>
    rw [after_concat, holds_perform (placed_after calls), ih]
    simp only [registeredSince_concat]
    constructor
    · rintro (⟨⟨a, hsince⟩, hnot⟩ | ⟨a, encoder, hc, hcode⟩)
      · exact ⟨a, .inl ⟨hsince, hnot⟩⟩
      · exact ⟨a, .inr ⟨encoder, hc, hcode⟩⟩
    · rintro ⟨a, ⟨hsince, hnot⟩ | ⟨encoder, hc, hcode⟩⟩
      · exact .inl ⟨⟨a, hsince⟩, hnot⟩
      · exact .inr ⟨a, encoder, hc, hcode⟩

/-- The agent of a registered model is there. -/
theorem serving_after (calls : List Call)
    (hlive : ∀ before c rest, calls = before ++ c :: rest → NamesLive (after before) c) {a h : Nat}
    (hsince : RegisteredSince calls a h) : Serving (after calls) a := by
  induction calls using List.reverseRecOn with
  | nil =>
    obtain ⟨before, encoder, rest, heq, -⟩ := hsince
    simp at heq
  | append_singleton calls c ih =>
    obtain ⟨hlive, hnames⟩ := (forall_call_concat _).mp hlive
    rw [after_concat]
    rcases (registeredSince_concat calls c a h).mp hsince with ⟨hsince, hnot⟩ | ⟨encoder, rfl, hcode⟩
    · exact (ih hlive hsince).perform hnot
    · exact serving_of_registration hnames.1 hcode

theorem intact_after (calls : List Call)
    (hlive : ∀ before c rest, calls = before ++ c :: rest → NamesLive (after before) c) :
    Intact (after calls) := by
  -- The run grows at its end.
  induction calls using List.reverseRecOn with
  | nil =>
    rintro h ⟨f, hf⟩
    cases hf
  | append_singleton calls c ih =>
    obtain ⟨hlive, hnames⟩ := (forall_call_concat _).mp hlive
    rw [after_concat]
    exact (ih hlive).perform (placed_after calls) hnames

/-- In every run of a process, with any number of agents, whose calls name no destroyed agent and hand
over no handle that was deleted or is registered: the registry holds a model exactly from its
successful registration to the next stop or destruction of an agent with an interface, whichever agent
that is; and as long as it does, the handle of the model is not deleted, and the agent through which
the model was registered has not been destroyed and still has its interface, so that what the model
emits goes to an interface that is there. -/
theorem registered_models_iff (calls : List Call)
    (hlive : ∀ before c rest, calls = before ++ c :: rest → NamesLive (after before) c) :
    (∀ h, Holds (after calls) h ↔ ∃ a, RegisteredSince calls a h) ∧
      ∀ a h, RegisteredSince calls a h → Serving (after calls) a ∧
        ∃ handle : Handle, (after calls).handles[h]? = some handle ∧ handle.deletions = 0 := by
  have hheld := holds_after_iff calls
  refine ⟨hheld, fun a h hsince => ⟨serving_after calls hlive hsince, ?_⟩⟩
  obtain ⟨handle, hhandle, hdeleted, -⟩ := intact_after calls hlive h ((hheld h).mpr ⟨a, hsince⟩)
  exact ⟨handle, hhandle, hdeleted⟩

/-- A model is registered through the first of two agents. -/
def sharedRun : List Call :=
  [.serviceModelCreateFromC (some { ranFunctionId := 7 }) true, .agentCreate true, .agentCreate true,
    .agentInit (some 1) true, .agentRegisterSm (some 0) (some 0) true]

/-- The first agent serves the model, which is not deleted; the stop of the second deletes it. -/
theorem registered_models_sharedRun :
    (∃ a, RegisteredSince sharedRun a 0 ∧ Serving (after sharedRun) a ∧
      ∃ handle : Handle, (after sharedRun).handles[0]? = some handle ∧ handle.deletions = 0) ∧
      ¬Holds (after (sharedRun ++ [.agentStop (some 1) (.ascending UInt32)])) 0 := by
  have hnames : ∀ before c rest, sharedRun = before ++ c :: rest → NamesLive (after before) c := by
    refine (forall_call_concat (sharedRun.take 4)).mpr ⟨?_, fun a ha => ?_, fun h hh => ?_⟩
    · refine (forall_call_concat (sharedRun.take 3)).mpr ⟨?_, fun a ha => ?_⟩
      · refine (forall_call_concat (sharedRun.take 2)).mpr ⟨?_, trivial⟩
        refine (forall_call_concat (sharedRun.take 1)).mpr ⟨?_, trivial⟩
        exact (forall_call_concat []).mpr ⟨fun before c rest heq => by simp at heq, trivial⟩
      · cases ha
        exact ⟨{}, by decide +kernel, rfl⟩
    · cases ha
      exact ⟨{}, by decide +kernel, rfl⟩
    · cases hh
      refine ⟨fun handle hhandle => ?_, ?_⟩
      · have hnew : handle = { sm := { ranFunctionId := 7 } } :=
          (Option.some.inj (Eq.trans (by decide +kernel) hhandle)).symm
        rw [hnew]
      · rintro ⟨f, hf⟩
        have hempty : (after (sharedRun.take 4)).registered = ∅ := by decide +kernel
        rw [hempty] at hf
        cases hf
  have hheld : Holds (after sharedRun) 0 := ⟨7, by decide +kernel⟩
  obtain ⟨hiff, hserving⟩ := registered_models_iff sharedRun hnames
  obtain ⟨a, hsince⟩ := (hiff 0).mp hheld
  refine ⟨⟨a, hsince, hserving a 0 hsince⟩, ?_⟩
  rintro ⟨f, hf⟩
  have hempty : (after (sharedRun ++ [.agentStop (some 1) (.ascending UInt32)])).registered = ∅ := by
    decide +kernel
  rw [hempty] at hf
  cases hf

end CApi

end LibE3
