import LibE3.CApi.Objects

/-! Ownership of the handles.  The view of a caller is what the return codes tell it under the rules
of the header.  In a run in which every registration can succeed and nothing is used after the stop
that deleted it, the view is right after every call. -/

namespace LibE3

namespace CApi

open Transition

/-! ### What the caller knows is so -/

/-- What the view of a caller says about a handle, where `gone` says that the registry held the
handle at a `stop`. -/
def Matches (s : Process) (gone : Prop) (h : Nat) : Option View → Prop
  | none => s.handles[h]? = none ∧ ¬Holds s h
  | some .owned => (∃ handle : Handle, s.handles[h]? = some handle ∧ handle.deletions = 0 ∧
      handle.transferredToAgent = false) ∧ ¬Holds s h
  | some .transferred => ∃ handle : Handle, s.handles[h]? = some handle ∧
      handle.transferredToAgent = true ∧
      (handle.deletions = 0 ∧ Holds s h ∨ handle.deletions = 1 ∧ ¬Holds s h ∧ gone)
  | some .released => (∃ handle : Handle, s.handles[h]? = some handle ∧ handle.deletions = 1) ∧
      ¬Holds s h

/-- No handle was read after its deletion, and the views of the caller are right. -/
structure Tracked (s : Process) (view : Nat → Option View) (gone : Nat → Prop) : Prop where
  noStaleRead : s.staleReads = []
  matched : ∀ h, Matches s (gone h) h (view h)

theorem Matches.mono {s s' : Process} {gone gone' : Prop} {h : Nat} {view : Option View}
    (hm : Matches s gone h view) (hhandle : s'.handles[h]? = s.handles[h]?)
    (hholds : Holds s' h ↔ Holds s h) (hgone : gone → gone') : Matches s' gone' h view := by
  rcases view with _ | _ | _ | _
  · exact ⟨hhandle.trans hm.1, fun hheld => hm.2 (hholds.mp hheld)⟩
  · exact ⟨by rw [hhandle]; exact hm.1, fun hheld => hm.2 (hholds.mp hheld)⟩
  · obtain ⟨handle, hsome, htransferred, hcases⟩ := hm
    refine ⟨handle, hhandle.trans hsome, htransferred, ?_⟩
    rw [hholds]
    exact hcases.imp_right fun ⟨hdeleted, hfree, hg⟩ => ⟨hdeleted, hfree, hgone hg⟩
  · exact ⟨by rw [hhandle]; exact hm.1, fun hheld => hm.2 (hholds.mp hheld)⟩

/-- What the registry holds has been transferred and is not deleted. -/
theorem Matches.of_holds {s : Process} {gone : Prop} {h : Nat} {view : Option View}
    (hm : Matches s gone h view) (hheld : Holds s h) :
    view = some .transferred ∧ ∃ handle : Handle, s.handles[h]? = some handle ∧
      handle.transferredToAgent = true ∧ handle.deletions = 0 := by
  rcases view with _ | _ | _ | _
  · exact absurd hheld hm.2
  · exact absurd hheld hm.2
  · obtain ⟨handle, hsome, htransferred, hcases⟩ := hm
    refine ⟨rfl, handle, hsome, htransferred, ?_⟩
    rcases hcases with ⟨halive, -⟩ | ⟨-, hfree, -⟩
    · exact halive
    · exact absurd hheld hfree
  · exact absurd hheld hm.2

namespace Tracked

variable {s s' : Process} {view : Nat → Option View} {gone gone' : Nat → Prop}

theorem of_objects (ht : Tracked s view gone) (hobjects : s'.objects = s.objects)
    (hgone : ∀ h, gone h → gone' h) : Tracked s' view gone' := by
  obtain ⟨hhandles, -, hregistered, hstale⟩ : s'.handles = s.handles ∧ s'.registry = s.registry ∧
      s'.registered = s.registered ∧ s'.staleReads = s.staleReads := by
    simpa [Process.objects] using hobjects
  refine ⟨hstale.trans ht.noStaleRead, fun h => (ht.matched h).mono (by rw [hhandles]) ?_ (hgone h)⟩
  simp only [Holds, hregistered]

theorem of_view {view' : Nat → Option View} (ht : Tracked s view gone)
    (hview : ∀ h, view' h = view h) : Tracked s view' gone :=
  ⟨ht.noStaleRead, fun h => by rw [hview]; exact ht.matched h⟩

/-- A handle that the caller may use is not deleted, unless a `stop` has deleted it. -/
theorem read_usable (ht : Tracked s view gone) {h : Nat} (hgone : ¬gone h)
    (hview : view h = some .owned ∨ view h = some .transferred) : s.read h = s := by
  refine s.read_of_alive fun handle hhandle => ?_
  have hm := ht.matched h
  rcases hview with hview | hview
  · rw [hview] at hm
    obtain ⟨⟨handle', hsome, halive, -⟩, -⟩ := hm
    cases hhandle.symm.trans hsome
    exact halive
  · rw [hview] at hm
    obtain ⟨handle', hsome, -, hcases⟩ := hm
    cases hhandle.symm.trans hsome
    rcases hcases with ⟨halive, -⟩ | ⟨-, -, hg⟩
    · exact halive
    · exact absurd hg hgone

/-- The registry deletes what was transferred to it, once. -/
theorem stop (ht : Tracked s view gone) (hs : Placed s) (a : Nat) (order : Enumeration UInt32) :
    Tracked (s.stop a order) view
      fun h => gone h ∨ (s.interface a).isSome = true ∧ Holds s h := by
  cases hinterface : s.interface a with
  | none =>
    have hsame : s.stop a order = s := by rw [Process.stop, hinterface]
    rw [hsame]
    exact ht.of_objects rfl fun h hg => Or.inl hg
  | some state =>
    have hclear : (s.stop a order).objects = (s.clearRegistry order).objects := by
      obtain ⟨hbegun, hresting⟩ := hs.settled a state hinterface
      simp only [Process.stop, hinterface, hbegun, hresting, or_self, if_false]
      rfl
    refine Tracked.of_objects (s := s.clearRegistry order) ⟨?_, fun h => ?_⟩ hclear fun h hg => hg
    · refine (s.staleReads_sweep (hs.nodup_heldHandles order) fun h hheld handle hhandle => ?_).trans
        ht.noStaleRead
      obtain ⟨-, handle', hsome, -, halive⟩ :=
        (ht.matched h).of_holds ((Placed.mem_heldHandles order).mp hheld)
      cases hhandle.symm.trans hsome
      exact halive
    · have hhandles := hs.handles_clearRegistry order h
      have hfree := Placed.not_holds_clearRegistry (s := s) order h
      by_cases hheld : Holds s h
      · obtain ⟨hview, handle, hsome, htransferred, halive⟩ := (ht.matched h).of_holds hheld
        rw [hview]
        refine ⟨{ handle with deletions := handle.deletions + 1 }, ?_, htransferred,
          Or.inr ⟨by simp [halive], hfree, Or.inr ⟨rfl, hheld⟩⟩⟩
        rw [hhandles.1 hheld, hsome]
        rfl
      · exact (ht.matched h).mono (hhandles.2 hheld)
          (iff_of_false hfree hheld) Or.inl

theorem create (ht : Tracked s view gone) (hs : Placed s) (sm : ServiceModel) :
    Tracked { s with handles := s.handles ++ [{ sm }] }
      (fun h => if some s.handles.length = some h then some .owned else view h) gone := by
  refine ⟨ht.noStaleRead, fun h => ?_⟩
  split
  · rename_i hnew
    cases hnew
    refine ⟨⟨{ sm }, by simp, rfl, rfl⟩, ?_⟩
    rintro ⟨f, hf⟩
    obtain ⟨handle, hhandle, -⟩ := hs.keyed f _ hf
    simp at hhandle
  · rename_i hold
    refine (ht.matched h).mono ?_ Iff.rfl id
    rw [List.getElem?_append]
    split
    · rfl
    · rename_i hlen
      have hne : h ≠ s.handles.length := fun heq => hold (by rw [heq])
      rw [List.getElem?_eq_none (by simp; omega), List.getElem?_eq_none (by omega)]

/-- The caller destroys a handle that it owns. -/
theorem destroy_owned (ht : Tracked s view gone) {h : Nat} (hview : view h = some .owned) :
    Tracked (s.delete h) (fun h' => if h = h' ∧ view h' = some .owned then some .released else view h')
      gone := by
  refine ⟨ht.noStaleRead, fun h' => ?_⟩
  have hm := ht.matched h'
  have hhandles := s.handles_modify h
    (fun handle => { handle with deletions := handle.deletions + 1 }) h'
  by_cases hh : h = h'
  · subst hh
    rw [hview] at hm
    obtain ⟨⟨handle, hsome, halive, -⟩, hfree⟩ := hm
    simp only [hview, and_self, if_true]
    refine ⟨⟨{ handle with deletions := handle.deletions + 1 }, ?_, by simp [halive]⟩, hfree⟩
    exact hhandles.trans (by rw [if_pos rfl, hsome]; rfl)
  · simp only [hh, false_and, if_false]
    exact hm.mono (hhandles.trans (if_neg hh)) Iff.rfl id

/-- A registration that succeeds moves the handle to the registry. -/
theorem register (ht : Tracked s view gone) (hs : Placed s) {a h : Nat} {encoder : Bool}
    {handle : Handle} (hhandle : s.handles[h]? = some handle) (hview : view h = some .owned)
    (hok : Registrable s a h encoder) :
    let s' := (s.read h).modify h fun handle => { handle with transferredToAgent := true }
    (s'.registerSm a h encoder handle).2 = .success ∧
    Tracked (s'.registerSm a h encoder handle).1
      (fun h' => if h = h' then some .transferred else view h') gone := by
  intro s'
  have hm := ht.matched h
  rw [hview] at hm
  obtain ⟨⟨handle', hsome, halive, -⟩, hfree⟩ := hm
  cases hhandle.symm.trans hsome
  have hread : s.read h = s := s.read_of_alive fun handle' hhandle' => by
    cases hhandle.symm.trans hhandle'
    exact halive
  have hs' : s' = s.modify h fun handle => { handle with transferredToAgent := true } := by
    show (s.read h).modify h _ = _
    rw [hread]
  obtain ⟨hinit, hmodel⟩ := hok
  obtain ⟨hkey, hsm⟩ := hmodel handle hhandle
  rw [hs']
  obtain ⟨hcode, hhandles, hregistered, -, hstale⟩ :=
    Process.registerSm_success (h := h) (a := a)
      (s := s.modify h fun handle => { handle with transferredToAgent := true }) hinit hkey hsm
  refine ⟨hcode, hstale.trans ht.noStaleRead, fun h' => ?_⟩
  have hnew : handle.sm.ranFunctionId ∉ s.registered := fun hmem => hkey ((hs.keys _).mp hmem)
  have hlookup : ∀ h', Holds ((s.modify h fun handle =>
      { handle with transferredToAgent := true }).registerSm a h encoder handle).1 h' ↔
      h' = h ∨ Holds s h' := by
    intro h'
    unfold Holds
    rw [hregistered]
    simp only [UnorderedMap.lookup_insert_ite]
    constructor
    · rintro ⟨f, hf⟩
      split at hf
      · exact Or.inl (Option.some.inj hf).symm
      · exact Or.inr ⟨f, hf⟩
    · rintro (rfl | ⟨f, hf⟩)
      · exact ⟨handle.sm.ranFunctionId, if_pos rfl⟩
      · refine ⟨f, (if_neg ?_).trans hf⟩
        -- The RAN function was free, so no entry is overwritten.
        rintro rfl
        exact hnew (Finmap.mem_iff.mpr ⟨h', hf⟩)
  by_cases hh : h = h'
  · subst hh
    simp only [if_true]
    refine ⟨{ handle with transferredToAgent := true, emitter := true }, ?_, rfl,
      Or.inl ⟨halive, (hlookup h).mpr (Or.inl rfl)⟩⟩
    rw [hhandles, Process.handles_modify, if_pos rfl, Process.handles_modify, if_pos rfl, hhandle]
    rfl
  · simp only [hh, if_false]
    refine (ht.matched h').mono ?_ ((hlookup h').trans ?_) id
    · rw [hhandles, Process.handles_modify, if_neg hh, Process.handles_modify, if_neg hh]
    · simp [Ne.symm hh]

end Tracked

/-! ### Runs -/

/-- The registry held the handle when an agent was stopped or destroyed. -/
def Gone (calls : List Call) (h : Nat) : Prop :=
  ∃ before c mid, calls = before ++ c :: mid ∧ Clears (after before) c ∧ Holds (after before) h

theorem Gone.concat {calls : List Call} {h : Nat} (hg : Gone calls h) (c : Call) :
    Gone (calls ++ [c]) h := by
  obtain ⟨before, c', mid, rfl, hclears, hheld⟩ := hg
  exact ⟨before, c', mid ++ [c], by simp, hclears, hheld⟩

theorem after_concat (calls : List Call) (c : Call) :
    after (calls ++ [c]) = (c.perform (after calls)).1 := final_concat _ _ _ _

theorem viewOf_concat (calls : List Call) (c : Call) (h : Nat) :
    viewOf h (past (calls ++ [c])) =
      viewStep h (viewOf h (past calls)) (c, (c.perform (after calls)).2) := by
  rw [past, history_concat, viewOf, List.foldl_append]
  rfl

theorem Tracked.perform {calls : List Call} {c : Call}
    (ht : Tracked (after calls) (fun h => viewOf h (past calls)) (Gone calls))
    (hpermitted : Permitted (after calls) (past calls) c)
    (hregisters : ∀ a h encoder, c = .agentRegisterSm (some a) (some h) encoder →
      Registrable (after calls) a h encoder)
    (huses : ∀ h, Gone calls h → ¬Uses h c) :
    Tracked (after (calls ++ [c])) (fun h => viewOf h (past (calls ++ [c])))
      (Gone (calls ++ [c])) := by
  have hs := placed_after calls
  have hgone : ∀ h, Gone calls h → Gone (calls ++ [c]) h := fun h hg => hg.concat c
  simp only [after_concat, viewOf_concat]
  -- Most calls change neither an object nor a view.
  have hsame : ∀ {s : Process}, s.objects = (after calls).objects →
      Tracked s (fun h => viewOf h (past calls)) (Gone (calls ++ [c])) := fun hobjects =>
    ht.of_objects hobjects hgone
  have hstop : ∀ a order, (c = .agentStop (some a) order ∨ c = .agentDestroy (some a) order) →
      ∀ h, (Gone calls h ∨ ((after calls).interface a).isSome = true ∧ Holds (after calls) h) →
        Gone (calls ++ [c]) h := by
    rintro a order hc h (hg | ⟨hinterface, hheld⟩)
    · exact hgone h hg
    · exact ⟨calls, c, [], rfl, ⟨a, order, hc, hinterface⟩, hheld⟩
  cases c with
  | serviceModelCreateFromC desc allocated =>
    rcases desc with _ | sm
    · exact hsame rfl
    · cases allocated with
      | false => exact hsame rfl
      | true => exact (ht.create hs sm).of_objects rfl hgone
  | serviceModelDestroy sm =>
    rcases sm with _ | h
    · exact hsame rfl
    · have hread := ht.read_usable (fun hg => huses h hg (Or.inl rfl)) hpermitted
      have hm := ht.matched h
      simp only [Call.perform, hread, viewStep]
      rcases hpermitted with hview | hview
      · rw [hview] at hm
        obtain ⟨⟨handle, hsome, -, howned⟩, -⟩ := hm
        simp only [hsome, Option.any_some, howned]
        exact (ht.destroy_owned hview).of_objects rfl hgone
      · rw [hview] at hm
        obtain ⟨handle, hsome, htransferred, -⟩ := hm
        simp only [hsome, Option.any_some, htransferred, if_true]
        refine (hsame rfl).of_view fun h' => if_neg ?_
        rintro ⟨rfl, howned⟩
        cases hview.symm.trans howned
  | emit sm queued =>
    rcases sm with _ | h
    · exact hsame rfl
    · have hread := ht.read_usable (fun hg => huses h hg (Or.inr ⟨queued, rfl⟩)) hpermitted
      simp only [Call.perform, hread]
      exact hsame rfl
  | agentCreate allocated => cases allocated <;> exact hsame rfl
  | agentInit agent encoder =>
    rcases agent with _ | a
    · exact hsame rfl
    · exact hsame ((after calls).objects_init a encoder)
  | agentStart agent encoder connection =>
    rcases agent with _ | a
    · exact hsame rfl
    · exact hsame ((after calls).objects_start a encoder connection)
  | agentStop agent order =>
    rcases agent with _ | a
    · exact hsame rfl
    · exact (ht.stop hs a order).of_objects rfl (hstop a order (Or.inl rfl))
  | agentDestroy agent order =>
    rcases agent with _ | a
    · exact hsame rfl
    · have hfirst := ht.stop hs a order
      refine (hfirst.stop (hs.stop a order) a order).of_objects rfl fun h hg => ?_
      -- The second stop finds nothing that the first has left.
      exact hstop a order (Or.inr rfl) h (hg.resolve_right fun hleft =>
        hs.not_holds_stop hleft.1 hleft.2)
  | agentRegisterSm agent sm encoder =>
    rcases sm with _ | h
    · rcases agent with _ | a <;> exact hsame rfl
    rcases agent with _ | a
    · refine (hsame rfl).of_view fun h' => if_neg fun hsuccess => ?_
      cases hsuccess.2
    obtain ⟨hview, -⟩ := hpermitted
    have hm := ht.matched h
    rw [hview] at hm
    obtain ⟨⟨handle, hsome, -⟩, -⟩ := hm
    obtain ⟨hcode, hregistered⟩ := ht.register hs hsome hview (hregisters a h encoder rfl)
    simp only [Call.perform, hsome, hcode, viewStep, and_true]
    exact hregistered.of_objects rfl hgone

theorem FollowsHeader.of_append {calls rest : List Call} (h : FollowsHeader (calls ++ rest)) :
    FollowsHeader calls := fun before c mid heq => h before c (mid ++ rest) (by simp [heq])

theorem Careful.of_append {calls rest : List Call} (h : Careful (calls ++ rest)) : Careful calls :=
  ⟨fun before a j encoder mid heq => h.registers before a j encoder (mid ++ rest) (by simp [heq]),
    fun before c mid c' last j heq => h.uses before c mid c' (last ++ rest) j (by simp [heq])⟩

/-- In a careful run the caller's views are right throughout. -/
theorem tracked_after {calls : List Call} (hfollows : FollowsHeader calls)
    (hcareful : Careful calls) :
    Tracked (after calls) (fun h => viewOf h (past calls)) (Gone calls) := by
  induction calls using List.reverseRecOn with
  | nil =>
    refine ⟨rfl, fun h => ⟨rfl, ?_⟩⟩
    rintro ⟨f, hf⟩
    cases hf
  | append_singleton calls c ih =>
    refine (ih hfollows.of_append hcareful.of_append).perform (hfollows calls c [] rfl) ?_ ?_
    · rintro a h encoder rfl
      exact hcareful.registers calls a h encoder [] rfl
    · rintro h ⟨before, c', mid, rfl, hclears, hheld⟩
      exact hcareful.uses before c' mid c [] h (by simp) hclears hheld

theorem deletions_le_one {s : Process} {gone : Prop} {h : Nat} {view : Option View} {handle : Handle}
    (hm : Matches s gone h view) (hhandle : s.handles[h]? = some handle) :
    handle.deletions ≤ 1 := by
  rcases view with _ | _ | _ | _
  · cases hm.1.symm.trans hhandle
  · obtain ⟨⟨handle', hsome, halive, -⟩, -⟩ := hm
    cases hsome.symm.trans hhandle
    omega
  · obtain ⟨handle', hsome, -, hcases⟩ := hm
    cases hsome.symm.trans hhandle
    omega
  · obtain ⟨⟨handle', hsome, hdeleted⟩, -⟩ := hm
    cases hsome.symm.trans hhandle
    omega

/-- A clearing call deletes every handle that the registry holds. -/
theorem deleted_of_clears {s : Process} (hs : Placed s) {c : Call} (hclears : Clears s c) {h : Nat}
    (hheld : Holds s h) :
    ∃ handle : Handle, (c.perform s).1.handles[h]? = some handle ∧ 1 ≤ handle.deletions := by
  obtain ⟨a, order, hc, hinterface⟩ := hclears
  obtain ⟨state, hstate⟩ := Option.isSome_iff_exists.mp hinterface
  obtain ⟨f, hf⟩ := hheld
  obtain ⟨handle, hhandle, -⟩ := hs.keyed f h hf
  have hstop : ∃ handle : Handle, (s.stop a order).handles[h]? = some handle ∧
      1 ≤ handle.deletions := by
    obtain ⟨hbegun, hresting⟩ := hs.settled a state hstate
    refine ⟨{ handle with deletions := handle.deletions + 1 }, ?_, Nat.le_add_left _ _⟩
    simp only [Process.stop, hstate, hbegun, hresting, or_self, if_false]
    refine ((hs.handles_clearRegistry order h).1 ⟨f, hf⟩).trans ?_
    rw [hhandle]
    rfl
  rcases hc with rfl | rfl
  · exact hstop
  · obtain ⟨handle', hhandle', hdeleted⟩ := hstop
    obtain ⟨handle'', hhandle'', -, hle⟩ :=
      (Grows.stop (s.stop a order) a order).handles h handle' hhandle'
    exact ⟨handle'', hhandle'', hdeleted.trans hle⟩

/-- A use of a deleted handle is a stale read. -/
theorem staleReads_of_uses {s : Process} {c : Call} {h : Nat} (huses : Uses h c) {handle : Handle}
    (hhandle : s.handles[h]? = some handle) (hdeleted : 1 ≤ handle.deletions) :
    (c.perform s).1.staleReads ≠ [] := by
  have hread : (s.read h).staleReads = s.staleReads ++ [h] := by
    have hany : (s.handles[h]?).any (·.deletions ≠ 0) = true := by
      rw [hhandle]
      simp
      omega
    rw [Process.read, if_pos hany]
  rcases huses with rfl | ⟨queued, rfl⟩
  · simp only [Call.perform]
    split
    · simp [hread]
    · simp [Process.delete, Process.modify, hread]
  · simp [Call.perform, hread]

/-- A registration that cannot succeed fails and deletes the handle. -/
theorem deleted_of_not_registrable {s : Process} {a h : Nat} {encoder : Bool}
    (hfail : ¬Registrable s a h encoder) :
    ((Call.agentRegisterSm (some a) (some h) encoder).perform s).2.code ≠ .success ∧
    ∀ handle : Handle,
      ((Call.agentRegisterSm (some a) (some h) encoder).perform s).1.handles[h]? = some handle →
        1 ≤ handle.deletions := by
  simp only [Call.perform]
  split
  · rename_i hnone
    refine ⟨fun hcode => ?_, fun handle hhandle => ?_⟩
    · cases hcode
    · cases hnone.symm.trans hhandle
  · rename_i object hobject
    have hrefused : ¬(((((s.read h).modify h fun handle =>
        { handle with transferredToAgent := true }).interface a).isSome = true ∨ encoder = true) ∧
        object.sm.ranFunctionId ∉ ((s.read h).modify h fun handle =>
          { handle with transferredToAgent := true }).registry.sms ∧
        object.sm.initResult = .success) := by
      rintro ⟨hinit, hmodel⟩
      refine hfail ⟨?_, fun handle hhandle => ?_⟩
      · rw [← s.interface_read h a]
        exact hinit
      · cases hobject.symm.trans hhandle
        rw [← s.registry_read h]
        exact hmodel
    obtain ⟨hcode, hdeleted, -⟩ := Process.registerSm_failure (h := h) hrefused
    refine ⟨hcode, fun handle hhandle => ?_⟩
    obtain ⟨handle', hhandle', hcount⟩ := hdeleted { object with transferredToAgent := true } (by
      rw [Process.handles_modify, if_pos rfl, Process.handles_read, hobject]
      rfl)
    cases hhandle'.symm.trans hhandle
    omega

/-- For a caller that follows the header, no handle is read after its deletion or deleted twice and
every failed registration leaves the handle to the caller, if and only if every registration can
succeed and no handle is used after a stop that found it registered. -/
theorem ownershipKept_iff (calls : List Call) (hfollows : FollowsHeader calls) :
    OwnershipKept calls ↔ Careful calls := by
  constructor
  · intro hkept
    refine ⟨fun before a h encoder rest heq => ?_, ?_⟩
    · by_contra hfail
      obtain ⟨hcode, hdeleted⟩ := deleted_of_not_registrable hfail
      obtain ⟨handle, hhandle, halive, -⟩ := hkept.failed before (some a) h encoder rest heq hcode
      have hcount := hdeleted handle hhandle
      omega
    · intro before c mid c' rest h heq hclears hheld huses
      obtain ⟨handle, hhandle, hdeleted⟩ := deleted_of_clears (placed_after before) hclears hheld
      obtain ⟨handle', hhandle', -, hle⟩ := (Grows.run _ mid).handles h handle hhandle
      have hstale := staleReads_of_uses huses hhandle' (hdeleted.trans hle)
      -- What was read stale once stays recorded to the end of the run.
      have hrun : after calls = final Call.perform
          (c'.perform (final Call.perform (c.perform (after before)).1 mid)).1 rest := by
        rw [heq]
        exact (final_append _ _ _ _).trans (final_append _ _ _ _)
      have hgrows := (Grows.run
        (c'.perform (final Call.perform (c.perform (after before)).1 mid)).1 rest).staleReads
      rw [← hrun, hkept.noStaleRead] at hgrows
      exact hstale (List.prefix_nil.mp hgrows)
  · intro hcareful
    have htracked := tracked_after hfollows hcareful
    refine ⟨htracked.noStaleRead, fun h handle hhandle =>
      deletions_le_one (htracked.matched h) hhandle, ?_⟩
    rintro before agent h encoder rest rfl hfailed
    have hbefore := tracked_after hfollows.of_append hcareful.of_append
    obtain ⟨hview, -⟩ := hfollows before _ rest rfl
    have hm := hbefore.matched h
    rw [hview] at hm
    obtain ⟨⟨handle, hsome, halive, howned⟩, -⟩ := hm
    rcases agent with _ | a
    · exact ⟨handle, hsome, halive, howned⟩
    · have hok := hcareful.registers before a h encoder rest rfl
      obtain ⟨hcode, -⟩ := hbefore.register (placed_after before) hsome hview hok
      refine absurd ?_ hfailed
      simp only [Call.perform, hsome]
      exact hcode

theorem followsHeader_nil : FollowsHeader [] := fun before c rest heq => by simp at heq

theorem FollowsHeader.concat (calls : List Call) (h : FollowsHeader calls) {c : Call}
    (hc : Permitted (after calls) (past calls) c) : FollowsHeader (calls ++ [c]) := by
  intro before c' rest heq
  rcases List.eq_nil_or_concat rest with rfl | ⟨rest, last, rfl⟩
  · obtain ⟨rfl, hlast⟩ := List.append_inj' heq rfl
    cases hlast
    exact hc
  · rw [List.concat_eq_append, ← List.cons_append, ← List.append_assoc] at heq
    obtain ⟨rfl, -⟩ := List.append_inj' heq rfl
    exact h before c' rest rfl

/-- A model for function 7 is registered. -/
def registeredRun : List Call :=
  [.serviceModelCreateFromC (some { ranFunctionId := 7 }) true, .agentCreate true,
    .agentRegisterSm (some 0) (some 0) true]

theorem followsHeader_registeredRun : FollowsHeader registeredRun := by
  refine .concat (registeredRun.take 2) (.concat (registeredRun.take 1)
    (.concat [] followsHeader_nil trivial) trivial) ⟨by decide +kernel, fun a ha => ?_⟩
  cases ha
  exact ⟨{}, by decide +kernel, rfl⟩

theorem ownershipKept_registeredRun : FollowsHeader registeredRun ∧ OwnershipKept registeredRun := by
  refine ⟨followsHeader_registeredRun,
    (ownershipKept_iff registeredRun followsHeader_registeredRun).mpr ⟨?_, ?_⟩⟩
  · intro before a h encoder rest heq
    rcases before with _ | ⟨_, _ | ⟨_, _ | ⟨_, before⟩⟩⟩ <;>
      simp only [registeredRun, List.nil_append, List.cons_append, List.cons.injEq] at heq
    · cases heq.1
    · cases heq.2.1
    · obtain ⟨rfl, rfl, hc, -⟩ := heq
      cases hc
      refine ⟨Or.inr rfl, fun handle hhandle => ?_⟩
      have hsm : handle = { sm := { ranFunctionId := 7 } } :=
        (Option.some.inj (Eq.trans (by decide +kernel) hhandle)).symm
      rw [hsm]
      decide +kernel
    · simp at heq
  · rintro before c mid c' rest h heq ⟨a, order, hc, -⟩ - -
    have hmem : c ∈ registeredRun := by simp [heq]
    rcases hc with rfl | rfl <;> simp [registeredRun] at hmem

/-- A second model for the function is refused, and the caller destroys it as the header says. -/
def refusedRun : List Call :=
  registeredRun ++ [.serviceModelCreateFromC (some { ranFunctionId := 7 }) true,
    .agentRegisterSm (some 0) (some 1) true, .serviceModelDestroy (some 1)]

/-- The refusal has deleted the handle that the caller then passes to
`e3_service_model_destroy`. -/
theorem not_ownershipKept_refusedRun :
    FollowsHeader refusedRun ∧
    (past refusedRun).map (·.2.code) =
      [.success, .success, .success, .success, .smAlreadyRegistered, .success] ∧
    ((after (refusedRun.take 5)).handles[1]?).map (·.deletions) = some 1 ∧
    (after refusedRun).staleReads = [1] ∧
    ¬OwnershipKept refusedRun := by
  have hstale : (after refusedRun).staleReads = [1] := by decide +kernel
  refine ⟨?_, by decide +kernel, by decide +kernel, hstale, fun h => ?_⟩
  · refine .concat (refusedRun.take 5) (.concat (refusedRun.take 4)
      (.concat (refusedRun.take 3) followsHeader_registeredRun trivial)
      ⟨by decide +kernel, fun a ha => ?_⟩) (Or.inl (by decide +kernel))
    cases ha
    exact ⟨⟨some .initialized, false⟩, by decide +kernel, rfl⟩
  · have hempty := h.noStaleRead
    rw [hstale] at hempty
    cases hempty

end CApi

end LibE3
