import LibE3.Lib.Transition
import LibE3.Types
import Mathlib.Data.List.Basic

/-! The socket files of `PosixE3Connector` on IPC.  The endpoints of the configuration lose their scheme,
each setup function unlinks the name of its endpoint and binds to what `strncpy` leaves of it in
`sun_path`, and `dispose` unlinks the names.  What is unlinked is the whole name, and what is bound are
its first octets.  Different names can stand for one file, and nothing looks at what `unlink` returns. -/

namespace LibE3

namespace Posix

namespace Endpoints

open Transition

/-! ### Names -/

/-- `endpoint.substr(pos + 3)` for the first `pos` where `"://"` is found. -/
def afterScheme : Octets → Option Octets
  | [] => none
  | octet :: rest =>
    if (lit "://").isPrefixOf (octet :: rest) then some ((octet :: rest).drop 3) else afterScheme rest

def stripUriPrefix (endpoint : Octets) : Octets := (afterScheme endpoint).getD endpoint

/-- What a C function reads of `c_str()`. -/
def cString (s : Octets) : Octets := s.takeWhile (· != 0)

/-- `sizeof(addr.sun_path)`. -/
def SUN_PATH_SIZE : Nat := 108

/-- The path that `bind` gets: `strncpy` leaves the last octet of `sun_path` zero. -/
def sunPath (endpoint : Octets) : Octets := (cString endpoint).take (SUN_PATH_SIZE - 1)

theorem sunPath_eq_iff (endpoint : Octets) :
    sunPath endpoint = cString endpoint ↔ (cString endpoint).length ≤ 107 := by
  refine ⟨fun h => ?_, List.take_of_length_le⟩
  rw [← h, sunPath, List.length_take]
  exact Nat.min_le_left _ _

/-- The scheme is what comes before the first `"://"`. -/
theorem stripUriPrefix_scheme {scheme : Octets} (h : 58 ∉ scheme) (path : Octets) :
    stripUriPrefix (scheme ++ lit "://" ++ path) = path := by
  have hafter : afterScheme (scheme ++ lit "://" ++ path) = some path := by
    induction scheme with
    | nil => rfl
    | cons octet scheme ih =>
      rw [List.mem_cons, not_or] at h
      obtain ⟨hoctet, hscheme⟩ := h
      have hno : (lit "://").isPrefixOf (octet :: (scheme ++ lit "://" ++ path)) = false := by
        have hlit : lit "://" = [58, 47, 47] := rfl
        rw [hlit, List.isPrefixOf, beq_false_of_ne hoctet, Bool.false_and]
      rw [List.cons_append, List.cons_append, afterScheme, if_neg (by rw [hno]; nofun)]
      exact ih hscheme
  rw [stripUriPrefix, hafter]
  rfl

example : stripUriPrefix (lit "ipc:///tmp/dapps/setup") = lit "/tmp/dapps/setup" := by decide

/-! ### Files -/

/-- The three sockets of the connector. -/
inductive Endpoint
  | setup
  | inbound
  | outbound
  deriving DecidableEq, Repr

/-- Whose file is at a place: the socket of an endpoint, or anything else. -/
inductive Owner
  | ours (endpoint : Endpoint)
  | other
  deriving DecidableEq, Repr

/-- The endpoints that the constructor keeps, none of them empty: an empty path would be a name outside
the file system. -/
structure Config where
  endpoint : Endpoint → Octets
  named : ∀ e, cString (stripUriPrefix (endpoint e)) ≠ []

namespace Config

variable (c : Config) (e : Endpoint)

/-- What `unlink` gets. -/
def name : Octets := cString (stripUriPrefix (c.endpoint e))

/-- What `bind` gets. -/
def path : Octets := sunPath (stripUriPrefix (c.endpoint e))

end Config

/-- The files by their places. -/
structure State (Place : Type) where
  files : Place → Option Owner
  /-- The last attempt to set up the endpoint has succeeded. -/
  up : Endpoint → Bool := fun _ => false

/-- What the system does in a setup function: whether the directory of the sockets is there or can be
made, whether `unlink` leaves nothing at the name, whether the connector may `bind` to a free path, and
whether what comes after that succeeds. -/
structure Answers where
  directory : Bool := true
  unlink : Bool := true
  bind : Bool := true
  listen : Bool := true
  deriving DecidableEq, Repr

inductive Call
  /-- `setup_initial_connection`, `setup_inbound_connection` or `setup_outbound_connection`. -/
  | connect (e : Endpoint) (answers : Answers)
  /-- `dispose`, with whether each `unlink` leaves nothing at its name. -/
  | dispose (unlink : Endpoint → Bool)

inductive Outcome
  | bound
  | inUse
  | refused
  | disposed
  deriving DecidableEq, Repr

/-- Every `unlink` removes what is at its name.  It does not for a directory, or without permission. -/
def Call.Removes : Call → Prop
  | .connect _ answers => answers.unlink = true
  | .dispose unlink => ∀ e, unlink e = true

section Files

variable {Place : Type} [DecidableEq Place] (place : Octets → Place)

/-- `unlink`, where `place` is the file that a path stands for.  Directories and links on the way stay as
they are. -/
def unlink (files : Place → Option Owner) (removes : Bool) (name : Octets) : Place → Option Owner :=
  if removes then Function.update files (place name) none else files

/-- The setup functions on IPC: the old file is unlinked, and `bind` fails where there is a file. -/
def connect (c : Config) (s : State Place) (e : Endpoint) (answers : Answers) :
    State Place × Outcome :=
  let failed := Function.update s.up e false
  if answers.directory then
    let files := unlink place s.files answers.unlink (c.name e)
    if answers.bind then
      if (files (place (c.path e))).isSome then ({ files, up := failed }, .inUse)
      else ({ files := Function.update files (place (c.path e)) (some (.ours e))
              up := Function.update s.up e answers.listen },
        if answers.listen then .bound else .refused)
    else ({ files, up := failed }, .refused)
  else ({ s with up := failed }, .refused)

def dispose (c : Config) (s : State Place) (removes : Endpoint → Bool) : State Place where
  files :=
    let setup := unlink place s.files (removes .setup) (c.name .setup)
    let inbound := unlink place setup (removes .inbound) (c.name .inbound)
    unlink place inbound (removes .outbound) (c.name .outbound)

def step (c : Config) (s : State Place) : Call → State Place × Outcome
  | .connect e answers => connect place c s e answers
  | .dispose removes => (dispose place c s removes, .disposed)

/-! ### What every run keeps -/

/-- What an endpoint is used for works: no name is found in use, whatever was at it, every socket that is
set up is reached under its path, and `dispose` leaves none of the files. -/
structure Usable (c : Config) (files : Place → Option Owner) (calls : List Call) : Prop where
  free : ∀ entry ∈ history (step place c) { files } calls, entry.2 ≠ .inUse
  reached : ∀ e, (final (step place c) { files } calls).up e = true →
    (final (step place c) { files } calls).files (place (c.path e)) = some (.ours e)
  removed : ∀ e, (dispose place c (final (step place c) { files } calls) fun _ => true).files
    (place (c.path e)) = none

end Files

section Run

variable {Place : Type} [DecidableEq Place] {place : Octets → Place} {c : Config}
  (hsame : ∀ e, place (c.path e) = place (c.name e))

theorem dispose_name (s : State Place) (e : Endpoint) :
    (dispose place c s fun _ => true).files (place (c.name e)) = none := by
  cases e <;> simp [dispose, unlink, Function.update_apply]

include hsame

/-- Where the file that is bound is the one that is unlinked, a setup function finds its name free. -/
theorem connect_eq (s : State Place) (e : Endpoint) {answers : Answers}
    (hdirectory : answers.directory = true) (hunlink : answers.unlink = true) :
    connect place c s e answers =
      ({ files := Function.update s.files (place (c.name e))
          (if answers.bind then some (.ours e) else none)
         up := Function.update s.up e (answers.bind && answers.listen) },
        if answers.bind && answers.listen then .bound else .refused) := by
  have hfree : unlink place s.files true (c.name e) (place (c.name e)) = none := by
    rw [unlink, if_pos rfl, Function.update_self]
  have hagain : ∀ o, Function.update (unlink place s.files true (c.name e)) (place (c.name e)) o =
      Function.update s.files (place (c.name e)) o := fun o => by
    rw [unlink, if_pos rfl, Function.update_idem]
  simp only [connect, hdirectory, hunlink, if_true, hsame]
  cases hbind : answers.bind with
  | true => simp only [hfree, hagain, if_true, Option.isSome_none, Bool.false_eq_true, if_false,
      Bool.true_and]
  | false => rfl

theorem reached_step (hinj : Function.Injective fun e => place (c.name e)) {s : State Place}
    (h : ∀ e, s.up e = true → s.files (place (c.name e)) = some (.ours e)) {call : Call}
    (hremoves : call.Removes) (e : Endpoint) (hup : (step place c s call).1.up e = true) :
    (step place c s call).1.files (place (c.name e)) = some (.ours e) := by
  cases call with
  | dispose removes => cases hup
  | connect e' answers =>
    cases hdirectory : answers.directory with
    | false =>
      simp only [step, connect, hdirectory, Bool.false_eq_true, if_false] at hup ⊢
      by_cases he : e = e'
      · subst he
        rw [Function.update_self] at hup
        cases hup
      · rw [Function.update_of_ne he] at hup
        exact h e hup
    | true =>
      rw [step, connect_eq hsame s e' hdirectory hremoves] at hup ⊢
      by_cases he : e = e'
      · subst he
        simp only [Function.update_self, Bool.and_eq_true] at hup ⊢
        rw [if_pos hup.1]
      · have hname : place (c.name e) ≠ place (c.name e') := fun heq => he (hinj heq)
        simp only [Function.update_of_ne he, Function.update_of_ne hname] at hup ⊢
        exact h e hup

theorem usable_of_same (hinj : Function.Injective fun e => place (c.name e))
    (files : Place → Option Owner) {calls : List Call} (hremoves : ∀ call ∈ calls, call.Removes) :
    Usable place c files calls := by
  have hreached : ∀ e, (final (step place c) { files } calls).up e = true →
      (final (step place c) { files } calls).files (place (c.name e)) = some (.ours e) :=
    final_induction (P := fun s : State Place =>
      ∀ e, s.up e = true → s.files (place (c.name e)) = some (.ours e))
      (fun _ => nofun) fun s call hcall hs => reached_step hsame hinj hs (hremoves call hcall)
  refine ⟨fun entry hentry => ?_, fun e he => ?_, fun e => ?_⟩
  · obtain ⟨hcall, s, hs⟩ := exists_of_mem_history hentry
    have hentry := hremoves entry.1 hcall
    rw [hs]
    cases hentry' : entry.1 with
    | dispose removes => nofun
    | connect e answers =>
      rw [hentry'] at hentry
      cases hdirectory : answers.directory with
      | false => simp [step, connect, hdirectory]
      | true =>
        rw [step, connect_eq hsame s e hdirectory hentry]
        cases answers.bind <;> cases answers.listen <;> simp
  · rw [hsame]
    exact hreached e he
  · rw [hsame]
    exact dispose_name _ e

end Run

section Failing

variable {Place : Type} [DecidableEq Place] {place : Octets → Place} {c : Config}

/-- A file at the path that is bound stays there, if the name is that of another file. -/
theorem not_usable_of_cut {e : Endpoint} (hcut : place (c.path e) ≠ place (c.name e)) :
    ¬Usable place c (Function.update (fun _ => none) (place (c.path e)) (some .other))
      [.connect e {}] := by
  intro h
  refine h.free (.connect e {}, .inUse) (List.mem_singleton.mpr ?_) rfl
  have hstays : unlink place
      (Function.update (fun _ => none) (place (c.path e)) (some .other)) true (c.name e)
      (place (c.path e)) = some .other := by
    rw [unlink, if_pos rfl, Function.update_of_ne hcut, Function.update_self]
  simp only [step, connect, hstays, Option.isSome_some, if_true]

/-- Of two endpoints whose names are of one file the second takes the file of the first. -/
theorem not_usable_of_shared (hsame : ∀ e, place (c.path e) = place (c.name e)) {e e' : Endpoint}
    (hne : e ≠ e') (hname : place (c.name e) = place (c.name e')) :
    ¬Usable place c (fun _ => none) [.connect e {}, .connect e' {}] := by
  intro h
  have hreached := h.reached e
  simp only [final, step, connect_eq hsame _ _ (rfl : ({} : Answers).directory = true)
    (rfl : ({} : Answers).unlink = true), hsame, hname, Function.update_self, if_true,
    Function.update_of_ne hne, Bool.and_self, forall_const] at hreached
  cases hreached
  exact hne rfl

end Failing

/-- The endpoints of a connector on IPC can be used in every run of setup and dispose calls in which
`unlink` removes what is there, and from every state of the file system, if and only if the part of each
name that is bound stands for the same file as the name, and the three names for different files.  All
of a name is bound if and only if it is at most 107 octets long. -/
theorem usable_iff {Place : Type} [DecidableEq Place] (place : Octets → Place) (c : Config) :
    ((∀ files calls, (∀ call ∈ calls, call.Removes) → Usable place c files calls) ↔
      (∀ e, place (c.path e) = place (c.name e)) ∧
        Function.Injective fun e => place (c.name e)) ∧
    ∀ e, c.path e = c.name e ↔ (c.name e).length ≤ 107 := by
  refine ⟨⟨fun h => ?_, ?_⟩, fun e => sunPath_eq_iff _⟩
  · have hsame : ∀ e, place (c.path e) = place (c.name e) := by
      intro e
      by_contra hcut
      exact not_usable_of_cut hcut (h _ _ (by simp [Call.Removes]))
    refine ⟨hsame, fun e e' hname => ?_⟩
    by_contra hne
    exact not_usable_of_shared hsame hne hname (h _ _ (by simp [Call.Removes]))
  · rintro ⟨hsame, hinj⟩ files calls hremoves
    exact usable_of_same hsame hinj files hremoves

end Endpoints

end Posix

end LibE3
