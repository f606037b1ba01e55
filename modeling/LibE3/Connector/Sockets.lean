import Mathlib.Init

/-! The sockets of the POSIX connector, as far as a call on them can wait.  A `poll` returns after its
timeout.  An `accept`, `recv` or `send` returns once the peer has done its part; an `accept` also
returns once its socket was shut down. -/

namespace LibE3

namespace Threads

/-- One side of a connection.  Each entry of `incoming` is what a `recv` returns, as the length of
the answer that it gets in `setup_loop`, if it gets one; `room` is what the peer has left to be
sent. -/
structure Connection where
  incoming : List (Option Nat) := []
  ended : Bool := false
  broken : Bool := false
  room : Nat
  deriving DecidableEq, Repr

namespace Connection

variable (c : Connection)

def readable : Bool := !c.incoming.isEmpty || c.ended || c.broken

/-- All of `left` octets can be handed to `send` without waiting, or it fails. -/
def takes (left : Nat) : Bool := c.broken || decide (left ≤ c.room)

/-- A `recv` returns, and what it is answered with can be sent. -/
def answerable : Bool :=
  match c.incoming with
  | [] => c.ended || c.broken
  | none :: _ => true
  | some n :: _ => c.takes (n + 4)

end Connection

/-- What the peer does with a connection. -/
inductive PeerAction
  | write (answer : Option Nat)
  | read (octets : Nat)
  | finish
  | reset
  deriving DecidableEq, Repr

def Connection.peer (c : Connection) : PeerAction → Connection
  | .write answer =>
    if c.ended || c.broken then c else { c with incoming := c.incoming ++ [answer] }
  | .read octets => { c with room := c.room + octets }
  | .finish => { c with ended := true }
  | .reset => { c with broken := true }

/-- A listening socket, with the connections that wait in it, and the connection that was accepted
last.  `listening` says that the descriptor is not negative, `accepted` is `none` where it is. -/
structure Link where
  listening : Bool := false
  shut : Bool := false
  pending : List Connection := []
  accepted : Option Connection := none
  deriving DecidableEq, Repr

inductive LinkAction
  | connect (room : Nat)
  | pending (i : Nat) (action : PeerAction)
  | accepted (action : PeerAction)
  deriving DecidableEq, Repr

/-- What a call comes back with. -/
inductive Outcome
  | ok
  | timeout
  | interrupted
  | failed
  deriving DecidableEq, Repr

namespace Link

variable (l : Link)

def peer : LinkAction → Link
  | .connect room =>
    if l.listening && !l.shut then { l with pending := l.pending ++ [{ room }] } else l
  | .pending i action => { l with pending := l.pending.modify i (·.peer action) }
  | .accepted action => { l with accepted := l.accepted.map (·.peer action) }

/-- `socket`, `bind` and `listen`. -/
def listen : Link := { l with listening := true, shut := false, pending := [] }

/-- `::shutdown` on the listening socket, where there is one. -/
def shutdown : Link := if l.listening then { l with shut := true } else l

/-- An `accept` returns. -/
def acceptable : Bool := !l.pending.isEmpty || l.shut

/-- On a socket that was shut down, `accept` fails or gives a connection that waits there. -/
def accept : Outcome → Option Link
  | .ok =>
    match l.pending with
    | [] => none
    | c :: rest => some { l with pending := rest, accepted := some c }
  | .failed => if l.acceptable then some { l with accepted := none } else none
  | _ => none

def readable : Bool := l.accepted.any Connection.readable

/-- A `recv` that returns data. -/
def recv : Option (Option Nat × Link) :=
  match l.accepted with
  | none => none
  | some c =>
    match c.incoming with
    | [] => none
    | answer :: rest => some (answer, { l with accepted := some { c with incoming := rest } })

/-- A `recv` returns zero or an error. -/
def recvFails : Bool :=
  match l.accepted with
  | none => true
  | some c => c.incoming.isEmpty && c.ended || c.broken

/-- The octets that are left of `left` after a `send`. -/
def send (left : Nat) : Option (Nat × Link) :=
  match l.accepted with
  | none => none
  | some c =>
    if left ≤ c.room then some (0, { l with accepted := some { c with room := c.room - left } })
    else if 0 < c.room then some (left - c.room, { l with accepted := some { c with room := 0 } })
    else none

def sendFails : Bool :=
  match l.accepted with
  | none => true
  | some c => c.broken

/-- The connection takes `left` octets. -/
def takes (left : Nat) : Bool := l.accepted.all (·.takes left)

end Link

/-! ### The peer -/

section Peer

variable {c : Connection} {l : Link} {left : Nat}

theorem Connection.takes_iff : c.takes left = true ↔ c.broken = true ∨ left ≤ c.room := by
  simp [takes]

/-- The peer makes no connection worse. -/
theorem Connection.takes_peer (action : PeerAction) (h : c.takes left = true) :
    (c.peer action).takes left = true := by
  rw [takes_iff] at h ⊢
  cases action with
  | write answer =>
    simp only [peer]
    split <;> exact h
  | read octets => exact h.imp_right fun hroom => Nat.le_add_right_of_le hroom
  | finish => exact h
  | reset => exact Or.inl rfl

theorem Connection.answerable_peer (action : PeerAction) (h : c.answerable = true) :
    (c.peer action).answerable = true := by
  obtain ⟨incoming, ended, broken, room⟩ := c
  cases incoming with
  | nil =>
    have hover : (ended || broken) = true := h
    cases action with
    | write answer =>
      simp only [peer, hover, if_true]
      exact h
    | read octets => exact h
    | finish => simp [peer, answerable]
    | reset => simp [peer, answerable]
  | cons answer rest =>
    cases answer with
    | none => cases action <;> simp only [peer] <;> first | rfl | (split <;> rfl)
    | some n =>
      have hpeer : (Connection.peer _ action).takes (n + 4) = true :=
        Connection.takes_peer action h
      cases action with
      | write answer =>
        simp only [peer]
        split <;> exact h
      | _ => exact hpeer

theorem Connection.readable_peer (action : PeerAction) (h : c.readable = true) :
    (c.peer action).readable = true := by
  cases action with
  | write answer =>
    simp only [peer]
    split
    · exact h
    · simp [readable]
  | read octets => exact h
  | finish => simp [peer, readable]
  | reset => simp [peer, readable]

@[simp] theorem Link.shut_peer (action : LinkAction) : (l.peer action).shut = l.shut := by
  cases action with
  | connect room =>
    simp only [peer]
    split <;> rfl
  | _ => rfl

@[simp] theorem Link.listening_peer (action : LinkAction) :
    (l.peer action).listening = l.listening := by
  cases action with
  | connect room =>
    simp only [peer]
    split <;> rfl
  | _ => rfl

theorem Link.accepted_peer (action : LinkAction) :
    (l.peer action).accepted = l.accepted ∨
      ∃ a, (l.peer action).accepted = l.accepted.map (·.peer a) := by
  cases action with
  | connect room =>
    simp only [peer]
    split <;> exact Or.inl rfl
  | pending i a => exact Or.inl rfl
  | accepted a => exact Or.inr ⟨a, rfl⟩

/-- What the peer cannot spoil about a connection holds of the accepted one after its actions. -/
theorem Link.accepted_all_peer {p : Connection → Bool}
    (hp : ∀ c a, p c = true → p (Connection.peer c a) = true) (action : LinkAction)
    (h : l.accepted.all p = true) : (l.peer action).accepted.all p = true := by
  rcases l.accepted_peer action with hsame | ⟨a, hpeer⟩
  · rwa [hsame]
  · rw [hpeer]
    cases haccepted : l.accepted with
    | none => rfl
    | some c =>
      rw [haccepted] at h
      exact hp c a h

theorem Link.readable_peer (action : LinkAction) (h : l.readable = true) :
    (l.peer action).readable = true := by
  unfold readable at h ⊢
  rcases l.accepted_peer action with hsame | ⟨a, hpeer⟩
  · rwa [hsame]
  · rw [hpeer]
    cases haccepted : l.accepted with
    | none =>
      rw [haccepted] at h
      cases h
    | some c =>
      rw [haccepted] at h
      exact Connection.readable_peer a h

theorem Link.takes_peer (action : LinkAction) (h : l.takes left = true) :
    (l.peer action).takes left = true :=
  Link.accepted_all_peer (fun _ a => Connection.takes_peer a) action h

/-- No connection comes to a socket that was shut down. -/
theorem Link.head_peer (hshut : l.shut = true) (action : LinkAction)
    (h : l.pending.head?.all Connection.answerable = true) :
    (l.peer action).pending.head?.all Connection.answerable = true := by
  cases action with
  | connect room => simpa [peer, hshut] using h
  | accepted a => exact h
  | pending i a =>
    simp only [peer]
    cases hpending : l.pending with
    | nil => simp
    | cons c rest =>
      rw [hpending] at h
      cases i with
      | zero => exact Connection.answerable_peer a h
      | succ i => exact h

theorem Link.pending_peer (action : LinkAction) (h : l.pending ≠ []) :
    (l.peer action).pending ≠ [] := by
  cases action with
  | connect room =>
    simp only [peer]
    split
    · simp
    · exact h
  | accepted a => exact h
  | pending i a => simpa [peer] using h

end Peer

/-! ### The calls -/

section Calls

variable {l l' : Link} {left rest : Nat} {answer : Option Nat}

theorem Connection.readable_of_answerable {c : Connection} (h : c.answerable = true) :
    c.readable = true := by
  obtain ⟨incoming, ended, broken, room⟩ := c
  cases incoming with
  | nil => simpa [answerable, readable] using h
  | cons answer rest => simp [readable]

theorem Link.accept_of_shut (h : l.shut = true) : ∃ l', l.accept .failed = some l' :=
  ⟨_, by simp [accept, acceptable, h]; rfl⟩

theorem Link.accept_of_pending (h : l.pending ≠ []) : ∃ l', l.accept .ok = some l' := by
  cases hpending : l.pending with
  | nil => exact absurd hpending h
  | cons c rest => exact ⟨_, by simp [accept, hpending]; rfl⟩

theorem Link.recv_or_fails (h : ∀ c, l.accepted = some c → c.readable = true) :
    (∃ r, l.recv = some r) ∨ l.recvFails = true := by
  unfold recv recvFails
  cases haccepted : l.accepted with
  | none => exact Or.inr rfl
  | some c =>
    have hreadable := h c haccepted
    cases hincoming : c.incoming with
    | nil => exact Or.inr (by simpa [Connection.readable, hincoming] using hreadable)
    | cons answer rest =>
      simp only [hincoming]
      exact Or.inl ⟨_, rfl⟩

theorem Link.send_or_fails (h : l.takes left = true) :
    (∃ r, l.send left = some r) ∨ l.sendFails = true := by
  unfold takes at h
  unfold send sendFails
  cases haccepted : l.accepted with
  | none => exact Or.inr rfl
  | some c =>
    rw [haccepted] at h
    rcases Connection.takes_iff.mp h with hbroken | hroom
    · exact Or.inr hbroken
    · simp only [if_pos hroom]
      exact Or.inl ⟨_, rfl⟩

/-- What is left after a `send` can be sent. -/
theorem Link.takes_send (hsend : l.send left = some (rest, l')) (h : l.takes left = true) :
    l'.takes rest = true := by
  unfold takes at h
  unfold send at hsend
  cases haccepted : l.accepted with
  | none => simp [haccepted] at hsend
  | some c =>
    simp only [haccepted] at h hsend
    split at hsend
    · cases hsend
      simp [takes, Connection.takes]
    · rename_i hroom
      split at hsend
      · cases hsend
        have hbroken := (Connection.takes_iff.mp h).resolve_right hroom
        simp [takes, Connection.takes, hbroken]
      · cases hsend

theorem Link.takes_recv (hrecv : l.recv = some (answer, l'))
    (h : l.accepted.all Connection.answerable = true) :
    ∀ n, answer = some n → l'.takes (n + 4) = true := by
  unfold recv at hrecv
  cases haccepted : l.accepted with
  | none => simp [haccepted] at hrecv
  | some c =>
    simp only [haccepted] at h hrecv
    cases hincoming : c.incoming with
    | nil => simp [hincoming] at hrecv
    | cons a rest =>
      simp only [hincoming] at hrecv
      cases hrecv
      rintro n rfl
      simpa [Connection.answerable, hincoming, takes, Connection.takes] using h

theorem Link.answerable_accept (haccept : l.accept .ok = some l')
    (h : l.pending.head?.all Connection.answerable = true) :
    l'.accepted.all Connection.answerable = true := by
  simp only [accept] at haccept
  split at haccept
  · cases haccept
  · rename_i hpending
    cases haccept
    rwa [hpending] at h

/-- A connection without room for all of it stops a message. -/
theorem Link.send_blocks (h : l.takes left = false) :
    (l.send left = none ∧ l.sendFails = false) ∨
      ∃ rest l', l.send left = some (rest, l') ∧ rest ≠ 0 ∧
        l'.send rest = none ∧ l'.sendFails = false := by
  unfold takes at h
  cases haccepted : l.accepted with
  | none => simp [haccepted] at h
  | some c =>
    obtain ⟨hbroken, hroom⟩ : c.broken = false ∧ c.room < left := by
      simpa [haccepted, Connection.takes] using h
    by_cases hzero : c.room = 0
    · have hleft : left ≠ 0 := by omega
      exact Or.inl (by simp [send, sendFails, haccepted, hzero, hleft, hbroken])
    · have hsend : l.send left =
          some (left - c.room, { l with accepted := some { c with room := 0 } }) := by
        simp only [send, haccepted]
        rw [if_neg (by omega), if_pos (by omega)]
      have hrest : left - c.room ≠ 0 := by omega
      exact Or.inr ⟨_, _, hsend, hrest, by simp [send, hrest], by simp [sendFails, hbroken]⟩

theorem Link.recv_blocks (h : l.accepted.all Connection.answerable = false) :
    (l.recv = none ∧ l.recvFails = false) ∨
      ∃ n l', l.recv = some (some n, l') ∧ l'.takes (n + 4) = false := by
  cases haccepted : l.accepted with
  | none => simp [haccepted] at h
  | some c =>
    rw [haccepted] at h
    have hanswer : c.answerable = false := h
    unfold Connection.answerable at hanswer
    split at hanswer
    · rename_i hincoming
      exact Or.inl (by simpa [recv, recvFails, haccepted, hincoming] using hanswer)
    · cases hanswer
    · rename_i n rest hincoming
      refine Or.inr ⟨n, { l with accepted := some { c with incoming := rest } }, ?_, hanswer⟩
      simp [recv, haccepted, hincoming]

theorem Link.accept_blocks (h : l.pending.head?.all Connection.answerable = false) :
    ∃ l', l.accept .ok = some l' ∧ l'.accepted.all Connection.answerable = false := by
  cases hpending : l.pending with
  | nil => simp [hpending] at h
  | cons c rest =>
    rw [hpending] at h
    exact ⟨{ l with pending := rest, accepted := some c }, by simp [accept, hpending], h⟩

end Calls

/-! ### The listening socket -/

section Frames

variable {l l' : Link} {outcome : Outcome}

theorem Link.accept_frame (h : l.accept outcome = some l') :
    l'.shut = l.shut ∧ l'.listening = l.listening := by
  cases outcome with
  | ok =>
    simp only [accept] at h
    split at h <;> cases h
    exact ⟨rfl, rfl⟩
  | failed =>
    simp only [accept] at h
    split at h <;> cases h
    exact ⟨rfl, rfl⟩
  | _ => cases h

theorem Link.recv_frame {answer : Option Nat} (h : l.recv = some (answer, l')) :
    l'.shut = l.shut ∧ l'.listening = l.listening := by
  unfold recv at h
  split at h
  · cases h
  split at h <;> cases h
  exact ⟨rfl, rfl⟩

theorem Link.send_frame {left rest : Nat} (h : l.send left = some (rest, l')) :
    l'.shut = l.shut ∧ l'.listening = l.listening := by
  unfold send at h
  split at h
  · cases h
  split at h
  · cases h
    exact ⟨rfl, rfl⟩
  split at h <;> cases h
  exact ⟨rfl, rfl⟩

theorem Link.shut_shutdown (h : l.listening = true) : l.shutdown.shut = true := by
  simp [shutdown, h]

theorem Link.listening_shutdown : l.shutdown.listening = l.listening := by
  unfold shutdown
  split <;> rfl

theorem Link.accepted_shutdown : l.shutdown.accepted = l.accepted := by
  unfold shutdown
  split <;> rfl

end Frames

end Threads

end LibE3
