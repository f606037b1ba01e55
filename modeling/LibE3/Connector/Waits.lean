import LibE3.Connector.Threads
import LibE3.Lib.Transition

/-! What the threads need of the peer to return, once `stop` has set `should_stop_`.  The subscriber
thread needs nothing: it polls before it receives, and `shutdown` wakes its `accept`.  The setup and
the publisher thread need what `setupClear` and `publisherClear` say, and where they do not have it
they can come to wait for the peer. -/

namespace LibE3

namespace Threads

open Transition.System

/-- The setup thread can return with what the peer has done so far, once `stop` has set
`should_stop_`. -/
def setupClear (l : Link) : Setup → Bool
  | .poll | .accept => l.pending.head?.all Connection.answerable
  | .recv => l.accepted.all Connection.answerable
  | .handle (some n) => l.takes (n + 4)
  | .send left => l.takes left
  | _ => true

/-- The publisher thread can return with what the peer has done so far, once `stop` has set
`should_stop_`. -/
def publisherClear (ring : Ring) (l : Link) : Publisher → Bool
  | .listen => false
  | .accept => !l.pending.isEmpty
  | .pop =>
    match ring with
    | some n :: _ => l.takes (n + 4)
    | _ => true
  | .encode (some n) => l.takes (n + 4)
  | .send left => l.takes left
  | _ => true

/-- Neither thread needs more of the peer.  The subscriber thread never does. -/
def State.clear (s : State) : Bool :=
  setupClear s.setupLink s.setup && publisherClear s.ring s.outboundLink s.publisher

/-- A thread that sends what the connection does not take comes to wait.  `place` is where the thread
is with so many octets left. -/
theorem canBlock_of_send {σ : Type} {step : σ → Outcome → Option σ} {done : σ → Prop}
    (place : Link → Nat → σ) (hdone : ∀ l left, ¬done (place l left))
    (hsent : ∀ l left rest l', l.send left = some (rest, l') → rest ≠ 0 →
      step (place l left) .ok = some (place l' rest))
    (hwaits : ∀ l left outcome, l.send left = none → l.sendFails = false →
      step (place l left) outcome = none)
    {l : Link} {left : Nat} (h : l.takes left = false) : CanBlock step done (place l left) := by
  rcases Link.send_blocks h with ⟨hsend, hfails⟩ | ⟨rest, l', hsend, hrest, hnone, hfails⟩
  · exact .blocked (hdone l left) fun outcome => hwaits l left outcome hsend hfails
  · exact .next (hsent l left rest l' hsend hrest)
      (.blocked (hdone l' rest) fun outcome => hwaits l' rest outcome hnone hfails)

/-! ### The steps that may wait -/

section Steps

variable (shouldStop shutdownRequested : Bool) (ring : Ring) (l : Link) (left : Nat)
  (outcome : Outcome)

theorem setupStep_at_poll : setupStep shouldStop l .poll outcome =
    match outcome with
    | .ok => if l.acceptable then some (l, .accept) else none
    | _ => some (l, .recheck) := by
  cases outcome <;> rfl

theorem setupStep_at_accept : setupStep shouldStop l .accept outcome =
    match outcome with
    | .ok => (l.accept .ok).map fun l' => (l', .recv)
    | .failed => (l.accept .failed).map fun l' => (l', .recheck)
    | _ => none := by
  cases outcome <;> rfl

theorem setupStep_at_recv : setupStep shouldStop l .recv outcome =
    match outcome with
    | .ok => l.recv.map fun r => (r.2, .handle r.1)
    | .failed => if l.recvFails then some (l, .recheck) else none
    | _ => none := by
  cases outcome <;> rfl

theorem setupStep_at_send : setupStep shouldStop l (.send left) outcome =
    match outcome with
    | .ok => (l.send left).map fun r => (r.2, if r.1 = 0 then .check else .send r.1)
    | .failed => if l.sendFails then some (l, .check) else none
    | _ => none := by
  cases outcome <;> rfl

theorem subscriberStep_at_poll : subscriberStep shouldStop shutdownRequested l .poll outcome =
    match outcome with
    | .ok => if l.acceptable then some (l, .flagCheck) else none
    | .timeout => some (l, .waitCheck)
    | .interrupted => some (l, .flagCheck)
    | .failed => some (l, if shutdownRequested then .flagCheck else .returned) := by
  cases outcome <;> rfl

theorem subscriberStep_at_accept : subscriberStep shouldStop shutdownRequested l .accept outcome =
    match outcome with
    | .ok => (l.accept .ok).map fun l' => (l', .loopCheck)
    | .failed => (l.accept .failed).map fun l' => (l', .returned)
    | _ => none := by
  cases outcome <;> rfl

theorem subscriberStep_at_receivePoll :
    subscriberStep shouldStop shutdownRequested l .receivePoll outcome =
      match outcome with
      | .ok => if l.readable then some (l, .recv) else none
      | _ => some (l, .recheck) := by
  cases outcome <;> rfl

theorem subscriberStep_at_recv : subscriberStep shouldStop shutdownRequested l .recv outcome =
    match outcome with
    | .ok => l.recv.map fun r => (r.2, .handle)
    | .failed => if l.recvFails then some (l, .recheck) else none
    | _ => none := by
  cases outcome <;> rfl

theorem publisherStep_at_accept : publisherStep shouldStop ring l .accept outcome =
    match outcome with
    | .ok => (l.accept .ok).map fun l' => (ring, l', .loopCheck)
    | .failed => (l.accept .failed).map fun l' => (ring, l', .retryCheck)
    | _ => none := by
  cases outcome <;> rfl

theorem publisherStep_at_send : publisherStep shouldStop ring l (.send left) outcome =
    match outcome with
    | .ok => (l.send left).map fun r => (ring, r.2, if r.1 = 0 then .loopCheck else .send r.1)
    | .failed => if l.sendFails then some (ring, l, .loopCheck) else none
    | _ => none := by
  cases outcome <;> rfl

end Steps

/-! ### The setup thread -/

section Setup

variable {shouldStop : Bool} {l l' : Link} {pc pc' : Setup} {outcome : Outcome}

/-- Where the listening socket was shut down and the peer has done enough, the thread has a step. -/
theorem setupStep_enabled (hshut : l.shut = true) (hclear : setupClear l pc = true)
    (hpc : pc ≠ .returned) : ∃ outcome r, setupStep shouldStop l pc outcome = some r := by
  cases pc with
  | check => exact ⟨.ok, _, rfl⟩
  | poll => exact ⟨.timeout, _, rfl⟩
  | accept =>
    obtain ⟨l', haccept⟩ := Link.accept_of_shut hshut
    exact ⟨.failed, _, by simp only [setupStep_at_accept, haccept, Option.map_some]; rfl⟩
  | recv =>
    have hreadable : ∀ c, l.accepted = some c → c.readable = true := by
      intro c haccepted
      simp only [setupClear, haccepted] at hclear
      exact Connection.readable_of_answerable hclear
    rcases Link.recv_or_fails hreadable with ⟨r, hrecv⟩ | hfails
    · exact ⟨.ok, _, by simp only [setupStep_at_recv, hrecv, Option.map_some]; rfl⟩
    · exact ⟨.failed, _, by simp only [setupStep_at_recv, hfails, if_true]; rfl⟩
  | handle answer => cases answer <;> exact ⟨.ok, _, rfl⟩
  | send left =>
    rcases Link.send_or_fails hclear with ⟨r, hsend⟩ | hfails
    · exact ⟨.ok, _, by simp only [setupStep_at_send, hsend, Option.map_some]; rfl⟩
    · exact ⟨.failed, _, by simp only [setupStep_at_send, hfails, if_true]; rfl⟩
  | recheck => exact ⟨.ok, _, rfl⟩
  | returned => exact absurd rfl hpc

/-- Once `should_stop_` is set, no step takes the thread to where it would need more of the peer. -/
theorem setupClear_step (hstep : setupStep true l pc outcome = some (l', pc'))
    (hclear : setupClear l pc = true) : setupClear l' pc' = true := by
  cases pc with
  | check =>
    cases outcome <;> cases hstep
    rfl
  | poll =>
    cases outcome with
    | ok =>
      simp only [setupStep_at_poll] at hstep
      split at hstep
      · cases hstep
        exact hclear
      · cases hstep
    | _ => cases hstep; rfl
  | accept =>
    cases outcome with
    | ok =>
      obtain ⟨k, haccept, hr⟩ := Option.map_eq_some_iff.mp hstep
      cases hr
      exact Link.answerable_accept haccept hclear
    | failed =>
      obtain ⟨k, -, hr⟩ := Option.map_eq_some_iff.mp hstep
      cases hr
      rfl
    | _ => cases hstep
  | recv =>
    cases outcome with
    | ok =>
      obtain ⟨⟨answer, k⟩, hrecv, hr⟩ := Option.map_eq_some_iff.mp hstep
      cases hr
      cases answer with
      | none => rfl
      | some n => exact Link.takes_recv hrecv hclear n rfl
    | failed =>
      simp only [setupStep_at_recv] at hstep
      split at hstep <;> cases hstep
      rfl
    | _ => cases hstep
  | handle answer =>
    cases answer with
    | none =>
      cases outcome <;> cases hstep
      rfl
    | some n =>
      cases outcome with
      | ok =>
        cases hstep
        exact hclear
      | _ => cases hstep
  | send left =>
    cases outcome with
    | ok =>
      obtain ⟨⟨rest, k⟩, hsend, hr⟩ := Option.map_eq_some_iff.mp hstep
      cases hr
      split
      · rfl
      · exact Link.takes_send hsend hclear
    | failed =>
      simp only [setupStep_at_send] at hstep
      split at hstep <;> cases hstep
      rfl
    | _ => cases hstep
  | recheck =>
    cases outcome <;> cases hstep
    rfl
  | returned => cases outcome <;> cases hstep

theorem setupClear_peer (hshut : l.shut = true) (action : LinkAction)
    (hclear : setupClear l pc = true) : setupClear (l.peer action) pc = true := by
  cases pc with
  | poll => exact Link.head_peer hshut action hclear
  | accept => exact Link.head_peer hshut action hclear
  | recv => exact Link.accepted_all_peer (fun _ a => Connection.answerable_peer a) action hclear
  | handle answer =>
    cases answer with
    | none => rfl
    | some n => exact Link.takes_peer action hclear
  | send left => exact Link.takes_peer action hclear
  | check => rfl
  | recheck => rfl
  | returned => rfl

theorem setup_blocks_of_send {left : Nat} (h : l.takes left = false) :
    CanBlock (fun x => setupStep true x.1 x.2) (fun x => x.2 = .returned) (l, .send left) := by
  refine canBlock_of_send (fun l left => (l, Setup.send left)) (by simp) ?_ ?_ h
  · intro l left rest l' hsend hrest
    simp [setupStep_at_send, hsend, hrest]
  · intro l left outcome hsend hfails
    cases outcome <;> simp [setupStep_at_send, hsend, hfails]

theorem setup_blocks_of_recv (h : l.accepted.all Connection.answerable = false) :
    CanBlock (fun x => setupStep true x.1 x.2) (fun x => x.2 = .returned) (l, .recv) := by
  rcases Link.recv_blocks h with ⟨hrecv, hfails⟩ | ⟨n, l', hrecv, htakes⟩
  · refine .blocked (by simp) fun outcome => ?_
    cases outcome <;> simp [setupStep_at_recv, hrecv, hfails]
  · have hstep : setupStep true l .recv .ok = some (l', .handle (some n)) := by
      simp [setupStep_at_recv, hrecv]
    have hanswer : setupStep true l' (.handle (some n)) .ok = some (l', .send (n + 4)) := rfl
    exact .next hstep (.next hanswer (setup_blocks_of_send htakes))

theorem setup_blocks_of_accept (h : l.pending.head?.all Connection.answerable = false) :
    CanBlock (fun x => setupStep true x.1 x.2) (fun x => x.2 = .returned) (l, .accept) := by
  obtain ⟨l', haccept, hanswer⟩ := Link.accept_blocks h
  have hstep : setupStep true l .accept .ok = some (l', .recv) := by
    simp [setupStep_at_accept, haccept]
  exact .next hstep (setup_blocks_of_recv hanswer)

/-- Where the peer has not done enough, the thread can come to wait for it. -/
theorem setup_blocks (h : setupClear l pc = false) :
    CanBlock (fun x => setupStep true x.1 x.2) (fun x => x.2 = .returned) (l, pc) := by
  cases pc with
  | poll =>
    have hready : l.acceptable = true := by
      cases hpending : l.pending with
      | nil => simp [setupClear, hpending] at h
      | cons c rest => simp [Link.acceptable, hpending]
    have hstep : setupStep true l .poll .ok = some (l, .accept) := by
      simp [setupStep_at_poll, hready]
    exact .next hstep (setup_blocks_of_accept h)
  | accept => exact setup_blocks_of_accept h
  | recv => exact setup_blocks_of_recv h
  | handle answer =>
    cases answer with
    | none => cases h
    | some n =>
      have hstep : setupStep true l (.handle (some n)) .ok = some (l, .send (n + 4)) := rfl
      exact .next hstep (setup_blocks_of_send h)
  | send left => exact setup_blocks_of_send h
  | _ => cases h

end Setup

/-! ### The publisher thread -/

section Publisher

variable {shouldStop : Bool} {ring ring' : Ring} {l l' : Link} {pc pc' : Publisher}
  {outcome : Outcome}

theorem publisherStep_enabled (hclear : publisherClear ring l pc = true) (hpc : pc ≠ .returned) :
    ∃ outcome r, publisherStep shouldStop ring l pc outcome = some r := by
  cases pc with
  | accept =>
    obtain ⟨l', haccept⟩ := Link.accept_of_pending (l := l) (by simpa [publisherClear] using hclear)
    exact ⟨.ok, _, by simp only [publisherStep_at_accept, haccept, Option.map_some]; rfl⟩
  | pop => cases ring <;> exact ⟨.ok, _, rfl⟩
  | encode pdu => cases pdu <;> exact ⟨.ok, _, rfl⟩
  | send left =>
    rcases Link.send_or_fails hclear with ⟨r, hsend⟩ | hfails
    · exact ⟨.ok, _, by simp only [publisherStep_at_send, hsend, Option.map_some]; rfl⟩
    · exact ⟨.failed, _, by simp only [publisherStep_at_send, hfails, if_true]; rfl⟩
  | returned => exact absurd rfl hpc
  | _ => exact ⟨.ok, _, rfl⟩

theorem publisherClear_step
    (hstep : publisherStep true ring l pc outcome = some (ring', l', pc'))
    (hclear : publisherClear ring l pc = true) : publisherClear ring' l' pc' = true := by
  cases pc with
  | listen => cases hclear
  | accept =>
    cases outcome with
    | ok =>
      obtain ⟨k, -, hr⟩ := Option.map_eq_some_iff.mp hstep
      cases hr
      rfl
    | failed =>
      obtain ⟨k, -, hr⟩ := Option.map_eq_some_iff.mp hstep
      cases hr
      rfl
    | _ => cases hstep
  | pop =>
    cases outcome with
    | ok =>
      rcases ring with _ | ⟨_ | n, rest⟩
      · cases hstep
        rfl
      · cases hstep
        rfl
      · cases hstep
        exact hclear
    | _ => cases hstep
  | encode pdu =>
    cases outcome with
    | ok =>
      cases pdu with
      | none =>
        cases hstep
        rfl
      | some n =>
        cases hstep
        exact hclear
    | _ => cases pdu <;> cases hstep
  | send left =>
    cases outcome with
    | ok =>
      obtain ⟨⟨rest, k⟩, hsend, hr⟩ := Option.map_eq_some_iff.mp hstep
      cases hr
      split
      · rfl
      · exact Link.takes_send hsend hclear
    | failed =>
      simp only [publisherStep_at_send] at hstep
      split at hstep <;> cases hstep
      rfl
    | _ => cases hstep
  | returned => cases outcome <;> cases hstep
  | _ =>
    cases outcome <;> cases hstep
    rfl

theorem publisherClear_peer (action : LinkAction) (hclear : publisherClear ring l pc = true) :
    publisherClear ring (l.peer action) pc = true := by
  cases pc with
  | accept =>
    have hpending := Link.pending_peer (l := l) action (by simpa [publisherClear] using hclear)
    simpa [publisherClear] using hpending
  | pop =>
    rcases ring with _ | ⟨_ | n, rest⟩
    · rfl
    · rfl
    · exact Link.takes_peer action hclear
  | encode pdu =>
    cases pdu with
    | none => rfl
    | some n => exact Link.takes_peer action hclear
  | send left => exact Link.takes_peer action hclear
  | _ => exact hclear

theorem publisher_blocks_of_send {left : Nat} (h : l.takes left = false) :
    CanBlock (fun x => publisherStep true x.1 x.2.1 x.2.2) (fun x => x.2.2 = .returned)
      (ring, l, .send left) := by
  refine canBlock_of_send (fun l left => (ring, l, Publisher.send left)) (by simp) ?_ ?_ h
  · intro l left rest l' hsend hrest
    simp [publisherStep_at_send, hsend, hrest]
  · intro l left outcome hsend hfails
    cases outcome <;> simp [publisherStep_at_send, hsend, hfails]

/-- An `accept` on a socket that nothing shuts down and no connection waits in. -/
theorem publisher_blocks_of_accept (hpending : l.pending = []) (hshut : l.shut = false) :
    CanBlock (fun x => publisherStep true x.1 x.2.1 x.2.2) (fun x => x.2.2 = .returned)
      (ring, l, .accept) := by
  refine .blocked (by simp) fun outcome => ?_
  cases outcome <;> simp [publisherStep_at_accept, Link.accept, Link.acceptable, hpending, hshut]

theorem publisher_blocks (hshut : l.shut = false) (h : publisherClear ring l pc = false) :
    CanBlock (fun x => publisherStep true x.1 x.2.1 x.2.2) (fun x => x.2.2 = .returned)
      (ring, l, pc) := by
  cases pc with
  | listen =>
    have hstep : publisherStep true ring l .listen .ok = some (ring, l.listen, .accept) := rfl
    exact .next hstep (publisher_blocks_of_accept rfl rfl)
  | accept => exact publisher_blocks_of_accept (by simpa [publisherClear] using h) hshut
  | pop =>
    rcases ring with _ | ⟨_ | n, rest⟩
    · cases h
    · cases h
    · have hpop : publisherStep true (some n :: rest) l .pop .ok =
          some (rest, l, .encode (some n)) := rfl
      have hencode : publisherStep true rest l (.encode (some n)) .ok =
          some (rest, l, .send (n + 4)) := rfl
      exact .next hpop (.next hencode (publisher_blocks_of_send h))
  | encode pdu =>
    cases pdu with
    | none => cases h
    | some n =>
      have hencode : publisherStep true ring l (.encode (some n)) .ok =
          some (ring, l, .send (n + 4)) := rfl
      exact .next hencode (publisher_blocks_of_send h)
  | send left => exact publisher_blocks_of_send h
  | _ => cases h

end Publisher

/-! ### The subscriber thread -/

/-- The thread waits for a connection on the socket that it has made to listen. -/
def Subscriber.waits : Subscriber → Bool
  | .waitCheck | .poll | .flagCheck | .accept => true
  | _ => false

/-- The thread listens before it waits, and polls before it receives. -/
structure SubscriberOk (l : Link) (pc : Subscriber) : Prop where
  listening : pc.waits = true → l.listening = true
  readable : pc = .recv → l.readable = true

section Subscriber

variable {shouldStop shutdownRequested : Bool} {l l' : Link} {pc pc' : Subscriber}
  {outcome : Outcome}

theorem subscriberStep_enabled (hok : SubscriberOk l pc) (haccept : pc = .accept → l.shut = true)
    (hpc : pc ≠ .returned) :
    ∃ outcome r, subscriberStep shouldStop shutdownRequested l pc outcome = some r := by
  cases pc with
  | poll => exact ⟨.timeout, _, rfl⟩
  | receivePoll => exact ⟨.timeout, _, rfl⟩
  | accept =>
    obtain ⟨l', hl'⟩ := Link.accept_of_shut (haccept rfl)
    exact ⟨.failed, _, by simp only [subscriberStep_at_accept, hl', Option.map_some]; rfl⟩
  | recv =>
    have hreadable : ∀ c, l.accepted = some c → c.readable = true := by
      intro c haccepted
      have h := hok.readable rfl
      rw [Link.readable, haccepted] at h
      exact h
    rcases Link.recv_or_fails hreadable with ⟨r, hrecv⟩ | hfails
    · exact ⟨.ok, _, by simp only [subscriberStep_at_recv, hrecv, Option.map_some]; rfl⟩
    · exact ⟨.failed, _, by simp only [subscriberStep_at_recv, hfails, if_true]; rfl⟩
  | returned => exact absurd rfl hpc
  | _ => exact ⟨.ok, _, rfl⟩

theorem SubscriberOk.peer (hok : SubscriberOk l pc) (action : LinkAction) :
    SubscriberOk (l.peer action) pc where
  readable h := Link.readable_peer action (hok.readable h)
  listening h := by
    rw [Link.listening_peer]
    exact hok.listening h

/-- A step that makes the socket listen, a step of the wait, the step to `recv`, or any other. -/
theorem subscriberStep_cases
    (hstep : subscriberStep shouldStop shutdownRequested l pc outcome = some (l', pc')) :
    (l' = l.listen ∧ pc' = .waitCheck) ∨
      (pc.waits = true ∧ l' = l ∧ pc' ≠ .recv ∧ (pc' = .accept → shutdownRequested = false)) ∨
      (l' = l ∧ l.readable = true ∧ pc' = .recv) ∨ (pc'.waits = false ∧ pc' ≠ .recv) := by
  cases pc with
  | listen =>
    cases outcome <;> cases hstep
    · exact Or.inl ⟨rfl, rfl⟩
    · exact Or.inr (Or.inr (Or.inr ⟨rfl, by simp⟩))
  | waitCheck =>
    cases outcome <;> cases hstep
    refine Or.inr (Or.inl ⟨rfl, rfl, ?_⟩)
    split <;> simp
  | poll =>
    refine Or.inr (Or.inl ⟨rfl, ?_⟩)
    cases outcome with
    | ok =>
      simp only [subscriberStep_at_poll] at hstep
      split at hstep <;> cases hstep
      simp
    | failed =>
      cases hstep
      split <;> simp
    | _ =>
      cases hstep
      simp
  | flagCheck =>
    cases outcome <;> cases hstep
    refine Or.inr (Or.inl ⟨rfl, rfl, ?_⟩)
    cases shutdownRequested <;> simp
  | receivePoll =>
    cases outcome with
    | ok =>
      simp only [subscriberStep_at_receivePoll] at hstep
      split at hstep <;> cases hstep
      rename_i hreadable
      exact Or.inr (Or.inr (Or.inl ⟨rfl, hreadable, rfl⟩))
    | _ =>
      cases hstep
      exact Or.inr (Or.inr (Or.inr ⟨rfl, by simp⟩))
  | accept =>
    refine Or.inr (Or.inr (Or.inr ?_))
    cases outcome with
    | ok =>
      obtain ⟨k, -, hr⟩ := Option.map_eq_some_iff.mp hstep
      cases hr
      exact ⟨rfl, by simp⟩
    | failed =>
      obtain ⟨k, -, hr⟩ := Option.map_eq_some_iff.mp hstep
      cases hr
      exact ⟨rfl, by simp⟩
    | _ => cases hstep
  | recv =>
    refine Or.inr (Or.inr (Or.inr ?_))
    cases outcome with
    | ok =>
      obtain ⟨k, -, hr⟩ := Option.map_eq_some_iff.mp hstep
      cases hr
      exact ⟨rfl, by simp⟩
    | failed =>
      simp only [subscriberStep_at_recv] at hstep
      split at hstep <;> cases hstep
      exact ⟨rfl, by simp⟩
    | _ => cases hstep
  | returned => cases outcome <;> cases hstep
  | _ =>
    refine Or.inr (Or.inr (Or.inr ?_))
    cases outcome <;> cases hstep
    cases shouldStop <;> exact ⟨rfl, by simp⟩

theorem SubscriberOk.shutdown {pc : Subscriber} (hok : SubscriberOk l pc) :
    SubscriberOk l.shutdown pc where
  listening h := Link.listening_shutdown.trans (hok.listening h)
  readable h := by
    unfold Link.readable
    rw [Link.accepted_shutdown]
    exact hok.readable h

theorem SubscriberOk.step (hok : SubscriberOk l pc)
    (hstep : subscriberStep shouldStop shutdownRequested l pc outcome = some (l', pc')) :
    SubscriberOk l' pc' := by
  rcases subscriberStep_cases hstep with ⟨rfl, rfl⟩ | ⟨hwaits, rfl, hrecv, -⟩ |
    ⟨rfl, hreadable, rfl⟩ | ⟨hwaits, hrecv⟩
  · exact ⟨fun _ => rfl, nofun⟩
  · exact ⟨fun _ => hok.listening hwaits, fun h => absurd h hrecv⟩
  · exact ⟨nofun, fun _ => hreadable⟩
  · exact ⟨fun h => absurd (hwaits.symm.trans h) (by simp), fun h => absurd h hrecv⟩

/-- The thread goes on to `accept` only where `shutdown` was not called yet. -/
theorem subscriberStep_accept
    (hstep : subscriberStep shouldStop shutdownRequested l pc outcome = some (l', .accept)) :
    shutdownRequested = false := by
  rcases subscriberStep_cases hstep with ⟨-, h⟩ | ⟨-, -, -, h⟩ | ⟨-, -, h⟩ | ⟨h, -⟩
  · cases h
  · exact h rfl
  · cases h
  · cases h

end Subscriber

/-! ### What the threads leave alone -/

section Frames

variable {shouldStop : Bool} {ring ring' : Ring} {l l' : Link} {outcome : Outcome}

/-- The setup thread leaves the state of its listening socket alone. -/
theorem setupStep_frame {pc pc' : Setup} (h : setupStep shouldStop l pc outcome = some (l', pc')) :
    l'.shut = l.shut ∧ l'.listening = l.listening := by
  cases pc with
  | poll =>
    cases outcome with
    | ok =>
      simp only [setupStep_at_poll] at h
      split at h <;> cases h
      exact ⟨rfl, rfl⟩
    | _ =>
      cases h
      exact ⟨rfl, rfl⟩
  | accept =>
    cases outcome with
    | timeout | interrupted => cases h
    | _ =>
      obtain ⟨k, haccept, hr⟩ := Option.map_eq_some_iff.mp h
      cases hr
      exact Link.accept_frame haccept
  | recv =>
    cases outcome with
    | ok =>
      obtain ⟨k, hrecv, hr⟩ := Option.map_eq_some_iff.mp h
      cases hr
      exact Link.recv_frame hrecv
    | failed =>
      simp only [setupStep_at_recv] at h
      split at h <;> cases h
      exact ⟨rfl, rfl⟩
    | _ => cases h
  | handle answer => cases answer <;> cases outcome <;> cases h <;> exact ⟨rfl, rfl⟩
  | send left =>
    cases outcome with
    | ok =>
      obtain ⟨k, hsend, hr⟩ := Option.map_eq_some_iff.mp h
      cases hr
      exact Link.send_frame hsend
    | failed =>
      simp only [setupStep_at_send] at h
      split at h <;> cases h
      exact ⟨rfl, rfl⟩
    | _ => cases h
  | returned => cases outcome <;> cases h
  | _ =>
    cases outcome <;> cases h
    exact ⟨rfl, rfl⟩

/-- A thread that has returned has no step. -/
theorem setupStep_ne_returned {pc : Setup} {r : Link × Setup}
    (h : setupStep shouldStop l pc outcome = some r) : pc ≠ .returned := by
  rintro rfl
  cases outcome <;> cases h

theorem subscriberStep_ne_returned {shutdownRequested : Bool} {pc : Subscriber}
    {r : Link × Subscriber}
    (h : subscriberStep shouldStop shutdownRequested l pc outcome = some r) : pc ≠ .returned := by
  rintro rfl
  cases outcome <;> cases h

/-- Nothing that the publisher thread does shuts its listening socket down. -/
theorem publisherStep_shut {pc pc' : Publisher} (hshut : l.shut = false)
    (h : publisherStep shouldStop ring l pc outcome = some (ring', l', pc')) :
    l'.shut = false := by
  cases pc with
  | listen =>
    cases outcome <;> cases h
    · rfl
    · exact hshut
  | accept =>
    cases outcome with
    | timeout | interrupted => cases h
    | _ =>
      obtain ⟨k, haccept, hr⟩ := Option.map_eq_some_iff.mp h
      cases hr
      exact (Link.accept_frame haccept).1.trans hshut
  | pop => cases outcome <;> cases ring <;> cases h <;> exact hshut
  | encode pdu => cases pdu <;> cases outcome <;> cases h <;> exact hshut
  | send left =>
    cases outcome with
    | ok =>
      obtain ⟨k, hsend, hr⟩ := Option.map_eq_some_iff.mp h
      cases hr
      exact (Link.send_frame hsend).1.trans hshut
    | failed =>
      simp only [publisherStep_at_send] at h
      split at h <;> cases h
      exact hshut
    | _ => cases h
  | returned => cases outcome <;> cases h
  | _ =>
    cases outcome <;> cases h
    exact hshut

end Frames

end Threads

end LibE3
