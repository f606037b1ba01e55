import LibE3.Connector.Waits

/-! What `stop` waits for.  `shutdown` wakes the calls that wait on the listening sockets of the setup
and the inbound link.  It leaves the listening socket of the outbound link and all connections alone,
so a thread that is on its way to a call on one of those waits for the peer. -/

namespace LibE3

namespace Threads

open Transition Transition.System

/-- How far `stop` has come. -/
def Control.rank : Control → Nat
  | .initialized | .running | .error => 0
  | .flagged => 1
  | .queueShut => 2
  | .requested => 3
  | .setupShut => 4
  | .joinSetup => 5
  | .joinSubscriber => 6
  | .joinPublisher => 7
  | .dispose => 8

/-- What holds of the flags, the sockets and the threads as `stop` goes on. -/
structure State.Inv (s : State) : Prop where
  shouldStop : 1 ≤ s.control.rank → s.shouldStop = true
  queueShutdown : 2 ≤ s.control.rank → s.queueShutdown = true
  shutdownRequested : 3 ≤ s.control.rank → s.shutdownRequested = true
  setupListening : s.setup ≠ .returned → s.setupLink.listening = true
  setupShut : 4 ≤ s.control.rank → s.setup ≠ .returned → s.setupLink.shut = true
  subscriber : SubscriberOk s.inboundLink s.subscriber
  inboundShut : 5 ≤ s.control.rank → s.subscriber = .accept → s.inboundLink.shut = true
  outboundShut : s.outboundLink.shut = false
  joinedSetup : 6 ≤ s.control.rank → s.setup = .returned
  joinedSubscriber : 7 ≤ s.control.rank → s.subscriber = .returned

namespace State

variable {s s' : State} {e : Event}

theorem inv_start {ok : Bool} (hinv : s.Inv) (hstart : s.start ok = some s') : s'.Inv := by
  unfold start at hstart
  split at hstart
  · cases hstart
  split at hstart
  · cases hstart
    constructor <;> simp [Control.rank]
    · rfl
    · exact ⟨nofun, nofun⟩
    · exact hinv.outboundShut
  · cases hstart
    exact ⟨nofun, nofun, nofun, hinv.setupListening, nofun, hinv.subscriber, nofun,
      hinv.outboundShut, nofun, nofun⟩

/-- A step of `stop` before `shutdown` goes through the sockets sets the next flag. -/
theorem inv_flags (hinv : s.Inv) (hstop : s.stop = some s') (hrank : s.control.rank ≤ 2) :
    s'.Inv := by
  unfold stop at hstop
  cases hcontrol : s.control <;> simp only [hcontrol] at hstop hrank
  case flagged =>
    cases hstop
    exact
      { hinv with
        shouldStop := fun _ => hinv.shouldStop (by rw [hcontrol]; decide)
        queueShutdown := fun _ => rfl
        shutdownRequested := nofun
        setupShut := nofun
        inboundShut := nofun
        joinedSetup := nofun
        joinedSubscriber := nofun }
  case queueShut =>
    cases hstop
    exact
      { hinv with
        shouldStop := fun _ => hinv.shouldStop (by rw [hcontrol]; decide)
        queueShutdown := fun _ => hinv.queueShutdown (by rw [hcontrol]; decide)
        shutdownRequested := fun _ => rfl
        setupShut := nofun
        inboundShut := nofun
        joinedSetup := nofun
        joinedSubscriber := nofun }
  case initialized | running | error =>
    cases hstop
    exact
      { hinv with
        shouldStop := fun _ => rfl
        queueShutdown := nofun
        shutdownRequested := nofun
        setupShut := nofun
        inboundShut := nofun
        joinedSetup := nofun
        joinedSubscriber := nofun }
  all_goals exact absurd hrank (by decide)

/-- A thread that runs has a listening socket, so `shutdown` leaves none at an `accept` that waits. -/
theorem inv_sockets (hinv : s.Inv) (hstop : s.stop = some s')
    (hcontrol : s.control = .requested ∨ s.control = .setupShut) : s'.Inv := by
  have hflags : 3 ≤ s.control.rank := by rcases hcontrol with h | h <;> rw [h] <;> decide
  have hshouldStop := hinv.shouldStop (by omega)
  have hqueue := hinv.queueShutdown (by omega)
  have hrequested := hinv.shutdownRequested hflags
  unfold stop at hstop
  rcases hcontrol with hcontrol | hcontrol <;> simp only [hcontrol] at hstop <;> cases hstop
  · exact
      { hinv with
        shouldStop := fun _ => hshouldStop
        queueShutdown := fun _ => hqueue
        shutdownRequested := fun _ => hrequested
        setupListening := fun h => Link.listening_shutdown.trans (hinv.setupListening h)
        setupShut := fun _ h => Link.shut_shutdown (hinv.setupListening h)
        inboundShut := nofun
        joinedSetup := nofun
        joinedSubscriber := nofun }
  · have hwaits : s.subscriber = .accept → s.subscriber.waits = true := fun h => by rw [h]; rfl
    exact
      { hinv with
        shouldStop := fun _ => hshouldStop
        queueShutdown := fun _ => hqueue
        shutdownRequested := fun _ => hrequested
        setupShut := fun _ => hinv.setupShut (by rw [hcontrol]; decide)
        subscriber := hinv.subscriber.shutdown
        inboundShut := fun _ h => Link.shut_shutdown (hinv.subscriber.listening (hwaits h))
        joinedSetup := nofun
        joinedSubscriber := nofun }

/-- After `shutdown`, only the joins change what is known. -/
theorem Inv.joined (hinv : s.Inv) (hrank : 5 ≤ s.control.rank) {c : Control}
    (hsetup : 6 ≤ c.rank → s.setup = .returned)
    (hsubscriber : 7 ≤ c.rank → s.subscriber = .returned) : Inv { s with control := c } :=
  { hinv with
    shouldStop := fun _ => hinv.shouldStop (by omega)
    queueShutdown := fun _ => hinv.queueShutdown (by omega)
    shutdownRequested := fun _ => hinv.shutdownRequested (by omega)
    setupShut := fun _ => hinv.setupShut (by omega)
    inboundShut := fun _ => hinv.inboundShut hrank
    joinedSetup := hsetup
    joinedSubscriber := hsubscriber }

theorem inv_joins (hinv : s.Inv) (hstop : s.stop = some s') (hrank : 5 ≤ s.control.rank) :
    s'.Inv := by
  have hsetup := hinv.joinedSetup
  have hsubscriber := hinv.joinedSubscriber
  unfold stop at hstop
  cases hcontrol : s.control <;> simp only [hcontrol] at hstop hsetup hsubscriber
  case joinSetup =>
    split at hstop <;> cases hstop
    rename_i hreturned
    exact hinv.joined hrank (fun _ => hreturned) nofun
  case joinSubscriber =>
    split at hstop <;> cases hstop
    rename_i hreturned
    exact hinv.joined hrank (fun _ => hsetup (by decide)) fun _ => hreturned
  case joinPublisher =>
    split at hstop <;> cases hstop
    exact hinv.joined hrank (fun _ => hsetup (by decide)) fun _ => hsubscriber (by decide)
  case dispose =>
    cases hstop
    have hok : SubscriberOk {} s.subscriber := by
      rw [hsubscriber (by decide)]
      exact ⟨nofun, nofun⟩
    exact ⟨nofun, nofun, nofun, fun h => absurd (hsetup (by decide)) h, nofun, hok, nofun, rfl,
      nofun, nofun⟩
  all_goals
    rw [hcontrol] at hrank
    exact absurd hrank (by decide)

theorem inv_stop (hinv : s.Inv) (hstop : s.stop = some s') : s'.Inv := by
  by_cases hflags : s.control.rank ≤ 2
  · exact inv_flags hinv hstop hflags
  by_cases hjoins : 5 ≤ s.control.rank
  · exact inv_joins hinv hstop hjoins
  refine inv_sockets hinv hstop ?_
  cases hcontrol : s.control <;> simp [hcontrol, Control.rank] at hflags hjoins ⊢

theorem inv_peer (hinv : s.Inv) (action : LinkAction) (thread : Thread) :
    (s.peer action thread).Inv := by
  cases thread with
  | setup =>
    exact
      { hinv with
        setupListening := fun h => (Link.listening_peer action).trans (hinv.setupListening h)
        setupShut := fun h hpc => (Link.shut_peer action).trans (hinv.setupShut h hpc) }
  | subscriber =>
    exact
      { hinv with
        subscriber := hinv.subscriber.peer action
        inboundShut := fun h hpc => (Link.shut_peer action).trans (hinv.inboundShut h hpc) }
  | publisher =>
    exact { hinv with outboundShut := (Link.shut_peer action).trans hinv.outboundShut }

theorem inv_advance {outcome : Outcome} {thread : Thread} (hinv : s.Inv)
    (hadvance : s.advance outcome thread = some s') : s'.Inv := by
  cases thread with
  | setup =>
    obtain ⟨⟨l, pc⟩, hstep, rfl⟩ := Option.map_eq_some_iff.mp hadvance
    obtain ⟨hshut, hlistening⟩ := setupStep_frame hstep
    have hpc := setupStep_ne_returned hstep
    exact
      { hinv with
        setupListening := fun _ => hlistening.trans (hinv.setupListening hpc)
        setupShut := fun h _ => hshut.trans (hinv.setupShut h hpc)
        joinedSetup := fun h => absurd (hinv.joinedSetup h) hpc }
  | subscriber =>
    obtain ⟨⟨l, pc⟩, hstep, rfl⟩ := Option.map_eq_some_iff.mp hadvance
    -- `shutdown` has set its flag before it goes through the sockets, so no thread comes to
    -- `accept` after that
    have haccept : 3 ≤ s.control.rank → pc ≠ .accept := by
      rintro hrank rfl
      have hrequested := hinv.shutdownRequested hrank
      rw [subscriberStep_accept hstep] at hrequested
      cases hrequested
    exact
      { hinv with
        subscriber := hinv.subscriber.step hstep
        inboundShut := fun (h : 5 ≤ s.control.rank) hpc => absurd hpc (haccept (by omega))
        joinedSubscriber := fun h =>
          absurd (hinv.joinedSubscriber h) (subscriberStep_ne_returned hstep) }
  | publisher =>
    obtain ⟨⟨ring, l, pc⟩, hstep, rfl⟩ := Option.map_eq_some_iff.mp hadvance
    exact { hinv with outboundShut := publisherStep_shut hinv.outboundShut hstep }

theorem inv_step (hinv : s.Inv) (hstep : s.step e = some s') : s'.Inv := by
  cases e with
  | start ok => exact inv_start hinv hstep
  | stop => exact inv_stop hinv hstep
  | push pdu =>
    simp only [step, push] at hstep
    split at hstep <;> cases hstep
    exact { hinv with }
  | peer thread action =>
    cases hstep
    exact inv_peer hinv action thread
  | thread thread outcome => exact inv_advance hinv hstep

theorem inv_init : Inv {} :=
  ⟨nofun, nofun, nofun, fun h => absurd rfl h, nofun, ⟨nofun, nofun⟩, nofun, rfl, nofun, nofun⟩

theorem inv_of_reachable (h : (ofStep {} step).Reachable s) : s.Inv := by
  induction h with
  | start hs =>
    cases hs
    exact inv_init
  | next _ hstep ih => exact inv_step ih hstep

/-! ### Runs -/

/-- With the sockets shut down and no more to be had of the peer, every thread has a step. -/
theorem awake_of_clear (hinv : s.Inv) (hclear : s.clear = true) : s.Awake := by
  intro thread hthread
  have hrank : 5 ≤ s.control.rank := by
    cases hcontrol : s.control <;> simp [hcontrol, Control.toJoin] at hthread <;> decide
  obtain ⟨hsetup, hpublisher⟩ := Bool.and_eq_true_iff.mp hclear
  rw [or_iff_not_imp_left]
  intro hreturned
  cases thread with
  | setup =>
    have hpc : s.setup ≠ .returned := by simpa [returned] using hreturned
    have henabled : ∃ outcome r, setupStep s.shouldStop s.setupLink s.setup outcome = some r :=
      setupStep_enabled (hinv.setupShut (by omega) hpc) hsetup hpc
    obtain ⟨outcome, r, hstep⟩ := henabled
    exact ⟨outcome, _, by simp only [step, advance, hstep, Option.map_some]; rfl⟩
  | subscriber =>
    have hpc : s.subscriber ≠ .returned := by simpa [returned] using hreturned
    have henabled : ∃ outcome r, subscriberStep s.shouldStop s.shutdownRequested s.inboundLink
        s.subscriber outcome = some r :=
      subscriberStep_enabled hinv.subscriber (hinv.inboundShut hrank) hpc
    obtain ⟨outcome, r, hstep⟩ := henabled
    exact ⟨outcome, _, by simp only [step, advance, hstep, Option.map_some]; rfl⟩
  | publisher =>
    have hpc : s.publisher ≠ .returned := by simpa [returned] using hreturned
    have henabled : ∃ outcome r, publisherStep s.shouldStop s.ring s.outboundLink s.publisher
        outcome = some r := publisherStep_enabled hpublisher hpc
    obtain ⟨outcome, r, hstep⟩ := henabled
    exact ⟨outcome, _, by simp only [step, advance, hstep, Option.map_some]; rfl⟩

/-- From the end of `shutdown` to the end of `stop`, no step makes a thread need more of the peer. -/
theorem clear_step (hinv : s.Inv) (hrank : 5 ≤ s.control.rank) (hclear : s.clear = true)
    (hstep : s.step e = some s') :
    s'.control = .initialized ∨ (5 ≤ s'.control.rank ∧ s'.clear = true) := by
  obtain ⟨hsetup, hpublisher⟩ := Bool.and_eq_true_iff.mp hclear
  have hshouldStop := hinv.shouldStop (by omega)
  cases e with
  | start ok =>
    simp only [step, start] at hstep
    split at hstep
    · cases hstep
    · rename_i hcontrol
      rw [not_not.mp hcontrol] at hrank
      exact absurd hrank (by decide)
  | stop =>
    simp only [step, stop] at hstep
    cases hcontrol : s.control <;> simp only [hcontrol] at hstep hrank
    case joinSetup | joinSubscriber | joinPublisher =>
      split at hstep <;> cases hstep
      exact Or.inr ⟨by simp [Control.rank], hclear⟩
    case dispose =>
      cases hstep
      exact Or.inl rfl
    all_goals exact absurd hrank (by decide)
  | push pdu =>
    simp only [step, push, hinv.queueShutdown (by omega), Bool.true_or, if_true] at hstep
    cases hstep
  | peer thread action =>
    cases hstep
    refine Or.inr ⟨by cases thread <;> exact hrank, Bool.and_eq_true_iff.mpr ?_⟩
    cases thread with
    | setup =>
      refine ⟨?_, hpublisher⟩
      by_cases hpc : s.setup = .returned
      · simp [peer, hpc, setupClear]
      · exact setupClear_peer (hinv.setupShut (by omega) hpc) action hsetup
    | subscriber => exact ⟨hsetup, hpublisher⟩
    | publisher => exact ⟨hsetup, publisherClear_peer action hpublisher⟩
  | thread thread outcome =>
    cases thread with
    | setup =>
      obtain ⟨⟨l, pc⟩, hsetupStep, rfl⟩ := Option.map_eq_some_iff.mp hstep
      rw [hshouldStop] at hsetupStep
      have hsetup' := setupClear_step hsetupStep hsetup
      exact Or.inr ⟨hrank, Bool.and_eq_true_iff.mpr ⟨hsetup', hpublisher⟩⟩
    | subscriber =>
      obtain ⟨⟨l, pc⟩, -, rfl⟩ := Option.map_eq_some_iff.mp hstep
      exact Or.inr ⟨hrank, hclear⟩
    | publisher =>
      obtain ⟨⟨ring, l, pc⟩, hpublisherStep, rfl⟩ := Option.map_eq_some_iff.mp hstep
      rw [hshouldStop] at hpublisherStep
      have hpublisher' := publisherClear_step hpublisherStep hpublisher
      exact Or.inr ⟨hrank, Bool.and_eq_true_iff.mpr ⟨hsetup, hpublisher'⟩⟩

/-- The steps of runs in which the threads need no more of the peer when `shutdown` is done. -/
def calm (s : State) (e : Event) : Bool :=
  decide (e = .stop ∧ s.control = .setupShut → s.clear = true)

/-- The steps up to the end of `stop`. -/
def untilStopped (s : State) (_ : Event) : Bool := decide (s.control ≠ .initialized)

theorem control_advance {outcome : Outcome} {thread : Thread}
    (hadvance : s.advance outcome thread = some s') : s'.control = s.control := by
  cases thread <;> (obtain ⟨r, -, rfl⟩ := Option.map_eq_some_iff.mp hadvance; rfl)

/-- Only the end of `shutdown` takes the interface to the joins, and it changes nothing that the
setup and the publisher thread need. -/
theorem rank_step (hrank : s.control.rank < 5) (hstep : s.step e = some s') :
    s'.control.rank < 5 ∨ (e = .stop ∧ s.control = .setupShut ∧ s'.clear = s.clear) := by
  cases e with
  | start ok =>
    simp only [step, start] at hstep
    split at hstep
    · cases hstep
    split at hstep <;> cases hstep <;> exact Or.inl (by simp [Control.rank])
  | stop =>
    simp only [step, stop] at hstep
    cases hcontrol : s.control <;> simp only [hcontrol] at hstep hrank
    case setupShut =>
      cases hstep
      exact Or.inr ⟨rfl, rfl, rfl⟩
    case joinSetup | joinSubscriber | joinPublisher | dispose => exact absurd hrank (by decide)
    all_goals
      cases hstep
      exact Or.inl (by simp [Control.rank])
  | push pdu =>
    simp only [step, push] at hstep
    split at hstep <;> cases hstep
    exact Or.inl hrank
  | peer thread action =>
    cases hstep
    exact Or.inl (by cases thread <;> exact hrank)
  | thread thread outcome =>
    rw [control_advance hstep]
    exact Or.inl hrank

/-- In a calm run, the threads need no more of the peer from the end of `shutdown` on. -/
theorem clear_of_calm (h : (ofStep {} (guarded calm step)).Reachable s) :
    s.Inv ∧ (5 ≤ s.control.rank → s.clear = true) := by
  induction h with
  | start hs =>
    cases hs
    exact ⟨inv_init, nofun⟩
  | @next t t' e _ hstep ih =>
    obtain ⟨hinv, hclear⟩ := ih
    obtain ⟨hcalm, hstep⟩ := guarded_eq_some.mp hstep
    refine ⟨inv_step hinv hstep, fun hrank => ?_⟩
    by_cases hbefore : 5 ≤ t.control.rank
    · rcases clear_step hinv hbefore (hclear hbefore) hstep with hinit | ⟨-, hclear'⟩
      · rw [hinit] at hrank
        exact absurd hrank (by decide)
      · exact hclear'
    · rcases rank_step (by omega) hstep with hlt | ⟨he, hcontrol, hsame⟩
      · omega
      · rw [hsame]
        exact of_decide_eq_true hcalm ⟨he, hcontrol⟩

/-- Until `stop` has returned, the threads need no more of the peer than at the end of
`shutdown`. -/
theorem awake_until_stopped (hinv : s.Inv) (hrank : 5 ≤ s.control.rank) (hclear : s.clear = true)
    {t : State} (h : (ofStep s (guarded untilStopped step)).Reachable t) : t.Awake := by
  have hkept : t.Inv ∧ (t.control = .initialized ∨ (5 ≤ t.control.rank ∧ t.clear = true)) := by
    induction h with
    | start hs =>
      cases hs
      exact ⟨hinv, Or.inr ⟨hrank, hclear⟩⟩
    | next _ hstep ih =>
      obtain ⟨hstopping, hstep⟩ := guarded_eq_some.mp hstep
      obtain ⟨hinv, hinit | ⟨hrank, hclear⟩⟩ := ih
      · exact absurd hinit (of_decide_eq_true hstopping)
      · exact ⟨inv_step hinv hstep, clear_step hinv hrank hclear hstep⟩
  obtain ⟨hinv, hinit | ⟨-, hclear⟩⟩ := hkept
  · intro thread hthread
    rw [hinit] at hthread
    cases hthread
  · exact awake_of_clear hinv hclear

/-- A thread that can come to wait does so in some run of the interface.  `view` is the part of the
state that the thread has to itself, and `own` its steps once `should_stop_` is set. -/
theorem stuck_of_canBlock {σ : Type} (thread : Thread) (view : State → σ)
    {own : σ → Outcome → Option σ} {done : σ → Prop}
    (hown : ∀ (s : State) outcome, s.shouldStop = true →
      (s.step (.thread thread outcome)).map view = own (view s) outcome)
    (hshouldStop : ∀ (s s' : State) outcome, s.step (.thread thread outcome) = some s' →
      s'.shouldStop = s.shouldStop)
    (hdone : ∀ s : State, s.returned thread = true → done (view s))
    (hthread : thread ∈ Control.joinSetup.toJoin) {x : σ} (h : CanBlock own done x) :
    ∀ s : State, s.control = .joinSetup → s.shouldStop = true → view s = x →
      ∃ t, (ofStep s (guarded untilStopped step)).Reachable t ∧ ¬t.Awake := by
  induction h with
  | blocked hnot hnone =>
    rintro s hcontrol hstop rfl
    refine ⟨s, .start rfl, fun hawake => ?_⟩
    rw [← hcontrol] at hthread
    rcases hawake thread hthread with hreturned | ⟨outcome, s', hstep⟩
    · exact hnot (hdone s hreturned)
    · have hsome := hown s outcome hstop
      rw [hnone outcome, hstep] at hsome
      cases hsome
  | next hstep _ ih =>
    rintro s hcontrol hstop rfl
    rw [← hown s _ hstop] at hstep
    obtain ⟨s', hs', hview⟩ := Option.map_eq_some_iff.mp hstep
    obtain ⟨t, ht, hstuck⟩ := ih s' ((control_advance hs').trans hcontrol)
      ((hshouldStop s s' _ hs').trans hstop) hview
    have hfirst : guarded untilStopped step s _ = some s' :=
      guarded_eq_some.mpr ⟨by simp [untilStopped, hcontrol], hs'⟩
    exact ⟨t, (Reachable.next (.start rfl) hfirst).trans ht, hstuck⟩

theorem setup_stuck (hcontrol : s.control = .joinSetup) (hstop : s.shouldStop = true)
    (hclear : setupClear s.setupLink s.setup = false) :
    ∃ t, (ofStep s (guarded untilStopped step)).Reachable t ∧ ¬t.Awake := by
  refine stuck_of_canBlock .setup (fun s => (s.setupLink, s.setup)) ?_ ?_ ?_ ?_
    (setup_blocks hclear) s hcontrol hstop rfl
  · intro s outcome hstop
    simp [step, advance, hstop, Option.map_map, Function.comp_def]
  · intro s s' outcome hstep
    obtain ⟨r, -, rfl⟩ := Option.map_eq_some_iff.mp hstep
    rfl
  · intro s hreturned
    simpa [returned] using hreturned
  · decide

theorem publisher_stuck (hcontrol : s.control = .joinSetup) (hstop : s.shouldStop = true)
    (hshut : s.outboundLink.shut = false)
    (hclear : publisherClear s.ring s.outboundLink s.publisher = false) :
    ∃ t, (ofStep s (guarded untilStopped step)).Reachable t ∧ ¬t.Awake := by
  refine stuck_of_canBlock .publisher (fun s => (s.ring, s.outboundLink, s.publisher)) ?_ ?_ ?_ ?_
    (publisher_blocks hshut hclear) s hcontrol hstop rfl
  · intro s outcome hstop
    simp [step, advance, hstop, Option.map_map, Function.comp_def]
  · intro s s' outcome hstep
    obtain ⟨r, -, rfl⟩ := Option.map_eq_some_iff.mp hstep
    rfl
  · intro s hreturned
    simpa [returned] using hreturned
  · decide

end State

/-- In every run in which the threads need no more of the peer when `shutdown` is done, each thread
that `stop` has to join has a step of its own until it has returned.  And whether that is so after a
`shutdown` is decided by what they need of the peer then. -/
theorem stop_wakes_iff (s : State) :
    ((ofStep {} (guarded State.calm State.step)).Reachable s → s.Awake) ∧
    ∀ s', (ofStep {} State.step).Reachable s → s.control = .setupShut → s.step .stop = some s' →
      ((∀ t, (ofStep s' (guarded State.untilStopped State.step)).Reachable t → t.Awake) ↔
        s.clear = true) := by
  constructor
  · intro h
    obtain ⟨hinv, hclear⟩ := State.clear_of_calm h
    by_cases hrank : 5 ≤ s.control.rank
    · exact State.awake_of_clear hinv (hclear hrank)
    · intro thread hthread
      cases hcontrol : s.control <;> simp [hcontrol, Control.toJoin, Control.rank] at hthread hrank
  · intro s' h hcontrol hstep
    have hinv := State.inv_step (State.inv_of_reachable h) hstep
    obtain rfl : { s with control := .joinSetup, inboundLink := s.inboundLink.shutdown } = s' := by
      simpa [State.step, State.stop, hcontrol] using hstep
    have hstop := hinv.shouldStop (by simp [Control.rank])
    constructor
    · intro hawake
      by_contra hclear
      have hnot : setupClear s.setupLink s.setup = false ∨
          publisherClear s.ring s.outboundLink s.publisher = false := by
        simpa [State.clear, imp_iff_not_or] using hclear
      rcases hnot with hsetup | hpublisher
      · obtain ⟨t, ht, hstuck⟩ := State.setup_stuck rfl hstop hsetup
        exact hstuck (hawake t ht)
      · obtain ⟨t, ht, hstuck⟩ := State.publisher_stuck rfl hstop hinv.outboundShut hpublisher
        exact hstuck (hawake t ht)
    · intro hclear t ht
      exact State.awake_until_stopped hinv (by simp [Control.rank]) hclear ht

/-- The three threads come to their loops, the publisher with a PDU to send, before `stop` shuts the
connector down. -/
def connectedTrace : List Event :=
  [.start true, .thread .setup .ok, .thread .subscriber .ok, .thread .subscriber .ok,
    .peer .subscriber (.connect 100), .thread .subscriber .ok, .thread .subscriber .ok,
    .thread .subscriber .ok, .thread .publisher .ok, .thread .publisher .ok,
    .thread .publisher .ok, .peer .publisher (.connect 100), .thread .publisher .ok,
    .push (some 20), .thread .publisher .ok, .stop, .stop, .stop, .stop]

def connected : State := (execute State.step {} connectedTrace).getD {}

def connectedShut : State := (connected.step .stop).getD {}

theorem stop_wakes_connected :
    connected.control = .setupShut ∧ connected.publisher = .pop ∧ connected.clear = true ∧
    connectedShut.Awake ∧
    ∀ t, (ofStep connectedShut (guarded State.untilStopped State.step)).Reachable t → t.Awake := by
  have hreach : (ofStep {} State.step).Reachable connected :=
    reachable_of_execute connectedTrace (by decide)
  have hcalm : (ofStep {} (guarded State.calm State.step)).Reachable connectedShut :=
    reachable_of_execute (connectedTrace ++ [.stop]) (by decide)
  have hclear : connected.clear = true := by decide
  have hiff := (stop_wakes_iff connected).2 connectedShut hreach (by decide) (by decide)
  exact ⟨by decide, by decide, hclear, (stop_wakes_iff connectedShut).1 hcalm, hiff.mpr hclear⟩

/-- No dApp has connected to the outbound socket when `stop` shuts the connector down. -/
def unconnectedTrace : List Event :=
  [.start true, .thread .publisher .ok, .thread .publisher .ok, .thread .publisher .ok,
    .stop, .stop, .stop, .stop, .stop]

def unconnected : State := (execute State.step {} unconnectedTrace).getD {}

/-- The publisher thread stays in its `accept`, and `stop` with it. -/
theorem unconnected_stuck :
    (ofStep {} State.step).Reachable unconnected ∧ unconnected.control = .joinSetup ∧
    unconnected.publisher = .accept ∧ ¬unconnected.Awake := by
  refine ⟨reachable_of_execute unconnectedTrace (by decide), by decide, by decide, fun hawake => ?_⟩
  rcases hawake .publisher (by decide) with hreturned | ⟨outcome, s', hstep⟩
  · exact absurd hreturned (by decide)
  · have hnone : ∀ outcome, unconnected.step (.thread .publisher outcome) = none := by
      intro outcome
      cases outcome <;> decide
    rw [hnone outcome] at hstep
    cases hstep

end Threads

end LibE3
