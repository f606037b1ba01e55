import LibE3.Connector.Frame
import LibE3.Connector.Stream
import LibE3.Lib.JsonText

/-! `publisher_loop` over the POSIX link: it encodes what it pops and sends it on the outbound
connection.  A send that fails is logged, and the loop goes on with the next PDU on the same
connection.  Where the failed send has left a part of its frame on the stream, the peer takes what
follows for the rest of that frame. -/

namespace LibE3

namespace Posix

open Transfer

/-! ### The loop -/

/-- `send` on the outbound connection: what it writes and returns. -/
def send (sends : Sends) (data : Octets) : Option (Octets × ErrorCode) :=
  (sendInChunks sends data).map fun result =>
    (result.1, if result.2 then .success else .transportError)

/-- A round of the loop: what `pop` returns within its timeout, and what the system makes of the calls
of `::send` if there is something to send. -/
structure Round where
  pdu : Option Pdu
  sends : Sends

/-- A message that the loop has tried to send. -/
structure Sent where
  message : Octets
  written : Octets
  result : ErrorCode
  deriving DecidableEq, Repr

/-- The loop goes on where there is no PDU, where it cannot be encoded, and where it cannot be sent. -/
def publisherLoop (encoder : E3Encoder) : List Round → Option (List Sent)
  | [] => some []
  | round :: rounds =>
    match round.pdu with
    | none => publisherLoop encoder rounds
    | some pdu =>
      match encoder.encode pdu with
      | .error _ => publisherLoop encoder rounds
      | .ok message =>
        (send round.sends message.buffer).bind fun result =>
          (publisherLoop encoder rounds).map fun log =>
            ⟨message.buffer, result.1, result.2⟩ :: log

/-- The messages that the loop tries to send, each with what the system makes of its calls. -/
def messages (encoder : E3Encoder) (rounds : List Round) : List (Octets × Sends) :=
  rounds.filterMap fun round =>
    match round.pdu with
    | none => none
    | some pdu =>
      match encoder.encode pdu with
      | .error _ => none
      | .ok message => some (message.buffer, round.sends)

/-! ### Synchronisation -/

/-- The octets on the stream. -/
def stream (log : List Sent) : Octets := (log.map Sent.written).flatten

/-- The messages whose send returned `SUCCESS`. -/
def succeeded (log : List Sent) : List Octets :=
  (log.filter fun s => s.result = .success).map Sent.message

/-- The stream stays in step.  After a send that fails with a part of its frame written nothing more is
written; and the peer reads exactly the messages whose send succeeded, in whatever pieces it gets the
stream, and no message after them. -/
structure InSync (log : List Sent) : Prop where
  stops : log.Pairwise fun a b => a.result ≠ .success → a.written = [] ∨ b.written = []
  parses : ∀ scripts : List Script, (∀ script ∈ scripts, script.Willing) →
    scripts.length = (succeeded log).length →
    ∃ rest, receiveAll scripts (stream log) =
        some ((succeeded log).map fun m => (.message m, 4 + m.length), rest) ∧
      ∀ script m rest', recvWithSize script rest ≠ some (.message m, rest')

/-- The octets of a message that its header counts: the header holds the length modulo `2 ^ 32`. -/
def counted (message : Octets) : Octets := message.take (message.length % 2 ^ 32)

/-- No frame is cut off and followed by more: where the header of a message is not refused and the
system does not take the whole message, every later header is refused at once.  The messages that go
out whole have a length that `recv_with_size` takes.  And no message of `2 ^ 32` octets or more is cut
off after the octets that its header counts, where `recv_with_size` takes so many. -/
structure Unbroken (sent : List (Octets × Sends)) : Prop where
  cuts : sent.Pairwise fun a b =>
    a.2.header ≠ none → ¬a.2.Takes a.1.length → b.2.header = none
  framed : ∀ a ∈ sent, a.2.Takes a.1.length → Framed a.1
  parts : ∀ a ∈ sent, ¬a.2.Takes a.1.length → Framed (counted a.1) →
    ¬a.2.Reaches a.1.length (counted a.1).length

/-! ### What one send leaves -/

/-- The entry of a message in the log of the loop. -/
inductive Logged (a : Octets × Sends) : Sent → Prop
  | whole (htakes : a.2.Takes a.1.length) : Logged a ⟨a.1, frame a.1, .success⟩
  | refused (hheader : a.2.header = none) : Logged a ⟨a.1, [], .transportError⟩
  | cut (n : Nat) (hcut : a.2.Cut a.1 n) : Logged a ⟨a.1, (frame a.1).take n, .transportError⟩

theorem send_logged (sends : Sends) (message : Octets) :
    ∃ written result, send sends message = some (written, result) ∧
      Logged (message, sends) ⟨message, written, result⟩ := by
  obtain ⟨written, ok, hrun, hresult⟩ := sendInChunks_ends sends message
  rw [send, hrun]
  refine ⟨written, _, rfl, ?_⟩
  cases hresult with
  | whole htakes => exact .whole htakes
  | refused hheader => exact .refused hheader
  | cut n hcut => exact .cut n hcut

theorem Sends.header_ne_none {sends : Sends}
    (h : ∃ willing, sends.header = some willing ∧ 3 ≤ willing) : sends.header ≠ none := by
  obtain ⟨willing, hsome, -⟩ := h
  rw [hsome]
  nofun

namespace Logged

variable {a : Octets × Sends} {s : Sent}

theorem success_iff (h : Logged a s) : s.result = .success ↔ a.2.Takes a.1.length := by
  cases h with
  | whole htakes => exact ⟨fun _ => htakes, fun _ => rfl⟩
  | refused hheader => exact ⟨nofun, fun htakes => absurd hheader (Sends.header_ne_none htakes.header)⟩
  | cut n hcut => exact ⟨nofun, fun htakes => absurd htakes hcut.failed⟩

theorem written_eq_nil_iff (h : Logged a s) : s.written = [] ↔ a.2.header = none := by
  cases h with
  | whole htakes => exact ⟨nofun, fun hnone => absurd hnone (Sends.header_ne_none htakes.header)⟩
  | refused hheader => exact ⟨fun _ => hheader, fun _ => rfl⟩
  | cut n hcut =>
    refine ⟨fun hnil => ?_, fun hnone => absurd hnone hcut.header⟩
    have hpos := hcut.pos
    have hlt := hcut.lt
    have hlength := congrArg List.length hnil
    rw [List.length_take, List.length_nil] at hlength
    omega

theorem message_eq (h : Logged a s) : s.message = a.1 := by
  cases h <;> rfl

end Logged

/-- The loop returns, with an entry for every message. -/
theorem publisherLoop_logs (encoder : E3Encoder) (rounds : List Round) :
    ∃ log, publisherLoop encoder rounds = some log ∧
      List.Forall₂ Logged (messages encoder rounds) log := by
  induction rounds with
  | nil => exact ⟨[], rfl, .nil⟩
  | cons round rounds ih =>
    obtain ⟨log, hrun, hlogged⟩ := ih
    unfold messages at hlogged ⊢
    rw [publisherLoop, List.filterMap_cons]
    cases round.pdu with
    | none => exact ⟨log, hrun, hlogged⟩
    | some pdu =>
      dsimp only
      cases encoder.encode pdu with
      | error e => exact ⟨log, hrun, hlogged⟩
      | ok message =>
        obtain ⟨written, result, hsend, hentry⟩ := send_logged round.sends message.buffer
        simp only [hsend, Option.bind_some, hrun]
        exact ⟨_, rfl, .cons hentry hlogged⟩

/-! ### Whole runs -/

theorem forall_mem_iff_of_forall₂ {α β : Type} {R : α → β → Prop} {P : α → Prop} {Q : β → Prop}
    (hiff : ∀ a b, R a b → (P a ↔ Q b)) {as : List α} {bs : List β} (h : List.Forall₂ R as bs) :
    (∀ a ∈ as, P a) ↔ ∀ b ∈ bs, Q b := by
  induction h with
  | nil => exact ⟨nofun, nofun⟩
  | cons hab _ ih => rw [List.forall_mem_cons, List.forall_mem_cons, hiff _ _ hab, ih]

section Runs

variable {sent : List (Octets × Sends)} {log : List Sent} (h : List.Forall₂ Logged sent log)

include h

/-- Later writes stop after a cut frame exactly where the system refuses every later header. -/
theorem stops_iff :
    (log.Pairwise fun a b => a.result ≠ .success → a.written = [] ∨ b.written = []) ↔
      sent.Pairwise fun a b => a.2.header ≠ none → ¬a.2.Takes a.1.length → b.2.header = none := by
  induction h with
  | nil => exact ⟨fun _ => .nil, fun _ => .nil⟩
  | @cons a s sent log ha hrest ih =>
    rw [List.pairwise_cons, List.pairwise_cons, ih]
    refine and_congr_left fun _ => (forall_mem_iff_of_forall₂ (fun b t hb => ?_) hrest).symm
    rw [ha.written_eq_nil_iff, hb.written_eq_nil_iff, Ne, Ne, ha.success_iff]
    constructor
    · intro hlater hfailed
      by_cases hheader : a.2.header = none
      · exact .inl hheader
      · exact .inr (hlater hheader hfailed)
    · intro hlater hheader hfailed
      exact (hlater hfailed).resolve_left hheader

/-- Where no cut frame is followed by more, the stream is the frames of the messages that went out
whole, and after them the part of the frame that was cut off, if one was. -/
theorem stream_eq (hcuts : sent.Pairwise fun a b =>
      a.2.header ≠ none → ¬a.2.Takes a.1.length → b.2.header = none) :
    ∃ rest, stream log = ((succeeded log).map frame).flatten ++ rest ∧
      (rest = [] ∨ ∃ a ∈ sent, ∃ n, a.2.Cut a.1 n ∧ rest = (frame a.1).take n) ∧
      ∀ a ∈ sent, a.2.header ≠ none → ¬a.2.Takes a.1.length →
        ∃ n, a.2.Cut a.1 n ∧ rest = (frame a.1).take n := by
  induction h with
  | nil => exact ⟨[], rfl, .inl rfl, fun a ha => absurd ha List.not_mem_nil⟩
  | @cons a s sent log ha hrest ih =>
    obtain ⟨hlater, hcuts⟩ := List.pairwise_cons.mp hcuts
    obtain ⟨rest, hstream, htail, hparts⟩ := ih hcuts
    have hmem : rest = [] ∨ ∃ b ∈ a :: sent, ∃ n, b.2.Cut b.1 n ∧ rest = (frame b.1).take n :=
      htail.imp_right fun ⟨b, hb, hcut⟩ => ⟨b, List.mem_cons_of_mem _ hb, hcut⟩
    unfold stream succeeded at hstream ⊢
    cases ha with
    | whole htakes =>
      refine ⟨rest, ?_, hmem, List.forall_mem_cons.mpr
        ⟨fun _ hfailed => absurd htakes hfailed, hparts⟩⟩
      rw [List.map_cons, List.flatten_cons, hstream, List.filter_cons_of_pos (by simp)]
      simp only [List.map_cons, List.flatten_cons, List.append_assoc]
    | refused hheader =>
      refine ⟨rest, ?_, hmem, List.forall_mem_cons.mpr
        ⟨fun hsome => absurd hheader hsome, hparts⟩⟩
      rw [List.map_cons, List.flatten_cons, hstream, List.filter_cons_of_neg (by simp)]
      rfl
    | cut n hcut =>
      -- Every later message is refused at its header, so nothing follows the part.
      have hrefused : ∀ b ∈ sent, b.2.header = none :=
        fun b hb => hlater b hb hcut.header hcut.failed
      have hnone : ∀ t ∈ log, t.written = [] :=
        (forall_mem_iff_of_forall₂ (fun _ _ hb => hb.written_eq_nil_iff.symm) hrest).mp hrefused
      have hfails : ∀ t ∈ log, ¬t.result = .success :=
        (forall_mem_iff_of_forall₂ (P := fun b => ¬b.2.Takes b.1.length)
          (fun _ _ hb => not_congr hb.success_iff.symm) hrest).mp
          fun b hb htakes => Sends.header_ne_none htakes.header (hrefused b hb)
      have hempty : (log.map Sent.written).flatten = [] := by
        rw [List.flatten_eq_nil_iff]
        intro written hwritten
        obtain ⟨t, ht, rfl⟩ := List.mem_map.mp hwritten
        exact hnone t ht
      have hfilter : log.filter (fun t => t.result = .success) = [] := by
        rw [List.filter_eq_nil_iff]
        intro t ht
        simpa using hfails t ht
      refine ⟨(frame a.1).take n, ?_, .inr ⟨a, List.mem_cons_self, n, hcut, rfl⟩,
        List.forall_mem_cons.mpr ⟨fun _ _ => ⟨n, hcut, rfl⟩,
          fun b hb hsome => absurd (hrefused b hb) hsome⟩⟩
      rw [List.map_cons, List.flatten_cons, hempty, List.filter_cons_of_neg (by simp), hfilter]
      simp only [List.append_nil, List.map_nil, List.flatten_nil, List.nil_append]

/-- The messages that went out whole are those of the log with `SUCCESS`. -/
theorem succeeded_framed_iff :
    (∀ m ∈ succeeded log, Framed m) ↔ ∀ a ∈ sent, a.2.Takes a.1.length → Framed a.1 := by
  rw [forall_mem_iff_of_forall₂ (Q := fun t => t.result = .success → Framed t.message)
    (fun a t ht => by rw [ht.success_iff, ht.message_eq]) h]
  simp only [succeeded, List.mem_map, List.mem_filter, decide_eq_true_eq]
  constructor
  · intro hframed t ht hsuccess
    exact hframed t.message ⟨t, ⟨ht, hsuccess⟩, rfl⟩
  · rintro hframed m ⟨t, ⟨ht, hsuccess⟩, rfl⟩
    exact hframed t ht hsuccess

end Runs

/-! ### What the peer reads -/

theorem counted_length (message : Octets) : (counted message).length = message.length % 2 ^ 32 := by
  rw [counted, List.length_take, Nat.min_eq_left (Nat.mod_le _ _)]

/-- The header counts all octets of a message that is shorter than `2 ^ 32`. -/
theorem counted_of_lt {message : Octets} (h : message.length < 2 ^ 32) : counted message = message := by
  rw [counted, Nat.mod_eq_of_lt h, List.take_length]

/-- A message that is read from a part of a frame is as long as the header says, and the part is longer
by the header. -/
theorem of_recvWithSize_take {message : Octets} {n : Nat} {script : Script} {m rest : Octets}
    (h : recvWithSize script ((frame message).take n) = some (.message m, rest)) :
    Framed (counted message) ∧ 4 + (counted message).length ≤ n := by
  obtain ⟨header, hfour, hsplit, hm, hframed⟩ := split_of_recvWithSize h
  have hlength := congrArg List.length hsplit
  simp only [List.length_append, List.length_take, hfour] at hlength
  have hheader : header = htonl message.length := by
    have htake := congrArg (List.take 4) hsplit
    rwa [← hfour, List.take_left, hfour, List.take_take, Nat.min_eq_left (by omega), frame,
      ← htonl_length message.length, List.take_left] at htake
  have hcounted : (counted message).length = m.length := by
    rw [counted_length, ← hm, hheader, ntohl_htonl]
  unfold Framed at hframed ⊢
  rw [hcounted]
  exact ⟨hframed, by omega⟩

/-- A part that holds the octets that the header counts is read as a message. -/
theorem recvWithSize_take {message : Octets} {n : Nat} (hframed : Framed (counted message))
    (hn : 4 + (counted message).length ≤ n) {script : Script} (hscript : script.Willing) :
    ∃ rest, recvWithSize script ((frame message).take n) = some (.message (counted message), rest) := by
  obtain ⟨k, rfl⟩ := Nat.exists_eq_add_of_le hn
  rw [counted_length] at hn
  have htake : (frame message).take (4 + (counted message).length + k) =
      htonl message.length ++ (counted message ++ (message.drop (message.length % 2 ^ 32)).take k) := by
    rw [counted_length, frame, Nat.add_assoc, ← htonl_length message.length,
      List.take_length_add_append, counted, take_append_take_drop]
  rw [htake]
  exact ⟨_, recvWithSize_header hscript (counted_length message).symm hframed _⟩

/-- What is left of a frame that was cut off reads as a message where the octets that its header counts
are out. -/
theorem recvWithSize_cut_iff {sends : Sends} {message : Octets} {n : Nat} (hcut : sends.Cut message n) :
    (∀ script m rest, recvWithSize script ((frame message).take n) ≠ some (.message m, rest)) ↔
      (Framed (counted message) → ¬sends.Reaches message.length (counted message).length) := by
  rw [hcut.reaches]
  constructor
  · intro h hframed hn
    have hscript : Script.Willing fun _ => some 0 := fun _ => rfl
    obtain ⟨rest, hread⟩ := recvWithSize_take hframed hn hscript
    exact h _ _ _ hread
  · intro h script m rest hread
    obtain ⟨hframed, hn⟩ := of_recvWithSize_take hread
    exact h hframed hn

/-- What the peer reads has lengths that it takes. -/
theorem framed_of_receiveAll {ms : List Octets} {scripts : List Script} {octets rest : Octets}
    (h : receiveAll scripts octets = some (ms.map fun m => (.message m, 4 + m.length), rest)) :
    ∀ m ∈ ms, Framed m := by
  induction ms generalizing scripts octets with
  | nil => exact nofun
  | cons m ms ih =>
    cases scripts with
    | nil => cases h
    | cons script scripts =>
      obtain ⟨⟨received, left⟩, hfirst, h⟩ := Option.bind_eq_some_iff.mp h
      obtain ⟨later, hlater, heq⟩ := Option.map_eq_some_iff.mp h
      simp only [List.map_cons, Prod.mk.injEq, List.cons.injEq] at heq
      obtain ⟨⟨⟨rfl, -⟩, htail⟩, hrest⟩ := heq
      refine List.forall_mem_cons.mpr ⟨framed_of_recvWithSize hfirst, ih (hlater.trans ?_)⟩
      rw [← htail, ← hrest]

/-- The stream stays in step in exactly those runs in which no frame is cut off and followed by more,
the messages that go out whole have a length that `recv_with_size` takes, and no part of a message
reads as a message. -/
theorem inSync_iff (encoder : E3Encoder) (rounds : List Round) :
    ∃ log, publisherLoop encoder rounds = some log ∧
      (InSync log ↔ Unbroken (messages encoder rounds)) := by
  obtain ⟨log, hrun, hlogged⟩ := publisherLoop_logs encoder rounds
  refine ⟨log, hrun, fun hsync => ?_, fun hunbroken => ?_⟩
  · have hcuts := (stops_iff hlogged).mp hsync.stops
    have hwilling : ∀ script ∈ List.replicate (succeeded log).length (fun _ => some 0 : Script),
        Script.Willing script := by
      intro script hscript
      rw [List.eq_of_mem_replicate hscript]
      exact fun _ => rfl
    obtain ⟨rest, hread, hnone⟩ := hsync.parses _ hwilling List.length_replicate
    have hframed := framed_of_receiveAll hread
    refine ⟨hcuts, (succeeded_framed_iff hlogged).mp hframed, fun a ha hfailed hcounted hreaches => ?_⟩
    -- The part of this message is what is left once the messages before it are read.
    obtain ⟨part, hstream, -, hparts⟩ := stream_eq hlogged hcuts
    obtain ⟨n, hcut, rfl⟩ := hparts a ha (Sends.header_ne_none hreaches.header) hfailed
    rw [hstream, receiveAll_frames hframed hwilling List.length_replicate] at hread
    cases hread
    exact (recvWithSize_cut_iff hcut).mp hnone hcounted hreaches
  · obtain ⟨rest, hstream, htail, -⟩ := stream_eq hlogged hunbroken.cuts
    refine ⟨(stops_iff hlogged).mpr hunbroken.cuts, fun scripts hscripts hlength => ⟨rest, ?_, ?_⟩⟩
    · rw [hstream]
      exact receiveAll_frames ((succeeded_framed_iff hlogged).mpr hunbroken.framed) hscripts hlength
        rest
    · rcases htail with rfl | ⟨a, ha, n, hcut, rfl⟩
      · intro script m rest' hread
        obtain ⟨-, hn⟩ : Framed (counted []) ∧ 4 + (counted []).length ≤ 0 :=
          of_recvWithSize_take hread
        omega
      · exact (recvWithSize_cut_iff hcut).mpr (hunbroken.parts a ha hcut.failed)

/-! ### Two runs -/

/-- An acknowledgement of request `requestId`. -/
def ackPdu (requestId : UInt32) : Pdu where
  type := .messageAck
  choice := .messageAck { requestId, responseCode := .positive }
  timestamp := 0

def accepting : Sends := { header := some 3, body := fun _ => some 65535 }

/-- The connection refuses the first acknowledgement at once and takes the second. -/
def refusedRounds : List Round :=
  [⟨some (ackPdu 1), { header := none, body := fun _ => none }⟩, ⟨none, accepting⟩,
    ⟨some (ackPdu 2), accepting⟩]

theorem inSync_refusedRounds :
    ∃ log, publisherLoop (JsonE3.encoder Json.textCodec) refusedRounds = some log ∧ InSync log := by
  have hlengths : (messages (JsonE3.encoder Json.textCodec) refusedRounds).all
      (fun a => decide (1 ≤ a.1.length ∧ a.1.length ≤ 65536)) = true := by decide +kernel
  have hheaders : (messages (JsonE3.encoder Json.textCodec) refusedRounds).map
      (fun a => a.2.header) = [none, some 3] := by decide +kernel
  have hframed : ∀ a ∈ messages (JsonE3.encoder Json.textCodec) refusedRounds,
      1 ≤ a.1.length ∧ a.1.length ≤ 65536 := fun a ha =>
    of_decide_eq_true (List.all_eq_true.mp hlengths a ha)
  have hcuts : ((messages (JsonE3.encoder Json.textCodec) refusedRounds).map
      fun a => a.2.header).Pairwise fun x y => x = none ∨ y = none := by
    rw [hheaders]
    decide
  obtain ⟨log, hrun, hiff⟩ := inSync_iff (JsonE3.encoder Json.textCodec) refusedRounds
  refine ⟨log, hrun, hiff.mpr ⟨?_, fun a ha _ => hframed a ha, fun a ha hfailed _ hreaches => ?_⟩⟩
  · exact (List.pairwise_map.mp hcuts).imp fun hor hheader _ => hor.resolve_left hheader
  · rw [counted_of_lt (Nat.lt_of_le_of_lt (hframed a ha).2 (by decide))] at hreaches
    exact hfailed hreaches.takes

/-- The connection takes one octet of the first acknowledgement after its header, and then fails once;
the second acknowledgement is sent whole. -/
def cutRounds : List Round :=
  [⟨some (ackPdu 1), { header := some 3, body := fun k => if k = 0 then some 0 else none }⟩,
    ⟨some (ackPdu 2), accepting⟩]

/-- The second send succeeds, and the peer reads a message that was never sent. -/
theorem not_inSync_cutRounds :
    ∃ log, publisherLoop (JsonE3.encoder Json.textCodec) cutRounds = some log ∧
      log.map Sent.result = [.transportError, .success] ∧
      (∃ m rest, recvWithSize (fun _ => some 65535) (stream log) = some (.message m, rest) ∧
        m ∉ log.map Sent.message) ∧
      ¬InSync log := by
  have hrun : (publisherLoop (JsonE3.encoder Json.textCodec) cutRounds).map (fun log =>
      (log.map fun s => (s.result, s.written.isEmpty),
        (recvWithSize (fun _ => some 65535) (stream log)).map fun r =>
          match r.1 with
          | .message m => decide (m ∈ log.map Sent.message)
          | _ => true)) =
      some ([(.transportError, false), (.success, false)], some false) := by decide +kernel
  obtain ⟨log, hlog, heq⟩ := Option.map_eq_some_iff.mp hrun
  obtain ⟨hsends, hread⟩ := Prod.mk.injEq _ _ _ _ ▸ heq
  obtain ⟨a, b, rfl⟩ : ∃ a b, log = [a, b] := by
    have hlength := congrArg List.length hsends
    rw [List.length_map] at hlength
    exact List.length_eq_two.mp hlength
  simp only [List.map_cons, List.map_nil, List.cons.injEq, Prod.mk.injEq, and_true] at hsends
  obtain ⟨⟨ha, hawritten⟩, hb, hbwritten⟩ := hsends
  refine ⟨[a, b], hlog, by rw [List.map_cons, List.map_cons, ha, hb]; rfl, ?_, fun hsync => ?_⟩
  · obtain ⟨⟨received, rest⟩, hreceive, hnew⟩ := Option.map_eq_some_iff.mp hread
    cases received with
    | message m => exact ⟨m, rest, hreceive, of_decide_eq_false hnew⟩
    | closed => cases hnew
    | transportError => cases hnew
  · have hstops := (List.pairwise_cons.mp hsync.stops).1 b List.mem_cons_self
    rw [ha] at hstops
    rcases hstops (by decide) with hnil | hnil
    · rw [hnil] at hawritten
      cases hawritten
    · rw [hnil] at hbwritten
      cases hbwritten

end Posix

end LibE3
