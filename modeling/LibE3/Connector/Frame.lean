import LibE3.Lib.Transfer
import LibE3.Types
import Mathlib.Algebra.Group.Nat.Defs

/-! The frames of `PosixE3Connector`: `send_in_chunks` writes the length of a message in four octets and
then the message, chunk by chunk, and `recv_with_size` reads such a frame.  The calls of `::send` and
`::recv` move as much as the operating system takes, and may fail. -/

namespace LibE3

namespace Posix

open Transfer

def CHUNK_SIZE : Nat := 8192

/-- The octets of `htonl(static_cast<uint32_t>(size))`. -/
def htonl (size : Nat) : Octets :=
  let n := size % 2 ^ 32
  [.ofNat (n / 2 ^ 24), .ofNat (n / 2 ^ 16 % 256), .ofNat (n / 2 ^ 8 % 256), .ofNat (n % 256)]

def ntohl (header : Octets) : Nat := header.foldl (fun n b => 256 * n + b.toNat) 0

/-- The octets that a whole send of `message` writes. -/
def frame (message : Octets) : Octets := htonl message.length ++ message

/-! ### Sending -/

/-- What the calls of `::send` for one message come to: the one for the header, and those for the
message. -/
structure Sends where
  header : Option Nat
  body : Script

/-- The outer loop, which sends chunk after chunk, for at most `tests` tests. -/
def sendBody (script : Script) (buffer : Octets) :
    Nat → Progress UInt8 → Nat → Option (Progress UInt8 × Option Nat)
  | 0, _, _ => none
  | tests + 1, p, totalSent =>
    if totalSent < buffer.length then
      let bytesToSend := min CHUNK_SIZE (buffer.length - totalSent)
      let chunk := (buffer.drop totalSent).take bytesToSend
      (drain script chunk (bytesToSend + 1) p 0).bind fun result =>
        match result with
        | (p, none) => some (p, none)
        | (p, some chunkSent) => sendBody script buffer tests p (totalSent + chunkSent)
    else some (p, some totalSent)

/-- What `send_in_chunks` writes, and whether it returns 0. -/
def sendInChunks (sends : Sends) (buffer : Octets) : Option (Octets × Bool) :=
  match sends.header with
  | none => some ([], false)
  | some willing =>
    let sent := min (willing + 1) 4
    let header := (htonl buffer.length).take sent
    if sent ≠ 4 then some (header, false)
    else
      (sendBody sends.body buffer (buffer.length + 1) { written := header } 0).map fun result =>
        (result.1.written, result.2.isSome)

/-! ### Receiving -/

inductive Received
  | message (buffer : Octets)
  | closed
  | transportError
  deriving DecidableEq, Repr

/-- What `recv_with_size` returns, and the stream that it leaves. -/
def recvWithSize (script : Script) (stream : Octets) : Option (Received × Octets) :=
  (fill id 4 script 5 { stream }).bind fun result =>
    match result with
    | (r, .closed) => some (.closed, r.stream)
    | (r, .failed) => some (.transportError, r.stream)
    | (r, .full) =>
      let payloadSize := ntohl r.received
      if payloadSize = 0 ∨ payloadSize > MAX_PROTOCOL_DATA_SIZE * 2 then
        some (.transportError, r.stream)
      else
        (fill (min CHUNK_SIZE) payloadSize script (payloadSize + 1)
          { stream := r.stream, calls := r.calls }).map fun result =>
          match result with
          | (r, .full) => (.message r.received, r.stream)
          | (r, _) => (.transportError, r.stream)

/-! ### What a send writes -/

theorem htonl_length (size : Nat) : (htonl size).length = 4 := rfl

theorem ntohl_htonl (size : Nat) : ntohl (htonl size) = size % 2 ^ 32 := by
  have hlt := Nat.mod_lt size (show 0 < 2 ^ 32 by decide)
  simp only [ntohl, htonl, List.foldl_cons, List.foldl_nil, UInt8.toNat_ofNat']
  omega

theorem frame_length (message : Octets) : (frame message).length = 4 + message.length :=
  List.length_append

/-- What a `::send` asks for when `t` of `n` octets are out: the rest of the chunk. -/
def asked (n t : Nat) : Nat := min (CHUNK_SIZE - t % CHUNK_SIZE) (n - t)

/-- The outer loop ends, with the whole message or with a part of it written. -/
theorem sendBody_ends {script : Script} {buffer before : Octets} {tests totalSent : Nat}
    {p : Progress UInt8} (hsent : totalSent ≤ buffer.length)
    (hchunks : totalSent < buffer.length → totalSent % CHUNK_SIZE = 0)
    (htests : buffer.length - totalSent < tests) (hp : p.written = before ++ buffer.take totalSent)
    (hout : Out script (asked buffer.length) p.calls totalSent) :
    ∃ p' result, sendBody script buffer tests p totalSent = some (p', result) ∧
      Wrote script (asked buffer.length) 0 buffer before p' result := by
  induction tests generalizing p totalSent with
  | zero => omega
  | succ tests ih =>
    unfold sendBody
    split
    case isTrue hlt =>
      have hmod := hchunks hlt
      generalize hmin : min CHUNK_SIZE (buffer.length - totalSent) = bytesToSend
      unfold CHUNK_SIZE at hmod hmin
      have hlength : ((buffer.drop totalSent).take bytesToSend).length = bytesToSend := by
        rw [List.length_take, List.length_drop]
        omega
      have hask : ∀ s < ((buffer.drop totalSent).take bytesToSend).length,
          asked buffer.length (totalSent + s) =
            ((buffer.drop totalSent).take bytesToSend).length - s := by
        intro s hs
        rw [hlength] at hs ⊢
        unfold asked CHUNK_SIZE
        omega
      obtain ⟨p', result, hrun, hwrote⟩ := drain_ends (p := p) hask (Nat.zero_le _)
        (show _ - 0 < bytesToSend + 1 by omega) (List.append_nil _).symm hout
      simp only [hrun, Option.bind_some]
      cases hwrote with
      | all h hout' =>
        rw [hlength] at hout' ⊢
        refine ih (by omega) (fun hmore => ?_) (by omega) ?_ hout'
        · unfold CHUNK_SIZE
          omega
        · rw [h, hp, List.append_assoc, take_append_take_drop]
      | cut n hn h calls hout' hfailed =>
        refine ⟨p', none, rfl, .cut (totalSent + n) (by omega) ?_ calls ?_ hfailed⟩
        · rw [h, hp, List.append_assoc, List.take_take, Nat.min_eq_left (by omega),
            take_append_take_drop]
        · rw [Nat.zero_add]
          exact hout'
    case isFalse hge =>
      have heq : totalSent = buffer.length := Nat.le_antisymm hsent (Nat.not_lt.mp hge)
      subst heq
      refine ⟨p, _, rfl, .all ?_ ?_⟩
      · rw [hp, List.take_length]
      · rw [Nat.zero_add]
        exact hout

/-- The system takes a whole message of `n` octets: the header in one call, and then calls that do not
fail until all octets are out. -/
structure Sends.Takes (sends : Sends) (n : Nat) : Prop where
  header : ∃ willing, sends.header = some willing ∧ 3 ≤ willing
  body : ∃ calls, Out sends.body (asked n) calls n

/-- The header goes out in one call, and then calls that do not fail until `t` or more of the `n` octets
are out. -/
structure Sends.Reaches (sends : Sends) (n t : Nat) : Prop where
  header : ∃ willing, sends.header = some willing ∧ 3 ≤ willing
  body : ∃ calls t', t ≤ t' ∧ Out sends.body (asked n) calls t'

/-- A message whose octets all go out is taken whole. -/
theorem Sends.Reaches.takes {sends : Sends} {n : Nat} (h : sends.Reaches n n) : sends.Takes n := by
  obtain ⟨calls, t, ht, hout⟩ := h.body
  have hle : t ≤ n := by
    rw [← hout.count]
    refine out_le (fun t _ => ?_) sends.body calls
    exact Nat.min_le_right _ _
  obtain rfl : t = n := Nat.le_antisymm hle ht
  exact ⟨h.header, calls, hout⟩

/-- The system takes `n` octets of the frame of `message`, and no more of it. -/
structure Sends.Cut (sends : Sends) (message : Octets) (n : Nat) : Prop where
  pos : 0 < n
  lt : n < (frame message).length
  header : sends.header ≠ none
  failed : ¬sends.Takes message.length
  reaches : ∀ t, sends.Reaches message.length t ↔ 4 + t ≤ n

/-- A `::send` that takes a part of the header ends the send. -/
theorem Sends.cut_of_header {sends : Sends} {message : Octets} {willing : Nat}
    (hheader : sends.header = some willing) (hshort : willing < 3) :
    sends.Cut message (willing + 1) := by
  have hnot : ¬∃ w, sends.header = some w ∧ 3 ≤ w := by
    rintro ⟨w, hw, hge⟩
    rw [hheader] at hw
    cases hw
    omega
  refine ⟨by omega, ?_, ?_, fun h => hnot h.header, fun t => ⟨fun h => absurd h.header hnot, ?_⟩⟩
  · rw [frame_length]
    omega
  · rw [hheader]
    nofun
  · omega

/-- A `::send` that fails after `n` octets of the message ends the send. -/
theorem Sends.cut_of_body {sends : Sends} {message : Octets} {willing n calls : Nat}
    (hheader : sends.header = some willing) (hwilling : 3 ≤ willing) (hn : n < message.length)
    (hout : Out sends.body (asked message.length) calls n) (hfailed : sends.body calls = none) :
    sends.Cut message (4 + n) := by
  refine ⟨by omega, ?_, ?_, fun htakes => ?_, fun t => ⟨fun h => ?_, fun ht => ?_⟩⟩
  · rw [frame_length]
    omega
  · rw [hheader]
    nofun
  · obtain ⟨calls', hall⟩ := htakes.body
    have hle := hout.le_of_failed hfailed hall
    omega
  · obtain ⟨calls', t', ht, hout'⟩ := h.body
    have hle := hout.le_of_failed hfailed hout'
    omega
  · exact ⟨⟨willing, hheader, hwilling⟩, calls, n, by omega, hout⟩

/-- How a send of `message` ends. -/
inductive SendResult (sends : Sends) (message : Octets) : Octets → Bool → Prop
  | whole (htakes : sends.Takes message.length) : SendResult sends message (frame message) true
  | refused (hheader : sends.header = none) : SendResult sends message [] false
  | cut (n : Nat) (hcut : sends.Cut message n) : SendResult sends message ((frame message).take n) false

/-- `send_in_chunks` returns, and writes the whole frame, nothing, or a part of the frame. -/
theorem sendInChunks_ends (sends : Sends) (message : Octets) :
    ∃ written ok, sendInChunks sends message = some (written, ok) ∧
      SendResult sends message written ok := by
  unfold sendInChunks
  cases hheader : sends.header with
  | none => exact ⟨[], false, rfl, .refused hheader⟩
  | some willing =>
    dsimp only
    split
    case isTrue hshort =>
      have htake : (htonl message.length).take (min (willing + 1) 4) =
          (frame message).take (willing + 1) := by
        rw [frame, Nat.min_eq_left (by omega), List.take_append_of_le_length]
        rw [htonl_length]
        omega
      refine ⟨_, false, rfl, ?_⟩
      rw [htake]
      exact .cut (willing + 1) (Sends.cut_of_header hheader (by omega))
    case isFalse hwhole =>
      have hsent : min (willing + 1) 4 = 4 := not_not.mp hwhole
      have hstart : (htonl message.length).take (min (willing + 1) 4) =
          htonl message.length ++ message.take 0 := by
        rw [hsent]
        rfl
      obtain ⟨p', result, hrun, hwrote⟩ := sendBody_ends
        (p := { written := (htonl message.length).take (min (willing + 1) 4) }) (Nat.zero_le _)
        (fun _ => rfl) (show message.length - 0 < message.length + 1 by omega) hstart
        (.start _ _)
      rw [hrun]
      refine ⟨p'.written, result.isSome, rfl, ?_⟩
      cases hwrote with
      | all h hout =>
        rw [h]
        rw [Nat.zero_add] at hout
        exact .whole ⟨⟨willing, hheader, by omega⟩, p'.calls, hout⟩
      | cut n hn h calls hout hfailed =>
        have htake : htonl message.length ++ message.take n = (frame message).take (4 + n) := by
          rw [frame, ← htonl_length message.length, List.take_length_add_append]
        rw [h, htake]
        rw [Nat.zero_add] at hout
        exact .cut (4 + n) (Sends.cut_of_body hheader (by omega) hn hout hfailed)

/-! ### What a receive reads -/

/-- The bounds on the length of a message that `recv_with_size` takes. -/
def Framed (message : Octets) : Prop :=
  1 ≤ message.length ∧ message.length ≤ MAX_PROTOCOL_DATA_SIZE * 2

/-- The header loop reads the four octets of the header and no more. -/
theorem fill_header {script : Script} (hscript : script.Willing) (size : Nat) (stream : Octets) :
    ∃ calls, fill id 4 script 5 { stream := htonl size ++ stream } =
      some (⟨htonl size, stream, calls⟩, .full) :=
  fill_full (r := { stream := htonl size ++ stream }) (fun _ hn => ⟨hn, Nat.le_refl _⟩) hscript rfl
    rfl (Nat.lt_succ_self 4)

/-- After a header come the octets that it counts, whatever counts the calls return. -/
theorem recvWithSize_header {script : Script} (hscript : script.Willing) {size : Nat} {body : Octets}
    (hsize : size % 2 ^ 32 = body.length) (hbody : Framed body) (rest : Octets) :
    recvWithSize script (htonl size ++ (body ++ rest)) = some (.message body, rest) := by
  obtain ⟨hpos, hle⟩ := hbody
  obtain ⟨calls, hheader⟩ := fill_header hscript size (body ++ rest)
  have hask : ∀ n, 1 ≤ n → 1 ≤ min CHUNK_SIZE n ∧ min CHUNK_SIZE n ≤ n := by
    intro n hn
    unfold CHUNK_SIZE
    omega
  obtain ⟨calls', hfill⟩ := fill_full (r := { stream := body ++ rest, calls := calls }) hask
    hscript rfl (Nat.zero_add body.length) (Nat.lt_succ_self body.length)
  rw [recvWithSize, hheader, Option.bind_some]
  simp only [ntohl_htonl, hsize]
  rw [if_neg (by omega), hfill]
  rfl

/-- A frame at the head of the stream is read exactly. -/
theorem recvWithSize_frame {script : Script} (hscript : script.Willing) {message : Octets}
    (hmessage : Framed message) (stream : Octets) :
    recvWithSize script (frame message ++ stream) = some (.message message, stream) := by
  have hlimit : MAX_PROTOCOL_DATA_SIZE * 2 = 65536 := rfl
  have hle := hmessage.2
  rw [frame, List.append_assoc]
  exact recvWithSize_header hscript (Nat.mod_eq_of_lt (by omega)) hmessage stream

/-- A message that is received follows the header that holds its length, which is within the
bounds. -/
theorem split_of_recvWithSize {script : Script} {stream message rest : Octets}
    (h : recvWithSize script stream = some (.message message, rest)) :
    ∃ header, header.length = 4 ∧ header ++ (message ++ rest) = stream ∧
      ntohl header = message.length ∧ Framed message := by
  obtain ⟨⟨r, ending⟩, hheader, h⟩ := Option.bind_eq_some_iff.mp h
  cases ending with
  | closed => cases h
  | failed => cases h
  | full =>
    obtain ⟨hstream, hfour⟩ := fill_eq_full (fun _ => Nat.le_refl _) (Nat.zero_le _) hheader
    dsimp only at h
    split at h
    · cases h
    · obtain ⟨⟨r', ending⟩, hbody, h⟩ := Option.map_eq_some_iff.mp h
      cases ending with
      | closed => cases h
      | failed => cases h
      | full =>
        cases h
        obtain ⟨hrest, hlength⟩ :=
          fill_eq_full (fun _ => Nat.min_le_right _ _) (Nat.zero_le _) hbody
        refine ⟨r.received, hfour, ?_, hlength.symm, ?_⟩
        · rw [hrest, List.nil_append, hstream, List.nil_append]
        · unfold Framed
          omega

theorem framed_of_recvWithSize {script : Script} {stream message rest : Octets}
    (h : recvWithSize script stream = some (.message message, rest)) : Framed message := by
  obtain ⟨-, -, -, -, hframed⟩ := split_of_recvWithSize h
  exact hframed

/-! ### A stream of frames -/

/-- Messages sent one after the other on one connection: what is written, and which sends return 0. -/
def sendAll : List (Octets × Sends) → Option (Octets × List Bool)
  | [] => some ([], [])
  | m :: rest =>
    (sendInChunks m.2 m.1).bind fun first =>
      (sendAll rest).map fun later => (first.1 ++ later.1, first.2 :: later.2)

/-- Successive calls of `recv_with_size`: what each returns and how many octets it takes, and the
stream that they leave. -/
def receiveAll : List Script → Octets → Option (List (Received × Nat) × Octets)
  | [], stream => some ([], stream)
  | script :: scripts, stream =>
    (recvWithSize script stream).bind fun first =>
      (receiveAll scripts first.2).map fun later =>
        ((first.1, stream.length - first.2.length) :: later.1, later.2)

/-- Every `::send` takes at least one octet, and that of the header takes it whole. -/
structure Sends.Accepting (sends : Sends) : Prop where
  header : ∃ willing, sends.header = some willing ∧ 3 ≤ willing
  body : sends.body.Willing

theorem sendInChunks_takes {sends : Sends} {message : Octets} (h : sends.Takes message.length) :
    sendInChunks sends message = some (frame message, true) := by
  obtain ⟨written, ok, hrun, hresult⟩ := sendInChunks_ends sends message
  rw [hrun]
  cases hresult with
  | whole _ => rfl
  | refused hnone =>
    obtain ⟨willing, hheader, -⟩ := h.header
    rw [hheader] at hnone
    cases hnone
  | cut n hcut => exact absurd h hcut.failed

theorem Sends.Accepting.takes {sends : Sends} (h : sends.Accepting) (n : Nat) : sends.Takes n := by
  refine ⟨h.header, exists_out h.body (fun t ht => ?_) (.start _ _) (Nat.zero_le n)⟩
  unfold asked CHUNK_SIZE
  omega

theorem receiveAll_frames {messages : List Octets} (hmessages : ∀ m ∈ messages, Framed m)
    {scripts : List Script} (hscripts : ∀ script ∈ scripts, script.Willing)
    (hlength : scripts.length = messages.length) (later : Octets) :
    receiveAll scripts ((messages.map frame).flatten ++ later) =
      some (messages.map fun m => (.message m, 4 + m.length), later) := by
  induction messages generalizing scripts with
  | nil =>
    rw [List.length_nil] at hlength
    rw [List.length_eq_zero_iff.mp hlength]
    rfl
  | cons m messages ih =>
    cases scripts with
    | nil => cases hlength
    | cons script scripts =>
      obtain ⟨hscript, hscripts⟩ := List.forall_mem_cons.mp hscripts
      obtain ⟨hm, hmessages⟩ := List.forall_mem_cons.mp hmessages
      have hrest := ih hmessages hscripts (Nat.succ.inj hlength)
      rw [receiveAll, List.map_cons, List.flatten_cons, List.append_assoc,
        recvWithSize_frame hscript hm, Option.bind_some, hrest]
      simp only [Option.map_some, List.map_cons, List.length_append, frame_length]
      rw [Nat.add_sub_cancel]

/-- Frames written one after the other are read one after the other, whatever counts `::send` and
`::recv` come to: every send returns 0, and every receive returns its message and takes its frame and
no more of the stream. -/
theorem frame_round_trip (messages : List (Octets × Sends))
    (hmessages : ∀ m ∈ messages, 1 ≤ m.1.length ∧ m.1.length ≤ 65536)
    (hsends : ∀ m ∈ messages, m.2.Accepting) :
    ∃ stream, sendAll messages = some (stream, messages.map fun _ => true) ∧
      ∀ (counts : List (Nat → Nat)) (later : Octets), counts.length = messages.length →
        receiveAll (counts.map fun count k => some (count k)) (stream ++ later) =
          some (messages.map fun m => (.message m.1, 4 + m.1.length), later) := by
  refine ⟨((messages.map Prod.fst).map frame).flatten, ?_, fun counts later hlength => ?_⟩
  · induction messages with
    | nil => rfl
    | cons m messages ih =>
      obtain ⟨hm, hrest⟩ := List.forall_mem_cons.mp hsends
      rw [sendAll, sendInChunks_takes (hm.takes _), Option.bind_some,
        ih (fun m hm => hmessages m (List.mem_cons_of_mem _ hm)) hrest]
      rfl
  · have hframed : ∀ m ∈ messages.map Prod.fst, Framed m := by
      intro m hm
      obtain ⟨w, hw, rfl⟩ := List.mem_map.mp hm
      exact hmessages w hw
    have hwilling : ∀ script ∈ counts.map fun count k => some (count k), Script.Willing script := by
      intro script hscript
      obtain ⟨count, -, rfl⟩ := List.mem_map.mp hscript
      exact fun k => rfl
    rw [receiveAll_frames hframed hwilling (by rw [List.length_map, List.length_map, hlength]) later,
      List.map_map]
    rfl

/-- Two messages, each octet of them sent by a call of its own. -/
def bytewise : List (Octets × Sends) :=
  [([1, 2, 3], { header := some 3, body := fun _ => some 0 }),
    ([4], { header := some 3, body := fun _ => some 0 })]

theorem frame_round_trip_bytewise :
    ∃ stream, sendAll bytewise = some (stream, [true, true]) ∧
      receiveAll [fun _ => some 0, fun _ => some 1] stream =
        some ([(.message [1, 2, 3], 7), (.message [4], 5)], []) := by
  have haccepting : ∀ m ∈ bytewise, m.2.Accepting := by
    intro m hm
    simp only [bytewise, List.mem_cons, List.not_mem_nil, or_false] at hm
    rcases hm with rfl | rfl <;> exact ⟨⟨3, rfl, Nat.le_refl 3⟩, fun _ => rfl⟩
  obtain ⟨stream, hsend, hreceive⟩ := frame_round_trip bytewise (by decide) haccepting
  refine ⟨stream, hsend, ?_⟩
  have hread := hreceive [fun _ => 0, fun _ => 1] [] rfl
  rw [List.append_nil] at hread
  exact hread

end Posix

end LibE3
