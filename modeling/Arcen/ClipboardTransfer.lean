import Arcen.Pieces
import Arcen.ClipboardReassembler

/-! Sending a clipboard item (`ClipboardTransfer` and `ClipboardCursor` of
`shared/protocol/src/clipboard.rs`) and receiving it again. Sender cursor, sender chunk list, chunk codec
and reassembler each do their own boundary arithmetic; they meet at the pieces of the payload. -/

namespace Arcen

open List hiding le_antisymm lt_irrefl

open ClipboardReassembler

inductive ClipboardFramingError where
  | emptyPayload
  | payloadTooLarge
  | chunkEncoding

/-- A clipboard payload on its way out: not empty, and its size fits the wire's size field. -/
structure ClipboardTransfer where
  sequence : UInt64
  kind : ClipboardContentKind
  bytes : List UInt8
  truncated : Bool
  bytes_nonempty : bytes ≠ []
  bytes_fit : bytes.length < 2 ^ 32

/-- One message in a clipboard transfer, in the order it must be sent. -/
inductive ClipboardWireMessage where
  | offer (message : ClipboardDataMsg)
  | chunk (frame : List UInt8)

/-- Yields a transfer one wire message at a time, offer first. -/
structure ClipboardCursor where
  transfer : ClipboardTransfer
  offerSent : Bool
  offset : Nat

namespace ClipboardTransfer

variable (reserve : Nat → Bool) (transfer : ClipboardTransfer)

def new (sequence : UInt64) (kind : ClipboardContentKind) (bytes : List UInt8) :
    Except ClipboardFramingError ClipboardTransfer :=
  if hempty : bytes = [] then .error .emptyPayload
  -- the length converts to `u32`
  else if hfit : bytes.length < 2 ^ 32 then .ok ⟨sequence, kind, bytes, false, hempty, hfit⟩
  else .error .payloadTooLarge

/-- Marks this payload as one a size policy cut short. -/
def withTruncated (truncated : Bool) : ClipboardTransfer := { transfer with truncated }

def intoCursor : ClipboardCursor := ⟨transfer, false, 0⟩

def offer : ClipboardDataMsg :=
  .new transfer.sequence transfer.kind (UInt32.ofNat transfer.bytes.length) transfer.truncated

def chunkHeader (offset : UInt32) : ClipboardChunkHeader :=
  ⟨transfer.kind, transfer.sequence, UInt32.ofNat transfer.bytes.length, offset⟩

def chunkEnd (offset : Nat) : Nat := pieceEnd clipboardChunkPayloadBytes transfer.bytes.length offset

/-- The body of the loop of `chunks`: the frame at an offset. -/
def chunkFrame (offset : Nat) : Except ClipboardFramingError (List UInt8) :=
  match u32TryFrom offset with
  | none => .error .payloadTooLarge
  | some chunkOffset =>
    match encodeClipboardChunk reserve (transfer.chunkHeader chunkOffset)
        (slice transfer.bytes offset (transfer.chunkEnd offset)) with
    | .error _ => .error .chunkEncoding
    | .ok frame => .ok frame

def chunks : Except ClipboardFramingError (List (List UInt8)) :=
  cutLoop clipboardChunkPayloadBytes clipboardChunkPayloadBytes_pos transfer.bytes.length
    (transfer.chunkFrame reserve) 0

end ClipboardTransfer

namespace ClipboardCursor

/-- The next message, or `none` once the transfer is complete. -/
def nextMessage (reserve : Nat → Bool) (cursor : ClipboardCursor) :
    ClipboardCursor × Option (Except ClipboardFramingError ClipboardWireMessage) :=
  if cursor.offerSent = false then
    ({ cursor with offerSent := true }, some (.ok (.offer cursor.transfer.offer)))
  else if cursor.offset = cursor.transfer.bytes.length then (cursor, none)
  else
    match encodeClipboardChunk reserve (cursor.transfer.chunkHeader (UInt32.ofNat cursor.offset))
        (slice cursor.transfer.bytes cursor.offset (cursor.transfer.chunkEnd cursor.offset)) with
    | .ok frame =>
      ({ cursor with offset := cursor.transfer.chunkEnd cursor.offset }, some (.ok (.chunk frame)))
    | .error _ => (cursor, some (.error .chunkEncoding))

/-- What the next calls of `next_message` return. -/
def messages (reserve : Nat → Bool) :
    Nat → ClipboardCursor → List (Option (Except ClipboardFramingError ClipboardWireMessage))
  | 0, _ => []
  | n + 1, cursor => (cursor.nextMessage reserve).2 :: messages reserve n (cursor.nextMessage reserve).1

end ClipboardCursor

/-- Feeds received chunks to the reassembler at their times; `none` stands for a chunk that does not
decode. -/
def ClipboardReassembler.receive (reserve : Nat → Bool) : ClipboardReassembler → List (List UInt8 × Instant) →
    List (Option (Except ClipboardReassemblyError (Option CompletedClipboardData)))
  | _, [] => []
  | reassembler, (frame, now) :: rest =>
    match decodeClipboardChunk frame with
    | .error _ => none :: receive reserve reassembler rest
    | .ok (header, payload) =>
      let (next, result) := reassembler.pushAt header payload now (reserve payload.length)
      some result :: receive reserve next rest

theorem ClipboardReassembler.receive_cons {reserve : Nat → Bool} {asm next : ClipboardReassembler}
    {frame payload : List UInt8}
    (hdec : decodeClipboardChunk frame = .ok (header, payload))
    (hp : asm.pushAt header payload now (reserve payload.length) = (next, result))
    (rest : List (List UInt8 × Instant)) :
    asm.receive reserve ((frame, now) :: rest) = some result :: next.receive reserve rest := by
  rw [receive, hdec]
  simp only [hp]

/-! ### The frames of a payload -/

namespace ClipboardTransfer

variable {reserve : Nat → Bool} {transfer : ClipboardTransfer}

abbrev headerAt (transfer : ClipboardTransfer) (offset : Nat) : ClipboardChunkHeader :=
  transfer.chunkHeader (UInt32.ofNat offset)

abbrev payloadAt (transfer : ClipboardTransfer) (offset : Nat) : List UInt8 :=
  slice transfer.bytes offset (transfer.chunkEnd offset)

def frameAt (transfer : ClipboardTransfer) (offset : Nat) : List UInt8 :=
  (transfer.headerAt offset).layout (transfer.payloadAt offset)

abbrev startsFrom (transfer : ClipboardTransfer) (offset : Nat) : List Nat :=
  pieceStarts clipboardChunkPayloadBytes clipboardChunkPayloadBytes_pos transfer.bytes.length offset

/-- A transfer the wire can carry. -/
structure Sendable (transfer : ClipboardTransfer) : Prop where
  sequence : transfer.sequence ≠ 0
  size : transfer.bytes.length ≤ hardMaxClipboardBytes

variable {offset : Nat} {asm : ClipboardReassembler}

section

variable (h : offset < transfer.bytes.length)
include h

theorem chunkEnd_range : offset < transfer.chunkEnd offset ∧ transfer.chunkEnd offset ≤ transfer.bytes.length ∧
      transfer.chunkEnd offset - offset ≤ clipboardChunkPayloadBytes :=
  pieceEnd_range clipboardChunkPayloadBytes_pos h

theorem length_payloadAt : (transfer.payloadAt offset).length = transfer.chunkEnd offset - offset :=
  length_slice (chunkEnd_range h).2.1

theorem startsFrom_of_lt :
    transfer.startsFrom offset = offset :: transfer.startsFrom (transfer.chunkEnd offset) := pieceStarts_of_lt h

end

theorem toNat_totalSize (offset : Nat) : (transfer.headerAt offset).totalSize.toNat = transfer.bytes.length :=
  UInt32.toNat_ofNat_of_lt' transfer.bytes_fit

theorem toNat_offset (h : offset < transfer.bytes.length) : (transfer.headerAt offset).offset.toNat = offset :=
  UInt32.toNat_ofNat_of_lt' (h.trans transfer.bytes_fit)

/-- Every chunk of a sendable transfer passes the checks both ends make. -/
theorem Sendable.valid (hs : transfer.Sendable) (h : offset < transfer.bytes.length) :
    validateClipboardChunk (transfer.headerAt offset) (transfer.payloadAt offset).length = .ok () := by
  obtain ⟨_, _, _⟩ := chunkEnd_range h
  have hsize := hs.size
  have hbd : clipboardChunkPayloadBytes ≤ chunkBytes := by decide
  rw [validateClipboardChunk_eq_ok, toNat_totalSize, toNat_offset h, length_payloadAt h]
  exact ⟨hs.sequence, by omega, by omega, by omega⟩

/-- A chunk as a session record is at most as long as the bulk lane's frame bound. -/
theorem record_length_le (h : offset < transfer.bytes.length) :
    (SessionRecord.binary (transfer.frameAt offset)).encode.length ≤ chunkBytes := by
  have hpay := (chunkEnd_range h).2.2
  have hbd : sessionRecordLengthBytes + sessionRecordKindBytes + clipboardHeaderSize +
      clipboardChunkPayloadBytes = chunkBytes := by decide
  have hfr : (transfer.frameAt offset).length = clipboardHeaderSize + (transfer.chunkEnd offset - offset) := by
    rw [frameAt, ClipboardChunkHeader.length_layout, length_payloadAt h]
  have hrec : (SessionRecord.binary (transfer.frameAt offset)).encode.length =
      sessionRecordLengthBytes + sessionRecordKindBytes + (transfer.frameAt offset).length := by
    rw [SessionRecord.encode, length_append, length_u32ToBeBytes]
    change 4 + ((transfer.frameAt offset).length + 1) = 4 + 1 + (transfer.frameAt offset).length
    omega
  omega

/-! ### The sender's cursor -/

theorem messages_ended (transfer : ClipboardTransfer) (reserve : Nat → Bool) (k : Nat) :
    ClipboardCursor.messages reserve k ⟨transfer, true, transfer.bytes.length⟩ = replicate k none := by
  induction k with
  | zero => rfl
  | succ k ih =>
    have hn : (ClipboardCursor.mk transfer true transfer.bytes.length).nextMessage reserve =
        (⟨transfer, true, transfer.bytes.length⟩, none) := by
      simp [ClipboardCursor.nextMessage]
    rw [ClipboardCursor.messages, hn, ih, replicate_succ]

section

variable (hs : transfer.Sendable) (hresv : ∀ n, reserve n = true)
include hs hresv

theorem Sendable.encode (h : offset < transfer.bytes.length) :
    encodeClipboardChunk reserve (transfer.headerAt offset) (transfer.payloadAt offset) =
      .ok (transfer.frameAt offset) := encodeClipboardChunk_of_valid hresv (hs.valid h)

theorem Sendable.chunks_eq : transfer.chunks reserve = .ok ((transfer.startsFrom 0).map transfer.frameAt) := by
  refine cutLoop_eq_ok (fun offset h => ?_) (length_pos_of_ne_nil transfer.bytes_nonempty)
  have hoff : u32TryFrom offset = some (UInt32.ofNat offset) := u32TryFrom_of_lt (h.trans transfer.bytes_fit)
  simp only [chunkFrame, hoff, hs.encode hresv h]

theorem Sendable.nextMessage_chunk (h : offset < transfer.bytes.length) :
    (ClipboardCursor.mk transfer true offset).nextMessage reserve =
      (⟨transfer, true, transfer.chunkEnd offset⟩, some (.ok (.chunk (transfer.frameAt offset)))) := by
  simp only [ClipboardCursor.nextMessage, Bool.true_eq_false, if_false, if_neg h.ne, hs.encode hresv h]

/-- After the offer the cursor yields the chunks and then nothing, however often it is asked. -/
theorem Sendable.messages_chunks (k : Nat) (h : offset ≤ transfer.bytes.length) :
    ClipboardCursor.messages reserve ((transfer.startsFrom offset).length + k) ⟨transfer, true, offset⟩ =
      (transfer.startsFrom offset).map (fun start => some (.ok (.chunk (transfer.frameAt start)))) ++
        replicate k none := by
  induction offset, h using piece_induction clipboardChunkPayloadBytes_pos with
  | finish =>
    rw [startsFrom, pieceStarts_end, length_nil, Nat.zero_add, messages_ended]
    rfl
  | piece offset hlt ih =>
    rw [startsFrom_of_lt hlt, length_cons, Nat.add_right_comm, ClipboardCursor.messages,
      hs.nextMessage_chunk hresv hlt, map_cons, cons_append]
    exact congrArg (_ :: ·) ih

theorem Sendable.messages_ok (h : offset ≤ transfer.bytes.length) (n : Nat) (error : ClipboardFramingError) :
    some (.error error) ∉ ClipboardCursor.messages reserve n ⟨transfer, true, offset⟩ := by
  induction n generalizing offset with
  | zero => exact not_mem_nil
  | succ n ih =>
    rcases h.lt_or_eq with hlt | rfl
    · rw [ClipboardCursor.messages, hs.nextMessage_chunk hresv hlt]
      exact not_mem_cons_of_ne_of_not_mem nofun (ih (chunkEnd_range hlt).2.1)
    · rw [messages_ended]
      exact fun hmem => nomatch eq_of_mem_replicate hmem

end

/-! ### The receiver -/

/-- The reassembler holds the transfer up to an offset, and last made progress at `last`. -/
structure Receiving (transfer : ClipboardTransfer) (offset : Nat) (last : Instant)
    (reassembler : ClipboardReassembler) (item : InFlight) : Prop where
  maximum : transfer.bytes.length ≤ reassembler.maximum
  inFlight : reassembler.inFlight = some item
  sequence : item.sequence = transfer.sequence
  kind : item.kind = transfer.kind
  totalSize : item.totalSize = transfer.bytes.length
  truncated : item.truncated = transfer.truncated
  bytes : item.bytes = transfer.bytes.take offset
  lastProgress : item.lastProgress = last

/-- The item the transfer ends as. -/
def completed (transfer : ClipboardTransfer) : CompletedClipboardData :=
  ⟨transfer.sequence, transfer.kind, transfer.bytes, transfer.truncated⟩

theorem take_append_payloadAt (h : offset < transfer.bytes.length) :
    transfer.bytes.take offset ++ transfer.payloadAt offset = transfer.bytes.take (transfer.chunkEnd offset) := by
  obtain ⟨hlt, -, -⟩ := chunkEnd_range h
  obtain ⟨_, hm⟩ := Nat.exists_eq_add_of_le hlt.le
  rw [payloadAt, slice, hm, Nat.add_sub_cancel_left, take_add]

/-- The chunk at an offset continues an item that holds the transfer up to it. -/
theorem Receiving.continues (hr : transfer.Receiving offset last asm item) (h : offset < transfer.bytes.length) :
    item.Continues asm.maximum (transfer.headerAt offset) (transfer.payloadAt offset) := by
  obtain ⟨_, _, -⟩ := chunkEnd_range h
  have hmax := hr.maximum
  have hby : item.bytes.length = offset := by rw [hr.bytes, length_take, min_eq_left h.le]
  refine ⟨hr.sequence.symm, hr.kind.symm, ?_, ?_, ?_⟩
  · rw [toNat_totalSize, hr.totalSize]
  · rw [toNat_offset h, hby]
  · rw [hby, length_payloadAt h, hr.totalSize]
    omega

/-- One chunk, in time: the item grows to the end of the chunk, or is complete. -/
theorem Receiving.push (hs : transfer.Sendable)
    (hr : transfer.Receiving offset last asm item) (h : offset < transfer.bytes.length)
    (htime : now - last < clipboardReassemblyTimeout) :
    ∃ after, asm.pushAt (transfer.headerAt offset) (transfer.payloadAt offset) now true =
        (after, .ok (if transfer.chunkEnd offset < transfer.bytes.length then none else some transfer.completed)) ∧
      (transfer.chunkEnd offset < transfer.bytes.length →
        ∃ next, transfer.Receiving (transfer.chunkEnd offset) now after next) := by
  obtain ⟨_, _, -⟩ := chunkEnd_range h
  have hv := validateClipboardChunk_eq_ok.mp (hs.valid h)
  have hpay : transfer.payloadAt offset ≠ [] ∧ (transfer.payloadAt offset).length ≤ chunkBytes :=
    ⟨ne_nil_of_length_pos hv.2.2.1.1, hv.2.2.1.2⟩
  have hlive : asm.stalled now = false := by
    rw [stalled, hr.inFlight]
    simpa [hr.lastProgress] using htime
  have hlen : item.bytes.length + (transfer.payloadAt offset).length = transfer.chunkEnd offset := by
    rw [hr.bytes, length_take, min_eq_left h.le, length_payloadAt h]
    omega
  have hby : item.bytes ++ transfer.payloadAt offset = transfer.bytes.take (transfer.chunkEnd offset) := by
    rw [hr.bytes, take_append_payloadAt h]
  have hac := InFlight.accept_of_continues now (hr.continues h)
  by_cases hm : transfer.chunkEnd offset < transfer.bytes.length
  · rw [dif_pos (by rw [hlen, hr.totalSize]; exact hm)] at hac
    obtain ⟨after, hp, hmax, hn⟩ := pushAt_accept hpay hlive hr.inFlight hac
    refine ⟨after, by rw [if_pos hm]; exact hp, fun _ => ⟨_, ?_, hn, hr.sequence,
      hr.kind, hr.totalSize, hr.truncated, hby, rfl⟩⟩
    rw [hmax]
    exact hr.maximum
  · rw [dif_neg (by rw [hlen, hr.totalSize]; exact hm)] at hac
    obtain ⟨after, hp, -, -⟩ := pushAt_accept hpay hlive hr.inFlight hac
    refine ⟨after, ?_, fun hless => absurd hless hm⟩
    have hwh : transfer.bytes.take (transfer.chunkEnd offset) = transfer.bytes :=
      take_of_length_le (Nat.le_of_not_lt hm)
    rw [hp, if_neg hm, hby, hwh, hr.sequence, hr.kind, hr.truncated]
    rfl

/-- The chunks from an offset on, each in time, give `none` until the last, which gives the item. -/
theorem Sendable.receive_frames (hs : transfer.Sendable) (hresv : ∀ n, reserve n = true)
    (h : offset ≤ transfer.bytes.length) :
    ∀ {asm : ClipboardReassembler} {item : InFlight} {last : Instant} {times : List Instant},
      offset < transfer.bytes.length → transfer.Receiving offset last asm item →
      times.length = (transfer.startsFrom offset).length →
      List.IsChain (fun earlier later => later - earlier < clipboardReassemblyTimeout) (last :: times) →
      asm.receive reserve (((transfer.startsFrom offset).map transfer.frameAt).zip times) =
        replicate ((transfer.startsFrom offset).length - 1) (some (.ok none)) ++
          [some (.ok (some transfer.completed))] := by
  induction offset, h using piece_induction clipboardChunkPayloadBytes_pos with
  | finish => exact fun hlt => absurd hlt (lt_irrefl _)
  | piece offset hlt ih =>
    intro asm item last times _ hr htm hch
    rw [startsFrom_of_lt hlt] at htm ⊢
    rw [length_cons] at htm
    obtain ⟨_, rest, rfl⟩ := exists_cons_of_length_eq_add_one htm
    rw [length_cons, Nat.add_right_cancel_iff] at htm
    obtain ⟨hnow, hlat⟩ := isChain_cons_cons.mp hch
    obtain ⟨after, hp, hn⟩ := hr.push hs hlt hnow
    rw [← hresv (transfer.payloadAt offset).length] at hp
    have hdec : decodeClipboardChunk (transfer.frameAt offset) =
        .ok (transfer.headerAt offset, transfer.payloadAt offset) := decodeClipboardChunk_layout (hs.valid hlt)
    rw [map_cons, zip_cons_cons, receive_cons hdec hp]
    by_cases hm : transfer.chunkEnd offset < transfer.bytes.length
    · -- more chunks follow
      obtain ⟨_, hn⟩ := hn hm
      have hrest : after.receive reserve
          (((transfer.startsFrom (transfer.chunkEnd offset)).map transfer.frameAt).zip rest) =
            replicate ((transfer.startsFrom (transfer.chunkEnd offset)).length - 1) (some (.ok none)) ++
              [some (.ok (some transfer.completed))] := ih hm hn htm hlat
      have hpos : 0 < (transfer.startsFrom (transfer.chunkEnd offset)).length := by
        rw [startsFrom_of_lt hm]
        exact length_pos_of_ne_nil (cons_ne_nil _ _)
      rw [if_pos hm, hrest, ← cons_append, ← replicate_succ, Nat.sub_add_cancel hpos, length_cons, Nat.add_sub_cancel]
    · -- this chunk was the last
      have hend : transfer.chunkEnd offset = transfer.bytes.length :=
        le_antisymm (chunkEnd_range hlt).2.1 (Nat.le_of_not_lt hm)
      rw [if_neg hm, hend, startsFrom, pieceStarts_end]
      rfl

/-- An offer newer than the counter and within the maximum is accepted. -/
theorem Sendable.beginAt (hs : transfer.Sendable) (hkind : transfer.truncated = true → transfer.kind = .textUtf8)
    (hmax : transfer.bytes.length ≤ asm.maximum)
    (hlast : asm.latestSequence < transfer.sequence) (now : Instant) :
    ∃ after item, asm.beginAt transfer.offer now = (after, .ok ()) ∧ transfer.Receiving 0 now after item := by
  have hsize : transfer.offer.sizeBytes.toNat = transfer.bytes.length := UInt32.toNat_ofNat_of_lt' transfer.bytes_fit
  have hpos : 0 < transfer.bytes.length := length_pos_of_ne_nil transfer.bytes_nonempty
  have hbd := hs.size
  have hv : ¬ (transfer.offer.msgType ≠ clipboardData ∨ transfer.offer.sequence = 0 ∨
      transfer.offer.sizeBytes = 0 ∨ (transfer.offer.truncated ∧ transfer.offer.kind ≠ .textUtf8)) := by
    rintro (htype | hseq | hzero | ⟨htrun, hoth⟩)
    · exact htype rfl
    · exact hs.sequence hseq
    · rw [hzero] at hsize
      exact hpos.ne hsize
    · exact hoth (hkind htrun)
  have hnewer : ¬ transfer.offer.sequence ≤ asm.latestSequence := UInt64.not_le.mpr hlast
  have hfits : ¬ (asm.maximum < transfer.offer.sizeBytes.toNat ∨
      hardMaxClipboardBytes < transfer.offer.sizeBytes.toNat) := by
    omega
  unfold ClipboardReassembler.beginAt
  rw [dif_neg hv, if_neg hnewer, dif_neg hfits]
  exact ⟨_, _, rfl, ⟨hmax, rfl, rfl, rfl, hsize, rfl, rfl, rfl⟩⟩

/-- **Clipboard round trip.** A payload of at most the hard maximum is sent as one offer and then the
frames of `chunks`, after which the cursor has ended for good; each chunk fits the bulk lane as a session
record; and a reassembler with room for the payload and an older counter, given the messages in time,
answers `Ok(None)` until the last chunk, which completes the item that was sent. The allocator is taken to
grant every request. -/
theorem clipboard_round_trip (reserve : Nat → Bool) (hreserve : ∀ n, reserve n = true)
    (sequence : UInt64) (hsequence : 1 ≤ sequence) (kind : ClipboardContentKind) (truncated : Bool)
    (htruncated : truncated = true → kind = .textUtf8) (bytes : List UInt8)
    (hsize : 1 ≤ bytes.length ∧ bytes.length ≤ hardMaxClipboardBytes)
    (reassembler : ClipboardReassembler) (hmaximum : bytes.length ≤ reassembler.maximum)
    (hlatest : reassembler.latestSequence < sequence) :
    ∃ plain frames, ClipboardTransfer.new sequence kind bytes = .ok plain ∧
      (plain.withTruncated truncated).chunks reserve = .ok frames ∧ frames ≠ [] ∧
      (∀ k, (plain.withTruncated truncated).intoCursor.messages reserve (1 + frames.length + k) =
        some (.ok (.offer (plain.withTruncated truncated).offer)) ::
          frames.map (fun frame => some (.ok (.chunk frame))) ++ replicate k none) ∧
      (∀ frame ∈ frames, (SessionRecord.binary frame).encode.length ≤ chunkBytes) ∧
      ∀ start times, times.length = frames.length →
        List.IsChain (fun earlier later => later - earlier < clipboardReassemblyTimeout) (start :: times) →
        ∃ begun, reassembler.beginAt (plain.withTruncated truncated).offer start = (begun, .ok ()) ∧
          begun.receive reserve (frames.zip times) = replicate (frames.length - 1) (some (.ok none)) ++
              [some (.ok (some ⟨sequence, kind, bytes, truncated⟩))] := by
  have hemp : bytes ≠ [] := ne_nil_of_length_pos hsize.1
  have hfit : bytes.length < 2 ^ 32 := hsize.2.trans_lt (by decide)
  let transfer : ClipboardTransfer := ⟨sequence, kind, bytes, truncated, hemp, hfit⟩
  have hs : transfer.Sendable := by
    refine ⟨?_, hsize.2⟩
    rintro (rfl : sequence = 0)
    revert hsequence
    decide
  have hsts : 0 < transfer.bytes.length := hsize.1
  refine ⟨⟨sequence, kind, bytes, false, hemp, hfit⟩, (transfer.startsFrom 0).map transfer.frameAt, ?_,
    hs.chunks_eq hreserve, ?_, ?_, ?_, ?_⟩
  · rw [ClipboardTransfer.new, dif_neg hemp, dif_pos hfit]
  · rw [startsFrom_of_lt hsts]
    exact cons_ne_nil _ _
  · intro k
    rw [length_map, map_map, Nat.add_assoc, Nat.add_comm 1, ClipboardCursor.messages]
    exact congrArg (_ :: ·) (hs.messages_chunks hreserve k (Nat.zero_le _))
  · intro frame hfr
    obtain ⟨_, hoff, rfl⟩ := mem_map.mp hfr
    exact record_length_le (lt_of_mem_pieceStarts (Nat.zero_le _) hoff)
  · intro start times htm hch
    obtain ⟨begun, _, hbegun, hr⟩ := hs.beginAt htruncated hmaximum hlatest start
    rw [length_map] at htm ⊢
    exact ⟨begun, hbegun, hs.receive_frames hreserve (Nat.zero_le _) hsts hr htm hch⟩

theorem clipboard_round_trip_letter : ∃ plain frames begun, ClipboardTransfer.new 1 .textUtf8 [97] = .ok plain ∧
      (plain.withTruncated true).chunks (fun _ => true) = .ok frames ∧
      (ClipboardReassembler.mk 1 0 none (by decide) (by simp)).beginAt (plain.withTruncated true).offer 0 =
        (begun, .ok ()) ∧ begun.receive (fun _ => true) (frames.zip (replicate frames.length 0)) =
        replicate (frames.length - 1) (some (.ok none)) ++ [some (.ok (some ⟨1, .textUtf8, [97], true⟩))] := by
  obtain ⟨plain, frames, hplain, hfram, -, -, -, hrece⟩ :=
    clipboard_round_trip (fun _ => true) (fun _ => rfl) 1 (by decide) .textUtf8 true (fun _ => rfl) [97]
      (by decide) ⟨1, 0, none, by decide, by simp⟩ (by decide) (by decide)
  have hch : List.IsChain (fun earlier later : Instant => later - earlier < clipboardReassemblyTimeout)
      (0 :: replicate frames.length 0) := isChain_replicate_of_rel (frames.length + 1) (by decide)
  obtain ⟨begun, hbegun, hcomp⟩ := hrece 0 _ length_replicate hch
  exact ⟨plain, frames, begun, hplain, hfram, hbegun, hcomp⟩

/-! ### What a constructed transfer lacks -/

theorem sendable_of_chunks (h : transfer.chunks reserve = .ok frames) : transfer.Sendable := by
  rw [chunks, cutLoop] at h
  split at h
  · cases h
  · rename_i frame hfr
    have hzero : u32TryFrom 0 = some 0 := rfl
    simp only [chunkFrame, hzero, encodeClipboardChunk] at hfr
    cases hv : validateClipboardChunk (transfer.chunkHeader 0) (transfer.payloadAt 0).length with
    | error =>
      rw [hv] at hfr
      cases hfr
    | ok =>
      obtain ⟨hseq, hsize, -⟩ := validateClipboardChunk_eq_ok.mp hv
      have hleng : (transfer.chunkHeader 0).totalSize.toNat = transfer.bytes.length := toNat_totalSize 0
      exact ⟨hseq, hleng ▸ hsize.2⟩

/-- **What can be constructed.** A transfer that the constructor accepts can be sent, by `chunks` and by the cursor,
exactly if its sequence is not zero and its payload is within the hard maximum; the constructor checks neither. -/
theorem constructed_transfer_sends_iff (hreserve : ∀ n, reserve n = true) {sequence : UInt64}
    {kind : ClipboardContentKind} {bytes : List UInt8} (hnew : new sequence kind bytes = .ok transfer) :
    ((∃ frames, transfer.chunks reserve = .ok frames) ∧
        (∀ n error, some (.error error) ∉ transfer.intoCursor.messages reserve n) ∧
        ∃ n, none ∈ transfer.intoCursor.messages reserve n) ↔
      sequence ≠ 0 ∧ bytes.length ≤ hardMaxClipboardBytes := by
  obtain ⟨rfl, rfl⟩ : transfer.sequence = sequence ∧ transfer.bytes = bytes := by
    unfold new at hnew
    split_ifs at hnew
    cases hnew
    exact ⟨rfl, rfl⟩
  constructor
  · rintro ⟨⟨_, hfram⟩, -⟩
    exact ⟨(sendable_of_chunks hfram).sequence, (sendable_of_chunks hfram).size⟩
  · rintro ⟨hseq, hsize⟩
    have hs : transfer.Sendable := ⟨hseq, hsize⟩
    refine ⟨⟨_, hs.chunks_eq hreserve⟩, fun n error => ?_, (transfer.startsFrom 0).length + 1 + 1, ?_⟩
    · cases n with
      | zero => exact not_mem_nil
      | succ n =>
        exact not_mem_cons_of_ne_of_not_mem nofun (hs.messages_ok hreserve (Nat.zero_le _) n error)
    · refine mem_cons_of_mem _ ?_
      change none ∈ ClipboardCursor.messages reserve _ ⟨transfer, true, 0⟩
      rw [hs.messages_chunks hreserve 1 (Nat.zero_le _)]
      exact mem_append_right _ (mem_singleton.mpr rfl)

theorem constructed_transfer_sends_letter : ∃ transfer, new 1 .textUtf8 [97] = .ok transfer ∧
    ∃ frames, transfer.chunks (fun _ => true) = .ok frames := by
  have hnew : new 1 .textUtf8 [97] = .ok ⟨1, .textUtf8, [97], false, by decide, by decide⟩ := rfl
  exact ⟨_, hnew, ((constructed_transfer_sends_iff (fun _ => rfl) hnew).mpr (by decide)).1⟩

/-- Without a sequence the offer is sent, and then the cursor fails for ever. -/
theorem constructed_transfer_without_sequence : ∃ transfer, new 0 .textUtf8 [97] = .ok transfer ∧
    transfer.chunks (fun _ => true) = .error .chunkEncoding ∧ transfer.intoCursor.messages (fun _ => true) 3 =
      [some (.ok (.offer transfer.offer)), some (.error .chunkEncoding), some (.error .chunkEncoding)] := by
  refine ⟨_, rfl, ?_, rfl⟩
  rw [chunks, cutLoop]
  rfl

end ClipboardTransfer
end Arcen
