import Arcen.SessionRecord

/-! Clipboard chunks (`shared/protocol/src/wire.rs`): a 20-byte header and the payload. The largest
payload a sender uses is set so that the chunk, wrapped as a session record, is exactly as long as the
bulk lane's frame bound. -/

namespace Arcen

/-- Largest clipboard chunk payload a receiver accepts. -/
def chunkBytes : Nat := 1024 * 1024

def clipboardHeaderSize : Nat := 20

def sessionRecordLengthBytes : Nat := 4

def sessionRecordKindBytes : Nat := 1

def clipboardChunkPayloadBytes : Nat :=
  chunkBytes - sessionRecordLengthBytes - sessionRecordKindBytes - clipboardHeaderSize

theorem clipboardChunkPayloadBytes_pos : 0 < clipboardChunkPayloadBytes := by decide

def hardMaxClipboardBytes : Nat := 20 * 1024 * 1024

def frameTypeClipboard : UInt8 := 0x20

inductive ClipboardContentKind where
  | textUtf8
  | imagePng
  deriving DecidableEq

structure ClipboardChunkHeader where
  kind : ClipboardContentKind
  sequence : UInt64
  totalSize : UInt32
  offset : UInt32

/-- The protocol errors a clipboard chunk can raise. -/
inductive ProtocolError where
  | shortHeader
  | unknownFrameType (frameType : UInt8)
  | unknownClipboardKind (kind : UInt8)
  | clipboardReserved
  | clipboardSequence
  | clipboardTotalSize
  | clipboardPayloadSize
  | clipboardOffset
  | allocationFailed

namespace ClipboardContentKind

def wire : ClipboardContentKind → UInt8
  | .textUtf8 => 0
  | .imagePng => 1

def fromWire (value : UInt8) : Option ClipboardContentKind :=
  if value = 0 then some .textUtf8 else if value = 1 then some .imagePng else none

@[simp] theorem fromWire_wire (kind : ClipboardContentKind) : fromWire kind.wire = some kind := by
  cases kind <;> rfl

end ClipboardContentKind

namespace ClipboardChunkHeader

variable (header : ClipboardChunkHeader)

def layout (payload : List UInt8) : List UInt8 :=
  [frameTypeClipboard, header.kind.wire, 0, 0] ++ (u64ToBeBytes header.sequence ++
    (u32ToBeBytes header.totalSize ++ (u32ToBeBytes header.offset ++ payload)))

theorem length_layout (payload : List UInt8) :
    (header.layout payload).length = clipboardHeaderSize + payload.length := by
  simp only [layout, List.length_append, List.length_cons, List.length_nil, length_u64ToBeBytes,
    length_u32ToBeBytes, clipboardHeaderSize]
  omega

end ClipboardChunkHeader

def validateClipboardChunk (header : ClipboardChunkHeader) (payloadLen : Nat) : Except ProtocolError Unit :=
  if header.sequence = 0 then .error .clipboardSequence
  else if header.totalSize.toNat = 0 ∨ hardMaxClipboardBytes < header.totalSize.toNat then
    .error .clipboardTotalSize
  else if payloadLen = 0 ∨ chunkBytes < payloadLen then .error .clipboardPayloadSize
  else if header.totalSize.toNat < header.offset.toNat + payloadLen then .error .clipboardOffset
  else .ok ()

variable {header : ClipboardChunkHeader} {payload : List UInt8}

theorem validateClipboardChunk_eq_ok : validateClipboardChunk header payloadLen = .ok () ↔
      header.sequence ≠ 0 ∧ (0 < header.totalSize.toNat ∧ header.totalSize.toNat ≤ hardMaxClipboardBytes) ∧
        (0 < payloadLen ∧ payloadLen ≤ chunkBytes) ∧
        header.offset.toNat + payloadLen ≤ header.totalSize.toNat := by
  rw [validateClipboardChunk, check_eq_ok, check_eq_ok, check_eq_ok, check_eq_ok, and_iff_left rfl]
  refine and_congr Iff.rfl ?_
  omega

/-- Encodes one bounded clipboard chunk; `reserve` is the allocator's answer for the frame. -/
def encodeClipboardChunk (reserve : Nat → Bool) (header : ClipboardChunkHeader) (payload : List UInt8) :
    Except ProtocolError (List UInt8) :=
  match validateClipboardChunk header payload.length with
  | .error error => .error error
  | .ok () =>
    if ¬ reserve (clipboardHeaderSize + payload.length) then .error .allocationFailed
    else .ok (header.layout payload)

/-- Decodes and validates one bounded clipboard chunk. An unknown frame type and a known one that is not
the clipboard's are the same error. -/
def decodeClipboardChunk (encoded : List UInt8) : Except ProtocolError (ClipboardChunkHeader × List UInt8) :=
  if encoded.length < clipboardHeaderSize then .error .shortHeader
  else if byteAt encoded 0 ≠ frameTypeClipboard then .error (.unknownFrameType (byteAt encoded 0))
  else
    match ClipboardContentKind.fromWire (byteAt encoded 1) with
    | none => .error (.unknownClipboardKind (byteAt encoded 1))
    | some kind =>
      if byteAt encoded 2 ≠ 0 ∨ byteAt encoded 3 ≠ 0 then .error .clipboardReserved
      else
        let header : ClipboardChunkHeader :=
          { kind
            sequence := u64FromBeBytes (slice encoded 4 12)
            totalSize := u32FromBeBytes (slice encoded 12 16)
            offset := u32FromBeBytes (slice encoded 16 20) }
        let payload := encoded.drop clipboardHeaderSize
        match validateClipboardChunk header payload.length with
        | .error error => .error error
        | .ok () => .ok (header, payload)

theorem encodeClipboardChunk_of_valid (hresv : ∀ n, reserve n = true)
    (hval : validateClipboardChunk header payload.length = .ok ()) :
    encodeClipboardChunk reserve header payload = .ok (header.layout payload) := by
  simp only [encodeClipboardChunk, hval, hresv, not_true_eq_false, if_false]

/-- A valid chunk is read back as it was written. -/
theorem decodeClipboardChunk_layout (hval : validateClipboardChunk header payload.length = .ok ()) :
    decodeClipboardChunk (header.layout payload) = .ok (header, payload) := by
  have hkind : byteAt (header.layout payload) 1 = header.kind.wire := rfl
  have hseq : slice (header.layout payload) 4 12 = u64ToBeBytes header.sequence := rfl
  have htotal : slice (header.layout payload) 12 16 = u32ToBeBytes header.totalSize := rfl
  have hoff : slice (header.layout payload) 16 20 = u32ToBeBytes header.offset := rfl
  have hpay : (header.layout payload).drop clipboardHeaderSize = payload := rfl
  rw [decodeClipboardChunk, ClipboardChunkHeader.length_layout, if_neg (by omega), if_neg (fun h => h rfl),
    hkind, ClipboardContentKind.fromWire_wire]
  dsimp only
  rw [if_neg (by rintro (h | h) <;> exact h rfl), hseq, htotal, hoff, hpay, u64FromBeBytes_toBeBytes,
    u32FromBeBytes_toBeBytes, u32FromBeBytes_toBeBytes, hval]

end Arcen
