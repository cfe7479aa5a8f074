import Arcen.Machine
import Arcen.ClipboardChunk

/-! The clipboard reassembler (`shared/protocol/src/clipboard.rs`): one item in flight, contiguous chunks,
the latest offer wins. Offers and chunks travel on the bulk lane, failure notices on the control lane, and
the two have no order; staleness is one counter that both offers and notices raise. An item in flight is
always partial and within the receiver's maximum, and the types say so. -/

namespace Arcen

/-- A point in time, in nanoseconds. -/
abbrev Instant := Nat

/-- Maximum interval without accepted progress: five seconds. -/
def clipboardReassemblyTimeout : Nat := 5000000000

/-- The message type of an offer. -/
def clipboardData : String := "clipboard_data"

/-- Clipboard offer metadata. Payload bytes follow in binary clipboard chunks. -/
structure ClipboardDataMsg where
  msgType : String
  sequence : UInt64
  kind : ClipboardContentKind
  sizeBytes : UInt32
  truncated : Bool

def ClipboardDataMsg.new (sequence : UInt64) (kind : ClipboardContentKind) (sizeBytes : UInt32)
    (truncated : Bool) : ClipboardDataMsg :=
  ⟨clipboardData, sequence, kind, sizeBytes, truncated⟩

/-- Completed, validated-by-framing clipboard bytes. -/
structure CompletedClipboardData where
  sequence : UInt64
  kind : ClipboardContentKind
  bytes : List UInt8
  truncated : Bool
  deriving DecidableEq

/-- A partial item. -/
structure InFlight where
  sequence : UInt64
  kind : ClipboardContentKind
  totalSize : Nat
  truncated : Bool
  bytes : List UInt8
  lastProgress : Instant
  bytes_lt : bytes.length < totalSize

inductive ClipboardReassemblyError where
  | invalidMaximum
  | invalidOffer
  | staleSequence
  | oversize
  | missingOffer
  | mismatch
  | nonContiguous
  | chunkSize
  | expired
  | allocationFailed
  deriving DecidableEq

namespace InFlight

variable (item : InFlight)

def Starts (offer : ClipboardDataMsg) : Prop :=
  item.sequence = offer.sequence ∧ item.kind = offer.kind ∧ item.totalSize = offer.sizeBytes.toNat ∧
    item.truncated = offer.truncated

/-- The item after its next chunk. -/
def extend (payload : List UInt8) (now : Instant)
    (h : item.bytes.length + payload.length < item.totalSize) : InFlight :=
  { item with
    bytes := item.bytes ++ payload
    lastProgress := now
    bytes_lt := by rwa [List.length_append] }

/-- The end of `push_at`: the checks of a chunk against the item, and the item it makes, still partial or
completed. -/
def accept (maximum : Nat) (header : ClipboardChunkHeader) (payload : List UInt8)
    (now : Instant) (reserved : Bool) : Except ClipboardReassemblyError (InFlight ⊕ CompletedClipboardData) :=
  if header.sequence ≠ item.sequence ∨ header.kind ≠ item.kind ∨ header.totalSize.toNat ≠ item.totalSize then
    .error .mismatch
  else if header.offset.toNat ≠ item.bytes.length then .error .nonContiguous
  else if hover : item.totalSize < item.bytes.length + payload.length ∨
      maximum < item.bytes.length + payload.length then .error .oversize
  else if ¬ reserved then .error .allocationFailed
  else if hmore : item.bytes.length + payload.length ≠ item.totalSize then
    .ok (.inl (item.extend payload now (by omega)))
  else .ok (.inr ⟨item.sequence, item.kind, item.bytes ++ payload, item.truncated⟩)

/-- A chunk that continues an item: its header repeats the item's data, and it fits. -/
structure Continues (item : InFlight) (maximum : Nat) (header : ClipboardChunkHeader) (payload : List UInt8) :
    Prop where
  sequence : header.sequence = item.sequence
  kind : header.kind = item.kind
  totalSize : header.totalSize.toNat = item.totalSize
  offset : header.offset.toNat = item.bytes.length
  fits : item.bytes.length + payload.length ≤ item.totalSize ∧ item.bytes.length + payload.length ≤ maximum

variable {item : InFlight} {maximum : Nat} {header : ClipboardChunkHeader} {payload : List UInt8}

theorem accept_of_continues (now : Instant) (h : item.Continues maximum header payload) :
    item.accept maximum header payload now true =
      if hl : item.bytes.length + payload.length < item.totalSize then .ok (.inl (item.extend payload now hl))
      else .ok (.inr ⟨item.sequence, item.kind, item.bytes ++ payload, item.truncated⟩) := by
  have hfits := h.fits
  have hs : ¬ (header.sequence ≠ item.sequence ∨ header.kind ≠ item.kind ∨
      header.totalSize.toNat ≠ item.totalSize) := by
    simp [h.sequence, h.kind, h.totalSize]
  rw [accept, if_neg hs, if_neg (not_not.mpr h.offset), dif_neg (by omega), if_neg (by decide)]
  by_cases hl : item.bytes.length + payload.length < item.totalSize
  · rw [dif_pos (by omega), dif_pos hl]
  · rw [dif_neg (by omega), dif_neg hl]

theorem accept_inv : item.accept maximum header payload now reserved = result → match result with
    | .error error => error ≠ .expired
    | .ok (.inl next) => ∃ hl, next = item.extend payload now hl
    | .ok (.inr completed) => item.bytes.length + payload.length = item.totalSize ∧
      completed = ⟨item.sequence, item.kind, item.bytes ++ payload, item.truncated⟩ := by
  intro h
  unfold accept at h
  split_ifs at h <;> subst h
  · exact nofun
  · exact nofun
  · exact nofun
  · exact ⟨by omega, rfl⟩
  · exact ⟨by omega, rfl⟩
  · exact nofun

end InFlight

/-- One-in-flight, contiguous, latest-wins clipboard reassembler. -/
structure ClipboardReassembler where
  maximum : Nat
  latestSequence : UInt64
  inFlight : Option InFlight
  maximum_range : 0 < maximum ∧ maximum ≤ hardMaxClipboardBytes
  inFlight_fits : ∀ item ∈ inFlight, item.totalSize ≤ maximum ∧ item.sequence ≤ latestSequence

namespace ClipboardReassembler

/-- Creates a reassembler with a maximum of 1 byte to 20 MiB. -/
def new (maximum : Nat) : Except ClipboardReassemblyError ClipboardReassembler :=
  if h : maximum = 0 ∨ hardMaxClipboardBytes < maximum then .error .invalidMaximum
  else .ok ⟨maximum, 0, none, by omega, by simp⟩

variable (reassembler : ClipboardReassembler)

/-- Scrubs and drops a partial item. -/
def abort : ClipboardReassembler :=
  { reassembler with inFlight := none, inFlight_fits := by simp }

def stalled (now : Instant) : Bool :=
  reassembler.inFlight.any fun item => clipboardReassemblyTimeout ≤ now - item.lastProgress

/-- Accepts a newer offer and scrubs any older partial item. -/
def beginAt (offer : ClipboardDataMsg) (now : Instant) :
    ClipboardReassembler × Except ClipboardReassemblyError Unit :=
  if hinvalid : offer.msgType ≠ clipboardData ∨ offer.sequence = 0 ∨ offer.sizeBytes = 0 ∨
      (offer.truncated ∧ offer.kind ≠ .textUtf8) then (reassembler, .error .invalidOffer)
  else if offer.sequence ≤ reassembler.latestSequence then (reassembler, .error .staleSequence)
  else if hover : reassembler.maximum < offer.sizeBytes.toNat ∨
      hardMaxClipboardBytes < offer.sizeBytes.toNat then (reassembler, .error .oversize)
  else
    let item : InFlight :=
      { sequence := offer.sequence
        kind := offer.kind
        totalSize := offer.sizeBytes.toNat
        truncated := offer.truncated
        bytes := []
        lastProgress := now
        bytes_lt := by
          have hsize : offer.sizeBytes ≠ 0 := fun h => hinvalid (Or.inr (Or.inr (Or.inl h)))
          exact Nat.pos_of_ne_zero fun h => hsize (UInt32.toNat_inj.mp h) }
    ({ reassembler.abort with
        latestSequence := offer.sequence
        inFlight := some item
        inFlight_fits := by
          intro other hother
          cases hother
          exact ⟨Nat.le_of_not_lt fun h => hover (Or.inl h), UInt64.le_refl _⟩ }, .ok ())

/-- Appends exactly the next contiguous chunk; `reserved` is the allocator's answer for it. -/
def pushAt (header : ClipboardChunkHeader) (payload : List UInt8) (now : Instant) (reserved : Bool) :
    ClipboardReassembler × Except ClipboardReassemblyError (Option CompletedClipboardData) :=
  if payload.isEmpty ∨ chunkBytes < payload.length then (reassembler, .error .chunkSize)
  else if reassembler.stalled now then (reassembler.abort, .error .expired)
  else
    match hitem : reassembler.inFlight with
    | none => (reassembler, .error .missingOffer)
    | some item =>
      match haccept : item.accept reassembler.maximum header payload now reserved with
      | .error error => (reassembler, .error error)
      | .ok (.inl next) =>
        ({ reassembler with
            inFlight := some next
            inFlight_fits := by
              intro other hother
              cases hother
              obtain ⟨hless, rfl⟩ := InFlight.accept_inv haccept
              exact reassembler.inFlight_fits item hitem }, .ok none)
      | .ok (.inr completed) => (reassembler.abort, .ok (some completed))

def inFlightSequence : Option UInt64 :=
  reassembler.inFlight.map InFlight.sequence

/-- Raises the accepted sequence. -/
def raise (sequence : UInt64) : ClipboardReassembler :=
  { reassembler with
    latestSequence := if reassembler.latestSequence < sequence then sequence else reassembler.latestSequence
    inFlight_fits := by
      intro item hitem
      obtain ⟨hsize, hsequence⟩ := reassembler.inFlight_fits item hitem
      refine ⟨hsize, ?_⟩
      split
      · rename_i hlt
        exact UInt64.le_trans hsequence (UInt64.le_of_lt hlt)
      · exact hsequence }

/-- The host abandoned a transfer. Returns whether partial data was discarded. -/
def abandon (sequence : UInt64) : ClipboardReassembler × Bool :=
  if (reassembler.raise sequence).inFlightSequence = some sequence then
    ((reassembler.raise sequence).abort, true)
  else (reassembler.raise sequence, false)

/-- Scrubs an item after five seconds without accepted progress. -/
def expire (now : Instant) : ClipboardReassembler × Bool :=
  if reassembler.stalled now then (reassembler.abort, true) else (reassembler, false)

def bufferedLen : Nat :=
  reassembler.inFlight.elim 0 fun item => item.bytes.length

end ClipboardReassembler

/-! ### Runs -/

inductive ReassemblerCall where
  | beginAt (offer : ClipboardDataMsg) (now : Instant)
  | pushAt (header : ClipboardChunkHeader) (payload : List UInt8) (now : Instant) (reserved : Bool)
  | abandon (sequence : UInt64)
  | expire (now : Instant)
  | abort

inductive ReassemblerReply where
  | began (result : Except ClipboardReassemblyError Unit)
  | pushed (result : Except ClipboardReassemblyError (Option CompletedClipboardData))
  | abandoned (discarded : Bool)
  | expired (discarded : Bool)
  | aborted

namespace ClipboardReassembler

def step (reassembler : ClipboardReassembler) : ReassemblerCall → ClipboardReassembler × ReassemblerReply
  | .beginAt offer now =>
    let (next, result) := reassembler.beginAt offer now
    (next, .began result)
  | .pushAt header payload now reserved =>
    let (next, result) := reassembler.pushAt header payload now reserved
    (next, .pushed result)
  | .abandon sequence =>
    let (next, discarded) := reassembler.abandon sequence
    (next, .abandoned discarded)
  | .expire now =>
    let (next, discarded) := reassembler.expire now
    (next, .expired discarded)
  | .abort => (reassembler.abort, .aborted)

end ClipboardReassembler

def clipboardReassembler (initial : ClipboardReassembler) :
    Machine ClipboardReassembler ReassemblerCall ReassemblerReply where
  init := initial
  step := ClipboardReassembler.step

/-! ### What one call can do -/

namespace ClipboardReassembler

variable (reassembler : ClipboardReassembler)

/-- A chunk the item takes: the reassembler goes on with the partial item, or hands out the completed
one. -/
theorem pushAt_accept {reassembler : ClipboardReassembler} {item : InFlight} {header : ClipboardChunkHeader}
    {payload : List UInt8} {now : Instant} (hpay : payload ≠ [] ∧ payload.length ≤ chunkBytes)
    (hlive : reassembler.stalled now = false) (hi : reassembler.inFlight = some item)
    (hac : item.accept reassembler.maximum header payload now reserved = .ok outcome) :
    ∃ after, reassembler.pushAt header payload now reserved = (after, .ok (outcome.elim (fun _ => none) some)) ∧
      after.maximum = reassembler.maximum ∧ after.inFlight = outcome.elim some fun _ => none := by
  have hsize : ¬ (payload.isEmpty = true ∨ chunkBytes < payload.length) := by
    simpa using hpay
  unfold pushAt
  rw [if_neg hsize, if_neg (by simp [hlive])]
  split
  · rename_i hnone
    rw [hi] at hnone
    cases hnone
  rename_i other hoth
  cases hi.symm.trans hoth
  split
  · rename_i herror
    rw [hac] at herror
    cases herror
  · rename_i next hnext
    cases hac.symm.trans hnext
    exact ⟨_, rfl, rfl, rfl⟩
  · rename_i completed hcompl
    cases hac.symm.trans hcompl
    exact ⟨_, rfl, rfl, rfl⟩

end ClipboardReassembler
end Arcen
