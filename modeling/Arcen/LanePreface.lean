import Arcen.LaneRoles
import Arcen.Bytes
import Arcen.NonZero

/-! The 36-byte preface every lane starts with (`shared/protocol/src/lanes.rs`): magic, version, role,
reserved flags, attachment generation, lane generation and binding. The control lane is opened before
authorization and carries no attachment; every other role names one, and the type of a preface says
so. -/

namespace Arcen

open List hiding lt_irrefl

def lanePrefaceMagic : List UInt8 := [0x41, 0x52, 0x4c, 0x4e]

def laneProtocolVersion : UInt16 := 1

def lanePrefaceHeaderBytes : Nat := 4 + 2

def laneAttachmentBindingBytes : Nat := 16

def lanePrefaceBytes : Nat := lanePrefaceHeaderBytes + 1 + 1 + 8 + 4 + laneAttachmentBindingBytes

/-- The bytes of `arcen-direct-v1` and a zero byte: the preface of the single-stream carrier that
predates lanes. -/
def legacyDirectStreamPreface : List UInt8 :=
  [0x61, 0x72, 0x63, 0x65, 0x6e, 0x2d, 0x64, 0x69, 0x72, 0x65, 0x63, 0x74, 0x2d, 0x76, 0x31, 0]

inductive LaneContractError where
  | zeroBinding
  | malformedBinding
  | randomUnavailable
  | controlCarriesAttachment
  | zeroAttachmentGeneration
  | unsupportedVersion (received : UInt16)
  | unknownRole
  | invalidRoleList
  | wrongMessageType

/-- Why a lane preface was refused while decoding. -/
inductive LanePrefaceError where
  | truncated
  | trailingBytes
  | badMagic
  | legacyDirectStream
  | unsupportedVersion (received supported : UInt16)
  | unknownRole (role : UInt8)
  | reservedFlags (flags : UInt8)
  | zeroLaneGeneration
  | missingAttachment
  | controlCarriesAttachment
  deriving DecidableEq

structure LaneAttachmentBinding where
  bytes : FixedBytes laneAttachmentBindingBytes
  not_all_zero : bytes.val.all (· == 0) = false
  deriving DecidableEq

namespace LaneAttachmentBinding

/-- Wraps binding bytes. All-zero bytes are reserved for the control lane. -/
def new (bytes : FixedBytes laneAttachmentBindingBytes) : Except LaneContractError LaneAttachmentBinding :=
  if hzero : bytes.val.all (· == 0) then .error .zeroBinding
  else .ok ⟨bytes, Bool.eq_false_iff.mpr hzero⟩

@[simp] theorem new_bytes (binding : LaneAttachmentBinding) : new binding.bytes = .ok binding := by
  rw [new, dif_neg (by simp [binding.not_all_zero])]

theorem bytes_of_new {bytes : FixedBytes laneAttachmentBindingBytes} {binding : LaneAttachmentBinding}
    (h : new bytes = .ok binding) : binding.bytes = bytes := by
  unfold new at h
  split at h
  · cases h
  · cases h
    rfl

end LaneAttachmentBinding

/-- The attachment every non-control lane must name. -/
structure LaneAttachment where
  generation : NonZeroU64
  binding : LaneAttachmentBinding
  deriving DecidableEq

/-- The attachment of generation 1 whose binding is sixteen ones. -/
def LaneAttachment.first : LaneAttachment :=
  ⟨⟨1, by decide⟩, ⟨⟨replicate laneAttachmentBindingBytes 1, by decide⟩, by decide⟩⟩

/-- Validated lane preface: an attachment is present exactly when the role needs one. -/
structure LanePreface where
  role : LaneRole
  attachment : Option LaneAttachment
  laneGeneration : NonZeroU32
  isSome_attachment : attachment.isSome = role.requiresAttachment

namespace LanePreface

/-- Preface for the control lane, which is opened before authorization. -/
def control (laneGeneration : NonZeroU32) : LanePreface := ⟨.control, none, laneGeneration, rfl⟩

def bound (role : LaneRole) (attachment : LaneAttachment) (laneGeneration : NonZeroU32) :
    Except LaneContractError LanePreface :=
  if h : role.requiresAttachment then .ok ⟨role, some attachment, laneGeneration, h.symm⟩
  else .error .controlCarriesAttachment

variable {preface : LanePreface} {bytes : List UInt8} {role : LaneRole}

theorem attachment_eq_none : preface.attachment = none ↔ preface.role = .control := by
  have h := preface.isSome_attachment
  rw [← Option.isNone_iff_eq_none, ← Option.not_isSome, h]
  simp [LaneRole.requiresAttachment]

/-- The fixed layout: magic, version, role, flags, attachment generation, lane generation, binding. -/
def layout (role flags : UInt8) (generation : UInt64) (laneGeneration : UInt32) (binding : List UInt8) : List UInt8 :=
  lanePrefaceMagic ++ (u16ToBeBytes laneProtocolVersion ++ ([role, flags] ++ (u64ToBeBytes generation ++
    (u32ToBeBytes laneGeneration ++ binding))))

/-- Encodes the fixed-size v1 preface. -/
def encode (preface : LanePreface) : List UInt8 :=
  let (generation, binding) := match preface.attachment with
    | some attachment => (attachment.generation.get, attachment.binding.bytes)
    | none => (0, replicate laneAttachmentBindingBytes 0)
  layout preface.role.wire 0 generation preface.laneGeneration.get binding

/-- Checks the magic and version before reading the rest of the preface. -/
def checkHeader (header : List UInt8) : Except LanePrefaceError Unit :=
  if header.take 4 ≠ lanePrefaceMagic then
    if header.isPrefixOf legacyDirectStreamPreface then .error .legacyDirectStream
    else .error .badMagic
  else
    let version := u16FromBeBytes (slice header 4 6)
    if version ≠ laneProtocolVersion then .error (.unsupportedVersion version laneProtocolVersion)
    else .ok ()

/-- The end of `decode`, once role and lane generation are known. -/
def decodeAttachment (role : LaneRole) (laneGeneration : NonZeroU32) (generation : UInt64)
    (binding : FixedBytes laneAttachmentBindingBytes) : Except LanePrefaceError LanePreface :=
  if hrole : role.requiresAttachment then
    match NonZero.new generation with
    | none => .error .missingAttachment
    | some generation =>
      match LaneAttachmentBinding.new binding with
      | .error _ => .error .missingAttachment
      | .ok binding => .ok ⟨role, some ⟨generation, binding⟩, laneGeneration, hrole.symm⟩
  else if generation ≠ 0 ∨ binding.val.any (· != 0) then .error .controlCarriesAttachment
  else .ok (control laneGeneration)

/-- Decodes and validates a complete v1 preface. -/
def decode (bytes : List UInt8) : Except LanePrefaceError LanePreface :=
  if bytes.length < lanePrefaceHeaderBytes then .error .truncated
  else
    match checkHeader (bytes.take lanePrefaceHeaderBytes) with
    | .error error => .error error
    | .ok () =>
      if bytes.length < lanePrefaceBytes then .error .truncated
      else if lanePrefaceBytes < bytes.length then .error .trailingBytes
      else
        match LaneRole.fromWire (byteAt bytes 6) with
        | none => .error (.unknownRole (byteAt bytes 6))
        | some role =>
          if byteAt bytes 7 ≠ 0 then .error (.reservedFlags (byteAt bytes 7))
          else
            let generation := u64FromBeBytes (slice bytes 8 16)
            match NonZero.new (u32FromBeBytes (slice bytes 16 20)) with
            | none => .error .zeroLaneGeneration
            | some laneGeneration =>
              decodeAttachment role laneGeneration generation (readArray laneAttachmentBindingBytes (bytes.drop 20))

/-! ### The layout -/

section Layout

variable (role flags : UInt8) (gen : UInt64) (laneGeneration : UInt32) (binding : List UInt8)

theorem length_layout : (layout role flags gen laneGeneration binding).length = 20 + binding.length := by
  simp [layout, lanePrefaceMagic]
  omega

theorem checkHeader_layout :
    checkHeader ((layout role flags gen laneGeneration binding).take lanePrefaceHeaderBytes) = .ok () := by
  have htake : (layout role flags gen laneGeneration binding).take lanePrefaceHeaderBytes =
      lanePrefaceMagic ++ u16ToBeBytes laneProtocolVersion := by
    rw [layout, ← append_assoc]
    exact take_left' rfl
  rw [htake]
  decide

theorem byteAt_layout_six : byteAt (layout role flags gen laneGeneration binding) 6 = role := rfl

theorem byteAt_layout_seven : byteAt (layout role flags gen laneGeneration binding) 7 = flags := rfl

theorem slice_layout_generation : slice (layout role flags gen laneGeneration binding) 8 16 = u64ToBeBytes gen :=
  slice_field (lanePrefaceMagic ++ (u16ToBeBytes laneProtocolVersion ++ [role, flags])) _ _ rfl (by simp)

theorem slice_layout_laneGeneration :
    slice (layout role flags gen laneGeneration binding) 16 20 = u32ToBeBytes laneGeneration :=
  slice_field (lanePrefaceMagic ++ (u16ToBeBytes laneProtocolVersion ++ ([role, flags] ++
    u64ToBeBytes gen))) _ _ rfl (by simp)

theorem drop_layout : (layout role flags gen laneGeneration binding).drop 20 = binding := rfl

end Layout

theorem checkHeader_eq_ok (hl : header.length = lanePrefaceHeaderBytes)
    (h : checkHeader header = .ok ()) : header = lanePrefaceMagic ++ u16ToBeBytes laneProtocolVersion := by
  have hl' : header.length = 6 := hl
  unfold checkHeader at h
  split at h
  · split at h <;> cases h
  rename_i hmagic
  dsimp only at h
  split at h
  · cases h
  rename_i hver
  rw [not_not] at hmagic hver
  have hrest : slice header 4 6 = header.drop 4 := take_of_length_le (by simp [hl'])
  rw [← hmagic, ← hver, u16ToBeBytes_fromBeBytes (length_slice hl'.ge), hrest, take_append_drop]

theorem layout_of_checkHeader (hhdr : checkHeader (bytes.take lanePrefaceHeaderBytes) = .ok ())
    (hl : bytes.length = lanePrefaceBytes) :
    layout (byteAt bytes 6) (byteAt bytes 7) (u64FromBeBytes (slice bytes 8 16))
      (u32FromBeBytes (slice bytes 16 20)) (bytes.drop 20) = bytes := by
  have hl' : bytes.length = 36 := hl
  have htake := checkHeader_eq_ok (by simp [hl', lanePrefaceHeaderBytes]) hhdr
  have htail : u64ToBeBytes (u64FromBeBytes (slice bytes 8 16)) ++
      (u32ToBeBytes (u32FromBeBytes (slice bytes 16 20)) ++ bytes.drop 20) = bytes.drop 8 := by
    rw [u64ToBeBytes_fromBeBytes (length_slice (by omega)), u32ToBeBytes_fromBeBytes (length_slice (by omega)),
      slice_append_drop bytes (by omega), slice_append_drop bytes (by omega)]
  rw [layout, htail, cons_append, cons_append, nil_append, byteAt_cons_drop (by omega),
    byteAt_cons_drop (by omega), ← append_assoc, ← htake]
  exact take_append_drop 6 bytes

/-! ### The codec -/

theorem decode_layout (role : LaneRole) (generation : UInt64) (laneGeneration : NonZeroU32)
    (binding : FixedBytes laneAttachmentBindingBytes) :
    decode (layout role.wire 0 generation laneGeneration.get binding.val) =
      decodeAttachment role laneGeneration generation binding := by
  have hl : (layout role.wire 0 generation laneGeneration.get binding.val).length = lanePrefaceBytes := by
    rw [length_layout, binding.property]
    rfl
  rw [decode, hl, if_neg (by decide), checkHeader_layout]
  simp only [lt_irrefl, if_false, byteAt_layout_six, LaneRole.fromWire_wire, byteAt_layout_seven,
    ne_eq, not_true_eq_false, slice_layout_generation, slice_layout_laneGeneration,
    u64FromBeBytes_toBeBytes, u32FromBeBytes_toBeBytes, NonZero.new_get, drop_layout, readArray_fixedBytes]

theorem decode_encode (preface : LanePreface) : decode preface.encode = .ok preface := by
  obtain ⟨role, att, laneGeneration, hsome⟩ := preface
  cases att with
  | some att =>
    have hr : role.requiresAttachment = true := hsome.symm
    exact (decode_layout role _ laneGeneration att.binding.bytes).trans (by simp [decodeAttachment, hr])
  | none =>
    have hr : role = .control := by simpa [LaneRole.requiresAttachment] using hsome
    subst hr
    exact decode_layout .control 0 laneGeneration ⟨replicate laneAttachmentBindingBytes 0, by simp⟩

theorem length_encode (preface : LanePreface) : preface.encode.length = lanePrefaceBytes := by
  obtain ⟨_, att, _, _⟩ := preface
  cases att with
  | some att => simp only [encode, length_layout, att.binding.bytes.property, lanePrefaceBytes,
      lanePrefaceHeaderBytes]
  | none => simp only [encode, length_layout, length_replicate, lanePrefaceBytes, lanePrefaceHeaderBytes]

theorem decodeAttachment_eq_ok {laneGeneration : NonZeroU32} {gen : UInt64}
    {binding : FixedBytes laneAttachmentBindingBytes}
    (h : decodeAttachment role laneGeneration gen binding = .ok preface) :
    preface.encode = layout role.wire 0 gen laneGeneration.get binding.val := by
  unfold decodeAttachment at h
  split_ifs at h with hr hflds
  · split at h
    · cases h
    · rename_i hgen
      split at h
      · cases h
      · rename_i hbind
        cases h
        simp only [encode, NonZero.new_eq_some hgen, LaneAttachmentBinding.bytes_of_new hbind]
  · -- a control preface is accepted only with zero att fields
    cases h
    obtain rfl : role = .control := by simpa [LaneRole.requiresAttachment] using hr
    rw [not_or, not_not] at hflds
    obtain ⟨rfl, hzero⟩ := hflds
    have hbind : binding.val = replicate laneAttachmentBindingBytes 0 := by
      rw [eq_replicate_iff]
      exact ⟨binding.property, by simpa using hzero⟩
    rw [hbind]
    rfl

/-- Only canonical prefaces are accepted. -/
theorem encode_of_decode (h : decode bytes = .ok preface) : preface.encode = bytes := by
  unfold decode at h
  split at h
  · cases h
  split at h
  · cases h
  rename_i hhdr
  split at h
  · cases h
  split at h
  · cases h
  have hl : bytes.length = lanePrefaceBytes := by omega
  split at h
  · cases h
  rename_i hr
  split at h
  · cases h
  rename_i hfl
  split at h
  · cases h
  rename_i hlane
  rw [not_not] at hfl
  have hdrop : (bytes.drop 20).length = laneAttachmentBindingBytes := by
    rw [length_drop, hl]
    rfl
  rw [decodeAttachment_eq_ok h, LaneRole.wire_of_fromWire hr, NonZero.new_eq_some hlane,
    readArray_val hdrop, ← hfl, layout_of_checkHeader hhdr hl]

end LanePreface
end Arcen
