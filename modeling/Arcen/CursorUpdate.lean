import Arcen.Bytes
import Arcen.NonZero

/-! The `CursorUpdate` binary record (`shared/protocol/src/cursor.rs`): the whole current cursor state
of a host desktop, 36 fixed bytes and then the PNG of an image the receiver does not hold yet. The
visible and inline flags, the image fields and the PNG length constrain each other; encoder and decoder
check them in different places. -/

namespace Arcen

open List

/-- `PNG_MAGIC`, the eight bytes every PNG starts with. -/
def pngMagic : List UInt8 := [0x89, 0x50, 0x4e, 0x47, 0x0d, 0x0a, 0x1a, 0x0a]

def frameTypeCursorUpdate : UInt8 := 0x50

def cursorUpdateVersion : UInt8 := 1

def cursorUpdateHeaderSize : Nat := 36

def maxCursorSide : UInt16 := 256

def maxCursorPngBytes : Nat := 60 * 1024

def maxCursorUpdateBytes : Nat := cursorUpdateHeaderSize + maxCursorPngBytes

def flagVisible : UInt8 := 0x01
def flagInline : UInt8 := 0x02
def knownFlags : UInt8 := flagVisible ||| flagInline

inductive CursorShapeKind where
  | default
  | text
  | resizeNs
  | resizeEw
  | resizeNwse
  | resizeNesw
  | resizeAll
  | pointer
  | crosshair
  | grab
  | grabbing
  | zoomIn
  | zoomOut
  | wait
  | progress
  | help
  | notAllowed
  | hidden
  deriving DecidableEq

/-- Identifier of one cursor image, unique for the life of the host desktop that assigned it. -/
abbrev CursorImageId := NonZeroU32

/-- A visible cursor: which image, its size and its hotspot, and its PNG when the receiver does not
hold it yet. -/
structure CursorImageRef where
  id : CursorImageId
  width : UInt16
  height : UInt16
  hotspotX : UInt16
  hotspotY : UInt16
  inlinePng : Option (List UInt8)

inductive CursorAppearance where
  | hidden
  | image (shown : CursorImageRef)

structure CursorUpdate where
  sequence : UInt64
  output : UInt32
  generation : UInt32
  fallback : CursorShapeKind
  appearance : CursorAppearance

/-- Why a `CursorUpdate` could not be encoded or decoded. -/
inductive CursorUpdateError where
  | truncated
  | wrongFrameType
  | unsupportedVersion (version : UInt8)
  | reservedFlags (flags : UInt8)
  | inconsistentVisibility
  | dimensions
  | hotspot
  | inlineImage
  | length
  deriving DecidableEq

def shapeWireIndex : CursorShapeKind → UInt8
  | .default => 0
  | .text => 1
  | .resizeNs => 2
  | .resizeEw => 3
  | .resizeNwse => 4
  | .resizeNesw => 5
  | .resizeAll => 6
  | .pointer => 7
  | .crosshair => 8
  | .grab => 9
  | .grabbing => 10
  | .zoomIn => 11
  | .zoomOut => 12
  | .wait => 13
  | .progress => 14
  | .help => 15
  | .notAllowed => 16
  | .hidden => 17

/-- The shape for a wire index; an index from a newer host reads as the default. -/
def shapeFromWireIndex (index : UInt8) : CursorShapeKind :=
  match index.toNat with
  | 1 => .text
  | 2 => .resizeNs
  | 3 => .resizeEw
  | 4 => .resizeNwse
  | 5 => .resizeNesw
  | 6 => .resizeAll
  | 7 => .pointer
  | 8 => .crosshair
  | 9 => .grab
  | 10 => .grabbing
  | 11 => .zoomIn
  | 12 => .zoomOut
  | 13 => .wait
  | 14 => .progress
  | 15 => .help
  | 16 => .notAllowed
  | 17 => .hidden
  | _ => .default

@[simp] theorem shapeFromWireIndex_shapeWireIndex (kind : CursorShapeKind) :
    shapeFromWireIndex (shapeWireIndex kind) = kind := by
  cases kind <;> rfl

/-- Below the first index no shape has, the wire index is read and written the same way. -/
theorem shapeWireIndex_shapeFromWireIndex (h : index ≤ 17) : shapeWireIndex (shapeFromWireIndex index) = index := by
  have htable : ∀ n : Fin 18, shapeWireIndex (shapeFromWireIndex (UInt8.ofNat n)) = UInt8.ofNat n := by
    decide
  have hlt : index.toNat < 18 := Nat.lt_succ_of_le (UInt8.le_iff_toNat_le.mp h)
  simpa using htable ⟨index.toNat, hlt⟩

/-- The checks both ends make of a visible cursor. -/
def checkImage (image : CursorImageRef) : Except CursorUpdateError Unit :=
  if image.width = 0 ∨ image.height = 0 ∨ maxCursorSide < image.width ∨ maxCursorSide < image.height then
    .error .dimensions
  else if image.width ≤ image.hotspotX ∨ image.height ≤ image.hotspotY then .error .hotspot
  else
    match image.inlinePng with
    | some png =>
      if png.isEmpty ∨ maxCursorPngBytes < png.length ∨ ¬ pngMagic.isPrefixOf png then .error .inlineImage
      else .ok ()
    | none => .ok ()

/-- A visible cursor a record may carry: a size between one pixel and the largest side, a hotspot inside
the image, and a bounded PNG if there is one. -/
structure CursorImageRef.WellFormed (image : CursorImageRef) : Prop where
  width : 0 < image.width ∧ image.width ≤ maxCursorSide
  height : 0 < image.height ∧ image.height ≤ maxCursorSide
  hotspot : image.hotspotX < image.width ∧ image.hotspotY < image.height
  inlinePng : ∀ png, image.inlinePng = some png → png ≠ [] ∧ png.length ≤ maxCursorPngBytes ∧ pngMagic <+: png

/-- A record that may travel: hidden, or showing a well-formed image. -/
def CursorUpdate.WellFormed (update : CursorUpdate) : Prop :=
  ∀ image, update.appearance = .image image → image.WellFormed

theorem checkImage_eq_ok : checkImage image = .ok () ↔ image.WellFormed := by
  have hdims : ¬ (image.width = 0 ∨ image.height = 0 ∨ maxCursorSide < image.width ∨ maxCursorSide < image.height) ↔
      (0 < image.width ∧ image.width ≤ maxCursorSide) ∧ (0 < image.height ∧ image.height ≤ maxCursorSide) := by
    simp only [not_or, UInt16.not_lt, UInt16.pos_iff_ne_zero]
    tauto
  have hspot : ¬ (image.width ≤ image.hotspotX ∨ image.height ≤ image.hotspotY) ↔
      image.hotspotX < image.width ∧ image.hotspotY < image.height := by
    simp only [not_or, UInt16.not_le]
  have hpng : (match image.inlinePng with
      | some png =>
        if png.isEmpty ∨ maxCursorPngBytes < png.length ∨ ¬ pngMagic.isPrefixOf png then
          Except.error CursorUpdateError.inlineImage
        else .ok ()
      | none => .ok ()) = .ok () ↔
      ∀ png, image.inlinePng = some png → png ≠ [] ∧ png.length ≤ maxCursorPngBytes ∧ pngMagic <+: png := by
    cases image.inlinePng with
    | none => simp
    | some => simp [not_or]
  rw [checkImage, check_eq_ok, check_eq_ok, hdims, hspot, hpng]
  constructor
  · rintro ⟨⟨hw, hh⟩, hhots, hi⟩
    exact ⟨hw, hh, hhots, hi⟩
  · rintro ⟨hw, hh, hhots, hi⟩
    exact ⟨⟨hw, hh⟩, hhots, hi⟩

instance (image : CursorImageRef) : Decidable image.WellFormed := decidable_of_iff _ checkImage_eq_ok

/-! ### The header -/

/-- The fields of the fixed header after frame type and version. -/
structure CursorHeader where
  flags : UInt8
  fallback : UInt8
  sequence : UInt64
  output : UInt32
  generation : UInt32
  imageId : UInt32
  width : UInt16
  height : UInt16
  hotspotX : UInt16
  hotspotY : UInt16
  pngLen : UInt32

namespace CursorHeader

/-- The record bytes: frame type, version, the fields in order, the PNG. -/
def layout (header : CursorHeader) (png : List UInt8) : List UInt8 :=
  [frameTypeCursorUpdate, cursorUpdateVersion, header.flags, header.fallback] ++
    (u64ToBeBytes header.sequence ++ (u32ToBeBytes header.output ++ (u32ToBeBytes header.generation ++
      (u32ToBeBytes header.imageId ++ (u16ToBeBytes header.width ++ (u16ToBeBytes header.height ++
        (u16ToBeBytes header.hotspotX ++ (u16ToBeBytes header.hotspotY ++ (u32ToBeBytes header.pngLen ++ png)))))))))

/-- The fields at their offsets. -/
def read (bytes : List UInt8) : CursorHeader where
  flags := byteAt bytes 2
  fallback := byteAt bytes 3
  sequence := u64FromBeBytes (slice bytes 4 12)
  output := u32FromBeBytes (slice bytes 12 16)
  generation := u32FromBeBytes (slice bytes 16 20)
  imageId := u32FromBeBytes (slice bytes 20 24)
  width := u16FromBeBytes (slice bytes 24 26)
  height := u16FromBeBytes (slice bytes 26 28)
  hotspotX := u16FromBeBytes (slice bytes 28 30)
  hotspotY := u16FromBeBytes (slice bytes 30 32)
  pngLen := u32FromBeBytes (slice bytes 32 36)

variable (header : CursorHeader)

variable (png : List UInt8)

theorem length_layout : (header.layout png).length = cursorUpdateHeaderSize + png.length := by
  simp only [layout, length_append, length_cons, length_nil, length_u64ToBeBytes,
    length_u32ToBeBytes, length_u16ToBeBytes, cursorUpdateHeaderSize]
  omega

theorem drop_layout : (header.layout png).drop cursorUpdateHeaderSize = png := rfl

@[simp] theorem read_layout : read (header.layout png) = header := by
  change CursorHeader.mk header.flags header.fallback (u64FromBeBytes (u64ToBeBytes header.sequence))
    (u32FromBeBytes (u32ToBeBytes header.output)) (u32FromBeBytes (u32ToBeBytes header.generation))
    (u32FromBeBytes (u32ToBeBytes header.imageId)) (u16FromBeBytes (u16ToBeBytes header.width))
    (u16FromBeBytes (u16ToBeBytes header.height)) (u16FromBeBytes (u16ToBeBytes header.hotspotX))
    (u16FromBeBytes (u16ToBeBytes header.hotspotY)) (u32FromBeBytes (u32ToBeBytes header.pngLen)) = header
  simp

/-- Bytes with the right frame type and version are the layout of their own fields. -/
theorem layout_read {bytes : List UInt8} (hl : cursorUpdateHeaderSize ≤ bytes.length)
    (htype : byteAt bytes 0 = frameTypeCursorUpdate) (hver : byteAt bytes 1 = cursorUpdateVersion) :
    (read bytes).layout (bytes.drop cursorUpdateHeaderSize) = bytes := by
  have hl' : 36 ≤ bytes.length := hl
  have hf : (read bytes).layout (bytes.drop cursorUpdateHeaderSize) =
      [byteAt bytes 0, byteAt bytes 1, byteAt bytes 2, byteAt bytes 3] ++ bytes.drop 4 := by
    rw [htype, hver]
    simp only [layout, read, cursorUpdateHeaderSize]
    rw [u64ToBeBytes_fromBeBytes (length_slice (by omega)), u32ToBeBytes_fromBeBytes (length_slice (by omega)),
      u32ToBeBytes_fromBeBytes (length_slice (by omega)), u32ToBeBytes_fromBeBytes (length_slice (by omega)),
      u32ToBeBytes_fromBeBytes (length_slice (by omega)), u16ToBeBytes_fromBeBytes (length_slice (by omega)),
      u16ToBeBytes_fromBeBytes (length_slice (by omega)), u16ToBeBytes_fromBeBytes (length_slice (by omega)),
      u16ToBeBytes_fromBeBytes (length_slice (by omega))]
    repeat rw [slice_append_drop bytes (by omega)]
  rw [hf, cons_append, cons_append, cons_append, cons_append, nil_append,
    byteAt_cons_drop (by omega), byteAt_cons_drop (by omega), byteAt_cons_drop (by omega),
    byteAt_cons_drop (by omega), drop_zero]

end CursorHeader

/-! ### Encoder and decoder -/

/-- What a record says of its cursor: flags, image fields and PNG, all zero or empty when hidden. -/
structure CursorFields where
  flags : UInt8
  imageId : UInt32
  width : UInt16
  height : UInt16
  hotspotX : UInt16
  hotspotY : UInt16
  png : List UInt8

variable (isInline : Bool)

def imageFlags : UInt8 := flagVisible ||| if isInline then flagInline else 0

@[simp] theorem imageFlags_visible : imageFlags isInline &&& flagVisible ≠ 0 := by
  cases isInline <;> decide

@[simp] theorem imageFlags_inline : (imageFlags isInline &&& flagInline != 0) = isInline := by
  cases isInline <;> decide

@[simp] theorem imageFlags_known : imageFlags isInline &&& ~~~knownFlags = 0 := by
  cases isInline <;> decide

/-- The only known flag bytes a visible cursor can have, and those a hidden one can. -/
theorem known_flags_cases (h : flags &&& ~~~knownFlags = 0) :
    if flags &&& flagVisible = 0 then flags = 0 ∨ flags &&& flagInline ≠ 0
    else flags = imageFlags (flags &&& flagInline != 0) := by
  have htable : ∀ n : Fin 256, UInt8.ofNat n &&& ~~~knownFlags = 0 →
      if UInt8.ofNat n &&& flagVisible = 0 then UInt8.ofNat n = 0 ∨ UInt8.ofNat n &&& flagInline ≠ 0
      else UInt8.ofNat n = imageFlags (UInt8.ofNat n &&& flagInline != 0) := by
    decide +kernel
  have hfl := htable ⟨flags.toNat, flags.toNat_lt⟩
  rw [show UInt8.ofNat (⟨flags.toNat, flags.toNat_lt⟩ : Fin 256) = flags by simp] at hfl
  exact hfl h

def CursorAppearance.fields : CursorAppearance → Except CursorUpdateError CursorFields
  | .hidden => .ok ⟨0, 0, 0, 0, 0, 0, []⟩
  | .image shown =>
    match checkImage shown with
    | .error error => .error error
    | .ok () => .ok
        { flags := imageFlags shown.inlinePng.isSome
          imageId := shown.id.get
          width := shown.width
          height := shown.height
          hotspotX := shown.hotspotX
          hotspotY := shown.hotspotY
          png := shown.inlinePng.getD [] }

variable (update : CursorUpdate)

def CursorUpdate.header (fields : CursorFields) (pngLen : UInt32) : CursorHeader where
  flags := fields.flags
  fallback := shapeWireIndex update.fallback
  sequence := update.sequence
  output := update.output
  generation := update.generation
  imageId := fields.imageId
  width := fields.width
  height := fields.height
  hotspotX := fields.hotspotX
  hotspotY := fields.hotspotY
  pngLen := pngLen

def encodeCursorUpdate : Except CursorUpdateError (List UInt8) :=
  match update.appearance.fields with
  | .error error => .error error
  | .ok fields =>
    match u32TryFrom fields.png.length with
    | none => .error .inlineImage
    | some pngLen => .ok ((update.header fields pngLen).layout fields.png)

/-- The end of `decode_cursor_update`: the cursor, from the header and the bytes after it. -/
def CursorHeader.appearance (header : CursorHeader) (png : List UInt8) : Except CursorUpdateError CursorAppearance :=
  if header.flags &&& flagVisible = 0 then
    if header.flags &&& flagInline ≠ 0 then .error .inconsistentVisibility
    else if header.imageId ≠ 0 ∨ header.width ≠ 0 ∨ header.height ≠ 0 ∨ header.hotspotX ≠ 0 ∨
        header.hotspotY ≠ 0 then .error .inconsistentVisibility
    else if header.pngLen.toNat ≠ 0 then .error .inlineImage
    else .ok .hidden
  else
    match NonZero.new header.imageId with
    | none => .error .inconsistentVisibility
    | some id =>
      let isInline := header.flags &&& flagInline != 0
      if isInline ≠ (header.pngLen.toNat != 0) then .error .inlineImage
      else
        let image : CursorImageRef :=
          ⟨id, header.width, header.height, header.hotspotX, header.hotspotY, if isInline then some png else none⟩
        match checkImage image with
        | .error error => .error error
        | .ok () => .ok (.image image)

def decodeCursorUpdate (bytes : List UInt8) : Except CursorUpdateError CursorUpdate :=
  if bytes.length < cursorUpdateHeaderSize then .error .truncated
  else if byteAt bytes 0 ≠ frameTypeCursorUpdate then .error .wrongFrameType
  else if byteAt bytes 1 ≠ cursorUpdateVersion then .error (.unsupportedVersion (byteAt bytes 1))
  else
    let header := CursorHeader.read bytes
    if header.flags &&& ~~~knownFlags ≠ 0 then .error (.reservedFlags header.flags)
    else if maxCursorPngBytes < header.pngLen.toNat then .error .inlineImage
    else if bytes.length ≠ cursorUpdateHeaderSize + header.pngLen.toNat then .error .length
    else
      match header.appearance (bytes.drop cursorUpdateHeaderSize) with
      | .error error => .error error
      | .ok appearance => .ok
          { sequence := header.sequence
            output := header.output
            generation := header.generation
            fallback := shapeFromWireIndex header.fallback
            appearance }

namespace CursorAppearance

theorem fields_eq_ok_iff {app : CursorAppearance} :
    (∃ fields, app.fields = .ok fields) ↔ ∀ image, app = .image image → image.WellFormed := by
  cases app with
  | hidden => simp [fields]
  | image shown =>
    rw [fields]
    cases hc : checkImage shown with
    | error =>
      have hill : ¬ shown.WellFormed := by
        rw [← checkImage_eq_ok, hc]
        simp
      simp [hill]
    | ok =>
      have hwell := checkImage_eq_ok.mp hc
      simp [hwell]

/-- The encoder's fields: a bounded PNG, known flags, and the decoder reads the cursor back from them. -/
theorem fields_spec {fields : CursorFields} (h : appearance.fields = .ok fields) :
    fields.png.length ≤ maxCursorPngBytes ∧ fields.flags &&& ~~~knownFlags = 0 ∧
      ∀ (update : CursorUpdate) (pngLen : UInt32), pngLen.toNat = fields.png.length →
        (update.header fields pngLen).appearance fields.png = .ok appearance := by
  cases appearance with
  | hidden =>
    cases h
    refine ⟨by decide, by decide, fun update pngLen hl => ?_⟩
    simp [CursorUpdate.header, CursorHeader.appearance, hl]
  | image shown =>
    rw [CursorAppearance.fields] at h
    cases hc : checkImage shown with
    | error =>
      rw [hc] at h
      cases h
    | ok =>
      rw [hc] at h
      cases h
      have hwell := checkImage_eq_ok.mp hc
      refine ⟨?_, imageFlags_known _, fun update pngLen hl => ?_⟩
      · cases hi : shown.inlinePng with
        | none => exact Nat.zero_le _
        | some png => exact (hwell.inlinePng png hi).2.1
      · have hlenp : shown.inlinePng.isSome = (pngLen.toNat != 0) := by
          rw [hl]
          cases hi : shown.inlinePng with
          | none => rfl
          | some png =>
            have hne := (hwell.inlinePng png hi).1
            simpa [bne_iff_ne] using hne
        have hback : (if shown.inlinePng.isSome = true then some (shown.inlinePng.getD []) else none) =
            shown.inlinePng := by
          cases shown.inlinePng <;> rfl
        simp only [CursorHeader.appearance, CursorUpdate.header, imageFlags_visible, if_false,
          NonZero.new_get, imageFlags_inline, hlenp.symm, ne_eq, not_true_eq_false, hback, hc]

end CursorAppearance

open CursorAppearance

/-- The encoder's fields of a decoded cursor are those of the header it was read from. -/
theorem CursorHeader.fields_of_appearance {header : CursorHeader} {png : List UInt8}
    (hk : header.flags &&& ~~~knownFlags = 0)
    (hl : header.pngLen.toNat = png.length) (h : header.appearance png = .ok app) :
    app.fields = .ok ⟨header.flags, header.imageId, header.width, header.height, header.hotspotX,
      header.hotspotY, png⟩ := by
  have hfl := known_flags_cases hk
  unfold CursorHeader.appearance at h
  by_cases hvisi : header.flags &&& flagVisible = 0
  · rw [if_pos hvisi] at h hfl
    rw [check_eq_ok, check_eq_ok, check_eq_ok] at h
    obtain ⟨hi, hzero, hpng, ha⟩ := h
    cases ha
    have hzeroFlags : header.flags = 0 := hfl.resolve_right hi
    have hnil : png = [] := by
      rw [not_not, hl, length_eq_zero_iff] at hpng
      exact hpng
    simp only [not_or, not_not] at hzero
    obtain ⟨hid, hw, hh, hhotspotX, hhotspotY⟩ := hzero
    rw [fields, hzeroFlags, hid, hw, hh, hhotspotX, hhotspotY, hnil]
  · rw [if_neg hvisi] at h hfl
    split at h
    · cases h
    rename_i id hid
    dsimp only at h
    rw [check_eq_ok] at h
    obtain ⟨hi, h⟩ := h
    split at h
    · cases h
    rename_i hc
    cases h
    have hget := NonZero.new_eq_some hid
    -- with the inline flag the PNG is the rest of the record, without it the rest is empty
    cases hflag : header.flags &&& flagInline != 0 with
    | true =>
      rw [hflag, if_pos rfl] at hc
      rw [hflag] at hfl
      simp [fields, hc, hget, hfl]
    | false =>
      rw [hflag, if_neg Bool.false_ne_true] at hc
      rw [hflag] at hfl hi
      have hnil : png = [] := by
        rw [← length_eq_zero_iff, ← hl]
        simpa using hi
      simp [fields, hc, hget, hfl, hnil]

variable {update : CursorUpdate} {bytes : List UInt8}

theorem encodeCursorUpdate_eq_ok : encodeCursorUpdate update = .ok bytes ↔
      ∃ fields, update.appearance.fields = .ok fields ∧
        bytes = (update.header fields (UInt32.ofNat fields.png.length)).layout fields.png := by
  rw [encodeCursorUpdate]
  cases hf : update.appearance.fields with
  | error => simp
  | ok fields =>
    have hle := (fields_spec hf).1
    have hfit : u32TryFrom fields.png.length = some (UInt32.ofNat fields.png.length) :=
      u32TryFrom_of_lt (hle.trans_lt (by decide))
    simp [hfit, eq_comm]

theorem length_of_encodeCursorUpdate
    (h : encodeCursorUpdate update = .ok bytes) : bytes.length ≤ maxCursorUpdateBytes := by
  obtain ⟨_, hf, rfl⟩ := encodeCursorUpdate_eq_ok.mp h
  rw [CursorHeader.length_layout]
  exact Nat.add_le_add_left (fields_spec hf).1 _

theorem encodeCursorUpdate_isOk : (∃ bytes, encodeCursorUpdate update = .ok bytes) ↔ update.WellFormed := by
  rw [CursorUpdate.WellFormed, ← fields_eq_ok_iff]
  simp only [encodeCursorUpdate_eq_ok]
  constructor
  · rintro ⟨-, fields, hf, -⟩
    exact ⟨fields, hf⟩
  · rintro ⟨fields, hf⟩
    exact ⟨_, fields, hf, rfl⟩

theorem decodeCursorUpdate_of_encode
    (h : encodeCursorUpdate update = .ok bytes) : decodeCursorUpdate bytes = .ok update := by
  obtain ⟨fields, hf, rfl⟩ := encodeCursorUpdate_eq_ok.mp h
  obtain ⟨hle, hk, ha⟩ := fields_spec hf
  have hpngLen : (UInt32.ofNat fields.png.length).toNat = fields.png.length :=
    UInt32.toNat_ofNat_of_lt' (hle.trans_lt (by decide))
  rw [decodeCursorUpdate, CursorHeader.length_layout, if_neg (by omega), if_neg (by simp; rfl), if_neg (by simp; rfl)]
  simp only [CursorHeader.read_layout, CursorHeader.drop_layout]
  have hl : (update.header fields (UInt32.ofNat fields.png.length)).pngLen.toNat = fields.png.length := hpngLen
  rw [if_neg (by simpa [CursorUpdate.header] using hk), hl, if_neg (by omega), ha update _ hpngLen]
  simp [CursorUpdate.header]

theorem encodeCursorUpdate_of_decode (h : decodeCursorUpdate bytes = .ok update) (hfall : byteAt bytes 3 ≤ 17) :
    encodeCursorUpdate update = .ok bytes := by
  rw [decodeCursorUpdate] at h
  rw [check_eq_ok, check_eq_ok, check_eq_ok, check_eq_ok, check_eq_ok, check_eq_ok] at h
  obtain ⟨hshort, htype, hver, hk, hbd, hl, h⟩ := h
  simp only [not_not] at htype hver hk hl
  split at h
  · cases h
  rename_i app ha
  cases h
  have hdrop : (CursorHeader.read bytes).pngLen.toNat = (bytes.drop cursorUpdateHeaderSize).length := by
    rw [length_drop]
    omega
  have hf := CursorHeader.fields_of_appearance hk hdrop ha
  refine encodeCursorUpdate_eq_ok.mpr ⟨_, hf, ?_⟩
  have hback : shapeWireIndex (shapeFromWireIndex (CursorHeader.read bytes).fallback) =
      (CursorHeader.read bytes).fallback := shapeWireIndex_shapeFromWireIndex hfall
  rw [CursorUpdate.header, ← hdrop, hback, UInt32.ofNat_toNat]
  exact (CursorHeader.layout_read (by omega) htype hver).symm

/-- **The cursor record codec.** What is encoded is read back; what is accepted with a known fallback
shape is canonical; the encoder accepts exactly the well-formed records, and no record is longer than
the lane allows. -/
theorem cursorUpdate_codec :
    (∀ update bytes, encodeCursorUpdate update = .ok bytes → decodeCursorUpdate bytes = .ok update) ∧
      (∀ bytes update, decodeCursorUpdate bytes = .ok update → byteAt bytes 3 ≤ 17 →
        encodeCursorUpdate update = .ok bytes) ∧
      (∀ update, (∃ bytes, encodeCursorUpdate update = .ok bytes) ↔ update.WellFormed) ∧
      (∀ update bytes, encodeCursorUpdate update = .ok bytes → bytes.length ≤ maxCursorUpdateBytes) :=
  ⟨fun _ _ => decodeCursorUpdate_of_encode, fun _ _ => encodeCursorUpdate_of_decode,
    fun _ => encodeCursorUpdate_isOk, fun _ _ => length_of_encodeCursorUpdate⟩

/-- The first record of an attachment: a 16 by 16 pointer with its PNG. -/
def CursorUpdate.firstPointer : CursorUpdate :=
  ⟨1, 0, 7, .pointer, .image ⟨⟨1, u32_one_ne_zero⟩, 16, 16, 3, 0, some (pngMagic ++ [0])⟩⟩

theorem cursorUpdate_codec_firstPointer : ∃ bytes, encodeCursorUpdate CursorUpdate.firstPointer = .ok bytes ∧
      decodeCursorUpdate bytes = .ok CursorUpdate.firstPointer ∧ bytes.length ≤ maxCursorUpdateBytes ∧
      byteAt bytes 3 ≤ 17 := by
  obtain ⟨hdec, -, hacc, hbd⟩ := cursorUpdate_codec
  have hwell : CursorUpdate.firstPointer.WellFormed := by
    intro image himage
    cases himage
    decide
  obtain ⟨bytes, hby⟩ := (hacc _).mpr hwell
  refine ⟨bytes, hby, hdec _ _ hby, hbd _ _ hby, ?_⟩
  obtain ⟨_, -, rfl⟩ := encodeCursorUpdate_eq_ok.mp hby
  change (7 : UInt8) ≤ 17
  decide

end Arcen
