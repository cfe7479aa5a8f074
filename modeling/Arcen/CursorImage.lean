import Arcen.CursorUpdate

/-! Host cursor images (`shared/media/src/cursor.rs`): bounded straight-alpha bitmaps with a hotspot,
trimmed and shrunk until their PNG fits the wire. The type of an image carries what its constructors
check: sides between 1 and 384 pixels, a hotspot inside, and four bytes for each pixel. -/

namespace Arcen

open List hiding le_refl

def maxSourceCursorSide : Nat := 384

inductive CursorImageError where
  | dimensions (width height : Nat)
  | length
  | tooLargeForWire
  | png

/-- A validated straight-alpha cursor image with its hotspot inside it. -/
structure CursorImage where
  width : Nat
  height : Nat
  hotspot : Nat × Nat
  rgba : List UInt8
  width_range : 0 < width ∧ width ≤ maxSourceCursorSide
  height_range : 0 < height ∧ height ≤ maxSourceCursorSide
  hotspot_inside : hotspot.1 < width ∧ hotspot.2 < height
  length_rgba : rgba.length = width * height * 4
  deriving DecidableEq

def pixelBytes (width height : Nat) : Except CursorImageError Nat :=
  if width = 0 ∨ height = 0 ∨ maxSourceCursorSide < width ∨ maxSourceCursorSide < height then
    .error (.dimensions width height)
  else .ok (width * height * 4)

theorem pixelBytes_eq_ok (h : pixelBytes width height = .ok bytes) :
    (0 < width ∧ width ≤ maxSourceCursorSide) ∧ (0 < height ∧ height ≤ maxSourceCursorSide) ∧
      bytes = width * height * 4 := by
  rw [pixelBytes, check_eq_ok] at h
  obtain ⟨_, hby⟩ := h
  cases hby
  omega

/-- The pixel of an axis of this size nearest to a coordinate. -/
def clampCoordinate (value : Int) (size : Nat) : Nat := (max 0 (min value ((size : Int) - 1))).toNat

def clampHotspot (hotspot : Int × Int) (width height : Nat) : Nat × Nat :=
  (clampCoordinate hotspot.1 width, clampCoordinate hotspot.2 height)

theorem clampCoordinate_lt (value : Int) (h : 0 < size) : clampCoordinate value size < size := by
  rw [clampCoordinate]
  omega

theorem clampHotspot_inside (hotspot : Int × Int) (hw : 0 < width) (hh : 0 < height) :
    (clampHotspot hotspot width height).1 < width ∧ (clampHotspot hotspot width height).2 < height :=
  ⟨clampCoordinate_lt _ hw, clampCoordinate_lt _ hh⟩

/-- `u8::try_from(..).unwrap_or(u8::MAX)`. -/
def u8OrMax (n : Nat) : UInt8 := if n < 256 then UInt8.ofNat n else 255

def unpremultiply (value alpha : UInt8) : UInt8 :=
  if alpha = 0 then 0 else u8OrMax ((value.toNat * 255 + alpha.toNat / 2) / alpha.toNat)

def premultiply (value alpha : UInt8) : UInt8 := u8OrMax ((value.toNat * alpha.toNat + 127) / 255)

/-! ### Pixels -/

structure Pixel where
  red : UInt8
  green : UInt8
  blue : UInt8
  alpha : UInt8

namespace Pixel

variable (pixel : Pixel)

def bytes : List UInt8 := [pixel.red, pixel.green, pixel.blue, pixel.alpha]

def unpremultiplied : Pixel := ⟨unpremultiply pixel.red pixel.alpha, unpremultiply pixel.green pixel.alpha,
    unpremultiply pixel.blue pixel.alpha, pixel.alpha⟩

def premultiplied : Pixel := ⟨premultiply pixel.red pixel.alpha, premultiply pixel.green pixel.alpha,
    premultiply pixel.blue pixel.alpha, pixel.alpha⟩

end Pixel

/-- `chunks_exact(4)`. -/
def pixels : List UInt8 → List Pixel
  | red :: green :: blue :: alpha :: rest => ⟨red, green, blue, alpha⟩ :: pixels rest
  | _ => []

variable (image : List Pixel)

def pixelsBytes : List UInt8 := image.flatMap Pixel.bytes

@[simp] theorem pixels_pixelsBytes : pixels (pixelsBytes image) = image := by
  induction image with
  | nil => rfl
  | cons pixel image ih =>
    change (⟨pixel.red, pixel.green, pixel.blue, pixel.alpha⟩ : Pixel) :: pixels (pixelsBytes image) = _
    rw [ih]

theorem length_pixelsBytes : (pixelsBytes image).length = image.length * 4 := by
  induction image with
  | nil => rfl
  | cons _ image =>
    change (pixelsBytes image).length + 4 = (image.length + 1) * 4
    omega

theorem length_flatMap_rows {rows : List α} {row : α → List β}
    (h : ∀ y ∈ rows, (row y).length = k) : (rows.flatMap row).length = rows.length * k := by
  rw [length_flatMap, map_congr_left h, map_const', sum_replicate_nat]

namespace CursorImage

variable (image : CursorImage)

/-- Wraps straight-alpha pixels. A hotspot outside the image is clamped to its nearest edge pixel. -/
def fromStraightRgba (width height : Nat) (hotspot : Int × Int) (rgba : List UInt8) :
    Except CursorImageError CursorImage :=
  match h : pixelBytes width height with
  | .error error => .error error
  | .ok bytes =>
    if hlength : rgba.length ≠ bytes then .error .length
    else .ok
      { width, height
        hotspot := clampHotspot hotspot width height
        rgba
        width_range := (pixelBytes_eq_ok h).1
        height_range := (pixelBytes_eq_ok h).2.1
        hotspot_inside := clampHotspot_inside _ (pixelBytes_eq_ok h).1.1 (pixelBytes_eq_ok h).2.1.1
        length_rgba := (not_not.mp hlength).trans (pixelBytes_eq_ok h).2.2 }

/-! ### Trimming -/

/-- A rectangle of pixels, both corners included. -/
structure Bounds where
  x0 : Nat
  y0 : Nat
  x1 : Nat
  y1 : Nat
  deriving DecidableEq

namespace Bounds

structure Within (bounds : Bounds) (width height : Nat) : Prop where
  columns : bounds.x0 ≤ bounds.x1 ∧ bounds.x1 < width
  rows : bounds.y0 ≤ bounds.y1 ∧ bounds.y1 < height

/-- The least rectangle with one more pixel. -/
def cover (bounds : Bounds) (x y : Nat) : Bounds :=
  ⟨min bounds.x0 x, min bounds.y0 y, max bounds.x1 x, max bounds.y1 y⟩

theorem Within.cover {bounds : Bounds} {width height x y : Nat} (h : bounds.Within width height)
    (hx : x < width) (hy : y < height) : (bounds.cover x y).Within width height := by
  obtain ⟨_, _⟩ := h
  constructor <;> simp only [Bounds.cover] <;> omega

end Bounds

/-- The pixel positions of an image, row by row. -/
def coordinates (width height : Nat) : List (Nat × Nat) :=
  (List.range height).flatMap fun y => (List.range width).map fun x => (x, y)

def alpha (x y : Nat) : UInt8 := byteAt image.rgba ((y * image.width + x) * 4 + 3)

/-- One step of the search for visible pixels. -/
def growBounds (bounds : Option Bounds) (position : Nat × Nat) : Option Bounds :=
  if image.alpha position.1 position.2 ≠ 0 then
    match bounds with
    | none => some ⟨position.1, position.2, position.1, position.2⟩
    | some bounds => some (bounds.cover position.1 position.2)
  else bounds

/-- The least rectangle of all visible pixels. -/
def visibleBounds : Option Bounds := (coordinates image.width image.height).foldl image.growBounds none

variable {pos : Nat × Nat} {bounds : Option Bounds}

theorem mem_coordinates {width height : Nat} : pos ∈ coordinates width height ↔ pos.1 < width ∧ pos.2 < height := by
  obtain ⟨x, y⟩ := pos
  simp only [coordinates, mem_flatMap, mem_map, mem_range, Prod.mk.injEq]
  constructor
  · rintro ⟨_, hy, _, hx, rfl, rfl⟩
    exact ⟨hx, hy⟩
  · rintro ⟨hx, hy⟩
    exact ⟨y, hy, x, hx, rfl, rfl⟩

theorem growBounds_within (hboun : ∀ b ∈ bounds, b.Within image.width image.height)
    (hposi : pos.1 < image.width ∧ pos.2 < image.height) :
    ∀ b ∈ image.growBounds bounds pos, b.Within image.width image.height := by
  intro b hb
  unfold growBounds at hb
  split at hb
  · cases bounds with
    | none =>
      cases hb
      exact ⟨⟨le_refl _, hposi.1⟩, ⟨le_refl _, hposi.2⟩⟩
    | some old =>
      cases hb
      exact (hboun old rfl).cover hposi.1 hposi.2
  · exact hboun b hb

theorem visibleBounds_within {bounds : Bounds} (h : image.visibleBounds = some bounds) :
    bounds.Within image.width image.height :=
  foldlRecOn (motive := fun found => ∀ b ∈ found, b.Within image.width image.height) _ _ (by simp)
    (fun _ hboun _ hmem => image.growBounds_within hboun (mem_coordinates.mp hmem)) bounds h

/-- The rows of a rectangle. -/
def cropRgba (bounds : Bounds) : List UInt8 := (range' bounds.y0 (bounds.y1 - bounds.y0 + 1)).flatMap fun y =>
    slice image.rgba ((y * image.width + bounds.x0) * 4)
      ((y * image.width + bounds.x0) * 4 + (bounds.x1 - bounds.x0 + 1) * 4)

theorem length_cropRgba {bounds : Bounds} (h : bounds.Within image.width image.height) :
    (image.cropRgba bounds).length = (bounds.x1 - bounds.x0 + 1) * (bounds.y1 - bounds.y0 + 1) * 4 := by
  obtain ⟨_, _⟩ := h
  rw [cropRgba, length_flatMap_rows (k := (bounds.x1 - bounds.x0 + 1) * 4), length_range']
  · ring
  · intro y hy
    rw [mem_range'_1] at hy
    have hrow : (y + 1) * image.width ≤ image.height * image.width := Nat.mul_le_mul_right _ (by omega)
    have hend : (y * image.width + bounds.x0) * 4 + (bounds.x1 - bounds.x0 + 1) * 4 ≤ image.rgba.length := by
      rw [image.length_rgba]
      have hexpa : (y + 1) * image.width = y * image.width + image.width := by ring
      have hcomm : image.width * image.height = image.height * image.width := Nat.mul_comm _ _
      omega
    rw [length_slice hend]
    omega

/-- The part of the image inside a rectangle that has the hotspot in it. -/
def crop (bounds : Bounds) (h : bounds.Within image.width image.height)
    (hspot : (bounds.x0 ≤ image.hotspot.1 ∧ image.hotspot.1 ≤ bounds.x1) ∧
      (bounds.y0 ≤ image.hotspot.2 ∧ image.hotspot.2 ≤ bounds.y1)) : CursorImage where
  width := bounds.x1 - bounds.x0 + 1
  height := bounds.y1 - bounds.y0 + 1
  hotspot := (image.hotspot.1 - bounds.x0, image.hotspot.2 - bounds.y0)
  rgba := image.cropRgba bounds
  width_range := by
    have hrange := image.width_range
    have hcolumns := h.columns
    omega
  height_range := by
    have hrange := image.height_range
    have hrows := h.rows
    omega
  hotspot_inside := by
    simp only
    omega
  length_rgba := image.length_cropRgba h

/-- Crops fully transparent borders, keeping the hotspot inside. `none` when no pixel is visible. -/
def trimmed : Option CursorImage :=
  match h : image.visibleBounds with
  | none => none
  | some visible =>
    let bounds := visible.cover image.hotspot.1 image.hotspot.2
    if bounds = ⟨0, 0, image.width - 1, image.height - 1⟩ then some image
    else some (image.crop bounds ((image.visibleBounds_within h).cover image.hotspot_inside.1 image.hotspot_inside.2)
      (by simp only [bounds, Bounds.cover]; omega))

/-! ### Shrinking -/

/-- The source coordinates that pixel `i` of `size` shows, out of `source`. -/
def sourceRange (i size source : Nat) : List Nat :=
  let start := i * source / size
  let stop := max (((i + 1) * source + size - 1) / size) (start + 1)
  range' start (min stop source - start)

def averageChannel (channel : Pixel → UInt8) (region : List Pixel) : UInt8 :=
  let count := max region.length 1
  u8OrMax (((region.map fun pixel => (channel pixel).toNat).sum + count / 2) / count)

/-- Resamples to a size on premultiplied values: area average when shrinking, nearest pixel when
growing. -/
def resamplePremultiplied (width height : Nat) : List UInt8 :=
  let source := (pixels image.rgba).map Pixel.premultiplied
  pixelsBytes ((List.range height).flatMap fun y => (List.range width).map fun x =>
    let region := (sourceRange y height image.height).flatMap fun sy =>
      (sourceRange x width image.width).map fun sx => source.getD (sy * image.width + sx) ⟨0, 0, 0, 0⟩
    ⟨averageChannel Pixel.red region, averageChannel Pixel.green region, averageChannel Pixel.blue region,
      averageChannel Pixel.alpha region⟩)

def scaledHotspot (width height : Nat) : Int × Int :=
  ((image.hotspot.1 * width / image.width : Nat), (image.hotspot.2 * height / image.height : Nat))

theorem length_resample (width height : Nat) :
    (pixels (image.resamplePremultiplied width height)).length = width * height := by
  rw [resamplePremultiplied, pixels_pixelsBytes, length_flatMap_rows (k := width)]
  · rw [length_range, Nat.mul_comm]
  · intro y _
    rw [length_map, length_range]

/-- One side of a shrunk image. -/
def fitSide (side maxSide longest : Nat) : Nat := max (side * maxSide / longest) 1

theorem fitSide_range (hside : side ≤ longest)
    (hpos : 0 < maxSide) : 0 < fitSide side maxSide longest ∧ fitSide side maxSide longest ≤ maxSide := by
  have hdiv : side * maxSide / longest ≤ maxSide := by
    apply Nat.div_le_of_le_mul
    exact Nat.mul_le_mul_right maxSide hside
  rw [fitSide]
  omega

/-- Shrinks the image so that neither side exceeds `maxSide`, keeping its aspect ratio. Unchanged when it
already fits. -/
def fitWithin (maxSide : Nat) : CursorImage :=
  let side := max maxSide 1
  let longest := max image.width image.height
  if h : longest ≤ side then image
  else
    have hwidth := fitSide_range (Nat.le_max_left image.width image.height)
      (Nat.lt_of_lt_of_le Nat.one_pos (Nat.le_max_right maxSide 1))
    have hheight := fitSide_range (Nat.le_max_right image.width image.height)
      (Nat.lt_of_lt_of_le Nat.one_pos (Nat.le_max_right maxSide 1))
    have hlongest : longest ≤ maxSourceCursorSide := max_le image.width_range.2 image.height_range.2
    let width := fitSide image.width side longest
    let height := fitSide image.height side longest
    { width, height
      hotspot := clampHotspot (image.scaledHotspot width height) width height
      rgba := pixelsBytes ((pixels (image.resamplePremultiplied width height)).map Pixel.unpremultiplied)
      width_range := ⟨hwidth.1, hwidth.2.trans ((Nat.le_of_not_le h).trans hlongest)⟩
      height_range := ⟨hheight.1, hheight.2.trans ((Nat.le_of_not_le h).trans hlongest)⟩
      hotspot_inside := clampHotspot_inside _ hwidth.1 hheight.1
      length_rgba := by rw [length_pixelsBytes, length_map, length_resample] }

theorem fitWithin_sides (maxSide : Nat) :
    max (image.fitWithin maxSide).width (image.fitWithin maxSide).height ≤ max maxSide 1 := by
  rw [fitWithin]
  split
  · assumption
  · have hpos : 0 < max maxSide 1 := Nat.lt_of_lt_of_le Nat.one_pos (Nat.le_max_right maxSide 1)
    exact max_le (fitSide_range (Nat.le_max_left _ _) hpos).2 (fitSide_range (Nat.le_max_right _ _) hpos).2

end CursorImage

/-! ### The wire form -/

structure ImageLimits where
  maxEncodedBytes : Nat
  maxDecodedBytes : Nat
  maxDimension : Nat

structure ImageInfo where
  width : Nat
  height : Nat
  rgbaBytes : Nat

/-- `image_info`; its callers here do not look at the error. -/
def imageInfo (width height : Nat) (limits : ImageLimits) : Option ImageInfo :=
  if width = 0 ∨ height = 0 ∨ limits.maxDimension < width ∨ limits.maxDimension < height then none
  else if limits.maxDecodedBytes < width * height * 4 then none
  else some ⟨width, height, width * height * 4⟩

/-- The PNG library behind `encode_png_rgba` and `decode_png_rgba`. -/
structure PngCodec where
  encodePngRgba : ImageInfo → List UInt8 → Nat → Option (List UInt8)
  decodePngRgba : List UInt8 → ImageLimits → Option (ImageInfo × List UInt8)

structure WireCursorImage where
  image : CursorImage
  png : List UInt8
  deriving DecidableEq

namespace CursorImage

variable (codec : PngCodec) (image : CursorImage)

def encodePng (maxBytes : Nat) : Except CursorImageError (List UInt8) :=
  match imageInfo image.width image.height ⟨maxBytes, image.rgba.length, maxSourceCursorSide⟩ with
  | none => .error (.dimensions image.width image.height)
  | some info =>
    match codec.encodePngRgba info image.rgba maxBytes with
    | none => .error .tooLargeForWire
    | some png => .ok png

/-- The loop of `to_wire`: halve the image until its PNG fits. -/
def shrinkToWire (side : Nat) : Except CursorImageError (Option WireCursorImage) :=
  let fitted := image.fitWithin side
  match fitted.encodePng codec maxCursorPngBytes with
  | .ok png => .ok (some ⟨fitted, png⟩)
  | .error .tooLargeForWire =>
    if 8 < side then shrinkToWire (max fitted.width fitted.height / 2) else .error .tooLargeForWire
  | .error error => .error error
termination_by side
decreasing_by
  have hsides := image.fitWithin_sides side
  omega

/-- Fits the image to the wire: trims, shrinks, and halves until the PNG fits. `none` when no pixel is
visible. -/
def toWire : Except CursorImageError (Option WireCursorImage) :=
  match image.trimmed with
  | none => .ok none
  | some trimmed => trimmed.shrinkToWire codec maxCursorSide.toNat

/-- Decodes a wire PNG whose record declared the size and the hotspot. -/
def fromWirePng (png : List UInt8) (width height : Nat) (hotspot : Nat × Nat) : Except CursorImageError CursorImage :=
  match pixelBytes width height with
  | .error error => .error error
  | .ok bytes =>
    match codec.decodePngRgba png ⟨maxCursorPngBytes, bytes, maxCursorSide.toNat⟩ with
    | none => .error .png
    | some (info, rgba) =>
      if (info.width, info.height) ≠ (width, height) ∨ width ≤ hotspot.1 ∨ height ≤ hotspot.2 then
        .error .png
      else fromStraightRgba width height (hotspot.1, hotspot.2) rgba

end CursorImage
end Arcen
