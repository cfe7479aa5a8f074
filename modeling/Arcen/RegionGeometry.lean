import Arcen.Fallible
import Arcen.NonZero

/-! Applied regions (`media/region.rs`) and the transform from a region's logical units to pixels of the applied desktop
(`input/region.rs`). Sizes and rectangles carry the bounds their constructors check, and from these alone every point
of a region has a pixel. -/

namespace Arcen

abbrev RegionId := NonZeroU32
abbrev RegionGeneration := NonZeroU64

def i64Min : Int := -2 ^ 63
def i64Max : Int := 2 ^ 63 - 1

structure LogicalPoint where
  x : Int
  y : Int
  deriving DecidableEq

/-- A nonempty size in fixed-point logical units, of 64 bits an axis. -/
structure LogicalSize where
  width : Nat
  height : Nat
  width_pos : 0 < width
  height_pos : 0 < height
  width_lt : width < 2 ^ 64
  height_lt : height < 2 ^ 64

inductive OutputTransform where
  | normal
  | rotate90
  | rotate180
  | rotate270
  | flipped
  | flipped90
  | flipped180
  | flipped270

def OutputTransform.swapsAxes : OutputTransform → Bool
  | .rotate90 => true
  | .rotate270 => true
  | .flipped90 => true
  | .flipped270 => true
  | _ => false

/-- A nonempty extent in pixels, of 32 bits an axis. -/
structure PixelSize where
  width : Nat
  height : Nat
  width_pos : 0 < width
  height_pos : 0 < height
  width_lt : width < 2 ^ 32
  height_lt : height < 2 ^ 32

abbrev PhysicalSize := PixelSize
abbrev AppliedSize := PixelSize

def PixelSize.swapped (size : PixelSize) : PixelSize :=
  ⟨size.height, size.width, size.height_pos, size.width_pos, size.height_lt, size.width_lt⟩

/-- A signed pixel of the applied desktop. -/
structure AppliedPoint where
  x : Int
  y : Int

/-- A nonempty applied rectangle whose bounds fit the signed domain. -/
structure AppliedRect where
  origin : AppliedPoint
  size : AppliedSize
  left : i64Min ≤ origin.x
  top : i64Min ≤ origin.y
  right : origin.x + size.width ≤ i64Max
  bottom : origin.y + size.height ≤ i64Max

structure RegionDescriptor where
  id : RegionId
  logicalSize : LogicalSize
  physicalSize : PhysicalSize
  transform : OutputTransform

def RegionDescriptor.expectedAppliedSize (descriptor : RegionDescriptor) : AppliedSize :=
  if descriptor.transform.swapsAxes then descriptor.physicalSize.swapped else descriptor.physicalSize

/-- A region placed in the applied desktop, with the extent its stream has after the transform. -/
structure AppliedRegionDescriptor where
  descriptor : RegionDescriptor
  appliedRect : AppliedRect
  size_eq : appliedRect.size = descriptor.expectedAppliedSize

structure AppliedRegionSet where
  generation : RegionGeneration
  regions : List AppliedRegionDescriptor

def AppliedRegionSet.get (regions : AppliedRegionSet) (id : RegionId) : Option AppliedRegionDescriptor :=
  regions.regions.find? fun region => region.descriptor.id = id

/-! ### Logical points to pixels -/

inductive CoordinateTransformError where
  | unknownRegion (id : RegionId)
  | logicalPointOutsideRegion
  | coordinateOverflow

def localCoordinate (coordinate : Int) (extent : Nat) : Except CoordinateTransformError Nat :=
  if coordinate < 0 ∨ (extent : Int) ≤ coordinate then .error .logicalPointOutsideRegion else .ok coordinate.toNat

/-- `checked_add` and `checked_mul` on 128 bits. -/
def checkedU128 (value : Nat) : Except CoordinateTransformError Nat :=
  if value < 2 ^ 128 then .ok value else .error .coordinateOverflow

/-- `i64::try_from`, and `checked_add` of signed coordinates. -/
def checkedI64 (value : Int) : Except CoordinateTransformError Int :=
  if i64Min ≤ value ∧ value ≤ i64Max then .ok value else .error .coordinateOverflow

def roundedRatio (numerator denominator : Nat) : Except CoordinateTransformError Int := do
  let sum ← checkedU128 (numerator + denominator / 2)
  checkedI64 ((sum / denominator : Nat) : Int)

def mapAxisForward (coordinate logicalExtent physicalExtent : Nat) : Except CoordinateTransformError Int :=
  if logicalExtent = 1 ∨ physicalExtent = 1 then .ok 0
  else do
    let numerator ← checkedU128 (coordinate * (physicalExtent - 1))
    roundedRatio numerator (logicalExtent - 1)

def transformForward (transform : OutputTransform) (x y maxX maxY : Int) : Int × Int :=
  match transform with
  | .normal => (x, y)
  | .rotate90 => (maxY - y, x)
  | .rotate180 => (maxX - x, maxY - y)
  | .rotate270 => (y, maxX - x)
  | .flipped => (maxX - x, y)
  | .flipped90 => (maxY - y, maxX - x)
  | .flipped180 => (x, maxY - y)
  | .flipped270 => (y, x)

def AppliedRegionSet.logicalToApplied (regions : AppliedRegionSet) (id : RegionId) (point : LogicalPoint) :
    Except CoordinateTransformError AppliedPoint := do
  let region ← orError (.unknownRegion id) (regions.get id)
  let logicalSize := region.descriptor.logicalSize
  let x ← localCoordinate point.x logicalSize.width
  let y ← localCoordinate point.y logicalSize.height
  let physical := region.descriptor.physicalSize
  let x ← mapAxisForward x logicalSize.width physical.width
  let y ← mapAxisForward y logicalSize.height physical.height
  let (x, y) := transformForward region.descriptor.transform x y (physical.width - 1) (physical.height - 1)
  let origin := region.appliedRect.origin
  let x ← checkedI64 (origin.x + x)
  let y ← checkedI64 (origin.y + y)
  pure ⟨x, y⟩

/-! ### Every point of a region has a pixel -/

theorem localCoordinate_of_inside {coordinate : Int} {extent : Nat} (hlow : 0 ≤ coordinate)
    (hhigh : coordinate < extent) : localCoordinate coordinate extent = .ok coordinate.toNat := by
  unfold localCoordinate
  rw [if_neg (by omega)]

theorem checkedI64_of_mem {value : Int} (hlow : i64Min ≤ value) (hhigh : value ≤ i64Max) :
    checkedI64 value = .ok value := if_pos ⟨hlow, hhigh⟩

theorem roundedRatio_of_le (hpos : 0 < denominator) (hdeno : denominator < 2 ^ 64) (hlast : last < 2 ^ 32)
    (hnumer : numerator ≤ denominator * last) :
    ∃ pixel : Nat, roundedRatio numerator denominator = .ok (pixel : Int) ∧ pixel ≤ last := by
  have hsmall : denominator * last < 2 ^ 64 * 2 ^ 32 := Nat.mul_lt_mul'' hdeno hlast
  have hsum : checkedU128 (numerator + denominator / 2) = .ok (numerator + denominator / 2) := if_pos (by omega)
  have hratio : (numerator + denominator / 2) / denominator ≤ last := by
    refine Nat.le_of_lt_succ ((Nat.div_lt_iff_lt_mul hpos).mpr ?_)
    rw [Nat.succ_mul, Nat.mul_comm last]
    omega
  refine ⟨(numerator + denominator / 2) / denominator, ?_, hratio⟩
  unfold roundedRatio
  rw [hsum, exceptBind_ok]
  generalize (numerator + denominator / 2) / denominator = pixel at hratio
  refine checkedI64_of_mem ?_ ?_
  · unfold i64Min
    omega
  · unfold i64Max
    omega

/-- A coordinate of the logical extent lands on a pixel of the physical one. -/
theorem mapAxisForward_of_lt {coordinate logicalExtent physicalExtent : Nat} (hcoor : coordinate < logicalExtent)
    (hlogi : logicalExtent < 2 ^ 64) (hpos : 0 < physicalExtent) (hphys : physicalExtent < 2 ^ 32) :
    ∃ pixel, mapAxisForward coordinate logicalExtent physicalExtent = .ok pixel ∧ 0 ≤ pixel ∧
      pixel ≤ physicalExtent - 1 := by
  unfold mapAxisForward
  by_cases hone : logicalExtent = 1 ∨ physicalExtent = 1
  · rw [if_pos hone]
    exact ⟨0, rfl, le_rfl, by omega⟩
  rw [if_neg hone]
  have hprod : coordinate * (physicalExtent - 1) ≤ (logicalExtent - 1) * (physicalExtent - 1) :=
    Nat.mul_le_mul_right _ (by omega)
  have hsmall : (logicalExtent - 1) * (physicalExtent - 1) < 2 ^ 64 * 2 ^ 32 := Nat.mul_lt_mul'' (by omega) (by omega)
  have hnumer : checkedU128 (coordinate * (physicalExtent - 1)) = .ok (coordinate * (physicalExtent - 1)) :=
    if_pos (by omega)
  have hexte : 0 < logicalExtent - 1 := by omega
  have hexte' : logicalExtent - 1 < 2 ^ 64 := by omega
  have hlast : physicalExtent - 1 < 2 ^ 32 := by omega
  obtain ⟨pixel, hpixel, _⟩ := roundedRatio_of_le hexte hexte' hlast hprod
  rw [hnumer]
  exact ⟨pixel, hpixel, by omega, by omega⟩

/-- The transform stays inside the extent it produces. -/
theorem transformForward_inside {desc : RegionDescriptor} {x y : Int} (hx : 0 ≤ x)
    (hx' : x ≤ desc.physicalSize.width - 1) (hy : 0 ≤ y) (hy' : y ≤ desc.physicalSize.height - 1) :
    let pixel := transformForward desc.transform x y (desc.physicalSize.width - 1) (desc.physicalSize.height - 1)
    0 ≤ pixel.1 ∧ pixel.1 < desc.expectedAppliedSize.width ∧ 0 ≤ pixel.2 ∧
      pixel.2 < desc.expectedAppliedSize.height := by
  unfold RegionDescriptor.expectedAppliedSize
  cases desc.transform <;>
    simp only [transformForward, OutputTransform.swapsAxes, PixelSize.swapped, if_true, Bool.false_eq_true, if_false] <;>
    omega

theorem AppliedRegionSet.logicalToApplied_of_inside {regions : AppliedRegionSet} {id : RegionId} {point : LogicalPoint}
    {region : AppliedRegionDescriptor} (hregi : regions.get id = some region) (hx : 0 ≤ point.x)
    (hx' : point.x < region.descriptor.logicalSize.width) (hy : 0 ≤ point.y)
    (hy' : point.y < region.descriptor.logicalSize.height) :
    ∃ pixel, regions.logicalToApplied id point = .ok pixel := by
  have hw : point.x.toNat < region.descriptor.logicalSize.width := by omega
  have hh : point.y.toNat < region.descriptor.logicalSize.height := by omega
  obtain ⟨_, hmapX, hlowX, hhighX⟩ := mapAxisForward_of_lt hw region.descriptor.logicalSize.width_lt
    region.descriptor.physicalSize.width_pos region.descriptor.physicalSize.width_lt
  obtain ⟨_, hmapY, hlowY, hhighY⟩ := mapAxisForward_of_lt hh region.descriptor.logicalSize.height_lt
    region.descriptor.physicalSize.height_pos region.descriptor.physicalSize.height_lt
  have hin := transformForward_inside hlowX hhighX hlowY hhighY
  rw [← region.size_eq] at hin
  have hrectLeft := region.appliedRect.left
  have hrectTop := region.appliedRect.top
  have hrectRight := region.appliedRect.right
  have hrectBottom := region.appliedRect.bottom
  unfold logicalToApplied
  rw [hregi]
  simp only [orError, exceptBind_ok, localCoordinate_of_inside hx hx', localCoordinate_of_inside hy hy', hmapX, hmapY]
  rw [checkedI64_of_mem (by omega) (by omega), checkedI64_of_mem (by omega) (by omega)]
  exact ⟨_, rfl⟩

end Arcen
