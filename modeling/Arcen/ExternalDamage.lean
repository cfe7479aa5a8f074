import Arcen.KeelActivity

/-! Damage reported from outside (`shared/keel/src/external.rs`): rectangles of changed pixels are marked on the
block grid, and what several captured frames report before one picture is submitted is merged into one map. -/

namespace Arcen

open List

structure PixelRect where
  x : Nat
  y : Nat
  width : Nat
  height : Nat

namespace BlockGrid

def blockIndex (grid : BlockGrid) (blockX blockY : Nat) : Option Nat :=
  if grid.blocksWide ≤ blockX ∨ grid.blocksTall ≤ blockY then none
  else some (blockY * grid.blocksWide + blockX)

/-- Some pixel of the frame lies in the rectangle and in the block. -/
def Touches (grid : BlockGrid) (rect : PixelRect) (index : Nat) : Prop :=
  ∃ pixelX pixelY, pixelX < grid.width ∧ pixelY < grid.height ∧
    rect.x ≤ pixelX ∧ pixelX < rect.x + rect.width ∧ rect.y ≤ pixelY ∧ pixelY < rect.y + rect.height ∧
    index = pixelY / blockSize * grid.blocksWide + pixelX / blockSize

variable {grid : BlockGrid} {index : Nat}

theorem div_lt_blocksWide (h : pixelX < grid.width) : pixelX / blockSize < grid.blocksWide := by
  unfold blocksWide blockSize
  omega

theorem div_lt_blocksTall (h : pixelY < grid.height) : pixelY / blockSize < grid.blocksTall := by
  unfold blocksTall blockSize
  omega

theorem blockIndex_eq_some : grid.blockIndex blockX blockY = some index ↔
      blockX < grid.blocksWide ∧ blockY < grid.blocksTall ∧ index = blockY * grid.blocksWide + blockX := by
  unfold blockIndex
  split_ifs with h
  · simp only [false_iff]
    omega
  · rw [Option.some_inj]
    constructor
    · intro heq
      omega
    · intro heq
      omega

theorem blockIndex_lt (h : grid.blockIndex blockX blockY = some index) : index < grid.blockCount := by
  obtain ⟨hx, hy, rfl⟩ := blockIndex_eq_some.mp h
  calc
    blockY * grid.blocksWide + blockX < blockY * grid.blocksWide + grid.blocksWide := Nat.add_lt_add_left hx _
    _ = (blockY + 1) * grid.blocksWide := (Nat.succ_mul _ _).symm
    _ ≤ grid.blocksTall * grid.blocksWide := Nat.mul_le_mul_right _ hy
    _ = grid.blockCount := Nat.mul_comm _ _

theorem Touches.lt (h : grid.Touches rect index) : index < grid.blockCount := by
  obtain ⟨_, _, hx, hy, -, -, -, -, hidx⟩ := h
  exact blockIndex_lt (blockIndex_eq_some.mpr ⟨div_lt_blocksWide hx, div_lt_blocksTall hy, hidx⟩)

end BlockGrid

/-! ### Damage maps -/

structure DamageMap where
  grid : BlockGrid
  bits : List Bool

namespace DamageMap

def isDirty (map : DamageMap) (index : Nat) : Bool :=
  decide (index < map.grid.blockCount) && map.bits.getD index false

def dirtyBlocks (map : DamageMap) : List Nat := (List.range map.grid.blockCount).filter map.isDirty

theorem isDirty_iff {map : DamageMap} :
    map.isDirty index = true ↔ index < map.grid.blockCount ∧ map.bits.getD index false = true := by
  rw [isDirty, Bool.and_eq_true, decide_eq_true_eq]

theorem mem_dirtyBlocks {map : DamageMap} : index ∈ map.dirtyBlocks ↔ map.isDirty index = true := by
  rw [dirtyBlocks, mem_filter, mem_range]
  exact and_iff_right_of_imp fun h => (isDirty_iff.mp h).1

end DamageMap

def setBits (bits : List Bool) (indices : List Nat) : List Bool :=
  indices.foldl (fun bits index => bits.set index true) bits

theorem length_setBits (bits : List Bool) (indices : List Nat) : (setBits bits indices).length = bits.length := by
  induction indices generalizing bits with
  | nil => rfl
  | cons index indices ih =>
    rw [setBits, foldl_cons, ← setBits, ih, length_set]

theorem getD_setBits (hpos : pos < bits.length) :
    (setBits bits indices).getD pos false = true ↔ bits.getD pos false = true ∨ pos ∈ indices := by
  induction indices generalizing bits with
  | nil => simp [setBits]
  | cons index indices ih =>
    rw [setBits, foldl_cons, ← setBits, ih (by rwa [length_set])]
    by_cases heq : index = pos
    · subst heq
      simp [hpos]
    · simp [getElem?_set_ne heq, Ne.symm heq]

/-! ### The accumulator -/

/-- A reusable accumulator for externally supplied damage, one bit for each block. -/
structure ExternalDamage where
  grid : BlockGrid
  dirtyBits : List Bool
  sized : dirtyBits.length = grid.blockCount

namespace ExternalDamage

def new (grid : BlockGrid) : ExternalDamage := ⟨grid, replicate grid.blockCount false, length_replicate⟩

variable (damage : ExternalDamage)

def damageMap : DamageMap := ⟨damage.grid, damage.dirtyBits⟩

def reset : ExternalDamage := { damage with
    dirtyBits := damage.dirtyBits.map fun _ => false
    sized := by rw [length_map, damage.sized] }

def setBlocks (indices : List Nat) : ExternalDamage := { damage with
    dirtyBits := setBits damage.dirtyBits indices
    sized := by rw [length_setBits, damage.sized] }

/-- Marks every block the rectangle overlaps, clipped to the frame. -/
def markRect (rect : PixelRect) : ExternalDamage :=
  let startX := min rect.x damage.grid.width
  let startY := min rect.y damage.grid.height
  let endX := min (rect.x + rect.width) damage.grid.width
  let endY := min (rect.y + rect.height) damage.grid.height
  if endX ≤ startX ∨ endY ≤ startY then damage
  else
    let firstBlockX := startX / blockSize
    let firstBlockY := startY / blockSize
    let endBlockX := (endX + blockSize - 1) / blockSize
    let endBlockY := (endY + blockSize - 1) / blockSize
    damage.setBlocks <| (range' firstBlockY (endBlockY - firstBlockY)).flatMap fun blockY =>
        (range' firstBlockX (endBlockX - firstBlockX)).filterMap fun blockX => damage.grid.blockIndex blockX blockY

def markFullFrame : ExternalDamage := damage.markRect ⟨0, 0, damage.grid.width, damage.grid.height⟩

def mergeFrom (map : DamageMap) : ExternalDamage × Except KeelError Unit :=
  if map.grid ≠ damage.grid then (damage, .error (.geometryChanged damage.grid map.grid))
  else (damage.setBlocks map.dirtyBlocks, .ok ())

variable {damage : ExternalDamage} {rect : PixelRect} {index : Nat}

section

variable (damage : ExternalDamage)

@[simp] theorem damageMap_grid : damage.damageMap.grid = damage.grid := rfl
@[simp] theorem setBlocks_grid (indices : List Nat) : (damage.setBlocks indices).grid = damage.grid := rfl
@[simp] theorem markRect_grid (rect : PixelRect) : (damage.markRect rect).grid = damage.grid := by
  rw [markRect]
  split_ifs <;> rfl

@[simp] theorem isDirty_reset (index : Nat) : damage.reset.damageMap.isDirty index = false := by
  rw [DamageMap.isDirty, damageMap, reset, Bool.and_eq_false_iff]
  right
  rw [List.getD, getElem?_map]
  cases damage.dirtyBits[index]? <;> rfl

theorem isDirty_setBlocks (indices : List Nat) (index : Nat) :
    (damage.setBlocks indices).damageMap.isDirty index = true ↔
      damage.damageMap.isDirty index = true ∨ index < damage.grid.blockCount ∧ index ∈ indices := by
  rw [DamageMap.isDirty_iff, DamageMap.isDirty_iff, damageMap_grid, damageMap_grid, ← and_or_left]
  refine and_congr_right fun hidx => ?_
  exact getD_setBits (damage.sized.symm ▸ hidx)

end

/-- A block column meets a stretch of pixels exactly when it lies between the blocks of its two ends. -/
theorem mem_range'_iff_pixel (h : first < last) :
    block ∈ range' (first / blockSize) ((last + blockSize - 1) / blockSize - first / blockSize) ↔
      ∃ pixel, first ≤ pixel ∧ pixel < last ∧ pixel / blockSize = block := by
  rw [mem_range'_1]
  unfold blockSize
  constructor
  · intro hrng
    exact ⟨max first (block * 16), by omega, by omega, by omega⟩
  · rintro ⟨_, _, _, rfl⟩
    omega

/-- A block's first pixel lies in the frame. -/
theorem mul_blockSize_lt (h : block < (extent + blockSize - 1) / blockSize) : block * blockSize < extent := by
  unfold blockSize at *
  omega

/-- Marking a rectangle adds exactly the blocks it touches. -/
theorem isDirty_markRect : (damage.markRect rect).damageMap.isDirty index = true ↔
    damage.damageMap.isDirty index = true ∨ damage.grid.Touches rect index := by
  have hclip : ∀ start extent limit pixel : Nat, (min start limit ≤ pixel ∧ pixel < min (start + extent) limit) ↔
      (pixel < limit ∧ start ≤ pixel ∧ pixel < start + extent) := by
    intro start extent limit pixel
    omega
  rw [markRect]
  split_ifs with hemp
  · refine (or_iff_left ?_).symm
    rintro ⟨pixelX, pixelY, hx, hy, hx1, hx2, hy1, hy2, -⟩
    omega
  · rw [not_or, Nat.not_le, Nat.not_le] at hemp
    rw [isDirty_setBlocks]
    refine or_congr_right ?_
    simp only [mem_flatMap, mem_filterMap, mem_range'_iff_pixel hemp.1, mem_range'_iff_pixel hemp.2]
    constructor
    · rintro ⟨-, _, ⟨pixelY, hy1, hy2, rfl⟩, _, ⟨pixelX, hx1, hx2, rfl⟩, hidx⟩
      obtain ⟨hx, hx1, hx2⟩ := (hclip _ _ _ _).mp ⟨hx1, hx2⟩
      obtain ⟨hy, hy1, hy2⟩ := (hclip _ _ _ _).mp ⟨hy1, hy2⟩
      obtain ⟨-, -, hidx⟩ := BlockGrid.blockIndex_eq_some.mp hidx
      exact ⟨pixelX, pixelY, hx, hy, hx1, hx2, hy1, hy2, hidx⟩
    · intro htouch
      refine ⟨htouch.lt, ?_⟩
      obtain ⟨pixelX, pixelY, hx, hy, hx1, hx2, hy1, hy2, hidx⟩ := htouch
      obtain ⟨hleft, hrt⟩ := (hclip rect.x rect.width damage.grid.width pixelX).mpr ⟨hx, hx1, hx2⟩
      obtain ⟨htop, hbott⟩ := (hclip rect.y rect.height damage.grid.height pixelY).mpr ⟨hy, hy1, hy2⟩
      exact ⟨_, ⟨pixelY, htop, hbott, rfl⟩, _, ⟨pixelX, hleft, hrt, rfl⟩,
        BlockGrid.blockIndex_eq_some.mpr ⟨BlockGrid.div_lt_blocksWide hx, BlockGrid.div_lt_blocksTall hy, hidx⟩⟩

theorem isDirty_markFullFrame (hidx : index < damage.grid.blockCount) :
    damage.markFullFrame.damageMap.isDirty index = true := by
  have hwide : 0 < damage.grid.blocksWide := Nat.pos_of_mul_pos_right (Nat.zero_lt_of_lt hidx)
  have hcolu : index % damage.grid.blocksWide < damage.grid.blocksWide := Nat.mod_lt _ hwide
  have hrow : index / damage.grid.blocksWide < damage.grid.blocksTall := Nat.div_lt_of_lt_mul hidx
  refine isDirty_markRect.mpr (.inr ?_)
  have hx := mul_blockSize_lt hcolu
  have hy := mul_blockSize_lt hrow
  refine ⟨_, _, hx, hy, Nat.zero_le _, by rwa [Nat.zero_add], Nat.zero_le _, by rwa [Nat.zero_add], ?_⟩
  rw [Nat.mul_div_cancel _ (by decide), Nat.mul_div_cancel _ (by decide), Nat.mul_comm, Nat.div_add_mod]

variable (rects : List PixelRect)

theorem isDirty_foldl_markRect (damage : ExternalDamage) :
    (rects.foldl markRect damage).damageMap.isDirty index = true ↔
      damage.damageMap.isDirty index = true ∨ ∃ rect ∈ rects, damage.grid.Touches rect index := by
  induction rects generalizing damage with
  | nil => simp
  | cons rect rects ih =>
    rw [foldl_cons, ih, isDirty_markRect, or_assoc]
    simp

@[simp] theorem foldl_markRect_grid (damage : ExternalDamage) : (rects.foldl markRect damage).grid = damage.grid := by
  induction rects generalizing damage with
  | nil => rfl
  | cons rect rects ih => rw [foldl_cons, ih, markRect_grid]

theorem mergeFrom_of_grid {map : DamageMap} (h : map.grid = damage.grid) :
    damage.mergeFrom map = (damage.setBlocks map.dirtyBlocks, .ok ()) := by
  rw [mergeFrom, if_neg (not_not.mpr h)]

end ExternalDamage

/-! ### Damage waiting for a submission -/

/-- What the frames since the last submitted picture report. -/
structure PendingExternalDamage where
  damage : ExternalDamage
  pending : Bool

namespace PendingExternalDamage

def new (grid : BlockGrid) : PendingExternalDamage := ⟨.new grid, false⟩

variable (self : PendingExternalDamage)

def observe (map : DamageMap) : PendingExternalDamage × Except KeelError Unit :=
  let damage := if self.pending then self.damage else self.damage.reset
  match damage.mergeFrom map with
  | (damage, .ok ()) => (⟨damage, true⟩, .ok ())
  | (damage, .error error) => ({ self with damage }, .error error)

def markSubmitted : PendingExternalDamage := { self with pending := false }

def damageMap (self : PendingExternalDamage) : DamageMap := self.damage.damageMap

/-- What is marked and waits for a submission. -/
def Marks (index : Nat) : Prop := self.pending = true ∧ self.damageMap.isDirty index = true

variable {self : PendingExternalDamage} {map : DamageMap}

theorem observe_of_grid (h : map.grid = self.damage.grid) :
    ∃ damage, self.observe map = (⟨damage, true⟩, .ok ()) ∧ damage.grid = self.damage.grid ∧
      ∀ index, damage.damageMap.isDirty index = true ↔ self.Marks index ∨ map.isDirty index = true := by
  have hmerge : ∀ base : ExternalDamage, base.grid = self.damage.grid → ∀ index,
      (base.setBlocks map.dirtyBlocks).damageMap.isDirty index = true ↔
        base.damageMap.isDirty index = true ∨ map.isDirty index = true := by
    intro base hbase index
    rw [ExternalDamage.isDirty_setBlocks, DamageMap.mem_dirtyBlocks]
    refine or_congr_right (and_iff_right_of_imp fun hdirty => ?_)
    rw [hbase, ← h]
    exact (DamageMap.isDirty_iff.mp hdirty).1
  cases hpend : self.pending with
  | true =>
    refine ⟨self.damage.setBlocks map.dirtyBlocks, ?_, rfl, fun index => ?_⟩
    · simp only [observe, hpend, if_true, ExternalDamage.mergeFrom_of_grid h]
    · rw [hmerge self.damage rfl, Marks, damageMap, hpend]
      simp
  | false =>
    refine ⟨self.damage.reset.setBlocks map.dirtyBlocks, ?_, rfl, fun index => ?_⟩
    · have hreset : map.grid = self.damage.reset.grid := h
      simp only [observe, hpend, Bool.false_eq_true, if_false, ExternalDamage.mergeFrom_of_grid hreset]
    · rw [hmerge self.damage.reset rfl, Marks, hpend]
      simp

end PendingExternalDamage
end Arcen
