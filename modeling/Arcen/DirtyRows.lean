import Arcen.ExternalDamage
import Arcen.I420Conversion

/-! The dirty rows of a damage map, as pixel rows joined across adjacent dirty bands, and what a clean band says: with
hashes that tell the contents of a block apart, its rows are those of the picture before. -/

namespace Arcen

open BlockGrid List

/-! ### Bands -/

def BlockGrid.blockRowPixels (grid : BlockGrid) (blockRow : Nat) : Option RowRange :=
  if grid.blocksTall ≤ blockRow then none
  else some ⟨blockRow * blockSize, min (blockRow * blockSize + blockSize) grid.height⟩

/-- Steps on while the test holds, for at most `remaining` steps. -/
def advanceWhile (test : Nat → Bool) : Nat → Nat → Nat
  | 0, position => position
  | remaining + 1, position => if test position then advanceWhile test remaining (position + 1) else position

theorem advanceWhile_spec (test : Nat → Bool) (remaining pos : Nat) :
    pos ≤ advanceWhile test remaining pos ∧ advanceWhile test remaining pos ≤ pos + remaining ∧
      ∀ passed, pos ≤ passed → passed < advanceWhile test remaining pos → test passed = true := by
  induction remaining generalizing pos with
  | zero => exact ⟨Nat.le_refl _, Nat.le_refl _, fun passed hl hh => absurd hh (Nat.not_lt.mpr hl)⟩
  | succ remaining ih =>
    rw [advanceWhile]
    split_ifs with htest
    · obtain ⟨_, _, hpas⟩ := ih (pos + 1)
      refine ⟨by omega, by omega, fun passed hl hh => ?_⟩
      by_cases heq : passed = pos
      · rw [heq, htest]
      · exact hpas passed (by omega) hh
    · exact ⟨Nat.le_refl _, Nat.le_add_right _ _, fun passed hl hh => absurd hh (Nat.not_lt.mpr hl)⟩

namespace DamageMap

def rowIsDirty (map : DamageMap) (blockRow : Nat) : Bool := Arcen.rowIsDirty map.grid map.bits blockRow

variable {map : DamageMap} {blockRow nextBlockRow : Nat}

theorem rowIsDirty_lt (h : map.rowIsDirty blockRow = true) : blockRow < map.grid.blocksTall := by
  rw [rowIsDirty, Arcen.rowIsDirty, Bool.and_eq_true, decide_eq_true_eq] at h
  exact h.1

/-- The next rows of the iterator at a band, and where it goes on. -/
def nextDirtyRows (map : DamageMap) (nextBlockRow : Nat) : Option (RowRange × Nat) :=
  let tall := map.grid.blocksTall
  let first := advanceWhile (fun blockRow => !map.rowIsDirty blockRow) (tall - nextBlockRow) nextBlockRow
  if tall ≤ first then none
  else
    let next := advanceWhile map.rowIsDirty (tall - (first + 1)) (first + 1)
    match map.grid.blockRowPixels first, map.grid.blockRowPixels (next - 1) with
    | some start, some stop => some (⟨start.start, stop.stop⟩, next)
    | _, _ => none

/-- The rows from the band on; an iterator over a map ends after at most as many rows as the map has bands. -/
def dirtyBlockRowsFrom (map : DamageMap) : Nat → Nat → List RowRange
  | 0, _ => []
  | fuel + 1, nextBlockRow =>
    match map.nextDirtyRows nextBlockRow with
    | none => []
    | some (rows, next) => rows :: map.dirtyBlockRowsFrom fuel next

def dirtyBlockRows (map : DamageMap) : List RowRange := map.dirtyBlockRowsFrom (map.grid.blocksTall + 1) 0

structure Bands (map : DamageMap) (rows : RowRange) (first last : Nat) : Prop where
  ordered : first ≤ last
  inside : last < map.grid.blocksTall
  starts : rows.start = first * blockSize
  stops : rows.stop = min (last * blockSize + blockSize) map.grid.height

theorem nextDirtyRows_cases (map : DamageMap) (nextBlockRow : Nat) :
    (map.nextDirtyRows nextBlockRow = none ∧ ∀ blockRow, nextBlockRow ≤ blockRow → map.rowIsDirty blockRow = false) ∨
    ∃ rows first last, map.nextDirtyRows nextBlockRow = some (rows, last + 1) ∧ map.Bands rows first last ∧
      nextBlockRow ≤ first ∧ ∀ blockRow, nextBlockRow ≤ blockRow → blockRow < first → map.rowIsDirty blockRow = false := by
  obtain ⟨hf, hlimit, hc⟩ := advanceWhile_spec (fun blockRow => !map.rowIsDirty blockRow)
    (map.grid.blocksTall - nextBlockRow) nextBlockRow
  simp only [Bool.not_eq_true'] at hc
  unfold nextDirtyRows
  simp only
  generalize advanceWhile (fun blockRow => !map.rowIsDirty blockRow) _ nextBlockRow = first at hf hlimit hc ⊢
  split_ifs with ht
  · refine .inl ⟨rfl, fun blockRow hf => ?_⟩
    by_contra hd
    have hlt := rowIsDirty_lt (Bool.not_eq_false _ |>.mp hd)
    exact hd (hc blockRow hf (by omega))
  · obtain ⟨hn, hlast, -⟩ := advanceWhile_spec map.rowIsDirty (map.grid.blocksTall - (first + 1)) (first + 1)
    generalize advanceWhile map.rowIsDirty _ (first + 1) = reached at hn hlast ⊢
    obtain ⟨last, rfl⟩ := Nat.exists_eq_add_of_le' (Nat.le_trans (Nat.le_add_left 1 first) hn)
    rw [blockRowPixels, blockRowPixels, if_neg ht, if_neg (by omega)]
    exact .inr ⟨_, first, last, rfl, ⟨by omega, by omega, rfl, rfl⟩, hf, hc⟩

theorem mem_dirtyBlockRowsFrom
    (h : rows ∈ map.dirtyBlockRowsFrom fuel nextBlockRow) : ∃ first last, map.Bands rows first last := by
  induction fuel generalizing nextBlockRow with
  | zero => exact absurd h not_mem_nil
  | succ fuel ih =>
    rw [dirtyBlockRowsFrom] at h
    rcases map.nextDirtyRows_cases nextBlockRow with ⟨hn, -⟩ | ⟨_, first, last, hn, hb, -⟩
    · simp [hn] at h
    · rw [hn] at h
      rcases mem_cons.mp h with rfl | h
      · exact ⟨first, last, hb⟩
      · exact ih h

theorem dirtyBlockRowsFrom_covers (fuel nextBlockRow : Nat)
    (hfuel : map.grid.blocksTall - nextBlockRow < fuel) (hf : nextBlockRow ≤ blockRow)
    (hd : map.rowIsDirty blockRow = true) :
    ∃ rows ∈ map.dirtyBlockRowsFrom fuel nextBlockRow, ∃ first last, map.Bands rows first last ∧
      first ≤ blockRow ∧ blockRow ≤ last := by
  induction fuel generalizing nextBlockRow with
  | zero => omega
  | succ fuel ih =>
    rw [dirtyBlockRowsFrom]
    rcases map.nextDirtyRows_cases nextBlockRow with ⟨-, hc⟩ | ⟨rows, first, last, hn, hb, _, hc⟩
    · exact absurd hd (by simp [hc blockRow hf])
    · rw [hn]
      have hl : first ≤ blockRow := by
        by_contra hlt
        exact absurd hd (by simp [hc blockRow hf (by omega)])
      by_cases hlast : blockRow ≤ last
      · exact ⟨rows, mem_cons_self, first, last, hb, hl, hlast⟩
      · have hord := hb.ordered
        have hin := hb.inside
        obtain ⟨later, hmem, hlat⟩ := ih (last + 1) (by omega) (by omega)
        exact ⟨later, mem_cons_of_mem _ hmem, hlat⟩

end DamageMap

/-! ### Contents -/

namespace BgraFrame

def blockRowSegment (frame : BgraFrame) (pixelRow : Nat) (bounds : BlockBounds) : List UInt8 :=
  let start := pixelRow * frame.stride + bounds.x * bgraBytesPerPixel
  slice frame.pixels start (start + bounds.width * bgraBytesPerPixel)

/-- The pixels of a block, which are what a kernel hashes. -/
def blockContent (frame : BgraFrame) (bounds : BlockBounds) : List (List UInt8) :=
  (List.range bounds.height).map fun rowOffset => frame.blockRowSegment (bounds.y + rowOffset) bounds

end BgraFrame

theorem getElem?_slice {start length pos : Nat} :
    (slice xs start (start + length))[pos]? = if pos < length then xs[start + pos]? else none := by
  rw [slice, Nat.add_sub_cancel_left, getElem?_take, getElem?_drop]

variable {grid : BlockGrid} {blockRow blockX : Nat}

theorem BlockGrid.blockBounds_of_lt (hx : blockX < grid.blocksWide) :
    grid.blockBounds (blockRow * grid.blocksWide + blockX) =
      ⟨blockX * blockSize, blockRow * blockSize, min blockSize (grid.width - blockX * blockSize),
        min blockSize (grid.height - blockRow * blockSize)⟩ := by
  have hcolu : (blockRow * grid.blocksWide + blockX) % grid.blocksWide = blockX := by
    rw [Nat.mul_comm, Nat.mul_add_mod, Nat.mod_eq_of_lt hx]
  have hr : (blockRow * grid.blocksWide + blockX) / grid.blocksWide = blockRow := by
    rw [Nat.mul_comm, Nat.mul_add_div (Nat.zero_lt_of_lt hx), Nat.div_eq_of_lt hx, Nat.add_zero]
  rw [blockBounds, hcolu, hr]

/-- Pictures whose blocks agree in a band have the same pixels in its rows. -/
theorem activeRow_eq_of_blocks {first second : BgraFrame} (hfst : first.grid = grid)
    (hsnd : second.grid = grid) (hr : row < grid.height)
    (hbloc : ∀ blockX < grid.blocksWide,
      first.blockContent (grid.blockBounds (row / blockSize * grid.blocksWide + blockX)) =
        second.blockContent (grid.blockBounds (row / blockSize * grid.blocksWide + blockX))) :
    first.activeRow row = second.activeRow row := by
  rw [BgraFrame.activeRow, BgraFrame.activeRow, hfst, hsnd, if_neg (Nat.not_le.mpr hr), if_neg (Nat.not_le.mpr hr)]
  refine congrArg some (ext_getElem? fun position => ?_)
  rw [getElem?_slice, getElem?_slice]
  split_ifs with hpos
  · -- the byte stands in the segment of one block of the band
    have hw : position < grid.width * 4 := hpos
    have hx : position / 64 < grid.blocksWide := by
      unfold blocksWide blockSize
      omega
    have hcont := hbloc (position / 64) hx
    rw [blockBounds_of_lt hx] at hcont
    have hoff : row % 16 < min 16 (grid.height - row / 16 * 16) := by omega
    have hsegm := congrArg (fun content : List (List UInt8) => content[row % 16]?) hcont
    simp only [BgraFrame.blockContent, blockSize, getElem?_map, getElem?_range hoff, Option.map_some,
      Option.some_inj, BgraFrame.blockRowSegment, Nat.div_add_mod' row 16] at hsegm
    have hbyte := congrArg (fun segment : List UInt8 => segment[position - position / 64 * 64]?) hsegm
    have hin : position - position / 64 * 64 < min 16 (grid.width - position / 64 * 16) * bgraBytesPerPixel := by
      unfold bgraBytesPerPixel
      omega
    simp only [getElem?_slice, if_pos hin] at hbyte
    have hplace (start : Nat) :
        start + position / 64 * 16 * bgraBytesPerPixel + (position - position / 64 * 64) = start + position := by
      unfold bgraBytesPerPixel
      omega
    rw [hplace, hplace] at hbyte
    exact hbyte
  · rfl

/-- The hashes tell the contents of the blocks of these pictures apart. -/
def CollisionFree (kernel : HashKernel) (grid : BlockGrid) (pictures : List BgraFrame) : Prop :=
  ∀ first ∈ pictures, ∀ second ∈ pictures, first.grid = grid → second.grid = grid → ∀ index < grid.blockCount,
    first.blockContent (grid.blockBounds index) ≠ second.blockContent (grid.blockBounds index) →
      kernel first (grid.blockBounds index) ≠ kernel second (grid.blockBounds index)

theorem rowIsDirty_eq_false
    (h : rowIsDirty grid bits blockRow = false) (hr : blockRow < grid.blocksTall) (hx : blockX < grid.blocksWide) :
    bits.getD (blockRow * grid.blocksWide + blockX) false = false := by
  rw [rowIsDirty, decide_eq_true hr, Bool.true_and, any_eq_false] at h
  by_contra hbit
  rw [Bool.not_eq_false, getD_eq_getElem?_getD] at hbit
  cases hget : bits[blockRow * grid.blocksWide + blockX]? with
  | none => simp [hget] at hbit
  | some =>
    rw [hget] at hbit
    subst hbit
    refine h true ?_ rfl
    rw [mem_iff_getElem?]
    exact ⟨blockX, by rw [getElem?_take, if_pos hx, getElem?_drop, hget]⟩

namespace DamageTracker

def damageMap (tracker : DamageTracker) : DamageMap := ⟨tracker.grid, tracker.dirtyBits⟩

structure Holds (tracker : DamageTracker) (picture : BgraFrame) : Prop where
  baseline : tracker.hasBaseline = true
  hashes : tracker.previousHashes = blockHashes tracker.kernel tracker.grid picture

variable {tracker : DamageTracker} {pic frame : BgraFrame}

theorem Holds.hash_eq (h : tracker.Holds pic)
    (hidx : index < tracker.grid.blockCount) (hc : (tracker.dirtyBlocks frame).getD index false = false) :
    tracker.kernel pic (tracker.grid.blockBounds index) = tracker.kernel frame (tracker.grid.blockBounds index) := by
  have hbit : (tracker.dirtyBlocks frame)[index]? = some (tracker.kernel pic (tracker.grid.blockBounds index) !=
        tracker.kernel frame (tracker.grid.blockBounds index)) := by
    rw [dirtyBlocks, h.baseline, h.hashes, getElem?_zipWith, blockHashes, blockHashes, getElem?_map,
      getElem?_map, getElem?_range hidx]
    rfl
  rw [getD_eq_getElem?_getD, hbit, Option.getD_some, bne_eq_false_iff_eq] at hc
  exact hc

variable {pictures : List BgraFrame} {next : DamageTracker} {summary : DamageSummary}

section

variable (h : tracker.Holds pic) (hfree : CollisionFree tracker.kernel tracker.grid pictures)
  (hpict : pic ∈ pictures) (hfr : frame ∈ pictures) (hg : pic.grid = tracker.grid)
  (hs : frame.grid = tracker.grid)
include h hfree hpict hfr hg hs

/-- The rows of a band that is not dirty are those of the picture before. -/
theorem Holds.activeRow_eq (hr : row < tracker.grid.height)
    (hc : rowIsDirty tracker.grid (tracker.dirtyBlocks frame) (row / blockSize) = false) :
    pic.activeRow row = frame.activeRow row := by
  have ht := div_lt_blocksTall hr
  refine activeRow_eq_of_blocks hg hs hr fun blockX hx => ?_
  have hidx : row / blockSize * tracker.grid.blocksWide + blockX < tracker.grid.blockCount :=
    blockIndex_lt (blockIndex_eq_some.mpr ⟨hx, ht, rfl⟩)
  have hhash := h.hash_eq hidx (rowIsDirty_eq_false hc ht hx)
  by_contra hcont
  exact hfree pic hpict frame hfr hg hs _ hidx hcont hhash

theorem Holds.cell_eq (hr : rowPair * 2 + 1 < tracker.grid.height)
    (hc : rowIsDirty tracker.grid (tracker.dirtyBlocks frame) (rowPair * 2 / blockSize) = false) (pair : Nat) :
    pic.cell transform rowPair pair = frame.cell transform rowPair pair := by
  have hband : (rowPair * 2 + 1) / blockSize = rowPair * 2 / blockSize := by
    unfold blockSize
    omega
  have htop := h.activeRow_eq hfree hpict hfr hg hs (by omega) hc
  have hbott := h.activeRow_eq hfree hpict hfr hg hs hr (by rwa [hband])
  rw [BgraFrame.cell, BgraFrame.cell, htop, hbott]
end

/-- What an update with a picture of the geometry does. -/
theorem update_of_grid (hg : frame.grid = tracker.grid) :
    ∃ next summary, tracker.update frame = (next, .ok summary) ∧ tracker.Accepts frame next summary ∧
      next.dirtyBits = tracker.dirtyBlocks frame := by
  exact ⟨_, _, if_neg (not_not.mpr hg), ⟨rfl, rfl, rfl, rfl, rfl⟩, rfl⟩

theorem Accepts.holds (h : tracker.Accepts frame next summary) : next.Holds frame :=
  ⟨h.baseline, by rw [h.hashes, h.grid, h.kernel]⟩

theorem Accepts.rowIsDirty_eq_false
    (h : tracker.Accepts frame next summary) (hc : summary.isClean = true) (blockRow : Nat) :
    rowIsDirty tracker.grid (tracker.dirtyBlocks frame) blockRow = false := by
  rw [DamageSummary.isClean, beq_iff_eq, h.dirty, countP_eq_zero] at hc
  rw [rowIsDirty, Bool.and_eq_false_iff]
  refine .inr (any_eq_false.mpr fun bit hbit => ?_)
  exact hc bit (mem_of_mem_drop (mem_of_mem_take hbit))

end DamageTracker
end Arcen
