import Mathlib.Tactic

/-! Rasters: rows of one width, stored one after the other. -/

namespace Arcen

/-- A plane of `height` rows of `width` samples. -/
abbrev Raster (α : Type) (width height : Nat) := Vector α (width * height)

namespace Raster

variable {α : Type} {width height row otherRow x otherX : Nat}

theorem position_inj (hx : x < width) (hoth : otherX < width) (h : row * width + x = otherRow * width + otherX)
    : row = otherRow ∧ x = otherX := by
  have hw : 0 < width := Nat.zero_lt_of_lt hx
  rw [Nat.mul_comm row, Nat.mul_comm otherRow] at h
  constructor
  · have hr := congrArg (· / width) h
    simpa only [Nat.mul_add_div hw, Nat.div_eq_of_lt hx, Nat.div_eq_of_lt hoth, Nat.add_zero] using hr
  · have hcolu := congrArg (· % width) h
    simpa only [Nat.mul_add_mod, Nat.mod_eq_of_lt hx, Nat.mod_eq_of_lt hoth] using hcolu

theorem position_lt (hx : x < width) (hr : row < height) : row * width + x < width * height := by
  calc
    row * width + x < row * width + width := Nat.add_lt_add_left hx _
    _ = (row + 1) * width := (Nat.succ_mul _ _).symm
    _ ≤ height * width := Nat.mul_le_mul_right _ hr
    _ = width * height := Nat.mul_comm _ _

variable (plane : Raster α width height)

/-- The sample at a row and a column of it, if the plane reaches that far. -/
def sample (row x : Nat) : Option α := plane[row * width + x]?

def write (row x : Nat) (value : α) : Raster α width height := plane.setIfInBounds (row * width + x) value

theorem sample_write {plane : Raster α width height} (hx : x < width) (hr : row < height) (hoth : otherX < width) :
    (plane.write row x value).sample otherRow otherX =
      if otherRow = row ∧ otherX = x then some value else plane.sample otherRow otherX := by
  split_ifs with h
  · obtain ⟨rfl, rfl⟩ := h
    exact Vector.getElem?_setIfInBounds_self_of_lt (position_lt hx hr)
  · refine Vector.getElem?_setIfInBounds_ne fun heq => h ?_
    obtain ⟨hsameRow, hsameColumn⟩ := position_inj hx hoth heq
    exact ⟨hsameRow.symm, hsameColumn.symm⟩

/-- Planes with the same samples are the same. -/
theorem ext_sample {first second : Raster α width height}
    (h : ∀ row x, row < height → x < width → first.sample row x = second.sample row x) : first = second := by
  refine Vector.ext fun pos hpos => ?_
  have hw : 0 < width := Nat.pos_of_mul_pos_right (Nat.zero_lt_of_lt hpos)
  have hsame := h (pos / width) (pos % width) (Nat.div_lt_of_lt_mul hpos) (Nat.mod_lt _ hw)
  rw [sample, sample, Nat.div_add_mod', Vector.getElem?_eq_getElem hpos, Vector.getElem?_eq_getElem hpos] at hsame
  exact Option.some_inj.mp hsame

end Raster
end Arcen
