import Arcen.Bytes

/-! Cutting a buffer into consecutive pieces of at most a given size. `cutLoop` is the loop that frames
piece after piece and stops at the first error; `pieceStarts` lists the offsets it visits. What is to be
shown of such a loop is shown at the end of the buffer and carried back over one piece. -/

namespace Arcen

variable {ε φ : Type}

def pieceEnd (size len offset : Nat) : Nat := min (offset + size) len

variable {size len offset : Nat}

theorem pieceEnd_range (hsize : 0 < size) (h : offset < len) :
    offset < pieceEnd size len offset ∧ pieceEnd size len offset ≤ len ∧ pieceEnd size len offset - offset ≤ size := by
  simp only [pieceEnd]
  omega

theorem lt_pieceEnd (hsize : 0 < size) (h : pieceEnd size len offset < len) : offset < pieceEnd size len offset := by
  simp only [pieceEnd] at h ⊢
  omega

/-- **Piece induction.** -/
@[elab_as_elim]
theorem piece_induction (hsize : 0 < size) {P : ∀ offset, offset ≤ len → Prop} (finish : P len le_rfl)
    (piece : ∀ offset (h : offset < len), P (pieceEnd size len offset) (pieceEnd_range hsize h).2.1 → P offset h.le)
    (offset : Nat) (h : offset ≤ len) : P offset h := by
  rcases Nat.eq_or_lt_of_le h with rfl | hlt
  · exact finish
  · have hrng := pieceEnd_range hsize hlt
    exact piece offset hlt (piece_induction hsize finish piece (pieceEnd size len offset) hrng.2.1)
termination_by len - offset

def pieceStarts (size : Nat) (hsize : 0 < size) (len offset : Nat) : List Nat :=
  if _h : offset < len then offset :: pieceStarts size hsize len (pieceEnd size len offset) else []
termination_by len - offset
decreasing_by
  have hrng := pieceEnd_range hsize _h
  omega

/-- Frames the pieces from an offset on; at least one piece is framed. -/
def cutLoop (size : Nat) (hsize : 0 < size) (len : Nat) (frame : Nat → Except ε φ) (offset : Nat) :
    Except ε (List φ) :=
  match frame offset with
  | .error error => .error error
  | .ok piece =>
    if _h : len ≤ pieceEnd size len offset then .ok [piece]
    else
      match cutLoop size hsize len frame (pieceEnd size len offset) with
      | .error error => .error error
      | .ok pieces => .ok (piece :: pieces)
termination_by len - offset
decreasing_by
  have hlt := lt_pieceEnd hsize (Nat.lt_of_not_le _h)
  omega

section

variable {size len offset : Nat} {hsize : 0 < size}

theorem pieceStarts_of_lt (h : offset < len) :
    pieceStarts size hsize len offset = offset :: pieceStarts size hsize len (pieceEnd size len offset) := by
  rw [pieceStarts, dif_pos h]

@[simp] theorem pieceStarts_end : pieceStarts size hsize len len = [] := by
  rw [pieceStarts, dif_neg (lt_irrefl _)]

theorem lt_of_mem_pieceStarts (h : offset ≤ len) (hstart : start ∈ pieceStarts size hsize len offset) :
    start < len := by
  induction offset, h using piece_induction hsize with
  | finish =>
    rw [pieceStarts_end] at hstart
    cases hstart
  | piece offset hlt ih =>
    rw [pieceStarts_of_lt hlt, List.mem_cons] at hstart
    rcases hstart with rfl | hrest
    · exact hlt
    · exact ih hrest

theorem cutLoop_eq_ok {frame : Nat → Except ε φ} {framed : Nat → φ}
    (hfr : ∀ offset, offset < len → frame offset = .ok (framed offset)) (h : offset < len) :
    cutLoop size hsize len frame offset = .ok ((pieceStarts size hsize len offset).map framed) := by
  have hle := h.le
  induction offset, hle using piece_induction hsize with
  | finish => exact absurd h (lt_irrefl _)
  | piece offset hlt ih =>
    rw [cutLoop, hfr offset hlt, pieceStarts_of_lt hlt, List.map_cons]
    dsimp only
    by_cases hlast : len ≤ pieceEnd size len offset
    · have hend : pieceEnd size len offset = len := le_antisymm (pieceEnd_range hsize hlt).2.1 hlast
      rw [dif_pos hlast, hend, pieceStarts_end, List.map_nil]
    · rw [dif_neg hlast, ih (Nat.lt_of_not_le hlast)]

end
end Arcen
