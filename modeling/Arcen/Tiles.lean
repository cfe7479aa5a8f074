import Arcen.Bytes
import Arcen.Checked

/-! Byte strings tiled by blocks that start with their own length, and the loop that walks them. A walk that
ends well has tiled what it walked, and any walk over tiles is a fold over them. -/

namespace Arcen

open List

/-- A block of at least two bytes whose first byte is its length. -/
def IsTile (tile : List UInt8) : Prop := 2 ≤ tile.length ∧ (byteAt tile 0).toNat = tile.length

def Tiled (bytes : List UInt8) (tiles : List (List UInt8)) : Prop :=
  tiles.flatten = bytes ∧ ∀ tile ∈ tiles, IsTile tile

theorem IsTile.lead {tile : List UInt8} (h : IsTile tile) : ∃ lead bytes, tile = lead :: bytes ∧ lead.toNat = tile.length := by
  obtain ⟨hlong, hlen⟩ := h
  cases tile with
  | nil => exact absurd hlong (by decide)
  | cons lead bytes => exact ⟨lead, bytes, rfl, hlen⟩

section Walk

variable {σ ε : Type} {slack : Nat} {missing : Checked ε σ} {invalid : Nat → Nat → ε}
  {visit : σ → Nat → List UInt8 → Checked ε σ}

/-- The loop from an offset on, where `rest` are the bytes from there: it ends `slack` bytes before the total. The
visitor sees the bytes from the start of the block. -/
def walkTiles (slack : Nat) (missing : Checked ε σ) (invalid : Nat → Nat → ε)
    (visit : σ → Nat → List UInt8 → Checked ε σ) (total offset : Nat) (rest : List UInt8) (state : σ) : Checked ε σ :=
  if offset + slack < total then
    match rest with
    | [] => missing
    | lead :: bytes =>
      if lead.toNat < 2 ∨ total < offset + lead.toNat then .error (invalid offset lead.toNat)
      else visit state offset (lead :: bytes) >>= fun next =>
        walkTiles slack missing invalid visit total (offset + lead.toNat) ((lead :: bytes).drop lead.toNat) next
  else .ok state
termination_by total - offset
decreasing_by omega

/-- The same visits, one for each tile; `after` are the bytes behind the last. -/
def foldTiles (visit : σ → Nat → List UInt8 → Checked ε σ) (after : List UInt8) :
    Nat → List (List UInt8) → σ → Checked ε σ
  | _, [], state => .ok state
  | offset, tile :: tiles, state =>
    visit state offset (tile ++ (tiles.flatten ++ after)) >>= foldTiles visit after (offset + tile.length) tiles

variable {total offset : Nat}

theorem walkTiles_done (h : total ≤ offset + slack) (rest : List UInt8) (state : σ) :
    walkTiles slack missing invalid visit total offset rest state = .ok state := by
  rw [walkTiles.eq_def, if_neg (by omega)]

theorem walkTiles_cons (h : offset + slack < total) (lead : UInt8) (bytes : List UInt8) (state : σ) :
    walkTiles slack missing invalid visit total offset (lead :: bytes) state =
      if lead.toNat < 2 ∨ total < offset + lead.toNat then .error (invalid offset lead.toNat)
      else visit state offset (lead :: bytes) >>= fun next =>
        walkTiles slack missing invalid visit total (offset + lead.toNat) ((lead :: bytes).drop lead.toNat) next := by
  rw [walkTiles, if_pos h]

/-- **A walk over tiles visits each of them.** -/
theorem walkTiles_eq_foldTiles (missing : Checked ε σ) (invalid : Nat → Nat → ε)
    (visit : σ → Nat → List UInt8 → Checked ε σ) (hslack : slack ≤ 1) (after : List UInt8) (tiles : List (List UInt8))
    (htl : ∀ tile ∈ tiles, IsTile tile) (offset : Nat) (state : σ) :
    walkTiles slack missing invalid visit (offset + tiles.flatten.length) offset (tiles.flatten ++ after) state =
      foldTiles visit after offset tiles state := by
  induction tiles generalizing offset state with
  | nil => rw [walkTiles_done (by simp), foldTiles]
  | cons tile tiles ih =>
    have ht := htl tile mem_cons_self
    obtain ⟨lead, bytes, hby, hlead⟩ := ht.lead
    have htotal : offset + (tile :: tiles).flatten.length = offset + tile.length + tiles.flatten.length := by
      rw [flatten_cons, length_append]
      omega
    have hlong := ht.1
    rw [flatten_cons, append_assoc, ← flatten_cons, htotal]
    have hcons : tile ++ (tiles.flatten ++ after) = lead :: (bytes ++ (tiles.flatten ++ after)) := by
      rw [hby, cons_append]
    rw [hcons, walkTiles_cons (by omega), if_neg (by omega), ← hcons, hlead, drop_left]
    congr 1
    funext next
    exact ih (fun other hoth => htl other (mem_cons_of_mem _ hoth)) _ _

theorem foldTiles_append (after : List UInt8) (front back : List (List UInt8)) (offset : Nat) (state : σ) :
    foldTiles visit after offset (front ++ back) state =
      foldTiles visit (back.flatten ++ after) offset front state >>=
        foldTiles visit after (offset + front.flatten.length) back := by
  induction front generalizing offset state with
  | nil => rfl
  | cons tile tiles ih =>
    rw [cons_append, foldTiles, foldTiles, flatten_append, append_assoc, flatten_cons, length_append, ← Nat.add_assoc]
    cases visit state offset (tile ++ (tiles.flatten ++ (back.flatten ++ after))) with
    | ok next => exact ih (offset + tile.length) next
    | error | panicked => rfl

/-- **A walk that ends well has tiled its bytes.** -/
theorem exists_tiles_of_walkTiles (offset : Nat) (rest : List UInt8) (state final : σ) (hle : offset ≤ total)
    (hrest : total ≤ offset + rest.length)
    (hw : walkTiles 0 missing invalid visit total offset rest state = .ok final) :
    ∃ tiles after, rest = tiles.flatten ++ after ∧ (∀ tile ∈ tiles, IsTile tile) ∧
      offset + tiles.flatten.length = total ∧ foldTiles visit after offset tiles state = .ok final := by
  by_cases hmore : offset < total
  · cases rest with
    | nil => exact absurd hrest (by rw [length_nil]; omega)
    | cons lead bytes =>
      rw [walkTiles_cons hmore] at hw
      split_ifs at hw with hfit
      obtain ⟨next, hvisit, hnext⟩ := Checked.bind_eq_ok.mp hw
      -- The rest of the walk tiles what is behind this block.
      obtain ⟨tiles, after, hsplit, htl, _, hfold⟩ := exists_tiles_of_walkTiles
        (offset + lead.toNat) ((lead :: bytes).drop lead.toNat) next final (by omega)
        (by rw [length_drop]; omega) hnext
      have htake : ((lead :: bytes).take lead.toNat).length = lead.toNat := by rw [length_take]; omega
      have hwh : lead :: bytes = (lead :: bytes).take lead.toNat ++ (tiles.flatten ++ after) := by
        rw [← hsplit, take_append_drop]
      refine ⟨(lead :: bytes).take lead.toNat :: tiles, after, ?_, ?_, ?_, ?_⟩
      · rw [flatten_cons, append_assoc, ← hwh]
      · intro tile ht
        rcases mem_cons.mp ht with rfl | hlat
        · refine ⟨by rw [htake]; omega, ?_⟩
          rw [htake]
          obtain ⟨n, hn⟩ : ∃ n, lead.toNat = n + 1 := ⟨lead.toNat - 1, by omega⟩
          rw [hn]
          exact hn
        · exact htl tile hlat
      · rw [flatten_cons, length_append]
        omega
      · rw [foldTiles, htake, ← hwh, hvisit]
        exact hfold
  · rw [walkTiles_done (by omega)] at hw
    refine ⟨[], rest, rfl, fun tile ht => absurd ht not_mem_nil, ?_, hw⟩
    rw [flatten_nil, length_nil]
    omega
termination_by total - offset

/-- **A walk within its bytes panics only where a visit does.** -/
theorem walkTiles_ne_panicked
    (hvisit : ∀ (state : σ) (offset : Nat) (lead : UInt8) (bytes : List UInt8), 2 ≤ lead.toNat →
      lead.toNat ≤ (lead :: bytes).length → visit state offset (lead :: bytes) ≠ .panicked)
    (offset : Nat) (rest : List UInt8) (state : σ) (hrest : total ≤ offset + rest.length) :
    walkTiles slack missing invalid visit total offset rest state ≠ .panicked := by
  by_cases hmore : offset + slack < total
  · cases rest with
    | nil => exact absurd hrest (by rw [length_nil]; omega)
    | cons lead bytes =>
      rw [walkTiles_cons hmore]
      split_ifs with hfit
      · exact nofun
      · refine Checked.bind_ne_panicked (hvisit state offset lead bytes (by omega) (by omega)) ?_
        intro next _
        exact walkTiles_ne_panicked hvisit _ _ _ (by rw [length_drop]; omega)
  · rw [walkTiles_done (by omega)]
    exact nofun
termination_by total - offset

end Walk

end Arcen
