import Arcen.Bytes
import Arcen.KeelActivity
import Arcen.Raster

/-! Conversion of BGRA pictures into retained I420 planes (`shared/media/src/video/convert.rs`): pairs of rows are
read two pixels at a time, every pixel has its luma sample and every 2x2 cell one sample of each chroma plane. The
planes are looked at cell by cell, which is how the conversion writes them. -/

namespace Arcen

open Raster List

/-! ### Colour -/

def coeffShift : Nat := 16

/-- Coefficients in `COEFF_SHIFT` fixed point. -/
structure Coefficients where
  r : Int
  g : Int
  b : Int

/-- The coefficients and code ranges of one coded format, as the negotiated matrix and range set them. -/
structure ColorTransform where
  isIdentity : Bool
  lumaCoefficients : Coefficients
  cbCoefficients : Coefficients
  crCoefficients : Coefficients
  lumaOffset : Int
  chromaCenter : Int
  maxCode : Int
  identityScale : Int
  identityOffset : Int

namespace ColorTransform

variable (transform : ColorTransform)

def clamp (value : Int) : Int :=
  if value < 0 then 0 else if transform.maxCode < value then transform.maxCode else value

def apply (coefficients : Coefficients) (offset b g r : Int) : Int :=
  let sum := coefficients.r * r + coefficients.g * g + coefficients.b * b
  transform.clamp (offset + (sum + 2 ^ (coeffShift - 1)) / 2 ^ coeffShift)

def scaleIdentity (component : Int) : Int := transform.clamp
    (transform.identityOffset + (transform.identityScale * component + 2 ^ (coeffShift - 1)) / 2 ^ coeffShift)

def luma (b g r : UInt8) : Int :=
  if transform.isIdentity then transform.scaleIdentity g.toNat
  else transform.apply transform.lumaCoefficients transform.lumaOffset b.toNat g.toNat r.toNat

def cb (b g r : UInt8) : Int :=
  if transform.isIdentity then transform.scaleIdentity b.toNat
  else transform.apply transform.cbCoefficients transform.chromaCenter b.toNat g.toNat r.toNat

def cr (b g r : UInt8) : Int :=
  if transform.isIdentity then transform.scaleIdentity r.toNat
  else transform.apply transform.crCoefficients transform.chromaCenter b.toNat g.toNat r.toNat

end ColorTransform

def asU8 (value : Int) : UInt8 := UInt8.ofNat (min (max value 0) 255).toNat

def mean (a b c d : UInt8) : UInt8 := asU8 (((a.toNat + b.toNat + c.toNat + d.toNat : Nat) : Int) / 4)

/-! ### Planes -/

/-- The geometry of a session: 4:2:0 planes need even dimensions. -/
structure SessionGeometry where
  width : Nat
  height : Nat
  nonempty : 0 < width ∧ 0 < height
  even : width % 2 = 0 ∧ height % 2 = 0

def SessionGeometry.grid (geometry : SessionGeometry) : BlockGrid := ⟨geometry.width, geometry.height, geometry.nonempty⟩

structure CellSamples where
  topLeft : UInt8
  topRight : UInt8
  bottomLeft : UInt8
  bottomRight : UInt8
  cb : UInt8
  cr : UInt8

structure I420Planes (geometry : SessionGeometry) where
  y : Raster UInt8 geometry.width geometry.height
  u : Raster UInt8 (geometry.width / 2) (geometry.height / 2)
  v : Raster UInt8 (geometry.width / 2) (geometry.height / 2)

namespace I420Planes

variable {geometry : SessionGeometry} {planes : I420Planes geometry} {rowPair pair otherRow other : Nat}
  {samples : CellSamples}

def writeCell (planes : I420Planes geometry) (rowPair pair : Nat) (samples : CellSamples) : I420Planes geometry :=
  let top := rowPair * 2
  let x := pair * 2
  { y := planes.y
      |>.write top x samples.topLeft
      |>.write top (x + 1) samples.topRight
      |>.write (top + 1) x samples.bottomLeft
      |>.write (top + 1) (x + 1) samples.bottomRight
    u := planes.u.write rowPair pair samples.cb
    v := planes.v.write rowPair pair samples.cr }

structure HasCell (planes : I420Planes geometry) (rowPair pair : Nat) (samples : CellSamples) : Prop where
  topLeft : planes.y.sample (rowPair * 2) (pair * 2) = some samples.topLeft
  topRight : planes.y.sample (rowPair * 2) (pair * 2 + 1) = some samples.topRight
  bottomLeft : planes.y.sample (rowPair * 2 + 1) (pair * 2) = some samples.bottomLeft
  bottomRight : planes.y.sample (rowPair * 2 + 1) (pair * 2 + 1) = some samples.bottomRight
  cb : planes.u.sample rowPair pair = some samples.cb
  cr : planes.v.sample rowPair pair = some samples.cr

section

variable (hr : rowPair < geometry.height / 2) (hp : pair < geometry.width / 2)
include hr hp

theorem writeCell_luma (hx : x < geometry.width) : (planes.writeCell rowPair pair samples).y.sample row x =
      if row = rowPair * 2 + 1 ∧ x = pair * 2 + 1 then some samples.bottomRight
      else if row = rowPair * 2 + 1 ∧ x = pair * 2 then some samples.bottomLeft
      else if row = rowPair * 2 ∧ x = pair * 2 + 1 then some samples.topRight
      else if row = rowPair * 2 ∧ x = pair * 2 then some samples.topLeft
      else planes.y.sample row x := by
  have hleft : pair * 2 < geometry.width := by omega
  have hrt : pair * 2 + 1 < geometry.width := by omega
  have htop : rowPair * 2 < geometry.height := by omega
  have hbott : rowPair * 2 + 1 < geometry.height := by omega
  unfold writeCell
  rw [sample_write hrt hbott hx, sample_write hleft hbott hx, sample_write hrt htop hx, sample_write hleft htop hx]

theorem hasCell_writeCell : (planes.writeCell rowPair pair samples).HasCell rowPair pair samples := by
  have hleft : pair * 2 < geometry.width := by omega
  have hrt : pair * 2 + 1 < geometry.width := by omega
  constructor
  · rw [writeCell_luma hr hp hleft]
    simp
  · rw [writeCell_luma hr hp hrt]
    simp
  · rw [writeCell_luma hr hp hleft]
    simp
  · rw [writeCell_luma hr hp hrt]
    simp
  · exact (sample_write hp hr hp).trans (if_pos ⟨rfl, rfl⟩)
  · exact (sample_write hp hr hp).trans (if_pos ⟨rfl, rfl⟩)
end

theorem HasCell.writeCell (h : planes.HasCell otherRow other samples) (hr : rowPair < geometry.height / 2)
    (hp : pair < geometry.width / 2) (ho : other < geometry.width / 2) (hne : ¬(otherRow = rowPair ∧ other = pair)) :
    (planes.writeCell rowPair pair written).HasCell otherRow other samples := by
  have hl (row x : Nat) (hc : row / 2 = otherRow ∧ x / 2 = other) :
      (planes.writeCell rowPair pair written).y.sample row x = planes.y.sample row x := by
    rw [writeCell_luma hr hp (by omega), if_neg (by omega), if_neg (by omega), if_neg (by omega), if_neg (by omega)]
  have hchro (plane : Raster UInt8 (geometry.width / 2) (geometry.height / 2)) (value : UInt8) :
      (plane.write rowPair pair value).sample otherRow other = plane.sample otherRow other :=
    (sample_write hp hr ho).trans (if_neg hne)
  exact
    { topLeft := (hl _ _ (by omega)).trans h.topLeft
      topRight := (hl _ _ (by omega)).trans h.topRight
      bottomLeft := (hl _ _ (by omega)).trans h.bottomLeft
      bottomRight := (hl _ _ (by omega)).trans h.bottomRight
      cb := (hchro ..).trans h.cb
      cr := (hchro ..).trans h.cr }

def HasCells (planes : I420Planes geometry) (samples : Nat → Nat → CellSamples) : Prop :=
  ∀ rowPair pair, rowPair < geometry.height / 2 → pair < geometry.width / 2 →
    planes.HasCell rowPair pair (samples rowPair pair)

theorem HasCells.unique {first second : I420Planes geometry} {samples : Nat → Nat → CellSamples}
    (hf : first.HasCells samples) (hs : second.HasCells samples) : first = second := by
  obtain ⟨_, _⟩ := geometry.even
  have hl : first.y = second.y := by
    refine ext_sample fun row x hr hx => ?_
    have hc := hf (row / 2) (x / 2) (by omega) (by omega)
    have ho := hs (row / 2) (x / 2) (by omega) (by omega)
    rcases Nat.mod_two_eq_zero_or_one row with htop | hbott <;> rcases Nat.mod_two_eq_zero_or_one x with hleft | hrt
    · rw [show row = row / 2 * 2 by omega, show x = x / 2 * 2 by omega, hc.topLeft, ho.topLeft]
    · rw [show row = row / 2 * 2 by omega, show x = x / 2 * 2 + 1 by omega, hc.topRight, ho.topRight]
    · rw [show row = row / 2 * 2 + 1 by omega, show x = x / 2 * 2 by omega, hc.bottomLeft, ho.bottomLeft]
    · rw [show row = row / 2 * 2 + 1 by omega, show x = x / 2 * 2 + 1 by omega, hc.bottomRight, ho.bottomRight]
  have hcb : first.u = second.u := ext_sample fun row x hr hx => (hf row x hr hx).cb.trans (hs row x hr hx).cb.symm
  have hcr : first.v = second.v := ext_sample fun row x hr hx => (hf row x hr hx).cr.trans (hs row x hr hx).cr.symm
  cases first
  cases second
  simp only at hl hcb hcr
  rw [hl, hcb, hcr]

end I420Planes

/-! ### Rows -/

/-- The pixels of a row without its padding. -/
def BgraFrame.activeRow (frame : BgraFrame) (row : Nat) : Option (List UInt8) :=
  if frame.grid.height ≤ row then none
  else
    let start := row * frame.stride
    some (slice frame.pixels start (start + frame.grid.width * bgraBytesPerPixel))

theorem BgraFrame.activeRow_of_lt (frame : BgraFrame) (h : row < frame.grid.height) :
    ∃ pixels, frame.activeRow row = some pixels ∧ pixels.length = frame.grid.width * bgraBytesPerPixel := by
  refine ⟨_, if_neg (Nat.not_le.mpr h), ?_⟩
  have hend : row * frame.stride + frame.grid.width * bgraBytesPerPixel ≤ frame.pixels.length := by
    calc
      row * frame.stride + frame.grid.width * bgraBytesPerPixel ≤ row * frame.stride + frame.stride :=
        Nat.add_le_add_left frame.strided _
      _ = frame.stride * (row + 1) := by rw [Nat.mul_comm frame.stride, Nat.succ_mul]
      _ ≤ frame.stride * frame.grid.height := Nat.mul_le_mul_left _ h
      _ ≤ frame.pixels.length := frame.filled
  rw [length_slice hend, Nat.add_sub_cancel_left]

inductive ConversionError where
  | geometryMismatch
  | invalidRowRange

/-- The pixel rows from `start` up to `stop`, the end excluded. -/
structure RowRange where
  start : Nat
  stop : Nat

def validateRows (source : BgraFrame) (width height : Nat) (rows : RowRange) : Except ConversionError Unit :=
  if source.grid.width ≠ width ∨ source.grid.height ≠ height then .error .geometryMismatch
  else if rows.stop < rows.start ∨ height < rows.stop ∨ rows.start % 2 ≠ 0 ∨ rows.stop % 2 ≠ 0 then
    .error .invalidRowRange
  else .ok ()

/-- The samples of the cell at two chunks of eight bytes, one of each row. -/
def cellSamples (transform : ColorTransform) (s0 s1 : List UInt8) (pair : Nat) : CellSamples :=
  let p0 (component : Nat) := byteAt s0 (pair * 8 + component)
  let p1 (component : Nat) := byteAt s1 (pair * 8 + component)
  let b := mean (p0 0) (p0 4) (p1 0) (p1 4)
  let g := mean (p0 1) (p0 5) (p1 1) (p1 5)
  let r := mean (p0 2) (p0 6) (p1 2) (p1 6)
  { topLeft := asU8 (transform.luma (p0 0) (p0 1) (p0 2))
    topRight := asU8 (transform.luma (p0 4) (p0 5) (p0 6))
    bottomLeft := asU8 (transform.luma (p1 0) (p1 1) (p1 2))
    bottomRight := asU8 (transform.luma (p1 4) (p1 5) (p1 6))
    cb := asU8 (transform.cb b g r)
    cr := asU8 (transform.cr b g r) }

section Convert

variable {geometry : SessionGeometry} (transform : ColorTransform)

def convertRowPair (s0 s1 : List UInt8) (rowPair : Nat) (planes : I420Planes geometry) : I420Planes geometry :=
  (List.range (min (s0.length / 8) (s1.length / 8))).foldl
    (fun planes pair => planes.writeCell rowPair pair (cellSamples transform s0 s1 pair)) planes

/-- The loop over row pairs, which a row the source lacks ends. -/
def convertRowPairs (source : BgraFrame) :
    List Nat → I420Planes geometry → I420Planes geometry × Except ConversionError Unit
  | [], planes => (planes, .ok ())
  | rowPair :: rowPairs, planes =>
    match source.activeRow (rowPair * 2), source.activeRow (rowPair * 2 + 1) with
    | some s0, some s1 => convertRowPairs source rowPairs (convertRowPair transform s0 s1 rowPair planes)
    | _, _ => (planes, .error .geometryMismatch)

variable (source : BgraFrame)

variable (destination : I420Planes geometry)

def convertBgraToI420Rows (rows : RowRange) : I420Planes geometry × Except ConversionError Unit :=
  match validateRows source geometry.width geometry.height rows with
  | .error error => (destination, .error error)
  | .ok () =>
    convertRowPairs transform source (range' (rows.start / 2) (rows.stop / 2 - rows.start / 2)) destination

def convertBgraToI420 : I420Planes geometry × Except ConversionError Unit :=
  convertBgraToI420Rows transform source destination ⟨0, geometry.height⟩

def BgraFrame.cell (rowPair pair : Nat) : CellSamples :=
  cellSamples transform ((source.activeRow (rowPair * 2)).getD []) ((source.activeRow (rowPair * 2 + 1)).getD []) pair

end Convert

/-! ### What a conversion leaves -/

section Converted

variable {geometry : SessionGeometry} {transform : ColorTransform} {source : BgraFrame}

/-- A conversion of the row pairs wrote their cells from the source and left the others. -/
structure Converted (transform : ColorTransform) (source : BgraFrame) (rowPairs : Nat → Prop)
    (before after : I420Planes geometry) : Prop where
  written : ∀ rowPair pair, rowPairs rowPair → pair < geometry.width / 2 →
    after.HasCell rowPair pair (source.cell transform rowPair pair)
  kept : ∀ rowPair pair samples, ¬rowPairs rowPair → pair < geometry.width / 2 →
    before.HasCell rowPair pair samples → after.HasCell rowPair pair samples

variable {before after : I420Planes geometry} {first second : Nat → Prop}

/-- Cells of the source that the planes have stay, whatever else is converted from it. -/
theorem Converted.keeps (h : Converted transform source rowPairs before after)
    (hp : pair < geometry.width / 2) (hc : before.HasCell rowPair pair (source.cell transform rowPair pair)) :
    after.HasCell rowPair pair (source.cell transform rowPair pair) := by
  by_cases hr : rowPairs rowPair
  · exact h.written rowPair pair hr hp
  · exact h.kept rowPair pair _ hr hp hc

theorem Converted.none (planes : I420Planes geometry) : Converted transform source (fun _ => False) planes planes :=
  ⟨fun _ _ hfalse => hfalse.elim, fun _ _ _ _ _ h => h⟩

theorem Converted.trans (hf : Converted transform source first before between)
    (hs : Converted transform source second between after) :
    Converted transform source (fun rowPair => first rowPair ∨ second rowPair) before after := by
  constructor
  · rintro rowPair pair (hr | hr) hp
    · exact hs.keeps hp (hf.written rowPair pair hr hp)
    · exact hs.written rowPair pair hr hp
  · intro rowPair pair samples hr hp hc
    obtain ⟨hnotFirst, hnotSecond⟩ := not_or.mp hr
    exact hs.kept rowPair pair samples hnotSecond hp (hf.kept rowPair pair samples hnotFirst hp hc)

theorem Converted.of_iff (h : Converted transform source first before after)
    (hiff : ∀ rowPair, second rowPair ↔ first rowPair) : Converted transform source second before after :=
  ⟨fun rowPair pair hr => h.written rowPair pair ((hiff rowPair).mp hr),
    fun rowPair pair samples hr => h.kept rowPair pair samples fun hf => hr ((hiff rowPair).mpr hf)⟩

section

variable (transform : ColorTransform)

theorem convertRowPair_cells (s0 s1 : List UInt8) (planes : I420Planes geometry)
    (hr : rowPair < geometry.height / 2) (hn : n ≤ geometry.width / 2) :
    let written := (List.range n).foldl
      (fun planes pair => planes.writeCell rowPair pair (cellSamples transform s0 s1 pair)) planes
    (∀ pair, pair < n → written.HasCell rowPair pair (cellSamples transform s0 s1 pair)) ∧
      ∀ otherRow pair samples, otherRow ≠ rowPair → pair < geometry.width / 2 → planes.HasCell otherRow pair samples →
        written.HasCell otherRow pair samples := by
  induction n with
  | zero => exact ⟨fun pair hp => absurd hp (Nat.not_lt_zero _), fun _ _ _ _ _ h => h⟩
  | succ n ih =>
    obtain ⟨hw, hkept⟩ := ih (Nat.le_of_succ_le hn)
    rw [range_succ, foldl_append, foldl_cons]
    constructor
    · intro pair hp
      by_cases heq : pair = n
      · subst heq
        exact I420Planes.hasCell_writeCell hr hn
      · exact (hw pair (by omega)).writeCell hr hn (by omega) fun h => heq h.2
    · intro otherRow pair samples hne hp hc
      exact (hkept otherRow pair samples hne hp hc).writeCell hr hn hp fun h => hne h.1

theorem convertRowPair_converted (planes : I420Planes geometry) (hg : source.grid = geometry.grid)
    (hr : rowPair < geometry.height / 2) (hs0 : source.activeRow (rowPair * 2) = some s0)
    (hs1 : source.activeRow (rowPair * 2 + 1) = some s1) :
    Converted transform source (· = rowPair) planes (convertRowPair transform s0 s1 rowPair planes) := by
  have hlen {row : Nat} {pixels : List UInt8} (hlt : row < geometry.height)
      (h : source.activeRow row = some pixels) : pixels.length / 8 = geometry.width / 2 := by
    obtain ⟨_, hfnd, hfoundLength⟩ := source.activeRow_of_lt (show row < _ by rwa [hg])
    rw [Option.some_inj.mp (h.symm.trans hfnd), hfoundLength, hg]
    change geometry.width * 4 / 8 = geometry.width / 2
    omega
  have hc (pair : Nat) : source.cell transform rowPair pair = cellSamples transform s0 s1 pair := by
    rw [BgraFrame.cell, hs0, hs1, Option.getD_some, Option.getD_some]
  obtain ⟨hw, hkept⟩ := convertRowPair_cells transform s0 s1 planes hr (Nat.le_refl _)
  rw [convertRowPair, hlen (by omega) hs0, hlen (by omega) hs1, Nat.min_self]
  constructor
  · rintro _ pair rfl hp
    rw [hc]
    exact hw pair hp
  · exact hkept

theorem convertRowPairs_converted (rowPairs : List Nat) (planes : I420Planes geometry)
    (hg : source.grid = geometry.grid) (hrows : ∀ rowPair ∈ rowPairs, rowPair < geometry.height / 2) :
    ∃ written, convertRowPairs transform source rowPairs planes = (written, .ok ()) ∧
      Converted transform source (· ∈ rowPairs) planes written := by
  induction rowPairs generalizing planes with
  | nil => exact ⟨planes, rfl, (Converted.none planes).of_iff fun _ => by simp⟩
  | cons rowPair rowPairs ih =>
    obtain ⟨hr, hrest⟩ := forall_mem_cons.mp hrows
    have hh : source.grid.height = geometry.height := by rw [hg, SessionGeometry.grid]
    obtain ⟨s0, hs0, -⟩ := source.activeRow_of_lt (show rowPair * 2 < _ by omega)
    obtain ⟨s1, hs1, -⟩ := source.activeRow_of_lt (show rowPair * 2 + 1 < _ by omega)
    have hf := convertRowPair_converted transform planes hg hr hs0 hs1
    obtain ⟨written, hres, hconv⟩ := ih (convertRowPair transform s0 s1 rowPair planes) hrest
    refine ⟨written, ?_, (hf.trans hconv).of_iff fun _ => mem_cons⟩
    rw [convertRowPairs, hs0, hs1]
    exact hres

theorem convertBgraToI420Rows_converted (rows : RowRange) (planes : I420Planes geometry)
    (hg : source.grid = geometry.grid) (hrng : rows.start ≤ rows.stop ∧ rows.stop ≤ geometry.height)
    (heven : rows.start % 2 = 0 ∧ rows.stop % 2 = 0) :
    ∃ written, convertBgraToI420Rows transform source planes rows = (written, .ok ()) ∧
      Converted transform source (fun rowPair => rows.start / 2 ≤ rowPair ∧ rowPair < rows.stop / 2) planes written := by
  have hval : validateRows source geometry.width geometry.height rows = .ok () := by
    have hsame : ¬(geometry.grid.width ≠ geometry.width ∨ geometry.grid.height ≠ geometry.height) :=
      not_or.mpr ⟨fun h => h rfl, fun h => h rfl⟩
    rw [validateRows, hg, if_neg hsame, if_neg (by omega)]
  have hmem {rowPair : Nat} : rowPair ∈ range' (rows.start / 2) (rows.stop / 2 - rows.start / 2) ↔
      rows.start / 2 ≤ rowPair ∧ rowPair < rows.stop / 2 := by
    rw [mem_range'_1]
    omega
  obtain ⟨written, hres, hconv⟩ := convertRowPairs_converted transform
    (range' (rows.start / 2) (rows.stop / 2 - rows.start / 2)) planes hg
    (fun rowPair h => by
      have hboun := hmem.mp h
      omega)
  refine ⟨written, ?_, hconv.of_iff fun _ => hmem.symm⟩
  rw [convertBgraToI420Rows, hval]
  exact hres

end

theorem convertBgraToI420Rows_mismatch (planes : I420Planes geometry) (hg : source.grid ≠ geometry.grid) :
    convertBgraToI420Rows transform source planes rows = (planes, .error .geometryMismatch) := by
  have hdiff : source.grid.width ≠ geometry.width ∨ source.grid.height ≠ geometry.height := by
    revert hg
    cases source.grid
    simp [SessionGeometry.grid, imp_iff_not_or]
  rw [convertBgraToI420Rows, validateRows, if_pos hdiff]

def I420Planes.Shows (transform : ColorTransform) (planes : I420Planes geometry) (source : BgraFrame) : Prop :=
  planes.HasCells (source.cell transform)

theorem convertBgraToI420_shows (transform : ColorTransform) (planes : I420Planes geometry) (hg : source.grid = geometry.grid) :
    ∃ written, convertBgraToI420 transform source planes = (written, .ok ()) ∧ written.Shows transform source := by
  obtain ⟨written, hres, hconv⟩ := convertBgraToI420Rows_converted transform ⟨0, geometry.height⟩ planes hg
      ⟨Nat.zero_le _, Nat.le_refl _⟩ ⟨rfl, geometry.even.2⟩
  exact ⟨written, hres, fun rowPair pair hr hp => hconv.written rowPair pair ⟨by simp, hr⟩ hp⟩

/-- **A full conversion.** It succeeds on a picture of the geometry, and planes that show the picture are what it
leaves, whatever stood in them before. -/
theorem convertBgraToI420_eq (planes : I420Planes geometry)
    (hg : source.grid = geometry.grid) (hshown : shown.Shows transform source) :
    convertBgraToI420 transform source planes = (shown, .ok ()) := by
  obtain ⟨_, hres, hw⟩ := convertBgraToI420_shows transform planes hg
  rw [hres, hw.unique hshown]

end Converted
end Arcen
