import Arcen.TopologyWalk

/-! What a successful placement says: where every monitor stands before the translation, axis by axis, and that hops
between monitors with whole multiples of their logical size are exact in spite of the float arithmetic. -/

namespace Arcen

open List hiding not_lt

open LayoutRect

/-! ### Geometry by axis -/

inductive Axis where
  | horizontal
  | vertical
  deriving DecidableEq

def Axis.cross : Axis → Axis
  | .horizontal => .vertical
  | .vertical => .horizontal

theorem Axis.eq_or_eq_cross (axis other : Axis) : other = axis ∨ other = axis.cross := by
  cases axis <;> cases other <;> simp [Axis.cross]

def onAxis {α : Type} (pair : α × α) : Axis → α
  | .horizontal => pair.1
  | .vertical => pair.2

namespace LayoutRect

variable (rect : LayoutRect)

def low : Axis → Int
  | .horizontal => rect.x
  | .vertical => rect.y

def extent : Axis → Nat
  | .horizontal => rect.width
  | .vertical => rect.height

def high (axis : Axis) : Int := rect.low axis + rect.extent axis

/-- One rectangle ends before the other starts. -/
def SeparatedOn (axis : Axis) (first second : LayoutRect) : Prop :=
  first.high axis ≤ second.low axis ∨ second.high axis ≤ first.low axis

def Disjoint (first second : LayoutRect) : Prop :=
  SeparatedOn .horizontal first second ∨ SeparatedOn .vertical first second

instance (axis : Axis) : DecidableRel (SeparatedOn axis) := fun _ _ => inferInstanceAs (Decidable (_ ∨ _))

instance : DecidableRel Disjoint := fun _ _ => inferInstanceAs (Decidable (_ ∨ _))

theorem SeparatedOn.disjoint (h : SeparatedOn axis first second) : Disjoint first second := by
  cases axis with
  | horizontal => exact .inl h
  | vertical => exact .inr h

end LayoutRect

namespace TouchingEdge

def axis : TouchingEdge → Axis
  | .right => .horizontal
  | .left => .horizontal
  | .below => .vertical
  | .above => .vertical

/-- The candidate lies on the far side of the anchor. -/
def forward : TouchingEdge → Bool
  | .right => true
  | .left => false
  | .below => true
  | .above => false

/-- The edge seen from the candidate. -/
def opposite : TouchingEdge → TouchingEdge
  | .right => .left
  | .left => .right
  | .below => .above
  | .above => .below

variable (edge : TouchingEdge)

theorem opposite_opposite : edge.opposite.opposite = edge := by cases edge <;> rfl

theorem axis_opposite : edge.opposite.axis = edge.axis := by cases edge <;> rfl

theorem forward_opposite : edge.opposite.forward = !edge.forward := by cases edge <;> rfl

end TouchingEdge

/-- The rectangles share the edge, and more than a point of it. -/
structure Meets (anchor candidate : LayoutRect) (edge : TouchingEdge) : Prop where
  ahead : edge.forward = true → candidate.low edge.axis = anchor.high edge.axis
  behind : edge.forward = false → candidate.high edge.axis = anchor.low edge.axis
  starts : candidate.low edge.axis.cross < anchor.high edge.axis.cross
  ends : anchor.low edge.axis.cross < candidate.high edge.axis.cross

variable {anchor cand : LayoutRect} {edge : TouchingEdge} {conv : TransformConvention}
  {pos : Int × Int}

theorem Meets.sides (h : Meets anchor cand edge) (haxis : edge.axis = axis) :
    edge.forward = true ∧ cand.low axis = anchor.high axis ∨
      edge.forward = false ∧ cand.high axis = anchor.low axis := by
  subst haxis
  cases hf : edge.forward with
  | true => exact .inl ⟨rfl, h.ahead hf⟩
  | false => exact .inr ⟨rfl, h.behind hf⟩

theorem Meets.opposite (h : Meets anchor cand edge) : Meets cand anchor edge.opposite := by
  refine ⟨fun hfwd => ?_, fun hfwd => ?_, ?_, ?_⟩ <;> rw [TouchingEdge.axis_opposite]
  · rw [TouchingEdge.forward_opposite, Bool.not_eq_true'] at hfwd
    exact (h.behind hfwd).symm
  · rw [TouchingEdge.forward_opposite, Bool.not_eq_false'] at hfwd
    exact (h.ahead hfwd).symm
  · exact h.ends
  · exact h.starts

def LayoutRect.Sized (rect : LayoutRect) : Prop := ∀ axis, 0 < rect.extent axis

theorem verticalOverlap_iff : verticalOverlap anchor cand = true ↔
    cand.y < anchor.bottomExclusive ∧ anchor.y < cand.bottomExclusive := by
  simp [verticalOverlap]

theorem horizontalOverlap_iff : horizontalOverlap anchor cand = true ↔
    cand.x < anchor.rightExclusive ∧ anchor.x < cand.rightExclusive := by
  simp [horizontalOverlap]

theorem touchingEdge_eq_some (hc : cand.Sized) : touchingEdge anchor cand = some edge ↔ Meets anchor cand edge := by
  have hw' : 0 < cand.width := hc .horizontal
  have hh' : 0 < cand.height := hc .vertical
  unfold touchingEdge
  simp only [verticalOverlap_iff, horizontalOverlap_iff, rightExclusive, bottomExclusive]
  -- extents are positive, so no two of the four edges are shared at once
  constructor
  · intro h
    split_ifs at h with hrt hleft hbelow habove
    · cases h
      exact ⟨fun _ => hrt.2, nofun, hrt.1.1, hrt.1.2⟩
    · cases h
      exact ⟨nofun, fun _ => hleft.2, hleft.1.1, hleft.1.2⟩
    · cases h
      exact ⟨fun _ => hbelow.2, nofun, hbelow.1.1, hbelow.1.2⟩
    · cases h
      exact ⟨nofun, fun _ => habove.2, habove.1.1, habove.1.2⟩
  · rintro ⟨hahd, hbeh, hsts, hends⟩
    cases edge with
    | right =>
      have hfl : cand.x = anchor.x + anchor.width := hahd rfl
      exact if_pos ⟨⟨hsts, hends⟩, hfl⟩
    | left =>
      have hfl : cand.x + cand.width = anchor.x := hbeh rfl
      rw [if_neg (by omega)]
      exact if_pos ⟨⟨hsts, hends⟩, hfl⟩
    | below =>
      have hfl : cand.y = anchor.y + anchor.height := hahd rfl
      rw [if_neg (by omega), if_neg (by omega)]
      exact if_pos ⟨⟨hsts, hends⟩, hfl⟩
    | above =>
      have hfl : cand.y + cand.height = anchor.y := hbeh rfl
      rw [if_neg (by omega), if_neg (by omega), if_neg (by omega)]
      exact if_pos ⟨⟨hsts, hends⟩, hfl⟩

/-! ### Rosters with whole multiples -/

namespace RequestedMonitor

/-- Pixels per logical unit. -/
def multiple (monitor : RequestedMonitor) (convention : TransformConvention) : Nat :=
  (monitor.footprint convention).1 / monitor.logicalWidth

/-- The footprint is a whole multiple of the logical size, the same on both axes. -/
def WholeMultiple (convention : TransformConvention) (monitor : RequestedMonitor) : Prop := ∃ multiple, 1 ≤ multiple ∧
    monitor.footprint convention = (multiple * monitor.logicalWidth, multiple * monitor.logicalHeight)

variable {conv : TransformConvention} {mon : RequestedMonitor}

theorem WholeMultiple.footprint (h : mon.WholeMultiple conv) (hs : mon.logicalRect.Sized) :
    1 ≤ mon.multiple conv ∧ ∀ axis, onAxis (mon.footprint conv) axis =
      mon.multiple conv * mon.logicalRect.extent axis := by
  obtain ⟨multiple, hpos, hfoot⟩ := h
  have hmult : mon.multiple conv = multiple := by
    rw [RequestedMonitor.multiple, hfoot]
    exact Nat.mul_div_cancel _ (hs .horizontal)
  rw [hmult]
  refine ⟨hpos, fun axis => ?_⟩
  rw [hfoot]
  cases axis <;> rfl

theorem onAxis_scale (axis : Axis) : onAxis (mon.scale conv) axis =
    toBinary64 (((onAxis (mon.footprint conv) axis : ℕ) : ℚ) / mon.logicalRect.extent axis) := by
  cases axis <;> rfl

/-- A whole multiple that is not huge is an exact float. -/
theorem WholeMultiple.scale (h : mon.WholeMultiple conv) (hs : mon.logicalRect.Sized)
    (hbd : mon.multiple conv < 2 ^ 53) (axis : Axis) :
    onAxis (mon.scale conv) axis = ((mon.multiple conv : ℤ) : ℚ) := by
  have hexte : (mon.logicalRect.extent axis : ℚ) ≠ 0 := by exact_mod_cast (hs axis).ne'
  rw [onAxis_scale, (h.footprint hs).2 axis, Nat.cast_mul, mul_div_cancel_right₀ _ hexte]
  have habs : |(mon.multiple conv : ℤ)| < 2 ^ 53 := by
    exact_mod_cast hbd
  exact_mod_cast toBinary64_intCast habs

end RequestedMonitor

variable {logicalDelta offset : Int} {scale : ℚ} {policy : OriginPolicy} {layout : PlacedLayout}
  {mon : RequestedMonitor}

theorem checkedRoundOffset_eq_ok (h : checkedRoundOffset logicalDelta scale = .ok offset) :
    offset = roundAway (toBinary64 (toBinary64 logicalDelta * scale)) ∧ i32Min ≤ offset ∧ offset ≤ i32Max := by
  unfold checkedRoundOffset at h
  simp only at h
  split_ifs at h with hrng
  rw [← Except.ok.inj h]
  exact ⟨rfl, hrng⟩

theorem checkedRoundOffset_multiple {multiple : Nat} (h : checkedRoundOffset logicalDelta scale = .ok offset)
    (hscale : scale = ((multiple : ℤ) : ℚ)) (hpos : 1 ≤ multiple) : offset = multiple * logicalDelta := by
  obtain ⟨hoff, hl, hhigh⟩ := checkedRoundOffset_eq_ok h
  subst hscale
  unfold i32Min at hl
  unfold i32Max at hhigh
  have hsmall : |roundAway (toBinary64 (toBinary64 logicalDelta * ((multiple : ℤ) : ℚ)))| < 2 ^ 53 := by
    rw [abs_lt]
    omega
  rw [hoff, roundAway_mul (by omega) hsmall, mul_comm]

/-- Where a hop leads, on the axis of the edge and across it. -/
theorem placeAgainst_eq_ok {anchor cand : RequestedMonitor} {place : Int × Int}
    (h : placeAgainst conv anchor cand pos edge = .ok place) :
    (onAxis place edge.axis = if edge.forward then onAxis pos edge.axis + onAxis (anchor.footprint conv) edge.axis
      else onAxis pos edge.axis - onAxis (cand.footprint conv) edge.axis) ∧
    ∃ offset, onAxis place edge.axis.cross = onAxis pos edge.axis.cross + offset ∧
      checkedRoundOffset (cand.logicalRect.low edge.axis.cross - anchor.logicalRect.low edge.axis.cross)
        (onAxis (anchor.scale conv) edge.axis.cross) = .ok offset := by
  cases edge <;>
    · obtain ⟨offset, hoff, hplace⟩ := exceptBind_eq_ok.mp h
      rw [exceptPure_eq_ok] at hplace
      subst hplace
      exact ⟨rfl, offset, rfl, hoff⟩

/-! ### What a successful placement is -/

namespace LayoutRect

/-- The rectangle moved by a translation, in unbounded coordinates. -/
def shifted (rect : LayoutRect) (translation : LayoutTranslation) : LayoutRect :=
  ⟨rect.x + translation.dx, rect.y + translation.dy, rect.width, rect.height⟩

variable {first second : LayoutRect} {translation : LayoutTranslation}

theorem disjoint_shifted : Disjoint (first.shifted translation) (second.shifted translation) ↔ Disjoint first second := by
  simp only [Disjoint, SeparatedOn, high, low, extent, shifted]
  omega

theorem touchingEdge_shifted :
    touchingEdge (first.shifted translation) (second.shifted translation) = touchingEdge first second := by
  have hvert : verticalOverlap (first.shifted translation) (second.shifted translation) =
      verticalOverlap first second := by
    rw [Bool.eq_iff_iff, verticalOverlap_iff, verticalOverlap_iff]
    simp only [bottomExclusive, shifted]
    omega
  have hhori : horizontalOverlap (first.shifted translation) (second.shifted translation) =
      horizontalOverlap first second := by
    rw [Bool.eq_iff_iff, horizontalOverlap_iff, horizontalOverlap_iff]
    simp only [rightExclusive, shifted]
    omega
  have hfl : ∀ {a b : Int} (c : Int) (n : Nat), (a + c = b + c + n ↔ a = b + n) ∧ (a + c + n = b + c ↔ a + n = b) :=
    fun c n => by omega
  unfold touchingEdge
  rw [hvert, hhori]
  refine if_congr (and_congr_right fun _ => (hfl _ _).1) rfl (if_congr (and_congr_right fun _ => (hfl _ _).2) rfl ?_)
  exact if_congr (and_congr_right fun _ => (hfl _ _).1) rfl (if_congr (and_congr_right fun _ => (hfl _ _).2) rfl rfl)

theorem new_eq_ok {x y : Int} {width height : Nat} {rect : LayoutRect} (h : new x y width height = .ok rect) :
    rect = ⟨x, y, width, height⟩ ∧ rect.Sized ∧ x + width ≤ i32Max + 1 ∧ y + height ≤ i32Max + 1 := by
  obtain ⟨_, hsize, h⟩ := exceptBind_eq_ok.mp h
  obtain ⟨_, hw, h⟩ := exceptBind_eq_ok.mp h
  obtain ⟨_, hh, h⟩ := exceptBind_eq_ok.mp h
  rw [exceptPure_eq_ok] at h
  unfold validateLayoutEnd at hw hh
  rw [refuseWhen_eq_ok] at hsize hw hh
  subst h
  refine ⟨rfl, fun axis => ?_, not_lt.mp hw, not_lt.mp hh⟩
  cases axis with
  | horizontal => exact Nat.pos_of_ne_zero fun hz => hsize (.inl hz)
  | vertical => exact Nat.pos_of_ne_zero fun hz => hsize (.inr hz)

theorem translated_eq_ok {rect moved : LayoutRect} (h : rect.translated translation = .ok moved) :
    moved = rect.shifted translation := by
  have hsame : ∀ {value result : Int}, checkedI64ToI32 value = .ok result → result = value := by
    intro value result hv
    unfold checkedI64ToI32 at hv
    split_ifs at hv
    exact (Except.ok.inj hv).symm
  obtain ⟨_, hx, h⟩ := exceptBind_eq_ok.mp h
  obtain ⟨_, hy, h⟩ := exceptBind_eq_ok.mp h
  rw [(new_eq_ok h).1, hsame hx, hsame hy]
  rfl

end LayoutRect

theorem applyOriginPolicy_eq_ok {rects : List LayoutRect} (h : applyOriginPolicy rects policy = .ok layout)
    : layout.rects.length = rects.length ∧
      ∀ (index : Nat) (rect : LayoutRect), rects[index]? = some rect → layout.rects[index]? = some (rect.shifted layout.translation) := by
  obtain ⟨_, -, h⟩ := exceptBind_eq_ok.mp h
  simp only at h
  split_ifs at h with hz
  · rw [exceptPure_eq_ok] at h
    subst h
    refine ⟨rfl, fun index rect hr => ?_⟩
    simp only [shifted, hz.1, hz.2, add_zero]
    exact hr
  · obtain ⟨_, hmoved, h⟩ := exceptBind_eq_ok.mp h
    obtain ⟨_, -, h⟩ := exceptBind_eq_ok.mp h
    rw [exceptPure_eq_ok] at h
    subst h
    refine ⟨exceptMapM_length hmoved, fun index rect hr => ?_⟩
    obtain ⟨_, htran, hres⟩ := exceptMapM_getElem? hmoved hr
    rw [← translated_eq_ok htran]
    exact hres

def footprintAt (convention : TransformConvention) (monitor : RequestedMonitor) (position : Int × Int) : LayoutRect :=
  ⟨position.1, position.2, (monitor.footprint convention).1, (monitor.footprint convention).2⟩

theorem low_footprintAt (axis : Axis) : (footprintAt conv mon pos).low axis = onAxis pos axis := by
  cases axis <;> rfl

theorem extent_footprintAt (axis : Axis) : (footprintAt conv mon pos).extent axis =
      onAxis (mon.footprint conv) axis := by
  cases axis <;> rfl

/-- A successful placement: where the walk put every monitor, or else the fallback, and the rectangles there. -/
structure Outcome (convention : TransformConvention) (monitors : List RequestedMonitor) (primaryIndex : Nat)
    (layout : PlacedLayout) (primary : RequestedMonitor) (placed : Placed) (position : Nat → Int × Int) : Prop where
  primary_mem : monitors[primaryIndex]? = some primary
  sized : ∀ {index : Nat} {monitor : RequestedMonitor}, monitors[index]? = some monitor → monitor.logicalRect.Sized
  walked : walk convention monitors monitors.length (primaryPlaced primaryIndex, [primaryIndex]) = .ok placed
  settled : ∀ {index : Nat} {monitor : RequestedMonitor}, monitors[index]? = some monitor →
    settle convention primary placed (monitor, index) = .ok (position index)
  bounded : ∀ {index : Nat} {monitor : RequestedMonitor}, monitors[index]? = some monitor → (monitor.footprint convention).1 ≤ 2 ^ 32
  length_rects : layout.rects.length = monitors.length
  rect : ∀ {index : Nat} {monitor : RequestedMonitor}, monitors[index]? = some monitor →
    layout.rects[index]? = some ((footprintAt convention monitor (position index)).shifted layout.translation)

theorem checkedOffset_eq_ok {offset : Int × Int} (h : checkedOffset pos = .ok offset) :
    offset = pos ∧ i32Min ≤ pos.1 := by
  have hsame : ∀ {value result : Int}, checkedPosition value = .ok result → result = value ∧ i32Min ≤ value := by
    intro value result hv
    unfold checkedPosition at hv
    rw [exceptMapError_eq_ok] at hv
    unfold checkedI64ToI32 at hv
    split_ifs at hv with hrng
    exact ⟨(Except.ok.inj hv).symm, hrng.1⟩
  obtain ⟨_, hx, h⟩ := exceptBind_eq_ok.mp h
  obtain ⟨_, hy, h⟩ := exceptBind_eq_ok.mp h
  rw [exceptPure_eq_ok] at h
  rw [← h, (hsame hx).1, (hsame hy).1]
  exact ⟨rfl, (hsame hx).2⟩

theorem placeMonitors_eq_ok (h : placeMonitors monitors primaryIndex conv policy = .ok layout) :
    ∃ primary placed position, Outcome conv monitors primaryIndex layout primary placed position := by
  unfold placeMonitors planEdgeAwareOffsets at h
  obtain ⟨offsets, ho, h⟩ := exceptBind_eq_ok.mp h
  obtain ⟨_, hrects, h⟩ := exceptBind_eq_ok.mp h
  rw [exceptMapError_eq_ok] at hrects h
  cases hprim : monitors[primaryIndex]? with
  | none =>
    simp only [hprim] at ho
    cases ho
  | some primary =>
    simp only [hprim] at ho
    obtain ⟨_, hlogi, ho⟩ := exceptBind_eq_ok.mp ho
    rw [exceptMapError_eq_ok] at hlogi
    obtain ⟨placed, hwalk, ho⟩ := exceptBind_eq_ok.mp ho
    obtain ⟨_, hposs, ho⟩ := exceptBind_eq_ok.mp ho
    have hat : ∀ {index : Nat} {mon : RequestedMonitor}, monitors[index]? = some mon →
        settle conv primary placed (mon, index) = .ok (offsets.getD index (0, 0)) ∧
        i32Min ≤ (offsets.getD index (0, 0)).1 ∧ (monitors.zip offsets)[index]? =
          some (mon, offsets.getD index (0, 0)) := by
      intro index mon hm
      have hzip : monitors.zipIdx[index]? = some (mon, index) := by
        rw [getElem?_zipIdx, hm, Option.map_some, Nat.zero_add]
      obtain ⟨_, hset, hposi⟩ := exceptMapM_getElem? hposs hzip
      obtain ⟨_, hchec, hoff⟩ := exceptMapM_getElem? ho hposi
      obtain ⟨rfl, hl⟩ := checkedOffset_eq_ok hchec
      rw [getD_eq_getElem?_getD, hoff]
      exact ⟨hset, hl, getElem?_zip_eq_some.mpr ⟨hm, hoff⟩⟩
    obtain ⟨hlen, hshif⟩ := applyOriginPolicy_eq_ok h
    refine ⟨primary, placed, fun index => offsets.getD index (0, 0), hprim, fun hm => ?_, hwalk,
      fun hm => (hat hm).1, fun hm => ?_, ?_, fun hm => ?_⟩
    · obtain ⟨rect, hr, -⟩ := exceptMapM_getElem? hlogi hm
      obtain ⟨rfl, hs, -⟩ := new_eq_ok hr
      exact hs
    · obtain ⟨rect, hr, -⟩ := exceptMapM_getElem? hrects (hat hm).2.2
      obtain ⟨-, -, hrt, -⟩ := new_eq_ok hr
      have hl := (hat hm).2.1
      unfold i32Min at hl
      unfold i32Max at hrt
      simp only at hrt
      omega
    · rw [hlen, exceptMapM_length hrects, length_zip, exceptMapM_length ho,
        exceptMapM_length hposs, length_zipIdx, Nat.min_self]
    · obtain ⟨_, hr, hres⟩ := exceptMapM_getElem? hrects (hat hm).2.2
      obtain ⟨rfl, -⟩ := new_eq_ok hr
      exact hshif _ _ hres

/-! ### Seamless layouts -/

/-- Nothing overlaps, and monitors that share a logical edge share it in the layout. -/
structure Seamless (monitors : List RequestedMonitor) (layout : PlacedLayout) : Prop where
  disjoint : layout.rects.Pairwise LayoutRect.Disjoint
  adjacent : ∀ {first second : Nat} {anchor candidate : RequestedMonitor} {edge : TouchingEdge},
    monitors[first]? = some anchor → monitors[second]? = some candidate →
    touchingEdge anchor.logicalRect candidate.logicalRect = some edge →
    ∃ placedAnchor placedCandidate, layout.rects[first]? = some placedAnchor ∧
      layout.rects[second]? = some placedCandidate ∧ touchingEdge placedAnchor placedCandidate = some edge

theorem apart_getElem? {α : Type} {R : α → α → Prop} {items : List α} (h : items.Pairwise R) {first second : Nat}
    (hlt : first < second) {one other : α} (hone : items[first]? = some one) (hoth : items[second]? = some other) :
    R one other := by
  obtain ⟨hf, rfl⟩ := List.getElem?_eq_some_iff.mp hone
  obtain ⟨hsnd, rfl⟩ := List.getElem?_eq_some_iff.mp hoth
  exact pairwise_iff_getElem.mp h first second hf hsnd hlt

section Outcomes

variable {conv : TransformConvention} {mons : List RequestedMonitor} {prim : Nat}
  {layout : PlacedLayout} {primary : RequestedMonitor} {placed : Placed} {pos : Nat → Int × Int}
  (h : Outcome conv mons prim layout primary placed pos)
  (hwh : ∀ mon ∈ mons, mon.WholeMultiple conv)

namespace Outcome

include h

theorem primaryIndex_lt : prim < mons.length := (List.getElem?_eq_some_iff.mp h.primary_mem).1

/-- A layout is seamless when the footprints are at the positions before the translation. -/
theorem seamless
    (hdisj : ∀ {first second : Nat} {one other : RequestedMonitor}, first < second → mons[first]? = some one →
      mons[second]? = some other →
      LayoutRect.Disjoint (footprintAt conv one (pos first)) (footprintAt conv other (pos second)))
    (hadja : ∀ {first second : Nat} {anchor cand : RequestedMonitor} {edge : TouchingEdge},
      mons[first]? = some anchor → mons[second]? = some cand →
      touchingEdge anchor.logicalRect cand.logicalRect = some edge →
      touchingEdge (footprintAt conv anchor (pos first)) (footprintAt conv cand (pos second)) =
        some edge) : Seamless mons layout := by
  refine ⟨pairwise_iff_getElem.mpr fun first second hf hsnd hlt => ?_, fun ha hc htouch => ?_⟩
  · have hone := getElem?_eq_getElem (h.length_rects ▸ hf)
    have hoth := getElem?_eq_getElem (h.length_rects ▸ hsnd)
    rw [(getElem_eq_iff hf).mpr (h.rect hone), (getElem_eq_iff hsnd).mpr (h.rect hoth), disjoint_shifted]
    exact hdisj hlt hone hoth
  · refine ⟨_, _, h.rect ha, h.rect hc, ?_⟩
    rw [touchingEdge_shifted]
    exact hadja ha hc htouch

include hwh

variable {index : Nat} {mon : RequestedMonitor}

section

variable (hm : mons[index]? = some mon)
include hm

theorem one_le_multiple : 1 ≤ mon.multiple conv := ((hwh mon (mem_of_getElem? hm)).footprint (h.sized hm)).1

theorem footprint_eq (axis : Axis) : onAxis (mon.footprint conv) axis =
      mon.multiple conv * mon.logicalRect.extent axis :=
  ((hwh mon (mem_of_getElem? hm)).footprint (h.sized hm)).2 axis

theorem scale_eq (axis : Axis) : onAxis (mon.scale conv) axis = ((mon.multiple conv : ℤ) : ℚ) := by
  have hsmall : mon.multiple conv ≤ 2 ^ 32 := (Nat.div_le_self _ _).trans (h.bounded hm)
  refine (hwh mon (mem_of_getElem? hm)).scale (h.sized hm) ?_ axis
  exact hsmall.trans_lt (by norm_num)

theorem high_footprintAt (axis : Axis) : (footprintAt conv mon (pos index)).high axis =
      onAxis (pos index) axis + mon.multiple conv * mon.logicalRect.extent axis := by
  rw [high, low_footprintAt, extent_footprintAt, h.footprint_eq hwh hm, Nat.cast_mul]

theorem sized_footprintAt (place : Int × Int) : (footprintAt conv mon place).Sized := by
  intro axis
  rw [extent_footprintAt, h.footprint_eq hwh hm]
  exact Nat.mul_pos (h.one_le_multiple hwh hm) (h.sized hm axis)

end

/-- A hop between whole multiples is exact. -/
theorem hop {anchorIndex : Nat} {anchor cand : RequestedMonitor} {start place : Int × Int} {edge : TouchingEdge}
    (ha : mons[anchorIndex]? = some anchor) (hc : mons[index]? = some cand)
    (hfl : placeAgainst conv anchor cand start edge = .ok place) : (onAxis place edge.axis = if edge.forward
      then onAxis start edge.axis + anchor.multiple conv * anchor.logicalRect.extent edge.axis
      else onAxis start edge.axis - cand.multiple conv * cand.logicalRect.extent edge.axis) ∧
    onAxis place edge.axis.cross = onAxis start edge.axis.cross + anchor.multiple conv *
      (cand.logicalRect.low edge.axis.cross - anchor.logicalRect.low edge.axis.cross) := by
  obtain ⟨halong, _, hcross, hoff⟩ := placeAgainst_eq_ok hfl
  rw [h.footprint_eq hwh ha, h.footprint_eq hwh hc] at halong
  refine ⟨halong, ?_⟩
  rw [hcross, checkedRoundOffset_multiple hoff (h.scale_eq hwh ha _) (h.one_le_multiple hwh ha)]

end Outcome

end Outcomes

end Arcen
