import Arcen.TopologyOutcome

/-! Placed layouts and the arrangement they were asked for. Two shapes of rosters are followed through the walk: one
where all monitors have the same number of pixels per logical unit, and one where the monitors stand in a single
touching row or column. The placed layout is free of gaps and overlaps in the first, and in the second exactly when
no neighbour is pushed past the end of the edge it shares. Other rosters can end up overlapping. -/

namespace Arcen

open LayoutRect

section Outcomes

variable {conv : TransformConvention} {mons : List RequestedMonitor} {prim : Nat}
  {layout : PlacedLayout} {primary : RequestedMonitor} {placed : Placed} {pos : Nat → Int × Int}
  (h : Outcome conv mons prim layout primary placed pos)
  (hwhole : ∀ mon ∈ mons, mon.WholeMultiple conv)

/-! ### One multiple for all -/

/-- All monitors have as many pixels per logical unit. -/
def Uniform (convention : TransformConvention) (monitors : List RequestedMonitor) : Prop :=
  ∀ one ∈ monitors, ∀ other ∈ monitors, one.multiple convention = other.multiple convention

namespace Outcome

include h hwhole

/-- Every hop, and the fallback too, keeps a monitor at its scaled logical offset from the primary. -/
theorem position_of_uniform (hu : Uniform conv mons) (hmon : mons[index]? = some mon)
    (axis : Axis) : onAxis (pos index) axis =
      primary.multiple conv * (mon.logicalRect.low axis - primary.logicalRect.low axis) := by
  have hsame : ∀ {other : Nat} {one : RequestedMonitor}, mons[other]? = some one →
      one.multiple conv = primary.multiple conv := fun ho =>
    hu _ (List.mem_of_getElem? ho) _ (List.mem_of_getElem? h.primary_mem)
  have hplac : ∀ {place}, placed index = some place → ∀ axis, onAxis place axis =
      primary.multiple conv * (mon.logicalRect.low axis - primary.logicalRect.low axis) := by
    intro place hp
    refine walk_positions h.walked (Q := fun other place => ∀ one, mons[other]? = some one → ∀ axis,
      onAxis place axis = primary.multiple conv * (one.logicalRect.low axis - primary.logicalRect.low axis))
      ?_ ?_ hp mon hmon
    · intro one ho axis
      rw [h.primary_mem] at ho
      cases ho
      rw [sub_self]
      cases axis <;> rfl
    · rintro placed idx other place hinv
        ⟨anchor, cand, start, edge, ha, hc, hstart, ht, hfl⟩ one ho axis
      rw [hc] at ho
      cases ho
      have hm := (touchingEdge_eq_some (h.sized hc)).mp ht
      obtain ⟨halong, hcross⟩ := h.hop hwhole ha hc hfl
      rw [hsame ha, hsame hc, hinv _ _ hstart _ ha] at halong
      rw [hsame ha, hinv _ _ hstart _ ha] at hcross
      rcases Axis.eq_or_eq_cross edge.axis axis with rfl | rfl
      · rw [halong]
        cases hf : edge.forward with
        | true =>
          rw [if_pos rfl, hm.ahead hf, high]
          ring
        | false =>
          rw [if_neg Bool.false_ne_true, ← hm.behind hf, high]
          ring
      · rw [hcross]
        ring
  have hset := h.settled hmon
  unfold settle at hset
  cases hfnd : placed index with
  | some =>
    simp only [hfnd] at hset
    rw [← Except.ok.inj hset]
    exact hplac hfnd axis
  | none =>
    simp only [hfnd] at hset
    obtain ⟨_, hx, hset⟩ := exceptBind_eq_ok.mp hset
    obtain ⟨_, hy, hset⟩ := exceptBind_eq_ok.mp hset
    rw [exceptPure_eq_ok] at hset
    rw [← hset]
    cases axis with
    | horizontal =>
      exact checkedRoundOffset_multiple hx (h.scale_eq hwhole h.primary_mem .horizontal)
        (h.one_le_multiple hwhole h.primary_mem)
    | vertical =>
      exact checkedRoundOffset_multiple hy (h.scale_eq hwhole h.primary_mem .vertical)
        (h.one_le_multiple hwhole h.primary_mem)

/-- Rectangles all scaled by one multiple keep every order between their sides. -/
theorem seamless_of_uniform (hu : Uniform conv mons)
    (hapart : mons.Pairwise fun one other => one.logicalRect.Disjoint other.logicalRect) : Seamless mons layout := by
  have hpos : (0 : Int) < primary.multiple conv := by exact_mod_cast h.one_le_multiple hwhole h.primary_mem
  have hlow : ∀ {index : Nat} {mon : RequestedMonitor}, mons[index]? = some mon → ∀ axis,
      (footprintAt conv mon (pos index)).low axis =
        primary.multiple conv * (mon.logicalRect.low axis - primary.logicalRect.low axis) := by
    intro index mon hmon axis
    rw [low_footprintAt, h.position_of_uniform hwhole hu hmon]
  have hh : ∀ {index : Nat} {mon : RequestedMonitor}, mons[index]? = some mon → ∀ axis,
      (footprintAt conv mon (pos index)).high axis =
        primary.multiple conv * (mon.logicalRect.high axis - primary.logicalRect.low axis) := by
    intro index mon hmon axis
    rw [h.high_footprintAt hwhole hmon, h.position_of_uniform hwhole hu hmon, high,
      hu _ (List.mem_of_getElem? hmon) _ (List.mem_of_getElem? h.primary_mem)]
    ring
  refine h.seamless (fun {first second one other} hlt ho hoth => ?_) (fun ha hc ht => ?_)
  · have hle : ∀ {a b c : Int}, a ≤ b → primary.multiple conv * (a - c) ≤ primary.multiple conv * (b - c) :=
      fun hab => Int.mul_le_mul_of_nonneg_left (by omega) hpos.le
    have hsep : ∀ axis, LayoutRect.SeparatedOn axis one.logicalRect other.logicalRect →
        LayoutRect.SeparatedOn axis (footprintAt conv one (pos first)) (footprintAt conv other (pos second)) := by
      intro axis hs
      unfold LayoutRect.SeparatedOn
      rw [hlow ho, hlow hoth, hh ho, hh hoth]
      exact hs.imp hle hle
    exact (apart_getElem? hapart hlt ho hoth).imp (hsep _) (hsep _)
  · have hlt : ∀ {a b c : Int}, a < b → primary.multiple conv * (a - c) < primary.multiple conv * (b - c) :=
      fun hab => Int.mul_lt_mul_of_pos_left (by omega) hpos
    have hm := (touchingEdge_eq_some (h.sized hc)).mp ht
    rw [touchingEdge_eq_some (h.sized_footprintAt hwhole hc _)]
    refine ⟨fun hf => ?_, fun hbwd => ?_, ?_, ?_⟩
    · rw [hlow hc, hh ha, hm.ahead hf]
    · rw [hlow ha, hh hc, hm.behind hbwd]
    · rw [hlow hc, hh ha]
      exact hlt hm.starts
    · rw [hlow ha, hh hc]
      exact hlt hm.ends

end Outcome

/-! ### Rows and columns -/

/-- No two monitors share a place on the axis. -/
def InLine (axis : Axis) (monitors : List RequestedMonitor) : Prop :=
  monitors.Pairwise fun one other => LayoutRect.SeparatedOn axis one.logicalRect other.logicalRect

def Joined (monitors : List RequestedMonitor) (primaryIndex : Nat) : Prop :=
  ∀ index < monitors.length, Relation.ReflTransGen (Touching monitors) primaryIndex index

/-- The edge leads away from the primary. -/
def Outward (axis : Axis) (primary anchor : RequestedMonitor) (edge : TouchingEdge) : Prop :=
  if edge.forward then primary.logicalRect.low axis ≤ anchor.logicalRect.low axis
  else anchor.logicalRect.low axis ≤ primary.logicalRect.low axis

/-- Away from the primary, the scaled offset along a shared edge leaves the next monitor on that edge. -/
def KeepsOverlap (convention : TransformConvention) (monitors : List RequestedMonitor) (primary : RequestedMonitor)
    (axis : Axis) : Prop := ∀ anchor ∈ monitors, ∀ candidate ∈ monitors, ∀ edge,
    touchingEdge anchor.logicalRect candidate.logicalRect = some edge → Outward axis primary anchor edge →
    0 < (anchor.multiple convention : Int) *
        (candidate.logicalRect.low axis.cross - anchor.logicalRect.low axis.cross) +
      candidate.multiple convention * candidate.logicalRect.extent axis.cross

/-- The place is the hop from the neighbour on the primary's side. -/
def Inward (convention : TransformConvention) (monitors : List RequestedMonitor) (primary : RequestedMonitor)
    (axis : Axis) (placed : Placed) (index : Nat) (place : Int × Int) : Prop :=
  ∃ anchorIndex anchor candidate start edge, monitors[anchorIndex]? = some anchor ∧
    monitors[index]? = some candidate ∧ placed anchorIndex = some start ∧
    Meets anchor.logicalRect candidate.logicalRect edge ∧ Outward axis primary anchor edge ∧
    placeAgainst convention anchor candidate start edge = .ok place

/-- The next monitor of a line, seen from the primary, and where it is put. -/
structure Follows (convention : TransformConvention) (monitors : List RequestedMonitor) (primary : RequestedMonitor)
    (position : Nat → Int × Int) (axis : Axis) (anchorIndex index : Nat) (anchor candidate : RequestedMonitor)
    (edge : TouchingEdge) : Prop where
  anchor_mem : monitors[anchorIndex]? = some anchor
  meets : Meets anchor.logicalRect candidate.logicalRect edge
  axis_eq : edge.axis = axis
  outward : Outward axis primary anchor edge
  along : onAxis (position index) axis = if edge.forward
    then onAxis (position anchorIndex) axis + anchor.multiple convention * anchor.logicalRect.extent axis
    else onAxis (position anchorIndex) axis - candidate.multiple convention * candidate.logicalRect.extent axis
  across : onAxis (position index) axis.cross = onAxis (position anchorIndex) axis.cross + anchor.multiple convention *
    (candidate.logicalRect.low axis.cross - anchor.logicalRect.low axis.cross)

section Lines

variable {axis : Axis} (hline : InLine axis mons)

include hline in
theorem InLine.separated {first second : Nat} {one other : RequestedMonitor} (hne : first ≠ second)
    (ho : mons[first]? = some one) (hoth : mons[second]? = some other) :
    LayoutRect.SeparatedOn axis one.logicalRect other.logicalRect := by
  rcases Nat.lt_or_gt_of_ne hne with hlt | hlt
  · exact apart_getElem? hline hlt ho hoth
  · exact Or.symm (apart_getElem? hline hlt hoth ho)

namespace Outcome

include h hline

variable {first second : Nat} {one other anchor cand : RequestedMonitor} {edge : TouchingEdge} {index : Nat}

/-- In a line, monitors touch along the line. -/
theorem axis_of_meets (ha : mons[first]? = some anchor) (hc : mons[second]? = some cand)
    (hm : Meets anchor.logicalRect cand.logicalRect edge) : edge.axis = axis := by
  have hne : first ≠ second := by
    rintro rfl
    rw [ha] at hc
    cases hc
    have hexte := h.sized ha edge.axis
    rcases hm.sides rfl with ⟨-, hside⟩ | ⟨-, hside⟩ <;> unfold high at hside <;> omega
  rcases Axis.eq_or_eq_cross edge.axis axis with heq | hcross
  · exact heq.symm
  · have hs := hline.separated hne ha hc
    rw [hcross] at hs
    have hsts := hm.starts
    have hends := hm.ends
    unfold LayoutRect.SeparatedOn at hs
    omega

/-- A monitor stands where the primary starts, after it or before it. -/
theorem side_or (ho : mons[first]? = some one) : primary.logicalRect.low axis ≤ one.logicalRect.low axis ∨
    one.logicalRect.high axis ≤ primary.logicalRect.low axis := by
  by_cases hsame : first = prim
  · subst hsame
    rw [h.primary_mem] at ho
    cases ho
    exact .inl le_rfl
  · have hs := hline.separated hsame ho h.primary_mem
    unfold LayoutRect.SeparatedOn high at *
    omega

/-- An edge that leads outward leaves the primary and both monitors in one order. -/
theorem outward_sides (ha : mons[first]? = some anchor) (hc : mons[second]? = some cand)
    (hm : Meets anchor.logicalRect cand.logicalRect edge) (hout : Outward axis primary anchor edge) :
    edge.forward = true ∧ primary.logicalRect.low axis ≤ anchor.logicalRect.low axis ∧
      cand.logicalRect.low axis = anchor.logicalRect.high axis ∨
    edge.forward = false ∧ anchor.logicalRect.low axis ≤ primary.logicalRect.low axis ∧
      cand.logicalRect.high axis = anchor.logicalRect.low axis := by
  unfold Outward at hout
  rcases hm.sides (h.axis_of_meets hline ha hc hm) with ⟨hf, hside⟩ | ⟨hf, hside⟩
  · exact .inl ⟨hf, by rwa [if_pos hf] at hout, hside⟩
  · exact .inr ⟨hf, by rwa [hf] at hout, hside⟩

/-- Seen from the primary, a monitor of a line has one neighbour before it. -/
theorem inner_unique (ho : mons[first]? = some one) (hoth : mons[second]? = some other)
    (hc : mons[index]? = some cand) (hm : Meets one.logicalRect cand.logicalRect edge)
    (hm' : Meets other.logicalRect cand.logicalRect edge') (hout : Outward axis primary one edge)
    (hout' : Outward axis primary other edge') : first = second := by
  by_contra hne
  have hs := hline.separated hne ho hoth
  have hfst := h.sized ho axis
  have hsnd := h.sized hoth axis
  have hsides := h.outward_sides hline ho hc hm hout
  have hsides' := h.outward_sides hline hoth hc hm' hout'
  -- the cand is on one side of the primary, and there at most one mon ends where it starts
  unfold LayoutRect.SeparatedOn high at *
  omega

/-- Of two touching monitors of a line, one leads outward to the other. -/
theorem outward_or (ha : mons[first]? = some anchor) (hc : mons[second]? = some cand)
    (hm : Meets anchor.logicalRect cand.logicalRect edge) :
    Outward axis primary anchor edge ∨ Outward axis primary cand edge.opposite := by
  unfold Outward
  rw [TouchingEdge.forward_opposite]
  rcases hm.sides (h.axis_of_meets hline ha hc hm) with ⟨hf, hside⟩ | ⟨hf, hside⟩
  · simp only [hf, hside]
    exact h.side_or hline ha
  · simp only [hf, ← hside]
    exact (h.side_or hline hc).symm

theorem reached_inward (hp : placed index = some place) (hidx : index ≠ prim)
    : Inward conv mons primary axis placed index place := by
  refine walk_invariant (I := fun placed => ∀ index place, placed index = some place → index ≠ prim →
    Inward conv mons primary axis placed index place) ?_ ?_ h.walked index place hp hidx
  · rintro placed idx other spot hinv hunpl
      ⟨anchor, cand, start, edge, ha, hc, hstart, ht, hfl⟩ index place hp hidx
    have hkept : ∀ {third : Nat} {seat : Int × Int}, placed third = some seat →
        Function.update placed other (some spot) third = some seat := by
      intro third seat hthird
      have hne : third ≠ other := by
        rintro rfl
        rw [hunpl] at hthird
        cases hthird
      rw [Function.update_of_ne hne]
      exact hthird
    by_cases heq : index = other
    · subst heq
      rw [Function.update_self] at hp
      cases hp
      have hm := (touchingEdge_eq_some (h.sized hc)).mp ht
      rcases h.outward_or hline ha hc hm with hout | hback
      · exact ⟨idx, anchor, cand, start, edge, ha, hc, hkept hstart, hm, hout, hfl⟩
      · -- an anchor beyond the cand was itself reached from the cand, which is not placed yet
        have hnotPrimary : idx ≠ prim ∨ Outward axis primary anchor edge := by
          by_cases hprim : idx = prim
          · subst hprim
            rw [h.primary_mem] at ha
            cases ha
            exact .inr (by unfold Outward; split_ifs <;> exact le_rfl)
          · exact .inl hprim
        rcases hnotPrimary with hne | hout
        · obtain ⟨inner, one, other, _, edge', ho, hoth, hinner, hm', hout', -⟩ := hinv _ _ hstart hne
          rw [ha] at hoth
          cases hoth
          have hsame := h.inner_unique hline ho hc ha hm' hm.opposite hout' hback
          rw [hsame, hunpl] at hinner
          cases hinner
        · exact ⟨idx, anchor, cand, start, edge, ha, hc, hkept hstart, hm, hout, hfl⟩
    · rw [Function.update_of_ne heq] at hp
      obtain ⟨inner, one, other, origin, edge', ho, hoth, hinner, hrest⟩ := hinv _ _ hp hidx
      exact ⟨inner, one, other, origin, edge', ho, hoth, hkept hinner, hrest⟩
  · intro index place hp hidx
    exact absurd (primaryPlaced_eq_some.mp hp).1 hidx

include hwhole

variable (hjoined : Joined mons prim)

include hjoined

omit hwhole hline in
theorem position_of_joined (hmon : mons[index]? = some mon) : placed index = some (pos index) := by
  have hidx := (List.getElem?_eq_some_iff.mp hmon).1
  have hset := h.settled hmon
  obtain ⟨_, hp⟩ := Option.isSome_iff_exists.mp (walk_reaches h.primaryIndex_lt h.walked (hjoined index hidx))
  unfold settle at hset
  simp only [hp] at hset
  rw [hp, Except.ok.inj hset]

theorem follows (hc : mons[index]? = some cand) (hidx : index ≠ prim) : ∃ idx anchor edge,
      Follows conv mons primary pos axis idx index anchor cand edge := by
  obtain ⟨idx, anchor, _, _, edge, ha, hoth, hstart, hm, hout, hfl⟩ :=
    h.reached_inward hline (h.position_of_joined hjoined hc) hidx
  rw [hc] at hoth
  cases hoth
  rw [h.position_of_joined hjoined ha] at hstart
  cases hstart
  have haxis := h.axis_of_meets hline ha hc hm
  obtain ⟨halong, hacro⟩ := h.hop hwhole ha hc hfl
  rw [haxis] at halong hacro
  exact ⟨idx, anchor, edge, ha, hm, haxis, hout, halong, hacro⟩

/-- A monitor is put against any neighbour that leads outward to it. -/
theorem follows_of_outward (ha : mons[first]? = some anchor) (hc : mons[second]? = some cand)
    (hm : Meets anchor.logicalRect cand.logicalRect edge) (hout : Outward axis primary anchor edge) :
    Follows conv mons primary pos axis first second anchor cand edge := by
  have hidx : second ≠ prim := by
    rintro rfl
    rw [h.primary_mem] at hc
    cases hc
    have hfst := h.sized ha axis
    have hsnd := h.sized h.primary_mem axis
    have hsides := h.outward_sides hline ha h.primary_mem hm hout
    unfold high at hsides
    omega
  obtain ⟨_, _, _, hfol⟩ := h.follows hwhole hline hjoined hc hidx
  have hsame := h.inner_unique hline hfol.anchor_mem ha hc hfol.meets hm hfol.outward hout
  subst hsame
  have ho := hfol.anchor_mem
  rw [ha] at ho
  cases ho
  have hedge := (touchingEdge_eq_some (h.sized hc)).mpr hm
  rw [touchingEdge_eq_some (h.sized hc) |>.mpr hfol.meets] at hedge
  exact Option.some.inj hedge ▸ hfol

/-- The order of a line is kept. -/
theorem ordered (ho : mons[first]? = some one) (hoth : mons[second]? = some other)
    (hs : one.logicalRect.high axis ≤ other.logicalRect.low axis) :
    onAxis (pos first) axis + one.multiple conv * one.logicalRect.extent axis ≤ onAxis (pos second) axis := by
  -- the induction brings the outer of the two mons nearer to the primary
  obtain ⟨distance, hdist⟩ : ∃ distance, (one.logicalRect.low axis - primary.logicalRect.low axis).natAbs +
    (other.logicalRect.low axis - primary.logicalRect.low axis).natAbs = distance := ⟨_, rfl⟩
  induction distance using Nat.strongRecOn generalizing first second one other with
  | ind distance ih =>
    have hexte := h.sized ho axis
    have hexte' := h.sized hoth axis
    by_cases hside : primary.logicalRect.low axis < other.logicalRect.low axis
    · have hidx : second ≠ prim := by
        rintro rfl
        rw [h.primary_mem] at hoth
        cases hoth
        exact lt_irrefl _ hside
      obtain ⟨index, anchor, edge, hfol⟩ := h.follows hwhole hline hjoined hoth hidx
      obtain ⟨ha, hm, -, hout, halong, -⟩ := hfol
      have hsized := h.sized ha axis
      have hsides := h.outward_sides hline ha hoth hm hout
      unfold high at hsides hs
      obtain ⟨hf, hout, hfl⟩ := hsides.resolve_right (by omega)
      rw [if_pos hf] at halong
      by_cases hsame : first = index
      · subst hsame
        rw [ha] at ho
        cases ho
        exact halong.ge
      · have hapart := hline.separated hsame ho ha
        unfold LayoutRect.SeparatedOn high at hapart
        have hpre : one.logicalRect.high axis ≤ anchor.logicalRect.low axis := by
          unfold high
          omega
        have hnear := ih _ (by omega) ho ha hpre rfl
        have hw : (0 : Int) ≤ anchor.multiple conv * anchor.logicalRect.extent axis := by positivity
        linarith
    · have hidx : first ≠ prim := by
        rintro rfl
        rw [h.primary_mem] at ho
        cases ho
        unfold high at hs
        omega
      obtain ⟨index, anchor, edge, hfol⟩ := h.follows hwhole hline hjoined ho hidx
      obtain ⟨ha, hm, -, hout, halong, -⟩ := hfol
      have hsides := h.outward_sides hline ha ho hm hout
      unfold high at hsides hs
      obtain ⟨hbwd, hout, hfl⟩ := hsides.resolve_left (by omega)
      rw [hbwd, if_neg Bool.false_ne_true] at halong
      by_cases hsame : index = second
      · subst hsame
        rw [ha] at hoth
        linarith
      · have hapart := hline.separated hsame ha hoth
        unfold LayoutRect.SeparatedOn high at hapart
        have hpre : anchor.logicalRect.high axis ≤ other.logicalRect.low axis := by
          unfold high
          omega
        have hnear := ih _ (by omega) ha hoth hpre rfl
        have hw : (0 : Int) ≤ anchor.multiple conv * anchor.logicalRect.extent axis := by positivity
        linarith

omit hjoined in
/-- Neighbours of a line share their edge in the layout when the outer one stays on it. -/
theorem meets_footprints (ha : mons[first]? = some anchor) (hc : mons[second]? = some cand)
    (hfol : Follows conv mons primary pos axis first second anchor cand edge) :
    Meets (footprintAt conv anchor (pos first)) (footprintAt conv cand (pos second)) edge ↔
      0 < (anchor.multiple conv : Int) * (cand.logicalRect.low axis.cross - anchor.logicalRect.low axis.cross) +
        cand.multiple conv * cand.logicalRect.extent axis.cross := by
  obtain ⟨-, hm, haxis, -, halong, hacro⟩ := hfol
  subst haxis
  have hends : onAxis (pos first) edge.axis.cross < onAxis (pos second) edge.axis.cross +
      cand.multiple conv * cand.logicalRect.extent edge.axis.cross ↔ 0 < (anchor.multiple conv : Int) *
          (cand.logicalRect.low edge.axis.cross - anchor.logicalRect.low edge.axis.cross) +
        cand.multiple conv * cand.logicalRect.extent edge.axis.cross := by
    rw [hacro, add_assoc, lt_add_iff_pos_right]
  constructor
  · intro hplac
    have hover := hplac.ends
    rw [h.high_footprintAt hwhole hc] at hover
    exact hends.mp hover
  · intro hkeeps
    refine ⟨fun hf => ?_, fun hbwd => ?_, ?_, ?_⟩
    · rw [low_footprintAt, h.high_footprintAt hwhole ha, halong, if_pos hf]
    · rw [low_footprintAt, h.high_footprintAt hwhole hc, halong, hbwd, if_neg Bool.false_ne_true, sub_add_cancel]
    · have hsts := hm.starts
      have hpos : (0 : Int) < anchor.multiple conv := by exact_mod_cast h.one_le_multiple hwhole ha
      have hscal := Int.mul_lt_mul_of_pos_left (sub_lt_iff_lt_add'.mpr hsts) hpos
      rw [low_footprintAt, h.high_footprintAt hwhole ha]
      linarith
    · rw [h.high_footprintAt hwhole hc]
      exact hends.mpr hkeeps

/-- **Lines.** A line of touching monitors is placed without gaps and overlaps exactly when no monitor is pushed off
the edge it shares with the one before it. -/
theorem seamless_iff_of_line : Seamless mons layout ↔ KeepsOverlap conv mons primary axis := by
  constructor
  · intro hseam anchor ha cand hc edge ht hout
    obtain ⟨first, ha⟩ := List.mem_iff_getElem?.mp ha
    obtain ⟨second, hc⟩ := List.mem_iff_getElem?.mp hc
    have hm := (touchingEdge_eq_some (h.sized hc)).mp ht
    have hfol := h.follows_of_outward hwhole hline hjoined ha hc hm hout
    obtain ⟨one, other, ho, hoth, hplac⟩ := hseam.adjacent ha hc ht
    rw [h.rect ha] at ho
    rw [h.rect hc] at hoth
    cases ho
    cases hoth
    rw [touchingEdge_shifted, touchingEdge_eq_some (h.sized_footprintAt hwhole hc _)] at hplac
    exact (h.meets_footprints hwhole hline ha hc hfol).mp hplac
  · intro hkeeps
    have hinner : ∀ {first second : Nat} {anchor cand : RequestedMonitor} {edge : TouchingEdge},
        mons[first]? = some anchor → mons[second]? = some cand →
        Meets anchor.logicalRect cand.logicalRect edge → Outward axis primary anchor edge →
        Meets (footprintAt conv anchor (pos first)) (footprintAt conv cand (pos second))
          edge := by
      intro first second anchor cand edge ha hc hm hout
      have hfol := h.follows_of_outward hwhole hline hjoined ha hc hm hout
      refine (h.meets_footprints hwhole hline ha hc hfol).mpr ?_
      exact hkeeps _ (List.mem_of_getElem? ha) _ (List.mem_of_getElem? hc) edge
        ((touchingEdge_eq_some (h.sized hc)).mpr hm) hout
    refine h.seamless (fun {first second one other} hlt ho hoth => ?_)
      (fun {first second anchor cand edge} ha hc ht => ?_)
    · have hapart : LayoutRect.SeparatedOn axis (footprintAt conv one (pos first))
          (footprintAt conv other (pos second)) := by
        unfold LayoutRect.SeparatedOn
        rw [h.high_footprintAt hwhole ho, h.high_footprintAt hwhole hoth]
        exact (apart_getElem? hline hlt ho hoth).imp (h.ordered hwhole hline hjoined ho hoth)
          (h.ordered hwhole hline hjoined hoth ho)
      exact hapart.disjoint
    · have hm := (touchingEdge_eq_some (h.sized hc)).mp ht
      rw [touchingEdge_eq_some (h.sized_footprintAt hwhole hc _)]
      rcases h.outward_or hline ha hc hm with hout | hback
      · exact hinner ha hc hm hout
      · have hreve := (hinner hc ha hm.opposite hback).opposite
        rw [TouchingEdge.opposite_opposite] at hreve
        exact hreve

end Outcome

end Lines

end Outcomes

/-- **Seamless placement.** With one multiple for all monitors the placed layout has no gaps and no overlaps; in a
touching row or column of different multiples that is so exactly when every scaled offset keeps the next monitor, seen
from the primary, on the edge it shares. -/
theorem placed_seamlessly {convention : TransformConvention} {monitors : List RequestedMonitor} {primaryIndex : Nat}
    {policy : OriginPolicy} {primary : RequestedMonitor} {layout : PlacedLayout}
    (hwhole : ∀ monitor ∈ monitors, monitor.WholeMultiple convention)
    (hapart : monitors.Pairwise fun one other => one.logicalRect.Disjoint other.logicalRect)
    (hprimary : monitors[primaryIndex]? = some primary)
    (hplace : placeMonitors monitors primaryIndex convention policy = .ok layout) :
    (Uniform convention monitors → Seamless monitors layout) ∧
    ∀ axis, InLine axis monitors → Joined monitors primaryIndex →
      (Seamless monitors layout ↔ KeepsOverlap convention monitors primary axis) := by
  obtain ⟨_, _, _, houtc⟩ := placeMonitors_eq_ok hplace
  have hfst := houtc.primary_mem
  rw [hprimary] at hfst
  cases hfst
  refine ⟨fun hu => houtc.seamless_of_uniform hwhole hu hapart, fun axis hline hjoined => ?_⟩
  exact houtc.seamless_iff_of_line hwhole hline hjoined

/-- A monitor of a hundred logical units a side. -/
def squareMonitor (x y : Int) (side : Nat) : RequestedMonitor := ⟨x, y, side, side, .degrees0, 100, 100⟩

/-- A monitor of twice the density right of the primary. -/
theorem placed_seamlessly_pair : ∃ layout,
    placeMonitors [squareMonitor 0 0 100, squareMonitor 100 20 200] 0 .nativeNeedsTransform .preserveSigned =
      .ok layout ∧ Seamless [squareMonitor 0 0 100, squareMonitor 100 20 200] layout := by
  have hp : placeMonitors [squareMonitor 0 0 100, squareMonitor 100 20 200] 0 .nativeNeedsTransform
      .preserveSigned = .ok ⟨[⟨0, 0, 100, 100⟩, ⟨100, 20, 200, 200⟩], ⟨0, 0, 300, 220⟩, {}⟩ := by decide +kernel
  have hline : InLine .horizontal [squareMonitor 0 0 100, squareMonitor 100 20 200] := by
    unfold InLine
    decide
  have hjoined : Joined [squareMonitor 0 0 100, squareMonitor 100 20 200] 0 := by
    intro index hidx
    match index, hidx with
    | 0, _ => exact .refl
    | 1, _ => exact .single ⟨_, _, .right, rfl, rfl, by decide⟩
  refine ⟨_, hp, ((placed_seamlessly ?_ (by decide) rfl hp).2 .horizontal hline hjoined).mpr ?_⟩
  · intro mon hmon
    rcases List.mem_pair.mp hmon with rfl | rfl
    · exact ⟨1, by decide, rfl⟩
    · exact ⟨2, by decide, rfl⟩
  · intro anchor ha cand hc edge _ _
    rcases List.mem_pair.mp ha with rfl | rfl <;> rcases List.mem_pair.mp hc with rfl | rfl <;> decide

/-- Two monitors of twice the density, right of the primary and below it, end up on top of each other. -/
theorem placed_monitors_overlap :
    let monitors := [squareMonitor 0 0 100, squareMonitor 100 0 200, squareMonitor 0 100 200]
    (∀ mon ∈ monitors, mon.WholeMultiple .nativeNeedsTransform) ∧
    (monitors.Pairwise fun one other => one.logicalRect.Disjoint other.logicalRect) ∧
    ∃ layout, placeMonitors monitors 0 .nativeNeedsTransform .preserveSigned = .ok layout ∧
      layout.rects = [⟨0, 0, 100, 100⟩, ⟨100, 0, 200, 200⟩, ⟨0, 100, 200, 200⟩] ∧
      ¬layout.rects.Pairwise LayoutRect.Disjoint := by
  refine ⟨?_, by decide, ⟨_, ⟨0, 0, 300, 300⟩, {}⟩, by decide +kernel, rfl, by decide⟩
  intro mon hmon
  rcases List.mem_cons.mp hmon with rfl | hmon
  · exact ⟨1, by decide, rfl⟩
  rcases List.mem_pair.mp hmon with rfl | rfl
  · exact ⟨2, by decide, rfl⟩
  · exact ⟨2, by decide, rfl⟩

end Arcen
