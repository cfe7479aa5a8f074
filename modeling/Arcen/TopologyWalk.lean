import Arcen.TopologyPlacement

/-! What the breadth-first walk over the touching monitors does: it only ever adds a position, found by a hop from a
placed monitor, and when it ends everything that touches a placed monitor is placed. -/

namespace Arcen

open List

variable {conv : TransformConvention} {mons : List RequestedMonitor}

/-- The two indices name monitors that touch. -/
def Touching (monitors : List RequestedMonitor) (first second : Nat) : Prop :=
  ∃ anchor candidate edge, monitors[first]? = some anchor ∧ monitors[second]? = some candidate ∧
    touchingEdge anchor.logicalRect candidate.logicalRect = some edge

def Hop (convention : TransformConvention) (monitors : List RequestedMonitor) (placed : Placed)
    (anchorIndex index : Nat) (place : Int × Int) : Prop :=
  ∃ anchor candidate position edge, monitors[anchorIndex]? = some anchor ∧ monitors[index]? = some candidate ∧
    placed anchorIndex = some position ∧ touchingEdge anchor.logicalRect candidate.logicalRect = some edge ∧
    placeAgainst convention anchor candidate position edge = .ok place

variable {placed : Placed} {index : Nat} {anchor : RequestedMonitor} {pos : Int × Int}
  {state next : Placed × List Nat} {cand : RequestedMonitor × Nat} {prim : Nat}

theorem isSome_update : (Function.update placed index (some place) other).isSome = true ↔
      other = index ∨ (placed other).isSome = true := by
  by_cases heq : other = index
  · simp [heq]
  · simp [heq]

theorem visit_cases (h : visit conv anchor pos state cand = .ok next) :
    (next = state ∧ ((state.1 cand.2).isSome = true ∨ touchingEdge anchor.logicalRect cand.1.logicalRect = none)) ∨
    ∃ edge place, state.1 cand.2 = none ∧ touchingEdge anchor.logicalRect cand.1.logicalRect = some edge ∧
      placeAgainst conv anchor cand.1 pos edge = .ok place ∧
      next = (Function.update state.1 cand.2 (some place), state.2 ++ [cand.2]) := by
  unfold visit at h
  split_ifs at h with hp
  · exact .inl ⟨(Except.ok.inj h).symm, .inl hp⟩
  · cases hedge : touchingEdge anchor.logicalRect cand.1.logicalRect with
    | none =>
      rw [hedge] at h
      exact .inl ⟨(Except.ok.inj h).symm, .inr rfl⟩
    | some edge =>
      rw [hedge] at h
      cases hplace : placeAgainst conv anchor cand.1 pos edge with
      | error =>
        simp only [hplace] at h
        cases h
      | ok place =>
        simp only [hplace] at h
        exact .inr ⟨edge, place, Option.not_isSome_iff_eq_none.mp hp, rfl, hplace, (Except.ok.inj h).symm⟩

/-! ### Invariants of the walk -/

section Invariant

variable {I : Placed → Prop} (hh : ∀ placed idx index place, I placed → placed index = none →
    Hop conv mons placed idx index place → I (Function.update placed index (some place)))

include hh

theorem visits_invariant (ha : mons[idx]? = some anchor) {state next : Placed × List Nat} (hst : I state.1)
    (hpos : state.1 idx = some pos) (h : mons.zipIdx.foldlM (visit conv anchor pos) state = .ok next) : I next.1 := by
  -- the anchor keeps its pos, because only unplaced mons are visited
  have hboth := exceptFoldlM_invariant (I := fun state => I state.1 ∧ state.1 idx = some pos)
    (fun state cand next hmem hst hv => ?_) ⟨hst, hpos⟩ h
  · exact hboth.1
  obtain ⟨hinv, hpos⟩ := hst
  rcases visit_cases hv with ⟨rfl, -⟩ | ⟨edge, place, hunpl, ht, hfl, rfl⟩
  · exact ⟨hinv, hpos⟩
  · have hc := mem_zipIdx_iff_getElem?.mp hmem
    have hne : idx ≠ cand.2 := by
      rintro rfl
      rw [hunpl] at hpos
      cases hpos
    refine ⟨hh _ idx _ _ hinv hunpl ?_, ?_⟩
    · exact ⟨anchor, cand.1, pos, edge, ha, hc, hpos, ht, hfl⟩
    · exact (Function.update_of_ne hne _ _).trans hpos

/-- **Walk rule.** What every hop keeps, the walk keeps. -/
theorem walk_invariant (hst : I state.1) (h : walk conv mons turns state = .ok placed) : I placed := by
  induction turns generalizing state with
  | zero => exact Except.ok.inj h ▸ hst
  | succ turns ih =>
    obtain ⟨found, queue⟩ := state
    cases queue with
    | nil => exact Except.ok.inj h ▸ hst
    | cons idx queue =>
      rw [walk] at h
      split at h
      · rename_i anchor pos ha hpos
        obtain ⟨_, hvisits, hr⟩ := exceptBind_eq_ok.mp h
        have hfnd : I (found, queue).1 := hst
        exact ih (visits_invariant hh ha hfnd hpos hvisits) hr
      · have hfnd : I (found, queue).1 := hst
        exact ih hfnd h

end Invariant

/-! ### The walk reaches everything -/

/-- The monitors without a position. -/
def unplaced (monitors : List RequestedMonitor) (placed : Placed) : Nat :=
  (List.range monitors.length).countP fun index => (placed index).isNone

theorem unplaced_update (hidx : index < mons.length) (hn : placed index = none) (place : Int × Int) :
    unplaced mons (Function.update placed index (some place)) + 1 = unplaced mons placed := by
  have hperm := perm_cons_erase (mem_range.mpr hidx)
  have hrest : ((List.range mons.length).erase index).countP
      (fun other => (Function.update placed index (some place) other).isNone) =
      ((List.range mons.length).erase index).countP fun other => (placed other).isNone := by
    refine countP_congr fun other ho => ?_
    rw [Function.update_of_ne (List.nodup_range.mem_erase_iff.mp ho).1]
  rw [unplaced, unplaced, hperm.countP_eq, hperm.countP_eq, countP_cons, hrest]
  simp [hn]

/-- Every placed monitor is still to be visited from, or all that touches it is placed. -/
def Explored (monitors : List RequestedMonitor) (placed : Placed) (queue : List Nat) : Prop :=
  ∀ first, (placed first).isSome = true → first ∈ queue ∨
    ∀ second, Touching monitors first second → (placed second).isSome = true

/-- What the visits from one anchor have done after some of the candidates. -/
structure Visited (monitors : List RequestedMonitor) (start state : Placed × List Nat) : Prop where
  kept : ∀ index, (start.1 index).isSome = true → (state.1 index).isSome = true
  queued : start.2 ⊆ state.2
  fresh : ∀ index, (state.1 index).isSome = true → (start.1 index).isSome = true ∨ index ∈ state.2
  counted : unplaced monitors state.1 + state.2.length = unplaced monitors start.1 + start.2.length

theorem Visited.refl (start : Placed × List Nat) : Visited mons start start :=
  ⟨fun _ h => h, List.Subset.refl _, fun _ h => .inl h, rfl⟩

theorem Visited.visit (hc : mons[cand.2]? = some cand.1) (h : Visited mons start state)
    (hv : visit conv anchor pos state cand = .ok next) : Visited mons start next := by
  rcases visit_cases hv with ⟨rfl, -⟩ | ⟨edge, place, hunpl, -, -, rfl⟩
  · exact h
  have hidx : cand.2 < mons.length := (List.getElem?_eq_some_iff.mp hc).1
  have hcnt := unplaced_update hidx hunpl place
  refine ⟨fun index hstart => isSome_update.mpr (.inr (h.kept index hstart)), ?_, fun index hnext => ?_, ?_⟩
  · exact List.Subset.trans h.queued (subset_append_left _ _)
  · rcases isSome_update.mp hnext with rfl | hold
    · exact .inr (mem_append_right _ mem_cons_self)
    · exact (h.fresh index hold).imp_right fun hmem => mem_append_left _ hmem
  · have hcoun := h.counted
    simp only [length_append, length_singleton]
    omega

/-- After the visits everything that touches the anchor is placed. -/
theorem visits_reach (candidates : List (RequestedMonitor × Nat))
    (h : candidates.foldlM (visit conv anchor pos) state = .ok next) (hmem : cand ∈ candidates)
    (ht : (touchingEdge anchor.logicalRect cand.1.logicalRect).isSome = true) : (next.1 cand.2).isSome = true := by
  induction candidates generalizing state with
  | nil => cases hmem
  | cons first candidates ih =>
    rw [foldlM_cons, exceptBind_eq_ok] at h
    obtain ⟨_, hf, hr⟩ := h
    rcases mem_cons.mp hmem with rfl | hmem
    · -- once placed, a monitor stays placed for the rest of the loop
      refine exceptFoldlM_invariant (I := fun state => (state.1 cand.2).isSome = true)
        (fun state other next _ hp hv => ?_) ?_ hr
      · rcases visit_cases hv with ⟨rfl, -⟩ | ⟨_, place, -, -, -, rfl⟩
        · exact hp
        · exact isSome_update.mpr (.inr hp)
      · rcases visit_cases hf with ⟨rfl, hp | hn⟩ | ⟨_, place, -, -, -, rfl⟩
        · exact hp
        · rw [hn] at ht
          cases ht
        · exact isSome_update.mpr (.inl rfl)
    · exact ih hr hmem

theorem visits_explored (ha : mons[idx]? = some anchor) (hexpl : Explored mons placed (idx :: queue))
    (hvisi : Visited mons (placed, queue) next)
    (h : mons.zipIdx.foldlM (visit conv anchor pos) (placed, queue) = .ok next) : Explored mons next.1 next.2 := by
  intro first hf
  rcases hvisi.fresh first hf with hold | hnew
  · rcases hexpl first hold with hmem | hcl
    · rcases mem_cons.mp hmem with rfl | hmem
      · refine .inr fun second ⟨other, cand, edge, ho, hc, ht⟩ => ?_
        rw [ha] at ho
        cases ho
        have hmem : (cand, second) ∈ mons.zipIdx := mem_zipIdx_iff_getElem?.mpr hc
        exact visits_reach mons.zipIdx h hmem (by rw [ht]; rfl)
      · exact .inl (hvisi.queued hmem)
    · exact .inr fun second htouc => hvisi.kept second (hcl second htouc)
  · exact .inl hnew

/-- **Closure.** With a turn for every unplaced and every queued monitor the walk leaves nothing touching unplaced. -/
theorem walk_explored (hturns : unplaced mons state.1 + state.2.length ≤ turns) (hst : Explored mons state.1 state.2)
    (h : walk conv mons turns state = .ok placed) : Explored mons placed [] := by
  induction turns generalizing state with
  | zero =>
    have hemp : state.2 = [] := eq_nil_of_length_eq_zero (by omega)
    rw [← Except.ok.inj h, ← hemp]
    exact hst
  | succ turns ih =>
    obtain ⟨found, queue⟩ := state
    cases queue with
    | nil => exact Except.ok.inj h ▸ hst
    | cons idx queue =>
      simp only [length_cons] at hturns
      rw [walk] at h
      split at h
      · rename_i anchor pos ha hpos
        obtain ⟨next, hvisits, hr⟩ := exceptBind_eq_ok.mp h
        have hvisi : Visited mons (found, queue) next := exceptFoldlM_invariant (fun _ _ _ hmem hst hv =>
            hst.visit (mem_zipIdx_iff_getElem?.mp hmem) hv) (.refl _) hvisits
        refine ih ?_ (visits_explored ha hst hvisi hvisits) hr
        have hcoun := hvisi.counted
        simp only at hcoun
        omega
      · rename_i hskip
        have hfewer : unplaced mons found + queue.length ≤ turns := by omega
        refine ih hfewer (fun first hf => ?_) h
        rcases hst first hf with hmem | hcl
        · rcases mem_cons.mp hmem with rfl | hmem
          · -- a queued index without a monitor touches nothing
            refine .inr fun second ⟨anchor, _, _, ha, _⟩ => ?_
            obtain ⟨pos, hpos⟩ := Option.isSome_iff_exists.mp hf
            exact absurd hpos (hskip anchor pos ha)
          · exact .inl hmem
        · exact .inr hcl

theorem primaryPlaced_eq_some : primaryPlaced prim index = some place ↔ index = prim ∧ (0, 0) = place := by
  unfold primaryPlaced
  by_cases heq : index = prim
  · simp [heq]
  · simp [heq]

theorem isSome_primaryPlaced : (primaryPlaced primaryIndex index).isSome = true ↔ index = primaryIndex := by
  unfold primaryPlaced
  rw [isSome_update]
  simp

theorem unplaced_primaryPlaced (hprim : prim < mons.length) :
    unplaced mons (primaryPlaced prim) + 1 ≤ mons.length := by
  have hn : (fun _ => none : Placed) prim = none := rfl
  unfold primaryPlaced
  rw [unplaced_update hprim hn]
  exact List.countP_le_length.trans_eq length_range

section Start

variable {prim : Nat} {placed : Placed} (hprim : prim < mons.length)
  (h : walk conv mons mons.length (primaryPlaced prim, [prim]) = .ok placed)

include hprim h

/-- The walk from the primary places every monitor that a chain of touching monitors joins to it. -/
theorem walk_reaches (hch : Relation.ReflTransGen (Touching mons) prim index) : (placed index).isSome = true := by
  have hexpl : Explored mons placed [] := by
    refine walk_explored (unplaced_primaryPlaced hprim) (fun first hf => ?_) h
    rw [isSome_primaryPlaced.mp hf]
    exact .inl mem_cons_self
  have hstart : (placed prim).isSome = true := walk_invariant (I := fun placed => (placed prim).isSome = true)
      (fun _ _ _ _ hp _ _ => isSome_update.mpr (.inr hp)) (isSome_primaryPlaced.mpr rfl) h
  induction hch with
  | refl => exact hstart
  | tail _ htouc ih => exact (hexpl _ ih).resolve_left not_mem_nil _ htouc

omit hprim in
/-- **Position rule.** What the primary's position has and every hop hands on, every position found has. -/
theorem walk_positions {Q : Nat → Int × Int → Prop} (hprim : Q prim (0, 0))
    (hh : ∀ placed idx index place, (∀ other spot, placed other = some spot → Q other spot) →
      Hop conv mons placed idx index place → Q index place)
    (hplace : placed index = some place) : Q index place := by
  refine walk_invariant (I := fun placed => ∀ other spot, placed other = some spot → Q other spot) ?_ ?_ h _ _ hplace
  · intro placed idx index place hinv _ hfnd other spot hs
    by_cases heq : other = index
    · subst heq
      rw [Function.update_self] at hs
      exact Option.some.inj hs ▸ hh _ _ _ _ hinv hfnd
    · rw [Function.update_of_ne heq] at hs
      exact hinv _ _ hs
  · intro other spot hs
    obtain ⟨rfl, rfl⟩ := primaryPlaced_eq_some.mp hs
    exact hprim

end Start

end Arcen
