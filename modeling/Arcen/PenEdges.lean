import Arcen.Machine
import Arcen.RegionInputState

/-! Pen edges (`input/pen_edges.rs`): what a host has to inject between two samples of a pen. The edges are read by a
strict device, which refuses an edge that does not change it or that a tablet could not report. -/

namespace Arcen

open List

deriving instance DecidableEq for PenTool

def maxBarrelButtons : Nat := 8

structure PenToolState where
  inProximity : Bool
  touching : Bool
  buttons : BitVec 16
  tool : PenTool

def PenToolState.released (tool : PenTool) : PenToolState := ⟨false, false, 0, tool⟩

inductive PenEdge where
  | toolIn (tool : PenTool)
  | toolOut (tool : PenTool)
  | tipDown
  | tipUp
  | barrel (index : Nat) (pressed : Bool)

def barrelEdge (changed current : BitVec 16) (index : Nat) : Option PenEdge :=
  let mask := 1#16 <<< index
  if changed &&& mask ≠ 0 then some (.barrel index (current &&& mask ≠ 0)) else none

def planBarrelEdges (previous current : BitVec 16) : List PenEdge :=
  let changed := previous ^^^ current
  if changed = 0 then [] else (range maxBarrelButtons).filterMap (barrelEdge changed current)

def releaseHeld (state : PenToolState) : List PenEdge :=
  planBarrelEdges state.buttons 0 ++ if state.touching then [.tipUp] else []

/-- The changes of a tool that is in. -/
def pressHeld (baseline : PenToolState) (touching : Bool) (buttons : BitVec 16) : List PenEdge :=
  planBarrelEdges baseline.buttons buttons ++
    if touching ≠ baseline.touching then [if touching then .tipDown else .tipUp] else []

def planPenEdges (previous : PenToolState) (tool : PenTool) (inProximity touching : Bool) (buttons : BitVec 16) :
    List PenEdge × PenToolState :=
  let (touching, buttons) := if inProximity then (touching, buttons) else (false, 0)
  let toolChanged := previous.inProximity && inProximity && previous.tool ≠ tool
  let leaving := previous.inProximity && !inProximity || toolChanged
  let releases := if leaving then releaseHeld previous ++ [.toolOut previous.tool] else []
  if leaving && !toolChanged then (releases, .released tool)
  else
    let entering := !previous.inProximity && inProximity || toolChanged
    let baseline := if entering then .released tool else previous
    let presses := if inProximity then pressHeld baseline touching buttons else []
    (releases ++ (if entering then [.toolIn tool] else []) ++ presses, ⟨inProximity, touching, buttons, tool⟩)

/-! ### The device -/

@[ext] structure PenDevice where
  tool : Option PenTool
  touching : Bool
  held : Nat → Bool

namespace PenDevice

def released : PenDevice := ⟨none, false, fun _ => false⟩

def apply (device : PenDevice) : PenEdge → Option PenDevice
  | .toolIn tool => if device.tool = none then some { device with tool := some tool } else none
  | .toolOut tool =>
    if device.tool = some tool ∧ device.touching = false ∧ ∀ index < maxBarrelButtons, device.held index = false then
      some { device with tool := none }
    else none
  | .tipDown => if device.tool ≠ none ∧ device.touching = false then some { device with touching := true } else none
  | .tipUp => if device.tool ≠ none ∧ device.touching then some { device with touching := false } else none
  | .barrel index pressed =>
    if device.tool ≠ none ∧ index < maxBarrelButtons ∧ device.held index ≠ pressed then
      some { device with held := Function.update device.held index pressed }
    else none

def drive (device : PenDevice) (edges : List PenEdge) : Option PenDevice := edges.foldlM apply device

end PenDevice

open PenDevice

def lowButtons (buttons : BitVec 16) (index : Nat) : Bool := index < maxBarrelButtons && buttons.getLsbD index

/-- The device a sample, or a remembered state, stands for. -/
def PenToolState.device (state : PenToolState) : PenDevice :=
  if state.inProximity then ⟨some state.tool, state.touching, lowButtons state.buttons⟩ else .released

/-- The planner with the state it remembers. A sample has the fields of a state. -/
def penPlanner (tool : PenTool) : Machine PenToolState PenToolState (List PenEdge) where
  init := .released tool
  step previous sample := (planPenEdges previous sample.tool sample.inProximity sample.touching sample.buttons).swap

/-! ### Edges on the device -/

theorem and_mask_ne_zero (buttons : BitVec 16) (h : index < maxBarrelButtons) :
    buttons &&& 1#16 <<< index ≠ 0 ↔ lowButtons buttons index := by
  have hmask := (by decide : ∀ index < maxBarrelButtons, BitVec.twoPow 16 index ≠ 0#16) index h
  rw [← BitVec.twoPow_eq, BitVec.and_twoPow, lowButtons, decide_eq_true h]
  split_ifs with hbit <;> simp [hbit, hmask]

theorem barrelEdge_eq (previous current : BitVec 16) (h : index < maxBarrelButtons) :
    barrelEdge (previous ^^^ current) current index = if lowButtons previous index = lowButtons current index then none
      else some (.barrel index (lowButtons current index)) := by
  simp only [barrelEdge, and_mask_ne_zero _ h]
  simp [lowButtons, h]

namespace PenDevice

theorem drive_cons (device : PenDevice) (edge : PenEdge) (edges : List PenEdge) :
    device.drive (edge :: edges) = (device.apply edge).bind (drive · edges) := rfl

theorem drive_append (device : PenDevice) (first second : List PenEdge) :
    device.drive (first ++ second) = (device.drive first).bind (drive · second) := foldlM_append

variable (tool : PenTool)

/-- The buttons below `n` are as in the new mask, and the others as before. -/
theorem drive_barrelEdges (touching : Bool) (previous current : BitVec 16) (hle : n ≤ maxBarrelButtons) :
    drive ⟨some tool, touching, lowButtons previous⟩ ((range n).filterMap (barrelEdge (previous ^^^ current) current)) =
      some ⟨some tool, touching, fun index => lowButtons (if index < n then current else previous) index⟩ := by
  induction n with
  | zero => rfl
  | succ n ih =>
    have hlt : n < maxBarrelButtons := hle
    have hset : (fun index => lowButtons (if index < n + 1 then current else previous) index) = Function.update
        (fun index => lowButtons (if index < n then current else previous) index) n (lowButtons current n) := by
      funext index
      by_cases hindex : index = n
      · simp [hindex]
      · simp only [Function.update_of_ne hindex, Nat.lt_add_one_iff_lt_or_eq, hindex, or_false]
    rw [range_succ, filterMap_append, drive_append, ih (Nat.le_of_succ_le hle), Option.bind_some, filterMap_cons, barrelEdge_eq _ _ hlt, hset]
    split_ifs with hbit
    · rw [Function.update_eq_self_iff.mpr (by simp [hbit])]
      rfl
    · simp only [drive_cons, apply]
      rw [if_pos ⟨nofun, hlt, by simpa using hbit⟩]
      rfl

theorem drive_barrels (touching : Bool) (previous current : BitVec 16) :
    drive ⟨some tool, touching, lowButtons previous⟩ (planBarrelEdges previous current) =
      some ⟨some tool, touching, lowButtons current⟩ := by
  rw [planBarrelEdges]
  split_ifs with hsame
  · rw [BitVec.xor_eq_zero_iff.mp hsame]
    rfl
  · rw [drive_barrelEdges tool touching previous current (Nat.le_refl _)]
    refine congrArg some (PenDevice.ext rfl rfl (funext fun index => ?_))
    by_cases h : index < maxBarrelButtons <;> simp [lowButtons, h]

theorem lowButtons_zero : lowButtons 0 = fun _ => false := by
  funext index
  simp [lowButtons]

theorem drive_press (state : PenToolState) (touching : Bool) (buttons : BitVec 16) :
    drive ⟨some tool, state.touching, lowButtons state.buttons⟩ (pressHeld state touching buttons) =
      some ⟨some tool, touching, lowButtons buttons⟩ := by
  rw [pressHeld, drive_append, drive_barrels]
  cases state.touching <;> cases touching <;> rfl

theorem drive_enter (touching : Bool) (buttons : BitVec 16) :
    released.drive (.toolIn tool :: pressHeld (.released tool) touching buttons) =
      some ⟨some tool, touching, lowButtons buttons⟩ := by
  rw [released, drive_cons, apply, if_pos rfl, ← lowButtons_zero]
  exact drive_press tool (.released tool) touching buttons

/-- What a tool holds is released before it leaves. -/
theorem drive_leave (state : PenToolState) :
    drive ⟨some state.tool, state.touching, lowButtons state.buttons⟩ (releaseHeld state ++ [.toolOut state.tool]) =
      some released := by
  rw [releaseHeld, drive_append, drive_append, drive_barrels, lowButtons_zero]
  cases state.touching <;> simp [drive, apply, released]

end PenDevice

/-- One sample takes the device from what is remembered to what the sample says. -/
theorem drive_planPenEdges (previous sample : PenToolState) :
    previous.device.drive ((penPlanner sample.tool).step previous sample).2 = some sample.device ∧
      ((penPlanner sample.tool).step previous sample).1.device = sample.device := by
  obtain ⟨_ | _, touched, held, tool⟩ := previous <;> obtain ⟨_ | _, touching, buttons, next⟩ := sample
  · exact ⟨rfl, rfl⟩
  · exact ⟨drive_enter next touching buttons, rfl⟩
  · exact ⟨drive_leave ⟨true, touched, held, tool⟩, rfl⟩
  · have hswap : drive ⟨some tool, touched, lowButtons held⟩ (releaseHeld ⟨true, touched, held, tool⟩ ++
        [.toolOut tool] ++ [.toolIn next] ++ pressHeld (.released next) touching buttons) =
        some ⟨some next, touching, lowButtons buttons⟩ := by
      rw [append_assoc, drive_append, drive_leave ⟨true, touched, held, tool⟩]
      exact drive_enter next touching buttons
    have hkeep := drive_press tool ⟨true, touched, held, tool⟩ touching buttons
    cases tool <;> cases next
    · exact ⟨hkeep, rfl⟩
    · exact ⟨hswap, rfl⟩
    · exact ⟨hswap, rfl⟩
    · exact ⟨hkeep, rfl⟩

/-- **Pen edges.** Over any samples the strict device takes every edge, and after each sample it is as the sample says. -/
theorem pen_edges_well_formed (tool : PenTool) (samples : List PenToolState) (sample : PenToolState) :
    released.drive (((penPlanner tool).log (samples ++ [sample])).flatMap Prod.snd) = some sample.device := by
  have hrun : released.drive (((penPlanner tool).log samples).flatMap Prod.snd) =
      some ((penPlanner tool).exec samples).device := by
    refine (penPlanner tool).log_invariant
      (P := fun log state => released.drive (log.flatMap Prod.snd) = some state.device) rfl ?_ samples
    intro log state next h
    rw [flatMap_append, drive_append, h, flatMap_singleton]
    exact (drive_planPenEdges state next).1.trans (congrArg some (drive_planPenEdges state next).2.symm)
  rw [Machine.log_concat, flatMap_append, drive_append, hrun, flatMap_singleton]
  exact (drive_planPenEdges _ sample).1

end Arcen
