import Arcen.DirtyRows
import Arcen.History

/-! The encode half of a software epoch (`shared/media/src/video/software_session.rs`, `software_loop.rs`): every
delivered picture is hashed, what changed of it is converted into the retained planes, and the idle cadence says when
the retained picture is encoded. The encoder is outside: what it answers stands in the call. -/

namespace Arcen

/-! ### The session -/

/-- What changed in a staged picture. -/
inductive StageDamage where
  | full
  | rows (map : DamageMap)
  | clean

inductive SoftwareSessionError where
  | conversion (error : ConversionError)

structure SoftwareH264Session (geometry : SessionGeometry) where
  transform : ColorTransform
  planes : I420Planes geometry

section Session

variable {geometry : SessionGeometry}

/-- The loop over dirty rows, which the first failure ends. -/
def convertEach (transform : ColorTransform) (source : BgraFrame) :
    List RowRange → I420Planes geometry → I420Planes geometry × Except ConversionError Unit
  | [], planes => (planes, .ok ())
  | rows :: rest, planes =>
    match convertBgraToI420Rows transform source planes rows with
    | (written, .ok ()) => convertEach transform source rest written
    | (written, .error error) => (written, .error error)

variable (session : SoftwareH264Session geometry)

def SoftwareH264Session.convert (source : BgraFrame) : StageDamage → I420Planes geometry × Except ConversionError Unit
  | .clean => (session.planes, .ok ())
  | .full => convertBgraToI420 session.transform source session.planes
  | .rows map => convertEach session.transform source map.dirtyBlockRows session.planes

def SoftwareH264Session.stage (source : BgraFrame) (damage : StageDamage) :
    SoftwareH264Session geometry × Except SoftwareSessionError Unit :=
  let (planes, result) := session.convert source damage
  ({ session with planes }, result.mapError .conversion)

variable {source : BgraFrame} {map : DamageMap}

theorem convertEach_converted (transform : ColorTransform) (list : List RowRange) (planes : I420Planes geometry)
    (hg : source.grid = geometry.grid)
    (hlist : ∀ rows ∈ list, (rows.start ≤ rows.stop ∧ rows.stop ≤ geometry.height) ∧
      rows.start % 2 = 0 ∧ rows.stop % 2 = 0) :
    ∃ written, convertEach transform source list planes = (written, .ok ()) ∧
      Converted transform source (fun rowPair => ∃ rows ∈ list, rows.start / 2 ≤ rowPair ∧ rowPair < rows.stop / 2)
        planes written := by
  induction list generalizing planes with
  | nil => exact ⟨planes, rfl, (Converted.none planes).of_iff fun _ => by simp⟩
  | cons rows rest ih =>
    obtain ⟨⟨hrng, heven⟩, hrest⟩ := List.forall_mem_cons.mp hlist
    obtain ⟨first, hfst, hc⟩ := convertBgraToI420Rows_converted transform _ planes hg hrng heven
    obtain ⟨written, hres, hlat⟩ := ih first hrest
    refine ⟨written, ?_, (hc.trans hlat).of_iff fun _ => List.exists_mem_cons_iff ..⟩
    rw [convertEach, hfst]
    exact hres

theorem DamageMap.Bands.valid (h : map.Bands rows first last) (hg : map.grid = geometry.grid) :
    (rows.start ≤ rows.stop ∧ rows.stop ≤ geometry.height) ∧ rows.start % 2 = 0 ∧ rows.stop % 2 = 0 := by
  obtain ⟨_, hin, hsts, hstops⟩ := h
  have heven := geometry.even.2
  rw [hg] at hin hstops
  have hh : geometry.grid.height = geometry.height := rfl
  have htall : last < (geometry.height + 16 - 1) / 16 := hin
  rw [hsts, hstops]
  unfold blockSize
  omega

theorem convertEach_shows {planes : I420Planes geometry}
    (hg : source.grid = geometry.grid) (hmap : map.grid = geometry.grid)
    (hcln : ∀ rowPair pair, rowPair < geometry.height / 2 → pair < geometry.width / 2 →
      map.rowIsDirty (rowPair * 2 / blockSize) = false →
        planes.HasCell rowPair pair (source.cell transform rowPair pair)) :
    ∃ written, convertEach transform source map.dirtyBlockRows planes = (written, .ok ()) ∧
      written.Shows transform source := by
  obtain ⟨written, hres, hc⟩ := convertEach_converted transform map.dirtyBlockRows planes hg fun rows hmem => by
      obtain ⟨first, last, hbands⟩ := DamageMap.mem_dirtyBlockRowsFrom hmem
      exact hbands.valid hmap
  refine ⟨written, hres, fun rowPair pair hr hp => ?_⟩
  cases hdirty : map.rowIsDirty (rowPair * 2 / blockSize) with
  | false => exact hc.keeps hp (hcln rowPair pair hr hp hdirty)
  | true =>
    obtain ⟨rows, hmem, _, _, hbands, hfst, hlast⟩ :=
      DamageMap.dirtyBlockRowsFrom_covers (map.grid.blocksTall + 1) 0 (by omega) (Nat.zero_le _) hdirty
    have hh : map.grid.height = geometry.height := by rw [hmap, SessionGeometry.grid]
    have hsts := hbands.starts
    have hstops := hbands.stops
    unfold blockSize at hfst hlast hsts hstops
    exact hc.written rowPair pair ⟨rows, hmem, by omega, by omega⟩ hp

end Session

/-! ### The loop -/

structure StagedPicture where
  /-- The picture differs from the retained one. -/
  changed : Bool
  dirtyBlocks : Nat
  /-- The whole picture was converted. -/
  full : Bool

structure SoftwareEncodeLoop (geometry : SessionGeometry) where
  session : SoftwareH264Session geometry
  tracker : Option DamageTracker
  cadence : IdleCadence
  stagedAny : Bool

def stagedPicture (stagedAny : Bool) : Option (Except KeelError DamageSummary) → StagedPicture
  | some (.ok summary) =>
    if !stagedAny || summary.isFullDamage then ⟨true, summary.dirtyBlocks, true⟩
    else if summary.isClean then ⟨false, 0, false⟩
    else ⟨true, summary.dirtyBlocks, false⟩
  -- no tracker, or a geometry it refused
  | _ => ⟨true, 0, true⟩

def stageDamage (staged : StagedPicture) (tracker : Option DamageTracker) : StageDamage :=
  match staged.changed, staged.full, tracker with
  | false, _, _ => .clean
  | true, false, some tracker => .rows tracker.damageMap
  | true, _, _ => .full

/-- What the encoder answers: an error, a skip, or an access unit. -/
inductive EncoderAnswer where
  | failed
  | skipped
  | accessUnit
  deriving DecidableEq

structure EncoderInput (geometry : SessionGeometry) where
  forceIdr : Bool
  planes : I420Planes geometry

namespace SoftwareEncodeLoop

variable {geometry : SessionGeometry}

/-- A loop over a session; there is no kernel where the damage tracker could not be made. -/
def new (session : SoftwareH264Session geometry) (keepalive : Duration) (kernel : Option HashKernel) :
    SoftwareEncodeLoop geometry where
  session := session
  tracker := kernel.map (.new geometry.grid)
  cadence := .new keepalive
  stagedAny := false

variable (loop : SoftwareEncodeLoop geometry)

def finishStage (staged : StagedPicture) : SoftwareH264Session geometry × Except SoftwareSessionError Unit →
      SoftwareEncodeLoop geometry × Except SoftwareSessionError StagedPicture
  | (session, .error error) =>
    ({ loop with session, tracker := loop.tracker.map DamageTracker.reset, stagedAny := false }, .error error)
  | (session, .ok ()) =>
    ({ loop with
        session
        stagedAny := true
        cadence := if staged.changed then loop.cadence.noteFrame else loop.cadence }, .ok staged)

def stage (loop : SoftwareEncodeLoop geometry) (frame : BgraFrame) :
    SoftwareEncodeLoop geometry × Except SoftwareSessionError StagedPicture :=
  let updated := loop.tracker.map fun tracker => tracker.update frame
  let staged := stagedPicture loop.stagedAny (updated.map Prod.snd)
  let tracker := updated.map Prod.fst
  { loop with tracker }.finishStage staged (loop.session.stage frame (stageDamage staged tracker))

def decision (loop : SoftwareEncodeLoop geometry) (idrPending : Bool) (sinceEmit : Duration) : Option EmitMode :=
  if !loop.stagedAny then none else loop.cadence.decision idrPending sinceEmit

def encode (mode : EmitMode) (answer : EncoderAnswer) : SoftwareEncodeLoop geometry × EncoderInput geometry :=
  ({ loop with cadence := if answer = .accessUnit then loop.cadence.onSubmitted else loop.cadence },
    ⟨mode.isKeyframe, loop.session.planes⟩)

/-! ### What staging leaves -/

def Tracks (kernel : Option HashKernel) : Prop :=
  ∀ tracker, loop.tracker = some tracker → tracker.grid = geometry.grid ∧ kernel = some tracker.kernel

structure Retains (loop : SoftwareEncodeLoop geometry) (picture : BgraFrame) : Prop where
  grid : picture.grid = geometry.grid
  shows : loop.session.planes.Shows loop.session.transform picture
  held : ∀ tracker, loop.tracker = some tracker → tracker.Holds picture

structure Stages (loop : SoftwareEncodeLoop geometry) (frame : BgraFrame) (next : SoftwareEncodeLoop geometry)
    (staged : StagedPicture) : Prop where
  transform : next.session.transform = loop.session.transform
  retains : next.Retains frame
  stagedAny : next.stagedAny = true
  cadence : next.cadence = if staged.changed then loop.cadence.noteFrame else loop.cadence

variable {loop : SoftwareEncodeLoop geometry} {frame : BgraFrame}

variable {kernel : Option HashKernel} {pictures : List BgraFrame}

theorem stage_refused (htrk : loop.Tracks kernel) (hg : frame.grid ≠ geometry.grid) : loop.stage frame =
      ({ loop with tracker := loop.tracker.map DamageTracker.reset, stagedAny := false },
        .error (.conversion .geometryMismatch)) := by
  have hsess : loop.session.stage frame .full = (loop.session, .error (.conversion .geometryMismatch)) := by
    rw [SoftwareH264Session.stage, SoftwareH264Session.convert, convertBgraToI420, convertBgraToI420Rows_mismatch _ hg]
    rfl
  unfold stage
  cases ht : loop.tracker with
  | none =>
    simp only [Option.map_none, stagedPicture, stageDamage, hsess]
    rfl
  | some tracker =>
    have hupd : tracker.update frame = (tracker, .error (.geometryChanged tracker.grid frame.grid)) :=
      if_pos fun heq => hg (heq.trans (htrk tracker ht).1)
    simp only [Option.map_some, hupd, stagedPicture, stageDamage, hsess]
    rfl

theorem finishStage_stages (loop : SoftwareEncodeLoop geometry) {tracker : Option DamageTracker}
    (staged : StagedPicture) {damage : StageDamage} (hg : frame.grid = geometry.grid)
    (hconve : loop.session.convert frame damage = (written, .ok ()))
    (hshows : written.Shows loop.session.transform frame)
    (hheld : ∀ watching, tracker = some watching →
      watching.Holds frame ∧ watching.grid = geometry.grid ∧ kernel = some watching.kernel) :
    ∃ next staged', { loop with tracker }.finishStage staged (loop.session.stage frame damage) = (next, .ok staged') ∧
      loop.Stages frame next staged' ∧ next.Tracks kernel := by
  rw [SoftwareH264Session.stage, hconve]
  exact ⟨_, staged, rfl, ⟨rfl, ⟨hg, hshows, fun _ h => (hheld _ h).1⟩, rfl, rfl⟩, fun _ h => (hheld _ h).2⟩

/-- Where the next picture is not dirty, the planes already show it. -/
theorem Retains.clean_cell {tracker : DamageTracker} {pic : BgraFrame} (h : loop.Retains pic)
    (ht : loop.tracker = some tracker) (hw : tracker.grid = geometry.grid)
    (hfree : CollisionFree tracker.kernel geometry.grid pictures) (hpict : pic ∈ pictures) (hfr : frame ∈ pictures)
    (hg : frame.grid = geometry.grid) (hr : rowPair < geometry.height / 2) (hp : pair < geometry.width / 2)
    (hcln : rowIsDirty tracker.grid (tracker.dirtyBlocks frame) (rowPair * 2 / blockSize) = false) :
    loop.session.planes.HasCell rowPair pair (frame.cell loop.session.transform rowPair pair) := by
  have hh : tracker.grid.height = geometry.height := by rw [hw, SessionGeometry.grid]
  rw [← (h.held tracker ht).cell_eq (by rwa [hw]) hpict hfr (h.grid.trans hw.symm)
    (hg.trans hw.symm) (by omega) hcln]
  exact h.shows rowPair pair hr hp

/-- **A picture of the geometry.** It is staged, and from then on retained, if the picture retained before it, with
the hashes of which it is compared, can be told apart from it. -/
theorem stage_accepted (htrk : loop.Tracks kernel) (hg : frame.grid = geometry.grid) (hfr : frame ∈ pictures)
    (hfree : ∀ hash, kernel = some hash → CollisionFree hash geometry.grid pictures)
    (hreta : loop.stagedAny = true → ∃ pic ∈ pictures, loop.Retains pic) :
    ∃ next staged, loop.stage frame = (next, .ok staged) ∧ loop.Stages frame next staged ∧ next.Tracks kernel := by
  obtain ⟨converted, hconve, hc⟩ := convertBgraToI420_shows loop.session.transform loop.session.planes hg
  unfold stage
  cases ht : loop.tracker with
  | none =>
    exact finishStage_stages loop _ hg (show loop.session.convert frame .full = _ from hconve) hc nofun
  | some tracker =>
    obtain ⟨hw, hkern⟩ := htrk tracker ht
    obtain ⟨watching, summary, hupd, ha, hbits⟩ := DamageTracker.update_of_grid (hg.trans hw.symm)
    have hheld : ∀ other, some watching = some other →
        other.Holds frame ∧ other.grid = geometry.grid ∧ kernel = some other.kernel := by
      rintro _ ⟨⟩
      rw [ha.grid, ha.kernel]
      exact ⟨ha.holds, hw, hkern⟩
    -- what is left is to find the conversion the damage asks for
    suffices hdone : ∃ written,
        loop.session.convert frame (stageDamage (stagedPicture loop.stagedAny (some (.ok summary))) (some watching)) =
          (written, .ok ()) ∧ written.Shows loop.session.transform frame by
      obtain ⟨_, hwrit, hshows⟩ := hdone
      simp only [Option.map_some, hupd]
      exact finishStage_stages loop _ hg hwrit hshows hheld
    rw [stagedPicture]
    split_ifs with hfull hcln
    · exact ⟨converted, hconve, hc⟩
    all_goals obtain ⟨_, hpict, hretai⟩ := hreta (by by_contra hn; exact hfull (by simp [hn]))
    · exact ⟨loop.session.planes, rfl, fun rowPair pair hr hp =>
        hretai.clean_cell ht hw (hfree _ hkern) hpict hfr hg hr hp (ha.rowIsDirty_eq_false hcln _)⟩
    · refine convertEach_shows hg (ha.grid.trans hw) fun rowPair pair hr hp hrowClean => ?_
      rw [DamageTracker.damageMap, ha.grid, hbits] at hrowClean
      exact hretai.clean_cell ht hw (hfree _ hkern) hpict hfr hg hr hp hrowClean

end SoftwareEncodeLoop
end Arcen
