import Arcen.SoftwareEncodeLoop

/-! Runs of the software encode loop: pictures of any geometry are staged, the cadence is asked and the retained picture
is encoded, in any order. -/

namespace Arcen

open SoftwareEncodeLoop List

inductive EncodeLoopCall where
  | stage (picture : BgraFrame)
  | decision (idrPending : Bool) (sinceEmit : Duration)
  | encode (mode : EmitMode) (answer : EncoderAnswer)

inductive EncodeLoopReply (geometry : SessionGeometry) where
  | staged (result : Except SoftwareSessionError StagedPicture)
  | decided (mode : Option EmitMode)
  | encoded (input : EncoderInput geometry)

variable {geometry : SessionGeometry}

def SoftwareEncodeLoop.step (loop : SoftwareEncodeLoop geometry) :
    EncodeLoopCall → SoftwareEncodeLoop geometry × EncodeLoopReply geometry
  | .stage picture => ((loop.stage picture).1, .staged (loop.stage picture).2)
  | .decision idrPending sinceEmit => (loop, .decided (loop.decision idrPending sinceEmit))
  | .encode mode answer => ((loop.encode mode answer).1, .encoded (loop.encode mode answer).2)

def softwareEncodeMachine (session : SoftwareH264Session geometry) (keepalive : Duration) (kernel : Option HashKernel) :
    Machine (SoftwareEncodeLoop geometry) EncodeLoopCall (EncodeLoopReply geometry) where
  init := .new session keepalive kernel
  step := step

def stagedPictures (calls : List EncodeLoopCall) : List BgraFrame := calls.filterMap fun
    | .stage picture => some picture
    | _ => none

/-! ### What happened in a run -/

section Entries

variable (entry : EncodeLoopCall × EncodeLoopReply geometry)

def StagedAs (picture : BgraFrame) : Prop := ∃ staged, entry = (.stage picture, .staged (.ok staged))

def StagedOne : Prop := ∃ picture, StagedAs entry picture

def StagedChanged : Prop := ∃ picture staged, entry = (.stage picture, .staged (.ok staged)) ∧ staged.changed = true

def StageFailed : Prop := ∃ picture error, entry = (.stage picture, .staged (.error error))

def ReturnedUnit : Prop := ∃ mode input, entry = (.encode mode .accessUnit, .encoded input)

end Entries

def LastStaged (log : List (EncodeLoopCall × EncodeLoopReply geometry)) (picture : BgraFrame) : Prop :=
  Since (StagedAs · picture) (fun entry => ¬StagedOne entry) log

theorem LastStaged.mem {log : List (EncodeLoopCall × EncodeLoopReply geometry)} (h : LastStaged log pic)
    : pic ∈ stagedPictures (log.map Prod.fst) := by
  obtain ⟨_, hmem, _, rfl⟩ := h.exists_mem
  exact mem_filterMap.mpr ⟨_, mem_map_of_mem hmem, rfl⟩

structure EncodeLoopRun (kernel : Option HashKernel) (transform : ColorTransform)
    (log : List (EncodeLoopCall × EncodeLoopReply geometry)) (loop : SoftwareEncodeLoop geometry) : Prop where
  colours : loop.session.transform = transform
  tracks : loop.Tracks kernel
  shown : ∀ picture, LastStaged log picture →
    picture.grid = geometry.grid ∧ loop.session.planes.Shows transform picture
  retained : loop.stagedAny = true → ∃ picture, LastStaged log picture ∧ loop.Retains picture
  standing : Since StagedOne (fun entry => ¬StageFailed entry) log → loop.stagedAny = true
  due : Since StagedChanged (fun entry => ¬ReturnedUnit entry) log →
    loop.cadence.hasFrame = true ∧ loop.cadence.dirty = true

namespace EncodeLoopRun

variable {kernel : Option HashKernel} {tf : ColorTransform}
  {log : List (EncodeLoopCall × EncodeLoopReply geometry)} {loop : SoftwareEncodeLoop geometry}

theorem start (session : SoftwareH264Session geometry) (keepalive : Duration) (kernel : Option HashKernel) :
    EncodeLoopRun kernel session.transform [] (.new session keepalive kernel) := by
  refine ⟨rfl, fun tracker ht => ?_, fun _ h => ?_, nofun, fun h => ?_, fun h => ?_⟩
  · obtain ⟨_, hhash, rfl⟩ := Option.map_eq_some_iff.mp ht
    exact ⟨rfl, hhash⟩
  · exact absurd h.exists_mem (by simp)
  · exact absurd h.exists_mem (by simp)
  · exact absurd h.exists_mem (by simp)

section

variable (h : EncodeLoopRun kernel tf log loop)
include h

variable {pic : BgraFrame} {call : EncodeLoopCall}

/-- A picture of another geometry is refused and nothing of it is kept. -/
theorem refused (hg : pic.grid ≠ geometry.grid) :
    EncodeLoopRun kernel tf (log ++ [(.stage pic, (loop.step (.stage pic)).2)]) (loop.step (.stage pic)).1 := by
  have hstage := stage_refused h.tracks hg
  simp only [step, hstage]
  refine ⟨h.colours, fun tracker ht => ?_, fun other hl => ?_, nofun, fun hs => ?_, fun hs => ?_⟩
  · obtain ⟨before, hp, rfl⟩ := Option.map_eq_some_iff.mp ht
    exact h.tracks before hp
  · exact h.shown other (hl.earlier nofun).2
  · exact absurd ⟨pic, _, rfl⟩ (hs.earlier nofun).1
  · exact h.due (hs.earlier nofun).2

theorem accepted (hg : pic.grid = geometry.grid) (hpict : pic ∈ pictures)
    (hp : ∀ other, LastStaged log other → other ∈ pictures)
    (hf : ∀ hash, kernel = some hash → CollisionFree hash geometry.grid pictures) :
    EncodeLoopRun kernel tf (log ++ [(.stage pic, (loop.step (.stage pic)).2)]) (loop.step (.stage pic)).1 := by
  obtain ⟨_, staged, hstage, hstag, htrk⟩ := stage_accepted h.tracks hg hpict hf fun hstaged => by
      obtain ⟨other, hl, hr⟩ := h.retained hstaged
      exact ⟨other, hp other hl, hr⟩
  simp only [step, hstage]
  have hshows := hstag.transform.trans h.colours ▸ hstag.retains.shows
  refine ⟨hstag.transform.trans h.colours, htrk, fun other hl => ?_, fun _ => ?_, fun _ => hstag.stagedAny,
    fun hs => ?_⟩
  · rcases since_concat.mp hl with ⟨_, hent⟩ | ⟨hk, -⟩
    · cases hent
      exact ⟨hg, hshows⟩
    · exact absurd ⟨pic, staged, rfl⟩ hk
  · exact ⟨pic, .now log ⟨staged, rfl⟩, hstag.retains⟩
  · rw [hstag.cadence]
    rcases since_concat.mp hs with ⟨_, _, hent, hc⟩ | ⟨-, hearly⟩
    · cases hent
      rw [if_pos hc]
      exact ⟨rfl, rfl⟩
    · have hdue := h.due hearly
      split_ifs
      · exact ⟨rfl, rfl⟩
      · exact hdue

/-- A call that stages nothing leaves the planes, the tracker and what was staged. -/
theorem other {next : SoftwareEncodeLoop geometry} (hcall : ∀ picture, call ≠ .stage picture)
    (hsess : next.session = loop.session) (ht : next.tracker = loop.tracker)
    (hstaged : next.stagedAny = loop.stagedAny) (hcade : ¬ReturnedUnit (call, reply) → next.cadence = loop.cadence) :
    EncodeLoopRun kernel tf (log ++ [(call, reply)]) next := by
  have hnot : ¬StagedOne (call, reply) := by
    rintro ⟨picture, _, hent⟩
    exact hcall picture (Prod.mk.inj hent).1
  have hl (picture : BgraFrame) : LastStaged (log ++ [(call, reply)]) picture ↔ LastStaged log picture :=
    ⟨fun hp => (hp.earlier fun hent => hnot ⟨picture, hent⟩).2, fun hp => hp.step hnot⟩
  refine ⟨hsess ▸ h.colours, fun tracker => ht ▸ h.tracks tracker, fun picture hlat => ?_, fun htrue => ?_,
    fun hs => ?_, fun hs => ?_⟩
  · rw [hsess]
    exact h.shown picture ((hl picture).mp hlat)
  · obtain ⟨picture, hp, hr⟩ := h.retained (hstaged ▸ htrue)
    refine ⟨picture, (hl picture).mpr hp, hr.grid, ?_, ?_⟩
    · rw [hsess]
      exact hr.shows
    · rw [ht]
      exact hr.held
  · rw [hstaged]
    exact h.standing (hs.earlier hnot).2
  · obtain ⟨hk, hp⟩ := hs.earlier fun ⟨picture, _, hent, _⟩ => hcall picture (Prod.mk.inj hent).1
    rw [hcade hk]
    exact h.due hp

theorem step (hf : ∀ hash, kernel = some hash →
      CollisionFree hash geometry.grid (stagedPictures (log.map Prod.fst ++ [call]))) :
    EncodeLoopRun kernel tf (log ++ [(call, (loop.step call).2)]) (loop.step call).1 := by
  cases call with
  | stage pic =>
    by_cases hg : pic.grid = geometry.grid
    · refine h.accepted hg ?_ (fun other hl => ?_) hf
      · simp [stagedPictures]
      · rw [stagedPictures, filterMap_append]
        exact mem_append_left _ hl.mem
    · exact h.refused hg
  | decision => exact h.other nofun rfl rfl rfl fun _ => rfl
  | encode mode =>
    refine h.other nofun rfl rfl rfl fun hn => ?_
    refine if_neg fun hansw => hn ?_
    subst hansw
    exact ⟨mode, _, rfl⟩

/-- Before the first staged picture the cadence is not asked. -/
theorem decision_none (hn : ∀ entry ∈ log, ¬StagedOne entry) (idrPending : Bool) (sinceEmit : Duration)
    : loop.decision idrPending sinceEmit = none := by
  refine if_pos ?_
  rw [Bool.not_eq_true', Bool.eq_false_iff]
  intro hstaged
  obtain ⟨pic, hl, -⟩ := h.retained hstaged
  obtain ⟨entry, hmem, hent⟩ := hl.exists_mem
  exact hn entry hmem ⟨pic, hent⟩

/-- A changed picture is due while it is retained. -/
theorem decision_some (hc : Since StagedChanged (fun entry => ¬ReturnedUnit entry ∧ ¬StageFailed entry) log)
    (idrPending : Bool) (sinceEmit : Duration) : (loop.decision idrPending sinceEmit).isSome = true := by
  have hstan := h.standing <| hc.mono
    (fun entry ⟨pic, staged, hent, _⟩ => ⟨pic, staged, hent⟩) fun entry hk => hk.2
  obtain ⟨hfr, hdirty⟩ := h.due (hc.mono (fun entry hent => hent) fun entry hk => hk.1)
  rw [decision, hstan]
  exact (IdleCadence.decision_isSome hfr idrPending sinceEmit).mpr (.inr (.inr (.inl hdirty)))

end

end EncodeLoopRun

section Runs

variable (session : SoftwareH264Session geometry) (keepalive : Duration) (kernel : Option HashKernel)

theorem CollisionFree.mono {hash : HashKernel} {grid : BlockGrid}
    (h : CollisionFree hash grid pictures) (hsubs : fewer ⊆ pictures) : CollisionFree hash grid fewer :=
  fun first hfst second hsnd => h first (hsubs hfst) second (hsubs hsnd)

variable (calls : List EncodeLoopCall)

theorem encodeLoopRun (hf : ∀ hash, kernel = some hash → CollisionFree hash geometry.grid (stagedPictures calls)) :
    EncodeLoopRun kernel session.transform ((softwareEncodeMachine session keepalive kernel).log calls)
      ((softwareEncodeMachine session keepalive kernel).exec calls) := by
  have hrun := (softwareEncodeMachine session keepalive kernel).log_invariant (P := fun log loop =>
      (∀ hash, kernel = some hash → CollisionFree hash geometry.grid (stagedPictures (log.map Prod.fst))) →
        EncodeLoopRun kernel session.transform log loop)
    (fun _ => .start session keepalive kernel)
    (fun log loop call ih hall => by
      rw [map_append, map_cons] at hall
      refine (ih fun hash hkern => (hall hash hkern).mono ?_).step hall
      rw [stagedPictures, stagedPictures, filterMap_append]
      exact subset_append_left _ _)
    calls
  rw [Machine.map_fst_log] at hrun
  exact hrun hf

/-- **The encoder holds the last picture.** After any run over pictures of any geometry, if the hashes tell the
contents of blocks of the staged pictures apart, the retained planes are those of a full conversion of the last picture
that was staged, every encode was of the picture staged last before it, the cadence asked for nothing before the first
staged picture, and once a changed picture was staged it asked for an encode until one returned an access unit or a
picture was refused. -/
theorem encode_loop_holds_last_picture
    (hfree : ∀ hash, kernel = some hash → CollisionFree hash geometry.grid (stagedPictures calls)) :
    (∀ picture, LastStaged ((softwareEncodeMachine session keepalive kernel).log calls) picture → ∀ planes,
      convertBgraToI420 session.transform picture planes =
        (((softwareEncodeMachine session keepalive kernel).exec calls).session.planes, .ok ())) ∧
      Throughout (fun before entry =>
          (∀ mode answer input picture, entry = (.encode mode answer, .encoded input) → LastStaged before picture →
            ∀ planes, convertBgraToI420 session.transform picture planes = (input.planes, .ok ())) ∧
          ∀ idrPending sinceEmit mode, entry = (.decision idrPending sinceEmit, .decided mode) →
            ((∀ earlier ∈ before, ¬StagedOne earlier) → mode = none) ∧
              (Since StagedChanged (fun later => ¬ReturnedUnit later ∧ ¬StageFailed later) before →
                mode.isSome = true))
        ((softwareEncodeMachine session keepalive kernel).log calls) := by
  constructor
  · intro picture hl planes
    obtain ⟨hg, hshown⟩ := (encodeLoopRun session keepalive kernel calls hfree).shown picture hl
    exact convertBgraToI420_eq planes hg hshown
  · intro before entry after hsplit
    obtain ⟨hcs, hlog, hrpl⟩ := Machine.log_split _ hsplit
    have hrun := encodeLoopRun session keepalive kernel (before.map Prod.fst) fun hash hkern =>
      (hfree hash hkern).mono (by
        rw [hcs, stagedPictures, stagedPictures, filterMap_append]
        exact subset_append_left _ _)
    rw [hlog] at hrun
    constructor
    · rintro mode answer input picture rfl hl planes
      obtain ⟨hg, hshown⟩ := hrun.shown picture hl
      cases hrpl
      exact convertBgraToI420_eq planes hg hshown
    · rintro idrPending sinceEmit mode rfl
      cases hrpl
      exact ⟨fun hn => hrun.decision_none hn idrPending sinceEmit,
        fun hc => hrun.decision_some hc idrPending sinceEmit⟩

end Runs

/-! ### Two pictures of two by two pixels, and one of another geometry -/

def tinyGeometry : SessionGeometry := ⟨2, 2, by decide, by decide⟩

/-- A picture with one grey value in its first component and zero elsewhere. -/
def tinyPicture (value : UInt8) : BgraFrame where
  pixels := value :: replicate 15 0
  grid := tinyGeometry.grid
  stride := 8
  strided := by decide
  filled := Nat.le_refl 16

def widePicture : BgraFrame where
  pixels := replicate 32 0
  grid := ⟨4, 2, by decide⟩
  stride := 16
  strided := by decide
  filled := by decide

def tinySession : SoftwareH264Session tinyGeometry where
  transform :=
    { isIdentity := true, lumaCoefficients := ⟨0, 0, 0⟩, cbCoefficients := ⟨0, 0, 0⟩, crCoefficients := ⟨0, 0, 0⟩,
      lumaOffset := 0, chromaCenter := 128, maxCode := 255, identityScale := 65536, identityOffset := 0 }
  planes := ⟨.replicate _ 0, .replicate _ 0, .replicate _ 0⟩

def firstByteKernel : HashKernel := fun frame _ => (byteAt frame.pixels 0).toUInt64

theorem second_tiny_picture_retained : convertBgraToI420 tinySession.transform (tinyPicture 8) tinySession.planes =
      (((softwareEncodeMachine tinySession 1 (some firstByteKernel)).exec
        [.stage (tinyPicture 4), .stage (tinyPicture 8)]).session.planes, .ok ()) := by
  refine (encode_loop_holds_last_picture tinySession 1 (some firstByteKernel)
    [.stage (tinyPicture 4), .stage (tinyPicture 8)] ?_).1 (tinyPicture 8) ?_ tinySession.planes
  · intro hash hkern
    cases hkern
    unfold CollisionFree
    decide +kernel
  · exact Since.now [_] ⟨⟨true, 1, true⟩, rfl⟩

/-- A refused picture withholds the changed one that is still to be encoded. -/
theorem refusal_withholds_changed_picture :
    CollisionFree firstByteKernel tinyGeometry.grid (stagedPictures [.stage (tinyPicture 4), .stage widePicture]) ∧
      Since StagedChanged (fun entry => ¬ReturnedUnit entry)
        ((softwareEncodeMachine tinySession 1 (some firstByteKernel)).log
          [.stage (tinyPicture 4), .stage widePicture]) ∧
      ((softwareEncodeMachine tinySession 1 (some firstByteKernel)).exec
        [.stage (tinyPicture 4), .stage widePicture]).decision false 0 = none := by
  refine ⟨?_, ⟨[], _, [_], rfl, ⟨tinyPicture 4, ⟨true, 1, true⟩, rfl, rfl⟩, ?_⟩, rfl⟩
  · unfold CollisionFree
    decide +kernel
  · intro later hlat
    rw [mem_singleton.mp hlat]
    rintro ⟨_, _, hent⟩
    cases hent

end Arcen
