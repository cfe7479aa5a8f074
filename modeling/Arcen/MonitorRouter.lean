import Arcen.Fallible
import Arcen.NonZero
import Arcen.VideoHeader

/-! Routing of video frames to the decoders of several monitors (`pipeline/monitor_router.rs`, with the admission fence
of `media/region_frame.rs`). A frame that the decoder rejects puts its monitor into recovery; a frame that the fence
rejects leaves the monitor as it was. -/

namespace Arcen

open Function

inductive MonitorRoute where
  | legacyPrimary
  | negotiated (id : NonZero UInt16)
  deriving DecidableEq

def MonitorRoute.fromWireMonitorId (wireMonitorId : UInt16) : MonitorRoute :=
  match NonZero.new wireMonitorId with
  | some id => .negotiated id
  | none => .legacyPrimary

def MonitorRoute.wireMonitorId : MonitorRoute → UInt16
  | .legacyPrimary => 0
  | .negotiated id => id.get

inductive RegionFrameAdmissionError where
  | unroutedMonitor (wireMonitorId : UInt16)
  | staleGeneration (expected actual : UInt64)
  | staleStreamEpoch (expected actual : UInt64)
  | wireProfileMismatch (monitorId : UInt16)

structure RegionMediaPlan where
  streamEpoch : NonZero UInt64
  codec : VideoCodec
  chroma : ChromaSubsampling

def wireProfileMatches (header : VideoHeader) (plan : RegionMediaPlan) : Bool := (match header.codec, plan.codec with
    | .jpeg, .jpeg | .h264, .h264 | .h265, .h265 | .vp9, .vp9 | .av1, .av1 => true
    | _, _ => false) &&
  match header.chroma, plan.chroma with
    | .yuv420, .yuv420 | .yuv422, .yuv422 | .yuv444, .yuv444 => true
    | _, _ => false

/-- The routes of a session, some with an advertised media plan. -/
structure RegionFrameRoster where
  generation : NonZero UInt64
  routes : MonitorRoute → Option (Option RegionMediaPlan)

namespace RegionFrameRoster

variable (roster : RegionFrameRoster)

def admitRoute (generation : NonZero UInt64) (route : MonitorRoute) : Except RegionFrameAdmissionError Unit := do
  refuseWhen (generation ≠ roster.generation) (.staleGeneration roster.generation.get generation.get)
  refuseWhen (roster.routes route).isNone (.unroutedMonitor route.wireMonitorId)

/-- The checks against the plan of the route, if it has one. -/
def admitPlan (header : VideoHeader) : Option RegionMediaPlan → Except RegionFrameAdmissionError Unit
  | none => .ok ()
  | some plan => do
    let expected := plan.streamEpoch.get
    let actual ← orError (.staleStreamEpoch expected header.streamEpoch) (NonZero.new header.streamEpoch)
    refuseWhen (actual ≠ plan.streamEpoch) (.staleStreamEpoch expected actual.get)
    refuseWhen (!wireProfileMatches header plan) (.wireProfileMismatch header.monitorId)

def admitFrame (header : VideoHeader) : Except RegionFrameAdmissionError MonitorRoute := do
  let route := MonitorRoute.fromWireMonitorId header.monitorId
  let generation ← orError (.staleGeneration roster.generation.get header.topologyGeneration)
    (NonZero.new header.topologyGeneration)
  roster.admitRoute generation route
  admitPlan header (roster.routes route).join
  return route

end RegionFrameRoster

variable {δ φ ε : Type}

/-- What the router asks of a decoder. -/
structure VideoDecoderBackend (δ φ ε : Type) where
  decode : δ → VideoHeader → List UInt8 → δ × Except ε (Option φ)
  wantsKeyframe : δ → Bool

structure MonitorSlot (δ φ : Type) where
  decoder : δ
  latestFrame : Option φ := none
  framesRouted : Nat := 0
  framesRejected : Nat := 0
  waitingForKeyframe : Bool := true

inductive RouteError (ε : Type) where
  | admission (error : RegionFrameAdmissionError)
  | decode (error : ε)

inductive RouteOutcome where
  | freshFrame
  | noOutputYet

/-- Every route of the roster has a slot, whatever was done to the slots. -/
structure MonitorFrameRouter (δ φ : Type) where
  admission : RegionFrameRoster
  slots : MonitorRoute → Option (MonitorSlot δ φ)
  routed : ∀ route, (slots route).isSome = (admission.routes route).isSome

def MonitorFrameRouter.fromAdmission (admission : RegionFrameRoster) (decoderForRoute : MonitorRoute → δ) :
    MonitorFrameRouter δ φ where
  admission
  slots route := (admission.routes route).map fun _ => { decoder := decoderForRoute route }
  routed _ := Option.isSome_map

variable (backend : VideoDecoderBackend δ φ ε)

/-- What an admitted frame does to its slot. A monitor in recovery skips all but keyframes. -/
def MonitorSlot.deliver (slot : MonitorSlot δ φ) (header : VideoHeader) (payload : List UInt8) :
    MonitorSlot δ φ × Except (RouteError ε) RouteOutcome :=
  if slot.waitingForKeyframe && !header.isKeyframe then
    ({ slot with framesRouted := slot.framesRouted + 1 }, .ok .noOutputYet)
  else
    match backend.decode slot.decoder header payload with
    | (decoder, .ok (some frame)) =>
      ({ slot with
          decoder, latestFrame := some frame, framesRouted := slot.framesRouted + 1, waitingForKeyframe := false },
        .ok .freshFrame)
    | (decoder, .ok none) =>
      ({ slot with
          decoder, framesRouted := slot.framesRouted + 1
          waitingForKeyframe := backend.wantsKeyframe decoder || slot.waitingForKeyframe }, .ok .noOutputYet)
    | (decoder, .error error) =>
      ({ slot with decoder, framesRejected := slot.framesRejected + 1, waitingForKeyframe := true },
        .error (.decode error))

namespace MonitorFrameRouter

variable (router : MonitorFrameRouter δ φ)

def setSlot {route : MonitorRoute} {old : MonitorSlot δ φ} (hold : router.slots route = some old)
    (slot : MonitorSlot δ φ) : MonitorFrameRouter δ φ where
  admission := router.admission
  slots := update router.slots route (some slot)
  routed other := by
    rw [← router.routed other]
    by_cases heq : other = route
    · rw [heq, update_self, hold, Option.isSome_some, Option.isSome_some]
    · rw [update_of_ne heq]

@[simp] theorem slots_setSlot {route : MonitorRoute} (hold : router.slots route = some old)
    (slot : MonitorSlot δ φ) : (router.setSlot hold slot).slots = update router.slots route (some slot) := rfl

def routeAndDecode (header : VideoHeader) (payload : List UInt8) :
    MonitorFrameRouter δ φ × Except (RouteError ε) RouteOutcome :=
  match router.admission.admitFrame header with
  | .error error => (router, .error (.admission error))
  | .ok route =>
    match hslot : router.slots route with
    | none => (router, .error (.admission (.unroutedMonitor route.wireMonitorId)))
    | some slot =>
      (router.setSlot hslot (slot.deliver backend header payload).1, (slot.deliver backend header payload).2)

def waitingForKeyframe (route : MonitorRoute) : Option Bool := (router.slots route).map (·.waitingForKeyframe)

/-- The frames of one run, each header with its payload. -/
def routeAll (frames : List (VideoHeader × List UInt8)) : MonitorFrameRouter δ φ :=
  frames.foldl (fun router frame => (router.routeAndDecode backend frame.1 frame.2).1) router

/-- The monitor waits for a keyframe, no delta frame reaches its decoder before one, and no other monitor changed. -/
structure Recovers (before after : MonitorFrameRouter δ φ) (route : MonitorRoute) : Prop where
  waiting : after.waitingForKeyframe route = some true
  heldBack : ∀ frames : List (VideoHeader × List UInt8),
    (∀ frame ∈ frames, .fromWireMonitorId frame.1.monitorId = route → frame.1.isKeyframe = false) →
      ((after.routeAll backend frames).slots route).map (·.decoder) = (after.slots route).map (·.decoder)
  others : ∀ other, other ≠ route → after.slots other = before.slots other

inductive RouteEffect (header : VideoHeader) (payload : List UInt8) :
    MonitorFrameRouter δ φ × Except (RouteError ε) RouteOutcome → Prop where
  | refused (error : RegionFrameAdmissionError) (hrefused : ∀ route, router.admission.admitFrame header ≠ .ok route) :
      RouteEffect header payload (router, .error (.admission error))
  | delivered (route : MonitorRoute) (slot : MonitorSlot δ φ) (hroute : .fromWireMonitorId header.monitorId = route)
      (hadmitted : router.admission.admitFrame header = .ok route) (hslot : router.slots route = some slot) :
      RouteEffect header payload
        (router.setSlot hslot (slot.deliver backend header payload).1, (slot.deliver backend header payload).2)

theorem routeAndDecode_effect (header : VideoHeader) (payload : List UInt8) :
    RouteEffect backend router header payload (router.routeAndDecode backend header payload) := by
  unfold routeAndDecode
  cases ha : router.admission.admitFrame header with
  | error error => exact .refused error (by simp [ha])
  | ok route =>
    have hfence := ha
    simp only [RegionFrameRoster.admitFrame, RegionFrameRoster.admitRoute, exceptBind_eq_ok, exceptPure_eq_ok,
      refuseWhen_eq_ok] at hfence
    obtain ⟨_, -, _, ⟨_, -, hsome⟩, _, -, rfl⟩ := hfence
    dsimp only
    split
    · rename_i hnone
      have hrouted := router.routed (.fromWireMonitorId header.monitorId)
      rw [hnone] at hrouted
      exact absurd (Option.isSome_eq_false_iff.mp hrouted.symm) hsome
    · rename_i slot hslot
      exact .delivered _ slot rfl ha hslot

variable {backend} {router} {route : MonitorRoute}

theorem waiting_of_deliver_error {slot : MonitorSlot δ φ} {payload : List UInt8}
    (h : (slot.deliver backend header payload).2 = .error error) :
    (slot.deliver backend header payload).1.waitingForKeyframe = true := by
  unfold MonitorSlot.deliver at h ⊢
  split at h
  · cases h
  · rename_i hdeliver
    rw [if_neg hdeliver]
    split at h
    · cases h
    · cases h
    · rfl

/-- A frame that is no keyframe of a waiting monitor leaves it waiting, and its decoder as it was. -/
theorem waiting_routeAndDecode (payload : List UInt8)
    (hw : router.waitingForKeyframe route = some true)
    (hk : .fromWireMonitorId header.monitorId = route → header.isKeyframe = false) :
    (router.routeAndDecode backend header payload).1.waitingForKeyframe route = some true ∧
      ((router.routeAndDecode backend header payload).1.slots route).map (·.decoder) =
        (router.slots route).map (·.decoder) := by
  have heff := router.routeAndDecode_effect backend header payload
  generalize router.routeAndDecode backend header payload = result at heff ⊢
  cases heff with
  | refused => exact ⟨hw, rfl⟩
  | delivered other slot hroute _ hslot =>
    unfold waitingForKeyframe at hw ⊢
    rw [slots_setSlot]
    by_cases heq : route = other
    · subst heq
      have hwait : slot.waitingForKeyframe = true := by simpa [hslot] using hw
      simp [MonitorSlot.deliver, hwait, hk hroute, hslot]
    · rw [update_of_ne heq]
      exact ⟨hw, rfl⟩

theorem Recovers.of_waiting (hw : router.waitingForKeyframe route = some true)
    (hoth : ∀ other, other ≠ route → router.slots other = before.slots other) :
    Recovers backend before router route := by
  refine ⟨hw, fun frames hframes => ?_, hoth⟩
  clear hoth
  induction frames generalizing router with
  | nil => rfl
  | cons frame frames ih =>
    obtain ⟨hframe, hrest⟩ := List.forall_mem_cons.mp hframes
    obtain ⟨hnext, hsame⟩ := waiting_routeAndDecode frame.2 hw hframe
    exact (ih hnext hrest).trans hsame

/-- **When a rejected frame puts its monitor into recovery.** It does exactly when the fence admitted it, or when the
monitor was waiting already. -/
theorem rejected_frame_recovers_iff (backend : VideoDecoderBackend δ φ ε) (router : MonitorFrameRouter δ φ)
    (header : VideoHeader) (payload : List UInt8) (error : RouteError ε)
    (hrejected : (router.routeAndDecode backend header payload).2 = .error error) :
    Recovers backend router (router.routeAndDecode backend header payload).1 (.fromWireMonitorId header.monitorId) ↔
      router.admission.admitFrame header = .ok (.fromWireMonitorId header.monitorId) ∨
        router.waitingForKeyframe (.fromWireMonitorId header.monitorId) = some true := by
  have heff := router.routeAndDecode_effect backend header payload
  generalize router.routeAndDecode backend header payload = result at heff hrejected ⊢
  cases heff with
  | refused _ hrefused =>
    rw [or_iff_right (hrefused _)]
    exact ⟨fun h => h.waiting, fun hw => .of_waiting hw fun _ _ => rfl⟩
  | delivered route slot hroute hadmitted hslot =>
    refine iff_of_true (.of_waiting ?_ fun other hne => ?_) (.inl (hroute ▸ hadmitted))
    · rw [hroute, waitingForKeyframe, slots_setSlot, update_self]
      exact congrArg some (waiting_of_deliver_error hrejected)
    · exact update_of_ne (hroute ▸ hne) _ _

def oneMonitor : MonitorFrameRouter Unit Unit :=
  .fromAdmission ⟨⟨1, u64_one_ne_zero⟩, fun route => if route = .legacyPrimary then some none else none⟩ fun _ => ()

def emptyRejecting : VideoDecoderBackend Unit Unit Unit :=
  ⟨fun _ _ payload => ((), if payload = [] then .error () else .ok (some ())), fun _ => false⟩

def keyframeOf (topologyGeneration : UInt64) : VideoHeader := ⟨.videoH264, .h264, .yuv420, 1, 0, 0, topologyGeneration, 0⟩

theorem undecodable_keyframe_recovers : Recovers emptyRejecting oneMonitor
    (oneMonitor.routeAndDecode emptyRejecting (keyframeOf 1) []).1 .legacyPrimary :=
  (rejected_frame_recovers_iff emptyRejecting oneMonitor (keyframeOf 1) [] (.decode ()) rfl).mpr (.inl rfl)

/-- After a decoded keyframe, a frame of another generation is refused and the monitor goes on. -/
theorem stale_frame_leaves_monitor_running :
    let router := (oneMonitor.routeAndDecode emptyRejecting (keyframeOf 1) [0]).1
    (router.admission.routes .legacyPrimary).isSome = true ∧
      (router.routeAndDecode emptyRejecting (keyframeOf 2) [0]).2 = .error (.admission (.staleGeneration 1 2)) ∧
      ¬Recovers emptyRejecting router (router.routeAndDecode emptyRejecting (keyframeOf 2) [0]).1 .legacyPrimary := by
  refine ⟨rfl, rfl, fun h => ?_⟩
  have hwaiting : some false = some true := h.waiting
  cases hwaiting

end MonitorFrameRouter
end Arcen
