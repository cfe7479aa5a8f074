import Arcen.RegionInputMirror

/-! Runs of the two ends of region input. As long as the emitter succeeds, the states stay equal from call to call; and
whatever messages a pipeline gets, its presses and releases alternate, so that what it releases at the end is what was
pressed and not released. -/

namespace Arcen

open Attempt RegionInputPipeline List

variable {δ P : Type} {regions : AppliedRegionSet} {mapApplied : AppliedPoint → Except δ P}

/-! ### The link -/

/-- The pier answers all it gets of a call without an error, and a release releases the same on both ends. -/
def LinkMirrored (entry : DeckCall × DeckReply × List (PierCall × PierReply δ P)) : Prop :=
  (∀ answer ∈ entry.2.2, answer.2.Accepts) ∧
    ∀ input, entry.2.1 = .released input → entry.2.2 = [(.releaseAll, .released input)]

theorem deckStep_emission (regions : AppliedRegionSet) (deck : RegionInputEmitter) {call : DeckCall}
    (hcall : call ≠ .releaseAll) : deckStep regions deck call =
      (((call.emission regions).runOn deck).2, .emitted ((call.emission regions).runOn deck).1) := by
  cases call with
  | releaseAll => exact absurd rfl hcall
  | _ => rfl

section

variable (hmap : ∀ point, ∃ native, mapApplied point = .ok native)
include hmap

/-- One call on two ends that agree. -/
theorem regionLink_step (hlink : link.pier = ⟨regions, link.deck.state, mapApplied⟩)
    (hs : ((regionLink regions mapApplied).step link call).2.1.Succeeds) :
    ((regionLink regions mapApplied).step link call).1.pier =
        ⟨regions, ((regionLink regions mapApplied).step link call).1.deck.state, mapApplied⟩ ∧
      LinkMirrored (call, ((regionLink regions mapApplied).step link call).2) := by
  obtain ⟨deck, pier⟩ := link
  obtain rfl : pier = ⟨regions, deck.state, mapApplied⟩ := hlink
  by_cases hcall : call = .releaseAll
  · subst hcall
    refine ⟨rfl, fun answer hansw => ?_, fun input hi => ?_⟩
    · obtain rfl := mem_singleton.mp hansw
      trivial
    · rw [← DeckReply.released.inj hi]
      rfl
  · have hturn := deckStep_emission regions deck hcall
    rcases hr : (call.emission regions).runOn deck with ⟨result | msgs, after⟩
    · have hfls : ((regionLink regions mapApplied).step ⟨deck, ⟨regions, deck.state, mapApplied⟩⟩ call).2.1 =
          .emitted (.error result) := by
        show (deckStep regions deck call).2 = _
        rw [hturn, hr]
      rw [hfls] at hs
      exact hs.elim
    · rw [hr] at hturn
      have hmirro := sends_emission hmap call deck msgs after hr
      have hstep : (regionLink regions mapApplied).step ⟨deck, ⟨regions, deck.state, mapApplied⟩⟩ call =
          (⟨after, (regionPier regions mapApplied).execFrom ⟨regions, deck.state, mapApplied⟩ (msgs.map .message)⟩,
            .emitted (.ok msgs),
            (regionPier regions mapApplied).logFrom ⟨regions, deck.state, mapApplied⟩ (msgs.map .message)) := by
        show (RegionLink.mk (deckStep regions deck call).1 _, (deckStep regions deck call).2, _) = _
        rw [hturn]
        rfl
      rw [hstep]
      exact ⟨hmirro.1, hmirro.2, fun _ hi => nomatch hi⟩

/-- The run lemma: the two ends agree as long as every call succeeded. -/
theorem regionLink_runs (calls : List DeckCall) :
    (∀ entry ∈ (regionLink regions mapApplied).log calls, entry.2.1.Succeeds) →
      ((regionLink regions mapApplied).exec calls).pier =
          ⟨regions, ((regionLink regions mapApplied).exec calls).deck.state, mapApplied⟩ ∧
        ∀ entry ∈ (regionLink regions mapApplied).log calls, LinkMirrored entry := by
  refine (regionLink regions mapApplied).log_invariant (P := fun log link => (∀ entry ∈ log, entry.2.1.Succeeds) →
    link.pier = ⟨regions, link.deck.state, mapApplied⟩ ∧ ∀ entry ∈ log, LinkMirrored entry) ?_ ?_ calls
  · exact fun _ => ⟨rfl, fun _ h => absurd h not_mem_nil⟩
  · intro log link call ih hs
    obtain ⟨hlink, hlog⟩ := ih fun entry hent => hs entry (mem_append_left _ hent)
    obtain ⟨hnext, hmirr⟩ := regionLink_step hmap hlink
      (hs (call, _) (mem_append_right _ mem_cons_self))
    refine ⟨hnext, fun entry hent => ?_⟩
    rcases mem_append.mp hent with hold | hnew
    · exact hlog entry hold
    · obtain rfl := mem_singleton.mp hnew
      exact hmirr

end

/-! ### The pipeline on its own -/

theorem RegionInputPipeline.apply_atomic (msg : RegionInputWireMessage) (pipeline : RegionInputPipeline δ P) :
    Atomic (apply msg) pipeline := by
  refine Atomic.andThen (.get (.check fun event => .check fun mapped => ?_)) fun _ _ => ⟨_, _, rfl⟩
  exact (Atomic.on (RegionInputState.apply_atomic _ event pipeline.state) rfl).andThen fun _ _ => ⟨_, _, rfl⟩

variable {call : PierCall} {pipeline : RegionInputPipeline δ P} {log : List (PierCall × PierReply δ P)}

/-- An accepted message changes the held buttons by its edge. -/
theorem RegionInputPipeline.yields_apply {msg : RegionInputWireMessage} {next : RegionInputPipeline δ P}
    (h : Yields (apply msg) pipeline mapped next) :
    RegionInputState.HeldStep msg.buttonState pipeline.state.heldButtons next.state.heldButtons := by
  obtain ⟨_, _, hac, h⟩ := yields_bind.mp h
  obtain ⟨-, rfl⟩ := yields_pure.mp h
  unfold accept at hac
  rw [yields_get] at hac
  obtain ⟨_, hdec, hac⟩ := yields_check.mp hac
  obtain ⟨_, -, hac⟩ := yields_check.mp hac
  obtain ⟨_, _, hon, hlast⟩ := yields_bind.mp hac
  obtain ⟨-, rfl⟩ := yields_pure.mp hlast
  obtain ⟨_, happly, rfl⟩ := yields_on.mp hon
  rw [← RegionInputWireMessage.edge_of_decode (exceptMapError_eq_ok.mp hdec)]
  exact (RegionInputState.yields_apply happly).2

def AcceptedEdge (button : UInt8) (pressed : Bool) (entry : PierCall × PierReply δ P) : Prop :=
  (∃ message, entry.1 = .message message ∧ message.buttonState = some (button, pressed)) ∧
    ∃ mapped, entry.2 = .applied (.ok mapped)

/-- Pressed, and since then neither released nor released with all else. -/
def PressedNotReleased (button : UInt8) (log : List (PierCall × PierReply δ P)) : Prop :=
  Since (AcceptedEdge button true) (fun entry => ¬AcceptedEdge button false entry ∧ entry.1 ≠ .releaseAll) log

/-- What an entry may be after the entries before it. -/
structure EdgesMatch (before : List (PierCall × PierReply δ P)) (entry : PierCall × PierReply δ P) : Prop where
  press : ∀ button, AcceptedEdge button true entry → ¬PressedNotReleased button before
  release : ∀ button, AcceptedEdge button false entry → PressedNotReleased button before
  releaseAll : ∀ input, entry.2 = .released input →
    input.buttons.Nodup ∧ ∀ button, button ∈ input.buttons ↔ PressedNotReleased button before

section Edges

variable {button : UInt8} {pressed : Bool} {log : List (PierCall × PierReply δ P)} {msg : RegionInputWireMessage}

variable {mapped : MappedRegionInput P} {call : PierCall} {error : RegionInputPipelineError δ}

theorem acceptedEdge_ok : AcceptedEdge (δ := δ) button pressed (.message msg, .applied (.ok mapped)) ↔
      msg.buttonState = some (button, pressed) := by
  constructor
  · rintro ⟨⟨_, hmsg, hedge⟩, -⟩
    rw [PierCall.message.inj hmsg, hedge]
  · exact fun hedge => ⟨⟨msg, rfl, hedge⟩, mapped, rfl⟩

theorem not_acceptedEdge_error :
    ¬AcceptedEdge (P := P) button pressed (call, .applied (.error error)) := fun ⟨_, _, h⟩ => nomatch h

theorem not_acceptedEdge_released :
    ¬AcceptedEdge (δ := δ) (P := P) button pressed (call, .released input) := fun ⟨_, _, h⟩ => nomatch h

theorem pressedNotReleased_ok : PressedNotReleased (δ := δ) button (log ++ [(.message msg, .applied (.ok mapped))]) ↔
      msg.buttonState = some (button, true) ∨
        msg.buttonState ≠ some (button, false) ∧ PressedNotReleased button log := by
  rw [PressedNotReleased, since_concat, acceptedEdge_ok, acceptedEdge_ok]
  exact or_congr_right (and_congr_left fun _ => and_iff_left nofun)

theorem pressedNotReleased_error :
    PressedNotReleased (P := P) button (log ++ [(.message msg, .applied (.error error))]) ↔
      PressedNotReleased button log := by
  rw [PressedNotReleased, since_concat, or_iff_right not_acceptedEdge_error]
  exact and_iff_right ⟨not_acceptedEdge_error, nofun⟩

theorem not_pressedNotReleased_releaseAll (hrpl : ∀ mapped, reply ≠ .applied (.ok mapped)) :
    ¬PressedNotReleased button (log ++ [(.releaseAll, reply)]) := by
  rw [PressedNotReleased, since_concat]
  rintro (⟨-, mapped, h⟩ | ⟨⟨-, h⟩, -⟩)
  · exact hrpl mapped h
  · exact h rfl

end Edges

section

variable (h : ∀ button, button ∈ pipeline.state.heldButtons ↔ PressedNotReleased button log)
include h

theorem heldButtons_step (button : UInt8) :
    button ∈ ((regionPier regions mapApplied).step pipeline call).1.state.heldButtons ↔
      PressedNotReleased button (log ++ [(call, ((regionPier regions mapApplied).step pipeline call).2)]) := by
  cases call with
  | releaseAll =>
    refine iff_of_false (Finset.notMem_empty button) (not_pressedNotReleased_releaseAll ?_)
    exact fun _ => nofun
  | message message =>
    show button ∈ ((apply message).runOn pipeline).2.state.heldButtons ↔ PressedNotReleased button
        (log ++ [(.message message, .applied ((apply message).runOn pipeline).1)])
    rcases hr : (apply message).runOn pipeline with ⟨error | mapped, next⟩
    · rw [pressedNotReleased_error, apply_atomic message pipeline error next hr]
      exact h button
    · have hh := yields_apply hr
      rw [pressedNotReleased_ok, ← h button]
      rcases hedge : message.buttonState with _ | ⟨edge, pressed⟩
      · rw [hedge] at hh
        obtain hh : next.state.heldButtons = pipeline.state.heldButtons := hh
        simp [hh]
      · rw [hedge] at hh
        cases pressed with
        | true | false =>
          obtain ⟨-, hh⟩ := hh
          simp [hh, eq_comm]

theorem edgesMatch_step : EdgesMatch log (call, ((regionPier regions mapApplied).step pipeline call).2) := by
  cases call with
  | releaseAll =>
    refine ⟨fun _ hedge => absurd hedge not_acceptedEdge_released,
      fun _ hedge => absurd hedge not_acceptedEdge_released, fun input hi => ?_⟩
    rw [← PierReply.released.inj hi]
    refine ⟨RegionInputState.nodup_ascending _, fun button => ?_⟩
    rw [← h button]
    exact RegionInputState.mem_ascending
  | message message =>
    show EdgesMatch log (.message message, .applied ((apply message).runOn pipeline).1)
    rcases hr : (apply message).runOn pipeline with ⟨error | mapped, next⟩
    · exact ⟨fun _ hedge => absurd hedge not_acceptedEdge_error,
        fun _ hedge => absurd hedge not_acceptedEdge_error, fun _ hi => nomatch hi⟩
    · have hh := yields_apply hr
      refine ⟨fun button hedge => ?_, fun button hedge => ?_, fun _ hi => nomatch hi⟩
      · rw [acceptedEdge_ok.mp hedge] at hh
        exact fun hpres => hh.1 ((h button).mpr hpres)
      · rw [acceptedEdge_ok.mp hedge] at hh
        exact (h button).mp hh.1
end

theorem edges_match (calls : List PierCall) : Throughout EdgesMatch ((regionPier regions mapApplied).log calls) := by
  refine (regionPier regions mapApplied).throughout
    (I := fun log pipeline => ∀ button, button ∈ pipeline.state.heldButtons ↔ PressedNotReleased button log) ?_
    (fun _ _ _ h => heldButtons_step h) (fun _ _ _ h => edgesMatch_step h) calls
  refine fun button => iff_of_false (Finset.notMem_empty button) ?_
  rintro ⟨_, _, _, hsplit, -⟩
  exact absurd hsplit (by simp)

/-- **The ends mirror each other.** A pipeline whose platform maps every point accepts all that a run of successful
calls returned, and after every call the states of the two ends are equal; a release releases the same on both. On its
own, a pipeline accepts a release of a button only after a press that nothing has released, its final release names
exactly the buttons with such a press, and what it rejects leaves it as it was. -/
theorem region_input_mirrored (regions : AppliedRegionSet) (mapApplied : AppliedPoint → Except δ P) :
    ((∀ point, ∃ native, mapApplied point = .ok native) → ∀ calls : List DeckCall,
      (∀ entry ∈ (regionLink regions mapApplied).log calls, entry.2.1.Succeeds) →
        (∀ entry ∈ (regionLink regions mapApplied).log calls, LinkMirrored entry) ∧
          ∀ before, before <+: calls → ((regionLink regions mapApplied).exec before).pier.state =
            ((regionLink regions mapApplied).exec before).deck.state) ∧
      (∀ calls : List PierCall, Throughout EdgesMatch ((regionPier regions mapApplied).log calls)) ∧
      ∀ (pipeline : RegionInputPipeline δ P) (message : RegionInputWireMessage), Atomic (apply message) pipeline := by
  refine ⟨fun hmap calls hs => ⟨(regionLink_runs hmap calls hs).2, ?_⟩, edges_match,
    fun pipeline message => apply_atomic message pipeline⟩
  rintro before ⟨_, rfl⟩
  have hpre := regionLink_runs hmap before fun entry hent => hs entry (by
    rw [Machine.log_append]
    exact mem_append_left _ hent)
  rw [hpre.1]

/-- Two turned regions, one press in the first and a drag into the second. -/
def dragRegions : AppliedRegionSet :=
  let size : LogicalSize := ⟨120, 60, by decide, by decide, by decide, by decide⟩
  let pixels : PhysicalSize := ⟨4, 2, by decide, by decide, by decide, by decide⟩
  let first : AppliedRegionDescriptor :=
    ⟨⟨⟨1, u32_one_ne_zero⟩, size, pixels, .rotate90⟩, ⟨⟨-2, 0⟩, pixels.swapped, by decide, by decide, by decide, by decide⟩, rfl⟩
  let second : AppliedRegionDescriptor :=
    ⟨⟨⟨2, u32_two_ne_zero⟩, size, pixels, .flipped⟩, ⟨⟨0, 0⟩, pixels, by decide, by decide, by decide, by decide⟩, rfl⟩
  ⟨⟨7, by decide⟩, [first, second]⟩

def dragCalls : List DeckCall := [.pointerSample ⟨⟨1, u32_one_ne_zero⟩, ⟨119, 0⟩⟩ [(1, true), (2, false)] 10,
    .pointerMotion ⟨⟨2, u32_two_ne_zero⟩, ⟨0, 59⟩⟩ 20, .releaseAll]

theorem region_input_mirrored_drag :
    (∀ entry ∈ (regionLink dragRegions (δ := Empty) .ok).log dragCalls, entry.2.1.Succeeds) ∧
      ((regionLink dragRegions (δ := Empty) .ok).exec dragCalls).pier.state =
        ((regionLink dragRegions (δ := Empty) .ok).exec dragCalls).deck.state := by
  have hs : ∀ entry ∈ (regionLink dragRegions (δ := Empty) .ok).log dragCalls, entry.2.1.Succeeds := by
    decide +kernel
  have hmirr := (region_input_mirrored dragRegions (δ := Empty) .ok).1 (fun point => ⟨point, rfl⟩) dragCalls hs
  exact ⟨hs, hmirr.2 dragCalls (prefix_refl dragCalls)⟩

end Arcen
