import Arcen.History
import Arcen.RegionInputEnds

/-! The emitter and the pipeline mirror each other. Every message the emitter returns was applied to its own state
first, so it is accepted by a pipeline whose state is the same, and the two states stay the same. The composition rule
for sequences of messages carries this from one edge to the calls that send several. -/

namespace Arcen

open Attempt RegionInputEmitter RegionInputPipeline

section Mirror

variable {δ P : Type} {regions : AppliedRegionSet} {mapApplied : AppliedPoint → Except δ P}

/-- A pipeline in the first state accepts the messages and ends in the second. -/
def Mirrors (regions : AppliedRegionSet) (mapApplied : AppliedPoint → Except δ P) (state : RegionInputState)
    (messages : List RegionInputWireMessage) (next : RegionInputState) : Prop :=
  (regionPier regions mapApplied).execFrom ⟨regions, state, mapApplied⟩ (messages.map .message) =
      ⟨regions, next, mapApplied⟩ ∧
    ∀ entry ∈ (regionPier regions mapApplied).logFrom ⟨regions, state, mapApplied⟩ (messages.map .message),
      entry.2.Accepts

theorem Mirrors.nil (state : RegionInputState) : Mirrors regions mapApplied state [] state :=
  ⟨rfl, fun _ h => absurd h List.not_mem_nil⟩

variable {state : RegionInputState} {emitter after : RegionInputEmitter}

theorem Mirrors.append {middle next : RegionInputState} (hfst : Mirrors regions mapApplied state first middle)
    (hsnd : Mirrors regions mapApplied middle second next) :
    Mirrors regions mapApplied state (first ++ second) next := by
  unfold Mirrors
  rw [List.map_append, Machine.execFrom_append, Machine.logFrom_append, hfst.1]
  refine ⟨hsnd.1, fun entry hent => ?_⟩
  rcases List.mem_append.mp hent with hp | haft
  · exact hfst.2 entry hp
  · exact hsnd.2 entry haft

theorem map_of_valid (hm : ∀ point, ∃ native, mapApplied point = .ok native) {pos : RegionLogicalPosition}
    (h : validatePosition regions pos = .ok ()) (state : RegionInputState) :
    ∃ native, (mk regions state mapApplied).map pos = .ok native := by
  obtain ⟨_, hregi, hx, hx', hy, hy'⟩ := validatePosition_eq_ok h
  obtain ⟨point, hpoint⟩ := regions.logicalToApplied_of_inside hregi hx hx' hy hy'
  obtain ⟨native, hnati⟩ := hm point
  refine ⟨native, exceptBind_eq_ok.mpr ⟨point, exceptMapError_eq_ok.mpr hpoint, ?_⟩⟩
  exact exceptMapError_eq_ok.mpr hnati

/-- The pipeline accepts what decodes to an event that the state accepts. -/
theorem mirrors_of_apply (hm : ∀ point, ∃ native, mapApplied point = .ok native)
    {next : RegionInputState} (hdec : msg.decode = .ok event)
    (happly : Yields (RegionInputState.apply regions event) state u next) :
    Mirrors regions mapApplied state [msg] next := by
  obtain ⟨native, hnati⟩ := map_of_valid hm (RegionInputState.yields_apply happly).1 state
  have hac : Yields (apply msg) (⟨regions, state, mapApplied⟩ : RegionInputPipeline δ P)
      (mappedInput native event) ⟨regions, next, mapApplied⟩ := by
    refine yields_bind.mpr ⟨(native, event), _, ?_, yields_pure.mpr ⟨rfl, rfl⟩⟩
    refine yields_get.mpr (yields_check.mpr ⟨event, exceptMapError_eq_ok.mpr hdec, ?_⟩)
    refine yields_check.mpr ⟨native, hnati, yields_bind.mpr ⟨u, _, yields_on.mpr ⟨next, happly, rfl⟩, ?_⟩⟩
    exact yields_pure.mpr ⟨rfl, rfl⟩
  have hrun : (apply msg).runOn (⟨regions, state, mapApplied⟩ : RegionInputPipeline δ P) =
      (.ok (mappedInput native event), ⟨regions, next, mapApplied⟩) := hac
  refine ⟨congrArg Prod.snd hrun, fun entry hent => ?_⟩
  obtain rfl := List.mem_singleton.mp hent
  show PierReply.Accepts (.applied ((apply msg).runOn _).1)
  rw [hrun]
  trivial

/-! ### What the emitter's code sends -/

def Sends (regions : AppliedRegionSet) (mapApplied : AppliedPoint → Except δ P)
    (code : Emit (List RegionInputWireMessage)) : Prop :=
  ∀ emitter messages after, Yields code emitter messages after →
    Mirrors regions mapApplied emitter.state messages after.state

def SendsOne (regions : AppliedRegionSet) (mapApplied : AppliedPoint → Except δ P)
    (code : Emit RegionInputWireMessage) : Prop := ∀ emitter message after, Yields code emitter message after →
    Mirrors regions mapApplied emitter.state [message] after.state

theorem nextSequence_state (h : Yields nextSequence emitter seq after) : after.state = emitter.state := by
  obtain ⟨_, _, hmodi, h⟩ := yields_bind.mp h
  obtain ⟨-, rfl⟩ := yields_pure.mp h
  rw [← yields_modify.mp hmodi]

variable (hm : ∀ point, ∃ native, mapApplied point = .ok native)
include hm

theorem sendsOne_emit (event : RegionInputEvent) (ts : UInt64) (coal : Bool) :
    SendsOne regions mapApplied (emit regions event ts coal) := by
  intro emitter msg after h
  obtain ⟨_, _, hon, h⟩ := yields_bind.mp h
  obtain ⟨_, happly, rfl⟩ := yields_on.mp hon
  obtain ⟨_, hval, h⟩ := yields_check.mp h
  obtain ⟨rfl, rfl⟩ := yields_pure.mp h
  exact mirrors_of_apply hm (RegionInputWireMessage.decode_encode (exceptMapError_eq_ok.mp hval)) happly

theorem sendsOne_emitNext (event : UInt64 → RegionInputEvent) (ts : UInt64) (coal : Bool) :
    SendsOne regions mapApplied (emitNext regions event ts coal) := by
  intro emitter msg after h
  obtain ⟨_, _, hseq, h⟩ := yields_bind.mp h
  rw [← nextSequence_state hseq]
  exact sendsOne_emit hm _ _ _ _ _ _ h

omit hm in
/-- One more message. -/
theorem SendsOne.push (hcode : SendsOne regions mapApplied code)
    (hp : Mirrors regions mapApplied state msgs emitter.state)
    (h : Yields (code >>= fun msg => pure (msgs ++ [msg])) emitter sent after) :
    Mirrors regions mapApplied state sent after.state := by
  obtain ⟨_, _, hmsg, h⟩ := yields_bind.mp h
  obtain ⟨rfl, rfl⟩ := yields_pure.mp h
  exact hp.append (hcode _ _ _ hmsg)

omit hm in
/-- One more message, or none. -/
theorem SendsOne.pushWhen (hcode : SendsOne regions mapApplied code) [Decidable c]
    (hp : Mirrors regions mapApplied state msgs emitter.state)
    (h : Yields (if c then code >>= fun msg => pure (msgs ++ [msg]) else pure msgs)
      emitter sent after) : Mirrors regions mapApplied state sent after.state := by
  split_ifs at h with hc
  · exact hcode.push hp h
  · obtain ⟨rfl, rfl⟩ := yields_pure.mp h
    exact hp

theorem sends_leaveFocused (ts : UInt64) : Sends regions mapApplied (leaveFocused regions ts) := by
  intro emitter msgs after h
  unfold leaveFocused at h
  rw [yields_get] at h
  split_ifs at h with hfocu
  · obtain ⟨_, -, h⟩ := yields_check.mp h
    exact (sendsOne_emitNext hm _ _ _).push (.nil emitter.state) h
  · obtain ⟨rfl, rfl⟩ := yields_pure.mp h
    exact .nil emitter.state

section

variable (pos : RegionLogicalPosition)

theorem sends_ensurePointerPosition (ts : UInt64) :
    Sends regions mapApplied (ensurePointerPosition regions pos ts) := by
  intro emitter msgs after h
  unfold ensurePointerPosition at h
  rw [yields_get] at h
  by_cases hact : emitter.state.activePointerRegion = some pos.regionId
  · rw [if_pos hact] at h
    exact (sendsOne_emitNext hm _ _ _).pushWhen (.nil emitter.state) h
  · rw [if_neg hact] at h
    obtain ⟨_, _, hleave, h⟩ := yields_bind.mp h
    exact (sendsOne_emitNext hm _ _ _).push (sends_leaveFocused hm ts _ _ _ hleave) h

theorem sends_pointerSample (buttons : List (UInt8 × Bool)) (ts : UInt64) :
    Sends regions mapApplied (pointerSample regions pos buttons ts) := by
  intro emitter msgs after h
  obtain ⟨_, _, hmoved, h⟩ := yields_bind.mp h
  -- along the loop, all sent so far is mirrored
  refine yields_foldlM (I := fun sent now => Mirrors regions mapApplied emitter.state sent now.state) ?_
    (sends_ensurePointerPosition hm pos ts _ _ _ hmoved) h
  intro sent now edge more later hs hturn
  exact (sendsOne_emitNext hm _ _ _).pushWhen hs hturn

theorem sends_pointerButton (button : UInt8) (pressed : Bool) (ts : UInt64) :
    Sends regions mapApplied (pointerButton regions pos button pressed ts) := by
  intro emitter msgs after h
  obtain ⟨_, _, hmoved, h⟩ := yields_bind.mp h
  exact (sendsOne_emitNext hm _ _ _).pushWhen (sends_ensurePointerPosition hm pos ts _ _ _ hmoved) h

/-- The position goes first, and then at most one message. -/
theorem sends_afterPosition (hcode : SendsOne regions mapApplied code) [Decidable c] (ts : UInt64)
    : Sends regions mapApplied (ensurePointerPosition regions pos ts >>=
      fun msgs => if c then code >>= fun msg => pure (msgs ++ [msg]) else pure msgs) := by
  intro emitter msgs after h
  obtain ⟨_, _, hmoved, h⟩ := yields_bind.mp h
  exact hcode.pushWhen (sends_ensurePointerPosition hm pos ts _ _ _ hmoved) h

end

theorem sends_pointerButtonAtLatest (button : UInt8) (pressed : Bool) (ts : UInt64) :
    Sends regions mapApplied (DeckCall.emission regions (.pointerButtonAtLatest button pressed ts)) := by
  intro emitter msgs after h
  obtain ⟨_, _, hs, h⟩ := yields_bind.mp h
  obtain ⟨rfl, rfl⟩ := yields_pure.mp h
  unfold pointerButtonAtLatest at hs
  rw [yields_get] at hs
  obtain ⟨_, -, hs⟩ := yields_check.mp hs
  split_ifs at hs with hheld
  · obtain ⟨rfl, rfl⟩ := yields_pure.mp hs
    exact .nil emitter.state
  · obtain ⟨_, _, hmsg, hs⟩ := yields_bind.mp hs
    obtain ⟨rfl, rfl⟩ := yields_pure.mp hs
    exact sendsOne_emitNext hm _ _ _ _ _ _ hmsg

variable (sample : RegionPenSample)

theorem sendsOne_penWithSequence (seq ts : UInt64) (coal : Bool) :
    SendsOne regions mapApplied (penWithSequence regions sample seq ts coal) := by
  intro emitter msg after h
  obtain ⟨_, _, hs, h⟩ := yields_bind.mp h
  obtain ⟨_, _, hrais, h⟩ := yields_bind.mp h
  obtain ⟨rfl, rfl⟩ := yields_pure.mp h
  have hmirr := sendsOne_emit hm _ _ _ _ _ _ hs
  exact yields_modify.mp hrais ▸ hmirr

theorem sendsOne_pen (ts : UInt64) (coal : Bool) : SendsOne regions mapApplied (pen regions sample ts coal) := by
  intro emitter msg after h
  obtain ⟨_, _, hseq, h⟩ := yields_bind.mp h
  rw [← nextSequence_state hseq]
  exact sendsOne_penWithSequence hm _ _ _ _ _ _ _ h

/-- **All a call sends is mirrored.** -/
theorem sends_emission (call : DeckCall) : Sends regions mapApplied (call.emission regions) := by
  cases call with
  | pointerMotion pos ts => exact sends_ensurePointerPosition hm pos ts
  | pointerSample pos buttons ts => exact sends_pointerSample hm pos buttons ts
  | pointerButton pos button pressed ts =>
    exact sends_pointerButton hm pos button pressed ts
  | pointerButtonAtLatest button pressed ts =>
    exact sends_pointerButtonAtLatest hm button pressed ts
  | pointerScroll pos _ _ ts | pointerScrollWithDetails pos _ _ _ _ ts =>
    exact sends_afterPosition hm pos (sendsOne_emitNext hm _ _ _) ts
  | pen sample ts coal =>
    intro emitter msgs after h
    exact (sendsOne_pen hm sample ts coal).push (.nil emitter.state) h
  | penWithSequence sample seq ts coal =>
    intro emitter msgs after h
    exact (sendsOne_penWithSequence hm sample seq ts coal).push (.nil emitter.state) h
  | advanceSequenceTo =>
    intro emitter msgs after h
    obtain ⟨_, _, hrais, h⟩ := yields_bind.mp h
    obtain ⟨rfl, rfl⟩ := yields_pure.mp h
    rw [← yields_modify.mp hrais, advanceSequenceTo]
    split_ifs <;> exact .nil emitter.state
  | releaseAll =>
    intro emitter msgs after h
    obtain ⟨rfl, rfl⟩ := yields_pure.mp h
    exact .nil emitter.state

end Mirror
end Arcen
