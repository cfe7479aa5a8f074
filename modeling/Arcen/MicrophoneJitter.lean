import Arcen.History
import Arcen.MicrophoneOrder

/-! The jitter ring of the microphone receiver (`shared/media/src/audio/microphone.rs`) and the bounded list queue that it
refines: frames are appended, the oldest is dropped from a full queue, and a push that leaves too many trims the oldest. -/

namespace Arcen

def microphoneV1FrameSamples : Nat := 960
def microphoneJitterTargetFrames : Nat := 3
def microphoneJitterMaxFrames : Nat := 10
def microphoneJitterTrimThresholdFrames : Nat := 5

abbrev MicrophoneFrame := Vector Int16 microphoneV1FrameSamples

def silentFrame : MicrophoneFrame := Vector.replicate _ 0

open List

inductive MicrophoneIngestOutcome where
  | accepted
  | acceptedAfterGap (silenceFrames : UInt8)
  | reset
  | droppedDuplicate
  | droppedLate
  | droppedWrongGeneration

/-- What a pop writes; anything but audio is zeros. -/
inductive MicrophoneFrameOutput where
  | audio (frame : MicrophoneFrame)
  | silence
  | invalidPcmLength

inductive JitterCall where
  | push (header : MicrophoneHeader) (decision : MicrophoneFrameDecision) (frame : MicrophoneFrame)
  | pop (outputLen : Nat)

inductive JitterReply where
  | pushed (outcome : MicrophoneIngestOutcome)
  | popped (output : MicrophoneFrameOutput)

/-- The ring; only the slots below its size are ever used. -/
structure MicrophoneJitterBuffer where
  frames : Nat → MicrophoneFrame := fun _ => silentFrame
  read : Nat := 0
  len : Nat := 0
  prebuffering : Bool := true
  order : MicrophoneFrameOrder

def MicrophoneFrameDecision.outcome : MicrophoneFrameDecision → MicrophoneIngestOutcome
  | .first | .onTime => .accepted
  | .gap missingFrames => .acceptedAfterGap missingFrames
  | .discontinuity => .reset
  | .duplicate => .droppedDuplicate
  | .late => .droppedLate
  | .wrongGeneration => .droppedWrongGeneration

/-- The frames that a push brings, the silence of a gap before its own. -/
def MicrophoneFrameDecision.brings (frame : MicrophoneFrame) : MicrophoneFrameDecision → List MicrophoneFrame
  | .first | .onTime | .discontinuity => [frame]
  | .gap missingFrames => replicate missingFrames.toNat silentFrame ++ [frame]
  | .duplicate | .late | .wrongGeneration => []

namespace MicrophoneJitterBuffer

variable (buffer : MicrophoneJitterBuffer)

/-- Zeroizes the oldest frame and moves on. -/
def dropOldest : MicrophoneJitterBuffer := { buffer with
    frames := Function.update buffer.frames buffer.read silentFrame
    read := (buffer.read + 1) % microphoneJitterMaxFrames
    len := buffer.len - 1 }

def write (frame : MicrophoneFrame) : MicrophoneJitterBuffer := { buffer with
    frames := Function.update buffer.frames ((buffer.read + buffer.len) % microphoneJitterMaxFrames) frame
    len := buffer.len + 1 }

def pushOne (frame : MicrophoneFrame) : MicrophoneJitterBuffer :=
  (if buffer.len = microphoneJitterMaxFrames then buffer.dropOldest else buffer).write frame

/-- The loop of `trim_to_target`. -/
def trimLoop (buffer : MicrophoneJitterBuffer) : MicrophoneJitterBuffer :=
  if microphoneJitterTargetFrames < buffer.len then trimLoop buffer.dropOldest else buffer
termination_by buffer.len
decreasing_by exact Nat.sub_lt (Nat.zero_lt_of_lt ‹_›) Nat.one_pos

def trimToTarget : MicrophoneJitterBuffer :=
  if buffer.len ≤ microphoneJitterTrimThresholdFrames then buffer else buffer.trimLoop

def clearAudio : MicrophoneJitterBuffer := { order := buffer.order }

def clear : MicrophoneJitterBuffer := { order := ⟨buffer.order.generation, none, none⟩ }

def pushClassified (header : MicrophoneHeader) (decision : MicrophoneFrameDecision) (frame : MicrophoneFrame) :
    MicrophoneJitterBuffer :=
  let buffer := { buffer with order := buffer.order.commit header decision }
  match decision with
  | .first | .onTime | .gap _ => ((decision.brings frame).foldl pushOne buffer).trimToTarget
  | .discontinuity => buffer.clearAudio.pushOne frame
  | .duplicate | .late | .wrongGeneration => buffer

def popInto (outputLen : Nat) : MicrophoneJitterBuffer × MicrophoneFrameOutput :=
  if outputLen ≠ microphoneV1FrameSamples then (buffer.clear, .invalidPcmLength)
  else if buffer.prebuffering ∧ buffer.len < microphoneJitterTargetFrames then (buffer, .silence)
  else if buffer.len = 0 then ({ buffer with prebuffering := true }, .silence)
  else ({ buffer.dropOldest with prebuffering := false }, .audio (buffer.frames buffer.read))

/-- The queued frames, from `read` on. -/
def contents : List MicrophoneFrame :=
  (range buffer.len).map fun k => buffer.frames ((buffer.read + k) % microphoneJitterMaxFrames)

end MicrophoneJitterBuffer

def microphoneJitter (generation : UInt32) : Machine MicrophoneJitterBuffer JitterCall JitterReply where
  init := { order := { generation } }
  step buffer
    | .push header decision frame => (buffer.pushClassified header decision frame, .pushed decision.outcome)
    | .pop outputLen => ((buffer.popInto outputLen).1, .popped (buffer.popInto outputLen).2)

/-! ### The queue -/

structure JitterQueue where
  queue : List MicrophoneFrame := []
  prebuffering : Bool := true

namespace JitterQueue

def append (queue : List MicrophoneFrame) (frame : MicrophoneFrame) : List MicrophoneFrame :=
  (if queue.length = microphoneJitterMaxFrames then queue.tail else queue) ++ [frame]

def trim (queue : List MicrophoneFrame) : List MicrophoneFrame :=
  if queue.length ≤ microphoneJitterTrimThresholdFrames then queue
  else queue.drop (queue.length - microphoneJitterTargetFrames)

def push (queue : JitterQueue) (decision : MicrophoneFrameDecision) (frame : MicrophoneFrame) : JitterQueue :=
  match decision with
  | .first | .onTime | .gap _ => { queue with queue := trim ((decision.brings frame).foldl append queue.queue) }
  | .discontinuity => { queue := [frame] }
  | .duplicate | .late | .wrongGeneration => queue

def pop (queue : JitterQueue) (outputLen : Nat) : JitterQueue × MicrophoneFrameOutput :=
  if outputLen ≠ microphoneV1FrameSamples then ({}, .invalidPcmLength)
  else if queue.prebuffering ∧ queue.queue.length < microphoneJitterTargetFrames then (queue, .silence)
  else
    match queue.queue with
    | [] => ({ queue with prebuffering := true }, .silence)
    | frame :: rest => ({ queue := rest, prebuffering := false }, .audio frame)

end JitterQueue

open JitterQueue

def jitterQueue : Machine JitterQueue JitterCall JitterReply where
  init := {}
  step queue
    | .push _ decision frame => (queue.push decision frame, .pushed decision.outcome)
    | .pop outputLen => ((queue.pop outputLen).1, .popped (queue.pop outputLen).2)

/-! ### The ring holds the queue -/

structure MicrophoneJitterBuffer.Holds (buffer : MicrophoneJitterBuffer) (queue : List MicrophoneFrame)
    (prebuffering : Bool) : Prop where
  read_lt : buffer.read < microphoneJitterMaxFrames
  len_le : buffer.len ≤ microphoneJitterMaxFrames
  contents : buffer.contents = queue
  prebuffering : buffer.prebuffering = prebuffering

namespace MicrophoneJitterBuffer

variable {buffer : MicrophoneJitterBuffer} {queue : List MicrophoneFrame} {flag : Bool} {frame : MicrophoneFrame}

theorem Holds.length_eq (h : buffer.Holds queue flag) : queue.length = buffer.len := by
  rw [← h.contents, MicrophoneJitterBuffer.contents, length_map, length_range]

theorem holds_dropOldest (h : buffer.Holds (frame :: queue) flag) :
    buffer.frames buffer.read = frame ∧ buffer.dropOldest.Holds queue flag := by
  have hlen : buffer.len = queue.length + 1 := h.length_eq.symm
  obtain ⟨hread, hle, hcont, hflag⟩ := h
  rw [contents, hlen, range_succ_eq_map, map_cons, map_map] at hcont
  obtain ⟨hfst, hrest⟩ := cons.inj hcont
  rw [Nat.add_zero, Nat.mod_eq_of_lt hread] at hfst
  refine ⟨hfst, Nat.mod_lt _ (by decide), Nat.le_trans (Nat.sub_le ..) hle, ?_, hflag⟩
  rw [← hrest, dropOldest, hlen]
  refine map_congr_left fun k hk => ?_
  have hlt : k < queue.length := mem_range.mp hk
  unfold microphoneJitterMaxFrames at hread hle
  have hslot : ((buffer.read + 1) % 10 + k) % 10 = (buffer.read + (k + 1)) % 10 := by omega
  have hne : (buffer.read + (k + 1)) % 10 ≠ buffer.read := by omega
  change Function.update _ _ _ (((buffer.read + 1) % 10 + k) % 10) = _
  rw [hslot, Function.update_of_ne hne]
  rfl

section

variable (h : buffer.Holds queue flag)
include h

theorem holds_write (hroom : queue.length < microphoneJitterMaxFrames)
    (frame : MicrophoneFrame) : (buffer.write frame).Holds (queue ++ [frame]) flag := by
  rw [h.length_eq] at hroom
  obtain ⟨hread, -, hcont, hflag⟩ := h
  refine ⟨hread, hroom, ?_, hflag⟩
  simp only [← hcont, contents, write, range_succ, map_append, map_singleton, Function.update_self]
  refine congrArg (· ++ [frame]) (map_congr_left fun k hk => Function.update_of_ne ?_ ..)
  have hlt := mem_range.mp hk
  unfold microphoneJitterMaxFrames at *
  omega

theorem holds_pushOne (frame : MicrophoneFrame) : (buffer.pushOne frame).Holds (append queue frame) flag := by
  unfold pushOne append
  rw [h.length_eq]
  split_ifs with hfull
  · cases queue with
    | nil => exact absurd (h.length_eq.trans hfull) nofun
    | cons =>
      refine holds_write (holds_dropOldest h).2 ?_ frame
      have := h.length_eq.trans hfull
      exact Nat.lt_of_succ_le this.le
  · exact holds_write h (h.length_eq ▸ Nat.lt_of_le_of_ne h.len_le hfull) frame

theorem holds_pushAll (frames : List MicrophoneFrame) :
    (frames.foldl pushOne buffer).Holds (frames.foldl append queue) flag := by
  induction frames generalizing buffer queue with
  | nil => exact h
  | cons frame frames ih => exact ih (holds_pushOne h frame)

theorem holds_trimLoop : buffer.trimLoop.Holds (queue.drop (queue.length - microphoneJitterTargetFrames)) flag := by
  induction queue generalizing buffer with
  | nil =>
    rw [trimLoop, if_neg (by rw [← h.length_eq]; exact Nat.not_lt_zero _)]
    exact h
  | cons first rest ih =>
    rw [trimLoop, ← h.length_eq, length_cons]
    split_ifs with hover
    · rw [Nat.succ_sub (Nat.le_of_lt_succ hover)]
      exact ih (holds_dropOldest h).2
    · rw [Nat.sub_eq_zero_of_le (Nat.le_of_not_lt hover)]
      exact h

theorem holds_trimToTarget : buffer.trimToTarget.Holds (trim queue) flag := by
  unfold trimToTarget trim
  rw [h.length_eq]
  split_ifs
  · exact h
  · exact h.length_eq ▸ holds_trimLoop h
end

variable {model : JitterQueue}

theorem holds_pushClassified (h : buffer.Holds model.queue model.prebuffering) (header : MicrophoneHeader)
    (decision : MicrophoneFrameDecision) (frame : MicrophoneFrame) :
    (buffer.pushClassified header decision frame).Holds (model.push decision frame).queue
      (model.push decision frame).prebuffering := by
  have hcomm : { buffer with order := buffer.order.commit header decision }.Holds model.queue model.prebuffering :=
    { h with }
  cases decision with
  | first | onTime | gap => exact holds_trimToTarget (holds_pushAll hcomm _)
  | discontinuity => exact holds_pushOne ⟨Nat.zero_lt_succ _, Nat.zero_le _, rfl, rfl⟩ frame
  | duplicate | late | wrongGeneration => exact hcomm

theorem holds_popInto (h : buffer.Holds model.queue model.prebuffering) (outputLen : Nat) :
    (buffer.popInto outputLen).1.Holds (model.pop outputLen).1.queue (model.pop outputLen).1.prebuffering ∧
      (buffer.popInto outputLen).2 = (model.pop outputLen).2 := by
  unfold popInto pop
  rw [h.prebuffering, h.length_eq]
  split_ifs with hlen hwait hemp
  · exact ⟨⟨Nat.zero_lt_succ _, Nat.zero_le _, rfl, rfl⟩, rfl⟩
  · exact ⟨h, rfl⟩
  · cases hq : model.queue with
    | nil => exact ⟨⟨h.read_lt, h.len_le, h.contents.trans hq, rfl⟩, rfl⟩
    | cons => exact absurd (h.length_eq.trans hemp) (by rw [hq]; exact nofun)
  · cases hq : model.queue with
    | nil => exact absurd (h.length_eq.symm.trans (by rw [hq]; rfl)) hemp
    | cons =>
      rw [hq] at h
      obtain ⟨hfst, hrest⟩ := holds_dropOldest h
      exact ⟨{ hrest with prebuffering := rfl }, by rw [hfst]⟩

/-- **Run rule.** The ring holds the queue and answers as it does. -/
theorem holds_exec (generation : UInt32) (calls : List JitterCall) :
    ((microphoneJitter generation).exec calls).Holds (jitterQueue.exec calls).queue
        (jitterQueue.exec calls).prebuffering ∧ (microphoneJitter generation).log calls = jitterQueue.log calls := by
  induction calls using reverseRecOn with
  | nil => exact ⟨⟨Nat.zero_lt_succ _, Nat.zero_le _, rfl, rfl⟩, rfl⟩
  | append_singleton calls call ih =>
    obtain ⟨hh, hlog⟩ := ih
    rw [Machine.exec_concat, Machine.exec_concat, Machine.log_concat, Machine.log_concat, hlog]
    cases call with
    | push header decision frame => exact ⟨holds_pushClassified hh header decision frame, rfl⟩
    | pop outputLen =>
      obtain ⟨hnext, hrpl⟩ := holds_popInto hh outputLen
      exact ⟨hnext, congrArg (fun reply => _ ++ [(_, JitterReply.popped reply)]) hrpl⟩

end MicrophoneJitterBuffer

/-! ### What is played -/

def JitterCall.brings : JitterCall → List MicrophoneFrame
  | .push _ decision frame => decision.brings frame
  | .pop _ => []

def playedAudio : JitterCall × JitterReply → Option MicrophoneFrame
  | (_, .popped (.audio frame)) => some frame
  | _ => none

namespace JitterQueue

theorem foldl_append_sublist (queue frames : List MicrophoneFrame) :
    (frames.foldl append queue).Sublist (queue ++ frames) := by
  induction frames generalizing queue with
  | nil => simp
  | cons frame frames ih =>
    have hone : (append queue frame).Sublist (queue ++ [frame]) := by
      unfold append
      split_ifs
      · exact (tail_sublist queue).append_right _
      · exact Sublist.refl _
    have hall := (ih (append queue frame)).trans (hone.append_right frames)
    rwa [append_assoc] at hall

/-- A push leaves at most the trim bound, with its own frame as the newest. -/
theorem trim_append (queue : List MicrophoneFrame) (frame : MicrophoneFrame) :
    (trim (append queue frame)).length ≤ microphoneJitterTrimThresholdFrames ∧
      (trim (append queue frame)).getLast? = some frame := by
  unfold trim append
  generalize (if queue.length = microphoneJitterMaxFrames then queue.tail else queue) = front
  split_ifs with hfew
  · exact ⟨hfew, getLast?_concat⟩
  · rw [length_append, length_singleton] at hfew ⊢
    have hle : front.length + 1 - microphoneJitterTargetFrames ≤ front.length :=
      Nat.sub_le_of_le_add (Nat.add_le_add_left (by decide) _)
    rw [drop_append_of_le_length hle, getLast?_concat, length_append, length_drop, length_singleton]
    unfold microphoneJitterTrimThresholdFrames microphoneJitterTargetFrames at *
    exact ⟨by omega, rfl⟩

theorem push_newest (queue : JitterQueue) {frame : MicrophoneFrame}
    (h : decision.brings frame ≠ []) : (queue.push decision frame).queue.length ≤ microphoneJitterTrimThresholdFrames ∧
      (queue.push decision frame).queue.getLast? = some frame := by
  cases decision with
  | first | onTime => exact trim_append queue.queue frame
  | gap =>
    change (trim ((_ ++ [frame]).foldl append _)).length ≤ _ ∧ (trim ((_ ++ [frame]).foldl append _)).getLast? = _
    rw [foldl_append]
    exact trim_append _ frame
  | discontinuity => exact ⟨Nat.le_add_left 1 4, rfl⟩
  | duplicate | late | wrongGeneration => exact absurd rfl h

theorem trim_sublist (queue : List MicrophoneFrame) : (trim queue).Sublist queue := by
  unfold trim
  split_ifs
  · exact Sublist.refl _
  · exact drop_sublist ..

theorem step_sublist (queue : JitterQueue) (call : JitterCall) :
    ((playedAudio (call, (jitterQueue.step queue call).2)).toList ++ (jitterQueue.step queue call).1.queue).Sublist
      (queue.queue ++ call.brings) := by
  cases call with
  | push _ decision =>
    cases decision with
    | first | onTime | gap => exact (trim_sublist _).trans (foldl_append_sublist queue.queue _)
    | discontinuity => exact sublist_append_right ..
    | duplicate | late | wrongGeneration => exact sublist_append_left ..
  | pop =>
    rw [JitterCall.brings, append_nil]
    simp only [jitterQueue, pop]
    split_ifs
    · exact nil_sublist _
    · exact Sublist.refl _
    · cases hq : queue.queue <;> simp [playedAudio]

theorem played_sublist (calls : List JitterCall) :
    ((jitterQueue.log calls).filterMap playedAudio ++ (jitterQueue.exec calls).queue).Sublist
      (calls.flatMap JitterCall.brings) := by
  induction calls using reverseRecOn with
  | nil => exact Sublist.refl _
  | append_singleton calls call ih =>
    rw [Machine.exec_concat, Machine.log_concat, filterMap_concat, flatMap_append, flatMap_singleton, append_assoc]
    refine ((step_sublist _ call).append_left _).trans ?_
    rw [← append_assoc]
    exact ih.append_right _

end JitterQueue

end Arcen
