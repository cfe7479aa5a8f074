import Arcen.Machine

/-! Order of the microphone frames of one generation (`shared/media/src/audio/microphone.rs`). Sequence numbers wrap
without zero, timestamps wrap with it; the distance of two frames is read from both. -/

namespace Arcen

open List

/-- The fields of a frame header that order it. -/
structure MicrophoneHeader where
  sequence : UInt32
  timestampMs : UInt32
  generation : UInt32

inductive MicrophoneFrameDecision where
  | first
  | onTime
  | gap (missingFrames : UInt8)
  | duplicate
  | late
  | wrongGeneration
  | discontinuity
  deriving DecidableEq

structure MicrophoneFrameOrder where
  generation : UInt32
  lastSequence : Option UInt32 := none
  lastTimestampMs : Option UInt32 := none
  deriving DecidableEq

def audioV1FrameDurationMs : Nat := 20
def maxGapFillFrames : Nat := 9

namespace MicrophoneFrameOrder

/-- The largest `i32`, as a `u32`. -/
def maxDistance : Nat := 2 ^ 31 - 1

variable (order : MicrophoneFrameOrder) (header : MicrophoneHeader)

def classify : MicrophoneFrameDecision :=
  if header.generation ≠ order.generation ∨ header.sequence = 0 then .wrongGeneration
  else
    match order.lastSequence, order.lastTimestampMs with
    | some previousSequence, some previousTimestamp =>
      if header.sequence = previousSequence then .duplicate
      else
        let rawDelta := (header.sequence - previousSequence).toNat
        if maxDistance < rawDelta then .late
        else
          let sequenceDelta := if header.sequence < previousSequence then rawDelta - 1 else rawDelta
          let timestampDelta := (header.timestampMs - previousTimestamp).toNat
          if maxDistance < timestampDelta then .late
          else if sequenceDelta = 1 ∧ timestampDelta = audioV1FrameDurationMs then .onTime
          else
            let missing := sequenceDelta - 1
            let expectedTimestamp := min (sequenceDelta * audioV1FrameDurationMs) (2 ^ 32 - 1)
            if (1 ≤ missing ∧ missing ≤ maxGapFillFrames) ∧ timestampDelta = expectedTimestamp then
              .gap (UInt8.ofNat missing)
            else .discontinuity
    | _, _ => .first

def record : MicrophoneFrameOrder :=
  { order with lastSequence := some header.sequence, lastTimestampMs := some header.timestampMs }

def commit (decision : MicrophoneFrameDecision) : MicrophoneFrameOrder :=
  match decision with
  | .first | .onTime | .gap _ | .discontinuity => order.record header
  | .duplicate | .late | .wrongGeneration => order

/-- Classifies and commits one frame. -/
def observe : MicrophoneFrameOrder × MicrophoneFrameDecision :=
  (order.commit header (order.classify header), order.classify header)

end MicrophoneFrameOrder

def microphoneOrder (generation : UInt32) : Machine MicrophoneFrameOrder MicrophoneHeader MicrophoneFrameDecision where
  init := { generation }
  step := MicrophoneFrameOrder.observe

/-! ### The sender -/

namespace MicrophoneFrameOrder

/-- The `n`-th number of a sender; the number after the last one is 1. -/
def sentSequence (start : UInt32) : Nat → UInt32
  | 0 => start
  | n + 1 => if sentSequence start n + 1 = 0 then 1 else sentSequence start n + 1

/-- The `n`-th frame of a sender. -/
def sentFrame (generation start timestampMs : UInt32) (n : Nat) : MicrophoneHeader where
  sequence := sentSequence start n
  timestampMs := timestampMs + UInt32.ofNat (n * audioV1FrameDurationMs)
  generation

variable {generation start timestampMs : UInt32} {n m : Nat}

theorem toNat_sentSequence (hstart : start ≠ 0) (n : Nat) :
    (sentSequence start n).toNat = 1 + (start.toNat - 1 + n) % (2 ^ 32 - 1) := by
  induction n with
  | zero =>
    have hpos : start.toNat ≠ 0 := fun h => hstart (UInt32.toNat_inj.mp h)
    have hlt := start.toNat_lt
    rw [sentSequence]
    omega
  | succ n ih =>
    have hnext : (sentSequence start n + 1).toNat = (1 + (start.toNat - 1 + n) % (2 ^ 32 - 1) + 1) % 2 ^ 32 := by
      rw [UInt32.toNat_add, ih]
      rfl
    rw [sentSequence]
    split_ifs with hwrap
    · rw [hwrap] at hnext
      change 0 = _ at hnext
      change 1 = _
      omega
    · have hne : (sentSequence start n + 1).toNat ≠ 0 := fun h => hwrap (UInt32.toNat_inj.mp h)
      omega

/-- The order after frame `n` was taken. -/
def orderAt (generation start timestampMs : UInt32) (n : Nat) : MicrophoneFrameOrder :=
  .record { generation } (sentFrame generation start timestampMs n)

section

variable (hstart : start ≠ 0)
include hstart

theorem sentSequence_ne_zero (n : Nat) : sentSequence start n ≠ 0 := fun hzero => by
  have hpos := toNat_sentSequence hstart n
  rw [hzero] at hpos
  change 0 = _ at hpos
  omega

theorem classify_later (hlat : n < m) (hn : m ≤ n + 10) :
    (orderAt generation start timestampMs n).classify (sentFrame generation start timestampMs m) =
      if m = n + 1 then .onTime else .gap (UInt8.ofNat (m - n - 1)) := by
  have hl := toNat_sentSequence hstart n
  have hthis := toNat_sentSequence hstart m
  have hne : sentSequence start m ≠ sentSequence start n := by
    rw [ne_eq, ← UInt32.toNat_inj]
    omega
  have hraw : (sentSequence start m - sentSequence start n).toNat =
      if sentSequence start m < sentSequence start n then m - n + 1 else m - n := by
    simp only [UInt32.toNat_sub, UInt32.lt_iff_toNat_lt]
    split_ifs <;> omega
  have htime :
      (timestampMs + UInt32.ofNat (m * 20) - (timestampMs + UInt32.ofNat (n * 20))).toNat = (m - n) * 20 := by
    simp only [UInt32.toNat_sub, UInt32.toNat_add, UInt32.toNat_ofNat']
    omega
  simp only [classify, orderAt, record, sentFrame, audioV1FrameDurationMs, maxGapFillFrames, maxDistance,
    sentSequence_ne_zero hstart, hne, hraw, ne_eq, not_true_eq_false, or_self]
  split_ifs <;> first | rfl | omega

theorem classify_earlier (hearly : m ≤ n) (hn : n - m < 2 ^ 31) :
    (orderAt generation start timestampMs n).classify (sentFrame generation start timestampMs m) =
      if m = n then .duplicate else .late := by
  simp only [classify, orderAt, record, sentFrame, sentSequence_ne_zero hstart]
  obtain ⟨back, rfl⟩ := Nat.exists_eq_add_of_le hearly
  have hl := toNat_sentSequence hstart (m + back)
  have hthis := toNat_sentSequence hstart m
  cases back with
  | zero => simp
  | succ back =>
    have hne : sentSequence start m ≠ sentSequence start (m + (back + 1)) := by
      rw [ne_eq, ← UInt32.toNat_inj]
      omega
    have hwraps : (start.toNat - 1 + (m + (back + 1))) / (2 ^ 32 - 1) = (start.toNat - 1 + m) / (2 ^ 32 - 1) ∨
        (start.toNat - 1 + (m + (back + 1))) / (2 ^ 32 - 1) = (start.toNat - 1 + m) / (2 ^ 32 - 1) + 1 := by
      omega
    have hlate : maxDistance < (sentSequence start m - sentSequence start (m + (back + 1))).toNat := by
      rw [UInt32.toNat_sub, maxDistance]
      rcases hwraps with hwraps | hwraps <;> omega
    simp [hne, hlate]

theorem classify_first (m : Nat) : classify { generation } (sentFrame generation start timestampMs m) = .first := by
  simp only [classify, sentFrame, sentSequence_ne_zero hstart, ne_eq, not_true_eq_false, or_self, if_false]

theorem exec_delivered {delivered : List Nat} (hdeliv : delivered.IsChain fun n m => n < m ∧ m ≤ n + 10) :
    (microphoneOrder generation).exec (delivered.map (sentFrame generation start timestampMs)) =
      delivered.getLast?.elim { generation } (orderAt generation start timestampMs) := by
  induction delivered using reverseRecOn with
  | nil => rfl
  | append_singleton front m ih =>
    obtain ⟨hfrt, -, hlink⟩ := isChain_append.mp hdeliv
    rw [map_append, map_singleton, Machine.exec_concat, ih hfrt, getLast?_concat]
    change commit _ _ (classify _ _) = _
    cases hl : front.getLast? with
    | none =>
      rw [Option.elim_none, classify_first hstart]
      rfl
    | some n =>
      obtain ⟨hlat, hn⟩ := hlink n hl m rfl
      rw [Option.elim_some, classify_later hstart hlat hn]
      split <;> rfl
end

/-- **Gaps across both wraps.** After any frames of a sender delivered in order with at most nine missing in a row, the
next one is on time or a gap of exactly the missing frames, and a frame fewer than `2 ^ 31` numbers back is a duplicate
or late and changes nothing. -/
theorem microphone_gaps_exact (hstart : start ≠ 0) (delivered : List Nat)
    (hdelivered : delivered.IsChain fun n m => n < m ∧ m ≤ n + 10) :
    let frame := sentFrame generation start timestampMs
    let order := (microphoneOrder generation).exec (delivered.map frame)
    (delivered = [] → ∀ m, order.classify (frame m) = .first) ∧ ∀ n ∈ delivered.getLast?, (∀ m, n < m → m ≤ n + 10 →
        order.classify (frame m) = if m = n + 1 then .onTime else .gap (UInt8.ofNat (m - n - 1))) ∧
      ∀ m ≤ n, n - m < 2 ^ 31 → order.observe (frame m) = (order, if m = n then .duplicate else .late) := by
  intro frame order
  have ho : order = delivered.getLast?.elim { generation } (orderAt generation start timestampMs) :=
    exec_delivered hstart hdelivered
  refine ⟨fun hnone m => ?_, fun n hl => ?_⟩
  · rw [ho, hnone]
    exact classify_first hstart m
  · rw [Option.mem_def.mp hl, Option.elim_some] at ho
    rw [ho]
    refine ⟨fun m hlat hn => classify_later hstart hlat hn, fun m hearly hn => ?_⟩
    rw [observe, classify_earlier hstart hearly hn]
    split <;> rfl

theorem microphone_gaps_exact_wrap : let frame := sentFrame 7 0xFFFFFFFE 0
    let order := (microphoneOrder 7).exec ([0].map frame)
    order.classify (frame 3) = .gap 2 :=
  ((microphone_gaps_exact (by decide) [0] (isChain_singleton _)).2 0 rfl).1 3 (by decide) (by decide)

/-- A frame from half the number range ago reads as a jump forward. -/
theorem old_frame_read_as_discontinuity :
    let order := (microphoneOrder 7).exec ([2 ^ 31].map (sentFrame 7 0xFFFFFFFF 0))
    order.lastSequence = some 0x80000000 ∧
      order.observe (sentFrame 7 0xFFFFFFFF 0 0) = (⟨7, some 0xFFFFFFFF, some 0⟩, .discontinuity) := by
  have hseq : sentSequence 0xFFFFFFFF (2 ^ 31) = 0x80000000 :=
    UInt32.toNat_inj.mp ((toNat_sentSequence (by decide) (2 ^ 31)).trans (by decide))
  have ho : (microphoneOrder 7).exec ([2 ^ 31].map (sentFrame 7 0xFFFFFFFF 0)) = ⟨7, some 0x80000000, some 0⟩ := by
    rw [exec_delivered (by decide) (isChain_singleton _), getLast?_singleton, Option.elim_some, orderAt, sentFrame, hseq]
    rfl
  rw [ho]
  decide

end MicrophoneFrameOrder
end Arcen
