import Arcen.MediaLane

/-! The reader's partial frame. What it holds is the front of the frame that comes next on the stream; a read adds to it,
and once the frame is whole it is handed out and the buffers are empty again. -/

namespace Arcen

open List hiding not_lt
namespace PartialFrame

/-- The bytes read of the frame that is not whole yet. -/
def bytes (frame : PartialFrame) : List UInt8 :=
  frame.length.take frame.lengthFilled ++ (frame.body.getD []).take frame.bodyFilled

/-- A partial frame as it is while a read waits. -/
structure WellFormed (frame : PartialFrame) : Prop where
  length : frame.length.length = 4
  header : frame.body = none → frame.lengthFilled < 4
  body : ∀ body, frame.body = some body → frame.lengthFilled = 4 ∧ body.length = beNat frame.length ∧
    frame.bodyFilled < body.length

theorem wellFormed_new : WellFormed new := ⟨rfl, fun _ => by decide, nofun⟩

variable {buffer bytes : List UInt8} {offset : Nat}

theorem length_fillAt (h : offset + bytes.length ≤ buffer.length) :
    (fillAt buffer offset bytes).length = buffer.length := by
  simp only [fillAt, length_append, length_take, length_drop]
  omega

theorem take_fillAt (h : offset + bytes.length ≤ buffer.length) :
    (fillAt buffer offset bytes).take (offset + bytes.length) = buffer.take offset ++ bytes := by
  refine take_left' ?_
  rw [length_append, length_take]
  omega

theorem WellFormed.midFrame_iff {frame : PartialFrame} (h : frame.WellFormed) :
    frame.midFrame = true ↔ frame.bytes ≠ [] := by
  have hl := h.length
  unfold midFrame bytes
  cases hb : frame.body with
  | none =>
    have hshort := h.header hb
    rw [if_pos hshort, started, decide_eq_true_iff, Option.getD_none, take_nil, append_nil, ne_eq,
      take_eq_nil_iff, ← length_eq_zero_iff]
    omega
  | some body =>
    obtain ⟨hf, -, -⟩ := h.body body hb
    rw [hf]
    refine iff_of_true rfl fun hnil => ?_
    have hzero := congrArg List.length hnil
    rw [length_append, length_take, length_nil] at hzero
    omega

section Read

variable {frame : PartialFrame} {bytes tail : List UInt8} {maxFrame : Nat} {rest : List (List UInt8)}

/-- What a read leads to: either the frame is still not whole, or it is the first of the frames to come. -/
def ReadLeads (frame : PartialFrame) (bytes tail : List UInt8) (maxFrame : Nat) (rest : List (List UInt8)) : Prop :=
  (∃ next, (frame.store bytes).advance maxFrame = (next, none) ∧ next.WellFormed ∧ next.bytes = frame.bytes ++ bytes) ∨
    ∃ record later, (frame.store bytes).advance maxFrame = (new, some (.ok record)) ∧ rest = record :: later ∧
      frameAll later = tail

section

variable (h : frame.WellFormed)
include h

/-- There is always room for a byte. -/
theorem WellFormed.room_pos : 0 < frame.room := by
  unfold room
  cases hb : frame.body with
  | none =>
    have hshort := h.header hb
    rw [if_pos hshort]
    omega
  | some body =>
    obtain ⟨_, -, _⟩ := h.body body hb
    rw [if_neg (by omega), Option.getD_some]
    omega

variable (hfits : maxFrame < 2 ^ 32) (hr : ∀ record ∈ rest, record.length ≤ maxFrame)
include hfits hr

section

variable (hroom : bytes.length ≤ frame.room) (hs : frameAll rest = frame.bytes ++ (bytes ++ tail))
include hroom hs

theorem WellFormed.read_header (hb : frame.body = none) : ReadLeads frame bytes tail maxFrame rest := by
  have hl := h.length
  have hshort := h.header hb
  have hby : frame.bytes = frame.length.take frame.lengthFilled := by
    simp [PartialFrame.bytes, hb]
  rw [room, if_pos hshort] at hroom
  have hbuff : frame.lengthFilled + bytes.length ≤ frame.length.length := by omega
  have ht := take_fillAt hbuff
  have hfill := length_fillAt hbuff
  unfold ReadLeads store
  rw [if_pos hshort, hby]
  by_cases hf : frame.lengthFilled + bytes.length < 4
  · refine .inl ⟨_, if_pos hf, ⟨hfill.trans hl, fun _ => hf, ?_⟩, ?_⟩
    · intro body hsome
      cases hb.symm.trans hsome
    · simp [PartialFrame.bytes, hb, ht]
  · have hfour : frame.lengthFilled + bytes.length = 4 := by omega
    have hhdr : fillAt frame.length frame.lengthFilled bytes = frame.length.take frame.lengthFilled ++ bytes := by
      rw [← ht, take_of_length_le (by omega)]
    rw [hby, ← append_assoc, ← hhdr] at hs
    obtain ⟨record, later, rfl, hn, htail⟩ := frameAll_header
      (fun record hmem => (hr record hmem).trans_lt hfits) (hfill.trans hl) hs
    have hmax := hr record mem_cons_self
    have hdec : (u32FromBeBytes (fillAt frame.length frame.lengthFilled bytes)).toNat = record.length := by
      rw [u32FromBeBytes, hn, UInt32.toNat_ofNat_of_lt' (hmax.trans_lt hfits)]
    unfold advance
    rw [if_neg hf, hb]
    rw [hdec, if_neg (not_lt.mpr hmax)]
    unfold finishBody
    dsimp only
    rw [length_replicate]
    by_cases hemp : 0 < record.length
    · rw [if_pos hemp]
      refine .inl ⟨_, rfl, ⟨hfill.trans hl, by simp, ?_⟩, ?_⟩
      · rintro _ ⟨⟩
        refine ⟨hfour, ?_, ?_⟩
        · rw [length_replicate, hn]
        · rwa [length_replicate]
      · simp [PartialFrame.bytes, ht]
    · obtain rfl : record = [] := length_eq_zero_iff.mp (by omega)
      exact .inr ⟨[], later, rfl, rfl, htail⟩

theorem WellFormed.read_body {body : List UInt8} (hb : frame.body = some body) :
    ReadLeads frame bytes tail maxFrame rest := by
  have hl := h.length
  obtain ⟨hfour, hn, _⟩ := h.body body hb
  have hhdr : frame.length.take frame.lengthFilled = frame.length := take_of_length_le (by omega)
  have hby : frame.bytes = frame.length ++ body.take frame.bodyFilled := by
    rw [PartialFrame.bytes, hhdr, hb, Option.getD_some]
  rw [room, if_neg (by omega), hb, Option.getD_some] at hroom
  have hbuff : frame.bodyFilled + bytes.length ≤ body.length := by omega
  have ht := take_fillAt hbuff
  have hfill := length_fillAt hbuff
  have hheaderDone : ¬frame.lengthFilled < 4 := by omega
  unfold ReadLeads store
  rw [if_neg hheaderDone]
  unfold advance finishBody
  rw [if_neg hheaderDone, hb]
  dsimp only [Option.map_some]
  rw [hfill]
  by_cases hf : frame.bodyFilled + bytes.length < body.length
  · rw [if_pos hf]
    refine .inl ⟨_, rfl, ⟨hl, nofun, ?_⟩, ?_⟩
    · rintro _ ⟨⟩
      exact ⟨hfour, hfill.trans hn, hf.trans_eq hfill.symm⟩
    · simp only [PartialFrame.bytes, hb, Option.getD_some, ht, append_assoc]
  · rw [if_neg hf]
    have hwh : fillAt body frame.bodyFilled bytes = body.take frame.bodyFilled ++ bytes := by
      rw [← ht, take_of_length_le (by omega)]
    rw [hby, append_assoc] at hs
    obtain ⟨record, later, rfl, hlen, htail⟩ := frameAll_header
      (fun record hmem => (hr record hmem).trans_lt hfits) hl hs
    rw [← append_assoc, ← hwh] at htail
    obtain ⟨hrec, hlat⟩ := append_inj htail (by rw [hfill, hn, hlen])
    rw [← hrec]
    exact .inr ⟨record, later, rfl, rfl, hlat⟩

/-- **A read.** -/
theorem WellFormed.read : ReadLeads frame bytes tail maxFrame rest := by
  cases hb : frame.body with
  | none => exact h.read_header hfits hr hroom hs hb
  | some => exact h.read_body hfits hr hroom hs hb

end

/-- A frame that is not whole is not all of a stream of frames. -/
theorem WellFormed.rest_eq_nil (hs : frameAll rest = frame.bytes) : rest = [] := by
  have hl := h.length
  cases hb : frame.body with
  | none =>
    have hshort := h.header hb
    cases rest with
    | nil => rfl
    | cons =>
      have hlen := congrArg List.length hs
      simp only [frameAll_cons, Arcen.frame, PartialFrame.bytes, hb, length_append, length_u32ToBeBytes,
        length_take, Option.getD_none, length_nil] at hlen
      omega
  | some body =>
    obtain ⟨_, _, _⟩ := h.body body hb
    rw [PartialFrame.bytes, take_of_length_le (by omega), hb] at hs
    obtain ⟨record, _, -, _, hrec⟩ := frameAll_header
      (fun record hmem => (hr record hmem).trans_lt hfits) hl hs
    have htaken := congrArg List.length hrec
    rw [length_append, length_take] at htaken
    omega

end

end Read

end PartialFrame
end Arcen
