import Arcen.Bytes

/-! Length-prefixed streams: every frame is the number of its bytes, as a 4-byte big-endian word, and
then the bytes. A reader with a bound on the length takes the frames off the front one by one; it gives
back the frames of any concatenation whose lengths the bound admits. -/

namespace Arcen

open List

/-- `bytes` is `body` behind a 4-byte prefix that spells the length of `body`. -/
def Framed (bytes body : List UInt8) : Prop :=
  bytes.length = 4 + body.length ∧ beNat (bytes.take 4) = body.length ∧ bytes.drop 4 = body

instance (bytes body : List UInt8) : Decidable (Framed bytes body) := inferInstanceAs (Decidable (_ ∧ _ ∧ _))

def frame (body : List UInt8) : List UInt8 := u32ToBeBytes (UInt32.ofNat body.length) ++ body

variable {bytes body : List UInt8} {bound : Nat} {rest : List UInt8}

theorem Framed.length_lt (h : Framed bytes body) : body.length < 2 ^ 32 := by
  obtain ⟨hlen, hnat, -⟩ := h
  have hlt := beNat_lt (bytes.take 4)
  rw [hnat, length_take, Nat.min_eq_left (by omega)] at hlt
  exact hlt

theorem framed_frame (h : body.length < 2 ^ 32) : Framed (frame body) body := by
  have htake : (frame body).take 4 = u32ToBeBytes (UInt32.ofNat body.length) := take_left' (length_u32ToBeBytes _)
  refine ⟨by simp [frame], ?_, drop_left' (length_u32ToBeBytes _)⟩
  rw [htake, u32ToBeBytes, UInt32.toNat_ofNat_of_lt' h]
  exact beNat_beBytes_of_lt h

/-- Takes one frame off the front: `none` when the length is over `bound` or the stream ends inside
the frame. -/
def nextFrame (bound : Nat) (stream : List UInt8) : Option (List UInt8 × List UInt8) :=
  if stream.length < 4 then none
  else if bound < beNat (stream.take 4) then none
  else if (stream.drop 4).length < beNat (stream.take 4) then none
  else some ((stream.drop 4).splitAt (beNat (stream.take 4)))

theorem length_of_nextFrame {stream : List UInt8} (h : nextFrame bound stream = some (body, rest))
    : rest.length < stream.length := by
  unfold nextFrame at h
  split_ifs at h with hshort
  rw [splitAt_eq, Option.some.injEq, Prod.mk.injEq] at h
  rw [← h.2, length_drop, length_drop]
  omega

/-- All frames of a stream that ends at the end of a frame. -/
def splitFrames (bound : Nat) (stream : List UInt8) : Option (List (List UInt8)) :=
  if stream = [] then some []
  else
    match _h : nextFrame bound stream with
    | none => none
    | some (body, rest) => (splitFrames bound rest).map (body :: ·)
termination_by stream.length
decreasing_by exact length_of_nextFrame _h

section

variable (hf : Framed bytes body) (hbd : body.length ≤ bound) (rest : List UInt8)
include hf hbd

theorem nextFrame_append : nextFrame bound (bytes ++ rest) = some (body, rest) := by
  obtain ⟨_, hnat, hdrop⟩ := hf
  have htake : (bytes ++ rest).take 4 = bytes.take 4 := take_append_of_le_length (by omega)
  have htail : (bytes ++ rest).drop 4 = body ++ rest := by
    rw [drop_append_of_le_length (by omega), hdrop]
  unfold nextFrame
  rw [if_neg (by simp; omega), htake, hnat, if_neg (by omega), htail, if_neg (by simp), splitAt_eq,
    take_left, drop_left]

theorem splitFrames_append : splitFrames bound (bytes ++ rest) = (splitFrames bound rest).map (body :: ·) := by
  have hne : bytes ++ rest ≠ [] := by
    intro hnil
    have hzero := congrArg List.length hnil
    have hlen := hf.1
    rw [length_append, length_nil] at hzero
    omega
  rw [splitFrames, if_neg hne]
  split
  · rename_i hnone
    rw [nextFrame_append hf hbd] at hnone
    cases hnone
  · rename_i hsome
    rw [nextFrame_append hf hbd] at hsome
    cases hsome
    rfl
end

/-- **Frames split.** A concatenation of frames within the bound comes apart into the same bodies. -/
theorem splitFrames_flatten {ι : Type} (bytes body : ι → List UInt8) (items : List ι)
    (h : ∀ item ∈ items, Framed (bytes item) (body item) ∧ (body item).length ≤ bound) :
    splitFrames bound (items.flatMap bytes) = some (items.map body) := by
  induction items with
  | nil =>
    rw [splitFrames]
    rfl
  | cons item items ih =>
    obtain ⟨hf, hbd⟩ := h item mem_cons_self
    rw [flatMap_cons, splitFrames_append hf hbd, ih fun other hmem => h other (mem_cons_of_mem _ hmem)]
    rfl

/-! ### The front of a stream of frames -/

theorem frame_append_inj {header more : List UInt8} (hbody : body.length < 2 ^ 32) (hhdr : header.length = 4)
    (h : frame body ++ more = header ++ rest) : beNat header = body.length ∧ body ++ more = rest := by
  unfold frame at h
  rw [append_assoc] at h
  obtain ⟨rfl, hrest⟩ := append_inj h (by rw [length_u32ToBeBytes, hhdr])
  refine ⟨?_, hrest⟩
  rw [u32ToBeBytes, UInt32.toNat_ofNat_of_lt' hbody]
  exact beNat_beBytes_of_lt hbody

/-- The frames of several bodies, one after the other. -/
def frameAll (bodies : List (List UInt8)) : List UInt8 := bodies.flatMap frame

@[simp] theorem frameAll_nil : frameAll [] = [] := rfl

@[simp] theorem frameAll_cons (body : List UInt8) (bodies : List (List UInt8)) :
    frameAll (body :: bodies) = frame body ++ frameAll bodies := flatMap_cons

@[simp] theorem frameAll_append (first second : List (List UInt8)) :
    frameAll (first ++ second) = frameAll first ++ frameAll second := flatMap_append

/-- The first four bytes of a stream of frames spell the length of its first frame. -/
theorem frameAll_header {header : List UInt8} (hbodi : ∀ body ∈ bodies, body.length < 2 ^ 32)
    (hhdr : header.length = 4) (h : frameAll bodies = header ++ rest) : ∃ body later, bodies = body :: later ∧
      beNat header = body.length ∧ body ++ frameAll later = rest := by
  cases bodies with
  | nil =>
    have hleng := congrArg List.length h
    rw [frameAll_nil, length_append, length_nil] at hleng
    omega
  | cons body later =>
    exact ⟨body, later, rfl, frame_append_inj (hbodi body mem_cons_self) hhdr h⟩

end Arcen
