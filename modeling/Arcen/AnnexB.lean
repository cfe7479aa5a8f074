import Arcen.LengthPrefix

/-! Length-prefixed samples and Annex B streams of NAL units (`shared/media/src/annexb.rs`). A loop that runs from an
index to the end of the bytes is a function of the bytes that are left. -/

namespace Arcen

open List

inductive NalCodec where
  | h264
  | h265

def startCode : List UInt8 := [0, 0, 0, 1]

/-- Whether a NAL unit begins an intra refresh. -/
def nalIsIrap (nal : List UInt8) : NalCodec → Bool
  | .h264 =>
    match nal with
    | [] => false
    | header :: body =>
      if header &&& 0x80 ≠ 0 ∨ body = [] then false
      else
        let nalRefIdc := (header >>> 5) &&& 0x03
        header &&& 0x1F = 5 ∧ nalRefIdc ≠ 0
  | .h265 =>
    if nal.length < 3 then false
    else
      let nalType := (byteAt nal 0 >>> 1) &&& 0x3F
      let temporalIdPlusOne := byteAt nal 1 &&& 0x07
      if byteAt nal 0 &&& 0x80 ≠ 0 ∨ temporalIdPlusOne = 0 ∨ 47 < nalType then false
      else (16 ≤ nalType ∧ nalType ≤ 21) ∧ temporalIdPlusOne = 1

/-- The units of a length-prefixed sample, up to the first malformed length. -/
def forEachLengthPrefixed (sample : List UInt8) : List (List UInt8) :=
  match _h : nextFrame (2 ^ 32 - 1) sample with
  | some (nal, rest) => if nal = [] then [] else nal :: forEachLengthPrefixed rest
  | none => []
termination_by sample.length
decreasing_by exact length_of_nextFrame _h

def appendLengthPrefixedAsAnnexB (out sample : List UInt8) : List UInt8 :=
  out ++ (forEachLengthPrefixed sample).flatMap (startCode ++ ·)

def lengthPrefixedIsKeyframe (sample : List UInt8) (codec : NalCodec) : Bool :=
  (forEachLengthPrefixed sample).any (nalIsIrap · codec)

/-- The length of the start code that the bytes begin with. -/
def startCodeLen (data : List UInt8) : Option Nat :=
  if startCode <+: data then some 4 else if [0, 0, 1] <+: data then some 3 else none

/-- The bytes up to the next start code, and those behind it. -/
def nextStartCode : List UInt8 → List UInt8 × List UInt8
  | [] => ([], [])
  | byte :: rest =>
    match startCodeLen (byte :: rest) with
    | some len => ([], (byte :: rest).drop len)
    | none => (byte :: (nextStartCode rest).1, (nextStartCode rest).2)

/-- The second loop of `for_each_annex_b`, which gives up when it does not move on. -/
def annexBUnits (data : List UInt8) : List (List UInt8) :=
  if data = [] then []
  else
    let (nal, next) := nextStartCode data
    let visited := if nal = [] then [] else [nal]
    if next.length < data.length then visited ++ annexBUnits next else visited
termination_by data.length

def forEachAnnexB (accessUnit : List UInt8) : List (List UInt8) := annexBUnits (nextStartCode accessUnit).2

def annexBIsKeyframe (accessUnit : List UInt8) (codec : NalCodec) : Bool :=
  (forEachAnnexB accessUnit).any (nalIsIrap · codec)

variable {nal : List UInt8} {units : List (List UInt8)}

/-! ### Samples -/

/-- No complete unit stands at the front. -/
def IncompleteUnit (bytes : List UInt8) : Prop :=
  bytes.length < 4 ∨ beNat (bytes.take 4) = 0 ∨ bytes.length < 4 + beNat (bytes.take 4)

theorem forEachLengthPrefixed_incomplete (h : IncompleteUnit bytes) : forEachLengthPrefixed bytes = [] := by
  rw [forEachLengthPrefixed]
  split
  · rename_i nal rest hn
    unfold nextFrame at hn
    split_ifs at hn with hfour hbd hlong
    rw [splitAt_eq, Option.some.injEq, Prod.mk.injEq] at hn
    rcases h with hshort | hzero | hover
    · exact absurd hshort hfour
    · rw [hzero, take_zero] at hn
      rw [if_pos hn.1.symm]
    · rw [length_drop] at hlong
      omega
  · rfl

theorem forEachLengthPrefixed_frameAll (hu : ∀ nal ∈ units, nal ≠ [] ∧ nal.length < 2 ^ 32) {tail : List UInt8}
    (ht : IncompleteUnit tail) : forEachLengthPrefixed (frameAll units ++ tail) = units := by
  induction units with
  | nil => exact forEachLengthPrefixed_incomplete ht
  | cons nal later ih =>
    obtain ⟨⟨hne, hlen⟩, hlat⟩ := forall_mem_cons.mp hu
    have hbd : nal.length ≤ 2 ^ 32 - 1 := by omega
    have hn := nextFrame_append (framed_frame hlen) hbd (frameAll later ++ tail)
    rw [frameAll_cons, append_assoc, forEachLengthPrefixed]
    split
    · rename_i hsome
      rw [hn] at hsome
      cases hsome
      rw [if_neg hne, ih hlat]
    · rename_i hnone
      rw [hn] at hnone
      cases hnone

/-! ### Streams -/

variable {tail : List UInt8}

/-- A three-byte code that begins inside a unit ends inside it, whatever zeros the unit ends in. -/
theorem code_inside (hne : nal ≠ []) (ht : tail = [] ∨ startCode <+: tail) (h : [0, 0, 1] <+: nal ++ tail) : [0, 0, 1]
    <+: nal := by
  by_cases hlong : 3 ≤ nal.length
  · exact prefix_of_prefix_length_le h (prefix_append nal tail) hlong
  · match nal with
    | [_] | [_, _] => rcases ht with rfl | ⟨rest, rfl⟩ <;> simp [startCode] at h
    | [] => exact absurd rfl hne
    | _ :: _ :: _ :: _ => exact absurd (by simp) hlong

theorem startCodeLen_inside (h : ¬[0, 0, 1] <:+: byte :: nal) (ht : tail = [] ∨ startCode <+: tail)
    : startCodeLen (byte :: nal ++ tail) = none := by
  have hthree : ¬[0, 0, 1] <+: byte :: nal ++ tail := fun hc => h (code_inside (cons_ne_nil _ _) ht hc).isInfix
  have hfour : ¬startCode <+: byte :: nal ++ tail := by
    intro hc
    have hr : [0, 0, 1] <+: nal ++ tail := (cons_prefix_cons.mp hc).2
    by_cases hne : nal = []
    · rw [hne] at hr
      rcases ht with rfl | ⟨rest, rfl⟩ <;> simp [startCode] at hr
    · exact h ((code_inside hne ht hr).isInfix.trans (suffix_cons byte nal).isInfix)
  rw [startCodeLen, if_neg hfour, if_neg hthree]

theorem nextStartCode_append (h : ¬[0, 0, 1] <:+: nal) (ht : tail = [] ∨ startCode <+: tail) :
    nextStartCode (nal ++ tail) = (nal, tail.drop 4) := by
  induction nal with
  | nil =>
    rcases ht with rfl | ⟨rest, rfl⟩
    · rfl
    · simp [nextStartCode, startCodeLen, startCode]
  | cons byte nal ih =>
    have hr := ih fun hc => h (hc.trans (suffix_cons byte nal).isInfix)
    have hnone := startCodeLen_inside h ht
    rw [cons_append] at hnone ⊢
    rw [nextStartCode, hnone, hr]

/-- One round of the second loop. -/
theorem annexBUnits_append (hne : nal ≠ []) (hf : ¬[0, 0, 1] <:+: nal) (ht : tail = [] ∨ startCode <+: tail) :
    annexBUnits (nal ++ tail) = nal :: annexBUnits (tail.drop 4) := by
  have hless : (tail.drop 4).length < (nal ++ tail).length := by
    have := length_pos_iff.mpr hne
    rw [length_drop, length_append]
    omega
  rw [annexBUnits, if_neg (append_ne_nil_of_left_ne_nil hne _), nextStartCode_append hf ht]
  dsimp only
  rw [if_neg hne, if_pos hless]
  rfl

theorem annexBUnits_flatMap (hu : ∀ other ∈ nal :: units, other ≠ [] ∧ ¬[0, 0, 1] <:+: other) :
    annexBUnits (nal ++ units.flatMap (startCode ++ ·)) = nal :: units := by
  induction units generalizing nal with
  | nil =>
    obtain ⟨⟨hne, hf⟩, -⟩ := forall_mem_cons.mp hu
    rw [flatMap_nil, annexBUnits_append hne hf (.inl rfl), drop_nil, annexBUnits, if_pos rfl]
  | cons next later ih =>
    obtain ⟨⟨hne, hf⟩, hlat⟩ := forall_mem_cons.mp hu
    rw [flatMap_cons, append_assoc, annexBUnits_append hne hf (.inr ⟨_, rfl⟩)]
    exact congrArg (nal :: ·) (ih hlat)

theorem forEachAnnexB_flatMap (hu : ∀ nal ∈ units, nal ≠ [] ∧ ¬[0, 0, 1] <:+: nal) :
    forEachAnnexB (units.flatMap (startCode ++ ·)) = units := by
  cases units with
  | nil => simp [forEachAnnexB, nextStartCode, annexBUnits]
  | cons nal later =>
    exact annexBUnits_flatMap hu

/-- **Annex B conversion keeps the units.** The complete units of a sample become a stream that splits into the same
units, whatever incomplete bytes follow them, so both report the same keyframes. -/
theorem annex_b_keeps_units (units : List (List UInt8)) (tail : List UInt8)
    (hunits : ∀ nal ∈ units, nal ≠ [] ∧ nal.length < 2 ^ 32 ∧ ¬[0, 0, 1] <:+: nal) (htail : IncompleteUnit tail) :
    let sample := frameAll units ++ tail
    let stream := appendLengthPrefixedAsAnnexB [] sample
    stream = units.flatMap (startCode ++ ·) ∧ forEachAnnexB stream = units ∧
      ∀ codec, lengthPrefixedIsKeyframe sample codec = annexBIsKeyframe stream codec := by
  intro sample stream
  have hsamp : forEachLengthPrefixed sample = units :=
    forEachLengthPrefixed_frameAll (fun nal hnal => ⟨(hunits nal hnal).1, (hunits nal hnal).2.1⟩) htail
  have hstr : stream = units.flatMap (startCode ++ ·) := by
    change [] ++ _ = _
    rw [hsamp, nil_append]
  have hsplit : forEachAnnexB stream = units := by
    rw [hstr]
    exact forEachAnnexB_flatMap fun nal hnal => ⟨(hunits nal hnal).1, (hunits nal hnal).2.2⟩
  refine ⟨hstr, hsplit, fun codec => ?_⟩
  rw [lengthPrefixedIsKeyframe, annexBIsKeyframe, hsamp, hsplit]

theorem annex_b_keeps_zeros : forEachAnnexB (appendLengthPrefixedAsAnnexB [] (frameAll [[0x65, 0, 0], [1]] ++ [0, 9])) =
    [[0x65, 0, 0], [1]] := (annex_b_keeps_units [[0x65, 0, 0], [1]] [0, 9] (by decide) (.inl (by decide))).2.1

end Arcen
