import Arcen.Bytes

/-! Text as UTF-8 byte strings. A string is its bytes together with the fact that they are valid
UTF-8; a character boundary is an offset where the bytes may be cut so that both halves stay
valid. -/

namespace Arcen

def strBytes (s : String) : List UInt8 := s.toByteArray.data.toList

def strFromUtf8 (bs : List UInt8) : Option String := String.fromUTF8? ⟨bs.toArray⟩

@[simp] theorem strFromUtf8_strBytes (s : String) : strFromUtf8 (strBytes s) = some s := by
  exact dif_pos s.isValidUTF8

theorem strBytes_of_strFromUtf8 {s : String} (h : strFromUtf8 bs = some s) : strBytes s = bs := by
  unfold strFromUtf8 String.fromUTF8? at h
  split at h
  · rw [← Option.some.inj h]
    rfl
  · cases h

theorem strBytes_injective {s t : String} (h : strBytes s = strBytes t) : s = t := by
  have := strFromUtf8_strBytes s
  rw [h, strFromUtf8_strBytes] at this
  exact (Option.some.inj this).symm

theorem length_strBytes (s : String) : (strBytes s).length = s.utf8ByteSize := rfl

theorem strBytes_ofList (chars : List Char) :
    strBytes (String.ofList chars) = chars.flatMap String.utf8EncodeChar := by
  simp [strBytes, List.utf8Encode]

variable (s : String)

variable (i : Nat)

/-- `str::is_char_boundary`: the start, the end, or an offset whose byte starts a character. -/
def isCharBoundary : Bool := String.Pos.Raw.isValid s ⟨i⟩

/-- `while !s.is_char_boundary(end) { end -= 1 }`. -/
def floorCharBoundary (s : String) : Nat → Nat
  | 0 => 0
  | i + 1 => if isCharBoundary s (i + 1) then i + 1 else floorCharBoundary s i

theorem isCharBoundary_iff {s : String} {i : Nat} :
    isCharBoundary s i = true ↔ i ≤ (strBytes s).length ∧ ∃ t, strBytes t = (strBytes s).take i := by
  have hextr : (s.toByteArray.extract 0 i) = ⟨((strBytes s).take i).toArray⟩ := by
    apply ByteArray.ext
    apply Array.toList_inj.mp
    simp [strBytes]
  rw [isCharBoundary, String.Pos.Raw.isValid_eq_true_iff, String.Pos.Raw.isValid_iff_isValidUTF8_extract_zero]
  apply and_congr
  · simp [String.Pos.Raw.le_iff, length_strBytes]
  · rw [hextr]
    constructor
    · intro hval
      exact ⟨⟨_, hval⟩, by simp [strBytes]⟩
    · rintro ⟨t, ht⟩
      rw [← ht]
      simpa [strBytes] using t.isValidUTF8

theorem isCharBoundary_zero : isCharBoundary s 0 = true :=
  isCharBoundary_iff.mpr ⟨Nat.zero_le _, "", by simp [strBytes]⟩

theorem floorCharBoundary_le : floorCharBoundary s i ≤ i := by
  induction i with
  | zero => exact le_rfl
  | succ =>
    rw [floorCharBoundary]
    split
    · exact le_rfl
    · omega

theorem isCharBoundary_floorCharBoundary : isCharBoundary s (floorCharBoundary s i) = true := by
  induction i with
  | zero => exact isCharBoundary_zero s
  | succ i ih =>
    rw [floorCharBoundary]
    split
    · assumption
    · exact ih

/-- The loop stops at the last boundary at or before its start. -/
theorem le_floorCharBoundary {s : String} {i j : Nat} (hj : isCharBoundary s j = true) (hle : j ≤ i) :
    j ≤ floorCharBoundary s i := by
  induction i with
  | zero => exact hle
  | succ i ih =>
    rw [floorCharBoundary]
    split
    · exact hle
    · rename_i hnot
      have hne : j ≠ i + 1 := by
        rintro rfl
        exact hnot hj
      exact ih (by omega)

/-- The prefix of a string that ends at a character boundary, `&s[..i]`. -/
def strPrefix (h : isCharBoundary s i = true) : String where
  toByteArray := s.toByteArray.extract 0 i
  isValidUTF8 := (String.Pos.Raw.isValid_eq_true_iff.mp h).isValidUTF8_extract_zero

theorem strBytes_strPrefix (h : isCharBoundary s i = true) : strBytes (strPrefix s i h) = (strBytes s).take i := by
  simp [strBytes, strPrefix]

/-- `cut` is the longest prefix of `s` that ends at a character boundary and has at most `bound`
bytes. -/
def IsLongestPrefix (bound : Nat) (s cut : String) : Prop :=
  ∃ stop, isCharBoundary s stop = true ∧ stop ≤ bound ∧ strBytes cut = (strBytes s).take stop ∧
    ∀ other, isCharBoundary s other = true → other ≤ bound → other ≤ stop

theorem isLongestPrefix_floorCharBoundary (s : String) (bound : Nat) : IsLongestPrefix bound s
      (strPrefix s (floorCharBoundary s bound) (isCharBoundary_floorCharBoundary s bound)) :=
  ⟨_, isCharBoundary_floorCharBoundary s bound, floorCharBoundary_le s bound, strBytes_strPrefix _ _ _,
    fun _ hoth hle => le_floorCharBoundary hoth hle⟩

end Arcen
