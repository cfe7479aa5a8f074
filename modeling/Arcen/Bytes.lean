import Mathlib.Tactic

/-! Big-endian byte strings and slices of byte strings. Encoders of the wire formats below are
concatenations of fixed-width fields; decoders read a field as the slice between two offsets. The
lemmas say that a slice of a concatenation is a field, and that a byte string is the concatenation of
its adjacent slices. -/

namespace Arcen

open List

/-- The `k` low bytes of a number, most significant first. -/
def beBytes : Nat → Nat → List UInt8
  | 0, _ => []
  | k + 1, n => UInt8.ofNat (n / 256 ^ k) :: beBytes k (n % 256 ^ k)

/-- The number a big-endian byte string spells. -/
def beNat : List UInt8 → Nat
  | [] => 0
  | b :: bs => b.toNat * 256 ^ bs.length + beNat bs

@[simp] theorem length_beBytes (k n : Nat) : (beBytes k n).length = k := by
  induction k generalizing n with
  | zero => rfl
  | succ k ih => simp [beBytes, ih]

theorem beNat_lt (bs : List UInt8) : beNat bs < 256 ^ bs.length := by
  induction bs with
  | nil => simp [beNat]
  | cons b bs =>
    have hb : b.toNat + 1 ≤ 256 := b.toNat_lt
    calc
      beNat (b :: bs) < b.toNat * 256 ^ bs.length + 256 ^ bs.length := by
        simp only [beNat]
        omega
      _ = (b.toNat + 1) * 256 ^ bs.length := by ring
      _ ≤ 256 * 256 ^ bs.length := Nat.mul_le_mul_right _ hb
      _ = 256 ^ (b :: bs).length := by rw [length_cons, pow_succ']

theorem beNat_beBytes (k n : Nat) : beNat (beBytes k n) = n % 256 ^ k := by
  induction k generalizing n with
  | zero => simp [beBytes, beNat, Nat.mod_one]
  | succ k ih =>
    have hsplit : n % 256 ^ (k + 1) = n % 256 ^ k + 256 ^ k * (n / 256 ^ k % 256) := Nat.mod_pow_succ
    have hhead : (UInt8.ofNat (n / 256 ^ k)).toNat = n / 256 ^ k % 256 := UInt8.toNat_ofNat'
    rw [beBytes, beNat, length_beBytes, ih, Nat.mod_mod, hhead, hsplit, Nat.add_comm, Nat.mul_comm]

variable {n : Nat} {bs : List UInt8} {start : Nat}

theorem beNat_beBytes_of_lt (h : n < 256 ^ k) : beNat (beBytes k n) = n := by
  rw [beNat_beBytes, Nat.mod_eq_of_lt h]

theorem beBytes_beNat (bs : List UInt8) : beBytes bs.length (beNat bs) = bs := by
  induction bs with
  | nil => rfl
  | cons b bs ih =>
    have hpos : 0 < 256 ^ bs.length := Nat.pow_pos (by decide)
    have hdiv : beNat (b :: bs) / 256 ^ bs.length = b.toNat := by
      rw [beNat, Nat.mul_comm, Nat.mul_add_div hpos, Nat.div_eq_of_lt (beNat_lt bs), Nat.add_zero]
    have hmod : beNat (b :: bs) % 256 ^ bs.length = beNat bs := by
      rw [beNat, Nat.mul_comm, Nat.mul_add_mod, Nat.mod_eq_of_lt (beNat_lt bs)]
    rw [length_cons, beBytes, hdiv, hmod, ih, UInt8.ofNat_toNat]

/-! ### The fixed-width words of the wire -/

def u16ToBeBytes (x : UInt16) : List UInt8 := beBytes 2 x.toNat
def u32ToBeBytes (x : UInt32) : List UInt8 := beBytes 4 x.toNat
def u64ToBeBytes (x : UInt64) : List UInt8 := beBytes 8 x.toNat

def u16FromBeBytes (bs : List UInt8) : UInt16 := UInt16.ofNat (beNat bs)
def u32FromBeBytes (bs : List UInt8) : UInt32 := UInt32.ofNat (beNat bs)
def u64FromBeBytes (bs : List UInt8) : UInt64 := UInt64.ofNat (beNat bs)

@[simp] theorem length_u16ToBeBytes (x : UInt16) : (u16ToBeBytes x).length = 2 := length_beBytes _ _
@[simp] theorem length_u32ToBeBytes (x : UInt32) : (u32ToBeBytes x).length = 4 := length_beBytes _ _
@[simp] theorem length_u64ToBeBytes (x : UInt64) : (u64ToBeBytes x).length = 8 := length_beBytes _ _

@[simp] theorem u16FromBeBytes_toBeBytes (x : UInt16) : u16FromBeBytes (u16ToBeBytes x) = x := by
  rw [u16FromBeBytes, u16ToBeBytes, beNat_beBytes_of_lt x.toNat_lt, UInt16.ofNat_toNat]

@[simp] theorem u32FromBeBytes_toBeBytes (x : UInt32) : u32FromBeBytes (u32ToBeBytes x) = x := by
  rw [u32FromBeBytes, u32ToBeBytes, beNat_beBytes_of_lt x.toNat_lt, UInt32.ofNat_toNat]

@[simp] theorem u64FromBeBytes_toBeBytes (x : UInt64) : u64FromBeBytes (u64ToBeBytes x) = x := by
  rw [u64FromBeBytes, u64ToBeBytes, beNat_beBytes_of_lt x.toNat_lt, UInt64.ofNat_toNat]

theorem u16ToBeBytes_fromBeBytes (h : bs.length = 2) : u16ToBeBytes (u16FromBeBytes bs) = bs := by
  have hlt := beNat_lt bs
  rw [h] at hlt
  rw [u16ToBeBytes, u16FromBeBytes, UInt16.toNat_ofNat_of_lt' hlt, ← h, beBytes_beNat]

theorem u32ToBeBytes_fromBeBytes (h : bs.length = 4) : u32ToBeBytes (u32FromBeBytes bs) = bs := by
  have hlt := beNat_lt bs
  rw [h] at hlt
  rw [u32ToBeBytes, u32FromBeBytes, UInt32.toNat_ofNat_of_lt' hlt, ← h, beBytes_beNat]

theorem u64ToBeBytes_fromBeBytes (h : bs.length = 8) : u64ToBeBytes (u64FromBeBytes bs) = bs := by
  have hlt := beNat_lt bs
  rw [h] at hlt
  rw [u64ToBeBytes, u64FromBeBytes, UInt64.toNat_ofNat_of_lt' hlt, ← h, beBytes_beNat]

/-- The number a little-endian byte string spells. -/
def leNat : List UInt8 → Nat
  | [] => 0
  | b :: bs => b.toNat + 256 * leNat bs

def u16FromLeBytes (bs : List UInt8) : UInt16 := UInt16.ofNat (leNat bs)
def u32FromLeBytes (bs : List UInt8) : UInt32 := UInt32.ofNat (leNat bs)

/-- `u32::try_from` of a length. -/
def u32TryFrom (n : Nat) : Option UInt32 := if n < 2 ^ 32 then some (UInt32.ofNat n) else none

theorem u32TryFrom_of_lt (h : n < 2 ^ 32) : u32TryFrom n = some (UInt32.ofNat n) := if_pos h

def u16TryFrom (n : Nat) : Option UInt16 := if n < 2 ^ 16 then some (UInt16.ofNat n) else none

theorem toNat_of_u16TryFrom {x : UInt16} (h : u16TryFrom n = some x) : x.toNat = n := by
  unfold u16TryFrom at h
  split at h
  · rename_i hlt
    rw [← Option.some.inj h, UInt16.toNat_ofNat_of_lt' hlt]
  · cases h

/-! ### Slices -/

variable {α : Type}

/-- The elements at offsets `start .. stop`, the end excluded. -/
def slice (xs : List α) (start stop : Nat) : List α := (xs.drop start).take (stop - start)

theorem length_slice {xs : List α} (h : stop ≤ xs.length) : (slice xs start stop).length = stop - start := by
  simp only [slice, length_take, length_drop]
  omega

/-- A field of a record, found by the length of what stands before it. -/
theorem slice_field (before field after : List α) (hstart : before.length = start)
    (hstop : start + field.length = stop) : slice (before ++ (field ++ after)) start stop = field := by
  rw [slice, drop_left' hstart, take_left' (by omega)]

theorem slice_append_drop (xs : List α) (h : start ≤ middle) :
    slice xs start middle ++ xs.drop middle = xs.drop start := by
  obtain ⟨_, rfl⟩ := Nat.exists_eq_add_of_le h
  rw [slice, Nat.add_sub_cancel_left, ← drop_drop, take_append_drop]

/-- The byte at an offset a decoder has checked to be in range. -/
def byteAt (bs : List UInt8) (i : Nat) : UInt8 := bs.getD i 0

theorem byteAt_append_left {xs ys : List UInt8} (h : i < xs.length) : byteAt (xs ++ ys) i = byteAt xs i := by
  simp [byteAt, getElem?_append_left h]

theorem byteAt_cons_drop (h : i < bs.length) : byteAt bs i :: bs.drop (i + 1) = bs.drop i := by
  rw [drop_eq_getElem_cons h, byteAt, getD_eq_getElem?_getD, getElem?_eq_getElem h, Option.getD_some]

/-! ### Checks

A decoder refuses at its first failed check. -/

theorem check_eq_ok {ε β : Type} {bad : Prop} [Decidable bad] {error : ε} {rest : Except ε β} {value : β} :
    (if bad then .error error else rest) = .ok value ↔ ¬ bad ∧ rest = .ok value := by
  split <;> simp [*]

/-- `[u8; n]`. -/
abbrev FixedBytes (n : Nat) := { bs : List UInt8 // bs.length = n }

/-- The first `n` bytes of a slice the caller has checked to be long enough. -/
def readArray (n : Nat) (bs : List UInt8) : FixedBytes n := ⟨(bs ++ replicate n 0).take n, by simp⟩

theorem readArray_val (h : bs.length = n) : (readArray n bs).val = bs := take_left' h

@[simp] theorem readArray_fixedBytes (bs : FixedBytes n) : readArray n bs.val = bs :=
  Subtype.ext (readArray_val bs.property)

end Arcen
