import Mathlib.Tactic

/-! Nonzero machine words: the generations and ids of the lane protocol. -/

namespace Arcen

/-- A machine word that is not zero. -/
structure NonZero (α : Type) [OfNat α 0] where
  get : α
  ne_zero : get ≠ 0
  deriving DecidableEq

namespace NonZero

variable {α : Type} [OfNat α 0]

@[ext] theorem ext {x y : NonZero α} (h : x.get = y.get) : x = y := by
  cases x
  cases y
  simpa using h

def new [DecidableEq α] (x : α) : Option (NonZero α) := if h : x = 0 then none else some ⟨x, h⟩

@[simp] theorem new_get [DecidableEq α] (x : NonZero α) : new x.get = some x := dif_neg x.ne_zero

theorem new_eq_some [DecidableEq α] {x : α} {y : NonZero α} (h : new x = some y) : y.get = x := by
  unfold new at h
  split at h
  · cases h
  · rw [← Option.some.inj h]

theorem new_eq_none [DecidableEq α] {x : α} (h : new x = none) : x = 0 := by
  unfold new at h
  split at h
  · assumption
  · cases h

end NonZero

abbrev NonZeroU32 := NonZero UInt32
abbrev NonZeroU64 := NonZero UInt64

theorem u32_one_ne_zero : (1 : UInt32) ≠ 0 := by decide

theorem u32_two_ne_zero : (2 : UInt32) ≠ 0 := by decide

theorem u64_one_ne_zero : (1 : UInt64) ≠ 0 := by decide

theorem NonZeroU32.toNat_injective : Function.Injective fun x : NonZeroU32 => x.get.toNat :=
  fun _ _ h => NonZero.ext (UInt32.toNat_inj.mp h)

theorem NonZeroU64.toNat_injective : Function.Injective fun x : NonZeroU64 => x.get.toNat :=
  fun _ _ h => NonZero.ext (UInt64.toNat_inj.mp h)

instance : LinearOrder NonZeroU32 := LinearOrder.lift' (fun x => x.get.toNat) NonZeroU32.toNat_injective

instance : LinearOrder NonZeroU64 := LinearOrder.lift' (fun x => x.get.toNat) NonZeroU64.toNat_injective

namespace NonZeroU32

def minValue : NonZeroU32 := ⟨1, by decide⟩

def checkedSucc (x : NonZeroU32) : Option NonZeroU32 := NonZero.new (x.get + 1)

end NonZeroU32
end Arcen
