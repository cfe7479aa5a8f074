import Arcen.Machine

/-! Keeping the newest. A register over a linear order is offered values one by one: it takes a value
that is greater than what it holds and refuses any other. In whatever order values arrive, it ends with
the greatest, and every other offer was refused or replaced exactly once. -/

namespace Arcen

open List hiding le_antisymm not_le

inductive Offer (κ : Type) where
  | refused (kept : κ)
  | accepted (replaced : Option κ)

section Newest

variable {κ : Type} [LinearOrder κ]

def offer (best : Option κ) (value : κ) : Option κ × Offer κ :=
  match best with
  | none => (some value, .accepted none)
  | some current => if value ≤ current then (some current, .refused current) else (some value, .accepted (some current))

def newest (κ : Type) [LinearOrder κ] : Machine (Option κ) κ (Offer κ) := ⟨none, offer⟩

def refusedOf : κ × Offer κ → List κ
  | (value, .refused _) => [value]
  | (_, .accepted _) => []

def replacedOf : κ × Offer κ → List κ
  | (_, .refused _) => []
  | (_, .accepted replaced) => replaced.toList

@[simp] theorem newest_step (best : Option κ) (value : κ) : (newest κ).step best value = offer best value := rfl

theorem offer_none (value : κ) : offer none value = (some value, .accepted none) := rfl

variable {cur value : κ} {values : List κ}

theorem offer_of_le (h : value ≤ cur) : offer (some cur) value = (some cur, .refused cur) := if_pos h

theorem offer_of_lt (h : cur < value) :
    offer (some cur) value = (some value, .accepted (some cur)) := if_neg (not_le.mpr h)

def GreatestIn (values : List κ) (greatest : κ) : Prop := greatest ∈ values ∧ ∀ value ∈ values, value ≤ greatest

theorem offer_greatest (best : Option κ) (value : κ) :
    ∃ next, (offer best value).1 = some next ∧ GreatestIn (best.toList ++ [value]) next := by
  cases best with
  | none => exact ⟨value, rfl, by simp [GreatestIn]⟩
  | some cur =>
    rcases le_or_gt value cur with hle | hlt
    · exact ⟨cur, by rw [offer_of_le hle], by simp [GreatestIn, hle]⟩
    · exact ⟨value, by rw [offer_of_lt hlt], by simp [GreatestIn, hlt.le]⟩

/-- **The newest wins.** Whatever the order of the offers, the register ends with the greatest. -/
theorem newest_greatest {best : Option κ} (h : best.toList ++ values ≠ []) :
    ∃ greatest, (newest κ).execFrom best values = some greatest ∧ GreatestIn (best.toList ++ values) greatest := by
  induction values generalizing best with
  | nil =>
    cases best with
    | none => simp at h
    | some cur => exact ⟨cur, rfl, by simp [GreatestIn]⟩
  | cons value values ih =>
    obtain ⟨next, hnext, hmem, hupper⟩ := offer_greatest best value
    have hne : (some next).toList ++ values ≠ [] := by simp
    obtain ⟨greatest, hgrea, hin, hbd⟩ := ih hne
    simp only [Option.toList_some, singleton_append, mem_cons] at hin hbd
    refine ⟨greatest, by rw [Machine.execFrom_cons, newest_step, hnext, hgrea], ?_, ?_⟩
    · rcases hin with rfl | hin
      · rw [← singleton_append, ← append_assoc]
        exact mem_append_left _ hmem
      · simp [hin]
    · intro other ho
      rw [← singleton_append, ← append_assoc, mem_append] at ho
      rcases ho with ho | ho
      · exact (hupper other ho).trans (hbd next (.inl rfl))
      · exact hbd other (.inr ho)

/-- **Accounting.** Every value is refused, replaced or kept as often as it was held or offered. -/
theorem count_newest [BEq κ] [LawfulBEq κ] (best : Option κ) (values : List κ) (value : κ) :
    (((newest κ).logFrom best values).flatMap refusedOf).count value +
        (((newest κ).logFrom best values).flatMap replacedOf).count value +
        ((newest κ).execFrom best values).toList.count value = best.toList.count value + values.count value := by
  induction values generalizing best with
  | nil => simp
  | cons offered values ih =>
    rw [Machine.logFrom_cons, Machine.execFrom_cons, newest_step, flatMap_cons, flatMap_cons,
      count_append, count_append]
    cases best with
    | none =>
      have hr := ih (some offered)
      simp only [offer_none, refusedOf, replacedOf, Option.toList_some, count_nil,
        count_cons] at hr ⊢
      omega
    | some cur =>
      rcases le_or_gt offered cur with hle | hlt
      · have hr := ih (some cur)
        simp only [offer_of_le hle, refusedOf, replacedOf, count_nil, count_cons] at hr ⊢
        omega
      · have hr := ih (some offered)
        simp only [offer_of_lt hlt, refusedOf, replacedOf, Option.toList_some, count_nil, count_cons] at hr ⊢
        omega

end Newest
end Arcen
