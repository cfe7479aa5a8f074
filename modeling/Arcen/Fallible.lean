import Mathlib.Tactic

/-! Fallible code that cannot panic: the checks of a function in order, each of which may end it with an error. -/

namespace Arcen

open List

variable {ε δ α β : Type}

/-- `if c { return Err(e) }`. -/
def refuseWhen (c : Prop) [Decidable c] (e : ε) : Except ε Unit := if c then .error e else .ok ()

/-- `ok_or`. -/
def orError (e : ε) : Option α → Except ε α
  | some value => .ok value
  | none => .error e

variable {f : α → Except ε β} {a : α} {items : List α}

variable {x : Except ε α} {e : ε} {results : List β}

theorem exceptBind_eq_ok : x >>= f = .ok b ↔ ∃ a, x = .ok a ∧ f a = .ok b := by
  cases x with
  | ok value => exact ⟨fun h => ⟨value, rfl, h⟩, fun ⟨_, hval, h⟩ => Except.ok.inj hval ▸ h⟩
  | error => exact ⟨nofun, fun ⟨_, hval, _⟩ => nomatch hval⟩

theorem exceptBind_ok : (Except.ok a >>= f) = f a := rfl

theorem exceptMapError_eq_ok {f : ε → δ} : x.mapError f = .ok a ↔ x = .ok a := by
  cases x <;> simp [Except.mapError]

theorem refuseWhen_eq_ok [Decidable c] : refuseWhen c e = .ok u ↔ ¬c := by
  unfold refuseWhen
  split_ifs with h <;> simp [h]

theorem orError_eq_ok {x : Option α} : orError e x = .ok a ↔ x = some a := by
  cases x <;> simp [orError]

theorem exceptPure_eq_ok : (pure a : Except ε α) = .ok b ↔ a = b := Except.ok.injEq a b ▸ Iff.rfl

/-- **Fold rule.** What every turn of a fallible loop keeps, the loop keeps. -/
theorem exceptFoldlM_invariant {I : β → Prop} {turn : β → α → Except ε β}
    (hturn : ∀ state item next, item ∈ items → I state → turn state item = .ok next → I next) (hst : I state)
    (h : items.foldlM turn state = .ok last) : I last := by
  induction items generalizing state with
  | nil =>
    rw [foldlM_nil, exceptPure_eq_ok] at h
    exact h ▸ hst
  | cons item items ih =>
    rw [foldlM_cons, exceptBind_eq_ok] at h
    obtain ⟨_, hnext, hr⟩ := h
    refine ih (fun state other later hoth => ?_) (hturn _ _ _ mem_cons_self hst hnext) hr
    exact hturn state other later (mem_cons_of_mem _ hoth)

/-- A fallible map that succeeds did so at every place. -/
theorem exceptMapM_getElem? (h : items.mapM f = .ok results) {index : Nat} {item : α}
    (hitem : items[index]? = some item) : ∃ result, f item = .ok result ∧ results[index]? = some result := by
  induction items generalizing results index with
  | nil => cases hitem
  | cons first items ih =>
    rw [mapM_cons, exceptBind_eq_ok] at h
    obtain ⟨result, hfst, hr⟩ := h
    obtain ⟨_, htail, hresu⟩ := exceptBind_eq_ok.mp hr
    rw [exceptPure_eq_ok] at hresu
    subst hresu
    cases index with
    | zero => exact ⟨result, Option.some.inj hitem ▸ hfst, rfl⟩
    | succ => exact ih htail hitem

theorem exceptMapM_length (h : items.mapM f = .ok results) : results.length = items.length := by
  induction items generalizing results with
  | nil =>
    rw [mapM_nil, exceptPure_eq_ok] at h
    rw [← h]
    rfl
  | cons first items ih =>
    rw [mapM_cons, exceptBind_eq_ok] at h
    obtain ⟨_, -, hr⟩ := h
    obtain ⟨_, htail, hresu⟩ := exceptBind_eq_ok.mp hr
    rw [exceptPure_eq_ok] at hresu
    rw [← hresu, length_cons, length_cons, ih htail]

end Arcen
