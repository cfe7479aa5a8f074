import Arcen.Machine

/-! A state that others may change too: a machine some of whose calls are made by others, what the calls of one side do
to the state, and an observation of it that need not be there all the time. -/

namespace Arcen.Machine

variable {σ ι ο β : Type} (m : Machine σ ι ο) (observe : σ → Option β) (others : ι → Prop)

/-- Nobody else changes the value: whenever it is there after a call of others, it is as it was last. -/
def Undisturbed : β → σ → List ι → Prop
  | _, _, [] => True
  | known, s, call :: calls =>
    (others call → ∀ value, observe (m.step s call).1 = some value → value = known) ∧
      Undisturbed ((observe (m.step s call).1).getD known) (m.step s call).1 calls

variable {m observe others}

/-- **Interference rule.** An invariant of the state and of the value as it was last. -/
theorem Undisturbed.invariant {I : β → σ → Prop} (hoths : ∀ known s call, others call → I known s →
      (∀ value, observe (m.step s call).1 = some value → value = known) → I known (m.step s call).1)
    (hown : ∀ known s call, ¬others call → I known s → I ((observe (m.step s call).1).getD known) (m.step s call).1)
    (h : m.Undisturbed observe others known s calls) (hs : I known s) : ∃ last, I last (m.execFrom s calls) := by
  induction calls generalizing known s with
  | nil => exact ⟨known, hs⟩
  | cons call calls ih =>
    obtain ⟨hcall, hrest⟩ := h
    refine ih hrest ?_
    by_cases ho : others call
    · have hknown : (observe (m.step s call).1).getD known = known := by
        cases hval : observe (m.step s call).1 with
        | none => rfl
        | some value => exact hcall ho value hval
      rw [hknown]
      exact hoths known s call ho hs (hcall ho)
    · exact hown known s call ho hs

variable (m) in
/-- Every call of the given kind relates the state before it to the state after it. -/
def CallsRelate (kind : ι → Prop) (R : σ → σ → Prop) : σ → List ι → Prop
  | _, [] => True
  | s, call :: calls => (kind call → R s (m.step s call).1) ∧ CallsRelate kind R (m.step s call).1 calls

variable {kind : ι → Prop} {R : σ → σ → Prop} {I : σ → Prop} {s : σ} {calls : List ι}

/-- Calls that do so by themselves do so in every run. -/
theorem callsRelate (hstep : ∀ s call, I s → I (m.step s call).1)
    (hrela : ∀ s call, kind call → I s → R s (m.step s call).1) (hs : I s) (calls : List ι) :
    m.CallsRelate kind R s calls := by
  induction calls generalizing s with
  | nil => trivial
  | cons call calls ih => exact ⟨fun hkind => hrela s call hkind hs, ih (hstep s call hs)⟩

/-- An invariant that the other calls keep if these relate the states. -/
theorem CallsRelate.invariant (hkind : ∀ s call, kind call → I s → R s (m.step s call).1 → I (m.step s call).1)
    (ho : ∀ s call, ¬kind call → I s → I (m.step s call).1) (h : m.CallsRelate kind R s calls) (hs : I s) :
    I (m.execFrom s calls) := by
  induction calls generalizing s with
  | nil => exact hs
  | cons call calls ih =>
    obtain ⟨hcall, hrest⟩ := h
    refine ih hrest ?_
    by_cases hthis : kind call
    · exact hkind s call hthis hs (hcall hthis)
    · exact ho s call hthis hs

end Arcen.Machine
