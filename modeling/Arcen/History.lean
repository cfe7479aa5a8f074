import Arcen.Machine

/-! Histories. What happened last, with nothing of a kind since, what holds of every entry of a log given the
entries before it, and the entries since the last one of a kind. -/

namespace Arcen

open List

section History

variable {α : Type} {happened kept : α → Prop} {log : List α} {entry : α}

/-- An entry with the first property, and since then only entries with the second. -/
def Since (happened kept : α → Prop) (log : List α) : Prop :=
  ∃ before entry after, log = before ++ entry :: after ∧ happened entry ∧ ∀ later ∈ after, kept later

theorem Since.now (log : List α) (h : happened entry) : Since happened kept (log ++ [entry]) :=
  ⟨log, entry, [], rfl, h, fun _ hl => absurd hl not_mem_nil⟩

section

variable (h : Since happened kept log)
include h

theorem Since.step (hk : kept entry) : Since happened kept (log ++ [entry]) := by
  obtain ⟨before, first, after, rfl, hh, ha⟩ := h
  refine ⟨before, first, after ++ [entry], by simp, hh, ?_⟩
  exact forall_mem_append.mpr ⟨ha, forall_mem_singleton.mpr hk⟩

theorem Since.mono {occurred stayed : α → Prop} (hh : ∀ x, happened x → occurred x)
    (hk : ∀ x, kept x → stayed x) : Since occurred stayed log := by
  obtain ⟨before, entry, after, hs, hent, ha⟩ := h
  exact ⟨before, entry, after, hs, hh entry hent, fun later hl => hk later (ha later hl)⟩

theorem Since.exists_mem : ∃ entry ∈ log, happened entry := by
  obtain ⟨_, entry, _, rfl, hent, -⟩ := h
  exact ⟨entry, by simp, hent⟩

end

/-- An entry of a log with one more is the new one, or stands in the log. -/
theorem concat_eq_append_cons {before after : List α} (hs : log ++ [entry] = before ++ first :: after) :
    before = log ∧ first = entry ∧ after = [] ∨ ∃ rest, after = rest ++ [entry] ∧ log = before ++ first :: rest := by
  induction after using reverseRecOn with
  | nil =>
    obtain ⟨hfrt, hlast⟩ := append_inj' hs rfl
    exact .inl ⟨hfrt.symm, (singleton_inj.mp hlast).symm, rfl⟩
  | append_singleton rest =>
    rw [← cons_append, ← append_assoc] at hs
    obtain ⟨hfrt, hlast⟩ := append_inj' hs rfl
    exact .inr ⟨rest, by rw [singleton_inj.mp hlast], hfrt⟩

theorem since_concat : Since happened kept (log ++ [entry]) ↔ happened entry ∨ kept entry ∧ Since happened kept log := by
  constructor
  · rintro ⟨before, first, _, hs, hh, ha⟩
    rcases concat_eq_append_cons hs with ⟨-, rfl, -⟩ | ⟨rest, rfl, hlog⟩
    · exact .inl hh
    · refine .inr ⟨ha _ (by simp), before, first, rest, hlog, hh, fun later hl => ?_⟩
      exact ha later (mem_append_left _ hl)
  · rintro (hh | ⟨hk, hsnc⟩)
    · exact .now log hh
    · exact hsnc.step hk

theorem Since.earlier (h : Since happened kept (log ++ [entry])) (hn : ¬happened entry) :
    kept entry ∧ Since happened kept log := (since_concat.mp h).resolve_left hn

/-- What happened last did so after everything that is not of the second kind. -/
theorem Since.of_append (h : Since happened kept (first ++ later)) (hmem : entry ∈ later)
    (hnot : ¬kept entry) : Since happened kept later := by
  obtain ⟨_, last, after, hs, hh, ha⟩ := h
  rcases append_eq_append_iff.mp hs with ⟨rest, -, hl⟩ | ⟨rest, -, hlast⟩
  · exact ⟨rest, last, after, hl, hh, ha⟩
  · cases rest with
    | nil => exact ⟨[], last, after, hlast.symm, hh, ha⟩
    | cons _ rest =>
      obtain ⟨-, rfl⟩ := cons_eq_cons.mp hlast
      exact absurd (ha entry (mem_append_right rest hmem)) hnot

/-- Every entry stands in the relation to the entries before it. -/
def Throughout (P : List α → α → Prop) (log : List α) : Prop :=
  ∀ before entry after, log = before ++ entry :: after → P before entry

variable {P : List α → α → Prop}

theorem Throughout.nil : Throughout P [] := fun _ _ _ h => absurd h (by simp)

theorem Throughout.concat (h : Throughout P log) (hent : P log entry) : Throughout P (log ++ [entry]) := by
  intro before first after hs
  rcases concat_eq_append_cons hs with ⟨rfl, rfl, -⟩ | ⟨rest, -, hlog⟩
  · exact hent
  · exact h before first rest hlog

theorem Throughout.of_concat (h : Throughout P (log ++ [entry])) : Throughout P log ∧ P log entry := by
  refine ⟨fun before first after hs => ?_, h log entry [] rfl⟩
  exact h before first (after ++ [entry]) (by rw [hs]; simp)

theorem exists_mem_concat {Q : α → Prop} : (∃ x ∈ log ++ [entry], Q x) ↔ (∃ x ∈ log, Q x) ∨ Q entry := by
  simp [exists_or]

theorem filterMap_concat {β : Type} (f : α → Option β) (log : List α) (entry : α) :
    (log ++ [entry]).filterMap f = log.filterMap f ++ (f entry).toList := by
  cases h : f entry <;> simp [h]

/-! Histories with the newest entry first. -/

variable (ends : α → Bool)

/-- The entries newer than the last one that ends a stretch. -/
def recent (history : List α) : List α := history.takeWhile fun entry => !ends entry

theorem recent_cons (entry : α) (history : List α) :
    recent ends (entry :: history) = if ends entry then [] else entry :: recent ends history := by
  rw [recent, takeWhile_cons]
  cases ends entry <;> rfl

end History

/-- **Throughout rule.** What the invariant says of the next entry holds of every entry of a run. -/
theorem Machine.throughout {σ ι ο : Type} (m : Machine σ ι ο) {I : List (ι × ο) → σ → Prop} (hinit : I [] m.init)
    (hstep : ∀ log s call, I log s → I (log ++ [(call, (m.step s call).2)]) (m.step s call).1)
    {P : List (ι × ο) → ι × ο → Prop} (hP : ∀ log s call, I log s → P log (call, (m.step s call).2))
    (calls : List ι) : Throughout P (m.log calls) := by
  have hboth := m.log_invariant (P := fun log s => I log s ∧ Throughout P log) ⟨hinit, .nil⟩
    (fun log s call h => ⟨hstep log s call h.1, h.2.concat (hP log s call h.1)⟩) calls
  exact hboth.2

end Arcen
