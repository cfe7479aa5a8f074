import Arcen.Machine

/-! Progress of two processes under any fair schedule. A schedule is cut into rounds; in each round both processes get
at least one turn, among any other steps. A measure that no step raises, that the first process lowers until it is done,
and that the second lowers from then on, bounds the number of rounds until both are done. -/

namespace Arcen

open List

/-- What a fair schedule relies on. `valid` is kept by every allowed step. -/
structure Progress {σ ι ο : Type} (m : Machine σ ι ο) where
  valid : σ → Prop
  allowed : ι → Prop
  /-- The turns of the two processes. -/
  first : ι → Prop
  second : ι → Prop
  firstDone : σ → Prop
  done : σ → Prop
  measure : σ → Nat
  keeps : ∀ s call, valid s → allowed call → valid (m.step s call).1
  keepsFirst : ∀ s call, valid s → allowed call → firstDone s → firstDone (m.step s call).1
  /-- Only a turn of the first process ends it. -/
  only_first : ∀ s call, valid s → allowed call → ¬first call → ¬firstDone s → ¬firstDone (m.step s call).1
  keepsDone : ∀ s call, valid s → allowed call → done s → done (m.step s call).1
  never_raises : ∀ s call, valid s → allowed call → measure (m.step s call).1 ≤ measure s
  first_lowers : ∀ s call, valid s → allowed call → first call → ¬firstDone s → measure (m.step s call).1 < measure s
  second_lowers : ∀ s call, valid s → allowed call → second call → firstDone s → ¬done s →
    measure (m.step s call).1 < measure s

namespace Progress

variable {σ ι ο : Type} {m : Machine σ ι ο} (p : Progress m)

/-- A round: allowed steps with a turn of each process among them. -/
def Round (calls : List ι) : Prop :=
  (∀ call ∈ calls, p.allowed call) ∧ (∃ call ∈ calls, p.first call) ∧ ∃ call ∈ calls, p.second call

variable {p} {s : σ} {calls : List ι}

section

variable (hs : p.valid s)
include hs

section

variable (hcs : ∀ call ∈ calls, p.allowed call)
include hcs

theorem valid_execFrom : p.valid (m.execFrom s calls) := by
  induction calls generalizing s with
  | nil => exact hs
  | cons call calls ih =>
    rw [forall_mem_cons] at hcs
    exact ih (p.keeps s call hs hcs.1) hcs.2

theorem done_execFrom (hd : p.done s) : p.done (m.execFrom s calls) := by
  induction calls generalizing s with
  | nil => exact hd
  | cons call calls ih =>
    rw [forall_mem_cons] at hcs
    exact ih (p.keeps s call hs hcs.1) hcs.2 (p.keepsDone s call hs hcs.1 hd)

theorem measure_execFrom_le : p.measure (m.execFrom s calls) ≤ p.measure s := by
  induction calls generalizing s with
  | nil => exact Nat.le_refl _
  | cons call calls ih =>
    rw [forall_mem_cons] at hcs
    exact Nat.le_trans (ih (p.keeps s call hs hcs.1) hcs.2) (p.never_raises s call hs hcs.1)

/-- A turn that lowers the measure whenever it comes lowers it once it comes. -/
theorem done_or_lt_of_turn {turn : ι → Prop} {phase : σ → Prop}
    (hlow : ∀ s call, p.valid s → p.allowed call → turn call → phase s → ¬p.done s →
      p.measure (m.step s call).1 < p.measure s)
    (hkeep : ∀ s call, p.valid s → p.allowed call → ¬turn call → phase s → phase (m.step s call).1)
    (hturn : ∃ call ∈ calls, turn call) (hp : phase s) :
    p.done (m.execFrom s calls) ∨ p.measure (m.execFrom s calls) < p.measure s := by
  induction calls generalizing s with
  | nil =>
    obtain ⟨call, hmem, -⟩ := hturn
    exact absurd hmem not_mem_nil
  | cons call calls ih =>
    by_cases hd : p.done s
    · exact .inl (done_execFrom hs hcs hd)
    rw [forall_mem_cons] at hcs
    have hn := p.keeps s call hs hcs.1
    rw [m.execFrom_cons]
    by_cases ht : turn call
    · have hl := hlow s call hs hcs.1 ht hp hd
      exact .inr (Nat.lt_of_le_of_lt (measure_execFrom_le hn hcs.2) hl)
    · obtain ⟨other, hmem, ho⟩ := hturn
      rcases mem_cons.mp hmem with rfl | hlat
      · exact absurd ho ht
      · have hl := ih hn hcs.2 ⟨other, hlat, ho⟩ (hkeep s call hs hcs.1 ht hp)
        exact hl.imp_right fun hlt => Nat.lt_of_lt_of_le hlt (p.never_raises s call hs hcs.1)

end

theorem round_lowers (hround : p.Round calls) :
    p.done (m.execFrom s calls) ∨ p.measure (m.execFrom s calls) < p.measure s := by
  obtain ⟨hcs, hf, hsnd⟩ := hround
  by_cases hd : p.firstDone s
  · exact done_or_lt_of_turn hs hcs p.second_lowers (fun s call hv ha _ => p.keepsFirst s call hv ha) hsnd hd
  · exact done_or_lt_of_turn hs hcs (fun s call hv ha ht hf _ => p.first_lowers s call hv ha ht hf) p.only_first hf hd

/-- **Fair schedules.** More rounds than the measure counts, and everything is done. -/
theorem done_of_rounds {rounds : List (List ι)} (hr : ∀ round ∈ rounds, p.Round round)
    (hlen : p.measure s < rounds.length) : p.done (m.execFrom s rounds.flatten) := by
  induction rounds generalizing s with
  | nil => exact absurd hlen (Nat.not_lt_zero _)
  | cons round rounds ih =>
    rw [forall_mem_cons] at hr
    have hcs : ∀ call ∈ rounds.flatten, p.allowed call := by
      intro call hcall
      obtain ⟨other, hoth, hmem⟩ := mem_flatten.mp hcall
      exact (hr.2 other hoth).1 call hmem
    have hn := valid_execFrom hs hr.1.1
    rw [flatten_cons, m.execFrom_append]
    rcases round_lowers hs hr.1 with hd | hl
    · exact done_execFrom hn hcs hd
    · refine ih hn hr.2 ?_
      exact Nat.lt_of_lt_of_le hl (Nat.le_of_lt_succ hlen)

end

end Progress
end Arcen
