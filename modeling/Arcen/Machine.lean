import Mathlib.Tactic

/-! Deterministic machines with replies. A machine reads a list of calls, and its log pairs every
call with the reply it got. The induction rules below are the only way the later modules reason
about runs: an invariant of the state alone, and an invariant relating the state to the log, or to
the calls, that led to it. -/

namespace Arcen

open List

/-- A state machine that answers every call. -/
structure Machine (σ ι ο : Type) where
  init : σ
  step : σ → ι → σ × ο

namespace Machine

variable {σ ι ο : Type} (m : Machine σ ι ο)

/-- The state after a list of calls. -/
def execFrom (s : σ) (calls : List ι) : σ := calls.foldl (fun s call => (m.step s call).1) s

/-- The calls of a run with their replies, oldest first. -/
def logFrom : σ → List ι → List (ι × ο)
  | _, [] => []
  | s, call :: calls => (call, (m.step s call).2) :: logFrom (m.step s call).1 calls

def exec (calls : List ι) : σ := m.execFrom m.init calls

def log (calls : List ι) : List (ι × ο) := m.logFrom m.init calls

variable (s : σ)

@[simp] theorem execFrom_nil : m.execFrom s [] = s := rfl

@[simp] theorem execFrom_cons (call : ι) (calls : List ι) :
    m.execFrom s (call :: calls) = m.execFrom (m.step s call).1 calls := rfl

theorem execFrom_append (first second : List ι) :
    m.execFrom s (first ++ second) = m.execFrom (m.execFrom s first) second := by
  simp [execFrom]

@[simp] theorem logFrom_nil : m.logFrom s [] = [] := rfl

@[simp] theorem logFrom_cons (call : ι) (calls : List ι) :
    m.logFrom s (call :: calls) = (call, (m.step s call).2) :: m.logFrom (m.step s call).1 calls := rfl

theorem logFrom_append (first second : List ι) :
    m.logFrom s (first ++ second) = m.logFrom s first ++ m.logFrom (m.execFrom s first) second := by
  induction first generalizing s with
  | nil => rfl
  | cons call calls ih => simp [ih]

theorem exec_append (first second : List ι) : m.exec (first ++ second) = m.execFrom (m.exec first) second :=
  m.execFrom_append m.init first second

theorem log_append (first second : List ι) :
    m.log (first ++ second) = m.log first ++ m.logFrom (m.exec first) second := m.logFrom_append m.init first second

variable (calls : List ι)

theorem exec_concat (call : ι) : m.exec (calls ++ [call]) = (m.step (m.exec calls) call).1 := by
  rw [exec_append, execFrom_cons, execFrom_nil]

theorem log_concat (call : ι) :
    m.log (calls ++ [call]) = m.log calls ++ [(call, (m.step (m.exec calls) call).2)] := by
  rw [log_append, logFrom_cons, logFrom_nil]

theorem map_fst_logFrom (s : σ) (calls : List ι) : (m.logFrom s calls).map Prod.fst = calls := by
  induction calls generalizing s with
  | nil => rfl
  | cons call calls ih => rw [logFrom_cons, map_cons, ih]

theorem map_fst_log : (m.log calls).map Prod.fst = calls := m.map_fst_logFrom m.init calls

theorem length_log : (m.log calls).length = calls.length := by
  rw [← length_map Prod.fst, map_fst_log]

theorem log_split {calls : List ι} {before after : List (ι × ο)} {entry : ι × ο}
    (h : m.log calls = before ++ entry :: after) :
    calls = before.map Prod.fst ++ entry.1 :: after.map Prod.fst ∧ m.log (before.map Prod.fst) = before ∧
      entry.2 = (m.step (m.exec (before.map Prod.fst)) entry.1).2 := by
  have hcs : calls = before.map Prod.fst ++ entry.1 :: after.map Prod.fst := by
    rw [← m.map_fst_log calls, h, map_append, map_cons]
  have hlog := h
  rw [hcs, log_append] at hlog
  obtain ⟨hpre, hent⟩ := append_inj hlog (by rw [length_log, length_map])
  exact ⟨hcs, hpre, (congrArg Prod.snd (cons_eq_cons.mp hent).1).symm⟩

/-- What one step keeps, a run keeps. -/
theorem execFrom_preserves {P : σ → Prop} (hstep : ∀ s call, P s → P (m.step s call).1) (s : σ) (hs : P s)
    (calls : List ι) : P (m.execFrom s calls) := by
  induction calls generalizing s with
  | nil => exact hs
  | cons call calls ih => exact ih _ (hstep s call hs)

/-- **Invariant rule.** -/
theorem invariant {P : σ → Prop} (hi : P m.init) (hstep : ∀ s call, P s → P (m.step s call).1) (calls : List ι)
    : P (m.exec calls) := m.execFrom_preserves hstep m.init hi calls

/-- **History rule.** An invariant of the state and of the log that led to it. -/
theorem log_invariant {P : List (ι × ο) → σ → Prop} (hi : P [] m.init)
    (hstep : ∀ log s call, P log s → P (log ++ [(call, (m.step s call).2)]) (m.step s call).1) (calls : List ι)
    : P (m.log calls) (m.exec calls) := by
  induction calls using reverseRecOn with
  | nil => exact hi
  | append_singleton calls call ih =>
    rw [log_concat, exec_concat]
    exact hstep _ _ _ ih

/-- **Call rule.** An invariant of the state and of the calls that led to it. -/
theorem calls_invariant {P : List ι → σ → Prop} (hi : P [] m.init)
    (hstep : ∀ calls s call, P calls s → P (calls ++ [call]) (m.step s call).1) (calls : List ι) :
    P calls (m.exec calls) := by
  induction calls using reverseRecOn with
  | nil => exact hi
  | append_singleton calls call ih =>
    rw [exec_concat]
    exact hstep _ _ _ ih

end Machine
end Arcen
