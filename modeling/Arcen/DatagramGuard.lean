import Arcen.History

/-! The inbound datagram guard (`transport/quic/framing.rs`): the highest accepted number, and the numbers accepted last in
the order they were accepted. -/

namespace Arcen

open List

inductive SequenceDecision where
  | accept
  | duplicate
  | late
  deriving DecidableEq

structure DatagramSequenceGuard where
  window : Nat
  highest : Option Nat
  recent : List Nat

namespace DatagramSequenceGuard

def new (window : Nat) : DatagramSequenceGuard := ⟨max window 1, none, []⟩

variable (guard : DatagramSequenceGuard) (sequence : Nat)

/-- The early returns of `observe`. -/
def refusal : Option SequenceDecision :=
  match guard.highest with
  | none => none
  | some highest =>
    if sequence ∈ guard.recent then some .duplicate
    else if sequence ≤ highest ∧ guard.window ≤ highest - sequence then some .late
    else none

def observe : DatagramSequenceGuard × SequenceDecision :=
  match guard.refusal sequence with
  | some decision => (guard, decision)
  | none =>
    let recent := if guard.window ≤ guard.recent.length then guard.recent.tail else guard.recent
    ({ guard with highest := some (guard.highest.elim sequence (max · sequence)), recent := recent ++ [sequence] }, .accept)

def datagramGuard (window : Nat) : Machine DatagramSequenceGuard Nat SequenceDecision := ⟨new window, observe⟩

/-- The numbers accepted over a run. -/
def accepted (window : Nat) (numbers : List Nat) : List Nat :=
  ((datagramGuard window).log numbers).filterMap fun entry => if entry.2 = .accept then some entry.1 else none

def lastAccepted (window : Nat) (numbers : List Nat) : List Nat :=
  (accepted window numbers).drop ((accepted window numbers).length - window)

/-- A number is `window` or more behind an accepted one. -/
def Behind (window : Nat) (numbers : List Nat) (sequence : Nat) : Prop :=
  ∃ number ∈ accepted window numbers, sequence + window ≤ number

/-- The guard that accepted these numbers. -/
def after (window : Nat) (numbers : List Nat) : DatagramSequenceGuard :=
  ⟨window, numbers.max?, numbers.drop (numbers.length - window)⟩

variable {guard sequence} in
theorem observe_of_refusal (h : guard.refusal sequence = some decision) :
    guard.observe sequence = (guard, decision) ∧ decision ≠ .accept := by
  refine ⟨by rw [observe, h], ?_⟩
  rintro rfl
  unfold refusal at h
  cases hhigh : guard.highest with
  | none => simp [hhigh] at h
  | some highest =>
    simp only [hhigh] at h
    split_ifs at h <;> cases h

section

variable {window : Nat} (hw : 1 ≤ window) (numbers : List Nat) (sequence : Nat)

theorem accepted_concat : accepted window (numbers ++ [sequence]) = accepted window numbers ++
    (if (observe ((datagramGuard window).exec numbers) sequence).2 = .accept then some sequence else none).toList := by
  rw [accepted, Machine.log_concat, filterMap_concat]
  rfl

include hw

theorem refusal_after : (after window numbers).refusal sequence = none ↔
    sequence ∉ numbers.drop (numbers.length - window) ∧ ¬∃ number ∈ numbers, sequence + window ≤ number := by
  cases hmax : numbers.max? with
  | none =>
    obtain rfl := max?_eq_none_iff.mp hmax
    simp [refusal, after]
  | some highest =>
    obtain ⟨hmem, hle⟩ := max?_eq_some_iff.mp hmax
    have hlate : (sequence ≤ highest ∧ window ≤ highest - sequence) ↔ ∃ number ∈ numbers, sequence + window ≤ number := by
      constructor
      · exact fun h => ⟨highest, hmem, by omega⟩
      · rintro ⟨number, hnum, hfar⟩
        have := hle number hnum
        omega
    simp only [refusal, after]
    split_ifs <;> simp_all

theorem accept_after (h : (after window numbers).refusal sequence = none) :
    (after window numbers).observe sequence = (after window (numbers ++ [sequence]), .accept) := by
  rw [observe, h]
  refine Prod.ext ?_ rfl
  simp only [after, mk.injEq, true_and, length_append, length_drop, length_singleton]
  refine ⟨?_, ?_⟩
  · cases numbers with
    | nil => rfl
    | cons first rest => simp only [cons_append, max?_cons', foldl_append, foldl_cons, foldl_nil, Option.elim_some]
  · rw [drop_append_of_le_length (by omega)]
    split_ifs with hfull
    · rw [tail_drop]
      congr 2
      omega
    · congr 2
      omega

theorem exec_datagramGuard : (datagramGuard window).exec numbers = after window (accepted window numbers) := by
  induction numbers using reverseRecOn with
  | nil => simp [Machine.exec, datagramGuard, new, after, accepted, Machine.log, hw]
  | append_singleton numbers number ih =>
    rw [accepted_concat, Machine.exec_concat, ih]
    generalize accepted window numbers = numbers
    cases href : (after window numbers).refusal number with
    | none => simp [datagramGuard, accept_after hw numbers number href]
    | some decision =>
      obtain ⟨hobs, hne⟩ := observe_of_refusal href
      simp [datagramGuard, hobs, hne]

theorem observe_eq_accept : (observe ((datagramGuard window).exec numbers) sequence).2 = .accept ↔
    sequence ∉ lastAccepted window numbers ∧ ¬Behind window numbers sequence := by
  rw [exec_datagramGuard hw, lastAccepted, Behind, ← refusal_after hw]
  cases href : (after window (accepted window numbers)).refusal sequence with
  | none => simp [accept_after hw _ sequence href]
  | some decision => simp [observe_of_refusal href]

end

/-- **Accepted once.** No number is accepted twice if and only if every number that was accepted and comes again is one of
the last ones accepted or too far behind. A new number that is not too far behind is accepted, and none that is. -/
theorem accepted_once_iff {window : Nat} (hw : 1 ≤ window) (numbers : List Nat) :
    ((accepted window numbers).Nodup ↔ Throughout (fun before sequence => sequence ∈ accepted window before →
      sequence ∈ lastAccepted window before ∨ Behind window before sequence) numbers) ∧
    ∀ sequence, let decision := (observe ((datagramGuard window).exec numbers) sequence).2
      (sequence ∉ numbers → ¬Behind window numbers sequence → decision = .accept) ∧
        (Behind window numbers sequence → decision ≠ .accept) := by
  refine ⟨?_, fun sequence => ⟨fun hnew hfar => ?_, fun hfar hacc => ?_⟩⟩
  · induction numbers using reverseRecOn with
    | nil => exact ⟨fun _ => .nil, fun _ => nodup_nil⟩
    | append_singleton numbers sequence ih =>
      have hacc := observe_eq_accept hw numbers sequence
      rw [accepted_concat]
      constructor
      · intro hnd
        refine (ih.mp (nodup_append.mp hnd).1).concat fun hmem => ?_
        by_contra hnot
        rw [if_pos (hacc.mpr (not_or.mp hnot))] at hnd
        exact (nodup_append.mp hnd).2.2 sequence hmem sequence (mem_singleton_self _) rfl
      · intro h
        obtain ⟨hpre, hlast⟩ := h.of_concat
        split_ifs with hyes
        · refine nodup_append.mpr ⟨ih.mpr hpre, by simp, ?_⟩
          rintro _ hmem _ hnew rfl
          cases mem_singleton.mp hnew
          exact not_or.mpr (hacc.mp hyes) (hlast hmem)
        · exact (append_nil (accepted window numbers)).symm ▸ ih.mpr hpre
  · refine (observe_eq_accept hw numbers sequence).mpr ⟨fun hmem => hnew ?_, hfar⟩
    obtain ⟨entry, hent, hsome⟩ := mem_filterMap.mp (mem_of_mem_drop hmem)
    rw [← (datagramGuard window).map_fst_log numbers]
    split_ifs at hsome
    exact Option.some.inj hsome ▸ mem_map_of_mem hent
  · exact ((observe_eq_accept hw numbers sequence).mp hacc).2 hfar

/-- A number that is two behind is refused by a window of two. -/
theorem accepted_once_iff_behind : (observe ((datagramGuard 2).exec [10, 12]) 10).2 ≠ .accept :=
  ((accepted_once_iff (by decide) [10, 12]).2 10).2 ⟨12, by decide, by decide⟩

/-- With a window of two, a late number pushes out one that is still within the window, which is then accepted again. -/
theorem accepted_twice : accepted 2 [10, 9, 11, 10] = [10, 9, 11, 10] := by
  decide

end DatagramSequenceGuard
end Arcen
