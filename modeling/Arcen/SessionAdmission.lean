import Arcen.Fallible
import Arcen.Machine

/-! Session admission (`session/session_admission.rs`): gates of capacity one, and the leases they hand out. A lease is
passed by reference to any gate, so the leases of a family of gates are kept with the gates, in their order of issue. -/

namespace Arcen

open List Function

def maxReconnectHoldSeconds : Nat := 2 * 60 * 60

structure SessionAdmissionLease where
  token : Nat
  reconnectUntil : Option Nat

inductive SessionAdmissionError where
  | sessionAlreadyActive
  | foreignLease
  | reconnectHoldExpired
  | reconnectHoldOutOfRange

abbrev Admit := Except SessionAdmissionError

structure SessionAdmissionGate where
  activeToken : Option Nat := none
  nextToken : Nat := 1

namespace SessionAdmissionGate

variable (gate : SessionAdmissionGate) (lease : SessionAdmissionLease)

/-- The number of a lease saturates at 64 bits. -/
def admitNew : Admit (SessionAdmissionLease × SessionAdmissionGate) := do
  refuseWhen gate.activeToken.isSome .sessionAlreadyActive
  pure (⟨gate.nextToken, none⟩, ⟨some gate.nextToken, min (gate.nextToken + 1) (2 ^ 64 - 1)⟩)

def validateLease : Admit Unit := refuseWhen (gate.activeToken ≠ some lease.token) .foreignLease

def holdForReconnect (now reconnectUntil : Nat) : Admit SessionAdmissionLease := do
  gate.validateLease lease
  refuseWhen (reconnectUntil < now) .reconnectHoldExpired
  refuseWhen (maxReconnectHoldSeconds < reconnectUntil - now) .reconnectHoldOutOfRange
  pure { lease with reconnectUntil := some reconnectUntil }

def resume (now : Nat) : Admit SessionAdmissionLease := do
  gate.validateLease lease
  let reconnectUntil ← orError .reconnectHoldExpired lease.reconnectUntil
  refuseWhen (reconnectUntil < now) .reconnectHoldExpired
  pure { lease with reconnectUntil := none }

def complete : Admit SessionAdmissionGate := do
  refuseWhen (gate.activeToken ≠ some lease.token) .foreignLease
  pure { gate with activeToken := none }

end SessionAdmissionGate

inductive LeaseCall where
  | holdForReconnect (now reconnectUntil : Nat)
  | resume (now : Nat)
  | complete

def LeaseCall.run (gate : SessionAdmissionGate) (lease : SessionAdmissionLease) :
    LeaseCall → Admit (SessionAdmissionLease × SessionAdmissionGate)
  | .holdForReconnect now reconnectUntil => do
      let lease ← gate.holdForReconnect lease now reconnectUntil
      pure (lease, gate)
  | .resume now => do
      let lease ← gate.resume lease now
      pure (lease, gate)
  | .complete => do
      let gate ← gate.complete lease
      pure (lease, gate)

/-- A family of gates, the leases they issued in order, each with its gate and its number, and the leases' holds. -/
structure AdmissionState (G : Type) where
  gates : G → SessionAdmissionGate
  issued : List (G × Nat)
  reconnectUntil : Nat → Option Nat

/-- A lease is named by its position. -/
inductive AdmissionCall (G : Type) where
  | admitNew (gate : G)
  | onLease (gate : G) (position : Nat) (call : LeaseCall)

variable {G : Type} [DecidableEq G]

def AdmissionState.apply (state : AdmissionState G) : AdmissionCall G → Admit (AdmissionState G)
  | .admitNew gate => do
      let (lease, next) ← (state.gates gate).admitNew
      pure ⟨update state.gates gate next, state.issued ++ [(gate, lease.token)],
        update state.reconnectUntil state.issued.length lease.reconnectUntil⟩
  | .onLease gate position call => do
      let entry ← orError .foreignLease state.issued[position]?
      let (lease, next) ← call.run (state.gates gate) ⟨entry.2, state.reconnectUntil position⟩
      pure ⟨update state.gates gate next, state.issued, update state.reconnectUntil position lease.reconnectUntil⟩

/-- A call that fails leaves the state. -/
def sessionAdmission (G : Type) [DecidableEq G] : Machine (AdmissionState G) (AdmissionCall G) (Admit Unit) where
  init := ⟨fun _ => {}, [], fun _ => none⟩
  step state call :=
    match state.apply call with
    | .ok next => (next, .ok ())
    | .error error => (state, .error error)

def admissions (issued : List (G × Nat)) (gate : G) : Nat := issued.countP (·.1 = gate)

/-! ### What a call does -/

/-- A call on a lease that succeeds finds its number active, and only a completion frees the gate. -/
theorem LeaseCall.run_eq_ok {gate : SessionAdmissionGate} {lease : SessionAdmissionLease} {call : LeaseCall}
    (h : call.run gate lease = .ok result) :
    gate.activeToken = some lease.token ∧ result.2.nextToken = gate.nextToken ∧
      (result.2.activeToken = none ∨ call ≠ .complete ∧ result.2 = gate) := by
  cases call with
  | holdForReconnect now reconnectUntil | resume now =>
    obtain ⟨_, hchange, h⟩ := exceptBind_eq_ok.mp h
    obtain ⟨_, ha, -⟩ := exceptBind_eq_ok.mp hchange
    cases exceptPure_eq_ok.mp h
    exact ⟨not_not.mp (refuseWhen_eq_ok.mp ha), rfl, .inr ⟨nofun, rfl⟩⟩
  | complete =>
    obtain ⟨_, hchange, h⟩ := exceptBind_eq_ok.mp h
    obtain ⟨_, ha, hfree⟩ := exceptBind_eq_ok.mp hchange
    cases exceptPure_eq_ok.mp h
    cases exceptPure_eq_ok.mp hfree
    exact ⟨not_not.mp (refuseWhen_eq_ok.mp ha), rfl, .inl rfl⟩

section

variable {state next : AdmissionState G} {gate : G} {position : Nat} {call : LeaseCall}

theorem apply_admitNew (h : state.apply (.admitNew gate) = .ok next) :
    next.issued = state.issued ++ [(gate, (state.gates gate).nextToken)] ∧ next.gates = update state.gates gate
      ⟨some (state.gates gate).nextToken, min ((state.gates gate).nextToken + 1) (2 ^ 64 - 1)⟩ := by
  obtain ⟨_, hadm, h⟩ := exceptBind_eq_ok.mp h
  obtain ⟨_, -, hadm⟩ := exceptBind_eq_ok.mp hadm
  cases exceptPure_eq_ok.mp hadm
  cases exceptPure_eq_ok.mp h
  exact ⟨rfl, rfl⟩

theorem apply_onLease (h : state.apply (.onLease gate position call) = .ok next) :
    ∃ entry after, state.issued[position]? = some entry ∧ (state.gates gate).activeToken = some entry.2 ∧
      next.issued = state.issued ∧ next.gates = update state.gates gate after ∧
      after.nextToken = (state.gates gate).nextToken ∧
      (after.activeToken = none ∨ call ≠ .complete ∧ after = state.gates gate) := by
  obtain ⟨entry, hent, h⟩ := exceptBind_eq_ok.mp h
  obtain ⟨_, hrun, h⟩ := exceptBind_eq_ok.mp h
  obtain ⟨ha, hn, hfree⟩ := LeaseCall.run_eq_ok hrun
  cases exceptPure_eq_ok.mp h
  exact ⟨entry, _, orError_eq_ok.mp hent, ha, rfl, rfl, hn, hfree⟩

end

/-! ### Runs -/

/-- What a log of calls says about the gates and the leases. -/
structure AdmissionKept (log : List (AdmissionCall G × Admit Unit)) (gates : G → SessionAdmissionGate)
    (issued : List (G × Nat)) : Prop where
  nodup : issued.Nodup
  le : ∀ entry ∈ issued, entry.2 ≤ admissions issued entry.1
  next : ∀ gate, (gates gate).nextToken = min (admissions issued gate + 1) (2 ^ 64 - 1)
  completed : ∀ gate position, (.onLease gate position .complete, .ok ()) ∈ log →
    ∃ entry, issued[position]? = some entry ∧ (entry.1 = gate → (gates gate).activeToken ≠ some entry.2)

namespace AdmissionKept

variable {log : List (AdmissionCall G × Admit Unit)} {gates : G → SessionAdmissionGate} {issued : List (G × Nat)}
  {gate : G} (h : AdmissionKept log gates issued)
include h

theorem admitNew (hf : admissions issued gate + 1 < 2 ^ 64) : AdmissionKept (log ++ [(.admitNew gate, .ok ())])
      (update gates gate ⟨some (gates gate).nextToken, min ((gates gate).nextToken + 1) (2 ^ 64 - 1)⟩)
      (issued ++ [(gate, (gates gate).nextToken)]) := by
  have htok : (gates gate).nextToken = admissions issued gate + 1 := by
    rw [h.next gate]
    omega
  rw [htok]
  have hcnt : ∀ other, admissions (issued ++ [(gate, admissions issued gate + 1)]) other =
      admissions issued other + if gate = other then 1 else 0 := by
    intro other
    simp [admissions]
  refine ⟨?_, ?_, ?_, ?_⟩
  · refine nodup_append.mpr ⟨h.nodup, by simp, ?_⟩
    rintro entry hent _ hl rfl
    have hle := h.le entry hent
    rw [mem_singleton.mp hl] at hle
    exact Nat.not_succ_le_self _ hle
  · intro entry hent
    rw [hcnt]
    rcases mem_append.mp hent with hold | hl
    · exact Nat.le_trans (h.le entry hold) (Nat.le_add_right _ _)
    · simp [mem_singleton.mp hl]
  · intro other
    rw [hcnt, update_apply]
    by_cases ho : other = gate
    · rw [if_pos ho, if_pos ho.symm, ho]
    · rw [if_neg ho, if_neg (Ne.symm ho)]
      exact h.next other
  · intro other position hmem
    obtain ⟨entry, hent, hne⟩ := h.completed other position (by simpa using hmem)
    refine ⟨entry, ?_, fun hg => ?_⟩
    · rw [getElem?_append_left (List.getElem?_eq_some_iff.mp hent).1]
      exact hent
    · rw [update_apply]
      split_ifs with ho
      · -- the numbers issued before are smaller
        have hle := h.le entry (mem_of_getElem? hent)
        rw [hg, ho] at hle
        intro ha
        exact Nat.not_succ_le_self _ (Option.some.inj ha ▸ hle)
      · exact hne hg

theorem onLease {call : LeaseCall} {position : Nat} (hent : issued[position]? = some entry)
    {after : SessionAdmissionGate} (hn : after.nextToken = (gates gate).nextToken)
    (hfree : after.activeToken = none ∨ call ≠ .complete ∧ after = gates gate) :
    AdmissionKept (log ++ [(.onLease gate position call, .ok ())]) (update gates gate after) issued := by
  refine ⟨h.nodup, h.le, fun other => ?_, fun other place hmem => ?_⟩
  · rw [update_apply]
    split_ifs with ho
    · rw [hn, ho]
      exact h.next gate
    · exact h.next other
  · rw [update_apply]
    rcases mem_append.mp hmem with hold | hl
    · obtain ⟨found, hfnd, hne⟩ := h.completed other place hold
      refine ⟨found, hfnd, fun hg => ?_⟩
      split_ifs with ho
      · rcases hfree with hnone | ⟨-, rfl⟩
        · rw [hnone]
          exact nofun
        · exact ho ▸ hne hg
      · exact hne hg
    · cases mem_singleton.mp hl
      have hnone := hfree.resolve_right fun hkept => hkept.1 rfl
      refine ⟨entry, hent, fun _ => ?_⟩
      rw [if_pos rfl, hnone]
      exact nofun

end AdmissionKept

theorem admission_kept (calls : List (AdmissionCall G))
    (hf : ∀ gate, admissions ((sessionAdmission G).exec calls).issued gate < 2 ^ 64) :
    AdmissionKept ((sessionAdmission G).log calls) ((sessionAdmission G).exec calls).gates
      ((sessionAdmission G).exec calls).issued := by
  refine (sessionAdmission G).log_invariant (P := fun log state => (∀ gate, admissions state.issued gate < 2 ^ 64) →
    AdmissionKept log state.gates state.issued) (fun _ => ⟨nodup_nil, nofun, fun _ => rfl, nofun⟩) ?_ calls hf
  intro log state call h hf
  simp only [sessionAdmission] at hf ⊢
  cases hres : state.apply call with
  | error error =>
    rw [hres] at hf
    obtain ⟨hnodup, hle, hn, hcomp⟩ := h hf
    exact ⟨hnodup, hle, hn, fun gate position hmem => hcomp gate position (by simpa using hmem)⟩
  | ok next =>
    rw [hres] at hf
    cases call with
    | admitNew gate =>
      obtain ⟨hissue, hgates⟩ := apply_admitNew hres
      simp only [hissue, hgates] at hf ⊢
      have hmore := hf gate
      rw [admissions, countP_append, countP_singleton, decide_eq_true rfl] at hmore
      exact (h fun other => Nat.lt_of_le_of_lt (sublist_append_left _ _).countP_le (hf other)).admitNew hmore
    | onLease gate position call =>
      obtain ⟨_, _, hent, -, hissue, hgates, hn, hfree⟩ := apply_onLease hres
      simp only [hissue, hgates] at hf ⊢
      exact (h hf).onLease hent hn hfree

/-- **Leases and gates.** At every point of a run the calls with a lease at a gate succeed only if the gate issued the
lease and it was not completed there, exactly when it is a lease of that gate or bears another number than the active
one; and two leases of a gate that bear its active number are one. -/
theorem lease_used_at_own_gate (calls : List (AdmissionCall G))
    (hfew : ∀ gate, admissions ((sessionAdmission G).exec calls).issued gate < 2 ^ 64) (gate : G) (position : Nat)
    (entry : G × Nat) (hent : ((sessionAdmission G).exec calls).issued[position]? = some entry) :
    let state := (sessionAdmission G).exec calls
    ((∀ call next, state.apply (.onLease gate position call) = .ok next →
        entry.1 = gate ∧ (.onLease gate position .complete, .ok ()) ∉ (sessionAdmission G).log calls) ↔
      (entry.1 = gate ∨ (state.gates gate).activeToken ≠ some entry.2)) ∧
    ∀ other holder, state.issued[other]? = some holder → holder.1 = entry.1 → holder.2 = entry.2 →
      other = position := by
  have hkept := admission_kept calls hfew
  intro state
  refine ⟨⟨fun hown => ?_, fun hcond call next h => ?_⟩, fun other holder hother hg htoken => ?_⟩
  · by_contra hnot
    obtain ⟨hforeign, ha⟩ := not_or.mp hnot
    have hcomp : (state.gates gate).complete ⟨entry.2, state.reconnectUntil position⟩ = .ok _ :=
      exceptBind_eq_ok.mpr ⟨(), refuseWhen_eq_ok.mpr ha, rfl⟩
    have hrun : LeaseCall.complete.run _ _ = .ok _ := exceptBind_eq_ok.mpr ⟨_, hcomp, rfl⟩
    exact hforeign (hown .complete _ (exceptBind_eq_ok.mpr ⟨entry, orError_eq_ok.mpr hent,
      exceptBind_eq_ok.mpr ⟨_, hrun, rfl⟩⟩)).1
  · obtain ⟨_, _, hfnd, ha, -⟩ := apply_onLease h
    cases hfnd.symm.trans hent
    have hg := hcond.resolve_right (not_not.mpr ha)
    refine ⟨hg, fun hmem => ?_⟩
    obtain ⟨_, hdone, hne⟩ := hkept.completed gate position hmem
    cases hdone.symm.trans hent
    exact hne hg ha
  · have hlt := (List.getElem?_eq_some_iff.mp hother).1
    refine (getElem?_inj hlt hkept.nodup).mp ?_
    rw [hother, hent, Prod.ext hg htoken]

/-- The lease of a gate completes there. -/
theorem lease_used_at_own_gate_first : (.onLease false 0 .complete, .ok ())
    ∉ (sessionAdmission Bool).log [.admitNew false] :=
  ((lease_used_at_own_gate [.admitNew false] (by decide) false 0 (false, 1) rfl).1.mpr (.inl rfl) .complete _ rfl).2

/-- The first leases of two gates bear one number, and the lease of one gate frees the other. -/
theorem foreign_lease_completes :
    let state := (sessionAdmission Bool).exec [.admitNew false, .admitNew true]
    state.issued[0]? = some (false, 1) ∧ (state.gates true).activeToken = some 1 ∧
      ∃ next, state.apply (.onLease true 0 .complete) = .ok next ∧ (next.gates true).activeToken = none :=
  ⟨rfl, rfl, _, rfl, rfl⟩

end Arcen
