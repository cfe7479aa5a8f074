import Arcen.Machine

/-! The output transaction (`outputs/provider/transaction.rs`). What the provider answers comes with a call: a commit
brings the answer to it, and the answer to the rollback that follows when it fails. -/

namespace Arcen

open List

inductive OutputTransactionState where
  | bound
  | committed
  | rolledBack
  deriving DecidableEq

inductive OutputTransactionError (ε : Type) where
  | operation (source : ε)
  | rollback (source rollback : ε)

inductive ProviderCall (ε : Type) where
  | commit (answer : Except ε Unit)
  | rollback (answer : Except ε Unit)

inductive TransactionCall (ε : Type) where
  | commit (answer undo : Except ε Unit)
  | rollback (answer : Except ε Unit)

inductive TransactionReply (ε : Type) where
  | committed (result : Except (OutputTransactionError ε) Unit)
  | rolledBack (result : Except ε Unit)

namespace OutputTransactionState

variable {ε : Type} (state : OutputTransactionState)

/-- The state after a commit, the calls of the provider and the result; all errors are of the commit stage. -/
def commit (answer undo : Except ε Unit) :
    OutputTransactionState × List (ProviderCall ε) × Except (OutputTransactionError ε) Unit :=
  match state with
  | .committed | .rolledBack => (state, [], .ok ())
  | .bound =>
    match answer with
    | .ok () => (.committed, [.commit (.ok ())], .ok ())
    | .error source =>
      match undo with
      | .ok () => (.rolledBack, [.commit (.error source), .rollback (.ok ())], .error (.operation source))
      | .error rollback =>
        (.bound, [.commit (.error source), .rollback (.error rollback)], .error (.rollback source rollback))

def rollback (answer : Except ε Unit) : OutputTransactionState × List (ProviderCall ε) × Except ε Unit :=
  match state with
  | .rolledBack => (state, [], .ok ())
  | .bound | .committed =>
    match answer with
    | .ok () => (.rolledBack, [.rollback (.ok ())], .ok ())
    | .error error => (state, [.rollback (.error error)], .error error)

/-- Whether the output is handed to the session; in every other state the transaction is handed back. -/
def intoCommitted : Bool := state = .committed

end OutputTransactionState

open OutputTransactionState

/-- A transaction as `acquire` returns it: bound and verified, with no rollback of its binding. -/
def outputTransaction (ε : Type) :
    Machine OutputTransactionState (TransactionCall ε) (List (ProviderCall ε) × TransactionReply ε) where
  init := .bound
  step state
    | .commit answer undo =>
      let (next, calls, result) := state.commit answer undo
      (next, calls, .committed result)
    | .rollback answer =>
      let (next, calls, result) := state.rollback answer
      (next, calls, .rolledBack result)

variable {ε : Type}

def providerCalls (calls : List (TransactionCall ε)) : List (ProviderCall ε) :=
  ((outputTransaction ε).log calls).flatMap (·.2.1)

/-- A rollback that succeeds is the last call of the provider, and rolls the transaction back. -/
def Released (calls : List (ProviderCall ε)) (state : OutputTransactionState) : Prop :=
  ∀ before after, calls = before ++ .rollback (.ok ()) :: after → after = [] ∧ state = .rolledBack

theorem released_commit (state : OutputTransactionState) (answer undo : Except ε Unit) :
    Released (state.commit answer undo).2.1 (state.commit answer undo).1 := by
  intro before after h
  cases state with
  | committed | rolledBack => simp [commit] at h
  | bound =>
    rcases answer with source | ⟨⟩
    · rcases undo with error | ⟨⟩ <;>
        simp [commit, cons_eq_append_iff] at h ⊢
      exact h.2
    · simp [commit, cons_eq_append_iff] at h

theorem released_rollback (state : OutputTransactionState) (answer : Except ε Unit) :
    Released (state.rollback answer).2.1 (state.rollback answer).1 := by
  intro before after h
  cases state with
  | rolledBack => simp [rollback] at h
  | bound | committed =>
    rcases answer with error | ⟨⟩ <;> simp [rollback, cons_eq_append_iff] at h ⊢
    exact h.2

theorem Released.append {state next : OutputTransactionState}
    (h : Released calls state) (hnew : Released new next) (hdone : state = .rolledBack → new = [] ∧ next = .rolledBack) :
    Released (calls ++ new) next := by
  intro before after hsplit
  rcases append_eq_append_iff.mp hsplit with ⟨middle, -, hrest⟩ | ⟨middle, rfl, hrest⟩
  · exact hnew _ after hrest
  · cases middle with
    | nil => exact hnew [] after hrest.symm
    | cons first middle =>
      obtain ⟨rfl, rfl⟩ := cons_eq_cons.mp hrest
      obtain ⟨rfl, hstate⟩ := h before middle rfl
      exact hdone hstate

theorem released_log (calls : List (TransactionCall ε)) :
    Released (providerCalls calls) ((outputTransaction ε).exec calls) := by
  refine (outputTransaction ε).log_invariant (P := fun log state => Released (log.flatMap (·.2.1)) state) ?_ ?_ calls
  · simp [Released]
  · intro log state call h
    rw [flatMap_append, flatMap_singleton]
    cases call with
    | commit answer undo =>
      refine h.append (released_commit state answer undo) ?_
      rintro rfl
      exact ⟨rfl, rfl⟩
    | rollback answer =>
      refine h.append (released_rollback state answer) ?_
      rintro rfl
      exact ⟨rfl, rfl⟩

/-- **Handed over.** A session gets the output exactly if a commit of the provider succeeded and no rollback did. -/
theorem handed_over_iff (calls : List (TransactionCall ε)) : ((outputTransaction ε).exec calls).intoCommitted ↔
    .commit (.ok ()) ∈ providerCalls calls ∧ .rollback (.ok ()) ∉ providerCalls calls := by
  refine (outputTransaction ε).log_invariant (P := fun log state => let made := log.flatMap (·.2.1)
    (state.intoCommitted ↔ .commit (.ok ()) ∈ made ∧ .rollback (.ok ()) ∉ made) ∧
      (state = .rolledBack ↔ .rollback (.ok ()) ∈ made)) (by simp [outputTransaction, intoCommitted]) ?_ calls |>.1
  intro log state call h
  rw [flatMap_append, flatMap_singleton]
  generalize log.flatMap (·.2.1) = made at h ⊢
  rcases call with ⟨_ | _, _ | _⟩ | _ | _ <;> cases state <;>
    simp_all [outputTransaction, commit, rollback, intoCommitted] <;> exact fun hc => h.2 (h.1 hc)

/-- **Released once.** Once a rollback of the provider has succeeded, the provider is not called again, neither to commit
nor to roll back, and the output is not handed to a session. -/
theorem rolled_back_never_committed (calls : List (TransactionCall ε)) (before after : List (ProviderCall ε))
    (h : providerCalls calls = before ++ .rollback (.ok ()) :: after) :
    after = [] ∧ ((outputTransaction ε).exec calls).intoCommitted = false := by
  obtain ⟨hlast, hstate⟩ := released_log calls before after h
  rw [hstate]
  exact ⟨hlast, rfl⟩

/-- A commit fails, its rollback succeeds, and a second commit does not reach the provider. -/
theorem rolled_back_never_committed_retry :
    ((outputTransaction String).exec [.commit (.error "commit") (.ok ()), .commit (.ok ()) (.ok ())]).intoCommitted =
      false := (rolled_back_never_committed [.commit (.error "commit") (.ok ()), .commit (.ok ()) (.ok ())]
    [.commit (.error "commit")] [] rfl).2

/-- A commit fails and so does its rollback: the next commit reaches the provider, and the output is handed over. -/
theorem commit_after_failed_rollback : let calls : List (TransactionCall String) :=
      [.commit (.error "commit") (.error "rollback"), .commit (.ok ()) (.ok ())]
    providerCalls calls = [.commit (.error "commit"), .rollback (.error "rollback"), .commit (.ok ())] ∧
      ((outputTransaction String).exec calls).intoCommitted = true := ⟨rfl, rfl⟩

end Arcen
