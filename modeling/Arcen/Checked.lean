import Mathlib.Tactic

/-! Computations that return a value, return an error, or panic. A read out of bounds is a panic, so that a
function which never panics never indexes out of bounds. -/

namespace Arcen

/-- The outcome of fallible code that may also panic. -/
inductive Checked (ε α : Type) where
  | ok (value : α)
  | error (error : ε)
  | panicked
  deriving DecidableEq

namespace Checked

variable {ε δ α β : Type}

protected def bind (x : Checked ε α) (f : α → Checked ε β) : Checked ε β :=
  match x with
  | ok value => f value
  | error e => error e
  | panicked => panicked

instance : Monad (Checked ε) where
  pure := ok
  bind := Checked.bind

def mapError (f : ε → δ) : Checked ε α → Checked δ α
  | ok value => ok value
  | error e => error (f e)
  | panicked => panicked

/-- `if c { return Err(e) }`. -/
def refuseIf (c : Prop) [Decidable c] (e : ε) : Checked ε Unit := if c then error e else ok ()

variable (xs : List α)

/-- `xs[i]`. -/
def index (i : Nat) : Checked ε α :=
  match xs[i]? with
  | some x => ok x
  | none => panicked

/-- `&xs[start..]`. -/
def sliceFrom (start : Nat) : Checked ε (List α) := if start ≤ xs.length then ok (xs.drop start) else panicked

/-- `&xs[..stop]`. -/
def sliceTo (stop : Nat) : Checked ε (List α) := if stop ≤ xs.length then ok (xs.take stop) else panicked

/-! ### When a computation ends well -/

variable {x : Checked ε α} {f : α → Checked ε β} {xs : List α} {i : Nat}

theorem bind_eq_ok : x >>= f = ok b ↔ ∃ a, x = ok a ∧ f a = ok b := by
  change Checked.bind x f = ok b ↔ _
  cases x <;> simp [Checked.bind]

theorem ok_bind (a : α) (f : α → Checked ε β) : (ok a >>= f) = f a := rfl

variable {a : α} {c : Prop} {e : ε} {ys : List α} {start stop : Nat}

theorem pure_eq_ok : (pure a : Checked ε α) = ok b ↔ a = b := by
  change (ok a : Checked ε α) = ok b ↔ _
  rw [ok.injEq]

theorem mapError_eq_ok {f : ε → δ} : mapError f x = ok a ↔ x = ok a := by
  cases x <;> simp [mapError]

theorem refuseIf_eq_ok [Decidable c] : refuseIf c e = ok u ↔ ¬c := by
  unfold refuseIf
  split_ifs with h <;> simp [h]

theorem index_eq_ok {x : α} : (index xs i : Checked ε α) = ok x ↔ xs[i]? = some x := by
  unfold index
  cases xs[i]? <;> simp

theorem sliceFrom_eq_ok : (sliceFrom xs start : Checked ε (List α))
    = ok ys ↔ start ≤ xs.length ∧ xs.drop start = ys := by
  unfold sliceFrom
  split_ifs with h <;> simp [h]

theorem sliceTo_eq_ok : (sliceTo xs stop : Checked ε (List α)) = ok ys ↔ stop ≤ xs.length ∧ xs.take stop = ys := by
  unfold sliceTo
  split_ifs with h <;> simp [h]

/-! ### When a computation panics -/

theorem bind_ne_panicked (hx : x ≠ panicked) (hf : ∀ a, x = ok a → f a ≠ panicked) : x >>= f ≠ panicked := by
  cases x with
  | ok value => exact hf value rfl
  | error => exact nofun
  | panicked => exact absurd rfl hx

theorem mapError_ne_panicked {f : ε → δ} (hx : x ≠ panicked) : mapError f x ≠ panicked := by
  cases x with
  | ok | error => exact nofun
  | panicked => exact absurd rfl hx

theorem refuseIf_ne_panicked (c : Prop) [Decidable c] (e : ε) : refuseIf c e ≠ panicked := by
  unfold refuseIf
  split_ifs <;> exact nofun

theorem index_ne_panicked (h : i < xs.length) : (index xs i : Checked ε α) ≠ panicked := by
  unfold index
  rw [List.getElem?_eq_getElem h]
  exact nofun

theorem sliceFrom_ne_panicked (h : start ≤ xs.length) : (sliceFrom xs start : Checked ε (List α)) ≠ panicked := by
  unfold sliceFrom
  rw [if_pos h]
  exact nofun

theorem sliceTo_ne_panicked (h : stop ≤ xs.length) : (sliceTo xs stop : Checked ε (List α)) ≠ panicked := by
  unfold sliceTo
  rw [if_pos h]
  exact nofun

theorem refuseIf_bind_ne_panicked [Decidable c] {f : Unit → Checked ε α} (hf : ¬c → f () ≠ panicked)
    : refuseIf c e >>= f ≠ panicked := bind_ne_panicked (refuseIf_ne_panicked c e) fun _ h => hf (refuseIf_eq_ok.mp h)

theorem index_bind_ne_panicked (hi : i < xs.length) (hf : ∀ x, xs[i]? = some x → f x ≠ panicked)
    : index xs i >>= f ≠ panicked := bind_ne_panicked (index_ne_panicked hi) fun x h => hf x (index_eq_ok.mp h)

end Checked
end Arcen
