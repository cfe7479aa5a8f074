import Mathlib.Tactic

/-! Code made of atomic steps on a state that outlives it, such as a directory. A process may stop between any two
steps, and what it leaves is then what the next process finds. The rules below follow the code: besides what holds
before and after it, a triple says what holds of every state a stop may leave. -/

namespace Arcen

open List

/-- Code on a state: the states before each of its steps, its result, and the state it leaves. -/
def Steps (σ ε α : Type) : Type := σ → List σ × Except ε α × σ

namespace Steps

variable {σ ε α β : Type}

protected def pure (a : α) : Steps σ ε α := fun s => ([], .ok a, s)

/-- An error ends the code; the steps before it stay done. -/
protected def bind (code : Steps σ ε α) (next : α → Steps σ ε β) : Steps σ ε β := fun s =>
  match code s with
  | (passed, .ok a, t) => (passed ++ (next a t).1, (next a t).2)
  | (passed, .error e, t) => (passed, .error e, t)

instance : Monad (Steps σ ε) where
  pure := Steps.pure
  bind := Steps.bind

def throw (e : ε) : Steps σ ε α := fun s => ([], .error e, s)

/-- One step. -/
def atomic (f : σ → σ) : Steps σ ε Unit := fun s => ([s], .ok (), f s)

/-- One step that may be impossible, and then changes nothing. -/
def tryAtomic (f : σ → Option σ) (e : ε) : Steps σ ε Unit := fun s =>
  match f s with
  | some t => ([s], .ok (), t)
  | none => ([s], .error e, s)

/-- Looks at the state without a step. -/
def read (f : σ → α) : Steps σ ε α := fun s => ([], .ok (f s), s)

def ofExcept (result : Except ε α) : Steps σ ε α := fun s => ([], result, s)

/-- `let _ = …`: the code's error is dropped. -/
def ignore (code : Steps σ ε Unit) : Steps σ ε Unit := fun s => ((code s).1, .ok (), (code s).2.2)

/-- `if let Err(error) = …`: the code's result, error or not. -/
def attempt {δ : Type} (code : Steps σ ε α) : Steps σ δ (Except ε α) := fun s => ((code s).1, .ok (code s).2.1, (code s).2.2)

/-- Runs a body for every item, up to the first error. -/
def each (items : List β) (body : β → Steps σ ε Unit) : Steps σ ε Unit :=
  match items with
  | [] => pure ()
  | item :: items => do
      body item
      each items body

/-- Every state in which a stop may leave a run, the last one included. -/
def stops (code : Steps σ ε α) (s : σ) : List σ := (code s).1 ++ [(code s).2.2]

/-- The states left by any number of runs that were stopped, one after the other. -/
inductive AfterStops (code : Steps σ ε α) : σ → σ → Prop
  | none (s : σ) : AfterStops code s s
  | stop {s t u : σ} (hstop : t ∈ code.stops s) (hlater : AfterStops code t u) : AfterStops code s u

/-! ### Triples -/

/-- From a state with `before`, the code ends with a result and a state as `ok` or `error` says, and stops only in
states with `stop`. -/
def Triple (before : σ → Prop) (code : Steps σ ε α) (ok : α → σ → Prop) (error : ε → σ → Prop) (stop : σ → Prop) :
    Prop := ∀ s, before s → (∀ t ∈ (code s).1, stop t) ∧ match (code s).2.1 with
    | .ok a => ok a (code s).2.2
    | .error e => error e (code s).2.2

variable {before mid : σ → Prop} {ok : α → σ → Prop} {error : ε → σ → Prop} {stop : σ → Prop}

theorem of_either {result : Except ε α} {P : Prop} (h : match result with | .ok _ => P | .error _ => P) : P := by
  cases result <;> exact h

theorem Triple.pure (h : ∀ s, before s → ok a s) : Triple before (Pure.pure a : Steps σ ε α) ok error stop :=
  fun s hs => ⟨nofun, h s hs⟩

theorem Triple.throw (h : ∀ s, before s → error e s) : Triple before (throw e) ok error stop :=
  fun s hs => ⟨nofun, h s hs⟩

variable {f : σ → α} {code : Steps σ ε α} {next : α → Steps σ ε β}

theorem Triple.read (h : ∀ s, before s → ok (f s) s) : Triple before (read f) ok error stop :=
  fun s hs => ⟨nofun, h s hs⟩

theorem Triple.atomic {f : σ → σ} {ok : Unit → σ → Prop} (hstop : ∀ s, before s → stop s)
    (h : ∀ s, before s → ok () (f s)) : Triple before (atomic f) ok error stop :=
  fun s hs => ⟨forall_mem_singleton.mpr (hstop s hs), h s hs⟩

theorem Triple.tryAtomic {f : σ → Option σ} {ok : Unit → σ → Prop} (hstop : ∀ s, before s → stop s)
    (hok : ∀ s t, before s → f s = some t → ok () t) (herror : ∀ s, before s → f s = none → error e s) :
    Triple before (tryAtomic f e) ok error stop := by
  intro s hs
  rw [Steps.tryAtomic]
  cases hf : f s with
  | some t => exact ⟨forall_mem_singleton.mpr (hstop s hs), hok s t hs hf⟩
  | none => exact ⟨forall_mem_singleton.mpr (hstop s hs), herror s hs hf⟩

theorem Triple.bind {ok : β → σ → Prop} (mid : α → σ → Prop) (hcode : Triple before code mid error stop)
    (hnext : ∀ a, Triple (mid a) (next a) ok error stop) : Triple before (code >>= next) ok error stop := by
  intro s hs
  obtain ⟨hp, hr⟩ := hcode s hs
  change (∀ t ∈ (Steps.bind code next s).1, stop t) ∧ match (Steps.bind code next s).2.1 with
    | .ok a => ok a (Steps.bind code next s).2.2
    | .error e => error e (Steps.bind code next s).2.2
  rw [Steps.bind]
  rcases hrun : code s with ⟨passed, result, t⟩
  rw [hrun] at hp hr
  cases result with
  | error => exact ⟨hp, hr⟩
  | ok a =>
    obtain ⟨hlat, hfinal⟩ := hnext a t hr
    exact ⟨forall_mem_append.mpr ⟨hp, hlat⟩, hfinal⟩

theorem Triple.bindRead {ok : β → σ → Prop} (h : ∀ a, Triple (fun s => before s ∧ a = f s) (next a) ok error stop) :
    Triple before (Steps.read f >>= next) ok error stop :=
  .bind (fun a s => before s ∧ a = f s) (.read fun _ hs => ⟨hs, rfl⟩) h

theorem read_bind (f : σ → α) (next : α → Steps σ ε β) (s : σ) : (Steps.read f >>= next) s = next (f s) s := rfl

/-- A look at something the code knows already. -/
theorem Triple.bindKnown {ok : β → σ → Prop} (hknown : ∀ s, before s → f s = a)
    (h : Triple before (next a) ok error stop) : Triple before (Steps.read f >>= next) ok error stop := by
  intro s hs
  rw [read_bind, hknown s hs]
  exact h s hs

theorem ofExcept_ok_bind (a : α) (next : α → Steps σ ε β) : (Steps.ofExcept (.ok a) >>= next) = next a := rfl

theorem Triple.from (h : Triple mid code ok error stop) (hpre : ∀ s, before s → mid s) :
    Triple before code ok error stop := fun s hs => h s (hpre s hs)

theorem Triple.weaken {ok' : α → σ → Prop} {error' : ε → σ → Prop} (h : Triple before code ok' error' stop)
    (hok : ∀ a s, ok' a s → ok a s) (herror : ∀ e s, error' e s → error e s) : Triple before code ok error stop := by
  intro s hs
  obtain ⟨hp, hr⟩ := h s hs
  refine ⟨hp, ?_⟩
  cases hcode : (code s).2.1 with
  | ok a =>
    rw [hcode] at hr
    exact hok a _ hr
  | error e =>
    rw [hcode] at hr
    exact herror e _ hr

/-- Code without errors, among code that has them. -/
theorem Triple.sure (h : Triple before code ok (fun _ _ => False) stop) : Triple before code ok error stop :=
  h.weaken (fun _ _ h => h) fun _ _ h => h.elim

/-- What does not depend on the state may be assumed. -/
theorem Triple.given (h : φ → Triple before code ok error stop) : Triple (fun s => before s ∧ φ) code ok error stop :=
  fun s hs => h hs.2 s hs.1

theorem Triple.ignore {code : Steps σ ε Unit} {after : σ → Prop}
    (h : Triple before code (fun _ => after) (fun _ => after) stop) :
    Triple before code.ignore (fun _ => after) error stop := by
  intro s hs
  obtain ⟨hp, hr⟩ := h s hs
  exact ⟨hp, of_either hr⟩

theorem Triple.attempt {δ : Type} {other : δ → σ → Prop} {failed : ε → σ → Prop}
    (h : Triple before code ok failed stop) :
    Triple before (attempt code) (fun result s => match result with | .ok a => ok a s | .error e => failed e s) other stop :=
  h

/-- **Loop rule.** The invariant speaks of the items still to come. -/
theorem Triple.each {body : β → Steps σ ε Unit} {I : List β → σ → Prop}
    (hbody : ∀ item rest, (item :: rest).IsSuffix items →
      Triple (I (item :: rest)) (body item) (fun _ => I rest) error stop) :
    Triple (I items) (each items body) (fun _ => I []) error stop := by
  induction items with
  | nil => exact .pure fun _ hs => hs
  | cons item items ih =>
    refine .bind _ (hbody item items suffix_rfl) fun _ => ih fun other rest hrest => ?_
    exact hbody other rest (hrest.trans (suffix_cons item items))

/-- Every state in which a run may stop. -/
theorem Triple.stops (h : Triple before code (fun _ => stop) (fun _ => stop) stop) (hs : before s)
    (ht : t ∈ code.stops s) : stop t := by
  obtain ⟨hp, hr⟩ := h s hs
  exact forall_mem_append.mpr ⟨hp, forall_mem_singleton.mpr (of_either hr)⟩ t ht

/-- What a stop leaves and what a run leaves is what a run may start from; so it may after any number of stops. -/
theorem AfterStops.preserves (h : Triple stop code (fun _ => stop) (fun _ => stop) stop)
    (hstops : AfterStops code s t) (hs : stop s) : stop t := by
  induction hstops with
  | none => exact hs
  | stop hstop _ ih => exact ih (h.stops hs hstop)

end Steps
end Arcen
