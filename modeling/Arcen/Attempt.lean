import Arcen.Fallible

/-! Fallible code that changes a state as it goes. What a call changed before it failed stays changed, so a failed call
also has a state after it. -/

namespace Arcen

/-- Code on a state that may end with an error. -/
abbrev Attempt (σ ε : Type) := ExceptT ε (StateM σ)

namespace Attempt

variable {σ τ ε δ α β : Type}

/-- The result of the code on a state, and the state it leaves. -/
def runOn (code : Attempt σ ε α) (s : σ) : Except ε α × σ := (ExceptT.run code).run s

/-- `?` on a result that was computed without the state. -/
def ofExcept (result : Except ε α) : Attempt σ ε α := ExceptT.mk (pure result)

/-- A call on a part of the state, with its errors converted. -/
def on (part : σ → τ) (replace : τ → σ → σ) (convert : ε → δ) (code : Attempt τ ε α) : Attempt σ δ α :=
  ExceptT.mk fun s => ((code.runOn (part s)).1.mapError convert, replace (code.runOn (part s)).2 s)

@[simp] theorem runOn_pure (a : α) (s : σ) : (pure a : Attempt σ ε α).runOn s = (.ok a, s) := rfl

@[simp] theorem runOn_get (s : σ) : (get : Attempt σ ε σ).runOn s = (.ok s, s) := rfl

@[simp] theorem runOn_modify (f : σ → σ) (s : σ) : (modify f : Attempt σ ε Unit).runOn s = (.ok (), f s) := rfl

@[simp] theorem runOn_ofExcept (result : Except ε α) (s : σ) :
    (ofExcept result : Attempt σ ε α).runOn s = (result, s) := rfl

@[simp] theorem runOn_on (part : σ → τ) (replace : τ → σ → σ) (convert : ε → δ) (code : Attempt τ ε α) (s : σ) :
    (on part replace convert code).runOn s =
      ((code.runOn (part s)).1.mapError convert, replace (code.runOn (part s)).2 s) := rfl

theorem runOn_bind (code : Attempt σ ε α) (next : α → Attempt σ ε β) (s : σ) :
    (code >>= next).runOn s = match code.runOn s with
      | (.ok a, t) => (next a).runOn t
      | (.error e, t) => (.error e, t) := by
  show StateT.run (ExceptT.run (code >>= next)) s = _
  rw [ExceptT.run_bind, StateT.run_bind]
  unfold runOn
  rcases StateT.run (ExceptT.run code) s with ⟨result, t⟩
  cases result <;> rfl

theorem runOn_modify_bind (f : σ → σ) (next : Unit → Attempt σ ε β) (s : σ) :
    (modify f >>= next).runOn s = (next ()).runOn (f s) := by
  rw [runOn_bind, runOn_modify]

/-- The code succeeds with a result and a state. -/
def Yields (code : Attempt σ ε α) (s : σ) (a : α) (t : σ) : Prop := code.runOn s = (.ok a, t)

variable {a : α} {b : β} {t : σ} {result : Except ε α} {next : α → Attempt σ ε β}

theorem yields_pure {b : α} {s : σ} : Yields (pure a : Attempt σ ε α) s b t ↔ a = b ∧ s = t := by
  simp [Yields]

theorem yields_modify {f : σ → σ} : Yields (modify f : Attempt σ ε Unit) s u t ↔ f s = t := by
  simp [Yields]

theorem yields_ofExcept : Yields (ofExcept result : Attempt σ ε α) s a t ↔ result = .ok a ∧ s = t := by
  simp [Yields]

variable {code : Attempt σ ε α} {part : σ → τ} {replace : τ → σ → σ} {convert : ε → δ}

theorem yields_bind : Yields (code >>= next) s b t ↔ ∃ a r, Yields code s a r ∧ Yields (next a) r b t := by
  unfold Yields
  rw [runOn_bind]
  rcases code.runOn s with ⟨result | result, r⟩
  · exact ⟨nofun, fun ⟨_, _, h, _⟩ => nomatch h⟩
  · refine ⟨fun h => ⟨result, r, rfl, h⟩, fun ⟨_, _, hc, h⟩ => ?_⟩
    obtain ⟨hres, rfl⟩ := Prod.mk.inj hc
    exact Except.ok.inj hres ▸ h

theorem yields_get {next : σ → Attempt σ ε β} : Yields (get >>= next) s b t ↔ Yields (next s) s b t := by
  unfold Yields
  rw [runOn_bind, runOn_get]

/-- `?` on a result, and the code that goes on with it. -/
theorem yields_check : Yields (ofExcept result >>= next) s b t ↔ ∃ a, result = .ok a ∧ Yields (next a) s b t := by
  rw [yields_bind]
  constructor
  · rintro ⟨a, _, hcheck, h⟩
    obtain ⟨hres, rfl⟩ := yields_ofExcept.mp hcheck
    exact ⟨a, hres, h⟩
  · rintro ⟨a, hres, h⟩
    exact ⟨a, s, yields_ofExcept.mpr ⟨hres, rfl⟩, h⟩

theorem yields_on {code : Attempt τ ε α} {s : σ} :
    Yields (on part replace convert code) s a t ↔ ∃ r, Yields code (part s) a r ∧ replace r s = t := by
  unfold Yields
  rw [runOn_on]
  rcases code.runOn (part s) with ⟨result, r⟩
  simp only [Prod.mk.injEq, exceptMapError_eq_ok]
  exact ⟨fun ⟨hres, ht⟩ => ⟨r, ⟨hres, rfl⟩, ht⟩, fun ⟨_, ⟨hres, hr⟩, ht⟩ => ⟨hres, hr ▸ ht⟩⟩

/-- **Loop rule.** What every turn of a loop keeps, a loop that succeeds keeps. -/
theorem yields_foldlM {I : β → σ → Prop} {turn : β → α → Attempt σ ε β} {items : List α}
    (hturn : ∀ b s item next t, I b s → Yields (turn b item) s next t → I next t)
    (hstart : I b s) (h : Yields (items.foldlM turn b) s last t) : I last t := by
  induction items generalizing b s with
  | nil =>
    obtain ⟨rfl, rfl⟩ := yields_pure.mp h
    exact hstart
  | cons item items ih =>
    obtain ⟨_, _, hn, hrest⟩ := yields_bind.mp h
    exact ih (hturn _ _ _ _ _ hstart hn) hrest

/-- If the code fails on the state, it has left it as it was. -/
def Atomic (code : Attempt σ ε α) (s : σ) : Prop := ∀ e t, code.runOn s = (.error e, t) → t = s

variable {s : σ}

theorem Atomic.modify (f : σ → σ) : Atomic (modify f : Attempt σ ε Unit) s := fun _ _ h => nomatch h

theorem Atomic.ofExcept (result : Except ε α) : Atomic (ofExcept result : Attempt σ ε α) s :=
  fun _ _ h => (congrArg Prod.snd h).symm

theorem Atomic.get {next : σ → Attempt σ ε β} (hn : Atomic (next s) s) : Atomic (get >>= next) s := by
  intro e t h
  exact hn e t h

/-- A check before the rest of the code. -/
theorem Atomic.check (hn : ∀ a, Atomic (next a) s) : Atomic (Attempt.ofExcept result >>= next) s := by
  intro e t h
  cases result with
  | error => exact (Prod.mk.inj h).2.symm
  | ok a => exact hn a e t h

/-- Code that cannot fail may follow anything. -/
theorem Atomic.andThen (hc : Atomic code s)
    (hn : ∀ a t, ∃ b r, Yields (next a) t b r) : Atomic (code >>= next) s := by
  intro e t h
  rw [runOn_bind] at h
  rcases hrun : code.runOn s with ⟨result | result, r⟩
  · rw [hrun] at h
    obtain ⟨-, rfl⟩ := Prod.mk.inj h
    exact hc _ _ hrun
  · rw [hrun] at h
    obtain ⟨_, _, hlast⟩ := hn result r
    exact nomatch hlast.symm.trans h

theorem Atomic.on {code : Attempt τ ε α}
    (hc : Atomic code (part s)) (hrepl : replace (part s) s = s) : Atomic (on part replace convert code) s := by
  intro e t h
  rw [runOn_on] at h
  rcases hrun : code.runOn (part s) with ⟨result | result, r⟩
  · rw [hrun] at h
    obtain ⟨-, rfl⟩ := Prod.mk.inj h
    show replace r s = s
    rw [hc _ _ hrun, hrepl]
  · rw [hrun] at h
    exact nomatch h

end Attempt
end Arcen
