import Arcen.Duration

/-! Pacing of a capture source that delivers frames on its own clock (`shared/keel/src/pacing.rs`). A slot follows
late arrivals, so a submission never runs more than half an interval ahead of the contract rate, and arrivals that
jitter by less than an interval are all submitted. Times are in nanoseconds and saturate at `Duration::MAX`. -/

namespace Arcen

structure ArrivalPacer where
  interval : Nat
  next : Option Nat

namespace ArrivalPacer

def new (interval : Nat) : ArrivalPacer := ⟨interval, none⟩

variable (pacer : ArrivalPacer) (now : Nat)

def halfInterval : Nat := pacer.interval - pacer.interval / 2

/-- Whether a submission carrying fresh content may go. -/
def freshDue : Bool := pacer.next.all fun next => next ≤ min (now + pacer.halfInterval) durationMax

def onFreshSubmitted : ArrivalPacer :=
  let afterNow := min (now + pacer.interval) durationMax
  let following := pacer.next.elim afterNow fun next => max (min (next + pacer.interval) durationMax) afterNow
  { pacer with next := some following }

/-- Fresh submissions at these times, each due and recorded, with no sum that saturates. -/
def Submits : ArrivalPacer → List Nat → Prop
  | _, [] => True
  | pacer, now :: later => pacer.freshDue now ∧ now + pacer.interval ≤ durationMax ∧
      (∀ next ∈ pacer.next, next + pacer.interval ≤ durationMax) ∧ Submits (pacer.onFreshSubmitted now) later

/-- Every arrived frame is submitted at the earliest time it is due. -/
def SubmitsEarliest : ArrivalPacer → List Nat → List Nat → Prop
  | pacer, arrival :: arrivals, now :: later =>
    IsLeast { time | arrival ≤ time ∧ pacer.freshDue time } now ∧
      SubmitsEarliest (pacer.onFreshSubmitted now) arrivals later
  | _, arrivals, submitted => arrivals = [] ∧ submitted = []

variable {pacer} {now} {times arrivals submitted : List Nat}

theorem freshDue_iff : pacer.freshDue now ↔ ∀ next ∈ pacer.next, next ≤ min (now + pacer.halfInterval) durationMax := by
  cases hn : pacer.next <;> simp [freshDue, hn]

/-- Every submission moves the slot on by an interval. -/
theorem Submits.behind_slot (h : pacer.Submits times) (hn : pacer.next = some slot) (hearly : early ≤ slot) (k : Nat)
    (ht : times[k]? = some time) : early + k * pacer.interval ≤ time + pacer.halfInterval := by
  induction times generalizing pacer slot early k with
  | nil => cases ht
  | cons now later ih =>
    obtain ⟨hdue, _, hfits, hl⟩ := h
    have hs := freshDue_iff.mp hdue slot hn
    have hroom := hfits slot hn
    cases k with
    | zero =>
      cases ht
      omega
    | succ k =>
      have hkept : early + pacer.interval ≤ max (min (slot + pacer.interval) durationMax)
          (min (now + pacer.interval) durationMax) := by omega
      have hbeh : early + pacer.interval + k * pacer.interval ≤ time + pacer.halfInterval :=
        ih hl (by rw [onFreshSubmitted, hn]; rfl) hkept k ht
      rw [Nat.succ_mul]
      omega

theorem Submits.spaced {first time : Nat} (h : pacer.Submits times) (i k : Nat) (hf : times[i]? = some first)
    (ht : times[i + k]? = some time) : first + k * pacer.interval ≤ time + pacer.halfInterval := by
  induction times generalizing pacer i with
  | nil => cases hf
  | cons now later ih =>
    obtain ⟨-, _, -, hl⟩ := h
    cases i with
    | succ i =>
      rw [Nat.add_right_comm] at ht
      exact (ih hl i hf ht :)
    | zero =>
      obtain rfl := Option.some.inj hf
      rw [Nat.zero_add] at ht
      cases k with
      | zero =>
        cases ht
        omega
      | succ k =>
        have hs : now + pacer.interval ≤ pacer.next.elim (min (now + pacer.interval) durationMax)
            fun next => max (min (next + pacer.interval) durationMax) (min (now + pacer.interval) durationMax) := by
          cases pacer.next <;> simp only [Option.elim] <;> omega
        have hbeh : now + pacer.interval + k * pacer.interval ≤ time + pacer.halfInterval :=
          hl.behind_slot rfl hs k ht
        rw [Nat.succ_mul]
        omega

/-- With arrivals on a grid of intervals, each late by at most `jitter`, a slot is late by at most that. -/
theorem SubmitsEarliest.before_next {jitter : Nat} (base : Int) (h : pacer.SubmitsEarliest arrivals submitted)
    (hs : ∀ slot ∈ pacer.next, slot ≤ base + jitter ∧ slot ≤ durationMax) (hjitt : jitter < pacer.interval)
    (hg : ∀ n : Nat, ∀ arrival ∈ arrivals[n]?,
      base + n * pacer.interval ≤ arrival ∧ arrival ≤ base + n * pacer.interval + jitter)
    {n now later : Nat} (hnow : submitted[n]? = some now) (hl : arrivals[n + 1]? = some later) : now < later := by
  induction arrivals generalizing pacer submitted base n with
  | nil => cases hl
  | cons arrival arrivals ih =>
    cases submitted with
    | nil => cases hnow
    | cons time submitted =>
      obtain ⟨⟨-, hleast⟩, hrest⟩ := h
      have harri := hg 0 arrival rfl
      -- the frame is due at the slot at the latest
      have ht : (time : Int) ≤ base + jitter := by
        have hwait : time ≤ max arrival (pacer.next.getD 0) := by
          refine hleast ⟨le_max_left .., freshDue_iff.mpr fun slot hn => ?_⟩
          have := (hs slot hn).2
          rw [hn, Option.getD_some]
          omega
        cases hn : pacer.next with
        | none =>
          rw [hn, Option.getD_none] at hwait
          omega
        | some slot =>
          have := (hs slot hn).1
          rw [hn, Option.getD_some] at hwait
          omega
      cases n with
      | zero =>
        cases hnow
        have := hg 1 later hl
        omega
      | succ n =>
        refine ih (base + pacer.interval) hrest ?_ hjitt (fun n arrival harri => ?_) hnow hl
        · rintro _ ⟨⟩
          cases hn : pacer.next with
          | none =>
            simp only [Option.elim]
            omega
          | some slot =>
            have := (hs slot hn).1
            simp only [Option.elim]
            omega
        · have := hg (n + 1) arrival harri
          rw [Int.natCast_succ, Int.add_mul] at this
          change base + pacer.interval + n * pacer.interval ≤ _ ∧ _ ≤ base + pacer.interval + n * pacer.interval + _
          omega

end ArrivalPacer
end Arcen
