import Mathlib.Data.List.SplitBy

/-! Coalescing. A stream of items is cut into its maximal stretches: neighbours with the same key share a
stretch, and an item without a key stands alone. A sender that coalesces may send a stretch as other items
than it was given, as long as a relation between the two holds; `Ledger` says that what was sent is that,
stretch by stretch and in order. The rules below are the ways a queue can change its tail or its middle
without leaving the ledger. -/

namespace Arcen

open List

variable {α κ : Type} [DecidableEq κ]

variable (key : α → Option κ)

/-- Whether two neighbours share a stretch. -/
def sameStretch (a b : α) : Bool := (key a).isSome && decide (key a = key b)

def stretches (items : List α) : List (List α) := items.splitBy (sameStretch key)

/-- What was sent is, stretch by stretch, what the relation allows for the stretch. -/
def Ledger (carried : List α → List α → Prop) (given sent : List α) : Prop :=
  ∃ parts, List.Forall₂ carried (stretches key given) parts ∧ parts.flatten = sent

variable {key : α → Option κ} {carried : List α → List α → Prop} {given sent : List α}

variable {a b item : α} {β γ : Type} {R : β → γ → Prop}

theorem sameStretch_iff : sameStretch key a b = true ↔ key a ≠ none ∧ key a = key b := by
  rw [sameStretch, Bool.and_eq_true, decide_eq_true_iff, Option.isSome_iff_ne_none]

@[simp] theorem flatten_stretches (key : α → Option κ) (items : List α) : (stretches key items).flatten = items :=
  flatten_splitBy _ _

/-! ### One more item -/

theorem stretches_concat_alone (h : ∀ last ∈ given.getLast?, sameStretch key last item = false) :
    stretches key (given ++ [item]) = stretches key given ++ [[item]] := by
  unfold stretches
  rw [splitBy_append_cons [] h, splitBy_of_isChain (cons_ne_nil _ _) (isChain_singleton _)]

theorem stretches_concat_joined {last : List α}
    (hg : stretches key given = front ++ [last]) (hx : last.getLast? = some x)
    (h : sameStretch key x item = true) : stretches key (given ++ [item]) = front ++ [last ++ [item]] := by
  obtain ⟨hf, hnil, hch, hb⟩ := splitBy_eq_iff.mp hg
  refine splitBy_eq_iff.mpr ⟨?_, ?_, ?_, ?_⟩
  · rw [hf]
    simp
  · simp only [mem_append, not_or] at hnil ⊢
    exact ⟨hnil.1, by simp⟩
  · refine forall_mem_append.mpr ⟨fun stretch hfrt => hch stretch (mem_append_left _ hfrt), forall_mem_singleton.mpr ?_⟩
    rw [isChain_append]
    refine ⟨hch last (by simp), isChain_singleton _, ?_⟩
    intro y hy z hz
    rw [hx] at hy
    cases hy
    cases hz
    exact h
  · -- the border before the last stretch is where it was
    rw [isChain_append] at hb ⊢
    refine ⟨hb.1, isChain_singleton _, ?_⟩
    intro before hpre after haft
    cases haft
    obtain ⟨hne, hl, hborde⟩ := hb.2.2 before hpre last rfl
    exact ⟨hne, by simp, by rw [head_append_of_ne_nil hl]; exact hborde⟩

/-! ### The rules of the ledger -/

theorem exists_of_forall₂_append_left {all : List γ} (h : List.Forall₂ R (first ++ second) all) :
    ∃ left right, all = left ++ right ∧ List.Forall₂ R first left ∧ List.Forall₂ R second right :=
  ⟨all.take first.length, all.drop first.length, (take_append_drop _ _).symm,
    (forall₂_take_append all first second h.flip).flip, (forall₂_drop_append all first second h.flip).flip⟩

theorem exists_of_forall₂_append_right {all : List β} (h : List.Forall₂ R all (first ++ second)) :
    ∃ left right, all = left ++ right ∧ List.Forall₂ R left first ∧ List.Forall₂ R right second :=
  ⟨all.take first.length, all.drop first.length, (take_append_drop _ _).symm,
    forall₂_take_append all first second h, forall₂_drop_append all first second h⟩

/-- A stretch is never sent as nothing, and what is sent for it has its key. -/
structure KeepsKeys (key : α → Option κ) (carried : List α → List α → Prop) : Prop where
  ne_nil : ∀ {stretch part}, carried stretch part → part ≠ []
  key_eq : ∀ {stretch part x y}, carried stretch part → x ∈ part → y ∈ stretch → key x = key y

namespace Ledger

theorem nil : Ledger key carried [] [] := ⟨[], List.Forall₂.nil, rfl⟩

theorem exists_last (h : Ledger key carried given sent) (hl : given.getLast? = some last) :
    ∃ front stretch parts part, stretches key given = front ++ [stretch] ∧ stretch.getLast? = some last ∧
      List.Forall₂ carried front parts ∧ carried stretch part ∧ sent = parts.flatten ++ part := by
  obtain ⟨_, hall, rfl⟩ := h
  rcases eq_nil_or_concat (stretches key given) with hnil | ⟨front, stretch, hc⟩
  · rw [stretches, splitBy_eq_nil] at hnil
    rw [hnil] at hl
    cases hl
  · rw [concat_eq_append] at hc
    rw [hc] at hall
    obtain ⟨parts, _, rfl, hps, hrt⟩ := exists_of_forall₂_append_left hall
    obtain ⟨part, _, hp, hr, rfl⟩ := forall₂_cons_left_iff.mp hrt
    cases hr
    have hne : stretch ≠ [] := ne_nil_of_mem_splitBy (hc ▸ mem_append_right _ (mem_singleton_self _))
    have hg : given = front.flatten ++ stretch := by
      rw [← flatten_stretches key given, hc]
      simp
    refine ⟨front, stretch, parts, part, hc, ?_, hps, hp, by simp⟩
    rw [← hl, hg, getLast?_append_of_ne_nil _ hne]

/-- **Append.** The item is sent as it is. -/
theorem append (hk : KeepsKeys key carried) (h : Ledger key carried given sent) (ha : carried [item] [item])
    (hjoin : ∀ stretch part, carried stretch part → (∀ x ∈ stretch, key x = key item) → key item ≠ none →
      carried (stretch ++ [item]) (part ++ [item])) : Ledger key carried (given ++ [item]) (sent ++ [item]) := by
  by_cases hsame : ∃ last, given.getLast? = some last ∧ sameStretch key last item = true
  · obtain ⟨last, hl, hsame⟩ := hsame
    obtain ⟨_, stretch, parts, part, hg, hs, hps, hp, rfl⟩ := h.exists_last hl
    obtain ⟨hsome, hkey⟩ := sameStretch_iff.mp hsame
    have hall : ∀ x ∈ stretch, key x = key item := by
      intro x hx
      obtain ⟨y, hy⟩ := exists_mem_of_ne_nil part (hk.ne_nil hp)
      calc key x = key y := (hk.key_eq hp hy hx).symm
        _ = key last := hk.key_eq hp hy (mem_of_getLast? hs)
        _ = key item := hkey
    refine ⟨parts ++ [part ++ [item]], ?_, by simp⟩
    rw [stretches_concat_joined hg hs hsame]
    exact rel_append hps (.cons (hjoin stretch part hp hall (hkey ▸ hsome)) .nil)
  · obtain ⟨parts, hps, rfl⟩ := h
    refine ⟨parts ++ [[item]], ?_, by simp⟩
    rw [stretches_concat_alone fun last hl => Bool.eq_false_iff.mpr fun h => hsame ⟨last, hl, h⟩]
    exact rel_append hps (.cons ha .nil)

/-- **Replace.** The last item sent takes the new one in. -/
theorem replace (hk : KeepsKeys key carried)
    (h : Ledger key carried given (front ++ [last])) (hkey : key last = key item) (hsome : key item ≠ none)
    (hmerge : ∀ stretch part, carried stretch (part ++ [last]) → carried (stretch ++ [item]) (part ++ [merged])) :
    Ledger key carried (given ++ [item]) (front ++ [merged]) := by
  cases hg : given.getLast? with
  | none =>
    obtain ⟨parts, hps, hf⟩ := h
    rw [getLast?_eq_none_iff] at hg
    subst hg
    cases hps
    simp at hf
  | some x =>
    obtain ⟨_, stretch, parts, part, hstre, hs, hps, hp, hsent⟩ := h.exists_last hg
    obtain ⟨start, _, hy⟩ := (eq_nil_or_concat part).resolve_left (hk.ne_nil hp)
    rw [concat_eq_append] at hy
    subst hy
    rw [← append_assoc] at hsent
    obtain ⟨rfl, hl⟩ := append_inj' hsent rfl
    cases hl
    have hx : key x = key item := by
      rw [← hkey, hk.key_eq hp (mem_append_right _ (mem_singleton_self _))
        (mem_of_getLast? hs)]
    refine ⟨parts ++ [start ++ [merged]], ?_, by simp⟩
    rw [stretches_concat_joined hstre hs (sameStretch_iff.mpr ⟨hx ▸ hsome, hx⟩)]
    exact rel_append hps (.cons (hmerge stretch start hp) .nil)

end Ledger

/-- Two neighbours of a concatenation are neighbours in a part, or meet at a border of two parts. -/
theorem flatten_eq_append_cons_cons {parts : List (List α)} (hne : ∀ part ∈ parts, part ≠ [])
    {before after : List α} (h : parts.flatten = before ++ a :: b :: after) :
    (∃ left s t right, parts = left ++ (s ++ a :: b :: t) :: right ∧ before = left.flatten ++ s ∧
        after = t ++ right.flatten) ∨ ∃ left s t right, parts = left ++ (s ++ [a]) :: (b :: t) :: right := by
  induction parts generalizing before with
  | nil => simp at h
  | cons part parts ih =>
    have hr := fun part hp => hne part (mem_cons_of_mem _ hp)
    rw [flatten_cons, append_eq_append_iff] at h
    rcases h with ⟨gap, rfl, hgap⟩ | ⟨tail, rfl, ht⟩
    · -- both lie behind the first part
      rcases ih hr hgap with ⟨left, s, t, right, rfl, rfl, rfl⟩ | ⟨left, s, t, right, rfl⟩
      · exact Or.inl ⟨part :: left, s, t, right, rfl, by simp, rfl⟩
      · exact Or.inr ⟨part :: left, s, t, right, rfl⟩
    · match tail, ht with
      | [], ht =>
        have hps : parts.flatten = [] ++ a :: b :: after := ht.symm
        rcases ih hr hps with ⟨left, s, t, right, rfl, hnil, rfl⟩ | ⟨left, s, t, right, rfl⟩
        · exact Or.inl ⟨(before ++ []) :: left, s, t, right, rfl, by simp [hnil.symm], rfl⟩
        · exact Or.inr ⟨(before ++ []) :: left, s, t, right, rfl⟩
      | [x], ht =>
        -- the border runs between the two
        obtain ⟨rfl, hps⟩ := List.cons.inj ht
        match parts, hps, hr with
        | (y :: t) :: right, hps, _ =>
          obtain ⟨rfl, -⟩ := List.cons.inj hps
          exact Or.inr ⟨[], before, t, right, rfl⟩
        | [] :: _, _, hr => exact absurd rfl (hr [] mem_cons_self)
      | x :: y :: t, ht =>
        obtain ⟨rfl, rfl, rfl⟩ := ht
        exact Or.inl ⟨[], before, t, parts, rfl, by simp, rfl⟩

namespace Ledger

/-- **Drop.** An item leaves when the item right behind it has the same key. -/
theorem drop (hk : KeepsKeys key carried) {before after : List α}
    (h : Ledger key carried given (before ++ older :: newer :: after)) (hkey : key older = key newer)
    (hsome : key older ≠ none)
    (hdrop : ∀ stretch s t, carried stretch (s ++ older :: newer :: t) → carried stretch (s ++ newer :: t)) :
    Ledger key carried given (before ++ newer :: after) := by
  obtain ⟨parts, hps, hf⟩ := h
  have hne : ∀ part ∈ parts, part ≠ [] := by
    intro part hp
    obtain ⟨front, back, rfl⟩ := append_of_mem hp
    obtain ⟨-, right, -, -, hrt⟩ := exists_of_forall₂_append_right hps
    obtain ⟨stretch, -, hs, -, -⟩ := forall₂_cons_right_iff.mp hrt
    exact hk.ne_nil hs
  rcases flatten_eq_append_cons_cons hne hf with ⟨left, s, t, right, rfl, rfl, rfl⟩ | ⟨left, s, t, right, rfl⟩
  · obtain ⟨front, back, hstre, hfrt, hback⟩ := exists_of_forall₂_append_right hps
    obtain ⟨stretch, rest, hs, hr, rfl⟩ := forall₂_cons_right_iff.mp hback
    refine ⟨left ++ (s ++ newer :: t) :: right, ?_, by simp⟩
    rw [hstre]
    exact rel_append hfrt (.cons (hdrop stretch s t hs) hr)
  · -- neighbours with one key do not lie in different stretches
    obtain ⟨_, _, hstre, -, hback⟩ := exists_of_forall₂_append_right hps
    obtain ⟨first, rest, hfst, hr, rfl⟩ := forall₂_cons_right_iff.mp hback
    obtain ⟨second, _, hsnd, -, rfl⟩ := forall₂_cons_right_iff.mp hr
    have hb := (splitBy_eq_iff.mp hstre).2.2.2
    obtain ⟨hfirstNe, hsecondNe, hborde⟩ := (isChain_cons_cons.mp (isChain_append.mp hb).2.1).1
    have hl : key older = key (first.getLast hfirstNe) := hk.key_eq hfst (by simp) (getLast_mem _)
    have hhead : key newer = key (second.head hsecondNe) := hk.key_eq hsnd (by simp) (head_mem _)
    rw [Bool.eq_false_iff] at hborde
    exact absurd (sameStretch_iff.mpr ⟨hl ▸ hsome, by rw [← hl, ← hhead, hkey]⟩) hborde

end Ledger

/-! ### Items that stand alone -/

/-- Certain items are stretches of their own, sent as they are, and no other stretch is sent as one of them. -/
structure KeepsAlone (alone : α → Bool) (carried : List α → List α → Prop) : Prop where
  kept : ∀ {stretch part x}, carried stretch part → x ∈ stretch → alone x = true → stretch = [x] ∧ part = [x]
  others : ∀ {stretch part}, carried stretch part → (∀ x ∈ stretch, alone x = false) → ∀ x ∈ part, alone x = false

section Alone

variable {alone : α → Bool}

theorem KeepsAlone.cases (h : KeepsAlone alone carried) (hcar : carried stretch part) :
    (∃ x, alone x = true ∧ stretch = [x] ∧ part = [x]) ∨
      (∀ x ∈ stretch, alone x = false) ∧ ∀ x ∈ part, alone x = false := by
  by_cases hsome : ∃ x ∈ stretch, alone x = true
  · obtain ⟨x, hx, ha⟩ := hsome
    exact Or.inl ⟨x, ha, h.kept hcar hx ha⟩
  · have hn : ∀ x ∈ stretch, alone x = false := fun x hx => Bool.eq_false_iff.mpr fun ha => hsome ⟨x, hx, ha⟩
    exact Or.inr ⟨hn, h.others hcar hn⟩

/-- Such items are sent exactly as given, in order. -/
theorem Ledger.filter_eq (h : Ledger key carried given sent) (hkeeps : KeepsAlone alone carried) :
    sent.filter alone = given.filter alone := by
  obtain ⟨parts, hps, rfl⟩ := h
  have hflatt : ∀ {groups parts}, List.Forall₂ carried groups parts →
      parts.flatten.filter alone = groups.flatten.filter alone := by
    intro groups parts hps
    induction hps with
    | nil => rfl
    | @cons stretch part groups parts hcar _ ih =>
      rw [flatten_cons, flatten_cons, filter_append, filter_append, ih]
      rcases hkeeps.cases hcar with ⟨x, -, rfl, rfl⟩ | ⟨hs, hp⟩
      · rfl
      · have hn : part.filter alone = [] := filter_eq_nil_iff.mpr fun x hx => by simp [hp x hx]
        have hn' : stretch.filter alone = [] := filter_eq_nil_iff.mpr fun x hx => by simp [hs x hx]
        rw [hn, hn']
  rw [hflatt hps, flatten_stretches]

theorem splitOnP_append_of_forall (h : ∀ x ∈ before, alone x = false) (after : List α) :
    (before ++ after).splitOnP alone = (after.splitOnP alone).modifyHead (before ++ ·) := by
  induction before with
  | nil =>
    rw [nil_append]
    cases after.splitOnP alone <;> rfl
  | cons x before ih =>
    rw [cons_append, splitOnP_cons_eq_if_modifyHead, h x mem_cons_self, ih fun y hy => h y (mem_cons_of_mem x hy)]
    cases after.splitOnP alone <;> rfl

/-- Between two neighbours that stand alone lies what was sent for the items given between the two. -/
theorem Ledger.gaps (h : Ledger key carried given sent) (hkeeps : KeepsAlone alone carried) {R : α → α → Prop}
    (hrel : ∀ {stretch part x}, carried stretch part → x ∈ part → ∃ y ∈ stretch, R y x) :
    List.Forall₂ (fun gap sentGap => ∀ x ∈ sentGap, alone x = false ∧ ∃ y ∈ gap, R y x)
      (given.splitOnP alone) (sent.splitOnP alone) := by
  obtain ⟨parts, hps, rfl⟩ := h
  have hflatt : ∀ {groups parts}, List.Forall₂ carried groups parts →
      List.Forall₂ (fun gap sentGap => ∀ x ∈ sentGap, alone x = false ∧ ∃ y ∈ gap, R y x)
        (groups.flatten.splitOnP alone) (parts.flatten.splitOnP alone) := by
    intro groups parts hps
    induction hps with
    | nil => exact .cons (by simp) .nil
    | @cons stretch part groups parts hcar _ ih =>
      rw [flatten_cons, flatten_cons]
      rcases hkeeps.cases hcar with ⟨x, hx, rfl, rfl⟩ | ⟨hs, hp⟩
      · rw [singleton_append, singleton_append, splitOnP_cons_eq_if_modifyHead,
          splitOnP_cons_eq_if_modifyHead, if_pos hx, if_pos hx]
        exact .cons (by simp) ih
      · rw [splitOnP_append_of_forall hs, splitOnP_append_of_forall hp]
        generalize groups.flatten.splitOnP alone = gaps, parts.flatten.splitOnP alone = sentGaps at ih ⊢
        cases ih with
        | nil => exact .nil
        | cons hgap hr =>
          refine .cons ?_ hr
          intro x hx
          rcases mem_append.mp hx with hx | hx
          · obtain ⟨y, hy, hR⟩ := hrel hcar hx
            exact ⟨hp x hx, y, mem_append_left _ hy, hR⟩
          · obtain ⟨ha, y, hy, hR⟩ := hgap x hx
            exact ⟨ha, y, mem_append_right _ hy, hR⟩
  have hgaps := hflatt hps
  rwa [flatten_stretches] at hgaps

end Alone

end Arcen
