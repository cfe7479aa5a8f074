import Arcen.Bytes
import Arcen.CertTransaction
import Mathlib.Data.List.TakeWhile

/-! The two readings of a Windows account name: the credential provider's (`serialization.rs`) and the broker's
before `LogonUserW` (`auth.rs`). The provider promises to split a name as the broker does. -/

namespace Arcen

open List

inductive AccountForm where
  | downLevel
  | upn
  | bare

structure AccountName where
  user : List Char
  domain : Option (List Char)
  form : AccountForm

inductive AccountError where
  | empty
  | emptySide
  | ambiguous
  | repeatedSeparator
  | invalidCharacter

/-- The two sides of a name that has the separator, trimmed. -/
def splitSides (separator : Char) (trimmed : List Char) : Except AccountError (List Char × List Char) :=
  if trimmed.count separator ≠ 1 then .error .repeatedSeparator
  else
    -- `expect`: the separator is there.
    let (left, right) := (splitOnce separator trimmed).getD ([], [])
    if trimText left = [] ∨ trimText right = [] then .error .emptySide else .ok (trimText left, trimText right)

def splitAccountName (input : List Char) : Except AccountError AccountName :=
  let trimmed := trimText input
  if trimmed = [] then .error .empty
  else if '\x00' ∈ trimmed then .error .invalidCharacter
  else if '\\' ∈ trimmed ∧ '@' ∈ trimmed then .error .ambiguous
  else if '\\' ∈ trimmed then do
    let (domain, user) ← splitSides '\\' trimmed
    .ok ⟨user, some domain, .downLevel⟩
  else if '@' ∈ trimmed then do
    let (user, domain) ← splitSides '@' trimmed
    .ok ⟨user ++ '@' :: domain, none, .upn⟩
  else .ok ⟨trimmed, some ['.'], .bare⟩

/-- Domain and user. -/
def AccountName.logonComponents (account : AccountName) : List Char × List Char :=
  match account.form with
  | .downLevel | .bare => (account.domain.getD ['.'], account.user)
  | .upn => ([], account.user)

/-- User and domain as `authenticate_windows_blocking` passes them to `LogonUserW`. -/
def brokerComponents (username : List Char) : List Char × Option (List Char) :=
  match splitOnce '\\' username with
  | some (domain, user) => (user, some domain)
  | none => if '@' ∈ username then (username, none) else (username, some ['.'])

def qualifyAccountName (domain user : List Char) : Except String (List Char) :=
  if domain = [] ∨ user = [] then .error "Windows account domain and user must both be non-empty"
  else if ('\x00' ∈ domain ∨ '\\' ∈ domain) ∨ '\x00' ∈ user ∨ '\\' ∈ user then
    .error "Windows account components contain an invalid character"
  else .ok (domain ++ '\\' :: user)

/-! ### Trimming -/

variable {text left right : List Char} {separator : Char}

theorem exists_trimText (text : List Char) : ∃ lead trail, text = lead ++ trimText text ++ trail ∧
    (∀ c ∈ lead, isWhiteSpace c) ∧ ∀ c ∈ trail, isWhiteSpace c := by
  refine ⟨text.takeWhile isWhiteSpace, ((text.dropWhile isWhiteSpace).reverse.takeWhile isWhiteSpace).reverse, ?_,
    fun c hc => mem_takeWhile_imp hc, fun c hc => mem_takeWhile_imp (mem_reverse.1 hc)⟩
  rw [trimText, append_assoc, ← reverse_append, takeWhile_append_dropWhile, reverse_reverse,
    takeWhile_append_dropWhile]

theorem count_white (h : isWhiteSpace separator = false) (hw : ∀ c ∈ text, isWhiteSpace c) :
    text.count separator = 0 :=
  count_eq_zero.2 fun hmem => by simp [hw _ hmem] at h

/-- Trimming takes no separator away. -/
theorem count_trimText (h : isWhiteSpace separator = false) :
    (trimText text).count separator = text.count separator := by
  obtain ⟨lead, trail, htext, hl, ht⟩ := exists_trimText text
  conv_rhs => rw [htext, count_append, count_append, count_white h hl, count_white h ht, Nat.zero_add, Nat.add_zero]

theorem mem_trimText (h : isWhiteSpace separator = false) : separator ∈ trimText text ↔ separator ∈ text := by
  rw [← count_pos_iff, count_trimText h, count_pos_iff]

theorem trimText_lead (h : ∀ c ∈ lead, isWhiteSpace c) : trimText (lead ++ text) = trimText text := by
  rw [trimText, trimText, dropWhile_append_of_pos h]

theorem trimText_trail (h : ∀ c ∈ trail, isWhiteSpace c) : trimText (text ++ trail) = trimText text := by
  rw [trimText, trimText, dropWhile_append]
  split
  · next hnil => rw [isEmpty_iff.1 hnil, dropWhile_eq_nil_iff.2 h]
  · rw [reverse_append, dropWhile_append_of_pos fun c hc => h c (mem_reverse.1 hc)]

/-- The sides of the trimmed name trim to those of the name itself. -/
theorem splitSides_trimText (hs : isWhiteSpace separator = false) (hl : separator ∉ left) (hr : separator ∉ right) :
    splitSides separator (trimText (left ++ separator :: right)) =
      if trimText left = [] ∨ trimText right = [] then .error .emptySide
      else .ok (trimText left, trimText right) := by
  have hone : (left ++ separator :: right).count separator = 1 := by
    rw [count_append, count_cons_self, count_eq_zero.2 hl, count_eq_zero.2 hr]
  obtain ⟨lead, trail, hname, hlead, htrail⟩ := exists_trimText (left ++ separator :: right)
  have hmem : separator ∈ trimText (left ++ separator :: right) := (mem_trimText hs).2 (by simp)
  obtain ⟨left', right', htrim, hl'⟩ := eq_append_cons_of_mem hmem
  rw [htrim] at hname
  have hsplit : splitOnce separator (lead ++ left' ++ separator :: (right' ++ trail)) = _ :=
    splitOnce_append (not_mem_append (count_eq_zero.1 (count_white hs hlead)) hl')
  rw [show lead ++ left' ++ separator :: (right' ++ trail) = left ++ separator :: right by simp [hname],
    splitOnce_append hl] at hsplit
  obtain ⟨rfl, rfl⟩ := Prod.mk.inj (Option.some.inj hsplit)
  rw [splitSides, count_trimText hs, hone, if_neg (by simp), htrim, splitOnce_append hl', trimText_lead hlead,
    trimText_trail htrail]
  rfl

theorem exists_sides (hs : isWhiteSpace separator = false) (hmem : separator ∈ text)
    (h : splitSides separator (trimText text) = .ok sides) :
    ∃ left right, text = left ++ separator :: right ∧ separator ∉ left ∧ separator ∉ right ∧
      sides = (trimText left, trimText right) := by
  obtain ⟨left, right, rfl, hl⟩ := eq_append_cons_of_mem hmem
  have hr : separator ∉ right := by
    intro hr
    have hcount := count_pos_iff.2 hr
    rw [splitSides, count_trimText hs, count_append, count_cons_self, if_pos (by omega)] at h
    cases h
  rw [splitSides_trimText hs hl hr] at h
  split at h
  · cases h
  · cases h
    exact ⟨left, right, rfl, hl, hr, rfl⟩

theorem splitOnce_eq_none (h : separator ∉ text) : splitOnce separator text = none := by
  induction text with
  | nil => rfl
  | cons c text ih =>
    rw [mem_cons, not_or] at h
    rw [splitOnce, if_neg (Ne.symm h.1), ih h.2]
    rfl

def isSeparator (c : Char) : Bool := c == '\\' || c == '@'

theorem splitOnP_part (h : '\\' ∉ text ∧ '@' ∉ text) : text.splitOnP isSeparator = [text] := by
  apply splitOnP_eq_singleton
  intro c hc
  rw [isSeparator, Bool.or_eq_false_iff, beq_eq_false_iff_ne, beq_eq_false_iff_ne]
  exact ⟨fun heq => h.1 (heq ▸ hc), fun heq => h.2 (heq ▸ hc)⟩

theorem splitOnP_sides (hs : isSeparator separator) (hl : '\\' ∉ left ∧ '@' ∉ left) (hr : '\\' ∉ right ∧ '@' ∉ right) :
    (left ++ separator :: right).splitOnP isSeparator = [left, right] := by
  rw [splitOnP_append_cons left right hs, splitOnP_part hl, splitOnP_part hr]
  rfl

theorem qualified_name_kept_iff (h : qualifyAccountName domain user = .ok name) :
    (∃ account, splitAccountName name = .ok account ∧ account.logonComponents = (domain, user)) ↔
      '@' ∉ domain ∧ '@' ∉ user ∧ trimText domain = domain ∧ trimText user = user := by
  rw [qualifyAccountName, check_eq_ok, check_eq_ok] at h
  obtain ⟨hne, hclean, ⟨⟩⟩ := h
  have hback : isWhiteSpace '\\' = false := rfl
  have hat : isWhiteSpace '@' = false := rfl
  have hnul : isWhiteSpace '\x00' = false := rfl
  have hmem : '\\' ∈ domain ++ '\\' :: user := by simp
  have hclear : '\x00' ∉ domain ++ '\\' :: user := by
    simpa using ⟨fun h => hclean (.inl (.inl h)), fun h => hclean (.inr (.inl h))⟩
  simp only [splitAccountName, mem_trimText hback, mem_trimText hat, mem_trimText hnul, hmem, hclear,
    ne_nil_of_mem ((mem_trimText hback).2 hmem), if_false, if_true, true_and]
  split
  · next hboth =>
    have hside : '@' ∈ domain ∨ '@' ∈ user := by simpa using hboth
    exact ⟨nofun, fun hgood => absurd hside (not_or.2 ⟨hgood.1, hgood.2.1⟩)⟩
  · next hboth =>
    have hsides : '@' ∉ domain ∧ '@' ∉ user := by simpa using hboth
    rw [splitSides_trimText hback (by tauto) (by tauto)]
    split
    · next hblank =>
      refine ⟨nofun, fun hgood => ?_⟩
      rw [hgood.2.2.1, hgood.2.2.2] at hblank
      exact absurd hblank hne
    · simp [exceptBind_ok, AccountName.logonComponents, hsides]

theorem typed_name_agrees_iff (h : splitAccountName name = .ok account) :
    account.logonComponents = ((brokerComponents name).2.getD [], (brokerComponents name).1) ↔
      ∀ part ∈ name.splitOnP isSeparator, trimText part = part := by
  have hback : isWhiteSpace '\\' = false := rfl
  have hat : isWhiteSpace '@' = false := rfl
  simp only [splitAccountName, mem_trimText hback, mem_trimText hat] at h
  rw [check_eq_ok, check_eq_ok, check_eq_ok] at h
  obtain ⟨-, -, hone, h⟩ := h
  split at h
  · next hmem =>
    obtain ⟨sides, hsides, ⟨⟩⟩ := exceptBind_eq_ok.1 h
    obtain ⟨domain, user, rfl, hl, hr, rfl⟩ := exists_sides hback hmem hsides
    have hnoat : '@' ∉ domain ∧ '@' ∉ user := by simpa using fun h => hone ⟨hmem, h⟩
    rw [brokerComponents, splitOnce_append hl, splitOnP_sides rfl ⟨hl, hnoat.1⟩ ⟨hr, hnoat.2⟩]
    simp [AccountName.logonComponents]
  · next hno =>
    rw [brokerComponents, splitOnce_eq_none hno]
    split at h
    · next hmem =>
      obtain ⟨sides, hsides, ⟨⟩⟩ := exceptBind_eq_ok.1 h
      obtain ⟨user, domain, rfl, hl, hr, rfl⟩ := exists_sides hat hmem hsides
      have hnoback : '\\' ∉ user ∧ '\\' ∉ domain := by simpa using hno
      have hl' : '@' ∉ trimText user := mt (mem_trimText hat).1 hl
      have hr' : '@' ∉ trimText domain := mt (mem_trimText hat).1 hr
      rw [if_pos hmem, splitOnP_sides rfl ⟨hnoback.1, hl⟩ ⟨hnoback.2, hr⟩]
      simp [AccountName.logonComponents, append_cons_inj_of_notMem hl' hr']
    · next hnoat =>
      cases h
      simp [AccountName.logonComponents, hnoat, splitOnP_part ⟨hno, hnoat⟩]

/-- **Where the provider and the broker mean the same account.** -/
theorem account_readings_agree_iff (domain user name : List Char) :
    (∀ qualified, qualifyAccountName domain user = .ok qualified →
      ((∃ account, splitAccountName qualified = .ok account ∧ account.logonComponents = (domain, user)) ↔
        '@' ∉ domain ∧ '@' ∉ user ∧ trimText domain = domain ∧ trimText user = user)) ∧
    ∀ account, splitAccountName name = .ok account →
      (account.logonComponents = ((brokerComponents name).2.getD [], (brokerComponents name).1) ↔
        ∀ part ∈ name.splitOnP isSeparator, trimText part = part) :=
  ⟨fun _ => qualified_name_kept_iff, fun _ => typed_name_agrees_iff⟩

/-- A name typed with a blank before it: the provider signs in another account than the broker checked. A qualified
name with an `@` the provider refuses. -/
theorem blank_and_at_sign_misread :
    (∃ account, splitAccountName " bob".toList = .ok account ∧ account.logonComponents = (['.'], "bob".toList)) ∧
    brokerComponents " bob".toList = (" bob".toList, some ['.']) ∧
    qualifyAccountName "CORP".toList "a@b".toList = .ok "CORP\\a@b".toList ∧
    splitAccountName "CORP\\a@b".toList = .error .ambiguous :=
  ⟨⟨_, rfl, rfl⟩, rfl, rfl, rfl⟩

end Arcen
