import Arcen.Machine
import Arcen.Stretches
import Arcen.InputLaneOutbox

/-! What the input lane's outbox delivers over a whole run of pushes and pops. What has been popped, followed by
what is still waiting, is the output; it is accounted for stretch by stretch of the messages pushed. -/

namespace Arcen

open Json InputRecordClass List

inductive InputOutboxCall where
  | push (message : Value)
  | popFront

/-- The outbox as a machine that answers a pop with the message; `none` is a panic. -/
def inputLaneOutbox : Machine (Option InputLaneOutbox) InputOutboxCall (Option Value) where
  init := some .empty
  step
    | none, _ => (none, none)
    | some outbox, .push message => (outbox.push message, none)
    | some outbox, .popFront =>
      match outbox.popFront with
      | none => (none, none)
      | some (next, popped) => (some next, popped)

namespace InputLaneOutbox

variable (calls : List InputOutboxCall)

/-- The messages pushed in a run. -/
def pushed : List Value := calls.filterMap fun call =>
    match call with
    | .push message => some message
    | .popFront => none

/-- Everything popped so far, then everything still pending. -/
def output : List Value :=
  (inputLaneOutbox.log calls).filterMap Prod.snd ++ ((inputLaneOutbox.exec calls).map messages).getD []

variable (message : Value)

/-- A message that must be delivered as it is, in order. -/
def isEdge : Bool := decide (ofMessage message = .edge)

/-- A well-formed relative delta its sender marked coalescable. -/
def isDelta : Bool :=
  decide (ofMessage message = .relativeMotion) && (delta message).isSome

def dxOf : Int := ((delta message).map (·.dx.toInt)).getD 0

def dyOf : Int := ((delta message).map (·.dy.toInt)).getD 0

/-- The kind of stretch a message belongs to: edges and relative messages that cannot be merged stand alone. -/
def stretchKind : Option InputRecordClass :=
  match ofMessage message with
  | .edge => none
  | .relativeMotion => if isDelta message then some .relativeMotion else none
  | other => some other

/-- What is sent for a stretch of pushed messages. A stretch of deltas keeps its sums. Any other stretch is
sent as some of its messages, the last one among them. -/
structure Carried (stretch sent : List Value) : Prop where
  ne_nil : sent ≠ []
  sameKind : ∀ record ∈ sent, ∀ message ∈ stretch,
    ofMessage record = .ofMessage message ∧ stretchKind record = stretchKind message
  alone : ∀ message ∈ stretch, stretchKind message = none → stretch = [message] ∧ sent = [message]
  deltas : (∀ message ∈ stretch, isDelta message = true) →
    (sent.map dxOf).sum = (stretch.map dxOf).sum ∧ (sent.map dyOf).sum = (stretch.map dyOf).sum
  latest : (∀ message ∈ stretch, isDelta message = false) → sent.Sublist stretch ∧ sent.getLast? = stretch.getLast?

/-! ### Kinds -/

variable {message : Value}

theorem ofMessage_of_stretchKind (h : stretchKind message = some kind) : ofMessage message = kind := by
  unfold stretchKind at h
  split at h
  · cases h
  · next hcls =>
      split at h
      · cases h
        exact hcls
      · cases h
  · cases h
    rfl

theorem isDelta_iff : isDelta message = true ↔ stretchKind message = some .relativeMotion := by
  constructor
  · intro h
    have hcls : ofMessage message = .relativeMotion := by
      rw [isDelta, Bool.and_eq_true, decide_eq_true_iff] at h
      exact h.1
    simp only [stretchKind, hcls, h, if_true]
  · intro h
    have hcls := ofMessage_of_stretchKind h
    simp only [stretchKind, hcls] at h
    split at h
    · assumption
    · cases h

theorem isDelta_congr (h : stretchKind message = stretchKind other) : isDelta message = isDelta other := by
  rw [Bool.eq_iff_iff, isDelta_iff, isDelta_iff, h]

/-! ### The ways a stretch is carried -/

namespace Carried

variable {stretch sent : List Value}

theorem keepsKeys : KeepsKeys stretchKind Carried := ⟨Carried.ne_nil, fun h hr hm => (h.sameKind _ hr _ hm).2⟩

theorem stretch_ne_nil (h : Carried stretch sent) : stretch ≠ [] := by
  rintro rfl
  exact h.ne_nil (sublist_nil.mp (h.latest (by simp)).1)

/-- Edges are delivered untouched, and nothing else becomes an edge. -/
theorem keepsAlone : KeepsAlone isEdge Carried where
  kept h hm hedge := by
    rw [isEdge, decide_eq_true_iff] at hedge
    exact h.alone _ hm (by simp only [stretchKind, hedge])
  others h hnone record hr := by
    obtain ⟨msg, hm⟩ := exists_mem_of_ne_nil _ h.stretch_ne_nil
    rw [isEdge, (h.sameKind record hr msg hm).1]
    exact hnone msg hm

theorem single (msg : Value) : Carried [msg] [msg] where
  ne_nil := cons_ne_nil _ _
  sameKind record hr other ho := by
    rw [mem_singleton.mp hr, mem_singleton.mp ho]
    exact ⟨rfl, rfl⟩
  alone other ho _ := by
    rw [mem_singleton.mp ho]
    exact ⟨rfl, rfl⟩
  deltas _ := ⟨rfl, rfl⟩
  latest _ := ⟨List.Sublist.refl _, rfl⟩

/-- One more message of the same kind, after which `kept` and `record` are sent. -/
theorem extend (h : Carried stretch sent) (hstr : ∀ other ∈ stretch, stretchKind other = stretchKind msg)
    (hkept : kept.Sublist sent) (hr : stretchKind record = stretchKind msg) (hs : stretchKind msg ≠ none)
    (hdelt : isDelta msg = true → (kept.map dxOf).sum + dxOf record = (sent.map dxOf).sum + dxOf msg ∧
        (kept.map dyOf).sum + dyOf record = (sent.map dyOf).sum + dyOf msg)
    (hlat : isDelta msg = false → record = msg) : Carried (stretch ++ [msg]) (kept ++ [record]) := by
  obtain ⟨kind, hk⟩ := Option.ne_none_iff_exists'.mp hs
  have hall : ∀ other ∈ stretch ++ [msg], stretchKind other = some kind := by
    exact forall_mem_append.mpr ⟨fun other h => (hstr other h).trans hk, forall_mem_singleton.mpr hk⟩
  have hmem : msg ∈ stretch ++ [msg] := mem_append_right _ (mem_singleton_self _)
  obtain ⟨first, hfst⟩ := exists_mem_of_ne_nil _ h.stretch_ne_nil
  refine ⟨by simp, ?_, ?_, ?_, ?_⟩
  · intro other ho third hthird
    have ho : stretchKind other = some kind := by
      rcases mem_append.mp ho with ho | ho
      · rw [(h.sameKind other (hkept.subset ho) first hfst).2, hstr first hfst, hk]
      · rw [mem_singleton.mp ho, hr, hk]
    have hthird := hall third hthird
    exact ⟨by rw [ofMessage_of_stretchKind ho, ofMessage_of_stretchKind hthird], by rw [ho, hthird]⟩
  · intro other ho hnone
    rw [hall other ho] at hnone
    cases hnone
  · intro hd
    have hd := hd msg hmem
    obtain ⟨hdx, hdy⟩ := h.deltas fun other ho => by rw [isDelta_congr (hstr other ho), hd]
    simpa [← hdx, ← hdy] using hdelt hd
  · intro hd
    have hd := hd msg hmem
    have hsubl := (h.latest fun other ho => by rw [isDelta_congr (hstr other ho), hd]).1
    rw [hlat hd]
    exact ⟨(hkept.trans hsubl).append_right _, by simp⟩

theorem join (h : Carried stretch sent) (hstr : ∀ other ∈ stretch, stretchKind other = stretchKind msg)
    (hs : stretchKind msg ≠ none) : Carried (stretch ++ [msg]) (sent ++ [msg]) :=
  h.extend hstr (Sublist.refl _) rfl hs (fun _ => ⟨rfl, rfl⟩) fun _ => rfl

theorem replaceLast {last message record : Value} (h : Carried stretch (sent ++ [last]))
    (hl : stretchKind last = stretchKind message) (hr : stretchKind record = stretchKind message)
    (hs : stretchKind message ≠ none)
    (hdelt : isDelta message = true → dxOf record = dxOf last + dxOf message ∧ dyOf record = dyOf last + dyOf message)
    (hlat : isDelta message = false → record = message) : Carried (stretch ++ [message]) (sent ++ [record]) := by
  have hmem : last ∈ sent ++ [last] := mem_append_right _ (mem_singleton_self _)
  have hstr : ∀ other ∈ stretch, stretchKind other = stretchKind message := by
    intro other ho
    rw [← (h.sameKind last hmem other ho).2, hl]
  refine h.extend hstr (sublist_append_left _ _) hr hs (fun hd => ?_) hlat
  obtain ⟨_, _⟩ := hdelt hd
  simp only [map_append, map_singleton, sum_append, sum_singleton]
  omega

/-- A record that is no delta leaves when the next one of the stretch stays. -/
theorem dropOlder {before after : List Value} (h : Carried stretch (before ++ older :: newer :: after))
    (hd : isDelta older = false) : Carried stretch (before ++ newer :: after) := by
  have hkept : (before ++ newer :: after).Sublist (before ++ older :: newer :: after) :=
    (sublist_cons_self older (newer :: after)).append_left before
  have ho : ∀ msg ∈ stretch, isDelta msg = false := fun msg hm => by
    rw [← hd, isDelta_congr (h.sameKind older (by simp) msg hm).2]
  refine ⟨by simp, ?_, ?_, ?_, ?_⟩
  · intro record hr
    exact h.sameKind record (hkept.subset hr)
  · intro msg hm hnone
    have hlen := congrArg List.length (h.alone msg hm hnone).2
    simp only [length_append, length_cons, length_nil] at hlen
    omega
  · intro hdelt
    obtain ⟨first, hfst⟩ := exists_mem_of_ne_nil _ h.stretch_ne_nil
    cases (hdelt first hfst).symm.trans (ho first hfst)
  · intro _
    obtain ⟨hsubl, hl⟩ := h.latest ho
    refine ⟨hkept.trans hsubl, ?_⟩
    rw [← hl]
    simp

end Carried

/-! ### Runs -/

theorem dxOf_of_delta (h : delta message = some relative) :
    dxOf message = relative.dx.toInt ∧ dyOf message = relative.dy.toInt := by
  simp only [dxOf, dyOf, h, Option.map_some, Option.getD_some, and_self]

theorem stretchKind_of_position (msg : Value) (h : ofMessage msg = .absoluteMotion ∨ ofMessage msg = .regionMotion ∨
      ofMessage msg = .penHoverMotion ∨ ofMessage msg = .penContactMotion) :
    stretchKind msg = some (.ofMessage msg) ∧ isDelta msg = false := by
  rcases h with h | h | h | h <;> simp [stretchKind, isDelta, h]

theorem stretchKind_of_delta (hcls : ofMessage message = .relativeMotion) (h : delta message = some relative) :
    stretchKind message = some .relativeMotion := by
  rw [← isDelta_iff, isDelta, hcls, h]
  rfl

/-- Whatever a push does to the queue, the ledger is kept. -/
theorem Pushed.ledger {before after : List Value} (hpush : Pushed message before after)
    (h : Ledger stretchKind Carried given (popped ++ before)) :
    Ledger stretchKind Carried (given ++ [message]) (popped ++ after) := by
  have happe : Ledger stretchKind Carried (given ++ [message]) (popped ++ before ++ [message]) :=
    h.append Carried.keepsKeys (Carried.single message) fun stretch part hp hall hs => hp.join hall hs
  cases hpush with
  | appended => rwa [append_assoc] at happe
  | replaced _ last hcls =>
    obtain ⟨hm, hd⟩ := stretchKind_of_position message (by tauto)
    have hl : stretchKind last = stretchKind message := by
      rw [(stretchKind_of_position last (by rw [hcls]; tauto)).1, hm, hcls]
    have hs : stretchKind message ≠ none := by simp [hm]
    rw [← append_assoc] at h ⊢
    refine h.replace Carried.keepsKeys hl hs fun stretch part hp => ?_
    exact hp.replaceLast hl rfl hs (fun h => absurd (hd.symm.trans h) Bool.false_ne_true) fun _ => rfl
  | summed _ last _ hl hm hsum =>
    obtain ⟨_, _, c, ha, hb, rfl, -, hcoal, hdx, hdy⟩ := sumRelative_eq_some hsum
    have hk := stretchKind_of_delta hm hb
    have hlastKind : stretchKind last = stretchKind message := by rw [stretchKind_of_delta hl ha, hk]
    have hmergedKind : stretchKind c.toValue = stretchKind message := by
      rw [stretchKind_of_delta (ofMessage_of_sumRelative hm hsum) (delta_toValue hcoal), hk]
    have hs : stretchKind message ≠ none := by simp [hk]
    rw [← append_assoc] at h ⊢
    refine h.replace Carried.keepsKeys hlastKind hs fun stretch part hp => ?_
    refine hp.replaceLast hlastKind hmergedKind hs (fun _ => ?_) fun hd => ?_
    · rw [(dxOf_of_delta ha).1, (dxOf_of_delta ha).2, (dxOf_of_delta hb).1, (dxOf_of_delta hb).2,
        (dxOf_of_delta (delta_toValue hcoal)).1, (dxOf_of_delta (delta_toValue hcoal)).2]
      exact ⟨hdx, hdy⟩
    · rw [isDelta_iff.mpr hk] at hd
      cases hd
  | folded _ _ older newer _ hq holder hnew =>
    obtain ⟨holderKind, hd⟩ := stretchKind_of_position older (by tauto)
    have hk : stretchKind older = stretchKind newer := by
      rw [holderKind, (stretchKind_of_position newer (by tauto)).1, holder, hnew]
    rw [append_assoc, hq, ← append_assoc] at happe
    rw [← append_assoc]
    refine happe.drop Carried.keepsKeys hk (by simp [holderKind]) fun stretch s t hp => ?_
    exact hp.dropOlder hd

variable (log : List (InputOutboxCall × Option Value))

variable (state : Option InputLaneOutbox)

/-- A run never panics, keeps the outbox consistent and keeps the ledger. -/
def Accounted : Prop := ∃ outbox, state = some outbox ∧ outbox.Consistent ∧
    Ledger stretchKind Carried (pushed (log.map Prod.fst)) (log.filterMap Prod.snd ++ outbox.messages)

theorem accounted_step (call : InputOutboxCall) (h : Accounted log state) :
    Accounted (log ++ [(call, (inputLaneOutbox.step state call).2)]) (inputLaneOutbox.step state call).1 := by
  obtain ⟨outbox, rfl, hc, hledg⟩ := h
  cases call with
  | push msg =>
    obtain ⟨next, hn, hkept, hpushe⟩ := hc.push msg
    refine ⟨next, hn, hkept, ?_⟩
    have hstep := hpushe.ledger hledg
    simpa [pushed, inputLaneOutbox] using hstep
  | popFront =>
    obtain ⟨next, popped, hn, hkept, hpopp⟩ := hc.popFront
    have hstep : inputLaneOutbox.step (some outbox) .popFront = (some next, popped) := by
      simp only [inputLaneOutbox, hn]
    rw [hstep]
    refine ⟨next, rfl, hkept, ?_⟩
    rw [← hpopp] at hledg
    cases popped <;> simpa [pushed] using hledg

variable (calls : List InputOutboxCall)

theorem accounted : Accounted (inputLaneOutbox.log calls) (inputLaneOutbox.exec calls) :=
  inputLaneOutbox.log_invariant
    ⟨.empty, rfl, ⟨fun _ hr => absurd hr not_mem_nil, rfl⟩, Ledger.nil⟩ accounted_step calls

/-- **Delivery.** For every run of pushes and pops no counter underflows and the contact samples waiting are
counted. The edges among everything popped and everything pending are the edges pushed, in order; between two
neighbouring edges lies only motion, of the classes pushed between the same two; and every maximal stretch of
pushed messages is carried: deltas with their sums, anything else with its last message. -/
theorem edges_delivered_in_order : ∃ outbox, inputLaneOutbox.exec calls = some outbox ∧
      outbox.penContactPending = outbox.messages.countP isContact ∧
      (output calls).filter isEdge = (pushed calls).filter isEdge ∧
      List.Forall₂ (fun gap sentGap => ∀ record ∈ sentGap, isEdge record = false ∧
          ∃ message ∈ gap, ofMessage message = .ofMessage record)
        ((pushed calls).splitOnP isEdge) ((output calls).splitOnP isEdge) ∧
      ∃ parts, List.Forall₂ Carried (stretches stretchKind (pushed calls)) parts ∧ parts.flatten = output calls := by
  obtain ⟨outbox, hexec, hc, hledg⟩ := accounted calls
  rw [Machine.map_fst_log] at hledg
  have houtp : output calls = (inputLaneOutbox.log calls).filterMap Prod.snd ++ outbox.messages := by
    rw [output, hexec]
    rfl
  rw [← houtp] at hledg
  refine ⟨outbox, hexec, hc.counted, hledg.filter_eq Carried.keepsAlone, hledg.gaps Carried.keepsAlone ?_, hledg⟩
  intro stretch part record hcar hr
  obtain ⟨message, hm⟩ := exists_mem_of_ne_nil _ hcar.stretch_ne_nil
  exact ⟨message, hm, (hcar.sameKind record hr message hm).1.symm⟩

/-! ### The backlog of contact samples -/

section Backlog

variable (outbox : InputLaneOutbox) (message : Value)

/-- With the message queued, two contact samples of one stroke stand next to each other. -/
def HasPair : Prop := ∃ index ∈ range' 1 outbox.pending.length,
    contactPairAt (outbox.pending ++ [(message, .ofMessage message)]) index = true

def FindsFull : Prop := isContact message = true ∧ penContactBacklogCap ≤ outbox.penContactPending

variable {outbox next : InputLaneOutbox} {message : Value}

/-- Every contact sample is counted, and one is folded if the backlog is full and has a pair. -/
theorem penContactPending_push (h : outbox.push message = some next) :
    (outbox.FindsFull message ∧ outbox.HasPair message → next.penContactPending = outbox.penContactPending) ∧
      (¬(outbox.FindsFull message ∧ outbox.HasPair message) →
        next.penContactPending = outbox.penContactPending + (isContact message).toNat) := by
  unfold InputLaneOutbox.push at h
  split at h
  · next merged hmerg =>
      cases h
      obtain ⟨_, -, hcoale⟩ := Option.bind_eq_some_iff.mp hmerg
      obtain ⟨hcls, hcases⟩ := coalesce_eq_some hcoale
      have hcon : isContact message = false := by
        rw [isContact, ← hcls]
        rcases hcases with ⟨hl | hl | hl, -⟩ | ⟨hl, -⟩ <;> simp [hl]
      exact ⟨fun _ => rfl, fun _ => by simp [hcon]⟩
  · dsimp only at h
    split at h
    · next hcls =>
        have hcon : isContact message = true := decide_eq_true hcls
        split at h
        · next hf =>
            have hf : outbox.FindsFull message := ⟨hcon, Nat.le_of_lt_succ hf⟩
            have hleng : (outbox.pending ++ [(message, ofMessage message)]).length - 1 =
                outbox.pending.length := by simp
            simp only [foldOldestContactPair, hleng] at h
            split at h
            · next hnone =>
                cases h
                refine ⟨fun hpair => ?_, fun _ => by rw [hcon]; rfl⟩
                obtain ⟨index, hidx, hpair⟩ := hpair.2
                exact absurd hpair (find?_eq_none.mp hnone index hidx)
            · next index hfind =>
                cases h
                have hpair : outbox.HasPair message := ⟨index, mem_of_find?_eq_some hfind, find?_some hfind⟩
                exact ⟨fun _ => rfl, fun hnot => absurd ⟨hf, hpair⟩ hnot⟩
        · next hroom =>
            cases h
            exact ⟨fun hf => absurd (Nat.lt_succ_of_le hf.1.2) hroom, fun _ => by rw [hcon]; rfl⟩
    · next hcls =>
        cases h
        have hcon : isContact message = false := decide_eq_false hcls
        exact ⟨fun _ => rfl, fun _ => by rw [hcon]; rfl⟩

/-- A push keeps the contact samples, or folds one of them. -/
theorem Pushed.contacts {before after : List Value} (h : Pushed message before after) :
    after.filter isContact = (before ++ [message]).filter isContact ∨
      after.countP isContact + 1 = (before ++ [message]).countP isContact := by
  cases h with
  | appended => exact .inl rfl
  | replaced _ last hcls hpos =>
    have hm : isContact message = false := by
      rcases hpos with hcls | hcls | hcls <;> simp [isContact, hcls]
    have hl : isContact last = false := by rwa [isContact, hcls]
    exact .inl (by simp [hl])
  | summed _ _ _ hl hm hsum =>
    have hmerg := ofMessage_of_sumRelative hm hsum
    exact .inl (by simp [isContact, hl, hm, hmerg])
  | folded _ _ _ _ _ hq holder hnew =>
    rw [hq]
    exact .inr (by simp [isContact, holder]; omega)

/-- While the samples waiting, with the message, are within the cap, none is folded. -/
theorem Consistent.push_keeps (h : outbox.Consistent)
    (hroom : (outbox.messages ++ [msg]).countP isContact ≤ penContactBacklogCap) :
    ∃ next, outbox.push msg = some next ∧
      next.messages.filter isContact = (outbox.messages ++ [msg]).filter isContact := by
  obtain ⟨next, hn, hc, hpushe⟩ := h.push msg
  refine ⟨next, hn, hpushe.contacts.resolve_right fun hfolde => ?_⟩
  have hcnt : (outbox.messages ++ [msg]).countP isContact = outbox.penContactPending + (isContact msg).toNat := by
    rw [countP_append, countP_singleton, h.counted]
    cases isContact msg <;> rfl
  have hpend := (penContactPending_push hn).2 fun hf => by
    rw [hcnt, hf.1.1] at hroom
    exact absurd hf.1.2 (Nat.not_le.mpr hroom)
  rw [hc.counted] at hpend
  omega

end Backlog

theorem consistent_of_exec {outbox : InputLaneOutbox} (h : inputLaneOutbox.exec calls = some outbox) :
    outbox.Consistent := by
  obtain ⟨_, ho, hc, -⟩ := accounted calls
  cases h.symm.trans ho
  exact hc

/-- **Bookkeeping.** No call fails, every record waiting is filed under its class, and the contact samples are counted. -/
theorem outbox_bookkeeping : ∃ outbox, inputLaneOutbox.exec calls = some outbox ∧ outbox.Consistent := by
  obtain ⟨outbox, hexec, hc, -⟩ := accounted calls
  exact ⟨outbox, hexec, hc⟩

/-- **Ink backlog.** The contact samples waiting stay within the cap throughout a run exactly if every sample that finds
the backlog full is queued beside a pair of one stroke; and as long as the samples are within the cap none is folded. -/
theorem contact_backlog_bounded_iff :
    ((∀ before, before <+: calls → ∃ outbox, inputLaneOutbox.exec before = some outbox ∧
          outbox.messages.countP isContact ≤ penContactBacklogCap) ↔
        ∀ before message outbox, before ++ [.push message] <+: calls → inputLaneOutbox.exec before = some outbox →
          outbox.FindsFull message → outbox.HasPair message) ∧
      ∃ outbox, inputLaneOutbox.exec calls = some outbox ∧ ∀ message,
        (outbox.messages ++ [message]).countP isContact ≤ penContactBacklogCap →
          ∃ next, outbox.push message = some next ∧
            next.messages.filter isContact = (outbox.messages ++ [message]).filter isContact := by
  refine ⟨⟨fun hbd before message outbox hpref hexec hf => ?_, fun hpairs before => ?_⟩, ?_⟩
  · by_contra hpair
    obtain ⟨next, hn, hle⟩ := hbd _ hpref
    have hc := consistent_of_exec _ hn
    rw [Machine.exec_concat, hexec] at hn
    have hpend := (penContactPending_push hn).2 fun hfold => hpair hfold.2
    rw [← hc.counted, hpend, hf.1] at hle
    exact absurd hf.2 (Nat.not_le.mpr hle)
  · induction before using reverseRecOn with
    | nil => exact fun _ => ⟨.empty, rfl, Nat.zero_le _⟩
    | append_singleton before call ih =>
      intro hpref
      obtain ⟨outbox, hexec, hle⟩ := ih ((prefix_append _ _).trans hpref)
      have hc := consistent_of_exec _ hexec
      rw [Machine.exec_concat, hexec]
      cases call with
      | push message =>
        obtain ⟨next, hn, hkept, -⟩ := hc.push message
        refine ⟨next, hn, ?_⟩
        rw [← hkept.counted]
        rw [← hc.counted] at hle
        by_cases hf : outbox.FindsFull message
        · rw [(penContactPending_push hn).1 ⟨hf, hpairs before message outbox hpref hexec hf⟩]
          exact hle
        · rw [(penContactPending_push hn).2 fun hfold => hf hfold.1]
          cases hcon : isContact message with
          | true => exact Nat.lt_of_not_le fun hcap => hf ⟨hcon, hcap⟩
          | false => exact hle
      | popFront =>
        obtain ⟨next, _, hn, -, hpopp⟩ := hc.popFront
        refine ⟨next, by simp only [inputLaneOutbox, hn], ?_⟩
        rw [← hpopp, countP_append] at hle
        exact (Nat.le_add_left _ _).trans hle
  · obtain ⟨outbox, hexec, hc, -⟩ := accounted calls
    exact ⟨outbox, hexec, fun message => hc.push_keeps⟩

/-- A contact sample of a pen. -/
def inkSample (buttons : UInt64) : Value :=
  .object [("type", .string "pen_event"), ("coalescable", .bool true), ("in_proximity", .bool true),
    ("touching", .bool true), ("buttons", .number (.posInt buttons))]

/-- The button flickers: no two neighbours are of one stroke, so nothing is folded. -/
theorem contact_backlog_exceeds_cap :
    ((inputLaneOutbox.exec ((replicate 129 [.push (inkSample 0), .push (inkSample 1)]).flatten)).map
      fun outbox => outbox.messages.countP isContact) = some 258 ∧ penContactBacklogCap = 256 := by
  decide +kernel

end InputLaneOutbox
end Arcen
