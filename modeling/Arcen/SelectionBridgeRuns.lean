import Arcen.History
import Arcen.SelectionBridge

/-! What the bridge releases over whole runs, in any interleaving of owner changes, reads, client items, transfers
and clears. Each call has a few effects; the log then accounts for the read in flight, for the client item that is
served and for the writes that are not finished. -/

namespace Arcen.SelectionBridge

open List hiding not_le

/-! ### One call -/

/-- What an owner change does: the read in flight is cancelled, a foreign change drops the client item. -/
structure OwnerEffect (bridge : SelectionBridge) (ours baseline : Bool) (next : SelectionBridge)
    (decision : OwnerDecision) : Prop where
  negotiation : next.negotiation = bridge.negotiation
  nextSequence : next.nextSequence = bridge.nextSequence
  writes : next.writes = bridge.writes
  cancel : decision.cancel = bridge.read.map ReadInFlight.token
  remote : next.remote = if ours then bridge.remote else none
  read : next.read.map ReadInFlight.token = decision.read.map Prod.fst
  started : ∀ read, decision.read = some read → ours = false ∧ baseline = false

theorem ownerChanged_effect (bridge : SelectionBridge) (names : List String) (ours baseline : Bool) :
    OwnerEffect bridge ours baseline (bridge.ownerChanged names ours baseline).1
      (bridge.ownerChanged names ours baseline).2 := by
  simp only [ownerChanged]
  cases ours with
  | true => exact ⟨rfl, rfl, rfl, rfl, rfl, rfl, nofun⟩
  | false =>
    cases baseline with
    | true => exact ⟨rfl, rfl, rfl, rfl, rfl, rfl, nofun⟩
    | false =>
      cases chooseHostFormat (bridge.negotiation.allows .hostToClient) names with
      | none => exact ⟨rfl, rfl, rfl, rfl, rfl, rfl, nofun⟩
      | some => exact ⟨rfl, rfl, rfl, rfl, rfl, rfl, fun _ _ => ⟨rfl, rfl⟩⟩

/-- What the end of a read does: nothing when it is stale, and at most one item otherwise. -/
inductive ReadEffect (bridge : SelectionBridge) (token : UInt64) : SelectionBridge → Option HostItem → Prop where
  | stale (hstale : ∀ read, bridge.read = some read → read.token ≠ token) : ReadEffect bridge token bridge none
  | dropped (read : ReadInFlight) (stats : BridgeStats) (hread : bridge.read = some read) (htoken : read.token = token) :
      ReadEffect bridge token { bridge with read := none, stats := stats } none
  | delivered (read : ReadInFlight) (stats : BridgeStats) (item : HostItem) (hread : bridge.read = some read)
      (htoken : read.token = token) (hsequence : bridge.nextSequence = some item.sequence)
      (hnonempty : item.bytes ≠ []) (hsize : item.bytes.length ≤ bridge.negotiation.policy.maxBytes)
      (hallowed : bridge.negotiation.allows .hostToClient item.kind = true) : ReadEffect bridge token
        { bridge with read := none, nextSequence := checkedSucc item.sequence, stats := stats } (some item)

theorem ReadEffect.writes (h : ReadEffect bridge token later item) : later.writes = bridge.writes := by
  cases h <;> rfl

section Decoder

variable (validatePng : List UInt8 → Nat → Bool)

variable (bridge : SelectionBridge)

theorem readFinished_effect (token : UInt64) (out : ReadOutcome) :
    ReadEffect bridge token (bridge.readFinished validatePng token out).1
      (bridge.readFinished validatePng token out).2 := by
  unfold readFinished
  split
  · next hn => exact .stale fun read hr => by rw [hn] at hr; cases hr
  · next read hr =>
    split_ifs with ht
    · cases out with
      | overflow | timedOut | failed => exact .dropped read _ hr ht
      | complete bytes =>
        simp only [deliver]
        split
        · exact .dropped read _ hr ht
        · next kind payload hdeco =>
          obtain ⟨hnonem, hsize⟩ := decodeHostPayload_eq_ok hdeco
          split_ifs with ha
          · exact .dropped read _ hr ht
          · split
            · exact .dropped read bridge.stats hr ht
            · next seq hseq =>
              exact .delivered read _ ⟨seq, kind, payload⟩ hr ht hseq hnonem hsize (by simpa using ha)
    · exact .stale fun other ho => by
        rw [hr] at ho
        exact Option.some.inj ho ▸ ht

/-- What a client item does: only one the negotiation allows is kept. -/
inductive RemoteEffect (bridge : SelectionBridge) (kind : ClipboardKind) (bytes : List UInt8) :
    SelectionBridge → Except ClipboardPayloadError (List String) → Prop where
  | refused (stats : BridgeStats) (error : ClipboardPayloadError) :
      RemoteEffect bridge kind bytes { bridge with stats := stats } (.error error)
  | accepted (stats : BridgeStats) (names : List String)
      (hallowed : bridge.negotiation.allows .clientToHost kind = true) :
      RemoteEffect bridge kind bytes { bridge with remote := some ⟨kind, bytes⟩, stats := stats } (.ok names)

theorem RemoteEffect.writes (h : RemoteEffect bridge kind bytes later result) : later.writes = bridge.writes := by
  cases h <;> rfl

theorem remoteItem_effect (kind : ClipboardKind) (bytes : List UInt8) :
    RemoteEffect bridge kind bytes (bridge.remoteItem validatePng kind bytes).1
      (bridge.remoteItem validatePng kind bytes).2 := by
  unfold remoteItem
  split
  · exact .refused _ _
  · next hchec =>
    refine .accepted _ _ ?_
    unfold checkRemote at hchec
    split_ifs at hchec with ha
    exact ha

end Decoder

/-- What a transfer request does: a write renders the client item the bridge holds. -/
inductive TransferEffect (bridge : SelectionBridge) (name : String) (serial : UInt32) :
    SelectionBridge → TransferDecision → Prop where
  | refused (stats : BridgeStats) (reason : String) :
      TransferEffect bridge name serial { bridge with stats := stats } (.refuse serial reason)
  | written (remote : RemoteSelection) (bytes : List UInt8) (hremote : bridge.remote = some remote)
      (hroom : bridge.writes.card < maxConcurrentHostWrites)
      (hrendered : renderForHost name remote.kind remote.bytes = some bytes) :
      TransferEffect bridge name serial { bridge with writes := insert serial bridge.writes } (.write serial bytes)

variable (bridge : SelectionBridge)

theorem transferRequested_effect (name : String) (serial : UInt32) :
    TransferEffect bridge name serial (bridge.transferRequested name serial).1
      (bridge.transferRequested name serial).2 := by
  unfold transferRequested
  generalize hdec : bridge.decideTransfer name serial = decision
  unfold decideTransfer at hdec
  split at hdec
  · subst hdec
    exact .refused _ _
  · next remote hrmt =>
    split_ifs at hdec with hbusy
    · subst hdec
      exact .refused _ _
    · split at hdec <;> subst hdec
      · next bytes hrend => exact .written remote bytes hrmt (not_le.mp hbusy) hrend
      · exact .refused _ _

theorem transferFinished_effect (serial : UInt32) (ok : Bool) : ∃ stats, bridge.transferFinished serial ok =
      { bridge with writes := bridge.writes.erase serial, stats := stats } := by
  unfold transferFinished
  by_cases hmem : serial ∈ bridge.writes
  · rw [if_pos hmem]
    exact ⟨_, rfl⟩
  · rw [if_neg hmem]
    exact ⟨bridge.stats, by rw [Finset.erase_eq_of_notMem hmem]⟩

/-! ### Reading the log -/

abbrev Entry := Call × Reply

/-- An owner change that started a read under the token, neither ours nor the baseline. -/
def StartsRead (token : UInt64) (entry : Entry) : Prop :=
  ∃ names cancel name, entry = (.ownerChanged names false false, .owner ⟨cancel, some (token, name)⟩)

def OwnerChange (entry : Entry) : Prop := ∃ names ours baseline, entry.1 = .ownerChanged names ours baseline

/-- A client item the bridge took. -/
def AcceptsItem (kind : ClipboardKind) (bytes : List UInt8) (entry : Entry) : Prop :=
  ∃ names, entry = (.remoteItem kind bytes, .names (.ok names))

/-- Neither another client item taken, nor a foreign owner change, nor a clear. -/
def KeepsItem (entry : Entry) : Prop :=
  (∀ kind bytes, ¬AcceptsItem kind bytes entry) ∧ (∀ names baseline, entry.1 ≠ .ownerChanged names false baseline) ∧
    entry.1 ≠ .clear

/-- The items handed to the client. -/
def items (log : List Entry) : List HostItem := log.filterMap fun entry => match entry.2 with
    | .item item => item
    | _ => none

/-- The reads the adapter was told to start and that neither ended nor were cancelled. -/
def inFlightAfter (reads : List UInt64) : Entry → List UInt64
  | (_, .owner decision) =>
    reads.filter (fun token => some token ≠ decision.cancel) ++ (decision.read.map Prod.fst).toList
  | (.readFinished token _, _) => reads.filter fun other => other ≠ token
  | (_, .cleared read) => reads.filter fun token => some token ≠ read
  | _ => reads

def inFlight (log : List Entry) : List UInt64 := log.foldl inFlightAfter []

/-- The writes the adapter was told to make and that did not finish, since the last clear. -/
def unfinishedAfter (writes : List UInt32) : Entry → List UInt32
  | (_, .transfer (.write serial _)) => writes ++ [serial]
  | (.transferFinished serial _, _) => writes.filter fun other => other ≠ serial
  | (.clear, _) => []
  | _ => writes

variable (log : List Entry)

def unfinished : List UInt32 := log.foldl unfinishedAfter []

def Call.serial? : Call → Option UInt32
  | .transferRequested _ serial => some serial
  | _ => none

theorem items_concat (entry : Entry) : items (log ++ [entry]) = items log ++ items [entry] := filterMap_append

theorem items_keep (hi : items [entry] = []) : items (log ++ [entry]) = items log := by
  rw [items_concat, hi, append_nil]

theorem inFlight_concat (entry : Entry) : inFlight (log ++ [entry]) = inFlightAfter (inFlight log) entry :=
  foldl_concat ..

theorem inFlightAfter_readFinished (reads : List UInt64) (token : UInt64) (out : ReadOutcome)
    (item : Option HostItem) :
    inFlightAfter reads (.readFinished token out, .item item) = reads.filter fun other => other ≠ token := rfl

theorem unfinished_concat (log : List Entry) (entry : Entry) :
    unfinished (log ++ [entry]) = unfinishedAfter (unfinished log) entry := foldl_concat ..

/-! ### What the log says about the bridge -/

structure Recorded (negotiation : ClipboardNegotiation) (log : List Entry) (bridge : SelectionBridge) : Prop where
  agreed : bridge.negotiation = negotiation
  read : ∀ read, bridge.read = some read → Since (StartsRead read.token) (¬OwnerChange ·) log
  remote : ∀ remote, bridge.remote = some remote → negotiation.allows .clientToHost remote.kind = true ∧
    Since (AcceptsItem remote.kind remote.bytes) KeepsItem log
  reads : inFlight log = (bridge.read.map ReadInFlight.token).toList
  sequences : (items log).map (fun item => item.sequence.toNat) = range' 1 (items log).length
  next : ∀ sequence, bridge.nextSequence = some sequence → sequence.toNat = (items log).length + 1

theorem toNat_checkedSucc {seq next : UInt64} (h : checkedSucc seq = some next) : next.toNat = seq.toNat + 1 := by
  unfold checkedSucc at h
  split_ifs at h with hzero
  rw [← Option.some.inj h, UInt64.toNat_add, UInt64.toNat_one]
  apply Nat.mod_eq_of_lt
  have hlt := seq.toNat_lt
  have hne : seq.toNat + 1 ≠ 2 ^ 64 := by
    intro heq
    apply hzero
    apply UInt64.toNat_inj.mp
    rw [UInt64.toNat_add, UInt64.toNat_one, heq]
    rfl
  omega

theorem filter_toList_ne [DecidableEq α] (held : Option α) :
    held.toList.filter (fun x => some x ≠ held) = [] := by
  cases held <;> simp

theorem recorded_new (nego : ClipboardNegotiation) : Recorded nego [] (new nego) :=
  ⟨rfl, nofun, nofun, rfl, rfl, fun _ h => Option.some.inj h ▸ rfl⟩

section Steps

variable {validatePng : List UInt8 → Nat → Bool} {negotiation : ClipboardNegotiation} {log : List Entry}
  {bridge next : SelectionBridge}

section

variable (h : Recorded negotiation log bridge)
include h

theorem Recorded.numbered (hi : items [entry] = []) : (items (log ++ [entry])).map (fun item => item.sequence.toNat) =
    range' 1 (items (log ++ [entry])).length := items_keep log hi ▸ h.sequences

theorem Recorded.due (hi : items [entry] = []) :
    ∀ seq, bridge.nextSequence = some seq → seq.toNat = (items (log ++ [entry])).length + 1 :=
  items_keep log hi ▸ h.next

/-- An entry that leaves the read, the item and the numbering alone. -/
theorem Recorded.keep (hagre : next.negotiation = bridge.negotiation) (hr : next.read = bridge.read)
    (hrmt : next.remote = bridge.remote) (hseq : next.nextSequence = bridge.nextSequence)
    (howner : ¬OwnerChange entry) (hk : KeepsItem entry) (hi : items [entry] = [])
    (hreads : inFlightAfter (inFlight log) entry = inFlight log) : Recorded negotiation (log ++ [entry]) next where
  agreed := hagre.trans h.agreed
  read := fun read hsome => (h.read read (hr ▸ hsome)).step howner
  remote := fun remote hsome => (h.remote remote (hrmt ▸ hsome)).imp_right fun hs => hs.step hk
  reads := by rw [inFlight_concat, hreads, h.reads, hr]
  sequences := h.numbered hi
  next := hseq ▸ h.due hi

theorem Recorded.ownerChanged (heff : OwnerEffect bridge ours baseline next decision) (names : List String) :
    Recorded negotiation (log ++ [(.ownerChanged names ours baseline, .owner decision)]) next := by
  refine ⟨heff.negotiation.trans h.agreed, ?_, ?_, ?_, h.numbered rfl, heff.nextSequence ▸ h.due rfl⟩
  · intro read hr
    have hstar := heff.read
    rw [hr] at hstar
    obtain ⟨⟨_, name⟩, hdec, ht⟩ := Option.map_eq_some_iff.mp hstar.symm
    obtain ⟨rfl, rfl⟩ := heff.started _ hdec
    refine .now log ⟨names, decision.cancel, name, ?_⟩
    rw [← ht, ← hdec]
  · intro remote hrmt
    rw [heff.remote] at hrmt
    split_ifs at hrmt with hours
    refine (h.remote remote hrmt).imp_right fun hs => hs.step ⟨nofun, fun _ _ heq => ?_, nofun⟩
    cases heq
    cases hours
  · rw [inFlight_concat, heff.read, inFlightAfter, heff.cancel, h.reads, filter_toList_ne, nil_append]

theorem Recorded.readFinished (heff : ReadEffect bridge token next item) (out : ReadOutcome) :
    Recorded negotiation (log ++ [(.readFinished token out, .item item)]) next := by
  have hk : KeepsItem (.readFinished token out, .item item) := ⟨nofun, nofun, nofun⟩
  have hrmts := fun remote hrmt => (h.remote remote hrmt).imp_right fun hs => hs.step hk
  have hend : ∀ read, bridge.read = some read → read.token = token →
      inFlight (log ++ [(.readFinished token out, .item item)]) = [] := by
    intro read hr ht
    rw [inFlight_concat, inFlightAfter_readFinished, h.reads, hr]
    simp [ht]
  cases heff with
  | stale hstale =>
    refine h.keep rfl rfl rfl rfl nofun hk rfl ?_
    rw [inFlightAfter_readFinished, h.reads]
    cases hr : bridge.read with
    | none => rfl
    | some read => simp [hstale read hr]
  | dropped read stats hr ht =>
    exact ⟨h.agreed, nofun, hrmts, hend read hr ht, h.numbered rfl, h.due rfl⟩
  | delivered read stats item hr ht hseq _ _ _ =>
    have hi : items (log ++ [(.readFinished token out, .item (some item))]) = items log ++ [item] :=
      items_concat log _
    refine ⟨h.agreed, nofun, hrmts, hend read hr ht, ?_, ?_⟩
    · rw [hi, map_append, h.sequences, length_append, length_singleton, map_singleton,
        h.next _ hseq, range'_concat, Nat.one_mul, Nat.add_comm 1]
    · intro seq hnext
      rw [hi, length_append, length_singleton, toNat_checkedSucc hnext, h.next _ hseq]

theorem Recorded.remoteItem (heff : RemoteEffect bridge kind bytes next result) :
    Recorded negotiation (log ++ [(.remoteItem kind bytes, .names result)]) next := by
  cases heff with
  | refused =>
    exact h.keep rfl rfl rfl rfl nofun ⟨nofun, nofun, nofun⟩ rfl rfl
  | accepted stats names ha =>
    refine ⟨h.agreed, ?_, ?_, ?_, h.numbered rfl, h.due rfl⟩
    · exact fun read hr => (h.read read hr).step nofun
    · intro remote hrmt
      obtain rfl := Option.some.inj hrmt
      exact ⟨h.agreed ▸ ha, .now log ⟨names, rfl⟩⟩
    · rw [inFlight_concat]
      exact h.reads

theorem Recorded.transferRequested (heff : TransferEffect bridge name serial next decision) :
    Recorded negotiation (log ++ [(.transferRequested name serial, .transfer decision)]) next := by
  have hk : KeepsItem (.transferRequested name serial, .transfer decision) := ⟨nofun, nofun, nofun⟩
  cases heff <;> exact h.keep rfl rfl rfl rfl nofun hk rfl rfl

theorem Recorded.step (call : Call) :
    Recorded negotiation (log ++ [(call, (bridge.step validatePng call).2)]) (bridge.step validatePng call).1 := by
  cases call with
  | ownerChanged names ours baseline => exact h.ownerChanged (bridge.ownerChanged_effect names ours baseline) names
  | readFinished token out => exact h.readFinished (bridge.readFinished_effect validatePng token out) out
  | remoteItem kind bytes => exact h.remoteItem (bridge.remoteItem_effect validatePng kind bytes)
  | transferRequested name serial => exact h.transferRequested (bridge.transferRequested_effect name serial)
  | transferFinished serial ok =>
    obtain ⟨_, hfin⟩ := bridge.transferFinished_effect serial ok
    simp only [SelectionBridge.step, hfin]
    exact h.keep rfl rfl rfl rfl nofun ⟨nofun, nofun, nofun⟩ rfl rfl
  | clear =>
    refine ⟨h.agreed, nofun, nofun, ?_, h.numbered rfl, h.due rfl⟩
    rw [inFlight_concat]
    simp only [clear, h.reads]
    exact filter_toList_ne _

end

/-! ### Writes -/

/-- The bridge knows the unfinished writes, each of them asked for. -/
structure Accounted (log : List Entry) (bridge : SelectionBridge) : Prop where
  writes : (unfinished log).toFinset = bridge.writes
  nodup : (unfinished log).Nodup
  requested : ∀ serial ∈ unfinished log, serial ∈ (log.map Prod.fst).filterMap Call.serial?
  bound : bridge.writes.card ≤ maxConcurrentHostWrites

section

variable (h : Accounted log bridge)
include h

theorem Accounted.keep (hwrit : next.writes = bridge.writes)
    (hunfi : unfinishedAfter (unfinished log) entry = unfinished log) : Accounted (log ++ [entry]) next := by
  have hsame : unfinished (log ++ [entry]) = unfinished log := (unfinished_concat log entry).trans hunfi
  refine ⟨by rw [hsame, hwrit, h.writes], hsame ▸ h.nodup, fun serial hseri => ?_, hwrit ▸ h.bound⟩
  rw [map_append, filterMap_append]
  exact mem_append_left _ (h.requested serial (hsame ▸ hseri))

theorem Accounted.transferRequested (heff : TransferEffect bridge name serial next decision)
    (hfresh : serial ∉ (log.map Prod.fst).filterMap Call.serial?) :
    Accounted (log ++ [(.transferRequested name serial, .transfer decision)]) next := by
  cases heff with
  | refused => exact h.keep rfl rfl
  | written _ bytes _ hroom =>
    have hnew : unfinished (log ++ [(.transferRequested name serial, .transfer (.write serial bytes))]) =
        unfinished log ++ [serial] := unfinished_concat log _
    have hunwr : serial ∉ unfinished log := fun hmem => hfresh (h.requested serial hmem)
    refine ⟨?_, ?_, ?_, ?_⟩
    · rw [hnew, toFinset_append, h.writes, Finset.union_comm]
      rfl
    · rw [hnew]
      refine nodup_append.mpr ⟨h.nodup, nodup_singleton _, ?_⟩
      rintro other ho last hlast rfl
      exact hunwr (mem_singleton.mp hlast ▸ ho)
    · intro other ho
      rw [map_append, filterMap_append]
      rw [hnew] at ho
      rcases mem_append.mp ho with hold | hlast
      · exact mem_append_left _ (h.requested other hold)
      · exact mem_append_right _ hlast
    · exact (Finset.card_insert_le _ _).trans hroom

theorem Accounted.transferFinished (serial : UInt32) (ok : Bool) :
    Accounted (log ++ [(.transferFinished serial ok, .finished)]) (bridge.transferFinished serial ok) := by
  obtain ⟨_, hfin⟩ := bridge.transferFinished_effect serial ok
  have hleft : unfinished (log ++ [(.transferFinished serial ok, .finished)]) =
      (unfinished log).filter fun other => other ≠ serial := unfinished_concat log _
  rw [hfin]
  refine ⟨?_, hleft ▸ h.nodup.filter _, ?_, (Finset.card_erase_le).trans h.bound⟩
  · rw [hleft]
    ext other
    rw [Finset.mem_erase, ← h.writes, mem_toFinset, mem_toFinset, mem_filter, decide_eq_true_iff, and_comm]
  · intro other ho
    rw [map_append, filterMap_append]
    rw [hleft] at ho
    exact mem_append_left _ (h.requested other (mem_of_mem_filter ho))

theorem Accounted.step (call : Call)
    (hfresh : ∀ serial, call.serial? = some serial → serial ∉ (log.map Prod.fst).filterMap Call.serial?) :
    Accounted (log ++ [(call, (bridge.step validatePng call).2)]) (bridge.step validatePng call).1 := by
  cases call with
  | ownerChanged names ours baseline => exact h.keep (bridge.ownerChanged_effect names ours baseline).writes rfl
  | readFinished token out => exact h.keep (bridge.readFinished_effect validatePng token out).writes rfl
  | remoteItem kind bytes => exact h.keep (bridge.remoteItem_effect validatePng kind bytes).writes rfl
  | transferRequested name serial =>
    exact h.transferRequested (bridge.transferRequested_effect name serial) (hfresh serial rfl)
  | transferFinished serial ok => exact h.transferFinished serial ok
  | clear =>
    have hn : unfinished (log ++ [(.clear, (bridge.step validatePng .clear).2)]) = [] := unfinished_concat log _
    refine ⟨by rw [hn]; rfl, hn ▸ nodup_nil, ?_, Nat.zero_le _⟩
    intro serial hseri
    rw [hn] at hseri
    exact absurd hseri not_mem_nil

end

end Steps

/-! ### Runs -/

section Runs

variable (validatePng : List UInt8 → Nat → Bool) (negotiation : ClipboardNegotiation)

theorem recorded_log (calls : List Call) : Recorded negotiation ((machine validatePng negotiation).log calls)
    ((machine validatePng negotiation).exec calls) :=
  (machine validatePng negotiation).log_invariant (P := Recorded negotiation) (recorded_new negotiation)
    (fun _ _ call h => h.step call) calls

theorem accounted_log (calls : List Call) (hseria : (calls.filterMap Call.serial?).Nodup) :
    Accounted ((machine validatePng negotiation).log calls) ((machine validatePng negotiation).exec calls) := by
  induction calls using reverseRecOn with
  | nil => exact ⟨rfl, nodup_nil, fun _ h => absurd h not_mem_nil, Nat.zero_le _⟩
  | append_singleton calls call ih =>
    rw [filterMap_append] at hseria
    obtain ⟨hpre, -, hdisj⟩ := nodup_append.mp hseria
    rw [Machine.log_concat, Machine.exec_concat]
    refine (ih hpre).step call fun serial hseri hmem => ?_
    rw [Machine.map_fst_log] at hmem
    exact hdisj serial hmem serial (by simp [hseri]) rfl

variable {log : List Entry} {bridge : SelectionBridge} {call : Call}

/-- What the bridge hands to the client next. -/
theorem Recorded.item_released (h : Recorded nego log bridge)
    (hitem : (bridge.step validatePng call).2 = .item (some item)) :
    item.bytes ≠ [] ∧ item.bytes.length ≤ nego.policy.maxBytes ∧ nego.allows .hostToClient item.kind = true ∧
      ∃ token out, call = .readFinished token out ∧ Since (StartsRead token) (¬OwnerChange ·) log := by
  cases call with
  | readFinished token out =>
    have heff := bridge.readFinished_effect validatePng token out
    rw [Reply.item.inj hitem] at heff
    generalize (bridge.readFinished validatePng token out).1 = next at heff
    cases heff with
    | delivered read _ _ hr ht _ hnonem hsize ha =>
      rw [h.agreed] at hsize ha
      exact ⟨hnonem, hsize, ha, token, out, rfl, ht ▸ h.read read hr⟩
  | ownerChanged | remoteItem | transferRequested
  | transferFinished | clear => cases hitem

/-- What the bridge writes to a reader on the desktop next. -/
theorem Recorded.write_released (h : Recorded nego log bridge)
    (hwrite : (bridge.step validatePng call).2 = .transfer (.write serial bytes)) :
    ∃ name kind payload, call = .transferRequested name serial ∧ renderForHost name kind payload = some bytes ∧
      nego.allows .clientToHost kind = true ∧ Since (AcceptsItem kind payload) KeepsItem log := by
  cases call with
  | transferRequested name asked =>
    have heff := bridge.transferRequested_effect name asked
    rw [Reply.transfer.inj hwrite] at heff
    generalize (bridge.transferRequested name asked).1 = next at heff
    cases heff with
    | written remote _ hrmt _ hrend =>
      obtain ⟨ha, hs⟩ := h.remote remote hrmt
      exact ⟨name, remote.kind, remote.bytes, rfl, hrend, ha, hs⟩
  | ownerChanged | readFinished | remoteItem
  | transferFinished | clear => cases hwrite

/-- **The bridge releases only what was negotiated.** -/
theorem releases_only_negotiated {policy : ClipboardPolicy} {eligible : Bool} {request : ClipboardRequest}
    (hresolve : ClipboardNegotiation.resolve policy eligible request = some negotiation) (calls : List Call)
    (hserials : (calls.filterMap Call.serial?).Nodup) :
    Throughout (fun before entry => ∀ item, entry.2 = .item (some item) →
        item.bytes ≠ [] ∧ item.bytes.length ≤ policy.maxBytes ∧ negotiation.allows .hostToClient item.kind = true ∧
        ∃ token outcome, entry.1 = .readFinished token outcome ∧ Since (StartsRead token) (¬OwnerChange ·) before)
      ((machine validatePng negotiation).log calls) ∧
    (items ((machine validatePng negotiation).log calls)).map (fun item => item.sequence.toNat) =
      range' 1 (items ((machine validatePng negotiation).log calls)).length ∧
    Throughout (fun before entry => ∀ serial bytes, entry.2 = .transfer (.write serial bytes) →
        ∃ name kind payload, entry.1 = .transferRequested name serial ∧
          renderForHost name kind payload = some bytes ∧ negotiation.allows .clientToHost kind = true ∧
          Since (AcceptsItem kind payload) KeepsItem before)
      ((machine validatePng negotiation).log calls) ∧
    (inFlight ((machine validatePng negotiation).log calls)).length ≤ 1 ∧
    (unfinished ((machine validatePng negotiation).log calls)).length ≤ maxConcurrentHostWrites := by
  have hreco := recorded_log validatePng negotiation calls
  have hacco := accounted_log validatePng negotiation calls hserials
  refine ⟨?_, hreco.sequences, ?_, ?_, ?_⟩
  · refine (machine validatePng negotiation).throughout (I := Recorded negotiation) (recorded_new negotiation)
      (fun _ _ call h => h.step call) ?_ calls
    intro log bridge call h item hitem
    have hpoli : negotiation.policy = policy := by rw [ClipboardNegotiation.resolve_eq_some hresolve]
    exact hpoli ▸ h.item_released validatePng hitem
  · refine (machine validatePng negotiation).throughout (I := Recorded negotiation) (recorded_new negotiation)
      (fun _ _ call h => h.step call) ?_ calls
    intro log bridge call h serial bytes hwrite
    exact h.write_released validatePng hwrite
  · rw [hreco.reads]
    cases ((machine validatePng negotiation).exec calls).read <;> simp
  · have hbd := hacco.bound
    rwa [← hacco.writes, toFinset_card_of_nodup hacco.nodup] at hbd

/-- A copy on the desktop reaches the client as its first item, and a paste of the client's item is served. -/
theorem releases_only_negotiated_copy :
    ClipboardNegotiation.resolve ⟨.both, .text, 1024⟩ true ⟨1, ⟨true, true⟩, ⟨true, true⟩⟩ =
      some ⟨⟨.both, .text, 1024⟩, ⟨true, true⟩, ⟨true, true⟩⟩ ∧
    items ((machine (fun _ _ => false) ⟨⟨.both, .text, 1024⟩, ⟨true, true⟩, ⟨true, true⟩⟩).log
      [.ownerChanged ["UTF8_STRING"] false false, .readFinished 1 (.complete [104, 105]),
        .remoteItem .textUtf8 [111, 107], .transferRequested "UTF8_STRING" 7]) = [⟨1, .textUtf8, [104, 105]⟩] ∧
    (unfinished ((machine (fun _ _ => false) ⟨⟨.both, .text, 1024⟩, ⟨true, true⟩, ⟨true, true⟩⟩).log
      [.ownerChanged ["UTF8_STRING"] false false, .readFinished 1 (.complete [104, 105]),
        .remoteItem .textUtf8 [111, 107], .transferRequested "UTF8_STRING" 7])).length ≤ maxConcurrentHostWrites := by
  have hrsv : ClipboardNegotiation.resolve ⟨.both, .text, 1024⟩ true ⟨1, ⟨true, true⟩, ⟨true, true⟩⟩ =
      some ⟨⟨.both, .text, 1024⟩, ⟨true, true⟩, ⟨true, true⟩⟩ := by decide
  refine ⟨hrsv, by decide +kernel, ?_⟩
  exact (releases_only_negotiated (fun _ _ => false) _ hrsv _ (by decide)).2.2.2.2

end Runs

end Arcen.SelectionBridge
