import Arcen.Fallible

/-! The journal of a certificate transaction (`shared/transport/src/cert_transaction.rs`): its text form, and what it
makes of each managed file when a run was interrupted. -/

namespace Arcen

open List

/-! ### Text -/

def isWhiteSpace (c : Char) : Bool :=
  (0x09 ≤ c.toNat && c.toNat ≤ 0x0d) || c.toNat == 0x20 || c.toNat == 0x85 || c.toNat == 0xa0 || c.toNat == 0x1680 ||
    (0x2000 ≤ c.toNat && c.toNat ≤ 0x200a) || c.toNat == 0x2028 || c.toNat == 0x2029 || c.toNat == 0x202f ||
    c.toNat == 0x205f || c.toNat == 0x3000

/-- `str::trim`. -/
def trimText (text : List Char) : List Char := ((text.dropWhile isWhiteSpace).reverse.dropWhile isWhiteSpace).reverse

def splitOnce (separator : Char) : List Char → Option (List Char × List Char)
  | [] => none
  | c :: rest =>
    if c = separator then some ([], rest)
    else (splitOnce separator rest).map fun (key, value) => (c :: key, value)

theorem dropWhile_of_none {text : List Char} (h : ∀ c ∈ text, p c = false) : text.dropWhile p = text := by
  cases text with
  | nil => rfl
  | cons c => rw [dropWhile_cons_of_neg (by rw [h c mem_cons_self]; exact Bool.false_ne_true)]

theorem trimText_of_none (h : ∀ c ∈ text, isWhiteSpace c = false) : trimText text = text := by
  rw [trimText, dropWhile_of_none h, dropWhile_of_none fun c hc => h c (mem_reverse.mp hc), reverse_reverse]

theorem splitOnce_append (h : separator ∉ key) :
    splitOnce separator (key ++ separator :: value) = some (key, value) := by
  induction key with
  | nil => rw [nil_append, splitOnce, if_pos rfl]
  | cons c key ih =>
    have hc : c ≠ separator := fun heq => h (heq ▸ mem_cons_self)
    rw [cons_append, splitOnce, if_neg hc, ih fun hmem => h (mem_cons_of_mem _ hmem), Option.map_some]

/-- Lines written one after the other are read back, with an empty rest. -/
theorem splitOn_lines (h : ∀ line ∈ lines, '\n' ∉ line) :
    (lines.flatMap (· ++ ['\n'])).splitOn '\n' = lines ++ [[]] := by
  induction lines with
  | nil => rfl
  | cons line lines ih =>
    have hline : ∀ c ∈ line, (c == '\n') = false := by
      intro c hc
      rw [beq_eq_false_iff_ne]
      exact fun heq => h line mem_cons_self (heq ▸ hc)
    have hrest := ih fun other hoth => h other (mem_cons_of_mem _ hoth)
    rw [splitOn] at hrest ⊢
    rw [flatMap_cons, append_assoc, singleton_append,
      splitOnP_append_cons (p := (· == '\n')) line _ (beq_self_eq_true '\n'), splitOnP_eq_singleton hline, hrest]
    rfl

/-! ### The journal -/

/-- The files a certificate transaction manages together, in their order. -/
inductive ManagedFile where
  | key
  | certificate
  | certificatePin
  | spkiPin
  | marker
  deriving DecidableEq

def managedFiles : List ManagedFile := [.key, .certificate, .certificatePin, .spkiPin, .marker]

theorem ManagedFile.mem_managedFiles (file : ManagedFile) : file ∈ managedFiles := by
  cases file <;> decide

def ManagedFile.name : ManagedFile → String
  | .key => "host.key"
  | .certificate => "host.crt"
  | .certificatePin => "host.cert-sha256"
  | .spkiPin => "host.spki-sha256"
  | .marker => "host.generated-by-arcen"

inductive TransactionPhase where
  | prepared
  | committed
  deriving DecidableEq

namespace TransactionPhase

def parse (value : List Char) : Option TransactionPhase :=
  if value = "prepared".toList then some .prepared
  else if value = "committed".toList then some .committed
  else none

def asStr : TransactionPhase → String
  | .prepared => "prepared"
  | .committed => "committed"

end TransactionPhase

inductive JournalError where
  | missingTransactionId
  | missingPhase
  | unknownPhase
  | incompleteFileRecord
  | unrecognizedEntry

/-- What the directory looks like for one file. -/
structure FileBefore where
  existed : Bool
  backupPresent : Bool

/-- What a host does with one managed file to finish recovering. -/
inductive FileRecovery where
  | requirePublished
  | restoreBackup
  | removeFile
  | requireUntouched

structure TransactionJournal where
  transactionId : String
  phase : TransactionPhase
  existed : ManagedFile → Bool

/-- The fields read so far. -/
structure JournalFields where
  transactionId : Option (List Char)
  phase : Option TransactionPhase
  existed : ManagedFile → Option Bool

namespace TransactionJournal

variable (journal : TransactionJournal)

def renderLines : List (List Char) := ("transaction".toList ++ '=' :: journal.transactionId.toList) ::
    ("phase".toList ++ '=' :: journal.phase.asStr.toList) :: managedFiles.map fun file =>
        ("existed.".toList ++ file.name.toList) ++ '=' :: [if journal.existed file then '1' else '0']

def render : String := String.ofList (journal.renderLines.flatMap (· ++ ['\n']))

def existedLead : List Char := "existed.".toList

variable (fields : JournalFields)

def parseExisted (key value : List Char) : Except JournalError JournalFields := do
  refuseWhen (¬existedLead.isPrefixOf key) .unrecognizedEntry
  let file ← orError .unrecognizedEntry
    (managedFiles.find? fun file => file.name.toList = key.drop existedLead.length)
  let existed ← orError .unrecognizedEntry
    (if value = ['0'] then some false else if value = ['1'] then some true else none)
  .ok { fields with existed := Function.update fields.existed file (some existed) }

/-- One line, trimmed; empty ones are skipped, so a carriage return or a last empty line does not matter. -/
def parseLine (line : List Char) : Except JournalError JournalFields :=
  if trimText line = [] then .ok fields
  else
    match splitOnce '=' (trimText line) with
    | none => .error .unrecognizedEntry
    | some (key, value) =>
      if key = "transaction".toList then .ok { fields with transactionId := some value }
      else if key = "phase".toList then do
        let phase ← orError .unknownPhase (TransactionPhase.parse value)
        .ok { fields with phase := some phase }
      else parseExisted fields key value

def parse (text : String) : Except JournalError TransactionJournal := do
  let fields ← (text.toList.splitOn '\n').foldlM parseLine ⟨none, none, fun _ => none⟩
  let transactionId ← orError .missingTransactionId fields.transactionId
  refuseWhen (transactionId = []) .missingTransactionId
  let phase ← orError .missingPhase fields.phase
  refuseWhen (¬managedFiles.all fun file => (fields.existed file).isSome) .incompleteFileRecord
  .ok ⟨String.ofList transactionId, phase, fun file => (fields.existed file).getD false⟩

variable (journal : TransactionJournal)

def existedBefore (name : String) : Except JournalError Bool := do
  let file ← orError .unrecognizedEntry (managedFiles.find? fun file => file.name = name)
  .ok (journal.existed file)

def recoverFile (name : String) (now : FileBefore) : Except JournalError FileRecovery := do
  let existed ← journal.existedBefore name
  if journal.phase = .committed then .ok .requirePublished
  else if now.backupPresent then .ok .restoreBackup
  else if existed then .ok .requireUntouched
  else .ok .removeFile

/-- The identifier has no character that trimming or the end of a line would take. -/
def WellFormedId (id : String) : Prop := id.toList ≠ [] ∧ ∀ c ∈ id.toList, isWhiteSpace c = false

variable {fields : JournalFields} {journal : TransactionJournal}

theorem parseLine_transaction {id : String} (hid : WellFormedId id) :
    parseLine fields ("transaction".toList ++ '=' :: id.toList) =
      .ok { fields with transactionId := some id.toList } := by
  have hkey : ("transaction".toList.all fun c => !isWhiteSpace c) = true := rfl
  have hwhite : ∀ c ∈ "transaction".toList ++ '=' :: id.toList, isWhiteSpace c = false := by
    intro c hc
    rcases mem_append.mp hc with hc | hc
    · have hc := all_eq_true.mp hkey c hc
      rwa [Bool.not_eq_eq_eq_not] at hc
    · rcases mem_cons.mp hc with rfl | hc
      · rfl
      · exact hid.2 c hc
  rw [parseLine, trimText_of_none hwhite, if_neg (append_ne_nil_of_right_ne_nil _ (cons_ne_nil _ _))]
  exact if_pos rfl

theorem parseLine_phase (phase : TransactionPhase) :
    parseLine fields ("phase".toList ++ '=' :: phase.asStr.toList) = .ok { fields with phase := some phase } := by
  cases phase <;> rfl

theorem parseLine_existed (file : ManagedFile) (existed : Bool) :
    parseLine fields (("existed.".toList ++ file.name.toList) ++ '=' :: [if existed then '1' else '0']) =
      .ok { fields with existed := Function.update fields.existed file (some existed) } := by
  cases file <;> cases existed <;> rfl

theorem no_newline_renderLines (hid : WellFormedId journal.transactionId) :
    ∀ line ∈ journal.renderLines, '\n' ∉ line := by
  have hexis : ∀ (file : ManagedFile) (existed : Bool),
      '\n' ∉ ("existed.".toList ++ file.name.toList) ++ '=' :: [if existed then '1' else '0'] := by
    intro file existed
    cases file <;> cases existed <;> decide
  intro line hline
  rw [renderLines, mem_cons, mem_cons, mem_map] at hline
  rcases hline with rfl | rfl | ⟨file, -, rfl⟩
  · rw [mem_append, mem_cons, not_or, not_or]
    exact ⟨by decide, by decide, fun hmem => Bool.false_ne_true ((hid.2 _ hmem).symm.trans rfl)⟩
  · cases journal.phase <;> decide
  · exact hexis file (journal.existed file)

/-- **Round trip.** A journal written out is read back. -/
theorem parse_render (hid : WellFormedId journal.transactionId) : parse journal.render = .ok journal := by
  have hlines : (journal.renderLines ++ [[]]).foldlM parseLine ⟨none, none, fun _ => none⟩ =
      .ok ⟨some journal.transactionId.toList, some journal.phase, fun file => some (journal.existed file)⟩ := by
    rw [renderLines, cons_append, foldlM_cons, parseLine_transaction hid, exceptBind_ok, cons_append,
      foldlM_cons, parseLine_phase]
    simp only [managedFiles, map_cons, cons_append, foldlM_cons,
      parseLine_existed]
    refine congrArg Except.ok ?_
    rw [JournalFields.mk.injEq]
    refine ⟨rfl, rfl, funext fun file => ?_⟩
    cases file <;> rfl
  rw [parse, render, String.toList_ofList, splitOn_lines (no_newline_renderLines hid), hlines]
  simp only [orError, exceptBind_ok, refuseWhen, if_neg hid.1]
  have hall : (managedFiles.all fun file => (some (journal.existed file)).isSome) = true := rfl
  simp [exceptBind_ok]

variable (journal : TransactionJournal) (file : ManagedFile)

theorem existedBefore_name : journal.existedBefore file.name = .ok (journal.existed file) := by
  cases file <;> rfl

theorem recoverFile_name (now : FileBefore) :
    journal.recoverFile file.name now = .ok (if journal.phase = .committed then .requirePublished
        else if now.backupPresent then .restoreBackup
        else if journal.existed file then .requireUntouched
        else .removeFile) := by
  rw [recoverFile, existedBefore_name, exceptBind_ok]
  split_ifs <;> rfl

end TransactionJournal
end Arcen
