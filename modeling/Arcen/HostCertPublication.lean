import Arcen.HostCertRecovery

/-! The publication itself: whatever its writes do and wherever it stops, recovery can settle what it leaves. -/

namespace Arcen

open Steps CertTransaction CertView List

/-- A write publishes its bytes, or leaves the view, or fails once they are published. -/
theorem writePrivate_triple {P : CertView → Prop} (id : String) (target : CertTarget)
    (bytes : List UInt8) (outcome : WriteOutcome) (hstop : ∀ dir, P (.of id dir) → stop dir) :
    Triple (fun dir => P (.of id dir)) (writePrivate target bytes outcome)
      (fun _ dir => ∃ view, P view ∧ of id dir = view.set target (some bytes))
      (fun _ dir => ∃ view, P view ∧ (of id dir = view ∨ of id dir = view.set target (some bytes))) stop := by
  have hunch : ∀ dir : CertDirectory, P (.of id dir) → ∃ view, P view ∧
      (of id dir = view ∨ of id dir = view.set target (some bytes)) := fun dir h => ⟨_, h, .inl rfl⟩
  have hcrea : ∀ staged : List UInt8, Triple (fun dir => P (.of id dir))
      (atomic (CertDirectory.create (.staging target) staged) : CertSteps Unit)
      (fun _ dir => P (.of id dir) ∧ dir (.staging target) = some staged)
      (fun _ dir => ∃ view, P view ∧ (of id dir = view ∨ of id dir = view.set target (some bytes))) stop := by
    intro staged
    refine .atomic hstop fun dir h => ⟨?_, Function.update_self _ _ _⟩
    exact h
  have hrena : Triple (fun dir => P (.of id dir) ∧ dir (.staging target) = some bytes)
      (tryAtomic (CertDirectory.rename (.staging target) (.target target)) (CertError.write target))
      (fun _ dir => ∃ view, P view ∧ of id dir = view.set target (some bytes))
      (fun _ dir => ∃ view, P view ∧ (of id dir = view ∨ of id dir = view.set target (some bytes))) stop := by
    refine .tryAtomic (fun dir h => hstop dir h.1) ?_ fun dir h _ => hunch dir h.1
    exact fun dir next h hnext => ⟨_, h.1, of_rename_staging h.2 hnext⟩
  cases outcome with
  | notCreated => exact .throw hunch
  | notFilled part => exact .bind _ (hcrea part) fun _ => .throw fun dir h => hunch dir h.1
  | notRenamed => exact .bind _ (hcrea bytes) fun _ => .throw fun dir h => hunch dir h.1
  | notChangedMode =>
    refine .bind _ (hcrea bytes) fun _ => .bind _ hrena fun _ => .throw ?_
    exact fun dir ⟨view, h, hv⟩ => ⟨view, h, .inr hv⟩
  | published => exact .bind _ (hcrea bytes) fun _ => hrena

namespace Publication

variable {pub : Publication}

/-! ### Beginning -/

/-- Nothing is changed yet, and the files not still to come are backed up. -/
def BackingUp (publication : Publication) (rest : List ManagedFile) (view : CertView) : Prop :=
  view.journal = none ∧ view.managed = publication.before ∧ (∀ file ∈ rest, view.backup file = none) ∧
    ∀ file ∉ rest, view.backup file = publication.before file

variable {rest : List ManagedFile} {view : CertView}

variable {dir : CertDirectory} {file : ManagedFile}

theorem BackingUp.recoverable (h : pub.BackingUp rest (.of pub.id directory)) : pub.Recoverable directory :=
  .inl ⟨h.1, .inl h.2.1⟩

/-- A file that did not exist has no backup. -/
theorem BackingUp.skip (h : pub.BackingUp (file :: rest) view) (hp : pub.before file = none) :
    pub.BackingUp rest view := by
  obtain ⟨hj, hman, hn, hdone⟩ := h
  refine ⟨hj, hman, fun other ho => hn other (mem_cons_of_mem _ ho), fun other ho => ?_⟩
  by_cases heq : other = file
  · rw [heq, hn file mem_cons_self, hp]
  · exact hdone other (by simp [heq, ho])

theorem BackingUp.copy (h : pub.BackingUp (file :: rest) view) (hf : file ∉ rest) :
    pub.BackingUp rest { view with backup := Function.update view.backup file (view.managed file) } := by
  obtain ⟨hj, hman, hn, hdone⟩ := h
  refine ⟨hj, hman, fun other ho => ?_, fun other ho => ?_⟩
  · have hne : other ≠ file := fun heq => hf (heq ▸ ho)
    exact (Function.update_of_ne hne _ _).trans (hn other (mem_cons_of_mem _ ho))
  · by_cases heq : other = file
    · rw [heq, ← hman]
      exact Function.update_self _ _ _
    · exact (Function.update_of_ne heq _ _).trans (hdone other (by simp [heq, ho]))

theorem backUp_triple (files : List ManagedFile) (hnd : files.Nodup) :
    Triple (pub.At (pub.BackingUp files)) (backUp pub.id files)
      (fun backups dir => pub.BackingUp [] (.of pub.id dir) ∧ backups.Nodup ∧
        ∀ file, file ∈ backups ↔ file ∈ files ∧ (pub.before file).isSome = true)
      (fun _ _ => False) pub.Recoverable := by
  induction files with
  | nil => exact .pure fun dir h => ⟨h, nodup_nil, by simp⟩
  | cons file files ih =>
    obtain ⟨hf, hfiles⟩ := nodup_cons.mp hnd
    have hrest := ih hfiles
    have hpres : ∀ dir : CertDirectory, pub.BackingUp (file :: files) (.of pub.id dir) →
        dir.isFile (.target (.managed file)) = (pub.before file).isSome := by
      intro dir h
      rw [← h.2.1]
      rfl
    refine .bindKnown hpres ?_
    cases hp : pub.before file with
    | none =>
      refine (hrest.from fun dir h => h.skip hp).weaken ?_ fun _ _ h => h
      refine fun backups dir h => ⟨h.1, h.2.1, fun other => (h.2.2 other).trans ?_⟩
      refine and_congr_left fun hs => (or_iff_right ?_).symm.trans mem_cons.symm
      rintro rfl
      rw [hp] at hs
      cases hs
    | some =>
      refine .bind (fun _ => pub.At (pub.BackingUp files)) ?_ fun _ => ?_
      · refine .atomic (fun dir h => h.recoverable) fun dir h => ?_
        rw [At, of_copy_backup]
        exact h.copy hf
      · refine .bind _ hrest fun later => .pure fun dir h => ?_
        refine ⟨h.1, nodup_cons.mpr ⟨fun hmem => hf ((h.2.2 file).mp hmem).1, h.2.1⟩, fun other => ?_⟩
        rw [mem_cons, mem_cons, h.2.2 other, or_and_right]
        refine or_congr_left (iff_self_and.mpr ?_)
        rintro rfl
        rw [hp, Option.isSome_some]

def Begun (publication : Publication) (view : CertView) : Prop :=
  view.journal = some publication.preparedJournal ∧ view.backup = publication.before

theorem Begun.prepared (h : pub.Begun view) : pub.Prepared view := ⟨h.1, fun file => .inl (congrFun h.2 file)⟩

theorem Begun.recoverable (h : pub.Begun (.of pub.id directory)) : pub.Recoverable directory := h.prepared.recoverable

/-- The transaction names the files that existed. -/
def Names (publication : Publication) (transaction : CertTransaction) : Prop :=
  transaction.id = publication.id ∧ transaction.backups.Nodup ∧
    ∀ file, file ∈ transaction.backups ↔ (publication.before file).isSome = true

/-- The publication is under way, with these managed files. -/
def Publishing (publication : Publication) (managed : ManagedFile → Option (List UInt8)) (view : CertView) : Prop :=
  publication.Begun view ∧ view.managed = managed

theorem begin_triple (outcomes : WriteOutcomes) : Triple (pub.At (pub.BackingUp managedFiles))
      (begin pub.id outcomes)
      (fun transaction dir => pub.Publishing pub.before (.of pub.id dir) ∧ pub.Names transaction)
      (fun _ => pub.Recoverable) pub.Recoverable := by
  refine .bind _ (backUp_triple managedFiles nodup_managedFiles).sure fun backups => ?_
  refine .given fun ⟨hnd, hback⟩ => ?_
  have hnm : pub.Names ⟨pub.id, backups⟩ :=
    ⟨rfl, hnd, fun file => (hback file).trans (and_iff_right file.mem_managedFiles)⟩
  have hj : journalBytes pub.id .prepared (fun file => decide (file ∈ backups)) = pub.preparedJournal := by
    refine congrArg _ (funext fun file => ?_)
    rw [Bool.eq_iff_iff, decide_eq_true_eq]
    exact hnm.2.2 file
  have hbegun : ∀ view, pub.BackingUp [] view →
      pub.Publishing pub.before (view.set .journal (some pub.preparedJournal)) :=
    fun view h => ⟨⟨rfl, funext fun file => h.2.2.2 file not_mem_nil⟩, h.2.1⟩
  rw [hj]
  refine .bind (fun _ => pub.At (pub.Publishing pub.before)) ?_ fun _ => .pure fun dir h => ⟨h, hnm⟩
  refine (writePrivate_triple pub.id .journal pub.preparedJournal outcomes.prepared
    fun dir h => BackingUp.recoverable h).weaken ?_ ?_
  · rintro _ dir ⟨view, h, hv⟩
    rw [At, hv]
    exact hbegun view h
  · rintro _ _ ⟨view, h, hv | hv⟩
    · exact BackingUp.recoverable (hv.symm ▸ h)
    · exact Begun.recoverable (hv ▸ (hbegun view h).1)

/-! ### Publishing -/

theorem writeManaged_triple (file : ManagedFile) (bytes : List UInt8) (outcome : WriteOutcome)
    (managed : ManagedFile → Option (List UInt8)) :
    Triple (pub.At (pub.Publishing managed)) (writePrivate (.managed file) bytes outcome)
      (fun _ => pub.At (pub.Publishing (Function.update managed file (some bytes))))
      (fun _ => pub.At pub.Begun) pub.Recoverable := by
  refine (writePrivate_triple pub.id (.managed file) bytes outcome
    fun dir h => h.1.recoverable).weaken ?_ ?_
  · rintro _ dir ⟨view, h, hv⟩
    rw [At, hv, ← h.2]
    exact ⟨h.1, rfl⟩
  · rintro _ _ ⟨_, h, hv | hv⟩ <;> rw [At, hv] <;> exact h.1

end Publication

/-- The managed files as a publication leaves them. -/
def publishedFiles (marker : CertMarker) (certificate : List UInt8) (key : Option (List UInt8))
    (before : ManagedFile → Option (List UInt8)) : ManagedFile → Option (List UInt8)
  | .key => key.or (before .key)
  | .certificate => some certificate
  | .certificatePin => (marker.pinsFromPem certificate).map (·.certificate)
  | .spkiPin => (marker.pinsFromPem certificate).map (·.spki)
  | .marker => (marker.pinsFromPem certificate).bind marker.ownershipMarker

namespace Publication

variable {pub : Publication}

variable {marker : CertMarker} {cert : List UInt8} {key : Option (List UInt8)} {transaction : CertTransaction}

theorem publish_triple (outcomes : WriteOutcomes) (ha : pub.after = publishedFiles marker cert key pub.before)
    (hk : (key.or (pub.before .key)).isSome = true) :
    Triple (pub.At (pub.Publishing pub.before)) (publish marker cert key outcomes)
      (fun _ dir => pub.Publishing pub.after (.of pub.id dir) ∧ ∀ file, (pub.after file).isSome = true)
      (fun _ => pub.At pub.Begun) pub.Recoverable := by
  -- the key is written, or stays
  have hwriteKey : Triple (pub.At (pub.Publishing pub.before)) (writeKey key outcomes)
      (fun _ dir => pub.Publishing (Function.update pub.before .key (key.or (pub.before .key))) (.of pub.id dir))
      (fun _ => pub.At pub.Begun) pub.Recoverable := by
    cases key with
    | none =>
      rw [Option.none_or, Function.update_eq_self]
      exact .pure fun _ h => h
    | some key => exact writeManaged_triple .key key _ _
  refine .bind _ hwriteKey fun _ => .bind _ (writeManaged_triple .certificate cert _ _) fun _ => ?_
  rw [writePins, writeMarker]
  cases hpins : marker.pinsFromPem cert with
  | none => exact .bind (fun _ _ => False) (.throw fun _ h => h.1) fun _ _ h => h.elim
  | some pins =>
    refine .bind _ (.bind _ (writeManaged_triple .certificatePin pins.certificate _ _) fun _ =>
      writeManaged_triple .spkiPin pins.spki _ _) fun _ => ?_
    rw [Option.bind_some]
    cases hmark : marker.ownershipMarker pins with
    | none => exact .throw fun _ h => h.1
    | some bytes =>
      refine (writeManaged_triple .marker bytes _ _).weaken ?_ fun _ _ h => h
      intro _ dir h
      refine ⟨⟨h.1, h.2.trans (funext fun file => ?_)⟩, fun file => ?_⟩
      · cases file <;> simp [ha, publishedFiles, hpins, hmark]
      · rw [ha]
        cases file <;> simp [publishedFiles, hpins, hmark, hk]

/-! ### Committing -/

theorem commit_triple (hid : transaction.id = pub.id)
    (outcomes : WriteOutcomes) (hcomp : ∀ file, (pub.after file).isSome = true) :
    Triple (pub.At (pub.Publishing pub.after))
      (transaction.commit outcomes) (fun _ => pub.Recoverable) (fun _ => pub.Recoverable)
      pub.Recoverable := by
  have hcomm : ∀ view, pub.Publishing pub.after view →
      pub.Committed (view.set .journal (some pub.committedJournal)) := fun view h => ⟨rfl, h.2, hcomp⟩
  rw [commit, hid]
  refine .bindKnown (a := fun _ => true) (fun dir h => funext fun file => ?_) ?_
  · have hpres : ((of pub.id dir).managed file).isSome = true := h.2 ▸ hcomp file
    exact hpres
  refine .bind (fun _ => pub.At pub.Committed) ?_ fun _ => ?_
  · refine (writePrivate_triple pub.id .journal pub.committedJournal outcomes.committed
      fun dir h => h.1.recoverable).weaken ?_ ?_
    · rintro _ dir ⟨view, h, hv⟩
      rw [At, hv]
      exact hcomm view h
    · rintro _ dir ⟨view, h, hv | hv⟩
      · exact Begun.recoverable (hv ▸ h.1)
      · exact Committed.recoverable (hv ▸ hcomm view h)
  refine .bind _ (.each (I := fun _ => pub.At pub.Committed) ?_) fun _ => ?_
  · intro file rest _
    refine .atomic (fun dir h => h.recoverable) fun dir h => ?_
    exact h
  · refine (clearJournal_triple (P := pub.Committed) (fun dir h => h.recoverable)
      (fun view h => h.1 ▸ rfl) fun view h => .inr h.2).weaken ?_ fun _ _ h => h.elim
    exact fun _ dir h => .inl h

/-! ### Rolling back -/

theorem rollBack_triple (hnm : pub.Names transaction) :
    pub.Sure (pub.At pub.Begun) transaction.rollBack pub.Recoverable := by
  obtain ⟨hid, hnd, hback⟩ := hnm
  let created := managedFiles.filter fun file => file ∉ transaction.backups
  rw [rollBack, hid]
  refine .bind (fun _ => pub.Undone created) ?_ fun _ => .bind (fun _ => pub.Undone []) ?_ fun _ => ?_
  · refine ((Triple.each (I := fun rest dir => pub.Undone (rest ++ created) dir ∧
      pub.Kept rest dir) fun file rest hsuff => ?_).from ?_).weaken ?_ fun _ _ h => h
    · have hf : file ∉ rest := (nodup_cons.mp (hnd.sublist hsuff.sublist)).1
      have hs : (pub.before file).isSome = true := (hback file).mp (hsuff.subset mem_cons_self)
      refine .bind _ (clearManaged_triple pub file (rest ++ created) rest) fun _ => ?_
      exact .ignore (renameBackup_triple hf hs).sure
    · intro dir h
      refine ⟨⟨h.prepared, fun file hf => absurd ?_ hf⟩, fun file _ => congrFun h.2 file⟩
      by_cases hmem : file ∈ transaction.backups
      · exact mem_append_left _ hmem
      · exact mem_append_right _ (mem_filter.mpr ⟨file.mem_managedFiles, decide_eq_true hmem⟩)
    · exact fun _ dir h => h.1
  · refine Triple.each (I := fun rest => pub.Undone (rest.filter fun file => file ∉ transaction.backups))
      fun file rest _ => ?_
    by_cases hmem : file ∈ transaction.backups
    · rw [if_pos hmem, filter_cons_of_neg (by simpa using hmem)]
      exact .pure fun _ h => h
    · have hp : pub.before file = none := Option.not_isSome_iff_eq_none.mp fun hs => hmem ((hback file).mpr hs)
      rw [if_neg hmem, filter_cons_of_pos (by simpa using hmem)]
      refine (removeManaged_triple _ hp).from fun dir h => ⟨h, ?_⟩
      rcases h.1.2 file with hsame | ⟨hn, -⟩
      · exact hsame.trans hp
      · exact hn
  · refine .atomic (fun dir h => h.1.recoverable) fun dir h => .inl ?_
    exact ⟨rfl, .inl (funext fun file => h.2 file not_mem_nil)⟩

/-- **Publication.** Whatever its writes do and wherever it stops, recovery can settle what it leaves. -/
theorem publishInTransaction_triple
    (outcomes : WriteOutcomes) (ha : pub.after = publishedFiles marker cert key pub.before)
    (hk : (key.or (pub.before .key)).isSome = true) : Triple (pub.At (pub.BackingUp managedFiles))
      (publishInTransaction marker pub.id cert key outcomes)
      (fun _ => pub.Recoverable) (fun _ => pub.Recoverable) pub.Recoverable := by
  refine .bind _ (begin_triple outcomes) fun transaction => .given fun hnm => ?_
  refine .bind _ (Triple.attempt (publish_triple outcomes ha hk)) fun result => ?_
  cases result with
  | ok => exact .given fun hcomp => commit_triple hnm.1 outcomes hcomp
  | error =>
    exact .bind _ (rollBack_triple hnm).sure fun _ => .throw fun _ h => h

end Publication

theorem isWhiteSpace_of_isDigit (h : c.isDigit = true) : isWhiteSpace c = false := by
  have hrng : 48 ≤ c.toNat ∧ c.toNat ≤ 57 := by
    rw [Char.isDigit, Bool.and_eq_true, decide_eq_true_eq, decide_eq_true_eq] at h
    exact ⟨UInt32.le_iff_toNat_le.mp h.1, UInt32.le_iff_toNat_le.mp h.2⟩
  rw [Bool.eq_false_iff]
  simp only [isWhiteSpace, ne_eq, Bool.or_eq_true, Bool.and_eq_true, decide_eq_true_eq, beq_iff_eq]
  omega

theorem wellFormedId_identifier (process nowEpochSecs : Nat) :
    TransactionJournal.WellFormedId (identifier process nowEpochSecs) := by
  have hdigi : ∀ number : Nat, ∀ c ∈ number.repr.toList, isWhiteSpace c = false := by
    intro number c hc
    rw [Nat.toList_repr] at hc
    have hdigit : c.isDigit = true := Nat.isDigit_of_mem_toDigits (by decide) (by decide) hc
    exact isWhiteSpace_of_isDigit hdigit
  rw [TransactionJournal.WellFormedId, identifier, String.toList_append, String.toList_append]
  refine ⟨by simp, fun c hc => ?_⟩
  rcases mem_append.mp hc with hc | hc
  · rcases mem_append.mp hc with hc | hc
    · exact hdigi process c hc
    · rw [mem_singleton.mp hc]
      rfl
  · exact hdigi nowEpochSecs c hc

/-- **Certificate publication is crash-atomic.** Take any directory without a journal and without backups of the
transaction, any material whose key is written or exists, and any outcome of the writes. Wherever the publication
stops, and however many recoveries are then stopped, the first recovery that completes succeeds; it leaves no journal
and the managed files all as before or all as published, and another one changes nothing. -/
theorem certificate_publication_crash_atomic (marker : CertMarker) (process nowEpochSecs : Nat)
    (certificate : List UInt8) (key : Option (List UInt8)) (outcomes : WriteOutcomes) (directory : CertDirectory)
    (hjournal : directory (.target .journal) = none)
    (hfresh : ∀ file, directory (.backup (identifier process nowEpochSecs) file) = none)
    (hkey : key.isSome = true ∨ directory.isFile (.target (.managed .key)) = true) :
    let publication := publishInTransaction marker (identifier process nowEpochSecs) certificate key outcomes
    let before := fun file => directory (.target (.managed file))
    ∀ stopped ∈ publication.stops directory, ∀ found, AfterStops recoverInterrupted stopped found →
      let recovered := (recoverInterrupted found).2.2
      (∃ transaction, (recoverInterrupted found).2.1 = .ok transaction) ∧ recovered (.target .journal) = none ∧
        ((∀ file, recovered (.target (.managed file)) = before file) ∨
          ∀ file, recovered (.target (.managed file)) = publishedFiles marker certificate key before file ∧
            recovered.isFile (.target (.managed file)) = true) ∧
        recoverInterrupted recovered = ([], .ok none, recovered) := by
  intro publication before stopped hstopp found hfnd recovered
  let subject : Publication :=
    ⟨_, before, publishedFiles marker certificate key before, wellFormedId_identifier process nowEpochSecs⟩
  have hidle : subject.BackingUp managedFiles (.of subject.id directory) :=
    ⟨hjournal, rfl, fun file _ => hfresh file, fun file hf => absurd file.mem_managedFiles hf⟩
  have hmate : (key.or (subject.before .key)).isSome = true := by
    rw [Option.isSome_or, Bool.or_eq_true]
    exact hkey
  have hleft : subject.Recoverable stopped :=
    (Publication.publishInTransaction_triple outcomes rfl hmate).stops hidle hstopp
  have hreco := subject.recoverInterrupted_triple
  have hrecov : subject.Recoverable found :=
    hfnd.preserves (hreco.weaken (fun _ _ h => .inl h) fun _ _ h => h.elim) hleft
  have hr := (hreco found hrecov).2
  cases hval : (recoverInterrupted found).2.1 with
  | error =>
    rw [hval] at hr
    exact hr.elim
  | ok transaction =>
    rw [hval] at hr
    refine ⟨⟨transaction, rfl⟩, hr.1, ?_, Publication.recoverInterrupted_settled hr.1⟩
    rcases hr.2 with hp | ⟨ha, hcomp⟩
    · exact .inl fun file => congrFun hp file
    · refine .inr fun file => ⟨congrFun ha file, ?_⟩
      have hf : recovered (.target (.managed file)) = subject.after file := congrFun ha file
      rw [CertDirectory.isFile, hf]
      exact hcomp file

theorem new_host_publication_crash_atomic :
    let marker : CertMarker := ⟨fun cert => some ⟨cert, cert⟩, fun _ => some [1]⟩
    let publication := publishInTransaction marker (identifier 42 1800000000) [2] (some [3])
      ⟨fun _ => .published, .published, .published⟩
    ∀ stopped ∈ publication.stops fun _ => none, (recoverInterrupted stopped).2.2 (.target .journal) = none :=
  fun stopped hstopp =>
    (certificate_publication_crash_atomic _ 42 1800000000 [2] (some [3]) _ (fun _ => none) rfl (fun _ => rfl)
      (.inl rfl) stopped hstopp stopped (.none stopped)).2.1

end Arcen
