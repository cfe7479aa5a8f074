import Arcen.HostCert

/-! Publication is crash-atomic. Of the directory only the journal, the managed files and the backups of the running
transaction matter; what a stop leaves of them is settled, can be undone from the backups, or is committed. -/

namespace Arcen

open Steps CertDirectory List

/-- What recovery of one transaction looks at. -/
@[ext] structure CertView where
  journal : Option (List UInt8)
  managed : ManagedFile → Option (List UInt8)
  backup : ManagedFile → Option (List UInt8)

namespace CertView

def of (id : String) (directory : CertDirectory) : CertView where
  journal := directory (.target .journal)
  managed file := directory (.target (.managed file))
  backup file := directory (.backup id file)

def set (view : CertView) (target : CertTarget) (bytes : Option (List UInt8)) : CertView :=
  match target with
  | .managed file => { view with managed := Function.update view.managed file bytes }
  | .journal => { view with journal := bytes }

def dropBackup (view : CertView) (file : ManagedFile) : CertView :=
  { view with backup := Function.update view.backup file none }

section

variable (view : CertView)

variable (file : ManagedFile)

variable (bytes : Option (List UInt8))

@[simp] theorem set_managed_self : (view.set (.managed file) bytes).managed file = bytes := by
  simp [set]

theorem set_managed_of_ne {file other : ManagedFile} (bytes : Option (List UInt8))
    (h : other ≠ file) : (view.set (.managed file) bytes).managed other = view.managed other := by
  simp [set, h]

@[simp] theorem dropBackup_managed : (view.dropBackup file).managed = view.managed := rfl

@[simp] theorem dropBackup_self : (view.dropBackup file).backup file = none := by
  simp [dropBackup]

theorem dropBackup_of_ne {file other : ManagedFile} (h : other ≠ file) :
    (view.dropBackup file).backup other = view.backup other := by
  simp [dropBackup, h]

end

variable {id : String} {dir : CertDirectory}

theorem of_update_staging (target : CertTarget) (bytes : Option (List UInt8)) :
    of id (Function.update dir (.staging target) bytes) = of id dir := by
  ext <;> simp [of]

theorem of_update_target (target : CertTarget) (bytes : Option (List UInt8)) :
    of id (Function.update dir (.target target) bytes) = (of id dir).set target bytes := by
  cases target with
  | journal => ext <;> simp [of, set]
  | managed file =>
    rw [of, of, set, CertView.mk.injEq]
    exact ⟨by simp, Function.update_comp_eq_of_injective dir (fun _ _ h => by simpa using h) file bytes, by simp⟩

theorem of_update_backup (file : ManagedFile) (bytes : Option (List UInt8)) :
    of id (Function.update dir (.backup id file) bytes) =
      { of id dir with backup := Function.update (of id dir).backup file bytes } := by
  rw [of, of, CertView.mk.injEq]
  exact ⟨by simp, by simp, Function.update_comp_eq_of_injective dir (fun _ _ h => by simpa using h) file bytes⟩

variable (target : CertTarget)

@[simp] theorem of_remove_target : of id (dir.remove (.target target)) = (of id dir).set target none :=
  of_update_target target _

@[simp] theorem of_remove_backup (file : ManagedFile) :
    of id (dir.remove (.backup id file)) = (of id dir).dropBackup file := of_update_backup file _

theorem of_copy_backup (file : ManagedFile) : of id (dir.copy (.target (.managed file)) (.backup id file)) =
      { of id dir with
        backup := Function.update (of id dir).backup file ((of id dir).managed file) } := of_update_backup file _

theorem of_rename_staging {target : CertTarget} {next : CertDirectory} {bytes : List UInt8}
    (hstag : dir (.staging target) = some bytes)
    (h : dir.rename (.staging target) (.target target) = some next) :
    of id next = (of id dir).set target (some bytes) := by
  rw [rename, hstag, Option.map_some, Option.some_inj] at h
  rw [← h, of_update_staging, of_update_target]

theorem of_rename_backup {file : ManagedFile} {next : CertDirectory}
    (h : dir.rename (.backup id file) (.target (.managed file)) = some next) :
    of id next = ((of id dir).set (.managed file) ((of id dir).backup file)).dropBackup file := by
  rw [rename, Option.map_eq_some_iff] at h
  obtain ⟨bytes, hby, hnext⟩ := h
  have hb : (of id dir).backup file = some bytes := hby
  rw [← hnext, of_update_backup, of_update_target, hb]
  rfl

end CertView

open CertView

/-! ### What a stop leaves -/

/-- One publication: its identifier, and the managed files before it and as it publishes them. -/
structure Publication where
  id : String
  before : ManagedFile → Option (List UInt8)
  after : ManagedFile → Option (List UInt8)
  wellFormed : TransactionJournal.WellFormedId id

namespace Publication

variable (publication : Publication)

def preparedJournal : List UInt8 :=
  CertTransaction.journalBytes publication.id .prepared fun file => (publication.before file).isSome

def committedJournal : List UInt8 := CertTransaction.journalBytes publication.id .committed fun _ => true

/-- The managed files are all as before, or all as published. -/
def AllOrNothing (managed : ManagedFile → Option (List UInt8)) : Prop :=
  managed = publication.before ∨ managed = publication.after ∧ ∀ file, (publication.after file).isSome = true

/-- No journal is left, and the publication happened or did not. -/
def Settled (view : CertView) : Prop := view.journal = none ∧ publication.AllOrNothing view.managed

/-- The file can be put back: its backup is there, or it was put back already. -/
def Undoable (file : ManagedFile) (view : CertView) : Prop :=
  view.backup file = publication.before file ∨ view.backup file = none ∧ view.managed file = publication.before file

/-- Every file can be put back, and the journal says so. -/
def Prepared (view : CertView) : Prop :=
  view.journal = some publication.preparedJournal ∧ ∀ file, publication.Undoable file view

def Committed (view : CertView) : Prop :=
  view.journal = some publication.committedJournal ∧ view.managed = publication.after ∧
    ∀ file, (publication.after file).isSome = true

def Recoverable (directory : CertDirectory) : Prop :=
  publication.Settled (.of publication.id directory) ∨ publication.Prepared (.of publication.id directory) ∨
    publication.Committed (.of publication.id directory)

variable {pub : Publication}

variable {dir : CertDirectory} {rest : List ManagedFile} {file : ManagedFile} {P : CertView → Prop}

theorem Prepared.recoverable (h : pub.Prepared (.of pub.id directory)) : pub.Recoverable directory := .inr (.inl h)

theorem Committed.recoverable (h : pub.Committed (.of pub.id directory)) : pub.Recoverable directory := .inr (.inr h)

section Changes

variable {view : CertView} {file : ManagedFile}

theorem Prepared.set_managed (h : pub.Prepared view) (hb : view.backup file = pub.before file)
    (bytes : Option (List UInt8)) : pub.Prepared (view.set (.managed file) bytes) := by
  refine ⟨h.1, fun other => ?_⟩
  by_cases ho : other = file
  · exact .inl (ho ▸ hb)
  · rw [Undoable, set_managed_of_ne view bytes ho]
    exact h.2 other

/-- Once a file is as before, its backup is no longer needed. -/
theorem Prepared.dropBackup (h : pub.Prepared view) (hm : view.managed file = pub.before file) :
    pub.Prepared (view.dropBackup file) := by
  refine ⟨h.1, fun other => ?_⟩
  by_cases ho : other = file
  · subst ho
    exact .inr ⟨dropBackup_self view other, hm⟩
  · rw [Undoable, dropBackup_of_ne view ho]
    exact h.2 other

end Changes

/-! ### Recovery -/

/-- The files not still to come are as before. -/
def Undone (publication : Publication) (rest : List ManagedFile) (directory : CertDirectory) : Prop :=
  publication.Prepared (.of publication.id directory) ∧
    ∀ file ∉ rest, (of publication.id directory).managed file = publication.before file

/-- Said of the directory as recovery sees it. -/
abbrev At (pub : Publication) (P : CertView → Prop) (dir : CertDirectory) : Prop := P (.of pub.id dir)

/-- Code that never fails, and that leaves something to recover from wherever it stops. -/
abbrev Sure {α : Type} (pub : Publication) (before : CertDirectory → Prop) (code : CertSteps α)
    (after : CertDirectory → Prop) : Prop := Triple before code (fun _ => after) (fun _ _ => False) pub.Recoverable

theorem undone_of_cons (file : ManagedFile) {view : CertView}
    (h : ∀ other ∉ file :: rest, view.managed other = pub.before other)
    (hf : view.managed file = pub.before file) : ∀ other ∉ rest, view.managed other = pub.before other := by
  intro other ho
  by_cases heq : other = file
  · exact heq ▸ hf
  · exact h other (by simp [heq, ho])

theorem Undone.dropBackup (hf : file ∉ rest) :
    pub.Sure (pub.Undone rest) (atomic (remove (.backup pub.id file)) : CertSteps Unit) (pub.Undone rest) := by
  refine .atomic (fun dir h => h.1.recoverable) fun dir h => ?_
  rw [Undone, of_remove_backup]
  exact ⟨h.1.dropBackup (h.2 file hf), h.2⟩

/-- The backup is there, or the file was put back. -/
theorem Prepared.backup_or {view : CertView} (h : pub.Prepared view) (file : ManagedFile) :
    (view.backup file).isSome = true ∧ view.backup file = pub.before file ∨
      view.backup file = none ∧ (pub.before file = none ∨ view.managed file = pub.before file) := by
  cases hb : view.backup file with
  | some =>
    refine .inl ⟨rfl, ?_⟩
    rcases h.2 file with hleft | ⟨hn, -⟩
    · exact hb ▸ hleft
    · rw [hb] at hn
      cases hn
  | none =>
    refine .inr ⟨rfl, ?_⟩
    rcases h.2 file with hleft | ⟨-, hm⟩
    · exact .inl (hleft.symm.trans hb)
    · exact .inr hm

def Kept (publication : Publication) (files : List ManagedFile) (directory : CertDirectory) : Prop :=
  ∀ file ∈ files, (of publication.id directory).backup file = publication.before file

/-- The first step of putting a file back from its backup. -/
theorem clearManaged_triple (pub : Publication) (file : ManagedFile) (rest kept : List ManagedFile) :
    pub.Sure (fun dir => pub.Undone (file :: rest) dir ∧ pub.Kept (file :: kept) dir)
      (atomic (remove (.target (.managed file))) : CertSteps Unit)
      (fun dir => pub.Undone (file :: rest) dir ∧ pub.Kept (file :: kept) dir) := by
  refine .atomic (fun dir h => h.1.1.recoverable) ?_
  rintro _ ⟨h, hk⟩
  rw [Undone, of_remove_target]
  refine ⟨⟨h.1.set_managed (hk file mem_cons_self) none, fun other ho => ?_⟩, hk⟩
  rw [set_managed_of_ne _ none (ne_of_not_mem_cons ho)]
  exact h.2 other ho

/-- The second step of putting a file back from its backup. -/
theorem renameBackup_triple (hf : file ∉ kept) (hp : (pub.before file).isSome = true) :
    pub.Sure (fun dir => pub.Undone (file :: rest) dir ∧ pub.Kept (file :: kept) dir)
      (tryAtomic (rename (.backup pub.id file) (.target (.managed file))) (CertError.restore file.name))
      (fun dir => pub.Undone rest dir ∧ pub.Kept kept dir) := by
  refine .tryAtomic (fun dir h => h.1.1.recoverable) ?_ ?_
  · rintro dir _ ⟨h, hk⟩ hrena
    have hb := hk file mem_cons_self
    have hset := h.1.set_managed hb (pub.before file)
    rw [Undone, Kept, of_rename_backup hrena, hb]
    refine ⟨⟨hset.dropBackup (set_managed_self _ _ _), undone_of_cons file ?_ (set_managed_self _ _ _)⟩, ?_⟩
    · intro other ho
      rw [dropBackup_managed, set_managed_of_ne _ _ (ne_of_not_mem_cons ho)]
      exact h.2 other ho
    · intro other ho
      have hne : other ≠ file := fun heq => hf (heq ▸ ho)
      rw [dropBackup_of_ne _ hne]
      exact hk other (mem_cons_of_mem _ ho)
  · rintro dir ⟨-, hk⟩ hrena
    rw [rename, Option.map_eq_none_iff] at hrena
    rw [← hk file mem_cons_self] at hp
    have hn : (of pub.id dir).backup file = none := hrena
    rw [hn] at hp
    cases hp

/-- Removing a file that did not exist before. -/
theorem removeManaged_triple (rest : List ManagedFile) (hp : pub.before file = none) : pub.Sure
      (fun dir => pub.Undone (file :: rest) dir ∧ (of pub.id dir).backup file = none)
      (atomic (remove (.target (.managed file))) : CertSteps Unit) (pub.Undone rest) := by
  refine .atomic (fun dir h => h.1.1.recoverable) ?_
  rintro _ ⟨h, hb⟩
  rw [Undone, of_remove_target]
  refine ⟨h.1.set_managed (hb.trans hp.symm) none, undone_of_cons file ?_ ?_⟩
  · intro other ho
    rw [set_managed_of_ne _ none (ne_of_not_mem_cons ho)]
    exact h.2 other ho
  · rw [set_managed_self, hp]

/-- Undoing one file of a prepared transaction. -/
theorem carryOut_prepared (file : ManagedFile) (rest : List ManagedFile) (now : FileBefore) : pub.Sure
      (fun dir => pub.Undone (file :: rest) dir ∧
        now = ⟨dir.isFile (.target (.managed file)), dir.isFile (.backup pub.id file)⟩)
      (carryOut pub.id file now.existed (if now.backupPresent then .restoreBackup
          else if (pub.before file).isSome then .requireUntouched
          else .removeFile)) (pub.Undone rest) := by
  cases hb : now.backupPresent with
  | true =>
    -- the precondition holds of no dir unless the file existed before
    intro dir hstart
    rw [hstart.2] at hb
    have hpres : ((of pub.id dir).backup file).isSome = true := hb
    have hs : (of pub.id dir).backup file = pub.before file := by
      rcases hstart.1.1.backup_or file with ⟨-, hs⟩ | ⟨hn, -⟩
      · exact hs
      · rw [hn] at hpres
        cases hpres
    have hrest := Triple.bind _ (clearManaged_triple pub file rest []) fun _ =>
      renameBackup_triple not_mem_nil (hs ▸ hpres)
    refine (hrest.weaken (fun _ _ h => h.1) fun _ _ h => h) dir ⟨hstart.1, ?_⟩
    intro other ho
    rw [mem_singleton.mp ho]
    exact hs
  | false =>
    have habse : ∀ dir : CertDirectory,
        now = ⟨dir.isFile (.target (.managed file)), dir.isFile (.backup pub.id file)⟩ →
        (of pub.id dir).backup file = none := by
      rintro dir rfl
      exact Option.not_isSome_iff_eq_none.mp (Bool.eq_false_iff.mp hb)
    cases hp : pub.before file with
    | none =>
      refine (removeManaged_triple rest hp).from ?_
      rintro dir ⟨h, hnow⟩
      exact ⟨h, habse dir hnow⟩
    | some bytes =>
      have hm : ∀ dir : CertDirectory, pub.Undone (file :: rest) dir ∧
          now = ⟨dir.isFile (.target (.managed file)), dir.isFile (.backup pub.id file)⟩ →
          (of pub.id dir).managed file = pub.before file := by
        rintro dir ⟨h, hnow⟩
        rcases h.1.backup_or file with ⟨hsome, -⟩ | ⟨-, hn | hs⟩
        · rw [habse dir hnow] at hsome
          cases hsome
        · rw [hp] at hn
          cases hn
        · exact hs
      cases hexis : now.existed with
      | true => exact .pure fun dir h => ⟨h.1.1, undone_of_cons file h.1.2 (hm dir h)⟩
      | false =>
        refine .throw ?_
        rintro dir ⟨h, rfl⟩
        have hsome : (of pub.id dir).managed file = some bytes := (hm dir ⟨h, rfl⟩).trans hp
        have hf : dir.isFile (.target (.managed file)) = true := by
          exact Option.isSome_iff_exists.mpr ⟨bytes, hsome⟩
        exact absurd hf (Bool.eq_false_iff.mp hexis)

theorem recoverManaged_prepared (hf : file ∉ rest) : pub.Sure (pub.Undone (file :: rest))
      (recoverManaged ⟨pub.id, .prepared, fun file => (pub.before file).isSome⟩ file) (pub.Undone rest) := by
  refine .bindRead fun now => ?_
  rw [TransactionJournal.recoverFile_name, Except.mapError, ofExcept_ok_bind]
  exact .bind _ (carryOut_prepared file rest now) fun _ => Undone.dropBackup hf

theorem recoverManaged_committed (file : ManagedFile) :
    pub.Sure (pub.At pub.Committed) (recoverManaged ⟨pub.id, .committed, fun _ => true⟩ file) (pub.At pub.Committed) := by
  refine .bindRead fun now => ?_
  rw [TransactionJournal.recoverFile_name, Except.mapError, ofExcept_ok_bind]
  refine .bind (fun _ => pub.At pub.Committed) ?_ fun _ => ?_
  · cases hexis : now.existed with
    | true => exact .pure fun dir h => h.1
    | false =>
      refine .throw ?_
      rintro dir ⟨h, rfl⟩
      have hf : ((of pub.id dir).managed file).isSome = true := h.2.1 ▸ h.2.2 file
      exact absurd hf (Bool.eq_false_iff.mp hexis)
  · refine .atomic (fun dir h => h.recoverable) fun dir h => ?_
    exact h

theorem nodup_managedFiles : managedFiles.Nodup := by decide

/-- Removing staging files changes nothing that recovery looks at. -/
theorem removeStaging_triple (hstop : ∀ dir, P (.of pub.id dir) → stop dir) :
    Triple (pub.At P)
      (each managedFiles fun file => (atomic (remove (.staging (.managed file))) : CertSteps Unit))
      (fun _ => pub.At P) (fun _ _ => False) stop := by
  refine .each (I := fun _ => pub.At P) fun file rest _ => ?_
  refine .atomic hstop fun dir h => ?_
  exact h

/-- Removing the journal settles the transaction. -/
theorem clearJournal_triple (hstop : ∀ dir, P (.of pub.id dir) → pub.Recoverable dir)
    (hjour : ∀ view, P view → view.journal.isSome = true)
    (hm : ∀ view, P view → pub.AllOrNothing view.managed) : pub.Sure (pub.At P)
      (tryAtomic (removeExisting (.target .journal)) .clearJournal : CertSteps Unit)
      (pub.At pub.Settled) := by
  have hpres : ∀ dir : CertDirectory, P (.of pub.id dir) →
      dir.isFile (.target .journal) = true := fun dir h => hjour _ h
  refine .tryAtomic hstop ?_ ?_
  · intro dir next h hr
    rw [removeExisting, if_pos (hpres dir h), Option.some_inj] at hr
    rw [← hr, At]
    exact ⟨rfl, hm (.of pub.id dir) h⟩
  · intro dir h hr
    rw [removeExisting, if_pos (hpres dir h)] at hr
    cases hr

theorem recoverInterrupted_settled (h : dir (.target .journal) = none) :
    recoverInterrupted dir = ([], .ok none, dir) := by
  rw [recoverInterrupted, read_bind, h]
  rfl

/-- A recovery that finds a journal of the publication. -/
theorem recoverInterrupted_journal {Q : CertView → Prop}
    (hjour : ∀ view, P view → view.journal = some (CertTransaction.journalBytes pub.id phase existed))
    (hfiles : pub.Sure (pub.At P) (each managedFiles (recoverManaged ⟨pub.id, phase, existed⟩)) (pub.At Q))
    (hstop : ∀ dir, Q (.of pub.id dir) → pub.Recoverable dir)
    (hpres : ∀ view, Q view → view.journal.isSome = true)
    (hm : ∀ view, Q view → pub.AllOrNothing view.managed) :
    pub.Sure (pub.At P) recoverInterrupted (pub.At pub.Settled) := by
  refine .bindKnown (fun dir h => hjour _ h) ?_
  dsimp only
  rw [CertTransaction.journalBytes, strFromUtf8_strBytes, orError, ofExcept_ok_bind,
    TransactionJournal.parse_render pub.wellFormed, Except.mapError, ofExcept_ok_bind]
  refine .bind _ hfiles fun _ => ?_
  refine .bind _ (removeStaging_triple hstop) fun _ => ?_
  refine .bind _ (clearJournal_triple hstop hpres hm) fun _ => ?_
  exact .pure fun _ h => h

theorem recoverInterrupted_prepared : pub.Sure (pub.At pub.Prepared) recoverInterrupted (pub.At pub.Settled) := by
  refine recoverInterrupted_journal (Q := fun view => pub.Prepared view ∧ view.managed = pub.before)
    (fun view h => h.1) ?_ (fun dir h => h.1.recoverable) (fun view h => h.1.1 ▸ rfl) fun view h => .inl h.2
  refine ((Triple.each (I := pub.Undone) fun file rest hsuff => ?_).from ?_).weaken ?_ fun _ _ h => h
  · exact recoverManaged_prepared (nodup_cons.mp (nodup_managedFiles.sublist hsuff.sublist)).1
  · exact fun dir h => ⟨h, fun file hf => absurd file.mem_managedFiles hf⟩
  · exact fun _ dir h => ⟨h.1, funext fun file => h.2 file not_mem_nil⟩

/-- **Recovery.** From everything a stop may leave it succeeds and settles the transaction, and whatever a stop of
its own leaves can be recovered from. -/
theorem recoverInterrupted_triple (pub : Publication) :
    pub.Sure pub.Recoverable recoverInterrupted (pub.At pub.Settled) := by
  intro dir h
  rcases h with hsett | hprep | hcomm
  · rw [recoverInterrupted_settled hsett.1]
    exact ⟨nofun, hsett⟩
  · exact recoverInterrupted_prepared dir hprep
  · refine recoverInterrupted_journal (Q := pub.Committed) (fun view h => h.1) ?_
      (fun dir h => h.recoverable) (fun view h => h.1 ▸ rfl) (fun view h => .inr h.2) dir hcomm
    exact .each (I := fun _ => pub.At pub.Committed) fun file _ _ => recoverManaged_committed file

end Publication
end Arcen
