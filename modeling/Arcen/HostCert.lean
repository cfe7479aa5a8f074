import Arcen.CertTransaction
import Arcen.CrashLogic
import Arcen.Utf8

/-! Certificate material on macOS (`hosts/macos/src/host_cert.rs`): publication inside a journalled transaction, and the
recovery of one that was interrupted. Creating, renaming and removing a file are atomic steps on the directory. What a
certificate's pin files and its ownership marker hold is a parameter. -/

namespace Arcen

open Steps

/-- What `write_private` publishes. -/
inductive CertTarget where
  | managed (file : ManagedFile)
  | journal
  deriving DecidableEq

inductive CertPath where
  | target (target : CertTarget)
  | staging (target : CertTarget)
  | backup (transaction : String) (file : ManagedFile)
  deriving DecidableEq

/-- The regular files of the directory. -/
abbrev CertDirectory := CertPath → Option (List UInt8)

namespace CertDirectory

def isFile (directory : CertDirectory) (path : CertPath) : Bool := (directory path).isSome

variable (path : CertPath)

def create (bytes : List UInt8) (directory : CertDirectory) : CertDirectory :=
  Function.update directory path (some bytes)

def remove (directory : CertDirectory) : CertDirectory := Function.update directory path none

/-- Copying leaves nothing where there is nothing to copy. -/
def copy (source path : CertPath) (directory : CertDirectory) : CertDirectory :=
  Function.update directory path (directory source)

def rename (source path : CertPath) (directory : CertDirectory) : Option CertDirectory :=
  (directory source).map fun bytes => Function.update (Function.update directory path (some bytes)) source none

def removeExisting (directory : CertDirectory) : Option CertDirectory :=
  if directory.isFile path then some (directory.remove path) else none

end CertDirectory

open CertDirectory

inductive CertError where
  | write (target : CertTarget)
  | readJournal
  | unreadableJournal (error : JournalError)
  | journalDecision (name : String) (error : JournalError)
  | cannotRestore (name : String)
  | restore (name : String)
  | clearJournal
  | generation

/-- How a write ends: at one of its steps with an error, or published. -/
inductive WriteOutcome where
  | notCreated
  | notFilled (part : List UInt8)
  | notRenamed
  | notChangedMode
  | published

abbrev CertSteps := Steps CertDirectory CertError

/-- Writes through a staging file; the rename makes the bytes visible under their name. -/
def writePrivate (target : CertTarget) (bytes : List UInt8) : WriteOutcome → CertSteps Unit
  | .notCreated => throw (.write target)
  | .notFilled part => do
      atomic (create (.staging target) part)
      throw (.write target)
  | .notRenamed => do
      atomic (create (.staging target) bytes)
      throw (.write target)
  | .notChangedMode => do
      atomic (create (.staging target) bytes)
      tryAtomic (rename (.staging target) (.target target)) (.write target)
      throw (.write target)
  | .published => do
      atomic (create (.staging target) bytes)
      tryAtomic (rename (.staging target) (.target target)) (.write target)

/-! ### The transaction -/

/-- The contents of the two pin files. -/
structure CertificatePins where
  certificate : List UInt8
  spki : List UInt8

/-- What the pin files and the marker of a certificate hold, where it can be pinned and marked. -/
structure CertMarker where
  pinsFromPem : List UInt8 → Option CertificatePins
  ownershipMarker : CertificatePins → Option (List UInt8)

structure WriteOutcomes where
  file : ManagedFile → WriteOutcome
  prepared : WriteOutcome
  committed : WriteOutcome

structure CertTransaction where
  id : String
  backups : List ManagedFile

namespace CertTransaction

def identifier (process nowEpochSecs : Nat) : String := process.repr ++ "-" ++ nowEpochSecs.repr

/-- Copies aside what is present; with the files copied. -/
def backUp (id : String) : List ManagedFile → CertSteps (List ManagedFile)
  | [] => pure []
  | file :: rest => do
      let present ← read fun directory => directory.isFile (.target (.managed file))
      if present then
        atomic (copy (.target (.managed file)) (.backup id file))
        let later ← backUp id rest
        pure (file :: later)
      else backUp id rest

def journalBytes (id : String) (phase : TransactionPhase) (existed : ManagedFile → Bool) : List UInt8 :=
  strBytes (TransactionJournal.mk id phase existed).render

/-- Records the current state and takes backups. -/
def begin (id : String) (outcomes : WriteOutcomes) : CertSteps CertTransaction := do
  let backups ← backUp id managedFiles
  writePrivate .journal (journalBytes id .prepared fun file => file ∈ backups) outcomes.prepared
  pure ⟨id, backups⟩

variable (transaction : CertTransaction)

/-- Marks the publication complete and removes the working files. -/
def commit (outcomes : WriteOutcomes) : CertSteps Unit := do
  let existed ← read fun directory file => directory.isFile (.target (.managed file))
  writePrivate .journal (journalBytes transaction.id .committed existed) outcomes.committed
  each transaction.backups fun file => atomic (remove (.backup transaction.id file))
  tryAtomic (removeExisting (.target .journal)) .clearJournal

/-- Puts the directory back after a failure part-way through publishing. -/
def rollBack : CertSteps Unit := do
  each transaction.backups fun file => do
    atomic (remove (.target (.managed file)))
    ignore (tryAtomic (rename (.backup transaction.id file) (.target (.managed file))) (.restore file.name))
  each managedFiles fun file =>
    if file ∈ transaction.backups then pure () else atomic (remove (.target (.managed file)))
  atomic (remove (.target .journal))

end CertTransaction

def writePins (marker : CertMarker) (certificate : List UInt8) (outcomes : WriteOutcomes) : CertSteps Unit :=
  match marker.pinsFromPem certificate with
  | none => throw .generation
  | some pins => do
      writePrivate (.managed .certificatePin) pins.certificate (outcomes.file .certificatePin)
      writePrivate (.managed .spkiPin) pins.spki (outcomes.file .spkiPin)

def writeMarker (marker : CertMarker) (certificate : List UInt8) (outcomes : WriteOutcomes) : CertSteps Unit :=
  match (marker.pinsFromPem certificate).bind marker.ownershipMarker with
  | none => throw .generation
  | some bytes => writePrivate (.managed .marker) bytes (outcomes.file .marker)

def writeKey (key : Option (List UInt8)) (outcomes : WriteOutcomes) : CertSteps Unit :=
  match key with
  | none => pure ()
  | some key => writePrivate (.managed .key) key (outcomes.file .key)

/-- Writes the material: the key if there is a new one, the certificate, its pins and its marker. -/
def publish (marker : CertMarker) (certificate : List UInt8) (key : Option (List UInt8)) (outcomes : WriteOutcomes) :
    CertSteps Unit := do
  writeKey key outcomes
  writePrivate (.managed .certificate) certificate (outcomes.file .certificate)
  writePins marker certificate outcomes
  writeMarker marker certificate outcomes

/-- Publishes material inside a journalled transaction. -/
def publishInTransaction (marker : CertMarker) (id : String) (certificate : List UInt8) (key : Option (List UInt8))
    (outcomes : WriteOutcomes) : CertSteps Unit := do
  let transaction ← CertTransaction.begin id outcomes
  match ← attempt (publish marker certificate key outcomes) with
  | .ok () => transaction.commit outcomes
  | .error error => do
      transaction.rollBack
      throw error

/-! ### Recovery -/

/-- Carries out the decision for one file; `present` says whether the file is there. -/
def carryOut (id : String) (file : ManagedFile) (present : Bool) : FileRecovery → CertSteps Unit
  | .requirePublished | .requireUntouched => if present then pure () else throw (.cannotRestore file.name)
  | .restoreBackup => do
      atomic (remove (.target (.managed file)))
      tryAtomic (rename (.backup id file) (.target (.managed file))) (.restore file.name)
  | .removeFile => atomic (remove (.target (.managed file)))

/-- Completes or undoes the publication of one file. -/
def recoverManaged (journal : TransactionJournal) (file : ManagedFile) : CertSteps Unit := do
  let now ← read fun directory =>
    FileBefore.mk (directory.isFile (.target (.managed file))) (directory.isFile (.backup journal.transactionId file))
  let decision ← ofExcept ((journal.recoverFile file.name now).mapError (.journalDecision file.name))
  carryOut journal.transactionId file now.existed decision
  atomic (remove (.backup journal.transactionId file))

/-- Completes or undoes a publication that was interrupted; with its transaction. -/
def recoverInterrupted : CertSteps (Option String) := do
  match ← read fun directory => directory (.target .journal) with
  | none => pure none
  | some bytes => do
      let text ← ofExcept (orError .readJournal (strFromUtf8 bytes))
      let journal ← ofExcept ((TransactionJournal.parse text).mapError .unreadableJournal)
      each managedFiles (recoverManaged journal)
      each managedFiles fun file => atomic (remove (.staging (.managed file)))
      tryAtomic (removeExisting (.target .journal)) .clearJournal
      pure (some journal.transactionId)

end Arcen
