import Deltix.Transfer.TransferOps
import Mathlib.Algebra.Group.Nat.Defs

/-
  The sync worker: a staged job is claimed, its file copied
  to the NAS under a temporary name, hashed and renamed into
  place, and then the job marked.

  Key definitions include:
    * `copyToNas`
    * `claimNextEligible`
    * `processNext`
-/

namespace Storage

open Auth Concurrency Transfer

variable (config : TransferConfig)

def finalPath (destDir : String) : String :=
  join [destDir, "repo.dolt"]

def tmpPath (destDir uuid : String) : String :=
  join [destDir, ".tmp-" ++ uuid]

/- Copy under the temporary name, hash, rename. -/
def copyThenRename
    (stagingPath tmp final : String) :
    TransferProgram String := do
  files (.copyFile stagingPath tmp)
  let checksum ← files (.sha256File tmp)
  files (.mkdir (dirname final))
  files (.rename tmp final)
  return checksum

/- Remove the temporary file and throw on. -/
def cleanUp
    (tmp : String)
    (error : TransferError) : TransferProgram String := do
  tryCatch (files (.unlink tmp)) fun _ => return ()
  throw error

def copyToNas (stagingPath repo : String) :
    TransferProgram String := do
  let destDir := join [config.nasRootPath, repo]
  files (.mkdir destDir)
  let uuid ← perform .randomText
  let tmp := tmpPath destDir uuid
  tryCatch (copyThenRename stagingPath tmp (finalPath destDir))
    (cleanUp tmp)

def computeBackoffMs (retryCount baseMs maxMs : Nat) : Nat :=
  min (baseMs * 2 ^ retryCount) maxMs

/- Claim the first candidate that can still be claimed. -/
def claimFirst
    (now : Nat) :
    List String → TransferProgram (Option (Option TransferJob))
  | [] => return none
  | jobId :: rest => do
      let claimed ← jobs (.claim jobId now)
      if claimed then
        let job ← jobs (.get jobId)
        return some job
      else claimFirst now rest

def claimNextEligible
    (now : Nat) :
    Nat → TransferProgram (Option TransferJob)
  | 0 => return none
  | attempts + 1 => do
      let candidates ← jobs (.candidates now)
      if candidates.isEmpty then return none
      else
        let claimed ← claimFirst now candidates
        match claimed with
        | some job => return job
        | none => claimNextEligible now attempts

/- Sync a claimed job. -/
def syncJob (job : TransferJob) : TransferProgram Unit := do
  let checksum ← copyToNas config job.stagingPath job.repo
  Async.ensure (checksum = job.checksum) .checksumMismatch
  let _ ← jobs (.markSynced job.id)
  return ()

/- Record that a sync has failed. -/
def recordFailure
    (job : TransferJob)
    (error : TransferError) : TransferProgram Unit := do
  let backoffMs :=
    computeBackoffMs job.retryCount config.backoffBaseMs
      config.backoffMaxMs
  let current ← now
  let _ ←
    jobs
      (.markFailed job.id error.message
        (current + backoffMs))
  return ()

def processNext : TransferProgram Bool := do
  let current ← now
  let job ← claimNextEligible current 5
  match job with
  | none => return false
  | some job => do
      tryCatch (syncJob config job)
        (recordFailure config job)
      return true

/- An operator puts a dead letter back into the pipeline. -/
def retryDeadLetter (jobId : String) :
    TransferProgram Bool :=
  jobs (.requeueDeadLetter jobId)

def listDeadLetter : TransferProgram (List TransferJob) :=
  jobs .listDeadLetter

end Storage
