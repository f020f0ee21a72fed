import Deltix.Concurrency.Tasks
import Deltix.Versioning.MergeService

/-
  The system of the services that work on the directory of a
  repository.

  Branches and merges run inside the mutex they share.  The
  imports and the recorded pushes do not.

  Key definitions include:
    * `VersioningCall`
    * `versioningSystem`
-/

namespace Versioning

open Concurrency

inductive VersioningCall where
  | importCommits
      (repoId : String)
      (commits : List ImportedCommit)
      (base : Option String)
      (branch : String)
  | recordPush (params : PushCommitParams)
  | createBranch (repoId branchName : String)
  | checkoutBranch (repoId branchName : String)
  | deleteBranch (repoId branchName : String)
  | merge
      (repoId sourceBranch : String)
      (targetBranch : Option String)

inductive VersioningReturn where
  | imported (result : CommitImportResult)
  | recorded (hash : Option String)
  | branch (currentBranch : String)
  | deleted
  | merged (result : MergeResult)
  deriving DecidableEq, Repr

def serveCall (i : Nat) :
    VersioningCall → VersioningProgram VersioningReturn
  | .importCommits repoId commits base branch => do
      let result ← importCommits repoId commits base branch
      return .imported result
  | .recordPush params => do
      let hash ← recordPush params
      return .recorded hash
  | .createBranch repoId branchName => do
      let currentBranch ← createBranch i repoId branchName
      return .branch currentBranch
  | .checkoutBranch repoId branchName => do
      let currentBranch ← checkoutBranch i repoId branchName
      return .branch currentBranch
  | .deleteBranch repoId branchName => do
      deleteBranch i repoId branchName
      return .deleted
  | .merge repoId sourceBranch targetBranch => do
      let result ← merge i repoId sourceBranch targetBranch
      return .merged result

def versioningSystem (config : VersioningConfig) :
    System VersioningOp VersioningOp.Answer VersioningState
      VersioningChoice VersioningCall VersioningError
      VersioningReturn where
  serve := serveCall
  exec := VersioningOp.exec config

abbrev VersioningEvent :=
  Event VersioningOp VersioningOp.Answer VersioningState
    VersioningCall VersioningError VersioningReturn

abbrev VersioningWorld :=
  World VersioningOp VersioningOp.Answer VersioningState
    VersioningCall VersioningError VersioningReturn

abbrev VersioningPool :=
  Pool VersioningOp VersioningOp.Answer VersioningState
    VersioningCall VersioningError VersioningReturn

end Versioning
