import Deltix.Concurrency.Records
import Deltix.Text.Json

/-
  The key directory, and the calls that look for the signing
  keys in it or put them there.

  A file is opened, which empties it, before its text is
  written, and a call that is never resumed is one whose
  process has crashed.

  Key definitions include:
    * `Ed25519`
    * `KeyDirectory`
    * `KeyOp.exec`
    * `ensureCryptoKeypair`
    * `writerOf`
    * `writerRead`
    * `readsOneWriter`

  Key theorems include:
    * `keyInv_perform`
    * `ensureCryptoKeypair_safe`
    * `returned_pairs`
-/

namespace Bootstrap

open Text

/- The texts of a key pair, as they are generated. -/
structure KeyPems where
  privateKey : JsString
  publicKey : JsString
  deriving DecidableEq, Repr

/- The keys of the runtime: which texts are those of a pair,
   and what is generated from a seed. -/
structure Ed25519 where
  IsPair : JsString → JsString → Prop
  generate : Nat → KeyPems
  generates :
    ∀ seed,
      IsPair (generate seed).privateKey (generate seed).publicKey

inductive KeyFile where
  | privateKey
  | publicKey
  deriving DecidableEq, Repr

/- The text that belongs in a file. -/
def KeyPems.half (pems : KeyPems) : KeyFile → JsString
  | .privateKey => pems.privateKey
  | .publicKey => pems.publicKey

/- A directory whose files may be empty or cut short. -/
structure KeyDirectory where
  made : Bool
  files : KeyFile → Option JsString

/- Neither of the two files is there. -/
def KeyDirectory.fresh (made : Bool) : KeyDirectory where
  made := made
  files := fun _ => none

def KeyDirectory.put
    (directory : KeyDirectory)
    (file : KeyFile)
    (text : JsString) : KeyDirectory :=
  { directory with
    files := Function.update directory.files file (some text) }

@[simp] theorem KeyDirectory.files_put_self
    (directory : KeyDirectory)
    (file : KeyFile)
    (text : JsString) :
    (directory.put file text).files file = some text := by
  simp [put]

@[simp] theorem KeyDirectory.files_put_of_ne
    (directory : KeyDirectory)
    {file other : KeyFile}
    (text : JsString)
    (hOther : other ≠ file) :
    (directory.put file text).files other =
      directory.files other := by
  simp [put, hOther]

/- An error of the system, by its message. -/
structure Failure where
  message : JsString
  deriving DecidableEq, Repr

/- The other work of a start. -/
inductive StartUpStep where
  | directories
  | permissions
  | httpPort
  | grpcPort
  | database
  deriving DecidableEq, Repr

inductive KeyOp where
  | dirExists
  | makeDir
  | fileExists (file : KeyFile)
  | readFile (file : KeyFile)
  | generateKeyPair
  | openFile (file : KeyFile)
  | writeText (file : KeyFile) (text : JsString)
  | changeMode (file : KeyFile) (mode : Nat)
  | startUp (step : StartUpStep)
  deriving DecidableEq, Repr

abbrev KeyOp.Answer : KeyOp → Type
  | .dirExists => Bool
  | .fileExists _ => Bool
  | .readFile _ => Except Failure JsString
  | .generateKeyPair => Except Failure KeyPems
  | _ => Except Failure Unit

/- What is not up to the program: whether an operation fails,
   how much of a text is written by then, and the seed. -/
structure KeyChoice where
  failure : Option Failure
  kept : Nat
  seed : Nat
  deriving DecidableEq, Repr

def enoent : Failure where
  message := js "ENOENT: no such file or directory"

def KeyChoice.orElse
    (choice : KeyChoice)
    {α : Type}
    (value : α) : Except Failure α :=
  match choice.failure with
  | some failure => .error failure
  | none => .ok value

/- The keys are all of one length, so a text that is written
   over another one replaces it. -/
def KeyOp.exec
    (crypto : Ed25519)
    (op : KeyOp)
    (choice : KeyChoice)
    (directory : KeyDirectory) :
    Option (op.Answer × KeyDirectory) :=
  match op with
  | .dirExists =>
      some
        (choice.failure.isNone && directory.made, directory)
  | .makeDir =>
      match choice.failure with
      | some failure => some (.error failure, directory)
      | none => some (.ok (), { directory with made := true })
  | .fileExists file =>
      some
        (choice.failure.isNone && (directory.files file).isSome,
          directory)
  | .readFile file =>
      match directory.files file with
      | none => some (.error enoent, directory)
      | some text => some (choice.orElse text, directory)
  | .generateKeyPair =>
      some
        (choice.orElse (crypto.generate choice.seed), directory)
  | .openFile file =>
      match choice.failure, directory.made with
      | some failure, _ => some (.error failure, directory)
      | none, false => some (.error enoent, directory)
      | none, true => some (.ok (), directory.put file [])
  | .writeText file text =>
      match choice.failure with
      | some failure =>
          some
            (.error failure,
              directory.put file (text.take choice.kept))
      | none => some (.ok (), directory.put file text)
  | .changeMode _ _ => some (choice.orElse (), directory)
  | .startUp step =>
      match choice.failure, step with
      | some failure, _ => some (.error failure, directory)
      | none, .directories =>
          some (.ok (), { directory with made := true })
      | none, _ => some (.ok (), directory)

------------------------------------------------------------
-- The Call
------------------------------------------------------------

open Concurrency

structure DiagnosticReport where
  title : JsString
  diagnosis : JsString
  action : JsString
  code : JsString
  deriving DecidableEq, Repr

inductive StartError where
  | system (failure : Failure)
  | diagnostic (report : DiagnosticReport)
  deriving DecidableEq, Repr

/- The message of an error, a diagnostic one's title. -/
def StartError.message : StartError → JsString
  | .system failure => failure.message
  | .diagnostic report => report.title

abbrev StartProgram (α : Type) : Type :=
  Async KeyOp KeyOp.Answer StartError α

def KeyOp.run (op : KeyOp) : StartProgram op.Answer :=
  Async.call op

/- The value of an answer, or its error thrown. -/
def orThrow {α : Type} : Except Failure α → StartProgram α
  | .ok value => .returned value
  | .error failure => .threw (.system failure)

/- Where the keys are kept. -/
structure KeyPlace where
  win32 : Bool
  resolvedDir : JsString
  keyPrefix : JsString

def KeyPlace.path
    (place : KeyPlace)
    (extension : JsString) : JsString :=
  place.resolvedDir ++
    (if place.win32 then js "\\" else js "/") ++
    place.keyPrefix ++ extension

def KeyPlace.privPath (place : KeyPlace) : JsString :=
  place.path (js ".pkcs8")

def KeyPlace.pubPath (place : KeyPlace) : JsString :=
  place.path (js ".spki")

structure PersistentKeypair where
  privateKeyPem : JsString
  publicKeyPem : JsString
  privateKeyPath : JsString
  publicKeyPath : JsString
  created : Bool
  deriving DecidableEq, Repr

def KeyPlace.keypair
    (place : KeyPlace)
    (pems : KeyPems)
    (created : Bool) : PersistentKeypair where
  privateKeyPem := pems.privateKey
  publicKeyPem := pems.publicKey
  privateKeyPath := place.privPath
  publicKeyPath := place.pubPath
  created := created

def readFailed
    (place : KeyPlace)
    (error : StartError) : DiagnosticReport where
  title :=
    js "Failed to read existing cryptographic keys from " ++
      place.resolvedDir
  diagnosis :=
    js "Key files exist but could not be read: " ++ error.message
  action :=
    js "Check file permissions on " ++ place.privPath ++
      js " and " ++ place.pubPath ++
      js ", or delete them to allow automatic regeneration."
  code := js "ERR_CRYPTO_KEY_READ_FAILED"

def generationFailed (error : StartError) : DiagnosticReport where
  title :=
    js "Failed to generate Ed25519 cryptographic keypair"
  diagnosis :=
    js "Cryptographic subsystem failed during key generation: " ++
      error.message
  action :=
    js "Ensure Bun and system cryptographic libraries are functional."
  code := js "ERR_CRYPTO_KEY_GEN_FAILED"

def writeFailed
    (place : KeyPlace)
    (error : StartError) : DiagnosticReport where
  title :=
    js "Failed to write cryptographic keys to " ++
      place.resolvedDir
  diagnosis :=
    js "Error writing key files to disk: " ++ error.message
  action :=
    js "Verify write permissions on directory " ++
      place.resolvedDir ++ js "."
  code := js "ERR_CRYPTO_KEY_WRITE_FAILED"

def writeFileSync
    (file : KeyFile)
    (text : JsString) : StartProgram Unit := do
  let opened ← (KeyOp.openFile file).run
  orThrow opened
  let written ← (KeyOp.writeText file text).run
  orThrow written

def chmodSync (file : KeyFile) (mode : Nat) : StartProgram Unit := do
  let changed ← (KeyOp.changeMode file mode).run
  orThrow changed

def readFileSync (file : KeyFile) : StartProgram JsString := do
  let text ← (KeyOp.readFile file).run
  orThrow text

def ensureKeysDir : StartProgram Unit := do
  let there ← KeyOp.dirExists.run
  if there then return ()
  let made ← KeyOp.makeDir.run
  orThrow made

def bothExist : StartProgram Bool := do
  let there ← (KeyOp.fileExists .privateKey).run
  if there then (KeyOp.fileExists .publicKey).run
  else return false

def readKeys : StartProgram KeyPems := do
  let privateKey ← readFileSync .privateKey
  let publicKey ← readFileSync .publicKey
  return ⟨privateKey, publicKey⟩

def generateKeyPairSync : StartProgram KeyPems := do
  let pems ← KeyOp.generateKeyPair.run
  orThrow pems

def writeKeys
    (place : KeyPlace)
    (pems : KeyPems) : StartProgram Unit := do
  writeFileSync .privateKey pems.privateKey
  writeFileSync .publicKey pems.publicKey
  if place.win32 then return ()
  chmodSync .privateKey 0o600
  chmodSync .publicKey 0o644

def ensureCryptoKeypair
    (place : KeyPlace) : StartProgram PersistentKeypair := do
  ensureKeysDir
  let both ← bothExist
  if both then
    let pems ←
      tryCatch readKeys fun error =>
        throw (.diagnostic (readFailed place error))
    return place.keypair pems false
  else
    let pems ←
      tryCatch generateKeyPairSync fun error =>
        throw (.diagnostic (generationFailed error))
    tryCatch (writeKeys place pems) fun error =>
      throw (.diagnostic (writeFailed place error))
    return place.keypair pems true

abbrev KeyEvent : Type :=
  Event KeyOp KeyOp.Answer KeyDirectory Unit StartError
    PersistentKeypair

abbrev KeyWorld : Type :=
  World KeyOp KeyOp.Answer KeyDirectory Unit StartError
    PersistentKeypair

abbrev KeyPool : Type :=
  Pool KeyOp KeyOp.Answer KeyDirectory Unit StartError
    PersistentKeypair

def keySystem (crypto : Ed25519) (place : KeyPlace) :
    System KeyOp KeyOp.Answer KeyDirectory KeyChoice Unit
      StartError PersistentKeypair where
  serve := fun _ _ => ensureCryptoKeypair place
  exec := KeyOp.exec crypto

/- What an event has done to a file: nothing, if there is no
   answer, and else the call that has written all of it. -/
def changeOf (file : KeyFile) : KeyEvent → Option (Option Nat)
  | .performed _ (.openFile other) (.ok _) _ _ =>
      if other = file then some none else none
  | .performed i (.writeText other _) (.ok _) _ _ =>
      if other = file then some (some i) else none
  | .performed _ (.writeText other _) (.error _) _ _ =>
      if other = file then some none else none
  | _ => none

/- The call whose text a file holds, unless the file has been
   emptied or its text cut off since. -/
def writerOf (file : KeyFile) : List KeyEvent → Option Nat
  | [] => none
  | event :: older =>
      match changeOf file event with
      | some writer => writer
      | none => writerOf file older

/- A call has read the private key. -/
def readsPrivate (i : Nat) : KeyEvent → Bool
  | .performed j (.readFile .privateKey) _ _ _ => i = j
  | _ => false

/- The call whose private key a call has read. -/
def writerRead (i : Nat) : List KeyEvent → Option Nat
  | [] => none
  | event :: older =>
      if readsPrivate i event then writerOf .privateKey older
      else writerRead i older

/- The public key is read when it is of the call whose private
   key has been read. -/
def readsOneWriter :
    Allowed KeyOp KeyOp.Answer KeyDirectory Unit StartError
      PersistentKeypair where
  start := fun _ _ _ => True
  perform := fun i op w =>
    op = .readFile .publicKey →
      ∃ j,
        writerRead i w.trace = some j ∧
          writerOf .publicKey w.trace = some j

variable {crypto : Ed25519} {place : KeyPlace}
variable {file : KeyFile} {text : JsString} {op : KeyOp}
variable {choice : KeyChoice} {answer : op.Answer}
variable {after : KeyDirectory} {w v : KeyWorld} {i j : Nat}
variable {event : KeyEvent} {trace : List KeyEvent}

/- What an event has written, and to which file. -/
def writing : KeyEvent → Option (Nat × KeyFile × JsString)
  | .performed i (.writeText file text) (.ok _) _ _ =>
      some (i, file, text)
  | _ => none

/- A call has written a whole text to a file. -/
def Wrote
    (i : Nat)
    (file : KeyFile)
    (text : JsString)
    (trace : List KeyEvent) : Prop :=
  ∃ event ∈ trace, writing event = some (i, file, text)

theorem wrote_cons :
    Wrote i file text (event :: trace) ↔
      writing event = some (i, file, text) ∨
        Wrote i file text trace :=
  recorded_cons

theorem task_of_writing
    (hWriting : writing event = some (i, file, text)) :
    event.task = i := by
  unfold writing at hWriting
  split at hWriting
  · simp only [Option.some.injEq, Prod.mk.injEq] at hWriting
    exact hWriting.1
  · cases hWriting

/- A call writes the halves of one pair and nothing else. -/
def WritesOnly
    (i : Nat)
    (pems : KeyPems)
    (trace : List KeyEvent) : Prop :=
  ∀ file text, Wrote i file text trace → text = pems.half file

def WritesNothing (i : Nat) (trace : List KeyEvent) : Prop :=
  ∀ file text, ¬ Wrote i file text trace

theorem WritesNothing.writesOnly
    (hNothing : WritesNothing i trace)
    (pems : KeyPems) :
    WritesOnly i pems trace := by
  intro file text hWrote
  exact absurd hWrote (hNothing file text)

theorem Wrote.of_grows
    (hGrows : World.Grows i w v)
    (hWrote : Wrote i file text v.trace) :
    Wrote i file text w.trace := by
  refine Recorded.of_grows ?_ hGrows hWrote
  intro event j mark hWriting
  exact task_of_writing hWriting

theorem Wrote.grows
    (hGrows : World.Grows i w v)
    (hWrote : Wrote j file text w.trace) :
    Wrote j file text v.trace :=
  Recorded.grows hGrows hWrote

/- What others do is no reading of this call. -/
theorem writerRead_of_grows
    (hGrows : World.Grows i w v) :
    writerRead i v.trace = writerRead i w.trace := by
  rcases hGrows with ⟨events, hTrace, hOthers⟩
  rw [hTrace]
  clear hTrace
  induction events with
  | nil => rfl
  | cons event rest ih =>
      have hRead : readsPrivate i event = false := by
        have hTask := hOthers event List.mem_cons_self
        unfold readsPrivate
        split
        · simpa using fun hSame : i = _ => hTask hSame.symm
        · rfl
      have hRest :
          ∀ other ∈ rest, other.task ≠ i := by
        intro other hMember
        exact hOthers other (List.mem_cons_of_mem _ hMember)
      simp only [List.cons_append, writerRead, hRead,
        Bool.false_eq_true, if_false]
      exact ih hRest

------------------------------------------------------------
-- The Invariant
------------------------------------------------------------

/- Each call writes the halves of a pair, a file holds what
   its writer has written, and the pairs returned are pairs. -/
structure KeyInv (crypto : Ed25519) (w : KeyWorld) : Prop where
  halves :
    ∀ j privateKey publicKey,
      Wrote j .privateKey privateKey w.trace →
        Wrote j .publicKey publicKey w.trace →
          crypto.IsPair privateKey publicKey
  held :
    ∀ file j, writerOf file w.trace = some j →
      ∃ text,
        w.state.files file = some text ∧
          Wrote j file text w.trace
  ends :
    ∀ j keys, .finished j (.ok keys) ∈ w.trace →
      crypto.IsPair keys.privateKeyPem keys.publicKeyPem

def keyContract (crypto : Ed25519) :
    Contract KeyOp KeyOp.Answer KeyDirectory Unit StartError
      PersistentKeypair where
  inv := KeyInv crypto
  rely := fun _ _ _ => True
  rely_refl := fun _ _ => trivial
  rely_trans := fun _ _ _ _ _ _ => trivial

/- What a step does to a file is what its event records. -/
inductive FileStep
    (i : Nat)
    (event : KeyEvent)
    (file : KeyFile)
    (before after : Option JsString) : Prop where
  | same
      (unchanged : changeOf file event = none)
      (keeps : after = before)
  | torn (changed : changeOf file event = some none)
  | whole
      (text : JsString)
      (changed : changeOf file event = some (some i))
      (holds : after = some text)
      (written : writing event = some (i, file, text))

theorem fileStep_exec
    (hExec : op.exec crypto choice w.state = some (answer, after))
    (file : KeyFile) :
    FileStep i (.performed i op answer w.state after) file
      (w.state.files file) (after.files file) := by
  have hOther :
      ∀ other text, other ≠ file →
        (w.state.put other text).files file =
          w.state.files file := by
    intro other text hNe
    exact KeyDirectory.files_put_of_ne _ _ (Ne.symm hNe)
  cases op with
  | openFile other =>
      simp only [KeyOp.exec] at hExec
      split at hExec
      · cases hExec
        exact .same rfl rfl
      · cases hExec
        exact .same rfl rfl
      · cases hExec
        by_cases hSame : other = file
        · exact .torn (if_pos hSame)
        · exact .same (if_neg hSame) (hOther other _ hSame)
  | writeText other text =>
      simp only [KeyOp.exec] at hExec
      split at hExec
      · cases hExec
        by_cases hSame : other = file
        · exact .torn (if_pos hSame)
        · exact .same (if_neg hSame) (hOther other _ hSame)
      · cases hExec
        by_cases hSame : other = file
        · subst hSame
          exact
            .whole text (if_pos rfl)
              (KeyDirectory.files_put_self _ _ _) rfl
        · exact .same (if_neg hSame) (hOther other _ hSame)
  | makeDir =>
      simp only [KeyOp.exec] at hExec
      split at hExec
      · cases hExec
        exact .same rfl rfl
      · cases hExec
        exact .same rfl rfl
  | readFile other =>
      simp only [KeyOp.exec] at hExec
      split at hExec
      · cases hExec
        exact .same rfl rfl
      · cases hExec
        exact .same rfl rfl
  | startUp step =>
      simp only [KeyOp.exec] at hExec
      split at hExec
      · cases hExec
        exact .same rfl rfl
      · cases hExec
        exact .same rfl rfl
      · cases hExec
        exact .same rfl rfl
  | _ =>
      cases hExec
      exact .same rfl rfl

/- Only a whole write is recorded as one. -/
theorem writing_performed
    {target : Nat × KeyFile × JsString}
    (hWriting :
      writing (.performed i op answer w.state after) =
        some target) :
    op = .writeText target.2.1 target.2.2 ∧ target.1 = i := by
  unfold writing at hWriting
  split at hWriting
  · rename_i hEvent
    cases hEvent
    cases hWriting
    exact ⟨rfl, rfl⟩
  · cases hWriting

theorem keyInv_perform
    (hInv : KeyInv crypto w)
    (hExec : op.exec crypto choice w.state = some (answer, after))
    (hWrites :
      ∀ file text, op = .writeText file text →
        ∃ pems : KeyPems,
          crypto.IsPair pems.privateKey pems.publicKey ∧
            text = pems.half file ∧
            WritesOnly i pems w.trace) :
    KeyInv crypto (w.perform i op answer after) := by
  constructor
  · intro j privateKey publicKey hPrivate hPublic
    rw [World.perform_trace, wrote_cons] at hPrivate hPublic
    rcases hPrivate with hNew | hOld
    · have hWritten := writing_performed hNew
      rcases hWrites _ _ hWritten.1 with
        ⟨pems, hPair, hText, hOnly⟩
      have hTask : j = i := hWritten.2
      subst hTask
      have hPrivateText : privateKey = pems.privateKey := hText
      rcases hPublic with hBoth | hEarlier
      · rw [hNew] at hBoth
        cases hBoth
      · have hPublicText : publicKey = pems.publicKey :=
          hOnly _ _ hEarlier
        rw [hPrivateText, hPublicText]
        exact hPair
    · rcases hPublic with hNew | hEarlier
      · have hWritten := writing_performed hNew
        rcases hWrites _ _ hWritten.1 with
          ⟨pems, hPair, hText, hOnly⟩
        have hTask : j = i := hWritten.2
        subst hTask
        have hPublicText : publicKey = pems.publicKey := hText
        have hPrivateText : privateKey = pems.privateKey :=
          hOnly _ _ hOld
        rw [hPrivateText, hPublicText]
        exact hPair
      · exact hInv.halves j privateKey publicKey hOld hEarlier
  · intro file j hWriter
    have hStep := fileStep_exec (i := i) hExec file
    rw [World.perform_trace] at hWriter
    unfold writerOf at hWriter
    rw [World.perform_state, World.perform_trace]
    cases hStep with
    | same hNone hSame =>
        rw [hNone] at hWriter
        rcases hInv.held file j hWriter with ⟨text, hText, hWrote⟩
        exact
          ⟨text, hSame.trans hText,
            wrote_cons.mpr (Or.inr hWrote)⟩
    | torn hTorn =>
        rw [hTorn] at hWriter
        cases hWriter
    | whole text hWhole hText hWriting =>
        rw [hWhole] at hWriter
        cases hWriter
        exact ⟨text, hText, wrote_cons.mpr (Or.inl hWriting)⟩
  · intro j keys hMember
    rw [World.perform_trace] at hMember
    rcases List.mem_cons.mp hMember with hNew | hOld
    · cases hNew
    · exact hInv.ends j keys hOld

/- An event that writes nothing and ends no call wrongly. -/
theorem keyInv_event
    (hInv : KeyInv crypto w)
    (hState : v.state = w.state)
    (hTrace : v.trace = event :: w.trace)
    (hSame : ∀ file, changeOf file event = none)
    (hWriting : writing event = none)
    (hEnds :
      ∀ j keys, event = .finished j (.ok keys) →
        crypto.IsPair keys.privateKeyPem keys.publicKeyPem) :
    KeyInv crypto v := by
  have hOld :
      ∀ j file text, Wrote j file text v.trace →
        Wrote j file text w.trace := by
    intro j file text hWrote
    rw [hTrace, wrote_cons, hWriting] at hWrote
    rcases hWrote with hNew | hOld
    · cases hNew
    · exact hOld
  constructor
  · intro j privateKey publicKey hPrivate hPublic
    exact
      hInv.halves j privateKey publicKey (hOld _ _ _ hPrivate)
        (hOld _ _ _ hPublic)
  · intro file j hWriter
    rw [hTrace] at hWriter
    unfold writerOf at hWriter
    rw [hSame] at hWriter
    rcases hInv.held file j hWriter with ⟨text, hText, hWrote⟩
    refine ⟨text, ?_, ?_⟩
    · rw [hState]
      exact hText
    · rw [hTrace]
      exact wrote_cons.mpr (Or.inr hWrote)
  · intro j keys hMember
    rw [hTrace] at hMember
    rcases List.mem_cons.mp hMember with hNew | hEarlier
    · exact hEnds j keys hNew.symm
    · exact hInv.ends j keys hEarlier

------------------------------------------------------------
-- Every Call
------------------------------------------------------------

variable {pems : KeyPems} {α β : Type}

/- What holds of a program of a call throughout. -/
abbrev SafeKeys
    (crypto : Ed25519)
    (place : KeyPlace)
    (i : Nat)
    (program : StartProgram α)
    (post : α → KeyWorld → Prop)
    (w : KeyWorld) : Prop :=
  (keyContract crypto).Safe (keySystem crypto place)
    readsOneWriter i program post (fun _ _ => True) w

theorem writesOnly_stable :
    (keyContract crypto).Stable i
      fun w => WritesOnly i pems w.trace := by
  intro w v hOnly hInterferes _ file text hWrote
  exact hOnly file text (hWrote.of_grows hInterferes.1)

theorem writesNothing_stable :
    (keyContract crypto).Stable i
      fun w => WritesNothing i w.trace := by
  intro w v hNothing hInterferes _ file text hWrote
  exact hNothing file text (hWrote.of_grows hInterferes.1)

/- An operation that is no write. -/
theorem quiet_safe
    {J : KeyWorld → Prop}
    {post : op.Answer → KeyWorld → Prop}
    (hOp : ∀ file text, op ≠ .writeText file text)
    (hStable : (keyContract crypto).Stable i J)
    (hHere : J w)
    (hPost :
      ∀ (v : KeyWorld) choice answer after,
        J v → KeyInv crypto v → readsOneWriter.perform i op v →
          op.exec crypto choice v.state = some (answer, after) →
            post answer (v.perform i op answer after)) :
    SafeKeys crypto place i op.run post w := by
  refine Contract.safe_await hStable hHere ?_
  intro v hThere hInv hOk choice answer after hExec
  constructor
  · refine ⟨?_, fun _ _ => trivial⟩
    apply keyInv_perform hInv hExec
    intro file text hWrite
    exact absurd hWrite (hOp file text)
  · exact hPost v choice answer after hThere hInv hOk hExec

theorem WritesNothing.perform
    (hNothing : WritesNothing i w.trace)
    (hOp : ∀ file text, op ≠ .writeText file text) :
    WritesNothing i (w.perform i op answer after).trace := by
  intro file text hWrote
  rw [World.perform_trace, wrote_cons] at hWrote
  rcases hWrote with hNew | hOld
  · exact hOp _ _ (writing_performed hNew).1
  · exact hNothing file text hOld

theorem WritesOnly.perform
    (hOnly : WritesOnly i pems w.trace)
    (hOp :
      ∀ file text, op = .writeText file text →
        text = pems.half file) :
    WritesOnly i pems (w.perform i op answer after).trace := by
  intro file text hWrote
  rw [World.perform_trace, wrote_cons] at hWrote
  rcases hWrote with hNew | hOld
  · exact hOp file text (writing_performed hNew).1
  · exact hOnly file text hOld

/- An answer is the value of an operation or is thrown. -/
theorem orThrow_safe
    {answer : Except Failure α}
    {post : α → KeyWorld → Prop}
    (hPost : ∀ value, answer = .ok value → post value w) :
    SafeKeys crypto place i (orThrow answer) post w := by
  cases answer with
  | ok value => exact hPost value rfl
  | error failure => trivial

/- An operation that is no write, by a call that has written
   nothing yet. -/
theorem quiet_nothing
    (hOp : ∀ file text, op ≠ .writeText file text)
    (hNothing : WritesNothing i w.trace) :
    SafeKeys crypto place i op.run
      (fun _ v => WritesNothing i v.trace) w := by
  refine quiet_safe hOp writesNothing_stable hNothing ?_
  intro v choice answer after hThere _ _ _
  exact hThere.perform hOp

theorem ensureKeysDir_safe
    (hNothing : WritesNothing i w.trace) :
    SafeKeys crypto place i ensureKeysDir
      (fun _ v => WritesNothing i v.trace) w := by
  unfold ensureKeysDir
  simp only [Async.bind_eq]
  refine Contract.safe_bind ?_
  refine
    Contract.safe_mono ?_ (fun _ _ h => h)
      (quiet_nothing (fun _ _ h => by cases h) hNothing)
  intro there v hThere
  cases there with
  | true => exact hThere
  | false =>
      refine Contract.safe_bind ?_
      refine
        Contract.safe_mono ?_ (fun _ _ h => h)
          (quiet_nothing (fun _ _ h => by cases h) hThere)
      intro made u hHere
      exact orThrow_safe fun _ _ => hHere

theorem bothExist_safe
    (hNothing : WritesNothing i w.trace) :
    SafeKeys crypto place i bothExist
      (fun _ v => WritesNothing i v.trace) w := by
  unfold bothExist
  simp only [Async.bind_eq]
  refine Contract.safe_bind ?_
  refine
    Contract.safe_mono ?_ (fun _ _ h => h)
      (quiet_nothing (fun _ _ h => by cases h) hNothing)
  intro there v hThere
  cases there with
  | true =>
      exact quiet_nothing (fun _ _ h => by cases h) hThere
  | false => exact hThere

/- What a call has read is what its writer has written. -/
def ReadFrom
    (i : Nat)
    (privateKey : JsString)
    (trace : List KeyEvent) : Prop :=
  ∀ j, writerRead i trace = some j →
    Wrote j .privateKey privateKey trace

theorem readFrom_stable
    {privateKey : JsString} :
    (keyContract crypto).Stable i
      fun w => ReadFrom i privateKey w.trace := by
  intro w v hRead hInterferes _ j hWriter
  rw [writerRead_of_grows hInterferes.1] at hWriter
  exact (hRead j hWriter).grows hInterferes.1

theorem exec_readFile
    {directory : KeyDirectory}
    (hExec :
      KeyOp.exec crypto (.readFile file) choice directory =
        some (.ok text, after)) :
    directory.files file = some text := by
  simp only [KeyOp.exec] at hExec
  cases hFile : directory.files file with
  | none =>
      rw [hFile] at hExec
      cases hExec
  | some found =>
      rw [hFile] at hExec
      unfold KeyChoice.orElse at hExec
      cases hFailure : choice.failure with
      | some failure =>
          rw [hFailure] at hExec
          cases hExec
      | none =>
          rw [hFailure] at hExec
          cases hExec
          rfl

theorem readPrivate_safe :
    SafeKeys crypto place i (readFileSync .privateKey)
      (fun privateKey v => ReadFrom i privateKey v.trace) w := by
  unfold readFileSync
  simp only [Async.bind_eq]
  refine Contract.safe_bind ?_
  refine
    quiet_safe (J := fun _ => True) (fun _ _ h => by cases h)
      (fun _ _ _ _ _ => trivial) trivial ?_
  intro v choice answer after _ hInv _ hExec
  apply orThrow_safe
  intro privateKey hAnswer
  subst hAnswer
  intro j hWriter
  have hFound := exec_readFile hExec
  have hWriterOf : writerOf .privateKey v.trace = some j := by
    simpa [writerRead, readsPrivate] using hWriter
  rcases hInv.held .privateKey j hWriterOf with
    ⟨text, hText, hWrote⟩
  rw [hFound] at hText
  cases hText
  exact wrote_cons.mpr (Or.inr hWrote)

theorem readPublic_safe
    {privateKey : JsString}
    (hRead : ReadFrom i privateKey w.trace) :
    SafeKeys crypto place i (readFileSync .publicKey)
      (fun publicKey _ => crypto.IsPair privateKey publicKey)
      w := by
  unfold readFileSync
  simp only [Async.bind_eq]
  refine Contract.safe_bind ?_
  refine
    quiet_safe (fun _ _ h => by cases h) readFrom_stable hRead ?_
  intro v choice answer after hThere hInv hOk hExec
  apply orThrow_safe
  intro publicKey hAnswer
  subst hAnswer
  have hFound := exec_readFile hExec
  rcases hOk rfl with ⟨j, hWriterRead, hWriterOf⟩
  rcases hInv.held .publicKey j hWriterOf with
    ⟨text, hText, hWrote⟩
  rw [hFound] at hText
  cases hText
  exact
    hInv.halves j privateKey publicKey (hThere j hWriterRead)
      hWrote

theorem readKeys_safe :
    SafeKeys crypto place i readKeys
      (fun pems _ =>
        crypto.IsPair pems.privateKey pems.publicKey)
      w := by
  unfold readKeys
  simp only [Async.bind_eq]
  refine Contract.safe_bind ?_
  refine
    Contract.safe_mono ?_ (fun _ _ h => h) readPrivate_safe
  intro privateKey v hRead
  refine Contract.safe_bind ?_
  refine
    Contract.safe_mono ?_ (fun _ _ h => h)
      (readPublic_safe hRead)
  intro publicKey u hPair
  exact hPair

theorem generateKeyPairSync_safe
    (hNothing : WritesNothing i w.trace) :
    SafeKeys crypto place i generateKeyPairSync
      (fun pems v =>
        crypto.IsPair pems.privateKey pems.publicKey ∧
          WritesOnly i pems v.trace)
      w := by
  unfold generateKeyPairSync
  simp only [Async.bind_eq]
  refine Contract.safe_bind ?_
  refine
    quiet_safe (fun _ _ h => by cases h) writesNothing_stable
      hNothing ?_
  intro v choice answer after hThere _ _ hExec
  apply orThrow_safe
  intro pems hAnswer
  subst hAnswer
  simp only [KeyOp.exec] at hExec
  unfold KeyChoice.orElse at hExec
  cases hFailure : choice.failure with
  | some failure =>
      rw [hFailure] at hExec
      cases hExec
  | none =>
      rw [hFailure] at hExec
      cases hExec
      have hAfter :
          WritesNothing i
            (v.perform i .generateKeyPair
              (.ok (crypto.generate choice.seed)) v.state).trace :=
        hThere.perform fun _ _ h => by cases h
      exact
        ⟨crypto.generates choice.seed,
          hAfter.writesOnly (crypto.generate choice.seed)⟩

/- A call goes on writing the pair that it has begun. -/
theorem writing_safe
    (hPair : crypto.IsPair pems.privateKey pems.publicKey)
    (hOp :
      ∀ file text, op = .writeText file text →
        text = pems.half file)
    (hOnly : WritesOnly i pems w.trace) :
    SafeKeys crypto place i op.run
      (fun _ v => WritesOnly i pems v.trace) w := by
  refine Contract.safe_await writesOnly_stable hOnly ?_
  intro v hThere hInv _ choice answer after hExec
  constructor
  · refine ⟨?_, fun _ _ => trivial⟩
    apply keyInv_perform hInv hExec
    intro file text hWrite
    exact ⟨pems, hPair, hOp file text hWrite, hThere⟩
  · exact hThere.perform hOp

theorem writing_orThrow_safe
    (op : KeyOp)
    (answerOf : op.Answer → Except Failure Unit)
    (hPair : crypto.IsPair pems.privateKey pems.publicKey)
    (hOp :
      ∀ file text, op = .writeText file text →
        text = pems.half file)
    (hOnly : WritesOnly i pems w.trace) :
    SafeKeys crypto place i
      (op.run.bind fun answer => orThrow (answerOf answer))
      (fun _ v => WritesOnly i pems v.trace) w := by
  refine Contract.safe_bind ?_
  refine
    Contract.safe_mono ?_ (fun _ _ h => h)
      (writing_safe hPair hOp hOnly)
  intro answer v hThere
  exact orThrow_safe fun _ _ => hThere

theorem writeFileSync_safe
    (hPair : crypto.IsPair pems.privateKey pems.publicKey)
    (hText : text = pems.half file)
    (hOnly : WritesOnly i pems w.trace) :
    SafeKeys crypto place i (writeFileSync file text)
      (fun _ v => WritesOnly i pems v.trace) w := by
  unfold writeFileSync
  simp only [Async.bind_eq]
  refine Contract.safe_bind ?_
  refine
    Contract.safe_mono ?_ (fun _ _ h => h)
      (writing_safe hPair (fun _ _ h => by cases h) hOnly)
  intro opened v hThere
  refine Contract.safe_bind ?_
  apply orThrow_safe
  intro _ _
  refine
    writing_orThrow_safe (.writeText file text) id hPair ?_
      hThere
  intro other written hWrite
  cases hWrite
  exact hText

theorem chmodSync_safe
    {mode : Nat}
    (hPair : crypto.IsPair pems.privateKey pems.publicKey)
    (hOnly : WritesOnly i pems w.trace) :
    SafeKeys crypto place i (chmodSync file mode)
      (fun _ v => WritesOnly i pems v.trace) w := by
  unfold chmodSync
  simp only [Async.bind_eq]
  exact
    writing_orThrow_safe (.changeMode file mode) id hPair
      (fun _ _ h => by cases h) hOnly

theorem writeKeys_safe
    (hPair : crypto.IsPair pems.privateKey pems.publicKey)
    (hOnly : WritesOnly i pems w.trace) :
    SafeKeys crypto place i (writeKeys place pems)
      (fun _ _ => True) w := by
  unfold writeKeys
  simp only [Async.bind_eq]
  refine Contract.safe_bind ?_
  refine
    Contract.safe_mono ?_ (fun _ _ h => h)
      (writeFileSync_safe hPair rfl hOnly)
  intro _ v hPrivate
  refine Contract.safe_bind ?_
  refine
    Contract.safe_mono ?_ (fun _ _ h => h)
      (writeFileSync_safe hPair rfl hPrivate)
  intro _ u hPublic
  cases place.win32 with
  | true => trivial
  | false =>
      refine Contract.safe_bind ?_
      refine
        Contract.safe_mono ?_ (fun _ _ h => h)
          (chmodSync_safe hPair hPublic)
      intro _ x hChanged
      exact
        Contract.safe_mono (fun _ _ _ => trivial)
          (fun _ _ h => h) (chmodSync_safe hPair hChanged)

/- The pair that a call returns is a pair. -/
theorem ensureCryptoKeypair_safe
    (hNothing : WritesNothing i w.trace) :
    SafeKeys crypto place i (ensureCryptoKeypair place)
      (fun keys _ =>
        crypto.IsPair keys.privateKeyPem keys.publicKeyPem)
      w := by
  unfold ensureCryptoKeypair
  simp only [Async.bind_eq]
  refine Contract.safe_bind ?_
  refine
    Contract.safe_mono ?_ (fun _ _ h => h)
      (ensureKeysDir_safe hNothing)
  intro _ v hDir
  refine Contract.safe_bind ?_
  refine
    Contract.safe_mono ?_ (fun _ _ h => h)
      (bothExist_safe hDir)
  intro both u hLooked
  cases both with
  | true =>
      refine Contract.safe_bind ?_
      refine Contract.safe_catchError ?_
      refine
        Contract.safe_mono ?_ (fun _ _ _ => trivial)
          readKeys_safe
      intro pems x hPair
      exact hPair
  | false =>
      refine Contract.safe_bind ?_
      refine Contract.safe_catchError ?_
      refine
        Contract.safe_mono ?_ (fun _ _ _ => trivial)
          (generateKeyPairSync_safe hLooked)
      intro pems x hGenerated
      rcases hGenerated with ⟨hPair, hOnly⟩
      refine Contract.safe_bind ?_
      refine Contract.safe_catchError ?_
      refine
        Contract.safe_mono ?_ (fun _ _ _ => trivial)
          (writeKeys_safe hPair hOnly)
      intro _ y _
      exact hPair

theorem keyInv_initial
    (crypto : Ed25519)
    (made : Bool) :
    KeyInv crypto ⟨KeyDirectory.fresh made, []⟩ := by
  constructor
  · intro j privateKey publicKey hWrote
    rcases hWrote with ⟨event, hMember, _⟩
    cases hMember
  · intro file j hWriter
    cases hWriter
  · intro j keys hMember
    cases hMember

/- Whatever the calls and wherever they stop, what a call
   returns is a pair if no call reads the halves of two. -/
theorem returned_pairs
    {made : Bool}
    {p : KeyPool}
    {keys : PersistentKeypair}
    (hRun :
      (keySystem crypto place).Run readsOneWriter
        (Pool.initial (KeyDirectory.fresh made)) p)
    (hFinished : .finished i (.ok keys) ∈ p.world.trace) :
    crypto.IsPair keys.privateKeyPem keys.publicKeyPem := by
  have hSound :
      (keyContract crypto).PoolSafe (keySystem crypto place)
        readsOneWriter p := by
    refine
      Contract.sound _ (keyInv_initial crypto made) ?_ hRun
    intro w k request hInv hFresh _
    have hKeeps :
        (keyContract crypto).Keeps k w (w.start k request) := by
      refine ⟨?_, fun _ _ => trivial⟩
      refine keyInv_event hInv rfl rfl (fun _ => rfl) rfl ?_
      intro j other hEvent
      cases hEvent
    refine ⟨hKeeps, ?_⟩
    have hNothing :
        WritesNothing k (w.start k request).trace := by
      intro file text hWrote
      rw [World.start_trace, wrote_cons] at hWrote
      rcases hWrote with hNew | hOld
      · cases hNew
      · rcases hOld with ⟨event, hMember, hWriting⟩
        exact
          hFresh event hMember (task_of_writing hWriting)
    refine
      Contract.safe_mono ?_ ?_
        (Contract.safe_with_inv hKeeps.1
          (ensureCryptoKeypair_safe hNothing))
    · intro other v hEnd
      rcases hEnd with ⟨hHere, hPair⟩
      refine ⟨?_, fun _ _ => trivial⟩
      refine keyInv_event hHere rfl rfl (fun _ => rfl) rfl ?_
      intro j value hEvent
      cases hEvent
      exact hPair
    · intro error v hEnd
      refine ⟨?_, fun _ _ => trivial⟩
      refine keyInv_event hEnd.1 rfl rfl (fun _ => rfl) rfl ?_
      intro j value hEvent
      cases hEvent
  exact hSound.inv.ends i keys hFinished

end Bootstrap
