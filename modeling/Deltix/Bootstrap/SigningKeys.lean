import Deltix.Bootstrap.KeyDirectory
import Deltix.Concurrency.Solo
import Deltix.Config.AppConfig

/-
  The signing keys that a start ends with: those of the
  configuration, and for each that is not given the one of
  the key directory.

  The schema wants the name and the password of the first
  admin together; it has no such rule for the two keys.

  Key definitions include:
    * `Accepted`
    * `assign`
    * `withKeys`
    * `bootstrap`
    * `KeysAgree`

  Key theorems include:
    * `ends_ensureCryptoKeypair`
    * `withKeys_isPair_iff`
    * `pairs_match_iff`
-/

namespace Bootstrap

open Config Text

structure SchemaIssue where
  message : JsString
  path : List JsString
  deriving DecidableEq, Repr

/- A text that is there and not empty. -/
def isGiven : Option JsString → Bool
  | none => false
  | some text => !text.isEmpty

/- `z.string().min(1).optional()` -/
def atLeastOne : Option JsString → Bool
  | none => true
  | some text => !text.isEmpty

/- The two texts of the first admin come together. -/
def superRefine (data : AuthConfig Int) : Option SchemaIssue :=
  if isGiven data.bootstrapAdminUsername !=
      isGiven data.bootstrapAdminPassword then
    some
      { message :=
          js <|
            "bootstrapAdminUsername and " ++
              "bootstrapAdminPassword must be provided together"
        path := [js "bootstrapAdminUsername"] }
  else none

/- What the schema accepts of what it has parsed. -/
structure Accepted (data : AuthConfig Int) : Prop where
  texts :
    ∀ text ∈
      [data.jwtPrivateKey, data.jwtPublicKey,
        data.jwtPrivateKeyPath, data.jwtPublicKeyPath,
        data.bootstrapAdminUsername,
        data.bootstrapAdminPassword],
      atLeastOne text = true
  session : 0 < data.sessionTtlSeconds
  access : 0 < data.accessTokenTtlSeconds
  refined : superRefine data = none

------------------------------------------------------------
-- The Start
------------------------------------------------------------

open Concurrency

/- What a start may be given in place of what was loaded. -/
structure Overrides where
  environment : Option Environment
  server : Option (ServerConfig Int)
  storage : Option StorageConfig
  database : Option DatabaseConfig
  auth : Option (AuthConfig Int)
  logging : Option LoggingConfig

/- `Object.assign` -/
def assign
    (config : AppConfig Int)
    (overrides : Overrides) : AppConfig Int where
  environment := overrides.environment.getD config.environment
  server := overrides.server.getD config.server
  storage := overrides.storage.getD config.storage
  database := overrides.database.getD config.database
  auth := overrides.auth.getD config.auth
  logging := overrides.logging.getD config.logging

structure BootstrapOptions where
  overrides : Option Overrides
  skipDatabaseInit : Bool
  skipPortCheck : Bool

structure Platform where
  win32 : Bool
  resolve : JsString → JsString

structure BootstrapContext where
  config : AppConfig Int
  keys : PersistentKeypair

def resolved
    (loaded : AppConfig Int)
    (options : BootstrapOptions) : AppConfig Int :=
  match options.overrides with
  | none => loaded
  | some overrides => assign loaded overrides

/- Where a start keeps its keys. -/
def keyPlace
    (platform : Platform)
    (config : AppConfig Int) : KeyPlace where
  win32 := platform.win32
  resolvedDir :=
    platform.resolve
      (platform.resolve
          (platform.resolve config.storage.dataDir) ++
        (if platform.win32 then js "\\" else js "/") ++
        js "keys")
  keyPrefix := js "jwt_ed25519"

/- The keys that the configuration leaves out. -/
def withKeys
    (auth : AuthConfig Int)
    (keys : PersistentKeypair) : AuthConfig Int :=
  let auth :=
    if !isGiven auth.jwtPrivateKey then
      { auth with
        jwtPrivateKey := some keys.privateKeyPem
        jwtPrivateKeyPath := some keys.privateKeyPath }
    else auth
  if !isGiven auth.jwtPublicKey then
    { auth with
      jwtPublicKey := some keys.publicKeyPem
      jwtPublicKeyPath := some keys.publicKeyPath }
  else auth

def startUp (step : StartUpStep) : StartProgram Unit := do
  let answer ← (KeyOp.startUp step).run
  orThrow answer

def checkPorts (options : BootstrapOptions) :
    StartProgram Unit := do
  if options.skipPortCheck then return ()
  startUp .httpPort
  startUp .grpcPort

def initDatabase (options : BootstrapOptions) :
    StartProgram Unit := do
  if options.skipDatabaseInit then return ()
  startUp .database

/- What a start does before it looks for its keys. -/
def prepare (options : BootstrapOptions) :
    StartProgram Unit := do
  startUp .directories
  startUp .permissions
  checkPorts options

/- A start with the configuration that `loadConfig` has
   returned. -/
def bootstrap
    (platform : Platform)
    (loaded : AppConfig Int)
    (options : BootstrapOptions) :
    StartProgram BootstrapContext := do
  let config := resolved loaded options
  prepare options
  let keys ← ensureCryptoKeypair (keyPlace platform config)
  let auth := withKeys config.auth keys
  initDatabase options
  return { config := { config with auth := auth }, keys := keys }

------------------------------------------------------------
-- A Start Alone
------------------------------------------------------------

abbrev KeyTaken : Type :=
  Taken KeyOp KeyOp.Answer KeyDirectory KeyChoice

/- The pair that an operation has generated. -/
def drawnBy : KeyTaken → Option KeyPems
  | ⟨.generateKeyPair, _, _, .ok pems, _⟩ => some pems
  | _ => none

/- The pair that the generator has given a run. -/
def drawn (steps : List KeyTaken) : Option KeyPems :=
  steps.findSome? drawnBy

/- The pair at hand for a start: the one generated, or else
   the texts of the files. -/
def AtHand
    (directory : KeyDirectory)
    (steps : List KeyTaken)
    (pems : KeyPems) : Prop :=
  match drawn steps with
  | some generated => pems = generated
  | none =>
      ∀ file, directory.files file = some (pems.half file)

variable {crypto : Ed25519} {place : KeyPlace}
variable {directory after : KeyDirectory}
variable {steps more : List KeyTaken} {pems : KeyPems}
variable {α : Type}

@[simp] theorem drawn_nil : drawn [] = none := rfl

@[simp] theorem drawn_append :
    drawn (steps ++ more) = (drawn steps).or (drawn more) := by
  simp [drawn, List.findSome?_append]

/- What leaves the files as they are and draws no pair. -/
def Looks : KeyOp → Prop
  | .dirExists => True
  | .makeDir => True
  | .fileExists _ => True
  | .readFile _ => True
  | .startUp _ => True
  | _ => False

theorem files_of_looks
    {op : KeyOp}
    {choice : KeyChoice}
    {answer : op.Answer}
    (hLooks : Looks op)
    (hExec :
      op.exec crypto choice directory = some (answer, after)) :
    after.files = directory.files := by
  cases op with
  | dirExists =>
      cases hExec
      rfl
  | fileExists file =>
      cases hExec
      rfl
  | makeDir =>
      simp only [KeyOp.exec] at hExec
      split at hExec
      · cases hExec
        rfl
      · cases hExec
        rfl
  | readFile file =>
      simp only [KeyOp.exec] at hExec
      split at hExec
      · cases hExec
        rfl
      · cases hExec
        rfl
  | startUp step =>
      simp only [KeyOp.exec] at hExec
      split at hExec
      · cases hExec
        rfl
      · cases hExec
        rfl
      · cases hExec
        rfl
  | _ => cases hLooks

theorem drawnBy_of_ne
    {step : KeyTaken}
    (hOp : step.op ≠ .generateKeyPair) :
    drawnBy step = none := by
  unfold drawnBy
  split
  · exact absurd rfl hOp
  · rfl

theorem ends_looks
    {body : StartProgram α}
    (hOnly : body.Only Looks) :
    Ends (KeyOp.exec crypto) body directory fun steps _ t =>
      drawn steps = none ∧ t.files = directory.files := by
  induction body generalizing directory with
  | returned value => exact ends_returned ⟨rfl, rfl⟩
  | threw error => exact ends_threw ⟨rfl, rfl⟩
  | await op resume ih =>
      apply ends_await
      intro choice answer next hExec
      refine ends_mono (ih answer (hOnly.2 answer)) ?_
      intro steps outcome t hRest
      have hNe : op ≠ .generateKeyPair := by
        intro hSame
        subst hSame
        exact hOnly.1
      constructor
      · unfold drawn at hRest ⊢
        rw [List.findSome?_cons, drawnBy_of_ne hNe]
        exact hRest.1
      · rw [hRest.2]
        exact files_of_looks hOnly.1 hExec

theorem orThrow_only
    {cond : KeyOp → Prop}
    (answer : Except Failure α) :
    (orThrow answer).Only cond := by
  cases answer with
  | ok value => trivial
  | error failure => trivial

theorem ensureKeysDir_looks : ensureKeysDir.Only Looks := by
  unfold ensureKeysDir
  simp only [Async.bind_eq]
  refine ⟨trivial, fun there => ?_⟩
  cases there with
  | true => trivial
  | false => exact ⟨trivial, fun made => orThrow_only made⟩

theorem bothExist_looks : bothExist.Only Looks := by
  unfold bothExist
  simp only [Async.bind_eq]
  refine ⟨trivial, fun there => ?_⟩
  cases there with
  | true => exact ⟨trivial, fun _ => trivial⟩
  | false => trivial

theorem startUp_looks (step : StartUpStep) :
    (startUp step).Only Looks := by
  unfold startUp
  simp only [Async.bind_eq]
  exact ⟨trivial, fun answer => orThrow_only answer⟩

theorem checkPorts_looks (options : BootstrapOptions) :
    (checkPorts options).Only Looks := by
  unfold checkPorts
  simp only [Async.bind_eq]
  cases options.skipPortCheck with
  | true => trivial
  | false =>
      exact
        Async.only_bind (startUp_looks .httpPort)
          fun _ => startUp_looks .grpcPort

theorem prepare_looks (options : BootstrapOptions) :
    (prepare options).Only Looks := by
  unfold prepare
  simp only [Async.bind_eq]
  refine Async.only_bind (startUp_looks _) fun _ => ?_
  refine Async.only_bind (startUp_looks _) fun _ => ?_
  exact checkPorts_looks options

theorem initDatabase_looks (options : BootstrapOptions) :
    (initDatabase options).Only Looks := by
  unfold initDatabase
  cases options.skipDatabaseInit with
  | true => trivial
  | false => exact startUp_looks .database

------------------------------------------------------------
-- The Pair At Hand
------------------------------------------------------------

theorem ends_readFileSync
    (file : KeyFile) :
    Ends (KeyOp.exec crypto) (readFileSync file) directory
      fun steps outcome t =>
        drawn steps = none ∧ t.files = directory.files ∧
          ∀ text, outcome = .ok text →
            directory.files file = some text := by
  unfold readFileSync
  simp only [Async.bind_eq]
  apply ends_await
  intro choice answer next hExec
  have hLooks : Looks (.readFile file) := trivial
  have hFiles : next.files = directory.files :=
    files_of_looks hLooks hExec
  cases answer with
  | error failure =>
      refine ends_threw ⟨rfl, hFiles, ?_⟩
      intro text hOutcome
      cases hOutcome
  | ok found =>
      refine ends_returned ⟨rfl, hFiles, ?_⟩
      intro text hOutcome
      cases hOutcome
      exact exec_readFile hExec

/- The texts that are read are those of the files. -/
theorem ends_readKeys :
    Ends (KeyOp.exec crypto) readKeys directory
      fun steps outcome _ =>
        drawn steps = none ∧
          ∀ pems, outcome = .ok pems →
            ∀ file, directory.files file =
              some (KeyPems.half pems file) := by
  unfold readKeys
  simp only [Async.bind_eq]
  refine ends_bind_of (ends_readFileSync .privateKey) ?_ ?_
  · intro steps privateKey u hPrivate
    refine ends_bind_of (ends_readFileSync .publicKey) ?_ ?_
    · intro more publicKey v hPublic
      apply ends_returned
      constructor
      · simp [hPrivate.1, hPublic.1]
      · intro pems hOutcome file
        cases hOutcome
        cases file with
        | privateKey => exact hPrivate.2.2 privateKey rfl
        | publicKey =>
            rw [← hPrivate.2.1]
            exact hPublic.2.2 publicKey rfl
    · intro more error v hPublic
      refine ⟨by simp [hPrivate.1, hPublic.1], ?_⟩
      intro pems hOutcome
      cases hOutcome
  · intro steps error u hPrivate
    refine ⟨hPrivate.1, ?_⟩
    intro pems hOutcome
    cases hOutcome

theorem ends_generateKeyPairSync :
    Ends (KeyOp.exec crypto) generateKeyPairSync directory
      fun steps outcome _ =>
        True ∧
          ∀ pems, outcome = .ok pems →
            drawn steps = some pems := by
  unfold generateKeyPairSync
  simp only [Async.bind_eq]
  apply ends_await
  intro choice answer next _
  cases answer with
  | error failure =>
      refine ends_threw ⟨trivial, ?_⟩
      intro pems hOutcome
      cases hOutcome
  | ok generated =>
      refine ends_returned ⟨trivial, ?_⟩
      intro pems hOutcome
      cases hOutcome
      rfl

/- An error that is reported is thrown all the same. -/
theorem ends_diagnosed
    {α : Type}
    {body : StartProgram α}
    {Q : List KeyTaken → Prop}
    {R : List KeyTaken → α → Prop}
    (report : StartError → DiagnosticReport)
    (hBody :
      Ends (KeyOp.exec crypto) body directory
        fun steps outcome _ =>
          Q steps ∧
            ∀ value, outcome = .ok value → R steps value) :
    Ends (KeyOp.exec crypto)
      (tryCatch body fun error =>
        throw (.diagnostic (report error)))
      directory fun steps outcome _ =>
        Q steps ∧
          ∀ value, outcome = .ok value → R steps value := by
  refine ends_catchError_of hBody ?_ ?_
  · intro steps value t hMid
    exact hMid
  · intro steps error t hMid
    apply ends_threw
    rw [List.append_nil]
    refine ⟨hMid.1, ?_⟩
    intro value hOutcome
    cases hOutcome

/- The pair that a call returns is the one at hand. -/
theorem ends_ensureCryptoKeypair :
    Ends (KeyOp.exec crypto) (ensureCryptoKeypair place)
      directory fun steps outcome _ =>
        ∀ keys, outcome = .ok keys →
          AtHand directory steps
            ⟨keys.privateKeyPem, keys.publicKeyPem⟩ := by
  unfold ensureCryptoKeypair
  simp only [Async.bind_eq]
  refine ends_bind_of (ends_looks ensureKeysDir_looks) ?_ ?_
  · intro first _ u hFirst
    refine ends_bind_of (ends_looks bothExist_looks) ?_ ?_
    · intro second both v hSecond
      have hFiles : v.files = directory.files :=
        hSecond.2.trans hFirst.2
      cases both with
      | true =>
          refine
            ends_bind_of (ends_diagnosed _ ends_readKeys) ?_ ?_
          · intro third pems t hRead
            apply ends_returned
            intro keys hOutcome
            cases hOutcome
            have hNone :
                drawn (first ++ (second ++ (third ++ []))) =
                  none := by
              simp [hFirst.1, hSecond.1, hRead.1]
            unfold AtHand
            rw [hNone, ← hFiles]
            exact hRead.2 pems rfl
          · intro third error t _ keys hOutcome
            cases hOutcome
      | false =>
          refine
            ends_bind_of
              (ends_diagnosed _ ends_generateKeyPairSync) ?_ ?_
          · intro third pems t hDrawn
            have hSome : drawn third = some pems :=
              hDrawn.2 pems rfl
            refine ends_bind_of (ends_any _ _) ?_ ?_
            · intro fourth _ x _
              apply ends_returned
              intro keys hOutcome
              cases hOutcome
              unfold AtHand
              simp [hFirst.1, hSecond.1, hSome, KeyPlace.keypair]
            · intro fourth error x _ keys hOutcome
              cases hOutcome
          · intro third error t _ keys hOutcome
            cases hOutcome
    · intro second error v _ keys hOutcome
      cases hOutcome
  · intro first error u _ keys hOutcome
    cases hOutcome

------------------------------------------------------------
-- The Keys Of The Configuration
------------------------------------------------------------

/- The keys of a configuration are those of a pair. -/
def HasPair (crypto : Ed25519) (auth : AuthConfig Int) : Prop :=
  ∃ privateKey publicKey,
    auth.jwtPrivateKey = some privateKey ∧
      auth.jwtPublicKey = some publicKey ∧
      crypto.IsPair privateKey publicKey

/- A key that the configuration gives. -/
def given (text : Option JsString) : Option JsString :=
  if isGiven text then text else none

/- What the configuration gives is a pair, together with the
   half of the pair at hand that it leaves out. -/
def KeysAgree
    (crypto : Ed25519)
    (auth : AuthConfig Int)
    (directory : KeyDirectory)
    (steps : List KeyTaken) : Prop :=
  match given auth.jwtPrivateKey, given auth.jwtPublicKey with
  | some privateKey, some publicKey =>
      crypto.IsPair privateKey publicKey
  | some privateKey, none =>
      ∀ pems, AtHand directory steps pems →
        crypto.IsPair privateKey pems.publicKey
  | none, some publicKey =>
      ∀ pems, AtHand directory steps pems →
        crypto.IsPair pems.privateKey publicKey
  | none, none =>
      ∀ pems, AtHand directory steps pems →
        crypto.IsPair pems.privateKey pems.publicKey

theorem atHand_unique
    {pems other : KeyPems}
    (hPems : AtHand directory steps pems)
    (hOther : AtHand directory steps other) :
    other = pems := by
  unfold AtHand at hPems hOther
  cases hDrawn : drawn steps with
  | some generated =>
      rw [hDrawn] at hPems hOther
      exact hOther.trans hPems.symm
  | none =>
      rw [hDrawn] at hPems hOther
      have hPrivate := hOther .privateKey
      have hPublic := hOther .publicKey
      rw [hPems .privateKey] at hPrivate
      rw [hPems .publicKey] at hPublic
      cases pems
      cases other
      simp only [KeyPems.half, Option.some.injEq]
        at hPrivate hPublic
      rw [hPrivate, hPublic]

theorem forall_atHand_iff
    {pems : KeyPems}
    (P : KeyPems → Prop)
    (hPems : AtHand directory steps pems) :
    (∀ other, AtHand directory steps other → P other) ↔
      P pems := by
  constructor
  · intro hAll
    exact hAll pems hPems
  · intro hHere other hOther
    rw [atHand_unique hPems hOther]
    exact hHere

theorem given_of_isGiven
    {text : Option JsString}
    (hGiven : isGiven text = true) :
    ∃ found, text = some found ∧ given text = some found := by
  cases text with
  | none => cases hGiven
  | some found => exact ⟨found, rfl, if_pos hGiven⟩

theorem given_of_not
    {text : Option JsString}
    (hGiven : isGiven text = false) :
    given text = none := by
  unfold given
  rw [hGiven]
  rfl

theorem jwtPrivateKey_withKeys
    (auth : AuthConfig Int)
    (keys : PersistentKeypair) :
    (withKeys auth keys).jwtPrivateKey =
      some ((given auth.jwtPrivateKey).getD keys.privateKeyPem) :=
    by
  have hBoth :
      ∀ other : AuthConfig Int,
        (if !isGiven other.jwtPublicKey then
            { other with
              jwtPublicKey := some keys.publicKeyPem
              jwtPublicKeyPath := some keys.publicKeyPath }
          else other).jwtPrivateKey =
          other.jwtPrivateKey := by
    intro other
    split
    · rfl
    · rfl
  unfold withKeys
  simp only [hBoth]
  cases hGiven : isGiven auth.jwtPrivateKey with
  | true =>
      rcases given_of_isGiven hGiven with ⟨found, hText, hSome⟩
      rw [hSome]
      exact hText
  | false =>
      rw [given_of_not hGiven]
      rfl

theorem jwtPublicKey_withKeys
    (auth : AuthConfig Int)
    (keys : PersistentKeypair) :
    (withKeys auth keys).jwtPublicKey =
      some ((given auth.jwtPublicKey).getD keys.publicKeyPem) :=
    by
  have hBefore :
      (if !isGiven auth.jwtPrivateKey then
          { auth with
            jwtPrivateKey := some keys.privateKeyPem
            jwtPrivateKeyPath := some keys.privateKeyPath }
        else auth).jwtPublicKey =
        auth.jwtPublicKey := by
    split
    · rfl
    · rfl
  unfold withKeys
  simp only [hBefore]
  cases hGiven : isGiven auth.jwtPublicKey with
  | true =>
      rcases given_of_isGiven hGiven with ⟨found, hText, hSome⟩
      rw [hSome]
      exact hBefore.trans hText
  | false =>
      rw [given_of_not hGiven]
      rfl

theorem withKeys_isPair_iff
    (auth : AuthConfig Int)
    (keys : PersistentKeypair) :
    HasPair crypto (withKeys auth keys) ↔
      crypto.IsPair
        ((given auth.jwtPrivateKey).getD keys.privateKeyPem)
        ((given auth.jwtPublicKey).getD keys.publicKeyPem) := by
  unfold HasPair
  rw [jwtPrivateKey_withKeys, jwtPublicKey_withKeys]
  constructor
  · intro hPair
    rcases hPair with ⟨privateKey, publicKey, hPrivate, hPublic, hIs⟩
    cases hPrivate
    cases hPublic
    exact hIs
  · intro hPair
    exact ⟨_, _, rfl, rfl, hPair⟩

/- With the pair at hand for what is left out, the keys are a
   pair just when those given agree with it. -/
theorem hasPair_iff
    {auth : AuthConfig Int}
    {keys : PersistentKeypair}
    (hAtHand :
      AtHand directory steps
        ⟨keys.privateKeyPem, keys.publicKeyPem⟩) :
    HasPair crypto (withKeys auth keys) ↔
      KeysAgree crypto auth directory steps := by
  rw [withKeys_isPair_iff]
  unfold KeysAgree
  cases given auth.jwtPrivateKey with
  | some privateKey =>
      cases given auth.jwtPublicKey with
      | some publicKey => exact Iff.rfl
      | none =>
          exact
            (forall_atHand_iff
              (fun pems => crypto.IsPair privateKey pems.publicKey)
              hAtHand).symm
  | none =>
      cases given auth.jwtPublicKey with
      | some publicKey =>
          exact
            (forall_atHand_iff
              (fun pems => crypto.IsPair pems.privateKey publicKey)
              hAtHand).symm
      | none =>
          exact
            (forall_atHand_iff
              (fun pems =>
                crypto.IsPair pems.privateKey pems.publicKey)
              hAtHand).symm

variable {platform : Platform} {loaded : AppConfig Int}
variable {options : BootstrapOptions}

theorem AtHand.of_quiet
    {before after : List KeyTaken}
    {later : KeyDirectory}
    (hBefore : drawn before = none)
    (hAfter : drawn after = none)
    (hFiles : later.files = directory.files)
    (hAtHand : AtHand later steps pems) :
    AtHand directory (before ++ (steps ++ after)) pems := by
  unfold AtHand at hAtHand ⊢
  rw [drawn_append, drawn_append, hBefore, hAfter,
    Option.none_or, Option.or_none, ← hFiles]
  exact hAtHand

/- A start that ends well ends with the keys given and those
   of the pair at hand. -/
theorem ends_bootstrap :
    Ends (KeyOp.exec crypto) (bootstrap platform loaded options)
      directory fun steps outcome _ =>
        ∀ context, outcome = .ok context →
          (HasPair crypto context.config.auth ↔
            KeysAgree crypto (resolved loaded options).auth
              directory steps) := by
  unfold bootstrap
  simp only [Async.bind_eq]
  refine ends_bind_of (ends_looks (prepare_looks options)) ?_ ?_
  · intro first _ u hFirst
    refine ends_bind_of ends_ensureCryptoKeypair ?_ ?_
    · intro second keys v hKeys
      refine
        ends_bind_of (ends_looks (initDatabase_looks options))
          ?_ ?_
      · intro third _ t hThird
        apply ends_returned
        intro context hOutcome
        cases hOutcome
        rw [List.append_nil]
        apply hasPair_iff
        exact
          AtHand.of_quiet hFirst.1 hThird.1 hFirst.2
            (hKeys keys rfl)
      · intro third error t _ context hOutcome
        cases hOutcome
    · intro second error v _ context hOutcome
      cases hOutcome
  · intro first error u _ context hOutcome
    cases hOutcome

/- Every pair that a call returns is a pair, in every run in
   which no call reads the halves of two; and a start ends
   with a pair just when what it is given agrees with the rest
   of the pair at hand. -/
theorem pairs_match_iff
    (crypto : Ed25519)
    (place : KeyPlace)
    (platform : Platform) :
    (∀ (made : Bool) (p : KeyPool) (i : Nat)
        (keys : PersistentKeypair),
        (keySystem crypto place).Run readsOneWriter
            (Pool.initial (KeyDirectory.fresh made)) p →
          .finished i (.ok keys) ∈ p.world.trace →
            crypto.IsPair keys.privateKeyPem
              keys.publicKeyPem) ∧
      ∀ (loaded : AppConfig Int) (options : BootstrapOptions)
        (directory after : KeyDirectory)
        (steps : List KeyTaken) (context : BootstrapContext),
        Solo (KeyOp.exec crypto)
            (bootstrap platform loaded options) directory steps
            (.ok context) after →
          (HasPair crypto context.config.auth ↔
            KeysAgree crypto (resolved loaded options).auth
              directory steps) := by
  constructor
  · intro made p i keys hRun hFinished
    exact returned_pairs hRun hFinished
  · intro loaded options directory after steps context hSolo
    exact ends_bootstrap steps _ after hSolo context rfl

------------------------------------------------------------
-- Small Instances
------------------------------------------------------------

/- Keys that are numbered by their seeds. -/
def numbered : Ed25519 where
  IsPair := fun privateKey publicKey =>
    ∃ n, privateKey = [0, n] ∧ publicKey = [1, n]
  generate := fun seed =>
    ⟨[0, UInt16.ofNat seed], [1, UInt16.ofNat seed]⟩
  generates := fun seed => ⟨UInt16.ofNat seed, rfl, rfl⟩

def keysDir : KeyPlace where
  win32 := false
  resolvedDir := js "/data/keys"
  keyPrefix := js "jwt_ed25519"

def posix : Platform where
  win32 := false
  resolve := id

/- Nothing fails. -/
def drawing (seed : Nat) : KeyChoice := ⟨none, 0, seed⟩

/- `readsOneWriter`, as a test. -/
def oneWriter (i : Nat) (op : KeyOp) (w : KeyWorld) : Bool :=
  match op with
  | .readFile .publicKey =>
      (writerRead i w.trace).isSome &&
        writerOf .publicKey w.trace == writerRead i w.trace
  | _ => true

theorem readsOneWriter_of_oneWriter
    (i : Nat)
    (op : KeyOp)
    (w : KeyWorld)
    (hOne : oneWriter i op w = true) :
    readsOneWriter.perform i op w := by
  intro hOp
  subst hOp
  simp only [oneWriter, Bool.and_eq_true, beq_iff_eq,
    Option.isSome_iff_exists] at hOne
  rcases hOne with ⟨⟨j, hRead⟩, hSame⟩
  exact ⟨j, hRead, hSame.trans hRead⟩

/- A call that generates the pair, up to a point. -/
def generating (i seed count : Nat) : List (Label KeyChoice Unit) :=
  .start i () ::
    List.replicate count (.resume i (drawing seed))

def loadedKeys : PersistentKeypair :=
  keysDir.keypair ⟨[0, 7], [1, 7]⟩ false

/- A configuration with the keys given. -/
def configured
    (privateKey publicKey : Option JsString) :
    AppConfig Int where
  environment := .production
  server :=
    { host := js "0.0.0.0"
      port := 9090
      grpcPort := 50051
      dynamicPort := false
      tls := ⟨false, none, none, false⟩ }
  storage :=
    { dataDir := js "/data"
      stagingRootPath := js "/data/staging"
      doltReposRootPath := js "/data/dolt-repos"
      nasSimPath := js "/data/nas-sim" }
  database :=
    { userDbPath := js "/data/users.db"
      repoDbPath := js "/data/repos.db"
      ticketDbPath := js "/data/transfer-tickets.db"
      transferJobDbPath := js "/data/transfer-jobs.db"
      addonTrustDbPath := js "/data/addon-trust.db"
      sessionDbPath := js "/data/sessions.db" }
  auth :=
    { jwtPrivateKey := privateKey
      jwtPublicKey := publicKey
      jwtPrivateKeyPath := none
      jwtPublicKeyPath := none
      sessionTtlSeconds := 120
      accessTokenTtlSeconds := 900
      corsAllowedOrigins := []
      adminUiEnabled := false
      bootstrapAdminUsername := none
      bootstrapAdminPassword := none }
  logging := ⟨.info, false⟩

def plainStart : BootstrapOptions := ⟨none, false, false⟩

/- A start on an empty directory that goes well. -/
theorem starts
    (privateKey publicKey : Option JsString) :
    ∃ steps after keys,
      Solo (KeyOp.exec numbered)
          (bootstrap posix (configured privateKey publicKey)
            plainStart)
          (KeyDirectory.fresh false) steps
          (.ok
            { config :=
                { configured privateKey publicKey with
                  auth :=
                    withKeys
                      (configured privateKey publicKey).auth
                      keys }
              keys := keys })
          after ∧
        drawn steps = some ⟨[0, 7], [1, 7]⟩ ∧
        keys.privateKeyPem = [0, 7] ∧
        keys.publicKeyPem = [1, 7] := by
  have hRun :
      ∃ steps after keys,
        solo? (KeyOp.exec numbered)
            (bootstrap posix (configured privateKey publicKey)
              plainStart)
            (KeyDirectory.fresh false)
            (List.replicate 15 (drawing 7)) =
          some
            (steps,
              .ok
                { config :=
                    { configured privateKey publicKey with
                      auth :=
                        withKeys
                          (configured privateKey publicKey).auth
                          keys }
                  keys := keys },
              after) ∧
          drawn steps = some ⟨[0, 7], [1, 7]⟩ ∧
          keys.privateKeyPem = [0, 7] ∧
          keys.publicKeyPem = [1, 7] :=
    ⟨_, _, _, rfl, rfl, rfl, rfl⟩
  rcases hRun with ⟨steps, after, keys, hSolo, hRest⟩
  exact ⟨steps, after, keys, solo_of_solo? hSolo, hRest⟩

theorem accepted_configured_private :
    Accepted (configured (some [0, 9]) none).auth := by
  constructor
  · decide
  · decide
  · decide
  · rfl

/- A process that crashes between opening and writing the
   public key leaves an empty one to every later call; and a
   start that is given the private key alone ends with that
   key and the public one of the directory. -/
theorem unmatched_keys :
    (∃ p keys,
        (keySystem numbered keysDir).Run .everything
            (Pool.initial (KeyDirectory.fresh true)) p ∧
          .finished 2 (.ok keys) ∈ p.world.trace ∧
          ¬ numbered.IsPair keys.privateKeyPem
            keys.publicKeyPem) ∧
      ∃ steps context after,
        Accepted (configured (some [0, 9]) none).auth ∧
          Solo (KeyOp.exec numbered)
            (bootstrap posix (configured (some [0, 9]) none)
              plainStart)
            (KeyDirectory.fresh false) steps (.ok context)
            after ∧
          ¬ HasPair numbered context.config.auth := by
  constructor
  · have hReplay :
        ∃ p keys,
          (keySystem numbered keysDir).replay?
              (Pool.initial (KeyDirectory.fresh true))
              (generating 1 7 6 ++ generating 2 8 5) =
            some p ∧
            p.world.trace.head? =
              some (.finished 2 (.ok keys)) ∧
            keys.publicKeyPem = [] :=
      ⟨_, _, rfl, rfl, rfl⟩
    rcases hReplay with ⟨p, keys, hReplay, hHead, hEmpty⟩
    refine ⟨p, keys, System.run_of_replay? hReplay, ?_, ?_⟩
    · exact List.mem_of_mem_head? hHead
    · intro hPair
      rcases hPair with ⟨n, _, hPublic⟩
      rw [hEmpty] at hPublic
      cases hPublic
  · rcases starts (some [0, 9]) none with
      ⟨steps, after, keys, hSolo, _, _, hPublicPem⟩
    refine
      ⟨steps, _, after, accepted_configured_private, hSolo, ?_⟩
    intro hPair
    rw [withKeys_isPair_iff, hPublicPem] at hPair
    rcases hPair with ⟨n, hPrivate, hPublic⟩
    have hNine : n = 9 := by
      simpa [configured, given, isGiven, eq_comm] using hPrivate
    have hSeven : n = 7 := by
      simpa [configured, given, isGiven, eq_comm] using hPublic
    rw [hNine] at hSeven
    revert hSeven
    decide

/- Two calls, one after the other, and a start that is given
   no key. -/
theorem pairs_match_iff_fresh :
    (∃ p,
        (keySystem numbered keysDir).Run readsOneWriter
            (Pool.initial (KeyDirectory.fresh false)) p ∧
          .finished 2 (.ok loadedKeys) ∈ p.world.trace ∧
          numbered.IsPair loadedKeys.privateKeyPem
            loadedKeys.publicKeyPem) ∧
      ∃ steps context after,
        Solo (KeyOp.exec numbered)
            (bootstrap posix (configured none none) plainStart)
            (KeyDirectory.fresh false) steps (.ok context)
            after ∧
          HasPair numbered context.config.auth := by
  constructor
  · have hReplay :
        ∃ p : KeyPool,
          (keySystem numbered keysDir).replay?
              (Pool.initial (KeyDirectory.fresh false))
              (generating 1 7 10 ++ generating 2 8 5) =
            some p ∧
            p.world.trace.head? =
              some (.finished 2 (.ok loadedKeys)) :=
      ⟨_, rfl, rfl⟩
    rcases hReplay with ⟨p, hReplay, hHead⟩
    have hChecks :
        (keySystem numbered keysDir).checks oneWriter
            (Pool.initial (KeyDirectory.fresh false))
            (generating 1 7 10 ++ generating 2 8 5) =
          true := by
      decide +kernel
    have hRun :=
      System.run_of_checks (fun _ _ _ _ => trivial)
        readsOneWriter_of_oneWriter hChecks hReplay
    have hFinished : .finished 2 (.ok loadedKeys) ∈ p.world.trace :=
      List.mem_of_mem_head? hHead
    exact
      ⟨p, hRun, hFinished,
        (pairs_match_iff numbered keysDir posix).1 false p 2
          loadedKeys hRun hFinished⟩
  · rcases starts none none with
      ⟨steps, after, keys, hSolo, hDrawn, _, _⟩
    refine ⟨steps, _, after, hSolo, ?_⟩
    apply
      ((pairs_match_iff numbered keysDir posix).2 _ _ _ _ _ _
        hSolo).mpr
    intro pems hAtHand
    unfold AtHand at hAtHand
    rw [hDrawn] at hAtHand
    rw [hAtHand]
    exact ⟨7, rfl, rfl⟩

end Bootstrap
