import Deltix.Concurrency.Disturbed
import Deltix.Versioning.CommitExport
import Deltix.Versioning.HistoryServices
import Deltix.Versioning.ServiceOps

/-
  The strings of a request that are handed to the binary.

  Branches, merges, logs and differences are checked before
  anything is run.  The two routes of the commits hand over
  what they are sent.

  Key definitions include:
    * `AllowListed`
    * `Screens`
    * `VersioningRequest.Guarded`
    * `VersioningRequest.Screened`

  Key theorems include:
    * `clean_of_allowListed`
    * `guarded_checked`
    * `guarded_iff_screened`
-/

------------------------------------------------------------
-- The Allow-List
------------------------------------------------------------

namespace Versioning

/- A branch name or a commit hash, as the services see it. -/
def AllowListed (text : String) : Prop :=
  acceptsBranchName text = true ∨ validCommitHash text = true

/- What would end a literal, or make a name something else. -/
def isMark (c : Char) : Bool :=
  c = '\'' || c = '"' || c = Char.ofNat 96 || c = '\\' ||
    Text.isSpaceCode c.toNat

/- A text that is neither an option nor part of another. -/
structure CleanText (text : String) : Prop where
  noOption : ¬ ['-'] <+: text.toList
  noDots : ¬ ['.', '.'] <:+: text.toList
  noMark : ∀ c ∈ text.toList, isMark c = false

variable {text : String}

theorem allowListed_iff :
    AllowListed text ↔ acceptsBranchName text = true := by
  constructor
  · intro hListed
    rcases hListed with hBranch | hHash
    · exact hBranch
    · exact acceptsBranchName_of_hash hHash
  · intro hBranch
    exact Or.inl hBranch

instance : Decidable (AllowListed text) :=
  decidable_of_iff _ allowListed_iff.symm

theorem not_mark_of_branchChar
    {c : Char}
    (hChar : isBranchChar c = true) :
    isMark c = false := by
  have hSpace := not_space_of_branchChar hChar
  unfold isMark
  rw [hSpace, Bool.or_false]
  simp only [Bool.or_eq_false_iff, decide_eq_false_iff_not]
  refine ⟨⟨⟨?_, ?_⟩, ?_⟩, ?_⟩
  all_goals
    intro hSame
    rw [hSame] at hChar
    revert hChar
    decide

/- The list keeps out what the binary could misread. -/
theorem clean_of_allowListed (hListed : AllowListed text) :
    CleanText text := by
  rw [allowListed_iff] at hListed
  unfold acceptsBranchName at hListed
  simp only [Bool.and_eq_true, Bool.not_eq_true',
    decide_eq_false_iff_not] at hListed
  constructor
  · intro hOption
    have hValid := hListed.1.1
    unfold validBranch at hValid
    rcases hOption with ⟨rest, hText⟩
    rw [← hText] at hValid
    simp only [List.cons_append, List.nil_append,
      Bool.and_eq_true] at hValid
    exact absurd hValid.1.1 (by decide)
  · exact hListed.1.2
  · intro c hMember
    apply not_mark_of_branchChar
    exact branchChars_of_validBranch hListed.1.1 c hMember

/- The positional arguments of an invocation and the refs in
   its statement, as far as a request supplies them. -/
def DoltStatement.suppliedArgs : DoltStatement → List String
  | .branchHead branch => [branch]
  | .checkout name => [name]
  | .checkoutNew branch => [branch]
  | .importRows table _ => [table]
  | .add tables => tables
  | .createBranch branch => [branch]
  | .deleteBranch branch => [branch]
  | .merge source => [source]
  | _ => []

/- What an operation hands to the binary, if it runs it. -/
def VersioningOp.invocation :
    VersioningOp → Option (List String)
  | .dolt statement => some statement.suppliedArgs
  | _ => none

/- Tables and hashes are those the binary has listed. -/
def ExportOp.invocation : ExportOp → Option (List String)
  | .getRepo _ => none
  | .branchHead branch => some [branch]
  | .commitsSince branch fromHash =>
      some (branch :: fromHash.toList)
  | .diffSummary _ => some []
  | .showCreate _ _ => some []
  | .selectAll _ _ => some []
  | .announce _ => none
  | .emit _ => none

def HistoryOp.invocation : HistoryOp → Option (List String)
  | .getRepo _ => none
  | .branchNames => some []
  | .currentBranch => some []
  | .readLog branchName _ => some branchName.toList
  | .diffSummary fromRef toRef => some [fromRef, toRef]
  | .diffDetail fromRef toRef _ => some [fromRef, toRef]

------------------------------------------------------------
-- Screened Computations
------------------------------------------------------------

open Concurrency

variable {Op : Type} {Ret : Op → Type}
variable {State Choice Error Value : Type}

/- The steps of a run that keep the allow-list. -/
structure KeepsList
    (invocation : Op → Option (List String))
    (steps : List (DisturbedTaken Op Ret State Choice)) :
    Prop where
  listed :
    ∀ step ∈ steps, ∀ args, invocation step.op = some args →
      ∀ arg ∈ args, AllowListed arg ∧ CleanText arg

/- A run that is refused before anything is invoked. -/
structure RefusedEarly
    (invocation : Op → Option (List String))
    (steps : List (DisturbedTaken Op Ret State Choice))
    (outcome : Except Error (Option Value)) : Prop where
  none_invoked : ∀ step ∈ steps, invocation step.op = none
  not_served : ∀ value, outcome ≠ .ok (some value)

/-
  Whatever other tasks do meanwhile, all that reaches the
  binary is on the allow-list, and with a string that is not
  the request is refused before the first invocation.
-/
def Screens
    (invocation : Op → Option (List String))
    (exec : (op : Op) → Choice → State → Option (Ret op × State))
    (strings : List String)
    (program : Async Op Ret Error (Option Value)) : Prop :=
  ∀ s steps outcome t,
    Solo (disturbed exec) program s steps outcome t →
      KeepsList invocation steps ∧
        ((∃ text ∈ strings, ¬ AllowListed text) →
          RefusedEarly invocation steps outcome)

/- A route that may refuse a request by itself. -/
def served
    (accepts : Bool)
    (service : Async Op Ret Error Value) :
    Async Op Ret Error (Option Value) :=
  if accepts then service.bind fun value => .returned (some value)
  else .returned none

variable {invocation : Op → Option (List String)}
variable
  {exec : (op : Op) → Choice → State → Option (Ret op × State)}
variable {strings : List String} {accepts : Bool}
variable {service : Async Op Ret Error Value}
variable {op : Op} {Other : Type}
variable {first : Async Op Ret Error Other}
variable {next : Other → Async Op Ret Error Value}
variable {resume : Ret op → Async Op Ret Error Value}

/- An operation that only hands over some strings. -/
def Supplies
    (invocation : Op → Option (List String))
    (strings : List String)
    (op : Op) : Prop :=
  ∀ args, invocation op = some args → ∀ arg ∈ args, arg ∈ strings

theorem supplies_of_none
    (hNone : invocation op = none) :
    Supplies invocation strings op := by
  intro args hSome
  rw [hNone] at hSome
  cases hSome

theorem keepsList_of_none
    {steps : List (DisturbedTaken Op Ret State Choice)}
    (hNone : ∀ step ∈ steps, invocation step.op = none) :
    KeepsList invocation steps := by
  constructor
  intro step hMember args hArgs
  rw [hNone step hMember] at hArgs
  cases hArgs

/- With only listed strings, only these are handed over. -/
theorem screens_of_listed
    (hOnly : service.Only (Supplies invocation strings))
    (hListed : ∀ text ∈ strings, AllowListed text) :
    Screens invocation exec strings
      (served accepts service) := by
  have hRoute :
      (served accepts service).Only
        (Supplies invocation strings) := by
    unfold served
    split
    · exact Async.only_bind hOnly fun _ =>
        Async.only_returned _
    · exact Async.only_returned none
  intro s steps outcome t hSolo
  constructor
  · constructor
    intro step hMember args hArgs arg hArg
    have hOf := Solo.only hRoute hSolo step hMember args hArgs
    have hText := hListed arg (hOf arg hArg)
    exact ⟨hText, clean_of_allowListed hText⟩
  · rintro ⟨text, hMember, hBad⟩
    exact absurd (hListed text hMember) hBad

/- The end of a service that has invoked nothing. -/
def Refusal
    (invocation : Op → Option (List String))
    (steps : List (DisturbedTaken Op Ret State Choice))
    (outcome : Except Error Value) : Prop :=
  (∀ step ∈ steps, invocation step.op = none) ∧
    ∃ error, outcome = .error error

/- A service that refuses before it invokes anything. -/
def Refuses
    (invocation : Op → Option (List String))
    (exec : (op : Op) → Choice → State → Option (Ret op × State))
    (service : Async Op Ret Error Value) : Prop :=
  ∀ s,
    Ends (disturbed exec) service s fun steps outcome _ =>
      Refusal invocation steps outcome

theorem refuses_threw (error : Error) :
    Refuses invocation exec
      (.threw error : Async Op Ret Error Value) := by
  intro s
  apply ends_threw
  constructor
  · intro step hMember
    cases hMember
  · exact ⟨error, rfl⟩

/- What comes before the refusal invokes nothing. -/
theorem refuses_bind
    (hFirst : first.Only fun op => invocation op = none)
    (hNext : ∀ value, Refuses invocation exec (next value)) :
    Refuses invocation exec (first.bind next) := by
  intro s
  apply ends_bind
  intro steps outcome u hSolo
  have hQuiet := Solo.only hFirst hSolo
  cases outcome with
  | error error => exact ⟨hQuiet, error, rfl⟩
  | ok value =>
      refine ends_mono (hNext value u) ?_
      rintro more ended t ⟨hMore, hError⟩
      refine ⟨?_, hError⟩
      intro step hMember
      rcases List.mem_append.mp hMember with hEarly | hLate
      · exact hQuiet step hEarly
      · exact hMore step hLate

/- Nothing comes after it. -/
theorem refuses_bind_left
    (hFirst : Refuses invocation exec first) :
    Refuses invocation exec (first.bind next) := by
  intro s
  refine ends_bind_of (hFirst s) ?_ ?_
  · rintro steps value u ⟨_, error, hSame⟩
    cases hSame
  · rintro steps error u ⟨hQuiet, _⟩
    exact ⟨hQuiet, error, rfl⟩

theorem refuses_ensure
    {condition : Bool}
    {error : Error}
    (hFails : condition = false) :
    Refuses invocation exec
      (Async.ensure condition error :
        Async Op Ret Error Unit) := by
  rw [hFails]
  exact refuses_threw error

/- The refusal may depend on an answer. -/
theorem refuses_await
    (hOp : invocation op = none)
    (hRest :
      ∀ choice found answer next,
        exec op choice found = some (answer, next) →
          Refuses invocation exec (resume answer)) :
    Refuses invocation exec (.await op resume) := by
  intro s
  apply ends_await
  intro choice answer next hExec
  have hRefuses :=
    hRest choice.choice choice.found answer next hExec
  refine ends_mono (hRefuses next) ?_
  rintro steps outcome t ⟨hQuiet, hError⟩
  refine ⟨?_, hError⟩
  rw [List.forall_mem_cons]
  exact ⟨hOp, hQuiet⟩

theorem screens_of_refuses
    (hRefuses :
      accepts = true → Refuses invocation exec service) :
    Screens invocation exec strings
      (served accepts service) := by
  intro s steps outcome t hSolo
  have hRefused : RefusedEarly invocation steps outcome := by
    unfold served at hSolo
    cases hAccepts : accepts with
    | false =>
        rw [hAccepts] at hSolo
        cases hSolo
        constructor
        · intro step hMember
          cases hMember
        · intro value hSame
          cases hSame
    | true =>
        rw [hAccepts] at hSolo
        have hService :
            Refuses invocation exec
              (service.bind fun value =>
                .returned (some value)) :=
          refuses_bind_left (hRefuses hAccepts)
        rcases hService s steps outcome t hSolo with
          ⟨hQuiet, error, hSame⟩
        refine ⟨hQuiet, ?_⟩
        intro value hOther
        rw [hSame] at hOther
        cases hOther
  exact ⟨keepsList_of_none hRefused.none_invoked,
    fun _ => hRefused⟩

/- Listed strings are handed over, others refused. -/
theorem screens_of_check
    (hOnly : service.Only (Supplies invocation strings))
    (hRefuses :
      (∃ text ∈ strings, ¬ AllowListed text) →
        Refuses invocation exec service) :
    Screens invocation exec strings
      (served accepts service) := by
  by_cases hListed : ∀ text ∈ strings, AllowListed text
  · exact screens_of_listed hOnly hListed
  · have hBad : ∃ text ∈ strings, ¬ AllowListed text := by
      simpa using hListed
    exact screens_of_refuses fun _ => hRefuses hBad

/- A computation that has runs with an invocation. -/
def Invokes
    (invocation : Op → Option (List String))
    (exec : (op : Op) → Choice → State → Option (Ret op × State))
    (service : Async Op Ret Error Value) : Prop :=
  ∀ s, ∃ steps outcome t,
    Solo (disturbed exec) service s steps outcome t ∧
      ∃ step ∈ steps, invocation step.op ≠ none

/- An operation can be performed in some state. -/
def Performable
    (exec :
      (op : Op) → Choice → State → Option (Ret op × State)) :
    Prop :=
  ∀ op (_ : State), ∃ choice found answer v,
    exec op choice found = some (answer, v)

theorem only_everything (body : Async Op Ret Error Value) :
    body.Only fun _ => True := by
  induction body with
  | returned value => exact Async.only_returned value
  | threw error => exact Async.only_threw error
  | await op resume ih => exact ⟨trivial, ih⟩

/- A computation whose first operation is an invocation. -/
def StartsInvoking
    (invocation : Op → Option (List String)) :
    Async Op Ret Error Value → Prop
  | .returned _ => False
  | .threw _ => False
  | .await op _ => invocation op ≠ none

theorem starts_bind
    (hFirst : StartsInvoking invocation first) :
    StartsInvoking invocation (first.bind next) := by
  cases first with
  | returned value => exact hFirst.elim
  | threw error => exact hFirst.elim
  | await op resume => exact hFirst

theorem invokes_of_starts
    {body : Async Op Ret Error Value}
    (hCan : Performable exec)
    (hStarts : StartsInvoking invocation body) :
    Invokes invocation exec body := by
  have hAll :
      ∀ op, True → ∀ u : State,
        ∃ choice answer v,
          disturbed exec op choice u = some (answer, v) ∧
            True := by
    intro op _ u
    rcases hCan op u with ⟨choice, found, answer, v, hExec⟩
    exact ⟨⟨choice, found⟩, answer, v, hExec, trivial⟩
  intro s
  cases body with
  | returned value => exact hStarts.elim
  | threw error => exact hStarts.elim
  | await op resume =>
      rcases hCan op s with ⟨choice, found, answer, v, hExec⟩
      rcases exists_solo (fun _ _ => True) (fun _ => trivial)
          (fun _ _ _ _ _ => trivial) hAll
          (only_everything (resume answer)) v with
        ⟨steps, outcome, t, hSolo, _⟩
      have hPerformed :
          disturbed exec op ⟨choice, found⟩ s =
            some (answer, v) :=
        hExec
      exact ⟨_, outcome, t, .await hPerformed hSolo, _,
        List.mem_cons_self, hStarts⟩

/- An operation may come before it. -/
theorem invokes_after
    {choice : Choice}
    {answer : Ret op}
    {found v : State}
    (hExec : exec op choice found = some (answer, v))
    (hRest : Invokes invocation exec (resume answer)) :
    Invokes invocation exec (.await op resume) := by
  intro s
  rcases hRest v with
    ⟨steps, outcome, t, hSolo, step, hMember, hOp⟩
  have hPerformed :
      disturbed exec op ⟨choice, found⟩ s = some (answer, v) :=
    hExec
  exact ⟨_, outcome, t, .await hPerformed hSolo, step,
    List.mem_cons_of_mem _ hMember, hOp⟩

/- An invocation that comes with a string off the list. -/
theorem not_screens
    [Nonempty State]
    (hInvokes :
      Invokes invocation exec (served accepts service))
    (hBad : ∃ text ∈ strings, ¬ AllowListed text) :
    ¬ Screens invocation exec strings
        (served accepts service) := by
  intro hScreens
  have s : State := Classical.arbitrary State
  rcases hInvokes s with
    ⟨steps, outcome, t, hSolo, step, hMember, hOp⟩
  have hRefused := (hScreens s steps outcome t hSolo).2 hBad
  exact hOp (hRefused.none_invoked step hMember)

end Versioning

------------------------------------------------------------
-- Requests
------------------------------------------------------------

namespace Versioning

open Concurrency

/- The routes, with what a request brings along.  The limit
   of a log is the number that the text is taken for. -/
inductive VersioningRoute where
  | listBranches
  | currentBranch
  | createBranch (name : String)
  | checkoutBranch (name : String)
  | deleteBranch (name : String)
  | merge (sourceBranch : String) (targetBranch : Option String)
  | log (branch : Option String) (limit : Option Int)
  | diff (fromRef toRef : String)
  | pushCommits (body : PushCommitsBody)
  | pullCommits (branch fromHash : Option String)

/- The schema of the body, or of the query string. -/
def VersioningRoute.schema : VersioningRoute → Bool
  | .createBranch name => lengthWithin 1 128 name
  | .merge sourceBranch targetBranch =>
      lengthWithin 1 128 sourceBranch &&
        targetBranch.all (lengthWithin 1 128)
  | .log branch limit =>
      branch.all (lengthWithin 1 128) &&
        limit.all fun limit => 1 ≤ limit && limit ≤ 500
  | .diff fromRef toRef =>
      lengthWithin 1 128 fromRef && lengthWithin 1 128 toRef
  | .pushCommits body => pushCommitsBodySchema body
  | _ => true

/- The names of the tables that a push imports. -/
def PushCommitsBody.tableNames
    (body : PushCommitsBody) : List String :=
  body.commits.flatMap fun commit =>
    (importTables commit.tables).map ImportedTable.name

/- The strings that are meant for the binary. -/
def VersioningRoute.strings : VersioningRoute → List String
  | .listBranches => []
  | .currentBranch => []
  | .createBranch name => [name]
  | .checkoutBranch name => [name]
  | .deleteBranch name => [name]
  | .merge sourceBranch targetBranch =>
      sourceBranch :: (namedTarget targetBranch).toList
  | .log branch _ =>
      (branch.filter fun name => name ≠ "").toList
  | .diff fromRef toRef => [fromRef, toRef]
  | .pushCommits body => body.targetBranch :: body.tableNames
  | .pullCommits branch fromHash =>
      branch.getD "main" ::
        (fromHash.filter fun hash => hash ≠ "").toList

/- `granted`: the caller has the role that the route asks
   for. -/
structure VersioningRequest where
  repoId : String
  granted : Bool
  route : VersioningRoute

def VersioningRequest.accepted
    (request : VersioningRequest) : Bool :=
  request.granted && request.route.schema

structure RouteConfig where
  repoId : String
  dolt : DoltConfig
  reserved : String → Bool

def RouteConfig.versioning (config : RouteConfig) :
    VersioningConfig where
  repoId := config.repoId
  dolt := config.dolt

def RouteConfig.exports (config : RouteConfig) :
    ExportConfig where
  repoId := config.repoId
  reserved := config.reserved

variable (config : RouteConfig)

/- Screening of a service that works on the directory. -/
def ScreensChange
    {Value : Type}
    (request : VersioningRequest)
    (service : VersioningProgram Value) : Prop :=
  Screens VersioningOp.invocation
    (VersioningOp.exec config.versioning)
    request.route.strings
    (served request.accepted service)

def ScreensRead
    {Error Value : Type}
    (request : VersioningRequest)
    (service : HistoryProgram Error Value) : Prop :=
  Screens HistoryOp.invocation
    (HistoryOp.exec config.repoId)
    request.route.strings
    (served request.accepted service)

def ScreensExport
    {Value : Type}
    (request : VersioningRequest)
    (service : ExportProgram Value) : Prop :=
  Screens ExportOp.invocation
    (ExportOp.exec config.exports)
    request.route.strings
    (served request.accepted service)

/- The route of the request, which is served as task `i`. -/
def VersioningRequest.Guarded
    (i : Nat)
    (request : VersioningRequest) : Prop :=
  match request.route with
  | .listBranches =>
      ScreensRead config request (listBranches request.repoId)
  | .currentBranch =>
      ScreensChange config request (current request.repoId)
  | .createBranch name =>
      ScreensChange config request
        (createBranch i request.repoId name)
  | .checkoutBranch name =>
      ScreensChange config request
        (checkoutBranch i request.repoId name)
  | .deleteBranch name =>
      ScreensChange config request
        (deleteBranch i request.repoId name)
  | .merge sourceBranch targetBranch =>
      ScreensChange config request
        (merge i request.repoId sourceBranch targetBranch)
  | .log branch limit =>
      ScreensRead config request
        (LogService.listCommits request.repoId branch limit)
  | .diff fromRef toRef =>
      ScreensRead config request
        (DiffService.read request.repoId fromRef toRef)
  | .pushCommits body =>
      ScreensChange config request
        (importCommits request.repoId body.commits body.base
          body.targetBranch)
  | .pullCommits branch fromHash =>
      ScreensExport config request
        (pullCommits request.repoId branch fromHash)

/- The routes of the commits, which check nothing. -/
def VersioningRoute.unchecked : VersioningRoute → Bool
  | .pushCommits _ => true
  | .pullCommits _ _ => true
  | _ => false

/-
  What a request has to be: one that a checked route serves,
  one that is refused for another reason, or one whose
  strings are all listed.
-/
def VersioningRequest.Screened
    (request : VersioningRequest) : Prop :=
  request.route.unchecked = true →
    request.accepted = true →
      request.repoId = config.repoId →
        ∀ text ∈ request.route.strings, AllowListed text

------------------------------------------------------------
-- Checked Services
------------------------------------------------------------

variable {config : RouteConfig} {strings : List String}
variable {i : Nat} {repoId : String}
variable {Op : Type} {invocation : Op → Option (List String)}
variable {op : Op} {name : String}

/- Computations that hand over no other strings. -/
abbrev SuppliesChange (strings : List String) :
    VersioningOp → Prop :=
  Supplies VersioningOp.invocation strings

abbrev SuppliesRead (strings : List String) :
    HistoryOp → Prop :=
  Supplies HistoryOp.invocation strings

theorem supplies_of_args
    {args : List String}
    (hInvocation : invocation op = some args)
    (hArgs : ∀ arg ∈ args, arg ∈ strings) :
    Supplies invocation strings op := by
  intro others hOthers
  rw [hInvocation] at hOthers
  cases hOthers
  exact hArgs

theorem supplies_nothing
    (hInvocation : invocation op = some []) :
    Supplies invocation strings op := by
  apply supplies_of_args hInvocation
  intro arg hArg
  cases hArg

theorem supplies_one
    {text : String}
    (hInvocation : invocation op = some [text])
    (hText : text ∈ strings) :
    Supplies invocation strings op := by
  apply supplies_of_args hInvocation
  intro arg hArg
  rw [List.mem_singleton.mp hArg]
  exact hText

theorem only_exclusive
    {α : Type}
    {action : VersioningProgram α}
    (hAction : action.Only (SuppliesChange strings)) :
    (runExclusive i action).Only (SuppliesChange strings) := by
  have hRelease :
      (perform .release).Only (SuppliesChange strings) :=
    Async.only_call.mpr (supplies_of_none rfl)
  apply Async.only_bind
  · exact Async.only_call.mpr (supplies_of_none rfl)
  intro _
  apply Async.only_bind
  · apply Async.only_catchError hAction
    intro error
    apply Async.only_bind hRelease
    intro _
    exact Async.only_threw error
  · intro value
    apply Async.only_bind hRelease
    intro _
    exact Async.only_returned value

theorem only_lookup :
    (requireRepo repoId).Only (SuppliesChange strings) :=
  only_requireRepo (supplies_of_none rfl)

theorem only_current :
    readCurrentBranchName.Only (SuppliesChange strings) :=
  only_readCurrentBranchName (supplies_nothing rfl)

/- One invocation with a name of the request. -/
theorem only_named
    {statement : DoltStatement}
    {α : Type}
    {next : statement.Answer → VersioningProgram α}
    (hArgs : statement.suppliedArgs = [name])
    (hName : name ∈ strings)
    (hNext :
      ∀ answer, (next answer).Only (SuppliesChange strings)) :
    ((dolt statement).bind next).Only
      (SuppliesChange strings) := by
  apply only_dolt_expect
  · exact supplies_one (congrArg some hArgs) hName
  · exact hNext

theorem only_createBranch
    (hName : name ∈ strings) :
    (createBranch i repoId name).Only
      (SuppliesChange strings) := by
  apply Async.only_bind Async.only_ensure
  intro _
  apply Async.only_bind only_lookup
  intro _
  apply only_exclusive
  apply Async.only_bind
  · apply only_translateErrors
    exact only_named rfl hName fun created =>
      only_answered _ created
  · intro _
    exact only_translateErrors only_current

theorem only_checkoutBranch
    (hName : name ∈ strings) :
    (checkoutBranch i repoId name).Only
      (SuppliesChange strings) := by
  apply Async.only_bind Async.only_ensure
  intro _
  apply Async.only_bind only_lookup
  intro _
  apply only_exclusive
  apply Async.only_bind
  · apply only_translateErrors
    exact only_named rfl hName fun checkout =>
      only_answered _ checkout
  · intro _
    exact Async.only_returned name

theorem only_deleteBranch
    (hName : name ∈ strings) :
    (deleteBranch i repoId name).Only
      (SuppliesChange strings) := by
  apply Async.only_bind Async.only_ensure
  intro _
  apply Async.only_bind only_lookup
  intro _
  apply only_exclusive
  apply Async.only_bind (only_translateErrors only_current)
  intro currentBranch
  apply Async.only_bind Async.only_ensure
  intro _
  apply Async.only_bind Async.only_ensure
  intro _
  apply only_translateErrors
  exact only_named rfl hName fun deleted =>
    only_answered _ deleted

theorem only_merge
    {source : String}
    {target : Option String}
    (hSource : source ∈ strings)
    (hTarget :
      ∀ name, namedTarget target = some name →
        name ∈ strings) :
    (merge i repoId source target).Only
      (SuppliesChange strings) := by
  apply Async.only_bind Async.only_ensure
  intro _
  apply Async.only_bind (only_assertTarget _)
  intro _
  apply Async.only_bind only_lookup
  intro _
  apply only_exclusive
  apply Async.only_bind
  · exact only_intendedTarget (supplies_nothing rfl) _
  intro intended
  apply Async.only_bind
  · apply only_translateMergeErrors
    apply only_runDoltMerge
    · exact supplies_nothing rfl
    · intro name hName
      exact supplies_one rfl (hTarget name hName)
    · exact supplies_one rfl hSource
  intro result
  split_ifs
  · exact only_reportMerge _ _ _ (supplies_nothing rfl)
  · unfold rejectMerge
    split_ifs
    · apply Async.only_bind
      · apply only_runDoltReadConflicts
        · exact supplies_nothing rfl
        · intro name
          exact supplies_nothing rfl
      intro conflicts
      apply Async.only_bind
      · exact only_runDoltMergeAbort (supplies_nothing rfl)
      · intro _
        exact Async.only_threw _
    all_goals exact Async.only_threw _

theorem only_import
    (body : PushCommitsBody) :
    (importCommits repoId body.commits body.base
        body.targetBranch).Only
      (SuppliesChange
        (body.targetBranch :: body.tableNames)) := by
  have hName :
      ∀ commit ∈ body.commits,
        ∀ table ∈ importTables commit.tables,
          table.name ∈ body.targetBranch :: body.tableNames := by
    intro commit hCommit table hTable
    apply List.mem_cons_of_mem
    unfold PushCommitsBody.tableNames
    exact List.mem_flatMap.mpr
      ⟨commit, hCommit, List.mem_map_of_mem hTable⟩
  apply only_importCommits_of
  constructor
  case lookup =>
    intro repoId
    exact supplies_of_none rfl
  case scratch => exact supplies_of_none rfl
  case head => exact supplies_one rfl List.mem_cons_self
  case checkout => exact supplies_one rfl List.mem_cons_self
  case checkoutNew => exact supplies_one rfl List.mem_cons_self
  case importRows =>
    intro commit hCommit table hTable
    exact supplies_one rfl (hName commit hCommit table hTable)
  case add =>
    intro commit hCommit
    apply supplies_of_args rfl
    intro arg hArg
    rcases List.mem_map.mp hArg with ⟨table, hTable, hSame⟩
    rw [← hSame]
    exact hName commit hCommit table hTable
  all_goals
    intros
    exact supplies_nothing rfl

------------------------------------------------------------
-- Services That Read
------------------------------------------------------------

variable {Error : Type}
variable {cond : HistoryOp → Prop} {fromRef toRef : String}

theorem only_answeredOr
    {α : Type}
    (toError : String → Error)
    (answer : Except String α) :
    (answeredOr toError answer).Only cond := by
  cases answer with
  | ok value => exact Async.only_returned value
  | error text => exact Async.only_threw _

theorem only_requireRecord
    {notFound : Error}
    {storeFailed : String → Error}
    (hRepo : cond (.getRepo repoId)) :
    (requireRecord notFound storeFailed repoId).Only cond := by
  apply Async.only_bind Async.only_ensure
  intro _
  apply Async.only_bind (Async.only_call.mpr hRepo)
  intro answer
  apply Async.only_bind (only_answeredOr _ answer)
  intro found
  exact Async.only_ensure

theorem only_listBranches :
    (listBranches repoId).Only (SuppliesRead strings) := by
  apply Async.only_bind
  · exact only_requireRecord (supplies_of_none rfl)
  intro _
  apply Async.only_catchError
  · apply Async.only_bind
    · exact Async.only_call.mpr (supplies_nothing rfl)
    intro listed
    apply Async.only_bind (only_answeredOr _ listed)
    intro stdout
    apply Async.only_bind
    · exact Async.only_call.mpr (supplies_nothing rfl)
    intro current
    apply Async.only_bind (only_answeredOr _ current)
    intro currentBranch
    exact Async.only_returned _
  · intro error
    exact Async.only_threw _

theorem only_current_route :
    (current repoId).Only (SuppliesChange strings) := by
  apply Async.only_bind only_lookup
  intro _
  exact only_translateErrors only_current

theorem only_readCommits
    {branch : Option String}
    (hBranch : ∀ name ∈ branch.toList, name ∈ strings)
    (limit : Nat) :
    (LogService.readCommits branch limit).Only
      (SuppliesRead strings) := by
  unfold LogService.readCommits
  split
  · exact Async.only_threw _
  · apply Async.only_bind
    · exact Async.only_call.mpr (supplies_of_args rfl hBranch)
    intro answer
    apply Async.only_bind (only_answeredOr _ answer)
    intro stdout
    exact only_answeredOr _ _

theorem only_listCommits
    (branch : Option String)
    (limit : Option Int) :
    (LogService.listCommits repoId branch limit).Only
      (SuppliesRead
        (branch.filter fun name => name ≠ "").toList) := by
  apply Async.only_bind
  · exact only_requireRecord (supplies_of_none rfl)
  intro _
  apply Async.only_bind
  · unfold LogService.assertBranch
    split
    · exact Async.only_threw _
    · exact Async.only_returned ()
  intro _
  apply Async.only_bind Async.only_ofExcept
  intro limit
  apply Async.only_catchError
  · exact only_readCommits (fun _ hName => hName) limit
  · intro error
    exact Async.only_threw _

/- Both refs go to every query of a difference. -/
theorem supplies_refs
    {op : HistoryOp}
    (hInvocation : op.invocation = some [fromRef, toRef])
    (hFrom : fromRef ∈ strings)
    (hTo : toRef ∈ strings) :
    SuppliesRead strings op := by
  apply supplies_of_args hInvocation
  intro arg hArg
  rcases List.mem_cons.mp hArg with hSame | hRest
  · rw [hSame]
    exact hFrom
  · rw [List.mem_singleton.mp hRest]
    exact hTo

theorem only_readTables
    (hFrom : fromRef ∈ strings)
    (hTo : toRef ∈ strings)
    (rows : List CsvRow) :
    (DoltDiffCli.readTables fromRef toRef rows).Only
      (SuppliesRead strings) := by
  induction rows with
  | nil => exact Async.only_returned []
  | cons row rest ih =>
      apply Async.only_bind
      · apply Async.only_bind Async.only_ensure
        intro _
        apply Async.only_bind Async.only_ensure
        intro _
        apply Async.only_bind
        · exact
            Async.only_call.mpr (supplies_refs rfl hFrom hTo)
        intro answer
        apply Async.only_bind (only_answeredOr _ answer)
        intro stdout
        apply Async.only_bind (only_answeredOr _ _)
        intro changes
        exact Async.only_returned _
      · intro table
        apply Async.only_bind ih
        intro tables
        exact Async.only_returned _

theorem only_readDiff
    (hFrom : fromRef ∈ strings)
    (hTo : toRef ∈ strings) :
    (DiffService.read repoId fromRef toRef).Only
      (SuppliesRead strings) := by
  apply Async.only_bind Async.only_ensure
  intro _
  apply Async.only_bind Async.only_ensure
  intro _
  apply Async.only_bind
  · exact only_requireRecord (supplies_of_none rfl)
  intro _
  apply Async.only_catchError
  · apply Async.only_bind Async.only_ensure
    intro _
    apply Async.only_bind Async.only_ensure
    intro _
    apply Async.only_bind
    · exact Async.only_call.mpr (supplies_refs rfl hFrom hTo)
    intro answer
    apply Async.only_bind (only_answeredOr _ answer)
    intro stdout
    apply Async.only_bind
    · exact only_readTables hFrom hTo _
    intro tables
    exact Async.only_returned _
  · intro error
    exact Async.only_threw _

variable {branch : String} {fromHash : Option String}

/- The hash that a client sends, if it is not empty. -/
abbrev pulledStrings
    (branch : String)
    (fromHash : Option String) : List String :=
  branch :: (fromHash.filter fun hash => hash ≠ "").toList

theorem only_exportCommit
    (row : JsonRow) :
    (exportCommit row).Only
      (Supplies ExportOp.invocation strings) := by
  apply only_exportRow
  · intro hash
    exact supplies_nothing rfl
  · intro table hash
    exact supplies_nothing rfl
  · intro table hash
    exact supplies_nothing rfl
  · intro commit
    exact supplies_of_none rfl

theorem only_exportCommits
    (branch : String)
    (fromHash : Option String) :
    (runDoltCommitExport branch fromHash).Only
      (Supplies ExportOp.invocation
        (pulledStrings branch fromHash)) := by
  have hAll :
      (queryCommits branch none).Only
        (Supplies ExportOp.invocation
          (pulledStrings branch fromHash)) := by
    apply only_queryCommits
    exact supplies_one rfl List.mem_cons_self
  apply Async.only_bind
  · unfold queryCommitsSince
    split
    · exact hAll
    · rename_i known hKnown
      apply Async.only_bind
      · apply only_attempted
        apply only_queryCommits
        apply supplies_of_args rfl
        rw [← hKnown]
        intro arg hArg
        exact hArg
      · intro rows
        cases rows with
        | some rows => exact Async.only_returned rows
        | none => exact hAll
  · intro rows
    apply Async.only_forEach
    intro row _
    exact only_exportCommit row

theorem only_pull
    (repoId : String)
    (branch fromHash : Option String) :
    (pullCommits repoId branch fromHash).Only
      (Supplies ExportOp.invocation
        (pulledStrings (branch.getD "main") fromHash)) := by
  have hRepo :
      (CommitExport.requireRepo repoId).Only
        (Supplies ExportOp.invocation
          (pulledStrings (branch.getD "main") fromHash)) :=
    only_requireExportRepo (supplies_of_none rfl)
  apply Async.only_bind
  · apply Async.only_bind hRepo
    intro _
    exact
      Async.only_call.mpr
        (supplies_one rfl List.mem_cons_self)
  · intro head
    cases head with
    | none => exact Async.only_threw _
    | some head =>
        apply Async.only_bind
        · exact Async.only_call.mpr (supplies_of_none rfl)
        intro _
        apply Async.only_bind hRepo
        intro _
        exact only_exportCommits _ _

variable {request : VersioningRequest} {name : String}
variable {commits : List ImportedCommit}
variable {base : Option String}

abbrev RefusesChange
    {α : Type}
    (config : RouteConfig)
    (service : VersioningProgram α) : Prop :=
  Refuses VersioningOp.invocation
    (VersioningOp.exec config.versioning) service

abbrev RefusesRead
    {Error α : Type}
    (config : RouteConfig)
    (service : HistoryProgram Error α) : Prop :=
  Refuses HistoryOp.invocation (HistoryOp.exec config.repoId)
    service

theorem not_accepts (hBad : ¬ AllowListed name) :
    acceptsBranchName name = false := by
  rw [allowListed_iff] at hBad
  simpa using hBad

theorem refuses_assertBranchName
    (hBad : ¬ AllowListed name) :
    RefusesChange config (assertBranchName name) :=
  refuses_ensure (not_accepts hBad)

theorem refuses_merge
    {source : String}
    {target : Option String}
    (hBad :
      ∃ text ∈ source :: (namedTarget target).toList,
        ¬ AllowListed text) :
    RefusesChange config (merge i repoId source target) := by
  rcases hBad with ⟨text, hMember, hBad⟩
  rcases List.mem_cons.mp hMember with hSource | hTarget
  · rw [hSource] at hBad
    exact refuses_bind_left (refuses_assertBranchName hBad)
  · apply refuses_bind Async.only_ensure
    intro _
    apply refuses_bind_left
    rw [Option.mem_toList] at hTarget
    rw [hTarget]
    exact refuses_assertBranchName hBad

theorem refuses_listCommits
    {branch : Option String}
    {limit : Option Int}
    (hBad :
      ∃ text ∈ (branch.filter fun name => name ≠ "").toList,
        ¬ AllowListed text) :
    RefusesRead config
      (LogService.listCommits repoId branch limit) := by
  rcases hBad with ⟨text, hMember, hBad⟩
  rw [Option.mem_toList] at hMember
  apply refuses_bind
  · exact only_requireRecord rfl
  intro _
  apply refuses_bind_left
  have hRejected :
      (some text).filter
          (fun name => !LogService.acceptsName name) =
        some text := by
    unfold LogService.acceptsName
    rw [Option.filter_some, acceptsForService_eq,
      not_accepts hBad]
    rfl
  unfold LogService.assertBranch
  rw [hMember, hRejected]
  exact refuses_threw _

theorem refuses_readDiff
    {fromRef toRef : String}
    (hBad : ∃ text ∈ [fromRef, toRef], ¬ AllowListed text) :
    RefusesRead config
      (DiffService.read repoId fromRef toRef) := by
  have hRef :
      ∀ ref, ¬ AllowListed ref →
        RefusesRead config (DiffService.assertRef ref) := by
    intro ref hNot
    apply refuses_ensure
    rw [acceptsRef_eq, not_accepts hNot, Bool.false_and]
  rcases hBad with ⟨text, hMember, hBad⟩
  rcases List.mem_cons.mp hMember with hFrom | hTo
  · rw [hFrom] at hBad
    exact refuses_bind_left (hRef fromRef hBad)
  · rw [List.mem_singleton.mp hTo] at hBad
    apply refuses_bind Async.only_ensure
    intro _
    exact refuses_bind_left (hRef toRef hBad)

/- Another repository is none of this directory. -/
theorem refuses_import
    (hOther : repoId ≠ config.repoId) :
    RefusesChange config
      (importCommits repoId commits base branch) := by
  apply refuses_await
  · rfl
  intro choice found answer next hExec
  simp only [VersioningOp.exec] at hExec
  split at hExec
  · cases hExec
    exact refuses_threw _
  · cases hExec
    have hFound :
        decide (repoId = config.versioning.repoId) = false :=
      decide_eq_false hOther
    rw [hFound]
    exact refuses_threw _

theorem refuses_pull
    {branch : Option String}
    (hOther : repoId ≠ config.repoId) :
    Refuses ExportOp.invocation (ExportOp.exec config.exports)
      (pullCommits repoId branch fromHash) := by
  apply refuses_await
  · rfl
  intro choice found answer next hExec
  simp only [ExportOp.exec] at hExec
  split at hExec
  · cases hExec
    exact refuses_threw _
  · cases hExec
    have hFound :
        decide (repoId = config.exports.repoId) = false :=
      decide_eq_false hOther
    rw [hFound]
    exact refuses_threw _

/- An invocation can fail, and a mutex can be free. -/
theorem performable_change :
    Performable (VersioningOp.exec config.versioning) := by
  intro op s
  cases op with
  | getRepo repoId =>
      exact ⟨⟨⟨true, "", ""⟩, 0⟩, s, .error "", s, rfl⟩
  | now => exact ⟨⟨⟨true, "", ""⟩, 0⟩, s, 0, s, rfl⟩
  | scratch =>
      exact ⟨⟨⟨true, "", ""⟩, 0⟩, s, .error "", s, rfl⟩
  | dolt statement =>
      exact
        ⟨⟨⟨true, "", ""⟩, 0⟩, s, statement.failure "", s, rfl⟩
  | acquire task =>
      exact
        ⟨⟨⟨true, "", ""⟩, 0⟩, ⟨s.repo, none⟩, (),
          ⟨s.repo, some task⟩, rfl⟩
  | release =>
      exact
        ⟨⟨⟨true, "", ""⟩, 0⟩, s, (), ⟨s.repo, none⟩, rfl⟩

theorem performable_export :
    Performable (ExportOp.exec config.exports) := by
  intro op repo
  cases op with
  | branchHead branch =>
      exact ⟨⟨true, "", [], []⟩, repo, none, repo, rfl⟩
  | announce head =>
      exact ⟨⟨true, "", [], []⟩, repo, (), repo, rfl⟩
  | emit commit =>
      exact ⟨⟨true, "", [], []⟩, repo, (), repo, rfl⟩
  | _ =>
      exact ⟨⟨true, "", [], []⟩, repo, .error "", repo, rfl⟩

theorem starts_import
    {commit : ImportedCommit}
    {rest : List ImportedCommit}
    (hTables : commit.tables ≠ [])
    (hBranch : branch ≠ "") :
    StartsInvoking VersioningOp.invocation
      (importAll branch (commit :: rest) "") := by
  unfold importAll
  rw [if_neg hTables]
  apply starts_bind
  apply starts_bind
  unfold checkoutTarget
  rw [if_neg hBranch]
  exact Option.some_ne_none [branch]

/- The lookup of the head or a checkout comes first. -/
theorem invokes_import
    (hCommits : commits ≠ [])
    (hTables : ∀ commit ∈ commits, commit.tables ≠ [])
    (hBranch : branch ≠ "") :
    Invokes VersioningOp.invocation
      (VersioningOp.exec config.versioning)
      (served true
        (importCommits config.repoId commits base
          branch)) := by
  intro s
  have hFound :
      (VersioningOp.getRepo config.repoId).exec
          config.versioning ⟨⟨false, "", ""⟩, 0⟩ s =
        some (.ok true, s) := by
    simp [VersioningOp.exec, RouteConfig.versioning]
  refine invokes_after hFound ?_ s
  apply invokes_of_starts performable_change
  apply starts_bind
  have hSome : decide (commits ≠ []) = true :=
    decide_eq_true hCommits
  simp only [Async.bind_eq, answered, Async.bind_returned,
    Async.ensure, hSome, if_true]
  unfold checkFastForward
  cases pushBase base with
  | some hash =>
      apply starts_bind
      exact Option.some_ne_none [branch]
  | none =>
      cases commits with
      | nil => exact absurd rfl hCommits
      | cons commit rest =>
          rw [List.forall_mem_cons] at hTables
          rw [Async.pure_eq_returned, Async.bind_returned]
          apply starts_bind
          exact starts_import hTables.1 hBranch

theorem invokes_pull (branch fromHash : Option String) :
    Invokes ExportOp.invocation (ExportOp.exec config.exports)
      (served true
        (pullCommits config.repoId branch fromHash)) := by
  intro repo
  have hFound :
      (ExportOp.getRepo config.repoId).exec config.exports
          ⟨false, "", [], []⟩ repo =
        some (.ok true, repo) := by
    simp [ExportOp.exec, RouteConfig.exports]
  refine invokes_after hFound ?_ repo
  apply invokes_of_starts performable_export
  apply starts_bind
  apply starts_bind
  exact Option.some_ne_none [branch.getD "main"]

instance : Nonempty DoltRepo :=
  ⟨⟨.empty, fun _ => none, "main", .empty, .empty, none⟩⟩

instance : Nonempty VersioningState :=
  ⟨⟨Classical.arbitrary DoltRepo, none⟩⟩

------------------------------------------------------------
-- Which Requests Are Guarded
------------------------------------------------------------

/- A name that is the only string of its request. -/
theorem guarded_name
    {α : Type}
    {service : VersioningProgram α}
    {next : Unit → VersioningProgram α}
    (hService : service = (assertBranchName name).bind next)
    (hStrings : request.route.strings = [name])
    (hOnly :
      service.Only (SuppliesChange request.route.strings)) :
    ScreensChange config request service := by
  apply screens_of_check hOnly
  rintro ⟨text, hMember, hBad⟩
  rw [hStrings, List.mem_singleton] at hMember
  rw [hMember] at hBad
  rw [hService]
  exact refuses_bind_left (refuses_assertBranchName hBad)

/- The routes with a check of their own. -/
theorem guarded_checked
    (i : Nat)
    (hChecked : request.route.unchecked = false) :
    request.Guarded config i := by
  rcases request with ⟨repoId, granted, route⟩
  cases route with
  | listBranches =>
      apply screens_of_listed only_listBranches
      intro text hMember
      cases hMember
  | currentBranch =>
      apply screens_of_listed only_current_route
      intro text hMember
      cases hMember
  | createBranch name =>
      apply guarded_name rfl rfl
      exact only_createBranch List.mem_cons_self
  | checkoutBranch name =>
      apply guarded_name rfl rfl
      exact only_checkoutBranch List.mem_cons_self
  | deleteBranch name =>
      apply guarded_name rfl rfl
      exact only_deleteBranch List.mem_cons_self
  | merge source target =>
      apply screens_of_check
      · apply only_merge List.mem_cons_self
        intro name hName
        apply List.mem_cons_of_mem
        exact Option.mem_toList.mpr hName
      · exact refuses_merge
  | log branch limit =>
      apply screens_of_check
      · exact only_listCommits branch limit
      · exact refuses_listCommits
  | diff fromRef toRef =>
      apply screens_of_check
      · apply only_readDiff List.mem_cons_self
        exact List.mem_cons_of_mem _ List.mem_cons_self
      · exact refuses_readDiff
  | pushCommits body => cases hChecked
  | pullCommits branch fromHash => cases hChecked

/- A service without a check is guarded if the requests that
   it is asked to serve need none. -/
theorem screens_iff_of_unchecked
    {Op : Type}
    {Ret : Op → Type}
    {State Choice Value : Type}
    [Nonempty State]
    {invocation : Op → Option (List String)}
    {exec :
      (op : Op) → Choice → State → Option (Ret op × State)}
    {strings : List String}
    {accepts : Bool}
    {found : Prop}
    {service : Async Op Ret Error Value}
    (hOnly : service.Only (Supplies invocation strings))
    (hOther : ¬ found → Refuses invocation exec service)
    (hInvokes :
      accepts = true → found →
        Invokes invocation exec (served true service)) :
    Screens invocation exec strings (served accepts service) ↔
      (accepts = true → found →
        ∀ text ∈ strings, AllowListed text) := by
  constructor
  · intro hScreens hAccepts hFound text hMember
    by_contra hBad
    rw [hAccepts] at hScreens
    exact
      not_screens (hInvokes hAccepts hFound)
        ⟨text, hMember, hBad⟩ hScreens
  · intro hListed
    by_cases hServed : accepts = true ∧ found
    · apply screens_of_listed hOnly
      exact hListed hServed.1 hServed.2
    · apply screens_of_refuses
      intro hAccepts
      exact hOther fun hFound => hServed ⟨hAccepts, hFound⟩

theorem tables_of_schema
    {body : PushCommitsBody}
    (hSchema : pushCommitsBodySchema body = true) :
    body.commits ≠ [] ∧
      (∀ commit ∈ body.commits, commit.tables ≠ []) ∧
      body.targetBranch ≠ "" := by
  unfold pushCommitsBodySchema at hSchema
  simp only [Bool.and_eq_true, List.all_eq_true,
    decide_eq_true_eq] at hSchema
  rcases hSchema with ⟨⟨⟨hCommits, hSome⟩, _⟩, hBranch⟩
  refine ⟨?_, ?_, ?_⟩
  · intro hNone
    rw [hNone] at hSome
    cases hSome
  · intro commit hMember hNone
    have hCommit := hCommits commit hMember
    simp [commitSchema, hNone] at hCommit
  · unfold PushCommitsBody.targetBranch
    intro hEmpty
    cases hGiven : body.branch with
    | none =>
        rw [hGiven] at hEmpty
        exact absurd hEmpty (by decide)
    | some branch =>
        rw [hGiven] at hEmpty hBranch
        rw [Option.getD_some] at hEmpty
        rw [hEmpty] at hBranch
        exact absurd hBranch (by decide)

/-
  The routes of branches, merges, logs and differences are
  guarded.  Those of the commits are when they refuse the
  request anyway, or there is nothing to guard against.
-/
theorem guarded_iff_screened
    (config : RouteConfig)
    (i : Nat)
    (request : VersioningRequest) :
    request.Guarded config i ↔ request.Screened config := by
  cases hUnchecked : request.route.unchecked with
  | false =>
      constructor
      · intro _ hOther
        rw [hUnchecked] at hOther
        cases hOther
      · intro _
        exact guarded_checked i hUnchecked
  | true =>
      have hUnchecks :
          request.Screened config ↔
            (request.accepted = true →
              request.repoId = config.repoId →
                ∀ text ∈ request.route.strings,
                  AllowListed text) := by
        unfold VersioningRequest.Screened
        simp [hUnchecked]
      rw [hUnchecks]
      rcases request with ⟨repoId, granted, route⟩
      cases route with
      | pushCommits body =>
          apply screens_iff_of_unchecked (only_import body)
          · exact refuses_import
          · intro hAccepts hSame
            have hSchema : pushCommitsBodySchema body = true :=
              (Bool.and_eq_true_iff.mp hAccepts).2
            rcases tables_of_schema hSchema with
              ⟨hCommits, hTables, hBranch⟩
            have hRepo : repoId = config.repoId := hSame
            subst hRepo
            exact invokes_import hCommits hTables hBranch
      | pullCommits branch fromHash =>
          apply screens_iff_of_unchecked
          · exact only_pull repoId branch fromHash
          · exact refuses_pull
          · intro _ hSame
            have hRepo : repoId = config.repoId := hSame
            subst hRepo
            exact invokes_pull branch fromHash
      | _ => cases hUnchecked

/- A push may name a branch that is an option. -/
def forcedPush : VersioningRequest where
  repoId := "notes"
  granted := true
  route :=
    .pushCommits
      { commits :=
          [⟨"first", "ada", [⟨"notes", "CREATE", ""⟩]⟩]
        base := none
        branch := some "-f" }

theorem forcedPush_unguarded :
    ¬ forcedPush.Guarded
      ⟨"notes", droppingConfig.dolt, fun _ => false⟩ 0 := by
  have hAccepted : forcedPush.accepted = true := by
    decide +kernel
  unfold VersioningRequest.Guarded ScreensChange
  rw [hAccepted]
  apply not_screens
  · apply invokes_import
    · decide
    · decide
    · decide
  · exact ⟨"-f", List.mem_cons_self, by decide⟩

end Versioning
