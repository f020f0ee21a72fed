import Deltix.Concurrency.Solo
import Deltix.Storage.Places
import Deltix.Text.Json
import Deltix.Transfer.NasPaths

/-
  The paths that are made of a repository string: where they
  lie, and which strings share them.

  Key definitions include:
    * `acceptsRepo`
    * `Confined`
    * `Apart`
    * `remainder`

  Key theorems include:
    * `dirPlace_split`
    * `filePlace_names`
    * `confined_iff`
    * `repoPaths_iff`
-/

namespace Transfer

namespace RepoPaths

open Auth Concurrency Storage

/- `repo` of `issueTicketBodySchema`. -/
def acceptsRepo (repo : String) : Bool :=
  1 ≤ (Text.js repo).length && (Text.js repo).length ≤ 512

def stagingFile
    (config : TransferConfig)
    (uuid repo : String) : String :=
  join [config.stagingRootPath, repo, uuid ++ ".staging"]

def nasDirectory
    (config : TransferConfig)
    (repo : String) : String :=
  join [config.nasRootPath, repo]

def nasFile
    (config : TransferConfig)
    (repo : String) : String :=
  finalPath (nasDirectory config repo)

/- A header opens this staging file. -/
theorem stagingFile_opened
    (config : TransferConfig)
    (uuid : String)
    (now : Nat)
    (fails : Bool)
    (sent : PushHeader)
    (ticket : Ticket)
    (session : PushSession) :
    ((SessionStep.ticketConsumed sent ticket).run
        config.stagingRootPath uuid now fails
        session).2.stagingFilePath =
      some (stagingFile config uuid sent.repo) :=
  rfl

variable (cwd : Place)

/- All that is stored for a repository is under the roots. -/
structure Confined
    (config : TransferConfig)
    (uuid repo : String) : Prop where
  stagingFile :
    Below
      (cwd.resolve (stagingFile config uuid repo).toList)
      (cwd.resolve config.stagingRootPath.toList)
  nasDirectory :
    Below
      (cwd.resolve (nasDirectory config repo).toList)
      (cwd.resolve config.nasRootPath.toList)
  nasFile :
    Below
      (cwd.resolve (nasFile config repo).toList)
      (cwd.resolve config.nasRootPath.toList)

/- Neither of two repositories has its file in the directory
   of the other, let alone the same file. -/
structure Apart
    (config : TransferConfig)
    (repo other : String) : Prop where
  files :
    cwd.resolve (nasFile config repo).toList ≠
      cwd.resolve (nasFile config other).toList
  outside :
    ¬ Below
      (cwd.resolve (nasFile config repo).toList)
      (cwd.resolve (nasDirectory config other).toList)
  otherOutside :
    ¬ Below
      (cwd.resolve (nasFile config other).toList)
      (cwd.resolve (nasDirectory config repo).toList)

/- An empty root takes the first separator of the string for
   that of an absolute path. -/
def rebased (root repo : String) : Prop :=
  root = "" ∧ repo.toList.head? = some '/'

instance (root repo : String) : Decidable (rebased root repo) :=
  inferInstanceAs (Decidable (_ ∧ _))

variable (cwd : Place) (root repo : String)

/- The place from which a string is followed. -/
def start : Place :=
  if rebased root repo then Place.top
  else cwd.resolve root.toList

/- The names of the root that a string leaves behind. -/
def left : List Segment :=
  let names := (cwd.resolve root.toList).names
  if rebased root repo then names
  else names.take (climbsOf (stack repo.toList true))

/-
  The names that a string adds, without those that lead back
  into the root, or `none` if they do not.
-/
def remainder : Option (List Segment) :=
  let names := namesOf (stack repo.toList true)
  let again := left cwd root repo
  if again <:+ names then
    some (names.take (names.length - again.length))
  else none

variable {cwd root repo} {more : List Segment}

theorem remainder_eq_some_iff :
    remainder cwd root repo = some more ↔
      namesOf (stack repo.toList true) =
        more ++ left cwd root repo := by
  unfold remainder
  dsimp only
  constructor
  · intro hSome
    split at hSome
    · rename_i hSuffix
      rcases hSuffix with ⟨before, hNames⟩
      rw [← hNames, List.length_append, Nat.add_sub_cancel,
        List.take_left, Option.some.injEq] at hSome
      rw [← hNames, hSome]
    · cases hSome
  · intro hNames
    have hSuffix :
        left cwd root repo <:+
          namesOf (stack repo.toList true) :=
      ⟨more, hNames.symm⟩
    rw [if_pos hSuffix, hNames, List.length_append,
      Nat.add_sub_cancel, List.take_left]

/- Root and directory end alike but for these names. -/
theorem dirPlace_split
    (cwd : Place)
    (root repo : String) :
    ∃ rest,
      ((start cwd root repo).follow repo.toList).names =
          namesOf (stack repo.toList true) ++ rest ∧
        (cwd.resolve root.toList).names =
          left cwd root repo ++ rest := by
  unfold start left
  dsimp only
  by_cases hBased : rebased root repo
  · refine ⟨[], ?_, ?_⟩
    · rw [if_pos hBased, names_follow]
      simp [atop, Place.top]
    · rw [if_pos hBased, List.append_nil]
  · rw [if_neg hBased, if_neg hBased]
    refine
      ⟨(cwd.resolve root.toList).names.drop
        (climbsOf (stack repo.toList true)), ?_, ?_⟩
    · rw [names_follow]
      rfl
    · rw [List.take_append_drop]

/- So the directory is inside if there is a remainder. -/
theorem dirPlace_names_iff :
    ((start cwd root repo).follow repo.toList).names =
        more ++ (cwd.resolve root.toList).names ↔
      remainder cwd root repo = some more := by
  rcases dirPlace_split cwd root repo with
    ⟨rest, hDir, hRoot⟩
  rw [remainder_eq_some_iff, hDir, hRoot, ← List.append_assoc,
    List.append_left_inj]

variable {name : String}

theorem ne_empty_of_accepted
    (hRepo : acceptsRepo repo = true) :
    repo ≠ "" := by
  rintro rfl
  revert hRepo
  decide

theorem joined_repo_ne_nil
    (root : String)
    (hRepo : repo ≠ "") :
    joined [root, repo] ≠ [] :=
  joined_ne_nil (by simp [hRepo])

theorem resolve_joined_repo
    (hRepo : repo ≠ "") :
    cwd.resolve (joined [root, repo]) =
      (start cwd root repo).follow repo.toList := by
  rw [show [root, repo] = [root] ++ [repo] from rfl,
    joined_append [root] hRepo]
  by_cases hRoot : root = ""
  · subst hRoot
    have hEmpty : (cwd.resolve "".toList) = cwd := by
      apply Place.ext_names
      simp [Place.resolve, Place.follow, pushSegment]
    unfold start
    rw [hEmpty, if_pos (by simp)]
    unfold Place.resolve rebased
    simp
  · have hRooted : root.toList ≠ [] := by
      simpa using hRoot
    have hBased : ¬ rebased root repo :=
      fun hBased => hRoot hBased.1
    unfold start
    rw [if_neg (by simp [hRoot]), if_neg hBased,
      Place.resolve_append cwd _ (by simp [joined, hRoot])]
    simp [joined, hRoot]

/- Of a directory. -/
theorem resolve_repo
    (hRepo : repo ≠ "") :
    cwd.resolve (join [root, repo]).toList =
      (start cwd root repo).follow repo.toList := by
  rw [Place.resolve_join cwd (joined_repo_ne_nil root hRepo),
    resolve_joined_repo hRepo]

/- Of a file in it. -/
theorem names_resolve_file
    (hRepo : repo ≠ "")
    (hPlain : PlainName name.toList) :
    (cwd.resolve (join [root, repo, name]).toList).names =
      name.toList ::
        ((start cwd root repo).follow repo.toList).names := by
  have hParts := joined_repo_ne_nil root hRepo
  have hJoined :
      joined [root, repo, name] =
        joined [root, repo] ++ '/' :: name.toList := by
    rw [show [root, repo, name] =
        [root, repo] ++ [name] from rfl,
      joined_append _ (ne_empty_of_plain hPlain),
      if_neg (by simp [hRepo])]
  rw [Place.resolve_join cwd (by simp [hJoined]), hJoined,
    Place.resolve_append cwd _ hParts,
    resolve_joined_repo hRepo]
  show ((name.toList.splitOn '/').foldl (pushSegment false)
    _) = _
  rw [List.splitOn_eq_singleton hPlain.noSlash]
  exact pushSegment_plain hPlain

------------------------------------------------------------
-- Confinement And Distinctness
------------------------------------------------------------

open NasPaths

variable {config : TransferConfig} {cwd : Place}
variable {root repo other uuid : String}
variable {dir inner outer : Place} {name : Segment}
variable {more others : List Segment}

/- A directory lies inside a root if names remain of it. -/
theorem below_dir_iff :
    Below ((start cwd root repo).follow repo.toList)
        (cwd.resolve root.toList) ↔
      ∃ more ≠ [], remainder cwd root repo = some more := by
  unfold Below
  simp only [dirPlace_names_iff]

/- A file in it also where none remain. -/
theorem below_file_iff
    (hFile :
      inner.names =
        name ::
          ((start cwd root repo).follow repo.toList).names) :
    Below inner (cwd.resolve root.toList) ↔
      (remainder cwd root repo).isSome = true := by
  rw [Option.isSome_iff_exists]
  unfold Below
  rw [hFile]
  constructor
  · rintro ⟨names, hNonempty, hNames⟩
    cases names with
    | nil => exact absurd rfl hNonempty
    | cons first rest =>
        have hRest := (List.cons.inj hNames).2
        exact ⟨rest, dirPlace_names_iff.mp hRest⟩
  · rintro ⟨more, hMore⟩
    refine ⟨name :: more, List.cons_ne_nil _ _, ?_⟩
    rw [dirPlace_names_iff.mpr hMore]
    rfl

/- The file of one is in the directory of another if that
   one leads to it or further up. -/
theorem below_names_iff
    (hFile : inner.names = name :: dir.names) :
    Below inner outer ↔ outer.names <:+ dir.names := by
  unfold Below
  rw [hFile]
  constructor
  · rintro ⟨names, hNonempty, hNames⟩
    cases names with
    | nil => exact absurd rfl hNonempty
    | cons first rest =>
        exact ⟨rest, (List.cons.inj hNames).2.symm⟩
  · rintro ⟨rest, hRest⟩
    refine ⟨name :: rest, List.cons_ne_nil _ _, ?_⟩
    rw [List.cons_append, hRest]

theorem suffix_append_iff
    {first second : List Segment}
    (rest : List Segment) :
    first ++ rest <:+ second ++ rest ↔ first <:+ second := by
  constructor
  · rintro ⟨before, hBefore⟩
    rw [← List.append_assoc, List.append_left_inj] at hBefore
    exact ⟨before, hBefore⟩
  · rintro ⟨before, hBefore⟩
    exact ⟨before, by rw [← List.append_assoc, hBefore]⟩

theorem names_stagingFile
    (cwd : Place)
    (config : TransferConfig)
    (hUuid : isRandomText uuid = true)
    (hRepo : acceptsRepo repo = true) :
    (cwd.resolve (stagingFile config uuid repo).toList).names =
      (uuid ++ ".staging").toList ::
        ((start cwd config.stagingRootPath repo).follow
          repo.toList).names :=
  names_resolve_file (ne_empty_of_accepted hRepo)
    (plain_stagingName hUuid)

theorem resolve_nasDirectory
    (cwd : Place)
    (config : TransferConfig)
    (hRepo : acceptsRepo repo = true) :
    cwd.resolve (nasDirectory config repo).toList =
      (start cwd config.nasRootPath repo).follow
        repo.toList :=
  resolve_repo (ne_empty_of_accepted hRepo)

theorem names_nasFile
    (cwd : Place)
    (config : TransferConfig)
    (hRepo : acceptsRepo repo = true) :
    (cwd.resolve (nasFile config repo).toList).names =
      visibleName.toList ::
        ((start cwd config.nasRootPath repo).follow
          repo.toList).names := by
  unfold nasFile nasDirectory
  rw [finalPath_eq]
  exact
    names_resolve_file (ne_empty_of_accepted hRepo)
      plain_visibleName

/- What a string must be like to stay under both roots. -/
def Enters
    (cwd : Place)
    (config : TransferConfig)
    (repo : String) : Prop :=
  (remainder cwd config.stagingRootPath repo).isSome = true ∧
    ∃ more ≠ [],
      remainder cwd config.nasRootPath repo = some more

/- What two strings must be like to keep out of the way of
   each other. -/
def Diverge
    (cwd : Place)
    (config : TransferConfig)
    (repo other : String) : Prop :=
  ∀ more others,
    remainder cwd config.nasRootPath repo = some more →
      remainder cwd config.nasRootPath other = some others →
        ¬ more <:+ others ∧ ¬ others <:+ more

theorem confined_iff
    (hUuid : isRandomText uuid = true)
    (hRepo : acceptsRepo repo = true) :
    Confined cwd config uuid repo ↔
      Enters cwd config repo := by
  have hStaging := names_stagingFile cwd config hUuid hRepo
  have hDir := resolve_nasDirectory cwd config hRepo
  have hFile := names_nasFile cwd config hRepo
  constructor
  · intro hConfined
    have hInside := hConfined.stagingFile
    have hBelow := hConfined.nasDirectory
    rw [hDir] at hBelow
    exact
      ⟨(below_file_iff hStaging).mp hInside,
        below_dir_iff.mp hBelow⟩
  · intro hEnters
    constructor
    · exact (below_file_iff hStaging).mpr hEnters.1
    · rw [hDir]
      exact below_dir_iff.mpr hEnters.2
    · apply (below_file_iff hFile).mpr
      rcases hEnters.2 with ⟨more, _, hMore⟩
      rw [hMore]
      rfl

theorem below_other_iff
    (hRepo : acceptsRepo repo = true)
    (hOther : acceptsRepo other = true)
    (hMore : remainder cwd config.nasRootPath repo = some more)
    (hOthers :
      remainder cwd config.nasRootPath other = some others) :
    Below (cwd.resolve (nasFile config repo).toList)
        (cwd.resolve (nasDirectory config other).toList) ↔
      others <:+ more := by
  rw [below_names_iff (names_nasFile cwd config hRepo),
    resolve_nasDirectory cwd config hOther,
    dirPlace_names_iff.mpr hMore,
    dirPlace_names_iff.mpr hOthers, suffix_append_iff]

/- Two strings with one file have one directory. -/
theorem names_of_nasFile_eq
    (hRepo : acceptsRepo repo = true)
    (hOther : acceptsRepo other = true)
    (hMore : remainder cwd config.nasRootPath repo = some more)
    (hOthers :
      remainder cwd config.nasRootPath other = some others)
    (hSame :
      cwd.resolve (nasFile config repo).toList =
        cwd.resolve (nasFile config other).toList) :
    more = others := by
  have hNames := congrArg Place.names hSame
  rw [names_nasFile cwd config hRepo,
    names_nasFile cwd config hOther,
    dirPlace_names_iff.mpr hMore,
    dirPlace_names_iff.mpr hOthers] at hNames
  exact List.append_cancel_right (List.cons.inj hNames).2

theorem apart_iff
    (hRepo : acceptsRepo repo = true)
    (hOther : acceptsRepo other = true)
    (hMore : remainder cwd config.nasRootPath repo = some more)
    (hOthers :
      remainder cwd config.nasRootPath other = some others) :
    Apart cwd config repo other ↔
      ¬ more <:+ others ∧ ¬ others <:+ more := by
  have hInside := below_other_iff hRepo hOther hMore hOthers
  have hOtherInside :=
    below_other_iff hOther hRepo hOthers hMore
  constructor
  · intro hApart
    constructor
    · intro hSuffix
      exact hApart.otherOutside (hOtherInside.mpr hSuffix)
    · intro hSuffix
      exact hApart.outside (hInside.mpr hSuffix)
  · rintro ⟨hDown, hUp⟩
    constructor
    · intro hSame
      have hEq :=
        names_of_nasFile_eq hRepo hOther hMore hOthers hSame
      exact hDown (hEq ▸ List.suffix_rfl)
    · exact fun hBelow => hUp (hInside.mp hBelow)
    · exact fun hBelow => hDown (hOtherInside.mp hBelow)

/-
  The paths of two strings are under their roots and out of
  each other's way exactly if the strings lead into the roots
  and neither of their remainders goes on from the other.
-/
theorem repoPaths_iff
    (cwd : Place)
    (config : TransferConfig)
    (uuid repo other : String)
    (hUuid : isRandomText uuid = true)
    (hRepo : acceptsRepo repo = true)
    (hOther : acceptsRepo other = true) :
    (Confined cwd config uuid repo ↔
        Enters cwd config repo) ∧
      (Confined cwd config uuid repo ∧
            Confined cwd config uuid other ∧
            Apart cwd config repo other ↔
          Enters cwd config repo ∧
            Enters cwd config other ∧
            Diverge cwd config repo other) := by
  have hConfined :
      Confined cwd config uuid repo ↔
        Enters cwd config repo :=
    confined_iff hUuid hRepo
  refine ⟨hConfined, ?_⟩
  rw [hConfined, confined_iff hUuid hOther]
  constructor
  · rintro ⟨hEnters, hOtherEnters, hApart⟩
    refine ⟨hEnters, hOtherEnters, ?_⟩
    intro more others hMore hOthers
    exact (apart_iff hRepo hOther hMore hOthers).mp hApart
  · rintro ⟨hEnters, hOtherEnters, hDiverge⟩
    refine ⟨hEnters, hOtherEnters, ?_⟩
    rcases hEnters.2 with ⟨more, _, hMore⟩
    rcases hOtherEnters.2 with ⟨others, _, hOthers⟩
    exact
      (apart_iff hRepo hOther hMore hOthers).mpr
        (hDiverge more others hMore hOthers)

/- Two plain names. -/
theorem repoPaths_iff_two :
    Confined Place.top smallConfig "upload" "a" ∧
      Confined Place.top smallConfig "upload" "b" ∧
      Apart Place.top smallConfig "a" "b" := by
  have hBoth :=
    repoPaths_iff Place.top smallConfig "upload" "a" "b"
      (by decide) (by decide) (by decide)
  have hFirst :
      remainder Place.top smallConfig.nasRootPath "a" =
        some [['a']] := by decide
  have hSecond :
      remainder Place.top smallConfig.nasRootPath "b" =
        some [['b']] := by decide
  apply hBoth.2.mpr
  refine
    ⟨⟨by decide, _, List.cons_ne_nil _ _, hFirst⟩,
      ⟨by decide, _, List.cons_ne_nil _ _, hSecond⟩, ?_⟩
  intro more others hMore hOthers
  rw [hFirst, Option.some.injEq] at hMore
  rw [hSecond, Option.some.injEq] at hOthers
  subst hMore hOthers
  decide

open Auth Concurrency

/- A user without a role. -/
def withEve : TransferState :=
  { withRole .writer with
    db :=
      { users :=
          { rows :=
              [ { username := "eve"
                  passwordHash := ""
                  createdAt := 0
                  createdBy := "root"
                  active := true
                  lastLoginAt := none
                  isGlobalAdmin := false
                  canCreateRepos := false } ]
            distinct := by simp }
        roles := Relational.KeyedTable.empty
        foreignKeys := false } }

/- A role on `..` is granted, used for a push, and the push
   is synced. -/
def climbingPush : List (Label TransferChoice TransferCall) :=
  .start 0 (.grantRepoRole "eve" ".." .writer "root") ::
      List.replicate 3 (.resume 0 (draw "")) ++
    .start 1
        (.postPushTicket (some "eve")
          (some ⟨.push, "..", none⟩)) ::
      .resume 1 (draw "") ::
      List.replicate 4 (.resume 1 (draw "t")) ++
    .start 2
        (.push [.header ⟨"t", "push", ".."⟩, .chunk [1]]
          true) ::
      List.replicate 17 (.resume 2 (draw "upload")) ++
    .start 3 .processNext ::
      List.replicate 10 (.resume 3 (draw "tmp"))

theorem climbingPush_runs :
    ((transferSystem smallConfig).replay?
      (Pool.initial withEve) climbingPush).any (fun q =>
        roleOn q.world.state.db "eve" ".." = some .writer ∧
          q.world.state.files "/upload.staging" = some [1] ∧
          q.world.state.files "/repo.dolt" = some [1]) =
      true := by
  decide +kernel

/-
  The files of `..` are above the roots, whose own files are
  under `/staging` and `/nas`, and `a` and `./a` share theirs.
-/
theorem climbing_repo_escapes :
    (∃ q,
      (transferSystem smallConfig).replay?
          (Pool.initial withEve) climbingPush = some q ∧
        roleOn q.world.state.db "eve" ".." = some .writer ∧
        q.world.state.files "/upload.staging" = some [1] ∧
        q.world.state.files "/repo.dolt" = some [1]) ∧
      acceptsRepo ".." = true ∧
      stagingFile smallConfig "upload" ".." =
        "/upload.staging" ∧
      nasFile smallConfig ".." = "/repo.dolt" ∧
      ¬ Confined Place.top smallConfig "upload" ".." ∧
      acceptsRepo "a" = true ∧
      acceptsRepo "./a" = true ∧
      ¬ Apart Place.top smallConfig "a" "./a" := by
  refine ⟨?_, by decide, by decide, by decide, ?_,
    by decide, by decide, ?_⟩
  · have hRuns := climbingPush_runs
    rw [Option.any_eq_true] at hRuns
    rcases hRuns with ⟨q, hRun, hState⟩
    rw [decide_eq_true_eq] at hState
    exact ⟨q, hRun, hState⟩
  · intro hConfined
    have hEnters :=
      (confined_iff (by decide) (by decide)).mp hConfined
    have hNone :
        remainder Place.top smallConfig.stagingRootPath
          ".." = none := by decide
    have hSome := hEnters.1
    rw [hNone] at hSome
    cases hSome
  · intro hApart
    apply hApart.files
    exact congrArg Place.top.resolve
      (congrArg String.toList (by decide))

end RepoPaths

end Transfer
