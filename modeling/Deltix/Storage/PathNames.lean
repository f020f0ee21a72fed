import Mathlib.Data.List.Basic
import Deltix.Storage.Files

/-
  The last segment of a joined path, and joins of joins.

  Key definitions include:
    * `PlainName`
    * `Reduced`
    * `baseName`

  Key theorems include:
    * `foldl_pushSegment_of_reduced`
    * `normalize_plain`
    * `baseName_join`
    * `join_join`
-/

namespace Storage

/- A segment that `normalize` leaves where it is. -/
structure PlainName (name : Segment) : Prop where
  nonempty : name ≠ []
  noSlash : '/' ∉ name
  notDot : name ≠ ['.']
  notDotDot : name ≠ ['.', '.']

theorem noSlash_of_mem_splitOn
    {path : List Char}
    {segment : Segment}
    (hMember : segment ∈ path.splitOn '/') :
    '/' ∉ segment := by
  induction path generalizing segment with
  | nil =>
      rw [List.splitOn_nil, List.mem_singleton] at hMember
      subst hMember
      exact List.not_mem_nil
  | cons c rest ih =>
      rw [List.splitOn_cons_eq_if_modifyHead] at hMember
      split at hMember
      · rcases List.mem_cons.mp hMember with hEmpty | hRest
        · subst hEmpty
          exact List.not_mem_nil
        · exact ih hRest
      · rename_i hOther
        cases hSplit : rest.splitOn '/' with
        | nil => exact absurd hSplit (List.splitOn_ne_nil _ _)
        | cons first others =>
            rw [hSplit, List.modifyHead_cons] at hMember
            rcases List.mem_cons.mp hMember with hHead | hTail
            · subst hHead
              have hFirst : '/' ∉ first := by
                apply ih
                rw [hSplit]
                exact List.mem_cons_self
              intro hSlash
              rcases List.mem_cons.mp hSlash with hEq | hIn
              · exact hOther (by rw [hEq]; exact beq_self_eq_true _)
              · exact hFirst hIn
            · apply ih
              rw [hSplit]
              exact List.mem_cons_of_mem _ hTail

------------------------------------------------------------
-- Reduced Stacks
------------------------------------------------------------

/-
  The segments that `pushSegment` keeps: plain names, and
  below them the climbs above a relative start.
-/
def Reduced (allowAboveRoot : Bool) : List Segment → Prop
  | [] => True
  | segment :: rest =>
      segment ≠ [] ∧ '/' ∉ segment ∧ segment ≠ ['.'] ∧
        (segment = ['.', '.'] →
          allowAboveRoot = true ∧
            ∀ other ∈ rest, other = ['.', '.']) ∧
        Reduced allowAboveRoot rest

variable {allowAboveRoot : Bool} {kept : List Segment}

theorem reduced_pushSegment
    {segment : Segment}
    (hNoSlash : '/' ∉ segment)
    (hReduced : Reduced allowAboveRoot kept) :
    Reduced allowAboveRoot
      (pushSegment allowAboveRoot kept segment) := by
  unfold pushSegment
  split
  · exact hReduced
  · rename_i hSkipped
    have hNonempty : segment ≠ [] :=
      fun hEq => hSkipped (Or.inl hEq)
    have hNotDot : segment ≠ ['.'] :=
      fun hEq => hSkipped (Or.inr hEq)
    split
    · cases kept with
      | nil =>
          dsimp only
          split
          · rename_i hAllowed
            exact ⟨hNonempty, hNoSlash, hNotDot,
              fun _ => ⟨hAllowed, by simp⟩, trivial⟩
          · trivial
      | cons last rest =>
          dsimp only
          split
          · rename_i hLast
            rcases hReduced.2.2.2.1 hLast with
              ⟨hAllowed, hRest⟩
            refine ⟨hNonempty, hNoSlash, hNotDot, ?_, hReduced⟩
            intro _
            refine ⟨hAllowed, ?_⟩
            intro other hOther
            rcases List.mem_cons.mp hOther with hEq | hIn
            · rw [hEq]
              exact hLast
            · exact hRest other hIn
          · exact hReduced.2.2.2.2
    · rename_i hNotDotDot
      exact ⟨hNonempty, hNoSlash, hNotDot,
        fun hEq => absurd hEq hNotDotDot, hReduced⟩

theorem reduced_foldl
    {segments : List Segment}
    (hNoSlash : ∀ segment ∈ segments, '/' ∉ segment)
    (hReduced : Reduced allowAboveRoot kept) :
    Reduced allowAboveRoot
      (segments.foldl (pushSegment allowAboveRoot) kept) := by
  induction segments generalizing kept with
  | nil => exact hReduced
  | cons segment rest ih =>
      apply ih
      · intro other hOther
        exact hNoSlash other (List.mem_cons_of_mem _ hOther)
      · exact reduced_pushSegment
          (hNoSlash segment List.mem_cons_self) hReduced

/- Going over the segments kept gives them again. -/
theorem foldl_pushSegment_of_reduced
    (hReduced : Reduced allowAboveRoot kept) :
    kept.reverse.foldl (pushSegment allowAboveRoot) [] =
      kept := by
  induction kept with
  | nil => rfl
  | cons segment rest ih =>
      rcases hReduced with
        ⟨hNonempty, _, hNotDot, hDotDot, hRest⟩
      rw [List.reverse_cons, List.foldl_append, ih hRest]
      simp only [List.foldl_cons, List.foldl_nil]
      unfold pushSegment
      rw [if_neg (by simp [hNonempty, hNotDot])]
      by_cases hClimbs : segment = ['.', '.']
      · rw [if_pos hClimbs]
        rcases hDotDot hClimbs with ⟨hAllowed, hOthers⟩
        cases rest with
        | nil => simp [hAllowed]
        | cons last others =>
            simp [hOthers last List.mem_cons_self]
      · rw [if_neg hClimbs]

theorem noSlash_of_reduced
    (hReduced : Reduced allowAboveRoot kept) :
    ∀ segment ∈ kept, '/' ∉ segment := by
  induction kept with
  | nil => simp
  | cons segment rest ih =>
      intro other hOther
      rcases List.mem_cons.mp hOther with hEq | hIn
      · rw [hEq]
        exact hReduced.2.1
      · exact ih hReduced.2.2.2.2 other hIn

theorem nonempty_of_reduced
    (hReduced : Reduced allowAboveRoot kept) :
    ∀ segment ∈ kept, segment ≠ [] := by
  induction kept with
  | nil => simp
  | cons segment rest ih =>
      intro other hOther
      rcases List.mem_cons.mp hOther with hEq | hIn
      · rw [hEq]
        exact hReduced.1
      · exact ih hReduced.2.2.2.2 other hIn

/- The segments of a path that `normalize` keeps. -/
def stack (path : List Char) (allowAboveRoot : Bool) :
    List Segment :=
  (path.splitOn '/').foldl (pushSegment allowAboveRoot) []

theorem reduced_stack
    (path : List Char)
    (allowAboveRoot : Bool) :
    Reduced allowAboveRoot (stack path allowAboveRoot) :=
  reduced_foldl (fun _ hMember =>
    noSlash_of_mem_splitOn hMember) trivial

/- Put the leading separator of an absolute path in front. -/
def rooted (path body : List Char) : List Char :=
  if path.head? = some '/' then '/' :: body else body

def climbs (path : List Char) : Bool :=
  !(path.head? = some '/')

variable {path dir : List Char} {name : Segment}

theorem pushSegment_plain
    (hPlain : PlainName name) :
    pushSegment allowAboveRoot kept name = name :: kept := by
  unfold pushSegment
  rw [if_neg (by simp [hPlain.nonempty, hPlain.notDot]),
    if_neg hPlain.notDotDot]

/- A path that ends in a plain name has no separator last. -/
theorem getLast?_ne_of_plain
    (hPlain : PlainName name)
    (hSuffix : name <:+ path) :
    path.getLast? ≠ some '/' := by
  rcases hSuffix with ⟨before, hPath⟩
  intro hLast
  rw [← hPath, List.getLast?_append] at hLast
  have hName : name.getLast? = some '/' := by
    cases hEnd : name.getLast? with
    | none =>
        exact absurd (List.getLast?_eq_none_iff.mp hEnd)
          hPlain.nonempty
    | some c =>
        rw [hEnd] at hLast
        simpa using hLast
  exact hPlain.noSlash (List.mem_of_getLast? hName)

theorem intercalate_ne_nil
    (kept : List Segment)
    (hPlain : PlainName name) :
    ['/'].intercalate (kept ++ [name]) ≠ [] := by
  cases kept with
  | nil => simpa using hPlain.nonempty
  | cons first rest =>
      cases rest <;> simp

/- What `normalize` makes of it. -/
theorem normalize_of_splitOn
    (before : List Segment)
    (hPlain : PlainName name)
    (hSplit : path.splitOn '/' = before ++ [name])
    (hSuffix : name <:+ path) :
    normalize path =
      rooted path
        (['/'].intercalate
          ((before.foldl (pushSegment (climbs path))
              []).reverse ++ [name])) := by
  have hNonempty : path ≠ [] := by
    rintro rfl
    exact hPlain.nonempty (List.suffix_nil.mp hSuffix)
  have hLast := getLast?_ne_of_plain hPlain hSuffix
  have hBody :
      normalizeString path (climbs path) =
        ['/'].intercalate
          ((before.foldl (pushSegment (climbs path))
              []).reverse ++ [name]) := by
    unfold normalizeString
    rw [hSplit, List.foldl_append, List.foldl_cons,
      List.foldl_nil, pushSegment_plain hPlain,
      List.reverse_cons]
  have hKept :=
    intercalate_ne_nil
      (before.foldl (pushSegment (climbs path)) []).reverse
      hPlain
  unfold normalize
  rw [if_neg hNonempty]
  show (if normalizeString path (climbs path) = [] then _
    else _) = _
  rw [hBody, if_neg hKept]
  unfold rooted
  rw [← hBody]
  dsimp only
  rw [if_neg hLast]
  rfl

theorem normalize_plain
    (dir : List Char)
    (hPlain : PlainName name) :
    normalize (dir ++ '/' :: name) =
      rooted (dir ++ '/' :: name)
        (['/'].intercalate
          ((stack dir (climbs (dir ++ '/' :: name))).reverse ++
            [name])) := by
  apply normalize_of_splitOn _ hPlain
  · rw [List.splitOn_append_cons_self,
      List.splitOn_eq_singleton hPlain.noSlash]
  · exact ⟨dir ++ ['/'], by simp⟩

theorem normalize_name
    (hPlain : PlainName name) :
    normalize name = name := by
  have hNormal :=
    normalize_of_splitOn [] hPlain
      (List.splitOn_eq_singleton hPlain.noSlash)
      List.suffix_rfl
  have hHead : name.head? ≠ some '/' := by
    intro hHead
    exact hPlain.noSlash (List.mem_of_mem_head? hHead)
  rw [hNormal]
  unfold rooted
  rw [if_neg hHead]
  simp

------------------------------------------------------------
-- The Last Segment
------------------------------------------------------------

def baseName (path : String) : Segment :=
  ((path.toList.splitOn '/').getLast?).getD []

variable {name : String}

/- What `join` puts together. -/
def joined (parts : List String) : List Char :=
  ['/'].intercalate
    ((parts.filter fun part => part ≠ "").map String.toList)

theorem toList_join (parts : List String) :
    (join parts).toList = normalize (joined parts) := by
  unfold join joined
  rw [String.toList_ofList]

theorem intercalate_append_name
    {segments : List Segment}
    (hSegments : segments ≠ [])
    (name : Segment) :
    ['/'].intercalate (segments ++ [name]) =
      ['/'].intercalate segments ++ '/' :: name := by
  induction segments with
  | nil => exact absurd rfl hSegments
  | cons first rest ih =>
      cases rest with
      | nil => simp
      | cons second others =>
          have hRest := ih (List.cons_ne_nil _ _)
          simp only [List.cons_append] at hRest
          simp only [List.cons_append,
            List.intercalate_cons_cons, hRest,
            List.append_assoc]

/- A name comes last, behind a separator if need be. -/
theorem joined_append
    (parts : List String)
    (hName : name ≠ "") :
    joined (parts ++ [name]) =
      if parts.filter (fun part => part ≠ "") = [] then
        name.toList
      else joined parts ++ '/' :: name.toList := by
  unfold joined
  rw [List.filter_append, List.map_append]
  split
  · rename_i hEmpty
    rw [hEmpty]
    simp [hName]
  · rename_i hParts
    have hName' :
        ([name].filter fun part => part ≠ "").map
          String.toList = [name.toList] := by
      simp [hName]
    rw [hName', intercalate_append_name (by simpa using hParts)]

theorem joined_ne_nil
    {parts : List String}
    (hParts : parts.filter (fun part => part ≠ "") ≠ []) :
    joined parts ≠ [] := by
  cases hFilter : parts.filter fun part => part ≠ "" with
  | nil => exact absurd hFilter hParts
  | cons first rest =>
      have hFirst : first ≠ "" := by
        have hMember :
            first ∈ parts.filter fun part => part ≠ "" := by
          rw [hFilter]
          exact List.mem_cons_self
        simpa using (List.mem_filter.mp hMember).2
      unfold joined
      rw [hFilter]
      cases rest <;> simp [hFirst]

theorem ne_empty_of_plain
    (hPlain : PlainName name.toList) :
    name ≠ "" := by
  rintro rfl
  exact hPlain.nonempty rfl

/- The segments of a path put together from segments. -/
theorem splitOn_rooted
    (hPlain : PlainName name.toList)
    (hKept : ∀ segment ∈ kept, '/' ∉ segment) :
    ∃ lead : List Segment,
      (rooted path
          (['/'].intercalate (kept ++ [name.toList]))).splitOn
            '/' = lead ++ kept ++ [name.toList] := by
  have hSplit :
      (['/'].intercalate (kept ++ [name.toList])).splitOn '/' =
        kept ++ [name.toList] := by
    apply List.splitOn_intercalate
    · intro segment hSegment
      rcases List.mem_append.mp hSegment with hIn | hName
      · exact hKept segment hIn
      · rw [List.mem_singleton.mp hName]
        exact hPlain.noSlash
    · simp
  unfold rooted
  split
  · refine ⟨[[]], ?_⟩
    rw [List.splitOn_cons_eq_if_modifyHead, hSplit]
    rfl
  · exact ⟨[], hSplit⟩

/- The segments of a join that ends in a plain name. -/
theorem segments_join
    (parts : List String)
    (hPlain : PlainName name.toList) :
    ∃ allowAboveRoot lead,
      (join (parts ++ [name])).toList.splitOn '/' =
        lead ++
          (if joined parts = [] then []
            else (stack (joined parts) allowAboveRoot).reverse) ++
          [name.toList] := by
  rw [toList_join,
    joined_append parts (ne_empty_of_plain hPlain)]
  by_cases hEmpty : joined parts = []
  · refine ⟨true, [], ?_⟩
    have hFilter :
        parts.filter (fun part => part ≠ "") = [] := by
      by_contra hParts
      exact joined_ne_nil hParts hEmpty
    rw [if_pos hFilter, if_pos hEmpty, normalize_name hPlain,
      List.splitOn_eq_singleton hPlain.noSlash]
    rfl
  · have hFilter :
        parts.filter (fun part => part ≠ "") ≠ [] := by
      intro hParts
      apply hEmpty
      unfold joined
      rw [hParts]
      rfl
    rw [if_neg hFilter, normalize_plain _ hPlain]
    simp only [hEmpty, if_false]
    refine ⟨_, splitOn_rooted hPlain ?_⟩
    intro segment hSegment
    exact noSlash_of_reduced (reduced_stack _ _) segment
      (List.mem_reverse.mp hSegment)

/- A join ends in its last part, if that is a plain name. -/
theorem baseName_join
    (parts : List String)
    (hPlain : PlainName name.toList) :
    baseName (join (parts ++ [name])) = name.toList := by
  rcases segments_join parts hPlain with ⟨_, lead, hSegments⟩
  unfold baseName
  rw [hSegments, List.getLast?_concat]
  rfl

------------------------------------------------------------
-- Joins Of Joins
------------------------------------------------------------

/- The segments of a stack, put together. -/
theorem splitOn_stack
    (hKept : stack path allowAboveRoot ≠ []) :
    (normalizeString path allowAboveRoot).splitOn '/' =
      (stack path allowAboveRoot).reverse := by
  apply List.splitOn_intercalate
  · intro segment hSegment
    exact noSlash_of_reduced (reduced_stack path _) segment
      (List.mem_reverse.mp hSegment)
  · simpa [stack] using hKept

theorem normalizeString_eq_nil_iff
    {allowAboveRoot : Bool} :
    normalizeString path allowAboveRoot = [] ↔
      stack path allowAboveRoot = [] := by
  constructor
  · intro hEmpty
    by_contra hKept
    have hSplit := splitOn_stack hKept
    rw [hEmpty, List.splitOn_nil] at hSplit
    have hReduced :
        Reduced allowAboveRoot (stack path allowAboveRoot) :=
      reduced_stack path _
    rw [← List.reverse_reverse
      (stack path allowAboveRoot), ← hSplit] at hReduced
    exact hReduced.1 rfl
  · intro hEmpty
    show ['/'].intercalate
      (stack path allowAboveRoot).reverse = []
    rw [hEmpty]
    rfl

/- A kept string starts with no separator. -/
theorem head?_normalizeString
    {allowAboveRoot : Bool} :
    (normalizeString path allowAboveRoot).head? ≠
      some '/' := by
  by_cases hKept : stack path allowAboveRoot = []
  · rw [normalizeString_eq_nil_iff.mpr hKept]
    simp
  · intro hHead
    have hSplit := splitOn_stack hKept
    cases hString : normalizeString path allowAboveRoot with
    | nil => exact hKept (normalizeString_eq_nil_iff.mp hString)
    | cons c rest =>
        rw [hString, List.head?_cons, Option.some.injEq] at hHead
        rw [hString, hHead,
          List.splitOn_cons_eq_if_modifyHead] at hSplit
        have hMember : [] ∈ stack path allowAboveRoot := by
          rw [← List.mem_reverse, ← hSplit]
          simp
        exact nonempty_of_reduced (reduced_stack path _) _
          hMember rfl

/- The shapes of a normalised path. -/
theorem normalize_cases
    (hPath : path ≠ []) :
    (∃ trail,
      stack path (climbs path) = [] ∧
        normalize path = rooted path trail ∧
        (trail = ['.'] ∨ trail = ['.', '/'] ∨
          (path.head? = some '/' ∧ trail = []))) ∨
      ∃ trail,
        stack path (climbs path) ≠ [] ∧
          normalize path =
            rooted path
              (normalizeString path (climbs path) ++ trail) ∧
          (trail = [] ∨ trail = ['/']) := by
  have hUnfolded :
      normalize path =
        if normalizeString path (climbs path) = [] then
          if path.head? = some '/' then ['/']
          else if path.getLast? = some '/' then ['.', '/']
          else ['.']
        else
          rooted path
            (if path.getLast? = some '/' then
              normalizeString path (climbs path) ++ ['/']
            else normalizeString path (climbs path)) := by
    unfold normalize rooted
    rw [if_neg hPath]
    rfl
  rw [hUnfolded]
  by_cases hKept : stack path (climbs path) = []
  · refine Or.inl ?_
    rw [if_pos (normalizeString_eq_nil_iff.mpr hKept)]
    unfold rooted
    by_cases hRoot : path.head? = some '/'
    · simp only [hRoot, if_true]
      exact ⟨[], hKept, rfl, by simp⟩
    · simp only [hRoot, if_false]
      split
      · exact ⟨_, hKept, rfl, by simp⟩
      · exact ⟨_, hKept, rfl, by simp⟩
  · refine Or.inr ?_
    rw [if_neg (mt normalizeString_eq_nil_iff.mp hKept)]
    split
    · exact ⟨['/'], hKept, rfl, Or.inr rfl⟩
    · exact ⟨[], hKept, by rw [List.append_nil], Or.inl rfl⟩

/- Normalising keeps a path absolute, or relative. -/
theorem head?_normalize
    (hPath : path ≠ []) :
    (normalize path).head? = some '/' ↔
      path.head? = some '/' := by
  have hRooted :
      ∀ body : List Char,
        (path.head? ≠ some '/' → body.head? ≠ some '/') →
          ((rooted path body).head? = some '/' ↔
            path.head? = some '/') := by
    intro body hBody
    unfold rooted
    by_cases hRoot : path.head? = some '/'
    · simp [hRoot]
    · simp [hRoot, hBody hRoot]
  rcases normalize_cases hPath with
    ⟨trail, _, hNormal, hTrail⟩ | ⟨trail, hKept, hNormal, _⟩
  · rw [hNormal]
    apply hRooted
    intro hRelative
    rcases hTrail with rfl | rfl | ⟨hRoot, _⟩
    · simp
    · simp
    · exact absurd hRoot hRelative
  · rw [hNormal]
    apply hRooted
    intro _ hHead
    have hString := mt normalizeString_eq_nil_iff.mp hKept
    rw [List.head?_append_of_ne_nil _ hString] at hHead
    exact head?_normalizeString hHead

/- Empty and dot segments do not count. -/
theorem stack_rooted
    (body : List Char) :
    stack (rooted path body) allowAboveRoot =
      stack body allowAboveRoot := by
  unfold rooted
  split
  · unfold stack
    rw [List.splitOn_cons_eq_if_modifyHead]
    simp [pushSegment]
  · rfl

/- Normalising keeps the segments that it keeps. -/
theorem stack_normalize
    (hPath : path ≠ []) :
    stack (normalize path) (climbs path) =
      stack path (climbs path) := by
  rcases normalize_cases hPath with
    ⟨trail, hKept, hNormal, hTrail⟩ |
      ⟨trail, hKept, hNormal, hTrail⟩
  · rw [hNormal, hKept, stack_rooted]
    rcases hTrail with rfl | rfl | ⟨_, rfl⟩
    · simp [stack, pushSegment,
        List.splitOn_cons_eq_if_modifyHead]
    · simp [stack, pushSegment,
        List.splitOn_cons_eq_if_modifyHead]
    · simp [stack, pushSegment]
  · have hAgain :=
      foldl_pushSegment_of_reduced
        (reduced_stack path (climbs path))
    rw [hNormal, stack_rooted]
    unfold stack
    rcases hTrail with rfl | rfl
    · rw [List.append_nil, splitOn_stack hKept]
      exact hAgain
    · rw [List.splitOn_append_cons_self, splitOn_stack hKept,
        List.foldl_append, hAgain]
      simp [stack, pushSegment]

theorem normalize_ne_nil (path : List Char) :
    normalize path ≠ [] := by
  by_cases hPath : path = []
  · simp [hPath, normalize]
  · have hRooted :
        ∀ body : List Char, body ≠ [] →
          rooted path body ≠ [] := by
      intro body hBody
      unfold rooted
      split
      · simp
      · exact hBody
    rcases normalize_cases hPath with
      ⟨trail, _, hNormal, hTrail⟩ | ⟨trail, hKept, hNormal, _⟩
    · rw [hNormal]
      rcases hTrail with rfl | rfl | ⟨hRoot, rfl⟩
      · exact hRooted _ (by simp)
      · exact hRooted _ (by simp)
      · simp [rooted, hRoot]
    · rw [hNormal]
      apply hRooted
      have hString := mt normalizeString_eq_nil_iff.mp hKept
      simp [hString]

/- A join in front of a name may be joined later. -/
theorem normalize_normalize_plain
    (hPath : path ≠ [])
    (hPlain : PlainName name.toList) :
    normalize (normalize path ++ '/' :: name.toList) =
      normalize (path ++ '/' :: name.toList) := by
  have hHead :
      (normalize path ++ '/' :: name.toList).head? =
          some '/' ↔
        (path ++ '/' :: name.toList).head? = some '/' := by
    rw [List.head?_append_of_ne_nil _ (normalize_ne_nil path),
      List.head?_append_of_ne_nil _ hPath,
      head?_normalize hPath]
  have hClimbs :
      climbs (normalize path ++ '/' :: name.toList) =
        climbs path := by
    unfold climbs
    rw [List.head?_append_of_ne_nil _ (normalize_ne_nil path)]
    simp only [head?_normalize hPath]
  have hClimbs' :
      climbs (path ++ '/' :: name.toList) = climbs path := by
    unfold climbs
    rw [List.head?_append_of_ne_nil _ hPath]
  rw [normalize_plain _ hPlain, normalize_plain _ hPlain,
    hClimbs, hClimbs', stack_normalize hPath]
  unfold rooted
  simp only [hHead]

/- Joining a name to a join joins it to the parts. -/
theorem join_join
    (parts : List String)
    (hPlain : PlainName name.toList) :
    join [join parts, name] = join (parts ++ [name]) := by
  have hName := ne_empty_of_plain hPlain
  have hJoin : join parts ≠ "" := by
    intro hEmpty
    apply normalize_ne_nil (joined parts)
    rw [← toList_join, hEmpty]
    rfl
  have hOuter :
      joined [join parts, name] =
        normalize (joined parts) ++ '/' :: name.toList := by
    rw [← toList_join]
    simp [joined, hJoin, hName]
  apply String.toList_inj.mp
  rw [toList_join, toList_join, hOuter,
    joined_append parts hName]
  split
  · rename_i hEmpty
    have hParts : joined parts = [] := by
      unfold joined
      rw [hEmpty]
      rfl
    rw [hParts, normalize_name hPlain,
      normalize_plain _ hPlain]
    simp [normalize, rooted, stack, pushSegment,
      List.splitOn_cons_eq_if_modifyHead]
  · rename_i hParts
    exact normalize_normalize_plain (joined_ne_nil hParts)
      hPlain

end Storage
