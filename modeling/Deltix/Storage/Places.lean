import Deltix.Storage.PathNames

/-
  Where a path leads.  The dots of a path followed from a
  place undo names of the path first and then names of the
  place; normalising changes no end of a walk.

  Key definitions include:
    * `Place`
    * `Place.follow`
    * `Place.resolve`
    * `namesOf`
    * `climbsOf`
    * `Below`

  Key theorems include:
    * `names_follow`
    * `Place.resolve_normalize`
    * `Place.resolve_join`
-/

namespace Storage

/-
  A place in the file system, as the names that lead to it
  from the root, the last one first.
-/
structure Place where
  names : List Segment
  reduced : Reduced false names

namespace Place

def top : Place where
  names := []
  reduced := trivial

/- Go along the segments of a path. -/
def follow (start : Place) (path : List Char) : Place where
  names :=
    (path.splitOn '/').foldl (pushSegment false) start.names
  reduced :=
    reduced_foldl (fun _ hMember =>
      noSlash_of_mem_splitOn hMember) start.reduced

/- Where a path leads from a working directory. -/
def resolve (cwd : Place) (path : List Char) : Place :=
  (if path.head? = some '/' then top else cwd).follow path

end Place

/- The first place lies strictly inside the second. -/
def Below (inner outer : Place) : Prop :=
  ∃ names ≠ [], inner.names = names ++ outer.names

theorem notDotDot_of_reduced
    {names : List Segment}
    (hReduced : Reduced false names) :
    ['.', '.'] ∉ names := by
  induction names with
  | nil => exact List.not_mem_nil
  | cons name rest ih =>
      intro hMember
      rcases List.mem_cons.mp hMember with hEq | hRest
      · have hAllowed := (hReduced.2.2.2.1 hEq.symm).1
        cases hAllowed
      · exact ih hReduced.2.2.2.2 hRest

------------------------------------------------------------
-- Names And Climbs
------------------------------------------------------------

/- The names that a stack adds, and how far it climbs. -/
def namesOf (kept : List Segment) : List Segment :=
  kept.filter fun segment => segment ≠ ['.', '.']

def climbsOf (kept : List Segment) : Nat :=
  kept.count ['.', '.']

/- A stack of a relative path, put atop other names. -/
def atop (base kept : List Segment) : List Segment :=
  namesOf kept ++ base.drop (climbsOf kept)

variable {base kept : List Segment} {segment : Segment}

theorem atop_nil : atop base [] = base := by
  simp [atop, namesOf, climbsOf]

theorem atop_name
    (hName : segment ≠ ['.', '.']) :
    atop base (segment :: kept) =
      segment :: atop base kept := by
  simp [atop, namesOf, climbsOf, hName]

/- Nothing but climbs adds no name. -/
theorem atop_climbs
    (hClimbs : ∀ other ∈ kept, other = ['.', '.']) :
    atop base kept = base.drop kept.length := by
  have hNames : namesOf kept = [] := by
    apply List.filter_eq_nil_iff.mpr
    intro other hOther
    simpa using hClimbs other hOther
  have hCount : climbsOf kept = kept.length :=
    List.count_eq_length.mpr fun other hOther =>
      (hClimbs other hOther).symm
  unfold atop
  rw [hNames, hCount, List.nil_append]

/- A `..` takes the last name off. -/
theorem pushSegment_back
    (hBase : ['.', '.'] ∉ base) :
    pushSegment false base ['.', '.'] = base.tail := by
  cases base with
  | nil => simp [pushSegment]
  | cons last rest =>
      have hLast : last ≠ ['.', '.'] := by
        intro hEq
        exact hBase (by rw [hEq]; exact List.mem_cons_self)
      simp [pushSegment, hLast]

/- One more segment, before or after the names below. -/
theorem pushSegment_atop
    (segment : Segment)
    (hBase : ['.', '.'] ∉ base)
    (hKept : Reduced true kept) :
    pushSegment false (atop base kept) segment =
      atop base (pushSegment true kept segment) := by
  by_cases hSkipped : segment = [] ∨ segment = ['.']
  · simp [pushSegment, hSkipped]
  · by_cases hBack : segment = ['.', '.']
    · subst hBack
      cases kept with
      | nil =>
          rw [atop_nil, pushSegment_back hBase]
          simp [pushSegment, atop_climbs]
      | cons last rest =>
          by_cases hLast : last = ['.', '.']
          · have hClimbs :
                ∀ other ∈ last :: rest,
                  other = ['.', '.'] := by
              intro other hOther
              rcases List.mem_cons.mp hOther with hEq | hRest
              · exact hEq.trans hLast
              · exact (hKept.2.2.2.1 hLast).2 other hRest
            have hMore :
                ∀ other ∈ ['.', '.'] :: last :: rest,
                  other = ['.', '.'] := by
              intro other hOther
              rcases List.mem_cons.mp hOther with hEq | hRest
              · exact hEq
              · exact hClimbs other hRest
            have hPush :
                pushSegment true (last :: rest) ['.', '.'] =
                  ['.', '.'] :: last :: rest := by
              simp [pushSegment, hLast]
            have hDropped :
                ['.', '.'] ∉
                  base.drop (last :: rest).length :=
              fun hMember =>
                hBase (List.mem_of_mem_drop hMember)
            rw [hPush, atop_climbs hClimbs, atop_climbs hMore,
              pushSegment_back hDropped, List.tail_drop]
            rfl
          · rw [atop_name hLast]
            simp [pushSegment, hLast]
    · have hPush :
          ∀ (allowAboveRoot : Bool) (stacked : List Segment),
            pushSegment allowAboveRoot stacked segment =
              segment :: stacked := by
        intro allowAboveRoot stacked
        simp [pushSegment, hSkipped, hBack]
      rw [hPush, hPush, atop_name hBack]

/- The segments of a path may be reduced first. -/
theorem foldl_atop
    {segments : List Segment}
    (hNoSlash : ∀ segment ∈ segments, '/' ∉ segment)
    (hBase : ['.', '.'] ∉ base)
    (hKept : Reduced true kept) :
    segments.foldl (pushSegment false) (atop base kept) =
      atop base (segments.foldl (pushSegment true) kept) := by
  induction segments generalizing kept with
  | nil => rfl
  | cons segment rest ih =>
      rw [List.foldl_cons, List.foldl_cons,
        pushSegment_atop segment hBase hKept]
      apply ih
      · intro other hOther
        exact hNoSlash other (List.mem_cons_of_mem _ hOther)
      · exact reduced_pushSegment
          (hNoSlash segment List.mem_cons_self) hKept

/- Where a relative path leads, from its stack. -/
theorem names_follow
    (start : Place)
    (path : List Char) :
    (start.follow path).names =
      atop start.names (stack path true) := by
  have hStart := notDotDot_of_reduced start.reduced
  have hEmpty : Reduced true [] := trivial
  have hSegments :
      ∀ segment ∈ path.splitOn '/', '/' ∉ segment :=
    fun _ hMember => noSlash_of_mem_splitOn hMember
  have hOver := foldl_atop hSegments hStart hEmpty
  rw [atop_nil] at hOver
  exact hOver

end Storage

namespace Storage

namespace Place

variable {path : List Char}

theorem ext_names
    {place other : Place}
    (hNames : place.names = other.names) :
    place = other := by
  cases place
  cases other
  congr

theorem follow_append
    (start : Place)
    (before after : List Char) :
    start.follow (before ++ '/' :: after) =
      (start.follow before).follow after := by
  apply ext_names
  show ((before ++ '/' :: after).splitOn '/').foldl
    (pushSegment false) start.names = _
  rw [List.splitOn_append_cons_self, List.foldl_append]
  rfl

/- An absolute path keeps the segments of its stack. -/
theorem names_follow_top (path : List Char) :
    (top.follow path).names = stack path false :=
  rfl

/- Normalising a path leaves its end where it was. -/
theorem resolve_normalize
    (cwd : Place)
    (hPath : path ≠ []) :
    cwd.resolve (normalize path) = cwd.resolve path := by
  have hStack := stack_normalize hPath
  apply ext_names
  unfold resolve
  by_cases hRoot : path.head? = some '/'
  · have hClimbs : climbs path = false := by
      simp [climbs, hRoot]
    rw [if_pos hRoot,
      if_pos ((head?_normalize hPath).mpr hRoot),
      names_follow_top, names_follow_top]
    rw [hClimbs] at hStack
    exact hStack
  · have hClimbs : climbs path = true := by
      simp [climbs, hRoot]
    rw [if_neg hRoot, if_neg (mt (head?_normalize hPath).mp
      hRoot), names_follow, names_follow]
    rw [hClimbs] at hStack
    rw [hStack]

theorem resolve_join
    (cwd : Place)
    {parts : List String}
    (hParts : joined parts ≠ []) :
    cwd.resolve (join parts).toList =
      cwd.resolve (joined parts) := by
  rw [toList_join, resolve_normalize cwd hParts]

/- Only the first part decides where a walk starts. -/
theorem resolve_append
    (cwd : Place)
    {before : List Char}
    (after : List Char)
    (hBefore : before ≠ []) :
    cwd.resolve (before ++ '/' :: after) =
      (cwd.resolve before).follow after := by
  unfold resolve
  rw [List.head?_append_of_ne_nil _ hBefore, follow_append]

end Place

end Storage
