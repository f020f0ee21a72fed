import Mathlib.Logic.Function.Basic

/-
  Paths and files, as far as the storage context uses them.

  Key definitions include:
    * `join`
    * `dirname`
    * `Files`
    * `FileStatement`
    * `FileStatement.run`

  Key theorems include:
    * `FileStatement.run_of_ne`
-/

namespace Storage

abbrev Segment :=
  List Char

/-
  One segment on the stack of segments kept so far, the last
  one first.  A relative path may climb above its start.
-/
def pushSegment
    (allowAboveRoot : Bool)
    (kept : List Segment)
    (segment : Segment) : List Segment :=
  if segment = [] ∨ segment = ['.'] then kept
  else if segment = ['.', '.'] then
    match kept with
    | [] => if allowAboveRoot then [segment] else []
    | last :: rest =>
        if last = ['.', '.'] then segment :: last :: rest
        else rest
  else segment :: kept

def normalizeString
    (path : List Char)
    (allowAboveRoot : Bool) : List Char :=
  ['/'].intercalate
    ((path.splitOn '/').foldl (pushSegment allowAboveRoot)
      []).reverse

/- `path.normalize` -/
def normalize (path : List Char) : List Char :=
  if path = [] then ['.']
  else
    let isAbsolute := path.head? = some '/'
    let trailingSeparator := path.getLast? = some '/'
    let kept := normalizeString path (!isAbsolute)
    if kept = [] then
      if isAbsolute then ['/']
      else if trailingSeparator then ['.', '/'] else ['.']
    else
      let body :=
        if trailingSeparator then kept ++ ['/'] else kept
      if isAbsolute then '/' :: body else body

/- `path.join` -/
def join (parts : List String) : String :=
  let joined := parts.filter fun part => part ≠ ""
  String.ofList
    (normalize
      (['/'].intercalate (joined.map String.toList)))

/- `path.dirname`, for the joined paths it is applied to. -/
def dirname (path : String) : String :=
  let parts := path.toList.splitOn '/'
  String.ofList (['/'].intercalate parts.dropLast)

abbrev Content :=
  List UInt8

/- The regular files.  Directories are not tracked. -/
abbrev Files :=
  String → Option Content

/- The file system calls of the context. -/
inductive FileStatement where
  | mkdir (path : String)
  | rm (path : String)
  | stat (path : String)
  | readFile (path : String)
  | copyFile (source target : String)
  | sha256File (path : String)
  | rename (source target : String)
  | unlink (path : String)

namespace FileStatement

abbrev Answer : FileStatement → Type
  | .mkdir _ => Unit
  | .rm _ => Unit
  | .stat _ => Unit
  | .readFile _ => Content
  | .copyFile _ _ => Unit
  | .sha256File _ => String
  | .rename _ _ => Unit
  | .unlink _ => Unit

end FileStatement

def noEntry : String :=
  "ENOENT: no such file or directory"

/- Answer from the content of a file, if there is one. -/
def withFile
    {α : Type}
    (files : Files)
    (path : String)
    (answer : Content → α) : Except String α :=
  match files path with
  | some content => .ok (answer content)
  | none => .error noEntry

def copyContent
    (files : Files)
    (source target : String)
    (copied : Option Content) :
    Except String Unit × Files :=
  match files source with
  | none => (.error noEntry, files)
  | some content =>
      (.ok (),
        Function.update files target
          (some (copied.getD content)))

def moveContent
    (files : Files)
    (source target : String) :
    Except String Unit × Files :=
  match files source with
  | none => (.error noEntry, files)
  | some content =>
      (.ok (),
        Function.update
          (Function.update files source none) target
          (some content))

def removeContent
    (files : Files)
    (path : String) :
    Except String Unit × Files :=
  match files path with
  | none => (.error noEntry, files)
  | some _ => (.ok (), Function.update files path none)

/-
  Run a call.  `copied` is what a copy writes instead of the
  content of its source, when the copy is corrupted.
-/
def FileStatement.run
    (sha256 : Content → String)
    (copied : Option Content) :
    (statement : FileStatement) → Files →
      Except String statement.Answer × Files
  | .mkdir _, files => (.ok (), files)
  | .rm path, files =>
      (.ok (), Function.update files path none)
  | .stat path, files =>
      (withFile files path fun _ => (), files)
  | .readFile path, files =>
      (withFile files path id, files)
  | .copyFile source target, files =>
      copyContent files source target copied
  | .sha256File path, files =>
      (withFile files path sha256, files)
  | .rename source target, files =>
      moveContent files source target
  | .unlink path, files =>
      removeContent files path

variable {files : Files} {path source target : String}

theorem copyContent_of_ne
    {copied : Option Content}
    (hNe : path ≠ target) :
    (copyContent files source target copied).2 path =
      files path := by
  unfold copyContent
  cases files source with
  | none => rfl
  | some content => simp [hNe]

theorem moveContent_of_ne
    (hSource : path ≠ source)
    (hTarget : path ≠ target) :
    (moveContent files source target).2 path = files path := by
  unfold moveContent
  cases files source with
  | none => rfl
  | some content => simp [hSource, hTarget]

theorem removeContent_of_ne
    (hNe : path ≠ target) :
    (removeContent files target).2 path = files path := by
  unfold removeContent
  cases files target with
  | none => rfl
  | some content => simp [hNe]

/- What a rename puts in place. -/
theorem moveContent_target
    {content : Content}
    (hSource : files source = some content) :
    (moveContent files source target).2 target = some content := by
  unfold moveContent
  rw [hSource]
  simp

namespace FileStatement

/- The paths at which a call may change a file. -/
def writes : FileStatement → List String
  | .rm path => [path]
  | .copyFile _ target => [target]
  | .rename source target => [source, target]
  | .unlink path => [path]
  | _ => []

/- A call leaves every other path as it is. -/
theorem run_of_ne
    {sha256 : Content → String}
    {copied : Option Content}
    {statement : FileStatement}
    (hPath : path ∉ statement.writes) :
    (statement.run sha256 copied files).2 path =
      files path := by
  cases statement with
  | mkdir other => rfl
  | stat other => rfl
  | readFile other => rfl
  | sha256File other => rfl
  | rm other =>
      have hNe : path ≠ other := by
        simpa [writes] using hPath
      simp [run, hNe]
  | unlink other =>
      exact removeContent_of_ne (by simpa [writes] using hPath)
  | copyFile source target =>
      exact copyContent_of_ne (by simpa [writes] using hPath)
  | rename source target =>
      have hNe : path ≠ source ∧ path ≠ target := by
        simpa [writes] using hPath
      exact moveContent_of_ne hNe.1 hNe.2

end FileStatement

end Storage
