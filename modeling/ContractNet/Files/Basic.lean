import ContractNet.Text.Basic

/-!
# Files

A disk holds files by their routes from one directory, which is the present one.  A route that
starts with an empty name starts at the root instead, and one may lead out of the present directory
by leading upwards first.  A directory exists if a file lies below it.

Reading and writing fail as a system does: on a path that leads nowhere, through a file or to a
directory, that is too long or has a zero byte in it.
-/

namespace ContractNet

/-- Why a path cannot be used. -/
inductive FileFault where
  | missing
  | isDirectory
  | notDirectory
  | taken
  | nameTooLong
  /-- A path has a zero byte in it. -/
  | invalid
deriving DecidableEq

/-- Wording of the faults. -/
def FileFault.message : FileFault → Text
  | missing => "no such file or directory"
  | isDirectory => "is a directory"
  | notDirectory => "not a directory"
  | taken => "file exists"
  | nameTooLong => "file name too long"
  | invalid => "invalid argument"

/-- What could not be done with a path. -/
structure FileError where
  action : Text
  path : Text
  fault : FileFault
deriving DecidableEq

/-- Wording of the errors. -/
def FileError.message (e : FileError) : Text := e.action ++ " " ++ e.path ++ ": " ++ e.fault.message

/-- How many bytes a name may have. -/
def maxName : Nat := 255

/-- How many bytes a path may have. -/
def maxPath : Nat := 4095

/-- The names along a path. -/
abbrev Route := List Text

namespace Route

/-- The name of what lies one level higher. -/
def upName : Text := ".."

/-- The route from the root that has no further names. -/
def root : Route := [[]]

/-- The route leads out of the present directory. -/
def leavesHome (r : Route) : Bool := r.head?.any fun name => name.isEmpty || name = upName

/-- One level higher.  Nothing is higher than the root. -/
def up (r : Route) : Route :=
  if r.all (· = upName) then r ++ [upName] else if r = root then root else r.dropLast

end Route

/-- Files by their routes, each with its contents. -/
structure Disk where
  files : List (Route × Text) := []
  /-- Directories that are there even if no file lies below them. -/
  folders : List Route := []

namespace Disk

variable (d : Disk)

/-- The contents of a file. -/
def get? (r : Route) : Option Text := d.files.lookup r

/-- A directory lies at a route. -/
def isDirectory (r : Route) : Bool :=
  r.all (· = Route.upName) || r = Route.root || d.folders.contains r ||
    d.files.any fun (f, _) => r.isPrefixOf f && f ≠ r

/-- Follow names from a route on.  Every name but the last has to be that of a directory. -/
def follow (r : Route) : List Text → Except FileFault Route
  | [] => .ok r
  | name :: names =>
    if d.isDirectory r then
      if name.isEmpty || name = Text.ofString "." then follow r names
      else if name = Route.upName then follow r.up names
      else if maxName < name.length then .error .nameTooLong
      else follow (r ++ [name]) names
    else if (d.get? r).isSome then .error .notDirectory
    else .error .missing

/-- The route of a path; whether something lies there is another question. -/
def locate (path : Text) : Except FileFault Route :=
  if path.isEmpty then .error .missing
  else if path.contains 0 then .error .invalid
  else if maxPath < path.length then .error .nameTooLong
  else d.follow (if Text.startsWith path "/" then Route.root else []) (Text.splitAt '/' path)

/-- Something lies at a path. -/
def stat (path : Text) : Except FileError Unit :=
  match d.locate path with
  | .error f => .error ⟨"stat", path, f⟩
  | .ok r =>
    if d.isDirectory r || (d.get? r).isSome then .ok () else .error ⟨"stat", path, .missing⟩

/-- The contents of the file at a path. -/
def read (path : Text) : Except FileError Text :=
  match d.locate path with
  | .error f => .error ⟨"open", path, f⟩
  | .ok r =>
    if d.isDirectory r then .error ⟨"read", path, .isDirectory⟩
    else match d.get? r with
      | some c => .ok c
      | none => .error ⟨"open", path, .missing⟩

/-- Put a file at a route. -/
def put (r : Route) (c : Text) : Disk :=
  { d with files := (d.files.filter fun (f, _) => f ≠ r) ++ [(r, c)] }

/-- Slashes at the end of a path taken away. -/
def dropSlashes (path : Text) : Text := (path.reverse.dropWhile (· = '/'.toUInt8)).reverse

/-- The path has slashes and nothing else. -/
def isRoot (path : Text) : Bool := !path.isEmpty && path.all (· = '/'.toUInt8)

/-- Write a file at a path.  A path that ends in a slash can only be that of a directory. -/
def write (path c : Text) : Except FileError Disk :=
  match d.locate (if isRoot path then path else dropSlashes path) with
  | .error f => .error ⟨"open", path, f⟩
  | .ok r =>
    if d.isDirectory r || path.endsWith "/" then .error ⟨"open", path, .isDirectory⟩
    else .ok (d.put r c)

/-! ### Replacing a file at once -/

/-- One more name on the way along a path: nothing for the place itself, one name less for the
place above if there is one. -/
def stepName (rooted : Bool) (names : List Text) (name : Text) : List Text :=
  if name.isEmpty || name = Text.ofString "." then names
  else if name = Route.upName then
    match names.getLast? with
    | some last => if last = Route.upName then names ++ [name] else names.dropLast
    | none => if rooted then [] else [name]
  else names ++ [name]

/-- The shortest spelling of a path, without looking at what lies on it. -/
def tidy (path : Text) : Text :=
  let rooted := Text.startsWith path "/"
  let names := (Text.splitAt '/' path).foldl (stepName rooted) []
  let body := Text.join "/" names
  if rooted then "/" ++ body else if body.isEmpty then "." else body

/-- The directory of a path: what stands before its last slash. -/
def parent (path : Text) : Text := tidy ((path.reverse.dropWhile (· ≠ '/'.toUInt8)).reverse)

/-- The last name of a path. -/
def baseName (path : Text) : Text :=
  ((dropSlashes path).reverse.takeWhile (· ≠ '/'.toUInt8)).reverse

/-- A sibling of a path under which its new contents are written first. -/
def sibling (path unique : Text) : Text :=
  let folder := parent path
  let front : Text := if folder.endsWith "/" then folder else folder ++ "/"
  front ++ "." ++ baseName path ++ "." ++ unique ++ ".tmp"

/-- Why a file cannot be replaced. -/
inductive ReplaceError where
  /-- The path is that of the root, which has no siblings. -/
  | noSibling
  | create (e : FileError)
  | rename (sibling path : Text) (fault : FileFault)
deriving DecidableEq

/-- Wording of the errors. -/
def ReplaceError.message : ReplaceError → Text
  | noSibling => "create temp file: createtemp ./.*.tmp: pattern contains path separator"
  | create e => "create temp file: " ++ e.message
  | rename old new fault =>
    "rename to " ++ new ++ ": rename " ++ old ++ " " ++ new ++ ": " ++ fault.message

/-- Write a file under another name, told apart by `unique`, and then move it to its path. -/
def replace (path unique c : Text) : Except ReplaceError Disk :=
  if isRoot path then .error .noSibling else
  match d.write (sibling path unique) c with
  | .error e => .error (.create e)
  | .ok _ =>
    match d.locate path with
    | .error f => .error (.rename (sibling path unique) path f)
    | .ok r =>
      if d.isDirectory r then .error (.rename (sibling path unique) path .taken)
      else .ok (d.put r c)

/-- A file that was put at a route lies there. -/
@[simp]
theorem get?_put (r : Route) (c : Text) : (d.put r c).get? r = some c := by
  have : ∀ l : List (Route × Text),
      ((l.filter fun (f, _) => f ≠ r) ++ [(r, c)]).lookup r = some c := by
    intro l
    induction l with
    | nil => simp
    | cons h t ih =>
      obtain ⟨f, x⟩ := h
      by_cases hr : f = r
      · simpa [List.filter_cons, hr] using ih
      · have hn : (r == f) = false := by simpa using fun e => hr e.symm
        simpa [List.filter_cons, hr, List.lookup_cons, hn] using ih
  exact this d.files

end Disk

end ContractNet
