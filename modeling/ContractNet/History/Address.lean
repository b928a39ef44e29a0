import ContractNet.Files.Basic
import ContractNet.Text.Quoted

/-!
# Addresses of histories

A history is addressed by the path of its file, or by a text that starts with `file:`.  Parameters
may follow after a question mark.

* A path is taken as it stands; a question mark at its very start belongs to it.
* After `file:`, a percent sign and two digits stand for a byte, what follows a `#` is passed over,
  and parameters say how the file is opened and in which file system.

The empty path and `:memory:` address a history that lies in no file.  `HistoryAddress.read` reads
an address.
-/

namespace ContractNet

/-- How the file of a history is opened. -/
inductive FileAccess where
  | readOnly
  /-- For reading and writing, if it exists. -/
  | existing
  /-- For reading and writing; it is made if it does not exist. -/
  | create
  /-- No file is opened: the history is in memory. -/
  | memory
deriving DecidableEq

namespace FileAccess

/-- The access that a parameter names. -/
def ofName? (t : Text) : Option FileAccess :=
  if t = Text.ofString "ro" then some readOnly
  else if t = Text.ofString "rw" then some existing
  else if t = Text.ofString "rwc" then some create
  else if t = Text.ofString "memory" then some memory
  else none

/-- How much an access asks for. -/
def demand : FileAccess → Nat
  | memory => 0
  | readOnly => 1
  | existing => 2
  | create => 3

/-- How much a later access may ask for. -/
def grant : FileAccess → Nat
  | memory => 3
  | a => a.demand

end FileAccess

/-- Why an address is refused. -/
inductive AddressError where
  /-- A percent sign is not followed by two digits. -/
  | badEscape (escape : Text)
  | semicolon
  /-- The parameters name different file systems. -/
  | manySystems (names : List Text)
  /-- Something is named that does not exist. -/
  | unknown
  /-- A parameter asks for more than an earlier one allows. -/
  | denied
deriving DecidableEq

/-- Wording of the errors. -/
def AddressError.message : AddressError → Text
  | badEscape escape => "invalid URL escape " ++ escape.quoted
  | semicolon => "invalid semicolon separator in query"
  | manySystems names => "conflicting vfs query parameters: [" ++ Text.join " " names ++ "]"
  | unknown => "SQL logic error: out of memory (1)"
  | denied => "access permission denied: out of memory (3)"

/-- Where a history lies. -/
structure HistoryAddress where
  /-- The path of its file; none if it is in memory. -/
  file : Option Text
  access : FileAccess := .create
deriving DecidableEq

namespace HistoryAddress

/-! ### Parameters -/

/-- The byte of two hexadecimal digits. -/
def hexByte? (a b : UInt8) : Option UInt8 := do
  pure (UInt8.ofNat (16 * (← Text.hexDigit? a) + (← Text.hexDigit? b)))

/-- A parameter without its escapes; a plus sign stands for a space. -/
def unescape : Text → Except AddressError Text
  | [] => .ok []
  -- `%` and two digits
  | 0x25 :: a :: b :: r =>
    match hexByte? a b with
    | some c => (unescape r).map (c :: ·)
    | none => .error (.badEscape ['%', a, b])
  | b :: r =>
    if b = '%' then .error (.badEscape (b :: r))
    else (unescape r).map ((if b = '+' then ' '.toUInt8 else b) :: ·)

/-- What stands before and after the first equals sign; nothing after it if there is none. -/
def nameAndValue (t : Text) : Text × Text :=
  let name := t.takeWhile (· ≠ '='.toUInt8)
  (name, t.drop (name.length + 1))

/-- The parameters of a text, in order. -/
def parameters (t : Text) : Except AddressError (List (Text × Text)) :=
  if t.contains ';'.toUInt8 then .error .semicolon
  else ((Text.splitAt '&' t).filter fun item => !item.isEmpty).mapM fun item => do
    let (name, value) := nameAndValue item
    pure (← unescape name, ← unescape value)

/-- The parameter that names a file system. -/
def systemName : Text := "vfs"

/-- The file system that parameters name; empty if they name none. -/
def chosenSystem (ps : List (Text × Text)) : Except AddressError Text :=
  let names := (ps.filter fun p => p.1 = systemName).map Prod.snd
  names.foldlM (fun old new =>
    if old.isEmpty || old = new then .ok new else .error (.manySystems names)) []

/-- The names of the file systems that keep files. -/
def systems : List Text := ["unix", "unix-none", "unix-dotfile", "unix-excl"]

/-- The name of the file system that keeps nothing. -/
def memorySystem : Text := "memdb"

/-- The address of a file in a file system, the usual one if none is named. -/
def within (system : Option Text) (path : Text) (access : FileAccess) :
    Except AddressError HistoryAddress :=
  let inMemory := path.isEmpty || path = Text.ofString ":memory:" || access = .memory ||
    system = some memorySystem
  if system.all fun name => systems.contains name || name = memorySystem then
    .ok ⟨if inMemory then none else some (Disk.tidy path), access⟩
  else .error .unknown

/-! ### After `file:` -/

/-- A part without its escapes; it ends at an escaped zero byte. -/
def decode : Text → Text
  | 0x25 :: a :: b :: r =>
    match hexByte? a b with
    | some 0 => []
    | some c => c :: decode r
    | none => '%' :: decode (a :: b :: r)
  | b :: r => b :: decode r
  | [] => []

/-- What follows the name of the host, which can only be the present one. -/
def dropHost (t : Text) : Except AddressError Text :=
  match Text.after? "//" t with
  | none => .ok t
  | some r =>
    let host := r.takeWhile (· ≠ '/'.toUInt8)
    if host.isEmpty || host = Text.ofString "localhost" then .ok (r.drop host.length)
    else .error .unknown

/-- One parameter more. -/
def applyOption (state : Option Text × FileAccess) (item : Text) :
    Except AddressError (Option Text × FileAccess) :=
  let (name, value) := nameAndValue item
  let name := decode name
  let value := decode value
  if name = systemName then .ok (some value, state.2)
  else if name = Text.ofString "cache" then
    if ([("shared" : Text), "private"]).contains value then .ok state else .error .unknown
  else if name = Text.ofString "mode" then
    match FileAccess.ofName? value with
    | none => .error .unknown
    | some a => if a.demand ≤ state.2.grant then .ok (state.1, a) else .error .denied
  else .ok state

/-- The address that follows `file:`. -/
def ofResource (system : Option Text) (t : Text) : Except AddressError HistoryAddress := do
  let t := (← dropHost t).takeWhile (· ≠ '#'.toUInt8)
  let path := t.takeWhile (· ≠ '?'.toUInt8)
  let items := Text.splitAt '&' (t.drop (path.length + 1))
  let (system, access) ← items.foldlM applyOption (system, .create)
  within system (decode path) access

/-! ### Reading -/

/-- Read an address.  Its parameters are looked at first; a zero byte ends what is opened. -/
def read (t : Text) : Except AddressError HistoryAddress := do
  let path := t.takeWhile (· ≠ '?'.toUInt8)
  let name ← chosenSystem (← parameters (if path.isEmpty then [] else t.drop (path.length + 1)))
  let system := if name.isEmpty then none else some name
  let upToZero (t : Text) : Text := t.takeWhile (· ≠ 0)
  match Text.after? "file:" t with
  | some r => ofResource system (upToZero r)
  | none => within system (upToZero (if path.isEmpty then t else path)) .create

end HistoryAddress

end ContractNet
