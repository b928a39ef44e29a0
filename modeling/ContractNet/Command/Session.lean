import ContractNet.Compilation.Basic
import ContractNet.History.Address
import ContractNet.History.Stored
import ContractNet.Settings.Basic
import ContractNet.Syntax.Dump

/-!
# Sessions

A command reads and writes files and says something on two channels, one for its output and one
for remarks.  `Session` is what it has done so far.  A `CommandM` is a step of a command: it changes
the session, and may fail with a `CommandError`; what was done before is kept.
-/

namespace ContractNet

/-- What a command is given besides its arguments and the files. -/
structure Occasion where
  /-- The id of the run, should the command be one. -/
  runId : Text
  now : Instant
  /-- How long a compilation takes, in nanoseconds. -/
  elapsed : Nat
  /-- Tells the file under which an output is written first from all others. -/
  unique : Text

/-- What a command has done. -/
structure Session where
  disk : Disk
  output : Text := []
  remarks : Text := []

/-- Why an archive cannot be used. -/
inductive AccessError where
  | address (e : AddressError)
  | unreachable
  /-- The file is no history. -/
  | foreign
  /-- The file holds no history yet and may only be read. -/
  | blank
  /-- A run is to be recorded in a file that may only be read. -/
  | sealed (run : Text)
deriving DecidableEq

/-- Wording of the errors. -/
def AccessError.message : AccessError → Text
  | address e => "create archive schema: " ++ e.message
  | unreachable => "create archive schema: unable to open database file: out of memory (14)"
  | foreign => "create archive schema: file is not a database (26)"
  | blank => "create archive schema: attempt to write a readonly database (8)"
  | sealed run => "record run " ++ run ++ ": attempt to write a readonly database (8)"

/-- Why a command fails. -/
inductive CommandError where
  | noTree
  | noInput
  | noOutput
  | noHistory
  | unknownFormat (name : Text)
  | settings (e : Settings.LoadError)
  | logger (e : SettingsError)
  | readTree (e : FileError)
  | tree (path : Text) (e : Syntax.DumpError)
  | readNet (e : FileError)
  | document (e : PnmlError)
  | build (e : BuildError)
  | compilation (e : CompilationError)
  | write (e : FileError)
  | replace (e : Disk.ReplaceError)
  /-- The net has no page to draw. -/
  | nothingToDraw
  | draw (e : FileError)
  | openHistory (e : FileError)
  | archive (e : AccessError)
  | history (e : HistoryError)
  | invalid (errors : Nat)

namespace CommandError

/-- Wording of the errors. -/
def message : CommandError → Text
  | noTree => "parse tree file required"
  | noInput => "input file required"
  | noOutput => "-output required"
  | noHistory => "no history database: set archive.path or -archive"
  | unknownFormat name => "unknown format " ++ name.quoted
  | settings e => e.message
  | logger e => e.message
  | readTree e => "read parse tree: " ++ e.message
  | tree path e => "parse tree " ++ path ++ ": " ++ e.message
  | readNet e => "read net: " ++ e.message
  | document e => e.message
  | build e => e.message
  | compilation e => e.message
  | write e => "write file: " ++ e.message
  | replace e => e.message
  | nothingToDraw => "generate SVG: net has no page"
  | draw e => "generate SVG: " ++ e.message
  | openHistory e => "open history: " ++ e.message
  | archive e => e.message
  | history e => e.message
  | invalid errors => "validation failed with " ++ Text.decimal errors ++ " error(s)"

/-- The command was not called as it should be. -/
def isMisuse : CommandError → Bool
  | noTree | noInput | noOutput | noHistory => true
  | _ => false

end CommandError

/-- A step of a command. -/
abbrev CommandM := EStateM CommandError Session

namespace CommandM

/-! ### Channels -/

/-- Add to the output. -/
def print (t : Text) : CommandM Unit := modify fun s => { s with output := s.output ++ t }

/-- Add to the remarks. -/
def remark (t : Text) : CommandM Unit := modify fun s => { s with remarks := s.remarks ++ t }

/-- Take the value of an attempt, or fail. -/
def take {ε α : Type} (cause : ε → CommandError) : Except ε α → CommandM α
  | .ok a => pure a
  | .error e => throw (cause e)

/-! ### Files -/

/-- The contents of a file. -/
def read (cause : FileError → CommandError) (path : Text) : CommandM Text := do
  take cause ((← get).disk.read path)

/-- Write a file. -/
def write (cause : FileError → CommandError) (path contents : Text) : CommandM Unit := do
  let disk ← take cause ((← get).disk.write path contents)
  modify fun s => { s with disk := disk }

/-- Write a file under another name first, so that it is never seen half written. -/
def replace (o : Occasion) (path contents : Text) : CommandM Unit := do
  let disk ← take .replace ((← get).disk.replace path o.unique contents)
  modify fun s => { s with disk := disk }

/-! ### Settings and inputs -/

/-- The settings of a file, the defaults without one. -/
def settings (path : Text) : CommandM Settings := do
  if path.isEmpty then pure Settings.default
  else take .settings (Settings.load (← get).disk path)

/-- The parse tree of a file. -/
def tree (path : Text) : CommandM Syntax.Tree := do
  let dump ← read .readTree path
  take (.tree path) (Syntax.Tree.read dump)

/-- Compile a tree and log what happens. -/
def compile (o : Occasion) (s : Settings) (l : Logger) (t : Syntax.Tree) :
    CommandM CompilationEnd := do
  let made := ContractNet.compile ⟨s.net, s.validate⟩ none o.elapsed (some t)
  remark (l.lines o.now o.runId made.records)
  pure made.ending

/-- A file holds the document of a net, as its name says. -/
def isDocument (path : Text) : Bool := path.lowerAscii.endsWith ".pnml"

/-- The net of a document, or the one of a parse tree. -/
def net (o : Occasion) (s : Settings) (l : Logger) (path : Text) : CommandM Net := do
  if isDocument path then
    let t ← read .readNet path
    take .document (Net.readPnml t)
  else
    let t ← tree path
    match ← compile o { s with validate := false } l t with
    | .made c => pure c.net
    | .invalid c _ => pure c.net
    | .failed e => throw (.compilation e)

/-! ### Histories -/

/-- The address of an archive. -/
def address (name : Text) : CommandM HistoryAddress :=
  take (fun e => .archive (.address e)) (HistoryAddress.read name)

/-- Keep a history at an address.  In memory it is not kept. -/
def keepHistory (a : HistoryAddress) (h : History) : CommandM Unit :=
  match a.file with
  | none => pure ()
  | some path => write (fun _ => .archive .unreachable) path h.toText

/-- The history at an address; a file that holds none yet is made to hold it. -/
def history (a : HistoryAddress) : CommandM History :=
  match a.file with
  | none => pure {}
  | some path => do
    let stored := ((← get).disk.read path).toOption
    if stored.isNone && a.access ≠ .create then throw (.archive .unreachable)
    match History.ofText? (stored.getD []) with
    | none => throw (.archive .foreign)
    | some h =>
      if stored ≠ some h.toText then
        if a.access = .readOnly then throw (.archive .blank)
        keepHistory a h
      pure h

end CommandM

end ContractNet
