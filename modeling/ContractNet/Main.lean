import ContractNet.Command.Line
import Std.Time.DateTime.Timestamp

/-!
# The program

Finds the files that the arguments speak of, carries out the command on them and writes what has
changed.
-/

namespace ContractNet

/-- What lies at a path. -/
inductive Entry where
  | missing
  | folder
  | file (contents : Text)

/-- Look at a path.  What can be opened and not be read is a directory. -/
def look (path : String) : IO Entry := do
  match ← (IO.FS.Handle.mk path .read).toBaseIO with
  | .error _ => return .missing
  | .ok h =>
    match ← h.readBinToEnd.toBaseIO with
    | .error _ => return .folder
    | .ok bytes => return .file bytes.data.toList

/-- The string of a text; none if its bytes are not those of one. -/
def stringOf? (t : Text) : Option String := String.fromUTF8? ⟨t.toArray⟩

/-- The route that a path spells. -/
def routeOf (path : Text) : Route := Text.splitAt '/' (Disk.tidy path)

/-- The paths on the way to a path, itself included. -/
def waysTo (path : Text) : List Text :=
  let names := routeOf path
  (List.range names.length).map fun n => Text.join "/" (names.take (n + 1))

/-- Add to a disk what lies at a path and on the way to it. -/
def survey (d : Disk) (path : Text) : IO Disk :=
  (waysTo path).foldlM (fun d p => do
    match stringOf? p with
    | none => return d
    | some s =>
      match ← look s with
      | .missing => return d
      | .folder => return { d with folders := routeOf p :: d.folders }
      | .file c => return d.put (routeOf p) c) d

/-- The paths that the arguments may name: every argument and every value of a flag. -/
def namedPaths (args : List Text) : List Text :=
  args.flatMap fun a => a :: (Flag.splitValue a).2.toList

/-- The archives of the settings among the named files. -/
def namedArchives (d : Disk) (paths : List Text) : List Text :=
  paths.filterMap fun p => (Settings.load d p).toOption.map Settings.archive

/-- The files of archives among the given names. -/
def archiveFiles (names : List Text) : List Text :=
  names.filterMap fun name => (HistoryAddress.read name).toOption.bind HistoryAddress.file

/-- The files that a command may need. -/
def gather (args : List Text) : IO Disk := do
  let paths := namedPaths args
  let d ← paths.foldlM survey {}
  (archiveFiles (paths ++ namedArchives d paths)).foldlM survey d

/-- Sixteen bytes as the id of a run. -/
def runIdOf (bytes : List UInt8) : Text :=
  let marked := bytes.mapIdx fun i b =>
    if i = 6 then b % 16 + 0x40 else if i = 8 then b % 64 + 0x80 else b
  let digits := marked.flatMap fun b => Text.padZeros 2 (Text.hex b.toNat)
  Text.join "-" [digits.take 8, (digits.drop 8).take 4, (digits.drop 12).take 4,
    (digits.drop 16).take 4, digits.drop 20]

/-- The present occasion; the time a compilation takes is counted from `start`. -/
def occasion (start : Nat) : IO Occasion := do
  let bytes := (← IO.getRandomBytes 16).data.toList
  let now ← Std.Time.Timestamp.now
  let unique ← IO.rand 1000000000 4294967295
  return ⟨runIdOf bytes, ⟨now.toNanosecondsSinceUnixEpoch.val⟩, (← IO.monoNanosNow) - start,
    Text.decimal unique⟩

/-- Write the files of a disk that differ from those of an earlier one. -/
def store (before after : Disk) : IO Unit := do
  for (r, c) in after.files do
    if before.get? r ≠ some c then
      if let some path := stringOf? (Text.join "/" r) then
        IO.FS.writeBinFile path ⟨c.toArray⟩

end ContractNet

open ContractNet in
/-- Carry out the command that the arguments name. -/
def main (args : List String) : IO UInt32 := do
  let start ← IO.monoNanosNow
  let args := args.map Text.ofString
  let disk ← gather args
  let outcome := CommandLine.run (← occasion start) disk args
  store disk outcome.disk
  (← IO.getStdout).write ⟨outcome.output.toArray⟩
  (← IO.getStderr).write ⟨outcome.remarks.toArray⟩
  return outcome.exit.toUInt32
