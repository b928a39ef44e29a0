import ContractNet.Files.Basic
import ContractNet.Log.Record
import ContractNet.Net.OfContract
import ContractNet.Text.Blank
import ContractNet.Validation.Report
import ContractNet.Yaml.Printer
import ContractNet.Yaml.Record

/-!
# Settings

`Settings` holds all that a user can choose: names and inscriptions of nets, whether nets are
validated, where runs are recorded, and what is logged.

* `Settings.ofYaml` reads settings over the defaults and checks them;
* `Settings.toYaml` writes them;
* `Settings.load` and `Settings.save` do so with a file;
* `Settings.logger` tells what the log settings ask for.
-/

namespace ContractNet

/-- What a user can choose. -/
structure Settings where
  /-- Names and inscriptions of nets. -/
  net : NetOptions
  /-- Nets are validated. -/
  validate : Bool
  /-- Where runs are recorded; empty if they are not. -/
  archive : Text
  logLevel : Text
  logFormat : Text
deriving DecidableEq

/-- Why settings cannot be used. -/
inductive SettingsError where
  | yaml (e : Yaml.RecordError)
  | level (text : Text) (e : LevelError)
  | format (text : Text)
  | noControl
deriving DecidableEq

/-- Wording of the errors. -/
def SettingsError.message : SettingsError → Text
  | yaml e => e.message
  | level t e => "log.level: " ++ e.message t
  | format t => "log.format must be text or json, got " ++ t.quoted
  | noControl => "marking.control must not be empty"

namespace Settings

/-- The settings of a user who chooses nothing. -/
def default : Settings where
  net := NetOptions.default
  validate := true
  archive := []
  logLevel := "info"
  logFormat := "text"

/-- The inscriptions that validation and drawings look for. -/
def labels (s : Settings) : Labels where
  control := s.net.control
  unit := s.net.unit

/-! ### Logging -/

/-- The least level that is logged; without one it is the level of information. -/
def level (s : Settings) : Except SettingsError Level :=
  if s.logLevel.isEmpty then .ok .info
  else match Level.parse s.logLevel with
    | .ok l => .ok l
    | .error e => .error (.level s.logLevel e)

/-- The layout with a name in any case. -/
def formatOfName? (t : Text) : Option LogFormat :=
  let name := t.lowerAscii
  if name = Text.ofString "text" then some .text
  else if name = Text.ofString "json" then some .json
  else none

/-- What the log settings ask for; without a layout it is text. -/
def logger (s : Settings) : Except SettingsError Logger := do
  let level ← s.level
  if s.logFormat.isEmpty then pure ⟨.text, level⟩
  else match formatOfName? s.logFormat with
    | some f => pure ⟨f, level⟩
    | none => .error (.format s.logFormat)

/-- Settings that can be used: the level and the layout are known, and control arcs have an
inscription. -/
def check (s : Settings) : Except SettingsError Unit := do
  let _ ← s.level
  if (formatOfName? s.logFormat).isNone then .error (.format s.logFormat)
  else if s.net.control.trim.isEmpty then .error .noControl
  else pure ()

/-! ### Reading -/

/-- The names of nets. -/
def netRecord : Yaml.Record NetOptions where
  typeName := "config.NetConfig"
  fields := [
    .ofText "id" fun o t => { o with netId := t },
    .ofText "page" fun o t => { o with pageId := t },
    .ofText "type" fun o t => { o with netType := t },
    .ofText "idPrefix" fun o t => { o with idStem := t }]

/-- The notation of tokens. -/
def markingRecord : Yaml.Record NetOptions where
  typeName := "config.MarkingConfig"
  fields := [
    .ofText "unit" fun o t => { o with unit := t },
    .ofText "control" fun o t => { o with control := t },
    .ofText "bound" fun o t => { o with bound := t }]

/-- Where runs are recorded. -/
def archiveRecord : Yaml.Record Settings where
  typeName := "config.ArchiveConfig"
  fields := [.ofText "path" fun s t => { s with archive := t }]

/-- What is logged. -/
def logRecord : Yaml.Record Settings where
  typeName := "config.LogConfig"
  fields := [
    .ofText "level" fun s t => { s with logLevel := t },
    .ofText "format" fun s t => { s with logFormat := t }]

/-- All settings. -/
def record : Yaml.Record Settings where
  typeName := "config.Config"
  fields := [
    .ofRecord "net" netRecord net fun s o => { s with net := o },
    .ofRecord "marking" markingRecord net fun s o => { s with net := o },
    .ofBool "validate" fun s b => { s with validate := b },
    .ofRecord "archive" archiveRecord id fun _ s => s,
    .ofRecord "log" logRecord id fun _ s => s]

/-- Settings from a document over the defaults. -/
def ofYaml (t : Text) : Except SettingsError Settings :=
  match record.ofText t default with
  | .error e => .error (.yaml e)
  | .ok s => do
    s.check
    pure s

/-! ### Writing -/

/-- The settings as a document. -/
def toYaml (s : Settings) : Text :=
  "net:\n" ++ Yaml.writeEntry 1 "id" s.net.netId ++ Yaml.writeEntry 1 "page" s.net.pageId ++
    Yaml.writeEntry 1 "type" s.net.netType ++ Yaml.writeEntry 1 "idPrefix" s.net.idStem ++
  "marking:\n" ++ Yaml.writeEntry 1 "unit" s.net.unit ++
  Yaml.writeEntry 1 "control" s.net.control ++
    Yaml.writeEntry 1 "bound" s.net.bound ++
  "validate: " ++ (if s.validate then "true\n" else "false\n") ++
  "archive:\n" ++ Yaml.writeEntry 1 "path" s.archive ++
  "log:\n" ++ Yaml.writeEntry 1 "level" s.logLevel ++ Yaml.writeEntry 1 "format" s.logFormat

/-! ### Files -/

/-- Why settings cannot be loaded. -/
inductive LoadError where
  | emptyPath
  | file (e : FileError)
  | settings (path : Text) (e : SettingsError)
deriving DecidableEq

/-- Wording of the errors. -/
def LoadError.message : LoadError → Text
  | emptyPath => "config: empty path"
  | file e => "config: " ++ e.message
  | settings path e => "config: parse " ++ path ++ ": " ++ e.message

/-- Settings from a file over the defaults. -/
def load (d : Disk) (path : Text) : Except LoadError Settings :=
  if path.isEmpty then .error .emptyPath
  else match d.read path with
    | .error e => .error (.file e)
    | .ok t => (ofYaml t).mapError (.settings path)

/-- Wording of an error that settings cannot be saved. -/
def saveErrorMessage (path : Text) (e : FileError) : Text :=
  "config: write " ++ path ++ ": " ++ e.message

/-- Write the settings into a file. -/
def save (s : Settings) (d : Disk) (path : Text) : Except FileError Disk := d.write path s.toYaml

end Settings

end ContractNet
