import ContractNet.Command.Flags
import ContractNet.Command.Session
import ContractNet.Contract.Json
import ContractNet.Drawing.Svg
import ContractNet.Net.Json
import ContractNet.Text.Table
import ContractNet.Validation.Summary

/-!
# What the commands do

Every command has options, which its flags set, and takes the remaining arguments as the names of
its inputs.

* `compileAction` writes the net of a contract and records the run;
* `modelAction` shows the contract itself;
* `validateAction` reports on the structure of a net;
* `visualizeAction` draws a net;
* `historyAction` lists the runs that were recorded.
-/

namespace ContractNet

open CommandM

/-- The sizes of a net, a line each. -/
def Net.sizeLines (n : Net) : Text :=
  "  Places: " ++ Text.decimal n.placeCount ++
    "\n  Transitions: " ++ Text.decimal n.transitionCount ++
    "\n  Arcs: " ++ Text.decimal n.arcCount ++ "\n"

/-- The flag for the file of the settings. -/
def settingsFlag {σ : Type} (set : σ → Text → σ) : Flag σ where
  name := "config"
  purpose := "YAML settings file"
  effect := .text set

/-! ### Compiling -/

/-- Options of a compilation. -/
structure CompileOptions where
  settings : Text := []
  output : Text := []
  format : Text := "pnml"
  archive : Text := []
  skipValidation : Bool := false

/-- Flags of a compilation. -/
def compileFlags : List (Flag CompileOptions) := [
  settingsFlag fun o t => { o with settings := t },
  { name := "o", purpose := "Output file (default: stdout)"
    effect := .text fun o t => { o with output := t } },
  { name := "format", purpose := "Output format: pnml or json", usual := "\"pnml\""
    effect := .text fun o t => { o with format := t } },
  { name := "archive", purpose := "Record the run in this history database (overrides config)"
    effect := .text fun o t => { o with archive := t } },
  { name := "no-validate", purpose := "Skip structural validation"
    effect := .switch fun o b => { o with skipValidation := b } }]

/-- The settings with what the options say against them. -/
def CompileOptions.adjust (c : CompileOptions) (s : Settings) : Settings :=
  { s with
    validate := s.validate && !c.skipValidation
    archive := if c.archive.isEmpty then s.archive else c.archive }

/-- The compilation of a tree; the findings about an invalid net are shown. -/
def compiled (o : Occasion) (s : Settings) (l : Logger) (t : Syntax.Tree) :
    CommandM Compilation := do
  match ← CommandM.compile o s l t with
  | .made c => pure c
  | .invalid _ r =>
    print r.toText
    throw (.compilation (.invalid r.errors.length))
  | .failed e => throw (.compilation e)

/-- Write a net in one of its two forms. -/
def writeNet (o : Occasion) (c : CompileOptions) (made : Compilation) : CommandM Unit :=
  if c.format = Text.ofString "json" then
    let form : Text := made.net.toJson?.getD []
    if c.output.isEmpty then print (form ++ "\n") else write .write c.output form
  else if c.output.isEmpty then print made.document
  else replace o c.output made.document

/-- The run of a compilation. -/
def Compilation.toRun (c : Compilation) (id : Text) : Run where
  id := id
  contract := c.contract.name
  cid := c.cid
  places := c.net.placeCount
  transitions := c.net.transitionCount
  arcs := c.net.arcCount
  valid := c.report.all Report.valid
  document := c.document
  created := Instant.zero

/-- Record a compilation in an archive. -/
def recordRun (o : Occasion) (archive : Text) (made : Compilation) : CommandM Unit := do
  let a ← address archive
  let h ← history a
  let (run, h) ← take .history (h.record o.runId o.now (made.toRun o.runId))
  if a.access = .readOnly then throw (.archive (.sealed run.id))
  keepHistory a h
  remark ("Recorded run " ++ run.id ++ "\n")

/-- Compile the contract of a parse tree. -/
def compileAction (o : Occasion) (c : CompileOptions) : List Text → CommandM Unit
  | [] => throw .noTree
  | path :: _ => do
    unless ([("pnml" : Text), "json"]).contains c.format do throw (.unknownFormat c.format)
    let s := c.adjust (← settings c.settings)
    let l ← take .logger s.logger
    let t ← tree path
    let made ← compiled o s l t
    writeNet o c made
    unless s.archive.isEmpty do recordRun o s.archive made
    unless c.output.isEmpty do
      remark ("✓ " ++ made.contract.name ++ " compiled to " ++ c.output ++ "\n" ++
        made.net.sizeLines ++ "  CID: " ++ made.cid ++ "\n")

/-! ### The contract -/

/-- Options of showing a contract. -/
structure ModelOptions where
  json : Bool := false

/-- Flags of showing a contract. -/
def modelFlags : List (Flag ModelOptions) := [
  { name := "json", purpose := "Output the model as JSON"
    effect := .switch fun _ b => ⟨b⟩ }]

/-- Show the contract of a parse tree. -/
def modelAction (m : ModelOptions) : List Text → CommandM Unit
  | [] => throw .noTree
  | path :: _ => do
    let t ← tree path
    let c ← take .build (Contract.build (some t))
    if m.json then print ((c.toJson (.array [])).pretty ++ "\n") else print c.summary

/-! ### Validating -/

/-- Options of a validation. -/
structure ValidateOptions where
  settings : Text := []
  json : Bool := false
  output : Text := []

/-- Flags of a validation. -/
def validateFlags : List (Flag ValidateOptions) := [
  settingsFlag fun o t => { o with settings := t },
  { name := "json", purpose := "Output results as JSON"
    effect := .switch fun o b => { o with json := b } },
  { name := "output", purpose := "Write JSON results to file"
    effect := .text fun o t => { o with output := t } }]

/-- Put a report where it is wanted: into a file, or on the screen in one of its two forms. -/
def showReport (v : ValidateOptions) (r : Report) : CommandM Unit := do
  if !v.output.isEmpty then
    write .write v.output r.toJson.pretty
    remark ("Validation results written to " ++ v.output ++ "\n")
  else if v.json then print (r.toJson.pretty ++ "\n")
  else print r.toText

/-- Report on the structure of a net. -/
def validateAction (o : Occasion) (v : ValidateOptions) : List Text → CommandM Unit
  | [] => throw .noInput
  | path :: _ => do
    let s ← settings v.settings
    let l ← take .logger s.logger
    let n ← net o s l path
    let r := Net.validate s.labels (some n)
    showReport v r
    unless r.valid do throw (.invalid r.errors.length)

/-! ### Drawing -/

/-- Options of a drawing. -/
structure VisualizeOptions where
  settings : Text := []
  output : Text := []

/-- Flags of a drawing. -/
def visualizeFlags : List (Flag VisualizeOptions) := [
  settingsFlag fun o t => { o with settings := t },
  { name := "output", purpose := "Output SVG file (required)"
    effect := .text fun o t => { o with output := t } }]

/-- Draw a net. -/
def visualizeAction (o : Occasion) (v : VisualizeOptions) : List Text → CommandM Unit
  | [] => throw .noInput
  | path :: _ => do
    if v.output.isEmpty then throw .noOutput
    let s ← settings v.settings
    let l ← take .logger s.logger
    let n ← net o s l path
    match n.toSvg? s.labels with
    | none => throw .nothingToDraw
    | some image =>
      write .draw v.output image
      print ("✓ Visualization saved to " ++ v.output ++ "\n" ++ n.sizeLines)

/-! ### Recorded runs -/

/-- Options of a list of runs. -/
structure HistoryOptions where
  settings : Text := []
  archive : Text := []
  contract : Text := []
  limit : Int := 20
  cid : Text := []
  json : Bool := false

/-- Flags of a list of runs. -/
def historyFlags : List (Flag HistoryOptions) := [
  settingsFlag fun o t => { o with settings := t },
  { name := "archive", purpose := "History database (overrides config)"
    effect := .text fun o t => { o with archive := t } },
  { name := "contract", purpose := "Only list runs of this contract"
    effect := .text fun o t => { o with contract := t } },
  { name := "limit", purpose := "Maximum number of runs (0 for all)", usual := "20"
    effect := .number fun o n => { o with limit := n } },
  { name := "cid", purpose := "Show the latest run that produced this document"
    effect := .text fun o t => { o with cid := t } },
  { name := "json", purpose := "Output runs as JSON"
    effect := .switch fun o b => { o with json := b } }]

/-- A run as a line of a table. -/
def Run.line (r : Run) : Text :=
  let valid : Text := if r.valid then "true" else "false"
  Text.join "\t" [r.id, r.contract, Text.integer r.places, Text.integer r.transitions,
    Text.integer r.arcs, valid, (r.created : Instant).toSeconds, r.cid] ++ "\n"

/-- Runs as a table. -/
def runTable (rs : List Run) : Text :=
  Text.table ("RUN\tCONTRACT\tPLACES\tTRANSITIONS\tARCS\tVALID\tCREATED\tCID\n" ++
    (rs.map Run.line).flatten)

/-- Runs as JSON; no runs are nothing rather than an empty list. -/
def runsJson (rs : List Run) : Json := if rs.isEmpty then .null else .array (rs.map Run.toJson)

/-- The runs that are asked for. -/
def HistoryOptions.select (q : HistoryOptions) (h : History) : Except HistoryError (List Run) :=
  if q.cid.isEmpty then h.list q.contract q.limit
  else (h.byContent q.cid).map fun r => [r]

/-- List recorded runs. -/
def historyAction (q : HistoryOptions) : CommandM Unit := do
  let s ← settings q.settings
  let name := if q.archive.isEmpty then s.archive else q.archive
  if name.isEmpty then throw .noHistory
  take .openHistory ((← get).disk.stat name)
  let h ← history (← address name)
  let runs ← take .history (q.select h)
  if q.json then print ((runsJson runs).pretty ++ "\n") else print (runTable runs)

end ContractNet
