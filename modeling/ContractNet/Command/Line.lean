import ContractNet.Command.Actions

/-!
# The command line

The first argument names a command; `CommandLine.run` carries it out.  An exit code tells how it
went: 0 if well, 1 if the command failed, and 2 if its flags could not be read.
-/

namespace ContractNet

/-- What a command leaves behind. -/
structure Outcome where
  exit : Nat
  output : Text
  remarks : Text
  disk : Disk

/-- A command with options `σ`. -/
structure Command (σ : Type) where
  /-- How it is called and what it is for. -/
  synopsis : List String
  flags : List (Flag σ)
  /-- What is said after the flags. -/
  advice : List String := []
  /-- The options without flags. -/
  options : σ
  action : Occasion → σ → List Text → CommandM Unit

/-- Lines, each with its end. -/
def unlines (ls : List String) : Text := ls.flatMap fun l => Text.ofString l ++ "\n"

namespace Command

variable {σ : Type} (c : Command σ)

/-- How the command is used. -/
def usage : Text := unlines c.synopsis ++ Flag.describe c.flags ++ unlines c.advice

/-- Carry out the command. -/
def run (o : Occasion) (d : Disk) (args : List Text) : Outcome :=
  match Flag.parse c.flags c.options args with
  | .error e => ⟨if e = .help then 0 else 2, [], e.message ++ c.usage, d⟩
  | .ok (options, inputs) =>
    match (c.action o options inputs).run { disk := d } with
    | .ok _ s => ⟨0, s.output, s.remarks, s.disk⟩
    | .error e s =>
      let help : Text := if e.isMisuse then c.usage else []
      ⟨1, s.output, s.remarks ++ help ++ "Error: " ++ e.message ++ "\n", s.disk⟩

end Command

namespace CommandLine

/-! ### The commands -/

/-- The command `compile`. -/
def compile : Command CompileOptions where
  synopsis := [
    "Usage: solcpn compile [options] <tree.json>",
    "",
    "Compile the contract in a parse tree dump into a colored Petri net.",
    "",
    "Options:"]
  flags := compileFlags
  advice := [
    "",
    "Examples:",
    "  # Write PNML to stdout",
    "  solcpn compile counter.json",
    "",
    "  # Write PNML to a file (replaced atomically)",
    "  solcpn compile -o counter.pnml counter.json",
    "",
    "  # Export the JSON form",
    "  solcpn compile -format json -o counter.net.json counter.json"]
  options := {}
  action := compileAction

/-- The command `model`. -/
def model : Command ModelOptions where
  synopsis := [
    "Usage: solcpn model [options] <tree.json>",
    "",
    "Print the contract model built from a parse tree: state variables,",
    "constructor and functions with their statements.",
    "",
    "Options:"]
  flags := modelFlags
  options := {}
  action _ := modelAction

/-- The command `validate`. -/
def validate : Command ValidateOptions where
  synopsis := [
    "Usage: solcpn validate [options] <net.pnml | tree.json>",
    "",
    "Check the structure of a compiled net.",
    "",
    "Options:"]
  flags := validateFlags
  advice := [
    "",
    "Checks performed:",
    "  - Unique, non-empty element ids",
    "  - Arcs join an existing place and an existing transition",
    "  - At most one place holds the initial control token",
    "  - Connectivity (isolated places, transitions without inputs/outputs)",
    "  - Guards are bracketed conditions",
    "  - Integer literals fit in 256 bits",
    "  - Control chains from every entry place",
    "",
    "Examples:",
    "  # Validate a document",
    "  solcpn validate counter.pnml",
    "",
    "  # Compile and validate, report as JSON",
    "  solcpn validate -json counter.json"]
  options := {}
  action := validateAction

/-- The command `visualize`. -/
def visualize : Command VisualizeOptions where
  synopsis := [
    "Usage: solcpn visualize [options] <net.pnml | tree.json>",
    "",
    "Generate SVG visualization of a compiled net. State places are drawn in",
    "the top row and each function's control chain in a row below.",
    "",
    "Options:"]
  flags := visualizeFlags
  options := {}
  action := visualizeAction

/-- The command `history`. -/
def history : Command HistoryOptions where
  synopsis := [
    "Usage: solcpn history [options]",
    "",
    "List compilations recorded with \"solcpn compile -archive\".",
    "",
    "Options:"]
  flags := historyFlags
  options := {}
  action _ options _ := historyAction options

/-! ### All of them -/

/-- How the program is used. -/
def usage : Text := unlines [
  "solcpn - Solidity contract to colored Petri net compiler",
  "",
  "Usage:",
  "  solcpn <command> [options] <input>",
  "",
  "Input is the JSON dump of a Solidity parse tree, or a .pnml document",
  "where a compiled net is accepted.",
  "",
  "Commands:",
  "  compile    Compile a contract into a PNML document",
  "  model      Print the semantic model of a contract",
  "  validate   Check the structure of a compiled net",
  "  visualize  Generate SVG visualization of a compiled net",
  "  history    List recorded compilations",
  "  help       Show this help message",
  "  version    Show version information",
  "",
  "Examples:",
  "  # Compile to PNML",
  "  solcpn compile -o counter.pnml counter.json",
  "",
  "  # Compile with settings and record the run",
  "  solcpn compile -config solcpn.yaml -archive history.db counter.json",
  "",
  "  # Inspect the model",
  "  solcpn model counter.json",
  "",
  "  # Draw the net",
  "  solcpn visualize -output counter.svg counter.pnml",
  "",
  "For command-specific help, run:",
  "  solcpn <command> --help"]

/-- The name and the version of the program. -/
def version : Text := "solcpn version 1.0.0\n"

/-- A text is one of the given names. -/
def isOneOf (t : Text) (names : List String) : Bool := names.any fun n => t = Text.ofString n

/-- Carry out the command that the arguments name. -/
def run (o : Occasion) (d : Disk) : List Text → Outcome
  | [] => ⟨1, usage, [], d⟩
  | name :: args =>
    if name = Text.ofString "compile" then compile.run o d args
    else if name = Text.ofString "model" then model.run o d args
    else if name = Text.ofString "validate" then validate.run o d args
    else if name = Text.ofString "visualize" then visualize.run o d args
    else if name = Text.ofString "history" then history.run o d args
    else if isOneOf name ["help", "-h", "--help"] then ⟨0, usage, [], d⟩
    else if isOneOf name ["version", "-v", "--version"] then ⟨0, version, [], d⟩
    else ⟨1, usage, "Unknown command: " ++ name ++ "\n\n", d⟩

end CommandLine

end ContractNet
