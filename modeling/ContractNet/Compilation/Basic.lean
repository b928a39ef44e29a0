import ContractNet.Contract.Build
import ContractNet.Digest.Sha256
import ContractNet.Log.Record
import ContractNet.Net.Pnml
import ContractNet.Validation.Report

/-!
# Compilations

`compile` goes from the parse tree of one contract to the document of its net: the contract is
built, its net is made and written, and, if asked for, the net is validated.  Every step leaves a
log record.

The caller may call the whole thing off; that is looked at twice, before the net is made and
before it is written.
-/

namespace ContractNet

/-- What a compilation is asked to do. -/
structure CompilationOptions where
  net : NetOptions
  validate : Bool

/-- What a compilation makes. -/
structure Compilation where
  contract : Contract
  net : Net
  document : Text
  /-- The content identifier of the document. -/
  cid : Text
  /-- The findings about the net, if it was validated. -/
  report : Option Report

/-- Why a compilation fails. -/
inductive CompilationError where
  | build (e : BuildError)
  | canceled
  | compile (contract : Text) (e : CompileError)
  /-- The net has no page to write. -/
  | serialize (contract : Text)
  /-- Validation has found errors. -/
  | invalid (errors : Nat)

/-- Wording of the errors. -/
def CompilationError.message : CompilationError → Text
  | build e => "build model: " ++ e.message
  | canceled => "context canceled"
  | compile contract e => "compile " ++ contract ++ ": " ++ e.message
  | serialize contract => "serialize " ++ contract ++ ": net has no page"
  | invalid errors => "pipeline: net failed validation: " ++ Text.decimal errors ++ " errors"

/-- How a compilation ends. -/
inductive CompilationEnd where
  | made (c : Compilation)
  /-- The net is there, and validation has found errors in it. -/
  | invalid (c : Compilation) (r : Report)
  | failed (e : CompilationError)

/-- What a compilation leaves behind. -/
structure CompilationOutcome where
  records : List LogRecord
  ending : CompilationEnd

namespace CompilationEnd

/-- What was made. -/
def result? : CompilationEnd → Option Compilation
  | made c => some c
  | invalid c _ => some c
  | failed _ => none

/-- What went wrong. -/
def failure? : CompilationEnd → Option CompilationError
  | made _ => none
  | invalid _ r => some (.invalid r.errors.length)
  | failed e => some e

end CompilationEnd

namespace Net

/-- The number of places. -/
def placeCount (n : Net) : Nat := n.page.elim 0 fun p => p.places.length

/-- The number of transitions. -/
def transitionCount (n : Net) : Nat := n.page.elim 0 fun p => p.transitions.length

/-- The number of arcs. -/
def arcCount (n : Net) : Nat := n.page.elim 0 fun p => p.arcs.length

end Net

namespace Compilation

/-! ### Records -/

/-- The record that a contract could not be built. -/
def buildFailed (e : BuildError) : LogRecord where
  level := .error
  message := "Model build failed"
  values := [("error", .text e.message)]

/-- The record that a contract was built. -/
def modelBuilt (c : Contract) : LogRecord where
  level := .debug
  message := "Model built"
  values := [("contract", .text c.name), ("stateVariables", .number c.stateVariables.length),
    ("functions", .number c.functions.length)]

/-- The record that a contract has no net. -/
def compileFailed (contract : Text) (e : CompileError) : LogRecord where
  level := .error
  message := "Compilation failed"
  values := [("contract", .text contract), ("error", .text e.message)]

/-- The numbers of a net's elements. -/
def sizeValues (n : Net) : List (Text × LogValue) :=
  [("places", .number n.placeCount), ("transitions", .number n.transitionCount),
    ("arcs", .number n.arcCount)]

/-- The record that the net of a contract was made. -/
def netCompiled (contract : Text) (n : Net) : LogRecord where
  level := .debug
  message := "Net compiled"
  values := ("contract", .text contract) :: sizeValues n

/-- The record of a finding. -/
def findingRecord (level : Level) (message : Text) (f : Finding) : LogRecord where
  level := level
  message := message
  values := [("category", .text f.category.text), ("message", .text f.message)]

/-- The records of a report: its warnings, then its errors. -/
def reportRecords (r : Report) : List LogRecord :=
  r.warnings.map (findingRecord .warn "Validation warning") ++
    r.errors.map (findingRecord .error "Validation error")

/-- The record that a compilation has ended well after some nanoseconds. -/
def compiled (c : Compilation) (elapsed : Nat) : LogRecord where
  level := .info
  message := "Contract compiled"
  values := ("contract", .text c.contract.name) :: (sizeValues c.net ++ closing)
where
  /-- What stands at the end of the record. -/
  closing : List (Text × LogValue) := [("cid", .text c.cid), ("elapsed", .duration elapsed)]

end Compilation

open Compilation

/-! ### Steps -/

/-- Write and validate the net of a contract. -/
def finish (o : CompilationOptions) (elapsed : Nat) (records : List LogRecord) (c : Contract)
    (n : Net) : CompilationOutcome :=
  match n.toPnml? with
  | none => ⟨records, .failed (.serialize c.name)⟩
  | some document =>
    let report :=
      if o.validate then some (Net.validate ⟨o.net.control, o.net.unit⟩ (some n)) else none
    let result : Compilation := ⟨c, n, document, contentId document, report⟩
    let records := records ++ report.elim [] reportRecords
    match report with
    | some r =>
      if r.valid then ⟨records ++ [result.compiled elapsed], .made result⟩
      else ⟨records, .invalid result r⟩
    | none => ⟨records ++ [result.compiled elapsed], .made result⟩

/-- Compile the contract of a parse tree.  The caller lets `patience` checks pass before the
compilation is called off, all of them if it is none; it takes `elapsed` nanoseconds. -/
def compile (o : CompilationOptions) (patience : Option Nat) (elapsed : Nat)
    (tree : Option Syntax.Tree) : CompilationOutcome :=
  match Contract.build tree with
  | .error e => ⟨[buildFailed e], .failed (.build e)⟩
  | .ok c =>
    if patience.any (· < 1) then ⟨[modelBuilt c], .failed .canceled⟩
    else match Net.ofContract o.net (some c) with
      | .error e => ⟨[modelBuilt c, compileFailed c.name e], .failed (.compile c.name e)⟩
      | .ok n =>
        let records := [modelBuilt c, netCompiled c.name n]
        if patience.any (· < 2) then ⟨records, .failed .canceled⟩
        else finish o elapsed records c n

end ContractNet
