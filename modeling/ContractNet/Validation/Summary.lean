import ContractNet.Validation.Report

/-!
# Reports for readers

`Report.toText` writes a report for somebody who reads it on a screen: the size of the net, the
findings by severity, the chains of control and the verdict.
-/

namespace ContractNet

/-- A list in square brackets, with spaces between its items. -/
def bracketed (ts : List Text) : Text := "[" ++ Text.join " " ts ++ "]"

/-- A finding under its mark. -/
def Finding.toText (mark : Text) (f : Finding) : Text :=
  let head : Text := "  " ++ mark ++ " [" ++ f.category.text ++ "] " ++ f.message ++ "\n"
  let place : Text :=
    if f.location.isEmpty then [] else "    Location: " ++ bracketed f.location ++ "\n"
  let advice : Text :=
    if f.suggestion.isEmpty then [] else "    Suggestion: " ++ f.suggestion ++ "\n"
  head ++ place ++ advice ++ "\n"

/-- Findings of one severity under a title; nothing if there are none. -/
def findingsText (title mark : Text) (fs : List Finding) : Text :=
  if fs.isEmpty then []
  else title ++ " (" ++ Text.decimal fs.length ++ "):\n" ++ (fs.map (Finding.toText mark)).flatten

/-- A chain of control. -/
def Chain.toText (c : Chain) : Text :=
  let front : Text := "  " ++ c.entry ++ " → " ++ bracketed c.transitions
  (if c.rest.isEmpty then front else front ++ " → " ++ c.rest) ++ "\n"

/-- The chains of control of a net. -/
def ControlFlow.toText (c : ControlFlow) : Text :=
  "Control Flow:\n" ++ (c.chains.map Chain.toText).flatten ++ "\n"

namespace Report

variable (r : Report)

/-- The size of the net and whether it is balanced. -/
def sizeText : Text :=
  let balance : Text :=
    if r.balanced then "Balance: ✓ Every transition has matching inputs and outputs\n"
    else "Balance: ⚠ Some transitions are unbalanced\n"
  "Net: " ++ Text.decimal r.places ++ " places, " ++
    Text.decimal r.transitions ++ " transitions, " ++
    Text.decimal r.arcs ++ " arcs\n" ++ balance ++ "\n"

/-- The verdict. -/
def verdictText : Text :=
  if r.valid then "✓ Validation PASSED\n"
  else "✗ Validation FAILED\n  " ++ Text.decimal r.errors.length ++ " error(s) must be fixed\n"

/-- The report as it is shown on a screen. -/
def toText : Text :=
  "=== Petri Net Validation ===\n" ++ r.sizeText ++ findingsText "Errors" "✗" r.errors ++
    findingsText "Warnings" "⚠" r.warnings ++ findingsText "Info" "ℹ" r.infos ++
    r.controlFlow.elim [] ControlFlow.toText ++ "───────────────────────────────────\n" ++
    r.verdictText

end Report

end ContractNet
