import Worksheet.Sheet

/-! What a command leaves on the terminal, and how failures and sheets are told there. -/

namespace Worksheet.Command

structure Report where
  code : UInt32
  out : String
  err : String

namespace Report

/-- A message of several lines, indented under its number or under none. -/
def indent (number : Option Nat) (message : String) : String :=
  let first := match number with
    | none => "    "
    | some n => String.ofList (List.replicate (5 - (toString n).length) ' ') ++ toString n ++ ": "
  let next := if number.isSome then "\n       " else "\n    "
  first ++ next.intercalate (message.splitOn "\n")

/-- The causes of a failure, numbered if there are several. -/
def causes : List String → String
  | [] => ""
  | [cause] => "\n\nCaused by:\n" ++ indent none cause
  | many => "\n\nCaused by:\n" ++
      "\n".intercalate (many.zipIdx.map fun (cause, n) => indent (some n) cause)

/-- A failure, from the outermost message to the innermost cause. -/
def failure (out message : String) (chain : List String) : Report :=
  ⟨1, out, "Error: " ++ message ++ causes chain ++ "\n"⟩

def line (fields : List String) : String := "\t".intercalate fields ++ "\n"

def listing (sheet : Sheet) : Report :=
  if sheet.cells.isEmpty then ⟨0, "", "Warning: Spreadsheet is empty\n"⟩
  else
    let row (entry : Address × Cell) : String :=
      let contents := entry.2.contents
      line (entry.1.text :: contents.editText ::
        if contents.formula?.isSome then [entry.2.value.shown] else [])
    ⟨0, .join (sheet.cells.toList.map row), ""⟩

end Report
end Worksheet.Command
