import Worksheet.Cell
import Worksheet.Graph.Walk
import Worksheet.Sheet.Fault

/-! A sheet holds cells that are not empty, and the graph of which cell reads which. An edit puts
contents into one cell and recomputes it and every cell that reads it, in an order in which
each comes after the cells it reads. An edit that would make cells read each other in a
circle is refused. -/

namespace Worksheet

structure Options where
  name : String := "default"
  /-- Whether documents are written with indentation. -/
  indented : Bool := true
deriving DecidableEq

structure Sheet where
  options : Options
  cells : Std.TreeMap Address Cell
  graph : Graph Address
  /-- Whether an edit has been made since the sheet was new, stored or loaded. -/
  changed : Bool

namespace Sheet

def new (options : Options) : Sheet := ⟨options, ∅, .empty, false⟩

/-- The number that a cell shows to formulas; text, errors and missing cells show none. -/
def numberAt? (cells : Std.TreeMap Address Cell) (address : Address) : Option Float :=
  cells[address]?.bind (·.value.number?)

def recompute (cells : Std.TreeMap Address Cell) (address : Address) : Std.TreeMap Address Cell :=
  match cells[address]? with
  | none => cells
  | some cell =>
    match cell.contents.formula? with
    | none => cells
    | some f => cells.insert address { cell with value := .ofResult (f.evaluate (numberAt? cells)) }

/-- What an edit answers, the cells it recomputed or why it is refused, and the sheet it leaves. -/
abbrev Edited := Except SheetError (List Address) × Sheet

/-- Puts contents under an address, or takes away what is there. -/
def place (cells : Std.TreeMap Address Cell) (address : Address) (contents : Contents) : Std.TreeMap Address Cell :=
  if contents.isEmpty then cells.erase address else cells.insert address (.enter contents)

def settle (sheet : Sheet) (address : Address) (contents : Contents) (order : List Address) : Edited :=
  (.ok order, { sheet with cells := order.foldl recompute (place sheet.cells address contents), changed := true })

/-- Makes a cell read the given cells, and no others. -/
def rewire (sheet : Sheet) (address : Address) (inputs : List Address) : Sheet :=
  { sheet with graph := sheet.graph.setPrecedents address inputs }

/-- Stores contents in a cell. The edges into the cell are replaced first, so that the order is
that of the new graph; a formula that would close a circle has the old ones put back. -/
def store (sheet : Sheet) (address : Address) (contents : Contents) : Edited :=
  match contents.formula? with
  | some f =>
    let previous := sheet.graph.precedents address
    let rewired := sheet.rewire address f.inputs.toList
    match rewired.graph.updateOrder? address with
    | some order => rewired.settle address contents order
    | none => (.error (.circular address), rewired.rewire address previous.toList)
  | none =>
    let rewired := sheet.rewire address []
    match rewired.graph.updateOrder? address with
    | some order => rewired.settle address contents order
    | none => (.error (.circular address), rewired)

def enter (sheet : Sheet) (name entry : String) : Edited :=
  match Address.parse name with
  | .error e => (.error (.address e), sheet)
  | .ok address =>
    match Contents.parse entry with
    | .error e => (.error (.formula e), sheet)
    | .ok contents => sheet.store address contents

/-- Puts contents into a cell that have not been read from a text. -/
def put (sheet : Sheet) (address : Address) (contents : Contents) : Edited :=
  match contents.normalized? with
  | some contents => sheet.store address contents
  | none => (.error (.unstorable contents.editText), sheet)

def contentsAt (sheet : Sheet) (address : Address) : Contents :=
  (sheet.cells[address]?.map Cell.contents).getD .empty

def valueAt (sheet : Sheet) (address : Address) : Value := (sheet.cells[address]?.map Cell.value).getD .empty

/-- The contents of the cell with a name; a cell that is not stored is empty. -/
def contents (sheet : Sheet) (name : String) : Except SheetError Contents := do
  return sheet.contentsAt (← (Address.parse name).mapError .address)

def value (sheet : Sheet) (name : String) : Except SheetError Value := do
  return sheet.valueAt (← (Address.parse name).mapError .address)

/-- The cells whose formulas read the cell with a name, in order. -/
def dependents (sheet : Sheet) (name : String) : Except SheetError (List Address) := do
  return (sheet.graph.dependents (← (Address.parse name).mapError .address)).toList

end Sheet
end Worksheet
