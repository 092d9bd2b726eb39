import Worksheet.Sheet
import Worksheet.Document

/-! Sheets as documents. A document keeps what was entered, not what the cells show; loading
enters every record again, in the order of the keys, into a new sheet. -/

namespace Worksheet

namespace Document

def ofSheet (sheet : Sheet) : Document :=
  ⟨.ofList (sheet.cells.toList.map fun (address, cell) => (address.text, cell.contents.editText))⟩

/-- Enters one record, given the cells that have had a record already. -/
def replay (seen : Std.TreeSet Address) (sheet : Sheet) (key entry : String) :
    Except SheetError (Std.TreeSet Address × Sheet) := do
  let address ← (Address.parse key).mapError .address
  if seen.contains address then .error (.duplicate address)
  else
    match sheet.enter address.text entry with
    | (.error cause, _) => .error cause
    | (.ok _, sheet) => return (seen.insert address, sheet)

def replayAll (seen : Std.TreeSet Address) (sheet : Sheet) : List (String × String) → Except SheetError Sheet
  | [] => .ok sheet
  | (key, entry) :: records =>
    match replay seen sheet key entry with
    | .error cause => .error (.record key cause)
    | .ok (seen, sheet) => replayAll seen sheet records

/-- The sheet that a document describes. The first record that cannot be entered stops it. -/
def toSheet (document : Document) (options : Options) : Except SheetError Sheet := do
  let sheet ← replayAll ∅ (.new options) document.records.toList
  return { sheet with changed := false }

end Document

/-- Access to files. Paths are opaque here; a folder in memory and the machine's own files are two
ways to give it. -/
structure Files (m : Type → Type) where
  isThere : String → m Bool
  read : String → m (Except FileFault ByteArray)
  write : String → ByteArray → m (Except FileFault Unit)

namespace Sheet

def layout (options : Options) : Json.Layout := if options.indented then .indented else .compact

def toJson (sheet : Sheet) : String := (Document.ofSheet sheet).write (layout sheet.options)

def ofJson (text : String) (options : Options) : Except SheetError Sheet := do
  let document ← (Document.parse text).mapError .document
  document.toSheet options

/-- Replaces all cells by those of a document; the options stay. -/
def loadJson (sheet : Sheet) (text : String) : Except SheetError Sheet := ofJson text sheet.options

def decode (path : String) : Except FileFault ByteArray → Except SheetError String
  | .error fault => .error (.unreadable path fault)
  | .ok bytes =>
    match String.fromUTF8? bytes with
    | some text => .ok text
    | none => .error (.unreadable path .notUtf8)

variable {m : Type → Type} [Monad m]

def read (files : Files m) (path : String) (options : Options) : m (Except SheetError Sheet) := do
  if path = "" then return .error .noPath
  else
    let found ← files.read path
    return do ofJson (← decode path found) options

/-- Reads a file in place of all cells; the options stay. -/
def load (files : Files m) (path : String) (sheet : Sheet) : m (Except SheetError Sheet) :=
  read files path sheet.options

/-- The sheet after it has been written, which has nothing left to store. -/
def written (sheet : Sheet) (path : String) : Except FileFault Unit → Except SheetError Sheet
  | .error fault => .error (.unwritable path fault)
  | .ok () => .ok { sheet with changed := false }

def save (files : Files m) (path : String) (sheet : Sheet) : m (Except SheetError Sheet) := do
  if path = "" then return .error .noPath
  else return sheet.written path (← files.write path sheet.toJson.toUTF8)

end Sheet
end Worksheet
