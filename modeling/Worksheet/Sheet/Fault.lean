import Worksheet.Formula.Fault
import Worksheet.Json.Scan
import Worksheet.Text.Quoted

/-! What can go wrong with a sheet. Some faults belong to an edit, the others to reading and
writing stored sheets; a record that cannot be entered again carries the fault of its entry. -/

namespace Worksheet

inductive FileFault where
  | notFound
  | isDirectory
  | notDirectory
  | nameTooLong
  | zeroInName
  | notUtf8
  /-- Anything else, in the words of the system. -/
  | other (text : String)
deriving DecidableEq

namespace FileFault

def message : FileFault → String
  | notFound => "No such file or directory (os error 2)"
  | isDirectory => "Is a directory (os error 21)"
  | notDirectory => "Not a directory (os error 20)"
  | nameTooLong => "File name too long (os error 36)"
  | zeroInName => "file name contained an unexpected NUL byte"
  | notUtf8 => "stream did not contain valid UTF-8"
  | other text => text

end FileFault

inductive SheetError where
  | address (e : AddressError)
  | formula (e : FormulaError)
  /-- The cell would read itself, directly or through others. -/
  | circular (cell : Address)
  /-- The contents would become others when they are stored and read again. -/
  | unstorable (editText : String)
  | duplicate (cell : Address)
  | noPath
  | unreadable (path : String) (fault : FileFault)
  | unwritable (path : String) (fault : FileFault)
  | document (fault : Json.Fault)
  /-- A record that cannot be entered, by its key. -/
  | record (key : String) (cause : SheetError)

namespace SheetError

def message : SheetError → String
  | address e => e.message
  | formula e => "Invalid formula: " ++ e.message
  | circular cell => "Circular dependency detected involving cell " ++ cell.text
  | unstorable editText => "Contents " ++ Text.quote editText ++ " cannot be stored as entered"
  | duplicate cell => "Cell " ++ cell.text ++ " appears more than once"
  | noPath => "Invalid file path: ''"
  | unreadable path fault => "Failed to read '" ++ path ++ "': " ++ fault.message
  | unwritable path fault => "Failed to write '" ++ path ++ "': " ++ fault.message
  | document _ => "Malformed spreadsheet document"
  | record key _ => "Failed to load cell '" ++ key ++ "'"

/-- The messages of an error and of all that caused it, outermost first. -/
def chain : SheetError → List String
  | record key cause => (record key cause).message :: cause.chain
  | formula e => [(formula e).message, e.message]
  | unreadable path fault => [(unreadable path fault).message, fault.message]
  | unwritable path fault => [(unwritable path fault).message, fault.message]
  | other => [other.message]

/-- Whether an error concerns stored sheets and not an edit. -/
def isStorage : SheetError → Bool
  | noPath | unreadable .. | unwritable .. | document _ | record .. => true
  | _ => false

end SheetError
end Worksheet
