import Std.Data.TreeMap
import Worksheet.Json.Members
import Worksheet.Json.Layout

/-! Documents: a sheet on paper, one record for each cell with the text that was entered there.
A document is a JSON object whose member `Cells` holds the records by cell name; it is read
with more freedom than it is written. -/

namespace Worksheet

structure Document where
  /-- The entered text of every record, in the order of the keys. -/
  records : Std.TreeMap String String

namespace Document
open Json

def cellsKey : String := "Cells"

def entryKey : String := "StringForm"

/-- The entered text in one record, which is an object or an array of its one field. -/
def readRecord (cs : List Char) : Except Fault (List Char × Rest cs) :=
  let field : Option (List Char) → List Char → Reader (Option (List Char)) := fun entry key cs =>
    if key = entryKey.toList then
      if entry.isSome then .error .mismatch
      else do
        let (text, rest) ← readValue readText cs
        return (some text, rest)
    else do return (entry, ← skipMember cs)
  let demand {cs ds : List Char} (longer : cs.length < ds.length) :
      Option (List Char) × Rest cs → Except Fault (List Char × Rest ds)
    | (some entry, rest) => .ok (entry, rest.extend (Nat.le_of_lt longer))
    | (none, _) => .error .mismatch
  match found : dropSpace cs with
  | '\x7b' :: rest => do demand (length_lt_of_dropSpace found) (← readMembers field true none rest)
  | '[' :: rest => do demand (length_lt_of_dropSpace found) (← readSingle readText rest)
  | start => .error (unwanted start)

/-- The records by key. Of two records under one key the later one counts. -/
def readRecords (cs : List Char) : Except Fault (Std.TreeMap String String × Rest cs) :=
  let record : Std.TreeMap String String → List Char → Reader (Std.TreeMap String String) :=
    fun records key cs => do
      let (entry, rest) ← readValue readRecord cs
      return (records.insert (.ofList key) (.ofList entry), rest)
  match found : dropSpace cs with
  | '\x7b' :: rest => do
    let (records, after) ← readMembers record true ∅ rest
    return (records, after.extend (Nat.le_of_lt (length_lt_of_dropSpace found)))
  | start => .error (unwanted start)

/-- A document, which is an object or an array of its one field. The field may be missing. -/
def readDocument (cs : List Char) : Except Fault (Document × Rest cs) :=
  let field : Option (Std.TreeMap String String) → List Char → Reader (Option (Std.TreeMap String String)) :=
    fun records key cs =>
      if key = cellsKey.toList then
        if records.isSome then .error .mismatch
        else do
          let (records, rest) ← readValue readRecords cs
          return (some records, rest)
      else do return (records, ← skipMember cs)
  match found : dropSpace cs with
  | '\x7b' :: rest => do
    let (records, after) ← readMembers field true none rest
    return (⟨records.getD ∅⟩, after.extend (Nat.le_of_lt (length_lt_of_dropSpace found)))
  | '[' :: rest => do
    let (records, after) ← readSingle readRecords rest
    return (⟨records.getD ∅⟩, after.extend (Nat.le_of_lt (length_lt_of_dropSpace found)))
  | start => .error (unwanted start)

def parse (text : String) : Except Fault Document := do
  let (document, rest) ← readDocument text.toList
  if dropSpace rest.val = [] then return document else .error .malformed

def write (layout : Layout) (document : Document) : String :=
  let record (entry : String × String) : List Char :=
    layout.member entry.1 (layout.object 2 [layout.member entryKey (writeString entry.2)])
  let cells := layout.object 1 (document.records.toList.map record)
  .ofList (layout.object 0 [layout.member cellsKey cells])

end Document
end Worksheet
