import Worksheet.Folder

/-! Working on a sheet: requests come one after another, and each either changes the sheet or is
refused with an error, after which the session goes on with a sheet that looks as it did. -/

namespace Worksheet

structure Session where
  sheet : Sheet
  folder : Folder

inductive Request where
  | enter (name entry : String)
  | put (address : Address) (contents : Contents)
  /-- Replaces the cells by those of a document. -/
  | loadText (text : String)
  /-- Replaces the sheet by that of a document. -/
  | openText (text : String) (options : Options := {})
  /-- Loads what the sheet itself would be stored as. -/
  | reload
  | loadFile (path : String)
  | openFile (path : String) (options : Options := {})
  | saveFile (path : String)

namespace Request

/-- Goes on with another sheet, for which nothing has to be recomputed, or with the same one after
an error. -/
def replace (sheet : Sheet) : Except SheetError Sheet → Sheet.Edited
  | .ok next => (.ok [], next)
  | .error e => (.error e, sheet)

variable {m : Type → Type} [Monad m]

/-- Answers a request to a sheet, an edit with the cells that it recomputed. -/
def perform (files : Files m) (sheet : Sheet) : Request → m Sheet.Edited
  | enter name entry => return sheet.enter name entry
  | put address contents => return sheet.put address contents
  | loadText text => return replace sheet (sheet.loadJson text)
  | openText text options => return replace sheet (Sheet.ofJson text options)
  | reload => return replace sheet (sheet.loadJson sheet.toJson)
  | loadFile path => do return replace sheet (← sheet.load files path)
  | openFile path options => do return replace sheet (← Sheet.read files path options)
  | saveFile path => do return replace sheet (← sheet.save files path)

end Request

namespace Session

def start (options : Options) : Session := ⟨.new options, .empty⟩

def perform (s : Session) (request : Request) : Except SheetError (List Address) × Session :=
  let ((result, sheet), folder) := (request.perform Folder.access s.sheet).run s.folder
  (result, ⟨sheet, folder⟩)

def run (s : Session) (requests : List Request) : Session :=
  requests.foldl (fun s request => (s.perform request).2) s

end Session
end Worksheet
