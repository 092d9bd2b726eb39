import Worksheet.Command.Arguments
import Worksheet.Command.Manual
import Worksheet.Command.Report
import Worksheet.Sheet.Storage

/-! The commands of the program: list a stored sheet, edit one of its cells, or evaluate a formula
on its own, beside help and the version. A command is a function of its arguments and of the
files it finds. -/

namespace Worksheet

inductive Command where
  /-- Lists every cell of a stored sheet with its contents, and formulas with their values. -/
  | list (path : String)
  /-- Edits one cell of a sheet that is stored or new, shows what was recomputed, and stores it. -/
  | edit (path cell entry : String) (compact : Bool)
  /-- Evaluates a formula with values for its cells; of two values for one cell the later counts. -/
  | evaluate (formula : String) (values : List (Address × Float))
  | help (topic : Command.Topic)
  | version

namespace Command

/-- Reads the arguments of a command and makes it of them, unless they ask for help. -/
def read? (topic : Topic) (takes : Signature) (make : Arguments → Option Command) (texts : List String) :
    Option Command :=
  match Arguments.read takes texts with
  | .ok args => make args
  | .error .help => some (help topic)
  | .error .refused => none

def list? (args : Arguments) : Option Command :=
  match args.plain with
  | [path] => some (list path)
  | _ => none

def edit? (args : Arguments) : Option Command :=
  match args.plain with
  | [path, cell, entry] => some (edit path cell entry args.compact)
  | _ => none

def evaluate? (args : Arguments) : Option Command :=
  match args.plain with
  | [formula] => some (evaluate formula args.values)
  | _ => none

/-- A command line whose first word names no command. -/
def option? (word : String) : Option Command :=
  match word.toList with
  | '-' :: 'h' :: _ => some (help .program)
  | '-' :: 'V' :: _ => some version
  | _ => if word = "--help" then some (help .program) else if word = "--version" then some version else none

def parse? : List String → Option Command
  | [] => none
  | word :: rest =>
    match Topic.ofName? word with
    | some .list => read? .list { places := 1, path := true } list? rest
    | some .edit => read? .edit { places := 3, path := true, layout := true } edit? rest
    | some .evaluate => read? .evaluate { places := 1, values := true } evaluate? rest
    | some .help =>
      match rest with
      | [] => some (help .program)
      | [name] => (Topic.ofName? name).map help
      | _ => none
    | some .program | none => option? word

/-- Evaluates a formula, with or without a leading equals sign. -/
def evaluation (formula : String) (values : List (Address × Float)) : Report :=
  let text := match formula.toList with
    | '=' :: rest => rest
    | cs => cs
  match Formula.parse text with
  | .error e => .failure "" ("Invalid formula '" ++ formula ++ "'") [e.message]
  | .ok f =>
    let table : Std.TreeMap Address Float := values.foldl (fun table entry => table.insert entry.1 entry.2) ∅
    match f.evaluate (table[·]?) with
    | .error e => .failure "" ("Failed to evaluate '" ++ .ofList f.canonical ++ "': " ++ e.message) []
    | .ok value => ⟨0, Report.line [Number.toText value], ""⟩

variable {m : Type → Type} [Monad m]

/-- Edits a cell of the sheet in a file. Nothing is stored unless the edit succeeds. -/
def editing (files : Files m) (path cell entry : String) (compact : Bool) : m Report := do
  let options : Options := { indented := !compact }
  let opened ← if ← files.isThere path then Sheet.read files path options else pure (.ok (.new options))
  match opened with
  | .error e => return .failure "" ("Failed to open '" ++ path ++ "'") e.chain
  | .ok sheet =>
    match sheet.enter cell entry with
    | (.error e, _) => return .failure "" ("Failed to set " ++ cell ++ " to '" ++ entry ++ "'") e.chain
    | (.ok order, sheet) =>
      let out := String.join (order.map fun address => Report.line [address.text, (sheet.valueAt address).shown])
      match ← sheet.save files path with
      | .error e => return .failure out ("Failed to write '" ++ path ++ "'") e.chain
      | .ok sheet =>
        return ⟨0, out, "Saved " ++ toString sheet.cells.size ++ " cell(s) to '" ++ path ++ "'\n"⟩

def run (files : Files m) : Command → m Report
  | list path => do
    match ← Sheet.read files path {} with
    | .error e => return .failure "" ("Failed to open '" ++ path ++ "'") e.chain
    | .ok sheet => return .listing sheet
  | edit path cell entry compact => editing files path cell entry compact
  | evaluate formula values => return evaluation formula values
  | help topic => return ⟨0, topic.page.render, ""⟩
  | version => return ⟨0, programName ++ " " ++ programVersion ++ "\n", ""⟩

end Command
end Worksheet
