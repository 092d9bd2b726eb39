/-! The pages that the program prints when it is asked for help. -/

namespace Worksheet.Command

def programName : String := "gridcalc"

def programVersion : String := "0.1.0"

inductive Topic where
  | program
  | list
  | edit
  | evaluate
  | help
deriving DecidableEq

/-- A page of the manual. A section lists words and what they mean. -/
structure Page where
  about : String
  usage : String
  sections : List (String × List (String × String))

namespace Page

/-- One line for each word, with the meanings in a column of their own. -/
def table (entries : List (String × String)) : String :=
  let width := (entries.map fun entry => entry.1.length).foldl max 0
  let padded (word : String) : String := .ofList (word.toList ++ List.replicate (width - word.length) ' ')
  .join (entries.map fun (word, meaning) => "  " ++ padded word ++ "  " ++ meaning ++ "\n")

def render (page : Page) : String :=
  page.about ++ "\n\nUsage: " ++ programName ++ " " ++ page.usage ++ "\n" ++
    .join (page.sections.map fun (title, entries) => "\n" ++ title ++ ":\n" ++ table entries)

end Page

namespace Topic

def ofName? : String → Option Topic
  | "show" => some list
  | "set" => some edit
  | "eval" => some evaluate
  | "help" => some help
  | _ => none

def about : Topic → String
  | program => "Spreadsheet inspection and editing tool"
  | list => "Print every non-empty cell with its contents and value"
  | edit => "Set one cell, print the recalculated cells and save"
  | evaluate => "Evaluate a standalone formula"
  | help => "Print this message or the help of the given subcommand(s)"

private def helpOption : String × String := ("-h, --help", "Print help")

def page (topic : Topic) : Page :=
  match topic with
  | program => ⟨topic.about, "<COMMAND>", [
      ("Commands", [("show", list.about), ("set", edit.about), ("eval", evaluate.about), ("help", help.about)]),
      ("Options", [helpOption, ("-V, --version", "Print version")])]⟩
  | list => ⟨topic.about, "show <INPUT>", [
      ("Arguments", [("<INPUT>", "Spreadsheet document (JSON)")]),
      ("Options", [helpOption])]⟩
  | edit => ⟨topic.about, "set [OPTIONS] <FILE> <CELL> <CONTENT>", [
      ("Arguments", [
        ("<FILE>", "Spreadsheet document (JSON); created if it does not exist"),
        ("<CELL>", "Cell name, e.g. A1"),
        ("<CONTENT>", "New contents: a number, text, \"=formula\", or \"\" to empty the cell")]),
      ("Options", [("    --compact", "Write compact JSON instead of indented"), helpOption])]⟩
  | evaluate => ⟨topic.about, "eval [OPTIONS] <FORMULA>", [
      ("Arguments", [("<FORMULA>", "Formula, with or without a leading '='")]),
      ("Options", [("-v, --var <VARS>", "Variable value as NAME=VALUE (repeatable)"), helpOption])]⟩
  | help => ⟨topic.about, "help [COMMAND]...", [
      ("Arguments", [("[COMMAND]...", "Print help for the subcommand(s)")])]⟩

end Topic
end Worksheet.Command
