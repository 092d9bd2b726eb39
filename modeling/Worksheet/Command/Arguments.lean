import Worksheet.Address
import Worksheet.Number.Text
import Worksheet.Text.Blank

/-! The arguments of one command, read from left to right. A request for help ends the reading,
and so does an argument that cannot stand where it does: the first of them decides, and
whether arguments are missing is asked only at the end. -/

namespace Worksheet.Command

structure Signature where
  places : Nat
  /-- Whether the first of them is a path, which cannot be empty. -/
  path : Bool := false
  layout : Bool := false
  values : Bool := false

inductive Argument where
  | plain
  /-- Two dashes: all that follows is plain. -/
  | ending
  | help
  | compact
  /-- A value for a cell, attached to its option or in the next argument. -/
  | value (attached : Option (List Char))
  | unknown

namespace Argument

/-- An option with a name of several letters. Only the values of cells are attached. -/
def ofName (takes : Signature) (name : String) (attached : Option (List Char)) : Argument :=
  match name, attached with
  | "help", none => help
  | "compact", none => if takes.layout then compact else unknown
  | "var", attached => if takes.values then value attached else unknown
  | _, _ => unknown

/-- An option of one letter, with what stands right behind it. Help asks no further. -/
def ofLetter (takes : Signature) (letter : Char) (behind : List Char) : Argument :=
  if letter = 'h' then help
  else if letter = 'v' ∧ takes.values then
    match behind with
    | [] => value none
    | '=' :: text => value (some text)
    | text => value (some text)
  else unknown

/-- What an argument is. A lone dash is plain. -/
def ofText (takes : Signature) (text : String) : Argument :=
  match text.toList with
  | ['-', '-'] => ending
  | '-' :: '-' :: option =>
    let name := option.takeWhile (· ≠ '=')
    ofName takes (.ofList name) (option.dropWhile (· ≠ '=')).tail?
  | '-' :: letter :: behind => ofLetter takes letter behind
  | _ => plain

end Argument

structure Arguments where
  plain : List String
  compact : Bool
  values : List (Address × Float)

inductive Halt where
  | help
  | refused
deriving DecidableEq

namespace Arguments

def none : Arguments := ⟨[], false, []⟩

/-- Reads `NAME=VALUE`. White space may stand around both. -/
def assignment? (text : List Char) : Option (Address × Float) :=
  let name := text.takeWhile (· ≠ '=')
  match text.dropWhile (· ≠ '=') with
  | [] => .none
  | _ :: value => do
    return (← Address.parse? (.ofList (Text.trim name)), ← Number.read? (Text.trim value))

def addPlain (takes : Signature) (args : Arguments) (text : String) : Except Halt Arguments :=
  if args.plain.length = takes.places ∨ (takes.path ∧ args.plain = [] ∧ text = "") then .error .refused
  else .ok { args with plain := args.plain ++ [text] }

/-- The layout can be chosen once. -/
def addCompact (args : Arguments) : Except Halt Arguments :=
  if args.compact then .error .refused else .ok { args with compact := true }

def addValue (args : Arguments) (text : List Char) : Except Halt Arguments :=
  match assignment? text with
  | some entry => .ok { args with values := args.values ++ [entry] }
  | .none => .error .refused

def readAfter (takes : Signature) (args : Arguments) : List String → Except Halt Arguments
  | [] => .ok args
  | text :: rest =>
    match Argument.ofText takes text with
    | .plain => do readAfter takes (← args.addPlain takes text) rest
    | .ending => rest.foldlM (addPlain takes) args
    | .help => .error .help
    | .compact => do readAfter takes (← args.addCompact) rest
    | .value (some attached) => do readAfter takes (← args.addValue attached) rest
    | .value .none =>
      match rest with
      | [] => .error .refused
      | next :: rest => do readAfter takes (← args.addValue next.toList) rest
    | .unknown => .error .refused

def read (takes : Signature) (texts : List String) : Except Halt Arguments := do
  let args ← readAfter takes none texts
  if args.plain.length = takes.places then return args else .error .refused

end Arguments
end Worksheet.Command
