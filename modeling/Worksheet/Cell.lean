import Worksheet.Formula.Evaluation

/-! What is entered in a cell, and what the cell shows. Contents are read from the text that is
typed and have an edit text that reads back as the same contents. -/

namespace Worksheet

inductive Contents where
  | empty
  | number (value : Float)
  | text (written : String)
  | formula (f : Formula)
deriving DecidableEq

namespace Contents

/-- The finite number that a text spells, between white space. -/
def number? (text : List Char) : Option Float := (Number.read? (Text.trim text)).filter Number.isFinite

/-- Classifies what is typed into a cell: nothing, a finite number, a formula after an equals
sign, and otherwise text. -/
def parse (entry : String) : Except FormulaError Contents :=
  if entry = "" then .ok empty
  else
    match number? entry.toList with
    | some value => .ok (number value)
    | none =>
      match entry.toList with
      | '=' :: rest => (Formula.parse rest).map formula
      | _ => .ok (text entry)

def editText : Contents → String
  | empty => ""
  | number value => Number.toText value
  | text written => written
  | formula f => .ofList ('=' :: f.canonical)

def formula? : Contents → Option Formula
  | formula f => some f
  | _ => none

def isEmpty : Contents → Bool
  | empty => true
  | _ => false

/-- Equality of contents as a user sees it: numbers by value, formulas by canonical text. -/
def same : Contents → Contents → Bool
  | empty, empty => true
  | number x, number y => x == y
  | text s, text t => s == t
  | formula f, formula g => f.same g
  | _, _ => false

/-- Contents as typing their edit text gives them. Empty text is no contents, and contents
whose edit text reads as something else have no such form. -/
def normalized? (contents : Contents) : Option Contents :=
  let plain := match contents with
    | text "" => empty
    | other => other
  match parse plain.editText with
  | .ok reread => if reread.same plain then some plain else none
  | .error _ => none

def reads (contents : Contents) : List Address :=
  match contents.formula? with
  | some f => f.inputs.toList
  | none => []

end Contents

inductive Value where
  | empty
  | number (value : Float)
  | text (written : String)
  | error (e : EvaluationError)
deriving DecidableEq

namespace Value

def ofResult : Except EvaluationError Float → Value
  | .ok value => number value
  | .error e => error e

def number? : Value → Option Float
  | number value => some value
  | _ => none

def text? : Value → Option String
  | text written => some written
  | _ => none

def error? : Value → Option EvaluationError
  | error e => some e
  | _ => none

def shown : Value → String
  | empty => ""
  | number value => Number.toText value
  | text written => written
  | error e => "#ERROR: " ++ e.message

end Value

structure Cell where
  contents : Contents
  value : Value
deriving DecidableEq

namespace Cell

/-- A cell before any evaluation: a formula has no value yet. -/
def enter (contents : Contents) : Cell :=
  ⟨contents, match contents with
    | .empty | .formula _ => .empty
    | .number value => .number value
    | .text written => .text written⟩

end Cell
end Worksheet
