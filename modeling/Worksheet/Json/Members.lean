import Worksheet.Json.Value

/-! Reading JSON objects member by member, and arrays that hold a record's fields in order. What
a member means is left to the caller, who sees its key before the colon is read. -/

namespace Worksheet.Json

/-- The key of the next member, or nothing at the end of the object. A comma stands between two
members and nowhere else. -/
def readKey? (first : Bool) (cs : List Char) : Except Fault (Option (List Char) × Rest cs) :=
  let key (c : Char) (rest : List Char) (shorter : rest.length < cs.length) :
      Except Fault (Option (List Char) × Rest cs) :=
    if c = '"' then do
      let (key, after) ← readString rest
      return (some key, after.extend (Nat.le_of_lt shorter))
    else .error .malformed
  match found : dropSpace cs with
  | [] => .error .incomplete
  | c :: rest =>
    if c = '\x7d' then .ok (none, ⟨rest, length_lt_of_dropSpace found⟩)
    else if first then key c rest (length_lt_of_dropSpace found)
    else if c = ',' then
      match next : dropSpace rest with
      | [] => .error .incomplete
      | c :: after => key c after (Nat.lt_trans (length_lt_of_dropSpace next) (length_lt_of_dropSpace found))
    else .error .malformed

/-- The members of an object, after its opening bracket. -/
def readMembers {σ : Type} (member : σ → List Char → Reader σ) (first : Bool) (state : σ) (cs : List Char) :
    Except Fault (σ × Rest cs) :=
  match readKey? first cs with
  | .error fault => .error fault
  | .ok (none, rest) => .ok (state, rest)
  | .ok (some key, rest) =>
    match member state key rest.val with
    | .error fault => .error fault
    | .ok (state, after) => do
      let (state, final) ← readMembers member false state after.val
      return (state, final.extend (Nat.le_of_lt (Nat.lt_trans after.property rest.property)))
termination_by cs.length
decreasing_by exact Nat.lt_trans after.property rest.property

/-- An array of at most one element, after its opening bracket. -/
def readSingle {α : Type} (element : Reader α) (cs : List Char) : Except Fault (Option α × Rest cs) :=
  match found : dropSpace cs with
  | [] => .error .incomplete
  | c :: rest =>
    if c = ']' then .ok (none, ⟨rest, length_lt_of_dropSpace found⟩)
    else do
      let (value, after) ← element (c :: rest)
      match last : dropSpace after.val with
      | [] => .error .incomplete
      | c :: final =>
        if c = ']' then
          return (some value, ⟨final, Nat.lt_trans (length_lt_of_dropSpace last)
            (Nat.lt_of_lt_of_le after.property (length_le_of_dropSpace found))⟩)
        else .error .malformed

/-- The value of a member that is wanted, after its key. -/
def readValue {α : Type} (value : Reader α) (cs : List Char) : Except Fault (α × Rest cs) := do
  let colon ← readColon cs
  let (value, rest) ← value colon.val
  return (value, rest.extend colon.le)

/-- The value of a member that nobody asks for, after its key. -/
def skipMember (cs : List Char) : Except Fault (Rest cs) := do
  let colon ← readColon cs
  return (← skipValue colon.val).extend colon.le

/-- A string. -/
def readText (cs : List Char) : Except Fault (List Char × Rest cs) :=
  match found : dropSpace cs with
  | '"' :: rest => do
    let (text, after) ← readString rest
    return (text, after.extend (Nat.le_of_lt (length_lt_of_dropSpace found)))
  | start => .error (unwanted start)

end Worksheet.Json
