/-! Reading JSON from the left, up to the first fault. Every reading step returns what is left
together with a proof that it is shorter than what there was. -/

namespace Worksheet.Json

/-- Why a text is refused, by the first fault met from the left. -/
inductive Fault where
  | incomplete
  | mismatch
  | malformed
deriving DecidableEq

/-- What is left after some of a text has been read. -/
abbrev Rest (cs : List Char) := { rest : List Char // rest.length < cs.length }

/-- What is left of a text is also what is left of any that is as long or longer. -/
def Rest.extend {cs ds : List Char} (rest : Rest cs) (longer : cs.length ≤ ds.length) : Rest ds :=
  ⟨rest.val, Nat.lt_of_lt_of_le rest.property longer⟩

theorem Rest.le {cs : List Char} (rest : Rest cs) : rest.val.length ≤ cs.length := Nat.le_of_lt rest.property

theorem Rest.le_cons {c : Char} {cs : List Char} (rest : Rest cs) : rest.val.length ≤ (c :: cs).length :=
  Nat.le_succ_of_le rest.le

/-- The first character has been read before. -/
def Rest.behind {c : Char} {cs : List Char} (rest : Rest cs) : Rest (c :: cs) := ⟨rest.val, Nat.lt_succ_of_lt rest.property⟩

abbrev Reader (α : Type) := (cs : List Char) → Except Fault (α × Rest cs)

def isSpace (c : Char) : Bool := c == ' ' || c == '\t' || c == '\n' || c == '\r'

def dropSpace (cs : List Char) : List Char := cs.dropWhile isSpace

theorem length_dropSpace_le (cs : List Char) : (dropSpace cs).length ≤ cs.length :=
  (List.dropWhile_suffix isSpace).length_le

theorem length_le_of_dropSpace {cs start : List Char} (found : dropSpace cs = start) :
    start.length ≤ cs.length := found ▸ length_dropSpace_le cs

theorem length_lt_of_dropSpace {cs rest : List Char} {c : Char} (found : dropSpace cs = c :: rest) :
    rest.length < cs.length := length_le_of_dropSpace found

def isControl (c : Char) : Bool := c.toNat < 0x20

def hexDigit? (c : Char) : Option Nat :=
  if c.isDigit then some (c.toNat - '0'.toNat)
  else if 'a' ≤ c ∧ c ≤ 'f' then some (c.toNat - 'a'.toNat + 10)
  else if 'A' ≤ c ∧ c ≤ 'F' then some (c.toNat - 'A'.toNat + 10)
  else none

/-- Four hexadecimal digits. Fewer than four bytes cannot hold them, whatever they are. -/
def readUnit : Reader Nat
  | a :: b :: c :: d :: rest =>
    match hexDigit? a, hexDigit? b, hexDigit? c, hexDigit? d with
    | some a, some b, some c, some d =>
      .ok (((a * 16 + b) * 16 + c) * 16 + d, ⟨rest, by simp only [List.length_cons]; omega⟩)
    | _, _, _, _ => .error .malformed
  | cs => .error (if (String.ofList cs).utf8ByteSize < 4 then .incomplete else .malformed)

/-- The second half of a surrogate pair, which must be another escape. -/
def readLowSurrogate : Reader Nat
  | [] => .error .incomplete
  | '\\' :: [] => .error .incomplete
  | '\\' :: 'u' :: cs => do
    let (unit, rest) ← readUnit cs
    if 0xDC00 ≤ unit ∧ unit ≤ 0xDFFF then
      return (unit, rest.extend (by simp only [List.length_cons]; omega))
    else .error .malformed
  | _ => .error .malformed

/-- The character of a `\u` escape, after the `u`. Surrogates come in pairs. -/
def readCodePoint (cs : List Char) : Except Fault (Char × Rest cs) := do
  let (unit, rest) ← readUnit cs
  if 0xDC00 ≤ unit ∧ unit ≤ 0xDFFF then .error .malformed
  else if 0xD800 ≤ unit ∧ unit ≤ 0xDBFF then do
    let (low, final) ← readLowSurrogate rest.val
    return (.ofNat (0x10000 + (unit - 0xD800) * 0x400 + (low - 0xDC00)), final.extend rest.le)
  else return (.ofNat unit, rest)

def escaped? : Char → Option Char
  | '"' => some '"'
  | '\\' => some '\\'
  | '/' => some '/'
  | 'b' => some '\x08'
  | 'f' => some '\x0c'
  | 'n' => some '\n'
  | 'r' => some '\r'
  | 't' => some '\t'
  | _ => none

def readEscape : Reader Char
  | [] => .error .incomplete
  | 'u' :: cs => do
    let (c, rest) ← readCodePoint cs
    return (c, rest.behind)
  | c :: cs =>
    match escaped? c with
    | some meant => .ok (meant, ⟨cs, by simp⟩)
    | none => .error .malformed

/-- A string after its opening quote, with the closing one. -/
def readString (cs : List Char) : Except Fault (List Char × Rest cs) :=
  match cs with
  | [] => .error .incomplete
  | '"' :: rest => .ok ([], ⟨rest, by simp⟩)
  | '\\' :: rest => do
    let (c, after) ← readEscape rest
    let (string, final) ← readString after.val
    return (c :: string, final.extend after.le_cons)
  | c :: rest =>
    if isControl c then .error .malformed
    else do
      let (string, final) ← readString rest
      return (c :: string, final.behind)
termination_by cs.length
decreasing_by
  · exact Nat.lt_succ_of_lt after.property
  · simp

/-- The escape in a string that nobody reads; half a surrogate pair passes. -/
def skipEscape (cs : List Char) : Except Fault (Rest cs) :=
  match cs with
  | [] => .error .incomplete
  | 'u' :: cs => do
    let (_, rest) ← readUnit cs
    return rest.behind
  | c :: cs => if (escaped? c).isSome then .ok ⟨cs, by simp⟩ else .error .malformed

/-- A string that nobody reads, after its opening quote. -/
def skipString (cs : List Char) : Except Fault (Rest cs) :=
  match cs with
  | [] => .error .incomplete
  | '"' :: rest => .ok ⟨rest, by simp⟩
  | '\\' :: rest => do
    let after ← skipEscape rest
    let final ← skipString after.val
    return final.extend after.le_cons
  | c :: rest =>
    if isControl c then .error .malformed
    else do return (← skipString rest).behind
termination_by cs.length
decreasing_by
  · exact Nat.lt_succ_of_lt after.property
  · simp

/-- The remaining letters of a word such as `null`. -/
def readWord : (word cs : List Char) → Except Fault { rest : List Char // rest.length ≤ cs.length }
  | [], cs => .ok ⟨cs, Nat.le_refl _⟩
  | _ :: _, [] => .error .incomplete
  | letter :: word, c :: cs =>
    if c = letter then do
      let rest ← readWord word cs
      return ⟨rest.val, Nat.le_succ_of_le rest.property⟩
    else .error .malformed

end Worksheet.Json
