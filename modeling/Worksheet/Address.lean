import Std.Data.TreeMap
import Std.Data.TreeSet

/-! Cell addresses: letters, then digits. An address may be typed in either case and is kept in
upper case, so every table keyed by addresses sees one spelling for each cell. Addresses are
ordered as their texts are, which puts `A10` before `A2`. -/

namespace Worksheet

/-- Upper-case letters, then digits, at least one of each. -/
def Address.Spelling (cs : List Char) : Prop :=
  ∃ column row, cs = column ++ row ∧ column ≠ [] ∧ row ≠ [] ∧
    (∀ c ∈ column, c.isUpper = true) ∧ (∀ c ∈ row, c.isDigit = true)

structure Address where
  text : String
  spelled : Address.Spelling text.toList
deriving DecidableEq

namespace Address

instance : Ord Address := ⟨compareOn text⟩

instance : Std.TransOrd Address := inferInstanceAs (Std.TransCmp (compareOn text))

instance : Std.LawfulEqOrd Address where
  compare_self {a} := @Std.ReflCmp.compare_self Address (compareOn text) inferInstance a
  eq_of_compare {a b} same := by
    have texts : a.text = b.text := Std.LawfulEqOrd.eq_of_compare (α := String) same
    cases a
    cases b
    simp_all

private theorem isUpper_toUpper {c : Char} (letter : c.isAlpha = true) : c.toUpper.isUpper = true := by
  delta Char.isAlpha Char.isUpper Char.isLower at letter
  delta Char.isUpper Char.toUpper
  simp only [Bool.or_eq_true, Bool.and_eq_true, decide_eq_true_eq, ge_iff_le, UInt32.le_iff_toNat_le] at letter ⊢
  have a : 'a'.val.toNat = 97 := by decide
  have z : 'z'.val.toNat = 122 := by decide
  have A : 'A'.val.toNat = 65 := by decide
  have Z : 'Z'.val.toNat = 90 := by decide
  have shift : ('A'.val - 'a'.val).toNat = 2 ^ 32 - 32 := by decide
  split
  · simp only [UInt32.toNat_add]
    omega
  · omega

private theorem of_mem_takeWhile {p : Char → Bool} {cs : List Char} {c : Char} (member : c ∈ cs.takeWhile p) :
    p c = true := List.all_eq_true.mp List.all_takeWhile c member

/-- The address at the front of a text, with its spelling there and what follows. All letters
and then all digits that stand there belong to it. -/
def scan? (cs : List Char) : Option (List Char × Address × List Char) :=
  let column := cs.takeWhile Char.isAlpha
  let after := cs.dropWhile Char.isAlpha
  let row := after.takeWhile Char.isDigit
  if full : column ≠ [] ∧ row ≠ [] then
    let address : Address := {
      text := .ofList (column.map Char.toUpper ++ row)
      spelled := by
        refine ⟨column.map Char.toUpper, row, String.toList_ofList, by simpa using full.1, full.2, ?_, ?_⟩
        · intro c member
          obtain ⟨d, letter, rfl⟩ := List.mem_map.mp member
          exact isUpper_toUpper (of_mem_takeWhile letter)
        · exact fun _ => of_mem_takeWhile }
    some (column ++ row, address, after.dropWhile Char.isDigit)
  else none

def parse? (text : String) : Option Address :=
  match scan? text.toList with
  | some (_, address, []) => some address
  | _ => none

theorem spelling_of_scan? {cs spelling rest : List Char} {a : Address}
    (found : scan? cs = some (spelling, a, rest)) : spelling ++ rest = cs ∧ spelling ≠ [] := by
  simp only [scan?] at found
  split at found
  next full =>
    simp only [Option.some.injEq, Prod.mk.injEq] at found
    obtain ⟨rfl, -, rfl⟩ := found
    simp [full.1]
  · simp at found

end Address

/-- What is wrong with a text that is no address: nothing but that it is none. -/
structure AddressError where
  text : String
deriving DecidableEq

namespace AddressError

def message (e : AddressError) : String := "Invalid cell name: '" ++ e.text ++ "'"

end AddressError

def Address.parse (text : String) : Except AddressError Address :=
  match parse? text with
  | some address => .ok address
  | none => .error ⟨text⟩

end Worksheet
