import Worksheet.Document

/-! Written JSON is read back. Strings come back as they are, whichever of their characters had to be
escaped, and an object is read member by member, in either layout and before any text. -/

namespace Worksheet.Json

def Yields {α : Type} {cs : List Char} (answer : Except Fault (α × Rest cs)) (value : α) (left : List Char) : Prop :=
  ∃ shorter, answer = .ok (value, ⟨left, shorter⟩)

theorem Yields.pure {α : Type} {cs : List Char} (value : α) (rest : Rest cs) :
    Yields (Except.ok (value, rest) : Except Fault (α × Rest cs)) value rest.val := ⟨rest.property, rfl⟩

theorem Yields.bind {α β : Type} {cs ds left rest : List Char} {answer : Except Fault (α × Rest cs)}
    {next : α × Rest cs → Except Fault (β × Rest ds)} {value : α} {result : β} (first : Yields answer value left)
    (later : ∀ shorter, Yields (next (value, ⟨left, shorter⟩)) result rest) : Yields (answer >>= next) result rest := by
  obtain ⟨shorter, rfl⟩ := first
  exact later shorter

variable {cs left rest text : List Char} {c : Char}

theorem readString_close (rest : List Char) : Yields (readString ('"' :: rest)) [] rest := by
  rw [readString]
  exact .pure _ _

theorem readString_escape (escape : Yields (readEscape cs) c left) (later : Yields (readString left) text rest) :
    Yields (readString ('\\' :: cs)) (c :: text) rest := by
  rw [readString]
  exact escape.bind fun _ => later.bind fun _ => .pure _ _

theorem readString_plain (quote : c ≠ '"') (backslash : c ≠ '\\') (printed : isControl c = false)
    (later : Yields (readString cs) text rest) : Yields (readString (c :: cs)) (c :: text) rest := by
  rw [readString]
  · rw [printed]
    exact later.bind fun _ => .pure _ _
  · exact quote
  · exact backslash

theorem readEscape_of_escaped? {letter : Char} (meant : escaped? letter = some c) :
    Yields (readEscape (letter :: left)) c left := by
  have other : letter ≠ 'u' := by
    rintro rfl
    cases meant
  rw [readEscape]
  · simp only [meant]
    exact .pure _ _
  · exact other

theorem hexDigit?_digitChar {n : Nat} (small : n < 16) : hexDigit? n.digitChar = some n := by
  have all : ∀ n : Fin 16, hexDigit? n.val.digitChar = some n.val := by decide
  exact all ⟨n, small⟩

/-- The codes of control characters are below those of the surrogates. -/
theorem readEscape_hexDigits (control : c.toNat < 0x20) :
    Yields (readEscape ('u' :: '0' :: '0' :: (hexDigits c.toNat ++ left))) c left := by
  have high := hexDigit?_digitChar (n := c.toNat / 16) (by omega)
  have low := hexDigit?_digitChar (n := c.toNat % 16) (by omega)
  have zero : hexDigit? '0' = some 0 := rfl
  have code : ((0 * 16 + 0) * 16 + c.toNat / 16) * 16 + c.toNat % 16 = c.toNat := by omega
  have unit : Yields (readUnit ('0' :: '0' :: (hexDigits c.toNat ++ left))) c.toNat left := by
    simp only [hexDigits, List.cons_append, List.nil_append, readUnit, zero, high, low, code]
    exact .pure _ _
  refine Yields.bind (Yields.bind unit fun _ => ?_) fun _ => .pure _ _
  dsimp only
  rw [if_neg (by omega), if_neg (by omega), Char.ofNat_toNat]
  exact .pure _ _

theorem writeChar_cases (c : Char) :
    (∃ letter, escaped? letter = some c ∧ writeChar c = ['\\', letter]) ∨
    (c.toNat < 0x20 ∧ writeChar c = '\\' :: 'u' :: '0' :: '0' :: hexDigits c.toNat) ∨
    (c ≠ '"' ∧ c ≠ '\\' ∧ isControl c = false ∧ writeChar c = [c]) := by
  have letter {letter meant : Char} (same : c = meant) (escape : escaped? letter = some meant) :
      ∃ l, escaped? l = some c ∧ ['\\', letter] = ['\\', l] := ⟨letter, same ▸ escape, rfl⟩
  unfold writeChar
  split
  next same => exact Or.inl (letter same rfl)
  next quote =>
    split
    next same => exact Or.inl (letter same rfl)
    next backslash =>
      split
      next same => exact Or.inl (letter same rfl)
      split
      next same => exact Or.inl (letter same rfl)
      split
      next same => exact Or.inl (letter same rfl)
      split
      next same => exact Or.inl (letter same rfl)
      split
      next same => exact Or.inl (letter same rfl)
      split
      next control => exact Or.inr (Or.inl ⟨control, rfl⟩)
      next printed => exact Or.inr (Or.inr ⟨quote, backslash, by simpa [isControl] using printed, rfl⟩)

theorem readString_writeChar (c : Char) (later : Yields (readString left) text rest) :
    Yields (readString (writeChar c ++ left)) (c :: text) rest := by
  rcases writeChar_cases c with ⟨letter, meant, same⟩ | ⟨control, same⟩ | ⟨quote, backslash, printed, same⟩
  · rw [same]
    exact readString_escape (readEscape_of_escaped? meant) later
  · rw [same]
    exact readString_escape (readEscape_hexDigits control) later
  · rw [same]
    exact readString_plain quote backslash printed later

theorem readString_flatMap (text rest : List Char) : Yields (readString (text.flatMap writeChar ++ '"' :: rest)) text rest := by
  induction text with
  | nil => exact readString_close rest
  | cons c text ih =>
    rw [List.flatMap_cons, List.append_assoc]
    exact readString_writeChar c ih

theorem writeString_append (text : String) (rest : List Char) :
    writeString text ++ rest = '"' :: (text.toList.flatMap writeChar ++ '"' :: rest) := by
  simp [writeString]

theorem dropSpace_newline (layout : Layout) (depth : Nat) (cs : List Char) :
    dropSpace (layout.newline depth ++ cs) = dropSpace cs := by
  apply List.dropWhile_append_of_pos
  cases layout with
  | compact => nofun
  | indented =>
    intro c member
    rcases List.mem_cons.mp member with rfl | member
    · rfl
    · rw [List.eq_of_mem_replicate member]
      rfl

theorem dropSpace_writeString (text : String) (rest : List Char) :
    dropSpace (writeString text ++ rest) = writeString text ++ rest := rfl

theorem readKey?_close {first : Bool} (found : dropSpace cs = '\x7d' :: rest) : Yields (readKey? first cs) none rest := by
  unfold readKey?
  split
  next nothing =>
    rw [found] at nothing
    cases nothing
  next c after next =>
    rw [found] at next
    cases next
    exact .pure _ _

theorem readKey?_first {key : String} (found : dropSpace cs = writeString key ++ rest) :
    Yields (readKey? true cs) (some key.toList) rest := by
  rw [writeString_append] at found
  unfold readKey?
  split
  next nothing =>
    rw [found] at nothing
    cases nothing
  next c after next =>
    rw [found] at next
    cases next
    exact (readString_flatMap _ rest).bind fun _ => .pure _ _

theorem readKey?_comma {key : String} (found : dropSpace cs = ',' :: left) (next : dropSpace left = writeString key ++ rest) :
    Yields (readKey? false cs) (some key.toList) rest := by
  rw [writeString_append] at next
  unfold readKey?
  split
  next nothing =>
    rw [found] at nothing
    cases nothing
  next c after comma =>
    rw [found] at comma
    cases comma
    rw [if_neg (by decide), if_neg (by decide), if_pos rfl]
    split
    next nothing =>
      rw [next] at nothing
      cases nothing
    next c after quote =>
      rw [next] at quote
      cases quote
      exact (readString_flatMap _ rest).bind fun _ => .pure _ _

theorem readColon_colon (layout : Layout) (cs : List Char) :
    ∃ gap shorter, readColon (layout.colon ++ cs) = .ok ⟨gap, shorter⟩ ∧ dropSpace gap = dropSpace cs := by
  cases layout with
  | compact => exact ⟨cs, _, rfl, rfl⟩
  | indented => exact ⟨' ' :: cs, _, rfl, rfl⟩

theorem readValue_colon {α : Type} {reader : Reader α} {value : α} (layout : Layout)
    (reads : ∀ gap, dropSpace gap = dropSpace cs → Yields (reader gap) value rest) :
    Yields (readValue reader (layout.colon ++ cs)) value rest := by
  obtain ⟨gap, shorter, colon, same⟩ := readColon_colon layout cs
  unfold readValue
  rw [colon]
  exact (reads gap same).bind fun _ => .pure _ _

theorem readText_write {text : String} (found : dropSpace cs = writeString text ++ rest) :
    Yields (readText cs) text.toList rest := by
  rw [writeString_append] at found
  unfold readText
  split
  next after quote =>
    rw [found] at quote
    cases quote
    exact (readString_flatMap _ rest).bind fun _ => .pure _ _
  next other =>
    exact absurd found (other _)

section Objects

variable {σ : Type} {member : σ → List Char → Reader σ} {state next last : σ} {first : Bool}

theorem readMembers_close (found : dropSpace cs = '\x7d' :: rest) : Yields (readMembers member first state cs) state rest := by
  have closed : Yields (readKey? first cs) none rest := readKey?_close found
  obtain ⟨_, closed⟩ := closed
  rw [readMembers, closed]
  exact .pure _ _

theorem readMembers_cons {key after : List Char} (named : Yields (readKey? first cs) (some key) left)
    (value : Yields (member state key left) next after) (later : Yields (readMembers member false next after) last rest) :
    Yields (readMembers member first state cs) last rest := by
  obtain ⟨_, named⟩ := named
  obtain ⟨_, value⟩ := value
  rw [readMembers, named]
  simp only [value]
  exact later.bind fun _ => .pure _ _

/-- Written members that lead from one state to another, each whatever comes behind it. -/
inductive Members (member : σ → List Char → Reader σ) (layout : Layout) : σ → List (List Char) → σ → Prop where
  | nil (state : σ) : Members member layout state [] state
  | cons {state next last : σ} {key : String} {value : List Char} {others : List (List Char)}
      (reads : ∀ rest, Yields (member state key.toList (layout.colon ++ (value ++ rest))) next rest)
      (later : Members member layout next others last) :
      Members member layout state (layout.member key value :: others) last

variable {layout : Layout} {members : List (List Char)}

theorem member_append (layout : Layout) (key : String) (value rest : List Char) :
    layout.member key value ++ rest = writeString key ++ (layout.colon ++ (value ++ rest)) := by
  simp [Layout.member]

theorem object_append (layout : Layout) (depth : Nat) (first : List Char) (others : List (List Char)) (rest : List Char) :
    layout.object depth (first :: others) ++ rest = '\x7b' :: (layout.newline (depth + 1) ++ (first ++
      (others.flatMap (fun member => ',' :: (layout.newline (depth + 1) ++ member)) ++
        (layout.newline depth ++ '\x7d' :: rest)))) := by
  simp [Layout.object]

theorem object_opens (layout : Layout) (depth : Nat) (members : List (List Char)) (rest : List Char) :
    ∃ left, layout.object depth members ++ rest = '\x7b' :: left := by
  cases members with
  | nil => exact ⟨_, rfl⟩
  | cons first others => exact ⟨_, object_append layout depth first others rest⟩

theorem dropSpace_object (layout : Layout) (depth : Nat) (members : List (List Char)) (rest : List Char) :
    dropSpace (layout.object depth members ++ rest) = layout.object depth members ++ rest := by
  obtain ⟨left, opens⟩ := object_opens layout depth members rest
  rw [opens]
  rfl

theorem Members.foldl {α : Type} {key : α → String} {value : α → List Char} {next : σ → α → σ}
    (reads : ∀ state item rest, Yields (member state (key item).toList (layout.colon ++ (value item ++ rest))) (next state item) rest)
    (items : List α) (state : σ) :
    Members member layout state (items.map fun item => layout.member (key item) (value item)) (items.foldl next state) := by
  induction items generalizing state with
  | nil => exact .nil state
  | cons item items ih => exact .cons (reads state item) (ih (next state item))

theorem Members.read_others (written : Members member layout state members last) (depth : Nat) (rest : List Char) :
    Yields (readMembers member false state (members.flatMap (fun member => ',' :: (layout.newline (depth + 1) ++ member)) ++
      (layout.newline depth ++ '\x7d' :: rest))) last rest := by
  induction written with
  | nil state => exact readMembers_close (dropSpace_newline layout depth _)
  | cons reads _ ih =>
    rw [List.flatMap_cons, List.append_assoc, List.cons_append, List.append_assoc]
    apply readMembers_cons (readKey?_comma rfl ?_) (reads _) ih
    rw [dropSpace_newline, member_append, dropSpace_writeString]

theorem Members.read (written : Members member layout state members last) {depth : Nat}
    (whole : '\x7b' :: cs = layout.object depth members ++ rest) : Yields (readMembers member true state cs) last rest := by
  cases written with
  | nil state =>
    cases whole
    exact readMembers_close rfl
  | cons reads later =>
    rw [object_append] at whole
    cases whole
    apply readMembers_cons (readKey?_first ?_) (reads _) (later.read_others depth rest)
    rw [dropSpace_newline, member_append, dropSpace_writeString]

end Objects

end Worksheet.Json
