import Worksheet.Proofs.SheetStorage

/-! Which documents describe a sheet. Records are entered one at a time, in the order of their keys, into
sheets that hold a part of the document only. What is accepted in the end can be told from the
document as a whole all the same, and where it stops is the first record that spoils those before it. -/

namespace Worksheet
open Relation

theorem Contents.parse_eq_empty_iff {entry : String} : parse entry = .ok empty ↔ entry = "" := by
  constructor
  · intro read
    unfold parse at read
    split at read
    next blank => exact blank
    next =>
      split at read
      next => cases read
      next =>
        split at read
        next text _ =>
          cases parsed : Formula.parse text with
          | error e => simp [parsed, Except.map] at read
          | ok f => simp [parsed, Except.map] at read
        next => cases read
  · rintro rfl
    rfl

namespace Document

def upperCase (key : String) : List Char := key.toList.map Char.toUpper

/-- The second cell has a record with a formula that mentions the first, which may have one or not. -/
def Reads (records : List (String × String)) (input reader : Address) : Prop :=
  ∃ key entry f, (key, entry) ∈ records ∧ Address.Names key reader ∧ Contents.parse entry = .ok (.formula f) ∧
    input ∈ f.inputs

/-- Records that nothing is wrong with, judged all at once. -/
structure Sound (records : List (String × String)) : Prop where
  named : ∀ record ∈ records, ∃ address, Address.Names record.1 address
  distinct : (records.map fun record => upperCase record.1).Nodup
  read : ∀ record ∈ records, ∃ contents, Contents.parse record.2 = .ok contents
  straight : ∀ address, ¬ TransGen (Reads records) address address

/-- What is wrong with a record behind sound ones. Each fault is looked for only where those before it
are not found. -/
inductive Spoils (front : List (String × String)) (key entry : String) : SheetError → Prop where
  | address (unspelled : ∀ column row, ¬ Address.Spelled key column row) : Spoils front key entry (.address ⟨key⟩)
  | duplicate {address} (named : Address.Names key address) (taken : ∃ record ∈ front, upperCase record.1 = upperCase key) :
      Spoils front key entry (.duplicate address)
  | formula {address e} (named : Address.Names key address) (fresh : ∀ record ∈ front, upperCase record.1 ≠ upperCase key)
      (wrong : Contents.parse entry = .error e) : Spoils front key entry (.formula e)
  | circular {address contents} (named : Address.Names key address)
      (fresh : ∀ record ∈ front, upperCase record.1 ≠ upperCase key) (right : Contents.parse entry = .ok contents)
      (circle : ∃ cell, TransGen (Reads (front ++ [(key, entry)])) cell cell) : Spoils front key entry (.circular address)

/-- A sheet that stores what the records say and nothing else. A record without text says nothing. -/
def Stores (records : List (String × String)) (sheet : Sheet) : Prop :=
  ∀ (address : Address) contents, sheet.cells[address]?.map Cell.contents = some contents ↔
    ∃ key entry, (key, entry) ∈ records ∧ entry ≠ "" ∧ Address.Names key address ∧ Contents.parse entry = .ok contents

structure Replayed (options : Options) (records : List (String × String)) (seen : Std.TreeSet Address) (sheet : Sheet) : Prop where
  sound : Sound records
  seen : ∀ address, address ∈ seen ↔ ∃ record ∈ records, Address.Names record.1 address
  stores : Stores records sheet
  valid : sheet.Valid
  options : sheet.options = options

variable {front back records : List (String × String)} {key entry : String} {options : Options}
  {seen : Std.TreeSet Address} {sheet : Sheet}

theorem upperCase_eq_iff {other : String} {address address' : Address} (named : Address.Names key address)
    (named' : Address.Names other address') : upperCase other = upperCase key ↔ address' = address := by
  rw [upperCase, upperCase, ← Address.toList_text_of_names named, ← Address.toList_text_of_names named', String.toList_inj]
  exact ⟨Address.eq_of_text, congrArg Address.text⟩

theorem Reads.mono (part : ∀ record ∈ front, record ∈ records) {input reader : Address} (reads : Reads front input reader) :
    Reads records input reader := by
  obtain ⟨key, entry, f, member, rest⟩ := reads
  exact ⟨key, entry, f, part _ member, rest⟩

theorem Sound.left (sound : Sound (front ++ back)) : Sound front where
  named record member := sound.named record (List.mem_append_left back member)
  distinct := by
    have distinct := sound.distinct
    rw [List.map_append] at distinct
    exact distinct.of_append_left
  read record member := sound.read record (List.mem_append_left back member)
  straight address circle := by
    apply sound.straight address
    exact TransGen.mono (fun _ _ => Reads.mono fun _ => List.mem_append_left back) _ _ circle

theorem Spoils.not_sound {e : SheetError} (spoils : Spoils front key entry e) : ¬ Sound (front ++ [(key, entry)]) := by
  have last : (key, entry) ∈ front ++ [(key, entry)] := by simp
  intro sound
  cases spoils with
  | address unspelled =>
    obtain ⟨_, column, row, spelled, _⟩ := sound.named _ last
    exact unspelled column row spelled
  | duplicate _ taken =>
    obtain ⟨record, member, same⟩ := taken
    have distinct := sound.distinct
    rw [List.map_append, List.nodup_append'] at distinct
    exact distinct.2.2 (List.mem_map.mpr ⟨record, member, same⟩) List.mem_cons_self
  | formula _ _ wrong =>
    obtain ⟨contents, read⟩ := sound.read _ last
    rw [wrong] at read
    cases read
  | circular _ _ _ circle =>
    obtain ⟨cell, circle⟩ := circle
    exact sound.straight cell circle

theorem Stores.reads (stores : Stores records sheet) : Sheet.Reads sheet.cells = Reads records := by
  funext input reader
  apply propext
  constructor
  · rintro ⟨f, found, member⟩
    obtain ⟨key, entry, listed, _, named, read⟩ := (stores reader (.formula f)).mp found
    exact ⟨key, entry, f, listed, named, read, member⟩
  · rintro ⟨key, entry, f, listed, named, read, member⟩
    refine ⟨f, (stores reader (.formula f)).mpr ⟨key, entry, listed, ?_, named, read⟩, member⟩
    rintro rfl
    rw [Contents.parse_eq_empty_iff.mpr rfl] at read
    cases read

theorem Sound.append {address : Address} {contents : Contents} (sound : Sound front) (named : Address.Names key address)
    (fresh : ∀ record ∈ front, upperCase record.1 ≠ upperCase key) (right : Contents.parse entry = .ok contents)
    (straight : ∀ cell, ¬ TransGen (Reads (front ++ [(key, entry)])) cell cell) : Sound (front ++ [(key, entry)]) where
  named record member := by
    rcases List.mem_append.mp member with member | member
    · exact sound.named record member
    · obtain rfl := List.mem_singleton.mp member
      exact ⟨address, named⟩
  distinct := by
    rw [List.map_append, List.nodup_append']
    refine ⟨sound.distinct, List.nodup_singleton _, ?_⟩
    intro upper member last
    obtain ⟨record, listed, rfl⟩ := List.mem_map.mp member
    exact fresh record listed (List.mem_singleton.mp last)
  read record member := by
    rcases List.mem_append.mp member with member | member
    · exact sound.read record member
    · obtain rfl := List.mem_singleton.mp member
      exact ⟨contents, right⟩
  straight := straight

/-- A further record is for one cell only, and its contents take the place of nothing. -/
theorem Stores.append {next : Sheet} {address : Address} {contents : Contents} (stores : Stores front sheet)
    (named : Address.Names key address) (fresh : ∀ record ∈ front, upperCase record.1 ≠ upperCase key)
    (right : Contents.parse entry = .ok contents)
    (placed : ∀ other, Sheet.stored? next.cells other =
      if other = address then (if contents = .empty then none else some contents) else Sheet.stored? sheet.cells other) :
    Stores (front ++ [(key, entry)]) next := by
  intro other held
  change Sheet.stored? next.cells other = some held ↔ _
  rw [placed]
  split
  next same =>
    subst same
    have only {key' entry'} (member : (key', entry') ∈ front ++ [(key, entry)]) (named' : Address.Names key' other) :
        key' = key ∧ entry' = entry := by
      rcases List.mem_append.mp member with member | member
      · exact absurd ((upperCase_eq_iff named named').mpr rfl) (fresh _ member)
      · exact Prod.mk.inj (List.mem_singleton.mp member)
    constructor
    · intro found
      split at found
      next => cases found
      next filled =>
        cases found
        refine ⟨key, entry, by simp, ?_, named, right⟩
        rintro rfl
        rw [Contents.parse_eq_empty_iff.mpr rfl] at right
        exact filled (Except.ok.inj right).symm
    · rintro ⟨key', entry', member, written, named', read⟩
      obtain ⟨rfl, rfl⟩ := only member named'
      rw [right] at read
      obtain rfl := Except.ok.inj read
      rw [if_neg]
      rintro rfl
      exact written (Contents.parse_eq_empty_iff.mp right)
  next different =>
    refine (stores other held).trans ?_
    constructor
    · rintro ⟨key', entry', member, rest⟩
      exact ⟨key', entry', List.mem_append_left _ member, rest⟩
    · rintro ⟨key', entry', member, written, named', read⟩
      rcases List.mem_append.mp member with member | member
      · exact ⟨key', entry', member, written, named', read⟩
      · obtain ⟨rfl, rfl⟩ := Prod.mk.inj (List.mem_singleton.mp member)
        exact absurd ((upperCase_eq_iff named named').mp rfl) different

theorem Replayed.new (options : Options) : Replayed options [] ∅ (.new options) where
  sound := by
    refine ⟨nofun, List.nodup_nil, nofun, ?_⟩
    intro address circle
    obtain ⟨_, ⟨_, _, _, member, _⟩, _⟩ := TransGen.head'_iff.mp circle
    cases member
  seen := by simp
  stores := by simp [Stores, Sheet.new]
  valid := .new options
  options := rfl

theorem Replayed.fresh {address : Address} (replayed : Replayed options front seen sheet) (named : Address.Names key address)
    (unmet : address ∉ seen) : ∀ record ∈ front, upperCase record.1 ≠ upperCase key := by
  intro record member same
  obtain ⟨address', named'⟩ := replayed.sound.named record member
  rw [upperCase_eq_iff named named'] at same
  exact unmet ((replayed.seen address).mpr ⟨record, member, same ▸ named'⟩)

theorem Replayed.settle {address : Address} {contents : Contents} {order : List Address}
    (replayed : Replayed options front seen sheet) (named : Address.Names key address) (unmet : address ∉ seen)
    (right : Contents.parse entry = .ok contents)
    (ordered : (sheet.rewire address contents.reads).graph.UpdateOrder address order)
    (apart : ∀ input ∈ contents.reads, ¬ ReflTransGen (Sheet.Reads sheet.cells) address input) :
    Replayed options (front ++ [(key, entry)]) (seen.insert address)
      ((sheet.rewire address contents.reads).settle address contents order).2 := by
  have fresh := replayed.fresh named unmet
  have valid := replayed.valid.settle ordered apart
  have stores : Stores (front ++ [(key, entry)]) ((sheet.rewire address contents.reads).settle address contents order).2 :=
    replayed.stores.append named fresh right fun other => Sheet.stored?_settle _ address other contents order
  refine ⟨replayed.sound.append named fresh right (stores.reads ▸ valid.straight), ?_, stores, valid, replayed.options⟩
  intro other
  rw [Std.TreeSet.mem_insert, Std.compare_eq_iff_eq, replayed.seen]
  constructor
  · rintro (rfl | ⟨record, member, named'⟩)
    · exact ⟨(key, entry), by simp, named⟩
    · exact ⟨record, List.mem_append_left _ member, named'⟩
  · rintro ⟨record, member, named'⟩
    rcases List.mem_append.mp member with member | member
    · exact Or.inr ⟨record, member, named'⟩
    · obtain rfl := List.mem_singleton.mp member
      exact Or.inl ((upperCase_eq_iff named named').mp rfl).symm

/-- A circle that an edit would close is one of the records, the new one among them. -/
theorem Stores.circle {address input : Address} {f : Formula} (stores : Stores front sheet) (named : Address.Names key address)
    (right : Contents.parse entry = .ok (.formula f)) (mentioned : input ∈ f.inputs)
    (reaches : ReflTransGen (Sheet.Reads sheet.cells) address input) :
    TransGen (Reads (front ++ [(key, entry)])) input input := by
  rw [stores.reads] at reaches
  have onward : ReflTransGen (Reads (front ++ [(key, entry)])) address input :=
    ReflTransGen.mono (fun _ _ => Reads.mono fun _ => List.mem_append_left _) _ _ reaches
  exact .head' ⟨key, entry, f, by simp, named, right, mentioned⟩ onward

/-- One more record is entered, or it is told how it spoils those before it. -/
theorem Replayed.step (replayed : Replayed options front seen sheet) (key entry : String) :
    (∃ after next, replay seen sheet key entry = .ok (after, next) ∧ Replayed options (front ++ [(key, entry)]) after next) ∨
      ∃ e, replay seen sheet key entry = .error e ∧ Spoils front key entry e := by
  cases parsed : Address.parse key with
  | error e =>
    obtain ⟨unspelled, rfl⟩ := Address.parse_eq_error_iff.mp parsed
    exact Or.inr ⟨_, by simp [replay, parsed, Except.mapError, bind, Except.bind], .address unspelled⟩
  | ok address =>
    have named := Address.parse_eq_ok_iff.mp parsed
    by_cases met : address ∈ seen
    · obtain ⟨record, member, named'⟩ := (replayed.seen address).mp met
      exact Or.inr ⟨_, replay_of_met parsed met, .duplicate named ⟨record, member, (upperCase_eq_iff named named').mpr rfl⟩⟩
    cases right : Contents.parse entry with
    | error e =>
      have refused : sheet.enter address.text entry = (.error (.formula e), sheet) := by
        simp only [Sheet.enter, address.parse_text, right]
      exact Or.inr ⟨_, replay_of_refused parsed met refused, .formula named (replayed.fresh named met) right⟩
    | ok contents =>
      have entered : sheet.enter address.text entry = sheet.store address contents := by
        simp only [Sheet.enter, address.parse_text, right]
      rcases Sheet.store_cases replayed.valid address contents with
        ⟨order, same, ordered, apart⟩ | ⟨f, rfl, ⟨input, mentioned, reaches⟩, same⟩
      · have replay := replay_of_entered parsed met (entered.trans same)
        exact Or.inl ⟨_, _, replay, replayed.settle named met right ordered apart⟩
      · have replay := replay_of_refused parsed met (entered.trans same)
        exact Or.inr ⟨_, replay, .circular named (replayed.fresh named met) right
          ⟨input, replayed.stores.circle named right mentioned reaches⟩⟩

theorem Replayed.run (replayed : Replayed options front seen sheet) (back : List (String × String)) :
    (∃ after last, replayAll seen sheet back = .ok last ∧ Replayed options (front ++ back) after last) ∨
      ∃ between key entry rest e, back = between ++ (key, entry) :: rest ∧ Sound (front ++ between) ∧
        Spoils (front ++ between) key entry e ∧ replayAll seen sheet back = .error (.record key e) := by
  induction back generalizing front seen sheet with
  | nil => exact Or.inl ⟨seen, sheet, rfl, by rwa [List.append_nil]⟩
  | cons record back ih =>
    obtain ⟨key, entry⟩ := record
    rcases replayed.step key entry with ⟨after, next, entered, replayed'⟩ | ⟨e, refused, spoils⟩
    · have onward : replayAll seen sheet ((key, entry) :: back) = replayAll after next back := by
        rw [replayAll, entered]
      rcases ih replayed' with ⟨after, last, same, whole⟩ | ⟨between, key', entry', rest, e, rfl, sound, spoils, same⟩
      · exact Or.inl ⟨after, last, onward.trans same, by rwa [List.append_assoc] at whole⟩
      · rw [List.append_assoc] at sound spoils
        exact Or.inr ⟨(key, entry) :: between, key', entry', rest, e, rfl, sound, spoils, onward.trans same⟩
    · refine Or.inr ⟨[], key, entry, back, e, rfl, ?_, ?_, by rw [replayAll, refused]⟩
      · rw [List.append_nil]
        exact replayed.sound
      · rwa [List.append_nil]

theorem toSheet_cases (document : Document) (options : Options) :
    (∃ sheet, document.toSheet options = .ok sheet ∧ Sound document.records.toList ∧ Stores document.records.toList sheet ∧
        sheet.Valid ∧ sheet.options = options ∧ sheet.changed = false) ∨
      ∃ front key entry back e, document.records.toList = front ++ (key, entry) :: back ∧ Sound front ∧
        Spoils front key entry e ∧ document.toSheet options = .error (.record key e) := by
  rcases (Replayed.new options).run document.records.toList with ⟨_, last, same, whole⟩ | ⟨front, key, entry, back, e, split, sound, spoils, same⟩
  · refine Or.inl ⟨{ last with changed := false }, ?_, whole.sound, whole.stores, Sheet.Valid.kept.saved last whole.valid,
      whole.options, rfl⟩
    rw [toSheet, same]
    rfl
  · refine Or.inr ⟨front, key, entry, back, e, split, sound, spoils, ?_⟩
    rw [toSheet, same]
    rfl

/-- A document describes a sheet exactly if it is sound as a whole. If it is not, the record that is
named is the first one up to which, in the order of the keys, the records are not sound. -/
theorem toSheet_iff_sound (document : Document) (options : Options) :
    ((∃ sheet, document.toSheet options = .ok sheet) ↔ Sound document.records.toList) ∧
    (∀ sheet, document.toSheet options = .ok sheet →
      Stores document.records.toList sheet ∧ sheet.options = options ∧ sheet.changed = false) ∧
    ∀ e, document.toSheet options = .error e → ∃ front key entry back cause,
      document.records.toList = front ++ (key, entry) :: back ∧ (∀ record ∈ front, record.1 < key) ∧
      Sound front ∧ ¬ Sound (front ++ [(key, entry)]) ∧ Spoils front key entry cause ∧ e = .record key cause := by
  rcases document.toSheet_cases options with ⟨sheet, built, sound, stores, _, kept, saved⟩ |
    ⟨front, key, entry, back, cause, split, sound, spoils, refused⟩
  · refine ⟨⟨fun _ => sound, fun _ => ⟨sheet, built⟩⟩, ?_, fun e failed => ?_⟩
    · intro other built'
      obtain rfl := Except.ok.inj (built.symm.trans built')
      exact ⟨stores, kept, saved⟩
    · rw [built] at failed
      cases failed
  · have unsound : ¬ Sound document.records.toList := by
      intro whole
      rw [split, List.append_cons] at whole
      exact spoils.not_sound whole.left
    refine ⟨⟨fun ⟨sheet, built⟩ => ?_, fun whole => absurd whole unsound⟩, fun sheet built => ?_, fun e failed => ?_⟩
    · rw [refused] at built
      cases built
    · rw [refused] at built
      cases built
    · refine ⟨front, key, entry, back, cause, split, ?_, sound, spoils.not_sound, spoils, Except.error.inj (failed.symm.trans refused)⟩
      have ordered := document.records.ordered_keys_toList
      rw [split, List.pairwise_append] at ordered
      exact fun record member => compareOfLessAndEq_eq_lt.mp (ordered.2.2 record member (key, entry) List.mem_cons_self)

private def scattered : Document := ⟨.ofList [("B1", "= a1 + c1"), ("a1", " 5.000"), ("c1", ""), ("AA1", "=B1")]⟩

private def crossed : Document := ⟨.ofList [("B1", "=A1"), ("a1", "=D1+b1"), ("b1", "=")]⟩

private def blamed? : Except SheetError Sheet → Option String
  | .error (.record key _) => some key
  | _ => none

/-- The second document has three faults, and the circle is met before the key that comes again. -/
theorem toSheet_of_scattered :
    (∃ sheet, scattered.toSheet {} = .ok sheet ∧ Stores scattered.records.toList sheet ∧ sheet.changed = false) ∧
    ∃ front key entry back cause, crossed.records.toList = front ++ (key, entry) :: back ∧ Sound front ∧
      Spoils front key entry cause ∧ crossed.toSheet {} = .error (.record key cause) ∧ key = "a1" := by
  constructor
  · have whole : (scattered.toSheet {}).isOk = true := by decide +kernel
    cases built : scattered.toSheet {} with
    | error e => simp [built, Except.isOk, Except.toBool] at whole
    | ok sheet =>
      obtain ⟨stores, _, saved⟩ := (toSheet_iff_sound scattered {}).2.1 sheet built
      exact ⟨sheet, rfl, stores, saved⟩
  · have blamed : blamed? (crossed.toSheet {}) = some "a1" := by decide +kernel
    cases built : crossed.toSheet {} with
    | ok sheet => simp [built, blamed?] at blamed
    | error e =>
      obtain ⟨front, key, entry, back, cause, split, _, sound, _, spoils, rfl⟩ := (toSheet_iff_sound crossed {}).2.2 e built
      rw [built] at blamed
      exact ⟨front, key, entry, back, cause, split, sound, spoils, rfl, Option.some.inj blamed⟩

end Document
end Worksheet
