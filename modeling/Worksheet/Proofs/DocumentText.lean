import Worksheet.Proofs.JsonText

/-! The text of a document is read back to the records that were written, whatever their keys and entries
are. A document is known only by its records, and in one layout these and its text settle each other. -/

namespace Worksheet.Document
open Json

variable {cs rest : List Char}

/-- A record as it is written, after its key. -/
def recordText (layout : Layout) (entry : String) : List Char := layout.object 2 [layout.member entryKey (writeString entry)]

def recordsText (layout : Layout) (records : List (String × String)) : List Char :=
  layout.object 1 (records.map fun record => layout.member record.1 (recordText layout record.2))

def documentText (layout : Layout) (records : List (String × String)) : List Char :=
  layout.object 0 [layout.member cellsKey (recordsText layout records)]

theorem toList_write (layout : Layout) (document : Document) :
    (document.write layout).toList = documentText layout document.records.toList := String.toList_ofList

theorem readRecord_write {layout : Layout} {entry : String} (found : dropSpace cs = recordText layout entry ++ rest) :
    Yields (readRecord cs) entry.toList rest := by
  obtain ⟨left, opens⟩ := object_opens layout 2 [layout.member entryKey (writeString entry)] rest
  unfold readRecord
  extract_lets field demand
  have written : Members field layout none [layout.member entryKey (writeString entry)] (some entry.toList) := by
    refine .cons (fun rest => ?_) (.nil _)
    exact (readValue_colon layout fun gap same => readText_write same).bind fun _ => .pure _ _
  rw [recordText, opens] at found
  split
  next after opened =>
    rw [found] at opened
    cases opened
    exact (written.read opens.symm).bind fun _ => .pure _ _
  next after opened =>
    rw [found] at opened
    cases opened
  next other _ => exact absurd found (other _)

def insertRecord (records : Std.TreeMap String String) (record : String × String) : Std.TreeMap String String :=
  records.insert record.1 record.2

theorem readRecords_write {layout : Layout} {records : List (String × String)}
    (found : dropSpace cs = recordsText layout records ++ rest) :
    Yields (readRecords cs) (records.foldl insertRecord ∅) rest := by
  obtain ⟨left, opens⟩ :=
    object_opens layout 1 (records.map fun record => layout.member record.1 (recordText layout record.2)) rest
  unfold readRecords
  extract_lets insert
  have written : Members insert layout ∅ (records.map fun record => layout.member record.1 (recordText layout record.2))
      (records.foldl insertRecord ∅) := by
    apply Members.foldl
    intro state record rest
    have entry : Yields (readValue readRecord (layout.colon ++ (recordText layout record.2 ++ rest))) record.2.toList rest :=
      readValue_colon layout fun gap same => readRecord_write (same.trans (dropSpace_object ..))
    refine entry.bind fun _ => ?_
    simp only [String.ofList_toList]
    exact .pure _ _
  rw [recordsText, opens] at found
  split
  next after opened =>
    rw [found] at opened
    cases opened
    exact (written.read opens.symm).bind fun _ => .pure _ _
  next other => exact absurd found (other _)

theorem readDocument_write {layout : Layout} {records : List (String × String)}
    (found : dropSpace cs = documentText layout records ++ rest) :
    Yields (readDocument cs) ⟨records.foldl insertRecord ∅⟩ rest := by
  obtain ⟨left, opens⟩ := object_opens layout 0 [layout.member cellsKey (recordsText layout records)] rest
  unfold readDocument
  extract_lets field
  have written : Members field layout none [layout.member cellsKey (recordsText layout records)]
      (some (records.foldl insertRecord ∅)) := by
    refine .cons (fun rest => ?_) (.nil _)
    have cells : Yields (readValue readRecords (layout.colon ++ (recordsText layout records ++ rest)))
        (records.foldl insertRecord ∅) rest :=
      readValue_colon layout fun gap same => readRecords_write (same.trans (dropSpace_object ..))
    exact cells.bind fun _ => .pure _ _
  rw [documentText, opens] at found
  split
  next after opened =>
    rw [found] at opened
    cases opened
    exact (written.read opens.symm).bind fun _ => .pure _ _
  next after opened =>
    rw [found] at opened
    cases opened
  next other _ => exact absurd found (other _)

theorem perm_toList_ofList {records : List (String × String)} (distinct : (records.map Prod.fst).Nodup) :
    (Std.TreeMap.ofList records).toList.Perm records := by
  have apart : records.Pairwise fun record other => ¬ compare record.1 other.1 = .eq := by
    apply (List.pairwise_map.mp distinct).imp
    intro record other different same
    exact different (Std.LawfulEqCmp.eq_of_compare same)
  have nodup {records : List (String × String)} (apart : records.Pairwise fun record other => ¬ compare record.1 other.1 = .eq) :
      records.Nodup := by
    apply apart.imp
    rintro record _ different rfl
    exact different Std.ReflCmp.compare_self
  apply (List.perm_ext_iff_of_nodup (nodup (Std.TreeMap.distinct_keys_toList)) (nodup apart)).mpr
  rintro ⟨key, entry⟩
  rw [Std.TreeMap.mem_toList_iff_getElem?_eq_some]
  constructor
  · intro found
    have present : key ∈ Std.TreeMap.ofList records := by
      rw [Std.TreeMap.mem_iff_isSome_getElem?, found]
      rfl
    rw [Std.TreeMap.mem_ofList, List.contains_iff_mem] at present
    obtain ⟨⟨_, other⟩, member, rfl⟩ := List.mem_map.mp present
    rw [Std.TreeMap.getElem?_ofList_of_mem Std.ReflCmp.compare_self apart member] at found
    rwa [← Option.some.inj found]
  · exact Std.TreeMap.getElem?_ofList_of_mem Std.ReflCmp.compare_self apart

theorem foldl_insertRecord (records : List (String × String)) (start : Std.TreeMap String String) :
    records.foldl insertRecord start = start.insertMany records := by
  induction records generalizing start with
  | nil => exact Std.TreeMap.insertMany_nil.symm
  | cons record records ih => rw [List.foldl_cons, ih, Std.TreeMap.insertMany_cons, insertRecord]

theorem nodup_keys (document : Document) : (document.records.toList.map Prod.fst).Nodup := by
  rw [List.Nodup, List.pairwise_map]
  apply document.records.distinct_keys_toList.imp
  intro record other different same
  exact different (same ▸ Std.ReflCmp.compare_self)

theorem parse_write (layout : Layout) (document : Document) :
    ∃ reread, parse (document.write layout) = .ok reread ∧ reread.records.toList = document.records.toList := by
  have whole : dropSpace (document.write layout).toList = documentText layout document.records.toList ++ [] := by
    have opens := dropSpace_object layout 0 [layout.member cellsKey (recordsText layout document.records.toList)] []
    rw [List.append_nil] at opens
    rw [toList_write, List.append_nil]
    exact opens
  obtain ⟨_, read⟩ := readDocument_write whole
  refine ⟨⟨document.records.toList.foldl insertRecord ∅⟩, ?_, ?_⟩
  · unfold parse
    rw [read]
    rfl
  · rw [foldl_insertRecord, ← Std.TreeMap.ofList_eq_insertMany_empty]
    exact (Std.TreeMap.Equiv.of_toList_perm (perm_toList_ofList document.nodup_keys)).toList_eq

theorem toList_eq_iff {document other : Document} : other.records.toList = document.records.toList ↔
    ∀ key : String, other.records[key]? = document.records[key]? := by
  constructor
  · intro same key
    ext entry
    rw [← Std.TreeMap.mem_toList_iff_getElem?_eq_some, same, Std.TreeMap.mem_toList_iff_getElem?_eq_some]
  · exact fun same => (Std.TreeMap.Equiv.of_forall_constGet?_eq same).toList_eq

/-- Reading what is written for a document never fails and gives the same records, so documents that
differ in any record have different texts. -/
theorem reread_of_written (document : Document) (layout : Layout) :
    (∃ reread, parse (document.write layout) = .ok reread ∧
      ∀ key : String, reread.records[key]? = document.records[key]?) ∧
    ∀ other : Document, other.write layout = document.write layout ↔
      ∀ key : String, other.records[key]? = document.records[key]? := by
  obtain ⟨reread, read, same⟩ := parse_write layout document
  refine ⟨⟨reread, read, toList_eq_iff.mp same⟩, fun other => ?_⟩
  rw [← toList_eq_iff]
  constructor
  · intro text
    obtain ⟨again, read', same'⟩ := parse_write layout other
    rw [text, read] at read'
    obtain rfl := Except.ok.inj read'
    exact same'.symm.trans same
  · intro records
    rw [← String.toList_inj, toList_write, toList_write, records]

end Worksheet.Document
