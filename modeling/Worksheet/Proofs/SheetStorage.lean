import Worksheet.Sheet.Storage
import Worksheet.Proofs.DocumentText
import Worksheet.Proofs.SheetHistory

/-! What a sheet is stored as is loaded as the same sheet. The text is read back to the records that
were written, and these are entered in the order of their names, which is one of the orders in
which nothing can be refused. -/

namespace Worksheet

theorem Text.fromUTF8?_toUTF8 (text : String) : String.fromUTF8? text.toUTF8 = some text := dif_pos text.isValidUTF8

namespace Document

section
variable {seen : Std.TreeSet Address} {sheet next : Sheet} {key entry : String} {address : Address}

theorem replay_of_met (named : Address.parse key = .ok address) (met : address ∈ seen) :
    replay seen sheet key entry = .error (.duplicate address) := by
  simp only [replay, named, Except.mapError, bind, Except.bind, if_pos (Std.TreeSet.contains_iff_mem.mpr met)]

theorem replay_of_entered {order : List Address} (named : Address.parse key = .ok address) (unmet : address ∉ seen)
    (entered : sheet.enter address.text entry = (.ok order, next)) :
    replay seen sheet key entry = .ok (seen.insert address, next) := by
  simp only [replay, named, Except.mapError, bind, Except.bind, if_neg (mt Std.TreeSet.contains_iff_mem.mp unmet), entered]
  rfl

theorem replay_of_refused {e : SheetError} (named : Address.parse key = .ok address) (unmet : address ∉ seen)
    (refused : sheet.enter address.text entry = (.error e, next)) : replay seen sheet key entry = .error e := by
  simp only [replay, named, Except.mapError, bind, Except.bind, if_neg (mt Std.TreeSet.contains_iff_mem.mp unmet), refused]

end

/-- Records that can be entered one after the other can be replayed, if no two of them are for one cell. -/
theorem replayAll_of_entered {sheet last : Sheet} {records : List (String × String)} (entered : sheet.Entered records last)
    (named : ∀ record ∈ records, ∃ address : Address, record.1 = address.text) (distinct : (records.map Prod.fst).Nodup)
    {seen : Std.TreeSet Address} (unseen : ∀ address ∈ seen, address.text ∉ records.map Prod.fst) :
    replayAll seen sheet records = .ok last := by
  induction entered generalizing seen with
  | nil => rfl
  | @cons sheet between last name entry order records accepted _ ih =>
    obtain ⟨address, rfl⟩ := named _ List.mem_cons_self
    rw [List.map_cons, List.nodup_cons] at distinct
    have fresh : address ∉ seen := fun present => unseen address present List.mem_cons_self
    rw [replayAll, replay_of_entered address.parse_text fresh accepted]
    apply ih (fun record member => named record (List.mem_cons_of_mem _ member)) distinct.2
    intro other member
    rw [Std.TreeSet.mem_insert, Std.compare_eq_iff_eq] at member
    rcases member with rfl | member
    · exact distinct.1
    · exact fun later => unseen other member (List.mem_cons_of_mem _ later)

end Document

namespace Sheet

variable {sheet : Sheet}

theorem nodup_names (sheet : Sheet) : (sheet.entries.map Prod.fst).Nodup := by
  rw [entries, List.map_map, List.Nodup, List.pairwise_map]
  apply sheet.cells.distinct_keys_toList.imp
  rintro ⟨address, _⟩ ⟨other, _⟩ different same
  apply different
  rw [show address = other from Address.eq_of_text same]
  exact Std.ReflCmp.compare_self

theorem ofSheet_records_perm (sheet : Sheet) : (Document.ofSheet sheet).records.toList.Perm sheet.entries :=
  Document.perm_toList_ofList sheet.nodup_names

/-- A sheet that has been loaded from what another was stored as. -/
structure Restored (stored loaded : Sheet) : Prop where
  cells : ∀ address : Address, loaded.cells[address]? = stored.cells[address]?
  graph : loaded.graph.Same stored.graph
  saved : loaded.changed = false
  text : ∀ layout, (Document.ofSheet loaded).write layout = (Document.ofSheet stored).write layout

theorem ofSheet_congr {other : Sheet} (same : ∀ address : Address, other.cells[address]? = sheet.cells[address]?) :
    Document.ofSheet other = Document.ofSheet sheet := by
  rw [Document.ofSheet, Document.ofSheet, (Std.TreeMap.Equiv.of_forall_constGet?_eq same).toList_eq]

theorem store_options (sheet : Sheet) (address : Address) (contents : Contents) :
    (sheet.store address contents).2.options = sheet.options := by
  unfold store
  split
  all_goals
    dsimp only
    split <;> rfl

theorem enter_options (sheet : Sheet) (name entry : String) : (sheet.enter name entry).2.options = sheet.options := by
  rcases sheet.enter_cases name entry with ⟨_, _, same⟩ | ⟨_, _, _, _, same⟩ | ⟨address, contents, _, _, same⟩
  · rw [same]
  · rw [same]
  · rw [same]
    exact sheet.store_options address contents

theorem Entered.options {last : Sheet} {records : List (String × String)} (entered : Entered sheet records last) :
    last.options = sheet.options := by
  induction entered with
  | nil => rfl
  | @cons sheet _ _ name entry _ _ accepted _ ih =>
    have kept := sheet.enter_options name entry
    rw [accepted] at kept
    exact ih.trans kept

/-- The document is read back and its records are replayed, so the sheet is built again from its
contents. -/
theorem Valid.restored (valid : Valid sheet) (enterable : Enterable sheet) (layout : Json.Layout) (options : Options) :
    ∃ loaded, ofJson ((Document.ofSheet sheet).write layout) options = .ok loaded ∧ Restored sheet loaded ∧
      loaded.options = options := by
  obtain ⟨document, parsed, records⟩ := (Document.ofSheet sheet).parse_write layout
  have order : document.records.toList.Perm sheet.entries := records ▸ ofSheet_records_perm sheet
  obtain ⟨last, entered, valid', agree⟩ := valid.entered enterable options order
  have named (record) (member : record ∈ document.records.toList) : ∃ address : Address, record.1 = address.text := by
    obtain ⟨address, _, rfl, _⟩ := mem_entries.mp (order.mem_iff.mp member)
    exact ⟨address, rfl⟩
  have replayed : Document.replayAll ∅ (.new options) document.records.toList = .ok last :=
    Document.replayAll_of_entered entered named document.nodup_keys (by simp)
  have built : ofJson ((Document.ofSheet sheet).write layout) options = .ok { last with changed := false } := by
    simp only [ofJson, parsed, Except.mapError, bind, Except.bind, Document.toSheet, replayed]
    rfl
  have valid' := Valid.kept.saved last valid'
  have cells := valid.cells_eq valid' agree
  exact ⟨_, built, ⟨cells, valid.graph_same valid' agree, rfl, fun layout => by rw [ofSheet_congr cells]⟩, entered.options⟩

/-- Whatever has been stored is loaded without a fault, in either layout and with any options, and it is
stored as the same text again. -/
theorem restored_of_stored (reached : Reachable sheet) :
    (∀ layout, (∀ options, ∃ loaded, ofJson ((Document.ofSheet sheet).write layout) options = .ok loaded ∧
        Restored sheet loaded ∧ loaded.options = options) ∧
      ∀ other : Sheet, ∃ loaded, other.loadJson ((Document.ofSheet sheet).write layout) = .ok loaded ∧
        Restored sheet loaded ∧ loaded.options = other.options) ∧
    ∃ loaded, sheet.loadJson sheet.toJson = .ok loaded ∧ Restored sheet loaded ∧ loaded.toJson = sheet.toJson := by
  have restored := reached.valid.restored reached.enterable
  refine ⟨fun layout => ⟨restored layout, fun other => restored layout other.options⟩, ?_⟩
  obtain ⟨loaded, built, same, options⟩ := restored (layout sheet.options) sheet.options
  refine ⟨loaded, built, same, ?_⟩
  rw [toJson, same.text, options, toJson]

private def quoted : Session := (Session.start { indented := false }).run [.enter "B1" "=A1/C1", .enter "A1" "-0.50",
  .enter "D1" " \"1\\2\"\n\x01"]

theorem restored_of_quoted : ∃ loaded, Reachable quoted.sheet ∧
    quoted.sheet.toJson = "\x7b\"Cells\":\x7b\"A1\":\x7b\"StringForm\":\"-0.5\"\x7d,\"B1\":\x7b\"StringForm\":\"=A1/C1\"\x7d,\"D1\":\x7b\"StringForm\":\" \\\"1\\\\2\\\"\\n\\u0001\"\x7d\x7d\x7d" ∧
    quoted.sheet.loadJson quoted.sheet.toJson = .ok loaded ∧ Restored quoted.sheet loaded := by
  have reached : Reachable quoted.sheet := Session.run_reachable (.new _) _
  obtain ⟨loaded, built, same, _⟩ := (restored_of_stored reached).2
  exact ⟨loaded, reached, by decide +kernel, built, same⟩

end Sheet
end Worksheet
