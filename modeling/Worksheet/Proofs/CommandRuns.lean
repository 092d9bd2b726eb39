import Worksheet.Folder
import Worksheet.Proofs.CommandArguments
import Worksheet.Proofs.EditRefusal
import Worksheet.Proofs.SheetTwins

/-! Editing a stored sheet by runs of the program, one for each edit, is editing one sheet in memory. Every
run builds its sheet anew from the file, but what it builds is a twin of the sheet in memory, so it
accepts and refuses the same edits, tells the same, and stores the same. -/

namespace Worksheet
open Command

/-- Files among which one, that `held` looks up, keeps what is written to it. -/
structure Files.Keeps {σ : Type} (files : Files (StateM σ)) (path : String) (held : σ → Option ByteArray) : Prop where
  isThere : ∀ disk, ∃ after, (files.isThere path).run disk = ((held disk).isSome, after) ∧ held after = held disk
  read : ∀ disk bytes, held disk = some bytes →
    ∃ after, (files.read path).run disk = (.ok bytes, after) ∧ held after = held disk
  write : ∀ disk bytes, ∃ after, (files.write path bytes).run disk = (.ok (), after) ∧ held after = some bytes

/-- The sheet that a file with these bytes is opened as. Where there is no file it is a new one. -/
inductive Opens (options : Options) : Option ByteArray → Sheet → Prop where
  | new : Opens options none (.new options)
  | stored {text : String} {sheet : Sheet} (built : Sheet.ofJson text options = .ok sheet) :
      Opens options (some text.toUTF8) sheet

/-- The line that a run prints for a cell, spelled out: the name, a tab, and what the cell shows. -/
def printed (address : Address) (value : Value) : String :=
  address.text ++ "\t" ++ (match value with
    | .empty => ""
    | .number value => Number.toText value
    | .text written => written
    | .error (.undefined missing) => "#ERROR: Undefined variable: " ++ missing.text
    | .error .divisionByZero => "#ERROR: Division by zero"
    | .error .missingOperand => "#ERROR: Missing operand") ++ "\n"

theorem line_shown (address : Address) (value : Value) : Report.line [address.text, value.shown] = printed address value := by
  rcases value with - | value | written | ⟨missing | - | -⟩ <;> rfl

structure EditLine (path : String) where
  words : List String
  cell : String
  entry : String
  compact : Bool
  accepted : Command.parse? words = some (.edit path cell entry compact)

namespace EditLine

variable {path : String} (line : EditLine path)

def command : Command := .edit path line.cell line.entry line.compact

def options : Options := { indented := !line.compact }

/-- What a run has to tell, and to leave in the file, when an edit in memory came out like this. -/
structure Shows (edited : Sheet.Edited) (report : Report) (before after : Option ByteArray) : Prop where
  succeeds : report.code = 0 ↔ ∃ order, edited.1 = .ok order
  accepted : ∀ order, edited.1 = .ok order →
    report.out = .join (order.map fun address => printed address (edited.2.valueAt address)) ∧
    report.err = "Saved " ++ toString edited.2.cells.size ++ " cell(s) to '" ++ path ++ "'\n" ∧
    after = some ((Document.ofSheet edited.2).write (if line.compact then .compact else .indented)).toUTF8
  refused : ∀ e, edited.1 = .error e →
    report = ⟨1, "", "Error: Failed to set " ++ line.cell ++ " to '" ++ line.entry ++ "'" ++ Report.causes e.chain ++ "\n"⟩ ∧
    after = before

end EditLine

variable {σ : Type} {files : Files (StateM σ)} {path : String} {held : σ → Option ByteArray} {disk : σ}
  {sheet opened : Sheet} {options : Options} {bytes : Option ByteArray}

theorem Opens.holds (opens : Opens options bytes sheet) : sheet.Valid ∧ sheet.Enterable := by
  cases opens with
  | new => exact Sheet.Enterable.kept.new options
  | stored built => exact Sheet.Enterable.kept.ofJson built

theorem Opens.options_eq (opens : Opens options bytes sheet) : sheet.options = options := by
  cases opens with
  | new => rfl
  | stored built => exact (Sheet.ofJson_fresh built).1

private theorem run_bind_of {α β : Type} {first : StateM σ α} {value : α} {after : σ} (ran : first.run disk = (value, after))
    (later : α → StateM σ β) : (first >>= later).run disk = (later value).run after := by
  rw [StateT.run_bind, ran]
  rfl

namespace Files.Keeps

theorem run_read (keeps : files.Keeps path held) (named : path ≠ "") {text : String} (found : held disk = some text.toUTF8)
    (built : Sheet.ofJson text options = .ok sheet) :
    ∃ after, (Sheet.read files path options).run disk = (.ok sheet, after) ∧ held after = held disk := by
  obtain ⟨after, ran, same⟩ := keeps.read disk text.toUTF8 found
  refine ⟨after, ?_, same⟩
  have decoded : Sheet.decode path (.ok text.toUTF8) = .ok text := by rw [Sheet.decode, Text.fromUTF8?_toUTF8]
  unfold Sheet.read
  rw [if_neg named, run_bind_of ran, decoded]
  change (Except.bind (.ok text) fun text => Sheet.ofJson text options, after) = _
  rw [Except.bind, built]

theorem run_save (keeps : files.Keeps path held) (named : path ≠ "") (sheet : Sheet) (disk : σ) :
    ∃ after, (sheet.save files path).run disk = (.ok { sheet with changed := false }, after) ∧
      held after = some sheet.toJson.toUTF8 := by
  obtain ⟨after, ran, same⟩ := keeps.write disk sheet.toJson.toUTF8
  refine ⟨after, ?_, same⟩
  unfold Sheet.save
  rw [if_neg named, run_bind_of ran]
  rfl

/-- Whether the file is there or not, a run goes on with the sheet that it opens, and has not touched the
file until then. -/
theorem run_open (keeps : files.Keeps path held) (named : path ≠ "") (opens : Opens options (held disk) opened) :
    ∃ after, held after = held disk ∧ ∀ later : Except SheetError Sheet → StateM σ Report,
      (do let opened ← if ← files.isThere path then Sheet.read files path options else pure (.ok (.new options))
          later opened).run disk = (later (.ok opened)).run after := by
  obtain ⟨between, there, same⟩ := keeps.isThere disk
  generalize found : held disk = bytes at opens
  cases opens with
  | new =>
    refine ⟨between, same.trans found, fun later => ?_⟩
    rw [run_bind_of there, found]
    rfl
  | stored built =>
    obtain ⟨after, ran, kept⟩ := keeps.run_read named (same.trans found) built
    refine ⟨after, kept.trans (same.trans found), fun later => ?_⟩
    rw [run_bind_of there, found]
    exact run_bind_of ran later

end Files.Keeps

namespace EditLine

variable {line : EditLine path} {edited other : Sheet.Edited} {report : Report} {before after : Option ByteArray}

theorem Shows.refusal {e : SheetError} {next : Sheet} (same : after = before) :
    line.Shows (.error e, next) (.failure "" ("Failed to set " ++ line.cell ++ " to '" ++ line.entry ++ "'") e.chain)
      before after where
  succeeds := iff_of_false (by simp [Report.failure]) nofun
  accepted := nofun
  refused _ equal := by
    cases equal
    have words : "Error: Failed to set " = "Error: " ++ "Failed to set " := by decide
    refine ⟨?_, same⟩
    simp only [Report.failure, words, String.append_assoc]

theorem Shows.twins (shows : line.Shows edited report before after) (answer : edited.1 = other.1)
    (twins : Sheet.Twins other.2 edited.2) : line.Shows other report before after where
  succeeds := answer ▸ shows.succeeds
  accepted order taken := by
    obtain ⟨out, err, stored⟩ := shows.accepted order (answer.trans taken)
    simp only [twins.valueAt, twins.size, twins.document] at out err stored
    exact ⟨out, err, stored⟩
  refused e taken := shows.refused e (answer.trans taken)

theorem run_shows (keeps : files.Keeps path held) (line : EditLine path) (opens : Opens line.options (held disk) opened) :
    line.Shows (opened.enter line.cell line.entry) ((line.command.run files).run disk).1 (held disk)
      (held ((line.command.run files).run disk).2) := by
  have named := path_ne_of_parse? line.accepted
  have options := opened.enter_options line.cell line.entry
  rw [opens.options_eq] at options
  obtain ⟨between, same, ran⟩ := keeps.run_open named opens
  unfold EditLine.command Command.run editing
  dsimp only
  rw [← EditLine.options, ran]
  dsimp only
  generalize opened.enter line.cell line.entry = edited at options ⊢
  rcases edited with ⟨e | order, next⟩
  · exact .refusal same
  · obtain ⟨after, ran, stored⟩ := keeps.run_save named next between
    dsimp only
    rw [run_bind_of ran]
    refine ⟨iff_of_true rfl ⟨order, rfl⟩, ?_, nofun⟩
    intro _ equal
    cases equal
    refine ⟨?_, rfl, stored.trans ?_⟩
    · simp only [← line_shown]
      rfl
    dsimp only at options
    rw [Sheet.toJson, options, EditLine.options, Sheet.layout]
    cases line.compact <;> rfl

end EditLine

/-- What is in the file is opened as a twin of the sheet, whatever the options are. -/
def Tied (bytes : Option ByteArray) (sheet : Sheet) : Prop :=
  ∀ options, ∃ opened, Opens options bytes opened ∧ Sheet.Twins sheet opened

theorem tied_of_recovers {text : String} (recovers : Sheet.Recovers text sheet) : Tied (some text.toUTF8) sheet := by
  intro options
  obtain ⟨opened, built, twins⟩ := recovers options
  exact ⟨opened, .stored built, twins⟩

theorem Opens.tied (opens : Opens options bytes sheet) : Tied bytes sheet := by
  cases opens with
  | new => exact fun others => ⟨_, .new, .new options, .new others, fun _ => rfl⟩
  | stored built => exact tied_of_recovers (Sheet.recovers_of_ofJson built)

/-- After a run the file and the sheet are as close as before. A refused edit leaves both as they were, and
what an accepted one stores is opened as the sheet that it was stored from. -/
theorem Tied.run (tied : Tied (held disk) sheet) (keeps : files.Keeps path held) (line : EditLine path) :
    Tied (held ((line.command.run files).run disk).2) (sheet.enter line.cell line.entry).2 := by
  obtain ⟨opened, opens, twins⟩ := tied line.options
  obtain ⟨answer, next⟩ := twins.enter line.cell line.entry
  have shows := line.run_shows keeps opens
  cases taken : (sheet.enter line.cell line.entry).1 with
  | error e =>
    have same := Sheet.enter_refused_same twins.left taken
    rw [(shows.refused e (answer.trans taken)).2]
    intro options
    obtain ⟨again, opens, twins⟩ := tied options
    exact ⟨again, opens, (next.left.twins twins.left fun address => (same.cells address).symm).trans twins⟩
  | ok order =>
    obtain ⟨valid, enterable⟩ := Sheet.Enterable.kept.enter opens.holds line.cell line.entry
    rw [(shows.accepted order (answer.trans taken)).2.2]
    exact tied_of_recovers ((valid.recovers enterable _).twins next)

namespace EditLine

def runAll (files : Files (StateM σ)) (disk : σ) (lines : List (EditLine path)) : σ :=
  lines.foldl (fun disk line => ((line.command.run files).run disk).2) disk

def enterAll (sheet : Sheet) (lines : List (EditLine path)) : Sheet :=
  lines.foldl (fun sheet line => (sheet.enter line.cell line.entry).2) sheet

@[simp]
theorem runAll_concat (files : Files (StateM σ)) (disk : σ) (lines : List (EditLine path)) (line : EditLine path) :
    runAll files disk (lines ++ [line]) = ((line.command.run files).run (runAll files disk lines)).2 := by
  rw [runAll, List.foldl_append]
  rfl

end EditLine

theorem Tied.runAll (tied : Tied (held disk) sheet) (keeps : files.Keeps path held) (lines : List (EditLine path)) :
    Tied (held (EditLine.runAll files disk lines)) (EditLine.enterAll sheet lines) := by
  unfold EditLine.runAll EditLine.enterAll
  induction lines generalizing disk sheet with
  | nil => exact tied
  | cons line lines ih => exact ih (tied.run keeps line)

/-- Every run on one file tells of its edit, and stores, what the same edits of one sheet in memory come to,
however many runs there were before it and whichever of them failed. -/
theorem runs_show_edits (keeps : files.Keeps path held) (opens : Opens options (held disk) sheet)
    (earlier : List (EditLine path)) (line : EditLine path) :
    line.Shows ((EditLine.enterAll sheet earlier).enter line.cell line.entry)
      ((line.command.run files).run (EditLine.runAll files disk earlier)).1
      (held (EditLine.runAll files disk earlier)) (held (EditLine.runAll files disk (earlier ++ [line]))) := by
  obtain ⟨opened, opens, twins⟩ := opens.tied.runAll keeps earlier line.options
  obtain ⟨answer, next⟩ := twins.enter line.cell line.entry
  have shows := line.run_shows keeps opens
  rw [EditLine.runAll_concat]
  exact shows.twins answer next

/-- A folder keeps every file whose path does not lead over another file. -/
theorem Folder.keeps {base name : String} (located : ∀ folder : Folder, folder.locate path = .ok (.entry base name false))
    (short : name.utf8ByteSize ≤ Folder.nameLimit) :
    Folder.access.Keeps path fun folder => folder.files[base ++ name]? := by
  have found (folder : Folder) : folder.lookup base name = .ok folder.files[base ++ name]? := if_neg (Nat.not_lt.mpr short)
  have present (folder : Folder) (bytes : ByteArray) (held : folder.files[base ++ name]? = some bytes) :
      folder.read path = .ok bytes := by
    simp only [Folder.read, located, found, held, bind, Except.bind]
    rfl
  constructor
  · intro disk
    refine ⟨disk, ?_, rfl⟩
    have there : disk.isThere path = disk.files[base ++ name]?.isSome := by
      rw [Folder.isThere, located]
      cases held : disk.files[base ++ name]? with
      | none =>
        simp only [Folder.read, located, found, held, bind, Except.bind]
        rfl
      | some bytes =>
        simp only [present disk bytes held]
        rfl
    exact congrArg (·, disk) there
  · intro disk bytes held
    exact ⟨disk, congrArg (·, disk) (present disk bytes held), rfl⟩
  · intro disk bytes
    have written : disk.write path bytes = .ok ⟨disk.files.insert (base ++ name) bytes⟩ := by
      simp only [Folder.write, located, found, bind, Except.bind]
      rfl
    refine ⟨⟨disk.files.insert (base ++ name) bytes⟩, ?_, Std.TreeMap.getElem?_insert_self⟩
    have get : (get : StateM Folder Folder).run disk = (disk, disk) := rfl
    dsimp only [Folder.access]
    rw [run_bind_of get, written]
    rfl

private def table : String := "t.json"

private theorem splitOn_table : table.splitOn "/" = [table] := by
  have step (i : String.Pos.Raw) (more : i.atEnd table = false) (apart : (i.get table == String.Pos.Raw.get "/" 0) = false) :
      table.splitOnAux "/" 0 i 0 [] = table.splitOnAux "/" 0 (i.next table) 0 [] := by
    rw [String.splitOnAux]
    simp [more, apart]
  have last (i : String.Pos.Raw) (done : i.atEnd table = true) :
      table.splitOnAux "/" 0 i 0 [] = [String.Pos.Raw.extract table 0 i] := by
    rw [String.splitOnAux]
    simp [done]
  rw [String.splitOn, if_neg (by decide)]
  repeat rw [step _ (by decide +kernel) (by decide +kernel)]
  rw [last _ (by decide +kernel)]
  decide +kernel

private theorem table_kept : Folder.access.Keeps table fun folder => folder.files["" ++ table]? := by
  refine Folder.keeps (fun folder => ?_) (by decide +kernel)
  have zero : ¬ table.toList.contains '\x00' := by decide +kernel
  have long : ¬ Folder.pathLimit < table.utf8ByteSize := by decide +kernel
  have inside : ¬ table.startsWith Folder.root := by decide +kernel
  have part : ¬ (table = "" ∨ table = ".") := by decide +kernel
  have up : ¬ table = ".." := by decide +kernel
  rw [Folder.locate, if_neg zero, if_neg long, if_neg inside, splitOn_table, Folder.walk, if_neg part, if_neg up]
  rfl

private def document : String :=
  "\x7b\"Cells\": \x7b\"c1\": \x7b\"StringForm\": \"= a1 + 1.0\"\x7d, \"D1\": [\"=2/A1\"]\x7d\x7d"

private def folder : Folder := ⟨(∅ : Std.TreeMap String ByteArray).insert ("" ++ table) document.toUTF8⟩

private def input : EditLine table := ⟨["set", table, "a1", "5.000"], "a1", "5.000", false, rfl⟩

private def circle : EditLine table := ⟨["set", "--", table, "A1", "=C1-B1"], "A1", "=C1-B1", false, rfl⟩

private def zero : EditLine table := ⟨["set", "--compact", table, "a1", "0"], "a1", "0", true, rfl⟩

private def second : Folder := EditLine.runAll Folder.access folder [input, circle]

private def third : Report × Folder := (zero.command.run Folder.access).run second

private def indented : String :=
  "\x7b\n  \"Cells\": \x7b\n    \"A1\": \x7b\n      \"StringForm\": \"5\"\n    \x7d,\n    \"C1\": \x7b\n      \"StringForm\": \"=A1+1\"\n    \x7d,\n    \"D1\": \x7b\n      \"StringForm\": \"=2/A1\"\n    \x7d\n  \x7d\n\x7d"

private def compact : String :=
  "\x7b\"Cells\":\x7b\"A1\":\x7b\"StringForm\":\"0\"\x7d,\"C1\":\x7b\"StringForm\":\"=A1+1\"\x7d,\"D1\":\x7b\"StringForm\":\"=2/A1\"\x7d\x7d\x7d"

private def told (edited : Sheet.Edited) (layout : Json.Layout) : Option (String × String) :=
  match edited.1 with
  | .ok order =>
    some (.join (order.map fun address => printed address (edited.2.valueAt address)),
      (Document.ofSheet edited.2).write layout)
  | .error _ => none

private theorem EditLine.Shows.eq_of_told {line : EditLine path} {edited : Sheet.Edited} {report : Report}
    {before after : Option ByteArray} (shows : line.Shows edited report before after) {out text : String}
    (taken : told edited (if line.compact then .compact else .indented) = some (out, text)) :
    report.out = out ∧ after = some text.toUTF8 := by
  unfold told at taken
  split at taken
  next order answer =>
    cases taken
    obtain ⟨out, _, kept⟩ := shows.accepted order answer
    exact ⟨out, kept⟩
  next => cases taken

private theorem EditLine.Shows.kept_of_told {line : EditLine path} {edited : Sheet.Edited} {report : Report}
    {before after : Option ByteArray} (shows : line.Shows edited report before after) {layout : Json.Layout}
    (refused : told edited layout = none) : edited.1.isOk = false ∧ after = before := by
  unfold told at refused
  split at refused
  next => cases refused
  next e answer => exact ⟨by rw [answer]; rfl, (shows.refused e answer).2⟩

/-- The file is there before the first run, the second run is refused, and the third prints what it has recomputed
and stores the sheet anew. -/
theorem runs_show_edits_of_loaded : ∃ sheet, Opens {} (some document.toUTF8) sheet ∧
    ((EditLine.enterAll sheet [input]).enter "A1" "=C1-B1").1.isOk = false ∧
    second.files["" ++ table]? = some indented.toUTF8 ∧
    zero.Shows ((EditLine.enterAll sheet [input, circle]).enter "a1" "0") third.1 second.files["" ++ table]?
      third.2.files["" ++ table]? ∧
    third.1.out = "A1\t0\nD1\t#ERROR: Division by zero\nC1\t1\n" ∧
    third.2.files["" ++ table]? = some compact.toUTF8 := by
  have computed : ((Sheet.ofJson document {}).toOption.map fun sheet =>
      (told (sheet.enter "a1" "5.000") .indented,
        told ((EditLine.enterAll sheet [input]).enter "A1" "=C1-B1") .indented,
        told ((EditLine.enterAll sheet [input, circle]).enter "a1" "0") .compact)) =
      some (some ("A1\t5\nD1\t0.4\nC1\t6\n", indented), none,
        some ("A1\t0\nD1\t#ERROR: Division by zero\nC1\t1\n", compact)) := by decide +kernel
  cases built : Sheet.ofJson document {} with
  | error e => simp [built, Except.toOption] at computed
  | ok sheet =>
    simp only [built, Except.toOption, Option.map_some, Option.some.injEq, Prod.mk.injEq] at computed
    obtain ⟨taken, refused, last⟩ := computed
    have found : folder.files["" ++ table]? = some document.toUTF8 := Std.TreeMap.getElem?_insert_self
    have shows := runs_show_edits table_kept (found ▸ Opens.stored built)
    obtain ⟨_, stored⟩ := (shows [] input).eq_of_told taken
    obtain ⟨failed, kept⟩ := (shows [input] circle).kept_of_told refused
    obtain ⟨out, anew⟩ := (shows [input, circle] zero).eq_of_told last
    exact ⟨sheet, .stored built, failed, kept.trans stored, shows [input, circle] zero, out, anew⟩

end Worksheet
