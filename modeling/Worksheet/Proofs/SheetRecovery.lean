import Worksheet.Proofs.EditRefusal
import Worksheet.Proofs.SheetTwins

/-! Nothing is lost by closing a sheet that has not changed. The flag tells whether an edit has been
accepted since the sheet was new, saved or loaded, and as long as none has been, the text that it was
saved as or loaded from gives the sheet back, even if the sheet itself would be stored differently. Where
there is a file, that text is the one in the bytes that were written to it or read from it. -/

namespace Worksheet

/-- What a request has done, as far as storing is concerned. -/
inductive Event where
  | edited
  /-- The sheet has been saved as the text or loaded from it. -/
  | exchanged (text : String)
  | refused
deriving DecidableEq

namespace Event

def text? : Event → Option String
  | exchanged text => some text
  | edited | refused => none

/-- What a request has done, told from its answer. Only an edit has no text to pass on. -/
def of (text? : Option String) : Except SheetError (List Address) → Event
  | .error _ => refused
  | .ok _ =>
    match text? with
    | some text => exchanged text
    | none => edited

end Event

variable {σ : Type}

namespace Files

abbrev Passed := Option (String × ByteArray)

private def note {α : Type} (call : StateM σ α) (passed : α → Passed) : StateM (σ × Passed) α := fun (disk, last) =>
  let (answer, disk) := call.run disk
  (answer, disk, passed answer <|> last)

/-- The same files, with a note of what passes between them and the program. -/
def noting (files : Files (StateM σ)) : Files (StateM (σ × Passed)) where
  isThere path := note (files.isThere path) fun _ => none
  read path := note (files.read path) fun answer => answer.toOption.map fun bytes => (path, bytes)
  write path bytes := note (files.write path bytes) fun answer => answer.toOption.map fun () => (path, bytes)

end Files

namespace Request

/-- The text that a request loads or saves, which is in the bytes that have passed if there is a file. An edit
has none. -/
def text? (sheet : Sheet) (passed : Files.Passed) : Request → Option String
  | enter .. | put .. => none
  | loadText text | openText text _ => some text
  | reload => some sheet.toJson
  | loadFile path | openFile path _ | saveFile path =>
    match passed with
    | some (place, bytes) => if place = path then String.fromUTF8? bytes else none
    | none => none

def event (files : Files (StateM σ)) (disk : σ) (sheet : Sheet) (request : Request) : Event :=
  let noted := (request.perform files.noting sheet).run (disk, none)
  .of (request.text? sheet noted.2.2) noted.1.1

end Request

/-- The sheets that a new one can become, each with the events that led to it, the latest first. As with the
sheets that can be reached, the files may be any at every request. -/
inductive History : Sheet → List Event → Prop where
  | new (options : Options) : History (.new options) []
  | request {sheet : Sheet} {events : List Event} {σ : Type} (before : History sheet events) (files : Files (StateM σ))
      (disk : σ) (request : Request) :
      History ((request.perform files sheet).run disk).1.2 (request.event files disk sheet :: events)

namespace Event

def EditedSince (events : List Event) : Prop := edited ∈ events.takeWhile fun event => event.text?.isNone

/-- The text that was last saved or loaded, or else that of a document without cells. -/
def lastText (layout : Json.Layout) (events : List Event) : String :=
  (events.findSome? text?).getD (Document.write layout ⟨∅⟩)

variable {events : List Event} {text : String} {layout : Json.Layout}

@[simp]
theorem editedSince_edited : EditedSince (edited :: events) := by simp [EditedSince, text?]

@[simp]
theorem not_editedSince_exchanged : ¬ EditedSince (exchanged text :: events) := by simp [EditedSince, text?]

@[simp]
theorem editedSince_refused : EditedSince (refused :: events) ↔ EditedSince events := by simp [EditedSince, text?]

@[simp]
theorem lastText_exchanged : lastText layout (exchanged text :: events) = text := rfl

@[simp]
theorem lastText_refused : lastText layout (refused :: events) = lastText layout events := rfl

end Event

namespace Sheet

variable {sheet next : Sheet}

inductive Step (sheet : Sheet) : Event → Sheet → Prop where
  | edited {next : Sheet} (changed : next.changed = true) : Step sheet .edited next
  | exchanged {text : String} {next : Sheet} (saved : next.changed = false) (recovers : Recovers text next) :
      Step sheet (.exchanged text) next
  | refused {next : Sheet} (same : Same next sheet) : Step sheet .refused next

theorem store_changed {address : Address} {contents : Contents} {order : List Address}
    (accepted : (sheet.store address contents).1 = .ok order) : (sheet.store address contents).2.changed = true := by
  unfold store at accepted ⊢
  split at accepted
  all_goals
    dsimp only at accepted ⊢
    split at accepted
    next => rfl
    next => cases accepted

theorem enter_changed {name entry : String} {order : List Address} (accepted : (sheet.enter name entry).1 = .ok order) :
    (sheet.enter name entry).2.changed = true := by
  rcases sheet.enter_cases name entry with ⟨_, _, same⟩ | ⟨_, _, _, _, same⟩ | ⟨_, _, _, _, same⟩
  · rw [same] at accepted
    cases accepted
  · rw [same] at accepted
    cases accepted
  · rw [same] at accepted ⊢
    exact store_changed accepted

theorem put_changed {address : Address} {given : Contents} {order : List Address}
    (accepted : (sheet.put address given).1 = .ok order) : (sheet.put address given).2.changed = true := by
  rcases sheet.put_cases address given with ⟨_, same⟩ | ⟨_, _, same⟩
  · rw [same] at accepted
    cases accepted
  · rw [same] at accepted ⊢
    exact store_changed accepted

variable (files : Files (StateM σ)) (disk : σ)

private theorem Step.replace {text : String} {options : Options} {order : List Address}
    (accepted : (Request.replace sheet (ofJson text options)).1 = .ok order) :
    Step sheet (.exchanged text) (Request.replace sheet (ofJson text options)).2 := by
  cases built : ofJson text options with
  | error e =>
    rw [built] at accepted
    cases accepted
  | ok next => exact .exchanged (ofJson_fresh built).2 (recovers_of_ofJson built)

theorem read_bytes {path : String} {options : Options} (read : ((read files path options).run disk).1 = .ok next) :
    path ≠ "" ∧ ∃ bytes text, ((files.read path).run disk).1 = .ok bytes ∧ String.fromUTF8? bytes = some text ∧
      ofJson text options = .ok next := by
  unfold Sheet.read at read
  split at read
  next => cases read
  next named =>
    change (do ofJson (← decode path ((files.read path).run disk).1) options) = .ok next at read
    cases answer : ((files.read path).run disk).1 with
    | error fault =>
      rw [answer] at read
      cases read
    | ok bytes =>
      rw [answer, decode] at read
      cases decoded : String.fromUTF8? bytes with
      | none =>
        rw [decoded] at read
        cases read
      | some text =>
        rw [decoded] at read
        exact ⟨named, bytes, text, rfl, decoded, read⟩

private theorem passed_of_read {path : String} {options : Options} {bytes : ByteArray} (named : path ≠ "")
    (answer : ((files.read path).run disk).1 = .ok bytes) :
    ((Sheet.read files.noting path options).run (disk, none)).2.2 = some (path, bytes) := by
  rw [Sheet.read, if_neg named]
  change (((files.read path).run disk).1.toOption.map (path, ·) <|> none) = _
  rw [answer]
  rfl

private theorem passed_of_save {path : String} (named : path ≠ "")
    (answer : ((files.write path sheet.toJson.toUTF8).run disk).1 = .ok ()) :
    ((sheet.save files.noting path).run (disk, none)).2.2 = some (path, sheet.toJson.toUTF8) := by
  rw [Sheet.save, if_neg named]
  generalize sheet.toJson.toUTF8 = bytes at answer ⊢ -- or else they are computed
  change ((((files.write path bytes).run disk).1.toOption.map fun () => (path, bytes)) <|> none) = _
  rw [answer]
  rfl

private theorem Step.read {path : String} {options : Options} {order : List Address}
    (accepted : (Request.replace sheet ((Sheet.read files path options).run disk).1).1 = .ok order) :
    Step sheet (.of ((Request.openFile path).text? sheet ((Sheet.read files.noting path options).run (disk, none)).2.2)
      (.ok order)) (Request.replace sheet ((Sheet.read files path options).run disk).1).2 := by
  cases read : ((Sheet.read files path options).run disk).1 with
  | error e =>
    rw [read] at accepted
    cases accepted
  | ok next =>
    obtain ⟨named, bytes, text, answer, decoded, built⟩ := read_bytes files disk read
    rw [passed_of_read files disk named answer, Request.text?, if_pos rfl, decoded]
    exact .exchanged (ofJson_fresh built).2 (recovers_of_ofJson built)

private theorem Step.save (valid : Valid sheet) (enterable : Enterable sheet) {path : String} {order : List Address}
    (accepted : (Request.replace sheet ((sheet.save files path).run disk).1).1 = .ok order) :
    Step sheet (.of ((Request.saveFile path).text? sheet ((sheet.save files.noting path).run (disk, none)).2.2) (.ok order))
      (Request.replace sheet ((sheet.save files path).run disk).1).2 := by
  by_cases named : path = ""
  · rw [Sheet.save, if_pos named] at accepted
    cases accepted
  have ran : ((sheet.save files path).run disk).1 = sheet.written path ((files.write path sheet.toJson.toUTF8).run disk).1 := by
    rw [Sheet.save, if_neg named]
    rfl
  cases answer : ((files.write path sheet.toJson.toUTF8).run disk).1 with
  | error fault =>
    rw [ran, answer] at accepted
    cases accepted
  | ok =>
    rw [passed_of_save files disk named answer, Request.text?, if_pos rfl, Text.fromUTF8?_toUTF8, ran, answer]
    refine .exchanged rfl ((valid.recovers enterable (layout sheet.options)).twins ?_)
    exact (Valid.kept.saved sheet valid).twins valid fun _ => rfl

/-- Noting what passes changes neither what is answered nor what is left on the disk. -/
theorem perform_noting (passed : Files.Passed) (request : Request) :
    ((request.perform files.noting sheet).run (disk, passed)).1 = ((request.perform files sheet).run disk).1 ∧
      ((request.perform files.noting sheet).run (disk, passed)).2.1 = ((request.perform files sheet).run disk).2 := by
  have read (path : String) (options : Options) :
      ((Sheet.read files.noting path options).run (disk, passed)).1 = ((Sheet.read files path options).run disk).1 ∧
        ((Sheet.read files.noting path options).run (disk, passed)).2.1 = ((Sheet.read files path options).run disk).2 := by
    unfold Sheet.read
    split <;> exact ⟨rfl, rfl⟩
  have save (path : String) :
      ((sheet.save files.noting path).run (disk, passed)).1 = ((sheet.save files path).run disk).1 ∧
        ((sheet.save files.noting path).run (disk, passed)).2.1 = ((sheet.save files path).run disk).2 := by
    unfold Sheet.save
    split <;> exact ⟨rfl, rfl⟩
  cases request with
  | enter | put | loadText | openText | reload => exact ⟨rfl, rfl⟩
  | loadFile path => exact ⟨congrArg (Request.replace sheet) (read path sheet.options).1, (read path sheet.options).2⟩
  | openFile path options => exact ⟨congrArg (Request.replace sheet) (read path options).1, (read path options).2⟩
  | saveFile path => exact ⟨congrArg (Request.replace sheet) (save path).1, (save path).2⟩

theorem Step.of_request (valid : Valid sheet) (enterable : Enterable sheet) (request : Request) :
    Step sheet (request.event files disk sheet) ((request.perform files sheet).run disk).1.2 := by
  rw [Request.event, (perform_noting files disk none request).1]
  cases answer : ((request.perform files sheet).run disk).1.1 with
  | error e => exact .refused ((perform_outcome files disk sheet request).refused_same valid answer)
  | ok order =>
    cases request with
    | enter name entry => exact .edited (enter_changed answer)
    | put address given => exact .edited (put_changed answer)
    | loadText text => exact .replace answer
    | openText text options => exact .replace answer
    | reload => exact .replace answer
    | loadFile path => exact .read files disk answer
    | openFile path options => exact .read files disk answer
    | saveFile path => exact .save files disk valid enterable answer

end Sheet

namespace History
open Event

variable {sheet : Sheet} {events : List Event}

theorem reachable (history : History sheet events) : Reachable sheet := by
  induction history with
  | new options => exact .new options
  | request before files disk request ih => exact .request ih files disk request

private theorem recovers_new (options : Options) (layout : Json.Layout) :
    Sheet.Recovers (Document.write layout ⟨∅⟩) (.new options) := by
  have nothing : Document.ofSheet (.new options) = ⟨∅⟩ := rfl
  have kept := Sheet.Enterable.kept.new options
  exact nothing ▸ kept.1.recovers kept.2 layout

/-- By induction on the events: an edit sets the flag, an exchange clears it and gives the text that counts
from then on, and what is refused changes neither. -/
theorem recovers (history : History sheet events) :
    (sheet.changed = true ↔ EditedSince events) ∧
      (sheet.changed = false → ∀ layout, Sheet.Recovers (lastText layout events) sheet) := by
  induction history with
  | new options => exact ⟨by simp [Sheet.new, EditedSince], fun _ => recovers_new options⟩
  | @request sheet events _ before files disk request ih =>
    have reached := before.reachable
    have valid := (before.request files disk request).reachable.valid
    have step := Sheet.Step.of_request files disk reached.valid reached.enterable request
    generalize request.event files disk sheet = event at step ⊢
    generalize ((request.perform files sheet).run disk).1.2 = next at valid step ⊢
    cases step with
    | edited changed => simp [changed]
    | exchanged saved recovers =>
      refine ⟨by simp [saved], fun _ layout => ?_⟩
      rw [lastText_exchanged]
      exact recovers
    | refused same =>
      rw [editedSince_refused, same.changed]
      refine ⟨ih.1, fun saved layout => ?_⟩
      rw [lastText_refused]
      exact (ih.2 saved layout).twins (valid.twins reached.valid fun address => (same.cells address).symm)

end History

/-- A sheet has changed if and only if an edit has been accepted since it was new, saved or loaded. If it has
not, the text that was last saved or loaded, in whichever form, gives a new sheet the same cells and edges. -/
theorem unchanged_recoverable {sheet : Sheet} {events : List Event} (history : History sheet events) :
    (sheet.changed = true ↔ Event.EditedSince events) ∧
      (sheet.changed = false → ∀ layout options, ∃ loaded,
        (Sheet.new options).loadJson (Event.lastText layout events) = .ok loaded ∧ sheet.Restored loaded) := by
  obtain ⟨flag, recovers⟩ := history.recovers
  refine ⟨flag, fun saved layout options => ?_⟩
  obtain ⟨loaded, built, twins⟩ := recovers saved layout options
  exact ⟨loaded, built, twins.restored (Sheet.ofJson_fresh built).2⟩

private def drawer : Files (StateM (Option ByteArray)) where
  isThere _ := do return (← get).isSome
  read _ := do
    match ← get with
    | some bytes => return .ok bytes
    | none => return .error .notFound
  write _ bytes := do
    set (some bytes)
    return .ok ()

private structure Stage where
  sheet : Sheet := .new { indented := false }
  events : List Event := []
  disk : Option ByteArray := none

private def Stage.next (stage : Stage) (request : Request) : Stage where
  sheet := ((request.perform drawer stage.sheet).run stage.disk).1.2
  events := request.event drawer stage.disk stage.sheet :: stage.events
  disk := ((request.perform drawer stage.sheet).run stage.disk).2

private theorem Stage.history {stage : Stage} (history : History stage.sheet stage.events) (requests : List Request) :
    History (requests.foldl next stage).sheet (requests.foldl next stage).events := by
  induction requests generalizing stage with
  | nil => exact history
  | cons request requests ih => exact ih (history.request drawer stage.disk request)

/-- A document with a key in lower case, a number with too many digits, and an empty record. -/
private def loose : String :=
  "\x7b\"Cells\": \x7b\"b1\": \x7b\"StringForm\": \"=a1*2.0\"\x7d, \"A1\": [\"5.000\"], \"C1\": \x7b\"StringForm\": \"\"\x7d\x7d\x7d"

private def saved : String := "\x7b\"Cells\":\x7b\"A1\":\x7b\"StringForm\":\"1\"\x7d\x7d\x7d"

private def last : Stage := [.enter "A1" "1", .saveFile "sheet", .enter "B1" "=A1", .loadFile "sheet", .loadText loose,
  .enter "A1" "=B1", .loadFile "", .loadText "["].foldl Stage.next {}

/-- What has been saved is on the disk, and loading it takes back an edit. After the document has been loaded, an
edit that would close a circle is refused and two loads fail. -/
theorem unchanged_recoverable_of_refused : last.disk = some saved.toUTF8 ∧
    History last.sheet [.refused, .refused, .refused, .exchanged loose, .exchanged saved, .edited, .exchanged saved, .edited] ∧
    last.sheet.changed = false ∧ ∃ loaded, (Sheet.new {}).loadJson loose = .ok loaded ∧ last.sheet.Restored loaded := by
  have events : last.events =
      [.refused, .refused, .refused, .exchanged loose, .exchanged saved, .edited, .exchanged saved, .edited] := by
    decide +kernel
  have stored : last.disk = some saved.toUTF8 := by decide +kernel
  have history : History last.sheet last.events := Stage.history (.new { indented := false }) _
  have unchanged : last.sheet.changed = false := by decide +kernel
  rw [events] at history
  exact ⟨stored, history, unchanged, (unchanged_recoverable history).2 unchanged .compact {}⟩

end Worksheet
