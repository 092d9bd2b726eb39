import Worksheet.Session
import Worksheet.Proofs.SheetInvariant

/-! A sheet only ever changes by storing contents and by forgetting that it has changed: loading a
document is entering its records into a new sheet. What those two keep holds therefore of every
sheet that requests can lead to, whatever the files are and whichever requests are refused. -/

namespace Worksheet

/-- The sheets that a new one can become. At every request the files may be any, with anything in
them, so others may have written to them since. -/
inductive Reachable : Sheet → Prop where
  | new (options : Options) : Reachable (.new options)
  | request {sheet : Sheet} {σ : Type} (before : Reachable sheet) (files : Files (StateM σ)) (disk : σ)
      (request : Request) : Reachable ((request.perform files sheet).run disk).1.2

/-- Contents that can be stored: read from an entry, or given and found to read back as they are. -/
def Contents.Admitted (contents : Contents) : Prop :=
  (∃ entry, parse entry = .ok contents) ∨ ∃ given : Contents, given.normalized? = some contents

namespace Sheet

theorem enter_cases (sheet : Sheet) (name entry : String) :
    (∃ e, Address.parse name = .error e ∧ sheet.enter name entry = (.error (.address e), sheet)) ∨
    (∃ address e, Address.parse name = .ok address ∧ Contents.parse entry = .error e ∧
      sheet.enter name entry = (.error (.formula e), sheet)) ∨
    ∃ address contents, Address.parse name = .ok address ∧ Contents.parse entry = .ok contents ∧
      sheet.enter name entry = sheet.store address contents := by
  cases named : Address.parse name with
  | error e => exact Or.inl ⟨e, rfl, by simp [enter, named]⟩
  | ok address =>
    cases read : Contents.parse entry with
    | error e => exact Or.inr (Or.inl ⟨address, e, rfl, rfl, by simp [enter, named, read]⟩)
    | ok contents => exact Or.inr (Or.inr ⟨address, contents, rfl, rfl, by simp [enter, named, read]⟩)

theorem put_cases (sheet : Sheet) (address : Address) (given : Contents) :
    given.normalized? = none ∧ sheet.put address given = (.error (.unstorable given.editText), sheet) ∨
    ∃ contents, given.normalized? = some contents ∧ sheet.put address given = sheet.store address contents := by
  cases normal : given.normalized? with
  | none => exact Or.inl ⟨rfl, by simp [put, normal]⟩
  | some contents => exact Or.inr ⟨contents, rfl, by simp [put, normal]⟩

variable {σ : Type} (files : Files (StateM σ)) (disk : σ)

private theorem answer_of_bind {α β : Type} (action : StateM σ α) (f : α → β) :
    ((do return f (← action) : StateM σ β).run disk).1 = f (action.run disk).1 := rfl

theorem read_cases (path : String) (options : Options) :
    (∃ text, ((read files path options).run disk).1 = ofJson text options) ∨
      ∃ e, ((read files path options).run disk).1 = .error e := by
  unfold read
  split
  · exact Or.inr ⟨_, rfl⟩
  · rw [answer_of_bind]
    cases decode path ((files.read path).run disk).1 with
    | error e => exact Or.inr ⟨e, rfl⟩
    | ok text => exact Or.inl ⟨text, rfl⟩

theorem save_cases (path : String) (sheet : Sheet) :
    ((sheet.save files path).run disk).1 = .ok { sheet with changed := false } ∨
      ∃ e, ((sheet.save files path).run disk).1 = .error e := by
  unfold save
  split
  · exact Or.inr ⟨_, rfl⟩
  · rw [answer_of_bind]
    cases ((files.write path sheet.toJson.toUTF8).run disk).1 with
    | error fault => exact Or.inr ⟨_, rfl⟩
    | ok => exact Or.inl rfl

inductive Outcome (sheet : Sheet) : Edited → Prop where
  | entered (name entry : String) : Outcome sheet (sheet.enter name entry)
  | put (address : Address) (given : Contents) : Outcome sheet (sheet.put address given)
  | loaded {text options next} (built : ofJson text options = .ok next) : Outcome sheet (.ok [], next)
  | saved : Outcome sheet (.ok [], { sheet with changed := false })
  | refused (e : SheetError) : Outcome sheet (.error e, sheet)

private theorem Outcome.replace (sheet : Sheet) (text : String) (options : Options) :
    Outcome sheet (Request.replace sheet (ofJson text options)) := by
  cases built : ofJson text options with
  | ok next => exact .loaded built
  | error e => exact .refused e

private theorem Outcome.read (sheet : Sheet) (path : String) (options : Options) :
    Outcome sheet (Request.replace sheet ((Sheet.read files path options).run disk).1) := by
  rcases read_cases files disk path options with ⟨text, same⟩ | ⟨e, same⟩
  · rw [same]
    exact .replace sheet text options
  · rw [same]
    exact .refused e

theorem perform_outcome (sheet : Sheet) (request : Request) :
    Outcome sheet ((request.perform files sheet).run disk).1 := by
  cases request with
  | enter name entry => exact .entered name entry
  | put address given => exact .put address given
  | loadText text => exact .replace sheet text sheet.options
  | openText text options => exact .replace sheet text options
  | reload =>
    generalize written : sheet.toJson = text
    simp only [Request.perform, written]
    exact .replace sheet text sheet.options
  | loadFile path => exact .read files disk sheet path sheet.options
  | openFile path options => exact .read files disk sheet path options
  | saveFile path =>
    simp only [Request.perform, answer_of_bind]
    rcases save_cases files disk path sheet with same | ⟨e, same⟩
    · rw [same]
      exact .saved
    · rw [same]
      exact .refused e

end Sheet

structure Kept (P : Sheet → Prop) : Prop where
  new : ∀ options, P (.new options)
  store : ∀ sheet address contents, P sheet → contents.Admitted → P (sheet.store address contents).2
  saved : ∀ sheet, P sheet → P { sheet with changed := false }

namespace Kept

variable {P : Sheet → Prop} (kept : Kept P)
include kept

theorem enter {sheet : Sheet} (holds : P sheet) (name entry : String) : P (sheet.enter name entry).2 := by
  rcases sheet.enter_cases name entry with ⟨e, _, same⟩ | ⟨address, e, _, _, same⟩ | ⟨address, contents, _, read, same⟩
  · rwa [same]
  · rwa [same]
  · rw [same]
    exact kept.store sheet address contents holds (Or.inl ⟨entry, read⟩)

theorem put {sheet : Sheet} (holds : P sheet) (address : Address) (given : Contents) :
    P (sheet.put address given).2 := by
  rcases sheet.put_cases address given with ⟨_, same⟩ | ⟨contents, normal, same⟩
  · rwa [same]
  · rw [same]
    exact kept.store sheet address contents holds (Or.inr ⟨given, normal⟩)

theorem replay {seen after : Std.TreeSet Address} {sheet next : Sheet} {key entry : String} (holds : P sheet)
    (replayed : Document.replay seen sheet key entry = .ok (after, next)) : P next := by
  unfold Document.replay at replayed
  cases named : Address.parse key with
  | error e => simp [named, Except.mapError, bind, Except.bind] at replayed
  | ok address =>
    simp only [named, Except.mapError, bind, Except.bind] at replayed
    split at replayed
    next => cases replayed
    next =>
      have entered := kept.enter holds address.text entry
      split at replayed
      next => cases replayed
      next answer later same =>
        rw [same] at entered
        cases replayed
        exact entered

theorem replayAll {seen : Std.TreeSet Address} {sheet next : Sheet} {records : List (String × String)}
    (holds : P sheet) (replayed : Document.replayAll seen sheet records = .ok next) : P next := by
  induction records generalizing seen sheet with
  | nil =>
    rw [← Except.ok.inj replayed]
    exact holds
  | cons record records ih =>
    simp only [Document.replayAll] at replayed
    split at replayed
    next => cases replayed
    next after later step => exact ih (kept.replay holds step) replayed

theorem ofJson {text : String} {options : Options} {next : Sheet} (built : Sheet.ofJson text options = .ok next) :
    P next := by
  unfold Sheet.ofJson at built
  cases parsed : Document.parse text with
  | error e => simp [parsed, Except.mapError, bind, Except.bind] at built
  | ok document =>
    simp only [parsed, Except.mapError, bind, Except.bind, Document.toSheet] at built
    split at built
    next => cases built
    next sheet replayed =>
      cases built
      exact kept.saved sheet (kept.replayAll (kept.new options) replayed)

theorem outcome {sheet : Sheet} (holds : P sheet) {edited : Sheet.Edited} (outcome : Sheet.Outcome sheet edited) :
    P edited.2 := by
  cases outcome with
  | entered name entry => exact kept.enter holds name entry
  | put address given => exact kept.put holds address given
  | loaded built => exact kept.ofJson built
  | saved => exact kept.saved sheet holds
  | refused => exact holds

theorem reachable {sheet : Sheet} (reached : Reachable sheet) : P sheet := by
  induction reached with
  | new options => exact kept.new options
  | request before files disk request ih => exact kept.outcome ih (Sheet.perform_outcome files disk _ request)

end Kept

/-- A session is a run on the files of its own folder, which only it writes to. -/
theorem Session.run_reachable {s : Session} (reached : Reachable s.sheet) (requests : List Request) :
    Reachable (s.run requests).sheet := by
  unfold Session.run
  induction requests generalizing s with
  | nil => exact reached
  | cons request requests ih => exact ih (.request reached Folder.access s.folder request)

theorem Sheet.Valid.kept : Kept Sheet.Valid where
  new := Sheet.Valid.new
  store _ address contents valid _ := valid.store address contents
  saved _ valid := ⟨valid.filled, valid.current, valid.graph, valid.acyclic⟩

theorem Reachable.valid {sheet : Sheet} (reached : Reachable sheet) : sheet.Valid :=
  Sheet.Valid.kept.reachable reached

end Worksheet
