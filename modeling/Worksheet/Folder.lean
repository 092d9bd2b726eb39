import Worksheet.Sheet.Storage

/-! A folder of files in memory, with paths as a POSIX system reads them. A path may leave the
folder by two dots or start at the root. The folders above exist and start without files, and
nothing makes folders, so a name stands for a file or for nothing. -/

namespace Worksheet

/-- Files by the shortest path to them: the steps up to the folder they are in, then their name. -/
structure Folder where
  files : Std.TreeMap String ByteArray

namespace Folder

def empty : Folder := ⟨∅⟩

/-- The longest name and the longest path, in bytes. -/
def nameLimit : Nat := 255

def pathLimit : Nat := 4095

def root : String := "/"

/-- The way one step further up. The root has nothing above it. -/
def above (base : String) : String := if base = root then root else base ++ "../"

def lookup (folder : Folder) (base name : String) : Except FileFault (Option ByteArray) :=
  if nameLimit < name.utf8ByteSize then .error .nameTooLong else .ok folder.files[base ++ name]?

inductive Place where
  | folder
  /-- A name, there or not. Only a folder may have a slash behind its name. -/
  | entry (base name : String) (slash : Bool)

/-- Follows the parts of a path between its slashes, given the way so far. A name with more
behind it would have to be a folder's. -/
def walk (folder : Folder) (base : String) : List String → Except FileFault Place
  | [] => .ok .folder
  | name :: rest =>
    if name = "" ∨ name = "." then walk folder base rest
    else if name = ".." then walk folder (above base) rest
    else if rest.all (· == "") then .ok (.entry base name !rest.isEmpty)
    else
      match folder.lookup base name with
      | .error fault => .error fault
      | .ok none => .error .notFound
      | .ok (some _) => .error .notDirectory

def locate (folder : Folder) (path : String) : Except FileFault Place :=
  if path.toList.contains '\x00' then .error .zeroInName
  else if pathLimit < path.utf8ByteSize then .error .nameTooLong
  else folder.walk (if path.startsWith root then root else "") (path.splitOn "/")

def read (folder : Folder) (path : String) : Except FileFault ByteArray := do
  match ← folder.locate path with
  | .folder => .error .isDirectory
  | .entry base name slash =>
    match ← folder.lookup base name with
    | none => .error .notFound
    | some bytes => if slash then .error .notDirectory else .ok bytes

/-- Writes a file, which need not be there. A slash asks for a folder, whatever the name is. -/
def write (folder : Folder) (path : String) (bytes : ByteArray) : Except FileFault Folder := do
  match ← folder.locate path with
  | .folder => .error .isDirectory
  | .entry base name slash =>
    if slash then .error .isDirectory
    else do
      let _ ← folder.lookup base name
      return ⟨folder.files.insert (base ++ name) bytes⟩

def isThere (folder : Folder) (path : String) : Bool :=
  match folder.locate path with
  | .error _ => false
  | .ok .folder => true
  | .ok (.entry ..) => (folder.read path).toBool

def access : Files (StateM Folder) where
  isThere path := do return (← get).isThere path
  read path := do return (← get).read path
  write path bytes := do
    match (← get).write path bytes with
    | .error fault => return .error fault
    | .ok folder => do
      set folder
      return .ok ()

end Folder
end Worksheet
