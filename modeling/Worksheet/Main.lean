import Worksheet.Command

/-! The program: it reads its arguments, works on the machine's own files, and prints what the
command reports. -/

namespace Worksheet.Main

/-- The fault that the system reports. Reading gives some numbers with a minus sign. -/
def fault : IO.Error → FileFault
  | .noFileOrDirectory .. => .notFound
  | .inappropriateType _ code _ => if code = 21 then .isDirectory else .notDirectory
  | .invalidArgument (some _) 36 _ | .invalidArgument (some _) 0xFFFFFFDC _ => .nameTooLong
  | .permissionDenied .. => .other "Permission denied (os error 13)"
  | e => .other (toString e)

/-- Whether a path that cannot be read leads to something all the same. -/
def isPresent : FileFault → Bool
  | .notFound | .notDirectory | .nameTooLong => false
  | _ => true

def access : Files IO where
  isThere path := do
    match ← (IO.FS.readBinFile path).toBaseIO with
    | .ok _ => return true
    | .error e => return isPresent (fault e)
  read path := do
    match ← (IO.FS.readBinFile path).toBaseIO with
    | .ok bytes => return .ok bytes
    | .error e => return .error (fault e)
  write path bytes := do
    match ← (IO.FS.writeBinFile path bytes).toBaseIO with
    | .ok () => return .ok ()
    | .error e => return .error (fault e)

end Worksheet.Main

/-- A command line that is refused ends with status 2. -/
def main (arguments : List String) : IO UInt32 := do
  match Worksheet.Command.parse? arguments with
  | none =>
    IO.eprint Worksheet.Command.Topic.program.page.render
    return 2
  | some command =>
    let report ← command.run Worksheet.Main.access
    IO.print report.out
    IO.eprint report.err
    return report.code
