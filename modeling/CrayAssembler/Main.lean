import CrayAssembler.Program
import Std.Time.DateTime.Timestamp

namespace CrayAssembler

namespace FileError

/-- The system's number of an error, which may be given negated, with its text. -/
def ofCode (code : UInt32) (details : String) : FileError :=
  match min code.toNat (-code).toNat with
  | 2 => notFound
  | 20 => notDirectory
  | 21 => isDirectory
  | n => other (details ++ " (os error " ++ Text.decimal n ++ ")")

def ofIOError : IO.Error → FileError
  | .noFileOrDirectory _ code details | .interrupted _ code details => ofCode code details
  | .alreadyExists _ code details | .invalidArgument _ code details
  | .permissionDenied _ code details | .resourceExhausted _ code details
  | .inappropriateType _ code details | .noSuchThing _ code details => ofCode code details
  | error => other (toString error)

end FileError

/-- The files of the machine that the program runs on. -/
def hostFiles : FileSystem IO where
  isFile path := do
    match ← ((← IO.currentDir) / path).metadata.toBaseIO with
    | .ok found => return found.type == .file
    | .error _ => return false
  read path := do
    match ← (IO.FS.readBinFile path).toBaseIO with
    | .ok bytes => return .ok bytes.toList
    | .error reason => return .error (.ofIOError reason)
  write path contents := do
    match ← (IO.FS.writeBinFile path ⟨contents.toArray⟩).toBaseIO with
    | .ok () => return .ok ()
    | .error reason => return .error (.ofIOError reason)
  print bytes := do
    let output ← IO.getStdout
    output.write ⟨bytes.toArray⟩
    output.flush

def now : IO Clock := do
  return .ofSeconds (← Std.Time.Timestamp.now).toSecondsSinceUnixEpoch.val.toNat

/-- Say how the program ended, and give its exit status. -/
def finish (usage : String) : Program.Ending → IO UInt32
  | .badUsage => do
    IO.eprintln ("usage: " ++ usage)
    return 2
  | .finished status messages => do
    IO.eprint messages
    return UInt32.ofNat status

end CrayAssembler

open CrayAssembler

def main (args : List String) : IO UInt32 := do
  if (← IO.appPath).fileStem.any (·.endsWith "dump") then
    finish "dump object-file" (← Program.dump hostFiles args)
  else
    let ending ← Program.assemble hostFiles args (← IO.getEnv "TEXTPATH") (← now)
    finish "assemble [-fswx] [-l listing] [-o object] [-T path] [-t text] [-n name] source ..."
      ending
