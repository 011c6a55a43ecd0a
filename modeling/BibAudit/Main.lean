/-
# BibAudit.Main — the program.

The clock is read, the files that the command line names are read, the directory of local copies is
looked into, and the answer is printed.  What is asked for and what is answered is decided by
`BibAudit.CommandLine`.
-/
import BibAudit.Clock
import BibAudit.CommandLine.Run
import Std.Time.DateTime.Timestamp

open BibAudit

/-- The time now. -/
def currentTime : IO Timestamp := do
  let now ← Std.Time.Timestamp.now
  return (Clock.timestamp? now.toNanosecondsSinceUnixEpoch.val.toNat).getD .epoch

/-- The cause of a failed access. -/
def causeOf : IO.Error → FileError
  | .noFileOrDirectory .. => .notFound
  | .inappropriateType _ 20 _ => .notDirectory
  | .inappropriateType _ 21 _ => .isDirectory
  | .invalidArgument _ 36 _ => .nameTooLong
  | .alreadyExists _ code text | .otherError code text | .resourceBusy code text
  | .resourceVanished code text | .unsupportedOperation code text | .hardwareFault code text
  | .unsatisfiedConstraints code text | .illegalOperation code text | .protocolError code text
  | .timeExpired code text | .interrupted _ code text | .invalidArgument _ code text
  | .permissionDenied _ code text | .resourceExhausted _ code text
  | .inappropriateType _ code text | .noSuchThing _ code text => .system text code.toNat
  | .unexpectedEof => .system "unexpected end of file" 0
  | .userError text => .system text 0

/-- What stands at a path; the bytes of a file are read only on request. -/
def look (readBytes : Bool) (path : String) : IO (String × Except FileError FileNode) := do
  if path.toList.contains (Char.ofNat 0) then return (path, .error .nulInPath)
  try
    let handle ← IO.FS.Handle.mk path .read
    let bytes ← if readBytes then handle.readBinToEnd else pure .empty
    return (path, .ok (.file bytes.toList))
  catch e =>
    return (path, match causeOf e with
      | .isDirectory => .ok .directory
      | cause => .error cause)

/-- Answer the command line. -/
def main (args : List String) : IO UInt32 := do
  let started ← currentTime
  let command := CommandLine.Command.ofStrings? args
  let inputs ← (CommandLine.pathsOf command).mapM (look true)
  let copies ← (CommandLine.copiesOf (.ofList inputs) command).mapM (look false)
  let answer := CommandLine.answer (.ofList (inputs ++ copies)) started (← currentTime) command
  (← IO.getStdout).putStr answer.stdout
  (← IO.getStdout).flush
  (← IO.getStderr).putStr answer.stderr
  return answer.code.toUInt32
