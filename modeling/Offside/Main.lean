import Offside.CommandLine.Run

/-!
# The program

Reads the file that the arguments name, prints the report and exits with its status.
-/

namespace Offside.CommandLine

/-- The number of an error of the system comes with either sign, and its words with a small letter
in front or with a capital one. -/
def SystemFault.ofError : IO.Error → SystemFault
  | .alreadyExists _ code details | .interrupted _ code details
  | .noFileOrDirectory _ code details | .invalidArgument _ code details
  | .permissionDenied _ code details | .resourceExhausted _ code details
  | .inappropriateType _ code details | .noSuchThing _ code details
  | .otherError code details | .resourceBusy code details | .resourceVanished code details
  | .unsupportedOperation code details | .hardwareFault code details
  | .unsatisfiedConstraints code details | .illegalOperation code details
  | .protocolError code details | .timeExpired code details =>
    { number := code.toInt32.toInt.natAbs, reason := details.capitalize }
  | .unexpectedEof => { number := 0, reason := "" }
  | .userError reason => { number := 0, reason := reason }

def readFile (path : String) : IO (Except ReadFault (List UInt8)) := do
  if path.contains '\x00' then return .error .nullByte
  try
    let bytes ← IO.FS.readBinFile (Path.ofString path).render
    return .ok bytes.toList
  catch error => return .error (.system (.ofError error))

end Offside.CommandLine

open Offside.CommandLine in
def main (arguments : List String) : IO UInt32 := do
  let report ← match Plan.ofArguments .late arguments with
    | .report report => pure report
    | .lex options path => pure (reportContents channel options path (← readFile path))
  (← IO.getStdout).putStr report.stdout
  (← IO.getStderr).putStr report.stderr
  match report.status with
  | .ok status => return status.toUInt32
  | .error fault =>
    (← IO.getStderr).putStr (fault.message ++ "\n")
    return 1
