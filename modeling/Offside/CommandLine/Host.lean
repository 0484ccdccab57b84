import Offside.CommandLine.Arguments
import Offside.CommandLine.Path

/-!
# Hosts

What the command finds where it runs: the edition of the rule for its arguments, and the files of a
system. Nothing is known of the files but what comes of opening and reading one.
-/

namespace Offside.CommandLine

/-- Why the system gives no contents of a file: the number of the error, and its reason in words. -/
structure SystemFault where
  number : Nat
  reason : String
  deriving DecidableEq, Repr

inductive ReadFault where
  | system (fault : SystemFault)
  | nullByte
  deriving DecidableEq, Repr

/-- Messages show a path in its normal form. -/
def ReadFault.message (path : String) : ReadFault → String
  | system fault =>
    "[Errno " ++ toString fault.number ++ "] " ++ fault.reason ++ ": " ++
      Text.quoted (Path.ofString path).render
  | nullByte => "embedded null byte"

/-- The files of a host go by the normal forms of paths. -/
structure Host where
  edition : Edition
  files : String → Except SystemFault (List UInt8)

def Host.read (host : Host) (path : String) : Except ReadFault (List UInt8) :=
  if path.contains '\x00' then .error .nullByte
  else (host.files (Path.ofString path).render).mapError .system

end Offside.CommandLine
