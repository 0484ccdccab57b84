import Offside.Lexer

/-!
# The journal

Messages go out on channels. All channels lie below one root, and a message is written as one line
behind the name of its channel.
-/

namespace Offside.Journal

def root : String := "pyrsc"

/-- The channel of a name: the name itself when it lies at or below the root. -/
def channel (name : String) : String :=
  if name = root ∨ (root ++ ".").toList.isPrefixOf name.toList then name else root ++ "." ++ name

def line (name message : String) : String :=
  channel name ++ ": " ++ message ++ "\n"

def levelList (levels : List Nat) : String :=
  "[" ++ ", ".intercalate (levels.map toString) ++ "]"

def noteLine : Note → String
  | .rawError error =>
    line "pyrsc.lexer.scanner" (error.debug ++ " at " ++ error.span.render)
  | .inconsistentDedent width span levels =>
    line "pyrsc.lexer.indentation"
      ("inconsistent dedent to width " ++ toString width ++ " at " ++ span.render ++
        ", open levels " ++ levelList levels)

end Offside.Journal
