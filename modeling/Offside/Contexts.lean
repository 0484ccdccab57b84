import Offside.Settings

/-!
# Contexts

The active settings, which a context replaces from the time it is entered until it is left. Leaving
a context brings back what was active when it was entered, whatever happened since.
-/

namespace Offside

/-- The settings that contexts bring back are kept under the names of the contexts that have been
entered and not left. -/
structure Contexts where
  active : Settings := {}
  saved : List (String × Settings) := []
  deriving Repr

namespace Contexts

def set (settings : Settings) (contexts : Contexts) : Contexts :=
  { contexts with active := settings }

def reset (contexts : Contexts) : Contexts :=
  contexts.set {}

def enter (name : String) (settings : Settings) (contexts : Contexts) : Contexts :=
  { active := settings
    saved := (name, contexts.active) :: contexts.saved.filter (·.1 ≠ name) }

/-- Leaving a context that is not entered does nothing. -/
def leave (name : String) (contexts : Contexts) : Contexts :=
  match contexts.saved.lookup name with
  | none => contexts
  | some settings => { active := settings, saved := contexts.saved.filter (·.1 ≠ name) }

end Contexts

end Offside
