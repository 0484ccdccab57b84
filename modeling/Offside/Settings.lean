import Offside.Json

/-!
# Settings

A setting may be any JSON value and counts by its truth.
-/

namespace Offside

structure Settings where
  strict : Json := .bool false
  distinguishOverflow : Json := .bool true
  deriving Repr

namespace Settings

def isStrict (settings : Settings) : Bool :=
  settings.strict.isTruthy

def distinguishes (settings : Settings) : Bool :=
  settings.distinguishOverflow.isTruthy

/-- Settings can only be read from an object. -/
structure Fault where
  value : Json
  deriving Repr

def Fault.message (fault : Fault) : String :=
  "'" ++ fault.value.typeName ++ "' object has no attribute 'items'"

/-- Fields that are missing keep their default, and fields of other names do not count. -/
def ofJson : Json → Except Fault Settings
  | .object fields =>
    let default : Settings := {}
    .ok
      { strict := (fields.lookup "strict").getD default.strict
        distinguishOverflow :=
          (fields.lookup "distinguish_overflow").getD default.distinguishOverflow }
  | value => .error ⟨value⟩

end Settings

end Offside
