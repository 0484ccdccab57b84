/-!
# Paths

A path is a root, which may be missing, and the names between its slashes. Empty names and single
dots do not count.
-/

namespace Offside.CommandLine

/-- The parts between the slashes of a text; always at least one. -/
def splitSlashes : List Char → List (List Char)
  | [] => [[]]
  | c :: rest =>
    match splitSlashes rest with
    | [] => [[c]]
    | part :: parts => if c = '/' then [] :: part :: parts else (c :: part) :: parts

structure Path where
  root : String
  names : List String
  deriving DecidableEq, Repr

namespace Path

def namesOf (text : List Char) : List String :=
  ((splitSlashes text).filter fun part => part ≠ [] ∧ part ≠ ['.']).map String.ofList

/-- Two slashes in front are a root of their own; any other number counts as one. -/
def rootOf (text : List Char) : String :=
  match (text.takeWhile (· == '/')).length with
  | 0 => ""
  | 2 => "//"
  | _ => "/"

def ofString (text : String) : Path :=
  { root := rootOf text.toList, names := namesOf text.toList }

/-- The normal form of a path. The empty path is the directory itself. -/
def render (path : Path) : String :=
  let text := path.root ++ "/".intercalate path.names
  if text.isEmpty then "." else text

end Path

end Offside.CommandLine
