import StepChart.Text.Search

/-!
# Paths

A path is a text of names with slashes between them. Slashes and single dots at the end of a path
name nothing, so they are passed over before its last name is looked at; a leading slash is the root
and stays.
-/

namespace StepChart.Path

/-- Passes over the slashes and single dots at the end of a path that is read from its end. -/
def passTrailing : List Char → List Char
  | '/' :: rest => passTrailing rest
  | '.' :: '/' :: rest => passTrailing rest
  | rest => rest

/-- A path read from its end, without what names nothing. -/
def fromEnd (path : String) : List Char :=
  passTrailing path.toList.reverse

/-- The path starts at the root. -/
def isAbsolute (path : String) : Bool :=
  path.toList.head? == some '/'

/-- The last name of a path read from its end. -/
def lastName (reversed : List Char) : List Char :=
  (reversed.takeWhile (· ≠ '/')).reverse

/-- What comes before the last name of a path read from its end. -/
def beforeName (reversed : List Char) : List Char :=
  (reversed.dropWhile (· ≠ '/')).reverse

/-- A name up to its last dot and from there on. A dot in front of a name does not count. -/
def splitName (name : List Char) : List Char × Option (List Char) :=
  let reversed := name.reverse
  match reversed.dropWhile (· ≠ '.') with
  | '.' :: stem@(_ :: _) => (stem.reverse, some (reversed.takeWhile (· ≠ '.')).reverse)
  | _ => (name, none)

/-- A path without the extension of its last name. A path whose last part is no name stays as it is.
So does the name of two dots that is left of a name such as `..x` at the very end of a path. -/
def stem (path : String) : String :=
  let reversed := fromEnd path
  let before := beforeName reversed
  let name := lastName reversed
  if name = [] ∨ name = ['.', '.'] ∨ (before = [] ∧ name = ['.']) then path
  else
    match splitName name with
    | (['.'], some _) =>
      String.ofList (before ++ if reversed.length = path.length then ['.', '.'] else ['.'])
    | (stem, _) => String.ofList (before ++ stem)

/-- The path of the directory that holds a path; neither the root nor the empty path has one. -/
def parent? (path : String) : Option String :=
  let reversed := fromEnd path
  if reversed = [] then none
  else
    match passTrailing (reversed.dropWhile (· ≠ '/')) with
    | [] => some (if isAbsolute path then "/" else "")
    | rest => some (String.ofList rest.reverse)

/-- A path, its parent, the parent of that, and so on, at most `count` paths. -/
def ancestors : (count : Nat) → String → List String
  | 0, _ => []
  | count + 1, path =>
    path :: match parent? path with
      | some parent => ancestors count parent
      | none => []

/-- The path of a name in a directory. -/
def join (directory name : String) : String :=
  if directory.isEmpty || Text.endsWith "/" directory then directory ++ name else directory ++ "/" ++ name

/-- The parts of a text between slashes; a part may be empty. -/
def splitSlashes : List Char → List (List Char)
  | [] => [[]]
  | c :: cs =>
    if c = '/' then [] :: splitSlashes cs
    else
      match splitSlashes cs with
      | [] => [[c]]
      | part :: parts => (c :: part) :: parts

/-- The parts of a path between its slashes; a part may be empty. -/
def parts (path : String) : List String :=
  (splitSlashes path.toList).map String.ofList

end StepChart.Path
