/-!
# Paths of files

The texts by which files are named: steps between slashes. These functions work on the text alone; what a path leads to
is a matter of the files there are.
-/

namespace SealedConfig.FilePath

/-- The pieces of a path between slashes, empty ones included. -/
def pieces : List Char → List (List Char)
  | [] => [[]]
  | c :: rest =>
    if c = '/' then [] :: pieces rest
    else
      match pieces rest with
      | [] => [[c]]
      | piece :: more => (c :: piece) :: more

/-- The steps of a path, empty ones included. -/
def steps (path : String) : List String := (pieces path.toList).map String.ofList

/-- Whether a path starts at the root. -/
def isAbsolute (path : String) : Bool := path.toList.head? = some '/'

/-- The path of an entry of a directory. -/
def join (directory name : String) : String :=
  if isAbsolute name ∨ directory = "" then name
  else if directory.toList.getLast? = some '/' then directory ++ name
  else directory ++ "/" ++ name

/-- The characters without trailing slashes and trailing steps that stay in place, down to a first step. -/
def trimEnd : (room : Nat) → List Char → List Char
  | 0, path => path
  | room + 1, path =>
    match path.reverse with
    | '/' :: [] => path
    | '/' :: _ => trimEnd room path.dropLast
    | '.' :: '/' :: [] => ['/']
    | '.' :: '/' :: _ => trimEnd room path.dropLast
    | _ => path

/-- The path of the directory that holds what a path names, as far as the text tells; empty for a single step, and
nothing for the root or no path at all. -/
def parent? (path : String) : Option String :=
  let whole := trimEnd path.length path.toList
  if whole = [] ∨ whole = ['/'] then none
  else
    let before := (whole.reverse.dropWhile (· ≠ '/')).reverse
    some (String.ofList (trimEnd before.length before))

end SealedConfig.FilePath
