import SealedConfig.Bytes
import SealedConfig.Host.Fault
import SealedConfig.Host.Path

/-!
# File trees

Files and directories with their permission bits, as a map from locations, which are lists of names from the root. A
path is resolved step by step, so that it fails as soon as a step cannot be taken; the operations are those that
programs ask of an operating system and fail as they do there.

There are no symbolic links: a tree stands for a file system in which none lies on the way of the paths that are asked
for. The bits are kept and shown but stop nobody, as they do not stop a privileged user; that a step is refused all the
same is for the host to say.
-/

namespace SealedConfig

/-- The names on the way from the root. -/
abbrev Location := List String

/-- What stands at a location. -/
inductive FileNode where
  | file (content : Bytes) (mode : Nat)
  | directory (mode : Nat)
  deriving DecidableEq, Repr

/-- Whether a node is a file. -/
def FileNode.isFile : FileNode → Bool
  | .file _ _ => true
  | .directory _ => false

/-- The permission bits of a node. -/
def FileNode.mode : FileNode → Nat
  | .file _ mode => mode
  | .directory mode => mode

/-- The entries of a tree; of two at one location the first counts. -/
structure FileTree where
  entries : List (Location × FileNode)
  deriving DecidableEq, Repr

namespace FileTree

/-- The tree of the root alone. -/
def empty : FileTree := ⟨[]⟩

/-- What stands at a location; the root is always a directory. -/
def get? (tree : FileTree) : Location → Option FileNode
  | [] => some (.directory 0o755)
  | location => tree.entries.lookup location

/-- The entries with one set, in its place or else at the end. -/
def setEntry (location : Location) (node : FileNode) : List (Location × FileNode) → List (Location × FileNode)
  | [] => [(location, node)]
  | entry :: rest => if entry.1 = location then (location, node) :: rest else entry :: setEntry location node rest

/-- The tree with a node at a location. -/
def set (tree : FileTree) (location : Location) (node : FileNode) : FileTree := ⟨setEntry location node tree.entries⟩

/-- The tree without what stands at a location, and below it where that is a directory. -/
def erase (tree : FileTree) (location : Location) : FileTree :=
  match tree.get? location with
  | some (.directory _) => ⟨tree.entries.filter fun entry => !(location.isPrefixOf entry.1)⟩
  | _ => ⟨tree.entries.filter fun entry => entry.1 != location⟩

/-- The most bytes that a name may have. -/
def nameLimit : Nat := 255

/-- The most bytes that a path may have. -/
def pathLimit : Nat := 4095

/-- Whether a step stays where it is. -/
def staysPut (step : String) : Bool := step == "" || step == "."

/-- The location that steps lead to from a directory; its last name need not exist. -/
def follow (tree : FileTree) (here : Location) : List String → Except FileFault Location
  | [] => .ok here
  | step :: rest =>
    if staysPut step then follow tree here rest
    else if step = ".." then follow tree here.dropLast rest
    else if nameLimit < step.utf8ByteSize then .error .nameTooLong
    else if rest.all (· == "") then .ok (here ++ [step])
    else
      match tree.get? (here ++ [step]) with
      | none => .error .notFound
      | some (.file _ _) => .error .notDirectory
      | some (.directory _) => follow tree (here ++ [step]) rest

/-- What a path leads to: its location, and whether only a directory will do there. -/
structure Place where
  location : Location
  mustBeDirectory : Bool
  deriving DecidableEq, Repr

/-- What a path leads to from a directory. -/
def resolve (tree : FileTree) (here : Location) (path : String) : Except FileFault Place :=
  if '\x00' ∈ path.toList then .error .zeroInName
  else if path = "" then .error .notFound
  else if pathLimit < path.utf8ByteSize then .error .nameTooLong
  else
    let steps := FilePath.steps path
    let last := steps.getLast?.getD ""
    (tree.follow (if FilePath.isAbsolute path then [] else here) steps).map fun location =>
      ⟨location, staysPut last || last == ".."⟩

/-- The node that a path names. -/
def stat (tree : FileTree) (here : Location) (path : String) : Except FileFault FileNode :=
  match tree.resolve here path with
  | .error fault => .error fault
  | .ok place =>
    match tree.get? place.location with
    | none => .error .notFound
    | some (.directory mode) => .ok (.directory mode)
    | some (.file content mode) => if place.mustBeDirectory then .error .notDirectory else .ok (.file content mode)

/-- The content of the file that a path names. -/
def read (tree : FileTree) (here : Location) (path : String) : Except FileFault Bytes :=
  match tree.stat here path with
  | .error fault => .error fault
  | .ok (.directory _) => .error .isDirectory
  | .ok (.file content _) => .ok content

/-- The permission bits of the file that a path names. -/
def modeOf (tree : FileTree) (here : Location) (path : String) : Except FileFault Nat :=
  match tree.stat here path with
  | .error fault => .error fault
  | .ok (.directory _) => .error .isDirectory
  | .ok (.file _ mode) => .ok mode

/-- The location of the file that a path names or is to name, and the file if there is one. -/
def writable (tree : FileTree) (here : Location) (path : String) : Except FileFault (Location × Option FileNode) :=
  match tree.resolve here path with
  | .error fault => .error fault
  | .ok place =>
    if place.mustBeDirectory then .error .isDirectory
    else
      match tree.get? place.location with
      | some (.directory _) => .error .isDirectory
      | node => .ok (place.location, node)

/-- Permission bits of a new file that asks for nothing special. -/
def plainMode : Nat := 0o644

/-- Permission bits of a new directory. -/
def directoryMode : Nat := 0o755

/-- Permission bits of a file for its owner only. -/
def privateMode : Nat := 0o600

/-- The tree with an empty file at a path, unless there is a file. -/
def touch (tree : FileTree) (here : Location) (path : String) : Except FileFault FileTree :=
  match tree.writable here path with
  | .error fault => .error fault
  | .ok (_, some _) => .ok tree
  | .ok (location, none) => .ok (tree.set location (.file [] plainMode))

/-- The tree with a file at a path where nothing was: what making one and filling it comes to when no step is refused. -/
def createNew (tree : FileTree) (here : Location) (path : String) (content : Bytes) (mode : Nat) :
    Except FileFault FileTree :=
  match tree.resolve here path with
  | .error fault => .error fault
  | .ok place =>
    match tree.get? place.location with
    | some _ => .error .alreadyExists
    | none => if place.mustBeDirectory then .error .isDirectory else .ok (tree.set place.location (.file content mode))

/-- A new empty file at a path where nothing was: its location, and the tree with it. -/
def openNew (tree : FileTree) (here : Location) (path : String) : Except FileFault (Location × FileTree) :=
  match tree.resolve here path with
  | .error fault => .error fault
  | .ok place => (tree.createNew here path [] plainMode).map fun made => (place.location, made)

/-- An empty file at a path, whether there was one or not: its location, and the tree with it. A file that was there
keeps its permission bits. -/
def openEmpty (tree : FileTree) (here : Location) (path : String) : Except FileFault (Location × FileTree) :=
  match tree.writable here path with
  | .error fault => .error fault
  | .ok (location, node) =>
    .ok (location, tree.set location (.file [] (node.elim privateMode FileNode.mode)))

/-- The tree with bytes behind those of the file at a location. -/
def append (tree : FileTree) (location : Location) (bytes : Bytes) : FileTree :=
  match tree.get? location with
  | some (.file content mode) => tree.set location (.file (content ++ bytes) mode)
  | _ => tree

/-- The tree with other permission bits on the file at a location. -/
def setMode (tree : FileTree) (location : Location) (mode : Nat) : FileTree :=
  match tree.get? location with
  | some (.file content _) => tree.set location (.file content mode)
  | _ => tree

/-- The tree with a file for its owner only at a path, whether there was one or not: what writing one comes to when no
step is refused (`Host.writePrivate_eq`). -/
def writePrivate (tree : FileTree) (here : Location) (path : String) (content : Bytes) : Except FileFault FileTree :=
  match tree.writable here path with
  | .error fault => .error fault
  | .ok (location, _) => .ok (tree.set location (.file content privateMode))

/-- The name of a temporary file. -/
def temporaryName (number : Nat) : String := ".tmp" ++ toString number

/-- The location in a directory of the first temporary name from a number on that is free; when so many names are tried
as there are entries, the next one is free. -/
def temporaryFrom (tree : FileTree) (directory : Location) : (room number : Nat) → Location
  | 0, number => directory ++ [temporaryName number]
  | room + 1, number =>
    if (tree.get? (directory ++ [temporaryName number])).isNone then directory ++ [temporaryName number]
    else temporaryFrom tree directory room (number + 1)

/-- The tree with the node at a location moved to another one, over what is there. -/
def rename (tree : FileTree) (source target : Location) : FileTree :=
  match tree.get? source with
  | none => tree
  | some node => ⟨(setEntry target node tree.entries).filter fun entry => entry.1 != source⟩

/-- A new empty file under a temporary name in the directory of the file at a path: its location, and the tree with it. -/
def openBeside (tree : FileTree) (here : Location) (path : String) : Except FileFault (Location × FileTree) :=
  match tree.resolve here path with
  | .error fault => .error fault
  | .ok place =>
    let temporary := tree.temporaryFrom place.location.dropLast tree.entries.length 0
    .ok (temporary, tree.set temporary (.file [] privateMode))

/-- The tree with the file at a location moved to a path, over the file that is there. -/
def moveTo (tree : FileTree) (source here : Location) (path : String) : Except FileFault FileTree :=
  match tree.resolve here path with
  | .error fault => .error fault
  | .ok place =>
    match tree.get? place.location with
    | some (.directory _) => .error .isDirectory
    | _ => if place.mustBeDirectory then .error .notDirectory else .ok (tree.rename source place.location)

/-- The tree with another content in the file at a path, its permission bits kept: what replacing it comes to when no
step is refused (`Host.replace_eq`). A temporary file beside it is given the content and the bits, and takes its place. -/
def replace (tree : FileTree) (here : Location) (path : String) (content : Bytes) : Except FileFault FileTree :=
  match tree.resolve here path with
  | .error fault => .error fault
  | .ok place =>
    match tree.get? place.location with
    | none => .error .notFound
    | some (.directory _) => .error .isDirectory
    | some (.file _ mode) =>
      if place.mustBeDirectory then .error .notDirectory
      else
        let temporary := tree.temporaryFrom place.location.dropLast tree.entries.length 0
        .ok ((tree.set temporary (.file content mode)).rename temporary place.location)

/-- The tree with a new directory at a path. -/
def createDirectory (tree : FileTree) (here : Location) (path : String) : Except FileFault FileTree :=
  match tree.resolve here path with
  | .error fault => .error fault
  | .ok place =>
    match tree.get? place.location with
    | some _ => .error .alreadyExists
    | none => .ok (tree.set place.location (.directory directoryMode))

/-- Whether a path names a directory. -/
def isDirectory (tree : FileTree) (here : Location) (path : String) : Bool :=
  match tree.stat here path with
  | .ok (.directory _) => true
  | _ => false

/-- The tree with a new directory at a path, which is no fault where there is one. -/
def ensureDirectory (tree : FileTree) (here : Location) (path : String) : Except FileFault FileTree :=
  match tree.createDirectory here path with
  | .ok made => .ok made
  | .error fault => if tree.isDirectory here path then .ok tree else .error fault

/-- Making a directory at a path and at every path above it; what was made before a fault stays in the tree. -/
def makeDirectories (tree : FileTree) (here : Location) : (room : Nat) → String → Except FileFault Unit × FileTree
  | 0, _ => (.error .notFound, tree)
  | room + 1, path =>
    if path = "" then (.ok (), tree)
    else
      match tree.createDirectory here path with
      | .ok made => (.ok (), made)
      | .error .notFound =>
        match FilePath.parent? path with
        | none => (.error (.other "failed to create whole tree"), tree)
        | some above =>
          match makeDirectories tree here room above with
          | (.error fault, made) => (.error fault, made)
          | (.ok _, made) =>
            match made.ensureDirectory here path with
            | .ok whole => (.ok (), whole)
            | .error fault => (.error fault, made)
      | .error fault => if tree.isDirectory here path then (.ok (), tree) else (.error fault, tree)

/-- The tree with a directory at a path and at every path above it: what making them comes to when no step is refused
(`Host.createDirectories_eq`). -/
def createDirectories (tree : FileTree) (here : Location) (room : Nat) (path : String) : Except FileFault FileTree :=
  match tree.makeDirectories here room path with
  | (.ok _, made) => .ok made
  | (.error fault, _) => .error fault

end FileTree

end SealedConfig
