import VhdlFrontEnd.Disk
import VhdlFrontEnd.Path

/-!
# A directory tree in memory

Files and directories under their names, and what a path leads to from a working directory. The path
is walked name by name: every name but the last must be a directory, a dot stays and two dots go up.
Main statement: what is put at a place is found there.
-/

namespace VhdlFrontEnd

/-- A file with its bytes, or a directory with what it holds under names. -/
inductive Tree
  | file (bytes : ByteArray)
  | directory (entries : List (String × Tree))
deriving Inhabited

namespace Tree

/-- The longest name that a directory may hold, in bytes. -/
def maxName : Nat := 255

/-- The longest path, in bytes. -/
def maxPath : Nat := 4095

def empty : Tree := directory []

def entries : Tree → List (String × Tree)
  | file _ => []
  | directory entries => entries

/-- The tree as an entry of a file system. -/
def entry : Tree → Entry
  | file bytes => .file bytes
  | directory _ => .directory

def find? (t : Tree) : List String → Option Tree
  | [] => some t
  | name :: rest => (t.entries.lookup name).bind (·.find? rest)

/-- The tree with another tree at a place, and with directories on the way to it. -/
def put (t : Tree) (new : Tree) : List String → Tree
  | [] => new
  | name :: rest =>
    let inner := ((t.entries.lookup name).getD empty).put new rest
    directory ((name, inner) :: t.entries.filter (·.1 ≠ name))

def addDirectory (t : Tree) (place : List String) : Tree :=
  if (t.find? place).isSome then t else t.put empty place

def addFile (t : Tree) (place : List String) (bytes : ByteArray) : Tree := t.put (file bytes) place

/-- The place that the pieces of a path lead to from `here`. -/
def walk (t : Tree) (here : List String) : List String → Except PathFault (List String)
  | [] => .ok here
  | piece :: pieces =>
    match t.find? here with
    | some (.directory entries) =>
      if piece = "" ∨ piece = "." then t.walk here pieces
      else if piece = ".." then t.walk here.dropLast pieces
      else if maxName < piece.utf8ByteSize then .error .nameTooLong
      else if (entries.lookup piece).isSome then t.walk (here ++ [piece]) pieces
      else .error .missing
    | _ => .error .notDirectory

/-- Where a walk along a path starts. -/
def origin (working : List String) (path : String) : List String :=
  if Path.isAbsolute path then [] else working

/-- Why the system takes no such text for a path. -/
def refusal? (path : String) : Option PathFault :=
  if path.toList.contains '\x00' then some .nullInName
  else if maxPath < path.utf8ByteSize then some .nameTooLong
  else none

/-- The place that a path leads to. -/
def place (t : Tree) (working : List String) (path : String) : Except PathFault (List String) :=
  match refusal? path with
  | some fault => .error fault
  | none =>
    if path.isEmpty then .error .missing else t.walk (origin working path) (Path.pieces path)

/-- The tree as a file system, seen from a working directory. -/
def disk (t : Tree) (working : List String) : Disk where
  entry path := do
    let place ← t.place working path
    match t.find? place with
    | some found => .ok found.entry
    | none => .error .missing

/-- The tree with every directory on the way to a path. -/
def makeWay (t : Tree) (here : List String) : List String → Except PathFault Tree
  | [] => .ok t
  | piece :: pieces =>
    if piece = "" ∨ piece = "." then t.makeWay here pieces
    else if piece = ".." then t.makeWay here.dropLast pieces
    else if maxName < piece.utf8ByteSize then .error .nameTooLong
    else
      match t.find? (here ++ [piece]) with
      | some (.file _) => .error .notDirectory
      | some (.directory _) => t.makeWay (here ++ [piece]) pieces
      | none => (t.put empty (here ++ [piece])).makeWay (here ++ [piece]) pieces

/-- The tree with the directories above what a path names, made where they are missing. -/
def makeParents (t : Tree) (working : List String) (path : String) : Except PathFault Tree :=
  match Path.parent? path with
  | none => .ok t
  | some above =>
    match refusal? (Path.parentText path) with
    | some fault => .error fault
    | none => t.makeWay (origin working path) above.names

/-- The tree with the bytes in the file that a path names. -/
def write (t : Tree) (working : List String) (path : String) (bytes : ByteArray) :
    Except PathFault Tree := do
  let pieces := Path.pieces path
  let name := pieces.getLast?.getD ""
  if let some fault := refusal? path then throw fault
  if path.isEmpty then throw .missing
  let directory ← t.walk (origin working path) pieces.dropLast
  if name = "" ∨ name = "." ∨ name = ".." then throw .isDirectory
  if maxName < name.utf8ByteSize then throw .nameTooLong
  match t.find? directory, t.find? (directory ++ [name]) with
  | some (.directory _), some (.directory _) => throw .isDirectory
  | some (.directory _), _ => return t.put (file bytes) (directory ++ [name])
  | _, _ => throw .notDirectory

theorem find?_put (t new : Tree) (place : List String) :
    (t.put new place).find? place = some new := by
  induction place generalizing t with
  | nil => rfl
  | cons name rest ih => simp [put, find?, entries, ih]

end Tree

end VhdlFrontEnd
