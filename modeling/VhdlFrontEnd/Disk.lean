/-!
# The file system as the program sees it

The program reads whole files and asks what a path leads to. It sees a file system that does not
change while it runs, so reading is a function of the path.
-/

namespace VhdlFrontEnd

/-- Why the system refuses a path. -/
inductive PathFault
  | missing
  | notDirectory
  | isDirectory
  | nameTooLong
  | nullInName
  /-- Any other fault, in the words of the system. -/
  | other (text : String)
deriving DecidableEq, Repr, Inhabited

/-- The words of the system, with the number of the fault. -/
def PathFault.message : PathFault → String
  | missing => "No such file or directory (os error 2)"
  | notDirectory => "Not a directory (os error 20)"
  | isDirectory => "Is a directory (os error 21)"
  | nameTooLong => "File name too long (os error 36)"
  | nullInName => "file name contained an unexpected NUL byte"
  | other text => text

/-- What stands at a path. -/
inductive Entry
  | file (bytes : ByteArray)
  | directory
deriving Inhabited

/-- What the paths of a file system lead to. -/
structure Disk where
  entry : String → Except PathFault Entry

namespace Disk

/-- The content of a file. -/
def read (d : Disk) (path : String) : Except PathFault ByteArray :=
  match d.entry path with
  | .ok (.file bytes) => .ok bytes
  | .ok .directory => .error .isDirectory
  | .error fault => .error fault

/-- The path leads to something. -/
def holds (d : Disk) (path : String) : Bool := (d.entry path).isOk

/-- The path leads to a directory. -/
def isDirectory (d : Disk) (path : String) : Bool :=
  match d.entry path with
  | .ok .directory => true
  | _ => false

end Disk

end VhdlFrontEnd
