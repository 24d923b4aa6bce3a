/-!
# Paths

A path is a text with slashes. Two paths are the same if they have the same components, where
doubled slashes, slashes at the end and dots between slashes do not count; a dot in front does.
-/

namespace VhdlFrontEnd.Path

/-- The texts between the slashes. -/
def pieces (path : String) : List String := (path.toList.splitOn '/').map String.ofList

/-- The path starts at the root. -/
def isAbsolute (path : String) : Bool := path.toList.head? == some '/'

/-- What a path is made of: whether it starts at the root, and its names. -/
structure Components where
  absolute : Bool
  names : List String
deriving DecidableEq, Repr, Inhabited

/-- The components of a path. -/
def components (path : String) : Components :=
  let all := (pieces path).filter (· ≠ "")
  if isAbsolute path then ⟨true, all.filter (· ≠ ".")⟩
  else
    match all with
    | "." :: rest => ⟨false, "." :: rest.filter (· ≠ ".")⟩
    | all => ⟨false, all.filter (· ≠ ".")⟩

/-- The paths have the same components. -/
def same (a b : String) : Bool := components a == components b

/-- The directory that holds what the path names. The root and the empty path have none. -/
def parent? (path : String) : Option Components :=
  let c := components path
  if c.names.isEmpty then none else some { c with names := c.names.dropLast }

/-- The text of a path up to the directory that holds what the path names. -/
def parentText (path : String) : String :=
  let idle (piece : String) : Bool := piece = "" || piece = "."
  let above := ((pieces path).reverse.dropWhile idle).drop 1
  "/".intercalate (above.dropWhile idle).reverse

/-- A name inside a directory. -/
def join (directory name : String) : String :=
  if directory.toList.getLast? = some '/' then directory ++ name else directory ++ "/" ++ name

theorem same_refl (a : String) : same a a := by simp [same]

theorem same_symm {a b : String} (h : same a b) : same b a := by
  simp only [same, beq_iff_eq] at *; exact h.symm

theorem same_trans {a b c : String} (hab : same a b) (hbc : same b c) : same a c := by
  simp only [same, beq_iff_eq] at *; exact hab.trans hbc

end VhdlFrontEnd.Path
