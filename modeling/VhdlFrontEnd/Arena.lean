import VhdlFrontEnd.Position

/-!
# An append-only store

An element keeps its index for good, because elements are only ever added at the end. Main
statement: `push` gives the next index and leaves every earlier element where it was.
-/

namespace VhdlFrontEnd

/-- Elements in the order in which they were added. -/
structure Arena (α : Type) where
  items : Array α
deriving DecidableEq, Repr, Inhabited

/-- An index that no element has. -/
structure OutOfBounds where
  index : Nat
  size : Nat
deriving DecidableEq, Repr

def OutOfBounds.message (e : OutOfBounds) : String :=
  "Index out of bounds: index " ++ toString e.index ++ ", length " ++ toString e.size

namespace Arena

variable {α : Type}

def empty : Arena α := ⟨#[]⟩

def ofList (xs : List α) : Arena α := ⟨xs.toArray⟩

def toList (a : Arena α) : List α := a.items.toList

def size (a : Arena α) : Nat := a.items.size

def isEmpty (a : Arena α) : Bool := a.items.isEmpty

/-- The word that stands for an index, if it is not too large for one. -/
def index? (n : Nat) : Option Nat := if n ≤ wordMax then some n else none

def push (a : Arena α) (x : α) : Arena α := ⟨a.items.push x⟩

def get? (a : Arena α) (i : Nat) : Option α := a.items[i]?

/-- The element at an index, or the fault that there is none. -/
def get (a : Arena α) (i : Nat) : Except OutOfBounds α :=
  match a.get? i with
  | some x => .ok x
  | none => .error ⟨i, a.size⟩

/-- The index of the element that was added last. -/
def lastIndex? (a : Arena α) : Option Nat := if a.isEmpty then none else some (a.size - 1)

/-- The indices in use, from zero on. -/
def indices (a : Arena α) : List Nat := List.range a.size

/-- The elements with their indices. -/
def enumerated (a : Arena α) : List (Nat × α) := a.toList.zipIdx.map fun (x, i) => (i, x)

@[simp] theorem toList_ofList (xs : List α) : (ofList xs).toList = xs := rfl

@[simp] theorem toList_empty : (empty : Arena α).toList = [] := rfl

@[simp] theorem toList_push (a : Arena α) (x : α) : (a.push x).toList = a.toList ++ [x] := by
  simp [toList, push]

theorem size_eq (a : Arena α) : a.size = a.toList.length := by simp [size, toList]

theorem get?_eq (a : Arena α) (i : Nat) : a.get? i = a.toList[i]? := by simp [get?, toList]

/-- An element stays where it is when others are added. -/
theorem get?_push_of_lt (a : Arena α) (x : α) {i : Nat} (h : i < a.size) :
    (a.push x).get? i = a.get? i := by
  rw [get?_eq, get?_eq, toList_push, List.getElem?_append_left (size_eq a ▸ h)]

/-- The new element has the index that was the size before. -/
theorem get?_push_size (a : Arena α) (x : α) : (a.push x).get? a.size = some x := by
  rw [get?_eq, toList_push, size_eq, List.getElem?_concat_length]

end Arena

end VhdlFrontEnd
