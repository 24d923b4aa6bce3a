/-!
# Values and tables

A table holds values under names, and its values may be tables again. How a table was written
decides what may still be added to it. The main rule of the format is that nothing is defined
twice.
-/

namespace VhdlFrontEnd.Toml

/-- How a table was written. -/
inductive Origin
  /-- Between braces. -/
  | inline
  /-- Under a header of its own. -/
  | header
  /-- By a header of a table inside it. -/
  | implied
  /-- By a key with dots. -/
  | dotted
deriving DecidableEq, Repr, Inhabited

/-- What stands under a name. Of numbers with a point and of dates only that they are such is
kept, because no setting is one. -/
inductive Value
  | string (text : List Char)
  | integer (n : Int)
  | real
  | boolean (b : Bool)
  | moment
  | array (items : List Value)
  | table (origin : Origin) (entries : List (String × Value))
  /-- Tables that were written one by one under headers with doubled brackets. -/
  | tables (items : List (List (String × Value)))
deriving Inhabited

/-- The content of a table: values under names, in the order in which they came. -/
abbrev Entries : Type := List (String × Value)

/-- A key: the names of the tables to pass, and the name that is meant in the last of them. -/
structure Key where
  parents : List String
  name : String
deriving DecidableEq, Repr, Inhabited

/-- All names of the key. -/
def Key.path (k : Key) : List String := k.parents ++ [k.name]

namespace Entries

def find? (es : Entries) (name : String) : Option Value := es.lookup name

/-- The entries with what `change` makes of the value under a name, or of the lack of one. Where
`change` refuses there is no result. -/
def alter (name : String) (change : Option Value → Option Value) : Entries → Option Entries
  | [] => (change none).map fun v => [(name, v)]
  | (other, v) :: rest =>
    if other = name then (change (some v)).map fun w => (other, w) :: rest
    else (alter name change rest).map ((other, v) :: ·)

def alterLast {α : Type} (change : α → Option α) : List α → Option (List α)
  | [] => none
  | [a] => (change a).map ([·])
  | a :: b :: rest => (alterLast change (b :: rest)).map (a :: ·)

/-- The entries with a new value under a name that is free. -/
def add (name : String) (v : Value) : Entries → Option Entries :=
  alter name fun
    | none => some v
    | some _ => none

/-- The entries with `change` applied to the table at the end of a path of headers. Missing tables
on the way are implied; of tables written one by one the last is meant. -/
def within (change : Entries → Option Entries) : List String → Entries → Option Entries
  | [], es => change es
  | name :: path, es => es.alter name fun
    | none => (within change path []).map (.table .implied)
    | some (.table .inline _) => none
    | some (.table origin inner) => (within change path inner).map (.table origin)
    | some (.tables items) => (alterLast (within change path) items).map .tables
    | some _ => none

/-- The entries with a value under a key. Its dots make tables and may go on with tables that
dots or inner headers made; the value itself belongs to the table at hand or to one that dots
made, which is what `open_` says of the entries. -/
def assign (open_ : Bool) (v : Value) : List String → String → Entries → Option Entries
  | [], name, es => if open_ then es.add name v else none
  | parent :: parents, name, es => es.alter parent fun
    | none => (assign true v parents name []).map (.table .dotted)
    | some (.table .dotted inner) => (assign true v parents name inner).map (.table .dotted)
    | some (.table .implied inner) => (assign false v parents name inner).map (.table .implied)
    | some (.tables items) => (alterLast (assign false v parents name) items).map .tables
    | some _ => none

/-- The entries with the table of a header. It is new, or so far only implied. -/
def openTable (k : Key) : Entries → Option Entries :=
  within (alter k.name fun
    | none => some (.table .header [])
    | some (.table .implied inner) => some (.table .header inner)
    | some _ => none) k.parents

/-- The entries with one more table under a header with doubled brackets. -/
def openItem (k : Key) : Entries → Option Entries :=
  within (alter k.name fun
    | none => some (.tables [[]])
    | some (.tables items) => some (.tables (items ++ [[]]))
    | some _ => none) k.parents

/-- What was altered is found. -/
theorem find?_alter {name : String} {change : Option Value → Option Value} {es fs : Entries}
    (h : es.alter name change = some fs) : fs.find? name = change (es.find? name) := by
  induction es generalizing fs with
  | nil =>
    obtain ⟨v, hv, rfl⟩ := Option.map_eq_some_iff.mp h
    rw [find?, find?, List.lookup_cons_self, List.lookup_nil, hv]
  | cons e rest ih =>
    obtain ⟨other, v⟩ := e
    rw [alter] at h
    split at h
    · next same =>
      subst same
      obtain ⟨w, hw, rfl⟩ := Option.map_eq_some_iff.mp h
      rw [find?, find?, List.lookup_cons_self, List.lookup_cons_self, hw]
    · next differ =>
      obtain ⟨gs, hg, rfl⟩ := Option.map_eq_some_iff.mp h
      have apart : (name == other) = false := by simpa using Ne.symm differ
      have found := ih hg
      rw [find?, find?] at found
      rw [find?, find?, List.lookup_cons, List.lookup_cons, apart]
      exact found

end Entries

end VhdlFrontEnd.Toml
