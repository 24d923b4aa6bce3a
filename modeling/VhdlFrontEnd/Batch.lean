import VhdlFrontEnd.FrontEnd
import VhdlFrontEnd.Path

/-!
# Many files

Independent files are tokenized each on its own. The reports stand in the order in which the
paths are first named; a path that is named twice is read twice and reported once.
-/

namespace VhdlFrontEnd

/-- Settings for runs over files. -/
structure Session where
  settings : SourceSettings := {}
  /-- The number of workers; zero leaves the number to the system. -/
  jobs : Nat := 0
deriving DecidableEq, Repr, Inhabited

/-- A value for each path, in the order in which the paths were first named. -/
structure PathMap (α : Type) where
  entries : List (String × α) := []
deriving Repr, Inhabited

namespace PathMap

variable {α : Type}

/-- The paths, each as it was first named. -/
def paths (m : PathMap α) : List String := m.entries.map (·.1)

/-- The map with a new value for a path. A path that is known keeps its place. -/
def put (m : PathMap α) (path : String) (value : α) : PathMap α :=
  if m.paths.any (Path.same path) then
    ⟨m.entries.map fun (p, v) => if Path.same path p then (p, value) else (p, v)⟩
  else ⟨m.entries ++ [(path, value)]⟩

/-- The map of some pairs; of several values for a path the last counts. -/
def ofList (pairs : List (String × α)) : PathMap α :=
  pairs.foldl (fun m (path, value) => m.put path value) {}

/-- A known path keeps its place, and a new one comes last. -/
theorem paths_put (m : PathMap α) (path : String) (value : α) :
    (m.put path value).paths =
      if m.paths.any (Path.same path) then m.paths else m.paths ++ [path] := by
  unfold put
  split
  · simp only [paths, List.map_map]
    refine List.map_congr_left fun pv _ => ?_
    simp only [Function.comp]
    split <;> rfl
  · simp [paths]

end PathMap

/-- The files at the paths, each tokenized on its own. -/
def Session.lexMany (s : Session) (disk : Disk) (paths : List String) :
    PathMap (Except RunFault Lexed) :=
  .ofList (paths.map fun path => (path, Lexed.ofFile s.settings disk path))

end VhdlFrontEnd
