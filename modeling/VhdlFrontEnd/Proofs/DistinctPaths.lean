import Mathlib.Data.List.Induction
import VhdlFrontEnd.Batch

/-!
# Paths that are named twice

Of several paths that are the same, a batch names the first and reads the last: `entries_ofList` says
what a map of paths holds after all of them were put into it.
-/

namespace VhdlFrontEnd

theorem eraseDupsBy_concat {α : Type} (same : α → α → Bool) (x : α) (xs : List α) :
    (xs ++ [x]).eraseDupsBy same =
      if (xs.eraseDupsBy same).any (same x) then xs.eraseDupsBy same else xs.eraseDupsBy same ++ [x] := by
  induction xs using Diagnostic.eraseDupsBy_induction same with
  | nil => rfl
  | cons y rest later =>
    rw [List.cons_append, List.eraseDupsBy_cons, List.eraseDupsBy_cons, List.filter_append, List.any_cons]
    by_cases known : same x y
    · rw [known, Bool.true_or, if_pos rfl, List.filter_cons_of_neg (by simp [known]), List.filter_nil,
        List.append_nil]
    · have unknown : same x y = false := Bool.eq_false_iff.mpr known
      rw [List.filter_cons_of_pos (by simp [unknown]), List.filter_nil, later, unknown, Bool.false_or]
      split <;> rfl

namespace Path

/-- The paths without those that an earlier one is the same as. -/
def distinct (paths : List String) : List String := paths.eraseDupsBy same

/-- The last of the paths that is the same as the given one. -/
def lastSame (paths : List String) (path : String) : String := (paths.reverse.find? (same path)).getD path

theorem lastSame_concat (paths : List String) (path new : String) :
    lastSame (paths ++ [new]) path = if same path new then new else lastSame paths path := by
  rw [lastSame, List.reverse_concat, List.find?_cons]
  cases same path new <;> rfl

theorem same_comm (a b : String) : same a b = same b a := Bool.eq_iff_iff.mpr ⟨same_symm, same_symm⟩

theorem distinct_concat (paths : List String) (new : String) : distinct (paths ++ [new]) =
    if (distinct paths).any (same new) then distinct paths else distinct paths ++ [new] :=
  eraseDupsBy_concat same new paths

theorem mem_of_mem_distinct {paths : List String} {path : String} (mem : path ∈ distinct paths) :
    path ∈ paths :=
  (Diagnostic.eraseDupsBy_sublist same paths).subset mem

theorem exists_distinct {paths : List String} {path : String} (mem : path ∈ paths) :
    ∃ known ∈ distinct paths, same path known := by
  induction paths using List.reverseRecOn with
  | nil => exact absurd mem List.not_mem_nil
  | append_singleton paths new ih =>
    rw [distinct_concat]
    rcases List.mem_append.mp mem with old | here
    · obtain ⟨known, inside, like⟩ := ih old
      refine ⟨known, ?_, like⟩
      split
      · exact inside
      · exact List.mem_append_left _ inside
    · obtain rfl := List.mem_singleton.mp here
      split
      · next earlier =>
        obtain ⟨known, inside, like⟩ := List.any_eq_true.mp earlier
        exact ⟨known, inside, like⟩
      · exact ⟨path, List.mem_append_right _ here, same_refl path⟩

theorem lastSame_spec {paths : List String} {path : String} (mem : path ∈ paths) :
    lastSame paths path ∈ paths ∧ same path (lastSame paths path) := by
  cases found : paths.reverse.find? (same path) with
  | none =>
    have other := List.find?_eq_none.mp found path (List.mem_reverse.mpr mem)
    exact absurd (same_refl path) other
  | some last =>
    rw [lastSame, found]
    exact ⟨List.mem_reverse.mp (List.mem_of_find?_eq_some found), List.find?_some found⟩

end Path

/-- Each of the distinct paths keeps the place of its first spelling, and has the value of its last. -/
theorem PathMap.entries_ofList {α : Type} (value : String → α) (paths : List String) :
    (ofList (paths.map fun path => (path, value path))).entries =
      (Path.distinct paths).map fun path => (path, value (Path.lastSame paths path)) := by
  induction paths using List.reverseRecOn with
  | nil => rfl
  | append_singleton paths new ih =>
    have known_paths : (ofList (paths.map fun path => (path, value path))).paths = Path.distinct paths := by
      rw [PathMap.paths, ih, List.map_map]
      exact List.map_id _
    have step : ofList ((paths ++ [new]).map fun path => (path, value path)) =
        (ofList (paths.map fun path => (path, value path))).put new (value new) := by
      rw [ofList, List.map_append, List.foldl_append]
      rfl
    rw [step, put, known_paths, Path.distinct_concat]
    split
    · dsimp only
      rw [ih, List.map_map]
      refine List.map_congr_left fun path _ => ?_
      rw [Function.comp_apply, Path.lastSame_concat, Path.same_comm]
      split <;> rfl
    · next unknown =>
      have others : ∀ path ∈ Path.distinct paths,
          Path.lastSame (paths ++ [new]) path = Path.lastSame paths path := by
        intro path mem
        rw [Path.lastSame_concat, Path.same_comm]
        exact if_neg fun like => unknown (List.any_eq_true.mpr ⟨path, mem, like⟩)
      rw [ih, List.map_append]
      refine congrArg₂ (· ++ ·) (List.map_congr_left fun path mem => ?_) ?_
      · rw [others path mem]
      · rw [List.map_singleton, Path.lastSame_concat, if_pos (Path.same_refl new)]

end VhdlFrontEnd
