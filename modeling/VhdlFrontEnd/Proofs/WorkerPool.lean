import Mathlib.Algebra.GroupWithZero.Nat
import VhdlFrontEnd.Disk.Tree
import VhdlFrontEnd.Proofs.DistinctPaths

/-!
# Workers that share a batch

The paths of a batch are shared out to workers. A worker takes any path that waits, loads its file, tokenizes it and
puts the report in the place of the path; the workers go on in any order. `Pool.Sound` says what all of them keep, and
`lexMany_of_workers` that whatever their number and order, the batch ends, and with the reports of one path after the
other.
-/

namespace VhdlFrontEnd

/-- A worker has nothing to do, or it has taken the path at a place of the batch and may have loaded its file. -/
inductive Worker
  | idle
  | took (path : String) (place : Nat)
  | holds (path : String) (place : Nat) (loaded : Loaded)

namespace Worker

@[simp]
def task? : Worker → Option (String × Nat)
  | idle => none
  | took path place => some (path, place)
  | holds path place _ => some (path, place)

/-- The number of steps to the report. -/
def stepsLeft : Worker → Nat
  | idle => 0
  | took _ _ => 2
  | holds _ _ _ => 1

end Worker

/-- The paths that wait, with their places in the batch; the workers; and the reports so far, each in the place of
its path. -/
structure Pool where
  waiting : List (String × Nat)
  workers : List Worker
  reports : List (Option (String × Except RunFault Lexed))

namespace Pool

def start (workers : Nat) (paths : List String) : Pool :=
  ⟨paths.zipIdx, List.replicate workers .idle, List.replicate paths.length none⟩

/-- The pairs of paths and reports in the order of the batch, when all are there. -/
def collect? (p : Pool) : Option (List (String × Except RunFault Lexed)) := p.reports.mapM id

variable (settings : SourceSettings) (disk : Disk)

inductive Step : Pool → Pool → Prop
  | take {earlier task later front back reports} :
      Step ⟨earlier ++ task :: later, front ++ .idle :: back, reports⟩
        ⟨earlier ++ later, front ++ .took task.1 task.2 :: back, reports⟩
  | load {waiting front path place back reports loaded} : Source.ofFile settings disk path = .ok loaded →
      Step ⟨waiting, front ++ .took path place :: back, reports⟩
        ⟨waiting, front ++ .holds path place loaded :: back, reports⟩
  | refuse {waiting front path place back reports fault} : Source.ofFile settings disk path = .error fault →
      Step ⟨waiting, front ++ .took path place :: back, reports⟩
        ⟨waiting, front ++ .idle :: back, reports.set place (some (path, .error (.load fault)))⟩
  | tokenize {waiting front path place loaded back reports} :
      Step ⟨waiting, front ++ .holds path place loaded :: back, reports⟩
        ⟨waiting, front ++ .idle :: back, reports.set place (some (path, Lexed.ofLoaded loaded))⟩

/-- The second pool follows from the first in the given number of steps. -/
inductive Reaches : Pool → Nat → Pool → Prop
  | refl {p} : Reaches p 0 p
  | step {p q r n} : Reaches p n q → Step settings disk q r → Reaches p (n + 1) r

/-- The paths without a report. -/
def pending (p : Pool) : List (String × Nat) := p.waiting ++ p.workers.filterMap (·.task?)

/-- What the workers keep: every report is that of the path in its place, and every place without one has its path
waiting or with a worker. -/
structure Sound (paths : List String) (p : Pool) : Prop where
  long : p.reports.length = paths.length
  tasks : ∀ task ∈ p.pending, paths[task.2]? = some task.1
  held : ∀ path place loaded, .holds path place loaded ∈ p.workers → Source.ofFile settings disk path = .ok loaded
  reported : ∀ (place : Nat) pair, p.reports[place]? = some (some pair) → ∃ path, paths[place]? = some path ∧
    pair = (path, Lexed.ofFile settings disk path)
  empty : ∀ place : Nat, p.reports[place]? = some none → ∃ path, (path, place) ∈ p.pending

variable {settings disk} {paths : List String} {p q : Pool}

/-! ### One step -/

section

variable {waiting : List (String × Nat)} {front back : List Worker} {worker : Worker} {path : String} {place : Nat}
  {reports : List (Option (String × Except RunFault Lexed))}

theorem mem_pending {task : String × Nat} : task ∈ pending ⟨waiting, front ++ worker :: back, reports⟩ ↔
    task ∈ waiting ∨ worker.task? = some task ∨ ∃ other ∈ front ++ back, other.task? = some task := by
  simp only [pending, List.mem_append, List.mem_filterMap, List.mem_cons, or_and_right, exists_or, exists_eq_left]
  exact or_congr_right or_left_comm

/-- A report is put in the place of its path, and no other path is lost. -/
theorem Sound.deliver (sound : Sound settings disk paths ⟨waiting, front ++ worker :: back, reports⟩)
    (task : worker.task? = some (path, place)) : Sound settings disk paths
      ⟨waiting, front ++ .idle :: back, reports.set place (some (path, Lexed.ofFile settings disk path))⟩ := by
  constructor
  · exact List.length_set.trans sound.long
  · intro task mem
    apply sound.tasks
    rw [mem_pending] at mem ⊢
    rcases mem with waits | idle | other
    · exact Or.inl waits
    · exact nomatch idle
    · exact Or.inr (Or.inr other)
  · intro path place loaded mem
    apply sound.held path place loaded
    simp only [List.mem_append, List.mem_cons, reduceCtorEq, false_or] at mem ⊢
    exact mem.imp_right Or.inr
  · intro at_place pair here
    dsimp only at here
    rw [List.getElem?_set] at here
    split at here
    · next same =>
      split at here
      · obtain rfl := Option.some.inj (Option.some.inj here)
        refine ⟨path, ?_, rfl⟩
        rw [← same]
        exact sound.tasks (path, place) (mem_pending.mpr (Or.inr (Or.inl task)))
      · exact nomatch here
    · exact sound.reported at_place pair here
  · intro at_place here
    dsimp only at here
    rw [List.getElem?_set] at here
    split at here
    · split at here <;> exact nomatch here
    · next apart =>
      -- The worker had the path of another place, so this one is still where it was.
      obtain ⟨other, mem⟩ := sound.empty at_place here
      refine ⟨other, ?_⟩
      rw [mem_pending] at mem ⊢
      rcases mem with waits | same | others
      · exact Or.inl waits
      · rw [task] at same
        exact absurd (congrArg Prod.snd (Option.some.inj same)) apart
      · exact Or.inr (Or.inr others)

end

/-- A step without a report only moves a path on. -/
theorem Sound.move (sound : Sound settings disk paths p) (reports : q.reports = p.reports)
    (pending : ∀ task, task ∈ q.pending ↔ task ∈ p.pending)
    (held : ∀ path place loaded, .holds path place loaded ∈ q.workers → Source.ofFile settings disk path = .ok loaded) :
    Sound settings disk paths q := by
  constructor
  · rw [reports]
    exact sound.long
  · intro task mem
    exact sound.tasks task ((pending task).mp mem)
  · exact held
  · rw [reports]
    exact sound.reported
  · intro place here
    rw [reports] at here
    obtain ⟨path, mem⟩ := sound.empty place here
    exact ⟨path, (pending _).mpr mem⟩

theorem Sound.step (sound : Sound settings disk paths p) (step : Step settings disk p q) :
    Sound settings disk paths q := by
  cases step with
  | @take earlier task later front back reports =>
    refine sound.move rfl (fun other => ?_) (fun path place loaded mem => ?_)
    · rw [mem_pending, mem_pending]
      simp only [Worker.task?, List.mem_append, List.mem_cons, Option.some.injEq, reduceCtorEq, false_or]
      grind
    · apply sound.held path place loaded
      simpa using mem
  | @load waiting front path place back reports loaded found =>
    refine sound.move rfl (fun other => ?_) (fun other at_place file mem => ?_)
    · rw [mem_pending, mem_pending]
      rfl
    · simp only [List.mem_append, List.mem_cons, Worker.holds.injEq] at mem
      rcases mem with mem | ⟨rfl, -, rfl⟩ | mem
      · exact sound.held other at_place file (List.mem_append_left _ mem)
      · exact found
      · exact sound.held other at_place file (List.mem_append_right _ (List.mem_cons_of_mem _ mem))
  | @refuse waiting front path place back reports fault found =>
    have report : Lexed.ofFile settings disk path = .error (.load fault) := by rw [Lexed.ofFile, found, Lexed.ofLoad]
    rw [← report]
    exact sound.deliver rfl
  | @tokenize waiting front path place loaded back reports =>
    have found := sound.held path place loaded (List.mem_append_right _ List.mem_cons_self)
    have report : Lexed.ofFile settings disk path = Lexed.ofLoaded loaded := by rw [Lexed.ofFile, found, Lexed.ofLoad]
    rw [← report]
    exact sound.deliver rfl

theorem sound_start (workers : Nat) (paths : List String) : Sound settings disk paths (start workers paths) := by
  have no_task : (List.replicate workers Worker.idle).filterMap (·.task?) = [] := by
    rw [List.filterMap_replicate_of_none rfl]
  have all_wait : (start workers paths).pending = paths.zipIdx := by
    rw [pending, start, no_task, List.append_nil]
  constructor
  · exact List.length_replicate
  · rw [all_wait]
    intro task mem
    exact List.mem_zipIdx_iff_getElem?.mp mem
  · intro path place loaded mem
    exact nomatch List.eq_of_mem_replicate mem
  · intro place pair here
    exact nomatch List.eq_of_mem_replicate (List.mem_of_getElem? here)
  · intro place here
    have inside : place < paths.length := by
      have bound := (List.getElem?_eq_some_iff.mp here).1
      rwa [start, List.length_replicate] at bound
    rw [all_wait]
    exact ⟨paths[place], List.mem_zipIdx_iff_getElem?.mpr (List.getElem?_eq_getElem inside)⟩

/-! ### All steps -/

/-- The most steps that can follow. -/
def stepsLeft (p : Pool) : Nat := 3 * p.waiting.length + (p.workers.map (·.stepsLeft)).sum

theorem Step.stepsLeft_lt (step : Step settings disk p q) : q.stepsLeft < p.stepsLeft := by
  cases step <;> simp only [stepsLeft, Worker.stepsLeft, List.length_append, List.length_cons, List.map_append,
    List.map_cons, List.sum_append, List.sum_cons] <;> omega

theorem Step.workers_length (step : Step settings disk p q) : q.workers.length = p.workers.length := by
  cases step <;> simp only [List.length_append, List.length_cons]

theorem Reaches.sound {n : Nat} (reaches : Reaches settings disk p n q) (sound : Sound settings disk paths p) :
    Sound settings disk paths q := by
  induction reaches with
  | refl => exact sound
  | step _ step ih => exact ih.step step

theorem Reaches.stepsLeft_le {n : Nat} (reaches : Reaches settings disk p n q) : n + q.stepsLeft ≤ p.stepsLeft := by
  induction reaches with
  | refl => exact Nat.le_of_eq (Nat.zero_add _)
  | step _ step ih =>
    have less := step.stepsLeft_lt
    omega

theorem Reaches.workers_length {n : Nat} (reaches : Reaches settings disk p n q) :
    q.workers.length = p.workers.length := by
  induction reaches with
  | refl => rfl
  | step _ step ih => exact step.workers_length.trans ih

theorem stepsLeft_start (workers : Nat) (paths : List String) : (start workers paths).stepsLeft = 3 * paths.length := by
  simp [stepsLeft, start, Worker.stepsLeft]

/-! ### The end -/

/-- As long as a path has no report, some worker can go on. -/
theorem exists_step (some_worker : p.workers ≠ []) (unfinished : p.pending ≠ []) : ∃ q, Step settings disk p q := by
  obtain ⟨waiting, workers, reports⟩ := p
  -- A worker that has a path can go on. If none has one, any of them can take a path, as some path waits.
  by_cases busy : ∃ worker ∈ workers, worker.task? ≠ none
  · obtain ⟨worker, mem, task⟩ := busy
    obtain ⟨front, back, rfl⟩ := List.append_of_mem mem
    cases worker with
    | idle => exact absurd rfl task
    | took path place =>
      cases found : Source.ofFile settings disk path with
      | ok loaded => exact ⟨_, .load found⟩
      | error fault => exact ⟨_, .refuse found⟩
    | holds path place loaded => exact ⟨_, .tokenize⟩
  · have all_idle : ∀ worker ∈ workers, worker = .idle := by
      intro worker mem
      by_contra other
      refine busy ⟨worker, mem, ?_⟩
      cases worker with
      | idle => exact absurd rfl other
      | took _ _ => exact Option.some_ne_none _
      | holds _ _ _ => exact Option.some_ne_none _
    obtain ⟨first, others, rfl⟩ := List.exists_cons_of_ne_nil some_worker
    obtain rfl := all_idle first List.mem_cons_self
    have no_task : (Worker.idle :: others).filterMap (·.task?) = [] := by
      rw [List.filterMap_eq_nil_iff]
      intro worker mem
      rw [all_idle worker mem]
      rfl
    have some_wait : waiting ≠ [] := by
      rintro rfl
      exact unfinished no_task
    obtain ⟨task, later, rfl⟩ := List.exists_cons_of_ne_nil some_wait
    exact ⟨_, @Step.take settings disk [] task later [] others reports⟩

theorem mapM_id_eq_some_iff {α : Type} {slots : List (Option α)} {xs : List α} :
    slots.mapM id = some xs ↔ slots = xs.map some := by
  induction slots generalizing xs with
  | nil => cases xs <;> simp
  | cons slot slots ih =>
    cases slot with
    | none => cases xs <;> simp
    | some x =>
      simp only [List.mapM_cons, id, Option.bind_eq_bind, Option.bind_some, Option.bind_eq_some_iff, ih, Option.pure_def,
        Option.some.injEq]
      constructor
      · rintro ⟨others, rfl, rfl⟩
        rfl
      · intro same
        cases xs with
        | nil => exact nomatch same
        | cons y ys =>
          obtain ⟨first, others⟩ := List.cons.inj same
          exact ⟨ys, others, congrArg (· :: ys) (Option.some.inj first)⟩

/-- The reports are collected when no path is without one, and they are the reports of one path after the other. -/
theorem Sound.collect?_cases (sound : Sound settings disk paths p) :
    p.collect? = some (paths.map fun path => (path, Lexed.ofFile settings disk path)) ∨
      p.collect? = none ∧ p.pending ≠ [] := by
  by_cases full : ∀ place : Nat, p.reports[place]? ≠ some none
  · refine Or.inl (mapM_id_eq_some_iff.mpr (List.ext_getElem? fun place => ?_))
    rw [List.map_map, List.getElem?_map]
    cases here : p.reports[place]? with
    | none =>
      have outside : paths.length ≤ place := sound.long ▸ List.getElem?_eq_none_iff.mp here
      rw [List.getElem?_eq_none outside]
      rfl
    | some slot =>
      cases slot with
      | none => exact absurd here (full place)
      | some pair =>
        obtain ⟨path, at_place, rfl⟩ := sound.reported place pair here
        rw [at_place]
        rfl
  · obtain ⟨place, here⟩ := not_forall_not.mp full
    obtain ⟨path, mem⟩ := sound.empty place here
    refine Or.inr ⟨Option.eq_none_iff_forall_ne_some.mpr fun pairs collected => ?_, List.ne_nil_of_mem mem⟩
    rw [mapM_id_eq_some_iff.mp collected, List.getElem?_map] at here
    obtain ⟨pair, -, same⟩ := Option.map_eq_some_iff.mp here
    exact nomatch same

end Pool

/-- The number of workers, where the system would choose `available` of them. -/
def Session.workerCount (s : Session) (available : Nat) : Nat := if s.jobs = 0 then available else s.jobs

/-- What a batch can give: the reports of the workers when all are there or, where no worker can be started, those of
the files lexed one after the other. -/
inductive Session.Gives (s : Session) (disk : Disk) (paths : List String) : PathMap (Except RunFault Lexed) → Prop
  | shared {available n p pairs} : (Pool.start (s.workerCount available) paths).Reaches s.settings disk n p →
      p.collect? = some pairs → Gives s disk paths (.ofList pairs)
  | alone : Gives s disk paths (.ofList (paths.map fun path => (path, Lexed.ofFile s.settings disk path)))

/-- Whatever the number and the order of the workers, and without any, a batch gives one map, and workers get there in a
bounded number of steps. It holds the distinct paths in order, each with the report of the last path that is the same:
this report depends on that file alone, and it is the one of the path itself unless they differ. -/
theorem lexMany_of_workers (s : Session) (disk : Disk) (paths : List String) :
    (∀ jobs map, { s with jobs := jobs }.Gives disk paths map ↔ map = s.lexMany disk paths) ∧
    (∀ available n p, 0 < available →
      (Pool.start (s.workerCount available) paths).Reaches s.settings disk n p → n ≤ 3 * paths.length ∧
        ((∃ pairs, p.collect? = some pairs) ∨ ∃ q, p.Step s.settings disk q)) ∧
    (s.lexMany disk paths).entries = ((Path.distinct paths).map fun path =>
      (path, Lexed.ofFile s.settings disk (Path.lastSame paths path))) ∧
    (∀ path report, (path, report) ∈ (s.lexMany disk paths).entries → ∀ other : Disk,
      other.read (Path.lastSame paths path) = disk.read (Path.lastSame paths path) →
        (path, report) ∈ (s.lexMany other paths).entries) ∧
    ((∀ path report, (path, report) ∈ (s.lexMany disk paths).entries → report = Lexed.ofFile s.settings disk path) ↔
      ∀ path ∈ Path.distinct paths,
        Lexed.ofFile s.settings disk (Path.lastSame paths path) = Lexed.ofFile s.settings disk path) := by
  have entries (disk : Disk) : (s.lexMany disk paths).entries = (Path.distinct paths).map fun path =>
      (path, Lexed.ofFile s.settings disk (Path.lastSame paths path)) :=
    PathMap.entries_ofList (Lexed.ofFile s.settings disk) paths
  refine ⟨fun jobs map => ⟨?_, ?_⟩, fun available n p some_worker reaches => ⟨?_, ?_⟩, entries disk, ?_, ?_⟩
  · intro gives
    cases gives with
    | @shared available n p pairs reaches collected =>
      rcases (reaches.sound (Pool.sound_start _ paths)).collect?_cases with all | ⟨missing, -⟩
      · rw [Option.some.inj (collected.symm.trans all)]
        rfl
      · exact nomatch collected.symm.trans missing
    | alone => rfl
  · rintro rfl
    exact .alone
  · have bound := reaches.stepsLeft_le
    rw [Pool.stepsLeft_start] at bound
    omega
  · rcases (reaches.sound (Pool.sound_start _ paths)).collect?_cases with all | ⟨-, unfinished⟩
    · exact Or.inl ⟨_, all⟩
    · refine Or.inr (Pool.exists_step (List.ne_nil_of_length_pos ?_) unfinished)
      rw [reaches.workers_length, Pool.start, List.length_replicate, Session.workerCount]
      split
      · exact some_worker
      · omega
  · intro path report mem other same
    rw [entries] at mem ⊢
    obtain ⟨known, inside, pair⟩ := List.mem_map.mp mem
    obtain ⟨rfl, rfl⟩ := Prod.mk.inj pair
    refine List.mem_map.mpr ⟨known, inside, ?_⟩
    rw [Lexed.ofFile, Lexed.ofFile, Source.ofFile, Source.ofFile, same]
  · rw [entries]
    constructor
    · intro each path mem
      exact each path _ (List.mem_map_of_mem mem)
    · intro each path report mem
      obtain ⟨known, inside, pair⟩ := List.mem_map.mp mem
      obtain ⟨rfl, rfl⟩ := Prod.mk.inj pair
      exact each known inside

def diskWithOneFile : Disk := Tree.disk (.directory [("a.vhd", .file "x".toUTF8)]) []

/-- A file that is missing does not keep another from its report, and two workers have a step to begin with. -/
theorem lexMany_of_missing_file :
    (∃ p, (Pool.start 2 ["b.vhd", "a.vhd", "b.vhd"]).Step {} diskWithOneFile p) ∧
    (({} : Session).lexMany diskWithOneFile ["b.vhd", "a.vhd", "b.vhd"]).entries =
      [("b.vhd", Lexed.ofFile {} diskWithOneFile "b.vhd"), ("a.vhd", Lexed.ofFile {} diskWithOneFile "a.vhd")] := by
  obtain ⟨-, goes_on, entries, -⟩ := lexMany_of_workers { jobs := 2 } diskWithOneFile ["b.vhd", "a.vhd", "b.vhd"]
  constructor
  · rcases (goes_on 1 0 _ Nat.one_pos .refl).2 with ⟨pairs, all⟩ | next
    · exact nomatch all
    · exact next
  · have distinct : Path.distinct ["b.vhd", "a.vhd", "b.vhd"] = ["b.vhd", "a.vhd"] := by decide +kernel
    have last_b : Path.lastSame ["b.vhd", "a.vhd", "b.vhd"] "b.vhd" = "b.vhd" := by decide +kernel
    have last_a : Path.lastSame ["b.vhd", "a.vhd", "b.vhd"] "a.vhd" = "a.vhd" := by decide +kernel
    rw [distinct, List.map_cons, List.map_cons, List.map_nil, last_b, last_a] at entries
    exact entries

/-- A path that cannot be read has the report of another that is the same. -/
theorem lexMany_of_same_path :
    Lexed.ofFile {} diskWithOneFile "a.vhd/" = .error (.load (.unreadable "a.vhd/" .notDirectory)) ∧
    (({} : Session).lexMany diskWithOneFile ["a.vhd/", "a.vhd"]).entries =
      [("a.vhd/", .ok
        { source := ⟨.ofList [⟨.code, ['x']⟩], 1⟩
          tokens := [⟨.identifier, ⟨1, 1⟩, ⟨0, 0, 1⟩⟩, ⟨.eof, ⟨1, 2⟩, ⟨0, 1, 0⟩⟩]
          reports := [] })] :=
  ⟨by decide +kernel, by decide +kernel⟩

end VhdlFrontEnd
