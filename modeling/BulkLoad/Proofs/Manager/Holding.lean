import BulkLoad.Proofs.Manager.Work
import Mathlib.Algebra.GroupWithZero.Nat
import Mathlib.Data.List.Perm.Basic

/-!
# Who holds the outstanding units

A registered job holds a unit of each of its importers until its read loop ends, and a second one
while it holds a batch; a task holds one until it is over. The counts of the importers are sums over
these holders in every state (`holding_of_reachable`). No transition minds units that somebody else
has taken beside them (`Holding.transition`). A job holds nothing, and has no tasks, before it is
registered, and its tasks are for the same importers.
-/

namespace BulkLoad.Manager

/-! ## The counts of the importers -/

namespace Units

variable (u : Units) (name other : String) (units : PendingUnits) (importers : List Importer)

/-- The units of the first entry, or those of the others. -/
theorem get_cons :
    get ((name, units) :: u) other = if other = name then units else u.get other := by
  by_cases hname : other = name
  · simp [get, hname]
  · have hne : (other == name) = false := beq_false_of_ne hname
    simp [get, List.lookup_cons, hne, hname]

/-- Putting units in place changes the units of that name only. -/
theorem get_put : (u.put name units).get other = if other = name then units else u.get other := by
  induction u with
  | nil => exact get_cons [] name other units
  | cons entry rest ih =>
      obtain ⟨present, held⟩ := entry
      simp only [put]
      by_cases hpresent : name = present
      · subst hpresent
        rw [if_pos (beq_self_eq_true _), get_cons, get_cons]
        split <;> rfl
      · rw [if_neg (by simpa using hpresent), get_cons, get_cons, ih]
        by_cases hother : other = present
        · have hne : other ≠ name := fun hsame => hpresent (hsame.symm.trans hother)
          rw [if_pos hother, if_neg hne, if_pos hother]
        · rw [if_neg hother, if_neg hother]

/-- The importers with a name, among the first of some importers and the others. -/
theorem count_named_cons (importer : Importer) :
    ((importer :: importers).countP fun i => i.name == name) =
      (if name = importer.name then 1 else 0) + importers.countP fun i => i.name == name := by
  rw [List.countP_cons, Nat.add_comm]
  by_cases hname : name = importer.name
  · simp [hname]
  · have hne : ¬ importer.name = name := fun hsame => hname hsame.symm
    simp [hname, hne]

/-- Taking units raises the count of a name by the importers that have it. -/
theorem count_acquire :
    (u.acquire importers).count name =
      u.count name + importers.countP fun i => i.name == name := by
  induction importers generalizing u with
  | nil => rfl
  | cons importer importers ih =>
      have hfirst : (u.put importer.name (u.get importer.name).acquire).count name =
          u.count name + if name = importer.name then 1 else 0 := by
        simp only [count, get_put]
        split
        next hname => rw [hname, PendingUnits.acquire]
        next => rfl
      show (acquire (u.put importer.name (u.get importer.name).acquire) importers).count name = _
      rw [ih, hfirst, count_named_cons]
      omega

/-- Giving back units lowers the count of a name by the importers that have it. -/
theorem count_release :
    (u.release importers).count name =
      u.count name - importers.countP fun i => i.name == name := by
  induction importers generalizing u with
  | nil => rfl
  | cons importer importers ih =>
      have hfirst : (u.put importer.name (u.get importer.name).release).count name =
          u.count name - if name = importer.name then 1 else 0 := by
        simp only [count, get_put]
        split
        next hname => rw [hname, PendingUnits.release]
        next => rfl
      show (release (u.put importer.name (u.get importer.name).release) importers).count name = _
      rw [ih, hfirst, count_named_cons]
      omega

end Units

/-! ## The holders -/

/-- How many units of each of its importers a job holds at this point. -/
def JobPoint.shares : JobPoint → Nat
  | .spawned | .queued | .gated | .readying _ _ | .reading => 1
  | .submitting _ => 2
  | .begun | .opening | .sizing | .dismissing _ | .absent | .closing _ | .ended _ => 0

/-- The number of importers with a name. -/
def named (importers : List Importer) (name : String) : Nat :=
  importers.countP fun i => i.name == name

/-- The units of the importers with a name that a job holds. -/
def Job.held (j : Job) (name : String) : Nat := j.point.shares * named j.importers name

/-- The units of the importers with a name that a task holds. -/
def Task.held (t : Task) (name : String) : Nat := named t.importers name

/-- Whether the import of a source is still under way at this point. -/
def JobPoint.isPending : JobPoint → Bool
  | .begun | .opening | .sizing | .dismissing _ => true
  | .absent | .spawned | .queued | .gated | .readying _ _ | .reading | .submitting _ | .closing _
  | .ended _ => false

/-- Whether a job has been registered by this point. -/
def JobPoint.isRegistered : JobPoint → Bool
  | .spawned | .queued | .gated | .readying _ _ | .reading | .submitting _ | .closing _
  | .ended _ => true
  | .begun | .opening | .sizing | .dismissing _ | .absent => false

/-- How an import goes on: it stays under way, is declined, with the error for which it was
dismissed if it was, or leads to a registered job, whose answer then stays. -/
inductive JobMove (j after : Job) : Prop where
  | pends (hbefore : j.point.isPending = true) (hsure : ∀ error, j.point ≠ .dismissing error)
      (hafter : after.point.isPending = true) (hanswer : after.answer = j.answer)
  | declines (result : Result) (hbefore : j.point.isPending = true)
      (hafter : after.point = .absent) (hanswer : after.answer = some result)
      (hresult : ∀ error, j.point = .dismissing error → result = .error error)
  | registers (hbefore : j.point = .sizing) (hafter : after.point.isRegistered = true)
      (hanswer : after.answer = some (.ok ()))
  | works (hbefore : j.point.isRegistered = true) (hafter : after.point.isRegistered = true)
      (hanswer : after.answer = j.answer)

/-- What a step of job `n`, which is `j`, does to the holders: the job changes, a registered job may
begin tasks, and the counts change by what they hold. -/
structure JobHolding (s next : State) (n : Nat) (j : Job) (change : Job → Job)
    (added : List (Nat × Task)) : Prop where
  jobs : next.jobs = s.jobs.modify n change
  tasks : next.tasks = s.tasks ++ added
  owned : ∀ entry ∈ added, entry.2.job = n ∧ j.point.isRegistered = true ∧
    j.importers = entry.2.importers
  move : JobMove j (change j)
  importers : (change j).importers = j.importers
  units : ∀ name, j.held name ≤ s.units.count name →
    next.units.count name + j.held name =
      s.units.count name + (change j).held name + (added.map fun entry => entry.2.held name).sum

section

variable {settings : Settings} {s next : State} {n : Nat} {j : Job} {answer : Answer}

/-- A step that begins no task and changes the units of the job's importers by the job's share. -/
theorem JobHolding.of_units {change : Job → Job} (hjobs : next.jobs = s.jobs.modify n change)
    (htasks : next.tasks = s.tasks) (hmove : JobMove j (change j))
    (himporters : (change j).importers = j.importers)
    (hunits : ∀ name, j.held name ≤ s.units.count name →
      next.units.count name + j.held name = s.units.count name + (change j).held name) :
    ∃ change added, JobHolding s next n j change added :=
  ⟨change, [], hjobs, htasks.trans (List.append_nil _).symm, nofun, hmove, himporters, hunits⟩

/-- A job that goes on holds its own unit as long as it reads. -/
theorem GoesOn.holding {base : State} {importers : List Importer} {added : List (Nat × Task)}
    (h : GoesOn base n j importers next) (hjobs : base.jobs = s.jobs)
    (htasks : base.tasks = s.tasks ++ added)
    (howned : ∀ entry ∈ added, entry.2.job = n ∧ j.importers = entry.2.importers)
    (hregistered : j.point.isRegistered = true)
    (hunits : ∀ name, j.held name ≤ s.units.count name →
      base.units.count name + j.held name = s.units.count name + named j.importers name +
        (added.map fun entry => entry.2.held name).sum) :
    ∃ change added, JobHolding s next n j change added := by
  have howned (entry : Nat × Task) (hentry : entry ∈ added) :
      entry.2.job = n ∧ j.point.isRegistered = true ∧ j.importers = entry.2.importers :=
    ⟨(howned entry hentry).1, hregistered, (howned entry hentry).2⟩
  cases h with
  | readying importer rest =>
      refine ⟨_, added, congrArg (List.modify · n _) hjobs, htasks, howned,
        .works hregistered rfl rfl, rfl, ?_⟩
      intro name hheld
      have hshare : ({ j with point := .readying importer rest } : Job).held name =
          named j.importers name := Nat.one_mul _
      rw [hshare]
      exact hunits name hheld
  | reading hrun =>
      refine ⟨_, added, congrArg (List.modify · n _) hjobs, htasks, howned,
        .works hregistered rfl rfl, rfl, ?_⟩
      intro name hheld
      have hshare : ({ j with point := .reading } : Job).held name = named j.importers name :=
        Nat.one_mul _
      rw [hshare]
      exact hunits name hheld
  | stopping hstop =>
      refine ⟨_, added, congrArg (List.modify · n _) hjobs, htasks, howned,
        .works hregistered rfl rfl, rfl, ?_⟩
      intro name hheld
      have hshare : ({ j with point := .closing (.ok ()) } : Job).held name = 0 := Nat.zero_mul _
      have hbase := hunits name hheld
      show (base.units.release j.importers).count name + _ = _
      rw [hshare, Units.count_release]
      unfold named at hbase
      omega

/-- A job that goes on holding its own unit alone. -/
theorem GoesOn.holding_alone {base : State} {importers : List Importer}
    (h : GoesOn base n j importers next) (hjobs : base.jobs = s.jobs)
    (htasks : base.tasks = s.tasks) (hunits : base.units = s.units)
    (hregistered : j.point.isRegistered = true)
    (hshare : j.point.shares = 1) : ∃ change added, JobHolding s next n j change added := by
  refine h.holding hjobs (htasks.trans (List.append_nil _).symm) nofun hregistered ?_
  intro name _
  rw [hunits, Job.held, hshare, Nat.one_mul]
  rfl

/-- A step of a job that changes no units and keeps the job's share. -/
theorem JobHolding.of_idle {change : Job → Job} (hjobs : next.jobs = s.jobs.modify n change)
    (htasks : next.tasks = s.tasks) (hmove : JobMove j (change j)) (hunits : next.units = s.units)
    (hshares : (change j).point.shares = j.point.shares)
    (himporters : (change j).importers = j.importers) :
    ∃ change added, JobHolding s next n j change added := by
  refine JobHolding.of_units hjobs htasks hmove himporters ?_
  intro name _
  rw [hunits, Job.held, Job.held, hshares, himporters]

/-- The end of a read loop gives back the only share of its job. -/
theorem JobHolding.of_release {change : Job → Job} (hjobs : next.jobs = s.jobs.modify n change)
    (htasks : next.tasks = s.tasks) (hmove : JobMove j (change j))
    (himporters : (change j).importers = j.importers)
    (hunits : next.units = s.units.release j.importers) (hshare : j.point.shares = 1)
    (hnone : (change j).point.shares = 0) : ∃ change added, JobHolding s next n j change added := by
  refine JobHolding.of_units hjobs htasks hmove himporters ?_
  intro name hheld
  rw [hunits, Units.count_release]
  simp only [Job.held, hshare, hnone, named] at hheld ⊢
  omega

/-- Every step of a job has such an effect. -/
theorem JobStep.holding (h : JobStep settings s n j answer next) :
    ∃ change added, JobHolding s next n j change added := by
  have hpending {point : JobPoint} (hpoint : j.point = point) (hpending : point.isPending = true) :
      j.point.isPending = true := hpoint ▸ hpending
  have hregistered {point : JobPoint} (hpoint : j.point = point)
      (hregistered : point.isRegistered = true) : j.point.isRegistered = true :=
    hpoint ▸ hregistered
  cases h with
  -- The import of the source.
  | skipped hpoint =>
      exact JobHolding.of_idle rfl rfl
        (.declines (.ok ()) (hpending hpoint rfl) rfl rfl (by rw [hpoint]; nofun)) rfl
        (by rw [hpoint]; rfl) rfl
  | refused hpoint | unopened _ hpoint =>
      exact JobHolding.of_idle rfl rfl
        (.declines _ (hpending hpoint rfl) rfl rfl (by rw [hpoint]; nofun)) rfl
        (by rw [hpoint]; rfl) rfl
  | opening hpoint | opened hpoint | unsized _ hpoint =>
      exact JobHolding.of_idle rfl rfl
        (.pends (hpending hpoint rfl) (by rw [hpoint]; nofun) rfl rfl) rfl (by rw [hpoint]; rfl) rfl
  | registered size hpoint =>
      refine JobHolding.of_units rfl rfl (.registers hpoint rfl rfl) rfl ?_
      intro name _
      show (s.units.acquire j.importers).count name + _ = _
      rw [Units.count_acquire]
      simp only [Job.held, JobPoint.shares, hpoint, named]
      omega
  | unregistered size lines hpoint =>
      refine JobHolding.of_units rfl rfl
        (.pends (hpending hpoint rfl) (by rw [hpoint]; nofun) rfl rfl) rfl ?_
      intro name _
      show ((s.units.acquire j.importers).release j.importers).count name + _ = _
      rw [Units.count_release, Units.count_acquire]
      simp only [Job.held, JobPoint.shares, hpoint]
      omega
  | dismissed error closed lines hpoint =>
      refine JobHolding.of_idle rfl rfl (.declines _ (hpending hpoint rfl) rfl rfl ?_) rfl
        (by rw [hpoint]; rfl) rfl
      intro other hother
      rw [hpoint] at hother
      cases hother
      rfl
  -- The job has been registered.
  | enqueued hpoint | granted hpoint =>
      exact JobHolding.of_idle rfl rfl (.works (hregistered hpoint rfl) rfl rfl) rfl
        (by rw [hpoint]; rfl) rfl
  | ended _ _ _ hpoint =>
      exact JobHolding.of_idle rfl rfl (.works (hregistered hpoint rfl) rfl rfl) rfl
        (by rw [hpoint]; rfl) rfl
  | cancelled hpoint =>
      have hwaits : j.point.isRegistered = true ∧ j.point.shares = 1 := by
        rcases hpoint with hpoint | ⟨importer, rest, hpoint⟩ <;> rw [hpoint] <;> exact ⟨rfl, rfl⟩
      exact JobHolding.of_release rfl rfl (.works hwaits.1 rfl rfl) rfl rfl hwaits.2 rfl
  | drained hpoint | failed _ hpoint =>
      exact JobHolding.of_release rfl rfl (.works (hregistered hpoint rfl) rfl rfl) rfl rfl
        (by rw [hpoint]; rfl) rfl
  | lost _ hpoint =>
      exact JobHolding.of_release rfl rfl (.works (hregistered hpoint rfl) rfl rfl) rfl rfl
        (by rw [hpoint]; rfl) rfl
  | readBatch units records hpoint =>
      refine JobHolding.of_units rfl rfl (.works (hregistered hpoint rfl) rfl rfl) rfl ?_
      intro name _
      show (s.units.acquire j.importers).count name + _ = _
      rw [Units.count_acquire]
      simp only [Job.held, JobPoint.shares, hpoint, named]
      omega
  | released _ hpoint _ hnext | ready _ _ _ hpoint hnext | readNothing _ _ hpoint hnext =>
      exact hnext.holding_alone rfl rfl rfl (hregistered hpoint rfl) (by rw [hpoint]; rfl)
  | submitted batch _ hpoint hmay hopen hnext =>
      -- The task keeps the unit that was taken for the batch.
      refine hnext.holding rfl rfl ?_ (hregistered hpoint rfl) ?_
      · intro entry hentry
        rw [List.mem_singleton.mp hentry]
        exact ⟨rfl, rfl⟩
      · intro name _
        simp only [Job.held, JobPoint.shares, hpoint, List.map_cons, List.map_nil, List.sum_cons,
          List.sum_nil, Task.held, newTask]
        omega
  | rejected batch lines _ hpoint hclosed hnext =>
      refine hnext.holding rfl (List.append_nil _).symm nofun (hregistered hpoint rfl) ?_
      intro name hheld
      show (s.units.release j.importers).count name + _ = _
      rw [Units.count_release]
      simp only [Job.held, JobPoint.shares, hpoint, named, List.map_nil, List.sum_nil] at hheld ⊢
      omega

/-- What a step of task `n`, which is `t`, does to the holders: the task goes on for the same job
and the same importers, or it is over and gives back its units. -/
inductive TaskHolding (s next : State) (n : Nat) (t : Task) : Prop where
  | goesOn (after : Task) (htasks : next.tasks = (s.putTask n after).tasks)
      (hunits : next.units = s.units) (hjob : after.job = t.job)
      (himporters : after.importers = t.importers)
  | ends (htasks : next.tasks = s.tasks.filter fun (other, _) => other != n)
      (hunits : next.units = s.units.release t.importers)

/-- The end of a portion has such an effect. -/
theorem Concluded.holding {t : Task} {portion : Portion} {rest : List Portion}
    {outcome : ImportOutcome} (h : Concluded s n t portion rest outcome next) :
    TaskHolding s next n t := by
  cases h with
  | imported => exact .goesOn _ rfl rfl rfl rfl
  | panicked | overflowed => exact .ends rfl rfl

/-- Every step of a task has such an effect. -/
theorem TaskStep.holding {t : Task} (h : TaskStep settings s n t answer next) :
    TaskHolding s next n t := by
  cases h with
  | settled => exact .ends rfl rfl
  | sent | rested | resent => exact .goesOn _ rfl rfl rfl rfl
  | planned _ _ _ _ _ _ hnext | concluded _ _ _ _ _ _ hnext
  | crashed _ _ _ _ hnext => exact hnext.holding

end

/-! ## Sums over the holders -/

/-- The units of the importers with a name that jobs hold. -/
def heldByJobs (jobs : List Job) (name : String) : Nat := (jobs.map fun j => j.held name).sum

/-- The units of the importers with a name that tasks hold. -/
def heldByTasks (tasks : List (Nat × Task)) (name : String) : Nat :=
  (tasks.map fun entry => entry.2.held name).sum

/-- A sum over the jobs is made up of one job and the others. -/
theorem sum_erase (f : Job → Nat) {jobs : List Job} {n : Nat} {j : Job} (hj : jobs[n]? = some j) :
    (jobs.map f).sum = f j + ((jobs.eraseIdx n).map f).sum := by
  obtain ⟨hn, rfl⟩ := List.getElem?_eq_some_iff.mp hj
  have hperm := (List.getElem_cons_eraseIdx_perm hn).map f
  rw [← hperm.sum_nat]
  exact List.sum_cons

/-- Changing one job changes a sum over the jobs by that job. -/
theorem sum_modify (f : Job → Nat) {jobs : List Job} {n : Nat} {j : Job} (change : Job → Job)
    (hj : jobs[n]? = some j) :
    ((jobs.modify n change).map f).sum + f j = (jobs.map f).sum + f (change j) := by
  rw [sum_erase f (modified_at change hj), List.eraseIdx_modify_of_eq, sum_erase f hj]
  omega

/-- What a job holds and what the others hold. -/
theorem held_by_jobs_erase {jobs : List Job} {n : Nat} {j : Job} (hj : jobs[n]? = some j)
    (name : String) : heldByJobs jobs name = j.held name + heldByJobs (jobs.eraseIdx n) name :=
  sum_erase (fun j => j.held name) hj

/-- Changing a job changes what the jobs hold by what it holds. -/
theorem held_by_jobs_modify {jobs : List Job} {n : Nat} {j : Job} (change : Job → Job)
    (hj : jobs[n]? = some j) (name : String) :
    heldByJobs (jobs.modify n change) name + j.held name =
      heldByJobs jobs name + (change j).held name :=
  sum_modify (fun j => j.held name) change hj

/-- A task is found under its number if no other has it. -/
theorem lookup_of_mem {tasks : List (Nat × Task)} {entry : Nat × Task} (hentry : entry ∈ tasks)
    (hdistinct : (tasks.map Prod.fst).Nodup) : tasks.lookup entry.1 = some entry.2 := by
  obtain ⟨before, later, rfl⟩ := List.append_of_mem hentry
  rw [List.map_append, List.nodup_append] at hdistinct
  refine List.lookup_eq_some_iff.mpr ⟨before, later, rfl, ?_⟩
  intro other hother
  have hne := hdistinct.2.2 _ (List.mem_map_of_mem hother) entry.1 List.mem_cons_self
  simpa using fun hsame => hne hsame.symm

/-- A task, which is the only one with its number, stands between others that neither another task
in its place nor its end concerns. -/
theorem split_of_lookup {tasks : List (Nat × Task)} {n : Nat} {t : Task}
    (ht : tasks.lookup n = some t) (hdistinct : (tasks.map Prod.fst).Nodup) :
    ∃ before later, tasks = before ++ (n, t) :: later ∧
      (∀ after, (tasks.map fun (other, present) =>
        (other, if other == n then after else present)) = before ++ (n, after) :: later) ∧
      (tasks.filter fun (other, _) => other != n) = before ++ later := by
  obtain ⟨before, later, rfl, hbefore⟩ := List.lookup_eq_some_iff.mp ht
  have hothers : ∀ entry ∈ before ++ later, entry.1 ≠ n := by
    intro entry hentry hsame
    rcases List.mem_append.mp hentry with hentry | hentry
    · have hne := hbefore entry hentry
      rw [hsame] at hne
      simp at hne
    · rw [List.map_append, List.nodup_append] at hdistinct
      have hnotin := (List.nodup_cons.mp hdistinct.2.1).1
      have hmem : entry.1 ∈ later.map Prod.fst := List.mem_map_of_mem hentry
      rw [hsame] at hmem
      exact hnotin hmem
  have hput (after : Task) (entries : List (Nat × Task)) (hne : ∀ entry ∈ entries, entry.1 ≠ n) :
      (entries.map fun (other, present) => (other, if other == n then after else present)) =
        entries := by
    refine (List.map_congr_left fun entry hentry => ?_).trans (List.map_id entries)
    show (entry.1, if entry.1 == n then after else entry.2) = entry
    rw [beq_false_of_ne (hne entry hentry)]
    rfl
  have hends (entries : List (Nat × Task)) (hne : ∀ entry ∈ entries, entry.1 ≠ n) :
      (entries.filter fun (other, _) => other != n) = entries :=
    List.filter_eq_self.mpr fun entry hentry => bne_iff_ne.mpr (hne entry hentry)
  have hleft := fun entry hentry => hothers entry (List.mem_append_left later hentry)
  have hright := fun entry hentry => hothers entry (List.mem_append_right before hentry)
  refine ⟨before, later, rfl, fun after => ?_, ?_⟩
  · rw [List.map_append, List.map_cons, hput after before hleft, hput after later hright]
    show before ++ (n, if n == n then after else t) :: later = _
    rw [if_pos (beq_self_eq_true n)]
  · rw [List.filter_append, List.filter_cons_of_neg (by simp), hends before hleft,
      hends later hright]

/-- Putting a task for the same importers in place of another changes nothing about what is held. -/
theorem held_by_tasks_put {s : State} {n : Nat} {t after : Task} (ht : s.tasks.lookup n = some t)
    (hdistinct : (s.tasks.map Prod.fst).Nodup) (himporters : after.importers = t.importers)
    (name : String) : heldByTasks (s.putTask n after).tasks name = heldByTasks s.tasks name := by
  obtain ⟨before, later, htasks, hput, -⟩ := split_of_lookup ht hdistinct
  have hput : (s.putTask n after).tasks = before ++ (n, after) :: later := hput after
  rw [hput, htasks]
  simp only [heldByTasks, List.map_append, List.map_cons, Task.held, himporters]

/-- The end of a task takes what it holds from what is held. -/
theorem held_by_tasks_end {tasks : List (Nat × Task)} {n : Nat} {t : Task}
    (ht : tasks.lookup n = some t) (hdistinct : (tasks.map Prod.fst).Nodup) (name : String) :
    heldByTasks tasks name =
      t.held name + heldByTasks (tasks.filter fun (other, _) => other != n) name := by
  obtain ⟨before, later, htasks, -, hends⟩ := split_of_lookup ht hdistinct
  rw [hends, htasks]
  simp only [heldByTasks, List.map_append, List.map_cons, List.sum_append, List.sum_cons]
  omega

/-! ## The holders of every state -/

/-- What the call that imports a source has been answered by each point of its job. -/
def Job.Answered (j : Job) : Prop :=
  if j.point.isPending then j.answer = none
  else if j.point.isRegistered then j.answer = some (.ok ())
  else ∃ result, j.answer = some result

/-- Whether there is a job with this number that has been registered. -/
def State.IsRegistered (s : State) (n : Nat) : Prop :=
  ∃ j, s.jobs[n]? = some j ∧ j.point.isRegistered = true

/-- Whether a task is one of a job that has been registered, and for the importers of the job. -/
def State.Owns (s : State) (t : Task) : Prop :=
  ∃ j, s.jobs[t.job]? = some j ∧ j.point.isRegistered = true ∧ j.importers = t.importers

/-- A job that has a task has been registered. -/
theorem State.Owns.registered {s : State} {t : Task} (h : s.Owns t) : s.IsRegistered t.job := by
  obtain ⟨j, hj, hregistered, -⟩ := h
  exact ⟨j, hj, hregistered⟩

/-- The counts of the importers are sums over the holders, beside so many units that somebody else
has taken. Only registered jobs have tasks and have read, and the calls that import sources have
been answered accordingly. -/
structure State.Holding (s : State) (taken : String → Nat) : Prop where
  units : ∀ name,
    s.units.count name = heldByJobs s.jobs name + heldByTasks s.tasks name + taken name
  owned : ∀ entry ∈ s.tasks, s.Owns entry.2
  read : ∀ n, .reading n ∈ s.history → s.IsRegistered n
  answered : ∀ j ∈ s.jobs, j.Answered

section

variable {settings : Settings} {s next : State} {n : Nat} {j after : Job} {change : Job → Job}
  {taken others : String → Nat}

/-- A registered job is not under way to be registered. -/
theorem not_pending_of_registered {point : JobPoint} (h : point.isRegistered = true) :
    ¬ point.isPending = true := by
  cases point with
  | begun | opening | sizing | dismissing | absent => cases h
  | spawned | queued | gated | readying | reading | submitting | closing | ended => nofun

/-- A job that may work has been registered. -/
theorem registered_of_may (h : s.MayWork j) : j.point.isRegistered = true := by
  rcases h with hworking | ⟨hgated, -⟩
  · cases hpoint : j.point with
    | readying | reading | submitting => rfl
    | begun | opening | sizing | dismissing | absent | spawned | queued | gated | closing | ended =>
        rw [hpoint] at hworking
        cases hworking
  · rw [hgated]
    rfl

/-- A registered job stays registered. -/
theorem JobMove.registered (h : JobMove j after) (hregistered : j.point.isRegistered = true) :
    after.point.isRegistered = true := by
  cases h with
  | pends hbefore | declines _ hbefore =>
      exact absurd hbefore (not_pending_of_registered hregistered)
  | registers _ hafter | works _ hafter => exact hafter

/-- A job whose call has been answered accordingly moves on so. -/
theorem JobMove.answered (h : JobMove j after) (hanswered : j.Answered) : after.Answered := by
  unfold Job.Answered at hanswered ⊢
  cases h with
  | pends hbefore _ hafter hanswer =>
      rw [if_pos hbefore] at hanswered
      rw [if_pos hafter]
      exact hanswer.trans hanswered
  | declines result _ hafter hanswer =>
      rw [hafter]
      exact ⟨result, hanswer⟩
  | registers _ hafter hanswer =>
      rw [if_neg (not_pending_of_registered hafter), if_pos hafter]
      exact hanswer
  | works hbefore hafter hanswer =>
      rw [if_neg (not_pending_of_registered hbefore), if_pos hbefore] at hanswered
      rw [if_neg (not_pending_of_registered hafter), if_pos hafter]
      exact hanswer.trans hanswered

namespace State

/-- Registered jobs stay registered, for the same importers. -/
def KeepsRegistered (s next : State) : Prop :=
  ∀ (n : Nat) (j : Job), s.jobs[n]? = some j → j.point.isRegistered = true →
    ∃ after : Job, next.jobs[n]? = some after ∧ after.point.isRegistered = true ∧
      after.importers = j.importers

/-- A registered job stays registered. -/
theorem KeepsRegistered.registered (h : s.KeepsRegistered next) (hn : s.IsRegistered n) :
    next.IsRegistered n := by
  obtain ⟨j, hj, hregistered⟩ := hn
  obtain ⟨after, hafter, hstays, -⟩ := h n j hj hregistered
  exact ⟨after, hafter, hstays⟩

/-- A task of a registered job stays one. -/
theorem KeepsRegistered.owns (h : s.KeepsRegistered next) {t : Task} (ht : s.Owns t) :
    next.Owns t := by
  obtain ⟨j, hj, hregistered, himporters⟩ := ht
  obtain ⟨after, hafter, hstays, hsame⟩ := h t.job j hj hregistered
  exact ⟨after, hafter, hstays, hsame.trans himporters⟩

/-- Registered jobs stay so where all jobs stay the same. -/
theorem KeepsRegistered.of_same (hjobs : next.jobs = s.jobs) : s.KeepsRegistered next :=
  fun _ j hj hregistered => ⟨j, hjobs ▸ hj, hregistered, rfl⟩

/-- Registered jobs stay so when a job moves. -/
theorem KeepsRegistered.of_move (hj : s.jobs[n]? = some j) (hmove : JobMove j (change j))
    (himporters : (change j).importers = j.importers)
    (hjobs : next.jobs = s.jobs.modify n change) : s.KeepsRegistered next := by
  intro k other hother hregistered
  rw [hjobs]
  by_cases hk : n = k
  · subst hk
    obtain rfl : j = other := Option.some.inj (hj.symm.trans hother)
    exact ⟨change j, modified_at change hj, hmove.registered hregistered, himporters⟩
  · exact ⟨other, (List.getElem?_modify_ne _ _ hk).trans hother, hregistered, rfl⟩

/-- A step that leaves jobs and tasks alone, and does no work, keeps the holders. Units may be taken
or given back by somebody else. -/
theorem Holding.retaken (h : s.Holding taken) (hjobs : next.jobs = s.jobs)
    (htasks : next.tasks = s.tasks) (hidle : AddsNoWork s next)
    (hunits : ∀ name, next.units.count name + taken name = s.units.count name + others name) :
    next.Holding others := by
  have hkept : s.KeepsRegistered next := .of_same hjobs
  refine ⟨?_, ?_, ?_, hjobs ▸ h.answered⟩
  · intro name
    have hcount := h.units name
    have hchange := hunits name
    rw [hjobs, htasks]
    omega
  · rw [htasks]
    exact fun entry hentry => hkept.owns (h.owned entry hentry)
  · intro n hread
    obtain ⟨events, hevents, hnone⟩ := hidle
    rw [hevents] at hread
    rcases List.mem_append.mp hread with hread | hread
    · cases hnone _ hread
    · exact hkept.registered (h.read n hread)

/-- A step that leaves jobs, tasks and units alone, and does no work, keeps the holders. -/
theorem Holding.same (h : s.Holding taken) (hjobs : next.jobs = s.jobs)
    (htasks : next.tasks = s.tasks) (hunits : next.units = s.units) (hidle : AddsNoWork s next) :
    next.Holding taken :=
  h.retaken hjobs htasks hidle fun _ => by rw [hunits]

/-- A job that joins holds nothing. -/
theorem Holding.import (h : s.Holding taken) (sourceName : String) (importers : List Importer) :
    ({ s with jobs := s.jobs ++ [{ sourceName, importers }] } : State).Holding taken := by
  have hkept : s.KeepsRegistered { s with jobs := s.jobs ++ [{ sourceName, importers }] } := by
    intro n j hj hregistered
    obtain ⟨hlt, -⟩ := List.getElem?_eq_some_iff.mp hj
    exact ⟨j, (List.getElem?_append_left hlt).trans hj, hregistered, rfl⟩
  refine ⟨?_, fun entry hentry => hkept.owns (h.owned entry hentry),
    fun n hread => hkept.registered (h.read n hread), ?_⟩
  · intro name
    rw [h.units name, heldByJobs, heldByJobs, List.map_append, List.sum_append]
    simp [Job.held, JobPoint.shares]
  · intro j hj
    rcases List.mem_append.mp hj with hj | hj
    · exact h.answered j hj
    · rw [List.mem_singleton.mp hj]
      rfl

/-- A job keeps the counts. -/
theorem Holding.job (h : s.Holding taken) (hj : s.jobs[n]? = some j) {added : List (Nat × Task)}
    (hstep : JobHolding s next n j change added) (hwork : JobWork s next n j) :
    next.Holding taken := by
  have hkept : s.KeepsRegistered next := .of_move hj hstep.move hstep.importers hstep.jobs
  refine ⟨?_, ?_, ?_, ?_⟩
  · intro name
    have hcount := h.units name
    have hothers := held_by_jobs_erase hj name
    have hunits := hstep.units name (by omega)
    have hjobs := held_by_jobs_modify change hj name
    have htasks : heldByTasks next.tasks name =
        heldByTasks s.tasks name + (added.map fun entry => entry.2.held name).sum := by
      rw [hstep.tasks, heldByTasks, List.map_append, List.sum_append]
      rfl
    rw [htasks, hstep.jobs]
    omega
  · intro entry hentry
    rw [hstep.tasks] at hentry
    rcases List.mem_append.mp hentry with hentry | hentry
    · exact hkept.owns (h.owned entry hentry)
    · obtain ⟨howner, hregistered, himporters⟩ := hstep.owned entry hentry
      exact hkept.owns ⟨j, howner ▸ hj, hregistered, himporters⟩
  · intro k hread
    obtain ⟨events, hevents, hreads⟩ := hwork.history
    rw [hevents] at hread
    rcases List.mem_append.mp hread with hread | hread
    · obtain ⟨hevent, hmay⟩ := hreads _ hread rfl
      cases hevent
      exact hkept.registered ⟨j, hj, registered_of_may hmay⟩
    · exact hkept.registered (h.read k hread)
  · intro other hother
    rcases mem_modify hj (hstep.jobs ▸ hother) with rfl | hother
    · exact hstep.move.answered (h.answered j (List.mem_of_getElem? hj))
    · exact h.answered other hother

/-- A task keeps the counts. -/
theorem Holding.task (h : s.Holding taken) {t : Task} (ht : s.tasks.lookup n = some t)
    (hdistinct : (s.tasks.map Prod.fst).Nodup) (hjobs : next.jobs = s.jobs)
    (hstep : TaskHolding s next n t)
    (hhistory : ∀ k, .reading k ∈ next.history → .reading k ∈ s.history) : next.Holding taken := by
  have hkept : s.KeepsRegistered next := .of_same hjobs
  refine ⟨?_, ?_, fun k hread => hkept.registered (h.read k (hhistory k hread)),
    hjobs ▸ h.answered⟩
  · intro name
    have hcount := h.units name
    cases hstep with
    | goesOn after htasks hunits _ himporters =>
        have hheld := held_by_tasks_put ht hdistinct himporters name
        rw [hunits, hjobs, htasks, hheld]
        exact hcount
    | ends htasks hunits =>
        have hheld := held_by_tasks_end ht hdistinct name
        rw [hunits, Units.count_release, hjobs, htasks]
        unfold Task.held named at hheld
        omega
  · intro entry hentry
    cases hstep with
    | goesOn after htasks _ hjob himporters =>
        rw [htasks] at hentry
        obtain ⟨⟨other, present⟩, hpresent, rfl⟩ := List.mem_map.mp hentry
        show next.Owns (if other == n then after else present)
        split
        · obtain ⟨before, later, htasks, -⟩ := List.lookup_eq_some_iff.mp ht
          have howned : s.Owns t := by
            refine h.owned (n, t) ?_
            rw [htasks]
            exact List.mem_append_right _ List.mem_cons_self
          rw [Owns, hjob, himporters]
          exact hkept.owns howned
        · exact hkept.owns (h.owned _ hpresent)
    | ends htasks =>
        rw [htasks] at hentry
        exact hkept.owns (h.owned entry (List.mem_filter.mp hentry).1)

/-- Every transition keeps the counts. -/
theorem Holding.transition {label : Label} (h : s.Holding taken)
    (hdistinct : (s.tasks.map Prod.fst).Nodup) (hstep : Transition settings s label next) :
    next.Holding taken := by
  cases work_step_of_transition hstep with
  | «import» sourceName importers => exact h.import sourceName importers
  | job n j answer _ hj hstep =>
      obtain ⟨change, added, hholding⟩ := hstep.holding
      exact h.job hj hholding hstep.work
  | task n t answer _ ht hstep =>
      refine h.task ht hdistinct hstep.effect.2.jobs hstep.holding ?_
      intro k hread
      rcases hstep.work with ⟨statement, hhistory⟩ | ⟨events, hevents, hnone⟩
      · rw [hhistory] at hread
        exact (List.mem_cons.mp hread).resolve_left nofun
      · rw [hevents] at hread
        refine (List.mem_append.mp hread).resolve_left ?_
        intro hread
        cases hnone _ hread
  | idle _ _ hjobs htasks hunits hidle => exact h.same hjobs htasks hunits hidle

/-- The counts are sums over the holders in every state that a run can get to. -/
theorem holding_of_reachable (h : Reachable settings s) : s.Holding fun _ => 0 := by
  induction h with
  | initial =>
      refine ⟨fun _ => rfl, ?_, ?_, ?_⟩
      · exact fun _ hentry => absurd hentry List.not_mem_nil
      · exact fun _ hread => absurd hread List.not_mem_nil
      · exact fun _ hj => absurd hj List.not_mem_nil
  | step label h hstep ih =>
      exact ih.transition (drained_of_reachable h).tasks.distinct (transition_of_step hstep)

/-- Nobody else holds units. -/
theorem count_of_reachable (h : Reachable settings s) (name : String) :
    s.units.count name = heldByJobs s.jobs name + heldByTasks s.tasks name :=
  (holding_of_reachable h).units name

end State

end

end BulkLoad.Manager
