import BulkLoad.Proofs.Manager.Dues

/-!
# The end of a run does not depend on its course

What has come of a run of fixed jobs and what is still to come of it are together the same in every
state (`Course.conserved`). At the end, when nothing is still to come, the run has therefore come to
what comes of its jobs one by one: neither the order of the imports nor that of the steps has a part
in it (`same_of_courses`). But the accumulated times have to fit. Otherwise the order in which they
are added decides which of them does not, and its batch is lost (`not_all_same`).
-/

namespace BulkLoad.Manager

section

variable {reply : String → Reply} {default : Nat} {specs : List JobSpec} {spec : JobSpec}
  {settings : Settings} {s next : State} {n : Nat} {j : Job} {answer : Answer} {label : Label}

/-! ## Everyone else -/

/-- Starting counts nothing. -/
theorem StartStep.counters (h : StartStep settings s answer next) :
    next.stats.counters = s.stats.counters := by
  have hooks (graph : String) (progress : HookProgress) (events : List HookEvent) :
      ((s.recordHooks .before events).afterStartHooks graph progress).stats.counters =
        s.stats.counters := by
    match progress with
    | .running run => rfl
    | .ended (.error error) => rfl
    | .ended (.ok ()) => exact Stats.counters_init s.stats s.clock
  cases h with
  | stopped | opened | unopened => rfl
  | begun progress events | hooked _ _ progress events => exact hooks _ progress events

/-- The hooks after the import count nothing. -/
theorem stats_stop_hooks (s : State) (graph : String) (progress : HookProgress) :
    (s.afterStopHooks graph progress).stats = s.stats := by
  have hhooked := s.stop_hooked graph progress
  generalize s.afterStopHooks graph progress = next at hhooked ⊢
  cases hhooked with
  | running | closing | done => rfl

/-- Stopping counts nothing. -/
theorem StopStep.stats (h : StopStep settings s answer next) : next.stats = s.stats := by
  cases h with
  | begun | readersDrained | importersDrained | collected | joining => rfl
  | unhooked lines => exact stats_stop_hooks _ _ _
  | hooked run answer progress events => exact stats_stop_hooks _ _ progress
  | closed result outcome => cases outcome <;> rfl

/-- Calling for a body counts nothing. -/
theorem stats_enter (s : State) (n : Nat) (wish : Wish) : (s.enter n wish).stats = s.stats := by
  simp only [State.enter]
  split <;> rfl

/-- A step that is neither one of a job nor one of a task leaves what has come of the run and the
tasks alone. -/
theorem yield_of_others (h : Transition settings s label next)
    (hjob : ∀ n, label.actor? ≠ some (.job n)) (htask : ∀ n, label.actor? ≠ some (.task n)) :
    next.yield = s.yield ∧ next.tasks = s.tasks := by
  have hexecuted : executed next.history = executed s.history := by
    refine congrArg (fun statements : List String => (statements : Multiset String))
      ((adds_of_transition h).filter_map_eq fun event hevent => ?_)
    cases event with
    | sending task statement => exact absurd (hevent (.task task) rfl) (htask task)
    | _ => rfl
  have hyield (hcounters : next.stats.counters = s.stats.counters) : next.yield = s.yield :=
    Prod.ext hcounters hexecuted
  cases h with
  | «import» | call | clock => exact ⟨rfl, rfl⟩
  | job n => exact absurd rfl (hjob n)
  | task n => exact absurd rfl (htask n)
  | start answer _ hstep => exact ⟨hyield hstep.counters, hstep.effect.work.tasks⟩
  | stop answer _ hstep =>
      exact ⟨hyield (congrArg Stats.counters hstep.stats), hstep.effect.work.tasks⟩
  | report answer _ hstep =>
      cases hstep with
      | ticked | ended => exact ⟨hyield rfl, rfl⟩
  | caller n c _ hc hstep =>
      cases hstep with
      | waiting | readersDrained | answered => exact ⟨hyield rfl, rfl⟩
      | entered | importersDrained =>
          exact ⟨hyield (congrArg Stats.counters (stats_enter s n c.wish)),
            (enter_effect s n c.wish).tasks⟩

/-- Where a job stands is decided by its own steps. -/
theorem point_of_others (h : Transition settings s label next)
    (hlabel : label.actor? ≠ some (.job n)) : next.pointOf n = s.pointOf n := by
  rcases job_of_others h hlabel with hsame | ⟨hnone, sourceName, importers, hnew⟩
  · rw [State.pointOf, State.pointOf, hsame]
  · rw [State.pointOf, State.pointOf, hnone, hnew]
    rfl

/-- What is still to come of a job is changed by its own steps only. -/
theorem due_of_others (h : Transition settings s label next)
    (hlabel : label.actor? ≠ some (.job n)) (spec : JobSpec) :
    spec.due reply default (answersTo next.history n).length (next.pointOf n) =
      spec.due reply default (answersTo s.history n).length (s.pointOf n) := by
  rw [answers_of_transition h hlabel, point_of_others h hlabel]

/-! ## Conservation -/

/-- What is still to come of all jobs when one of them gains. -/
theorem JobGain.conserved (h : JobGain reply default spec s next n j)
    (hstep : Transition settings s (.answer (.job n) answer) next) (hj : s.jobs[n]? = some j)
    (hspec : specs[n]? = some spec) :
    next.yield + next.due reply default specs = s.yield + s.due reply default specs := by
  obtain ⟨gained, added, hyield, htasks, hleft⟩ := h
  obtain ⟨hlt, rfl⟩ := List.getElem?_eq_some_iff.mp hspec
  have hpoint : s.pointOf n = j.point := by
    rw [State.pointOf, hj]
    rfl
  have hbegun :
      tasksYield reply next.tasks = tasksYield reply s.tasks + tasksYield reply added := by
    rw [htasks, tasksYield, List.map_append, List.sum_append]
    rfl
  have hothers : ∑ m ∈ Finset.univ.erase (⟨n, hlt⟩ : Fin specs.length),
        specs[m].due reply default (answersTo next.history m).length (next.pointOf m) =
      ∑ m ∈ Finset.univ.erase (⟨n, hlt⟩ : Fin specs.length),
        specs[m].due reply default (answersTo s.history m).length (s.pointOf m) := by
    refine Finset.sum_congr rfl fun m hm => due_of_others hstep ?_ specs[m]
    intro hsame
    exact Finset.ne_of_mem_erase hm (Fin.ext (Actor.job.inj (Option.some.inj hsame)).symm)
  have hmem := Finset.mem_univ (⟨n, hlt⟩ : Fin specs.length)
  rw [State.due, State.due, ← Finset.add_sum_erase _ _ hmem, ← Finset.add_sum_erase _ _ hmem,
    hothers, hbegun, hyield]
  simp only [Fin.getElem_fin, hpoint, hleft]
  abel

/-- What is still to come of all jobs when none of them does anything. -/
theorem due_of_tasks (hstep : Transition settings s label next)
    (hlabel : ∀ n, label.actor? ≠ some (.job n))
    (hyield : next.yield + tasksYield reply next.tasks = s.yield + tasksYield reply s.tasks) :
    next.yield + next.due reply default specs = s.yield + s.due reply default specs := by
  have hjobs : ∑ m : Fin specs.length,
        specs[m].due reply default (answersTo next.history m).length (next.pointOf m) =
      ∑ m : Fin specs.length,
        specs[m].due reply default (answersTo s.history m).length (s.pointOf m) :=
    Finset.sum_congr rfl fun m _ => due_of_others hstep (hlabel m) specs[m]
  rw [State.due, State.due, hjobs, add_left_comm, hyield, add_left_comm]

/-- Before a run everything is still to come. -/
theorem due_initial (reply : String → Reply) (default : Nat) (specs : List JobSpec)
    (settings : Settings) :
    (State.initial settings).yield + (State.initial settings).due reply default specs =
      (specs.map (JobSpec.yield · reply default)).sum := by
  have hyield : (State.initial settings).yield = 0 := Prod.ext Stats.counters_default rfl
  rw [hyield, zero_add, ← Fin.sum_univ_fun_getElem]
  exact add_zero _

/-- What has come of a course and what is still to come of it are together what comes of its jobs,
as long as all times fit. -/
theorem Course.conserved (h : Course reply specs settings s)
    (hfits : TimesFit (specs.map (JobSpec.yield · reply settings.batch)).sum) :
    s.yield + s.due reply settings.batch specs =
      (specs.map (JobSpec.yield · reply settings.batch)).sum := by
  induction h with
  | initial => exact due_initial reply settings.batch specs settings
  | @step s next label h hmay hstep ih =>
      have hreachable := h.reachable
      have hdrained := State.drained_of_reachable hreachable
      have htransition := transition_of_step hstep
      rw [← ih]
      have hfits : TimesFit (s.yield + s.due reply settings.batch specs) := ih ▸ hfits
      have hidle (hjob : ∀ n, label.actor? ≠ some (.job n))
          (htask : ∀ n, label.actor? ≠ some (.task n)) :
          next.yield + next.due reply settings.batch specs =
            s.yield + s.due reply settings.batch specs := by
        obtain ⟨hyield, htasks⟩ := yield_of_others htransition hjob htask
        exact due_of_tasks htransition hjob (by rw [hyield, htasks])
      cases htransition with
      | job n j answer _ hj hjob =>
          obtain ⟨spec, hspec, himporters⟩ := h.spec_of hj
          have hgain := hjob.gain hj hspec himporters (h.running hj)
            (fun batch => hdrained.open_of_submitting hj) (answer_of_job hj hmay)
          exact hgain.conserved (transition_of_step hstep) hj hspec
      | task n t answer _ ht htask =>
          obtain ⟨others, htasks, -⟩ := tasks_yield_of_lookup reply ht hdrained.tasks.distinct
          rw [State.due, htasks, add_left_comm _ (t.yield reply), ← add_assoc] at hfits
          have hgain := htask.gain (fun shipment hpoint => answer_of_sending ht hpoint hmay)
            hfits.of_add
          exact due_of_tasks (transition_of_step hstep) nofun
            (hgain.conserved ht hdrained.tasks.distinct)
      | «import» | call | clock | start | stop | report | caller => exact hidle nofun nofun

/-- At the end of a course nothing is still to come. -/
theorem Course.due_of_over (h : Course reply specs settings s) (hreturned : s.stopReturned = true) :
    s.due reply default specs = 0 := by
  obtain ⟨hall, htasks, hover⟩ := h.over hreturned
  have hnone : tasksYield reply s.tasks = 0 := by
    rw [htasks]
    rfl
  rw [State.due, hnone, add_zero]
  refine Finset.sum_eq_zero fun n _ => ?_
  have hlt : n.1 < s.jobs.length := hall.symm ▸ n.2
  have hj := List.getElem?_eq_getElem hlt
  have hpoint : s.pointOf n = s.jobs[n.1].point := by
    rw [State.pointOf, hj]
    rfl
  rcases hover n _ hj with habsent | ⟨result, hended⟩
  · rw [hpoint, habsent]
    rfl
  · rw [hpoint, hended]
    rfl

/-- What has come of a course in the end is what comes of its jobs. -/
theorem Course.yield_of_over (h : Course reply specs settings s)
    (hreturned : s.stopReturned = true)
    (hfits : TimesFit (specs.map (JobSpec.yield · reply settings.batch)).sum) :
    s.yield = (specs.map (JobSpec.yield · reply settings.batch)).sum := by
  have hconserved := h.conserved hfits
  rwa [h.due_of_over hreturned, add_zero] at hconserved

end

/-- Two runs of the same jobs, imported in any order and with any numbers of workers, that have been
waited for end with the same counters and have executed the same statements equally often, as long
as the latencies of all statements together are no longer than the longest span, and neither are
their response times. -/
theorem same_of_courses {reply : String → Reply} {specs others : List JobSpec}
    {settings changed : Settings} {s other : State} (h : Course reply specs settings s)
    (hother : Course reply others changed other) (hspecs : specs.Perm others)
    (hbatch : settings.batch = changed.batch) (hreturned : s.stopReturned = true)
    (hreturnedOther : other.stopReturned = true)
    (hfits : TimesFit (specs.map (JobSpec.yield · reply settings.batch)).sum) :
    { s.stats with startTime := none } = { other.stats with startTime := none } ∧
      executed s.history = executed other.history := by
  have hsum := (hspecs.map (JobSpec.yield · reply settings.batch)).sum_eq
  have hyield := h.yield_of_over hreturned hfits
  have hsame : s.yield = other.yield := by
    rw [hyield, hsum, hbatch]
    refine (hother.yield_of_over hreturnedOther ?_).symm
    rwa [← hbatch, ← hsum]
  exact ⟨Stats.eq_of_counters (congrArg Prod.fst hsame), congrArg Prod.snd hsame⟩

/-! ## Two courses of the same jobs -/

namespace Reordered

/-- Statements that merge find the graph locked, all others are executed. -/
def reply (statement : String) : Reply :=
  if statement == "MERGE" then .ok (.failure "locked")
  else .ok (.success (.ofNanos 5) (.ofNanos 7))

/-- An importer that creates. -/
def creating : Importer :=
  { name := "create", build := fun records => .statement "CREATE" records.length }

/-- An importer that merges, in two attempts. -/
def merging : Importer :=
  { name := "merge", retry := .of 2 .zero .zero,
    build := fun records => .statement "MERGE" records.length }

/-- A source with one batch for both importers. -/
def people : JobSpec where
  sourceName := "people"
  importers := [creating, merging]
  size := .ok 4
  answers := [.batch 4 [["1"], ["2"]], .error .eof]

/-- A source that breaks off after an empty batch and another. -/
def places : JobSpec where
  sourceName := "places"
  importers := [creating]
  size := .ok 3
  answers := [.batch 2 [], .batch 1 [["3"]], .error (.failed "places" "gone")]

/-- One worker for each kind of work. -/
def single : Settings := { Sample.settings with readerConcurrency := 1, importerConcurrency := 1 }

/-- Two workers for each kind of work. -/
def double : Settings := { Sample.settings with readerConcurrency := 2, importerConcurrency := 2 }

/-- The server finds the graph locked. -/
def locked : Answer := .reply (.ok (.failure "locked"))

/-- A call that waits goes on until it stops the run. -/
def stopping : List Label := [
  .answer (.caller 1) .go, .answer .stopper .go, .answer .stopper .go, .answer .stopper .go,
  .answer .stopper .go, .answer .stopper .go, .answer .stopper .go,
  .answer .stopper (.client (.ok ())), .answer (.caller 1) .go]

/-- People come first, and everything happens one after the other. -/
def inTurn : List Label := [
  .answer (.job 0) .go, .answer (.job 0) (.source (.ok ())), .answer (.job 0) (.size (.ok 4)),
  .answer (.job 1) .go, .answer (.job 1) (.source (.ok ())), .answer (.job 1) (.size (.ok 3)),
  .call .start, .answer (.caller 0) .go, .answer .starter .go, .answer .starter (.client (.ok ())),
  .answer (.job 0) .go, .answer (.job 0) .go, .answer (.job 0) .go, .answer (.job 0) .ready,
  .answer (.job 0) .ready, .answer (.job 0) (.batch (.batch 4 [["1"], ["2"]])),
  .answer (.job 0) .go, .answer (.job 0) (.batch (.error .eof)),
  .answer (.job 0) (.source (.ok ())), .answer (.task 0) .go, .answer (.task 0) Sample.executed,
  .answer (.task 0) .go, .answer (.task 0) locked, .answer (.task 0) .elapsed,
  .answer (.task 0) locked, .answer (.task 0) .go, .answer (.job 1) .go, .answer (.job 1) .go,
  .answer (.job 1) .go, .answer (.job 1) .ready, .answer (.job 1) (.batch (.batch 2 [])),
  .answer (.job 1) (.batch (.batch 1 [["3"]])), .answer (.job 1) .go,
  .answer (.job 1) (.batch (.error (.failed "places" "gone"))), .answer (.job 1) (.source (.ok ())),
  .answer (.task 1) .go, .answer (.task 1) Sample.executed, .answer (.task 1) .go, .call .wait,
  .answer (.caller 1) .go, .answer (.caller 1) .go]

/-- Places come first, the run is started after a call has begun to wait, and both jobs and both
tasks go on side by side. -/
def sideBySide : List Label := [
  .call .start, .answer (.job 0) .go, .answer (.job 1) .go, .answer (.job 1) (.source (.ok ())),
  .answer (.job 1) (.size (.ok 4)), .answer (.job 0) (.source (.ok ())),
  .answer (.job 0) (.size (.ok 3)), .call .wait, .answer (.caller 1) .go, .answer (.caller 0) .go,
  .answer .starter .go, .answer .starter (.client (.ok ())), .answer (.job 0) .go,
  .answer (.job 0) .go, .answer (.job 1) .go, .answer (.job 1) .go, .answer (.job 1) .go,
  .answer (.job 0) .go, .answer (.job 0) .ready, .answer (.job 1) .ready, .answer (.job 1) .ready,
  .answer (.job 1) (.batch (.batch 4 [["1"], ["2"]])), .answer (.job 0) (.batch (.batch 2 [])),
  .answer (.job 0) (.batch (.batch 1 [["3"]])), .answer (.job 0) .go, .answer (.job 1) .go,
  .answer (.task 1) .go, .answer (.task 0) .go, .answer (.task 1) Sample.executed,
  .answer (.task 1) .go, .answer (.task 1) locked,
  .answer (.job 0) (.batch (.error (.failed "places" "gone"))), .answer (.job 0) (.source (.ok ())),
  .answer (.job 1) (.batch (.error .eof)), .answer (.job 1) (.source (.ok ())),
  .answer (.caller 1) .go, .answer (.task 0) Sample.executed, .answer (.task 0) .go,
  .answer (.task 1) .elapsed, .answer (.task 1) locked, .answer (.task 1) .go]

/-- The state at the end of the first course. -/
def first : State :=
  (goOn reply [people, places] single (.joined single [people, places])
    (inTurn ++ stopping)).getD (.initial single)

/-- The state at the end of the second course. -/
def second : State :=
  (goOn reply [places, people] double (.joined double [places, people])
    (sideBySide ++ stopping)).getD (.initial double)

end Reordered

/-- Both courses have executed each of the two statements twice, and counted the same. -/
theorem same_of_reordered :
    { Reordered.first.stats with startTime := none } =
        { Reordered.second.stats with startTime := none } ∧
      executed Reordered.first.history = executed Reordered.second.history ∧
      executed Reordered.first.history = {"CREATE", "CREATE", "MERGE", "MERGE"} ∧
      Reordered.first.stats.failedRequest = 1 := by
  have hfirst : Course Reordered.reply [Reordered.people, Reordered.places] Reordered.single
      Reordered.first :=
    (course_joined _ _ _).go_on (some_of_possible (by decide +kernel))
  have hsecond : Course Reordered.reply [Reordered.places, Reordered.people] Reordered.double
      Reordered.second :=
    (course_joined _ _ _).go_on (some_of_possible (by decide +kernel))
  obtain ⟨hstats, hexecuted⟩ := same_of_courses hfirst hsecond (.swap _ _ _) rfl
    (by decide +kernel) (by decide +kernel) (by decide +kernel)
  exact ⟨hstats, hexecuted, by decide +kernel, by decide +kernel⟩

/-! ## Times that do not fit -/

namespace Overlong

/-- One of the statements takes as many seconds as there can be, all others take one. -/
def reply (statement : String) : Reply :=
  .ok (.success (if statement == "long" then .ofSecs 18446744073709551615 else .ofSecs 1) .zero)

/-- A source with one record, which is the statement for it. -/
def spec (record : String) (size : Nat) : JobSpec where
  sourceName := record
  importers := [{
    name := "plain", build := fun records => .statement (String.join records.flatten) 1 }]
  size := .ok size
  answers := [.batch size [[record]], .error .eof]

/-- The only reader imports one source after the other. -/
def labels (record other : String) (size otherSize : Nat) : List Label := [
  .answer (.job 0) .go, .answer (.job 0) (.source (.ok ())), .answer (.job 0) (.size (.ok size)),
  .answer (.job 1) .go, .answer (.job 1) (.source (.ok ())),
  .answer (.job 1) (.size (.ok otherSize)), .call .start, .answer (.caller 0) .go,
  .answer .starter .go, .answer .starter (.client (.ok ())), .answer (.job 0) .go,
  .answer (.job 0) .go, .answer (.job 0) .go, .answer (.job 0) .ready,
  .answer (.job 0) (.batch (.batch size [[record]])), .answer (.job 0) .go,
  .answer (.job 0) (.batch (.error .eof)), .answer (.job 0) (.source (.ok ())),
  .answer (.task 0) .go, .answer (.task 0) (.reply (reply record)), .answer (.task 0) .go,
  .answer (.job 1) .go, .answer (.job 1) .go, .answer (.job 1) .go, .answer (.job 1) .ready,
  .answer (.job 1) (.batch (.batch otherSize [[other]])), .answer (.job 1) .go,
  .answer (.job 1) (.batch (.error .eof)), .answer (.job 1) (.source (.ok ())),
  .answer (.task 1) .go, .answer (.task 1) (.reply (reply other)), .call .wait,
  .answer (.caller 1) .go, .answer (.caller 1) .go] ++ Reordered.stopping

/-- The state at the end if the sources are imported in this order. -/
def final (record other : String) (size otherSize : Nat) : State :=
  (goOn reply [spec record size, spec other otherSize] Reordered.single
    (.joined Reordered.single [spec record size, spec other otherSize])
    (labels record other size otherSize)).getD (.initial Reordered.single)

end Overlong

/-- Without a bound on the times it depends on the order of the imports which batch is lost, even if
no reader panics. -/
theorem not_all_same :
    ¬ ∀ (reply : String → Reply) (specs others : List JobSpec) (settings : Settings)
      (s other : State), Course reply specs settings s → Course reply others settings other →
      specs.Perm others →
      (∀ spec ∈ specs, ∀ outcome ∈ spec.answers, outcome.panic? = none) →
      s.stopReturned = true → other.stopReturned = true →
      { s.stats with startTime := none } = { other.stats with startTime := none } ∧
        executed s.history = executed other.history := by
  intro hall
  have hlong : Course Overlong.reply [Overlong.spec "long" 3, Overlong.spec "short" 5]
      Reordered.single (Overlong.final "long" "short" 3 5) :=
    (course_joined _ _ _).go_on (some_of_possible (by decide +kernel))
  have hshort : Course Overlong.reply [Overlong.spec "short" 5, Overlong.spec "long" 3]
      Reordered.single (Overlong.final "short" "long" 5 3) :=
    (course_joined _ _ _).go_on (some_of_possible (by decide +kernel))
  obtain ⟨hstats, -⟩ := hall _ _ _ _ _ _ hlong hshort (.swap _ _ _) (by decide) (by decide +kernel)
    (by decide +kernel)
  have hprocessed := congrArg Stats.processed hstats
  have hdiffer : (Overlong.final "long" "short" 3 5).stats.processed ≠
      (Overlong.final "short" "long" 5 3).stats.processed := by decide +kernel
  exact hdiffer hprocessed

end BulkLoad.Manager
