import BulkLoad.Proofs.Manager.Accounting
import BulkLoad.Proofs.Manager.Holding
import BulkLoad.Proofs.Manager.Runs

/-!
# What a failed import leaves behind

An import fails because the run has been stopped, because its source cannot be opened or sized, or
because the readers were closed while it was sizing its source. `declined_of_run` says what it
leaves: no outstanding units, no task, and no job that will ever read. Its steps change no counter,
with one exception: the size that it has announced stays in the total if the readers are closed by
then (`total_left` is an instance).
-/

namespace BulkLoad.Manager

/-- What an answer to an import adds to the total: the size of its source. -/
def announced : Answer → Nat
  | .size (.ok size) => size
  | _ => 0

/-- Whether an import is failing, or has failed, because the readers were closed. -/
def Job.isRejected (j : Job) : Bool :=
  match j.point, j.answer with
  | .dismissing (.submit _ _ _), _ => true
  | .absent, some (.error (.submit _ _ _)) => true
  | _, _ => false

/-- A step that an import makes along a run: the answer that it gets, and the states before and
after it. -/
def OwnStep (settings : Settings) (labels : List Label) (n : Nat) (answer : Answer)
    (before after : State) : Prop :=
  ∃ past future, labels = past ++ .answer (.job n) answer :: future ∧
    run settings (.initial settings) past = some before ∧
    step settings before (.answer (.job n) answer) = some after

/-- What a step of an import does that is still under way: it adds to the total what is announced,
and nothing to the other counters. Only an answer with a size gets it rejected, and it is registered
otherwise. -/
structure ImportEffect (settings : Settings) (s next : State) (n : Nat) (j : Job)
    (answer : Answer) (change : Job → Job) : Prop where
  jobs : next.jobs = s.jobs.modify n change
  stats : next.stats = s.stats.addTotal (announced answer)
  rejected : (change j).isRejected = true →
    j.isRejected = true ∨ ∃ size, answer = .size (.ok size)
  sized : ∀ size, answer = .size (.ok size) → (change j).answer = some (.ok ()) ∨
    ∃ sourceName closed,
      (change j).point = .dismissing (.submit settings.graphName sourceName closed)

section

variable {settings : Settings} {s next : State} {n : Nat} {j : Job} {labels : List Label}

/-! ## The steps of an import -/

/-- Every step of an import that is still under way has such an effect. -/
theorem JobStep.import_effect {answer : Answer} (h : JobStep settings s n j answer next)
    (hpending : j.point.isPending = true) :
    ∃ change, ImportEffect settings s next n j answer change := by
  have hnothing : s.stats = s.stats.addTotal 0 := s.stats.add_total_zero.symm
  cases h with
  | skipped | refused | opening | opened | unopened | unsized =>
      exact ⟨_, rfl, hnothing, nofun, nofun⟩
  | registered size => exact ⟨_, rfl, rfl, nofun, fun _ _ => .inl rfl⟩
  | unregistered size lines =>
      exact ⟨_, rfl, rfl, fun _ => .inr ⟨size, rfl⟩, fun _ _ => .inr ⟨_, _, rfl⟩⟩
  | dismissed error closed lines hpoint =>
      refine ⟨_, rfl, hnothing, fun hrejected => .inl ?_, nofun⟩
      unfold Job.isRejected
      rw [hpoint]
      cases error with
      | submit => rfl
      | _ => cases hrejected
  | enqueued hpoint | granted hpoint | released _ hpoint | ready _ _ _ hpoint
  | readNothing _ _ hpoint | readBatch _ _ hpoint | drained hpoint | failed _ hpoint
  | lost _ hpoint | submitted _ _ hpoint | rejected _ _ _ hpoint | ended _ _ _ hpoint =>
      rw [hpoint] at hpending
      cases hpending
  | cancelled hpoint =>
      rcases hpoint with hpoint | ⟨importer, rest, hpoint⟩ <;> rw [hpoint] at hpending <;>
        cases hpending

/-- A step moves a job as its import goes on, or leaves it alone. -/
theorem job_of_step {label : Label} (hstep : step settings s label = some next)
    (hj : s.jobs[n]? = some j) :
    ∃ after, next.jobs[n]? = some after ∧ (after = j ∨ JobMove j after) := by
  cases work_step_of_transition (transition_of_step hstep) with
  | «import» =>
      obtain ⟨hlt, -⟩ := List.getElem?_eq_some_iff.mp hj
      exact ⟨j, (List.getElem?_append_left hlt).trans hj, .inl rfl⟩
  | job m other answer _ hother hstep =>
      obtain ⟨change, added, hholding⟩ := hstep.holding
      rw [hholding.jobs]
      by_cases hm : m = n
      · subst hm
        obtain rfl : other = j := Option.some.inj (hother.symm.trans hj)
        exact ⟨change other, modified_at change hj, .inr hholding.move⟩
      · exact ⟨j, (List.getElem?_modify_ne _ _ hm).trans hj, .inl rfl⟩
  | task m t answer _ ht hstep => exact ⟨j, hstep.effect.2.jobs ▸ hj, .inl rfl⟩
  | idle _ _ hjobs => exact ⟨j, hjobs ▸ hj, .inl rfl⟩

/-- What the moves of a job keep holds of it along a run. -/
theorem job_of_run {q : Job → Prop} (hkeep : ∀ {j after : Job}, q j → j.Answered →
      JobMove j after → q after) (h : Reachable settings s) (hj : s.jobs[n]? = some j) (hq : q j)
    (hrun : run settings s labels = some next) :
    ∃ after, next.jobs[n]? = some after ∧ q after := by
  have hkept : Reachable settings next ∧ ∃ after, next.jobs[n]? = some after ∧ q after := by
    refine kept_along_run (p := fun s => Reachable settings s ∧ ∃ j, s.jobs[n]? = some j ∧ q j) ?_
      ⟨h, j, hj, hq⟩ hrun
    rintro s next label ⟨h, j, hj, hq⟩ hstep
    obtain ⟨after, hafter, rfl | hmove⟩ := job_of_step hstep hj
    · exact ⟨h.step label hstep, _, hafter, hq⟩
    · have hanswered := (State.holding_of_reachable h).answered j (List.mem_of_getElem? hj)
      exact ⟨h.step label hstep, after, hafter, hkeep hq hanswered hmove⟩
  exact hkept.2

/-! ## The end of an import -/

/-- A call that has been answered keeps its answer. -/
theorem answer_of_run {result : Result} (h : Reachable settings s) (hj : s.jobs[n]? = some j)
    (hanswer : j.answer = some result) (hrun : run settings s labels = some next) :
    ∃ after, next.jobs[n]? = some after ∧ after.answer = some result := by
  refine job_of_run (q := fun j => j.answer = some result) ?_ h hj hanswer hrun
  intro j after hanswer hanswered hmove
  have hnot (hpending : j.point.isPending = true) : False := by
    rw [Job.Answered, if_pos hpending, hanswer] at hanswered
    cases hanswered
  cases hmove with
  | pends hbefore | declines _ hbefore => exact (hnot hbefore).elim
  | registers hbefore => exact (hnot (by rw [hbefore]; rfl)).elim
  | works _ _ hsame => exact hsame.trans hanswer

/-- An import that is failing with an error fails with it, if it is ever answered. -/
theorem error_of_run {error : ManagerError} (h : Reachable settings s) (hj : s.jobs[n]? = some j)
    (hpoint : j.point = .dismissing error) (hrun : run settings s labels = some next) :
    ∃ after, next.jobs[n]? = some after ∧
      (after.point = .dismissing error ∨
        after.point = .absent ∧ after.answer = some (.error error)) := by
  refine job_of_run (q := fun j => j.point = .dismissing error ∨
    j.point = .absent ∧ j.answer = some (.error error)) ?_ h hj (.inl hpoint) hrun
  rintro j after (hpoint | ⟨hpoint, -⟩) - hmove
  · cases hmove with
    | pends _ hsure => exact absurd hpoint (hsure error)
    | declines result _ hafter hanswer hresult =>
        exact .inr ⟨hafter, hresult error hpoint ▸ hanswer⟩
    | registers hbefore | works hbefore =>
        rw [hpoint] at hbefore
        cases hbefore
  · cases hmove with
    | pends hbefore | declines _ hbefore | registers hbefore | works hbefore =>
        rw [hpoint] at hbefore
        cases hbefore

/-- There is no job after a failed import. -/
theorem absent_of_failed {error : ManagerError} (hanswered : j.Answered)
    (hfailed : j.answer = some (.error error)) : j.point = .absent := by
  unfold Job.Answered at hanswered
  cases hpoint : j.point with
  | absent => rfl
  | begun | opening | sizing | dismissing | spawned | queued | gated | readying | reading
  | submitting | closing | ended =>
      rw [hpoint, hfailed] at hanswered
      cases hanswered

/-- Where there is no job, none comes later. -/
theorem absent_of_run (h : Reachable settings s) (hj : s.jobs[n]? = some j)
    (hpoint : j.point = .absent) (hrun : run settings s labels = some next) :
    ∃ after, next.jobs[n]? = some after ∧ after.point = .absent := by
  refine job_of_run (q := fun j => j.point = .absent) ?_ h hj hpoint hrun
  intro j after hpoint _ hmove
  cases hmove with
  | pends hbefore | declines _ hbefore | registers hbefore | works hbefore =>
      rw [hpoint] at hbefore
      cases hbefore

/-- A step of an import that fails in the end is made while the import is under way. -/
theorem own_step_effect {answer : Answer} {before after : State} {error : ManagerError}
    (hrun : run settings (.initial settings) labels = some s) (hj : s.jobs[n]? = some j)
    (hfailed : j.answer = some (.error error))
    (hown : OwnStep settings labels n answer before after) :
    ∃ (other : Job) (change : Job → Job) (future : List Label),
      Reachable settings after ∧ after.jobs[n]? = some (change other) ∧
        run settings after future = some s ∧
        ImportEffect settings before after n other answer change := by
  obtain ⟨past, future, rfl, hpast, hstep⟩ := hown
  obtain ⟨middle, hmiddle, hfuture⟩ := run_of_append hrun
  obtain rfl : before = middle := Option.some.inj (hpast.symm.trans hmiddle)
  obtain ⟨next, hnext, hlater⟩ := Option.bind_eq_some_iff.mp hfuture
  obtain rfl : after = next := Option.some.inj (hstep.symm.trans hnext)
  have hreachable := reachable_of_run .initial hpast
  cases transition_of_step hstep with
  | job n other answer _ hother hjob =>
      have hpending : other.point.isPending = true := by
        obtain ⟨change, added, hholding⟩ := hjob.holding
        cases hholding.move with
        | pends hbefore | declines _ hbefore => exact hbefore
        | registers hbefore => rw [hbefore]; rfl
        | works hbefore =>
            -- The call of a registered job has been answered without an error.
            have hanswered := (State.holding_of_reachable hreachable).answered other
              (List.mem_of_getElem? hother)
            rw [Job.Answered, if_neg (not_pending_of_registered hbefore), if_pos hbefore]
              at hanswered
            obtain ⟨last, hlast, hok⟩ := answer_of_run hreachable hother hanswered hfuture
            obtain rfl : j = last := Option.some.inj (hj.symm.trans hlast)
            rw [hfailed] at hok
            cases hok
      obtain ⟨change, heffect⟩ := hjob.import_effect hpending
      exact ⟨other, change, future, hreachable.step _ hstep,
        heffect.jobs ▸ modified_at change hother, hlater, heffect⟩

/-- An import that has announced a size and fails was refused by closed readers. -/
theorem submit_of_sized {size : Nat} {before after : State} {error : ManagerError}
    (hrun : run settings (.initial settings) labels = some s) (hj : s.jobs[n]? = some j)
    (hfailed : j.answer = some (.error error))
    (hown : OwnStep settings labels n (.size (.ok size)) before after) :
    ∃ sourceName closed, error = .submit settings.graphName sourceName closed := by
  obtain ⟨other, change, future, hreachable, hafter, hfuture, heffect⟩ :=
    own_step_effect hrun hj hfailed hown
  rcases heffect.sized size rfl with hanswer | ⟨sourceName, closed, hpoint⟩
  · obtain ⟨last, hlast, hok⟩ := answer_of_run hreachable hafter hanswer hfuture
    obtain rfl : j = last := Option.some.inj (hj.symm.trans hlast)
    rw [hfailed] at hok
    cases hok
  · obtain ⟨last, hlast, hend⟩ := error_of_run hreachable hafter hpoint hfuture
    obtain rfl : j = last := Option.some.inj (hj.symm.trans hlast)
    have habsent := absent_of_failed ((State.holding_of_reachable
      (reachable_of_run .initial hrun)).answered j (List.mem_of_getElem? hj)) hfailed
    rcases hend with hpoint | ⟨-, hanswer⟩
    · rw [habsent] at hpoint
      cases hpoint
    · rw [hfailed] at hanswer
      cases hanswer
      exact ⟨sourceName, closed, rfl⟩

/-- Whether there is a job with this number that is rejected. -/
def State.rejects (s : State) (n : Nat) : Bool := (s.jobs[n]?).any Job.isRejected

/-- What is asked of a number is asked of the job that has it. -/
theorem rejects_at (hj : s.jobs[n]? = some j) : s.rejects n = j.isRejected := by
  rw [State.rejects, hj]
  rfl

/-- A registered job is not rejected. -/
theorem not_rejected_of_registered (h : j.point.isRegistered = true) : ¬ j.isRejected = true := by
  unfold Job.isRejected
  cases hpoint : j.point with
  | begun | opening | sizing | dismissing | absent =>
      rw [hpoint] at h
      cases h
  | spawned | queued | gated | readying | reading | submitting | closing | ended => nofun

/-- Only an answer with the size of its source gets an import rejected. -/
theorem sized_of_rejecting {label : Label} (hstep : step settings s label = some next)
    (hbefore : s.rejects n = false) (hafter : next.rejects n = true) :
    ∃ size, label = .answer (.job n) (.size (.ok size)) := by
  have hsame {next : State} (hafter : next.rejects n = true)
      (hjob : next.jobs[n]? = s.jobs[n]?) : False := by
    rw [State.rejects, hjob] at hafter
    rw [State.rejects, hafter] at hbefore
    cases hbefore
  cases work_step_of_transition (transition_of_step hstep) with
  | «import» sourceName importers =>
      by_cases hlt : n < s.jobs.length
      · exact (hsame hafter (List.getElem?_append_left hlt)).elim
      · -- A source that has just come has not been refused.
        obtain ⟨j, hj, hrejected⟩ := (Option.any_eq_true _ _).mp hafter
        rw [List.getElem?_append_right (Nat.not_lt.mp hlt)] at hj
        rw [List.mem_singleton.mp (List.mem_of_getElem? hj)] at hrejected
        cases hrejected
  | job m j answer _ hj hstep =>
      obtain ⟨change, added, hholding⟩ := hstep.holding
      by_cases hm : m = n
      · subst hm
        have hrejected (change : Job → Job) (hjobs : next.jobs = s.jobs.modify m change) :
            (change j).isRejected = true :=
          (rejects_at (hjobs ▸ modified_at change hj)).symm.trans hafter
        have hpending : j.point.isPending = true := by
          cases hholding.move with
          | pends hpending | declines _ hpending => exact hpending
          | registers _ hregistered | works _ hregistered =>
              exact absurd (hrejected change hholding.jobs) (not_rejected_of_registered hregistered)
        obtain ⟨change, heffect⟩ := hstep.import_effect hpending
        rcases heffect.rejected (hrejected change heffect.jobs) with hrejected | ⟨size, hanswer⟩
        · rw [rejects_at hj, hrejected] at hbefore
          cases hbefore
        · exact ⟨size, by rw [hanswer]⟩
      · refine (hsame hafter ?_).elim
        rw [hholding.jobs]
        exact List.getElem?_modify_ne _ _ hm
  | task m t answer _ ht hstep => exact (hsame hafter (by rw [hstep.effect.2.jobs])).elim
  | idle _ _ hjobs => exact (hsame hafter (by rw [hjobs])).elim

/-- An import that fails because the readers were closed has announced a size. -/
theorem sized_of_submit {graph sourceName : String} {closed : PoolClosed}
    (hrun : run settings (.initial settings) labels = some s) (hj : s.jobs[n]? = some j)
    (hfailed : j.answer = some (.error (.submit graph sourceName closed))) :
    ∃ size before after, OwnStep settings labels n (.size (.ok size)) before after := by
  have habsent := absent_of_failed ((State.holding_of_reachable
    (reachable_of_run .initial hrun)).answered j (List.mem_of_getElem? hj)) hfailed
  have hrejects : s.rejects n = true := by
    rw [rejects_at hj, Job.isRejected, habsent, hfailed]
  obtain ⟨past, label, future, before, after, hlabels, hpast, hstep, -, hbefore, hafter⟩ :=
    exists_step_of_run (p := fun s => s.rejects n) rfl hrejects hrun
  obtain ⟨size, rfl⟩ := sized_of_rejecting hstep hbefore hafter
  exact ⟨size, before, after, past, future, hlabels, hpast, hstep⟩

/-- What the tasks of other jobs hold is all that tasks hold if a job has none. -/
theorem held_by_other_tasks {tasks : List (Nat × Task)} (hnone : ∀ entry ∈ tasks, entry.2.job ≠ n)
    (name : String) :
    heldByTasks (tasks.filter fun entry => entry.2.job != n) name = heldByTasks tasks name := by
  congr 1
  exact List.filter_eq_self.mpr fun entry hentry => bne_iff_ne.mpr (hnone entry hentry)

/-- After an import has failed, at any later moment: its own steps have left all counters as they
were, unless the readers were closed after it had announced the size of its source, which then stays
in the total; the counts of all importers are what the other jobs and their tasks hold; and no job
of it ever asks for a batch. -/
theorem declined_of_run {error : ManagerError}
    (hrun : run settings (.initial settings) labels = some s) (hj : s.jobs[n]? = some j)
    (hfailed : j.answer = some (.error error)) :
    ((∀ sourceName closed, error ≠ .submit settings.graphName sourceName closed) →
      ∀ answer before after, OwnStep settings labels n answer before after →
        after.stats = before.stats) ∧
    ((∃ sourceName closed, error = .submit settings.graphName sourceName closed) →
      (∃ size before after, OwnStep settings labels n (.size (.ok size)) before after) ∧
        ∀ answer before after, OwnStep settings labels n answer before after →
          after.stats = before.stats.addTotal (announced answer)) ∧
    (∀ name, s.units.count name = heldByJobs (s.jobs.eraseIdx n) name +
      heldByTasks (s.tasks.filter fun entry => entry.2.job != n) name) ∧
    ∀ later next, run settings s later = some next → .reading n ∉ next.history := by
  have hreachable := reachable_of_run .initial hrun
  have hholding := State.holding_of_reachable hreachable
  have habsent := absent_of_failed (hholding.answered j (List.mem_of_getElem? hj)) hfailed
  have hunregistered : ¬ s.IsRegistered n := by
    rintro ⟨other, hother, hregistered⟩
    obtain rfl : j = other := Option.some.inj (hj.symm.trans hother)
    rw [habsent] at hregistered
    cases hregistered
  have hstats {answer : Answer} {before after : State}
      (hown : OwnStep settings labels n answer before after) :
      after.stats = before.stats.addTotal (announced answer) := by
    obtain ⟨other, change, future, -, -, -, heffect⟩ := own_step_effect hrun hj hfailed hown
    exact heffect.stats
  refine ⟨?_, ?_, ?_, ?_⟩
  · intro hother answer before after hown
    have hnothing : announced answer = 0 := by
      unfold announced
      split
      · obtain ⟨sourceName, closed, herror⟩ := submit_of_sized hrun hj hfailed hown
        exact absurd herror (hother sourceName closed)
      · rfl
    have hadded := hstats hown
    rw [hnothing, Stats.add_total_zero] at hadded
    exact hadded
  · rintro ⟨sourceName, closed, rfl⟩
    exact ⟨sized_of_submit hrun hj hfailed, fun answer before after hown => hstats hown⟩
  · intro name
    have hnone : ∀ entry ∈ s.tasks, entry.2.job ≠ n := by
      intro entry hentry howner
      exact hunregistered (howner ▸ (hholding.owned entry hentry).registered)
    have hheld : j.held name = 0 := by
      rw [Job.held, habsent]
      exact Nat.zero_mul _
    rw [held_by_other_tasks hnone, State.count_of_reachable hreachable, held_by_jobs_erase hj,
      hheld, Nat.zero_add]
  · intro later next hlater hread
    obtain ⟨after, hafter, hend⟩ := absent_of_run hreachable hj habsent hlater
    obtain ⟨other, hother, hregistered⟩ :=
      (State.holding_of_reachable (reachable_of_run hreachable hlater)).read n hread
    obtain rfl : after = other := Option.some.inj (hafter.symm.trans hother)
    rw [hend] at hregistered
    cases hregistered

end

/-! ## Imports that come too late -/

namespace Belated

/-- The importer of both sources. -/
def single : Importer := { name := "single", build := fun _ => .statement "CREATE" 1 }

/-- Two sources are opened. The first cannot be sized, and the run is stopped before the second has
been. -/
def labels : List Label := [
  .import "people" [single], .import "places" [single], .answer (.job 0) .go, .answer (.job 1) .go,
  .answer (.job 0) (.source (.ok ())), .answer (.job 1) (.source (.ok ())),
  .answer (.job 0) (.size (.error (.size "people" "gone"))), .answer (.job 0) (.source (.ok ())),
  .call .stop, .answer (.caller 0) .go, .answer .stopper .go, .answer .stopper .go,
  .answer .stopper .go, .answer .stopper .go, .answer (.caller 0) .go,
  .answer (.job 1) (.size (.ok 8)), .answer (.job 1) (.source (.ok ()))]

/-- The state at the end. -/
def final : State :=
  (run Sample.settings (.initial Sample.settings) labels).getD (.initial Sample.settings)

/-- The run is possible. -/
theorem run_final :
    run Sample.settings (.initial Sample.settings) labels = some final :=
  some_of_possible (by decide +kernel)

/-- How the imports fail. -/
theorem answers :
    final.jobs.map Job.answer = [
      some (.error (.sourceSize "" "people" (.size "people" "gone"))),
      some (.error (.submit "" "places" ⟨"reader"⟩))] := by
  decide +kernel

/-- The job of a source whose import fails. -/
theorem exists_failed {n : Nat} {error : ManagerError}
    (h : (final.jobs.map Job.answer)[n]? = some (some (.error error))) :
    ∃ j, final.jobs[n]? = some j ∧ j.answer = some (.error error) := by
  rw [List.getElem?_map] at h
  exact Option.map_eq_some_iff.mp h

end Belated

/-- The first of the two sources leaves nothing behind. The second leaves no unit and no job that
reads, but a step of it has announced its size. -/
theorem declined_of_belated :
    (∀ answer before after, OwnStep Sample.settings Belated.labels 0 answer before after →
      after.stats = before.stats) ∧
    (∃ size before after,
      OwnStep Sample.settings Belated.labels 1 (.size (.ok size)) before after) ∧
    Belated.final.units.count "single" = 0 ∧
    ∀ later next, run Sample.settings Belated.final later = some next →
      .reading 0 ∉ next.history ∧ .reading 1 ∉ next.history := by
  obtain ⟨first, hfirst, hunsized⟩ :=
    Belated.exists_failed (n := 0) (by rw [Belated.answers]; rfl)
  obtain ⟨second, hsecond, hsubmit⟩ :=
    Belated.exists_failed (n := 1) (by rw [Belated.answers]; rfl)
  obtain ⟨hcalm, -, -, hfirst⟩ := declined_of_run Belated.run_final hfirst hunsized
  obtain ⟨-, hlate, hunits, hsecond⟩ := declined_of_run Belated.run_final hsecond hsubmit
  refine ⟨hcalm nofun, (hlate ⟨_, _, rfl⟩).1, ?_, ?_⟩
  · rw [hunits "single"]
    decide +kernel
  · intro later next hrun
    exact ⟨hfirst later next hrun, hsecond later next hrun⟩

/-- The size of a source stays in the total though its import has failed: the run is stopped while
the source is being sized, the readers are closed when it has been, and nothing else was announced.
-/
theorem total_left :
    run Sample.settings (.initial Sample.settings) Belated.labels = some Belated.final ∧
      Belated.final.jobs.map Job.answer = [
        some (.error (.sourceSize "" "people" (.size "people" "gone"))),
        some (.error (.submit "" "places" ⟨"reader"⟩))] ∧
      (State.initial Sample.settings).stats.total = 0 ∧ Belated.final.stats.total = 8 := by
  exact ⟨Belated.run_final, Belated.answers, rfl, by decide +kernel⟩

end BulkLoad.Manager
