import BulkLoad.Proofs.Manager.ClientPool
import BulkLoad.Proofs.Manager.Declining
import BulkLoad.Proofs.Manager.Delivery
import BulkLoad.Proofs.Manager.Sources

/-!
# Waiting for the end of the import

A call that waits looks at the readers first, then at the importers, and then stops the run. A job
that was registered before any such call was made counts as unfinished work of the readers from the
beginning of the call on, so the call cannot have seen the readers idle before the job was over; and
until then nothing cancels the run (`Due`). The job has therefore ended as the last answer of its
reader says, and not because the run was being stopped (`drained_of_wait`).
-/

namespace BulkLoad.Manager

/-! ## What waiting has seen -/

/-- Whether a call that waits has seen the readers idle, or will when it looks next: they have been
idle more often by now than when the call began. -/
def CallPoint.hasSeenIdle (drains : Nat) : CallPoint → Bool
  | .begun => false
  | .drainingReaders since => since < drains
  | .drainingImporters _ | .awaiting | .returned _ => true

/-- Whether some call that waits has seen the readers idle. -/
def State.SeenIdle (s : State) : Prop :=
  ∃ c ∈ s.calls, c.wish = .wait ∧ c.point.hasSeenIdle s.readers.drains = true

/-- Job `n` is over, and it has ended as the last answer of its reader says. -/
def State.ReadOut (graph : String) (s : State) (n : Nat) : Prop :=
  ∃ j result, s.jobs[n]? = some j ∧ j.point = .ended result ∧
    (answersTo s.history n).getLast?.bind (verdictOf graph j.sourceName) = some result

/-- Nobody calls for the end of the run, job `n` is registered, and it is over before anyone stops
the run or has seen the readers idle. -/
structure State.Due (graph : String) (s : State) (n : Nat) : Prop where
  unstopped : ∀ c ∈ s.calls, c.wish ≠ .stop
  registered : s.IsRegistered n
  inTime : s.ReadOut graph n ∨ s.stopCell = .idle ∧ ¬ s.SeenIdle

section

variable {settings : Settings} {graph : String} {s next : State} {n : Nat} {j : Job}
  {label : Label} {answer : Answer}

/-! ## A job that is over -/

/-- A job that has ended goes nowhere. -/
theorem JobStep.unended (h : JobStep settings s n j answer next) (result : JobEnd) :
    j.point ≠ .ended result := by
  intro hended
  cases h <;> simp_all

/-- A job that is over stays over, and its reader is asked no more. -/
theorem State.ReadOut.transition (h : s.ReadOut graph n)
    (hstep : Transition settings s label next) : next.ReadOut graph n := by
  obtain ⟨j, result, hj, hpoint, hlast⟩ := h
  have hlabel : label.actor? ≠ some (.job n) := by
    intro hlabel
    cases hstep with
    | job m other answer _ hother hstep =>
        obtain rfl : m = n := Actor.job.inj (Option.some.inj hlabel)
        obtain rfl : other = j := Option.some.inj (hother.symm.trans hj)
        exact hstep.unended result hpoint
    | «import» | call | clock | task | start | stop | report | caller => cases hlabel
  have hjob : next.jobs[n]? = some j := by
    rcases job_of_others hstep hlabel with hsame | ⟨hnone, -⟩
    · exact hsame.trans hj
    · rw [hj] at hnone
      cases hnone
  exact ⟨j, result, hjob, hpoint, by rw [answers_of_transition hstep hlabel]; exact hlast⟩

/-- A registered job whose pool of readers has no work is over, and as long as the run has not been
cancelled it has ended as its reader says. -/
theorem read_out_of_empty (h : Reachable settings s) (hregistered : s.IsRegistered n)
    (hidle : s.stopCell = .idle) (hempty : s.readers.tracked = 0) :
    s.ReadOut settings.graphName n := by
  obtain ⟨j, hj, hregistered⟩ := hregistered
  have hdrained := State.drained_of_reachable h
  have huntracked : j.point.isTracked = false := by
    have hcounted := hdrained.jobs
    rw [State.JobsCounted, hempty] at hcounted
    simpa using List.countP_eq_zero.mp hcounted.symm j (List.mem_of_getElem? hj)
  obtain ⟨result, hpoint⟩ : ∃ result, j.point = .ended result := by
    cases hpoint : j.point with
    | ended result => exact ⟨result, rfl⟩
    | begun | opening | sizing | dismissing | absent =>
        rw [hpoint] at hregistered
        cases hregistered
    | spawned | queued | gated | readying | reading | submitting | closing =>
        rw [hpoint] at huntracked
        cases huntracked
  have hrunning : s.cancelled = false := by
    have hphase := hdrained.phase
    rw [hidle] at hphase
    exact hphase.1
  have hjudged := judged_of_reachable h n
  rw [hj] at hjudged
  rcases hjudged.verdict with hverdict | ⟨-, -, hstop⟩
  · rw [hpoint] at hverdict
    exact ⟨j, result, hj, hpoint, hverdict.symm⟩
  · rw [hrunning] at hstop
    cases hstop

/-! ## Until a job is over -/

/-- If no call has seen the readers idle, one can come to see it without looking only where they are
left without work. -/
theorem empty_of_seen_idle (hunseen : ¬ s.SeenIdle)
    (hcalls : ∀ c ∈ next.calls, c.wish = .wait →
      c.point.hasSeenIdle next.readers.drains = true → c ∈ s.calls)
    (hdrains : ∀ since, since < next.readers.drains →
      since < s.readers.drains ∨ next.readers.tracked = 0) (hseen : next.SeenIdle) :
    next.readers.tracked = 0 := by
  obtain ⟨c, hc, hwish, hpoint⟩ := hseen
  have hc := hcalls c hc hwish hpoint
  have hnot (hseen : c.point.hasSeenIdle s.readers.drains = true) : next.readers.tracked = 0 :=
    absurd ⟨c, hc, hwish, hseen⟩ hunseen
  cases hc' : c.point with
  | begun =>
      rw [hc'] at hpoint
      cases hpoint
  | drainingReaders since =>
      rw [hc'] at hpoint
      rcases hdrains since (of_decide_eq_true hpoint) with hsince | hempty
      · exact hnot (by rw [hc']; exact decide_eq_true hsince)
      · exact hempty
  | drainingImporters | awaiting | returned => exact hnot (by rw [hc']; rfl)

/-- A step of a job notes that the readers are idle only when it leaves them without work. -/
theorem JobStep.drains (h : JobStep settings s n j answer next) {since : Nat}
    (hsince : since < next.readers.drains) :
    since < s.readers.drains ∨ next.readers.tracked = 0 := by
  cases h.effect with
  | moves _ _ _ _ _ hdrains | enters _ _ _ _ _ hdrains => exact .inl (hdrains ▸ hsince)
  | leaves _ _ _ _ hreaders =>
      rw [hreaders] at hsince ⊢
      exact WorkerPool.lt_finish hsince
  | submits _ _ _ _ _ _ _ hreaders => exact .inl (hreaders ▸ hsince)

/-- Calling for a body leaves the readers alone. -/
theorem readers_enter (s : State) (k : Nat) (wish : Wish) :
    (s.enter k wish).readers = s.readers := by
  simp only [State.enter]
  split <;> rfl

/-- Calling for a body moves the call and no other. -/
theorem calls_enter (s : State) (k : Nat) (wish : Wish) :
    (s.enter k wish).calls = (s.moveCall k .awaiting).calls := by
  simp only [State.enter]
  split <;> rfl

/-- A call leaves the others where they are. -/
theorem mem_of_moved {k : Nat} {c other : Call} {point : CallPoint} (hc : s.calls[k]? = some c)
    (hother : other ∈ (s.moveCall k point).calls) :
    other = { c with point } ∨ other ∈ s.calls := State.mem_modify hc hother

/-- What a step does to the calls: one joins, one goes on, or none is touched. -/
theorem calls_of_transition (h : Transition settings s label next) :
    next.calls = s.calls ∨
      (∃ wish, label = .call wish ∧ next.calls = s.calls ++ [Call.mk wish .begun]) ∨
      ∃ k c, s.calls[k]? = some c ∧ CallStep s k c next := by
  cases h with
  | «import» | clock => exact .inl rfl
  | call wish => exact .inr (.inl ⟨wish, rfl, rfl⟩)
  | job n j answer _ hj hstep => exact .inl hstep.same_control.calls
  | task n t answer _ ht hstep => exact .inl hstep.effect.1.calls
  | start answer _ hstep => exact .inl hstep.effect.work.calls
  | stop answer _ hstep => exact .inl hstep.effect.work.calls
  | report answer _ hstep => cases hstep with | ticked | ended => exact .inl rfl
  | caller k c _ hc hstep => exact .inr (.inr ⟨k, c, hc, hstep⟩)

/-- A call that goes on is moved to a point. -/
theorem CallStep.moves {k : Nat} {c : Call} (h : CallStep s k c next) :
    ∃ point, next.calls = (s.moveCall k point).calls := by
  cases h with
  | waiting | readersDrained | answered => exact ⟨_, rfl⟩
  | entered | importersDrained => exact ⟨_, calls_enter s k c.wish⟩

/-- What is called for has been called for before, unless it is just now. -/
theorem wish_of_transition (h : Transition settings s label next) {c : Call}
    (hc : c ∈ next.calls) : label = .call c.wish ∨ ∃ other ∈ s.calls, other.wish = c.wish := by
  rcases calls_of_transition h with hsame | ⟨wish, hlabel, hjoined⟩ | ⟨k, other, hother, hstep⟩
  · exact .inr ⟨c, hsame ▸ hc, rfl⟩
  · rcases List.mem_append.mp (hjoined ▸ hc) with hc | hc
    · exact .inr ⟨c, hc, rfl⟩
    · rw [List.mem_singleton.mp hc]
      exact .inl hlabel
  · obtain ⟨point, hcalls⟩ := hstep.moves
    rcases mem_of_moved hother (hcalls ▸ hc) with rfl | hc
    · exact .inr ⟨other, List.mem_of_getElem? hother, rfl⟩
    · exact .inr ⟨c, hc, rfl⟩

/-- Before the run is being stopped, a registered job is over, or nobody has seen the readers idle,
if whoever sees them idle leaves them without work. -/
theorem in_time_of_idle (h : Reachable settings s) (hregistered : s.IsRegistered n)
    (hidle : s.stopCell = .idle) (hseen : s.SeenIdle → s.readers.tracked = 0) :
    s.ReadOut settings.graphName n ∨ s.stopCell = .idle ∧ ¬ s.SeenIdle := by
  by_cases hsees : s.SeenIdle
  · exact .inl (read_out_of_empty h hregistered hidle (hseen hsees))
  · exact .inr ⟨hidle, hsees⟩

/-- A call that goes on leaves the readers without work if it has come to see them idle, and does
not begin to stop the run before that. -/
theorem CallStep.idle {k : Nat} {c : Call} (h : CallStep s k c next) (hc : s.calls[k]? = some c)
    (hidle : s.stopCell = .idle) (hunseen : ¬ s.SeenIdle) (hwish : c.wish ≠ .stop) :
    next.stopCell = .idle ∧ (next.SeenIdle → next.readers.tracked = 0) := by
  have hsees (hwait : c.wish = .wait) : c.point.hasSeenIdle s.readers.drains ≠ true :=
    fun hseen => hunseen ⟨c, List.mem_of_getElem? hc, hwait, hseen⟩
  -- A call that does not wait for the import to end calls for its start.
  have henter (hwait : c.wish ≠ .wait) : (s.enter k c.wish).stopCell = .idle ∧
      ((s.enter k c.wish).SeenIdle → (s.enter k c.wish).readers.tracked = 0) := by
    have hstart : c.wish = .start := by
      cases hc' : c.wish with
      | start => rfl
      | stop => exact absurd hc' hwish
      | wait => exact absurd hc' hwait
    rcases (enter_effect s k c.wish).stopCell with hcell | ⟨hother, -⟩
    · refine ⟨hcell.trans hidle, fun hseen => ?_⟩
      refine empty_of_seen_idle hunseen ?_ ?_ hseen
      · intro other hother hwish' _
        rw [calls_enter] at hother
        rcases mem_of_moved hc hother with rfl | hother
        · exact absurd hwish' hwait
        · exact hother
      · rw [readers_enter]
        exact fun _ hsince => .inl hsince
    · exact absurd hstart hother
  cases h with
  | waiting hpoint hwait =>
      refine ⟨hidle, empty_of_seen_idle hunseen ?_ ?_⟩
      · intro other hother _ hseen
        rcases mem_of_moved hc hother with rfl | hother
        · exact absurd (of_decide_eq_true hseen) (Nat.lt_irrefl _)
        · exact hother
      · intro since hsince
        exact (WorkerPool.lt_watch hsince).imp_right
          ((WorkerPool.watch_tracked s.readers).trans ·)
  | entered hpoint hwait => exact henter hwait
  | readersDrained since hpoint hdrained =>
      refine ⟨hidle, fun hseen => ?_⟩
      rcases WorkerPool.empty_of_has_drained hdrained with hsince | hempty
      · refine empty_of_seen_idle hunseen ?_ (fun _ hsince => .inl hsince) hseen
        intro other hother hwish' _
        rcases mem_of_moved hc hother with rfl | hother
        · exact absurd (by rw [hpoint]; exact decide_eq_true hsince) (hsees hwish')
        · exact hother
      · exact hempty
  | importersDrained since hpoint hdrained =>
      exact henter fun hwait => hsees hwait (by rw [hpoint]; rfl)
  | answered result hpoint hresult =>
      refine ⟨hidle, fun hseen => ?_⟩
      refine empty_of_seen_idle hunseen ?_ (fun _ hsince => .inl hsince) hseen
      intro other hother hwish' _
      rcases mem_of_moved hc hother with rfl | hother
      · exact absurd (by rw [hpoint]; rfl) (hsees hwish')
      · exact hother

/-- Every step but a call for the end of the run leaves a job due. -/
theorem State.Due.transition (h : s.Due settings.graphName n) (hreachable : Reachable settings s)
    (hstep : step settings s label = some next) (hlabel : label ≠ .call .stop) :
    next.Due settings.graphName n := by
  have hnext := hreachable.step label hstep
  have htransition := transition_of_step hstep
  have hregistered : next.IsRegistered n := by
    obtain ⟨j, hj, hregistered⟩ := h.registered
    obtain ⟨after, hafter, rfl | hmove⟩ := job_of_step hstep hj
    · exact ⟨_, hafter, hregistered⟩
    · exact ⟨after, hafter, hmove.registered hregistered⟩
  refine ⟨?_, hregistered, ?_⟩
  · intro c hc hwish
    rcases wish_of_transition htransition hc with hcalled | ⟨other, hother, hsame⟩
    · exact hlabel (hcalled.trans (congrArg _ hwish))
    · exact h.unstopped other hother (hsame.trans hwish)
  rcases h.inTime with hover | ⟨hidle, hunseen⟩
  · exact .inl (hover.transition htransition)
  -- Steps that leave calls and readers alone show nobody anything new.
  have hstill (hcell : next.stopCell = s.stopCell) (hcalls : next.calls = s.calls)
      (hdrains : ∀ since, since < next.readers.drains →
        since < s.readers.drains ∨ next.readers.tracked = 0) :
      next.ReadOut settings.graphName n ∨ next.stopCell = .idle ∧ ¬ next.SeenIdle :=
    in_time_of_idle hnext hregistered (hcell.trans hidle) fun hseen =>
      empty_of_seen_idle hunseen (fun c hc _ _ => hcalls ▸ hc) hdrains hseen
  cases htransition with
  | «import» | clock => exact hstill rfl rfl fun _ hsince => .inl hsince
  | call wish =>
      refine in_time_of_idle hnext hregistered hidle fun hseen =>
        empty_of_seen_idle hunseen ?_ (fun _ hsince => .inl hsince) hseen
      intro c hc _ hpoint
      rcases List.mem_append.mp hc with hc | hc
      · exact hc
      · rw [List.mem_singleton.mp hc] at hpoint
        cases hpoint
  | job m j answer _ hj hstep =>
      exact hstill hstep.same_control.stopCell hstep.same_control.calls fun _ => hstep.drains
  | task m t answer _ ht hstep =>
      obtain ⟨hcontrol, heffect⟩ := hstep.effect
      exact hstill hcontrol.stopCell hcontrol.calls fun _ hsince => .inl (heffect.readers ▸ hsince)
  | start answer _ hstep =>
      refine hstill hstep.effect.stopCell hstep.effect.work.calls fun _ hsince => .inl ?_
      rwa [hstep.uncollected.1] at hsince
  | stop answer _ hstep =>
      obtain ⟨point, hrunning⟩ := hstep.effect.running
      rw [hidle] at hrunning
      cases hrunning
  | report answer _ hstep =>
      cases hstep with
      | ticked | ended => exact hstill rfl rfl fun _ hsince => .inl hsince
  | caller k c _ hc hstep =>
      obtain ⟨hcell, hseen⟩ :=
        hstep.idle hc hidle hunseen (h.unstopped c (List.mem_of_getElem? hc))
      exact in_time_of_idle hnext hregistered hcell hseen

/-! ## Before anyone waits -/

/-- What has been called for in a run is among its labels. -/
theorem wish_of_run {labels : List Label} (hrun : run settings s labels = some next) {c : Call}
    (hc : c ∈ next.calls) : .call c.wish ∈ labels ∨ ∃ other ∈ s.calls, other.wish = c.wish := by
  induction labels generalizing s with
  | nil =>
      cases hrun
      exact .inr ⟨c, hc, rfl⟩
  | cons label labels ih =>
      obtain ⟨middle, hstep, hrun⟩ := Option.bind_eq_some_iff.mp hrun
      rcases ih hrun with hlabels | ⟨other, hother, hwish⟩
      · exact .inl (List.mem_cons_of_mem _ hlabels)
      · rw [← hwish]
        rcases wish_of_transition (transition_of_step hstep) hother with rfl | hbefore
        · exact .inl List.mem_cons_self
        · exact .inr hbefore

/-- A step leaves a job that does not exist, because its import had nothing to do, without
importers. -/
theorem JobStep.skipped_of_ok (h : JobStep settings s n j answer next) :
    ∃ change : Job → Job, next.jobs = s.jobs.modify n change ∧
      ((change j).point = .absent → (change j).answer = some (.ok ()) →
        (change j).importers = []) := by
  have hgoes {base : State} {importers : List Importer} (hnext : GoesOn base n j importers next)
      (hjobs : base.jobs = s.jobs) : ∃ change : Job → Job, next.jobs = s.jobs.modify n change ∧
        ((change j).point = .absent → (change j).answer = some (.ok ()) →
          (change j).importers = []) := by
    obtain ⟨-, -, -, change, hchange, htracked, -⟩ := hnext.effect
    refine ⟨change, hjobs ▸ hchange, fun habsent => ?_⟩
    rw [habsent] at htracked
    cases htracked
  cases h with
  | skipped hpoint hnone => exact ⟨_, rfl, fun _ _ => hnone⟩
  | refused | unopened | dismissed => exact ⟨_, rfl, nofun⟩
  | opening | opened | registered | unregistered | unsized | enqueued | granted | cancelled
  | readBatch | drained | failed | lost | ended => exact ⟨_, rfl, nofun⟩
  | released _ _ _ hnext | ready _ _ _ _ hnext | readNothing _ _ _ hnext
  | submitted _ _ _ _ _ hnext | rejected _ _ _ _ _ hnext => exact hgoes hnext rfl

/-- A source whose import has succeeded without leaving a job has no importers. -/
theorem skipped_of_reachable (h : Reachable settings s) (hj : s.jobs[n]? = some j)
    (habsent : j.point = .absent) (hanswer : j.answer = some (.ok ())) : j.importers = [] := by
  induction h generalizing j with
  | initial => cases hj
  | @step s next label h hstep ih =>
      have htransition := transition_of_step hstep
      by_cases hlabel : label.actor? = some (.job n)
      · cases htransition with
        | job m other answer _ hother hstep =>
            obtain rfl : m = n := Actor.job.inj (Option.some.inj hlabel)
            obtain ⟨change, hjobs, hempty⟩ := hstep.skipped_of_ok
            rw [hjobs, modified_at change hother] at hj
            cases hj
            exact hempty habsent hanswer
        | «import» | call | clock | task | start | stop | report | caller => cases hlabel
      · rcases job_of_others htransition hlabel with hsame | ⟨-, sourceName, importers, hnew⟩
        · exact ih (hsame ▸ hj) habsent hanswer
        · rw [hnew] at hj
          cases hj
          cases habsent

/-- An import that has succeeded with importers has left a registered job. -/
theorem registered_of_imported (h : Reachable settings s) (hj : s.jobs[n]? = some j)
    (hsome : j.importers ≠ []) (hanswer : j.answer = some (.ok ())) : s.IsRegistered n := by
  have hanswered := (State.holding_of_reachable h).answered j (List.mem_of_getElem? hj)
  refine ⟨j, hj, ?_⟩
  cases hpoint : j.point with
  | spawned | queued | gated | readying | reading | submitting | closing | ended => rfl
  | absent => exact absurd (skipped_of_reachable h hj hpoint hanswer) hsome
  | begun | opening | sizing | dismissing =>
      rw [Job.Answered, if_pos (by rw [hpoint]; rfl), hanswer] at hanswered
      cases hanswered

/-- A registered job is due before anyone has called for the end of the run. -/
theorem due_of_unasked (hregistered : s.IsRegistered n) (hidle : s.stopCell = .idle)
    (hasked : ∀ c ∈ s.calls, c.wish = .start) : s.Due graph n := by
  refine ⟨fun c hc hwish => ?_, hregistered, .inr ⟨hidle, ?_⟩⟩
  · rw [hasked c hc] at hwish
    cases hwish
  · rintro ⟨c, hc, hwish, -⟩
    rw [hasked c hc] at hwish
    cases hwish

/-! ## After waiting -/

/-- A job stays due along a run in which nobody calls for its end but by waiting. -/
theorem due_of_run {labels : List Label} (h : s.Due settings.graphName n)
    (hreachable : Reachable settings s) (hstop : .call .stop ∉ labels)
    (hrun : run settings s labels = some next) : next.Due settings.graphName n := by
  have hkeeps {s next : State} {label : Label} (hlabel : label ∈ labels)
      (hs : Reachable settings s ∧ s.Due settings.graphName n)
      (hstep : step settings s label = some next) :
      Reachable settings next ∧ next.Due settings.graphName n := by
    obtain ⟨hreachable, hdue⟩ := hs
    refine ⟨hreachable.step label hstep, hdue.transition hreachable hstep ?_⟩
    rintro rfl
    exact hstop hlabel
  exact (Steps.keeps hkeeps ⟨hreachable, h⟩ hrun).2

/-- A job that is due is over once a call that waits has returned. -/
theorem State.Due.over (h : s.Due settings.graphName n) (hreachable : Reachable settings s)
    (hreturned : s.stopReturned = true) : s.ReadOut settings.graphName n := by
  obtain ⟨result, hdone⟩ := (State.drained_of_reachable hreachable).done_of_returned hreturned
  rcases h.inTime with hover | ⟨hidle, -⟩
  · exact hover
  · rw [hidle] at hdone
    cases hdone

/-- A job that has ended as its reader says has read out its source, if the reader did not panic:
it has ended well at the end of the source, and otherwise failed with the error of the last read. -/
theorem exhausted_of_read_out {result : JobEnd}
    (hlast : (answersTo s.history n).getLast?.bind (verdictOf graph j.sourceName) = some result)
    (hcalm : ∀ answer ∈ answersTo s.history n, answer.panic? = none) :
    ∃ error, (answersTo s.history n).getLast? = some (.error error) ∧
      result = .finished (if error = .eof then .ok ()
        else .error (.readBatch graph j.sourceName error)) := by
  obtain ⟨answer, hanswer, hverdict⟩ := Option.bind_eq_some_iff.mp hlast
  cases answer with
  | batch => cases hverdict
  | panicked message => cases hcalm _ (List.mem_of_getLast? hanswer)
  | error error =>
      refine ⟨error, hanswer, ?_⟩
      by_cases heof : error = .eof
      · subst heof
        cases hverdict
        rfl
      · rw [verdictOf] at hverdict
        · cases hverdict
          rw [if_neg heof]
        · exact heof

/-- Let a source have been imported successfully when a call begins to wait, and let nobody else
have called for the end of the run before that, or call for it but by waiting. Once the call has
returned, the job of the source has ended at the end of its source or with the error of its last
read, every batch with records that it read has been handed to a task, all these tasks are over, and
its source has been closed. -/
theorem drained_of_wait {past future : List Label} {before : State}
    (hpast : run settings (.initial settings) past = some before)
    (hrun : run settings before (.call .wait :: future) = some s)
    (hstop : .call .stop ∉ past ++ future) (hwait : .call .wait ∉ past)
    (hj : before.jobs[n]? = some j) (hsome : j.importers ≠ []) (hanswer : j.answer = some (.ok ()))
    (hreturned : s.stopReturned = true)
    (hcalm : ∀ answer ∈ answersTo s.history n, answer.panic? = none) :
    ∃ after error, s.jobs[n]? = some after ∧
      (answersTo s.history n).getLast? = some (.error error) ∧
      after.point = .ended (.finished (if error = .eof then .ok ()
        else .error (.readBatch settings.graphName after.sourceName error))) ∧
      (Journal.of s.history).batchesSubmitted n = (Journal.of s.history).batchesRead n ∧
      (∀ submission ∈ (Journal.of s.history).submissionsOf n,
        s.tasks.lookup submission.task = none ∧
        ((Journal.of s.history).Calm → submission ∈ settledIn s.history)) ∧
      sourceOf s.history n = [.opening, .opened, .closing] := by
  have hbefore : Reachable settings before := reachable_of_run .initial hpast
  have hafter : Reachable settings s := reachable_of_run hbefore hrun
  have hasked : ∀ c ∈ before.calls, c.wish = .start := by
    intro c hc
    have hlabel : .call c.wish ∈ past := (wish_of_run hpast hc).resolve_right nofun
    cases hwish : c.wish with
    | start => rfl
    | stop => exact absurd (List.mem_append_left _ (hwish ▸ hlabel)) hstop
    | wait => exact absurd (hwish ▸ hlabel) hwait
  have hdue : before.Due settings.graphName n :=
    due_of_unasked (registered_of_imported hbefore hj hsome hanswer)
      (stop_idle_of_reachable hbefore hasked) hasked
  have hlabels : .call .stop ∉ .call .wait :: future := by
    intro hmem
    rcases List.mem_cons.mp hmem with hwish | hmem
    · cases hwish
    · exact hstop (List.mem_append_right _ hmem)
  obtain ⟨after, result, hafterJob, hpoint, hlast⟩ :=
    (due_of_run hdue hbefore hlabels hrun).over hafter hreturned
  obtain ⟨error, herror, rfl⟩ := exhausted_of_read_out hlast hcalm
  obtain ⟨hheld, -⟩ := ledger_of_stopped hafter hreturned
  refine ⟨after, error, hafterJob, herror, hpoint, ?_, ?_, ?_⟩
  · have hhanded := (sound_of_reachable hafter).handed n
    rw [hheld n, Option.toList_none, List.append_nil] at hhanded
    exact hhanded.symm
  · intro submission hsubmission
    have hmem := (List.mem_filter.mp hsubmission).1
    refine ⟨?_, fun hcalm => ?_⟩
    · rw [((State.drained_of_reachable hafter).over hreturned).2]
      rfl
    · obtain ⟨owner, -, hfate⟩ := fate_of_stopped hafter hreturned hmem
      have hsettled := hfate.settled_of_calm
        (fun i hi => hcalm.unpanicked i (List.mem_filter.mp hi).1) hcalm.latency_le
        hcalm.respTime_le
      exact mem_settled_in.mpr ⟨hmem, hsettled.1⟩
  · rw [source_of_reachable hafter n, hafterJob]
    simp only [Option.elim_some, Job.source, hpoint]

end

/-! ## A call that waits before the start -/

namespace Waited

/-- There is one reader, so that the second job waits for the first. -/
def settings : Settings := { Sample.settings with readerConcurrency := 1 }

/-- Two sources are imported before anyone waits. -/
def past : List Label := [
  .import "people" Sample.importers, .import "places" Sample.importers, .answer (.job 0) .go,
  .answer (.job 1) .go, .answer (.job 0) (.source (.ok ())), .answer (.job 1) (.source (.ok ())),
  .answer (.job 0) (.size (.ok 4)), .answer (.job 1) (.size (.ok 4))]

/-- The run is started after the call has begun to wait, another source is imported meanwhile, and
the source of the second job breaks off. -/
def future : List Label := [
  .answer (.caller 0) .go, .call .start, .answer (.caller 1) .go, .answer .starter .go,
  .answer .starter (.client (.ok ())), .import "late" Sample.importers, .answer (.job 2) .go,
  .answer (.job 0) .go, .answer (.job 0) .go, .answer (.job 0) .go, .answer (.job 0) .ready,
  .answer (.job 0) .ready, .answer (.job 0) (.batch (.batch 4 [["1"]])), .answer (.job 0) .go,
  .answer (.job 0) (.batch (.error .eof)), .answer (.job 0) (.source (.ok ())),
  .answer (.job 1) .go, .answer (.job 1) .go, .answer (.job 1) .go, .answer (.job 1) .ready,
  .answer (.job 1) .ready, .answer (.job 1) (.batch (.error (.failed "places" "gone"))),
  .answer (.job 1) (.source (.ok ())), .answer (.caller 0) .go, .answer (.task 0) .go,
  .answer (.task 0) Sample.executed, .answer (.task 0) .go, .answer (.task 0) Sample.executed,
  .answer (.task 0) .go, .answer (.caller 0) .go, .answer .stopper .go, .answer .stopper .go,
  .answer .stopper .go, .answer .stopper .go, .answer .stopper .go, .answer .stopper .go,
  .answer .stopper (.client (.ok ())), .answer (.caller 0) .go]

/-- The state in which the call is made. -/
def before : State := (run settings (.initial settings) past).getD (.initial settings)

/-- The state in which the call has returned. -/
def final : State :=
  (run settings before (.call .wait :: future)).getD (.initial settings)

end Waited

/-- The second job has ended with the error that its reader met after the call had begun. -/
theorem drained_of_waited :
    sourceOf Waited.final.history 1 = [.opening, .opened, .closing] ∧
      ∃ after, Waited.final.jobs[1]? = some after ∧
        after.point = .ended (.finished (.error (.readBatch "" after.sourceName
          (.failed "places" "gone")))) := by
  have hpast : run Waited.settings (.initial Waited.settings) Waited.past = some Waited.before :=
    some_of_possible (by decide +kernel)
  have hrun : run Waited.settings Waited.before (.call .wait :: Waited.future) =
      some Waited.final := some_of_possible (by decide +kernel)
  obtain ⟨j, hj⟩ : ∃ j, Waited.before.jobs[1]? = some j :=
    Option.isSome_iff_exists.mp (by decide +kernel)
  have hsome : (Waited.before.jobs[1]?.map fun j => j.importers.isEmpty) = some false := by
    decide +kernel
  have hanswer : Waited.before.jobs[1]?.bind Job.answer = some (.ok ()) := by decide +kernel
  rw [hj] at hsome hanswer
  obtain ⟨after, error, hafter, hlast, hpoint, -, -, hsource⟩ :=
    drained_of_wait hpast hrun (by simp [Waited.past, Waited.future]) (by simp [Waited.past]) hj
      (by simpa using hsome) hanswer (by decide +kernel) (by decide +kernel)
  have herror : (answersTo Waited.final.history 1).getLast? =
      some (.error (.failed "places" "gone")) := by decide +kernel
  obtain rfl : error = .failed "places" "gone" := by
    rw [herror] at hlast
    cases hlast
    rfl
  exact ⟨hsource, after, hafter, hpoint⟩

end BulkLoad.Manager
