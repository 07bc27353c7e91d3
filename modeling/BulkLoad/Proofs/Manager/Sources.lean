import BulkLoad.Proofs.Manager.Collecting
import BulkLoad.Proofs.Manager.Declining
import BulkLoad.Proofs.Manager.Growth
import BulkLoad.Proofs.Manager.Reading

/-!
# Opening and closing a source

A source is closed by the call that imports it, if it cannot be sized or its job is refused, or by
its job when the read loop has ended. If its reader panics, nobody closes it. How far the source has
come is a function of where its job stands (`source_of_reachable`). Hence, without such a panic, a
source that has been opened is closed exactly once, and one that could not be opened is never closed
(`closed_once_of_reachable`).
-/

namespace BulkLoad.Manager

/-- What happens to a source. -/
inductive SourceEvent where
  | opening
  | opened
  | closing
deriving DecidableEq

/-- What an event tells of the source of job `n`. -/
def Event.source? (n : Nat) : Event → Option SourceEvent
  | .sourceOpening job => if job = n then some .opening else none
  | .sourceOpened job => if job = n then some .opened else none
  | .sourceClosing job => if job = n then some .closing else none
  | _ => none

/-- What has happened to the source of job `n`, in order. -/
def sourceOf (history : List Event) (n : Nat) : List SourceEvent :=
  (history.filterMap (Event.source? n)).reverse

/-- What has happened to a source when its import fails with an error. A source that has been opened
but could not be sized or registered is closed again. -/
def sourceOfError : ManagerError → List SourceEvent
  | .openSource .. => [.opening]
  | .sourceSize .. | .submit .. => [.opening, .opened, .closing]
  | _ => []

/-- What has happened to the source of a job by the point at which the job stands, and by the answer
to its import if there is no job. -/
def Job.source (j : Job) : List SourceEvent :=
  match j.point with
  | .begun => []
  | .opening => [.opening]
  | .sizing | .spawned | .queued | .gated | .readying .. | .reading | .submitting _
  | .ended (.panicked _) => [.opening, .opened]
  | .dismissing error => sourceOfError error
  | .closing _ | .ended (.finished _) => [.opening, .opened, .closing]
  | .absent =>
      match j.answer with
      | some (.error error) => sourceOfError error
      | _ => []

section

variable {settings : Settings} {s next base : State} {n : Nat} {j : Job} {answer : Answer}

/-! ## What the steps of a job do to its source -/

/-- Reports tell of no source. -/
theorem source_of_report (lines : List LogLine) (history : List Event) (n : Nat) :
    sourceOf (lines.map .logged ++ history) n = sourceOf history n :=
  congrArg List.reverse (filter_map_report (fun _ => rfl) lines history)

/-- What happens to the source of job `n` comes after what has happened to it before. -/
theorem source_of_cons {event : Event} {happens : SourceEvent}
    (hevent : event.source? n = some happens) (history : List Event) :
    sourceOf (event :: history) n = sourceOf history n ++ [happens] := by
  rw [sourceOf, List.filterMap_cons_some hevent, List.reverse_cons]
  rfl

/-- The source of a job is closed next. -/
theorem source_of_closing (history : List Event) (n : Nat) :
    sourceOf (.sourceClosing n :: history) n = sourceOf history n ++ [.closing] := by
  have hclosing : (Event.sourceClosing n).source? n = some .closing := if_pos rfl
  exact source_of_cons hclosing history

/-- The source of a job that goes on is closed only if the job ends. -/
theorem GoesOn.source {importers : List Importer} (h : GoesOn base n j importers next)
    (hjobs : base.jobs = s.jobs) (hsource : sourceOf base.history n = [.opening, .opened]) :
    ∃ change : Job → Job, next.jobs = s.jobs.modify n change ∧
      sourceOf next.history n = (change j).source := by
  cases h with
  | readying | reading => exact ⟨_, congrArg (List.modify · n _) hjobs, hsource⟩
  | stopping =>
      refine ⟨_, congrArg (List.modify · n _) hjobs, ?_⟩
      exact (source_of_closing base.history n).trans (by rw [hsource]; rfl)

/-- A step of a job does to its source what the point at which it arrives says. -/
theorem JobStep.source (h : JobStep settings s n j answer next)
    (hsource : sourceOf s.history n = j.source) :
    ∃ change : Job → Job, next.jobs = s.jobs.modify n change ∧
      sourceOf next.history n = (change j).source := by
  have hopened {point : JobPoint} (hpoint : j.point = point)
      (hopen : ({ j with point } : Job).source = [.opening, .opened]) :
      sourceOf s.history n = [.opening, .opened] := by
    rw [hsource, ← hopen, ← hpoint]
  have hclosed {history : List Event} (hopen : sourceOf history n = [.opening, .opened]) :
      sourceOf (.sourceClosing n :: history) n = [.opening, .opened, .closing] := by
    rw [source_of_closing, hopen]
    rfl
  have hreported (lines : List LogLine) {calls : List SourceEvent}
      (hcalls : sourceOf s.history n = calls) :
      sourceOf (lines.map .logged ++ s.history) n = calls :=
    (source_of_report lines s.history n).trans hcalls
  cases h with
  | skipped hpoint | refused hpoint =>
      exact ⟨_, rfl, hsource.trans (by rw [Job.source, hpoint]; rfl)⟩
  | opening hpoint =>
      have hopening : (Event.sourceOpening n).source? n = some .opening := if_pos rfl
      refine ⟨_, rfl, (source_of_cons hopening s.history).trans ?_⟩
      rw [hsource, Job.source, hpoint]
      rfl
  | opened hpoint =>
      have hopens : (Event.sourceOpened n).source? n = some .opened := if_pos rfl
      refine ⟨_, rfl, (source_of_cons hopens s.history).trans ?_⟩
      rw [hsource, Job.source, hpoint]
      rfl
  | unopened error hpoint => exact ⟨_, rfl, hsource.trans (by rw [Job.source, hpoint]; rfl)⟩
  | registered _ hpoint | enqueued hpoint | granted hpoint | readBatch _ _ hpoint | lost _ hpoint =>
      exact ⟨_, rfl, hopened hpoint rfl⟩
  | unregistered _ lines hpoint => exact ⟨_, rfl, hclosed (hreported lines (hopened hpoint rfl))⟩
  | unsized _ hpoint | drained hpoint | failed _ hpoint =>
      exact ⟨_, rfl, hclosed (hopened hpoint rfl)⟩
  | dismissed error closed lines hpoint =>
      refine ⟨_, rfl, hreported lines (hsource.trans ?_)⟩
      rw [Job.source, hpoint]
      rfl
  | cancelled hpoint =>
      refine ⟨_, rfl, hclosed ?_⟩
      rcases hpoint with hpoint | ⟨importer, rest, hpoint⟩ <;> exact hopened hpoint rfl
  | ended result closed lines hpoint =>
      refine ⟨_, rfl, hreported lines (hsource.trans ?_)⟩
      rw [Job.source, hpoint]
      rfl
  | released _ hpoint _ hnext | ready _ _ _ hpoint hnext | readNothing _ _ hpoint hnext
  | submitted _ _ hpoint _ _ hnext => exact hnext.source rfl (hopened hpoint rfl)
  | rejected _ lines _ hpoint _ hnext =>
      exact hnext.source rfl (hreported lines (hopened hpoint rfl))

/-! ## The sources of every state -/

/-- What has happened to the source of each job is what the job says, and where there is no job
nothing has happened. -/
def State.AllSourced (s : State) : Prop :=
  ∀ n, sourceOf s.history n = (s.jobs[n]?).elim [] Job.source

/-- Every transition keeps it so. -/
theorem State.AllSourced.transition {label : Label} (h : s.AllSourced)
    (hstep : Transition settings s label next) : next.AllSourced := by
  intro n
  by_cases hlabel : label.actor? = some (.job n)
  · cases hstep with
    | job m j _ _ hj hstep =>
        obtain rfl : m = n := Actor.job.inj (Option.some.inj hlabel)
        have hn := h m
        rw [hj] at hn
        obtain ⟨change, hjobs, hsource⟩ := hstep.source hn
        rw [hjobs, modified_at change hj]
        exact hsource
    | «import» | call | clock | task | start | stop | report | caller => cases hlabel
  · have hsource : sourceOf next.history n = sourceOf s.history n := by
      refine congrArg List.reverse (filter_map_of_transition hstep hlabel ?_)
      intro event hevent
      have hne {m : Nat} (hm : some (Actor.job m) ≠ some (.job n)) : ¬ m = n :=
        fun hsame => hm (hsame ▸ rfl)
      cases event with
      | sourceOpening | sourceOpened | sourceClosing => exact if_neg (hne hevent)
      | _ => rfl
    rw [hsource, h n]
    rcases job_of_others hstep hlabel with hsame | ⟨hnone, sourceName, importers, hnew⟩
    · rw [hsame]
    · rw [hnone, hnew]
      rfl

/-- What has happened to a source is told by its job in every reachable state. -/
theorem source_of_reachable (h : Reachable settings s) : s.AllSourced := by
  induction h with
  | initial => exact fun _ => rfl
  | step label _ hstep ih => exact ih.transition (transition_of_step hstep)

/-! ## What a job tells of its source -/

/-- A source whose import has failed has not been opened, or has been closed again. -/
theorem source_of_error_cases (error : ManagerError) :
    sourceOfError error = [] ∨ sourceOfError error = [.opening] ∨
      sourceOfError error = [.opening, .opened, .closing] := by
  cases error with
  | openSource => exact .inr (.inl rfl)
  | sourceSize | submit => exact .inr (.inr rfl)
  | _ => exact .inl rfl

/-- A source goes through opening, opened and closing, as far as it comes. -/
theorem source_stages (j : Job) : j.source <+: [.opening, .opened, .closing] := by
  have herror (error : ManagerError) : sourceOfError error <+: [.opening, .opened, .closing] := by
    rcases source_of_error_cases error with hsource | hsource | hsource <;> rw [hsource] <;> decide
  unfold Job.source
  cases j.point with
  | begun => exact List.nil_prefix
  | opening => exact ⟨[.opened, .closing], rfl⟩
  | sizing | spawned | queued | gated | readying | reading | submitting => exact ⟨[.closing], rfl⟩
  | closing => exact ⟨[], rfl⟩
  | ended result =>
      cases result with
      | finished => exact ⟨[], rfl⟩
      | panicked => exact ⟨[.closing], rfl⟩
  | dismissing error => exact herror error
  | absent =>
      match j.answer with
      | some (.error error) => exact herror error
      | some (.ok ()) | none => exact List.nil_prefix

/-- A source that has been opened by an import that left no job has been closed again. -/
theorem closed_of_absent (hpoint : j.point = .absent) (hopened : .opened ∈ j.source) :
    j.source = [.opening, .opened, .closing] := by
  rw [Job.source, hpoint] at hopened ⊢
  match hanswer : j.answer with
  | some (.error error) =>
      have hopened : .opened ∈ sourceOfError error := by rwa [hanswer] at hopened
      rcases source_of_error_cases error with hsource | hsource | hsource
      · rw [hsource] at hopened
        exact absurd hopened (by decide)
      · rw [hsource] at hopened
        exact absurd hopened (by decide)
      · exact hsource
  | some (.ok ()) | none =>
      rw [hanswer] at hopened
      cases hopened

/-- A job that has ended in a panic has got one as the last answer. -/
theorem Judged.panicked {graph : String} {cancelled : Bool} {answers : List BatchOutcome}
    (h : Judged graph cancelled j answers) {message : String}
    (hpoint : j.point = .ended (.panicked message)) : .panicked message ∈ answers := by
  have hverdict := h.verdict
  rw [hpoint] at hverdict
  rcases hverdict with hlast | ⟨-, hended, -⟩
  · obtain ⟨answer, hanswer, hjudged⟩ := Option.bind_eq_some_iff.mp hlast.symm
    refine List.mem_of_getLast? (hanswer.trans (congrArg some ?_))
    cases answer with
    | batch => cases hjudged
    | panicked => cases hjudged; rfl
    | error error => cases error <;> cases hjudged
  · cases hended

/-- A source is closed only after it has been opened, and only once. One that could not be opened is
not closed. Once the call that imports a source and a call that stops the run have both returned, a
source that has been opened has been closed, unless its reader has panicked. -/
theorem closed_once_of_reachable (h : Reachable settings s) (hj : s.jobs[n]? = some j) :
    sourceOf s.history n <+: [.opening, .opened, .closing] ∧
      (∀ graph sourceName error,
        j.answer = some (.error (.openSource graph sourceName error)) →
          sourceOf s.history n = [.opening]) ∧
      ((∀ answer ∈ answersTo s.history n, answer.panic? = none) →
        j.answer ≠ none → s.stopReturned = true → .opened ∈ sourceOf s.history n →
          sourceOf s.history n = [.opening, .opened, .closing]) := by
  have hsource : sourceOf s.history n = j.source := by
    rw [source_of_reachable h n, hj]
    rfl
  have hanswered := (State.holding_of_reachable h).answered j (List.mem_of_getElem? hj)
  rw [hsource]
  refine ⟨source_stages j, ?_, ?_⟩
  · intro graph sourceName error hfailed
    rw [Job.source, absent_of_failed hanswered hfailed, hfailed]
    rfl
  · intro hcalm hreturned hstopped hopened
    unfold Job.Answered at hanswered
    cases hpending : j.point.isPending with
    | true =>
        rw [if_pos hpending] at hanswered
        exact absurd hanswered hreturned
    | false =>
        cases hregistered : j.point.isRegistered with
        | true =>
            obtain ⟨result, hpoint⟩ := ended_of_returned h hstopped hj hregistered
            cases result with
            | finished result => rw [Job.source, hpoint]
            | panicked message =>
                have hjudged := judged_of_reachable h n
                rw [hj] at hjudged
                cases hcalm _ (hjudged.panicked hpoint)
        | false =>
            refine closed_of_absent ?_ hopened
            cases hpoint : j.point with
            | absent => rfl
            | begun | opening | sizing | dismissing => rw [hpoint] at hpending; cases hpending
            | spawned | queued | gated | readying | reading | submitting | closing | ended =>
                rw [hpoint] at hregistered
                cases hregistered

/-- The source of the sample has been opened and closed. -/
theorem source_of_sample : sourceOf Sample.final.history 0 = [.opening, .opened, .closing] := by
  obtain ⟨result, hresult⟩ : ∃ result, (Sample.final.jobs[0]?.bind Job.answer) = some result :=
    Option.isSome_iff_exists.mp (by decide +kernel)
  obtain ⟨j, hj, hanswer⟩ := Option.bind_eq_some_iff.mp hresult
  obtain ⟨-, -, hclosed⟩ := closed_once_of_reachable Sample.reachable_final hj
  exact hclosed (by decide +kernel) (by rw [hanswer]; nofun) (by decide +kernel) (by decide +kernel)

end

end BulkLoad.Manager
