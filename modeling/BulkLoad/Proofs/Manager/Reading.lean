import BulkLoad.Proofs.Manager.Work
import BulkLoad.Proofs.Reader.Stream

/-!
# How the answers to a job end it

A job asks for a batch again only after an answer with a batch, and any other answer ends it.
`Judged` says how the answers that a job has got bear on where it stands, and holds of every job in
every state (`judged_of_reachable`).
-/

namespace BulkLoad.Manager

/-- The answer to a request of a job for a batch that an event reports. -/
def Event.answer? (n : Nat) : Event → Option BatchOutcome
  | .read job outcome => if job = n then some outcome else none
  | _ => none

/-- The answers to the requests of a job for batches, in order. -/
def answersTo (history : List Event) (n : Nat) : List BatchOutcome :=
  (history.filterMap (Event.answer? n)).reverse

/-- How the job ends, or is about to end when its source has been closed. -/
def JobPoint.verdict? : JobPoint → Option JobEnd
  | .closing result => some (.finished result)
  | .ended result => some result
  | _ => none

/-- How an answer ends the job, if it does. -/
def verdictOf (graph sourceName : String) : BatchOutcome → Option JobEnd
  | .batch _ _ => none
  | .error .eof => some (.finished (.ok ()))
  | .error error => some (.finished (.error (.readBatch graph sourceName error)))
  | .panicked message => some (.panicked message)

/-- What the answers to a job say about it: each but the last was a batch, and the last one decides
how the job ends, unless a run that is being stopped ends it after a batch. -/
structure Judged (graph : String) (cancelled : Bool) (j : Job) (answers : List BatchOutcome) :
    Prop where
  batches : ∀ answer ∈ answers.dropLast, answer.isBatch = true
  verdict : j.point.verdict? = answers.getLast?.bind (verdictOf graph j.sourceName) ∨
    (∀ answer ∈ answers, answer.isBatch = true) ∧
      j.point.verdict? = some (.finished (.ok ())) ∧ cancelled = true

/-- Every job of a state is judged by its answers, and there are no answers to others. -/
def State.AllJudged (graph : String) (s : State) : Prop :=
  ∀ n, match s.jobs[n]? with
    | some j => Judged graph s.cancelled j (answersTo s.history n)
    | none => answersTo s.history n = []

/-! ## What a step does to the answers -/

/-- Reports are no answers. -/
@[simp] theorem answers_to_report (lines : List LogLine) (history : List Event) (n : Nat) :
    answersTo (lines.map .logged ++ history) n = answersTo history n :=
  congrArg List.reverse (filter_map_report (fun _ => rfl) lines history)

/-- The answers to a job are added by its own steps only. -/
theorem answers_of_transition {settings : Settings} {s next : State} {label : Label} {n : Nat}
    (h : Transition settings s label next) (hlabel : label.actor? ≠ some (.job n)) :
    answersTo next.history n = answersTo s.history n := by
  refine congrArg List.reverse (filter_map_of_transition h hlabel ?_)
  intro event hevent
  cases event with
  | read job outcome => exact if_neg fun (hsame : job = n) => hevent (hsame ▸ rfl)
  | _ => rfl

/-- An answer is entered for its job. -/
theorem answers_to_read (n : Nat) (outcome : BatchOutcome) (history : List Event) (k : Nat) :
    answersTo (.read n outcome :: history) k =
      answersTo history k ++ if n = k then [outcome] else [] := by
  simp only [answersTo, List.filterMap_cons, Event.answer?]
  by_cases hk : n = k <;> simp [hk]

/-- What a step of job `n`, which is `j`, does to its answers: none is added and the job ends at
most because the run is being stopped, or one is added and decides whether the job ends. -/
inductive AnswerEffect (graph : String) (s next : State) (n : Nat) (j : Job) : Prop where
  | moves (change : Job → Job) (hjobs : next.jobs = s.jobs.modify n change)
      (hname : (change j).sourceName = j.sourceName)
      (hanswers : ∀ k, answersTo next.history k = answersTo s.history k)
      (hverdict : (change j).point.verdict? = j.point.verdict? ∨
        j.point.verdict? = none ∧ (change j).point.verdict? = some (.finished (.ok ())) ∧
          s.cancelled = true)
  | reads (change : Job → Job) (outcome : BatchOutcome)
      (hjobs : next.jobs = s.jobs.modify n change)
      (hname : (change j).sourceName = j.sourceName) (hpoint : j.point.verdict? = none)
      (hanswers : ∀ k, answersTo next.history k =
        answersTo s.history k ++ if n = k then [outcome] else [])
      (hverdict : (change j).point.verdict? = verdictOf graph j.sourceName outcome ∨
        outcome.isBatch = true ∧ (change j).point.verdict? = some (.finished (.ok ())) ∧
          s.cancelled = true)

section

variable {settings : Settings} {s next : State} {n : Nat} {j : Job}

/-- A job that goes on is not ended, unless the run is being stopped. -/
theorem GoesOn.verdict {importers : List Importer} (h : GoesOn s n j importers next) :
    (∀ k, answersTo next.history k = answersTo s.history k) ∧
      ∃ change : Job → Job, next.jobs = s.jobs.modify n change ∧
        (change j).sourceName = j.sourceName ∧
        ((change j).point.verdict? = none ∨
          (change j).point.verdict? = some (.finished (.ok ())) ∧ s.cancelled = true) := by
  cases h with
  | readying importer rest => exact ⟨fun _ => rfl, _, rfl, rfl, .inl rfl⟩
  | reading hrun => exact ⟨fun _ => rfl, _, rfl, rfl, .inl rfl⟩
  | stopping hstop => exact ⟨fun _ => rfl, _, rfl, rfl, .inr ⟨rfl, hstop⟩⟩

/-- A job that goes on from a point at which it is not ended gets no answer. -/
theorem GoesOn.answer_effect {importers : List Importer} {base : State}
    (h : GoesOn base n j importers next) (hbefore : j.point.verdict? = none)
    (hjobs : base.jobs = s.jobs) (hcancelled : base.cancelled = s.cancelled)
    (hanswers : ∀ k, answersTo base.history k = answersTo s.history k) (graph : String) :
    AnswerEffect graph s next n j := by
  obtain ⟨hsame, change, hchange, hname, hverdict⟩ := h.verdict
  refine .moves change (hjobs ▸ hchange) hname (fun k => (hsame k).trans (hanswers k)) ?_
  rw [hcancelled] at hverdict
  rcases hverdict with hnone | hstop
  · exact .inl (hnone.trans hbefore.symm)
  · exact .inr ⟨hbefore, hstop⟩

/-- Every step of a job has such an effect. -/
theorem JobStep.answer_effect {answer : Answer} (h : JobStep settings s n j answer next) :
    AnswerEffect settings.graphName s next n j := by
  cases h with
  | skipped hpoint | refused hpoint | opening hpoint | opened hpoint | unopened _ hpoint
  | registered _ hpoint | unsized _ hpoint | enqueued hpoint | granted hpoint =>
      exact .moves _ rfl rfl (fun _ => rfl) (.inl (by rw [hpoint]; rfl))
  | unregistered size lines hpoint | dismissed error closed lines hpoint =>
      exact .moves _ rfl rfl (answers_to_report lines s.history) (.inl (by rw [hpoint]; rfl))
  | cancelled hpoint hstop =>
      refine .moves _ rfl rfl (fun _ => rfl) (.inr ⟨?_, rfl, hstop⟩)
      rcases hpoint with hpoint | ⟨importer, rest, hpoint⟩ <;> rw [hpoint] <;> rfl
  | released _ hpoint _ hnext =>
      exact hnext.answer_effect (s := s) (by rw [hpoint]; rfl) rfl rfl (fun _ => rfl) _
  | ready _ _ _ hpoint hnext =>
      exact hnext.answer_effect (s := s) (by rw [hpoint]; rfl) rfl rfl (fun _ => rfl) _
  | submitted batch _ hpoint hmay hopen hnext =>
      exact hnext.answer_effect (s := s) (by rw [hpoint]; rfl) rfl rfl (fun _ => rfl) _
  | rejected batch lines _ hpoint hclosed hnext =>
      exact hnext.answer_effect (s := s) (by rw [hpoint]; rfl) rfl rfl
        (answers_to_report lines s.history) _
  | readNothing units _ hpoint hnext =>
      obtain ⟨hanswers, change, hchange, hname, hverdict⟩ := hnext.verdict
      refine .reads change (.batch units []) hchange hname (by rw [hpoint]; rfl)
        (fun k => (hanswers k).trans (answers_to_read n _ s.history k)) ?_
      exact hverdict.imp_right fun hstop => ⟨rfl, hstop⟩
  | readBatch units records hpoint hsome =>
      exact .reads _ (.batch units records) rfl rfl (by rw [hpoint]; rfl)
        (answers_to_read n _ s.history) (.inl rfl)
  | drained hpoint =>
      exact .reads _ (.error .eof) rfl rfl (by rw [hpoint]; rfl)
        (answers_to_read n _ s.history) (.inl rfl)
  | failed error hpoint hfail =>
      refine .reads _ (.error error) rfl rfl (by rw [hpoint]; rfl)
        (answers_to_read n _ s.history) (.inl ?_)
      cases error with
      | eof => exact absurd rfl hfail
      | skip | failed | source | convert | aborted => rfl
  | lost message hpoint =>
      exact .reads _ (.panicked message) rfl rfl (by rw [hpoint]; rfl)
        (answers_to_read n _ s.history) (.inl rfl)
  | ended result closed lines hpoint =>
      exact .moves _ rfl rfl (answers_to_report lines s.history) (.inl (by rw [hpoint]; rfl))

end

/-! ## Every job is judged by its answers -/

section

variable {settings : Settings} {graph : String} {s next : State} {n : Nat} {j : Job}
  {answers : List BatchOutcome} {cancelled : Bool}

/-- An answer that does not end a job is a batch. -/
theorem batch_of_verdict {sourceName : String} {answer : BatchOutcome}
    (h : verdictOf graph sourceName answer = none) : answer.isBatch = true := by
  cases answer with
  | batch => rfl
  | error error => cases error <;> cases h
  | panicked => cases h

/-- A job that has not ended has got batches only. -/
theorem Judged.all_batches (h : Judged graph cancelled j answers)
    (hpoint : j.point.verdict? = none) : ∀ answer ∈ answers, answer.isBatch = true := by
  rcases h.verdict with hverdict | ⟨-, hended, -⟩
  · rw [hpoint] at hverdict
    rcases List.eq_nil_or_concat answers with rfl | ⟨before, last, rfl⟩
    · exact nofun
    · have hbatches := h.batches
      rw [List.concat_eq_append] at hbatches hverdict ⊢
      rw [List.dropLast_concat] at hbatches
      rw [List.getLast?_concat, Option.bind_some] at hverdict
      intro answer hanswer
      rcases List.mem_append.mp hanswer with hanswer | hanswer
      · exact hbatches answer hanswer
      · rw [List.mem_singleton.mp hanswer]
        exact batch_of_verdict hverdict.symm
  · rw [hpoint] at hended
    cases hended

/-- An answer that is no batch decides how the job ends. -/
theorem Judged.last {answer : BatchOutcome} (h : Judged graph cancelled j (answers ++ [answer]))
    (hanswer : answer.isBatch = false) :
    j.point.verdict? = verdictOf graph j.sourceName answer := by
  rcases h.verdict with hverdict | ⟨hall, -⟩
  · rwa [List.getLast?_concat, Option.bind_some] at hverdict
  · have hbatch := hall answer (List.mem_append_right _ List.mem_cons_self)
    rw [hanswer] at hbatch
    cases hbatch

/-- After batches only, the job goes on, or ends because the run is being stopped. -/
theorem Judged.goes_on {answer : BatchOutcome}
    (h : Judged graph cancelled j (answers ++ [answer])) (hanswer : answer.isBatch = true) :
    j.point.verdict? = none ∨
      j.point.verdict? = some (.finished (.ok ())) ∧ cancelled = true := by
  rcases h.verdict with hverdict | ⟨-, hstop⟩
  · rw [List.getLast?_concat, Option.bind_some] at hverdict
    cases answer with
    | batch => exact .inl hverdict
    | error | panicked => cases hanswer
  · exact .inr hstop

/-- An error other than the end fails the job. -/
theorem verdict_of_error {sourceName : String} {error : ReadError} (heof : error.isEof = false) :
    verdictOf graph sourceName (.error error) =
      some (.finished (.error (.readBatch graph sourceName error))) := by
  cases error with
  | eof => cases heof
  | skip | failed | source | convert | aborted => rfl

/-- What the answers to a job say about it they say also once the run is being stopped. -/
theorem Judged.mono {later : Bool} (h : Judged graph cancelled j answers)
    (hcancelled : cancelled = true → later = true) : Judged graph later j answers :=
  ⟨h.batches, h.verdict.imp_right fun ⟨hall, hended, hstop⟩ => ⟨hall, hended, hcancelled hstop⟩⟩

/-- A job that moves without an answer is judged by those that it has got. -/
theorem Judged.move (h : Judged graph cancelled j answers) {after : Job}
    (hname : after.sourceName = j.sourceName)
    (hverdict : after.point.verdict? = j.point.verdict? ∨
      j.point.verdict? = none ∧ after.point.verdict? = some (.finished (.ok ())) ∧
        cancelled = true) : Judged graph cancelled after answers := by
  refine ⟨h.batches, ?_⟩
  rcases hverdict with hsame | ⟨hnone, hended, hstop⟩
  · rw [hsame, hname]
    exact h.verdict
  · exact .inr ⟨h.all_batches hnone, hended, hstop⟩

/-- A job that gets an answer is judged by it. -/
theorem Judged.read (h : Judged graph cancelled j answers) {after : Job} {outcome : BatchOutcome}
    (hname : after.sourceName = j.sourceName) (hpoint : j.point.verdict? = none)
    (hverdict : after.point.verdict? = verdictOf graph j.sourceName outcome ∨
      outcome.isBatch = true ∧ after.point.verdict? = some (.finished (.ok ())) ∧
        cancelled = true) : Judged graph cancelled after (answers ++ [outcome]) := by
  have hall := h.all_batches hpoint
  refine ⟨by rwa [List.dropLast_concat], ?_⟩
  rw [List.getLast?_concat, Option.bind_some, hname]
  refine hverdict.imp_right fun ⟨hbatch, hended, hstop⟩ => ⟨fun answer hanswer => ?_, hended, hstop⟩
  rcases List.mem_append.mp hanswer with hanswer | hanswer
  · exact hall answer hanswer
  · rwa [List.mem_singleton.mp hanswer]

/-- A step of a job leaves it judged by its answers. -/
theorem AnswerEffect.judged (heffect : AnswerEffect graph s next n j)
    (h : Judged graph s.cancelled j (answersTo s.history n)) :
    ∃ change : Job → Job, next.jobs = s.jobs.modify n change ∧
      Judged graph s.cancelled (change j) (answersTo next.history n) := by
  cases heffect with
  | moves change hjobs hname hanswers hverdict =>
      exact ⟨change, hjobs, hanswers n ▸ h.move hname hverdict⟩
  | reads change outcome hjobs hname hpoint hanswers hverdict =>
      refine ⟨change, hjobs, ?_⟩
      rw [hanswers, if_pos rfl]
      exact h.read hname hpoint hverdict

/-- Every transition leaves the jobs judged by their answers. -/
theorem State.AllJudged.transition {label : Label} (h : s.AllJudged settings.graphName)
    (hstep : Transition settings s label next) : next.AllJudged settings.graphName := by
  intro n
  have hn := h n
  have hcancelled := cancelled_of_transition hstep
  by_cases hlabel : label.actor? = some (.job n)
  · cases hstep with
    | job m j answer _ hj hstep =>
        obtain rfl : m = n := Actor.job.inj (Option.some.inj hlabel)
        rw [hj] at hn
        obtain ⟨change, hjobs, hjudged⟩ := hstep.answer_effect.judged hn
        rw [hjobs, modified_at change hj]
        exact hjudged.mono hcancelled
    | «import» | call | clock | task | start | stop | report | caller => cases hlabel
  · rw [answers_of_transition hstep hlabel]
    rcases job_of_others hstep hlabel with hsame | ⟨hnone, sourceName, importers, hnew⟩
    · rw [hsame]
      split at hn
      · exact hn.mono hcancelled
      · exact hn
    · -- A job that joins has got no answers.
      rw [hnone] at hn
      rw [hnew, hn]
      exact ⟨nofun, .inl rfl⟩

/-- In every reachable state the jobs are judged by their answers. -/
theorem judged_of_reachable (h : Reachable settings s) : s.AllJudged settings.graphName := by
  induction h with
  | initial => exact fun _ => rfl
  | step label h hstep ih => exact ih.transition (transition_of_step hstep)

end

end BulkLoad.Manager
