import BulkLoad.Proofs.Manager.Accounting
import BulkLoad.Proofs.Manager.Reading
import BulkLoad.Proofs.Manager.Runs

/-!
# No read begins after the cancellation

A job waits in many places, and in some of them it may go on although the run is being stopped. But
it asks for a batch in one way only, and looks at the cancellation before it does. `Requested` says
that a job has got an answer to each of its requests but the one that it waits for; it holds in
every state (`requested_of_reachable`). A step after the cancellation adds no request
(`asks_nothing_of_transition`), so a job that reads at the cancellation gets the answer to that
request, and no job gets another (`reads_after_cancellation`).
-/

namespace BulkLoad.Manager

/-- Whether a job at this point waits for a batch. -/
def JobPoint.isReading : JobPoint → Bool
  | .reading => true
  | .begun | .opening | .sizing | .dismissing _ | .absent | .spawned | .queued | .gated
  | .readying _ _ | .submitting _ | .closing _ | .ended _ => false

/-- Whether there is such a job and it waits for a batch. -/
def State.isReading (s : State) (n : Nat) : Bool := (s.jobs[n]?).any fun j => j.point.isReading

/-- The request of a job for a batch that an event reports. -/
def Event.request? (n : Nat) : Event → Option Unit
  | .reading job => if job = n then some () else none
  | _ => none

/-- How often a job has asked for a batch. -/
def requestsOf (history : List Event) (n : Nat) : Nat :=
  (history.filterMap (Event.request? n)).length

/-- A job has got an answer to each of its requests but the one that it waits for. -/
def State.Requested (s : State) (n : Nat) : Prop :=
  requestsOf s.history n = (answersTo s.history n).length + (s.isReading n).toNat

section

variable {settings : Settings} {s next final : State} {n : Nat} {j : Job} {label : Label}

/-! ## What a step does to the requests -/

/-- Reports are no requests. -/
@[simp] theorem requests_of_report (lines : List LogLine) (history : List Event) (n : Nat) :
    requestsOf (lines.map .logged ++ history) n = requestsOf history n :=
  congrArg List.length (filter_map_report (fun _ => rfl) lines history)

/-- Whether a job reads after it has changed. -/
theorem is_reading_modify {change : Job → Job} (hj : s.jobs[n]? = some j)
    (hjobs : next.jobs = s.jobs.modify n change) :
    next.isReading n = (change j).point.isReading := by
  rw [State.isReading, hjobs, modified_at change hj]
  rfl

/-- What a step of job `n`, which is `j`, does to its requests: it asks for a batch if the run is
not being stopped, or gets the answer to its request, or both, or neither. -/
inductive RequestEffect (s next : State) (n : Nat) (j : Job) : Prop where
  | moves (change : Job → Job) (hjobs : next.jobs = s.jobs.modify n change)
      (hreading : (change j).point.isReading = j.point.isReading)
      (hrequests : requestsOf next.history n = requestsOf s.history n)
      (hanswers : answersTo next.history n = answersTo s.history n)
  | asks (change : Job → Job) (hjobs : next.jobs = s.jobs.modify n change)
      (hrun : s.cancelled = false) (hbefore : j.point.isReading = false)
      (hafter : (change j).point.isReading = true)
      (hrequests : requestsOf next.history n = requestsOf s.history n + 1)
      (hanswers : answersTo next.history n = answersTo s.history n)
  | hears (change : Job → Job) (outcome : BatchOutcome)
      (hjobs : next.jobs = s.jobs.modify n change) (hbefore : j.point.isReading = true)
      (hafter : (change j).point.isReading = false)
      (hrequests : requestsOf next.history n = requestsOf s.history n)
      (hanswers : answersTo next.history n = answersTo s.history n ++ [outcome])
  | asksAgain (change : Job → Job) (outcome : BatchOutcome)
      (hjobs : next.jobs = s.jobs.modify n change) (hrun : s.cancelled = false)
      (hbefore : j.point.isReading = true) (hafter : (change j).point.isReading = true)
      (hrequests : requestsOf next.history n = requestsOf s.history n + 1)
      (hanswers : answersTo next.history n = answersTo s.history n ++ [outcome])

/-- A job that goes on asks for a batch if it has no importer to wait for and the run is not being
stopped. -/
theorem GoesOn.asks {importers : List Importer} (h : GoesOn s n j importers next) :
    ∃ change : Job → Job, next.jobs = s.jobs.modify n change ∧
      ((change j).point.isReading = false ∧
          requestsOf next.history n = requestsOf s.history n ∨
        (change j).point.isReading = true ∧ s.cancelled = false ∧
          requestsOf next.history n = requestsOf s.history n + 1) := by
  cases h with
  | readying | stopping => exact ⟨_, rfl, .inl ⟨rfl, rfl⟩⟩
  | reading hrun =>
      refine ⟨_, rfl, .inr ⟨rfl, hrun, ?_⟩⟩
      show requestsOf (.reading n :: s.history) n = _
      simp [requestsOf, Event.request?]

/-- A job that goes on without an answer from a point at which it does not read. -/
theorem GoesOn.request_effect {importers : List Importer} {base : State}
    (h : GoesOn base n j importers next) (hbefore : j.point.isReading = false)
    (hjobs : base.jobs = s.jobs) (hcancelled : base.cancelled = s.cancelled)
    (hrequests : requestsOf base.history n = requestsOf s.history n)
    (hanswers : answersTo base.history n = answersTo s.history n) : RequestEffect s next n j := by
  have hsame := (h.verdict.1 n).trans hanswers
  obtain ⟨change, hchange, hasks⟩ := h.asks
  rw [hjobs] at hchange
  rw [hcancelled, hrequests] at hasks
  rcases hasks with ⟨hafter, hnone⟩ | ⟨hafter, hrun, hone⟩
  · exact .moves change hchange (hafter.trans hbefore.symm) hnone hsame
  · exact .asks change hchange hrun hbefore hafter hone hsame

/-- An answer is the last that its job has got. -/
theorem answers_to_own (n : Nat) (outcome : BatchOutcome) (history : List Event) :
    answersTo (.read n outcome :: history) n = answersTo history n ++ [outcome] := by
  rw [answers_to_read, if_pos rfl]

/-- Every step of a job has such an effect. -/
theorem JobStep.request_effect {answer : Answer} (h : JobStep settings s n j answer next) :
    RequestEffect s next n j := by
  cases h with
  | skipped hpoint | refused hpoint | opening hpoint | opened hpoint | unopened _ hpoint
  | registered _ hpoint | unsized _ hpoint | enqueued hpoint | granted hpoint =>
      exact .moves _ rfl (by rw [hpoint]; rfl) rfl rfl
  | unregistered _ lines hpoint | dismissed _ _ lines hpoint | ended _ _ lines hpoint =>
      exact .moves _ rfl (by rw [hpoint]; rfl) (requests_of_report lines s.history n)
        (answers_to_report lines s.history n)
  | cancelled hpoint =>
      refine .moves _ rfl ?_ rfl rfl
      rcases hpoint with hpoint | ⟨importer, rest, hpoint⟩ <;> rw [hpoint] <;> rfl
  | released _ hpoint _ hnext | ready _ _ _ hpoint hnext | submitted _ _ hpoint _ _ hnext =>
      exact hnext.request_effect (by rw [hpoint]; rfl) rfl rfl rfl rfl
  | rejected _ lines _ hpoint _ hnext =>
      exact hnext.request_effect (by rw [hpoint]; rfl) rfl rfl
        (requests_of_report lines s.history n) (answers_to_report lines s.history n)
  | readNothing units _ hpoint hnext =>
      have hbefore : j.point.isReading = true := by rw [hpoint]; rfl
      have hanswers := (hnext.verdict.1 n).trans (answers_to_own n (.batch units []) s.history)
      obtain ⟨change, hchange, hasks⟩ := hnext.asks
      rcases hasks with ⟨hafter, hnone⟩ | ⟨hafter, hrun, hone⟩
      · exact .hears change _ hchange hbefore hafter hnone hanswers
      · exact .asksAgain change _ hchange hrun hbefore hafter hone hanswers
  | readBatch _ _ hpoint | drained hpoint | failed _ hpoint | lost _ hpoint =>
      exact .hears _ _ rfl (by rw [hpoint]; rfl) rfl rfl (answers_to_own n _ s.history)

/-- The requests of a job are added by its own steps only. -/
theorem requests_of_transition (h : Transition settings s label next)
    (hlabel : label.actor? ≠ some (.job n)) :
    requestsOf next.history n = requestsOf s.history n := by
  refine congrArg List.length (filter_map_of_transition h hlabel ?_)
  intro event hevent
  cases event with
  | reading job => exact if_neg fun (hsame : job = n) => hevent (hsame ▸ rfl)
  | _ => rfl

/-- Whether a job reads is changed by its own steps only. -/
theorem is_reading_of_transition (h : Transition settings s label next)
    (hlabel : label.actor? ≠ some (.job n)) : next.isReading n = s.isReading n := by
  rw [State.isReading, State.isReading]
  rcases job_of_others h hlabel with hsame | ⟨hnone, sourceName, importers, hnew⟩
  · rw [hsame]
  · rw [hnone, hnew]
    rfl

/-- A transition has such an effect on a job, or leaves its requests and answers alone. -/
theorem request_effect_of_transition (h : Transition settings s label next) (n : Nat) :
    (∃ j, s.jobs[n]? = some j ∧ RequestEffect s next n j) ∨
      requestsOf next.history n = requestsOf s.history n ∧
        answersTo next.history n = answersTo s.history n ∧ next.isReading n = s.isReading n := by
  by_cases hlabel : label.actor? = some (.job n)
  · cases h with
    | job m j answer _ hj hstep =>
        obtain rfl : m = n := Actor.job.inj (Option.some.inj hlabel)
        exact .inl ⟨j, hj, hstep.request_effect⟩
    | «import» | call | clock | task | start | stop | report | caller => cases hlabel
  · exact .inr ⟨requests_of_transition h hlabel, answers_of_transition h hlabel,
      is_reading_of_transition h hlabel⟩

/-! ## Requests and answers -/

/-- A step leaves a job with an answer to each request but the one that it waits for. -/
theorem State.Requested.transition (hs : s.Requested n) (h : Transition settings s label next) :
    next.Requested n := by
  unfold State.Requested at hs ⊢
  rcases request_effect_of_transition h n with ⟨j, hj, heffect⟩ | ⟨hrequests, hanswers, hreading⟩
  · have hbefore : s.isReading n = j.point.isReading := by
      rw [State.isReading, hj]
      rfl
    rw [hbefore] at hs
    cases heffect with
    | moves change hjobs hreading hrequests hanswers =>
        rw [is_reading_modify hj hjobs, hreading, hrequests, hanswers]
        exact hs
    | asks change hjobs hrun hidle hafter hrequests hanswers =>
        rw [is_reading_modify hj hjobs, hafter, hrequests, hanswers]
        simp only [hidle, Bool.toNat_false, Bool.toNat_true] at hs ⊢
        omega
    | hears change outcome hjobs hwaits hafter hrequests hanswers =>
        rw [is_reading_modify hj hjobs, hafter, hrequests, hanswers, List.length_append]
        simp only [hwaits, Bool.toNat_true, Bool.toNat_false, List.length_singleton] at hs ⊢
        omega
    | asksAgain change outcome hjobs hrun hwaits hafter hrequests hanswers =>
        rw [is_reading_modify hj hjobs, hafter, hrequests, hanswers, List.length_append]
        simp only [hwaits, Bool.toNat_true, List.length_singleton] at hs ⊢
        omega
  · rw [hrequests, hanswers, hreading]
    exact hs

/-- In every reachable state each job has got an answer to each request but the one that it waits
for. -/
theorem requested_of_reachable (h : Reachable settings s) (n : Nat) : s.Requested n := by
  induction h with
  | initial => rfl
  | step label _ hstep ih => exact ih.transition (transition_of_step hstep)

/-! ## After the cancellation -/

/-- A step after the cancellation adds no request. -/
theorem asks_nothing_of_transition (h : Transition settings s label next)
    (hcancelled : s.cancelled = true) (n : Nat) :
    requestsOf next.history n = requestsOf s.history n := by
  rcases request_effect_of_transition h n with ⟨j, -, heffect⟩ | ⟨hrequests, -⟩
  · cases heffect with
    | moves _ _ _ hrequests | hears _ _ _ _ _ hrequests => exact hrequests
    | asks _ _ hrun | asksAgain _ _ _ hrun =>
        rw [hcancelled] at hrun
        cases hrun
  · exact hrequests

/-- No step takes anything out of the history. -/
theorem history_of_run {labels : List Label} (hrun : run settings s labels = some final) :
    ∃ later, final.history = later ++ s.history := by
  have hkeep : ∀ {before next : State} {label : Label},
      (∃ later, before.history = later ++ s.history) → step settings before label = some next →
      ∃ later, next.history = later ++ s.history := by
    rintro before next label ⟨later, hlater⟩ hstep
    obtain ⟨events, hevents, -⟩ := adds_of_transition (transition_of_step hstep)
    exact ⟨events ++ later, by rw [hevents, hlater, List.append_assoc]⟩
  exact kept_along_run (p := fun state => ∃ later, state.history = later ++ s.history) hkeep
    ⟨[], rfl⟩ hrun

/-- No run after the cancellation adds a request. -/
theorem requests_of_cancelled {labels : List Label} (hcancelled : s.cancelled = true)
    (hrun : run settings s labels = some final) (n : Nat) :
    requestsOf final.history n = requestsOf s.history n := by
  have hkept := kept_along_run
    (p := fun state => state.cancelled = true ∧ requestsOf state.history n = requestsOf s.history n)
    (fun ⟨hstop, hrequests⟩ hstep =>
      have htransition := transition_of_step hstep
      ⟨cancelled_of_transition htransition hstop,
        (asks_nothing_of_transition htransition hstop n).trans hrequests⟩)
    ⟨hcancelled, rfl⟩ hrun
  exact hkept.2

/-- What a job hears after a state in which the run is being stopped: nothing if it did not read
there, and else the answer to the request that it had made, if that has come. -/
inductive HearsOut (s final : State) (later : List Event) (n : Nat) : Prop where
  | nothing (hidle : s.isReading n = false) (hstill : final.isReading n = false)
      (hanswers : answersTo later n = [])
  | pending (hwaits : s.isReading n = true) (hstill : final.isReading n = true)
      (hanswers : answersTo later n = [])
  | answered (outcome : BatchOutcome) (hwaits : s.isReading n = true)
      (hover : final.isReading n = false) (hanswers : answersTo later n = [outcome])

/-- Events add the answers that they report. -/
theorem answers_to_append (later earlier : List Event) (n : Nat) :
    answersTo (later ++ earlier) n = answersTo earlier n ++ answersTo later n := by
  rw [answersTo, List.filterMap_append, List.reverse_append]
  rfl

/-- After the cancellation each job hears at most the answer to the request that it had made. -/
theorem hears_out_of_cancelled (h : Reachable settings s) {labels : List Label}
    (hcancelled : s.cancelled = true) (hrun : run settings s labels = some final)
    {later : List Event} (hlater : final.history = later ++ s.history) (n : Nat) :
    HearsOut s final later n := by
  have hbefore := requested_of_reachable h n
  have hafter := requested_of_reachable (reachable_of_run h hrun) n
  unfold State.Requested at hbefore hafter
  rw [requests_of_cancelled hcancelled hrun, hlater, answers_to_append, List.length_append,
    hbefore] at hafter
  cases hwaits : s.isReading n <;> cases hstill : final.isReading n <;>
    simp only [hwaits, hstill, Bool.toNat_true, Bool.toNat_false] at hafter
  case false.false => exact .nothing hwaits hstill (List.eq_nil_of_length_eq_zero (by omega))
  case false.true => omega
  case true.false =>
    have hone : (answersTo later n).length = 1 := by omega
    obtain ⟨outcome, houtcome⟩ := List.length_eq_one_iff.mp hone
    exact .answered outcome hwaits hstill houtcome
  case true.true => exact .pending hwaits hstill (List.eq_nil_of_length_eq_zero (by omega))

/-- A job that waits for a batch takes any answer. -/
theorem hears_of_reading (hwaits : s.isReading n = true) (outcome : BatchOutcome) :
    ∃ next, step settings s (.answer (.job n) (.batch outcome)) = some next ∧
      answersTo next.history n = answersTo s.history n ++ [outcome] := by
  obtain ⟨j, hj, hreading⟩ := (Option.any_eq_true _ _).mp hwaits
  have hpoint : j.point = .reading := by
    unfold JobPoint.isReading at hreading
    split at hreading
    · assumption
    all_goals cases hreading
  refine ⟨s.receive settings.graphName n j outcome, ?_, ?_⟩
  · simp only [step, stepActor, State.stepJob, hj, hpoint]
  · have hstep : JobStep settings s n j (.batch outcome)
        (s.receive settings.graphName n j outcome) := .receive outcome hpoint
    generalize s.receive settings.graphName n j outcome = next at hstep ⊢
    cases hstep with
    | readNothing units _ _ hnext =>
        exact (hnext.verdict.1 n).trans (answers_to_own n (.batch units []) s.history)
    | readBatch | drained | failed | lost => exact answers_to_own n _ s.history

/-! ## What is read after the cancellation -/

/-- The batch of a job has been handed to a task. If no importer has panicked there, and the
accumulated times fit, it has been settled and been delivered to all importers of the job. -/
def State.HasImported (s : State) (n : Nat) (batch : Batch) : Prop :=
  ∃ j task, s.jobs[n]? = some j ∧ ⟨n, task, batch⟩ ∈ (Journal.of s.history).submissions ∧
    ((∀ i ∈ (Journal.of s.history).importsOf task, i.outcome.panic? = none) →
      (Journal.of s.history).times.1 ≤ Duration.longest.totalNanos →
      (Journal.of s.history).times.2 ≤ Duration.longest.totalNanos →
      ⟨n, task, batch⟩ ∈ settledIn s.history ∧
        Delivered j.importers batch.records ((Journal.of s.history).portionsOf task))

/-- The batches that a job has read are those among the answers to it. -/
theorem mem_reads_iff {history : List Event} {batch : Batch} :
    (n, batch) ∈ (Journal.of history).reads ↔
      .batch batch.units batch.records ∈ answersTo history n := by
  simp only [Journal.of, answersTo, List.mem_reverse, List.mem_filterMap]
  refine exists_congr fun event => and_congr_right fun _ => ?_
  cases event with
  | read job outcome =>
      cases outcome with
      | batch units records =>
          obtain ⟨units, records⟩ := batch
          simp [Event.read?, Event.answer?]
      | error | panicked => simp [Event.read?, Event.answer?]
  | _ => simp [Event.read?, Event.answer?]

/-- Once a call that stops the run has returned, every batch with records that a job has read has
been imported. -/
theorem imported_of_answer (h : Reachable settings s) (hreturned : s.stopReturned = true)
    {batch : Batch} (hanswer : .batch batch.units batch.records ∈ answersTo s.history n)
    (hsome : batch.records ≠ []) : s.HasImported n batch := by
  obtain ⟨hheld, -⟩ := ledger_of_stopped h hreturned
  have hhanded := (sound_of_reachable h).handed n
  rw [hheld n, Option.toList_none, List.append_nil] at hhanded
  have hread : batch ∈ (Journal.of s.history).batchesRead n := by
    refine List.mem_map.mpr ⟨(n, batch), List.mem_filter.mpr ⟨mem_reads_iff.mpr hanswer, ?_⟩, rfl⟩
    simpa using hsome
  obtain ⟨submission, hsubmission, rfl⟩ :=
    List.mem_map.mp (show batch ∈ _ from hhanded ▸ hread)
  obtain ⟨hmem, hjob⟩ := List.mem_filter.mp hsubmission
  obtain rfl : submission.job = n := beq_iff_eq.mp hjob
  obtain ⟨j, hj, hfate⟩ := fate_of_stopped h hreturned hmem
  refine ⟨j, submission.task, hj, hmem, ?_⟩
  intro hcalm hlatency hrespTime
  obtain ⟨hsettled, hportions⟩ := hfate.settled_of_calm hcalm hlatency hrespTime
  refine ⟨mem_settled_in.mpr ⟨hmem, hsettled⟩, ?_⟩
  rw [show (Journal.of s.history).portionsOf submission.task = _ from hportions]
  exact delivered_portions settings.batch j.importers submission.batch.records

/-- Once a call that stops the run has returned, no job waits for a batch. -/
theorem not_reading_of_returned (h : Reachable settings s) (hreturned : s.stopReturned = true)
    (n : Nat) : s.isReading n = false := by
  rw [← Bool.not_eq_true]
  intro hwaits
  obtain ⟨j, hj, hreading⟩ := (Option.any_eq_true _ _).mp hwaits
  have hquiet := ((State.drained_of_reachable h).over hreturned).1 j (List.mem_of_getElem? hj)
  cases hpoint : j.point with
  | reading =>
      rw [hpoint] at hquiet
      cases hquiet
  | begun | opening | sizing | dismissing | absent | spawned | queued | gated | readying
  | submitting | closing | ended =>
      rw [hpoint] at hreading
      cases hreading

/-- Once a run is being stopped no job asks for a batch, wherever it stands and whatever it goes on
with. A job that waits for a batch then goes on waiting for it, takes whatever answer comes, and
gets no other one. When the call that stops the run returns, the answer has come, and a batch with
records has been imported. -/
theorem reads_after_cancellation (h : Reachable settings s) (hcancelled : s.cancelled = true)
    {labels : List Label} (hrun : run settings s labels = some final) :
    ∃ later, final.history = later ++ s.history ∧ ∀ n, .reading n ∉ later ∧
      HearsOut s final later n ∧
      (final.isReading n = true → ∀ outcome, ∃ next,
        step settings final (.answer (.job n) (.batch outcome)) = some next ∧
          answersTo next.history n = answersTo final.history n ++ [outcome]) ∧
      (final.stopReturned = true → final.isReading n = false ∧
        ∀ batch : Batch, .batch batch.units batch.records ∈ answersTo later n →
          batch.records ≠ [] → final.HasImported n batch) := by
  obtain ⟨later, hlater⟩ := history_of_run hrun
  have hfinal := reachable_of_run h hrun
  refine ⟨later, hlater, fun n => ⟨?_, hears_out_of_cancelled h hcancelled hrun hlater n,
    hears_of_reading, fun hreturned => ⟨not_reading_of_returned hfinal hreturned n, ?_⟩⟩⟩
  · intro hreading
    have hsame := requests_of_cancelled hcancelled hrun n
    rw [hlater, requestsOf, List.filterMap_append, List.length_append] at hsame
    have hpos : 0 < (later.filterMap (Event.request? n)).length :=
      List.length_pos_of_mem (List.mem_filterMap.mpr ⟨_, hreading, if_pos rfl⟩)
    unfold requestsOf at hsame
    omega
  · intro batch hanswer hsome
    refine imported_of_answer hfinal hreturned ?_ hsome
    rw [hlater, answers_to_append]
    exact List.mem_append_right _ hanswer

end

/-! ## A read that is under way at the cancellation -/

namespace Halted

/-- A source is imported, and the run is stopped while its job waits for the first batch. -/
def past : List Label := [
  .import "people" Sample.importers, .answer (.job 0) .go, .answer (.job 0) (.source (.ok ())),
  .answer (.job 0) (.size (.ok 8)), .call .start, .answer (.caller 0) .go, .answer .starter .go,
  .answer .starter (.client (.ok ())), .answer (.job 0) .go, .answer (.job 0) .go,
  .answer (.job 0) .go, .answer (.job 0) .ready, .answer (.job 0) .ready, .call .stop,
  .answer (.caller 1) .go, .answer .stopper .go]

/-- The batch comes and is imported before stopping is done. -/
def future : List Label := [
  .answer (.job 0) (.batch (.batch 4 [["1"], ["2"]])), .answer (.job 0) .go,
  .answer (.job 0) (.source (.ok ())), .answer .stopper .go, .answer (.task 0) .go,
  .answer (.task 0) Sample.executed, .answer (.task 0) .go, .answer (.task 0) Sample.executed,
  .answer (.task 0) .go, .answer (.task 0) .go, .answer .stopper .go, .answer .stopper .go,
  .answer .stopper .go, .answer .stopper (.client (.ok ())), .answer (.caller 1) .go]

/-- The state after the cancellation. -/
def middle : State :=
  (run Sample.settings (.initial Sample.settings) past).getD (.initial Sample.settings)

/-- The state at the end. -/
def final : State := (run Sample.settings middle future).getD middle

end Halted

/-- The batch that was being read at the cancellation is the only one that was read after it, and it
has been imported. -/
theorem reads_of_halted :
    Halted.middle.isReading 0 = true ∧ Halted.middle.cancelled = true ∧
      ∃ later, Halted.final.history = later ++ Halted.middle.history ∧
        (∀ n, .reading n ∉ later) ∧ answersTo later 0 = [.batch 4 [["1"], ["2"]]] ∧
        Halted.final.HasImported 0 ⟨4, [["1"], ["2"]]⟩ := by
  have hrun : run Sample.settings Halted.middle Halted.future = some Halted.final :=
    some_of_possible (by decide +kernel)
  have hcancelled : Halted.middle.cancelled = true := by decide +kernel
  have hreachable : Reachable Sample.settings Halted.middle := reachable_run _ _
  obtain ⟨later, hlater, hjobs⟩ := reads_after_cancellation hreachable hcancelled hrun
  obtain ⟨-, hhears, -, hreturned⟩ := hjobs 0
  obtain ⟨-, himported⟩ := hreturned (by decide +kernel)
  have hanswer : .batch 4 [["1"], ["2"]] ∈ answersTo later 0 := by
    have hread : (0, ⟨4, [["1"], ["2"]]⟩) ∈ (Journal.of Halted.final.history).reads := by
      decide +kernel
    have hnone : answersTo Halted.middle.history 0 = [] := by rfl
    rw [mem_reads_iff, hlater, answers_to_append, hnone, List.nil_append] at hread
    exact hread
  have hanswers : answersTo later 0 = [.batch 4 [["1"], ["2"]]] := by
    cases hhears with
    | nothing _ _ hanswers | pending _ _ hanswers =>
        rw [hanswers] at hanswer
        cases hanswer
    | answered outcome _ _ hanswers =>
        rw [hanswers, List.mem_singleton] at hanswer
        rw [hanswers, hanswer]
  exact ⟨by decide +kernel, hcancelled, later, hlater, fun n => (hjobs n).1, hanswers,
    himported ⟨4, [["1"], ["2"]]⟩ hanswer nofun⟩

end BulkLoad.Manager
