import BulkLoad.Proofs.Manager.Collecting
import BulkLoad.Proofs.Manager.Waiting

/-!
# Runs of fixed jobs

A `Course` is a run of which it is fixed what is imported and what the outside answers about it: the
importers of each source, whether it opens, its size, the batches that its reader delivers one after
the other, and the answer to each statement, by its text alone. When all this happens is left open,
and so are all other answers. Nobody calls for the end of the run but by waiting, after all imports
have returned. Until its job is over, a source is therefore imported and read undisturbed
(`Course.undisturbed`).
-/

namespace BulkLoad

deriving instance DecidableEq for Answer

namespace Manager

/-- What is fixed about a job: its source and importers, what comes of opening and sizing the
source, and the answers of its reader to one request after the other. -/
structure JobSpec where
  sourceName : String
  importers : List Importer
  opened : Except SourceError Unit := .ok ()
  size : Except SourceError Nat
  answers : List BatchOutcome

/-- Whether a request may be answered so: about sources as the specs say, and to a statement by its
text. -/
def MayAnswer (reply : String → Reply) (specs : List JobSpec) (s : State) :
    Request → Answer → Prop
  | .openSource n, given => (specs[n]?.map fun spec => .source spec.opened) = some given
  | .sizeSource n, given => (specs[n]?.map fun spec => .size spec.size) = some given
  | .readBatch n, given =>
      (specs[n]?.bind fun spec => spec.answers[(answersTo s.history n).length]?.map .batch) =
        some given
  | .execute statement, given => given = .reply (reply statement)
  | _, _ => True

/-- Whether a label may come next: sources are imported in the order of the specs, and a call that
waits comes after all imports have returned. -/
def MayFollow (reply : String → Reply) (specs : List JobSpec) (settings : Settings) (s : State) :
    Label → Prop
  | .import sourceName importers =>
      ∃ spec, specs[s.jobs.length]? = some spec ∧ sourceName = spec.sourceName ∧
        importers = spec.importers
  | .call .start | .clock _ => True
  | .call .stop => False
  | .call .wait => s.jobs.length = specs.length ∧ ∀ j ∈ s.jobs, j.answer ≠ none
  | .answer actor given => MayAnswer reply specs s (s.request settings actor) given

/-- The states that a run of these jobs can get to. -/
inductive Course (reply : String → Reply) (specs : List JobSpec) (settings : Settings) :
    State → Prop where
  | initial : Course reply specs settings (.initial settings)
  | step {s next : State} (label : Label) (h : Course reply specs settings s)
      (hmay : MayFollow reply specs settings s label)
      (hstep : Manager.step settings s label = some next) : Course reply specs settings next

/-- Nobody has called for the end of the run, or all sources have been imported and every job that
was registered is due. -/
def State.Undisturbed (graph : String) (specs : List JobSpec) (s : State) : Prop :=
  (∀ c ∈ s.calls, c.wish = .start) ∨
    s.jobs.length = specs.length ∧
      ∀ n j, s.jobs[n]? = some j → j.point = .absent ∨ s.Due graph n

section

variable {reply : String → Reply} {specs : List JobSpec} {settings : Settings} {graph : String}
  {s next : State} {label : Label} {n : Nat} {j : Job}

/-- A course is a run. -/
theorem Course.reachable (h : Course reply specs settings s) : Reachable settings s := by
  induction h with
  | initial => exact .initial
  | step label _ _ hstep ih => exact ih.step label hstep

/-- A job is answered as the specs say. -/
theorem answer_of_job {answer : Answer} (hj : s.jobs[n]? = some j)
    (hmay : MayFollow reply specs settings s (.answer (.job n) answer)) :
    MayAnswer reply specs s (j.point.request n) answer := by
  have hrequest : s.request settings (.job n) = j.point.request n := by
    simp only [State.request, hj, Option.map_some, Option.getD_some]
  exact hrequest ▸ hmay

/-- A statement is answered by its text. -/
theorem answer_of_sending {answer : Answer} {t : Task} {shipment : Shipment}
    (ht : s.tasks.lookup n = some t) (hpoint : t.point = .sending shipment)
    (hmay : MayFollow reply specs settings s (.answer (.task n) answer)) :
    answer = .reply (reply shipment.statement) := by
  have hrequest : s.request settings (.task n) = .execute shipment.statement := by
    simp only [State.request, ht, hpoint, Option.map_some, Option.getD_some, TaskPoint.request]
  have hmay : MayAnswer reply specs s (s.request settings (.task n)) answer := hmay
  rwa [hrequest] at hmay

/-- Only an import adds a job. -/
theorem length_of_transition (h : Transition settings s label next)
    (hlabel : ∀ sourceName importers, label ≠ .import sourceName importers) :
    next.jobs.length = s.jobs.length := by
  cases work_step_of_transition h with
  | «import» sourceName importers => exact absurd rfl (hlabel sourceName importers)
  | job m j answer _ hj hstep =>
      obtain ⟨change, added, hholding⟩ := hstep.holding
      rw [hholding.jobs, List.length_modify]
  | task m t answer _ ht hstep => rw [hstep.effect.2.jobs]
  | idle _ _ hjobs => rw [hjobs]

/-- A ledger step keeps the importers of the jobs, or adds those of another job. -/
theorem LedgerStep.importers {l after : Ledger} (h : LedgerStep settings l after) :
    after.importers = l.importers ∨ ∃ added, after.importers = l.importers ++ [added] := by
  cases h with
  | joined importers => exact .inr ⟨importers, rfl⟩
  | still | readNothing | readBatch | submitted | imported | settled | panicked => exact .inl rfl

/-- No job ever changes its importers. -/
theorem importers_of_step (h : Reachable settings s) (hstep : step settings s label = some next)
    (hlabel : ∀ sourceName importers, label ≠ .import sourceName importers) :
    next.jobs.map Job.importers = s.jobs.map Job.importers := by
  rcases (ledger_step_of_reachable h hstep).importers with hsame | ⟨added, hadded⟩
  · exact hsame
  · have hlength := congrArg List.length hadded
    simp only [State.ledger, List.length_append, List.length_map, List.length_singleton,
      length_of_transition (transition_of_step hstep) hlabel] at hlength
    omega

/-- Each job has the importers of its spec. -/
theorem Course.spec_of (h : Course reply specs settings s) (hj : s.jobs[n]? = some j) :
    ∃ spec, specs[n]? = some spec ∧ j.importers = spec.importers := by
  induction h generalizing j with
  | initial => cases hj
  | @step s next label h hmay hstep ih =>
      have hkept (hlabel : ∀ sourceName importers, label ≠ .import sourceName importers) :
          ∃ spec, specs[n]? = some spec ∧ j.importers = spec.importers := by
        have hsame := congrArg (·[n]?) (importers_of_step h.reachable hstep hlabel)
        simp only [List.getElem?_map, hj, Option.map_some] at hsame
        obtain ⟨before, hbefore, himporters⟩ := Option.map_eq_some_iff.mp hsame.symm
        exact himporters ▸ ih hbefore
      cases label with
      | «import» sourceName importers =>
          cases hstep
          rcases Nat.lt_trichotomy n s.jobs.length with hlt | rfl | hgt
          · exact ih ((List.getElem?_append_left hlt).symm.trans hj)
          · obtain ⟨spec, hspec, -, himporters⟩ := hmay
            rw [List.getElem?_concat_length] at hj
            cases hj
            exact ⟨spec, hspec, himporters⟩
          · rw [List.getElem?_eq_none (by rwa [List.length_append])] at hj
            cases hj
      | call | clock | answer => exact hkept nofun

/-! ## Nobody disturbs the jobs -/

/-- A source whose import has been declined is not imported again. -/
theorem JobMove.present {after : Job} (h : JobMove j after) : j.point ≠ .absent := by
  intro habsent
  cases h with
  | pends hbefore | declines _ hbefore | registers hbefore | works hbefore =>
      rw [habsent] at hbefore
      cases hbefore

/-- A call that waits finds every registered job due. -/
theorem due_of_answered (h : Reachable settings s) (hstart : ∀ c ∈ s.calls, c.wish = .start)
    (hj : s.jobs[n]? = some j) (hanswer : j.answer ≠ none) :
    j.point = .absent ∨ s.Due graph n := by
  have hanswered := (State.holding_of_reachable h).answered j (List.mem_of_getElem? hj)
  cases hpoint : j.point with
  | absent => exact .inl rfl
  | begun | opening | sizing | dismissing =>
      rw [Job.Answered, if_pos (by rw [hpoint]; rfl)] at hanswered
      exact absurd hanswered hanswer
  | spawned | queued | gated | readying | reading | submitting | closing | ended =>
      exact .inr (due_of_unasked ⟨j, hj, by rw [hpoint]; rfl⟩ (stop_idle_of_reachable h hstart)
        hstart)

/-- A job that is absent or due stays so. -/
theorem due_of_step (h : Reachable settings s) (hstep : step settings s label = some next)
    (hstop : label ≠ .call .stop)
    (hdue : ∀ j, s.jobs[n]? = some j → j.point = .absent ∨ s.Due settings.graphName n)
    (hj : s.jobs[n]? = some j) :
    ∃ after, next.jobs[n]? = some after ∧
      (after.point = .absent ∨ next.Due settings.graphName n) := by
  obtain ⟨after, hafter, hmove⟩ := job_of_step hstep hj
  refine ⟨after, hafter, ?_⟩
  rcases hdue j hj with habsent | hdue
  · rcases hmove with rfl | hmove
    · exact .inl habsent
    · exact absurd habsent hmove.present
  · exact .inr (hdue.transition h hstep hstop)

/-- A course leaves its jobs undisturbed. -/
theorem Course.undisturbed (h : Course reply specs settings s) :
    s.Undisturbed settings.graphName specs := by
  induction h with
  | initial => exact .inl fun _ hc => absurd hc List.not_mem_nil
  | @step s next label h hmay hstep ih =>
      have hreachable := h.reachable
      have hstop : label ≠ .call .stop := by
        rintro rfl
        exact hmay
      have hafter (hlength : next.jobs.length = s.jobs.length) (hall : s.jobs.length = specs.length)
          (hdue : ∀ n j, s.jobs[n]? = some j → j.point = .absent ∨ s.Due settings.graphName n) :
          next.Undisturbed settings.graphName specs := by
        refine .inr ⟨hlength.trans hall, fun n after hafter => ?_⟩
        have hlt : n < s.jobs.length := hlength ▸ (List.getElem?_eq_some_iff.mp hafter).1
        obtain ⟨other, hother, hstays⟩ :=
          due_of_step hreachable hstep hstop (hdue n) (List.getElem?_eq_getElem hlt)
        obtain rfl : other = after := Option.some.inj (hother.symm.trans hafter)
        exact hstays
      by_cases himport : ∃ sourceName importers, label = .import sourceName importers
      · obtain ⟨sourceName, importers, rfl⟩ := himport
        obtain ⟨spec, hspec, -⟩ := hmay
        cases hstep
        rcases ih with hstart | ⟨hall, -⟩
        · exact .inl hstart
        · rw [hall, List.getElem?_eq_none (Nat.le_refl _)] at hspec
          cases hspec
      have hlength := length_of_transition (transition_of_step hstep)
        fun sourceName importers hlabel => himport ⟨sourceName, importers, hlabel⟩
      rcases ih with hstart | ⟨hall, hdue⟩
      · by_cases hwait : label = .call .wait
        · subst hwait
          obtain ⟨hall, hanswered⟩ := hmay
          exact hafter hlength hall fun n j hj =>
            due_of_answered hreachable hstart hj (hanswered j (List.mem_of_getElem? hj))
        · refine .inl fun c hc => ?_
          rcases wish_of_transition (transition_of_step hstep) hc with
            hcalled | ⟨other, hother, hsame⟩
          · cases hwish : c.wish with
            | start => rfl
            | stop => exact absurd (hcalled.trans (congrArg _ hwish)) hstop
            | wait => exact absurd (hcalled.trans (congrArg _ hwish)) hwait
          · exact hsame.symm.trans (hstart other hother)
      · exact hafter hlength hall hdue

/-- While the job of a source is not over, nobody cancels the run or closes the readers. -/
theorem Course.running (h : Course reply specs settings s) (hj : s.jobs[n]? = some j)
    (habsent : j.point ≠ .absent) (hended : ∀ result, j.point ≠ .ended result) :
    s.cancelled = false ∧ s.readers.closed = false := by
  have hreachable := h.reachable
  have hidle : s.stopCell = .idle := by
    rcases h.undisturbed with hstart | ⟨-, hdue⟩
    · exact stop_idle_of_reachable hreachable hstart
    · rcases (hdue n j hj).resolve_left habsent |>.inTime with hover | ⟨hidle, -⟩
      · obtain ⟨other, result, hother, hpoint, -⟩ := hover
        obtain rfl : other = j := Option.some.inj (hother.symm.trans hj)
        exact absurd hpoint (hended result)
      · exact hidle
  have hphase := (State.drained_of_reachable hreachable).phase
  have hclosed := (State.collected_of_reachable hreachable).closed
  rw [hidle] at hphase hclosed
  exact ⟨hphase.1, hclosed⟩

/-- At the end of a course all sources have been imported, every job is over, and there are no
tasks. -/
theorem Course.over (h : Course reply specs settings s) (hreturned : s.stopReturned = true) :
    s.jobs.length = specs.length ∧ s.tasks = [] ∧
      ∀ (n : Nat) (j : Job), s.jobs[n]? = some j →
        j.point = .absent ∨ ∃ result, j.point = .ended result := by
  have hreachable := h.reachable
  obtain ⟨c, hc, hstop⟩ := List.any_eq_true.mp hreturned
  obtain ⟨hwish, -⟩ := Bool.and_eq_true_iff.mp hstop
  rcases h.undisturbed with hstart | ⟨hall, hdue⟩
  · exact absurd (hstart c hc) (bne_iff_ne.mp hwish)
  · refine ⟨hall, ((State.drained_of_reachable hreachable).over hreturned).2, fun n j hj => ?_⟩
    refine (hdue n j hj).imp_right fun hdue => ?_
    obtain ⟨other, result, hother, hpoint, -⟩ := hdue.over hreachable hreturned
    obtain rfl : other = j := Option.some.inj (hother.symm.trans hj)
    exact ⟨result, hpoint⟩

/-! ## Courses that can be computed -/

instance (reply : String → Reply) (specs : List JobSpec) (s : State) (request : Request)
    (given : Answer) : Decidable (MayAnswer reply specs s request given) :=
  match request with
  | .openSource _ | .sizeSource _ | .readBatch _ | .execute _ => inferInstanceAs (Decidable (_ = _))
  | .turn | .closeSource _ | .importer _ | .openPool | .closePool | .openClient | .closeClient
  | .hook _ | .timer _ => inferInstanceAs (Decidable True)

/-- Whether a label that imports no source may come next. -/
def mayFollow (reply : String → Reply) (specs : List JobSpec) (settings : Settings) (s : State) :
    Label → Bool
  | .import _ _ | .call .stop => false
  | .call .start | .clock _ => true
  | .call .wait => s.jobs.length == specs.length && s.jobs.all fun j => j.answer.isSome
  | .answer actor given => decide (MayAnswer reply specs s (s.request settings actor) given)

/-- Several steps of a course that import no source, if they are possible one after the other. -/
def goOn (reply : String → Reply) (specs : List JobSpec) (settings : Settings) (s : State)
    (labels : List Label) : Option State :=
  labels.foldlM (fun s label =>
    if mayFollow reply specs settings s label then step settings s label else none) s

/-- The state in which all these sources have been imported and nothing else has happened. -/
def State.joined (settings : Settings) (specs : List JobSpec) : State :=
  { State.initial settings with
    jobs := specs.map fun spec => { sourceName := spec.sourceName, importers := spec.importers } }

/-- A label that is found to be allowed is. -/
theorem may_follow_of_true (h : mayFollow reply specs settings s label = true) :
    MayFollow reply specs settings s label := by
  cases label with
  | «import» => cases h
  | call wish =>
      cases wish with
      | start => trivial
      | stop => cases h
      | wait =>
          obtain ⟨hlength, hanswered⟩ := Bool.and_eq_true_iff.mp h
          refine ⟨beq_iff_eq.mp hlength, fun j hj hnone => ?_⟩
          have hsome := List.all_eq_true.mp hanswered j hj
          rw [hnone] at hsome
          cases hsome
  | clock => trivial
  | answer actor given =>
      show MayAnswer reply specs s (s.request settings actor) given
      exact of_decide_eq_true h

/-- Steps that are found to be possible lead along a course. -/
theorem Course.go_on {labels : List Label} (h : Course reply specs settings s)
    (hlabels : goOn reply specs settings s labels = some next) :
    Course reply specs settings next := by
  refine Steps.keeps (fun _ hs hlabel => ?_) h hlabels
  obtain ⟨hmay, hstep⟩ := Option.ite_none_right_eq_some.mp hlabel
  exact hs.step _ (may_follow_of_true hmay) hstep

/-- A course may begin with the imports of all sources. -/
theorem course_joined (reply : String → Reply) (specs : List JobSpec) (settings : Settings) :
    Course reply specs settings (.joined settings specs) := by
  have hjoined (count : Nat) (hcount : count ≤ specs.length) :
      Course reply specs settings (.joined settings (specs.take count)) := by
    induction count with
    | zero => exact .initial
    | succ count ih =>
        have hspec := List.getElem?_eq_getElem hcount
        have hlength : (State.joined settings (specs.take count)).jobs.length = count := by
          rw [State.joined, List.length_map, List.length_take, Nat.min_eq_left (by omega)]
        refine (ih (by omega)).step (.import specs[count].sourceName specs[count].importers)
          ⟨specs[count], by rw [hlength, hspec], rfl, rfl⟩ ?_
        rw [List.take_add_one, hspec, State.joined, State.joined, List.map_append]
        rfl
  have hall := hjoined specs.length (Nat.le_refl _)
  rwa [List.take_length] at hall

end

end Manager

end BulkLoad
