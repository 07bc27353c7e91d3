import BulkLoad.Proofs.Manager.Window

/-!
# The hooks before and after the import

Stopping does not wait for starting, so its hooks may run while those before the import do.
`phases_apart_iff` says when they do not: where the first statement after the import is sent,
starting must have no statement under way and none left to send. Then no statement before the import
is sent any more, since starting that begins later finds the run stopped. Otherwise such a statement
is unanswered, or there is a way to go on by which it is sent (`phases_overlap` is an instance).
-/

namespace BulkLoad.Manager

/-- Whether a statement of the hooks before the import is under way, or left to be sent by hooks
that are running. -/
def owesStatement : Cell StartPoint → Bool
  | .running (.hooks run) => run.owesStatement
  | .idle | .running .begun | .running .opening | .done _ => false

/-- A run that is being stopped and has no statement before the import to send, after having sent
these. -/
structure State.Silenced (s : State) (sent : List String) : Prop where
  cancelled : s.cancelled = true
  owes : owesStatement s.startCell = false
  sent : sentIn s.proceedings.before = sent

section

variable {settings : Settings} {s middle next : State} {labels : List Label} {sent : List String}

/-- Starting that owes no statement has got an answer to each that it has sent. -/
theorem StartPhase.answered {hooks : List Hook} {released : Bool} {p : Proceedings}
    {cell : Cell StartPoint} (h : StartPhase hooks released p cell)
    (howes : owesStatement cell = false) : Answered p.before := by
  unfold StartPhase at h
  split at h
  · rw [h.1]
    rfl
  · rw [h.1]
    rfl
  · exact answered_of_owes_nothing h.1 howes
  · exact h.1.answered_all
  · exact h.1.answered_all
  · exact h.1

/-- After hooks before the import starting owes what they owe. -/
theorem owes_start_hooks (s : State) (graph : String) (progress : HookProgress) :
    owesStatement (s.afterStartHooks graph progress).startCell = progress.owesStatement := by
  match progress with
  | .running run => rfl
  | .ended (.ok ()) => rfl
  | .ended (.error error) => rfl

/-! ## A phase that owes nothing stays silent -/

/-- Starting sends nothing any more if the run is being stopped and it owes no statement. -/
theorem State.Silenced.start (h : s.Silenced sent) {answer : Answer}
    (hstep : StartStep settings s answer next) : next.Silenced sent := by
  have hcancelled := hstep.effect.cancelled.trans h.cancelled
  cases hstep with
  | stopped | unopened => exact ⟨hcancelled, rfl, h.sent⟩
  | begun progress events hcell hrun =>
      rw [h.cancelled] at hrun
      cases hrun
  | hooked run answer progress events hcell hreceive =>
      have howes := h.owes
      rw [hcell] at howes
      obtain ⟨hsilent, -, hnext⟩ := silent_of_receive howes hreceive
      refine ⟨hcancelled, (owes_start_hooks _ _ _).trans hnext, ?_⟩
      rw [State.proceedings_start_hooks, sent_in_append, hsilent, List.append_nil]
      exact h.sent
  | opened =>
      have hopened := Proceedings.of_pool .poolOpened rfl s.history
      exact ⟨hcancelled, rfl, (congrArg (fun p => sentIn p.before) hopened).trans h.sent⟩

/-- No step makes a silenced run send a statement before the import. -/
theorem State.Silenced.step {label : Label} (h : s.Silenced sent)
    (hstep : Manager.step settings s label = some next) : next.Silenced sent := by
  cases conduct_step_of_transition (transition_of_step hstep) with
  | same hsame hcancelled =>
      exact ⟨hcancelled.trans h.cancelled, hsame.startCell ▸ h.owes, hsame.proceedings ▸ h.sent⟩
  | start answer hstep => exact h.start hstep
  | stop answer hstep =>
      obtain ⟨⟨events, hproceedings⟩, -, -, hstart, -, hcancelled, -⟩ := hstep.effect
      refine ⟨hcancelled h.cancelled, hstart ▸ h.owes, ?_⟩
      rw [hproceedings]
      exact h.sent
  | enter wish heffect =>
      refine ⟨heffect.cancelled.trans h.cancelled, ?_, heffect.proceedings ▸ h.sent⟩
      rcases heffect.startCell with hstart | ⟨-, hbegun⟩
      · rw [hstart]
        exact h.owes
      · rw [hbegun]
        rfl

/-! ## A phase that owes a statement may send it -/

/-- The hooks before the import go on with an answer. -/
theorem step_of_receive {run : HookRun} {answer : Answer} {progress : HookProgress}
    {events : List HookEvent} (hcell : s.startCell = .running (.hooks run))
    (hreceive : run.receive settings.graphName .before answer = some (progress, events)) :
    step settings s (.answer .starter answer) =
      some ((s.recordHooks .before events).afterStartHooks settings.graphName progress) := by
  show s.stepStart settings answer = _
  simp only [State.stepStart, hcell, hreceive, Option.map_some]

/-- Hooks that get to their next action, and have a statement left to send, have a way to go on by
which they send it: every pause before it elapses. -/
theorem exists_run_sending {rest : List HookAction} {client : Bool} {answer : Answer}
    {run : HookRun} {said : List HookEvent} (hrest : statementsIn rest ≠ [])
    (hcell : s.startCell = .running (.hooks run))
    (hreceive : run.receive settings.graphName .before answer =
      some ((HookRun.advance client rest).1, said ++ (HookRun.advance client rest).2)) :
    ∃ labels next, Manager.run settings s labels = some next ∧
      (sentIn s.proceedings.before).length < (sentIn next.proceedings.before).length := by
  induction rest generalizing s run answer said with
  | nil => exact absurd rfl hrest
  | cons action rest ih =>
      have hstep := step_of_receive hcell hreceive
      have hbefore := State.proceedings_start_hooks s settings.graphName
        (HookRun.advance client (action :: rest)).1
        (said ++ (HookRun.advance client (action :: rest)).2)
      cases action with
      | send statement =>
          refine ⟨[.answer .starter answer], _, Option.bind_eq_some_iff.mpr ⟨_, hstep, rfl⟩, ?_⟩
          rw [hbefore, sent_in_append, sent_in_append]
          show _ < (_ ++ (_ ++ [statement])).length
          rw [List.length_append, List.length_append, List.length_singleton]
          omega
      | pause duration =>
          have hpausing : ((s.recordHooks .before
              (said ++ (HookRun.advance client (.pause duration :: rest)).2)).afterStartHooks
                settings.graphName (HookRun.advance client (.pause duration :: rest)).1).startCell =
              .running (.hooks (.pausing client duration rest)) := rfl
          have helapsed : (HookRun.pausing client duration rest).receive settings.graphName .before
              .elapsed = some ((HookRun.advance client rest).1,
                [.paused duration] ++ (HookRun.advance client rest).2) := rfl
          obtain ⟨labels, next, hrun, hmore⟩ := ih hrest hpausing helapsed
          refine ⟨.answer .starter answer :: labels, next,
            Option.bind_eq_some_iff.mpr ⟨_, hstep, hrun⟩, ?_⟩
          refine Nat.lt_of_le_of_lt ?_ hmore
          rw [hbefore, sent_in_append, List.length_append]
          exact Nat.le_add_right _ _

/-- A statement that is owed is unanswered, or there is a way to go on by which it is sent. -/
theorem exists_unanswered_of_owes (settings : Settings) {all : List String} {run : HookRun}
    (hcell : s.startCell = .running (.hooks run)) (howes : run.owesStatement = true)
    (hfollows : (HookProgress.running run).Follows all s.proceedings.before) :
    ∃ labels next, Manager.run settings s labels = some next ∧
      (answeredIn s.proceedings.before).map Prod.fst ≠ sentIn next.proceedings.before := by
  have hlonger {next : State} (hanswered : Answered s.proceedings.before)
      (hmore : (sentIn s.proceedings.before).length < (sentIn next.proceedings.before).length) :
      (answeredIn s.proceedings.before).map Prod.fst ≠ sentIn next.proceedings.before := by
    intro hsame
    rw [← hsame, hanswered] at hmore
    exact Nat.lt_irrefl _ hmore
  cases run with
  | acquiring rest =>
      have hrest : statementsIn rest ≠ [] := by simpa [HookRun.owesStatement] using howes
      have hreceive : (HookRun.acquiring rest).receive settings.graphName .before
          (.client (.ok ())) =
            some ((HookRun.advance true rest).1, [] ++ (HookRun.advance true rest).2) := rfl
      obtain ⟨labels, next, hrun, hmore⟩ := exists_run_sending hrest hcell hreceive
      exact ⟨labels, next, hrun, hlonger hfollows.answered_all hmore⟩
  | sending statement rest =>
      -- The statement under way has no answer yet.
      obtain ⟨-, before, hsent, hanswered⟩ := hfollows
      refine ⟨[], s, rfl, ?_⟩
      rw [hanswered, hsent, List.map_map]
      intro hsame
      have hlength := congrArg List.length hsame
      rw [List.length_append, List.length_map, List.length_singleton] at hlength
      omega
  | pausing client duration rest =>
      have hrest : statementsIn rest ≠ [] := by simpa [HookRun.owesStatement] using howes
      have hreceive : (HookRun.pausing client duration rest).receive settings.graphName .before
          .elapsed = some ((HookRun.advance client rest).1,
            [.paused duration] ++ (HookRun.advance client rest).2) := rfl
      obtain ⟨labels, next, hrun, hmore⟩ := exists_run_sending hrest hcell hreceive
      exact ⟨labels, next, hrun, hlonger hfollows.answered_all hmore⟩
  | closing result => cases howes

/-! ## The two phases -/

/-- Only stopping makes the hooks after the import say anything. -/
theorem stop_effect_of_after {label : Label} (hstep : step settings s label = some next)
    (hafter : next.proceedings.after ≠ s.proceedings.after) : StopEffect s next := by
  cases conduct_step_of_transition (transition_of_step hstep) with
  | same hsame => exact absurd (congrArg Proceedings.after hsame.proceedings) hafter
  | start answer hstep =>
      obtain ⟨events, changes, hproceedings, -⟩ := hstep.effect.proceedings
      exact absurd (congrArg Proceedings.after hproceedings) hafter
  | stop answer hstep => exact hstep.effect
  | enter wish heffect => exact absurd (congrArg Proceedings.after heffect.proceedings) hafter

/-- Let a step send the first statement after the import. Every statement that is ever sent before
the import has been sent and answered by then, however the run goes on, if and only if the hooks
before the import have no statement under way and none left to send. -/
theorem phases_apart_iff {label : Label} (h : Reachable settings s)
    (hstep : step settings s label = some middle) (hnone : sentIn s.proceedings.after = [])
    (hsome : sentIn middle.proceedings.after ≠ []) :
    owesStatement s.startCell = false ↔
      ∀ labels next, run settings middle labels = some next →
        (answeredIn s.proceedings.before).map Prod.fst = sentIn next.proceedings.before := by
  have hconducted := State.conducted_of_reachable h
  have hreachable := h.step label hstep
  have hmiddle := State.conducted_of_reachable hreachable
  have hafter : middle.proceedings.after ≠ s.proceedings.after := by
    intro hsame
    exact hsome (hsame ▸ hnone)
  obtain ⟨⟨events, hproceedings⟩, -, -, hstart, -, -, -⟩ := stop_effect_of_after hstep hafter
  have hbefore : middle.proceedings.before = s.proceedings.before := by rw [hproceedings]
  constructor
  · intro howes labels next hrun
    -- The hooks after the import run only after the cancellation.
    have hlate : isLate middle.stopCell = true := by
      rw [← Bool.not_eq_false]
      intro hearly
      exact hsome (hmiddle.silent hearly ▸ rfl)
    have hphase := (State.drained_of_reachable hreachable).phase
    rw [State.stop_phase_late hlate] at hphase
    have hsilenced : middle.Silenced (sentIn s.proceedings.before) :=
      ⟨hphase.1, hstart ▸ howes, by rw [hbefore]⟩
    have hlast := kept_along_run State.Silenced.step hsilenced hrun
    rw [hconducted.start.answered howes, hlast.sent]
  · intro hanswered
    rw [← Bool.not_eq_true]
    intro howes
    cases hcell : s.startCell with
    | idle | done =>
        rw [hcell] at howes
        cases howes
    | running point =>
        cases point with
        | begun | opening =>
            rw [hcell] at howes
            cases howes
        | hooks run =>
            have hfollows := hconducted.start
            rw [hcell] at howes hfollows
            obtain ⟨labels, next, hrun, hunanswered⟩ :=
              exists_unanswered_of_owes settings (hstart.trans hcell) howes (hbefore ▸ hfollows.1)
            rw [hbefore] at hunanswered
            exact hunanswered (hanswered labels next hrun)

end

namespace Guarded

/-- The state in which the hook after the import gets its client. -/
def ready : State := (run settings (.initial settings) (labels.take 29)).getD (.initial settings)

/-- The state after it has sent its statement. -/
def sent : State :=
  (step settings ready (.answer .stopper (.client (.ok ())))).getD (.initial settings)

end Guarded

/-- Where the statement after the import of the guarded run is sent, the one before it has been
answered, and it is the only one that is ever sent before the import. -/
theorem phases_apart_guarded :
    sentIn Guarded.ready.proceedings.after = [] ∧
      sentIn Guarded.sent.proceedings.after = ["CLEAN"] ∧
      ∀ labels next, run Guarded.settings Guarded.sent labels = some next →
        sentIn next.proceedings.before = ["PREPARE"] := by
  have hready : Reachable Guarded.settings Guarded.ready := reachable_run _ _
  have hstep : step Guarded.settings Guarded.ready (.answer .stopper (.client (.ok ()))) =
      some Guarded.sent := some_of_possible (by decide +kernel)
  have hnone : sentIn Guarded.ready.proceedings.after = [] := by decide +kernel
  have hsome : sentIn Guarded.sent.proceedings.after = ["CLEAN"] := by decide +kernel
  have howes : owesStatement Guarded.ready.startCell = false := by decide +kernel
  have hapart := (phases_apart_iff hready hstep hnone (by rw [hsome]; nofun)).mp howes
  refine ⟨hnone, hsome, ?_⟩
  intro labels next hrun
  rw [← hapart labels next hrun]
  decide +kernel

/-! ## Phases that overlap -/

namespace Overlapping

/-- Before the import there is a pause of two hours between two statements. -/
def settings : Settings :=
  { statsInterval := none
    hooks := {
      before := [{ statements := ["A"], wait := .ofSecs 7200 }, { statements := ["B"] }]
      after := [{ statements := ["Z"] }] } }

/-- The run is stopped during the pause. -/
def labels : List Label := [
  .call .start, .answer (.caller 0) .go, .answer .starter .go, .answer .starter (.client (.ok ())),
  .answer .starter Sample.executed, .call .stop, .answer (.caller 1) .go, .answer .stopper .go,
  .answer .stopper .go, .answer .stopper .go, .answer .stopper .go]

/-- The state in which the hooks after the import get their client. -/
def ready : State := (run settings (.initial settings) labels).getD (.initial settings)

/-- The state after they have sent their first statement. -/
def sent : State :=
  (step settings ready (.answer .stopper (.client (.ok ())))).getD (.initial settings)

/-- The state after the pause. -/
def final : State := (run settings sent [.answer .starter .elapsed]).getD (.initial settings)

end Overlapping

/-- Stopping during a pause between two statements before the import makes the phases overlap: the
statement after the import is sent between them. -/
theorem phases_overlap :
    run Overlapping.settings (.initial Overlapping.settings) Overlapping.labels =
        some Overlapping.ready ∧
      step Overlapping.settings Overlapping.ready (.answer .stopper (.client (.ok ()))) =
        some Overlapping.sent ∧
      run Overlapping.settings Overlapping.sent [.answer .starter .elapsed] =
        some Overlapping.final ∧
      sentIn Overlapping.ready.proceedings.after = [] ∧
      sentIn Overlapping.sent.proceedings.after = ["Z"] ∧
      answeredIn Overlapping.sent.proceedings.before = [("A", true)] ∧
      sentIn Overlapping.final.proceedings.before = ["A", "B"] := by
  refine ⟨some_of_possible ?_, some_of_possible ?_, some_of_possible ?_, ?_⟩ <;> decide +kernel

end BulkLoad.Manager
