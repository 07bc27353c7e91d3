import Mathlib.Data.List.Induction
import BulkLoad.Proofs.Hook.Outcome
import BulkLoad.Proofs.Manager.Waiting

/-!
# Stopping happens once, and everyone gets its result

The body of stopping takes the turns that lead to the hooks after the import, then what the hooks
are answered, and at last the answer of a client pool that it has asked to close. All that it is
ever told is used up by one passage through these (`told_of_run`), whoever calls for the end of the
run and whenever. A call gets a result only once the body is done, and it is the result of the
body: that of the hooks, or if they have ended well that of closing the pool (`teardown_of_run`).
-/

namespace BulkLoad.Manager

/-! ## What stopping is told -/

/-- The answer that a label gives to the body of stopping, if any. -/
def Label.told? : Label → Option Answer
  | .answer .stopper given => some given
  | _ => none

/-- What the labels of a run tell the body of stopping, in order. -/
def toldStopper (labels : List Label) : List Answer := labels.filterMap Label.told?

/-- The result of stopping after the hooks and the closing of the client pool have ended. A failure
of the hooks counts for more than one to close. -/
def afterClosing (graph : String) (hooks : Result) (closed : Except ClientError Unit) : Result :=
  match hooks, closed with
  | .error error, _ => .error error
  | .ok (), .error error => .error (.clientPool graph error)
  | .ok (), .ok () => .ok ()

/-- What stopping has been told took it through its turns to the hooks, and these to where they
stand. -/
def ToldHooks (settings : Settings) (told : List Answer) (progress : HookProgress) : Prop :=
  ∃ turns answers, told = turns ++ answers ∧ (∀ answer ∈ turns, answer = .go) ∧
    hooksAfter settings.graphName .after settings.hooks.after answers = some progress

/-- What stopping has been told brought it to its end with this result. It ended with the hooks
unless the client pool was open by then, and with the pool otherwise. -/
inductive TornDown (settings : Settings) (told : List Answer) (pool : List PoolEvent)
    (result : Result) : Prop where
  | unopened (hhooks : ToldHooks settings told (.ended result)) (hpool : .closing ∉ pool)
  | closed (earlier : List Answer) (hooks : Result) (outcome : Except ClientError Unit)
      (htold : told = earlier ++ [.client outcome])
      (hhooks : ToldHooks settings earlier (.ended hooks)) (hpool : .closing ∈ pool)
      (hresult : result = afterClosing settings.graphName hooks outcome)

/-- What stopping has been told by the time it stands at a point. -/
def ToldStop (settings : Settings) (told : List Answer) (pool : List PoolEvent) :
    Cell StopPoint → Prop
  | .idle | .running .begun | .running (.drainingReaders _) | .running (.drainingImporters _)
  | .running (.collecting _ _) | .running .joining => ∀ answer ∈ told, answer = .go
  | .running (.hooks run) => ToldHooks settings told (.running run)
  | .running (.closing result) => ToldHooks settings told (.ended result) ∧ .closing ∈ pool
  | .done result => TornDown settings told pool result

/-- The statements of the hooks after the import that stopping has still to send. -/
def owedStop (all : List String) : Cell StopPoint → List String
  | .idle | .running .begun | .running (.drainingReaders _) | .running (.drainingImporters _)
  | .running (.collecting _ _) | .running .joining => all
  | .running (.hooks run) => run.owed
  | .running (.closing _) | .done _ => []

/-- How far stopping has got: through its turns, its hooks, and the closing of the pool. -/
def stopStage : Cell StopPoint → Nat
  | .idle => 0
  | .running .begun => 1
  | .running (.drainingReaders _) => 2
  | .running (.drainingImporters _) => 3
  | .running (.collecting _ _) => 4
  | .running .joining => 5
  | .running (.hooks _) => 6
  | .running (.closing _) => 7
  | .done _ => 8

section

variable {settings : Settings} {s next : State} {n : Nat} {label : Label} {answer : Answer}
  {labels : List Label} {told : List Answer} {pool : List PoolEvent} {progress : HookProgress}

/-- Whether the pool was asked to close is all that matters of it. -/
theorem ToldStop.same_pool {cell : Cell StopPoint} {other : List PoolEvent}
    (h : ToldStop settings told pool cell) (hpool : .closing ∈ other ↔ .closing ∈ pool) :
    ToldStop settings told other cell := by
  unfold ToldStop at h ⊢
  split at h
  · exact h
  · exact h
  · exact h
  · exact h
  · exact h
  · exact h
  · exact h
  · exact ⟨h.1, hpool.mpr h.2⟩
  · cases h with
    | unopened hhooks hnot => exact .unopened hhooks fun hmem => hnot (hpool.mp hmem)
    | closed earlier hooks outcome htold hhooks hmem hresult =>
        exact .closed earlier hooks outcome htold hhooks (hpool.mpr hmem) hresult

/-- A body that has not come to its hooks has been told nothing but turns, and one more turn is one
more of these. -/
theorem turns_concat (h : ∀ answer ∈ told, answer = .go) :
    ∀ answer ∈ told ++ [.go], answer = .go := by
  intro answer hanswer
  rcases List.mem_append.mp hanswer with hanswer | hanswer
  · exact h answer hanswer
  · exact List.mem_singleton.mp hanswer

/-- The turn after which the hooks begin leads to where they begin. -/
theorem told_hooks_begin (h : ∀ answer ∈ told, answer = .go) :
    ToldHooks settings (told ++ [.go]) (HookRun.begin settings.hooks.after).1 :=
  ⟨told ++ [.go], [], (List.append_nil _).symm, turns_concat h, rfl⟩

/-- An answer to the hooks leads on from where they stand. -/
theorem told_hooks_concat {run : HookRun} {said : List HookEvent}
    (h : ToldHooks settings told (.running run))
    (hreceive : run.receive settings.graphName .after answer = some (progress, said)) :
    ToldHooks settings (told ++ [answer]) progress := by
  obtain ⟨turns, answers, rfl, hturns, hafter⟩ := h
  exact ⟨turns, answers ++ [answer], List.append_assoc _ _ _, hturns,
    hooks_after_concat hafter hreceive⟩

/-! ## One step of stopping -/

/-- Where hooks that stand at this point leave stopping, and the closing of the pool with it. -/
theorem told_stop_hooks (h : ToldHooks settings told progress) (events : List HookEvent)
    (hunclosed : .closing ∉ s.proceedings.pool) :
    ToldStop settings told
      ((s.recordHooks .after events).afterStopHooks settings.graphName progress).proceedings.pool
      ((s.recordHooks .after events).afterStopHooks settings.graphName progress).stopCell := by
  rw [State.proceedings_stop_hooks]
  have hhooked := (s.recordHooks .after events).stop_hooked settings.graphName progress
  generalize (s.recordHooks .after events).afterStopHooks settings.graphName progress = next
    at hhooked ⊢
  cases hhooked with
  | running run => exact h
  | closing result lines hopened =>
      have hopened : s.poolOpened = true := hopened
      exact ⟨h, List.mem_append_right _ (by simp [hopened, HookProgress.isEnded])⟩
  | done result lines hunopened =>
      have hunopened : s.poolOpened = false := hunopened
      refine .unopened h ?_
      simpa [hunopened] using hunclosed

/-- An answer to the body of stopping is the next thing that it is told. -/
theorem StopStep.tells (h : StopStep settings s answer next) (hconducted : s.Conducted settings)
    (htold : ToldStop settings told s.proceedings.pool s.stopCell) :
    ToldStop settings (told ++ [answer]) next.proceedings.pool next.stopCell := by
  have hunlooked (hlooked : hasLooked s.stopCell = false) : .closing ∉ s.proceedings.pool :=
    hconducted.unclosed hlooked
  cases h with
  | begun hcell | readersDrained _ hcell | importersDrained _ hcell
  | collected _ _ _ _ _ _ _ hcell | joining _ _ hcell =>
      rw [hcell] at htold
      exact turns_concat htold
  | unhooked lines hcell =>
      have hturns : ∀ answer ∈ told, answer = .go := by
        rcases hcell with ⟨failed, hcell, -⟩ | ⟨hcell, -⟩ <;> rw [hcell] at htold <;> exact htold
      have hearly : hasLooked s.stopCell = false := by
        rcases hcell with ⟨failed, hcell, -⟩ | ⟨hcell, -⟩ <;> rw [hcell] <;> rfl
      have hpool : (s.report lines).proceedings = s.proceedings :=
        Proceedings.of_report lines s.history
      exact told_stop_hooks (told_hooks_begin hturns) _ (hpool ▸ hunlooked hearly)
  | hooked run answer progress events hcell hreceive =>
      have hearly : hasLooked s.stopCell = false := by rw [hcell]; rfl
      rw [hcell] at htold
      exact told_stop_hooks (told_hooks_concat htold hreceive) events (hunlooked hearly)
  | closed result outcome hcell =>
      rw [hcell] at htold
      obtain ⟨hhooks, hclosing⟩ := htold
      cases outcome with
      | ok => cases result <;> exact .closed told _ _ rfl hhooks hclosing rfl
      | error error => cases result <;> exact .closed told _ _ rfl hhooks hclosing rfl

/-- An answer to the body of stopping makes it send statements that it owes, in their turn. -/
theorem StopStep.owes (h : StopStep settings s answer next) {all : List String}
    (hall : all = settings.hooks.after.flatMap Hook.sent)
    (howed : sentIn s.proceedings.after ++ owedStop all s.stopCell <+: all) :
    sentIn next.proceedings.after ++ owedStop all next.stopCell <+: all := by
  -- The hooks say something and come to stand somewhere.
  have hhooks (base : State) (progress : HookProgress) (events : List HookEvent)
      (hbase : base.proceedings = s.proceedings)
      (hsaid : sentIn events ++ progress.owed <+: owedStop all s.stopCell) :
      sentIn ((base.recordHooks .after events).afterStopHooks settings.graphName
          progress).proceedings.after ++
        owedStop all ((base.recordHooks .after events).afterStopHooks settings.graphName
          progress).stopCell <+: all := by
    have hafter : owedStop all ((base.recordHooks .after events).afterStopHooks settings.graphName
        progress).stopCell = progress.owed := by
      have hhooked := (base.recordHooks .after events).stop_hooked settings.graphName progress
      generalize (base.recordHooks .after events).afterStopHooks settings.graphName progress = next
        at hhooked ⊢
      cases hhooked with
      | running | closing | done => rfl
    rw [hafter, State.proceedings_stop_hooks, hbase, sent_in_append, List.append_assoc]
    exact ((List.prefix_append_right_inj _).mpr hsaid).trans howed
  cases h with
  | begun hcell | readersDrained _ hcell | importersDrained _ hcell =>
      rw [hcell] at howed
      exact howed
  | collected _ _ _ _ _ _ lines hcell | joining _ lines hcell =>
      rw [hcell] at howed
      have hsame : (s.report lines).proceedings = s.proceedings :=
        Proceedings.of_report lines s.history
      show sentIn (s.report lines).proceedings.after ++ all <+: all
      rw [hsame]
      exact howed
  | unhooked lines hcell =>
      have hall' : owedStop all s.stopCell = all := by
        rcases hcell with ⟨failed, hcell, -⟩ | ⟨hcell, -⟩ <;> rw [hcell] <;> rfl
      refine hhooks (s.report lines) (HookRun.begin settings.hooks.after).1
        (HookRun.begin settings.hooks.after).2 (Proceedings.of_report lines s.history) ?_
      rw [hall', owed_of_begin]
      exact hall ▸ List.prefix_rfl
  | hooked run answer progress events hcell hreceive =>
      refine hhooks s _ _ rfl ?_
      rw [hcell]
      exact owed_of_receive hreceive
  | closed result outcome hcell =>
      rw [hcell] at howed
      cases outcome with
      | ok | error => exact howed

/-! ## Stopping along a run -/

/-- An answer to the body of stopping does not undo its beginning. -/
theorem StopStep.not_idle (h : StopStep settings s answer next) : next.stopCell ≠ .idle := by
  have hhooks (base : State) (graph : String) (progress : HookProgress) :
      (base.afterStopHooks graph progress).stopCell ≠ .idle := by
    intro hidle
    obtain ⟨-, -, hlate, -⟩ := base.control_stop_hooks graph progress
    rw [hidle] at hlate
    cases hlate
  cases h with
  | begun | readersDrained | importersDrained | collected | joining => nofun
  | unhooked | hooked => exact hhooks _ _ _
  | closed result outcome => cases outcome <;> nofun

/-- The hooks after the import are not behind the turns that lead to them. -/
theorem stage_stop_hooks (s : State) (graph : String) (progress : HookProgress) :
    6 ≤ stopStage (s.afterStopHooks graph progress).stopCell := by
  have hhooked := s.stop_hooked graph progress
  generalize s.afterStopHooks graph progress = next at hhooked ⊢
  cases hhooked with
  | running | closing | done => exact Nat.le_of_ble_eq_true rfl

/-- An answer to the body of stopping never leads back. -/
theorem StopStep.stage (h : StopStep settings s answer next) :
    stopStage s.stopCell ≤ stopStage next.stopCell := by
  cases h with
  | begun hcell | readersDrained _ hcell | importersDrained _ hcell
  | collected _ _ _ _ _ _ _ hcell | joining _ _ hcell =>
      rw [hcell]
      exact Nat.le_of_ble_eq_true rfl
  | unhooked lines hcell =>
      refine Nat.le_trans ?_ (stage_stop_hooks _ _ _)
      rcases hcell with ⟨failed, hcell, -⟩ | ⟨hcell, -⟩ <;> rw [hcell] <;>
        exact Nat.le_of_ble_eq_true rfl
  | hooked run answer progress events hcell hreceive =>
      rw [hcell]
      exact stage_stop_hooks _ _ _
  | closed result outcome hcell =>
      rw [hcell]
      cases outcome <;> exact Nat.le_of_ble_eq_true rfl

/-- Stopping never begins anew, and once it is done it keeps its result. -/
theorem stop_cell_of_transition (h : Transition settings s label next) :
    (s.stopCell ≠ .idle → next.stopCell ≠ .idle) ∧
      ∀ result, s.stopCell = .done result → next.stopCell = .done result := by
  have hsame (hcell : next.stopCell = s.stopCell) : (s.stopCell ≠ .idle → next.stopCell ≠ .idle) ∧
      ∀ result, s.stopCell = .done result → next.stopCell = .done result := by
    rw [hcell]
    exact ⟨id, fun _ => id⟩
  cases conduct_step_of_transition h with
  | same heffect => exact hsame heffect.stopCell
  | start answer hstep => exact hsame hstep.effect.stopCell
  | stop answer hstep =>
      obtain ⟨point, hrunning⟩ := hstep.effect.running
      refine ⟨fun _ => hstep.not_idle, fun result hdone => ?_⟩
      rw [hrunning] at hdone
      cases hdone
  | enter wish heffect =>
      rcases heffect.stopCell with hcell | ⟨-, hidle, -⟩
      · exact hsame hcell
      · refine ⟨fun hnot => absurd hidle hnot, fun result hdone => ?_⟩
        rw [hidle] at hdone
        cases hdone

/-- A step that tells stopping nothing leaves it where it stands, unless a call lets it begin, and
says nothing in the name of the hooks after the import. -/
theorem untold_of_transition (h : Transition settings s label next) (hlabel : label.told? = none) :
    (next.stopCell = s.stopCell ∨ s.stopCell = .idle ∧ next.stopCell = .running .begun) ∧
      next.proceedings.after = s.proceedings.after := by
  have hsame (heffect : SameConduct s next) :
      (next.stopCell = s.stopCell ∨ s.stopCell = .idle ∧ next.stopCell = .running .begun) ∧
        next.proceedings.after = s.proceedings.after :=
    ⟨.inl heffect.stopCell, by rw [heffect.proceedings]⟩
  cases h with
  | «import» | call | clock => exact hsame ⟨rfl, rfl, rfl, rfl, rfl⟩
  | job n j answer _ hj hstep => exact hsame hstep.same_conduct
  | task n t answer _ ht hstep => exact hsame hstep.same_conduct
  | start answer _ hstep =>
      obtain ⟨events, changes, hproceedings, -⟩ := hstep.effect.proceedings
      exact ⟨.inl hstep.effect.stopCell, by rw [hproceedings]⟩
  | stop => cases hlabel
  | report answer _ hstep =>
      cases hstep with
      | ticked | ended => exact hsame ⟨rfl, rfl, rfl, rfl, rfl⟩
  | caller k c _ hc hstep =>
      cases hstep with
      | waiting | readersDrained | answered => exact hsame ⟨rfl, rfl, rfl, rfl, rfl⟩
      | entered | importersDrained =>
          have heffect := enter_effect s k c.wish
          exact ⟨heffect.stopCell.imp_right And.right, by rw [heffect.proceedings]⟩

/-- What stopping has been told along a run from its beginning, and the statements it has sent. -/
theorem told_of_run (hrun : run settings (.initial settings) labels = some s) :
    ToldStop settings (toldStopper labels) s.proceedings.pool s.stopCell ∧
      sentIn s.proceedings.after ++ owedStop (settings.hooks.after.flatMap Hook.sent) s.stopCell <+:
        settings.hooks.after.flatMap Hook.sent := by
  induction labels using List.reverseRecOn generalizing s with
  | nil =>
      cases hrun
      exact ⟨nofun, List.prefix_rfl⟩
  | append_singleton labels label ih =>
      obtain ⟨middle, hpast, hstep⟩ := Steps.concat_iff.mp hrun
      obtain ⟨htold, howed⟩ := ih hpast
      have htransition := transition_of_step hstep
      rw [toldStopper, List.filterMap_append, ← toldStopper]
      cases hlabel : label.told? with
      | none =>
          obtain ⟨hcell, hafter⟩ := untold_of_transition htransition hlabel
          have hclosing := (pool_step hstep).closing
          rw [List.filterMap_cons_none hlabel, List.filterMap_nil, List.append_nil, hafter]
          rcases hcell with hsame | ⟨hidle, hbegun⟩
          · rw [hsame] at hclosing ⊢
            refine ⟨htold.same_pool (hclosing.trans (or_iff_left ?_)), howed⟩
            rintro ⟨hearly, hlate, -⟩
            rw [hearly] at hlate
            cases hlate
          · rw [hidle] at htold howed
            rw [hbegun]
            exact ⟨htold, howed⟩
      | some given =>
          rw [List.filterMap_cons_some hlabel, List.filterMap_nil]
          cases htransition with
          | stop answer _ hstop =>
              obtain rfl : answer = given := Option.some.inj hlabel
              have hconducted := State.conducted_of_reachable (reachable_of_run .initial hpast)
              exact ⟨hstop.tells hconducted htold, hstop.owes rfl howed⟩
          | «import» | call | clock | job | task | start | report | caller => cases hlabel

/-! ## Who gets the result -/

/-- A call that has been told how the end of the run went has got the result of stopping, and one
that waits for it has let stopping begin. -/
structure State.Shared (s : State) : Prop where
  returned : ∀ c ∈ s.calls, c.wish ≠ .start → ∀ result, c.point = .returned result →
    s.stopCell = .done result
  awaiting : ∀ c ∈ s.calls, c.wish ≠ .start → c.point = .awaiting → s.stopCell ≠ .idle

/-- A call that lets stopping begin, or finds it begun, does not find it idle afterwards. -/
theorem not_idle_of_enter (s : State) (k : Nat) {wish : Wish} (hwish : wish ≠ .start) :
    (s.enter k wish).stopCell ≠ .idle := by
  intro hnext
  have hidle : s.stopCell = .idle := by
    rcases (enter_effect s k wish).stopCell with hsame | ⟨-, hidle, -⟩
    · exact hsame ▸ hnext
    · exact hidle
  have hcell : (s.moveCall k .awaiting).stopCell = .idle := hidle
  cases wish with
  | start => exact hwish rfl
  | stop | wait =>
      simp only [State.enter, hcell] at hnext
      cases hnext

/-- Every step keeps this. -/
theorem State.Shared.transition (h : s.Shared) (hstep : Transition settings s label next) :
    next.Shared := by
  obtain ⟨hbegun, hdone⟩ := stop_cell_of_transition hstep
  -- Calls that are not touched have the result that they had.
  have hkept (c : Call) (hc : c ∈ s.calls) (hwish : c.wish ≠ .start) :
      (∀ result, c.point = .returned result → next.stopCell = .done result) ∧
        (c.point = .awaiting → next.stopCell ≠ .idle) :=
    ⟨fun result hpoint => hdone result (h.returned c hc hwish result hpoint),
      fun hpoint => hbegun (h.awaiting c hc hwish hpoint)⟩
  rcases calls_of_transition hstep with hsame | ⟨wish, -, hjoined⟩ | ⟨k, d, hd, hcall⟩
  · exact ⟨fun c hc hwish => (hkept c (hsame ▸ hc) hwish).1,
      fun c hc hwish => (hkept c (hsame ▸ hc) hwish).2⟩
  · have hnew (c : Call) (hc : c ∈ next.calls) (hold : c ∉ s.calls) : c.point = .begun := by
      rw [hjoined] at hc
      obtain rfl := List.mem_singleton.mp ((List.mem_append.mp hc).resolve_left hold)
      rfl
    constructor
    · intro c hc hwish result hpoint
      by_cases hold : c ∈ s.calls
      · exact (hkept c hold hwish).1 result hpoint
      · rw [hnew c hc hold] at hpoint
        cases hpoint
    · intro c hc hwish hpoint
      by_cases hold : c ∈ s.calls
      · exact (hkept c hold hwish).2 hpoint
      · rw [hnew c hc hold] at hpoint
        cases hpoint
  · have hmoved {point : CallPoint} (hcalls : next.calls = (s.moveCall k point).calls)
        (hreturned : d.wish ≠ .start → ∀ result, point = .returned result →
          next.stopCell = .done result)
        (hawaiting : d.wish ≠ .start → point = .awaiting → next.stopCell ≠ .idle) :
        next.Shared := by
      constructor
      · intro c hc hwish result hpoint
        rcases mem_of_moved hd (hcalls ▸ hc) with rfl | hc
        · exact hreturned hwish result hpoint
        · exact (hkept c hc hwish).1 result hpoint
      · intro c hc hwish hpoint
        rcases mem_of_moved hd (hcalls ▸ hc) with rfl | hc
        · exact hawaiting hwish hpoint
        · exact (hkept c hc hwish).2 hpoint
    cases hcall with
    | waiting | readersDrained => exact hmoved rfl nofun nofun
    | entered | importersDrained =>
        exact hmoved (calls_enter s k d.wish) nofun fun hwish _ => not_idle_of_enter s k hwish
    | answered result hpoint hresult =>
        refine hmoved rfl (fun hwish other hother => ?_) nofun
        obtain rfl : result = other := CallPoint.returned.inj hother
        cases hwish' : d.wish with
        | start => exact absurd hwish' hwish
        | stop | wait =>
            rw [hwish', State.awaited?] at hresult
            show s.stopCell = .done result
            cases hcell : s.stopCell with
            | idle | running =>
                rw [hcell] at hresult
                cases hresult
            | done other =>
                rw [hcell] at hresult
                cases hresult
                rfl

/-- In every reachable state the result of stopping is shared. -/
theorem shared_of_reachable (h : Reachable settings s) : s.Shared := by
  induction h with
  | initial => exact ⟨nofun, nofun⟩
  | step label h hstep ih => exact ih.transition (transition_of_step hstep)

/-- Once stopping is done nothing more of it happens: it keeps its result, the hooks after
the import send nothing, and the client pool is not asked to close. -/
theorem done_of_run {result : Result} (hdone : s.stopCell = .done result)
    (hrun : run settings s labels = some next) :
    next.stopCell = .done result ∧ next.proceedings.after = s.proceedings.after ∧
      (.closing ∈ next.proceedings.pool ↔ .closing ∈ s.proceedings.pool) := by
  have hlooked : hasLooked s.stopCell = true := by rw [hdone]; rfl
  have hkept : next.stopCell = .done result ∧ next.proceedings.after = s.proceedings.after := by
    refine kept_along_run (p := fun next => next.stopCell = .done result ∧
      next.proceedings.after = s.proceedings.after) ?_ ⟨hdone, rfl⟩ hrun
    rintro middle after label ⟨hdone, hafter⟩ hstep
    have htransition := transition_of_step hstep
    refine ⟨(stop_cell_of_transition htransition).2 _ hdone, ?_⟩
    cases hlabel : label.told? with
    | none => exact (untold_of_transition htransition hlabel).2.trans hafter
    | some given =>
        cases htransition with
        | stop answer _ hstop =>
            obtain ⟨point, hrunning⟩ := hstop.effect.running
            rw [hdone] at hrunning
            cases hrunning
        | «import» | call | clock | job | task | start | report | caller => cases hlabel
  exact ⟨hkept.1, hkept.2, (closing_settled hlooked hrun).2⟩

/-- Stopping never goes back. -/
theorem stage_of_run (hrun : run settings s labels = some next) :
    stopStage s.stopCell ≤ stopStage next.stopCell := by
  refine kept_along_run (p := fun next => stopStage s.stopCell ≤ stopStage next.stopCell) ?_
    (Nat.le_refl _) hrun
  intro middle after label hstage hstep
  refine Nat.le_trans hstage ?_
  cases conduct_step_of_transition (transition_of_step hstep) with
  | same heffect => exact Nat.le_of_eq (by rw [heffect.stopCell])
  | start answer hstep => exact Nat.le_of_eq (by rw [hstep.effect.stopCell])
  | stop answer hstep => exact hstep.stage
  | enter wish heffect =>
      rcases heffect.stopCell with hcell | ⟨-, hidle, -⟩
      · exact Nat.le_of_eq (by rw [hcell])
      · rw [hidle]
        exact Nat.zero_le _

/-- A call that waits for the result of stopping gets it as soon as there is one. -/
theorem step_of_awaiting {c : Call} {result : Result} (hc : s.calls[n]? = some c)
    (hwish : c.wish ≠ .start) (hpoint : c.point = .awaiting) (hdone : s.stopCell = .done result) :
    step settings s (.answer (.caller n) .go) = some (s.moveCall n (.returned result)) := by
  have hawaited : s.awaited? c.wish = some result := by
    cases hwish' : c.wish with
    | start => exact absurd hwish' hwish
    | stop | wait =>
        rw [State.awaited?, hdone]
        rfl
  show s.stepCall n = _
  simp only [State.stepCall, hc, hpoint, hawaited, Option.map_some]

/-- Whoever calls for the end of a run and whenever, stopping never goes back to where it has been,
the hooks after the import send each of their statements at most once and in order, and the client
pool is asked to close at most once. A call that waits for the result finds stopping begun, and gets
the result as soon as stopping is done; none gets one before, and all get the same. The result is
that of the hooks, or if they have ended well that of closing the pool, and after it nothing more
happens. -/
theorem teardown_of_run (hrun : run settings (.initial settings) labels = some s) :
    (∀ later next, run settings s later = some next →
      stopStage s.stopCell ≤ stopStage next.stopCell) ∧
    sentIn s.proceedings.after <+: settings.hooks.after.flatMap Hook.sent ∧
    s.proceedings.pool <+: [.opening, .opened, .closing] ∧
    (∀ n c, s.calls[n]? = some c → c.wish ≠ .start → c.point = .awaiting →
      s.stopCell ≠ .idle ∧ ∀ result, s.stopCell = .done result →
        step settings s (.answer (.caller n) .go) = some (s.moveCall n (.returned result))) ∧
    ∀ c ∈ s.calls, c.wish ≠ .start → ∀ result, c.point = .returned result →
      s.stopCell = .done result ∧
      TornDown settings (toldStopper labels) s.proceedings.pool result ∧
      ∀ later next, run settings s later = some next →
        next.proceedings.after = s.proceedings.after ∧
        (.closing ∈ next.proceedings.pool ↔ .closing ∈ s.proceedings.pool) ∧
        ∀ other ∈ next.calls, other.wish ≠ .start → ∀ answer, other.point = .returned answer →
          answer = result := by
  have hreachable : Reachable settings s := reachable_of_run .initial hrun
  have hshared := shared_of_reachable hreachable
  obtain ⟨htold, howed⟩ := told_of_run hrun
  refine ⟨fun _ _ hlater => stage_of_run hlater, (List.prefix_append _ _).trans howed,
    (State.conducted_of_reachable hreachable).pool, ?_, ?_⟩
  · intro n c hc hwish hpoint
    exact ⟨hshared.awaiting c (List.mem_of_getElem? hc) hwish hpoint,
      fun result => step_of_awaiting hc hwish hpoint⟩
  · intro c hc hwish result hpoint
    have hdone := hshared.returned c hc hwish result hpoint
    rw [hdone] at htold
    refine ⟨hdone, htold, fun later next hlater => ?_⟩
    obtain ⟨hlast, hafter, hclosing⟩ := done_of_run hdone hlater
    refine ⟨hafter, hclosing, fun other hother hwish answer hanswer => ?_⟩
    have hanswered :=
      (shared_of_reachable (reachable_of_run hreachable hlater)).returned other hother hwish answer
        hanswer
    rw [hlast] at hanswered
    cases hanswered
    rfl

end

/-! ## A run whose hooks and whose pool fail -/

namespace Sweeping

/-- Two statements are to be sent after the import. -/
def settings : Settings :=
  { statsInterval := none, hooks := { after := [{ statements := ["CLEAN", "SWEEP"] }] } }

/-- The run is stopped and waited for at the same time, and stopped again later. The server refuses
the second statement, and the client pool cannot be closed. -/
def labels : List Label := [
  .call .start, .answer (.caller 0) .go, .answer .starter .go,
  .answer .starter (.client (.ok ())), .answer (.caller 0) .go, .call .wait,
  .answer (.caller 1) .go, .call .stop, .answer (.caller 2) .go, .answer (.caller 1) .go,
  .answer .stopper .go, .answer .stopper .go, .answer (.caller 1) .go, .answer .stopper .go,
  .answer .stopper .go, .answer .stopper (.client (.ok ())), .answer .stopper Sample.executed,
  .answer .stopper (.reply (.ok (.failure "denied"))), .answer .stopper (.client (.ok ())),
  .answer .stopper (.client (.error (.transport "gone"))), .answer (.caller 2) .go,
  .answer (.caller 1) .go, .call .stop, .answer (.caller 3) .go, .answer (.caller 3) .go]

/-- The state at the end. -/
def final : State := (run settings (.initial settings) labels).getD (.initial settings)

end Sweeping

/-- All three calls get the failure of the hooks, although the client pool has failed as well. -/
theorem teardown_of_sweeping :
    (Sweeping.final.calls.drop 1).map Call.wish = [.wait, .stop, .stop] ∧
      Sweeping.final.stopCell.result? =
        some (.error (.hook "" .after "SWEEP" "denied")) ∧
      (∀ c ∈ Sweeping.final.calls.drop 1, ∃ result, c.point = .returned result ∧
        Sweeping.final.stopCell = .done result ∧
        TornDown Sweeping.settings (toldStopper Sweeping.labels)
          Sweeping.final.proceedings.pool result) := by
  have hrun : run Sweeping.settings (.initial Sweeping.settings) Sweeping.labels =
      some Sweeping.final := some_of_possible (by decide +kernel)
  refine ⟨by decide +kernel, by decide +kernel, fun c hc => ?_⟩
  have hreturned : ∀ c ∈ Sweeping.final.calls.drop 1,
      c.wish ≠ .start ∧ c.point.isReturned = true := by decide +kernel
  obtain ⟨hwish, hpoint⟩ := hreturned c hc
  obtain ⟨result, hresult⟩ : ∃ result, c.point = .returned result := by
    cases hc' : c.point with
    | returned result => exact ⟨result, rfl⟩
    | begun | drainingReaders | drainingImporters | awaiting =>
        rw [hc'] at hpoint
        cases hpoint
  obtain ⟨-, -, -, -, hall⟩ := teardown_of_run hrun
  obtain ⟨hdone, htorn, -⟩ := hall c (List.mem_of_mem_drop hc) hwish result hresult
  exact ⟨result, hresult, hdone, htorn⟩

end BulkLoad.Manager
