import BulkLoad.Proofs.Manager.Accounting
import BulkLoad.Proofs.Manager.Conduct
import BulkLoad.Proofs.Manager.Runs

/-!
# The client pool is opened and closed

The pool is opened at most once, and closed at most once and only when it is open. Stopping closes
it: after its hooks it looks, once, whether the pool is open. It does not wait for starting, which
looks whether the run is being stopped only at its beginning. `closing_of_run` says when the pool is
closed after all: starting must be done by the time stopping looks. Otherwise the pool may be opened
after that and is left open (`left_open`).
-/

namespace BulkLoad.Manager

/-- Along a run stopping looks whether the client pool is open before starting is done. -/
def LooksBeforeStart (settings : Settings) (labels : List Label) : Prop :=
  ∃ past label future looking after, labels = past ++ label :: future ∧
    run settings (.initial settings) past = some looking ∧
    step settings looking label = some after ∧
    hasLooked looking.stopCell = false ∧ hasLooked after.stopCell = true ∧
    looking.startCell.result? = none

/-- What a step does to the client pool. Its events are only added to, starting stays done, and the
pool is asked to close when stopping looks and finds it open, and at no other time. -/
structure PoolStep (s next : State) : Prop where
  grows : s.proceedings.pool <+: next.proceedings.pool
  started : ∀ result, s.startCell = .done result → next.startCell = .done result
  looked : hasLooked s.stopCell = true → hasLooked next.stopCell = true
  closing : .closing ∈ next.proceedings.pool ↔ .closing ∈ s.proceedings.pool ∨
    hasLooked s.stopCell = false ∧ hasLooked next.stopCell = true ∧ s.poolOpened = true

section

variable {settings : Settings} {s next : State} {labels : List Label}

/-! ## Step by step -/

/-- A step that is neither starting nor stopping leaves the pool alone. -/
theorem PoolStep.of_same (hproceedings : next.proceedings = s.proceedings)
    (hlooked : hasLooked next.stopCell = hasLooked s.stopCell)
    (hstarted : ∀ result, s.startCell = .done result → next.startCell = .done result) :
    PoolStep s next := by
  refine ⟨hproceedings ▸ List.prefix_rfl, hstarted, hlooked.trans, ?_⟩
  rw [hproceedings, hlooked]
  constructor
  · exact .inl
  · rintro (hclosing | ⟨hearly, hlate, -⟩)
    · exact hclosing
    · rw [hearly] at hlate
      cases hlate

/-- Starting may open the pool. -/
theorem StartEffect.pool_step (h : StartEffect s next) : PoolStep s next := by
  obtain ⟨⟨events, changes, hproceedings, hchanges⟩, ⟨point, hrunning⟩, hstop, -, -⟩ := h
  refine ⟨?_, ?_, ?_, ?_⟩
  · rw [hproceedings]
    exact List.prefix_append _ _
  · intro result hdone
    rw [hrunning] at hdone
    cases hdone
  · rw [hstop]
    exact id
  · rw [hproceedings, hstop, List.mem_append]
    constructor
    · exact fun hclosing => .inl (hclosing.resolve_right hchanges)
    · rintro (hclosing | ⟨hearly, hlate, -⟩)
      · exact .inl hclosing
      · rw [hearly] at hlate
        cases hlate

/-- Stopping may close the pool. -/
theorem StopEffect.pool_step (h : StopEffect s next) : PoolStep s next := by
  obtain ⟨⟨events, hproceedings⟩, hlooked, -, hstart, -, -, -⟩ := h
  refine ⟨?_, fun _ => hstart.trans, hlooked, ?_⟩
  · rw [hproceedings]
    exact List.prefix_append _ _
  · rw [hproceedings, List.mem_append]
    refine or_congr_right ?_
    cases hasLooked s.stopCell <;> cases hasLooked next.stopCell <;> cases s.poolOpened <;> simp

/-- Every step is such a step. -/
theorem pool_step {label : Label} (hstep : step settings s label = some next) :
    PoolStep s next := by
  cases conduct_step_of_transition (transition_of_step hstep) with
  | same hsame =>
      exact .of_same hsame.proceedings (by rw [hsame.stopCell]) fun _ => hsame.startCell.trans
  | start answer hstep => exact hstep.effect.pool_step
  | stop answer hstep => exact hstep.effect.pool_step
  | enter wish heffect =>
      refine .of_same heffect.proceedings ?_ ?_
      · rcases heffect.stopCell with hstop | ⟨-, hidle, hbegun⟩
        · rw [hstop]
        · rw [hidle, hbegun]
          rfl
      · intro result hdone
        rcases heffect.startCell with hstart | ⟨hidle, -⟩
        · exact hstart.trans hdone
        · rw [hidle] at hdone
          cases hdone

/-! ## Along a run -/

/-- Once stopping has looked, whether the pool is asked to close is settled. -/
theorem closing_settled (hlooked : hasLooked s.stopCell = true)
    (hrun : run settings s labels = some next) :
    hasLooked next.stopCell = true ∧
      (.closing ∈ next.proceedings.pool ↔ .closing ∈ s.proceedings.pool) := by
  refine kept_along_run (p := fun next => hasLooked next.stopCell = true ∧
    (.closing ∈ next.proceedings.pool ↔ .closing ∈ s.proceedings.pool)) ?_ ⟨hlooked, .rfl⟩ hrun
  rintro middle after label ⟨hlooked, hclosing⟩ hstep
  have hpool := pool_step hstep
  refine ⟨hpool.looked hlooked, ?_⟩
  rw [hpool.closing, hclosing, hlooked]
  simp

/-- Once starting is done, it stays so. -/
theorem started_settled {result : Result} (hdone : s.startCell = .done result)
    (hrun : run settings s labels = some next) : next.startCell = .done result :=
  kept_along_run (fun hdone hstep => (pool_step hstep).started _ hdone) hdone hrun

/-! ## Who stops the run -/

/-- Moving a call leaves what the calls call for alone. -/
theorem wishes_move (s : State) (n : Nat) (point : CallPoint) :
    (s.moveCall n point).calls.map Call.wish = s.calls.map Call.wish := by
  apply List.ext_getElem?
  intro i
  show (((s.calls.modify n _).map Call.wish)[i]?) = _
  rw [List.getElem?_map, List.getElem?_map, List.getElem?_modify]
  cases s.calls[i]? with
  | none => rfl
  | some c =>
      show some (Call.wish (if n = i then _ else c)) = some c.wish
      split <;> rfl

/-- Stopping begins only if some call does not merely start the run. -/
def State.Called (s : State) : Prop :=
  s.stopCell = .idle ∨ ∃ wish ∈ s.calls.map Call.wish, wish ≠ .start

/-- Every step keeps this. -/
theorem State.Called.step {label : Label} (h : s.Called)
    (hstep : Manager.step settings s label = some next) : next.Called := by
  have hsame {next : State} (hstop : next.stopCell = s.stopCell)
      (hcalls : next.calls.map Call.wish = s.calls.map Call.wish) : next.Called := by
    rw [Called, hstop, hcalls]
    exact h
  cases transition_of_step hstep with
  | «import» | clock => exact hsame rfl rfl
  | call wish =>
      refine h.imp_right ?_
      rintro ⟨other, hother, hwish⟩
      refine ⟨other, ?_, hwish⟩
      rw [List.map_append]
      exact List.mem_append_left _ hother
  | job n j answer _ hj hstep =>
      exact hsame hstep.same_control.stopCell (by rw [hstep.same_control.calls])
  | task n t answer _ ht hstep =>
      exact hsame hstep.effect.1.stopCell (by rw [hstep.effect.1.calls])
  | start answer _ hstep => exact hsame hstep.effect.stopCell (by rw [hstep.effect.work.calls])
  | stop answer _ hstep =>
      obtain ⟨point, hrunning⟩ := hstep.effect.running
      rw [Called, hrunning] at h
      refine .inr ?_
      rw [hstep.effect.work.calls]
      exact h.resolve_left nofun
  | report answer _ hstep =>
      cases hstep with
      | ticked | ended => exact hsame rfl rfl
  | caller n c _ hc hstep =>
      cases hstep with
      | waiting | readersDrained | answered => exact hsame rfl (wishes_move _ n _)
      | entered | importersDrained =>
          have heffect := enter_effect s n c.wish
          obtain ⟨m, hcalls⟩ := heffect.calls
          have hwishes : (s.enter n c.wish).calls.map Call.wish = s.calls.map Call.wish :=
            hcalls ▸ wishes_move s m .awaiting
          rcases heffect.stopCell with hstop | ⟨hwish, -, -⟩
          · exact hsame hstop hwishes
          · refine .inr ⟨c.wish, ?_, hwish⟩
            rw [hwishes]
            exact List.mem_map_of_mem (List.mem_of_getElem? hc)

/-- Stopping begins only for some call, in every state. -/
theorem called_of_reachable (h : Reachable settings s) : s.Called := by
  induction h with
  | initial => exact .inl rfl
  | step label _ hstep ih => exact ih.step hstep

/-- While every call merely starts the run, nobody stops it. -/
theorem stop_idle_of_reachable (h : Reachable settings s)
    (hstart : ∀ c ∈ s.calls, c.wish = .start) : s.stopCell = .idle := by
  refine (called_of_reachable h).resolve_right ?_
  rintro ⟨wish, hwish, hother⟩
  obtain ⟨c, hc, rfl⟩ := List.mem_map.mp hwish
  exact hother (hstart c hc)

/-- While every call in a run merely starts it, nobody stops it. -/
theorem stop_idle_of_run (hrun : run settings (.initial settings) labels = some s)
    (hstart : ∀ c ∈ s.calls, c.wish = .start) : s.stopCell = .idle :=
  stop_idle_of_reachable (reachable_of_run .initial hrun) hstart

/-! ## The pool is closed -/

/-- The pool goes through its states in order. -/
theorem pool_cases {pool : List PoolEvent} (h : pool <+: [.opening, .opened, .closing]) :
    pool = [] ∨ pool = [.opening] ∨ pool = [.opening, .opened] ∨
      pool = [.opening, .opened, .closing] := by
  simp only [List.prefix_cons_iff, List.prefix_nil] at h
  rcases h with rfl | ⟨rest, rfl, rfl | ⟨rest, rfl, rfl | ⟨rest, rfl, rfl⟩⟩⟩
  · exact .inl rfl
  · exact .inr (.inl rfl)
  · exact .inr (.inr (.inl rfl))
  · exact .inr (.inr (.inr rfl))

/-- Whether the pool is closed is decided where stopping looks: it is if starting has succeeded. -/
theorem closing_iff_of_look {label : Label} {future : List Label} {looking after : State}
    (hlooking : Reachable settings looking) (hstep : step settings looking label = some after)
    (hfuture : run settings after future = some s)
    (hearly : hasLooked looking.stopCell = false) (hlate : hasLooked after.stopCell = true) :
    .closing ∈ s.proceedings.pool ↔ looking.startCell = .done (.ok ()) := by
  have hconducted := State.conducted_of_reachable hlooking
  have hunclosed := hconducted.unclosed hearly
  rw [(closing_settled hlate hfuture).2, (pool_step hstep).closing, hearly, hlate,
    hconducted.flag, ← hconducted.start.opened_iff]
  rcases pool_cases hconducted.pool with hpool | hpool | hpool | hpool
  · simp [hpool]
  · simp [hpool]
  · simp [hpool]
  · rw [hpool] at hunclosed
    exact absurd (by decide) hunclosed

/-- At every moment of a run the pool has been opened at most once, and closed at most once and only
after that. If nobody stops the run, the pool is not closed. After somebody has stopped it the pool
is closed if and only if it was opened, unless stopping looked before starting was done. -/
theorem closing_of_run (hrun : run settings (.initial settings) labels = some s) :
    s.proceedings.pool <+: [.opening, .opened, .closing] ∧
      ((∀ c ∈ s.calls, c.wish = .start) → .closing ∉ s.proceedings.pool) ∧
      (s.stopReturned = true → (.closing ∈ s.proceedings.pool ↔
        .opened ∈ s.proceedings.pool ∧ ¬ LooksBeforeStart settings labels)) := by
  have hreachable := reachable_of_run .initial hrun
  have hconducted := State.conducted_of_reachable hreachable
  refine ⟨hconducted.pool, ?_, ?_⟩
  · intro hstart
    apply hconducted.unclosed
    rw [stop_idle_of_run hrun hstart]
    rfl
  · intro hreturned
    obtain ⟨result, hdone⟩ := (State.drained_of_reachable hreachable).done_of_returned hreturned
    have hlooked : hasLooked s.stopCell = true := by
      rw [hdone]
      rfl
    constructor
    · intro hclosing
      refine ⟨?_, ?_⟩
      · rcases pool_cases hconducted.pool with hpool | hpool | hpool | hpool
        all_goals rw [hpool] at hclosing ⊢
        · cases hclosing
        · exact absurd hclosing (by decide)
        · decide
        · decide
      -- Wherever stopping looked, starting had succeeded.
      rintro ⟨past, label, future, looking, after, rfl, hpast, hstep, hearly, hlate, hunstarted⟩
      obtain ⟨middle, hmiddle, hfuture⟩ := run_of_append hrun
      obtain rfl : looking = middle := Option.some.inj (hpast.symm.trans hmiddle)
      obtain ⟨next, hnext, hfuture⟩ := Option.bind_eq_some_iff.mp hfuture
      obtain rfl : after = next := Option.some.inj (hstep.symm.trans hnext)
      have hstarted := (closing_iff_of_look (reachable_of_run .initial hpast) hstep hfuture
        hearly hlate).mp hclosing
      rw [hstarted] at hunstarted
      cases hunstarted
    · rintro ⟨hopened, htimely⟩
      have hstarted := hconducted.start.opened_iff.mp hopened
      obtain ⟨past, label, future, looking, after, hlabels, hpast, hstep, hfuture, hearly, hlate⟩ :=
        exists_step_of_run (p := fun s => hasLooked s.stopCell) rfl hlooked hrun
      rw [closing_iff_of_look (reachable_of_run .initial hpast) hstep hfuture hearly hlate]
      -- Starting was done where stopping looked, with the result that it has at the end.
      cases hcell : looking.startCell with
      | idle | running =>
          exact absurd ⟨past, label, future, looking, after, hlabels, hpast, hstep, hearly, hlate,
            by rw [hcell]; rfl⟩ htimely
      | done result =>
          have hkept := started_settled ((pool_step hstep).started result hcell) hfuture
          rw [hkept] at hstarted
          exact hstarted

end

/-- The sample is stopped after it has been started: its pool is closed. -/
theorem closing_of_sample :
    run Sample.settings (.initial Sample.settings) Sample.labels = some Sample.final ∧
      Sample.final.stopReturned = true ∧ .closing ∈ Sample.final.proceedings.pool ∧
      ¬ LooksBeforeStart Sample.settings Sample.labels := by
  have hrun : run Sample.settings (.initial Sample.settings) Sample.labels = some Sample.final :=
    some_of_possible (by decide +kernel)
  have hreturned : Sample.final.stopReturned = true := by decide +kernel
  have hclosing : .closing ∈ Sample.final.proceedings.pool := by decide +kernel
  obtain ⟨-, -, hstopped⟩ := closing_of_run hrun
  exact ⟨hrun, hreturned, hclosing, ((hstopped hreturned).mp hclosing).2⟩

/-! ## A pool that is left open -/

namespace Hurried

/-- Nothing is sent before the import, but there is a pause of two hours. -/
def settings : Settings :=
  { statsInterval := none, hooks := { before := [{ wait := .ofSecs 7200 }] } }

/-- The run is stopped during the pause. -/
def labels : List Label := [
  .call .start, .answer (.caller 0) .go, .answer .starter .go, .call .stop,
  .answer (.caller 1) .go, .answer .stopper .go, .answer .stopper .go, .answer .stopper .go,
  .answer .stopper .go, .answer (.caller 1) .go, .answer .starter .elapsed,
  .answer .starter (.client (.ok ())), .answer (.caller 0) .go]

/-- The state at the end. -/
def final : State := (run settings (.initial settings) labels).getD (.initial settings)

end Hurried

/-- Stopping during a pause before the import leaves the pool open: it is opened after the pause,
both calls return, and nothing closes it. -/
theorem left_open :
    run Hurried.settings (.initial Hurried.settings) Hurried.labels = some Hurried.final ∧
      (∀ c ∈ Hurried.final.calls, c.point.isReturned = true) ∧
      Hurried.final.calls.map Call.wish = [.start, .stop] ∧
      Hurried.final.proceedings.pool = [.opening, .opened] := by
  refine ⟨some_of_possible (by decide +kernel), ?_, by decide +kernel, by decide +kernel⟩
  exact List.all_eq_true.mp (by decide +kernel)

end BulkLoad.Manager
