import BulkLoad.Manager.Threads
import BulkLoad.Proofs.Manager.Collecting
import BulkLoad.Proofs.Manager.Workers

/-!
# What holds while calls register jobs on several threads

The parts of a call that registers a job may be far apart. `Sound` says what holds between any two
of them: the call holds the units until it hands the job over, which stands still until then, and a
job that stopping does not get to see is one that such a call has yet to keep, or kept too late. It
holds in every reachable state (`sound_of_reachable`). No job is kept too late if no call had found
the readers open when stopping took up the jobs (`none_kept_of_run`). A run whose stretches are not
taken apart is one of these runs (`reachable_of_uninterrupted`).
-/

namespace BulkLoad.Manager.Threads

/-! ## The calls that register jobs -/

/-- How many units of each of its importers a call holds at this stage. It hands them over with the
job. -/
def Stage.shares : Stage → Nat
  | .holding | .admitted => 1
  | .handed => 0

/-- A call holds units until it hands over its job. -/
theorem Stage.shares_eq_one_iff {stage : Stage} : stage.shares = 1 ↔ stage ≠ .handed := by
  constructor
  · rintro hshares rfl
    cases hshares
  · intro hearly
    cases stage with
    | holding | admitted => rfl
    | handed => exact absurd rfl hearly

/-- The units of the importers with a name that a call holds. -/
def Registration.held (r : Registration) (name : String) : Nat :=
  r.stage.shares * named r.importers name

namespace State

/-- The units of the importers with a name that calls hold. -/
def taken (s : State) (name : String) : Nat := (s.registering.map fun r => r.held name).sum

/-- The jobs that stopping may not get to see: those that a call has yet to keep, and those that
were kept after stopping had taken up the others. -/
def unseen (s : State) : List Nat :=
  s.registering.map Registration.job ++ if isLate s.run.stopCell then s.run.uncollected else []

/-- What holds of every state: what holds of a run, with the units that the calls hold and the jobs
that stopping may not get to see, and the job of a call stands still until it is handed over. -/
structure Sound (settings : Settings) (s : State) : Prop where
  drained : s.run.Drained
  staffed : s.run.Staffed settings
  holding : s.run.Holding s.taken
  collected : s.run.Collected s.unseen
  sizing : ∀ r ∈ s.registering, r.stage ≠ .handed →
    ∃ j : Job, s.run.jobs[r.job]? = some j ∧ j.point = .sizing ∧ j.importers = r.importers
  distinct : (s.registering.map Registration.job).Nodup

end State

section

variable {settings : Settings} {s next : State} {n : Nat} {r : Registration}
  {before middle later : List Registration}

/-- A call, which is the only one that registers its job, stands between others that neither another
stage of it nor its end concerns. -/
theorem split_of_registration (hr : s.registration? n = some r)
    (hdistinct : (s.registering.map Registration.job).Nodup) :
    r.job = n ∧ ∃ before later, s.registering = before ++ r :: later ∧
      (∀ stage, (s.advance n stage).registering = before ++ { r with stage } :: later) ∧
      (s.leave n).registering = before ++ later := by
  obtain ⟨hjob, before, later, hsplit, -⟩ := List.find?_eq_some_iff_append.mp hr
  obtain rfl : r.job = n := eq_of_beq hjob
  rw [hsplit, List.map_append, List.map_cons, List.nodup_append] at hdistinct
  obtain ⟨-, hlater, hbefore⟩ := hdistinct
  have hleft : ∀ other ∈ before, other.job ≠ r.job := fun other hother =>
    hbefore _ (List.mem_map_of_mem hother) _ List.mem_cons_self
  have hright : ∀ other ∈ later, other.job ≠ r.job := fun other hother hsame =>
    (List.nodup_cons.mp hlater).1 (hsame ▸ List.mem_map_of_mem hother)
  have hadvance (stage : Stage) (calls : List Registration)
      (hne : ∀ other ∈ calls, other.job ≠ r.job) :
      (calls.map fun other => if other.job == r.job then { other with stage } else other) =
        calls := by
    refine (List.map_congr_left fun other hother => ?_).trans (List.map_id calls)
    rw [beq_false_of_ne (hne other hother)]
    rfl
  have hleave (calls : List Registration) (hne : ∀ other ∈ calls, other.job ≠ r.job) :
      (calls.filter fun other => other.job != r.job) = calls :=
    List.filter_eq_self.mpr fun other hother => bne_iff_ne.mpr (hne other hother)
  refine ⟨rfl, before, later, hsplit, fun stage => ?_, ?_⟩
  · rw [State.advance, hsplit, List.map_append, List.map_cons, hadvance stage before hleft,
      hadvance stage later hright, if_pos (beq_self_eq_true _)]
  · rw [State.leave, hsplit, List.filter_append, List.filter_cons_of_neg (by simp),
      hleave before hleft, hleave later hright]

/-- What the calls hold after one of them has gone on. -/
theorem taken_replaced (hsplit : s.registering = before ++ r :: later)
    (hnext : next.registering = before ++ middle ++ later) (name : String) :
    next.taken name + r.held name = s.taken name + (middle.map fun r => r.held name).sum := by
  rw [State.taken, State.taken, hsplit, hnext]
  simp only [List.map_append, List.map_cons, List.sum_append, List.sum_cons]
  omega

/-- When a call has gone on stopping may not get to see the same jobs as before, except for that of
the call. -/
theorem unseen_replaced (hsplit : s.registering = before ++ r :: later)
    (hnext : next.registering = before ++ middle ++ later)
    (hcell : next.run.stopCell = s.run.stopCell)
    (huncollected : ∀ k ∈ s.run.uncollected, k ∈ next.run.uncollected) (h : n ∈ s.unseen) :
    n = r.job ∨ n ∈ next.unseen := by
  rw [State.unseen, hsplit, List.map_append, List.map_cons] at h
  rw [State.unseen, hnext, List.map_append, List.map_append, hcell]
  rcases List.mem_append.mp h with hcall | hlate
  · rcases List.mem_append.mp hcall with hcall | hcall
    · exact .inr (List.mem_append_left _ (List.mem_append_left _ (List.mem_append_left _ hcall)))
    · refine (List.mem_cons.mp hcall).imp_right fun hcall => ?_
      exact List.mem_append_left _ (List.mem_append_right _ hcall)
  · refine .inr (List.mem_append_right _ ?_)
    split at hlate
    next hlate' =>
      rw [if_pos hlate']
      exact huncollected n hlate
    next => cases hlate

/-- When a call goes on with its job, stopping may not get to see all the same jobs as before. -/
theorem unseen_kept (hsplit : s.registering = before ++ r :: later)
    (hnext : next.registering = before ++ middle ++ later)
    (hmiddle : r.job ∈ middle.map Registration.job)
    (hcell : next.run.stopCell = s.run.stopCell)
    (huncollected : ∀ k ∈ s.run.uncollected, k ∈ next.run.uncollected) (h : n ∈ s.unseen) :
    n ∈ next.unseen := by
  rcases unseen_replaced hsplit hnext hcell huncollected h with rfl | h
  · refine List.mem_append_left _ ?_
    rw [hnext, List.map_append, List.map_append]
    exact List.mem_append_left _ (List.mem_append_right _ hmiddle)
  · exact h

/-! ## The steps -/

/-- Everything that can happen on several threads: the run makes a step, or a call begins to
register a job, or goes on with it. -/
inductive Move (settings : Settings) (s : State) : Label → State → Prop where
  | steps (label : Manager.Label) (run : Manager.State)
      (hfree : ∀ n result, label = .answer (.job n) (.size result) → s.registration? n = none)
      (hrun : Manager.step settings s.run label = some run) :
      Move settings s (.step label) { s with run }
  | begins (n size : Nat) (j : Job) (hfree : s.registration? n = none)
      (hj : s.run.jobs[n]? = some j) (hpoint : j.point = .sizing) :
      Move settings s (.step (.answer (.job n) (.size (.ok size))))
        { run := s.run.announce j.importers size
          registering := s.registering ++ [⟨n, j.sourceName, j.importers, .holding⟩] }
  | admitted (n : Nat) (r : Registration) (hr : s.registration? n = some r)
      (hstage : r.stage = .holding) (hopen : s.run.readers.closed = false) :
      Move settings s (.goOn n) (s.advance n .admitted)
  | turnedAway (n : Nat) (r : Registration) (error : PoolClosed)
      (hr : s.registration? n = some r) (hstage : r.stage = .holding) :
      Move settings s (.goOn n)
        ({ s with
          run := s.run.turnAway settings.graphName n r.sourceName r.importers error }.leave n)
  | handed (n : Nat) (r : Registration) (hr : s.registration? n = some r)
      (hstage : r.stage = .admitted) :
      Move settings s (.goOn n)
        ({ s with run := s.run.handOver n s.run.readers.accept }.advance n .handed)
  | kept (n : Nat) (r : Registration) (hr : s.registration? n = some r)
      (hstage : r.stage = .handed) :
      Move settings s (.goOn n) ({ s with run := s.run.keepJob n }.leave n)

/-- Every step is one of the moves. -/
theorem move_of_step {label : Label} (h : step settings s label = some next) :
    Move settings s label next := by
  have hsteps {label : Manager.Label}
      (hfree : ∀ n result, label = .answer (.job n) (.size result) → s.registration? n = none)
      (h : s.stepRun settings label = some next) : Move settings s (.step label) next := by
    obtain ⟨run, hrun, rfl⟩ := Option.map_eq_some_iff.mp h
    exact .steps label run hfree hrun
  unfold step at h
  split at h
  -- The size of a source begins a registration, unless there is none.
  · rename_i n result
    split at h
    next => cases h
    next size hfree =>
      unfold State.beginRegistering at h
      split at h
      next => cases h
      next j hj =>
        split at h
        next hpoint =>
          cases h
          exact .begins n size j hfree hj hpoint
        next => cases h
    next error hfree => exact hsteps (by rintro _ _ ⟨⟩; exact hfree) h
  · rename_i label hother
    exact hsteps (fun n result hlabel => absurd hlabel (hother n result)) h
  · rename_i n
    obtain ⟨r, hr, rfl⟩ := Option.map_eq_some_iff.mp h
    obtain rfl : r.job = n := eq_of_beq (List.find?_eq_some_iff_append.mp hr).1
    unfold State.goOn
    split
    next hstage =>
      cases hclosed : s.run.readers.closed with
      | true =>
          simp only [WorkerPool.spawn, hclosed, if_true]
          exact .turnedAway r.job r _ hr hstage
      | false =>
          simp only [WorkerPool.spawn, hclosed, Bool.false_eq_true, if_false]
          exact .admitted r.job r hr hstage hclosed
    next hstage => exact .handed r.job r hr hstage
    next hstage => exact .kept r.job r hr hstage

/-- A job whose source is asked for its size stands still until it is answered. -/
theorem sizing_of_step {s next : Manager.State} {label : Manager.Label} {j : Job}
    (hj : s.jobs[n]? = some j) (hpoint : j.point = .sizing)
    (hlabel : ∀ result, label ≠ .answer (.job n) (.size result))
    (hstep : Transition settings s label next) : next.jobs[n]? = some j := by
  by_cases hactor : label.actor? = some (.job n)
  · cases hstep with
    | job m other answer _ hother hstep =>
        obtain rfl : m = n := by
          cases hactor
          rfl
        obtain rfl : j = other := Option.some.inj (hj.symm.trans hother)
        cases hstep with
        | registered | unregistered | unsized => exact absurd rfl (hlabel _)
        | skipped hother | refused hother | opening hother | opened hother | unopened _ hother
        | dismissed _ _ _ hother | enqueued hother | granted hother | released _ hother
        | ready _ _ _ hother | readNothing _ _ hother | readBatch _ _ hother | drained hother
        | failed _ hother | lost _ hother | submitted _ _ hother | rejected _ _ _ hother
        | ended _ _ _ hother =>
            rw [hpoint] at hother
            cases hother
        | cancelled hother =>
            rw [hpoint] at hother
            rcases hother with hother | ⟨importer, rest, hother⟩ <;> cases hother
    | «import» | call | clock | task | start | stop | report | caller => cases hactor
  · rcases job_of_others hstep hactor with hsame | ⟨hnone, -⟩
    · exact hsame.trans hj
    · rw [hj] at hnone
      cases hnone

namespace State

/-! ## The invariant -/

/-- The job of a call is one that stopping may not get to see. -/
theorem mem_unseen_of_call (hr : r ∈ s.registering) : r.job ∈ s.unseen :=
  List.mem_append_left _ (List.mem_map_of_mem hr)

/-- Once stopping has taken up the jobs it does not get to see those that are kept. -/
theorem mem_unseen_of_late (hlate : isLate s.run.stopCell = true) (hn : n ∈ s.run.uncollected) :
    n ∈ s.unseen := by
  refine List.mem_append_right _ ?_
  rwa [if_pos hlate]

/-- A call that goes on, or is through, leaves the jobs of the other calls where they are. -/
theorem Sound.replaced (h : s.Sound settings) (hsplit : s.registering = before ++ r :: later)
    (hnext : next.registering = before ++ middle ++ later)
    (hmiddle : (middle.map Registration.job).Sublist [r.job])
    (hjobs : ∀ k, k ≠ r.job → next.run.jobs[k]? = s.run.jobs[k]?)
    (hsizing : ∀ other ∈ middle, other.stage ≠ .handed → ∃ j : Job,
      next.run.jobs[other.job]? = some j ∧ j.point = .sizing ∧ j.importers = other.importers)
    (hdrained : next.run.Drained) (hstaffed : next.run.Staffed settings)
    (hholding : next.run.Holding next.taken) (hcollected : next.run.Collected next.unseen) :
    next.Sound settings := by
  have hdistinct := h.distinct
  rw [hsplit, List.map_append, List.map_cons] at hdistinct
  refine ⟨hdrained, hstaffed, hholding, hcollected, ?_, ?_⟩
  · intro other hother hstage
    have hstays (hold : other ∈ s.registering) (hne : other.job ≠ r.job) : ∃ j : Job,
        next.run.jobs[other.job]? = some j ∧ j.point = .sizing ∧ j.importers = other.importers := by
      rw [hjobs other.job hne]
      exact h.sizing other hold hstage
    obtain ⟨-, hlater, hbefore⟩ := List.nodup_append.mp hdistinct
    rw [hnext] at hother
    rcases List.mem_append.mp hother with hother | hother
    · rcases List.mem_append.mp hother with hother | hother
      · refine hstays (hsplit ▸ List.mem_append_left _ hother) ?_
        exact hbefore _ (List.mem_map_of_mem hother) _ List.mem_cons_self
      · exact hsizing other hother hstage
    · refine hstays (hsplit ▸ List.mem_append_right _ (List.mem_cons_of_mem _ hother)) ?_
      intro hsame
      exact (List.nodup_cons.mp hlater).1 (hsame ▸ List.mem_map_of_mem hother)
  · rw [hnext, List.map_append, List.map_append, List.append_assoc]
    refine hdistinct.sublist (List.Sublist.append_left ?_ _)
    exact hmiddle.append_right _

/-- A step of the run keeps everything. -/
theorem Sound.steps (h : s.Sound settings) {label : Manager.Label} {run : Manager.State}
    (hfree : ∀ n result, label = .answer (.job n) (.size result) → s.registration? n = none)
    (hrun : Manager.step settings s.run label = some run) :
    ({ s with run } : State).Sound settings := by
  have htransition := transition_of_step hrun
  refine ⟨h.drained.transition htransition,
    h.staffed.transition h.drained.tasks htransition,
    h.holding.transition h.drained.tasks.distinct htransition, ?_, ?_, h.distinct⟩
  · -- Stopping does not take up again what was kept too late.
    refine (h.collected.transition htransition).widen fun k hunseen => ?_
    rcases List.mem_append.mp hunseen with hcall | hlate
    · exact List.mem_append_left _ hcall
    · split at hlate
      next hcell =>
        obtain ⟨hnext, hsame⟩ := h.collected.uncollected_of_late hcell htransition
        exact mem_unseen_of_late hnext (hsame ▸ hlate)
      next => cases hlate
  · intro r hr hstage
    obtain ⟨j, hj, hpoint, himporters⟩ := h.sizing r hr hstage
    refine ⟨j, sizing_of_step hj hpoint ?_ htransition, hpoint, himporters⟩
    rintro result rfl
    have hnone := List.find?_eq_none.mp (hfree r.job result rfl) r hr
    exact absurd (beq_self_eq_true _) hnone

/-- A call that begins to register a job takes units. -/
theorem Sound.begins (h : s.Sound settings) (size : Nat) {j : Job}
    (hfree : s.registration? n = none) (hj : s.run.jobs[n]? = some j) (hpoint : j.point = .sizing) :
    ({ run := s.run.announce j.importers size
       registering := s.registering ++ [⟨n, j.sourceName, j.importers, .holding⟩] } : State).Sound
      settings := by
  have hnew : n ∉ s.registering.map Registration.job := by
    intro hn
    obtain ⟨r, hr, rfl⟩ := List.mem_map.mp hn
    exact List.find?_eq_none.mp hfree r hr (beq_self_eq_true _)
  refine ⟨h.drained.same ⟨rfl, rfl, rfl, rfl, rfl, rfl, rfl⟩ (.inl rfl),
    h.staffed.same rfl h.staffed.readers rfl rfl rfl, ?_, ?_, ?_, ?_⟩
  · refine h.holding.retaken rfl rfl (.of_same rfl) fun name => ?_
    show (s.run.units.acquire j.importers).count name + _ =
      _ + (List.map _ (s.registering ++ [_])).sum
    rw [Units.count_acquire, List.map_append, List.sum_append]
    simp only [Registration.held, Stage.shares, named, taken, List.map_cons, List.map_nil,
      List.sum_cons, List.sum_nil]
    omega
  · refine h.collected.moved rfl h.collected.closed fun k _ hk => hk.imp_right fun hunseen => ?_
    rw [unseen, List.map_append]
    rcases List.mem_append.mp hunseen with hcall | hlate
    · exact List.mem_append_left _ (List.mem_append_left _ hcall)
    · exact List.mem_append_right _ hlate
  · intro r hr hstage
    rcases List.mem_append.mp hr with hr | hr
    · exact h.sizing r hr hstage
    · obtain rfl := List.mem_singleton.mp hr
      exact ⟨j, hj, hpoint, rfl⟩
  · rw [List.map_append]
    show (s.registering.map Registration.job ++ [n]).Nodup
    rw [← List.concat_eq_append]
    exact List.Nodup.concat hnew h.distinct

/-- A call that finds the readers open holds its units as before. -/
theorem Sound.admitted (h : s.Sound settings) (hr : s.registration? n = some r)
    (hstage : r.stage = .holding) : (s.advance n .admitted).Sound settings := by
  obtain ⟨rfl, before, later, hsplit, hadvance, -⟩ := split_of_registration hr h.distinct
  have hnext := (hadvance .admitted).trans (List.append_cons before _ later)
  refine h.replaced hsplit hnext (List.Sublist.refl _) (fun _ _ => rfl) ?_ h.drained h.staffed ?_ ?_
  · intro other hother _
    obtain rfl := List.mem_singleton.mp hother
    have hearly : r.stage ≠ .handed := Stage.shares_eq_one_iff.mp (by rw [hstage]; rfl)
    exact h.sizing r (List.mem_of_find?_eq_some hr) hearly
  · refine h.holding.retaken rfl rfl (.of_same rfl) fun name => ?_
    have htaken := taken_replaced hsplit hnext name
    simp only [Registration.held, hstage, Stage.shares, List.map_cons, List.map_nil, List.sum_cons,
      List.sum_nil] at htaken
    show s.run.units.count name + _ = _
    omega
  · exact h.collected.widen fun k =>
      unseen_kept hsplit hnext List.mem_cons_self rfl fun _ hk => hk

/-- Without the units that a call gives away or hands over, it holds nothing of the run. -/
theorem Sound.released (h : s.Sound settings) (hsplit : s.registering = before ++ r :: later)
    (hnext : next.registering = before ++ middle ++ later) (hearly : r.stage ≠ .handed)
    (hmiddle : ∀ name, (middle.map fun r => r.held name).sum = 0) :
    ({ s.run with units := s.run.units.release r.importers } : Manager.State).Holding next.taken ∧
      ∀ name, named r.importers name ≤ s.run.units.count name := by
  have htaken (name : String) : next.taken name + named r.importers name = s.taken name := by
    have htaken := taken_replaced hsplit hnext name
    rwa [hmiddle, Registration.held, Stage.shares_eq_one_iff.mpr hearly, Nat.one_mul] at htaken
  refine ⟨h.holding.retaken rfl rfl (.of_same rfl) fun name => ?_, fun name => ?_⟩
  · have hcount := h.holding.units name
    have hcall := htaken name
    unfold named at hcall
    show (s.run.units.release r.importers).count name + _ = _
    rw [Units.count_release]
    omega
  · have hcount := h.holding.units name
    have hcall := htaken name
    omega

/-- A call that the readers turn away gives back its units. -/
theorem Sound.turned_away (h : s.Sound settings) (graph : String) (error : PoolClosed)
    (hr : s.registration? n = some r) (hstage : r.stage = .holding) :
    ({ s with run := s.run.turnAway graph n r.sourceName r.importers error }.leave n).Sound
      settings := by
  obtain ⟨rfl, before, later, hsplit, -, hleave⟩ := split_of_registration hr h.distinct
  have hearly : r.stage ≠ .handed := Stage.shares_eq_one_iff.mp (by rw [hstage]; rfl)
  obtain ⟨j, hj, hpoint, -⟩ := h.sizing r (List.mem_of_find?_eq_some hr) hearly
  have hphase : j.phase = .refused := by rw [Job.phase, hpoint]
  have hnext : (s.leave r.job).registering = before ++ [] ++ later := by
    rw [hleave, List.append_nil]
  refine h.replaced hsplit hnext (List.nil_sublist _) ?_ nofun ?_ ?_ ?_ ?_
  · exact fun k hk => List.getElem?_modify_ne _ _ (Ne.symm hk)
  · exact h.drained.job hj (.moves _ rfl (by rw [hpoint]; rfl) nofun rfl rfl ⟨rfl, rfl, rfl, rfl⟩)
      ⟨rfl, rfl, rfl, rfl⟩
  · exact h.staffed.job hj rfl (.stays hphase.symm (by rw [hpoint]; rfl) rfl rfl)
  · obtain ⟨hreleased, -⟩ := h.released hsplit hnext hearly fun _ => rfl
    have hmove : JobMove j { j with point := .dismissing (.submit graph r.sourceName error) } :=
      .pends (by rw [hpoint]; rfl) (by rw [hpoint]; nofun) rfl rfl
    have hidle : AddsNoWork { s.run with units := s.run.units.release r.importers }
        (s.run.turnAway graph r.job r.sourceName r.importers error) :=
      (AddsNoWork.of_report [_] rfl).trans (.of_event (.sourceClosing r.job) rfl rfl)
    have hstep : ∃ change added, JobHolding
        { s.run with units := s.run.units.release r.importers }
        (s.run.turnAway graph r.job r.sourceName r.importers error) r.job j change added :=
      JobHolding.of_idle rfl rfl hmove rfl (by rw [hpoint]; rfl) rfl
    obtain ⟨change, added, hstep⟩ := hstep
    exact hreleased.job hj hstep
      (.of_no_work hidle rfl (fun hworking => absurd hworking Bool.false_ne_true) (.inl rfl))
  · have hcollected : (s.run.turnAway graph r.job r.sourceName r.importers error).Collected
        s.unseen := h.collected.job hj rfl rfl rfl (.pends rfl rfl)
    -- The job of the call is not registered, and all others stay unseen.
    refine hcollected.moved rfl hcollected.closed fun k hk hawaited =>
      hawaited.imp_right fun hunseen => ?_
    refine (unseen_replaced hsplit hnext rfl (fun _ hk => hk) hunseen).resolve_left ?_
    rintro rfl
    obtain ⟨other, hother, hregistered⟩ := hk
    obtain rfl := Option.some.inj ((modified_at _ hj).symm.trans hother)
    cases hregistered

/-- A call that hands over a job hands over its units with it. -/
theorem Sound.handed (h : s.Sound settings) (hr : s.registration? n = some r)
    (hstage : r.stage = .admitted) :
    ({ s with run := s.run.handOver n s.run.readers.accept }.advance n .handed).Sound
      settings := by
  obtain ⟨rfl, before, later, hsplit, hadvance, -⟩ := split_of_registration hr h.distinct
  have hearly : r.stage ≠ .handed := Stage.shares_eq_one_iff.mp (by rw [hstage]; rfl)
  obtain ⟨j, hj, hpoint, himporters⟩ := h.sizing r (List.mem_of_find?_eq_some hr) hearly
  have hphase : j.phase = .refused := by rw [Job.phase, hpoint]
  have hnext := (hadvance .handed).trans (List.append_cons before _ later)
  refine h.replaced hsplit hnext (List.Sublist.refl _) ?_ ?_ ?_ ?_ ?_ ?_
  · exact fun k hk => List.getElem?_modify_ne _ _ (Ne.symm hk)
  · intro other hother hother_stage
    obtain rfl := List.mem_singleton.mp hother
    exact absurd rfl hother_stage
  · exact h.drained.job hj (.enters _ rfl (by rw [hpoint]; rfl) rfl rfl rfl ⟨rfl, rfl, rfl, rfl⟩)
      ⟨rfl, rfl, rfl, rfl⟩
  · exact h.staffed.job hj rfl (.enters hphase rfl (by rw [hpoint]; rfl) rfl rfl)
  · -- The call gives its units away, and the job takes as many.
    obtain ⟨hreleased, hheld⟩ := h.released hsplit hnext hearly fun _ => Nat.zero_mul _
    have hmove : JobMove j { j with point := .spawned, answer := some (.ok ()) } :=
      .registers hpoint rfl rfl
    have hidle : AddsNoWork { s.run with units := s.run.units.release r.importers }
        (s.run.handOver r.job s.run.readers.accept) := .of_event (.registered r.job) rfl rfl
    have hstep : ∃ change added, JobHolding
        { s.run with units := s.run.units.release r.importers }
        (s.run.handOver r.job s.run.readers.accept) r.job j change added := by
      refine JobHolding.of_units rfl rfl hmove rfl fun name _ => ?_
      have hcount := hheld name
      show s.run.units.count name + _ = (s.run.units.release r.importers).count name + _
      rw [Units.count_release]
      simp only [Job.held, JobPoint.shares, hpoint, himporters]
      unfold named at hcount ⊢
      omega
    obtain ⟨change, added, hstep⟩ := hstep
    exact hreleased.job hj hstep
      (.of_no_work hidle rfl (fun hworking => absurd hworking Bool.false_ne_true) (.inl rfl))
  · have hcollected : (s.run.handOver r.job s.run.readers.accept).Collected s.unseen :=
      h.collected.unseen_job (mem_unseen_of_call (List.mem_of_find?_eq_some hr)) rfl rfl rfl rfl
    exact hcollected.widen fun k =>
      unseen_kept hsplit hnext List.mem_cons_self rfl fun _ hk => hk

/-- A job that a call keeps is one that stopping takes up, unless it has taken up the others. -/
theorem Sound.kept (h : s.Sound settings) (hr : s.registration? n = some r)
    (hstage : r.stage = .handed) :
    ({ s with run := s.run.keepJob n }.leave n).Sound settings := by
  obtain ⟨rfl, before, later, hsplit, -, hleave⟩ := split_of_registration hr h.distinct
  have hnext : ({ s with run := s.run.keepJob r.job }.leave r.job).registering =
      before ++ [] ++ later := (hleave.trans (by rw [List.append_nil]))
  refine h.replaced hsplit hnext (List.nil_sublist _) (fun _ _ => rfl) nofun ?_ ?_ ?_ ?_
  · exact h.drained.same ⟨rfl, rfl, rfl, rfl, rfl, rfl, rfl⟩ (.inl rfl)
  · exact h.staffed.same rfl h.staffed.readers rfl rfl rfl
  · refine h.holding.retaken rfl rfl (.of_same rfl) fun name => ?_
    have htaken := taken_replaced hsplit hnext name
    simp only [Registration.held, hstage, Stage.shares, List.map_nil, List.sum_nil] at htaken
    show s.run.units.count name + _ = _
    omega
  · refine h.collected.moved rfl h.collected.closed fun k _ hk => ?_
    rcases hk with hawaited | hunseen
    · exact .inl (Manager.State.mem_awaited_keep r.job hawaited)
    · have hgrown (k : Nat) (hk : k ∈ s.run.uncollected) : k ∈ (s.run.keepJob r.job).uncollected :=
        List.mem_append_left _ hk
      refine (unseen_replaced hsplit hnext rfl hgrown hunseen).elim ?_ .inr
      rintro rfl
      have hkept : r.job ∈ (s.run.keepJob r.job).uncollected :=
        List.mem_append_right _ List.mem_cons_self
      cases hlate : isLate s.run.stopCell with
      | true => exact .inr (mem_unseen_of_late hlate hkept)
      | false =>
          have hawaited : (s.run.keepJob r.job).awaited = (s.run.keepJob r.job).uncollected :=
            Manager.State.awaited_of_open hlate
          exact .inl (hawaited ▸ hkept)

/-- Every step keeps everything. -/
theorem Sound.step {label : Label} (h : s.Sound settings)
    (hstep : Threads.step settings s label = some next) : next.Sound settings := by
  cases move_of_step hstep with
  | steps label run hfree hrun => exact h.steps hfree hrun
  | begins n size j hfree hj hpoint => exact h.begins size hfree hj hpoint
  | admitted n r hr hstage => exact h.admitted hr hstage
  | turnedAway n r error hr hstage => exact h.turned_away settings.graphName error hr hstage
  | handed n r hr hstage => exact h.handed hr hstage
  | kept n r hr hstage => exact h.kept hr hstage

/-- Everything holds of every state that a run on several threads can get to. -/
theorem sound_of_reachable (h : Reachable settings s) : s.Sound settings := by
  induction h with
  | initial =>
      have hfirst : Manager.Reachable settings (.initial settings) := .initial
      exact ⟨Manager.State.drained_of_reachable hfirst, staffed_of_reachable hfirst,
        Manager.State.holding_of_reachable hfirst, Manager.State.collected_of_reachable hfirst,
        nofun, List.nodup_nil⟩
  | step label _ hstep ih => exact ih.step hstep

end State

/-- The state after a run from the initial state is reachable, as is the initial state, in which a
run that is not possible is taken to end. -/
theorem reachable_run (settings : Settings) (labels : List Label) :
    Reachable settings ((run settings (.initial settings) labels).getD (.initial settings)) := by
  cases hrun : run settings (.initial settings) labels with
  | none => exact .initial
  | some s => exact Steps.keeps (fun _ hs hstep => .step _ hs hstep) .initial hrun

/-! ## Jobs that are kept too late -/

/-- Once stopping has taken up the jobs, no call finds the readers open, and only one that had found
them open before keeps a job. -/
theorem none_kept_of_step {label : Label} (h : s.Sound settings)
    (hlate : isLate s.run.stopCell = true) (hearly : ∀ r ∈ s.registering, r.stage = .holding)
    (hstep : step settings s label = some next) :
    isLate next.run.stopCell = true ∧ (∀ r ∈ next.registering, r.stage = .holding) ∧
      next.run.uncollected = s.run.uncollected := by
  cases move_of_step hstep with
  | steps label run hfree hrun =>
      obtain ⟨hnext, hsame⟩ := h.collected.uncollected_of_late hlate (transition_of_step hrun)
      exact ⟨hnext, hearly, hsame⟩
  | begins n size j hfree hj hpoint =>
      refine ⟨hlate, fun r hr => ?_, rfl⟩
      rcases List.mem_append.mp hr with hr | hr
      · exact hearly r hr
      · rw [List.mem_singleton.mp hr]
  | admitted n r hr hstage hopen =>
      rw [h.collected.closed, hlate] at hopen
      cases hopen
  | turnedAway n r error hr hstage =>
      exact ⟨hlate, fun other hother => hearly other (List.mem_filter.mp hother).1, rfl⟩
  | handed n r hr hstage | kept n r hr hstage =>
      rw [hearly r (List.mem_of_find?_eq_some hr)] at hstage
      cases hstage

/-- If no call had found the readers open when stopping took up the jobs, none is kept too late. -/
theorem none_kept_of_run {labels : List Label} (h : Reachable settings s)
    (hlate : isLate s.run.stopCell = true) (hearly : ∀ r ∈ s.registering, r.stage = .holding)
    (hrun : run settings s labels = some next) : next.run.uncollected = s.run.uncollected := by
  have hkept : Reachable settings next ∧ isLate next.run.stopCell = true ∧
      (∀ r ∈ next.registering, r.stage = .holding) ∧
        next.run.uncollected = s.run.uncollected := by
    refine Steps.keeps (p := fun state => Reachable settings state ∧
      isLate state.run.stopCell = true ∧ (∀ r ∈ state.registering, r.stage = .holding) ∧
        state.run.uncollected = s.run.uncollected) ?_ ⟨h, hlate, hearly, rfl⟩ hrun
    rintro middle after label - ⟨hmiddle, hlate, hearly, hsame⟩ hstep
    obtain ⟨hlate, hearly, hafter⟩ :=
      none_kept_of_step (State.sound_of_reachable hmiddle) hlate hearly hstep
    exact ⟨.step label hmiddle hstep, hlate, hearly, hafter.trans hsame⟩
  exact hkept.2.2.2

/-! ## On one thread -/

section

variable (run : Manager.State) (graph : String)

/-- The only call goes on when it has its turn. -/
theorem step_of_only_call :
    step settings { run, registering := [r] } (.goOn r.job) =
      some (({ run, registering := [r] } : State).goOn settings.graphName r) := by
  simp [step, State.registration?]

/-- The only call finds the readers open. -/
theorem go_on_of_open (hstage : r.stage = .holding) (hopen : run.readers.closed = false) :
    ({ run, registering := [r] } : State).goOn graph r =
      { run, registering := [{ r with stage := .admitted }] } := by
  simp [State.goOn, hstage, WorkerPool.spawn, hopen, State.advance]

/-- The only call is turned away. -/
theorem go_on_of_closed (hstage : r.stage = .holding) (hclosed : run.readers.closed = true) :
    ({ run, registering := [r] } : State).goOn graph r =
      { run := run.turnAway graph r.job r.sourceName r.importers ⟨run.readers.name⟩ } := by
  simp [State.goOn, hstage, WorkerPool.spawn, hclosed, State.leave]

/-- The only call hands over its job. -/
theorem go_on_of_admitted (hstage : r.stage = .admitted) :
    ({ run, registering := [r] } : State).goOn graph r =
      { run := run.handOver r.job run.readers.accept
        registering := [{ r with stage := .handed }] } := by
  simp [State.goOn, hstage, State.advance]

/-- The only call keeps its job. -/
theorem go_on_of_handed (hstage : r.stage = .handed) :
    ({ run, registering := [r] } : State).goOn graph r = { run := run.keepJob r.job } := by
  simp [State.goOn, hstage, State.leave]

end

/-- The step of a run that registers a job is made up of the parts of a call. -/
theorem reachable_of_register {run : Manager.State} {j : Job} (size : Nat)
    (h : Reachable settings { run }) (hj : run.jobs[n]? = some j) (hpoint : j.point = .sizing) :
    Reachable settings { run := run.register settings.graphName n j size } := by
  have hgo {run : Manager.State} {r : Registration}
      (h : Reachable settings { run, registering := [r] }) :
      Reachable settings (({ run, registering := [r] } : State).goOn settings.graphName r) :=
    .step (.goOn r.job) h (step_of_only_call run)
  have hbegins : step settings { run } (.step (.answer (.job n) (.size (.ok size)))) =
      some { run := run.announce j.importers size
             registering := [⟨n, j.sourceName, j.importers, .holding⟩] } := by
    have hnone : ({ run } : State).registration? n = none := rfl
    simp only [step, hnone, State.beginRegistering, hj, hpoint, List.nil_append]
  have hbegun := hgo (.step _ h hbegins)
  cases hclosed : run.readers.closed with
  | true =>
      rw [go_on_of_closed _ _ rfl (by exact hclosed)] at hbegun
      have hregister : run.register settings.graphName n j size =
          (run.announce j.importers size).turnAway settings.graphName n j.sourceName j.importers
            ⟨run.readers.name⟩ := by
        simp only [Manager.State.register, announce_readers, WorkerPool.spawn, hclosed, if_true]
      rw [hregister]
      exact hbegun
  | false =>
      rw [go_on_of_open _ _ rfl (by exact hclosed)] at hbegun
      have hhanded := hgo hbegun
      rw [go_on_of_admitted _ _ rfl] at hhanded
      have hkept := hgo hhanded
      rw [go_on_of_handed _ _ rfl] at hkept
      have hregister : run.register settings.graphName n j size =
          ((run.announce j.importers size).handOver n run.readers.accept).keepJob n := by
        simp only [Manager.State.register, announce_readers, WorkerPool.spawn, hclosed,
          Bool.false_eq_true, if_false]
      rw [hregister]
      exact hkept

/-- A step of the run that does not register a job is one on several threads. -/
theorem step_of_step {run after : Manager.State} {label : Manager.Label}
    (hlabel : ∀ n size, label ≠ .answer (.job n) (.size (.ok size)))
    (h : Manager.step settings run label = some after) :
    step settings { run } (.step label) = some { run := after } := by
  have hrun : ({ run } : State).stepRun settings label = some { run := after } := by
    rw [State.stepRun, h]
    rfl
  match label with
  | .answer (.job n) (.size (.ok size)) => exact absurd rfl (hlabel n size)
  | .answer (.job _) (.size (.error _)) => exact hrun
  | .import _ _ | .call _ | .clock _ | .answer .starter _ | .answer .stopper _
  | .answer .reporter _ | .answer (.caller _) _ | .answer (.task _) _ => exact hrun
  | .answer (.job _) .go | .answer (.job _) .cancelled | .answer (.job _) (.source _)
  | .answer (.job _) (.batch _) | .answer (.job _) .ready | .answer (.job _) (.client _)
  | .answer (.job _) (.reply _) | .answer (.job _) (.panicked _) | .answer (.job _) .elapsed =>
      exact hrun

/-- The size of a source registers its job. -/
theorem register_of_size {run after : Manager.State} {size : Nat}
    (h : Manager.step settings run (.answer (.job n) (.size (.ok size))) = some after) :
    ∃ j : Job, run.jobs[n]? = some j ∧ j.point = .sizing ∧
      after = run.register settings.graphName n j size := by
  have hstep : run.stepJob settings n (.size (.ok size)) = some after := h
  simp only [Manager.State.stepJob] at hstep
  split at hstep
  next => cases hstep
  next j hj =>
    refine ⟨j, hj, ?_⟩
    cases hpoint : j.point with
    | sizing =>
        simp only [hpoint, Option.some.injEq] at hstep
        exact ⟨rfl, hstep.symm⟩
    | begun | opening | dismissing | absent | spawned | queued | gated | readying | reading
    | submitting | closing | ended =>
        simp only [hpoint] at hstep
        cases hstep

/-- A run whose steps are not taken apart is one on several threads. -/
theorem reachable_of_uninterrupted {run : Manager.State} (h : Manager.Reachable settings run) :
    Reachable settings { run } := by
  induction h with
  | initial => exact .initial
  | @step run after label h hstep ih =>
      by_cases hlabel : ∃ n size, label = .answer (.job n) (.size (.ok size))
      · obtain ⟨n, size, rfl⟩ := hlabel
        obtain ⟨j, hj, hpoint, rfl⟩ := register_of_size hstep
        exact reachable_of_register size ih hj hpoint
      · exact .step _ ih (step_of_step (fun n size heq => hlabel ⟨n, size, heq⟩) hstep)

end

end BulkLoad.Manager.Threads
