import BulkLoad.Proofs.Manager.Batch
import BulkLoad.Proofs.Manager.Runs

/-!
# The steps of a task are the import of its batch

A task hands one portion after the other to its importer and settles the batch at the end. If nobody
else moves in the meantime, it leaves the counters as `importBatch` does, with the outcomes that the
history has for its portions (`import_batch_of_run`).
-/

namespace BulkLoad.Manager

/-- What a step of task `n`, which is `t`, does to its portions and to the counters: it leaves them,
it is done with a portion, it is lost with a portion, or it settles the batch. -/
inductive HandsOver (s : State) (n : Nat) (t : Task) (next : State) : Prop where
  | waits (after : Task) (ht : next.tasks.lookup n = some after) (hbatch : after.batch = t.batch)
      (hmarks : after.marks = t.marks) (hremaining : after.point.remaining = t.point.remaining)
      (hstats : next.stats = s.stats)
      (himports : (Journal.of next.history).imports = (Journal.of s.history).imports)
  | goesOn (p : Portion) (rest : List Portion) (outcome : ImportOutcome) (marks : List Bool)
      (ht : next.tasks.lookup n = some { t with marks, point := .turning rest })
      (hremaining : t.point.remaining = p :: rest)
      (haccount : p.account outcome s.stats t.marks = (.complete next.stats, marks))
      (himports : (Journal.of next.history).imports =
        (Journal.of s.history).imports ++ [⟨n, p, outcome⟩])
  | lost (p : Portion) (rest : List Portion) (outcome : ImportOutcome)
      (ht : next.tasks.lookup n = none) (hremaining : t.point.remaining = p :: rest)
      (hlost : outcome.panic? = none →
        ∃ marks, p.account outcome s.stats t.marks = (.overflowed next.stats, marks))
      (himports : (Journal.of next.history).imports =
        (Journal.of s.history).imports ++ [⟨n, p, outcome⟩])
  | settles (ht : next.tasks.lookup n = none) (hremaining : t.point.remaining = [])
      (hstats : next.stats = settleBatch s.stats t.batch.units t.marks)
      (himports : (Journal.of next.history).imports = (Journal.of s.history).imports)

section

variable {settings : Settings} {s next : State} {n : Nat} {t : Task}

/-- A task is found where it was put in the place of another one. -/
theorem lookup_put_task (ht : s.tasks.lookup n = some t) (after : Task) :
    (s.putTask n after).tasks.lookup n = some after := by
  simp only [State.putTask, lookup_put, ht, Option.map_some, if_true]

/-- A task that has ended is not found. -/
theorem lookup_end_task (s : State) (n : Nat) (t : Task) :
    (s.endTask n t).tasks.lookup n = none := by
  simp only [State.endTask, lookup_end, if_true]

/-- The end of a portion hands it over. -/
theorem Concluded.hands_over {portion : Portion} {rest : List Portion} {outcome : ImportOutcome}
    (h : Concluded s n t portion rest outcome next) (ht : s.tasks.lookup n = some t)
    (hremaining : t.point.remaining = portion :: rest) : HandsOver s n t next := by
  cases h with
  | imported lines stats marks hcalm haccount =>
      refine .goesOn portion rest outcome marks (lookup_put_task ht _) hremaining haccount ?_
      simp [State.putTask, State.report, State.record]
  | panicked message houtcome =>
      refine .lost portion rest outcome (lookup_end_task _ _ _) hremaining ?_ ?_
      · intro hcalm
        rw [houtcome] at hcalm
        cases hcalm
      · simp [State.endTask, State.record]
  | overflowed stats marks haccount =>
      refine .lost portion rest outcome (lookup_end_task _ _ _) hremaining
        (fun _ => ⟨marks, haccount⟩) ?_
      simp [State.endTask, State.record]

/-- Every step of a task waits, hands over a portion, or settles the batch. -/
theorem TaskStep.hands_over {answer : Answer} (h : TaskStep settings s n t answer next)
    (ht : s.tasks.lookup n = some t) : HandsOver s n t next := by
  have hsent (shipment : Shipment) (hsame : shipment.portion :: shipment.rest = t.point.remaining) :
      HandsOver s n t (s.send n t shipment) := by
    refine .waits _ (lookup_put_task ht _) rfl rfl hsame rfl ?_
    simp [State.send, State.putTask, State.record, Journal.of, List.filterMap_cons, Event.import?]
  cases h with
  | settled hpoint =>
      refine .settles (lookup_end_task _ _ _) (by rw [hpoint]; rfl) rfl ?_
      simp [State.settleTask, State.endTask, State.record, Journal.of, List.filterMap_cons,
        Event.import?]
  | sent portion rest statement count hpoint hplan => exact hsent _ (by rw [hpoint]; rfl)
  | resent delay shipment hpoint => exact hsent _ (by rw [hpoint]; rfl)
  | rested shipment reply error delay hpoint hreply hverdict =>
      exact .waits _ (lookup_put_task ht _) rfl rfl (by rw [hpoint]; rfl) rfl rfl
  | planned portion rest outcome next hpoint hplan hnext =>
      exact hnext.hands_over ht (by rw [hpoint]; rfl)
  | concluded shipment reply result next hpoint hresult hnext =>
      exact hnext.hands_over ht (by rw [hpoint]; rfl)
  | crashed shipment message next hpoint hnext =>
      exact hnext.hands_over ht (by rw [hpoint]; rfl)

/-- A task that is over makes no steps. -/
theorem run_of_over {labels : List Label} (hover : s.tasks.lookup n = none)
    (hown : ∀ label ∈ labels, ∃ answer, label = .answer (.task n) answer)
    (hrun : run settings s labels = some next) : next = s := by
  cases labels with
  | nil =>
      cases hrun
      rfl
  | cons label labels =>
      obtain ⟨answer, rfl⟩ := hown label List.mem_cons_self
      obtain ⟨middle, hstep, -⟩ := Option.bind_eq_some_iff.mp hrun
      obtain ⟨t, ht, -⟩ := task_step_of_answer hstep
      rw [hover] at ht
      cases ht

/-- If nobody else moves until a task is over, and no importer has panicked, the task leaves the
counters as `importBatch` does with the outcomes of its portions. It has handed over all of them,
unless an accumulated time has overflowed. -/
theorem import_batch_of_run {labels : List Label} (ht : s.tasks.lookup n = some t)
    (hown : ∀ label ∈ labels, ∃ answer, label = .answer (.task n) answer)
    (hrun : run settings s labels = some next) (hover : next.tasks.lookup n = none) :
    ∃ entries : List (Portion × ImportOutcome),
      (Journal.of next.history).imports =
          (Journal.of s.history).imports ++ entries.map (fun (p, outcome) => ⟨n, p, outcome⟩) ∧
        ((∀ entry ∈ entries, entry.2.panic? = none) →
          (importBatch t.batch.units s.stats t.marks entries = .complete next.stats ∧
              entries.map Prod.fst = t.point.remaining) ∨
            (importBatch t.batch.units s.stats t.marks entries = .overflowed next.stats ∧
              entries.map Prod.fst <+: t.point.remaining)) := by
  induction labels generalizing s t with
  | nil =>
      cases hrun
      rw [ht] at hover
      cases hover
  | cons label labels ih =>
      obtain ⟨answer, rfl⟩ := hown label List.mem_cons_self
      obtain ⟨middle, hstep, hrun⟩ := Option.bind_eq_some_iff.mp hrun
      have hlater : ∀ label ∈ labels, ∃ answer, label = .answer (.task n) answer :=
        fun other hother => hown other (List.mem_cons_of_mem _ hother)
      obtain ⟨present, hpresent, htask⟩ := task_step_of_answer hstep
      obtain rfl := Option.some.inj (ht.symm.trans hpresent)
      cases htask.hands_over ht with
      | waits after hafter hbatch hmarks hremaining hstats himports =>
          obtain ⟨entries, hentries, hends⟩ := ih hafter hlater hrun
          refine ⟨entries, hentries.trans (by rw [himports]), ?_⟩
          rwa [hbatch, hstats, hmarks, hremaining] at hends
      | goesOn p rest outcome marks hafter hremaining haccount himports =>
          obtain ⟨entries, hentries, hends⟩ := ih hafter hlater hrun
          refine ⟨(p, outcome) :: entries, ?_, ?_⟩
          · rw [hentries, himports, List.append_assoc]
            rfl
          · intro hcalm
            have hfirst : importBatch t.batch.units s.stats t.marks ((p, outcome) :: entries) =
                importBatch t.batch.units middle.stats marks entries := by
              rw [importBatch, haccount]
            rw [hfirst, hremaining]
            rcases hends fun entry hentry => hcalm entry (List.mem_cons_of_mem _ hentry) with
              ⟨hcomplete, hall⟩ | ⟨hoverflowed, hpart⟩
            · exact .inl ⟨hcomplete, congrArg (p :: ·) hall⟩
            · exact .inr ⟨hoverflowed, (List.prefix_cons_inj p).mpr hpart⟩
      | lost p rest outcome hend hremaining hlost himports =>
          obtain rfl := run_of_over hend hlater hrun
          refine ⟨[(p, outcome)], himports, ?_⟩
          intro hcalm
          obtain ⟨marks, haccount⟩ := hlost (hcalm _ List.mem_cons_self)
          refine .inr ⟨?_, ?_⟩
          · rw [importBatch, haccount]
          · rw [hremaining]
            exact ⟨rest, rfl⟩
      | settles hend hremaining hstats himports =>
          obtain rfl := run_of_over hend hlater hrun
          refine ⟨[], himports.trans (List.append_nil _).symm, ?_⟩
          intro _
          refine .inl ⟨?_, hremaining.symm⟩
          rw [importBatch, hstats]

end

end BulkLoad.Manager
