import BulkLoad.Proofs.Manager.Books
import BulkLoad.Proofs.Manager.Holding
import Mathlib.Data.List.Nodup

/-!
# What becomes of a batch

A task that gets through all portions of its batch settles it. A panic in a portion, or accumulated
times that no longer fit, loses the task before that: the portions after it reach no importer and
the batch is not counted. `Ledger.Accounts` says so of every state, whatever panics: the counters
are the sums over the batches that were settled, as far as words hold them
(`accounts_of_reachable`).
-/

namespace BulkLoad.Manager

namespace Journal

/-- The portions that a task has handed to its importers and what came of them, in order. -/
def importsOf (j : Journal) (task : Nat) : List Import := j.imports.filter fun i => i.task == task

/-- The submissions whose batches have been settled. -/
def settledBatches (j : Journal) (settled : List Nat) : List Submission :=
  j.submissions.filter fun submission => settled.contains submission.task

/-- Entering a portion extends the imports of its task. -/
theorem imports_of_enter (j : Journal) (task k : Nat) (portion : Portion)
    (outcome : ImportOutcome) :
    (j.enter task portion outcome).importsOf k =
      j.importsOf k ++ if task = k then [⟨task, portion, outcome⟩] else [] := by
  simp only [importsOf, enter, List.filter_append]
  congr 1
  by_cases hk : task = k <;> simp [hk]

end Journal

namespace Ledger

/-- What has become of a batch whose task is over. It has been settled, all its portions having been
imported; or it was lost with the last portion that was imported, in a panic of the importer or
because the accumulated times no longer fit, and the portions after it have reached no importer. -/
inductive Fate (settings : Settings) (l : Ledger) (settled : List Nat) (submission : Submission)
    (importers : List Importer) : Prop where
  | settled (hsettled : submission.task ∈ settled)
      (hportions : l.journal.portionsOf submission.task =
        portions settings.batch importers submission.batch.records)
      (hcalm : ∀ i ∈ l.journal.importsOf submission.task, i.outcome.panic? = none)
  | lost (earlier : List Import) (last : Import) (after : List Portion)
      (hlost : submission.task ∉ settled)
      (himports : l.journal.importsOf submission.task = earlier ++ [last])
      (hportions : portions settings.batch importers submission.batch.records =
        earlier.map Import.portion ++ last.portion :: after)
      (hcalm : ∀ i ∈ earlier, i.outcome.panic? = none)
      (hcause : last.outcome.panic? ≠ none ∨
        Duration.longest.totalNanos < l.journal.times.1 ∨
        Duration.longest.totalNanos < l.journal.times.2)

/-- What holds of every ledger and the tasks that have settled their batches. -/
structure Accounts (settings : Settings) (l : Ledger) (settled : List Nat) : Prop where
  finished : ∀ k ∈ settled, k < l.nextTask ∧ l.work k = none
  calm : ∀ k w, l.work k = some w → ∀ i ∈ l.journal.importsOf k, i.outcome.panic? = none
  fates : ∀ submission ∈ l.journal.submissions, l.work submission.task = none →
    ∃ importers, l.importers[submission.job]? = some importers ∧
      l.Fate settings settled submission importers
  processed : l.tally.processed = .ofNat
    (((l.journal.settledBatches settled).map fun submission => submission.batch.units).sum +
      l.journal.emptyUnits)
  totalRecords : l.tally.totalRecords = .ofNat
    ((l.journal.settledBatches settled).map fun submission =>
      submission.batch.records.length).sum
  failedRecords : l.tally.failedRecords = .ofNat
    ((l.journal.settledBatches settled).map l.journal.failures).sum
  latency_le : l.tally.latency ≤ l.journal.times.1
  respTime_le : l.tally.respTime ≤ l.journal.times.2
  times : l.journal.Calm → (l.tally.latency, l.tally.respTime) = l.journal.times

end Ledger

/-! ## Every ledger step keeps the accounts -/

/-- One more element that a filter lets through joins the others. -/
theorem perm_filter_join {α : Type} {elements : List α} {p q : α → Bool} {a : α}
    (hdistinct : elements.Nodup) (ha : a ∈ elements) (hp : p a = true) (hq : q a = false)
    (hsame : ∀ b ∈ elements, b ≠ a → p b = q b) :
    (elements.filter p).Perm (a :: elements.filter q) := by
  have hnew : a ∉ elements.filter q := by
    intro hmem
    rw [(List.mem_filter.mp hmem).2] at hq
    cases hq
  refine (List.perm_ext_iff_of_nodup (hdistinct.filter p)
    (List.nodup_cons.mpr ⟨hnew, hdistinct.filter q⟩)).mpr fun b => ?_
  rw [List.mem_cons, List.mem_filter, List.mem_filter]
  by_cases hb : b = a
  · subst hb
    exact ⟨fun _ => .inl rfl, fun _ => ⟨ha, hp⟩⟩
  · constructor
    · exact fun ⟨hmem, hpasses⟩ => .inr ⟨hmem, hsame b hmem hb ▸ hpasses⟩
    · exact fun hcases => hcases.elim (fun hsame => absurd hsame hb)
        fun ⟨hmem, hpasses⟩ => ⟨hmem, (hsame b hmem hb).trans hpasses⟩

section

variable {settings : Settings} {l next : Ledger} {settled others : List Nat} {k : Nat} {w : Work}
  {submission : Submission} {importers : List Importer} {portion : Portion}
  {outcome : ImportOutcome}

namespace Ledger

/-- The batches that have been settled are those of tasks that are over. -/
theorem Accounts.over_of_settled (h : l.Accounts settings settled)
    (hmem : submission ∈ l.journal.settledBatches settled) : l.work submission.task = none := by
  obtain ⟨-, hsettled⟩ := List.mem_filter.mp hmem
  exact (h.finished _ (List.contains_iff_mem.mp hsettled)).2

/-- What has become of a batch stays so while other tasks go on. -/
theorem Fate.mono (h : l.Fate settings settled submission importers)
    (hsettled : submission.task ∈ others ↔ submission.task ∈ settled)
    (himports : next.journal.importsOf submission.task = l.journal.importsOf submission.task)
    (hlatency : l.journal.times.1 ≤ next.journal.times.1)
    (hrespTime : l.journal.times.2 ≤ next.journal.times.2) :
    next.Fate settings others submission importers := by
  have hsame : next.journal.portionsOf submission.task = l.journal.portionsOf submission.task :=
    congrArg (List.map Import.portion) himports
  cases h with
  | settled hmem hportions hcalm =>
      exact .settled (hsettled.mpr hmem) (hsame.trans hportions) (himports ▸ hcalm)
  | lost earlier last after hlost hlast hportions hcalm hcause =>
      refine .lost earlier last after (fun hmem => hlost (hsettled.mp hmem))
        (himports.trans hlast) hportions hcalm (hcause.imp_right ?_)
      exact Or.imp (fun hlong => Nat.lt_of_lt_of_le hlong hlatency)
        fun hlong => Nat.lt_of_lt_of_le hlong hrespTime

/-- What has become of a batch does not depend on what is read and handed over. -/
theorem Fate.same (h : l.Fate settings settled submission importers)
    (himports : next.journal.imports = l.journal.imports) :
    next.Fate settings settled submission importers := by
  refine h.mono Iff.rfl (congrArg (List.filter _) himports) (Nat.le_of_eq ?_) (Nat.le_of_eq ?_) <;>
    rw [Journal.times, Journal.times, himports]

/-- A portion that is entered keeps the accounts, if its task goes on and the importer has not
panicked, or if its batch is lost. -/
theorem Accounts.after_portion (h : l.Accounts settings settled) (hwork : l.work k = some w)
    {after : Option Work} {times : Nat × Nat}
    (htimes : times.1 ≤ (Import.times ⟨k, portion, outcome⟩).1 ∧
      times.2 ≤ (Import.times ⟨k, portion, outcome⟩).2)
    (hexact : (l.journal.enter k portion outcome).Calm →
      times = Import.times ⟨k, portion, outcome⟩)
    (hafter : after ≠ none → outcome.panic? = none)
    (hnext : next = { l with
      journal := l.journal.enter k portion outcome
      work := Function.update l.work k after
      tally := l.tally.spend times })
    (hfate : after = none → ∀ submission ∈ l.journal.submissions, submission.task = k →
      ∃ importers, l.importers[submission.job]? = some importers ∧
        next.Fate settings settled submission importers) :
    next.Accounts settings settled := by
  have hentered := l.journal.times_enter k portion outcome
  -- The task is under way, so none of the settled batches is its own.
  have hne (submission : Submission) (hmem : submission ∈ l.journal.settledBatches settled) :
      submission.task ≠ k := by
    rintro rfl
    rw [h.over_of_settled hmem] at hwork
    cases hwork
  have hfailures : (l.journal.settledBatches settled).map
        (l.journal.enter k portion outcome).failures =
      (l.journal.settledBatches settled).map l.journal.failures :=
    List.map_congr_left fun submission hmem =>
      l.journal.failures_enter submission k portion outcome (hne submission hmem)
  have hothers {task : Nat} (htask : task ≠ k) :
      (l.journal.enter k portion outcome).importsOf task = l.journal.importsOf task := by
    rw [Journal.imports_of_enter, if_neg (Ne.symm htask), List.append_nil]
  subst hnext
  refine ⟨?_, ?_, ?_, h.processed, h.totalRecords, ?_, ?_, ?_, ?_⟩
  · intro task htask
    obtain ⟨hlt, hnone⟩ := h.finished task htask
    have hk : task ≠ k := by
      rintro rfl
      rw [hnone] at hwork
      cases hwork
    exact ⟨hlt, (Function.update_of_ne hk _ _).trans hnone⟩
  · intro task other hother i hi
    dsimp only at hother hi
    by_cases hk : task = k
    · subst hk
      rw [Function.update_self] at hother
      rw [Journal.imports_of_enter, if_pos rfl] at hi
      rcases List.mem_append.mp hi with hi | hi
      · exact h.calm task w hwork i hi
      · rw [List.mem_singleton.mp hi]
        exact hafter (by rw [hother]; nofun)
    · rw [Function.update_of_ne hk] at hother
      rw [hothers hk] at hi
      exact h.calm task other hother i hi
  · intro submission hsubmission hover
    dsimp only at hover
    by_cases hk : submission.task = k
    · rw [hk, Function.update_self] at hover
      exact hfate hover submission hsubmission hk
    · rw [Function.update_of_ne hk] at hover
      obtain ⟨importers, himporters, hfate⟩ := h.fates submission hsubmission hover
      refine ⟨importers, himporters, hfate.mono Iff.rfl (hothers hk) ?_ ?_⟩ <;>
        rw [hentered] <;> exact Nat.le_add_right _ _
  · exact h.failedRecords.trans (congrArg (UInt64.ofNat ·.sum) hfailures.symm)
  · rw [hentered]
    exact Nat.add_le_add h.latency_le htimes.1
  · rw [hentered]
    exact Nat.add_le_add h.respTime_le htimes.2
  · intro hcalm
    rw [hentered, ← h.times hcalm.of_enter, ← hexact hcalm]
    rfl

/-- Settling a batch keeps the accounts: it joins those that have been settled, and what the
counters add for it is what they are to add. -/
theorem Accounts.after_settled (h : l.Accounts settings settled) (hsound : l.Sound settings)
    (hwork : l.work k = some w) (hremaining : w.remaining = []) :
    ({ l with
        work := Function.update l.work k none
        tally := l.tally.count w.batch.units w.marks.length (w.marks.count true) } :
      Ledger).Accounts settings (k :: settled) := by
  have hunder := hsound.underWay k w hwork
  have hlength := hunder.length_marks
  have hfailures := hunder.count_marks
  have hnew : k ∉ settled := by
    intro hmem
    rw [(h.finished k hmem).2] at hwork
    cases hwork
  have hmem {task : Nat} (htask : task ≠ k) : task ∈ k :: settled ↔ task ∈ settled := by
    rw [List.mem_cons, or_iff_right htask]
  have htask {other : Submission} (hother : other ∈ l.journal.submissions)
      (hne : other ≠ ⟨w.job, k, w.batch⟩) : other.task ≠ k := fun heq =>
    hne (List.inj_on_of_nodup_map hsound.distinct hother hunder.submitted heq)
  -- Among the settled batches that of the task is new, and the counters grow by what it adds.
  have hperm : (l.journal.settledBatches (k :: settled)).Perm
      (⟨w.job, k, w.batch⟩ :: l.journal.settledBatches settled) := by
    refine perm_filter_join (.of_map _ hsound.distinct) hunder.submitted (by simp)
      (by simpa using hnew) fun other hother hne => ?_
    rw [Bool.eq_iff_iff, List.contains_iff_mem, List.contains_iff_mem, hmem (htask hother hne)]
  have hsum (f : Submission → Nat) := (hperm.map f).sum_nat
  simp only [List.map_cons, List.sum_cons] at hsum
  refine ⟨?_, ?_, ?_, ?_, ?_, ?_, h.latency_le, h.respTime_le, h.times⟩
  · intro task hsettled
    by_cases hk : task = k
    · subst hk
      exact ⟨hsound.numbered _ hunder.submitted, Function.update_self _ _ _⟩
    · obtain ⟨hlt, hnone⟩ := h.finished task ((hmem hk).mp hsettled)
      exact ⟨hlt, (Function.update_of_ne hk _ _).trans hnone⟩
  · intro task other hother
    exact h.calm task other (Ledger.work_of_update_none hother).2
  · intro submission hsubmission hover
    by_cases hsame : submission = ⟨w.job, k, w.batch⟩
    · subst hsame
      have hportions := hunder.portions
      rw [hremaining, List.append_nil] at hportions
      exact ⟨w.importers, hunder.importers,
        .settled List.mem_cons_self hportions (h.calm k w hwork)⟩
    · have hne := htask hsubmission hsame
      dsimp only at hover
      rw [Function.update_of_ne hne] at hover
      obtain ⟨importers, himporters, hfate⟩ := h.fates submission hsubmission hover
      exact ⟨importers, himporters, hfate.mono (hmem hne) rfl (Nat.le_refl _) (Nat.le_refl _)⟩
  · have hunits := hsum fun submission => submission.batch.units
    simp only [Tally.count]
    rw [h.processed, ← UInt64.ofNat_add, hunits, Nat.add_right_comm, Nat.add_comm w.batch.units]
  · have hrecords := hsum fun submission => submission.batch.records.length
    simp only [Tally.count]
    rw [h.totalRecords, ← UInt64.ofNat_add, hrecords, hlength, Nat.add_comm]
  · have hrecords := hsum l.journal.failures
    simp only [Tally.count]
    rw [h.failedRecords, ← UInt64.ofNat_add, hrecords, hfailures, Nat.add_comm]

/-- A batch that is handed to a new task is not settled, nor over. -/
theorem Accounts.after_submitted (h : l.Accounts settings settled) (hsound : l.Sound settings)
    (n : Nat) (batch : Batch) (w : Work) :
    ({ l with
        journal := { l.journal with
          submissions := l.journal.submissions ++ [⟨n, l.nextTask, batch⟩] }
        held := Function.update l.held n none
        work := fun k => (l.work k).or (if k = l.nextTask then some w else none)
        nextTask := l.nextTask + 1 } : Ledger).Accounts settings settled := by
  have hfresh : l.nextTask ∉ settled := fun hmem => Nat.lt_irrefl _ (h.finished _ hmem).1
  have hbatches : ({ l.journal with
      submissions := l.journal.submissions ++ [⟨n, l.nextTask, batch⟩] } : Journal).settledBatches
        settled = l.journal.settledBatches settled := by
    simp [Journal.settledBatches, hfresh]
  refine ⟨?_, ?_, ?_, hbatches ▸ h.processed, hbatches ▸ h.totalRecords,
    hbatches ▸ h.failedRecords, h.latency_le, h.respTime_le, fun hcalm => h.times (hcalm.same rfl)⟩
  · intro task hsettled
    obtain ⟨hlt, hnone⟩ := h.finished task hsettled
    refine ⟨Nat.lt_succ_of_lt hlt, ?_⟩
    dsimp only
    rw [hnone, if_neg (Nat.ne_of_lt hlt), Option.none_or]
  · intro task other hother i hi
    rcases Option.or_eq_some_iff.mp hother with hold | ⟨-, hnew⟩
    · exact h.calm task other hold i hi
    · obtain ⟨rfl, -⟩ := Option.ite_none_right_eq_some.mp hnew
      have hnone : l.journal.importsOf l.nextTask = [] :=
        List.map_eq_nil_iff.mp (hsound.portions_of_fresh (Nat.le_refl l.nextTask))
      have hi : i ∈ l.journal.importsOf l.nextTask := hi
      rw [hnone] at hi
      cases hi
  · intro submission hsubmission hover
    obtain ⟨hnone, hother⟩ := Option.or_eq_none_iff.mp hover
    rcases List.mem_append.mp hsubmission with hsubmission | hnew
    · obtain ⟨importers, himporters, hfate⟩ := h.fates submission hsubmission hnone
      exact ⟨importers, himporters, hfate.same rfl⟩
    · rw [List.mem_singleton.mp hnew, if_pos rfl] at hother
      cases hother

end Ledger

/-- Every step of a sound ledger keeps the accounts. -/
theorem AccountStep.accounts (h : AccountStep settings l settled next others)
    (hsound : l.Sound settings) (haccounts : l.Accounts settings settled) :
    next.Accounts settings others := by
  cases h with
  | kept next hstep hkept =>
      cases hstep with
      | still => exact haccounts
      | joined added =>
          refine { haccounts with fates := ?_ }
          intro submission hsubmission hover
          obtain ⟨importers, himporters, hfate⟩ := haccounts.fates submission hsubmission hover
          have hlt := (List.getElem?_eq_some_iff.mp himporters).1
          exact ⟨importers, (List.getElem?_append_left hlt).trans himporters, hfate.same rfl⟩
      | readNothing n units =>
          refine { haccounts with
            fates := ?_
            processed := ?_
            totalRecords := (UInt64.add_zero _).trans haccounts.totalRecords
            failedRecords := (UInt64.add_zero _).trans haccounts.failedRecords
            times := fun hcalm => haccounts.times (hcalm.same rfl) }
          · intro submission hsubmission hover
            obtain ⟨importers, himporters, hfate⟩ := haccounts.fates submission hsubmission hover
            exact ⟨importers, himporters, hfate.same rfl⟩
          · rw [Journal.empty_units_append, if_pos rfl]
            show l.tally.processed + .ofNat units = _
            rw [haccounts.processed, ← UInt64.ofNat_add, Nat.add_assoc]
            rfl
      | readBatch n batch hsome =>
          refine { haccounts with
            fates := ?_
            processed := ?_
            times := fun hcalm => haccounts.times (hcalm.same rfl) }
          · intro submission hsubmission hover
            obtain ⟨importers, himporters, hfate⟩ := haccounts.fates submission hsubmission hover
            exact ⟨importers, himporters, hfate.same rfl⟩
          · rw [Journal.empty_units_append, if_neg hsome]
            exact haccounts.processed
      | submitted n importers batch => exact haccounts.after_submitted hsound n batch _
      | imported k w portion rest outcome hwork hremaining =>
          -- A task that has imported a portion has less to do than before.
          have hsame := hkept k w hwork
          dsimp only at hsame
          rw [Function.update_self] at hsame
          have hrest := congrArg Work.remaining (Option.some.inj hsame)
          rw [hremaining] at hrest
          exact absurd hrest (List.cons_ne_self portion rest).symm
      | settled k w hwork | panicked k w _ _ _ _ hwork =>
          have hsame := hkept k w hwork
          dsimp only at hsame
          rw [Function.update_self] at hsame
          cases hsame
  | imported k w portion rest outcome hwork hremaining hcalm =>
      exact haccounts.after_portion hwork ⟨Nat.le_refl _, Nat.le_refl _⟩ (fun _ => rfl)
        (fun _ => hcalm) rfl nofun
  | settled k w hwork hremaining => exact haccounts.after_settled hsound hwork hremaining
  | lost k w portion rest outcome times hwork hremaining htimes hcause =>
      -- The journal has seen at least the times of the counters, so they do not fit there either.
      have hcause : outcome.panic? ≠ none ∨
          Duration.longest.totalNanos < (l.journal.enter k portion outcome).times.1 ∨
          Duration.longest.totalNanos < (l.journal.enter k portion outcome).times.2 := by
        rw [Journal.times_enter]
        simp only [Tally.spend] at hcause
        exact hcause.imp_right (Or.imp
          (fun hlong => Nat.lt_of_lt_of_le hlong (Nat.add_le_add_right haccounts.latency_le _))
          fun hlong => Nat.lt_of_lt_of_le hlong (Nat.add_le_add_right haccounts.respTime_le _))
      refine haccounts.after_portion hwork htimes ?_ (absurd rfl) rfl ?_
      · intro hcalm
        rcases hcause with hpanic | hlong | hlong
        · exact absurd (hcalm.unpanicked _ (List.mem_append_right _ List.mem_cons_self)) hpanic
        · exact absurd hlong (Nat.not_lt.mpr hcalm.latency_le)
        · exact absurd hlong (Nat.not_lt.mpr hcalm.respTime_le)
      · intro _ submission hsubmission hk
        have hunder := hsound.underWay k w hwork
        obtain rfl : submission = ⟨w.job, k, w.batch⟩ :=
          List.inj_on_of_nodup_map hsound.distinct hsubmission hunder.submitted hk
        refine ⟨w.importers, hunder.importers,
          .lost (l.journal.importsOf k) ⟨k, portion, outcome⟩ rest ?_ ?_ ?_
            (haccounts.calm k w hwork) hcause⟩
        · intro hmem
          rw [(haccounts.finished k hmem).2] at hwork
          cases hwork
        · rw [Journal.imports_of_enter, if_pos rfl]
        · have hportions := hunder.portions
          rw [hremaining] at hportions
          exact hportions.symm

end

/-! ## The accounts of every state -/

section

variable {settings : Settings} {s next : State} {n : Nat} {j : Job} {answer : Answer}
  {label : Label}

/-- A step that is not one of a task settles no batch. -/
theorem settled_of_others (h : Transition settings s label next)
    (hlabel : ∀ k, label.actor? ≠ some (.task k)) :
    settledTasks next.history = settledTasks s.history := by
  refine (adds_of_transition h).filter_map_eq fun event hevent => ?_
  cases event with
  | settled k => exact absurd (hevent (.task k) rfl) (hlabel k)
  | _ => rfl

/-- A job leaves the tasks under way as they are. -/
theorem JobStep.work_kept (h : JobStep settings s n j answer next) {k : Nat} {w : Work}
    (hwork : s.ledger.work k = some w) : next.ledger.work k = some w := by
  obtain ⟨change, added, hholding⟩ := h.holding
  obtain ⟨t, ht, rfl⟩ := Option.map_eq_some_iff.mp hwork
  simp only [State.ledger, hholding.tasks, List.lookup_append, ht, Option.some_or, Option.map_some]

/-- A step of a reachable state is a step of its ledger, because a job that holds a batch finds the
importers open. -/
theorem ledger_step_of_reachable (h : Reachable settings s)
    (hstep : step settings s label = some next) :
    LedgerStep settings s.ledger next.ledger :=
  ledger_step_of_transition (transition_of_step hstep) fun _ _ _ hj hpoint =>
    (State.drained_of_reachable h).open_of_submitting hj hpoint

/-- The ledger of every reachable state is sound. -/
theorem sound_of_reachable (h : Reachable settings s) : s.ledger.Sound settings := by
  induction h with
  | initial => exact ⟨fun _ => rfl, List.nodup_nil, nofun, rfl, nofun, nofun⟩
  | step label h hstep ih => exact (ledger_step_of_reachable h hstep).sound ih

/-- A step of a reachable state is a step of the accounts. -/
theorem account_step_of_reachable (h : Reachable settings s)
    (hstep : step settings s label = some next) :
    AccountStep settings s.ledger (settledTasks s.history) next.ledger
      (settledTasks next.history) := by
  have hledger := ledger_step_of_reachable h hstep
  have htransition := transition_of_step hstep
  have hothers (hlabel : ∀ k, label.actor? ≠ some (.task k))
      (hwork : ∀ k w, s.ledger.work k = some w → next.ledger.work k = some w) :
      AccountStep settings s.ledger (settledTasks s.history) next.ledger
        (settledTasks next.history) := by
    rw [settled_of_others htransition hlabel]
    exact .kept next.ledger hledger hwork
  have hidle (hlabel : ∀ k, label.actor? ≠ some (.task k))
      (htasks : next.tasks = s.tasks) :
      AccountStep settings s.ledger (settledTasks s.history) next.ledger
        (settledTasks next.history) := by
    refine hothers hlabel fun k w hwork => ?_
    have hsame : next.ledger.work k = s.ledger.work k :=
      congrArg (fun tasks : List (Nat × Task) => (tasks.lookup k).map Task.work) htasks
    exact hsame.trans hwork
  cases htransition with
  | «import» | call | clock => exact hidle nofun rfl
  | job n j answer _ hj hstep => exact hothers nofun fun _ _ hwork => hstep.work_kept hwork
  | task n t answer _ ht hstep => exact hstep.account ht
  | start answer _ hstep => exact hidle nofun hstep.effect.work.tasks
  | stop answer _ hstep => exact hidle nofun hstep.effect.work.tasks
  | report answer _ hstep =>
      cases hstep with
      | ticked | ended => exact hidle nofun rfl
  | caller n c _ hc hstep =>
      cases hstep with
      | waiting | readersDrained | answered => exact hidle nofun rfl
      | entered | importersDrained => exact hidle nofun (enter_effect s n c.wish).tasks

/-- The accounts are kept in every reachable state. -/
theorem accounts_of_reachable (h : Reachable settings s) :
    s.ledger.Accounts settings (settledTasks s.history) := by
  induction h with
  | initial =>
      have hzero : Duration.zero.totalNanos = 0 := by decide
      have hlatency : (State.initial settings).ledger.tally.latency = 0 := hzero
      have hrespTime : (State.initial settings).ledger.tally.respTime = 0 := hzero
      exact ⟨nofun, nofun, nofun, rfl, rfl, rfl, hlatency ▸ Nat.zero_le _,
        hrespTime ▸ Nat.zero_le _, fun _ => Prod.ext hlatency hrespTime⟩
  | step label h hstep ih =>
      exact (account_step_of_reachable h hstep).accounts (sound_of_reachable h) ih

end

/-! ## After the run -/

/-- The batches that have been settled in a run. -/
def settledIn (history : List Event) : List Submission :=
  (Journal.of history).settledBatches (settledTasks history)

/-- The counters of a state are the sums over the batches that have been settled, as words. Batches
without records are handed to no task, and only their units count. -/
structure State.Accounted (s : State) : Prop where
  totalRecords : s.stats.totalRecords = .ofNat
    ((settledIn s.history).map fun settled => settled.batch.records.length).sum
  processed : s.stats.processed = .ofNat
    (((settledIn s.history).map fun settled => settled.batch.units).sum +
      (Journal.of s.history).emptyUnits)
  failedRecords : s.stats.failedRecords = .ofNat
    ((settledIn s.history).map (Journal.of s.history).failures).sum

section

variable {settings : Settings} {s : State} {submission : Submission}

/-- Every reachable state accounts for the batches that have been settled. -/
theorem accounted_of_reachable (h : Reachable settings s) : s.Accounted :=
  have haccounts := accounts_of_reachable h
  ⟨haccounts.totalRecords, haccounts.processed, haccounts.failedRecords⟩

/-- A submission is settled if its task has settled its batch. -/
theorem mem_settled_in {history : List Event} :
    submission ∈ settledIn history ↔ submission ∈ (Journal.of history).submissions ∧
      submission.task ∈ settledTasks history := by
  rw [settledIn, Journal.settledBatches, List.mem_filter, List.contains_iff_mem]

/-- A run that has been stopped: no job holds a batch and every task is over. -/
theorem ledger_of_stopped (h : Reachable settings s) (hreturned : s.stopReturned = true) :
    (∀ n, s.ledger.held n = none) ∧ s.ledger.finished = s.ledger.journal.submissions := by
  obtain ⟨hquiet, hnone⟩ := (State.drained_of_reachable h).over hreturned
  refine ⟨?_, ?_⟩
  · intro n
    apply Option.bind_eq_none_iff.mpr
    intro j hj
    have hidle := hquiet j (List.mem_of_getElem? hj)
    cases hbatch : j.point with
    | submitting batch =>
        rw [hbatch] at hidle
        cases hidle
    | begun | opening | sizing | dismissing | absent | spawned | queued | gated | readying | reading
    | closing | ended => rfl
  · apply List.filter_eq_self.mpr
    intro submission _
    simp [State.ledger, hnone]

/-- The batch of a task that is over has been settled or was lost. -/
theorem fate_of_finished (h : Reachable settings s) (hsubmission : submission ∈ s.ledger.finished) :
    ∃ j, s.jobs[submission.job]? = some j ∧
      s.ledger.Fate settings (settledTasks s.history) submission j.importers := by
  obtain ⟨hsubmission, hover⟩ := Ledger.mem_finished.mp hsubmission
  obtain ⟨importers, himporters, hfate⟩ :=
    (accounts_of_reachable h).fates submission hsubmission hover
  obtain ⟨j, hj, rfl⟩ := job_of_ledger himporters
  exact ⟨j, hj, hfate⟩

/-- Once a call that stops the run has returned, every batch that was handed to a task has been
settled or was lost. -/
theorem fate_of_stopped (h : Reachable settings s) (hreturned : s.stopReturned = true)
    (hsubmission : submission ∈ (Journal.of s.history).submissions) :
    ∃ j, s.jobs[submission.job]? = some j ∧
      s.ledger.Fate settings (settledTasks s.history) submission j.importers := by
  obtain ⟨-, hfinished⟩ := ledger_of_stopped h hreturned
  exact fate_of_finished h (hfinished ▸ hsubmission)

/-- A batch in which no importer has panicked has been settled, if the accumulated times fit. -/
theorem Ledger.Fate.settled_of_calm {l : Ledger} {settled : List Nat} {importers : List Importer}
    (h : l.Fate settings settled submission importers)
    (hcalm : ∀ i ∈ l.journal.importsOf submission.task, i.outcome.panic? = none)
    (hlatency : l.journal.times.1 ≤ Duration.longest.totalNanos)
    (hrespTime : l.journal.times.2 ≤ Duration.longest.totalNanos) :
    submission.task ∈ settled ∧ l.journal.portionsOf submission.task =
      portions settings.batch importers submission.batch.records := by
  cases h with
  | settled hsettled hportions _ => exact ⟨hsettled, hportions⟩
  | lost earlier last after _ himports _ _ hcause =>
      have hlast : last.outcome.panic? = none := by
        apply hcalm
        rw [himports]
        exact List.mem_append_right _ List.mem_cons_self
      rcases hcause with hpanic | hlong | hlong
      · exact absurd hlast hpanic
      · exact absurd hlong (Nat.not_lt.mpr hlatency)
      · exact absurd hlong (Nat.not_lt.mpr hrespTime)

end

end BulkLoad.Manager
