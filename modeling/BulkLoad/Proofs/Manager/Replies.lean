import BulkLoad.Entity
import BulkLoad.Proofs.Importer
import BulkLoad.Proofs.Manager.Batch
import BulkLoad.Rehearsal.Server
import Mathlib.Algebra.BigOperators.Group.List.Basic
import Mathlib.Algebra.Ring.Int.Defs

/-!
# What the replies of the database decide

The replies decide whether a statement that is sent succeeds, and its times; everything else is the
builder's (`Portion.planned`). So two servers leave the same counters behind, apart from those of
failures and times and from the processed records: a failed portion counts with all its records,
though its statement may have carried fewer. The processed records of the two servers differ by what
was left out of the statements that failed (`moved_by_replies`), and agree if builders leave nothing
out.
-/

namespace BulkLoad

/-- The outcomes of portions that are imported on a server, one after the other. -/
def imports {σ : Type} (execute : σ → String → Reply × σ) : List Portion → σ →
    List (Portion × ImportOutcome)
  | [], _ => []
  | p :: rest, server =>
      let run := p.importer.run execute p.records server
      (p, run.outcome) :: imports execute rest run.server

/-- The outcome of a portion whose statement is executed if there is one, apart from its times. -/
def Portion.planned (p : Portion) : ImportOutcome :=
  match p.importer.plan p.records with
  | .settled outcome => outcome
  | .send _ count => .imported { records := count }

/-- What a portion counts as processed beyond the records of its plan. If its importer fails it
counts with all its records, whatever its statement carried. The surplus of a builder that reports
more than it was given is negative. -/
def Portion.surplus (p : Portion) (outcome : ImportOutcome) : ℤ :=
  if outcome.isFailed then p.records.length - p.processed p.planned else 0

/-- What portions count as processed beyond the records of their plans. -/
def surplusOf (entries : List (Portion × ImportOutcome)) : ℤ :=
  (entries.map fun (p, outcome) => p.surplus outcome).sum

/-- The outcomes that a portion can have, whatever is replied. -/
inductive Portion.Ends (p : Portion) : ImportOutcome → Prop where
  | settled (outcome : ImportOutcome) (hplan : p.importer.plan p.records = .settled outcome) :
      p.Ends outcome
  | executed (statement : String) (count : Nat) (latency respTime : Duration)
      (hplan : p.importer.plan p.records = .send statement count) :
      p.Ends (.imported ⟨count, latency, respTime⟩)
  | refused (statement : String) (count attempts : Nat) (error : ClientError)
      (hplan : p.importer.plan p.records = .send statement count) :
      p.Ends (.failed (.execute statement attempts error))

section

variable {σ τ : Type} {execute : σ → String → Reply × σ} {server : σ} {p : Portion}
  {outcome : ImportOutcome} {entries others : List (Portion × ImportOutcome)}

/-! ## One portion -/

/-- Whatever comes of a statement that is sent, the portion ends in one of these ways. -/
theorem Portion.ends_of_conclude {statement : String} {count : Nat}
    (hplan : p.importer.plan p.records = .send statement count) :
    ∀ result, p.Ends (Importer.conclude statement count result)
  | .ok response => .executed statement count response.latency response.respTime hplan
  | .error (.fatal error) => .refused statement count 1 error hplan
  | .error (.attemptsExceeded calls error) => .refused statement count calls error hplan

/-- Importing a portion ends in one of these ways. -/
theorem Portion.ends_of_run (p : Portion) (execute : σ → String → Reply × σ) (server : σ) :
    p.Ends (p.importer.run execute p.records server).outcome := by
  cases hplan : p.importer.plan p.records with
  | settled outcome =>
      simp only [Importer.run, hplan]
      exact .settled outcome hplan
  | send statement count =>
      rw [Importer.run_of_plan hplan]
      exact ends_of_conclude hplan _

/-- Whether a portion counts as a request is the builder's. -/
theorem Portion.Ends.request (h : p.Ends outcome) : outcome.isRequest = p.planned.isRequest := by
  cases h with
  | settled outcome hplan => simp only [planned, hplan]
  | executed statement count latency respTime hplan => simp only [planned, hplan]; rfl
  | refused statement count attempts error hplan =>
      cases Importer.begins_of_plan hplan with
      | sends statement count hbuilt hcount hstatement =>
          simp [planned, hplan, ImportOutcome.isRequest, Nat.pos_of_ne_zero hcount]

/-- The records that a portion counts as processed are those of its plan and the surplus. -/
theorem Portion.Ends.processed (h : p.Ends outcome) :
    (p.processed outcome : ℤ) = p.processed p.planned + p.surplus outcome := by
  cases h with
  | settled outcome hplan =>
      cases outcome <;>
        simp [surplus, planned, hplan, ImportOutcome.isFailed, Portion.processed]
  | executed statement count latency respTime hplan =>
      simp [surplus, planned, hplan, ImportOutcome.isFailed, Portion.processed]
  | refused statement count attempts error hplan =>
      simp [surplus, planned, hplan, ImportOutcome.isFailed, Portion.processed]

/-- There is no surplus if the statement carries all the records that it is built from. -/
theorem Portion.Ends.surplus_eq_zero (h : p.Ends outcome)
    (hwhole : ∀ statement count, p.importer.plan p.records = .send statement count →
      count = p.records.length) : p.surplus outcome = 0 := by
  cases h with
  | executed => rfl
  | refused statement count attempts error hplan =>
      simp [surplus, planned, hplan, Portion.processed, hwhole statement count hplan]
  | settled outcome hplan =>
      cases outcome with
      | imported | panicked => rfl
      | failed error => simp [surplus, planned, hplan, Portion.processed]

/-- Without panics in the builder, there are none in the end. -/
theorem Portion.Ends.calm (h : p.Ends outcome)
    (hbuild : ∀ message, p.importer.build p.records ≠ .panicked message) :
    outcome.panic? = none := by
  cases h with
  | executed | refused => rfl
  | settled outcome hplan =>
      cases Importer.begins_of_plan hplan with
      | panicked message hbuilt => exact absurd hbuilt (hbuild message)
      | failed | nothing => rfl

/-! ## All portions -/

/-- Each portion is imported once, in order. -/
theorem portions_of_imports (execute : σ → String → Reply × σ) (portions : List Portion)
    (server : σ) : (imports execute portions server).map Prod.fst = portions := by
  induction portions generalizing server with
  | nil => rfl
  | cons p rest ih => exact congrArg (p :: ·) (ih _)

/-- Each portion ends as it can end. -/
theorem ends_of_imports {portions : List Portion} {entry : Portion × ImportOutcome}
    (h : entry ∈ imports execute portions server) : entry.1.Ends entry.2 := by
  induction portions generalizing server with
  | nil => cases h
  | cons p rest ih =>
      rcases List.mem_cons.mp h with rfl | h
      · exact p.ends_of_run execute server
      · exact ih h

/-- The requests are those of the plans. -/
theorem requests_of_ends (h : ∀ entry ∈ entries, entry.1.Ends entry.2) :
    portionsGain entries .totalRequest =
      (entries.map Prod.fst).countP fun p => p.planned.isRequest := by
  simp only [portionsGain, List.countP_map]
  exact List.countP_congr fun entry hentry => by rw [(h entry hentry).request]; rfl

/-- The processed records are those of the plans and the surplus. -/
theorem processed_of_ends (h : ∀ entry ∈ entries, entry.1.Ends entry.2) :
    (portionsGain entries .totalProcessed : ℤ) =
      ((entries.map Prod.fst).map fun p => (p.processed p.planned : ℤ)).sum +
        surplusOf entries := by
  induction entries with
  | nil => rfl
  | cons entry entries ih =>
      have hentry := (h entry List.mem_cons_self).processed
      have hentries := ih fun other hother => h other (List.mem_cons_of_mem _ hother)
      simp only [portionsGain, surplusOf, List.map_cons, List.sum_cons, Int.natCast_add]
        at hentries ⊢
      omega

/-- If the same portions end in different ways, the requests are the same, and the processed records
apart from the surplus. -/
theorem gain_of_same (hends : ∀ entry ∈ entries, entry.1.Ends entry.2)
    (hotherEnds : ∀ entry ∈ others, entry.1.Ends entry.2)
    (hsame : entries.map Prod.fst = others.map Prod.fst) :
    portionsGain entries .totalRequest = portionsGain others .totalRequest ∧
      (portionsGain entries .totalProcessed - surplusOf entries : ℤ) =
        portionsGain others .totalProcessed - surplusOf others := by
  constructor
  · rw [requests_of_ends hends, requests_of_ends hotherEnds, hsame]
  · rw [processed_of_ends hends, processed_of_ends hotherEnds, hsame, Int.add_sub_cancel,
      Int.add_sub_cancel]

/-- The portions of a batch have no surplus if statements carry all the records that they are built
from. -/
theorem surplus_of_whole {importers : List Importer}
    (hends : ∀ entry ∈ entries, entry.1.Ends entry.2)
    (himporters : ∀ entry ∈ entries, entry.1.importer ∈ importers)
    (hwhole : ∀ i ∈ importers, ∀ group statement count, i.plan group = .send statement count →
      count = group.length) : surplusOf entries = 0 := by
  refine List.sum_eq_zero fun surplus hsurplus => ?_
  obtain ⟨entry, hentry, rfl⟩ := List.mem_map.mp hsurplus
  exact (hends entry hentry).surplus_eq_zero
    fun statement count => hwhole _ (himporters entry hentry) _ statement count

/-- Importing a batch on a server, where no builder panics. -/
theorem imports_of_portions {default : Nat} {importers : List Importer} {records : Records}
    (hbuild : ∀ i ∈ importers, ∀ group message, i.build group ≠ .panicked message)
    (hentries : imports execute (portions default importers records) server = entries) :
    entries.map Prod.fst = portions default importers records ∧
      ∀ entry ∈ entries, entry.1.importer ∈ importers ∧ entry.1.Ends entry.2 ∧
        entry.2.panic? = none := by
  have hfirst : entries.map Prod.fst = portions default importers records :=
    hentries ▸ portions_of_imports _ _ _
  refine ⟨hfirst, fun entry hentry => ?_⟩
  have himporter : entry.1.importer ∈ importers :=
    importer_of_portions (hfirst ▸ List.mem_map_of_mem hentry)
  have hends : entry.1.Ends entry.2 := ends_of_imports (hentries ▸ hentry)
  exact ⟨himporter, hends, hends.calm (hbuild _ himporter _)⟩

/-- Counters that have been raised by sums that differ by a surplus differ by it as words, and as
numbers if both sums fit. -/
theorem surplus_of_raised {counter after other : UInt64} {gain otherGain : Nat}
    {surplus otherSurplus : ℤ} (hafter : after = counter + .ofNat gain)
    (hother : other = counter + .ofNat otherGain)
    (hgain : (gain - surplus : ℤ) = otherGain - otherSurplus) :
    after + .ofInt otherSurplus = other + .ofInt surplus ∧
      (counter.toNat + gain < 18446744073709551616 →
        counter.toNat + otherGain < 18446744073709551616 →
        (after.toNat - surplus : ℤ) = other.toNat - otherSurplus) := by
  subst hafter hother
  constructor
  · have hsum : (gain + otherSurplus : ℤ) = otherGain + surplus := by omega
    have hword (n : Nat) : UInt64.ofNat n = .ofInt n := (UInt64.intCast_ofNat n).symm
    rw [hword, hword, UInt64.add_assoc, UInt64.add_assoc, ← UInt64.ofInt_add, hsum,
      UInt64.ofInt_add]
  · intro hfits hotherFits
    have hraised {gain : Nat} (h : counter.toNat + gain < 18446744073709551616) :
        (counter + .ofNat gain).toNat = counter.toNat + gain := by
      rw [UInt64.toNat_add, UInt64.toNat_ofNat', Nat.add_mod_mod]
      exact Nat.mod_eq_of_lt h
    rw [hraised hfits, hraised hotherFits]
    omega

/-- What replies decide about a batch. Whatever two servers reply, importing the batch comes to its
end on both, as long as the accumulated times fit, and both leave the same counters behind apart
from those of failures and times and from the processed records. These differ by the surplus of the
portions that failed, as words and where they fit as numbers, and are the same if statements carry
all the records that they are built from. -/
theorem moved_by_replies {default units : Nat} {importers : List Importer} {records : Records}
    {stats : Stats} {execute : σ → String → Reply × σ} {server : σ}
    {otherExecute : τ → String → Reply × τ} {other : τ}
    (hbuild : ∀ i ∈ importers, ∀ group message, i.build group ≠ .panicked message)
    (hentries : imports execute (portions default importers records) server = entries)
    (hothers : imports otherExecute (portions default importers records) other = others)
    (hfits : TimesFitIn stats entries) (hotherFits : TimesFitIn stats others) :
    ∃ after otherAfter,
      importBatch units stats (List.replicate records.length false) entries = .complete after ∧
      importBatch units stats (List.replicate records.length false) others =
        .complete otherAfter ∧
      (∀ entry ∈ entries ++ others, entry.2.panic? = none) ∧
      after.startTime = otherAfter.startTime ∧
      (∀ counter ∈ [Counter.total, .processed, .totalRecords, .totalRequest],
        after.counters counter = otherAfter.counters counter) ∧
      after.totalProcessed + .ofInt (surplusOf others) =
        otherAfter.totalProcessed + .ofInt (surplusOf entries) ∧
      (stats.totalProcessed.toNat + portionsGain entries .totalProcessed < 18446744073709551616 →
        stats.totalProcessed.toNat + portionsGain others .totalProcessed < 18446744073709551616 →
        (after.totalProcessed.toNat - surplusOf entries : ℤ) =
          otherAfter.totalProcessed.toNat - surplusOf others) ∧
      ((∀ i ∈ importers, ∀ group statement count, i.plan group = .send statement count →
          count = group.length) →
        after.totalProcessed = otherAfter.totalProcessed) := by
  obtain ⟨hfirst, hended⟩ := imports_of_portions hbuild hentries
  obtain ⟨hotherFirst, hotherEnded⟩ := imports_of_portions hbuild hothers
  obtain ⟨after, hafter, hstart, hcounters⟩ := gain_of_batch hfits units records.length
  obtain ⟨otherAfter, hotherAfter, hotherStart, hotherCounters⟩ :=
    gain_of_batch hotherFits units records.length
  obtain ⟨hrequests, hgain⟩ := gain_of_same (fun entry hentry => (hended entry hentry).2.1)
    (fun entry hentry => (hotherEnded entry hentry).2.1) (hfirst.trans hotherFirst.symm)
  have htotal : after.totalProcessed =
      stats.totalProcessed + .ofNat (portionsGain entries .totalProcessed) :=
    congrFun hcounters .totalProcessed
  have hotherTotal : otherAfter.totalProcessed =
      stats.totalProcessed + .ofNat (portionsGain others .totalProcessed) :=
    congrFun hotherCounters .totalProcessed
  obtain ⟨hwords, hnumbers⟩ := surplus_of_raised htotal hotherTotal hgain
  refine ⟨after, otherAfter, hafter, hotherAfter, ?_, hstart.trans hotherStart.symm, ?_,
    hwords, hnumbers, ?_⟩
  · intro entry hentry
    rcases List.mem_append.mp hentry with hentry | hentry
    · exact (hended entry hentry).2.2
    · exact (hotherEnded entry hentry).2.2
  · -- Of these only the requests depend on outcomes at all.
    intro counter hcounter
    rw [hcounters, hotherCounters]
    refine congrArg (stats.counters counter + ·) ?_
    simp only [List.mem_cons, List.not_mem_nil, or_false] at hcounter
    rcases hcounter with rfl | rfl | rfl | rfl
    · rfl
    · rfl
    · rfl
    · exact congrArg UInt64.ofNat hrequests
  · intro hwhole
    rw [surplus_of_whole (fun entry hentry => (hended entry hentry).2.1)
        (fun entry hentry => (hended entry hentry).1) hwhole,
      surplus_of_whole (fun entry hentry => (hotherEnded entry hentry).2.1)
        (fun entry hentry => (hotherEnded entry hentry).1) hwhole] at hwords
    exact (UInt64.add_left_inj _).mp hwords

end

namespace Sample

/-- An importer of vertices that tries once. -/
def vertices : Importer where
  name := "vertices"
  build := entityBuilder .vertex "player"
  retry := RetryPolicy.of 1 Duration.zero Duration.zero

/-- Two records of vertices, one of them without a key. -/
def keyless : Records := [["1", "Ann"], ["", "Ben"]]

/-- A server to which the connection is lost. -/
def unreachable : Rehearsal.Server where
  usual := .error (.transport "reset")

/-- The builder of statements that insert vertices does not panic. -/
theorem calm_vertices : ∀ i ∈ [vertices], ∀ group message, i.build group ≠ .panicked message := by
  intro i hi group message
  obtain rfl := List.mem_singleton.mp hi
  simp only [vertices, entityBuilder]
  split <;> nofun

/-- The outcomes of a batch of vertices on a server. -/
def imported (server : Rehearsal.Server) : List (Portion × ImportOutcome) :=
  imports Rehearsal.Server.answer (portions 128 [vertices] keyless) server

end Sample

/-- A record without a key is left out of the statement, and counts as processed only if that
fails. -/
theorem moved_by_lost_connection :
    ∃ after otherAfter,
      importBatch 0 {} [false, false] (Sample.imported {}) = .complete after ∧
      importBatch 0 {} [false, false] (Sample.imported Sample.unreachable) =
        .complete otherAfter ∧
      after.totalRecords = otherAfter.totalRecords ∧
      after.totalRequest = otherAfter.totalRequest ∧
      after.totalProcessed + 1 = otherAfter.totalProcessed := by
  have hfits : TimesFitIn {} (Sample.imported {}) := ⟨by decide +kernel, by decide +kernel⟩
  have hotherFits : TimesFitIn {} (Sample.imported Sample.unreachable) :=
    ⟨by decide +kernel, by decide +kernel⟩
  obtain ⟨after, otherAfter, hafter, hotherAfter, -, -, hsame, hprocessed, -, -⟩ :=
    moved_by_replies Sample.calm_vertices (show _ = Sample.imported {} from rfl)
      (show _ = Sample.imported Sample.unreachable from rfl) hfits hotherFits
  have hsurplus : surplusOf (Sample.imported {}) = 0 := by decide +kernel
  have hotherSurplus : surplusOf (Sample.imported Sample.unreachable) = 1 := by decide +kernel
  refine ⟨after, otherAfter, hafter, hotherAfter, hsame .totalRecords (by decide),
    hsame .totalRequest (by decide), ?_⟩
  rw [hsurplus, hotherSurplus] at hprocessed
  exact hprocessed.trans (UInt64.add_zero _)

/-- It is not so that the processed records do not depend on the replies: a record that was left out
of a statement counts as processed if the statement fails. -/
theorem not_all_processed_alike :
    ¬ ∀ (importers : List Importer) (records : Records) (server other : Rehearsal.Server)
      (after otherAfter : Stats),
      (∀ i ∈ importers, ∀ group message, i.build group ≠ .panicked message) →
      importBatch 0 {} (List.replicate records.length false)
          (imports Rehearsal.Server.answer (portions 128 importers records) server) =
        .complete after →
      importBatch 0 {} (List.replicate records.length false)
          (imports Rehearsal.Server.answer (portions 128 importers records) other) =
        .complete otherAfter →
      after.totalProcessed = otherAfter.totalProcessed := by
  intro h
  have hexecuted : importBatch 0 {} [false, false] (Sample.imported {}) =
      .complete { totalRecords := 2, totalRequest := 1, totalProcessed := 1 } := by
    decide +kernel
  have hfailed : importBatch 0 {} [false, false] (Sample.imported Sample.unreachable) =
      .complete { totalRecords := 2, failedRecords := 2, totalRequest := 1, failedRequest := 1,
                  totalProcessed := 2, failedProcessed := 2 } := by
    decide +kernel
  have halike := h [Sample.vertices] Sample.keyless {} Sample.unreachable _ _
    Sample.calm_vertices hexecuted hfailed
  cases halike

end BulkLoad
