import BulkLoad.Proofs.Reader.Stream
import Mathlib.Algebra.BigOperators.Group.List.Basic
import Mathlib.Data.UInt

/-!
# Cutting a stream of records into batches

What a `StreamReader` makes of a source that is read to its end without a failure. Each request
takes a stretch of what the record reader is going to answer and turns it into a batch; all but the
last take as many records as a batch has room for. What comes of all requests together does not
depend on where the stream has been cut (`batches_of_stream`). The bytes of a batch are counted as a
word, so their sums agree as words, and as numbers if all bytes together fit one.
-/

namespace BulkLoad

/-- The bytes that an outcome has consumed. -/
def RecordOutcome.bytes : RecordOutcome → Nat
  | .record bytes _ | .error (.skip bytes _) => bytes
  | .error _ | .panicked _ => 0

/-- The bytes that outcomes have consumed. -/
def bytesOf (outcomes : List RecordOutcome) : Nat := (outcomes.map RecordOutcome.bytes).sum

namespace StreamReader

/-- A request that is answered with a batch: what it takes of what the record reader is going to
answer, and the units and records of the batch. -/
@[ext] structure Request where
  taken : List RecordOutcome
  units : Nat
  records : Records

/-- The request that takes some outcomes, given what becomes of each record. -/
def Request.of (images : Record → Records) (taken : List RecordOutcome) : Request where
  taken := taken
  units := (UInt64.ofNat (bytesOf taken)).toNat
  records := (taken.filterMap RecordOutcome.record?).flatMap images

/-- The units of some requests, added as words. -/
def countedUnits (requests : List Request) : UInt64 :=
  (requests.map fun request => UInt64.ofNat request.units).sum

/-- The requests that read a source until it is exhausted. -/
inductive ReadsOut : StreamReader → List Request → Prop where
  | exhausted {r : StreamReader} (heof : r.readBatch.1 = .error .eof) : ReadsOut r []
  | batch {r : StreamReader} {request : Request} {left : List RecordOutcome}
      {later : List Request} (hupcoming : r.upcoming = some (request.taken ++ left))
      (hanswer : r.readBatch.1 = .batch request.units request.records)
      (hleft : r.readBatch.2.2.upcoming = some left) (hlater : r.readBatch.2.2.ReadsOut later) :
      ReadsOut r (request :: later)

section

variable {sourceName : String} {wanted : Nat} {upcoming : List RecordOutcome} {r : StreamReader}
  {images : Record → Records} {requests others : List Request}

/-! ## One request -/

/-- The bytes that are collected after one more outcome. -/
theorem bytes_add (c : Collected) (outcome : RecordOutcome) :
    (c.add outcome).bytes = c.bytes + .ofNat outcome.bytes := by
  cases outcome with
  | record => rfl
  | panicked => exact (UInt64.add_zero _).symm
  | error error =>
      cases error with
      | skip => rfl
      | eof | failed | source | convert | aborted => exact (UInt64.add_zero _).symm

/-- The records that are collected after some more outcomes. -/
theorem raw_add_all (c : Collected) (outcomes : List RecordOutcome) :
    (outcomes.foldl Collected.add c).raw =
      c.raw ++ outcomes.filterMap RecordOutcome.record? := by
  induction outcomes generalizing c with
  | nil => exact (List.append_nil _).symm
  | cons outcome later ih => rw [List.foldl_cons, ih, raw_add, records_cons, List.append_assoc]

/-- The bytes that are collected after some more outcomes. -/
theorem bytes_add_all (c : Collected) (outcomes : List RecordOutcome) :
    (outcomes.foldl Collected.add c).bytes = c.bytes + .ofNat (bytesOf outcomes) := by
  induction outcomes generalizing c with
  | nil => exact (UInt64.add_zero _).symm
  | cons outcome later ih =>
      have hcons : bytesOf (outcome :: later) = outcome.bytes + bytesOf later := List.sum_cons
      rw [List.foldl_cons, ih, bytes_add, hcons, UInt64.ofNat_add, UInt64.add_assoc]

/-- What a collection makes of outcomes that give or skip records: it becomes full after some of
them, or all of them are collected before the source is exhausted. -/
theorem collect_of_stream (sourceName : String) (c : Collected) (hwanted : 0 < wanted)
    (hgoes : ∀ outcome ∈ upcoming, outcome.goesOn = true) :
    (∃ (taken left : List RecordOutcome) (logs : List LogLine), upcoming = taken ++ left ∧
      (taken.filterMap RecordOutcome.record?).length = wanted ∧
      collect sourceName c wanted upcoming = (.full (taken.foldl Collected.add c), logs, left)) ∨
    ∃ logs : List LogLine, (upcoming.filterMap RecordOutcome.record?).length < wanted ∧
      collect sourceName c wanted upcoming =
        ((interrupt sourceName (upcoming.foldl Collected.add c) .eof).1, logs, []) := by
  induction upcoming generalizing c wanted with
  | nil =>
      obtain ⟨wanted, rfl⟩ := Nat.exists_eq_add_one.mpr hwanted
      exact .inr ⟨_, hwanted, rfl⟩
  | cons outcome later ih =>
      obtain ⟨wanted, rfl⟩ := Nat.exists_eq_add_one.mpr hwanted
      obtain ⟨left, logs, hleft, hcollect⟩ :=
        collect_add sourceName (hgoes outcome List.mem_cons_self) rfl later
      have hcount := congrArg List.length (raw_add c outcome)
      simp only [Collected.raw, List.length_reverse, List.length_append] at hcount
      rw [hcollect]
      rcases Nat.eq_zero_or_pos left with rfl | hpos
      · refine .inl ⟨[outcome], later, logs, rfl, ?_, ?_⟩
        · rw [records_cons, List.length_append]
          show _ + 0 = _
          omega
        · simp only [collect, List.append_nil]
          rfl
      · rcases ih (c.add outcome) hpos fun other hother =>
            hgoes other (List.mem_cons_of_mem _ hother) with
          ⟨taken, rest, more, rfl, htaken, hrest⟩ | ⟨more, hshort, hrest⟩
        · refine .inl ⟨outcome :: taken, rest, logs ++ more, rfl, ?_, ?_⟩
          · rw [records_cons, List.length_append]
            omega
          · rw [hrest]
            rfl
        · refine .inr ⟨logs ++ more, ?_, ?_⟩
          · rw [records_cons, List.length_append]
            omega
          · rw [hrest]
            rfl

/-- All that has been collected is converted if the convertor neither fails nor panics. -/
theorem converted_of_stream {convert : Convertor}
    (hconvert : ∀ raw, convert raw = .records (images raw)) (taken : List RecordOutcome) :
    converted convert (taken.foldl Collected.add {}) =
      .batch (Request.of images taken).units (Request.of images taken).records := by
  have hraw : (taken.foldl Collected.add {}).raw =
      (taken.filterMap RecordOutcome.record?).map fun raw => raw := by
    rw [raw_add_all, List.map_id']
    rfl
  have hbytes : (taken.foldl Collected.add {}).bytes.toNat = (Request.of images taken).units :=
    congrArg UInt64.toNat ((bytes_add_all {} taken).trans (UInt64.zero_add _))
  rw [converted, hraw, Convertor.convert_all_map fun raw _ => hconvert raw, hbytes]
  rfl

/-- Nothing is collected of outcomes that have no records and whose bytes add up to none. -/
theorem is_empty_iff :
    (upcoming.foldl Collected.add {}).isEmpty = true ↔
      upcoming.filterMap RecordOutcome.record? = [] ∧ UInt64.ofNat (bytesOf upcoming) = 0 := by
  have hraw : (upcoming.foldl Collected.add {}).latest.reverse =
      upcoming.filterMap RecordOutcome.record? := raw_add_all {} upcoming
  have hbytes : (upcoming.foldl Collected.add {}).bytes = .ofNat (bytesOf upcoming) :=
    (bytes_add_all {} upcoming).trans (UInt64.zero_add _)
  rw [Collected.isEmpty, Bool.and_eq_true, List.isEmpty_iff, beq_iff_eq, hbytes, ← hraw,
    List.reverse_eq_nil_iff]

/-- A reader whose convertor neither fails nor panics takes some of a stream for a batch, which is
full or takes all that is left, or finds nothing more in it. -/
theorem read_of_stream (hsize : r.batch ≤ largestBatch) (hpos : 0 < r.batch)
    (hconvert : ∀ raw, r.convert raw = .records (images raw))
    (hupcoming : r.upcoming = some upcoming) (hgoes : ∀ outcome ∈ upcoming, outcome.goesOn = true) :
    (∃ taken left : List RecordOutcome, upcoming = taken ++ left ∧ taken ≠ [] ∧
      r.readBatch.1 = .batch (Request.of images taken).units (Request.of images taken).records ∧
      r.readBatch.2.2 = { r with upcoming := some left } ∧
      ((taken.filterMap RecordOutcome.record?).length = r.batch ∨ left = [])) ∨
    (r.readBatch.1 = .error .eof ∧ upcoming.filterMap RecordOutcome.record? = [] ∧
      UInt64.ofNat (bytesOf upcoming) = 0) := by
  rcases collect_of_stream r.sourceName {} hpos hgoes with
    ⟨taken, left, logs, rfl, hfull, hcollect⟩ | ⟨logs, hshort, hcollect⟩
  · obtain ⟨hanswer, -, hafter⟩ := read_collected hsize hupcoming hcollect
    rw [converted_of_stream hconvert] at hanswer hafter
    refine .inl ⟨taken, left, rfl, ?_, hanswer, hafter rfl, .inl hfull⟩
    rintro rfl
    exact absurd hfull (Nat.ne_of_lt hpos)
  · -- The source is exhausted before the batch is full.
    cases hempty : (upcoming.foldl Collected.add {}).isEmpty with
    | true =>
        have hinterrupt : interrupt r.sourceName (upcoming.foldl Collected.add {}) .eof =
            (.refused .eof, []) := if_pos hempty
        rw [hinterrupt] at hcollect
        refine .inr ⟨?_, is_empty_iff.mp hempty⟩
        simp only [readBatch, hupcoming, if_neg (Nat.not_lt.mpr hsize), hcollect, outcome]
    | false =>
        have hinterrupt : interrupt r.sourceName (upcoming.foldl Collected.add {}) .eof =
            (.full (upcoming.foldl Collected.add {}), []) := by
          unfold interrupt
          rw [if_neg (by rw [← Collected.isEmpty, hempty]; exact Bool.false_ne_true)]
          rfl
        rw [hinterrupt] at hcollect
        obtain ⟨hanswer, -, hafter⟩ := read_collected hsize hupcoming hcollect
        rw [converted_of_stream hconvert] at hanswer hafter
        refine .inl ⟨upcoming, [], (List.append_nil _).symm, ?_, hanswer, hafter rfl, .inr rfl⟩
        rintro rfl
        cases hempty

/-! ## All requests -/

/-- What reads a source until it is exhausted is determined. -/
theorem ReadsOut.unique (h : r.ReadsOut requests) (hother : r.ReadsOut others) :
    requests = others := by
  induction h generalizing others with
  | exhausted heof =>
      cases hother with
      | exhausted => rfl
      | batch _ hanswer =>
          rw [heof] at hanswer
          cases hanswer
  | @batch r request left later hupcoming hanswer hleft _ ih =>
      cases hother with
      | exhausted heof =>
          rw [heof] at hanswer
          cases hanswer
      | @batch _ other rest more hupcoming' hanswer' hleft' hlater =>
          obtain rfl : left = rest := Option.some.inj (hleft.symm.trans hleft')
          have htaken : request.taken = other.taken :=
            List.append_cancel_right (Option.some.inj (hupcoming.symm.trans hupcoming'))
          rw [hanswer] at hanswer'
          injection hanswer' with hunits hrecords
          rw [Request.ext htaken hunits hrecords, ih hlater]

/-- The bytes of outcomes that are taken one after the other. -/
theorem bytes_append (taken left : List RecordOutcome) :
    bytesOf (taken ++ left) = bytesOf taken + bytesOf left := by
  rw [bytesOf, List.map_append, List.sum_append]
  rfl

/-- A stream is read out in requests that together take all its records and bytes, each but the last
of them as many records as a batch has room for. -/
theorem exists_reads_out (hsize : r.batch ≤ largestBatch) (hpos : 0 < r.batch)
    (hconvert : ∀ raw, r.convert raw = .records (images raw))
    (hupcoming : r.upcoming = some upcoming) (hgoes : ∀ outcome ∈ upcoming, outcome.goesOn = true) :
    ∃ requests, r.ReadsOut requests ∧
      requests.flatMap Request.records =
        (upcoming.filterMap RecordOutcome.record?).flatMap images ∧
      countedUnits requests = .ofNat (bytesOf upcoming) ∧
      (bytesOf upcoming < 18446744073709551616 →
        (requests.map Request.units).sum = bytesOf upcoming) ∧
      ∀ request ∈ requests.dropLast,
        (request.taken.filterMap RecordOutcome.record?).length = r.batch := by
  induction hlength : upcoming.length using Nat.strongRecOn generalizing r upcoming with
  | ind length ih =>
      rcases read_of_stream hsize hpos hconvert hupcoming hgoes with
        ⟨taken, left, rfl, hsome, hanswer, hafter, hfull⟩ | ⟨heof, hrecords, hbytes⟩
      · have htaken : 0 < taken.length := List.length_pos_iff.mpr hsome
        have hleft : left.length < length := by
          rw [← hlength, List.length_append]
          omega
        obtain ⟨later, hlater, hrecords, hbytes, hfits, hothers⟩ :=
          ih left.length hleft (r := { r with upcoming := some left }) hsize hpos hconvert rfl
            (fun outcome houtcome => hgoes outcome (List.mem_append_right _ houtcome)) rfl
        refine ⟨.of images taken :: later, ?_, ?_, ?_, ?_, ?_⟩
        · exact .batch hupcoming hanswer (by rw [hafter]) (by rw [hafter]; exact hlater)
        · rw [List.flatMap_cons, hrecords, List.filterMap_append, List.flatMap_append]
          rfl
        · rw [bytes_append, UInt64.ofNat_add, ← hbytes]
          exact congrArg (· + countedUnits later) UInt64.ofNat_toNat
        · intro hsmall
          rw [bytes_append] at hsmall ⊢
          have hunits : (Request.of images taken).units = bytesOf taken :=
            UInt64.toNat_ofNat_of_lt' (Nat.lt_of_le_of_lt (Nat.le_add_right _ _) hsmall)
          rw [List.map_cons, List.sum_cons, hunits,
            hfits (Nat.lt_of_le_of_lt (Nat.le_add_left _ _) hsmall)]
        · -- Where nothing is left there are no other requests, and the batch may not be full.
          have hlast (hnil : left = []) : later = [] := by
            subst hnil
            exact hlater.unique (.exhausted (read_end hsize hpos rfl nofun))
          cases later with
          | nil => exact nofun
          | cons next later =>
              rw [List.dropLast_cons_cons, List.forall_mem_cons]
              exact ⟨hfull.resolve_right (fun hnil => nomatch hlast hnil), hothers⟩
      · refine ⟨[], .exhausted heof, by rw [hrecords]; rfl, hbytes.symm, fun hsmall => ?_, nofun⟩
        have hzero := congrArg UInt64.toNat hbytes
        rw [UInt64.toNat_ofNat_of_lt' hsmall] at hzero
        exact hzero.symm

/-- A reader has room for as many records in a batch as it has been told, unless that is none. -/
theorem batch_of (sourceName : String) (convert : Convertor) {batch : Nat} (hpos : 0 < batch)
    (upcoming : List RecordOutcome) :
    (StreamReader.of sourceName convert batch upcoming).batch = batch := by
  have hsome : (batch == 0) = false := beq_false_of_ne (Nat.ne_of_gt hpos)
  show (if batch == 0 then defaultBatch else batch) = batch
  rw [hsome]
  rfl

/-- A stream of records, some of them bad, is read out by any reader whose convertor neither fails
nor panics and for whose batches there is memory. The batches together hold what becomes of the
records, in order, and count the bytes of all records, the bad ones included; each request but the
last takes as many records as a batch has room for. A reader with room for another number of records
in a batch gets the same records and counts the same bytes. Bytes are added as words, and whatever
fits a word is counted as it is. -/
theorem batches_of_stream {convert : Convertor} {batch : Nat} (images : Record → Records)
    (hconvert : ∀ raw, convert raw = .records (images raw)) (hpos : 0 < batch)
    (hsize : batch ≤ largestBatch) (hgoes : ∀ outcome ∈ upcoming, outcome.goesOn = true) :
    ∃ requests, (StreamReader.of sourceName convert batch upcoming).ReadsOut requests ∧
      requests.flatMap Request.records =
        (upcoming.filterMap RecordOutcome.record?).flatMap images ∧
      countedUnits requests = .ofNat (bytesOf upcoming) ∧
      (bytesOf upcoming < 18446744073709551616 →
        (requests.map Request.units).sum = bytesOf upcoming) ∧
      (∀ request ∈ requests.dropLast,
        (request.taken.filterMap RecordOutcome.record?).length = batch) ∧
      ∀ other others, 0 < other → other ≤ largestBatch →
        (StreamReader.of sourceName convert other upcoming).ReadsOut others →
        others.flatMap Request.records = requests.flatMap Request.records ∧
          countedUnits others = countedUnits requests ∧
          (bytesOf upcoming < 18446744073709551616 →
            (others.map Request.units).sum = (requests.map Request.units).sum) := by
  have hreads {batch : Nat} (hpos : 0 < batch) (hsize : batch ≤ largestBatch) :=
    exists_reads_out (r := .of sourceName convert batch upcoming)
      (by rwa [batch_of sourceName convert hpos]) (batch_of_pos ..) hconvert rfl hgoes
  obtain ⟨requests, hrequests, hrecords, hbytes, hfits, hfull⟩ := hreads hpos hsize
  rw [batch_of sourceName convert hpos] at hfull
  refine ⟨requests, hrequests, hrecords, hbytes, hfits, hfull, ?_⟩
  intro other others hpos hsize hothers
  obtain ⟨same, hsame, hrecords', hbytes', hfits', -⟩ := hreads hpos hsize
  rw [hothers.unique hsame]
  exact ⟨hrecords'.trans hrecords.symm, hbytes'.trans hbytes.symm,
    fun hsmall => (hfits' hsmall).trans (hfits hsmall).symm⟩

end

namespace Letters

/-- Three records, one of which takes no bytes, and bad ones before, between and after them. -/
def upcoming : List RecordOutcome := [
  .error (.skip 5 "ragged"), .record 2 ["a"], .record 0 ["b"], .error (.skip 7 "ragged"),
  .record 2 ["c"], .error (.skip 3 "ragged")]

end Letters

/-- Three letters are read out one by one, and each is expanded to two records. -/
theorem batches_of_letters :
    ∃ requests, (StreamReader.of "letters" (fun raw => .records [raw, raw]) 1
        Letters.upcoming).ReadsOut requests ∧
      requests.flatMap Request.records = [["a"], ["a"], ["b"], ["b"], ["c"], ["c"]] ∧
      countedUnits requests = 19 ∧ (requests.map Request.units).sum = 19 := by
  have hgoes : ∀ outcome ∈ Letters.upcoming, outcome.goesOn = true := by decide
  obtain ⟨requests, hrequests, hrecords, hbytes, hfits, -⟩ :=
    batches_of_stream (fun raw => [raw, raw]) (fun _ => rfl) Nat.one_pos (by decide) hgoes
  exact ⟨requests, hrequests, hrecords, hbytes, hfits (by decide)⟩

/-- What is left after the last record is a batch without records. -/
example : ((StreamReader.of "letters" .identity 1 Letters.upcoming).readMany 5).1 =
    [.batch 7 [["a"]], .batch 0 [["b"]], .batch 9 [["c"]], .batch 3 [], .error .eof] := by decide

end StreamReader

end BulkLoad
