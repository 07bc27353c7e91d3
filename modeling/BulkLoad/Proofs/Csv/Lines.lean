import BulkLoad.Proofs.Csv.Reading

/-!
# The lines of a text

Delimited text is a sequence of lines. A line is blank, a comment, or a record, and a record goes on
over the ends of lines that stand between its quotes. `Dialect.lines` divides a text into its lines,
field by field, as a reader of the text would, and knows nothing of a machine that takes one byte at
a time. `records_of_lines` says what the machine makes of the lines: the records are those of the
lines in their order, blank lines and comments give none, and a comment that the end of the text
breaks off is taken for a record with one empty field.
-/

namespace BulkLoad.Csv

/-! ## Lines and fields -/

/-- A line of a text. A comment is ended by a line feed, or broken off by the end of the text. -/
inductive Line where
  | blank
  | comment (ended : Bool)
  | record (fields : RawRecord)
deriving DecidableEq

/-- The record that a line is. -/
def Line.record? : Line → Option RawRecord
  | record fields => some fields
  | blank | comment _ => none

/-- The record that a machine finds in a line. -/
def Line.found? : Line → Option RawRecord
  | record fields => some fields
  | comment false => some [[]]
  | blank | comment true => none

/-- The content after an opening quote, in which a doubled quote stands for one, and the text after
the closing quote. Without a closing quote all of the text is content. -/
def unquote : List UInt8 → List UInt8 × List UInt8
  | [] => ([], [])
  | 34 :: 34 :: rest => (34 :: (unquote rest).1, (unquote rest).2)
  | 34 :: rest => ([], rest)
  | b :: rest => (b :: (unquote rest).1, (unquote rest).2)

/-- The text after the end of a line that begins with this byte. -/
def afterLineEnd (b : UInt8) (rest : List UInt8) : List UInt8 :=
  if b = 13 ∧ rest.head? = some 10 then rest.tail else rest

namespace Dialect

variable (dialect : Dialect)

/-- Whether a byte that is not quoted belongs to a field. -/
def isContent (b : UInt8) : Bool := b != dialect.delimiter && !isLineEnd b

/-- The field at the beginning of a text, and the text after it. What comes after a closing quote
belongs to the field as it stands. -/
def field (text : List UInt8) : List UInt8 × List UInt8 :=
  if text.head? = some quote then
    let (quoted, rest) := unquote text.tail
    (quoted ++ rest.takeWhile dialect.isContent, rest.dropWhile dialect.isContent)
  else (text.takeWhile dialect.isContent, text.dropWhile dialect.isContent)

/-- Quotes leave no more bytes than there were. -/
theorem length_unquote_le (text : List UInt8) : (unquote text).2.length ≤ text.length := by
  fun_induction unquote text <;> simp_all <;> omega

/-- A field leaves no more bytes than there were. -/
theorem length_field_le (text : List UInt8) : (dialect.field text).2.length ≤ text.length := by
  unfold field
  split
  · exact Nat.le_trans (List.dropWhile_suffix _).length_le
      (Nat.le_trans (length_unquote_le _) (List.tail_suffix text).length_le)
  · exact (List.dropWhile_suffix _).length_le

/-- The fields of the record at the beginning of a text, and the text after the line. -/
def fields (text : List UInt8) : RawRecord × List UInt8 :=
  match _h : dialect.field text with
  | (content, []) => ([content], [])
  | (content, b :: rest) =>
      if b = dialect.delimiter then (content :: (fields rest).1, (fields rest).2)
      else ([content], afterLineEnd b rest)
termination_by text.length
decreasing_by all_goals
  have hle := dialect.length_field_le text
  rw [_h, List.length_cons] at hle
  exact hle

/-- The end of a line leaves no more bytes than there were. -/
theorem length_after_line_end_le (b : UInt8) (rest : List UInt8) :
    (afterLineEnd b rest).length ≤ rest.length := by
  unfold afterLineEnd
  split
  · exact (List.tail_suffix rest).length_le
  · exact Nat.le_refl _

/-- A record takes at least one byte, if there is one. -/
theorem length_fields_le (text : List UInt8) :
    (dialect.fields text).2.length ≤ text.length - 1 := by
  fun_induction fields dialect text with
  | case1 text content hfield => exact Nat.zero_le _
  | case2 text content rest hfield ih =>
      have hle := dialect.length_field_le text
      rw [hfield, List.length_cons] at hle
      dsimp only
      omega
  | case3 text content b rest hfield hother =>
      have hle := dialect.length_field_le text
      have hend := length_after_line_end_le b rest
      rw [hfield, List.length_cons] at hle
      dsimp only
      omega

/-- The lines of a text. -/
def lines : List UInt8 → List Line
  | [] => []
  | b :: rest =>
      if isLineEnd b then .blank :: lines (afterLineEnd b rest)
      else if some b = dialect.comment then
        match _h : rest.dropWhile (· != 10) with
        | [] => [.comment false]
        | _ :: later => .comment true :: lines later
      else .record (dialect.fields (b :: rest)).1 :: lines (dialect.fields (b :: rest)).2
termination_by text => text.length
decreasing_by
  · exact Nat.lt_succ_of_le (length_after_line_end_le b rest)
  · have hle := (List.dropWhile_suffix (l := rest) (· != 10)).length_le
    rw [_h, List.length_cons] at hle
    exact Nat.lt_succ_of_lt hle
  · exact Nat.lt_succ_of_le (dialect.length_fields_le (b :: rest))

/-- Only the last line can be a comment that is broken off. -/
theorem broken_comment_last {text : List UInt8} (h : .comment false ∈ dialect.lines text) :
    (dialect.lines text).getLast? = some (.comment false) := by
  have hlast {line : Line} {later : List Line}
      (hlater : later.getLast? = some (.comment false)) :
      (line :: later).getLast? = some (.comment false) := by
    rw [List.getLast?_cons, hlater, Option.getD_some]
  fun_induction lines dialect text with
  | case1 => cases h
  | case2 b rest hend ih => exact hlast (ih ((List.mem_cons.mp h).resolve_left nofun))
  | case3 b rest hend hcomment hnone => rfl
  | case4 b rest hend hcomment b' later hsome ih =>
      exact hlast (ih ((List.mem_cons.mp h).resolve_left nofun))
  | case5 b rest hend hcomment ih => exact hlast (ih ((List.mem_cons.mp h).resolve_left nofun))

end Dialect

/-! ## The machine -/

section

variable {dialect : Dialect} {d next : Draft} {b : UInt8} {rest : List UInt8} {record : RawRecord}
  {mode : Mode}

/-- All records of a text with which a draft goes on. -/
def Draft.records (dialect : Dialect) (d : Draft) (text : List UInt8) : List RawRecord :=
  match feed dialect d text with
  | .partly last => last.finish.toList
  | .whole record next rest => record :: recordsFrom dialect next rest

/-- The records of a text are those with which an empty draft goes on. -/
theorem records_of_mode (dialect : Dialect) (mode : Mode) (text : List UInt8) :
    recordsFrom dialect mode text = Draft.records dialect ⟨mode, [], []⟩ text := by
  rw [recordsFrom.eq_def]
  unfold Draft.records
  split <;> simp_all only

/-- At the end of the text, a draft is the last record or none. -/
theorem records_at_end (dialect : Dialect) (d : Draft) :
    Draft.records dialect d [] = d.finish.toList := rfl

/-- A byte with which the record goes on. -/
theorem records_of_go (h : d.step dialect b = .go next) :
    Draft.records dialect d (b :: rest) = Draft.records dialect next rest := by
  rw [Draft.records, feed, h]
  rfl

/-- A byte with which the record is complete. -/
theorem records_of_done (h : d.step dialect b = .done record mode) :
    Draft.records dialect d (b :: rest) = record :: recordsFrom dialect mode rest := by
  rw [Draft.records, feed, h]

/-- Two drafts with the same next step have the same records. -/
theorem records_of_same {other : Draft} (h : d.step dialect b = other.step dialect b) :
    Draft.records dialect d (b :: rest) = Draft.records dialect other (b :: rest) := by
  rw [Draft.records, Draft.records, feed, feed, h]

/-! ## The ends of lines -/

/-- A line feed before a record is skipped. -/
theorem records_of_line_feed (rest : List UInt8) :
    recordsFrom dialect .recordStart (10 :: rest) = recordsFrom dialect .recordStart rest := by
  rw [records_of_mode, records_of_mode]
  exact records_of_go rfl

/-- The rest of a line's end is skipped before a record. -/
theorem records_after_line_end (b : UInt8) (rest : List UInt8) :
    recordsFrom dialect .recordStart (afterLineEnd b rest) =
      recordsFrom dialect .recordStart rest := by
  unfold afterLineEnd
  split
  next hend =>
    obtain ⟨more, rfl⟩ := List.head?_eq_some_iff.mp hend.2
    exact (records_of_line_feed more).symm
  next => rfl

/-- After a carriage return, a line feed makes no difference to the records. -/
theorem records_after_return (text : List UInt8) :
    recordsFrom dialect .afterReturn text = recordsFrom dialect .recordStart text := by
  rw [records_of_mode, records_of_mode]
  cases text with
  | nil => rfl
  | cons b rest =>
      by_cases hb : b = 10
      · subst hb
        exact records_of_same rfl
      · refine records_of_same ?_
        show (if b == 10 then _ else _) = _
        rw [if_neg (by simpa using hb)]
        rfl

/-! ## Fields and lines -/

/-- The records of a text in which a field ends here, with these fields before it. -/
def closing (dialect : Dialect) (fields : RawRecord) (content : List UInt8) :
    List UInt8 → List RawRecord
  | [] => [fields.reverse ++ [content]]
  | b :: rest =>
      if b = dialect.delimiter then Draft.records dialect ⟨.fieldStart, content :: fields, []⟩ rest
      else (fields.reverse ++ [content]) :: recordsFrom dialect .recordStart (afterLineEnd b rest)

variable {fields : RawRecord} {content : List UInt8}

/-- The last field of a record that is complete. -/
theorem record_of_draft (mode : Mode) (fields : RawRecord) (content : List UInt8) :
    (Draft.mk mode fields content).record = fields.reverse ++ [content.reverse] :=
  List.reverse_cons

/-- A byte that is not content ends a field without quotes. -/
theorem records_of_stop (hstop : dialect.isContent b = false) :
    Draft.records dialect ⟨.inField, fields, content⟩ (b :: rest) =
      closing dialect fields content.reverse (b :: rest) := by
  by_cases hdelimiter : b = dialect.delimiter
  · have hstep : Draft.step dialect ⟨.inField, fields, content⟩ b =
        .go ⟨.fieldStart, content.reverse :: fields, []⟩ := by
      simp [Draft.step, Draft.plainByte, hdelimiter, Draft.nextField]
    rw [records_of_go hstep, closing, if_pos hdelimiter]
  · have hend : isLineEnd b = true := by simpa [Dialect.isContent, hdelimiter] using hstop
    have hstep : Draft.step dialect ⟨.inField, fields, content⟩ b =
        .done (fields.reverse ++ [content.reverse])
          (if b == 13 then .afterReturn else .recordStart) := by
      simp [Draft.step, Draft.plainByte, hdelimiter, hend, Draft.record]
    rw [records_of_done hstep, closing, if_neg hdelimiter, records_after_line_end]
    split
    · rw [records_after_return]
    · rfl

/-- A byte that is content belongs to a field without quotes. -/
theorem step_of_content (hcontent : dialect.isContent b = true) :
    Draft.step dialect ⟨.inField, fields, content⟩ b = .go ⟨.inField, fields, b :: content⟩ := by
  obtain ⟨hdelimiter, hend⟩ : b ≠ dialect.delimiter ∧ isLineEnd b = false := by
    simpa [Dialect.isContent] using hcontent
  simp [Draft.step, Draft.plainByte, hdelimiter, hend, Draft.push]

/-- A field without quotes goes on to the next byte that is not content. -/
theorem records_in_field (text : List UInt8) :
    Draft.records dialect ⟨.inField, fields, content⟩ text =
      closing dialect fields (content.reverse ++ text.takeWhile dialect.isContent)
        (text.dropWhile dialect.isContent) := by
  induction text generalizing content with
  | nil =>
      rw [List.takeWhile_nil, List.dropWhile_nil, List.append_nil, closing]
      exact congrArg (fun record => [record]) (record_of_draft .inField fields content)
  | cons b rest ih =>
      rw [List.takeWhile_cons, List.dropWhile_cons]
      cases hcontent : dialect.isContent b with
      | false =>
          rw [records_of_stop hcontent]
          show _ = closing dialect fields (content.reverse ++ []) (b :: rest)
          rw [List.append_nil]
      | true =>
          rw [records_of_go (step_of_content hcontent), ih, List.reverse_cons, List.append_assoc]
          rfl

/-- A draft that takes its next byte as one of a field without quotes, and that the end of the text
completes, has the records of such a field. -/
theorem records_of_plain (hmode : mode ≠ .recordStart ∧ mode ≠ .afterReturn) {text : List UInt8}
    (hplain : ∀ b, text.head? = some b → Draft.step dialect ⟨mode, fields, content⟩ b =
      Draft.plainByte dialect ⟨mode, fields, content⟩ b) :
    Draft.records dialect ⟨mode, fields, content⟩ text =
      Draft.records dialect ⟨.inField, fields, content⟩ text := by
  cases text with
  | nil =>
      rw [records_at_end, records_at_end]
      cases mode with
      | recordStart => exact absurd rfl hmode.1
      | afterReturn => exact absurd rfl hmode.2
      | fieldStart | inField | inQuotes | afterQuote | inComment => rfl
  | cons b rest => exact records_of_same (hplain b rfl)

/-- A field between quotes ends at the closing quote, and what comes after it belongs to the field
as well. -/
theorem records_in_quotes (text : List UInt8) :
    Draft.records dialect ⟨.inQuotes, fields, content⟩ text =
      closing dialect fields
        (content.reverse ++ (unquote text).1 ++ (unquote text).2.takeWhile dialect.isContent)
        ((unquote text).2.dropWhile dialect.isContent) := by
  fun_induction unquote text generalizing content with
  | case1 =>
      rw [List.takeWhile_nil, List.dropWhile_nil, List.append_nil, List.append_nil, closing]
      exact congrArg (fun record => [record]) (record_of_draft .inQuotes fields content)
  | case2 rest ih =>
      -- The first quote may be the closing one, until the second shows that it is content.
      have hopen : Draft.step dialect ⟨.inQuotes, fields, content⟩ 34 =
          .go ⟨.afterQuote, fields, content⟩ := rfl
      have hdoubled : Draft.step dialect ⟨.afterQuote, fields, content⟩ 34 =
          .go ⟨.inQuotes, fields, 34 :: content⟩ := rfl
      rw [records_of_go hopen, records_of_go hdoubled, ih, List.reverse_cons,
        List.append_assoc content.reverse]
      rfl
  | case3 rest hsingle =>
      have hclose : Draft.step dialect ⟨.inQuotes, fields, content⟩ 34 =
          .go ⟨.afterQuote, fields, content⟩ := rfl
      have hplain : Draft.records dialect ⟨.afterQuote, fields, content⟩ rest =
          Draft.records dialect ⟨.inField, fields, content⟩ rest := by
        refine records_of_plain (by decide) fun b hb => ?_
        have hquote : (b == quote) = false := beq_false_of_ne fun hquote => by
          obtain ⟨more, rfl⟩ := List.head?_eq_some_iff.mp hb
          exact hsingle more (by rw [hquote]; rfl)
        simp only [Draft.step, hquote]
        rfl
      rw [records_of_go hclose, hplain, records_in_field, List.append_nil]
  | case4 b rest hquote hdoubled ih =>
      have hpush : Draft.step dialect ⟨.inQuotes, fields, content⟩ b =
          .go ⟨.inQuotes, fields, b :: content⟩ := by
        have hno : (b == quote) = false := beq_false_of_ne (by simpa [quote] using hdoubled)
        simp only [Draft.step, hno]
        rfl
      rw [records_of_go hpush, ih, List.reverse_cons, List.append_assoc content.reverse]
      rfl

/-- A field ends as `Dialect.field` says. -/
theorem records_of_field (text : List UInt8) :
    Draft.records dialect ⟨.fieldStart, fields, []⟩ text =
      closing dialect fields (dialect.field text).1 (dialect.field text).2 := by
  unfold Dialect.field
  split
  next hquote =>
    obtain ⟨rest, rfl⟩ := List.head?_eq_some_iff.mp hquote
    have hopen : Draft.step dialect ⟨.fieldStart, fields, []⟩ quote =
        .go ⟨.inQuotes, fields, []⟩ := rfl
    rw [records_of_go hopen, records_in_quotes]
    rfl
  next hquote =>
    rw [records_of_plain (by decide) fun b hb => ?_, records_in_field]
    · rfl
    · have hno : (b == quote) = false :=
        beq_false_of_ne fun hb' => hquote (hb.trans (congrArg some hb'))
      show Draft.openField dialect _ b = _
      rw [Draft.openField, hno]
      rfl

/-- A record has the fields of its line, and the other records are those of the text after it. -/
theorem records_of_fields (text : List UInt8) :
    Draft.records dialect ⟨.fieldStart, fields, []⟩ text =
      (fields.reverse ++ (dialect.fields text).1) ::
        recordsFrom dialect .recordStart (dialect.fields text).2 := by
  fun_induction Dialect.fields dialect text generalizing fields with
  | case1 text content hfield =>
      rw [records_of_field, hfield]
      simp only [closing, records_of_mode, records_at_end]
      rfl
  | case2 text content rest hfield ih =>
      rw [records_of_field, hfield]
      simp only [closing, if_true]
      rw [ih, List.reverse_cons, List.append_assoc]
      rfl
  | case3 text content b rest hfield hother =>
      rw [records_of_field, hfield]
      simp only [closing, if_neg hother]

/-- A comment goes on to the next line feed. The end of the text makes a record of it. -/
theorem records_in_comment (text : List UInt8) :
    Draft.records dialect ⟨.inComment, [], []⟩ text =
      match text.dropWhile (· != 10) with
      | [] => [[[]]]
      | _ :: later => recordsFrom dialect .recordStart later := by
  induction text with
  | nil => rfl
  | cons b rest ih =>
      by_cases hb : b = 10
      · subst hb
        have hstep : Draft.step dialect ⟨.inComment, [], []⟩ 10 = .go ⟨.recordStart, [], []⟩ := rfl
        rw [records_of_go hstep, ← records_of_mode]
        rfl
      · have hno : (b != 10) = true := bne_iff_ne.mpr hb
        have hstep : Draft.step dialect ⟨.inComment, [], []⟩ b = .go ⟨.inComment, [], []⟩ := by
          show Step.go (Draft.goto _ (if b == 10 then _ else _)) = _
          rw [if_neg (by simpa using hb)]
          rfl
        rw [records_of_go hstep, ih, List.dropWhile_cons, if_pos hno]

/-- The records of a text that begins with a comment are those after it. -/
theorem records_of_comment (hend : isLineEnd b = false) (hcomment : some b = dialect.comment) :
    recordsFrom dialect .recordStart (b :: rest) =
      match rest.dropWhile (· != 10) with
      | [] => [[[]]]
      | _ :: later => recordsFrom dialect .recordStart later := by
  have hstep : Draft.step dialect ⟨.recordStart, [], []⟩ b = .go ⟨.inComment, [], []⟩ := by
    simp [Draft.step, Draft.openRecord, hend, hcomment, Draft.goto]
  rw [records_of_mode, records_of_go hstep, records_in_comment]

/-- The records of a text are those that are found in its lines, in their order. -/
theorem records_of_lines (dialect : Dialect) (text : List UInt8) :
    recordsFrom dialect .recordStart text = (dialect.lines text).filterMap Line.found? := by
  fun_induction Dialect.lines dialect text with
  | case1 =>
      rw [records_of_mode]
      rfl
  | case2 b rest hend ih =>
      have hstep : Draft.step dialect ⟨.recordStart, [], []⟩ b = .go ⟨.recordStart, [], []⟩ := by
        show Draft.openRecord dialect _ b = _
        rw [Draft.openRecord, if_pos hend]
        rfl
      rw [records_of_mode, records_of_go hstep, ← records_of_mode, ← records_after_line_end b, ih]
      rfl
  | case3 b rest hend hcomment hnone =>
      rw [records_of_comment (by simpa using hend) hcomment, hnone]
      rfl
  | case4 b rest hend hcomment b' later hsome ih =>
      rw [records_of_comment (by simpa using hend) hcomment, hsome]
      exact ih
  | case5 b rest hend hcomment ih =>
      have hsame : Draft.step dialect ⟨.recordStart, [], []⟩ b =
          Draft.step dialect ⟨.fieldStart, [], []⟩ b := by
        show Draft.openRecord dialect _ b = Draft.openField dialect _ b
        rw [Draft.openRecord, if_neg hend, if_neg (by simpa using hcomment)]
        rfl
      rw [records_of_mode, records_of_same hsame, records_of_fields, ih]
      rfl

end

end BulkLoad.Csv
