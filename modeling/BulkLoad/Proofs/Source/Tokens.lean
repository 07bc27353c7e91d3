import BulkLoad.Source.Statement
import Mathlib.Data.List.Basic

/-!
# The tokens of a statement

A statement is a text, and what it says is decided by its tokens: words and operators, quoted parts,
parentheses and the keywords that shape a condition. `tokens?` reads a text character by character.
The main result is `tokens_blank`: where a blank stands outside quotes, the tokens of a text are
those before the blank and those after it, so that a statement that is put together from parts with
blanks between them has the tokens of its parts.
-/

namespace BulkLoad.Sql

/-- The words that shape a condition or bound it. -/
inductive Keyword
  | and
  | or
  | between
  | case
  | finish
  | condition
  | order
deriving DecidableEq

/-- The marks that quote a part of a statement. -/
inductive Mark
  | single
  | double
  | back
deriving DecidableEq

/-- The character that opens and closes a quoted part. -/
def Mark.char : Mark → Char
  | .single => '\''
  | .double => '"'
  | .back => '\x60'

/-- A part of a statement. A quoted part keeps its mark and the content that it stands for. -/
inductive Token
  | word (text : List Char)
  | operator (text : List Char)
  | keyword (keyword : Keyword)
  | quoted (mark : Mark) (content : List Char)
  | opening
  | closing
deriving DecidableEq

/-- What a character can begin or continue. -/
inductive Class
  | blank
  | mark (mark : Mark)
  | opening
  | closing
  | operator
  | letter
deriving DecidableEq

/-- The class of a character. Dots and digits belong to words, and so does whatever is not ASCII. -/
def classOf (c : Char) : Class :=
  if c ∈ [' ', '\t', '\r', '\n'] then .blank
  else if c = Mark.single.char then .mark .single
  else if c = Mark.double.char then .mark .double
  else if c = Mark.back.char then .mark .back
  else if c = '(' then .opening
  else if c = ')' then .closing
  else if c ∈ "<>=!|&^~+-*/%:?,;".toList then .operator
  else .letter

/-- A digit belongs to words. -/
theorem class_of_digit {c : Char} (hc : c.isDigit = true) : classOf c = .letter := by
  have hnone : ∀ {others : List Char}, others.any Char.isDigit = false → c ∉ others :=
    fun hothers hmem => List.any_eq_false.mp hothers c hmem hc
  have hother : ∀ {d : Char}, d.isDigit = false → c ≠ d := fun hd hsame =>
    Bool.false_ne_true (hd.symm.trans (hsame ▸ hc))
  rw [classOf, if_neg (hnone (by decide)), if_neg (hother (by decide)),
    if_neg (hother (by decide)), if_neg (hother (by decide)), if_neg (hother (by decide)),
    if_neg (hother (by decide)), if_neg (hnone (by decide))]

/-- The keywords in capitals. -/
def keywords : List (List Char × Keyword) :=
  [("AND".toList, .and), ("OR".toList, .or), ("BETWEEN".toList, .between), ("CASE".toList, .case),
    ("END".toList, .finish), ("WHERE".toList, .condition), ("ORDER".toList, .order)]

/-- The token of a run of letters: a keyword in whatever case it is written, or another word. -/
def Token.ofWord (text : List Char) : Token :=
  match keywords.lookup (text.map Char.toUpper) with
  | some found => .keyword found
  | none => .word text

/-- What has been begun: nothing, a word, an operator, a quoted part, or a quoted part whose closing
mark may turn out to be the first half of a doubled one. -/
inductive Pending
  | nothing
  | word (text : List Char)
  | operator (text : List Char)
  | open (mark : Mark) (content : List Char)
  | shut (mark : Mark) (content : List Char)
deriving DecidableEq

/-- The tokens that a pending part makes, unless it lacks its closing mark. -/
def Pending.tokens? : Pending → Option (List Token)
  | .nothing => some []
  | .word text => some [.ofWord text]
  | .operator text => some [.operator text]
  | .open _ _ => none
  | .shut mark content => some [.quoted mark content]

/-- What a text has been read into. -/
structure Scan where
  tokens : List Token := []
  pending : Pending := .nothing
deriving DecidableEq

namespace Scan

/-- The tokens of a text that ends here. -/
def finish? (s : Scan) : Option (List Token) := s.pending.tokens?.map (s.tokens ++ ·)

/-- Begin with a character after these tokens. -/
def start (tokens : List Token) (c : Char) : Scan :=
  match classOf c with
  | .blank => ⟨tokens, .nothing⟩
  | .mark mark => ⟨tokens, .open mark []⟩
  | .opening => ⟨tokens ++ [.opening], .nothing⟩
  | .closing => ⟨tokens ++ [.closing], .nothing⟩
  | .operator => ⟨tokens, .operator [c]⟩
  | .letter => ⟨tokens, .word [c]⟩

/-- Read one character. -/
def take (s : Scan) (c : Char) : Scan :=
  match s.pending with
  | .nothing => start s.tokens c
  | .word text =>
      if classOf c = .letter then ⟨s.tokens, .word (text ++ [c])⟩
      else start (s.tokens ++ [.ofWord text]) c
  | .operator text =>
      if classOf c = .operator then ⟨s.tokens, .operator (text ++ [c])⟩
      else start (s.tokens ++ [.operator text]) c
  | .open mark content =>
      if c = mark.char then ⟨s.tokens, .shut mark content⟩
      else ⟨s.tokens, .open mark (content ++ [c])⟩
  | .shut mark content =>
      if c = mark.char then ⟨s.tokens, .open mark (content ++ [c])⟩
      else start (s.tokens ++ [.quoted mark content]) c

/-- Read a text. -/
def read (s : Scan) (text : List Char) : Scan := text.foldl take s

/-- The same with further tokens in front. -/
def after (tokens : List Token) (s : Scan) : Scan := { s with tokens := tokens ++ s.tokens }

end Scan

/-- The tokens of a text, unless it ends within quotes. -/
def tokens? (text : String) : Option (List Token) := (Scan.read {} text.toList).finish?

namespace Scan

@[simp]
theorem read_nil (s : Scan) : s.read [] = s := rfl

@[simp]
theorem read_cons (s : Scan) (c : Char) (text : List Char) :
    s.read (c :: text) = (s.take c).read text := rfl

theorem read_append (s : Scan) (a b : List Char) : s.read (a ++ b) = (s.read a).read b :=
  List.foldl_append

/-- Beginning does not depend on the tokens in front. -/
theorem start_after (front tokens : List Token) (c : Char) :
    start (front ++ tokens) c = (start tokens c).after front := by
  simp only [start]
  split <;> simp only [after, List.append_assoc]

/-- Reading does not depend on the tokens in front. -/
theorem take_after (front : List Token) (s : Scan) (c : Char) :
    (s.after front).take c = (s.take c).after front := by
  cases s with
  | mk tokens pending =>
      cases pending with
      | nothing => exact start_after front tokens c
      | word | operator | shut =>
          simp only [take, after]
          split
          · rfl
          · rw [List.append_assoc]
            exact start_after front _ c
      | «open» =>
          simp only [take, after]
          split <;> rfl

theorem read_after (front : List Token) (s : Scan) (text : List Char) :
    (s.after front).read text = (s.read text).after front := by
  induction text generalizing s with
  | nil => rfl
  | cons c text ih => rw [read_cons, take_after, ih, read_cons]

theorem finish_after (front : List Token) (s : Scan) :
    (s.after front).finish? = s.finish?.map (front ++ ·) := by
  simp only [finish?, after, Option.map_map]
  congr 1
  funext tokens
  exact List.append_assoc front s.tokens tokens

/-- What follows complete tokens is read as a text of its own. -/
theorem read_of_nothing (tokens : List Token) (text : List Char) :
    read ⟨tokens, .nothing⟩ text = (read {} text).after tokens := by
  have hafter : (⟨tokens, .nothing⟩ : Scan) = after tokens {} := by
    simp only [after, List.append_nil]
  rw [hafter, read_after]

/-- Outside quotes a blank completes what has been begun. -/
theorem take_blank {s : Scan} {tokens : List Token} (hs : s.finish? = some tokens) :
    s.take ' ' = ⟨tokens, .nothing⟩ := by
  cases s with
  | mk front pending =>
      cases pending with
      | nothing =>
          simp only [finish?, Pending.tokens?, Option.map_some, List.append_nil,
            Option.some.injEq] at hs
          subst hs
          rfl
      | word text | operator text =>
          cases hs
          rfl
      | shut mark content =>
          cases hs
          cases mark <;> rfl
      | «open» => cases hs

/-- Within quotes every character but the mark belongs to the content. -/
theorem read_open (tokens : List Token) (mark : Mark) (content : List Char) {text : List Char}
    (htext : mark.char ∉ text) :
    read ⟨tokens, .open mark content⟩ text = ⟨tokens, .open mark (content ++ text)⟩ := by
  induction text generalizing content with
  | nil => rw [read_nil, List.append_nil]
  | cons c text ih =>
      obtain ⟨hc, htext⟩ := not_or.mp (mt List.mem_cons.mpr htext)
      have htake : take ⟨tokens, .open mark content⟩ c = ⟨tokens, .open mark (content ++ [c])⟩ :=
        if_neg (Ne.symm hc)
      rw [read_cons, htake, ih _ htext, List.append_assoc]
      rfl

/-- Within quotes doubled quotes stand for single ones. -/
theorem read_escaped (tokens : List Token) (content text : List Char) :
    read ⟨tokens, .open .single content⟩
        (text.flatMap fun c => if c == '\'' then ['\'', '\''] else [c]) =
      ⟨tokens, .open .single (content ++ text)⟩ := by
  induction text generalizing content with
  | nil => rw [List.flatMap_nil, read_nil, List.append_nil]
  | cons c text ih =>
      rw [List.flatMap_cons, read_append]
      have htake : read ⟨tokens, .open .single content⟩
          (if c == '\'' then ['\'', '\''] else [c]) = ⟨tokens, .open .single (content ++ [c])⟩ := by
        by_cases hc : c = '\''
        · subst hc
          rfl
        · have hmark : Mark.single.char ∉ [c] := fun hmem => hc (List.mem_singleton.mp hmem).symm
          rw [if_neg (by simpa using hc), read_open _ _ _ hmark]
      rw [htake, ih, List.append_assoc]
      rfl

/-- A run of letters is one word. -/
theorem read_word (tokens : List Token) (begun : List Char) {text : List Char}
    (htext : ∀ c ∈ text, classOf c = .letter) :
    read ⟨tokens, .word begun⟩ text = ⟨tokens, .word (begun ++ text)⟩ := by
  induction text generalizing begun with
  | nil => rw [read_nil, List.append_nil]
  | cons c text ih =>
      have htake : take ⟨tokens, .word begun⟩ c = ⟨tokens, .word (begun ++ [c])⟩ :=
        if_pos (htext c List.mem_cons_self)
      rw [read_cons, htake, ih _ fun d hd => htext d (List.mem_cons_of_mem c hd),
        List.append_assoc]
      rfl

end Scan

/-! ## Texts that are put together -/

/-- A blank outside quotes separates the tokens before it from those after it. -/
theorem tokens_blank {a b : String} {front rest : List Token} (ha : tokens? a = some front)
    (hb : tokens? b = some rest) : tokens? (a ++ " " ++ b) = some (front ++ rest) := by
  have htext : (a ++ " " ++ b).toList = a.toList ++ ' ' :: b.toList := by
    rw [String.toList_append, String.toList_append, List.append_assoc]
    rfl
  rw [tokens?, htext, Scan.read_append, Scan.read_cons, Scan.take_blank ha, Scan.read_of_nothing,
    Scan.finish_after]
  exact congrArg (Option.map (front ++ ·)) hb

/-- A literal with its quotes doubled is one token, whatever its content. -/
theorem tokens_literal (s : String) :
    tokens? ("'" ++ SqlTable.escapeQuotes s ++ "'") = some [.quoted .single s.toList] := by
  have htext : ("'" ++ SqlTable.escapeQuotes s ++ "'").toList =
      '\'' :: ((s.toList.flatMap fun c => if c == '\'' then ['\'', '\''] else [c]) ++ ['\'']) := by
    have hescape : (SqlTable.escapeQuotes s).toList =
        s.toList.flatMap fun c => if c == '\'' then ['\'', '\''] else [c] := String.toList_ofList
    rw [String.toList_append, String.toList_append, hescape]
    rfl
  have hstart : Scan.take {} '\'' = ⟨[], .open .single []⟩ := rfl
  rw [tokens?, htext, Scan.read_cons, hstart, Scan.read_append, Scan.read_escaped]
  rfl

/-- Names between backquotes that are separated by commas. -/
def listed : List (List Char) → List Token
  | [] => [.quoted .back []]
  | [name] => [.quoted .back name]
  | name :: names => .quoted .back name :: .operator [','] :: listed names

/-- After a backquote, names without backquotes are read up to the last one's closing mark. -/
theorem read_names (tokens : List Token) {names : List (List Char)}
    (hnames : ∀ name ∈ names, '\x60' ∉ name) :
    (Scan.read ⟨tokens, .open .back []⟩
      ((("\x60,\x60").toList.intercalate names) ++ ['\x60'])).finish? =
        some (tokens ++ listed names) := by
  induction names generalizing tokens with
  | nil => rfl
  | cons name names ih =>
      have hname : Mark.back.char ∉ name := hnames name List.mem_cons_self
      cases names with
      | nil =>
          rw [List.intercalate_singleton, Scan.read_append, Scan.read_open _ _ _ hname]
          rfl
      | cons second names =>
          have hshut : Scan.read ⟨tokens, .open .back name⟩ ("\x60,\x60").toList =
              ⟨tokens ++ [.quoted .back name] ++ [.operator [',']], .open .back []⟩ := rfl
          rw [List.intercalate_cons_cons, List.append_assoc, List.append_assoc, Scan.read_append,
            Scan.read_open _ _ _ hname, List.nil_append, Scan.read_append, hshut,
            ih _ fun other hother => hnames other (List.mem_cons_of_mem name hother)]
          simp only [listed, List.append_assoc, List.cons_append, List.nil_append]

/-- The columns of a table are a list of names. -/
theorem tokens_columns {t : SqlTable} (hfields : ∀ field ∈ t.fields, '\x60' ∉ field.toList) :
    tokens? t.columns = some (listed (t.fields.map String.toList)) := by
  have htext : t.columns.toList =
      '\x60' :: ((("\x60,\x60").toList.intercalate (t.fields.map String.toList)) ++ ['\x60']) := by
    rw [SqlTable.columns, String.toList_append, String.toList_append, String.toList_intercalate]
    rfl
  have hstart : Scan.take {} '\x60' = ⟨[], .open .back []⟩ := rfl
  rw [tokens?, htext, Scan.read_cons, hstart]
  refine read_names [] fun name hname => ?_
  obtain ⟨field, hfield, rfl⟩ := List.mem_map.mp hname
  exact hfields field hfield

/-- A name between backquotes is one token. -/
theorem tokens_name {name : String} (hname : '\x60' ∉ name.toList) :
    tokens? ("\x60" ++ name ++ "\x60") = some [.quoted .back name.toList] := by
  have htext : ("\x60" ++ name ++ "\x60").toList = '\x60' :: (name.toList ++ ['\x60']) := by
    rw [String.toList_append, String.toList_append]
    rfl
  have hstart : Scan.take {} '\x60' = ⟨[], .open .back []⟩ := rfl
  have hopen : Mark.back.char ∉ name.toList := hname
  rw [tokens?, htext, Scan.read_cons, hstart, Scan.read_append, Scan.read_open _ _ _ hopen]
  rfl

/-- A number is one word. -/
theorem tokens_number (n : Nat) :
    tokens? (toString n) = some [.ofWord (Nat.toDigits 10 n)] := by
  have hletter : ∀ c ∈ Nat.toDigits 10 n, classOf c = .letter := fun c hc =>
    class_of_digit (Nat.isDigit_of_mem_toDigits (by decide) (by decide) hc)
  rw [tokens?, Nat.toString_eq_ofList_toDigits, String.toList_ofList]
  cases hdigits : Nat.toDigits 10 n with
  | nil => exact absurd hdigits Nat.toDigits_ne_nil
  | cons c digits =>
      rw [hdigits] at hletter
      have htake : Scan.take {} c = ⟨[], .word [c]⟩ := by
        have hc := hletter c List.mem_cons_self
        simp only [Scan.take, Scan.start, hc]
      rw [Scan.read_cons, htake,
        Scan.read_word _ _ fun d hd => hletter d (List.mem_cons_of_mem c hd)]
      rfl

end BulkLoad.Sql
