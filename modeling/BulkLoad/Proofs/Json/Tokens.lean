import BulkLoad.Json.Numeral
import BulkLoad.Json.Printer
import BulkLoad.Json.Reader
import Mathlib.Data.List.Forall2
import Mathlib.Tactic.SplitIfs

/-!
# Reading strings and numbers

The same string can be spelled with escapes or without, and the same exponent with `e` or `E`.
`Literal.Spelled` and `Numeral.Spelled` say which texts spell a literal. Each of them is read as the
literal (`literal_of_spelled`), a number as long as what comes behind it does not go on with it
(`number_of_spelled`). What is written for a `Complete` literal, which does not break off and has
parts that can be written, spells it. A natural number of 64 bits is the value of its digits
(`value_of_nat`).
-/

namespace BulkLoad.Json

/-! ## String literals -/

/-- A piece that can be written: any character, and a surrogate half that is one. -/
def Piece.Complete : Piece → Prop
  | .char _ => True
  | .surrogate half => 0xD800 ≤ half ∧ half < 0xE000

/-- The texts that stand for a piece inside a string literal: a character that is neither a quote nor
a backslash nor a control may stand for itself, some characters have an escape of one letter, and
four hexadecimal digits stand for any piece. -/
inductive Piece.Spelled : Piece → List Char → Prop
  | plain {c : Char} (hquote : c ≠ '"') (hescape : c ≠ '\\') (hcontrol : 0x20 ≤ c.toNat) :
      Spelled (.char c) [c]
  | escape {letter c : Char} (h : escaped? letter = some c) : Spelled (.char c) ['\\', letter]
  | digits {a b c d : Char} {piece : Piece} (h : piece? a b c d = some piece) :
      Spelled piece ['\\', 'u', a, b, c, d]

/-- The texts of a string literal that is closed: its pieces between quotes. -/
def Literal.Spelled (l : Literal) (text : List Char) : Prop :=
  l.stop = none ∧
    ∃ texts, List.Forall₂ Piece.Spelled l.pieces texts ∧ text = '"' :: (texts.flatten ++ ['"'])

/-- A string literal that is closed and has only pieces that can be written. -/
structure Literal.Complete (l : Literal) : Prop where
  closed : l.stop = none
  pieces : ∀ piece ∈ l.pieces, piece.Complete

/-- The literal of a text is complete. -/
theorem Literal.complete_of_string (s : String) : (Literal.ofString s).Complete where
  closed := rfl
  pieces := by
    intro piece hpiece
    obtain ⟨c, -, rfl⟩ := List.mem_map.mp hpiece
    trivial

/-- The text of its literal is the text. -/
theorem Literal.text_of_string (s : String) : (Literal.ofString s).text = .ok s := by
  have hchars (cs : List Char) : Literal.chars none (cs.map Piece.char) = .ok cs := by
    induction cs with
    | nil => rfl
    | cons c cs ih =>
        show (Literal.chars none (cs.map Piece.char)).map (c :: ·) = _
        rw [ih]
        rfl
  show (Literal.chars none (s.toList.map Piece.char)).map String.ofList = _
  rw [hchars]
  exact congrArg Except.ok String.ofList_toList

/-- A hexadecimal digit stands for its value. -/
theorem hex_digit_of_lt {d : Nat} (h : d < 16) : hexDigit? (Nat.digitChar d) = some d := by
  revert d
  decide

/-- Four hexadecimal digits stand for a character or for a surrogate half. -/
theorem piece_of_hex {n : Nat} (h : n < 65536) :
    piece? (Nat.digitChar (n / 4096 % 16)) (Nat.digitChar (n / 256 % 16))
        (Nat.digitChar (n / 16 % 16)) (Nat.digitChar (n % 16)) =
      some (if 0xD800 ≤ n ∧ n < 0xE000 then .surrogate n else .char (Char.ofNat n)) := by
  have hdigit (k : Nat) : hexDigit? (Nat.digitChar (k % 16)) = some (k % 16) :=
    hex_digit_of_lt (Nat.mod_lt _ (by decide))
  have hnumber : ((n / 4096 % 16 * 16 + n / 256 % 16) * 16 + n / 16 % 16) * 16 + n % 16 = n := by
    omega
  simp only [piece?, hdigit, Option.bind_eq_bind, Option.bind_some, hnumber, Bool.and_eq_true,
    decide_eq_true_eq]
  rfl

/-- A character that is neither a quote nor a backslash nor a control stands for itself. -/
theorem literal_plain {c : Char} (hquote : c ≠ '"') (hescape : c ≠ '\\') (hcontrol : 0x20 ≤ c.toNat)
    (text : List Char) : literal (c :: text) = Literal.push (.char c) (literal text) := by
  rw [literal.eq_def]
  split
  next h => cases h
  next h => exact absurd (List.cons.inj h).1 hquote
  next h => exact absurd (List.cons.inj h).1 hescape
  next h => exact absurd (List.cons.inj h).1 hescape
  next h => exact absurd (List.cons.inj h).1 hescape
  next h => exact absurd (List.cons.inj h).1 hescape
  next h =>
    obtain ⟨rfl, rfl⟩ := List.cons.inj h
    rw [if_neg (Nat.not_lt.mpr hcontrol)]

/-- An escape of one letter stands for its character. -/
theorem literal_escape {letter c : Char} (h : escaped? letter = some c) (text : List Char) :
    literal ('\\' :: letter :: text) = Literal.push (.char c) (literal text) := by
  have hletter : letter ≠ 'u' := by
    rintro rfl
    cases h
  rw [literal.eq_def]
  split
  next h => cases h
  next h => cases (List.cons.inj h).1
  next heq => exact absurd (List.cons.inj (List.cons.inj heq).2).1 hletter
  next heq => exact absurd (List.cons.inj (List.cons.inj heq).2).1 hletter
  next heq =>
    obtain ⟨rfl, rfl⟩ := List.cons.inj (List.cons.inj heq).2
    simp only [h]
  next heq => cases heq
  next hno _ heq =>
    obtain ⟨rfl, rfl⟩ := List.cons.inj heq
    exact (hno _ _ rfl rfl).elim

/-- A text that stands for a piece is read as the piece. -/
theorem literal_of_piece {piece : Piece} {text : List Char} (h : piece.Spelled text)
    (rest : List Char) : literal (text ++ rest) = Literal.push piece (literal rest) := by
  cases h with
  | plain hquote hescape hcontrol => exact literal_plain hquote hescape hcontrol rest
  | escape h => exact literal_escape h rest
  | @digits a b c d _ h =>
      show literal ('\\' :: 'u' :: a :: b :: c :: d :: rest) = _
      rw [literal, h]

/-- A text of a string literal is read as the literal from behind its opening quote. -/
theorem literal_of_spelled {l : Literal} {text : List Char} (h : l.Spelled text) :
    ∃ body, text = '"' :: body ∧ ∀ rest, literal (body ++ rest) = (l, rest) := by
  obtain ⟨pieces, stop⟩ := l
  obtain ⟨hstop, texts, hpieces, rfl⟩ := h
  obtain rfl : stop = none := hstop
  replace hpieces : List.Forall₂ Piece.Spelled pieces texts := hpieces
  refine ⟨_, rfl, fun rest => ?_⟩
  rw [List.append_assoc]
  show literal (texts.flatten ++ '"' :: rest) = _
  induction hpieces with
  | nil => rfl
  | cons hpiece _ ih =>
      rw [List.flatten_cons, List.append_assoc, literal_of_piece hpiece, ih]
      rfl

/-- What is written for a character stands for it. -/
theorem Piece.spelled_char (c : Char) : (Piece.char c).Spelled (renderChar c) := by
  unfold renderChar
  split_ifs with hquote hescape hbackspace hformFeed hlineFeed hreturn htab hcontrol
  · rw [eq_of_beq hquote]
    exact .escape rfl
  · rw [eq_of_beq hescape]
    exact .escape rfl
  · rw [eq_of_beq hbackspace]
    exact .escape rfl
  · rw [eq_of_beq hformFeed]
    exact .escape rfl
  · rw [eq_of_beq hlineFeed]
    exact .escape rfl
  · rw [eq_of_beq hreturn]
    exact .escape rfl
  · rw [eq_of_beq htab]
    exact .escape rfl
  · have hpiece := piece_of_hex (n := c.toNat) (by omega)
    rw [if_neg (by omega), Char.ofNat_toNat] at hpiece
    exact .digits hpiece
  · exact .plain (fun h => hquote (beq_iff_eq.mpr h)) (fun h => hescape (beq_iff_eq.mpr h))
      (Nat.not_lt.mp hcontrol)

/-- What is written for a piece stands for it. -/
theorem Piece.Complete.spelled {piece : Piece} (h : piece.Complete) :
    piece.Spelled (renderPiece piece) := by
  cases piece with
  | char c => exact Piece.spelled_char c
  | surrogate half =>
      have hpiece := piece_of_hex (n := half) (Nat.lt_trans h.2 (by decide))
      rw [if_pos (show 0xD800 ≤ half ∧ half < 0xE000 from h)] at hpiece
      exact .digits hpiece

/-- What is written for a complete string literal spells it. -/
theorem Literal.Complete.spelled {l : Literal} (h : l.Complete) : l.Spelled (renderLiteral l) := by
  refine ⟨h.closed, l.pieces.map renderPiece, ?_, ?_⟩
  · rw [List.forall₂_map_right_iff, List.forall₂_same]
    exact fun piece hpiece => (h.pieces piece hpiece).spelled
  · rw [renderLiteral, List.flatMap_def]

/-! ## Numbers -/

/-- Digits, at least one. -/
def AreDigits (digits : List Char) : Prop := digits ≠ [] ∧ ∀ c ∈ digits, c.isDigit = true

/-- A number literal that can be written: digits in all its parts, and no zero before others. -/
structure Numeral.Complete (n : Numeral) : Prop where
  whole : AreDigits n.whole
  leading : n.whole.head? = some '0' → n.whole.length = 1
  fraction : ∀ digits ∈ n.fraction, AreDigits digits
  exponent : ∀ part ∈ n.exponent, AreDigits part.2

/-- A text in which no number goes on that stands before it. -/
def EndsNumber (text : List Char) : Prop :=
  ∀ c ∈ text.head?, c.isDigit = false ∧ c ≠ '.' ∧ c ≠ 'e' ∧ c ≠ 'E'

/-- Digits are taken up to the first character that is none. -/
theorem digits_append {ds rest : List Char} (hdigits : ∀ c ∈ ds, c.isDigit = true)
    (hrest : ∀ c ∈ rest.head?, c.isDigit = false) : digits (ds ++ rest) = (ds, rest) := by
  have htaken : rest.takeWhile Char.isDigit = [] ∧ rest.dropWhile Char.isDigit = rest := by
    cases rest with
    | nil => exact ⟨rfl, rfl⟩
    | cons c rest =>
        have hc : c.isDigit = false := hrest c rfl
        rw [List.takeWhile_cons, List.dropWhile_cons, hc]
        exact ⟨rfl, rfl⟩
  rw [digits, List.takeWhile_append_of_pos hdigits, List.dropWhile_append_of_pos hdigits, htaken.1,
    htaken.2, List.append_nil]

/-- What is written for a fraction. -/
def fractionText : Option (List Char) → List Char
  | none => []
  | some digits => '.' :: digits

/-- The texts of an exponent: a mark, a sign that may be left out if it is positive, and digits. -/
inductive ExponentSpelled : Option (Bool × List Char) → List Char → Prop
  | none : ExponentSpelled none []
  | plain {mark : Char} (hmark : mark = 'e' ∨ mark = 'E') (digits : List Char) :
      ExponentSpelled (some (false, digits)) (mark :: digits)
  | signed {mark : Char} (hmark : mark = 'e' ∨ mark = 'E') (negative : Bool)
      (digits : List Char) :
      ExponentSpelled (some (negative, digits)) (mark :: (if negative then '-' else '+') :: digits)

/-- The texts of a number literal that is complete: its parts in order. -/
def Numeral.Spelled (n : Numeral) (text : List Char) : Prop :=
  n.Complete ∧ ∃ exponent, ExponentSpelled n.exponent exponent ∧
    text = (if n.negative then ['-'] else []) ++ (n.whole ++ (fractionText n.fraction ++ exponent))

/-- What is written for a complete number literal spells it. -/
theorem Numeral.Complete.spelled {n : Numeral} (h : n.Complete) : n.Spelled (renderNumeral n) := by
  obtain ⟨negative, whole, fraction, part⟩ := n
  cases part with
  | none =>
      refine ⟨h, [], .none, ?_⟩
      cases fraction <;> simp only [renderNumeral, fractionText, List.append_assoc]
  | some part =>
      refine ⟨h, _, .signed (.inl rfl) part.1 part.2, ?_⟩
      cases fraction <;> simp only [renderNumeral, fractionText, List.append_assoc]

section

variable {build : Option (Bool × List Char) → Numeral} {part : Option (Bool × List Char)}
  {text rest : List Char}

/-- Behind the digits before an exponent no digit and no point comes. -/
theorem head_of_exponent (h : ExponentSpelled part text) (hrest : EndsNumber rest) :
    ∀ c ∈ (text ++ rest).head?, c.isDigit = false ∧ c ≠ '.' := by
  cases h with
  | none =>
      intro c hc
      exact ⟨(hrest c hc).1, (hrest c hc).2.1⟩
  | plain hmark | signed hmark =>
      intro c hc
      obtain rfl := Option.some.inj hc
      rcases hmark with rfl | rfl <;> decide

/-- Where no exponent follows, none is read. -/
theorem exponent_of_none (hrest : EndsNumber rest) :
    exponent build rest = (number (build none), some rest) := by
  unfold exponent
  cases rest with
  | nil => rfl
  | cons c rest =>
      obtain ⟨-, -, hlower, hupper⟩ := hrest c rfl
      have hno : (c == 'e' || c == 'E') = false := by
        rw [beq_false_of_ne hlower, beq_false_of_ne hupper]
        rfl
      show (if (c == 'e' || c == 'E') = true then _ else _) = _
      rw [hno, if_neg Bool.false_ne_true]

/-- A text of an exponent, or none, is read as the exponent. -/
theorem exponent_of_spelled (h : ExponentSpelled part text) (hpart : ∀ p ∈ part, AreDigits p.2)
    (hrest : EndsNumber rest) :
    exponent build (text ++ rest) = (number (build part), some rest) := by
  have hmarked {mark : Char} (hmark : mark = 'e' ∨ mark = 'E') :
      (mark == 'e' || mark == 'E') = true := by
    rw [Bool.or_eq_true, beq_iff_eq, beq_iff_eq]
    exact hmark
  have htaken {ds : List Char} (hdigits : AreDigits ds) : digits (ds ++ rest) = (ds, rest) :=
    digits_append hdigits.2 fun c hc => (hrest c hc).1
  cases h with
  | none => exact exponent_of_none hrest
  | plain hmark ds =>
      obtain ⟨hne, hdigits⟩ := hpart (false, ds) rfl
      have hds := htaken ⟨hne, hdigits⟩
      obtain ⟨c, ds, rfl⟩ := List.exists_cons_of_ne_nil hne
      rw [List.cons_append] at hds
      -- The first character behind the mark is a digit and no sign.
      have hfirst : c.isDigit = true := hdigits c List.mem_cons_self
      have hplus : c ≠ '+' := by
        rintro rfl
        cases hfirst
      have hminus : c ≠ '-' := by
        rintro rfl
        cases hfirst
      simp [exponent, hmarked hmark, hplus, hminus, hds]
  | signed hmark negative ds =>
      obtain ⟨hne, hdigits⟩ := hpart (negative, ds) rfl
      have hds := htaken ⟨hne, hdigits⟩
      obtain ⟨c, ds, rfl⟩ := List.exists_cons_of_ne_nil hne
      rw [List.cons_append] at hds
      cases negative with
      | true =>
          show exponent build (_ :: '-' :: (c :: (ds ++ rest))) = _
          simp only [exponent, hmarked hmark, if_true, hds]
      | false =>
          show exponent build (_ :: '+' :: (c :: (ds ++ rest))) = _
          simp only [exponent, hmarked hmark, if_true, hds]

/-- A number is read from behind its sign. -/
theorem numeral_of_parts {n : Numeral} (h : n.Complete) (hpart : ExponentSpelled n.exponent text)
    (hrest : EndsNumber rest) :
    numeral n.negative (n.whole ++ (fractionText n.fraction ++ (text ++ rest))) =
      (number n, some rest) := by
  obtain ⟨negative, whole, fraction, part⟩ := n
  obtain ⟨⟨hne, hwhole⟩, hleading, hfraction, hdigits⟩ := h
  have hhead := head_of_exponent hpart hrest
  have hzero : (whole.head? == some '0' && whole.length != 1) = false := by
    rw [Bool.and_eq_false_imp]
    intro hzero
    rw [hleading (eq_of_beq hzero)]
    rfl
  cases fraction with
  | none =>
      have htaken : digits (whole ++ (text ++ rest)) = (whole, text ++ rest) :=
        digits_append hwhole fun c hc => (hhead c hc).1
      obtain ⟨first, later, rfl⟩ := List.exists_cons_of_ne_nil hne
      show numeral negative (first :: later ++ (text ++ rest)) = _
      unfold numeral
      rw [htaken]
      simp only [hzero, Bool.false_eq_true, if_false]
      split
      next other heq => exact absurd rfl (hhead '.' (by rw [heq]; rfl)).2
      next => exact exponent_of_spelled hpart hdigits hrest
  | some ds =>
      obtain ⟨hsome, hplaces⟩ := hfraction ds rfl
      have hwhole : digits (whole ++ '.' :: (ds ++ (text ++ rest))) =
          (whole, '.' :: (ds ++ (text ++ rest))) :=
        digits_append hwhole fun c hc => by
          obtain rfl : '.' = c := Option.some.inj hc
          rfl
      have htaken : digits (ds ++ (text ++ rest)) = (ds, text ++ rest) :=
        digits_append hplaces fun c hc => (hhead c hc).1
      obtain ⟨first, later, rfl⟩ := List.exists_cons_of_ne_nil hne
      obtain ⟨point, places, rfl⟩ := List.exists_cons_of_ne_nil hsome
      show numeral negative (first :: later ++ '.' :: (point :: places ++ _)) = _
      unfold numeral
      rw [hwhole]
      simp only [hzero, Bool.false_eq_true, if_false]
      rw [htaken]
      exact exponent_of_spelled hpart hdigits hrest

/-- A text of a number is read as the number. -/
theorem number_of_spelled {n : Numeral} (h : n.Spelled text) (hrest : EndsNumber rest) :
    numberOf (text ++ rest) = (number n, some rest) := by
  obtain ⟨hn, part, hpart, rfl⟩ := h
  have hnumeral := numeral_of_parts hn hpart hrest
  rw [List.append_assoc, List.append_assoc, List.append_assoc]
  cases hnegative : n.negative with
  | true =>
      rw [hnegative] at hnumeral
      exact hnumeral
  | false =>
      rw [hnegative] at hnumeral
      rw [← hnumeral]
      obtain ⟨hne, hwhole⟩ := hn.whole
      obtain ⟨c, later, hc⟩ := List.exists_cons_of_ne_nil hne
      have hdigit : c.isDigit = true := hwhole c (hc ▸ List.mem_cons_self)
      rw [hc]
      -- The first character is a digit and no sign.
      show numberOf (c :: (later ++ _)) = numeral false (c :: (later ++ _))
      unfold numberOf
      split
      next heq =>
        obtain ⟨rfl, -⟩ := List.cons.inj heq
        cases hdigit
      next => rfl

/-- A text of a number begins with a sign or with a digit. -/
theorem head_of_numeral {n : Numeral} (h : n.Spelled text) :
    ∃ c later, text = c :: later ∧ (c = '-' ∨ c.isDigit = true) := by
  obtain ⟨hn, part, -, rfl⟩ := h
  cases n.negative with
  | true => exact ⟨'-', _, rfl, .inl rfl⟩
  | false =>
      obtain ⟨hne, hwhole⟩ := hn.whole
      obtain ⟨c, later, hc⟩ := List.exists_cons_of_ne_nil hne
      rw [hc]
      exact ⟨c, _, rfl, .inr (hwhole c (hc ▸ List.mem_cons_self))⟩

end

/-! ## Natural numbers -/

/-- Only zero is written with a leading zero. -/
theorem eq_zero_of_leading {n : Nat} (h : (Nat.toDigits 10 n).head? = some '0') : n = 0 := by
  have hdigit {d : Nat} (hd : d < 10) (hzero : Nat.digitChar d = '0') : d = 0 := by
    revert d
    decide
  induction n using Nat.strongRecOn with
  | _ n ih =>
      rw [Nat.toDigits_eq_if (by decide)] at h
      split at h
      next hlt => exact hdigit hlt (Option.some.inj h)
      next hle =>
        have htens : (Nat.toDigits 10 (n / 10)).head? = some '0' := by
          obtain ⟨c, later, hc⟩ := List.exists_cons_of_ne_nil
            (Nat.toDigits_ne_nil (n := n / 10) (b := 10))
          rw [hc] at h ⊢
          exact h
        have hzero := ih (n / 10) (by omega) htens
        omega

/-- The numeral of a natural number is complete. -/
theorem Numeral.complete_of_nat (n : Nat) : (Numeral.ofNat n).Complete where
  whole := ⟨Nat.toDigits_ne_nil, fun _ hc => Nat.isDigit_of_mem_toDigits (by decide) (by decide) hc⟩
  leading := by
    intro h
    rw [eq_zero_of_leading h]
    rfl
  fraction := nofun
  exponent := nofun

/-- Digits only add to what stands before them. -/
theorem le_of_digit_chars (digits : List Char) (start : Nat) :
    start ≤ Nat.ofDigitChars 10 digits start := by
  induction digits generalizing start with
  | nil => exact Nat.le_refl _
  | cons c digits ih =>
      have hstep := ih (10 * start + (c.toNat - '0'.toNat))
      show start ≤ Nat.ofDigitChars 10 digits (10 * start + (c.toNat - '0'.toNat))
      omega

/-- Digits are all taken if their number fits 64 bits. -/
theorem take_digits_of_lt {digits : List Char} {start : Nat}
    (h : Nat.ofDigitChars 10 digits start < 18446744073709551616) :
    takeDigits start digits = (Nat.ofDigitChars 10 digits start, digits.length) := by
  induction digits generalizing start with
  | nil => rfl
  | cons c digits ih =>
      have hstep : Nat.ofDigitChars 10 (c :: digits) start =
          Nat.ofDigitChars 10 digits (start * 10 + (c.toNat - '0'.toNat)) := by
        rw [Nat.mul_comm start 10]
        rfl
      rw [hstep] at h ⊢
      have hle := le_of_digit_chars digits (start * 10 + (c.toNat - '0'.toNat))
      rw [takeDigits, if_pos (Nat.lt_of_le_of_lt hle h), ih h]
      rfl

/-- A natural number of 64 bits is the value of its digits. -/
theorem value_of_nat {n : Nat} (h : n < 18446744073709551616) :
    (Numeral.ofNat n).value = .ok (.natural n) := by
  have htaken : takeDigits 0 (Nat.toDigits 10 n) = (n, (Nat.toDigits 10 n).length) := by
    rw [take_digits_of_lt (by rw [Nat.ofDigitChars_ten_toDigits]; exact h),
      Nat.ofDigitChars_ten_toDigits]
  simp [Numeral.value, Numeral.ofNat, htaken]

end BulkLoad.Json
