import BulkLoad.Proofs.Json.Members

/-!
# What is read is spelled

The grammar `Spelled` leaves out no text that is read to its end: the part of a text that is read as
a value without a fault in it spells the value (`spelled_of_value`). A decoder that takes no value
with a fault in it, as those for texts, numbers, lists and records do (`Closes`), accepts only texts
that spell the value it decodes (`Closes.spelled`).
-/

namespace BulkLoad.Json

section

variable {text rest : List Char} {l : Literal}

/-! ## String literals -/

/-- The text consists of the pieces of a literal, its closing quote, and the rest. -/
def HoldsPieces (l : Literal) (text rest : List Char) : Prop :=
  ∃ texts, List.Forall₂ Piece.Spelled l.pieces texts ∧ text = texts.flatten ++ '"' :: rest

/-- A literal that breaks off has no closing quote. -/
theorem holds_pieces_of_cut {fault : Fault} (h : Literal.cut fault = (l, rest))
    (hstop : l.stop = none) : HoldsPieces l text rest := by
  obtain ⟨rfl, -⟩ := Prod.mk.inj h
  cases hstop

/-- A text of a piece may stand before the others. -/
theorem holds_pieces_of_push {piece : Piece} {first : List Char} (hpiece : piece.Spelled first)
    (hlater : (literal text).1.stop = none →
      HoldsPieces (literal text).1 text (literal text).2)
    (h : Literal.push piece (literal text) = (l, rest)) (hstop : l.stop = none) :
    HoldsPieces l (first ++ text) rest := by
  obtain ⟨rfl, rfl⟩ := Prod.mk.inj h
  obtain ⟨texts, hpieces, htext⟩ := hlater hstop
  refine ⟨first :: texts, .cons hpiece hpieces, ?_⟩
  rw [List.flatten_cons, List.append_assoc, ← htext]

/-- The text that is read as a literal to its closing quote consists of texts of its pieces. -/
theorem pieces_of_literal (h : literal text = (l, rest)) (hstop : l.stop = none) :
    HoldsPieces l text rest := by
  fun_induction literal text generalizing l rest with
  | case1 | case4 | case5 | case7 | case8 | case9 => exact holds_pieces_of_cut h hstop
  | case2 text =>
      obtain ⟨rfl, rfl⟩ := Prod.mk.inj h
      exact ⟨[], .nil, rfl⟩
  | case3 a b c d text piece hpiece ih =>
      exact holds_pieces_of_push (.digits hpiece) (ih rfl) h hstop
  | case6 letter text hfour hletter plain hplain ih =>
      have hspelled : Piece.Spelled (.char plain) ['\\', letter] := .escape hplain
      exact holds_pieces_of_push hspelled (ih rfl) h hstop
  | case10 c text hquote hfour hunicode hletter halone hcontrol ih =>
      have hescape : c ≠ '\\' := by
        rintro rfl
        cases text with
        | nil => exact halone rfl rfl
        | cons letter text => exact hletter letter text rfl rfl
      exact holds_pieces_of_push (.plain hquote hescape (Nat.not_lt.mp hcontrol)) (ih rfl) h hstop

/-- The text that is read as a literal to its closing quote spells the literal. -/
theorem spelled_of_literal (h : literal text = (l, rest)) (hstop : l.stop = none) :
    ∃ body, text = body ++ rest ∧ l.Spelled ('"' :: body) := by
  obtain ⟨texts, hpieces, rfl⟩ := pieces_of_literal h hstop
  exact ⟨texts.flatten ++ ['"'], by rw [List.append_assoc, List.singleton_append],
    hstop, texts, hpieces, rfl⟩

/-! ## Words and numbers -/

/-- `SpelledBefore v read text` says that the value was read without a fault from a part of the text
that spells it, up to the rest. -/
def SpelledBefore (read : Read) (text : List Char) : Prop :=
  ∃ spelled rest, text = spelled ++ rest ∧ read.2 = some rest ∧ read.1.Spelled spelled

/-- A value that breaks off has a fault. -/
theorem not_skip_cut {wanted skipped : Fault} (h : skip (broken wanted skipped) = .ok ()) : False :=
  nomatch h

/-- The text that is read as the letters of a word consists of them. -/
theorem word_of_skip {v : Json} {expected : List Char}
    (h : skip (word v expected text).1 = .ok ()) :
    ∃ rest, text = expected ++ rest ∧ word v expected text = (v, some rest) := by
  induction expected generalizing text with
  | nil => exact ⟨text, rfl, rfl⟩
  | cons c expected ih =>
      cases text with
      | nil => cases h
      | cons d text =>
          rw [word] at h ⊢
          split at h
          next heq =>
            obtain ⟨rest, rfl, hread⟩ := ih h
            rw [if_pos heq]
            exact ⟨rest, by rw [eq_of_beq heq]; rfl, hread⟩
          next => cases h

/-- The digits that are taken from a text are digits, and the text consists of them and the rest. -/
theorem digits_spec {ds : List Char} (h : digits text = (ds, rest)) :
    text = ds ++ rest ∧ ∀ c ∈ ds, c.isDigit = true := by
  obtain ⟨rfl, rfl⟩ := Prod.mk.inj h
  exact ⟨List.takeWhile_append_dropWhile.symm, fun c hc => (List.mem_takeWhile_imp hc)⟩

/-- What is read behind the sign of an exponent. -/
def exponentDigits (build : Option (Bool × List Char) → Numeral) (negative : Bool)
    (text : List Char) : Read :=
  match digits text with
  | ([], rest) => Read.cutNumber rest
  | (digits, rest) => (number (build (some (negative, digits))), some rest)

variable {build : Option (Bool × List Char) → Numeral}

/-- Behind the sign of an exponent there are digits. -/
theorem exponent_digits_of_skip {negative : Bool}
    (h : skip (exponentDigits build negative text).1 = .ok ()) :
    ∃ ds rest, AreDigits ds ∧ text = ds ++ rest ∧
      exponentDigits build negative text = (number (build (some (negative, ds))), some rest) := by
  unfold exponentDigits at h ⊢
  obtain ⟨ds, rest, htaken⟩ : ∃ ds rest, digits text = (ds, rest) := ⟨_, _, rfl⟩
  obtain ⟨htext, hdigits⟩ := digits_spec htaken
  rw [htaken] at h ⊢
  cases ds with
  | nil => cases h
  | cons d ds => exact ⟨d :: ds, rest, ⟨List.cons_ne_nil _ _, hdigits⟩, htext, rfl⟩

/-- Behind its mark an exponent may have a sign. -/
theorem exponent_of_mark (build : Option (Bool × List Char) → Numeral) {mark : Char}
    (hmark : (mark == 'e' || mark == 'E') = true) (text : List Char) :
    ∃ negative sign behind, text = sign ++ behind ∧
      (∀ digits, ExponentSpelled (some (negative, digits)) (mark :: (sign ++ digits))) ∧
      exponent build (mark :: text) = exponentDigits build negative behind := by
  have hspelled : mark = 'e' ∨ mark = 'E' := by simpa using hmark
  have hplain (h : exponent build (mark :: text) = exponentDigits build false text) :
      ∃ negative sign behind, text = sign ++ behind ∧
        (∀ digits, ExponentSpelled (some (negative, digits)) (mark :: (sign ++ digits))) ∧
        exponent build (mark :: text) = exponentDigits build negative behind :=
    ⟨false, [], text, rfl, fun digits => .plain hspelled digits, h⟩
  cases text with
  | nil => exact hplain (if_pos hmark)
  | cons c behind =>
      by_cases hplus : c = '+'
      · subst hplus
        exact ⟨false, ['+'], behind, rfl, fun digits => .signed hspelled false digits, if_pos hmark⟩
      · by_cases hminus : c = '-'
        · subst hminus
          exact ⟨true, ['-'], behind, rfl, fun digits => .signed hspelled true digits, if_pos hmark⟩
        · refine hplain ?_
          simp only [exponent, hmark, if_true, List.cons.injEq, hplus, hminus, false_and, imp_self,
            implies_true]
          rfl

/-- The text that is read as an exponent spells it, and nothing is read where there is none. -/
theorem exponent_of_skip (h : skip (exponent build text).1 = .ok ()) :
    ∃ part spelled rest, ExponentSpelled part spelled ∧ (∀ p ∈ part, AreDigits p.2) ∧
      text = spelled ++ rest ∧ exponent build text = (number (build part), some rest) := by
  have hnone (text : List Char) : ∃ part spelled rest, ExponentSpelled part spelled ∧
      (∀ p ∈ part, AreDigits p.2) ∧ text = spelled ++ rest ∧
        ((number (build none), some text) : Read) = (number (build part), some rest) :=
    ⟨none, [], text, .none, nofun, rfl, rfl⟩
  cases text with
  | nil => exact hnone []
  | cons mark text =>
      by_cases hmark : (mark == 'e' || mark == 'E') = true
      · obtain ⟨negative, sign, behind, rfl, hspelled, hread⟩ :=
          exponent_of_mark build hmark text
        rw [hread] at h ⊢
        obtain ⟨ds, rest, hdigits, rfl, hread⟩ := exponent_digits_of_skip h
        refine ⟨some (negative, ds), _, rest, hspelled ds, ?_, ?_, hread⟩
        · rintro _ ⟨⟩
          exact hdigits
        · rw [List.cons_append, List.append_assoc]
      · have hread : exponent build (mark :: text) = (number (build none), some (mark :: text)) :=
          if_neg hmark
        rw [hread]
        exact hnone (mark :: text)

/-- A number whose parts were read without a fault is complete. -/
theorem numeral_of_exponent {negative : Bool} {whole : List Char} {fraction : Option (List Char)}
    (hwhole : AreDigits whole) (hleading : whole.head? = some '0' → whole.length = 1)
    (hfraction : ∀ digits ∈ fraction, AreDigits digits)
    (h : skip (exponent (⟨negative, whole, fraction, ·⟩) text).1 = .ok ()) :
    ∃ n part rest, n.negative = negative ∧ n.Complete ∧ ExponentSpelled n.exponent part ∧
      whole ++ (fractionText fraction ++ text) =
        n.whole ++ (fractionText n.fraction ++ part) ++ rest ∧
      exponent (⟨negative, whole, fraction, ·⟩) text = (number n, some rest) := by
  obtain ⟨part, spelled, rest, hspelled, hdigits, rfl, hread⟩ := exponent_of_skip h
  refine ⟨⟨negative, whole, fraction, part⟩, spelled, rest, rfl,
    ⟨hwhole, hleading, hfraction, hdigits⟩, hspelled, ?_, hread⟩
  simp only [List.append_assoc]

/-- The text that is read as a number behind its sign consists of the parts of the number. -/
theorem numeral_of_skip {negative : Bool} (h : skip (numeral negative text).1 = .ok ()) :
    ∃ n part rest, n.negative = negative ∧ n.Complete ∧ ExponentSpelled n.exponent part ∧
      text = n.whole ++ (fractionText n.fraction ++ part) ++ rest ∧
      numeral negative text = (number n, some rest) := by
  obtain ⟨whole, behind, htaken⟩ : ∃ whole behind, digits text = (whole, behind) := ⟨_, _, rfl⟩
  obtain ⟨rfl, hwhole⟩ := digits_spec htaken
  unfold numeral at h ⊢
  rw [htaken] at h ⊢
  cases whole with
  | nil => cases h
  | cons d ds =>
      have hdigits : AreDigits (d :: ds) := ⟨List.cons_ne_nil _ _, hwhole⟩
      dsimp only at h ⊢
      split at h
      next => cases h
      next hzero =>
        have hleading (hhead : (d :: ds).head? = some '0') : (d :: ds).length = 1 := by
          simpa [hhead] using hzero
        rw [if_neg hzero]
        split at h
        next text =>
          -- Behind the point there are digits.
          obtain ⟨places, later, hplaces⟩ : ∃ places later, digits text = (places, later) :=
            ⟨_, _, rfl⟩
          obtain ⟨rfl, hfraction⟩ := digits_spec hplaces
          rw [hplaces] at h ⊢
          cases places with
          | nil => cases h
          | cons place places =>
              refine numeral_of_exponent hdigits hleading ?_ h
              rintro _ ⟨⟩
              exact ⟨List.cons_ne_nil _ _, hfraction⟩
        next =>
          have hnone : ∀ digits ∈ (none : Option (List Char)), AreDigits digits := nofun
          exact numeral_of_exponent hdigits hleading hnone h

/-- The text that is read as a number spells it. -/
theorem number_of_skip (h : skip (numberOf text).1 = .ok ()) :
    SpelledBefore (numberOf text) text := by
  unfold numberOf at h ⊢
  split at h
  next behind =>
    obtain ⟨n, part, rest, hnegative, hcomplete, hpart, rfl, hread⟩ := numeral_of_skip h
    rw [hread]
    exact ⟨_, rest, rfl, rfl, .number ⟨hcomplete, part, hpart, by rw [hnegative]⟩⟩
  next hsign =>
    obtain ⟨n, part, rest, hnegative, hcomplete, hpart, rfl, hread⟩ := numeral_of_skip h
    rw [hread]
    exact ⟨_, rest, rfl, rfl, .number ⟨hcomplete, part, hpart, by rw [hnegative]; rfl⟩⟩

/-! ## Values -/

/-- White space before a text of a value. -/
theorem Spelled.behind_space {v : Json} {space : List Char} (h : v.Spelled text)
    (hspace : ∀ c ∈ space, isSpace c = true) : v.Spelled (space ++ text) := by
  induction space with
  | nil => exact h
  | cons c space ih =>
      obtain ⟨hc, hspace⟩ := List.forall_mem_cons.mp hspace
      exact .spaceBefore hc (ih hspace)

/-- White space behind a text of a value. -/
theorem Spelled.before_space {v : Json} {space : List Char} (h : v.Spelled text)
    (hspace : ∀ c ∈ space, isSpace c = true) : v.Spelled (text ++ space) := by
  induction space generalizing text with
  | nil => rwa [List.append_nil]
  | cons c space ih =>
      obtain ⟨hc, hspace⟩ := List.forall_mem_cons.mp hspace
      rw [List.append_cons]
      exact ih (.spaceBehind hc h) hspace

/-- A text consists of white space and what is left of it when that is skipped. -/
theorem space_of_skip (text : List Char) :
    ∃ space, text = space ++ skipSpace text ∧ ∀ c ∈ space, isSpace c = true :=
  ⟨text.takeWhile isSpace, List.takeWhile_append_dropWhile.symm,
    fun _ hc => List.mem_takeWhile_imp hc⟩

/-- What holds of a value that is read with some fuel. -/
def ValueSound (fuel : Nat) : Prop :=
  ∀ text, skip (value fuel text).1 = .ok () → SpelledBefore (value fuel text) text

/-- What holds of the items of an array that are read with some fuel. -/
def ItemsSound (fuel : Nat) : Prop :=
  ∀ text read rest, items fuel text = (read, none, rest) →
    (∀ item ∈ read, skip item = .ok ()) → ∃ parts left, parts ≠ [] ∧ rest = some left ∧
      read = parts.map Prod.fst ∧ (∀ p ∈ parts, Spelled p.1 p.2) ∧
      text = [','].intercalate (parts.map Prod.snd) ++ ']' :: left

/-- What holds of the members of an object that are read with some fuel. -/
def MembersSound (fuel : Nat) : Prop :=
  ∀ text read rest, members fuel text = (read, none, rest) →
    (∀ m ∈ read, m.1.stop = none ∧ skip m.2 = .ok ()) → ∃ parts left, parts ≠ [] ∧
      rest = some left ∧ read = parts.map SpelledMember.member ∧
      (∀ p ∈ parts, Spelled (string p.name) p.nameText) ∧
      (∀ p ∈ parts, Spelled p.value p.valueText) ∧
      text = [','].intercalate (parts.map SpelledMember.text) ++ '}' :: left

/-- The text before what follows a value spells the value. -/
theorem ValueSound.before {fuel : Nat} {v : Json} {behind : List Char} (h : ValueSound fuel)
    (hread : value fuel text = (v, some behind)) (hskip : skip v = .ok ()) :
    ∃ spelled, v.Spelled spelled ∧ text = spelled ++ skipSpace behind := by
  obtain ⟨spelled, left, htext, hleft, hspelled⟩ := h text (hread ▸ hskip)
  rw [hread] at hleft hspelled
  obtain rfl := Option.some.inj hleft
  obtain ⟨space, hspace, hblank⟩ := space_of_skip behind
  refine ⟨spelled ++ space, hspelled.before_space hblank, ?_⟩
  rw [List.append_assoc, ← hspace, htext]

/-- Items are read up to the closing bracket. -/
theorem items_sound {fuel : Nat} (hvalue : ValueSound fuel) (hitems : ItemsSound fuel) :
    ItemsSound (fuel + 1) := by
  intro text read rest hread hskip
  rw [items] at hread
  split at hread
  next => cases hread
  next item behind hfirst =>
    split at hread
    next later hmark =>
      obtain ⟨others, stop, left, hothers⟩ :
        ∃ others stop left, items fuel later = (others, stop, left) := ⟨_, _, _, rfl⟩
      rw [hothers] at hread
      cases hread
      obtain ⟨hskip, hlater⟩ := List.forall_mem_cons.mp hskip
      obtain ⟨spelled, hspelled, htext⟩ := hvalue.before hfirst hskip
      obtain ⟨parts, left, hne, hleft, rfl, hparts, rfl⟩ := hitems _ _ _ hothers hlater
      refine ⟨(item, spelled) :: parts, left, List.cons_ne_nil _ _, hleft, rfl,
        List.forall_mem_cons.mpr ⟨hspelled, hparts⟩, ?_⟩
      obtain ⟨second, parts, rfl⟩ := List.exists_cons_of_ne_nil hne
      rw [htext, hmark]
      simp only [List.map_cons, List.intercalate_cons_cons, List.append_assoc, List.cons_append,
        List.nil_append]
    next later hmark =>
      cases hread
      obtain ⟨spelled, hspelled, htext⟩ := hvalue.before hfirst (hskip item List.mem_cons_self)
      refine ⟨[(item, spelled)], later, List.cons_ne_nil _ _, rfl, rfl,
        List.forall_mem_singleton.mpr hspelled, ?_⟩
      rw [htext, hmark, List.map_singleton, List.intercalate_singleton]
    next => cases hread
    next => cases hread

/-- Members are read up to the closing brace. -/
theorem members_sound {fuel : Nat} (hvalue : ValueSound fuel) (hmembers : MembersSound fuel) :
    MembersSound (fuel + 1) := by
  intro text read rest hread hskip
  obtain ⟨before, hbefore, hblank⟩ := space_of_skip text
  rw [members] at hread
  split at hread
  next => cases hread
  next behind hquote =>
    obtain ⟨name, afterName, hname⟩ : ∃ name afterName, literal behind = (name, afterName) :=
      ⟨_, _, rfl⟩
    rw [hname] at hread
    dsimp only at hread
    split at hread
    next => cases hread
    next hclosed =>
      have hstop : name.stop = none := by simpa using hclosed
      obtain ⟨body, rfl, hliteral⟩ := spelled_of_literal hname hstop
      obtain ⟨space, hspace, hgap⟩ := space_of_skip afterName
      split at hread
      next valueText hcolon =>
        -- The name with white space around it, and the colon.
        have hnamed : (string name).Spelled (before ++ (('"' :: body) ++ space)) :=
          ((Spelled.string hliteral).before_space hgap).behind_space hblank
        have htext : text = before ++ (('"' :: body) ++ space) ++ ':' :: valueText := by
          rw [hbefore, hquote, hspace, hcolon]
          simp only [List.append_assoc, List.cons_append]
        split at hread
        next => cases hread
        next item behind hfirst =>
          split at hread
          next later hmark =>
            obtain ⟨others, stop, left, hothers⟩ :
              ∃ others stop left, members fuel later = (others, stop, left) := ⟨_, _, _, rfl⟩
            rw [hothers] at hread
            cases hread
            obtain ⟨hskip, hlater⟩ := List.forall_mem_cons.mp hskip
            obtain ⟨spelled, hspelled, hvalueText⟩ := hvalue.before hfirst hskip.2
            obtain ⟨parts, left, hne, hleft, rfl, hnames, hparts, rfl⟩ :=
              hmembers _ _ _ hothers hlater
            refine ⟨⟨name, _, item, spelled⟩ :: parts, left, List.cons_ne_nil _ _, hleft, rfl,
              List.forall_mem_cons.mpr ⟨hnamed, hnames⟩,
              List.forall_mem_cons.mpr ⟨hspelled, hparts⟩, ?_⟩
            obtain ⟨second, parts, rfl⟩ := List.exists_cons_of_ne_nil hne
            rw [htext, hvalueText, hmark]
            simp only [List.map_cons, List.intercalate_cons_cons, SpelledMember.text,
              List.append_assoc, List.cons_append, List.nil_append]
          next later hmark =>
            cases hread
            obtain ⟨spelled, hspelled, hvalueText⟩ :=
              hvalue.before hfirst (hskip _ List.mem_cons_self).2
            refine ⟨[⟨name, _, item, spelled⟩], later, List.cons_ne_nil _ _, rfl, rfl,
              List.forall_mem_singleton.mpr hnamed, List.forall_mem_singleton.mpr hspelled, ?_⟩
            rw [htext, hvalueText, hmark, List.map_singleton, List.intercalate_singleton]
            simp only [SpelledMember.text, List.append_assoc, List.cons_append]
          next => cases hread
          next => cases hread
      next => cases hread
      next => cases hread
  next => cases hread

/-- An array without a fault is closed, and so are its items. -/
theorem whole_of_skip_array {read : List Json} {stop : Option Fault}
    (h : skip (array read stop) = .ok ()) : stop = none ∧ ∀ item ∈ read, skip item = .ok () := by
  have hstop : stop = none := by
    rw [skip] at h
    split at h
    next => exact closed_iff.mp h
    next => cases h
  subst hstop
  exact ⟨rfl, skip_array_iff.mp h⟩

/-- An object without a fault is closed, and so are its members. -/
theorem whole_of_skip_object {read : List (Literal × Json)} {stop : Option Fault}
    (h : skip (object read stop) = .ok ()) :
    stop = none ∧ ∀ m ∈ read, m.1.stop = none ∧ skip m.2 = .ok () := by
  have hstop : stop = none := by
    rw [skip] at h
    split at h
    next => exact closed_iff.mp h
    next => cases h
  subst hstop
  exact ⟨rfl, skip_object_iff.mp h⟩

/-- A value is read from a text that spells it. -/
theorem value_sound {fuel : Nat} (hitems : ItemsSound fuel) (hmembers : MembersSound fuel) :
    ValueSound (fuel + 1) := by
  intro text hskip
  obtain ⟨space, htext, hblank⟩ := space_of_skip text
  suffices h : ∀ v rest, value (fuel + 1) text = (v, rest) → skip v = .ok () →
      ∃ spelled left, skipSpace text = spelled ++ left ∧ rest = some left ∧ v.Spelled spelled by
    obtain ⟨spelled, left, hspelled, hleft, hv⟩ := h _ _ rfl hskip
    refine ⟨space ++ spelled, left, ?_, hleft, hv.behind_space hblank⟩
    rw [List.append_assoc, ← hspelled, ← htext]
  intro v rest hread hskip
  -- The letters of a word that follow its first one.
  have hword {w : Json} {first : Char} {expected behind : List Char}
      (hbehind : skipSpace text = first :: behind) (hw : w.Spelled (first :: expected))
      (hread : word w expected behind = (v, rest)) :
      ∃ spelled left, skipSpace text = spelled ++ left ∧ rest = some left ∧ v.Spelled spelled := by
    have hletters : skip (word w expected behind).1 = .ok () := by rwa [hread]
    obtain ⟨left, rfl, hletters⟩ := word_of_skip hletters
    rw [hletters] at hread
    cases hread
    exact ⟨first :: expected, left, hbehind, rfl, hw⟩
  rw [value.eq_def] at hread
  dsimp only at hread
  split at hread
  next =>
    cases hread
    cases hskip
  next behind hbehind => exact hword hbehind .null hread
  next behind hbehind => exact hword hbehind (.bool true) hread
  next behind hbehind => exact hword hbehind (.bool false) hread
  next behind hbehind =>
    obtain ⟨l, left, hl⟩ : ∃ l left, literal behind = (l, left) := ⟨_, _, rfl⟩
    rw [hl] at hread
    cases hread
    have hstop : l.stop = none := closed_iff.mp hskip
    obtain ⟨body, rfl, hspelled⟩ := spelled_of_literal hl hstop
    exact ⟨'"' :: body, left, hbehind, by rw [hstop]; rfl, .string hspelled⟩
  next behind hbehind =>
    obtain ⟨gap, hgap, hblank⟩ := space_of_skip behind
    split at hread
    next later hclosing =>
      cases hread
      refine ⟨'[' :: (gap ++ [']']), later, ?_, rfl, .emptyArray hblank⟩
      rw [hbehind, hgap, hclosing]
      simp only [List.cons_append, List.append_assoc, List.nil_append]
    next =>
      cases hread
      cases hskip
    next =>
      obtain ⟨read, stop, left, hread'⟩ :
        ∃ read stop left, items fuel (skipSpace behind) = (read, stop, left) := ⟨_, _, _, rfl⟩
      rw [hread'] at hread
      cases hread
      obtain ⟨rfl, hskip⟩ := whole_of_skip_array hskip
      rw [items_skip_space] at hread'
      obtain ⟨parts, left, hne, rfl, rfl, hparts, rfl⟩ := hitems _ _ _ hread' hskip
      refine ⟨'[' :: ([','].intercalate (parts.map Prod.snd) ++ [']']), left, ?_, rfl,
        .array hne hparts⟩
      rw [hbehind]
      simp only [List.cons_append, List.append_assoc, List.nil_append]
  next behind hbehind =>
    obtain ⟨gap, hgap, hblank⟩ := space_of_skip behind
    split at hread
    next later hclosing =>
      cases hread
      refine ⟨'{' :: (gap ++ ['}']), later, ?_, rfl, .emptyObject hblank⟩
      rw [hbehind, hgap, hclosing]
      simp only [List.cons_append, List.append_assoc, List.nil_append]
    next =>
      obtain ⟨read, stop, left, hread'⟩ :
        ∃ read stop left, members fuel (skipSpace behind) = (read, stop, left) := ⟨_, _, _, rfl⟩
      rw [hread'] at hread
      cases hread
      obtain ⟨rfl, hskip⟩ := whole_of_skip_object hskip
      rw [members_skip_space] at hread'
      obtain ⟨parts, left, hne, rfl, rfl, hnames, hparts, rfl⟩ := hmembers _ _ _ hread' hskip
      refine ⟨'{' :: ([','].intercalate (parts.map SpelledMember.text) ++ ['}']), left, ?_, rfl,
        .object hne hnames hparts⟩
      rw [hbehind]
      simp only [List.cons_append, List.append_assoc, List.nil_append]
  next c behind _ _ _ _ _ _ hbehind =>
    split at hread
    next =>
      have hnumber : skip (numberOf (c :: behind)).1 = .ok () := by rwa [hread]
      obtain ⟨spelled, left, hspelled, hleft, hv⟩ := number_of_skip hnumber
      rw [hread] at hleft hv
      exact ⟨spelled, left, hbehind.trans hspelled, hleft, hv⟩
    next =>
      cases hread
      cases hskip

/-- With any fuel, what is read without a fault is spelled. -/
theorem sound_of_fuel (fuel : Nat) : ValueSound fuel ∧ ItemsSound fuel ∧ MembersSound fuel := by
  induction fuel with
  | zero =>
      refine ⟨fun text hskip => ?_, fun text read rest hread => ?_, fun text read rest hread => ?_⟩
      · cases hskip
      · cases hread
      · cases hread
  | succ fuel ih =>
      obtain ⟨hvalue, hitems, hmembers⟩ := ih
      exact ⟨value_sound hitems hmembers, items_sound hvalue hitems,
        members_sound hvalue hmembers⟩

/-- The part of a text that is read as a value without a fault spells the value. -/
theorem spelled_of_read (h : skip (read text).1 = .ok ()) : SpelledBefore (read text) text :=
  (sound_of_fuel _).1 text h

end

/-! ## Decoders -/

section

variable {α : Type} {decode : Decoder α}

/-- A decoder that takes no value with a fault in it. -/
def Closes (decode : Decoder α) : Prop := ∀ v x, decode v = .ok x → skip v = .ok ()

/-- A text that such a decoder accepts spells a value, which is the one that it decodes. -/
theorem Closes.spelled (h : Closes decode) {raw : String} {x : α}
    (hread : decodeText decode raw = .ok x) :
    ∃ v : Json, v.Spelled raw.toList ∧ decode v = .ok x := by
  have hdecode := decode_of_text hread
  obtain ⟨spelled, rest, htext, hrest, hspelled⟩ := spelled_of_read (h _ _ hdecode)
  refine ⟨(read raw.toList).1, ?_, hdecode⟩
  generalize (read raw.toList).1 = v at hdecode hspelled ⊢
  obtain ⟨⟨y, left⟩, hnext, hend⟩ := ok_of_bind hread
  obtain ⟨_, hfinished, -⟩ := ok_of_bind hend
  have hleft : left = rest := by
    unfold decodeNext at hnext
    simp only [decode_of_text hread, hrest] at hnext
    cases hnext
    rfl
  -- Nothing but white space is left.
  have hblank : skipSpace rest = [] := by
    unfold finished at hfinished
    split at hfinished
    next hempty => exact hleft ▸ List.isEmpty_iff.mp hempty
    next => cases hfinished
  obtain ⟨space, hspace, hall⟩ := space_of_skip rest
  rw [hblank, List.append_nil] at hspace
  rw [htext, hspace]
  exact hspelled.before_space hall

/-- A literal with a text is closed. -/
theorem closed_of_chars {stop : Option Fault} {pieces : List Piece} {chars : List Char}
    (h : Literal.chars stop pieces = .ok chars) : stop = none := by
  have hmap {x : Except Fault (List Char)} {f : List Char → List Char} {ys : List Char}
      (h : x.map f = .ok ys) : ∃ xs, x = .ok xs := by
    cases x with
    | error fault => cases h
    | ok xs => exact ⟨xs, rfl⟩
  fun_induction Literal.chars stop pieces generalizing chars with
  | case1 hstop => exact hstop
  | case2 => cases h
  | case3 _ _ ih =>
      obtain ⟨later, hlater⟩ := hmap h
      exact ih hlater
  | case4 | case5 | case6 => cases h
  | case7 _ _ _ _ ih =>
      obtain ⟨later, hlater⟩ := hmap h
      exact ih hlater
  | case8 => cases h

/-- A literal with a text is closed. -/
theorem closed_of_text {l : Literal} {s : String} (h : l.text = .ok s) : l.stop = none := by
  unfold Literal.text at h
  cases hchars : Literal.chars l.stop l.pieces with
  | error fault =>
      rw [hchars] at h
      cases h
  | ok chars => exact closed_of_chars hchars

/-- Texts are taken from closed literals. -/
theorem closes_text : Closes text := by
  intro v s h
  unfold text at h
  split at h
  next l =>
    cases htext : l.text with
    | error fault =>
        rw [htext] at h
        cases h
    | ok s => exact closed_iff.mpr (closed_of_text htext)
  next => exact absurd h refused_of_type

/-- Numbers have no faults in them. -/
theorem closes_natural (expected : String) : Closes (natural expected) := by
  intro v n h
  unfold natural at h
  split at h
  next => rfl
  next => exact absurd h refused_of_type

/-- Nothing may be written as null. -/
theorem Closes.optional (h : Closes decode) : Closes (optional decode) := by
  intro v x hread
  unfold Json.optional at hread
  split at hread
  next => rfl
  next =>
    cases hdecode : decode v with
    | error refusal =>
        rw [hdecode] at hread
        cases hread
    | ok x => exact h v x hdecode

/-- What is made of a value does not matter. -/
theorem Closes.map {β : Type} (h : Closes decode) (f : α → β) :
    Closes fun v => (decode v).map f := by
  intro v y hread
  cases hdecode : decode v with
  | error refusal =>
      simp only [hdecode] at hread
      cases hread
  | ok x => exact h v x hdecode

/-- Items are decoded one by one, up to the end of their array. -/
theorem whole_of_items (h : Closes decode) {stop : Option Fault} {read : List Json} {xs : List α}
    (hread : decodeItems decode stop read = .ok xs) :
    stop = none ∧ ∀ item ∈ read, skip item = .ok () := by
  induction read generalizing xs with
  | nil =>
      rw [decodeItems] at hread
      cases stop with
      | none => exact ⟨rfl, List.forall_mem_nil _⟩
      | some fault => cases hread
  | cons item read ih =>
      rw [decodeItems] at hread
      cases hitem : decode item with
      | error refusal =>
          rw [hitem] at hread
          cases hread
      | ok x =>
          rw [hitem] at hread
          cases hlater : decodeItems decode stop read with
          | error refusal =>
              simp only [hlater] at hread
              cases hread
          | ok later =>
              obtain ⟨hstop, hskip⟩ := ih hlater
              exact ⟨hstop, List.forall_mem_cons.mpr ⟨h item x hitem, hskip⟩⟩

/-- Lists are taken from closed arrays. -/
theorem Closes.list (h : Closes decode) : Closes (list decode) := by
  intro v xs hread
  unfold Json.list at hread
  split at hread
  next =>
    obtain ⟨rfl, hskip⟩ := whole_of_items h hread
    exact skip_array_iff.mpr hskip
  next => exact absurd hread refused_of_type

/-- A field takes what its decoder takes. -/
theorem Closes.field (h : Closes decode) (name : String) (required : Bool) :
    Closes (Field.of name required decode).accepts := h.map _

end

namespace Layout

variable {layout : Layout} {known : List (String × Json)}

/-- The members of an object are found in it up to its end, and all others are skipped. -/
theorem whole_of_scan (hfields : ∀ field ∈ layout.fields, Closes field.accepts)
    {stop : Option Fault} {seen : List String} {members : List (Literal × Json)}
    (h : layout.scan stop seen members = .ok known) :
    stop = none ∧ ∀ m ∈ members, m.1.stop = none ∧ skip m.2 = .ok () := by
  induction members generalizing seen known with
  | nil =>
      rw [scan] at h
      cases stop with
      | none => exact ⟨rfl, List.forall_mem_nil _⟩
      | some fault => cases h
  | cons m later ih =>
      obtain ⟨literal, item⟩ := m
      rw [scan] at h
      cases htext : literal.text with
      | error fault =>
          rw [htext] at h
          cases h
      | ok name =>
          have hclosed := closed_of_text htext
          simp only [htext] at h
          cases hfield : layout.field? name with
          | none =>
              simp only [hfield] at h
              cases hskip : skip item with
              | error refusal =>
                  rw [hskip] at h
                  cases h
              | ok =>
                  rw [hskip] at h
                  obtain ⟨hstop, hlater⟩ := ih h
                  exact ⟨hstop, List.forall_mem_cons.mpr ⟨⟨hclosed, hskip⟩, hlater⟩⟩
          | some field =>
              obtain ⟨hmem, -⟩ := field_of_name hfield
              simp only [hfield] at h
              split_ifs at h with hseen
              · cases h
              · cases haccepts : field.accepts item with
                | error refusal =>
                    rw [haccepts] at h
                    cases h
                | ok =>
                    rw [haccepts] at h
                    cases hscan : layout.scan stop (name :: seen) later with
                    | error refusal =>
                        simp only [hscan] at h
                        cases h
                    | ok found =>
                        obtain ⟨hstop, hlater⟩ := ih hscan
                        exact ⟨hstop, List.forall_mem_cons.mpr
                          ⟨⟨hclosed, hfields field hmem item () haccepts⟩, hlater⟩⟩

/-- The elements of an array are taken by the fields one by one, up to its end. -/
theorem whole_of_align {origin : Origin} {stop : Option Fault} {length : Nat} {fields : List Field}
    (hfields : ∀ field ∈ fields, Closes field.accepts) {read : List Json}
    (h : layout.align origin stop length fields read = .ok known) :
    stop = none ∧ ∀ item ∈ read, skip item = .ok () := by
  induction fields generalizing read known with
  | nil =>
      cases read with
      | nil =>
          rw [align] at h
          cases stop with
          | none => exact ⟨rfl, List.forall_mem_nil _⟩
          | some fault => cases h
      | cons item read => cases origin <;> rw [align] at h <;> cases h
  | cons field fields ih =>
      obtain ⟨hfield, hfields⟩ := List.forall_mem_cons.mp hfields
      cases read with
      | nil =>
          rw [align] at h
          cases stop with
          | none => exact ⟨rfl, List.forall_mem_nil _⟩
          | some fault => cases h
      | cons item read =>
          rw [align] at h
          cases haccepts : field.accepts item with
          | error refusal =>
              rw [haccepts] at h
              cases h
          | ok =>
              rw [haccepts] at h
              cases halign : layout.align origin stop length fields read with
              | error refusal =>
                  simp only [halign] at h
                  cases h
              | ok later =>
                  obtain ⟨hstop, hskip⟩ := ih hfields halign
                  exact ⟨hstop, List.forall_mem_cons.mpr ⟨hfield item () haccepts, hskip⟩⟩

/-- Records are taken from closed objects and arrays. -/
theorem closes_members (hfields : ∀ field ∈ layout.fields, Closes field.accepts)
    (origin : Origin) : Closes (layout.members origin) := by
  intro v known h
  unfold Layout.members at h
  split at h
  next members stop =>
    cases hscan : layout.scan stop [] members with
    | error refusal =>
        rw [hscan] at h
        cases h
    | ok found =>
        obtain ⟨rfl, hskip⟩ := whole_of_scan hfields hscan
        exact skip_object_iff.mpr hskip
  next read stop =>
    obtain ⟨rfl, hskip⟩ := whole_of_align hfields h
    exact skip_array_iff.mpr hskip
  next => exact absurd h refused_of_type

end Layout

/-- A record is decoded from its members. -/
theorem closes_of_members {α : Type} {layout : Layout} {origin : Origin}
    {build : List (String × Json) → Except Refusal α}
    (hfields : ∀ field ∈ layout.fields, Closes field.accepts) :
    Closes fun v => layout.members origin v >>= build := by
  intro v x h
  obtain ⟨known, hknown, -⟩ := ok_of_bind h
  exact layout.closes_members hfields origin v known hknown

end BulkLoad.Json
