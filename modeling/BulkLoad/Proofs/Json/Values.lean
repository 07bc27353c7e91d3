import BulkLoad.Proofs.Json.Tokens
import Mathlib.Data.List.DropRight

/-!
# Reading values

`v.Spelled text` is the grammar of JSON texts: it says that a text spells a value, with any white
space between the parts and any spelling of the literals. Every text of a value is read as the
value, with nothing but white space left of it (`read_of_spelled`). A value is `Complete` if nothing
in it breaks off and all its literals can be written; what is written for it is one of its texts
(`Complete.spelled`).
-/

namespace BulkLoad.Json

/-- A member of an object with the texts that stand for its name and for its value. -/
structure SpelledMember where
  name : Literal
  nameText : List Char
  value : Json
  valueText : List Char

/-- The member without its texts. -/
def SpelledMember.member (m : SpelledMember) : Literal × Json := (m.name, m.value)

/-- The text of the member. -/
def SpelledMember.text (m : SpelledMember) : List Char := m.nameText ++ ':' :: m.valueText

/-- The texts of a value. White space may stand before and behind a value, so that it may stand
before and behind the items of an array and the names and values of an object. -/
inductive Spelled : Json → List Char → Prop where
  | spaceBefore {v : Json} {text : List Char} {c : Char} (hc : isSpace c = true)
      (h : Spelled v text) : Spelled v (c :: text)
  | spaceBehind {v : Json} {text : List Char} {c : Char} (hc : isSpace c = true)
      (h : Spelled v text) : Spelled v (text ++ [c])
  | null : Spelled null "null".toList
  | bool (value : Bool) : Spelled (bool value) (if value then "true" else "false").toList
  | number {n : Numeral} {text : List Char} (h : n.Spelled text) : Spelled (number n) text
  | string {l : Literal} {text : List Char} (h : l.Spelled text) : Spelled (string l) text
  | emptyArray {space : List Char} (h : ∀ c ∈ space, isSpace c = true) :
      Spelled (array [] none) ('[' :: (space ++ [']']))
  | array {parts : List (Json × List Char)} (hne : parts ≠ [])
      (h : ∀ p ∈ parts, Spelled p.1 p.2) :
      Spelled (array (parts.map Prod.fst) none)
        ('[' :: ([','].intercalate (parts.map Prod.snd) ++ [']']))
  | emptyObject {space : List Char} (h : ∀ c ∈ space, isSpace c = true) :
      Spelled (object [] none) ('{' :: (space ++ ['}']))
  | object {parts : List SpelledMember} (hne : parts ≠ [])
      (hnames : ∀ p ∈ parts, Spelled (string p.name) p.nameText)
      (h : ∀ p ∈ parts, Spelled p.value p.valueText) :
      Spelled (object (parts.map SpelledMember.member) none)
        ('{' :: ([','].intercalate (parts.map SpelledMember.text) ++ ['}']))

/-- A value whose text is closed everywhere, with literals that can be written. -/
inductive Complete : Json → Prop where
  | null : Complete null
  | bool (value : Bool) : Complete (bool value)
  | number {n : Numeral} (h : n.Complete) : Complete (number n)
  | string {l : Literal} (h : l.Complete) : Complete (string l)
  | array {items : List Json} (h : ∀ item ∈ items, Complete item) : Complete (array items none)
  | object {members : List (Literal × Json)} (hnames : ∀ m ∈ members, m.1.Complete)
      (h : ∀ m ∈ members, Complete m.2) : Complete (object members none)

namespace Complete

/-- The value of a text is complete. -/
theorem of_string (s : String) : (ofString s).Complete := .string (Literal.complete_of_string s)

/-- The value of a natural number is complete. -/
theorem of_nat (n : Nat) : (ofNat n).Complete := .number (Numeral.complete_of_nat n)

/-- An array of complete values is complete. -/
theorem of_list {α : Type} {value : α → Json} {xs : List α}
    (h : ∀ x ∈ xs, (value x).Complete) : (ofList (xs.map value)).Complete := by
  refine .array fun item hitem => ?_
  obtain ⟨x, hx, rfl⟩ := List.mem_map.mp hitem
  exact h x hx

/-- An object of complete values is complete. -/
theorem of_members {members : List (String × Json)} (h : ∀ m ∈ members, m.2.Complete) :
    (ofMembers members).Complete := by
  refine .object (fun m hm => ?_) fun m hm => ?_
  all_goals obtain ⟨member, hmember, rfl⟩ := List.mem_map.mp hm
  · exact Literal.complete_of_string member.1
  · exact h member hmember

/-- A value that may be left out is complete. -/
theorem of_option {α : Type} {value : α → Json} {x : Option α}
    (h : ∀ y ∈ x, (value y).Complete) : (ofOption value x).Complete := by
  cases x with
  | none => exact .null
  | some y => exact h y rfl

end Complete

section

variable {text rest space : List Char} {fuel : Nat} {v : Json}

/-! ## What a text begins with -/

/-- White space is skipped up to the first other character. -/
theorem skip_space_cons {c : Char} (h : isSpace c = false) : skipSpace (c :: text) = c :: text := by
  rw [skipSpace, List.dropWhile_cons, h, if_neg Bool.false_ne_true]

/-- White space is skipped. -/
theorem skip_space_append (h : ∀ c ∈ space, isSpace c = true) (text : List Char) :
    skipSpace (space ++ text) = skipSpace text :=
  List.dropWhile_append_of_pos h

/-- After white space has been skipped there is none. -/
theorem skip_space_skip (text : List Char) : skipSpace (skipSpace text) = skipSpace text :=
  List.dropWhile_idempotent isSpace text

/-- A sign or a digit is no other character. -/
theorem ne_of_sign {c d : Char} (hc : c = '-' ∨ c.isDigit = true) (hsign : d ≠ '-')
    (hdigit : d.isDigit = false) : c ≠ d := by
  rintro rfl
  rcases hc with rfl | hc
  · exact hsign rfl
  · rw [hdigit] at hc
    cases hc

/-- A sign or a digit is no white space. -/
theorem not_space_of_sign {c : Char} (hc : c = '-' ∨ c.isDigit = true) : isSpace c = false := by
  have hno {d : Char} (hsign : d ≠ '-') (hdigit : d.isDigit = false) : (c == d) = false :=
    beq_false_of_ne (ne_of_sign hc hsign hdigit)
  rw [isSpace, hno (by decide) (by decide), hno (by decide) (by decide), hno (by decide) (by decide),
    hno (by decide) (by decide)]
  rfl

/-- A text of a value has a first character that is no white space, and that closes no array. -/
theorem Spelled.head (h : v.Spelled text) (rest : List Char) :
    ∃ c later, skipSpace (text ++ rest) = c :: later ∧ c ≠ ']' := by
  induction h generalizing rest with
  | @spaceBefore v text c hc h ih =>
      obtain ⟨d, later, hskip, hd⟩ := ih rest
      exact ⟨d, later, (skip_space_append (List.forall_mem_singleton.mpr hc) _).trans hskip, hd⟩
  | @spaceBehind v text c hc h ih =>
      rw [List.append_assoc]
      exact ih ([c] ++ rest)
  | null => exact ⟨'n', _, rfl, by decide⟩
  | bool value => cases value <;> exact ⟨_, _, rfl, by decide⟩
  | number hn =>
      obtain ⟨c, later, rfl, hc⟩ := head_of_numeral hn
      exact ⟨c, _, skip_space_cons (not_space_of_sign hc), ne_of_sign hc (by decide) (by decide)⟩
  | string hl =>
      obtain ⟨body, rfl, -⟩ := literal_of_spelled hl
      exact ⟨'"', _, rfl, by decide⟩
  | emptyArray | array | emptyObject | object => exact ⟨_, _, rfl, by decide⟩

/-- A text of a string is a text of its literal between white space. -/
theorem Spelled.literal {l : Literal} (h : (Json.string l).Spelled text) :
    ∃ before body behind, (∀ c ∈ before, isSpace c = true) ∧ (∀ c ∈ behind, isSpace c = true) ∧
      l.Spelled body ∧ text = before ++ (body ++ behind) := by
  generalize hv : Json.string l = v at h
  induction h with
  | @spaceBefore v text c hc h ih =>
      obtain ⟨before, body, behind, hbefore, hbehind, hl, rfl⟩ := ih hv
      exact ⟨c :: before, body, behind, List.forall_mem_cons.mpr ⟨hc, hbefore⟩, hbehind, hl, rfl⟩
  | @spaceBehind v text c hc h ih =>
      obtain ⟨before, body, behind, hbefore, hbehind, hl, rfl⟩ := ih hv
      refine ⟨before, body, behind ++ [c], hbefore, ?_, hl, ?_⟩
      · exact List.forall_mem_append.mpr ⟨hbehind, List.forall_mem_singleton.mpr hc⟩
      · rw [List.append_assoc, List.append_assoc]
  | string hl =>
      cases hv
      exact ⟨[], _, [], nofun, nofun, hl, (List.append_nil _).symm⟩
  | null | bool | number | emptyArray | array | emptyObject | object => cases hv

/-! ## One value -/

/-- A value is read from behind white space. -/
theorem value_skip_space (fuel : Nat) (text : List Char) :
    value fuel (skipSpace text) = value fuel text := by
  cases fuel with
  | zero => rfl
  | succ fuel => rw [value.eq_def, value.eq_def (fuel + 1) text, skip_space_skip]

/-- Items are read from behind white space. -/
theorem items_skip_space (fuel : Nat) (text : List Char) :
    items fuel (skipSpace text) = items fuel text := by
  cases fuel with
  | zero => rfl
  | succ fuel => rw [items, items, value_skip_space]

/-- Members are read from behind white space. -/
theorem members_skip_space (fuel : Nat) (text : List Char) :
    members fuel (skipSpace text) = members fuel text := by
  cases fuel with
  | zero => rfl
  | succ fuel => rw [members, members, skip_space_skip]

/-- Where a number could begin, a number is read. -/
theorem value_of_sign {c : Char} (hc : c = '-' ∨ c.isDigit = true) :
    value (fuel + 1) (c :: text) = numberOf (c :: text) := by
  have hno {d : Char} {other : List Char} (heq : c :: text = d :: other) (hsign : d ≠ '-')
      (hdigit : d.isDigit = false) : False :=
    ne_of_sign hc hsign hdigit (List.cons.inj heq).1
  have hsome : (c == '-' || c.isDigit) = true := by
    rw [Bool.or_eq_true, beq_iff_eq]
    exact hc
  rw [value.eq_def]
  simp only [skip_space_cons (not_space_of_sign hc)]
  split
  next heq => cases heq
  next heq => exact (hno heq (by decide) (by decide)).elim
  next heq => exact (hno heq (by decide) (by decide)).elim
  next heq => exact (hno heq (by decide) (by decide)).elim
  next heq => exact (hno heq (by decide) (by decide)).elim
  next heq => exact (hno heq (by decide) (by decide)).elim
  next heq => exact (hno heq (by decide) (by decide)).elim
  next heq =>
    obtain ⟨rfl, rfl⟩ := List.cons.inj heq
    rw [if_pos hsome]

/-- A text of a string is read as the string. -/
theorem value_of_literal {l : Literal} (h : l.Spelled text) (rest : List Char) :
    value (fuel + 1) (text ++ rest) = (string l, some rest) := by
  have hstop : l.stop = none := h.1
  obtain ⟨body, rfl, hread⟩ := literal_of_spelled h
  rw [List.cons_append, value.eq_def]
  simp only [skip_space_cons (show isSpace '"' = false by decide), hread, hstop,
    Option.isNone_none, if_true]

/-- `v.ReadsFrom text` says that the value is read from the text up to white space, whatever comes
behind it, unless that goes on with a number. -/
def ReadsFrom (v : Json) (text : List Char) : Prop :=
  ∀ (fuel : Nat) (rest : List Char), 2 * text.length ≤ fuel → EndsNumber rest →
    ∃ left, value fuel (text ++ rest) = (v, some left) ∧ skipSpace left = skipSpace rest

/-- Behind white space, a comma or a closing bracket no number goes on. -/
theorem ends_number_cons {c : Char} (h : c.isDigit = false ∧ c ≠ '.' ∧ c ≠ 'e' ∧ c ≠ 'E') :
    EndsNumber (c :: rest) := by
  intro d hd
  obtain rfl : c = d := Option.some.inj hd
  exact h

/-- A value may have white space before it. -/
theorem ReadsFrom.space_before {c : Char} (h : v.ReadsFrom text) (hc : isSpace c = true) :
    v.ReadsFrom (c :: text) := by
  intro fuel rest hfuel hrest
  have hskip : skipSpace (c :: (text ++ rest)) = skipSpace (text ++ rest) :=
    skip_space_append (List.forall_mem_singleton.mpr hc) _
  rw [List.cons_append, ← value_skip_space, hskip, value_skip_space]
  exact h fuel rest (Nat.le_trans (Nat.mul_le_mul_left 2 (Nat.le_succ _)) hfuel) hrest

/-- A value may have white space behind it. -/
theorem ReadsFrom.space_behind {c : Char} (h : v.ReadsFrom text) (hc : isSpace c = true) :
    v.ReadsFrom (text ++ [c]) := by
  intro fuel rest hfuel hrest
  have hends : EndsNumber (c :: rest) := by
    simp only [isSpace, Bool.or_eq_true, beq_iff_eq] at hc
    rcases hc with ((rfl | rfl) | rfl) | rfl <;> exact ends_number_cons (by decide)
  have hskip : skipSpace (c :: rest) = skipSpace rest :=
    skip_space_append (List.forall_mem_singleton.mpr hc) rest
  rw [List.length_append] at hfuel
  obtain ⟨left, hread, hleft⟩ := h fuel (c :: rest) (by omega) hends
  rw [List.append_assoc]
  exact ⟨left, hread, hleft.trans hskip⟩

/-! ## Arrays and objects -/

/-- The items of an array are read up to its closing bracket. -/
theorem items_of_spelled {parts : List (Json × List Char)} (hne : parts ≠ [])
    (hread : ∀ p ∈ parts, p.1.ReadsFrom p.2)
    (hfuel : 2 * ([','].intercalate (parts.map Prod.snd)).length + 2 ≤ fuel) :
    items fuel ([','].intercalate (parts.map Prod.snd) ++ ']' :: rest) =
      (parts.map Prod.fst, none, some rest) := by
  induction parts generalizing fuel with
  | nil => exact absurd rfl hne
  | cons part later ih =>
      obtain ⟨hpart, hlater⟩ := List.forall_mem_cons.mp hread
      obtain ⟨fuel, rfl⟩ := Nat.exists_eq_add_one.mpr (show 0 < fuel by omega)
      cases later with
      | nil =>
          rw [List.map_singleton, List.intercalate_singleton] at hfuel ⊢
          obtain ⟨left, hvalue, hleft⟩ :=
            hpart fuel (']' :: rest) (by omega) (ends_number_cons (by decide))
          rw [skip_space_cons (by decide)] at hleft
          rw [items]
          simp only [hvalue, hleft]
          rfl
      | cons second later =>
          rw [List.map_cons, List.map_cons, List.intercalate_cons_cons] at hfuel ⊢
          rw [List.length_append, List.length_append, List.length_singleton] at hfuel
          obtain ⟨left, hvalue, hleft⟩ := hpart fuel
            (',' :: ([','].intercalate (second.2 :: later.map Prod.snd) ++ ']' :: rest)) (by omega)
            (ends_number_cons (by decide))
          have hothers : items fuel ([','].intercalate (second.2 :: later.map Prod.snd) ++
              ']' :: rest) = ((second :: later).map Prod.fst, none, some rest) :=
            ih (List.cons_ne_nil _ _) hlater (by rw [List.map_cons]; omega)
          rw [skip_space_cons (by decide)] at hleft
          rw [List.append_assoc, List.append_assoc, List.singleton_append, items]
          simp only [hvalue, hleft, hothers]
          rfl

/-- What is read behind a member, where a mark says whether others follow. -/
def membersBehind (fuel : Nat) (member : Literal × Json) :
    List Char → List (Literal × Json) × Option Fault × Option (List Char)
  | ',' :: rest =>
      let (read, stop, rest) := members fuel rest
      (member :: read, stop, rest)
  | '}' :: rest => ([member], none, some rest)
  | [] => ([member], some .ended, none)
  | _ => ([member], some .malformed, none)

/-- A member is read up to the mark behind it. -/
theorem members_first {m : SpelledMember} (hname : (string m.name).Spelled m.nameText)
    (hvalue : m.value.ReadsFrom m.valueText) (hfuel : 2 * m.valueText.length ≤ fuel) {mark : Char}
    (hmark : isSpace mark = false ∧ mark.isDigit = false ∧ mark ≠ '.' ∧ mark ≠ 'e' ∧ mark ≠ 'E') :
    members (fuel + 1) (m.text ++ mark :: rest) = membersBehind fuel m.member (mark :: rest) := by
  obtain ⟨before, text, behind, hbefore, hbehind, hl, htext⟩ := hname.literal
  have hclosed : m.name.stop = none := hl.1
  obtain ⟨body, rfl, hread⟩ := literal_of_spelled hl
  obtain ⟨left, hvalue, hleft⟩ := hvalue fuel (mark :: rest) hfuel (ends_number_cons hmark.2)
  have hfirst : skipSpace (m.text ++ mark :: rest) =
      '"' :: (body ++ (behind ++ ':' :: (m.valueText ++ mark :: rest))) := by
    simp only [SpelledMember.text, htext, List.append_assoc, List.cons_append]
    rw [skip_space_append hbefore, skip_space_cons (by decide)]
  have hcolon : skipSpace (behind ++ ':' :: (m.valueText ++ mark :: rest)) =
      ':' :: (m.valueText ++ mark :: rest) := by
    rw [skip_space_append hbehind, skip_space_cons (by decide)]
  rw [skip_space_cons hmark.1] at hleft
  rw [members]
  simp only [hfirst, hread, hclosed, Option.isSome_none, Bool.false_eq_true, if_false, hcolon,
    hvalue, hleft]
  rfl

/-- The members of an object are read up to its closing brace. -/
theorem members_of_spelled {parts : List SpelledMember} (hne : parts ≠ [])
    (hnames : ∀ p ∈ parts, (string p.name).Spelled p.nameText)
    (hread : ∀ p ∈ parts, p.value.ReadsFrom p.valueText)
    (hfuel : 2 * ([','].intercalate (parts.map SpelledMember.text)).length + 2 ≤ fuel) :
    members fuel ([','].intercalate (parts.map SpelledMember.text) ++ '}' :: rest) =
      (parts.map SpelledMember.member, none, some rest) := by
  have hvalue (p : SpelledMember) : p.valueText.length < p.text.length := by
    rw [SpelledMember.text, List.length_append, List.length_cons]
    omega
  induction parts generalizing fuel with
  | nil => exact absurd rfl hne
  | cons part later ih =>
      obtain ⟨hname, hnames⟩ := List.forall_mem_cons.mp hnames
      obtain ⟨hpart, hlater⟩ := List.forall_mem_cons.mp hread
      obtain ⟨fuel, rfl⟩ := Nat.exists_eq_add_one.mpr (show 0 < fuel by omega)
      have hshort := hvalue part
      cases later with
      | nil =>
          rw [List.map_singleton, List.intercalate_singleton] at hfuel ⊢
          exact members_first hname hpart (by omega) (by decide)
      | cons second later =>
          rw [List.map_cons, List.map_cons, List.intercalate_cons_cons] at hfuel ⊢
          rw [List.length_append, List.length_append, List.length_singleton] at hfuel
          have hothers : members fuel ([','].intercalate (second.text ::
              later.map SpelledMember.text) ++ '}' :: rest) =
                ((second :: later).map SpelledMember.member, none, some rest) :=
            ih (List.cons_ne_nil _ _) hnames hlater (by rw [List.map_cons]; omega)
          rw [List.append_assoc, List.append_assoc, List.singleton_append,
            members_first hname hpart (by omega) (by decide)]
          simp only [membersBehind, hothers]
          rfl

/-- The texts of arrays are read. -/
theorem reads_from_array {parts : List (Json × List Char)} (hne : parts ≠ [])
    (hspelled : ∀ p ∈ parts, p.1.Spelled p.2) (hread : ∀ p ∈ parts, p.1.ReadsFrom p.2) :
    (array (parts.map Prod.fst) none).ReadsFrom
      ('[' :: ([','].intercalate (parts.map Prod.snd) ++ [']'])) := by
  intro fuel rest hfuel hrest
  rw [List.length_cons, List.length_append, List.length_singleton] at hfuel
  obtain ⟨fuel, rfl⟩ := Nat.exists_eq_add_one.mpr (show 0 < fuel by omega)
  have hitems : items fuel (skipSpace ([','].intercalate (parts.map Prod.snd) ++ ']' :: rest)) =
      (parts.map Prod.fst, none, some rest) := by
    rw [items_skip_space]
    exact items_of_spelled hne hread (by omega)
  -- The first item does not begin like the end of an empty array.
  have hhead : ∃ c later, skipSpace ([','].intercalate (parts.map Prod.snd) ++ ']' :: rest) =
      c :: later ∧ c ≠ ']' := by
    obtain ⟨first, later, rfl⟩ := List.exists_cons_of_ne_nil hne
    have hfirst := (hspelled first List.mem_cons_self).head
    cases later with
    | nil =>
        rw [List.map_singleton, List.intercalate_singleton]
        exact hfirst _
    | cons second later =>
        rw [List.map_cons, List.map_cons, List.intercalate_cons_cons, List.append_assoc,
          List.append_assoc]
        exact hfirst _
  obtain ⟨c, later, hhead, hc⟩ := hhead
  refine ⟨rest, ?_, rfl⟩
  rw [hhead] at hitems
  rw [List.cons_append, List.append_assoc, List.singleton_append, value.eq_def]
  simp only [skip_space_cons (show isSpace '[' = false by decide), hhead]
  split
  next heq => exact absurd (List.cons.inj heq).1 hc
  next heq => cases heq
  next => rw [hitems]

/-- The texts of objects are read. -/
theorem reads_from_object {parts : List SpelledMember} (hne : parts ≠ [])
    (hnames : ∀ p ∈ parts, (string p.name).Spelled p.nameText)
    (hread : ∀ p ∈ parts, p.value.ReadsFrom p.valueText) :
    (object (parts.map SpelledMember.member) none).ReadsFrom
      ('{' :: ([','].intercalate (parts.map SpelledMember.text) ++ ['}'])) := by
  intro fuel rest hfuel hrest
  rw [List.length_cons, List.length_append, List.length_singleton] at hfuel
  obtain ⟨fuel, rfl⟩ := Nat.exists_eq_add_one.mpr (show 0 < fuel by omega)
  have hmembers : members fuel
      (skipSpace ([','].intercalate (parts.map SpelledMember.text) ++ '}' :: rest)) =
        (parts.map SpelledMember.member, none, some rest) := by
    rw [members_skip_space]
    exact members_of_spelled hne hnames hread (by omega)
  -- The name of the first member begins with a quote.
  have hhead : ∃ later, skipSpace ([','].intercalate (parts.map SpelledMember.text) ++
      '}' :: rest) = '"' :: later := by
    obtain ⟨first, later, rfl⟩ := List.exists_cons_of_ne_nil hne
    obtain ⟨before, text, behind, hbefore, -, hl, htext⟩ :=
      (hnames first List.mem_cons_self).literal
    obtain ⟨body, rfl, -⟩ := literal_of_spelled hl
    have hfirst (others : List Char) : ∃ later, skipSpace (first.text ++ others) = '"' :: later := by
      simp only [SpelledMember.text, htext, List.append_assoc, List.cons_append]
      rw [skip_space_append hbefore, skip_space_cons (by decide)]
      exact ⟨_, rfl⟩
    cases later with
    | nil =>
        rw [List.map_singleton, List.intercalate_singleton]
        exact hfirst _
    | cons second later =>
        rw [List.map_cons, List.map_cons, List.intercalate_cons_cons, List.append_assoc,
          List.append_assoc]
        exact hfirst _
  obtain ⟨later, hhead⟩ := hhead
  refine ⟨rest, ?_, rfl⟩
  rw [hhead] at hmembers
  rw [List.cons_append, List.append_assoc, List.singleton_append, value.eq_def]
  simp only [skip_space_cons (show isSpace '{' = false by decide), hhead]
  split
  next heq => exact absurd (List.cons.inj heq).1 (by decide)
  next => rw [hmembers]

/-! ## Whole texts -/

/-- A value is read from each of its texts. -/
theorem Spelled.reads_from (h : v.Spelled text) : v.ReadsFrom text := by
  induction h with
  | spaceBefore hc h ih => exact ih.space_before hc
  | spaceBehind hc h ih => exact ih.space_behind hc
  | null =>
      intro fuel rest hfuel hrest
      obtain ⟨fuel, rfl⟩ := Nat.exists_eq_add_one.mpr (Nat.lt_of_lt_of_le (by decide) hfuel)
      exact ⟨rest, rfl, rfl⟩
  | bool value =>
      intro fuel rest hfuel hrest
      cases value with
      | true | false =>
          obtain ⟨fuel, rfl⟩ := Nat.exists_eq_add_one.mpr (Nat.lt_of_lt_of_le (by decide) hfuel)
          exact ⟨rest, rfl, rfl⟩
  | number hn =>
      intro fuel rest hfuel hrest
      have hread := number_of_spelled hn hrest
      obtain ⟨c, later, rfl, hc⟩ := head_of_numeral hn
      obtain ⟨fuel, rfl⟩ := Nat.exists_eq_add_one.mpr
        (Nat.lt_of_lt_of_le (Nat.mul_pos Nat.two_pos (Nat.succ_pos _)) hfuel)
      refine ⟨rest, ?_, rfl⟩
      rw [List.cons_append, value_of_sign hc]
      exact hread
  | string hl =>
      intro fuel rest hfuel hrest
      have hne : 0 < fuel := by
        obtain ⟨body, rfl, -⟩ := literal_of_spelled hl
        exact Nat.lt_of_lt_of_le (Nat.mul_pos Nat.two_pos (Nat.succ_pos _)) hfuel
      obtain ⟨fuel, rfl⟩ := Nat.exists_eq_add_one.mpr hne
      exact ⟨rest, value_of_literal hl rest, rfl⟩
  | @emptyArray space hspace =>
      intro fuel rest hfuel hrest
      obtain ⟨fuel, rfl⟩ := Nat.exists_eq_add_one.mpr
        (Nat.lt_of_lt_of_le (Nat.mul_pos Nat.two_pos (Nat.succ_pos _)) hfuel)
      have hclosing : skipSpace (space ++ ']' :: rest) = ']' :: rest := by
        rw [skip_space_append hspace, skip_space_cons (by decide)]
      refine ⟨rest, ?_, rfl⟩
      rw [List.cons_append, List.append_assoc, List.singleton_append, value.eq_def]
      simp only [skip_space_cons (show isSpace '[' = false by decide), hclosing]
  | array hne h ih => exact reads_from_array hne h ih
  | @emptyObject space hspace =>
      intro fuel rest hfuel hrest
      obtain ⟨fuel, rfl⟩ := Nat.exists_eq_add_one.mpr
        (Nat.lt_of_lt_of_le (Nat.mul_pos Nat.two_pos (Nat.succ_pos _)) hfuel)
      have hclosing : skipSpace (space ++ '}' :: rest) = '}' :: rest := by
        rw [skip_space_append hspace, skip_space_cons (by decide)]
      refine ⟨rest, ?_, rfl⟩
      rw [List.cons_append, List.append_assoc, List.singleton_append, value.eq_def]
      simp only [skip_space_cons (show isSpace '{' = false by decide), hclosing]
  | object hne hnames h _ ih => exact reads_from_object hne hnames ih

/-- A text of a value is read as the value, and nothing but white space is left of it. -/
theorem read_of_spelled (h : v.Spelled text) :
    ∃ left, read text = (v, some left) ∧ skipSpace left = [] := by
  have hread := h.reads_from (2 * text.length + 2) [] (by omega) nofun
  rw [List.append_nil] at hread
  exact hread

/-! ## Written values -/

/-- What is written for the items of an array, up to its closing bracket. -/
theorem render_items_eq {list : List Json} (hne : list ≠ []) :
    renderItems list = [','].intercalate (list.map renderChars) ++ [']'] := by
  induction list with
  | nil => exact absurd rfl hne
  | cons item later ih =>
      cases later with
      | nil => rw [renderItems, List.map_singleton, List.intercalate_singleton]
      | cons second later =>
          rw [renderItems, ih (List.cons_ne_nil _ _)]
          · simp only [List.map_cons, List.intercalate_cons_cons, List.append_assoc,
              List.cons_append, List.nil_append]
          · exact List.cons_ne_nil _ _

/-- The member with its name and its value as they are written. -/
def writtenMember (m : Literal × Json) : SpelledMember :=
  ⟨m.1, renderLiteral m.1, m.2, renderChars m.2⟩

/-- What is written for the members of an object, up to its closing brace. -/
theorem render_members_eq {list : List (Literal × Json)} (hne : list ≠ []) :
    renderMembers list =
      [','].intercalate ((list.map writtenMember).map SpelledMember.text) ++ ['}'] := by
  induction list with
  | nil => exact absurd rfl hne
  | cons member later ih =>
      obtain ⟨name, item⟩ := member
      cases later with
      | nil =>
          rw [renderMembers, List.map_singleton, List.map_singleton, List.intercalate_singleton,
            SpelledMember.text, List.append_assoc]
          rfl
      | cons second later =>
          rw [renderMembers, ih (List.cons_ne_nil _ _)]
          · simp only [List.map_cons, List.intercalate_cons_cons, writtenMember,
              SpelledMember.text, List.append_assoc, List.cons_append, List.nil_append]
          · exact List.cons_ne_nil _ _

/-- What is written for a complete value is a text of it. -/
theorem Complete.spelled (h : v.Complete) : v.Spelled (renderChars v) := by
  induction h with
  | null => exact .null
  | bool value => cases value <;> exact .bool _
  | number hn => exact .number hn.spelled
  | string hl => exact .string hl.spelled
  | @array list h ih =>
      cases list with
      | nil =>
          show Spelled _ ('[' :: ([] ++ [']']))
          exact .emptyArray nofun
      | cons item later =>
          have hspelled := @Spelled.array ((item :: later).map fun item => (item, renderChars item))
            (List.cons_ne_nil _ _) (List.forall_mem_map.mpr ih)
          have hitems : ((item :: later).map fun item => (item, renderChars item)).map Prod.fst =
              item :: later := by
            rw [List.map_map]
            exact List.map_id _
          rw [hitems, List.map_map] at hspelled
          rw [renderChars, render_items_eq (List.cons_ne_nil _ _)]
          exact hspelled
  | @object list hnames h ih =>
      cases list with
      | nil =>
          show Spelled _ ('{' :: ([] ++ ['}']))
          exact .emptyObject nofun
      | cons member later =>
          have hspelled := @Spelled.object ((member :: later).map writtenMember)
            (List.cons_ne_nil _ _)
            (List.forall_mem_map.mpr fun m hm => .string (hnames m hm).spelled)
            (List.forall_mem_map.mpr ih)
          have hmembers : ((member :: later).map writtenMember).map SpelledMember.member =
              member :: later := by
            rw [List.map_map]
            exact List.map_id _
          rw [hmembers] at hspelled
          rw [renderChars, render_members_eq (List.cons_ne_nil _ _)]
          exact hspelled

end

end BulkLoad.Json
