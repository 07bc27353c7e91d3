import BulkLoad.Proofs.Source.Tokens

/-!
# What a condition says of a row

A condition is read off its tokens with the usual precedence: outside parentheses it is divided at
each `OR`, what lies between at each `AND`, and a part that is wholly in parentheses is a condition
again. `holds_tokens` says that a condition that is built from atomic ones, and written with
parentheses only where the precedence needs them, is read as what it was built from. Two conditions
whose texts are joined by `AND` are read as `graft` has it: the connective takes the last
alternative of the one and the first of the other.
-/

namespace BulkLoad.Sql

/-! ## Division at connectives -/

/-- Whether a token opens a group. -/
def Token.opens : Token → Bool
  | .opening | .keyword .case => true
  | _ => false

/-- Whether a token closes a group. -/
def Token.closes : Token → Bool
  | .closing | .keyword .finish => true
  | _ => false

/-- Where a token stands: in how many groups, and whether a `BETWEEN` awaits its `AND`. -/
structure Place where
  depth : Nat := 0
  awaiting : Bool := false
deriving DecidableEq

namespace Place

/-- The place after a token. -/
def after (p : Place) (t : Token) : Place :=
  if t.opens then { p with depth := p.depth + 1 }
  else if t.closes then { p with depth := p.depth - 1 }
  else if p.depth = 0 ∧ t = .keyword .between then { p with awaiting := true }
  else if p.depth = 0 ∧ t = .keyword .and then { p with awaiting := false }
  else p

/-- Whether a token is a keyword outside groups that does not complete a `BETWEEN`. -/
def separates (p : Place) (k : Keyword) (t : Token) : Bool :=
  t = .keyword k && p.depth = 0 && !(p.awaiting && k = .and)

/-- Whether tokens close all that they open and nothing else, and have none of these keywords
outside groups. -/
def avoids (ks : List Keyword) : Place → List Token → Bool
  | p, [] => p = {}
  | p, t :: ts =>
      !(t.closes && p.depth = 0) && !(ks.any (p.separates · t)) && avoids ks (p.after t) ts

/-- The parts between the keywords outside groups. -/
def cut (k : Keyword) : Place → List Token → List (List Token)
  | _, [] => [[]]
  | p, t :: ts =>
      if p.separates k t then [] :: cut k (p.after t) ts
      else
        match cut k (p.after t) ts with
        | [] => [[t]]
        | part :: parts => (t :: part) :: parts

end Place

/-- Whether tokens are complete and have none of these keywords outside groups. -/
def free (ks : List Keyword) (ts : List Token) : Bool := Place.avoids ks {} ts

/-- The parts between the keywords outside groups of complete tokens. -/
def parts (k : Keyword) (ts : List Token) : List (List Token) := Place.cut k {} ts

/-- What is wholly in parentheses, without them. -/
def unwrap? : List Token → Option (List Token)
  | .opening :: ts =>
      if ts.getLast? = some .closing ∧ free [] ts.dropLast then some ts.dropLast else none
  | _ => none

namespace Place

/-- Complete tokens after complete tokens are complete. -/
theorem avoids_append {ks : List Keyword} {p : Place} {front rest : List Token}
    (hfront : avoids ks p front) (hrest : avoids ks {} rest) : avoids ks p (front ++ rest) := by
  induction front generalizing p with
  | nil =>
      obtain rfl := of_decide_eq_true hfront
      exact hrest
  | cons t front ih =>
      obtain ⟨hhere, hfront⟩ := Bool.and_eq_true_iff.mp hfront
      exact Bool.and_eq_true_iff.mpr ⟨hhere, ih hfront⟩

/-- Fewer keywords are avoided with them. -/
theorem avoids_of_subset {ks others : List Keyword} {p : Place} {ts : List Token}
    (hts : avoids ks p ts) (hothers : others ⊆ ks) : avoids others p ts := by
  induction ts generalizing p with
  | nil => exact hts
  | cons t ts ih =>
      simp only [avoids, Bool.and_eq_true, Bool.not_eq_true', List.any_eq_false] at hts ⊢
      exact ⟨⟨hts.1.1, fun k hk => hts.1.2 k (hothers hk)⟩, ih hts.2⟩

/-- Within a group complete tokens leave the place as it was. -/
theorem after_inner {p : Place} {t : Token} (hcloses : (t.closes && p.depth = 0) = false)
    (awaiting : Bool) : after ⟨p.depth + 1, awaiting⟩ t = ⟨(p.after t).depth + 1, awaiting⟩ := by
  unfold after
  by_cases hopen : t.opens
  · simp only [hopen, if_true]
  · by_cases hclose : t.closes
    · have hdepth : p.depth ≠ 0 := by simpa [hclose] using hcloses
      simp only [hopen, hclose, if_true, if_false, Bool.false_eq_true]
      congr 1
      omega
    · have hdepth : ∀ other : Token, ¬(p.depth + 1 = 0 ∧ t = other) := by omega
      simp only [hopen, hclose, if_false, Bool.false_eq_true, hdepth]
      split
      · rfl
      · split <;> rfl

/-- Within a group nothing separates, and what is complete can be followed by the end of the
group. -/
theorem avoids_inner {ks others : List Keyword} {p : Place} {ts : List Token}
    (hts : avoids ks p ts) (awaiting : Bool) (rest : List Token) :
    avoids others ⟨p.depth + 1, awaiting⟩ (ts ++ .closing :: rest) =
      avoids others ⟨0, awaiting⟩ rest := by
  induction ts generalizing p with
  | nil =>
      obtain rfl := of_decide_eq_true hts
      have hnone : (others.any fun k => separates ⟨1, awaiting⟩ k .closing) = false :=
        List.any_eq_false.mpr fun k _ => by simp [separates]
      simp only [List.nil_append, avoids, hnone]
      rfl
  | cons t ts ih =>
      simp only [avoids, Bool.and_eq_true, Bool.not_eq_true'] at hts
      have hnone : (others.any fun k => separates ⟨p.depth + 1, awaiting⟩ k t) = false :=
        List.any_eq_false.mpr fun k _ => by simp [separates]
      rw [List.cons_append, avoids, hnone, after_inner hts.1.1, ih hts.2]
      simp

/-- There is always a part. -/
theorem cut_ne_nil (k : Keyword) (p : Place) (ts : List Token) : cut k p ts ≠ [] := by
  cases ts with
  | nil => nofun
  | cons t ts =>
      rw [cut]
      split
      · nofun
      · split <;> nofun

/-- Without a separator there is one part. -/
theorem cut_of_avoids {ks : List Keyword} {k : Keyword} {p : Place} {ts : List Token}
    (hts : avoids ks p ts) (hk : k ∈ ks) : cut k p ts = [ts] := by
  induction ts generalizing p with
  | nil => rfl
  | cons t ts ih =>
      simp only [avoids, Bool.and_eq_true, Bool.not_eq_true', List.any_eq_false] at hts
      rw [cut, if_neg (hts.1.2 k hk), ih hts.2]

/-- A separator outside groups divides the parts before it from those after it. -/
theorem cut_append {ks : List Keyword} {k : Keyword} {p : Place} {front : List Token}
    (hfront : avoids ks p front) {t : Token} (ht : separates {} k t) (rest : List Token) :
    cut k p (front ++ t :: rest) = cut k p front ++ cut k (after {} t) rest := by
  induction front generalizing p with
  | nil =>
      obtain rfl := of_decide_eq_true hfront
      rw [List.nil_append, cut, cut, if_pos ht]
      rfl
  | cons other front ih =>
      simp only [avoids, Bool.and_eq_true] at hfront
      rw [List.cons_append, cut, cut, ih hfront.2]
      split
      · rfl
      · cases hcut : cut k (p.after other) front with
        | nil => exact absurd hcut (cut_ne_nil _ _ _)
        | cons part others => rfl

/-- A part is no longer than the whole. -/
theorem length_of_cut {k : Keyword} {p : Place} {ts part : List Token}
    (hpart : part ∈ cut k p ts) : part.length ≤ ts.length := by
  induction ts generalizing p part with
  | nil => simp_all [cut]
  | cons t ts ih =>
      rw [cut] at hpart
      split at hpart
      · obtain rfl | hpart := List.mem_cons.mp hpart
        · exact Nat.zero_le _
        · exact Nat.le_succ_of_le (ih hpart)
      · split at hpart
        · obtain rfl := List.mem_singleton.mp hpart
          exact Nat.succ_le_succ (Nat.zero_le _)
        · rename_i first others hcut
          obtain rfl | hpart := List.mem_cons.mp hpart
          · exact Nat.succ_le_succ (ih (hcut ▸ List.mem_cons_self))
          · exact Nat.le_succ_of_le (ih (hcut ▸ List.mem_cons_of_mem _ hpart))

end Place

/-- Taking parentheses away leaves less. -/
theorem length_of_unwrap {ts inner : List Token} (hinner : unwrap? ts = some inner) :
    inner.length < ts.length := by
  unfold unwrap? at hinner
  split at hinner
  case h_1 ts =>
    split at hinner
    · cases hinner
      rw [List.length_dropLast, List.length_cons]
      omega
    · cases hinner
  case h_2 => cases hinner

/-! ## Rows -/

/-- The condition that every row meets. -/
def always : List Token := [.word ['1'], .operator ['='], .word ['1']]

/-- A row as a condition sees it: the value of each expression, which is absent for `NULL`, the
order of values, and whether it meets each atomic condition of another form. -/
structure Row where
  value : List Token → Option String
  exceeds : String → String → Bool
  satisfies : List Token → Bool

namespace Row

/-- Whether the value of an expression is greater than a literal. -/
def beyond (row : Row) (expression : List Token) (mark : String) : Bool :=
  (row.value expression).any (row.exceeds · mark)

/-- Whether an atomic condition is true of the row. -/
def meets (row : Row) (ts : List Token) : Bool :=
  match ts.reverse with
  | .quoted .single mark :: .operator ['>'] :: expression =>
      row.beyond expression.reverse (String.ofList mark)
  | _ => ts = always || row.satisfies ts

/-- Whether a condition is true of the row: one of its alternatives has none but true factors. -/
def holds (row : Row) (ts : List Token) : Bool :=
  (parts .or ts).attach.any fun alternative =>
    (parts .and alternative.val).attach.all fun factor =>
      match _ : unwrap? factor.val with
      | some inner => row.holds inner
      | none => row.meets factor.val
termination_by ts.length
decreasing_by
  calc
    inner.length < factor.val.length := length_of_unwrap ‹_›
    _ ≤ alternative.val.length := Place.length_of_cut factor.property
    _ ≤ ts.length := Place.length_of_cut alternative.property

/-- Whether a factor is true of the row. -/
def holdsFactor (row : Row) (ts : List Token) : Bool :=
  match unwrap? ts with
  | some inner => row.holds inner
  | none => row.meets ts

/-- Whether all factors are true of the row. -/
def holdsAlternative (row : Row) (ts : List Token) : Bool := (parts .and ts).all row.holdsFactor

theorem holds_eq (row : Row) (ts : List Token) :
    row.holds ts = (parts .or ts).any row.holdsAlternative := by
  have hany : ∀ (l : List (List Token)) (f : List Token → Bool),
      (l.attach.any fun x => f x.val) = l.any f := fun l f =>
    List.any_map.symm.trans (congrArg (List.any · f) (List.attach_map_subtype_val l))
  have hall : ∀ (l : List (List Token)) (f : List Token → Bool),
      (l.attach.all fun x => f x.val) = l.all f := fun l f =>
    List.all_map.symm.trans (congrArg (List.all · f) (List.attach_map_subtype_val l))
  rw [holds, ← hany]
  congr 1
  funext alternative
  rw [holdsAlternative, ← hall]
  congr 1
  funext factor
  rw [holdsFactor]
  split <;> simp_all only

end Row

/-! ## Conditions -/

/-- An atomic condition: complete tokens, not wholly in parentheses, without connectives outside
groups and without the words that bound a condition. -/
structure Atom where
  tokens : List Token
  nonempty : tokens ≠ []
  free : free [.and, .or, .condition, .order] tokens
  bare : unwrap? tokens = none

/-- A condition that is built from atomic ones. -/
inductive Condition
  | atom (atom : Atom)
  | and (left right : Condition)
  | or (left right : Condition)

namespace Condition

/-- Whether a condition is a choice between alternatives. -/
def isOr : Condition → Bool
  | .or _ _ => true
  | _ => false

/-- Put a choice into parentheses. -/
def enclose (c : Condition) (ts : List Token) : List Token :=
  if c.isOr then .opening :: ts ++ [.closing] else ts

/-- The tokens of a condition, with parentheses where the precedence needs them. -/
def tokens : Condition → List Token
  | .atom a => a.tokens
  | .and l r => l.enclose l.tokens ++ .keyword .and :: r.enclose r.tokens
  | .or l r => l.tokens ++ .keyword .or :: r.tokens

/-- The tokens of a condition as a factor. -/
def factor (c : Condition) : List Token := c.enclose c.tokens

/-- Whether a condition is true of a row. -/
def isTrue (row : Row) : Condition → Bool
  | .atom a => row.meets a.tokens
  | .and l r => l.isTrue row && r.isTrue row
  | .or l r => l.isTrue row || r.isTrue row

/-- No alternative but the last is true of a row if this is not: whether one of the others is. -/
def isTrueEarly (row : Row) : Condition → Bool
  | .or l r => l.isTrue row || r.isTrueEarly row
  | _ => false

/-- A condition that is no choice, joined by `AND` to the first alternative of another. -/
def lead (c : Condition) : Condition → Condition
  | .or l r => .or (c.lead l) r
  | d => .and c d

/-- What the texts of two conditions say with `AND` between them: the last alternative of the one
and the first of the other are both required. -/
def graft : Condition → Condition → Condition
  | .or l r, d => .or l (r.graft d)
  | c, d => c.lead d

end Condition

/-! ## Texts and their conditions -/

/-- The keywords at which a statement is divided. -/
def Keyword.divides : Keyword → Bool
  | .and | .or | .condition | .order => true
  | _ => false

/-- Fewer keywords are avoided with them. -/
theorem free_of_subset {ks others : List Keyword} {ts : List Token} (hts : free ks ts)
    (hothers : others ⊆ ks) : free others ts :=
  Place.avoids_of_subset hts hothers

/-- Tokens that are joined by another keyword have none of these keywords if neither side has. -/
theorem free_join {ks : List Keyword} {k : Keyword} (hk : k.divides) (hother : k ∉ ks)
    {front rest : List Token} (hfront : free ks front) (hrest : free ks rest) :
    free ks (front ++ .keyword k :: rest) := by
  have hnone : (ks.any fun other => Place.separates {} other (.keyword k)) = false := by
    refine List.any_eq_false.mpr fun other hmem hsame => ?_
    simp only [Place.separates, Token.keyword.injEq, Bool.and_eq_true, decide_eq_true_eq] at hsame
    exact hother (hsame.1.1 ▸ hmem)
  have hafter : Place.after {} (.keyword k) = {} := by
    cases k <;> first | rfl | cases hk
  have hcloses : (Token.keyword k).closes = false := by
    cases k <;> first | rfl | cases hk
  refine Place.avoids_append hfront ?_
  rw [Place.avoids, hnone, hcloses, hafter]
  exact hrest

/-- A keyword outside groups divides the parts before it from those after it. -/
theorem parts_join {ks : List Keyword} {k : Keyword} (hk : k.divides) {front : List Token}
    (hfront : free ks front) (rest : List Token) :
    parts k (front ++ .keyword k :: rest) = parts k front ++ parts k rest := by
  have hafter : Place.after {} (.keyword k) = {} := by
    cases k <;> first | rfl | cases hk
  have hseparates : Place.separates {} k (.keyword k) = true := by
    simp [Place.separates]
  rw [parts, Place.cut_append hfront hseparates, hafter]
  rfl

/-- Without the keyword there is one part. -/
theorem parts_of_free {ks : List Keyword} {k : Keyword} {ts : List Token} (hts : free ks ts)
    (hk : k ∈ ks) : parts k ts = [ts] :=
  Place.cut_of_avoids hts hk

/-- What is in parentheses has no keywords outside groups. -/
theorem free_parenthesized {ts : List Token} (hts : free [] ts) (ks : List Keyword) :
    free ks (.opening :: ts ++ [.closing]) := by
  have hnone : (ks.any fun k => Place.separates {} k .opening) = false :=
    List.any_eq_false.mpr fun k _ => by simp [Place.separates]
  have hafter : Place.after {} .opening = ⟨1, false⟩ := rfl
  rw [free, List.cons_append, Place.avoids, hnone, hafter, Place.avoids_inner hts false []]
  rfl

/-- What is in parentheses is a condition again. -/
theorem unwrap_parenthesized {ts : List Token} (hts : free [] ts) :
    unwrap? (.opening :: ts ++ [.closing]) = some ts := by
  rw [List.cons_append, unwrap?, List.dropLast_concat, if_pos ⟨List.getLast?_concat, hts⟩]

namespace Condition

/-- A condition has no words outside groups that bound it, and as a factor no `OR` either. -/
theorem free_tokens (c : Condition) :
    free [.condition, .order] c.tokens ∧ free [.or, .condition, .order] c.factor := by
  induction c with
  | atom a => exact ⟨free_of_subset a.free (by decide), free_of_subset a.free (by decide)⟩
  | and l r hl hr =>
      have hfree : free [.or, .condition, .order] (tokens (.and l r)) :=
        free_join rfl (by decide) hl.2 hr.2
      exact ⟨free_of_subset hfree (by decide), hfree⟩
  | or l r hl hr =>
      have hfree : free [.condition, .order] (tokens (.or l r)) :=
        free_join rfl (by decide) hl.1 hr.1
      exact ⟨hfree, free_parenthesized (free_of_subset hfree (by decide)) _⟩

/-- A condition is complete. -/
theorem free_none (c : Condition) : free [] c.tokens :=
  free_of_subset c.free_tokens.1 (by decide)

/-- A condition is read as what it is built from, on its own and as a factor. -/
theorem holds_and_factor (row : Row) (c : Condition) :
    row.holds c.tokens = c.isTrue row ∧ row.holdsAlternative c.factor = c.isTrue row := by
  induction c with
  | atom a =>
      have halternative : row.holdsAlternative a.tokens = row.meets a.tokens := by
        rw [Row.holdsAlternative, parts_of_free a.free (by decide), List.all_cons, List.all_nil,
          Bool.and_true, Row.holdsFactor, a.bare]
      refine ⟨?_, halternative⟩
      rw [Row.holds_eq, tokens, parts_of_free a.free (by decide), List.any_cons, List.any_nil,
        Bool.or_false]
      exact halternative
  | and l r hl hr =>
      have halternative :
          row.holdsAlternative (tokens (.and l r)) = (l.isTrue row && r.isTrue row) := by
        rw [← hl.2, ← hr.2, Row.holdsAlternative, tokens, ← factor, ← factor,
          parts_join rfl l.free_tokens.2, List.all_append]
        rfl
      refine ⟨?_, halternative⟩
      have hfree : free [.or, .condition, .order] (tokens (.and l r)) := (free_tokens (.and l r)).2
      rw [Row.holds_eq, parts_of_free hfree (by decide), List.any_cons, List.any_nil,
        Bool.or_false]
      exact halternative
  | or l r hl hr =>
      have hholds : row.holds (tokens (.or l r)) = (l.isTrue row || r.isTrue row) := by
        rw [← hl.1, ← hr.1, Row.holds_eq, Row.holds_eq, Row.holds_eq, tokens,
          parts_join rfl l.free_tokens.1, List.any_append]
      refine ⟨hholds, ?_⟩
      have hfactor : factor (.or l r) = .opening :: tokens (.or l r) ++ [.closing] := rfl
      rw [Row.holdsAlternative, hfactor,
        parts_of_free (free_parenthesized (free_none _) [.and]) (by decide), List.all_cons,
        List.all_nil, Bool.and_true, Row.holdsFactor, unwrap_parenthesized (free_none _)]
      exact hholds

/-- A condition is read as what it is built from. -/
theorem holds_tokens (row : Row) (c : Condition) : row.holds c.tokens = c.isTrue row :=
  (c.holds_and_factor row).1

/-! ## Conditions that are joined -/

/-- A condition that is no choice needs no parentheses. -/
theorem factor_of_plain {c : Condition} (hc : c.isOr = false) : c.factor = c.tokens := by
  rw [factor, enclose, hc]
  rfl

theorem tokens_lead {c : Condition} (hc : c.isOr = false) (d : Condition) :
    (c.lead d).tokens = c.tokens ++ .keyword .and :: d.tokens := by
  induction d with
  | atom | and =>
      rw [lead]
      · exact congrArg (· ++ _) (factor_of_plain hc)
      · nofun
  | or l r hl hr =>
      rw [lead, tokens, hl, tokens, List.append_assoc]
      rfl

/-- The texts of two conditions with `AND` between them are the text of their graft. -/
theorem tokens_graft (c d : Condition) :
    (c.graft d).tokens = c.tokens ++ .keyword .and :: d.tokens := by
  induction c with
  | atom | and => exact tokens_lead rfl d
  | or l r hl hr =>
      rw [graft, tokens, hr, tokens, List.append_assoc]
      rfl

/-- A condition that is no choice has no alternative before the last. -/
theorem early_of_plain {row : Row} {c : Condition} (hc : c.isOr = false) :
    c.isTrueEarly row = false := by
  cases c with
  | atom | and => rfl
  | or => cases hc

/-- To be true with a condition that is no choice grafted on, a condition has to be true together
with it, unless an alternative before the last is true. -/
theorem true_of_graft (row : Row) (c : Condition) {d : Condition} (hd : d.isOr = false) :
    (c.graft d).isTrue row = (c.isTrue row && d.isTrue row || c.isTrueEarly row) := by
  have hlead : ∀ c : Condition, (c.lead d).isTrue row = (c.isTrue row && d.isTrue row) := by
    intro c
    cases d with
    | atom | and => rfl
    | or => cases hd
  induction c with
  | atom | and =>
      rw [graft, isTrueEarly, Bool.or_false]
      · exact hlead _
      · nofun
      · nofun
  | or l r hl hr =>
      rw [graft, isTrue, hr, isTrue, isTrueEarly]
      cases l.isTrue row <;> cases r.isTrue row <;> cases d.isTrue row <;> rfl

/-- Where both conditions are true, so is their graft. -/
theorem graft_of_both {row : Row} {c d : Condition} (hc : c.isTrue row) (hd : d.isTrue row) :
    (c.graft d).isTrue row := by
  have hlead : ∀ {c : Condition}, c.isTrue row → (c.lead d).isTrue row := by
    intro c hc
    induction d with
    | atom | and => exact Bool.and_eq_true_iff.mpr ⟨hc, hd⟩
    | or l r hl hr =>
        refine Bool.or_eq_true_iff.mpr ?_
        obtain hd | hd := Bool.or_eq_true_iff.mp hd
        · exact .inl (hl hd)
        · exact .inr hd
  induction c with
  | atom | and => exact hlead hc
  | or l r hl hr =>
      refine Bool.or_eq_true_iff.mpr ?_
      obtain hc | hc := Bool.or_eq_true_iff.mp hc
      · exact .inl hc
      · exact .inr (hr hc)

/-- Two conditions that are no choices are joined as a text with both of them says. -/
theorem graft_of_plain {c d : Condition} (hc : c.isOr = false) (hd : d.isOr = false) :
    c.graft d = .and c d := by
  cases c with
  | atom | and =>
      cases d with
      | atom | and => rfl
      | or => cases hd
  | or => cases hc

end Condition

end BulkLoad.Sql
