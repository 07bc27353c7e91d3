import BulkLoad.Proofs.Json.Records

/-!
# The order of members

Which members of a record are found, and whether it is accepted, does not depend on their order or
on members with unknown names between them. `layout.Rearranged inner v w` says that the members of a
record have been reordered and that others have been put between them, while their values may have
been changed as `inner` allows. If the decoders of the fields overlook these changes, so does the
decoder of the record (`Layout.members_of_rearranged`).
-/

namespace BulkLoad.Json

/-! ## Lists of named values -/

section

variable {α β : Type}

/-- In a list with different names the order does not matter to a look-up. -/
theorem lookup_of_perm {members others : List (String × α)} (h : others.Perm members)
    (hnames : (members.map Prod.fst).Nodup) (name : String) :
    others.lookup name = members.lookup name := by
  induction h with
  | nil => rfl
  | cons m _ ih =>
      rw [List.map_cons, List.nodup_cons] at hnames
      rw [List.lookup_cons, List.lookup_cons, ih hnames.2]
  | swap m n later =>
      simp only [List.map_cons, List.nodup_cons, List.mem_cons, not_or] at hnames
      have hne : m.1 ≠ n.1 := hnames.1.1
      obtain ⟨first, v⟩ := m
      obtain ⟨second, w⟩ := n
      rw [List.lookup_cons, List.lookup_cons, List.lookup_cons, List.lookup_cons]
      by_cases hfirst : name = first
      · have hsecond : (name == second) = false := beq_false_of_ne (hfirst ▸ hne)
        simp only [hsecond]
      · have hfirst : (name == first) = false := beq_false_of_ne hfirst
        simp only [hfirst]
  | trans hfirst hsecond ihfirst ihsecond =>
      exact (ihfirst ((hsecond.map Prod.fst).nodup_iff.mpr hnames)).trans (ihsecond hnames)

/-- Lists with the same names in the same order, whose values are related name by name. -/
def Related (r : String → α → β → Prop) : List (String × α) → List (String × β) → Prop :=
  List.Forall₂ fun m n => n.1 = m.1 ∧ r m.1 m.2 n.2

/-- Look-ups in lists whose values are related name by name are related. -/
theorem lookup_of_related {r : String → α → β → Prop} {members : List (String × α)}
    {others : List (String × β)} (h : Related r members others) (name : String) :
    Option.Rel (r name) (members.lookup name) (others.lookup name) := by
  induction h with
  | nil => exact .none
  | @cons m n members others hfirst _ ih =>
      obtain ⟨first, v⟩ := m
      obtain ⟨second, w⟩ := n
      obtain ⟨hname, hr⟩ := hfirst
      obtain rfl : second = first := hname
      rw [List.lookup_cons, List.lookup_cons]
      cases heq : name == second with
      | false => exact ih
      | true =>
          rw [eq_of_beq heq]
          exact .some hr

/-- Every element of the second of two related lists is related to one of the first. -/
theorem exists_of_related {r : α → β → Prop} {xs : List α} {ys : List β} (h : List.Forall₂ r xs ys)
    {y : β} (hy : y ∈ ys) : ∃ x ∈ xs, r x y := by
  induction h with
  | nil => cases hy
  | @cons x _ xs _ hfirst _ ih =>
      rcases List.mem_cons.mp hy with rfl | hy
      · exact ⟨x, List.mem_cons_self, hfirst⟩
      · obtain ⟨other, hother, hr⟩ := ih hy
        exact ⟨other, List.mem_cons_of_mem x hother, hr⟩

/-- Related lists have the same names. -/
theorem names_of_related {r : String → α → β → Prop} {members : List (String × α)}
    {others : List (String × β)} (h : Related r members others) :
    others.map Prod.fst = members.map Prod.fst := by
  induction h with
  | nil => rfl
  | cons hfirst _ ih => rw [List.map_cons, List.map_cons, hfirst.1, ih]

end

/-! ## Changes that are overlooked -/

/-- A decoder overlooks a change of values if it decodes from the changed value, provided that this
has no faults, what it decodes from the value itself. -/
def Overlooks {α : Type} (decode : Decoder α) (r : Json → Json → Prop) : Prop :=
  ∀ v w x, r v w → skip w = .ok () → decode v = .ok x → decode w = .ok x

/-- The items of an array have been changed one by one, or nothing has been changed. -/
inductive ItemsChanged (r : Json → Json → Prop) : Json → Json → Prop where
  | same (v : Json) : ItemsChanged r v v
  | array {items others : List Json} (h : List.Forall₂ r items others) :
      ItemsChanged r (array items none) (array others none)

/-- Members keep their names and their order while their values are changed as `inner` allows for
these names. -/
def ValuesChanged (inner : String → Json → Json → Prop) :
    List (Literal × Json) → List (Literal × Json) → Prop :=
  List.Forall₂ fun m n => n.1 = m.1 ∧ ∀ name, m.1.text = .ok name → inner name m.2 n.2

/-- Members with names that the layout does not know. -/
def Layout.Unknown (layout : Layout) (members : List (Literal × Json)) : Prop :=
  ∀ m ∈ members, ∃ name, m.1.text = .ok name ∧ layout.field? name = none

/-- The members of a record have been reordered, their values have been changed as `inner` allows
for their names, and members with unknown names have been put between them. A record that is given
as an array keeps its order. -/
inductive Layout.Rearranged (layout : Layout) (inner : String → Json → Json → Prop) :
    Json → Json → Prop where
  | same (v : Json) : Rearranged layout inner v v
  | array {items others : List Json}
      (h : List.Forall₂ (fun v w => ∀ field ∈ layout.fields, inner field.name v w) items others) :
      Rearranged layout inner (array items none) (array others none)
  | object {members changed extra others : List (Literal × Json)}
      (hchanged : ValuesChanged inner members changed) (hextra : layout.Unknown extra)
      (horder : others.Perm (changed ++ extra)) :
      Rearranged layout inner (object members none) (object others none)

/-- The members of an object that are given with their names can be rearranged. -/
theorem Layout.Rearranged.of_members {layout : Layout} {inner : String → Json → Json → Prop}
    {members others : List (String × Json)} (changed extra : List (String × Json))
    (hchanged : Related inner members changed)
    (hextra : ∀ m ∈ extra, layout.field? m.1 = none) (horder : others.Perm (changed ++ extra)) :
    layout.Rearranged inner (ofMembers members) (ofMembers others) := by
  let literal (m : String × Json) : Literal × Json := (Literal.ofString m.1, m.2)
  have hperm : (others.map literal).Perm (changed.map literal ++ extra.map literal) := by
    rw [← List.map_append]
    exact horder.map literal
  refine .object ?_ (List.forall_mem_map.mpr fun m hm => ?_) hperm
  · unfold ValuesChanged
    rw [List.forall₂_map_left_iff, List.forall₂_map_right_iff]
    refine hchanged.imp fun m n hmn => ⟨congrArg Literal.ofString hmn.1, fun name htext => ?_⟩
    obtain rfl : m.1 = name := Except.ok.inj ((Literal.text_of_string m.1).symm.trans htext)
    exact hmn.2
  · exact ⟨m.1, Literal.text_of_string m.1, hextra m hm⟩

section

variable {α : Type} {decode : Decoder α} {r : Json → Json → Prop}

/-- A value that has not been changed is decoded as before. -/
theorem overlooks_eq (decode : Decoder α) : Overlooks decode Eq := by
  rintro v _ x rfl - h
  exact h

/-- A field overlooks what its decoder overlooks. -/
theorem Overlooks.accepts (h : Overlooks decode r) (name : String) (required : Bool) :
    Overlooks (Field.of name required decode).accepts r := by
  intro v w _ hr hskip haccepts
  have hmap : (decode v).map (fun _ => ()) = .ok () := haccepts
  cases hdecode : decode v with
  | error refusal =>
      rw [hdecode] at hmap
      cases hmap
  | ok x => exact Field.accepts_of_ok (h v w x hr hskip hdecode)

/-- An end is accepted exactly if the text has come to it. -/
theorem closed_iff {stop : Option Fault} : closed stop = .ok () ↔ stop = none := by
  cases stop with
  | none => exact iff_of_true rfl rfl
  | some fault => exact iff_of_false nofun nofun

/-- Items can be skipped exactly if each of them can. -/
theorem skip_items_iff {items : List Json} :
    skipItems items = .ok () ↔ ∀ item ∈ items, skip item = .ok () := by
  induction items with
  | nil => exact iff_of_true rfl nofun
  | cons item later ih =>
      rw [skipItems, List.forall_mem_cons, ← ih]
      cases skip item with
      | error refusal => exact iff_of_false nofun fun h => nomatch h.1
      | ok => exact ⟨fun h => ⟨rfl, h⟩, And.right⟩

/-- Members can be skipped exactly if each has a closed name and its value can be skipped. -/
theorem skip_members_iff {members : List (Literal × Json)} :
    skipMembers members = .ok () ↔ ∀ m ∈ members, m.1.stop = none ∧ skip m.2 = .ok () := by
  induction members with
  | nil => exact iff_of_true rfl nofun
  | cons m later ih =>
      obtain ⟨name, item⟩ := m
      rw [skipMembers, List.forall_mem_cons, ← ih, ← closed_iff]
      cases closed name.stop with
      | error refusal => exact iff_of_false nofun fun h => nomatch h.1.1
      | ok =>
          cases skip item with
          | error refusal => exact iff_of_false nofun fun h => nomatch h.1.2
          | ok => exact ⟨fun h => ⟨⟨rfl, rfl⟩, h⟩, And.right⟩

/-- An array that is closed can be skipped exactly if its items can. -/
theorem skip_array_iff {items : List Json} :
    skip (array items none) = .ok () ↔ ∀ item ∈ items, skip item = .ok () := by
  rw [skip, ← skip_items_iff]
  cases skipItems items with
  | error refusal => exact iff_of_false nofun nofun
  | ok => exact iff_of_true rfl rfl

/-- An object that is closed can be skipped exactly if its members can. -/
theorem skip_object_iff {members : List (Literal × Json)} :
    skip (object members none) = .ok () ↔ ∀ m ∈ members, m.1.stop = none ∧ skip m.2 = .ok () := by
  rw [skip, ← skip_members_iff]
  cases skipMembers members with
  | error refusal => exact iff_of_false nofun nofun
  | ok => exact iff_of_true rfl rfl

/-- A value with a text can be skipped. -/
theorem skip_of_spelled {v : Json} {text : List Char} (h : v.Spelled text) : skip v = .ok () := by
  induction h with
  | spaceBefore _ _ ih | spaceBehind _ _ ih => exact ih
  | null | bool | number => rfl
  | string hl => exact closed_iff.mpr hl.1
  | emptyArray => exact skip_array_iff.mpr nofun
  | array _ _ ih => exact skip_array_iff.mpr (List.forall_mem_map.mpr ih)
  | emptyObject => exact skip_object_iff.mpr nofun
  | object _ hnames _ _ ih =>
      refine skip_object_iff.mpr (List.forall_mem_map.mpr fun p hp => ⟨?_, ih p hp⟩)
      obtain ⟨_, _, _, _, _, hl, _⟩ := (hnames p hp).literal
      exact hl.1

/-- Items that have been changed one by one are decoded as before. -/
theorem items_of_changed {items others : List Json} {xs : List α} (hitem : Overlooks decode r)
    (h : List.Forall₂ r items others) (hskip : ∀ other ∈ others, skip other = .ok ())
    (hread : decodeItems decode none items = .ok xs) : decodeItems decode none others = .ok xs := by
  induction h generalizing xs with
  | nil => exact hread
  | @cons v w items others hr _ ih =>
      obtain ⟨hskip, hlater⟩ := List.forall_mem_cons.mp hskip
      rw [decodeItems] at hread ⊢
      cases hdecode : decode v with
      | error refusal =>
          rw [hdecode] at hread
          cases hread
      | ok x =>
          rw [hdecode] at hread
          rw [hitem v w x hr hskip hdecode]
          cases hitems : decodeItems decode none items with
          | error refusal =>
              rw [hitems] at hread
              cases hread
          | ok found =>
              rw [hitems] at hread
              rw [ih hlater hitems]
              exact hread

/-- An array whose items have been changed one by one is decoded as before. -/
theorem Overlooks.list (h : Overlooks decode r) : Overlooks (list decode) (ItemsChanged r) := by
  rintro v w xs (_ | hitems) hskip hread
  · exact hread
  · exact items_of_changed h hitems (skip_array_iff.mp hskip) hread

end

/-! ## Records -/

/-- Every decoder that overlooks the changes of a member decodes the same from both records. -/
def Layout.Agree (inner : String → Json → Json → Prop) (known found : List (String × Json)) :
    Prop :=
  ∀ {α : Type} (name : String) (decode : Decoder α) (default x : α), Overlooks decode (inner name) →
    member known name decode default = .ok x → member found name decode default = .ok x

namespace Layout

variable {layout : Layout} {inner : String → Json → Json → Prop} {origin : Origin}
  {known found : List (String × Json)} {v w : Json}

/-- What a change does to the members of a record that are found. -/
def MemberChanged (inner : String → Json → Json → Prop) (name : String) (v w : Json) : Prop :=
  inner name v w ∧ skip w = .ok ()

/-- Records whose members are related name by name agree. -/
theorem agree_of_related
    (h : ∀ name, Option.Rel (MemberChanged inner name) (known.lookup name) (found.lookup name)) :
    Agree inner known found := by
  intro α name decode default x hdecode hx
  have hname := h name
  unfold member at hx ⊢
  generalize known.lookup name = before, found.lookup name = behind at hname hx ⊢
  cases hname with
  | none => exact hx
  | some hchanged => exact hdecode _ _ x hchanged.1 hchanged.2 hx

/-- The field of a name is one of the layout and has the name. -/
theorem field_of_name {name : String} {field : Field} (h : layout.field? name = some field) :
    field ∈ layout.fields ∧ field.name = name := by
  unfold field? at h
  have hsame := List.find?_some h
  exact ⟨List.mem_of_find?_eq_some h, eq_of_beq hsame⟩

/-- A member remains admitted when its value is changed. -/
theorem admits_of_changed {m n : Literal × Json}
    (hfields : ∀ field ∈ layout.fields, Overlooks field.accepts (inner field.name))
    (hname : n.1 = m.1) (hinner : ∀ name, m.1.text = .ok name → inner name m.2 n.2)
    (hskip : skip n.2 = .ok ()) (h : layout.Admits m) : layout.Admits n := by
  obtain ⟨name, htext, haccepted⟩ := h
  refine ⟨name, by rw [hname, htext], ?_⟩
  cases hfield : layout.field? name with
  | none => exact hskip
  | some field =>
      obtain ⟨hmem, rfl⟩ := field_of_name hfield
      simp only [hfield] at haccepted
      exact hfields field hmem m.2 n.2 () (hinner field.name htext) hskip haccepted

/-- The known ones among changed members are the known members, changed. -/
theorem known_of_changed {members changed : List (Literal × Json)}
    (h : ValuesChanged inner members changed) (hskip : ∀ n ∈ changed, skip n.2 = .ok ()) :
    Related (MemberChanged inner) (members.filterMap layout.known?)
      (changed.filterMap layout.known?) := by
  have hboth : List.Forall₂ (fun m n => skip n.2 = .ok () ∧ n.1 = m.1 ∧
      ∀ name, m.1.text = .ok name → inner name m.2 n.2) members changed :=
    ((List.forall₂_and_left _ _).mpr ⟨hskip, h.flip⟩).flip
  refine List.rel_filterMap ?_ hboth
  rintro ⟨same, v⟩ ⟨literal, w⟩ ⟨hskip, hname, hinner⟩
  obtain rfl : literal = same := hname
  cases htext : literal.text with
  | error fault =>
      have hunknown (item : Json) : layout.known? (literal, item) = none := by
        simp only [known?, htext]
      rw [hunknown, hunknown]
      exact .none
  | ok name =>
      cases hfield : layout.field? name with
      | none =>
          rw [known_of_unknown htext hfield, known_of_unknown htext hfield]
          exact .none
      | some field =>
          rw [known_of_known htext hfield, known_of_known htext hfield]
          exact .some ⟨rfl, hinner name htext, hskip⟩

/-- Members with unknown names are not among the known ones. -/
theorem known_of_extra {extra : List (Literal × Json)} (h : layout.Unknown extra) :
    extra.filterMap layout.known? = [] := by
  refine List.filterMap_eq_nil_iff.mpr fun m hm => ?_
  obtain ⟨name, htext, hfield⟩ := h m hm
  exact known_of_unknown htext hfield

/-- The required field that is missing is the same for members that are related. -/
theorem missing_of_related
    (h : ∀ name, Option.Rel (MemberChanged inner name) (known.lookup name) (found.lookup name)) :
    layout.missing? found = layout.missing? known := by
  have hnone (name : String) : (found.lookup name).isNone = (known.lookup name).isNone := by
    have hname := h name
    generalize known.lookup name = before, found.lookup name = behind at hname ⊢
    cases hname with
    | none | some => rfl
  simp only [missing?, hnone]

/-- An object with rearranged members is scanned to its end as the object itself is, and the
members that are found are related name by name. -/
theorem scan_of_rearranged {members changed extra others : List (Literal × Json)}
    (hfields : ∀ field ∈ layout.fields, Overlooks field.accepts (inner field.name))
    (hchanged : ValuesChanged inner members changed) (hextra : layout.Unknown extra)
    (horder : others.Perm (changed ++ extra)) (hskip : ∀ n ∈ others, skip n.2 = .ok ())
    (hread : layout.scan none [] members = .ok known) :
    ∃ found, layout.scan none [] others = .ok found ∧
      ∀ name, Option.Rel (MemberChanged inner name) (known.lookup name) (found.lookup name) := by
  obtain ⟨⟨hadmitted, hnames, -⟩, rfl⟩ := scan_ok_iff.mp hread
  obtain ⟨hskipped, hskipextra⟩ : (∀ n ∈ changed, skip n.2 = .ok ()) ∧
      ∀ n ∈ extra, skip n.2 = .ok () :=
    List.forall_mem_append.mp fun n hn => hskip n (horder.mem_iff.mpr hn)
  have hknown : Related (MemberChanged inner) (members.filterMap layout.known?)
    (changed.filterMap layout.known?) := known_of_changed hchanged hskipped
  have hperm : (others.filterMap layout.known?).Perm (changed.filterMap layout.known?) := by
    refine (horder.filterMap _).trans (.of_eq ?_)
    rw [List.filterMap_append, known_of_extra hextra, List.append_nil]
  rw [← names_of_related hknown] at hnames
  -- Every member is an old one with a changed value or one of those between them.
  have hothers : ∀ n ∈ others, layout.Admits n := by
    intro n hn
    rcases List.mem_append.mp (horder.mem_iff.mp hn) with hn | hn
    · obtain ⟨m, hm, hname, hinner⟩ := exists_of_related hchanged hn
      exact admits_of_changed hfields hname hinner (hskipped n hn) (hadmitted m hm)
    · obtain ⟨name, htext, hfield⟩ := hextra n hn
      refine ⟨name, htext, ?_⟩
      rw [hfield]
      exact hskipextra n hn
  have hscannable : layout.Scannable [] others :=
    ⟨hothers, (hperm.map Prod.fst).nodup_iff.mpr hnames, fun _ _ => List.not_mem_nil⟩
  refine ⟨_, scan_ok_iff.mpr ⟨hscannable, rfl⟩, fun name => ?_⟩
  rw [lookup_of_perm hperm hnames]
  exact lookup_of_related hknown name

/-- What is found in an array is found in the array with changed items. -/
theorem align_of_changed {fields : List Field} {items others : List Json} {length : Nat}
    (hfields : ∀ field ∈ fields, Overlooks field.accepts (inner field.name))
    (h : List.Forall₂ (fun v w => ∀ field ∈ fields, inner field.name v w) items others)
    (hskip : ∀ other ∈ others, skip other = .ok ())
    (hread : layout.align origin none length fields items = .ok known) :
    ∃ found, layout.align origin none length fields others = .ok found ∧
      Related (MemberChanged inner) known found := by
  induction fields generalizing items others known with
  | nil =>
      cases h with
      | nil =>
          rw [align] at hread ⊢
          cases hread
          exact ⟨[], rfl, .nil⟩
      | cons =>
          cases origin <;> rw [align] at hread <;> cases hread
  | cons field fields ih =>
      obtain ⟨hfield, hfields⟩ := List.forall_mem_cons.mp hfields
      cases h with
      | nil =>
          rw [align] at hread ⊢
          simp only [closed] at hread ⊢
          split_ifs at hread ⊢ with hrequired
          · cases hread
          · exact ih hfields .nil nofun hread
      | @cons v w items others hfirst hlater =>
          obtain ⟨hskip, hskiplater⟩ := List.forall_mem_cons.mp hskip
          obtain ⟨hinner, -⟩ := List.forall_mem_cons.mp hfirst
          rw [align] at hread ⊢
          cases haccepts : field.accepts v with
          | error refusal =>
              rw [haccepts] at hread
              cases hread
          | ok =>
              rw [haccepts] at hread
              rw [hfield v w () hinner hskip haccepts]
              cases halign : layout.align origin none length fields items with
              | error refusal =>
                  rw [halign] at hread
                  cases hread
              | ok later =>
                  rw [halign] at hread
                  cases hread
                  obtain ⟨found, hfound, hchanged⟩ := ih hfields
                    (hlater.imp fun _ _ h field hmem => h field (List.mem_cons_of_mem _ hmem))
                    hskiplater halign
                  rw [hfound]
                  exact ⟨_, rfl, .cons ⟨rfl, hinner, hskip⟩ hchanged⟩

/-- A record whose members have been rearranged is read as before by every decoder that overlooks
the changes of their values. -/
theorem members_of_rearranged
    (hfields : ∀ field ∈ layout.fields, Overlooks field.accepts (inner field.name))
    (h : layout.Rearranged inner v w) (hskip : skip w = .ok ())
    (hread : layout.members origin v = .ok known) :
    ∃ found, layout.members origin w = .ok found ∧ Agree inner known found := by
  cases h with
  | same => exact ⟨known, hread, fun _ _ _ _ _ hx => hx⟩
  | @array items others hitems =>
      obtain ⟨found, hfound, hchanged⟩ :=
        align_of_changed hfields hitems (skip_array_iff.mp hskip) hread
      rw [hitems.length_eq] at hfound
      exact ⟨found, hfound, agree_of_related (lookup_of_related hchanged)⟩
  | object hchanged hextra horder =>
      obtain ⟨hscan, hmissing⟩ := members_ok_iff.mp hread
      obtain ⟨found, hfound, hrelated⟩ := scan_of_rearranged hfields hchanged hextra horder
        (fun n hn => (skip_object_iff.mp hskip n hn).2) hscan
      rw [← missing_of_related hrelated] at hmissing
      exact ⟨found, members_ok_iff.mpr ⟨hfound, hmissing⟩, agree_of_related hrelated⟩

end Layout

end BulkLoad.Json
