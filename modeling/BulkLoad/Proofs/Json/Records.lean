import BulkLoad.Json.Decode
import BulkLoad.Proofs.Json.Values

/-!
# Decoding what has been written

A decoder gives back the value from which a JSON value was made. To decode a text is to decode the
value that it spells (`decode_text_of_spelled`), so a complete value is decoded from what is written
for it (`decode_text_render`). `Layout.scan_ok_iff` says which objects are accepted as records, and
which of their members are found; an object whose members fit a layout, each known and accepted and
none missing, is read as these members (`Layout.members_of_fits`).
-/

namespace BulkLoad.Json

section

variable {α β : Type} {decode : Decoder α} {value : β → Json}

/-! ## Texts -/

/-- Decoding in two steps succeeds only if both do. -/
theorem ok_of_bind {x : Except Refusal α} {f : α → Except Refusal β} {b : β}
    (h : (x >>= f) = .ok b) : ∃ a, x = .ok a ∧ f a = .ok b := by
  cases x with
  | ok a => exact ⟨a, rfl, h⟩
  | error refusal => cases h

/-- What is there after its refusals have been forgotten has been decoded. -/
theorem ok_of_to_option {x : Except Refusal α} {a : α} (h : x.toOption = some a) : x = .ok a := by
  cases x with
  | ok b => exact congrArg Except.ok (Option.some.inj h)
  | error refusal => cases h

/-- Decoding goes on with what has been decoded. -/
theorem bind_of_ok {x : Except Refusal α} {a : α} (h : x = .ok a) (f : α → Except Refusal β) :
    (x >>= f) = f a := by
  rw [h]
  rfl

/-- To decode a text of a value is to decode the value. -/
theorem decode_text_of_spelled {raw : String} {v : Json} (h : v.Spelled raw.toList)
    (decode : Decoder α) : decodeText decode raw = decode v := by
  obtain ⟨left, hread, hleft⟩ := read_of_spelled h
  unfold decodeText decodeNext
  rw [hread]
  show ((decode v).map (·, left)) >>= _ = _
  cases decode v with
  | error refusal => rfl
  | ok x =>
      show (finished left >>= fun _ => Except.ok x) = .ok x
      rw [finished, hleft]
      rfl

/-- To decode the text of a complete value is to decode the value. -/
theorem decode_text_render {v : Json} (h : v.Complete) (decode : Decoder α) :
    decodeText decode (render v) = decode v := by
  refine decode_text_of_spelled ?_ decode
  rw [render, String.toList_ofList]
  exact h.spelled

/-- What is decoded from a text is decoded from the value that is read at its beginning. -/
theorem decode_of_text {raw : String} {x : α} (h : decodeText decode raw = .ok x) :
    decode (read raw.toList).1 = .ok x := by
  obtain ⟨⟨y, rest⟩, hnext, hend⟩ := ok_of_bind h
  obtain ⟨-, -, hx⟩ := ok_of_bind hend
  cases hx
  unfold decodeNext at hnext
  cases hdecode : decode (read raw.toList).1 with
  | error refusal =>
      simp only [hdecode] at hnext
      cases hnext
  | ok z =>
      simp only [hdecode] at hnext
      cases hnext
      rfl

/-! ## Single values -/

/-- The value of a text is decoded as the text. -/
theorem text_of_string (s : String) : text (ofString s) = .ok s := by
  show orFault (Literal.ofString s).text = _
  rw [Literal.text_of_string]
  rfl

/-- The value of a character is decoded as the character. -/
theorem character_of_char (c : Char) : character (ofString c.toString) = .ok c := by
  simp only [character, ofString, Literal.text_of_string, Char.toString, String.toList_singleton]

/-- The value of a number that fits 64 bits is decoded as the number. -/
theorem natural_of_lt (expected : String) {n : Nat} (h : n < 18446744073709551616) :
    natural expected (ofNat n) = .ok n.toUInt64 := by
  simp only [natural, ofNat, value_of_nat h]

/-- The value of a number of 64 bits is decoded as the number. -/
theorem natural_of_count (expected : String) (n : UInt64) :
    natural expected (ofNat n.toNat) = .ok n := by
  rw [natural_of_lt expected n.toNat_lt]
  exact congrArg Except.ok UInt64.ofNat_toNat

/-- What may be left out is decoded if what it is made of can be. -/
theorem optional_of_option {decode : Decoder β} (hnull : ∀ x, value x ≠ null)
    (hdecode : ∀ x, decode (value x) = .ok x) (x : Option β) :
    optional decode (ofOption value x) = .ok x := by
  cases x with
  | none => rfl
  | some y =>
      show optional decode (value y) = _
      have hmap : (decode (value y)).map some = .ok (some y) := by
        rw [hdecode]
        rfl
      unfold optional
      split
      next heq => exact absurd heq (hnull y)
      next => exact hmap

/-- An array is decoded item by item. -/
theorem list_of_list {f : β → α} {xs : List β} (hdecode : ∀ x ∈ xs, decode (value x) = .ok (f x)) :
    list decode (ofList (xs.map value)) = .ok (xs.map f) := by
  show decodeItems decode none (xs.map value) = _
  induction xs with
  | nil => rfl
  | cons x xs ih =>
      obtain ⟨hx, hxs⟩ := List.forall_mem_cons.mp hdecode
      rw [List.map_cons, decodeItems, hx]
      show (decodeItems decode none (xs.map value)).map (f x :: ·) = _
      rw [ih hxs]
      rfl

/-- An array of texts is decoded as these texts. -/
theorem texts_of_strings (xs : List String) : list text (ofList (xs.map ofString)) = .ok xs := by
  rw [list_of_list (f := id) fun x _ => text_of_string x, List.map_id]

/-- A value of the wrong type is refused. -/
theorem refused_of_type {expected : String} {v : Json} {x : α} :
    invalidType expected v ≠ .ok x := by
  intro h
  unfold invalidType at h
  split at h
  case h_3 | h_4 => split at h <;> cases h
  all_goals cases h

/-- Each item that has been decoded has been decoded from a value. -/
theorem decoded_of_items {stop : Option Fault} {items : List Json} {xs : List α}
    (h : decodeItems decode stop items = .ok xs) {x : α} (hx : x ∈ xs) :
    ∃ item, decode item = .ok x := by
  induction items generalizing xs with
  | nil =>
      unfold decodeItems at h
      cases hclosed : closed stop with
      | ok =>
          rw [hclosed] at h
          cases h
          cases hx
      | error refusal =>
          rw [hclosed] at h
          cases h
  | cons item items ih =>
      unfold decodeItems at h
      split at h
      next => cases h
      next first hfirst =>
        cases hlater : decodeItems decode stop items with
        | ok later =>
            rw [hlater] at h
            cases h
            rcases List.mem_cons.mp hx with rfl | hx
            · exact ⟨item, hfirst⟩
            · exact ih hlater hx
        | error refusal =>
            rw [hlater] at h
            cases h

/-- Each element of a list that has been decoded has been decoded from a value. -/
theorem decoded_of_mem {v : Json} {xs : List α} (h : list decode v = .ok xs) {x : α} (hx : x ∈ xs) :
    ∃ item, decode item = .ok x := by
  unfold list at h
  split at h
  next => exact decoded_of_items h hx
  next => exact absurd h refused_of_type

/-! ## Records -/

/-- The members of an object fit a layout if their names are different, each of them is known and
accepted, and no required one is missing. -/
structure Layout.Fits (layout : Layout) (members : List (String × Json)) : Prop where
  names : (members.map Prod.fst).Nodup
  accepted : ∀ m ∈ members, ∃ field, layout.field? m.1 = some field ∧ field.accepts m.2 = .ok ()
  complete : ∀ field ∈ layout.fields, field.required = true → field.name ∈ members.map Prod.fst

/-- A field accepts what its decoder decodes. -/
theorem Field.accepts_of_ok {name : String} {required : Bool} {v : Json} {x : α}
    (h : decode v = .ok x) : (Field.of name required decode).accepts v = .ok () := by
  show (decode v).map _ = _
  rw [h]
  rfl

/-- A member is its default or has been decoded from a value. -/
theorem decoded_of_member {known : List (String × Json)} {name : String} {default x : α}
    (h : member known name decode default = .ok x) : x = default ∨ ∃ v, decode v = .ok x := by
  unfold member at h
  split at h
  next =>
    cases h
    exact .inl rfl
  next v _ => exact .inr ⟨v, h⟩

end

namespace Layout

/-! ## The members that are found -/

section

variable {layout : Layout} {members : List (Literal × Json)} {known : List (String × Json)}

/-- A member under its name, if the layout knows it. -/
def known? (layout : Layout) (m : Literal × Json) : Option (String × Json) :=
  match m.1.text with
  | .error _ => none
  | .ok name => if (layout.field? name).isSome then some (name, m.2) else none

/-- A member is admitted if it has a name and its field accepts its value, or if there is no such
field and its value can be skipped. -/
def Admits (layout : Layout) (m : Literal × Json) : Prop :=
  ∃ name, m.1.text = .ok name ∧
    match layout.field? name with
    | none => skip m.2 = .ok ()
    | some field => field.accepts m.2 = .ok ()

/-- The members of an object can be scanned if they are admitted and the known ones among them have
different names, none of which has been seen before. -/
structure Scannable (layout : Layout) (seen : List String) (members : List (Literal × Json)) :
    Prop where
  admitted : ∀ m ∈ members, layout.Admits m
  names : ((members.filterMap layout.known?).map Prod.fst).Nodup
  unseen : ∀ m ∈ members.filterMap layout.known?, m.1 ∉ seen

section

variable {name : String} {literal : Literal} {item : Json} {field : Field} {seen : List String}
  {later : List (Literal × Json)}

/-- A member with an unknown name is not among the known ones. -/
theorem known_of_unknown (htext : literal.text = .ok name) (hfield : layout.field? name = none) :
    layout.known? (literal, item) = none := by
  simp only [known?, htext, hfield, Option.isSome_none, Bool.false_eq_true, if_false]

/-- A member with a known name is one of the known ones. -/
theorem known_of_known (htext : literal.text = .ok name)
    (hfield : layout.field? name = some field) :
    layout.known? (literal, item) = some (name, item) := by
  simp only [known?, htext, hfield, Option.isSome_some, if_true]

/-- A member with an unknown name does not matter to those that follow. -/
theorem scannable_of_unknown (htext : literal.text = .ok name)
    (hfield : layout.field? name = none) :
    layout.Scannable seen ((literal, item) :: later) ↔
      skip item = .ok () ∧ layout.Scannable seen later := by
  have hadmits : layout.Admits (literal, item) ↔ skip item = .ok () := by
    simp only [Admits, htext, Except.ok.injEq, exists_eq_left', hfield]
  have hknown : layout.known? (literal, item) = none := known_of_unknown htext hfield
  constructor
  · rintro ⟨hadmitted, hnames, hunseen⟩
    rw [List.filterMap_cons_none hknown] at hnames hunseen
    obtain ⟨hfirst, hlater⟩ := List.forall_mem_cons.mp hadmitted
    exact ⟨hadmits.mp hfirst, hlater, hnames, hunseen⟩
  · rintro ⟨hskip, hadmitted, hnames, hunseen⟩
    refine ⟨List.forall_mem_cons.mpr ⟨hadmits.mpr hskip, hadmitted⟩, ?_, ?_⟩ <;>
      rwa [List.filterMap_cons_none hknown]

/-- A member with a known name must be new, and its name is taken then. -/
theorem scannable_of_known (htext : literal.text = .ok name)
    (hfield : layout.field? name = some field) :
    layout.Scannable seen ((literal, item) :: later) ↔
      name ∉ seen ∧ field.accepts item = .ok () ∧ layout.Scannable (name :: seen) later := by
  have hadmits : layout.Admits (literal, item) ↔ field.accepts item = .ok () := by
    simp only [Admits, htext, Except.ok.injEq, exists_eq_left', hfield]
  have hknown : layout.known? (literal, item) = some (name, item) := known_of_known htext hfield
  constructor
  · rintro ⟨hadmitted, hnames, hunseen⟩
    rw [List.filterMap_cons_some hknown] at hnames hunseen
    obtain ⟨hfirst, hlater⟩ := List.forall_mem_cons.mp hadmitted
    obtain ⟨hname, hunseen⟩ := List.forall_mem_cons.mp hunseen
    obtain ⟨hnew, hnames⟩ := List.nodup_cons.mp hnames
    refine ⟨hname, hadmits.mp hfirst, hlater, hnames, fun m hm hmem => ?_⟩
    rcases List.mem_cons.mp hmem with hsame | hmem
    · exact hnew (List.mem_map.mpr ⟨m, hm, hsame⟩)
    · exact hunseen m hm hmem
  · rintro ⟨hname, haccepts, hadmitted, hnames, hunseen⟩
    refine ⟨List.forall_mem_cons.mpr ⟨hadmits.mpr haccepts, hadmitted⟩, ?_, ?_⟩ <;>
      rw [List.filterMap_cons_some hknown]
    · refine List.nodup_cons.mpr ⟨fun hmem => ?_, hnames⟩
      obtain ⟨m, hm, hsame⟩ := List.mem_map.mp hmem
      exact hunseen m hm (hsame ▸ List.mem_cons_self)
    · exact List.forall_mem_cons.mpr
        ⟨hname, fun m hm hmem => hunseen m hm (List.mem_cons_of_mem _ hmem)⟩

end

/-- An object is scanned to its end exactly if its members can be scanned, and then the known ones
are found in their order. -/
theorem scan_ok_iff {seen : List String} :
    layout.scan none seen members = .ok known ↔
      layout.Scannable seen members ∧ members.filterMap layout.known? = known := by
  induction members generalizing seen known with
  | nil =>
      show Except.ok [] = Except.ok known ↔ _
      constructor
      · rintro ⟨⟩
        exact ⟨⟨nofun, List.nodup_nil, nofun⟩, rfl⟩
      · rintro ⟨-, rfl⟩
        rfl
  | cons m later ih =>
      obtain ⟨literal, item⟩ := m
      rw [scan]
      cases htext : literal.text with
      | error fault =>
          refine iff_of_false nofun fun h => ?_
          obtain ⟨name, hname, -⟩ := h.1.admitted _ List.mem_cons_self
          rw [htext] at hname
          cases hname
      | ok name =>
          cases hfield : layout.field? name with
          | none =>
              rw [scannable_of_unknown htext hfield,
                List.filterMap_cons_none (known_of_unknown htext hfield)]
              simp only [hfield]
              cases hskip : skip item with
              | error refusal => exact iff_of_false nofun fun h => nomatch h.1.1
              | ok => simp only [ih, true_and]
          | some field =>
              rw [scannable_of_known htext hfield,
                List.filterMap_cons_some (known_of_known htext hfield)]
              simp only [hfield, List.contains_eq_mem, decide_eq_true_eq]
              split_ifs with hseen
              · -- A name that comes again is refused.
                exact iff_of_false nofun fun h => h.1.1 hseen
              · cases haccepts : field.accepts item with
                | error refusal => exact iff_of_false nofun fun h => nomatch h.1.2.1
                | ok =>
                    cases hscan : layout.scan none (name :: seen) later with
                    | error refusal =>
                        refine iff_of_false nofun fun h => ?_
                        rw [ih.mpr ⟨h.1.2.2, rfl⟩] at hscan
                        cases hscan
                    | ok found =>
                        obtain ⟨hscannable, rfl⟩ := ih.mp hscan
                        show Except.ok _ = Except.ok known ↔ _
                        simp only [Except.ok.injEq, hseen, not_false_eq_true, hscannable,
                          true_and]

/-- The first required field that is missing. -/
def missing? (layout : Layout) (known : List (String × Json)) : Option Field :=
  layout.fields.find? fun field => field.required && (known.lookup field.name).isNone

/-- An object is read exactly if it is scanned to its end and no required field is missing. -/
theorem members_ok_iff {origin : Origin} :
    layout.members origin (object members none) = .ok known ↔
      layout.scan none [] members = .ok known ∧ layout.missing? known = none := by
  unfold Layout.members
  cases hscan : layout.scan none [] members with
  | error refusal =>
      simp only [hscan]
      exact iff_of_false nofun fun h => nomatch h.1
  | ok found =>
      have hfind : (layout.fields.find? fun field =>
        field.required && (found.lookup field.name).isNone) = layout.missing? found := rfl
      simp only [hscan, hfind, Except.ok.injEq]
      cases hmissing : layout.missing? found with
      | none =>
          refine ⟨?_, fun h => congrArg Except.ok h.1⟩
          rintro ⟨⟩
          exact ⟨rfl, hmissing⟩
      | some field =>
          refine iff_of_false nofun ?_
          rintro ⟨rfl, hnone⟩
          rw [hmissing] at hnone
          cases hnone

end

section

variable {layout : Layout} {members : List (String × Json)}

/-- Members that fit are all found, in their order. -/
theorem scan_of_fits (h : layout.Fits members) :
    layout.scan none [] (members.map fun (name, item) => (Literal.ofString name, item)) =
      .ok members := by
  have hknown : (members.map fun (name, item) => (Literal.ofString name, item)).filterMap
      layout.known? = members := by
    rw [List.filterMap_map]
    refine (List.filterMap_congr fun m hm => ?_).trans List.filterMap_some
    obtain ⟨field, hfield, -⟩ := h.accepted m hm
    exact known_of_known (Literal.text_of_string m.1) hfield
  refine scan_ok_iff.mpr ⟨⟨List.forall_mem_map.mpr fun m hm => ?_, ?_, ?_⟩, hknown⟩
  · obtain ⟨field, hfield, haccepts⟩ := h.accepted m hm
    refine ⟨m.1, Literal.text_of_string m.1, ?_⟩
    rw [hfield]
    exact haccepts
  · rw [hknown]
    exact h.names
  · exact fun _ _ => List.not_mem_nil

/-- An object whose members fit a layout is read as these members. -/
theorem members_of_fits (h : layout.Fits members) (origin : Origin) :
    layout.members origin (ofMembers members) = .ok members := by
  refine members_ok_iff.mpr ⟨scan_of_fits h, List.find?_eq_none.mpr fun field hfield => ?_⟩
  rw [Bool.and_eq_true, not_and]
  intro hrequired hmissing
  obtain ⟨m, hm, hname⟩ := List.mem_map.mp (h.complete field hfield hrequired)
  have hsome : (members.lookup field.name).isSome = true :=
    List.lookup_isSome_iff.mpr ⟨m, hm, beq_iff_eq.mpr hname.symm⟩
  rw [Option.isNone_iff_eq_none] at hmissing
  rw [hmissing] at hsome
  cases hsome

end

end Layout

end BulkLoad.Json
