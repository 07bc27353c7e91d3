import BulkLoad.Proofs.Json.Soundness
import BulkLoad.Settings

/-!
# Configurations with rearranged members

The members of a configuration, of its hooks and of each single hook may stand in any order, and
members with unknown names may stand between them. What is decoded from a text remains the same when
it is rearranged in this way (`of_text_rearranged`), whatever the values of the other members are
and however the values are spelled. Every text that is accepted spells some value
(`spelled_of_text`), so this concerns all of them.
-/

namespace BulkLoad

open Json (Closes Overlooks)

/-- The hook's members have been reordered and others have been put between them. -/
def Hook.Rearranged : Json → Json → Prop := Hook.layout.Rearranged fun _ => Eq

/-- The members for the phases, or those of their hooks, have been reordered and others have been
put between them. -/
def Hooks.Rearranged : Json → Json → Prop :=
  (Hooks.layout .document).Rearranged fun _ => Json.ItemsChanged Hook.Rearranged

/-- The members of a configuration, or those of its hooks, have been reordered and others have been
put between them. -/
def Config.Rearranged : Json → Json → Prop :=
  Config.layout.Rearranged fun name => if name = "hooks" then Hooks.Rearranged else Eq

/-- What is decoded from a hook does not depend on the order of its members or on others. -/
theorem Hook.overlooks_rearranged (origin : Json.Origin) :
    Overlooks (Hook.decode origin) Hook.Rearranged := by
  intro v w hook h hskip hread
  obtain ⟨known, hknown, hread⟩ := Json.ok_of_bind hread
  obtain ⟨statements, hstatements, hread⟩ := Json.ok_of_bind hread
  obtain ⟨wait, hwait, hread⟩ := Json.ok_of_bind hread
  obtain rfl := Except.ok.inj hread
  obtain ⟨found, hfound, hagree⟩ :=
    Json.Layout.members_of_rearranged (fun field _ => Json.overlooks_eq field.accepts) h hskip
      hknown
  rw [Hook.decode, Json.bind_of_ok hfound,
    Json.bind_of_ok (hagree _ _ _ _ (Json.overlooks_eq _) hstatements),
    Json.bind_of_ok (hagree _ _ _ _ (Json.overlooks_eq _) hwait)]
  rfl

/-- What is decoded from the hooks does not depend on the order of members in them or on others. -/
theorem Hooks.overlooks_rearranged : Overlooks (Hooks.decode .document) Hooks.Rearranged := by
  intro v w hooks h hskip hread
  have hlist : Overlooks (Json.list (Hook.decode .document)) (Json.ItemsChanged Hook.Rearranged) :=
    (Hook.overlooks_rearranged .document).list
  have hfields : ∀ field ∈ (Hooks.layout .document).fields,
      Overlooks field.accepts (Json.ItemsChanged Hook.Rearranged) := by
    simp only [Hooks.layout, List.forall_mem_cons]
    exact ⟨hlist.accepts "before" false, hlist.accepts "after" false, nofun⟩
  obtain ⟨known, hknown, hread⟩ := Json.ok_of_bind hread
  obtain ⟨before, hbefore, hread⟩ := Json.ok_of_bind hread
  obtain ⟨after, hafter, hread⟩ := Json.ok_of_bind hread
  obtain rfl := Except.ok.inj hread
  obtain ⟨found, hfound, hagree⟩ := Json.Layout.members_of_rearranged hfields h hskip hknown
  rw [Hooks.decode, Json.bind_of_ok hfound, Json.bind_of_ok (hagree _ _ _ _ hlist hbefore),
    Json.bind_of_ok (hagree _ _ _ _ hlist hafter)]
  rfl

/-- A hook is not decoded from a value with a fault in it. -/
theorem Hook.closes_decode (origin : Json.Origin) : Closes (Hook.decode origin) := by
  refine Json.closes_of_members ?_
  simp only [Hook.layout, List.forall_mem_cons]
  exact ⟨Json.closes_text.list.field _ _, ((Json.closes_natural _).map _).field _ _, nofun⟩

/-- Hooks are not decoded from a value with a fault in it. -/
theorem Hooks.closes_decode (origin : Json.Origin) : Closes (Hooks.decode origin) := by
  have hlist : Closes (Json.list (Hook.decode origin)) := (Hook.closes_decode origin).list
  refine Json.closes_of_members ?_
  simp only [Hooks.layout, List.forall_mem_cons]
  exact ⟨hlist.field _ _, hlist.field _ _, nofun⟩

namespace Config

/-- A configuration is not decoded from a value with a fault in it. -/
theorem closes_decode : Closes decode := by
  have hnumber (expected : String) : Closes (Json.optional (Json.natural expected)) :=
    (Json.closes_natural expected).optional
  refine Json.closes_of_members ?_
  simp only [layout, List.forall_mem_cons]
  exact ⟨Json.closes_text.field _ _, (hnumber _).field _ _, (hnumber _).field _ _,
    (hnumber _).field _ _, (hnumber _).field _ _, (Hooks.closes_decode _).field _ _, nofun⟩

/-- A text from which a configuration is read spells a value, from which the configuration is
decoded. -/
theorem spelled_of_text {raw : String} {c : Config} (h : ofText raw = .ok c) :
    ∃ v : Json, v.Spelled raw.toList ∧ decode v = .ok c :=
  closes_decode.spelled h

/-- What is decoded from a configuration does not depend on the order of members in it or on
others. -/
theorem overlooks_rearranged : Overlooks decode Rearranged := by
  intro v w c h hskip hread
  let inner (name : String) : Json → Json → Prop :=
    if name = "hooks" then Hooks.Rearranged else Eq
  have hhooks : Overlooks (Hooks.decode .document) (inner "hooks") := Hooks.overlooks_rearranged
  have hother {α : Type} (decode : Json.Decoder α) {name : String} (hname : name ≠ "hooks") :
      Overlooks decode (inner name) := by
    rw [show inner name = Eq from if_neg hname]
    exact Json.overlooks_eq decode
  have hfields : ∀ field ∈ layout.fields, Overlooks field.accepts (inner field.name) := by
    simp only [layout, List.forall_mem_cons]
    exact ⟨hother _ (by decide), hother _ (by decide), hother _ (by decide), hother _ (by decide),
      hother _ (by decide), hhooks.accepts "hooks" false, nofun⟩
  obtain ⟨known, hknown, hread⟩ := Json.ok_of_bind hread
  obtain ⟨graphName, hgraph, hread⟩ := Json.ok_of_bind hread
  obtain ⟨batch, hbatch, hread⟩ := Json.ok_of_bind hread
  obtain ⟨readerConcurrency, hreaders, hread⟩ := Json.ok_of_bind hread
  obtain ⟨importerConcurrency, himporters, hread⟩ := Json.ok_of_bind hread
  obtain ⟨statsIntervalMillis, hinterval, hread⟩ := Json.ok_of_bind hread
  obtain ⟨hooks, hmember, hread⟩ := Json.ok_of_bind hread
  obtain rfl := Except.ok.inj hread
  obtain ⟨found, hfound, hagree⟩ := Json.Layout.members_of_rearranged hfields h hskip hknown
  rw [decode, Json.bind_of_ok hfound,
    Json.bind_of_ok (hagree _ _ _ _ (hother _ (by decide)) hgraph),
    Json.bind_of_ok (hagree _ _ _ _ (hother _ (by decide)) hbatch),
    Json.bind_of_ok (hagree _ _ _ _ (hother _ (by decide)) hreaders),
    Json.bind_of_ok (hagree _ _ _ _ (hother _ (by decide)) himporters),
    Json.bind_of_ok (hagree _ _ _ _ (hother _ (by decide)) hinterval),
    Json.bind_of_ok (hagree _ _ _ _ hhooks hmember)]
  rfl

/-- A configuration that is read from a text is read from every text in which its members, or those
of its hooks, have been reordered and others have been put between them. -/
theorem of_text_rearranged {raw other : String} {v w : Json} {c : Config}
    (hraw : v.Spelled raw.toList) (hother : w.Spelled other.toList) (h : Rearranged v w)
    (hread : ofText raw = .ok c) : ofText other = .ok c := by
  unfold ofText at hread ⊢
  rw [Json.decode_text_of_spelled hraw] at hread
  rw [Json.decode_text_of_spelled hother]
  exact overlooks_rearranged v w c h (Json.skip_of_spelled hother) hread

namespace Sample

/-- A hook. -/
def orderedHook : Json :=
  Json.ofMembers [
    ("statements", Json.ofList [Json.ofString "USE g"]),
    ("wait_ms", Json.ofNat 5)]

/-- The same hook in another order, with another member. -/
def mixedHook : Json :=
  Json.ofMembers [
    ("wait_ms", Json.ofNat 5),
    ("?", Json.ofMembers [("wait_ms", .bool true)]),
    ("statements", Json.ofList [Json.ofString "USE g"])]

/-- A configuration with one hook. -/
def ordered : Json :=
  Json.ofMembers [
    ("graph_name", Json.ofString "g"),
    ("hooks", Json.ofMembers [("before", Json.ofList [orderedHook])])]

/-- A number out of range, and half of a surrogate pair. -/
def unreadable : List Json := [
  .number ⟨false, ['1'], none, some (false, ['9', '9', '9'])⟩,
  .string ⟨[.surrogate 0xD800], none⟩]

/-- The same configuration in another order, with other members everywhere. -/
def mixed : Json :=
  Json.ofMembers [
    ("x", Json.ofList unreadable),
    ("hooks", Json.ofMembers [("note", .null), ("before", Json.ofList [mixedHook])]),
    ("graph_name", Json.ofString "g")]

/-- A text of the configuration. -/
def orderedText : String :=
  "\x7b\"graph_name\":\"g\",\"hooks\":" ++
    "\x7b\"before\":[\x7b\"statements\":[\"USE g\"],\"wait_ms\":5\x7d]\x7d\x7d"

/-- A text of the rearranged configuration. -/
def mixedText : String :=
  " \x7b\"x\":[1e+999,\"\\ud800\"],\"hooks\":\x7b\"note\":null,\"before\":[\x7b\"wait_ms\":5," ++
    "\"?\":\x7b\"wait_ms\":true\x7d,\"statements\":[\"USE g\"]\x7d]\x7d,\"graph_name\":\"g\"\x7d"

/-- What both texts describe. -/
def hooked : Config where
  graphName := "g"
  hooks := { before := [⟨["USE g"], Duration.ofMillis 5⟩] }

/-- The sample configuration has been rearranged. -/
theorem rearranged_mixed : Rearranged ordered mixed := by
  have hhook : Hook.Rearranged orderedHook mixedHook :=
    .of_members [("statements", Json.ofList [Json.ofString "USE g"]), ("wait_ms", Json.ofNat 5)]
      [("?", Json.ofMembers [("wait_ms", .bool true)])]
      (List.forall₂_same.mpr fun _ _ => ⟨rfl, rfl⟩) (List.forall_mem_singleton.mpr rfl)
      (@List.perm_append_comm _ [_, _] [_])
  have hhooks : Hooks.Rearranged (Json.ofMembers [("before", Json.ofList [orderedHook])])
      (Json.ofMembers [("note", .null), ("before", Json.ofList [mixedHook])]) :=
    .of_members [("before", Json.ofList [mixedHook])] [("note", .null)]
      (.cons ⟨rfl, .array (.cons hhook .nil)⟩ .nil) (List.forall_mem_singleton.mpr rfl)
      (@List.perm_append_comm _ [_] [_])
  refine .of_members [("graph_name", Json.ofString "g"),
    ("hooks", Json.ofMembers [("note", .null), ("before", Json.ofList [mixedHook])])]
    [("x", Json.ofList unreadable)] (.cons ⟨rfl, rfl⟩ (.cons ⟨rfl, hhooks⟩ .nil))
    (List.forall_mem_singleton.mpr rfl) ?_
  exact List.reverse_perm [_, _, _]

/-- The sample text is one of the sample configuration. -/
theorem spelled_ordered : ordered.Spelled orderedText.toList := by
  have hhook : orderedHook.Complete := by
    refine .of_members ?_
    simp only [List.forall_mem_cons]
    exact ⟨.array (List.forall_mem_singleton.mpr (.of_string _)), .of_nat _, nofun⟩
  have hcomplete : ordered.Complete := by
    refine .of_members ?_
    simp only [List.forall_mem_cons]
    exact ⟨.of_string _, .of_members (List.forall_mem_singleton.mpr
      (.array (List.forall_mem_singleton.mpr hhook))), nofun⟩
  have htext : orderedText.toList = Json.renderChars ordered := by decide +kernel
  rw [htext]
  exact hcomplete.spelled

/-- The rearranged sample text is one of the rearranged configuration. -/
theorem spelled_mixed : mixed.Spelled mixedText.toList := by
  have hhook : mixedHook.Complete := by
    refine .of_members ?_
    simp only [List.forall_mem_cons]
    exact ⟨.of_nat _, .of_members (List.forall_mem_singleton.mpr (.bool true)),
      .array (List.forall_mem_singleton.mpr (.of_string _)), nofun⟩
  have hunreadable : (Json.ofList unreadable).Complete := by
    refine .array ?_
    simp only [unreadable, List.forall_mem_cons]
    have hpiece : ∀ piece ∈ [Json.Piece.surrogate 0xD800], piece.Complete :=
      List.forall_mem_singleton.mpr ⟨Nat.le_refl _, by omega⟩
    have hdigit : Json.AreDigits ['1'] := ⟨List.cons_ne_nil _ _, List.all_eq_true.mp rfl⟩
    refine ⟨.number ⟨hdigit, fun _ => rfl, nofun, ?_⟩, .string ⟨rfl, hpiece⟩, nofun⟩
    rintro _ ⟨⟩
    exact ⟨List.cons_ne_nil _ _, List.all_eq_true.mp rfl⟩
  have hcomplete : mixed.Complete := by
    refine .of_members ?_
    simp only [List.forall_mem_cons]
    refine ⟨hunreadable, .of_members ?_, .of_string _, nofun⟩
    simp only [List.forall_mem_cons]
    exact ⟨.null, .array (List.forall_mem_singleton.mpr hhook), nofun⟩
  have htext : mixedText.toList = ' ' :: Json.renderChars mixed := by decide +kernel
  rw [htext]
  exact .spaceBefore rfl hcomplete.spelled

end Sample

/-- The sample configuration is read from the rearranged text. -/
theorem of_text_mixed :
    ofText Sample.orderedText = .ok Sample.hooked ∧
      ofText Sample.mixedText = .ok Sample.hooked := by
  have hread : ofText Sample.orderedText = .ok Sample.hooked :=
    Json.ok_of_to_option (by decide +kernel)
  exact ⟨hread, of_text_rearranged Sample.spelled_ordered Sample.spelled_mixed
    Sample.rearranged_mixed hread⟩

end Config

end BulkLoad
