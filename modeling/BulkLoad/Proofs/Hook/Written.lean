import BulkLoad.Hook
import BulkLoad.Proofs.Json.Records

/-!
# Hooks and their written form

Decoding the written form of hooks gives them back with every pause in whole milliseconds of 64 bits
(`Hooks.decode_to_json`), so that a hook is read back as it is exactly if it has such a pause
(`Hook.read_back_iff`). Hooks that were decoded have no other pauses, so they come back as they are
(`Hooks.in_millis_of_decoded`).
-/

namespace BulkLoad

/-! ## One hook -/

namespace Hook

/-- The hook with the pause that is left of it in the written form. -/
def inMillis (hook : Hook) : Hook := { hook with wait := Duration.ofMillis hook.waitMillis }

/-- The written pause fits 64 bits. -/
theorem wait_millis_lt (hook : Hook) : hook.waitMillis < 18446744073709551616 :=
  Nat.mod_lt _ (by decide)

/-- A written pause is decoded as what is left of it. -/
theorem decode_wait_millis (hook : Hook) :
    Duration.decodeMillis (Json.ofNat hook.waitMillis) = .ok hook.inMillis.wait := by
  have hnat : hook.waitMillis.toUInt64.toNat = hook.waitMillis :=
    UInt64.toNat_ofNat_of_lt hook.wait_millis_lt
  unfold Duration.decodeMillis
  rw [Json.natural_of_lt "u64" hook.wait_millis_lt]
  show Except.ok (Duration.ofMillis hook.waitMillis.toUInt64.toNat) = _
  rw [hnat]
  rfl

/-- The members of a written hook. -/
def members (hook : Hook) : List (String × Json) := [
  ("statements", Json.ofList (hook.statements.map Json.ofString)),
  ("wait_ms", Json.ofNat hook.waitMillis)]

/-- The written form of a hook is the object of its members. -/
theorem to_json_eq (hook : Hook) : hook.toJson = Json.ofMembers hook.members := rfl

/-- The members of a written hook fit the fields of a hook. -/
theorem fits (hook : Hook) : layout.Fits hook.members where
  names := by simp [members]
  accepted := by
    simp only [members, List.forall_mem_cons]
    exact ⟨⟨_, rfl, Json.Field.accepts_of_ok (Json.texts_of_strings _)⟩,
      ⟨_, rfl, Json.Field.accepts_of_ok hook.decode_wait_millis⟩, nofun⟩
  complete := by simp [layout, Json.Field.of]

/-- A hook is decoded from its written form, with what is left of its pause. -/
theorem decode_to_json (origin : Json.Origin) (hook : Hook) :
    Hook.decode origin hook.toJson = .ok hook.inMillis := by
  have hmembers : layout.members origin hook.toJson = .ok hook.members := by
    rw [to_json_eq]
    exact Json.Layout.members_of_fits hook.fits origin
  have hstatements : Json.member hook.members "statements" (Json.list Json.text) [] =
    .ok hook.statements := Json.texts_of_strings hook.statements
  have hwait : Json.member hook.members "wait_ms" Duration.decodeMillis Duration.zero =
    .ok hook.inMillis.wait := hook.decode_wait_millis
  rw [decode, Json.bind_of_ok hmembers, Json.bind_of_ok hstatements, Json.bind_of_ok hwait]
  rfl

/-- The written form of a hook is complete. -/
theorem complete_to_json (hook : Hook) : hook.toJson.Complete := by
  rw [to_json_eq]
  refine .of_members ?_
  simp only [members, List.forall_mem_cons]
  exact ⟨.of_list fun _ _ => .of_string _, .of_nat _, nofun⟩

/-- A pause that has been decoded is one of whole milliseconds. -/
theorem wait_of_decoded {v : Json} {wait : Duration} (h : Duration.decodeMillis v = .ok wait) :
    Duration.ofMillis (wait.millis % 18446744073709551616) = wait := by
  unfold Duration.decodeMillis at h
  cases hnatural : Json.natural "u64" v with
  | error refusal =>
      rw [hnatural] at h
      cases h
  | ok n =>
      rw [hnatural] at h
      have hlt : n.toNat < 18446744073709551616 := n.toNat_lt
      have hwait : Duration.ofMillis n.toNat = wait := Except.ok.inj h
      rw [← hwait, Duration.millis_of_millis hlt, Nat.mod_eq_of_lt hlt]

/-- A hook that has been decoded is the same in its written form. -/
theorem in_millis_of_decoded {origin : Json.Origin} {v : Json} {hook : Hook}
    (h : Hook.decode origin v = .ok hook) : hook.inMillis = hook := by
  obtain ⟨known, -, h⟩ := Json.ok_of_bind h
  obtain ⟨statements, -, h⟩ := Json.ok_of_bind h
  obtain ⟨wait, hwait, h⟩ := Json.ok_of_bind h
  obtain rfl := Except.ok.inj h
  have hsame : Duration.ofMillis (wait.millis % 18446744073709551616) = wait := by
    rcases Json.decoded_of_member hwait with rfl | ⟨v, hv⟩
    · decide
    · exact wait_of_decoded hv
  exact congrArg (Hook.mk statements) hsame

/-- A hook that is the same in its written form has a pause of whole milliseconds. -/
theorem wait_of_in_millis {hook : Hook} (h : hook.inMillis = hook) :
    ∃ n < 18446744073709551616, hook.wait.totalNanos = n * 1000000 := by
  have hwait : Duration.ofMillis hook.waitMillis = hook.wait := congrArg Hook.wait h
  refine ⟨hook.waitMillis, hook.wait_millis_lt, ?_⟩
  rw [← hwait, Duration.totalNanos_ofMillis hook.wait_millis_lt]

/-- A hook with a pause of whole milliseconds that fit 64 bits is the same in its written form. -/
theorem in_millis_of_wait {hook : Hook} {n : Nat} (hlt : n < 18446744073709551616)
    (hnanos : hook.wait.totalNanos = n * 1000000) : hook.inMillis = hook := by
  have hmillis : hook.waitMillis = n := by
    rw [waitMillis, Duration.millis_eq, hnanos, Nat.mul_div_cancel n (by decide),
      Nat.mod_eq_of_lt hlt]
  have hwait : Duration.ofMillis hook.waitMillis = hook.wait := by
    refine Duration.eq_of_totalNanos_eq ?_
    rw [hmillis, Duration.totalNanos_ofMillis hlt, hnanos]
  exact congrArg (Hook.mk hook.statements) hwait

/-- A hook is the same in its written form exactly if its pause is one of whole milliseconds that
fit 64 bits. -/
theorem in_millis_iff {hook : Hook} :
    hook.inMillis = hook ↔ ∃ n < 18446744073709551616, hook.wait.totalNanos = n * 1000000 :=
  ⟨wait_of_in_millis, fun ⟨_, hlt, hnanos⟩ => in_millis_of_wait hlt hnanos⟩

/-- The text of a hook is read back with the same statements. The hook is the same exactly if its
pause is one of whole milliseconds that fit 64 bits. -/
theorem read_back_iff (hook : Hook) :
    ∃ back, Json.decodeText (Hook.decode .document) hook.toJson.render = .ok back ∧
      back.statements = hook.statements ∧
      (back = hook ↔ ∃ n < 18446744073709551616, hook.wait.totalNanos = n * 1000000) := by
  have hstatements (wait : Duration) : ({ hook with wait } : Hook).statements = hook.statements :=
    rfl
  refine ⟨hook.inMillis, ?_, hstatements _, in_millis_iff⟩
  rw [Json.decode_text_render hook.complete_to_json]
  exact hook.decode_to_json .document

end Hook

/-! ## The hooks of both phases -/

namespace Hooks

/-- The hooks with the pauses that are left of them in the written form. -/
def inMillis (hooks : Hooks) : Hooks :=
  ⟨hooks.before.map Hook.inMillis, hooks.after.map Hook.inMillis⟩

/-- Hooks are the same in their written form exactly if each of them is. -/
theorem in_millis_iff {hooks : Hooks} :
    hooks.inMillis = hooks ↔ ∀ hook ∈ hooks.before ++ hooks.after, hook.inMillis = hook := by
  have hlist (list : List Hook) :
      list.map Hook.inMillis = list ↔ ∀ hook ∈ list, hook.inMillis = hook := by
    have h : list.map Hook.inMillis = list.map id ↔ _ := List.map_inj_left
    rwa [List.map_id] at h
  rw [List.forall_mem_append, ← hlist, ← hlist]
  exact Hooks.mk.injEq .. ▸ Iff.rfl

/-- The members of written hooks. -/
def members (hooks : Hooks) : List (String × Json) :=
  listMember "before" hooks.before ++ listMember "after" hooks.after

/-- The written form of hooks is the object of their members. -/
theorem to_json_eq (hooks : Hooks) : hooks.toJson = Json.ofMembers hooks.members := rfl

/-- A written list of hooks is decoded hook by hook. -/
theorem decode_list (origin : Json.Origin) (hooks : List Hook) :
    Json.list (Hook.decode origin) (Json.ofList (hooks.map Hook.toJson)) =
      .ok (hooks.map Hook.inMillis) :=
  Json.list_of_list fun hook _ => hook.decode_to_json origin

/-- The member for a list of hooks has its name and holds the list. -/
theorem eq_of_list_member {name : String} {hooks : List Hook} {m : String × Json}
    (h : m ∈ listMember name hooks) : m = (name, Json.ofList (hooks.map Hook.toJson)) := by
  unfold listMember at h
  split at h
  · cases h
  · exact List.mem_singleton.mp h

/-- The members of written hooks fit the fields of the hooks. -/
theorem fits (origin : Json.Origin) (hooks : Hooks) : (layout origin).Fits hooks.members where
  names := by
    obtain ⟨before, after⟩ := hooks
    cases before <;> cases after <;> simp [members, listMember]
  accepted := by
    intro m hm
    rcases List.mem_append.mp hm with hm | hm <;> obtain rfl := eq_of_list_member hm <;>
      exact ⟨_, rfl, Json.Field.accepts_of_ok (decode_list origin _)⟩
  complete := by simp [layout, Json.Field.of]

/-- Hooks are decoded from their written form, with what is left of their pauses. -/
theorem decode_to_json (origin : Json.Origin) (hooks : Hooks) :
    Hooks.decode origin hooks.toJson = .ok hooks.inMillis := by
  have hmembers : (layout origin).members origin hooks.toJson = .ok hooks.members := by
    rw [to_json_eq]
    exact Json.Layout.members_of_fits (hooks.fits origin) origin
  have hbefore : Json.member hooks.members "before" (Json.list (Hook.decode origin)) [] =
      .ok hooks.inMillis.before := by
    obtain ⟨before, after⟩ := hooks
    cases before with
    | nil => cases after with
      | nil | cons => rfl
    | cons => exact decode_list origin _
  have hafter : Json.member hooks.members "after" (Json.list (Hook.decode origin)) [] =
      .ok hooks.inMillis.after := by
    obtain ⟨before, after⟩ := hooks
    cases after with
    | nil => cases before with
      | nil | cons => rfl
    | cons => cases before with
      | nil | cons => exact decode_list origin _
  rw [decode, Json.bind_of_ok hmembers, Json.bind_of_ok hbefore, Json.bind_of_ok hafter]
  rfl

/-- The written form of hooks is complete. -/
theorem complete_to_json (hooks : Hooks) : hooks.toJson.Complete := by
  rw [to_json_eq]
  refine .of_members fun m hm => ?_
  rcases List.mem_append.mp hm with hm | hm <;> obtain rfl := eq_of_list_member hm <;>
    exact .of_list fun hook _ => hook.complete_to_json

/-- Hooks of a phase that have been decoded are the same in their written form. -/
theorem list_of_decoded {origin : Json.Origin} {known : List (String × Json)} {name : String}
    {hooks : List Hook}
    (h : Json.member known name (Json.list (Hook.decode origin)) [] = .ok hooks) :
    hooks.map Hook.inMillis = hooks := by
  refine (List.map_congr_left fun hook hhook => ?_).trans (List.map_id hooks)
  rcases Json.decoded_of_member h with rfl | ⟨v, hv⟩
  · cases hhook
  · obtain ⟨item, hitem⟩ := Json.decoded_of_mem hv hhook
    exact Hook.in_millis_of_decoded hitem

/-- Hooks that have been decoded are the same in their written form. -/
theorem in_millis_of_decoded {origin : Json.Origin} {v : Json} {hooks : Hooks}
    (h : Hooks.decode origin v = .ok hooks) : hooks.inMillis = hooks := by
  obtain ⟨known, -, h⟩ := Json.ok_of_bind h
  obtain ⟨before, hbefore, h⟩ := Json.ok_of_bind h
  obtain ⟨after, hafter, h⟩ := Json.ok_of_bind h
  obtain rfl := Except.ok.inj h
  show Hooks.mk (before.map Hook.inMillis) (after.map Hook.inMillis) = _
  rw [list_of_decoded hbefore, list_of_decoded hafter]

end Hooks

end BulkLoad
