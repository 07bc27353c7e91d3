import BulkLoad.Proofs.Hook.Written
import BulkLoad.Settings

/-!
# Configurations and their written form

A configuration is decoded from its written form with the pauses of its hooks in whole milliseconds
of 64 bits (`decode_to_json`). So it is read back from its own text as it is exactly if it has no
other pauses, and a configuration that was read from a text has none (`of_text_render`).
-/

namespace BulkLoad.Config

/-- The configuration with the pauses that are left of its hooks in the written form. -/
def inMillis (c : Config) : Config := { c with hooks := c.hooks.inMillis }

/-- The written form of an optional number. -/
def writtenNumber : Option UInt64 → Json := Json.ofOption fun n => Json.ofNat n.toNat

/-- The members of a written configuration. -/
def members (c : Config) : List (String × Json) := [
  ("graph_name", Json.ofString c.graphName),
  ("batch", writtenNumber c.batch),
  ("reader_concurrency", writtenNumber c.readerConcurrency),
  ("importer_concurrency", writtenNumber c.importerConcurrency),
  ("stats_interval_ms", writtenNumber c.statsIntervalMillis),
  ("hooks", c.hooks.toJson)]

/-- The written form of a configuration is the object of its members. -/
theorem to_json_eq (c : Config) : c.toJson = Json.ofMembers c.members := rfl

/-- An optional number is decoded from its written form. -/
theorem decode_number (expected : String) (n : Option UInt64) :
    Json.optional (Json.natural expected) (writtenNumber n) = .ok n :=
  Json.optional_of_option nofun (Json.natural_of_count expected) n

/-- The members of a written configuration fit its fields. -/
theorem fits (c : Config) : layout.Fits c.members where
  names := by simp [members]
  accepted := by
    have hcount (n : Option UInt64) : decodeCount (writtenNumber n) = .ok n := decode_number _ n
    have hinterval : decodeInterval (writtenNumber c.statsIntervalMillis) = .ok _ :=
      decode_number _ _
    simp only [members, List.forall_mem_cons]
    exact ⟨⟨_, rfl, Json.Field.accepts_of_ok (Json.text_of_string _)⟩,
      ⟨_, rfl, Json.Field.accepts_of_ok (hcount _)⟩,
      ⟨_, rfl, Json.Field.accepts_of_ok (hcount _)⟩,
      ⟨_, rfl, Json.Field.accepts_of_ok (hcount _)⟩,
      ⟨_, rfl, Json.Field.accepts_of_ok hinterval⟩,
      ⟨_, rfl, Json.Field.accepts_of_ok (c.hooks.decode_to_json .document)⟩, nofun⟩
  complete := by simp [layout, Json.Field.of, members]

/-- A configuration is decoded from its written form, with what is left of its pauses. -/
theorem decode_to_json (c : Config) : decode c.toJson = .ok c.inMillis := by
  have hmembers : layout.members .document c.toJson = .ok c.members := by
    rw [to_json_eq]
    exact Json.Layout.members_of_fits c.fits .document
  have hname : Json.member c.members "graph_name" Json.text "" = .ok c.graphName :=
    Json.text_of_string c.graphName
  have hbatch : Json.member c.members "batch" decodeCount none = .ok c.batch :=
    decode_number _ c.batch
  have hreaders : Json.member c.members "reader_concurrency" decodeCount none =
    .ok c.readerConcurrency := decode_number _ c.readerConcurrency
  have himporters : Json.member c.members "importer_concurrency" decodeCount none =
    .ok c.importerConcurrency := decode_number _ c.importerConcurrency
  have hinterval : Json.member c.members "stats_interval_ms" decodeInterval none =
    .ok c.statsIntervalMillis := decode_number _ c.statsIntervalMillis
  have hhooks : Json.member c.members "hooks" (Hooks.decode .document) {} =
    .ok c.hooks.inMillis := c.hooks.decode_to_json .document
  rw [decode, Json.bind_of_ok hmembers, Json.bind_of_ok hname, Json.bind_of_ok hbatch,
    Json.bind_of_ok hreaders, Json.bind_of_ok himporters, Json.bind_of_ok hinterval,
    Json.bind_of_ok hhooks]
  rfl

/-- The written form of a configuration is complete. -/
theorem complete_to_json (c : Config) : c.toJson.Complete := by
  have hnumber (n : Option UInt64) : (writtenNumber n).Complete :=
    .of_option fun _ _ => .of_nat _
  rw [to_json_eq]
  refine .of_members ?_
  simp only [members, List.forall_mem_cons]
  exact ⟨.of_string _, hnumber _, hnumber _, hnumber _, hnumber _, c.hooks.complete_to_json, nofun⟩

/-- A configuration that has been decoded is the same in its written form. -/
theorem in_millis_of_decoded {v : Json} {c : Config} (h : decode v = .ok c) : c.inMillis = c := by
  obtain ⟨known, -, h⟩ := Json.ok_of_bind h
  obtain ⟨graphName, -, h⟩ := Json.ok_of_bind h
  obtain ⟨batch, -, h⟩ := Json.ok_of_bind h
  obtain ⟨readerConcurrency, -, h⟩ := Json.ok_of_bind h
  obtain ⟨importerConcurrency, -, h⟩ := Json.ok_of_bind h
  obtain ⟨statsIntervalMillis, -, h⟩ := Json.ok_of_bind h
  obtain ⟨hooks, hhooks, h⟩ := Json.ok_of_bind h
  obtain rfl := Except.ok.inj h
  have hsame : hooks.inMillis = hooks := by
    rcases Json.decoded_of_member hhooks with rfl | ⟨v, hv⟩
    · rfl
    · exact Hooks.in_millis_of_decoded hv
  exact congrArg (Config.mk graphName batch readerConcurrency importerConcurrency
    statsIntervalMillis) hsame

/-- A configuration is read back from its text, with what is left of its pauses. -/
theorem in_millis_of_render (c : Config) : ofText c.toJson.render = .ok c.inMillis := by
  rw [ofText, Json.decode_text_render c.complete_to_json, decode_to_json]

/-- A configuration is the same in its written form exactly if all pauses of its hooks are. -/
theorem in_millis_iff {c : Config} :
    c.inMillis = c ↔ ∀ hook ∈ c.hooks.before ++ c.hooks.after, hook.inMillis = hook := by
  rw [← Hooks.in_millis_iff]
  constructor
  · exact fun h => congrArg Config.hooks h
  · intro h
    show { c with hooks := c.hooks.inMillis } = c
    rw [h]

/-- A configuration, whatever its texts and numbers, is read back from its own text as it is exactly
if all pauses of its hooks are of whole milliseconds that fit 64 bits. Every configuration that was
read from a text is. -/
theorem of_text_render (c : Config) :
    (ofText c.toJson.render = .ok c ↔ ∀ hook ∈ c.hooks.before ++ c.hooks.after,
      ∃ n < 18446744073709551616, hook.wait.totalNanos = n * 1000000) ∧
    ∀ raw, ofText raw = .ok c → ofText c.toJson.render = .ok c := by
  have hsame : ofText c.toJson.render = .ok c ↔ c.inMillis = c := by
    rw [in_millis_of_render, Except.ok.injEq]
  refine ⟨?_, fun raw hread => ?_⟩
  · rw [hsame, in_millis_iff]
    simp only [Hook.in_millis_iff]
  · have hdecoded : decode (Json.read raw.toList).1 = .ok c := Json.decode_of_text hread
    exact hsame.mpr (in_millis_of_decoded hdecoded)

namespace Sample

/-- A text with escapes, with numbers at their limit, and with members in another order than the
written form has. -/
def raw : String :=
  "\x7b\"hooks\":\x7b\"after\":[\x7b\"wait_ms\":18446744073709551615," ++
    "\"statements\":[\"SAY \\\"h\\u00e9\\\"\"]\x7d]\x7d," ++
    "\"batch\":18446744073709551615,\"graph_name\":\"g\\ud83d\\ude00\"\x7d"

/-- What the text describes. -/
def config : Config where
  graphName := "g😀"
  batch := some 18446744073709551615
  hooks := { after := [⟨["SAY \"hé\""], Duration.ofMillis 18446744073709551615⟩] }

end Sample

/-- The configuration of the sample text is read back from its own text, with its longest pause. -/
theorem of_text_sample :
    ofText Sample.raw = .ok Sample.config ∧
      ofText Sample.config.toJson.render = .ok Sample.config ∧
      ∀ hook ∈ Sample.config.hooks.before ++ Sample.config.hooks.after,
        ∃ n < 18446744073709551616, hook.wait.totalNanos = n * 1000000 := by
  have hread : ofText Sample.raw = .ok Sample.config := Json.ok_of_to_option (by decide +kernel)
  obtain ⟨hmillis, hback⟩ := of_text_render Sample.config
  exact ⟨hread, hback Sample.raw hread, hmillis.mp (hback Sample.raw hread)⟩

end BulkLoad.Config
