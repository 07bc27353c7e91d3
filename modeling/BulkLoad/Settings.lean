import BulkLoad.Hook
import BulkLoad.Log

/-!
# Settings of a run

A `Config` is what a user writes, with everything but the name of the graph optional. `validate`
turns it into complete `Settings`, replacing what is missing or zero, and reports what in it has no
effect.
-/

namespace BulkLoad

/-- The configuration of a run as it is written. -/
structure Config where
  graphName : String := ""
  batch : Option UInt64 := none
  readerConcurrency : Option UInt64 := none
  importerConcurrency : Option UInt64 := none
  statsIntervalMillis : Option UInt64 := none
  hooks : Hooks := {}
deriving DecidableEq

/-- Records in a batch when nothing else is said. -/
def defaultBatch : Nat := 128

/-- Sources read at the same time when nothing else is said. -/
def defaultReaderConcurrency : Nat := 50

/-- Batches imported at the same time when nothing else is said. -/
def defaultImporterConcurrency : Nat := 512

/-- The time between two progress reports when nothing else is said. -/
def defaultStatsInterval : Duration := Duration.ofSecs 10

/-- The complete settings of a run. Without an interval there are no progress reports. -/
structure Settings where
  graphName : String := ""
  batch : Nat := defaultBatch
  readerConcurrency : Nat := defaultReaderConcurrency
  importerConcurrency : Nat := defaultImporterConcurrency
  statsInterval : Option Duration := some defaultStatsInterval
  hooks : Hooks := {}
deriving DecidableEq

/-- A written configuration that cannot be used. -/
inductive SettingsError where
  | parse (refusal : Json.Refusal)
  | missingGraphName

namespace Config

/-- The JSON form of a configuration. -/
def toJson (c : Config) : Json :=
  let optional (n : Option UInt64) : Json := Json.ofOption (fun n => Json.ofNat n.toNat) n
  Json.ofMembers [
    ("graph_name", Json.ofString c.graphName),
    ("batch", optional c.batch),
    ("reader_concurrency", optional c.readerConcurrency),
    ("importer_concurrency", optional c.importerConcurrency),
    ("stats_interval_ms", optional c.statsIntervalMillis),
    ("hooks", c.hooks.toJson)]

/-- Decode an optional count. -/
def decodeCount : Json.Decoder (Option UInt64) := Json.optional (Json.natural "usize")

/-- Decode an optional number of milliseconds. -/
def decodeInterval : Json.Decoder (Option UInt64) := Json.optional (Json.natural "u64")

/-- The fields of a configuration. -/
def layout : Json.Layout where
  title := "struct ManagerConfig"
  fields := [
    Json.Field.of "graph_name" true Json.text,
    Json.Field.of "batch" false decodeCount,
    Json.Field.of "reader_concurrency" false decodeCount,
    Json.Field.of "importer_concurrency" false decodeCount,
    Json.Field.of "stats_interval_ms" false decodeInterval,
    Json.Field.of "hooks" false (Hooks.decode .document)]

/-- Decode a configuration. -/
def decode : Json.Decoder Config := fun v => do
  let known ← layout.members .document v
  return {
    graphName := ← Json.member known "graph_name" Json.text ""
    batch := ← Json.member known "batch" decodeCount none
    readerConcurrency := ← Json.member known "reader_concurrency" decodeCount none
    importerConcurrency := ← Json.member known "importer_concurrency" decodeCount none
    statsIntervalMillis := ← Json.member known "stats_interval_ms" decodeInterval none
    hooks := ← Json.member known "hooks" (Hooks.decode .document) {} }

/-- Read a configuration from its text. -/
def ofText (raw : String) : Except Json.Refusal Config := Json.decodeText decode raw

/-- The value, or the default in place of nothing and of zero. -/
def positiveOr (value : Option UInt64) (default : Nat) : Nat :=
  match value with
  | none => default
  | some n => if 0 < n then n.toNat else default

/-- A warning for each hook of a phase that does nothing. -/
def idleWarnings (hooks : Hooks) (phase : HookPhase) : List LogLine :=
  (hooks.phase phase).zipIdx.filterMap fun (hook, index) =>
    if hook.isIdle then
      some (.warning "Hook has no statements and no wait, it does nothing"
        [("phase", phase.word), ("index", toString index)])
    else none

/-- A warning when progress reports are switched off by an interval of zero. -/
def intervalWarnings (c : Config) : List LogLine :=
  if c.statsIntervalMillis == some 0 then
    [.warning "Stats interval is 0, periodic stats logging disabled" []]
  else []

/-- The complete settings, and warnings about what has no effect. Nothing but a blank name of the
graph is refused. -/
def validate (c : Config) : Except SettingsError Settings × List LogLine :=
  if Text.isBlank c.graphName then (.error .missingGraphName, [])
  else
    let settings : Settings := {
      graphName := c.graphName
      batch := positiveOr c.batch defaultBatch
      readerConcurrency := positiveOr c.readerConcurrency defaultReaderConcurrency
      importerConcurrency := positiveOr c.importerConcurrency defaultImporterConcurrency
      statsInterval :=
        match c.statsIntervalMillis with
        | none => some defaultStatsInterval
        | some n => if n == 0 then none else some (Duration.ofMillis n.toNat)
      hooks := c.hooks }
    (.ok settings,
      idleWarnings c.hooks .before ++ idleWarnings c.hooks .after ++ intervalWarnings c)

end Config

/-- The complete settings that a text describes, and the warnings about it. -/
def Settings.ofText (raw : String) : Except SettingsError Settings × List LogLine :=
  match Config.ofText raw with
  | .error refusal => (.error (.parse refusal), [])
  | .ok config => config.validate

end BulkLoad
