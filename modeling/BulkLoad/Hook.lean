import BulkLoad.Duration
import BulkLoad.Error
import BulkLoad.Json.Decode
import BulkLoad.Text.Blank

/-!
# Hooks before and after the import

A hook is a list of statements with a pause after them. Its written form keeps the pause in whole
milliseconds of 64 bits, so a longer or finer pause does not survive writing and reading.
-/

namespace BulkLoad

/-- Statements that are executed in order, and the pause that follows them. -/
structure Hook where
  statements : List String := []
  wait : Duration := Duration.zero
deriving DecidableEq

/-- The hooks that run before the import and those that run after it. -/
structure Hooks where
  before : List Hook := []
  after : List Hook := []
deriving DecidableEq

/-- The hooks of a phase. -/
def Hooks.phase (hooks : Hooks) : HookPhase → List Hook
  | .before => hooks.before
  | .after => hooks.after

/-- The statements that are sent: those that are not blank. -/
def Hook.sent (hook : Hook) : List String := hook.statements.filter fun s => !Text.isBlank s

/-- Whether the hook neither sends a statement nor pauses. -/
def Hook.isIdle (hook : Hook) : Bool := hook.sent.isEmpty && hook.wait.isZero

/-- The pause in milliseconds as it is written, of which only 64 bits are kept. -/
def Hook.waitMillis (hook : Hook) : Nat := hook.wait.millis % 18446744073709551616

/-- The JSON form of a hook. -/
def Hook.toJson (hook : Hook) : Json :=
  Json.ofMembers [
    ("statements", Json.ofList (hook.statements.map Json.ofString)),
    ("wait_ms", Json.ofNat hook.waitMillis)]

/-- The member for a list of hooks, left out when the list is empty. -/
def Hooks.listMember (name : String) (hooks : List Hook) : List (String × Json) :=
  if hooks.isEmpty then [] else [(name, Json.ofList (hooks.map Hook.toJson))]

/-- The JSON form of the hooks. -/
def Hooks.toJson (hooks : Hooks) : Json :=
  Json.ofMembers (listMember "before" hooks.before ++ listMember "after" hooks.after)

/-- Decode a number of milliseconds. -/
def Duration.decodeMillis : Json.Decoder Duration := fun v =>
  (Json.natural "u64" v).map fun n => Duration.ofMillis n.toNat

/-- The fields of a hook. -/
def Hook.layout : Json.Layout where
  title := "struct Hook"
  fields := [
    Json.Field.of "statements" false (Json.list Json.text),
    Json.Field.of "wait_ms" false Duration.decodeMillis]

/-- Decode a hook. -/
def Hook.decode (origin : Json.Origin) : Json.Decoder Hook := fun v => do
  let known ← Hook.layout.members origin v
  return {
    statements := ← Json.member known "statements" (Json.list Json.text) []
    wait := ← Json.member known "wait_ms" Duration.decodeMillis Duration.zero }

/-- The fields of the hooks. -/
def Hooks.layout (origin : Json.Origin) : Json.Layout where
  title := "struct Hooks"
  fields := [
    Json.Field.of "before" false (Json.list (Hook.decode origin)),
    Json.Field.of "after" false (Json.list (Hook.decode origin))]

/-- Decode the hooks. -/
def Hooks.decode (origin : Json.Origin) : Json.Decoder Hooks := fun v => do
  let known ← (Hooks.layout origin).members origin v
  return {
    before := ← Json.member known "before" (Json.list (Hook.decode origin)) []
    after := ← Json.member known "after" (Json.list (Hook.decode origin)) [] }

/-- The phase with this name. -/
def HookPhase.ofWord (word : String) : Except Json.Refusal HookPhase :=
  if word == HookPhase.before.word then .ok .before
  else if word == HookPhase.after.word then .ok .after
  else Json.refuse (.unknownVariant word "`before` or `after`")

/-- Decode the name of a phase. -/
def HookPhase.decode : Json.Decoder HookPhase
  | .string name => do HookPhase.ofWord (← Json.orFault name.text)
  | v => Json.invalidType "variant identifier" v

/-- Read a phase from its text: its name, or an object whose only member has that name and the
value null. Any other beginning is malformed. -/
def HookPhase.ofText (raw : String) : Except Json.Refusal HookPhase :=
  match Json.skipSpace raw.toList with
  | [] => .error (.fault .ended)
  | '"' :: _ => Json.decodeText HookPhase.decode raw
  | '{' :: rest => do
      let name ← Json.after '"' rest
      let (phase, rest) ← Json.decodeNext HookPhase.decode ('"' :: name)
      let (_, rest) ← Json.decodeNext Json.unit (← Json.after ':' rest)
      Json.finished (← Json.after '}' rest)
      return phase
  | _ => .error (.fault .malformed)

end BulkLoad
