import BulkLoad.Text.Quoted

/-!
# What can go wrong

One type of errors for each part of the program, from the source of the records to the manager of
the run. A constructor names a cause and holds what is known about it; `message` is the text shown
to the user.
-/

namespace BulkLoad

/-- When a list of hooks runs, relative to the import. -/
inductive HookPhase where
  | before
  | after
deriving DecidableEq

/-- The word for a phase. -/
def HookPhase.word : HookPhase → String
  | before => "before"
  | after => "after"

/-- A failure of a source of records. -/
inductive SourceError where
  | «open» (name message : String)
  | size (name message : String)
  | query (name message : String)
  | close (name message : String)
  | notOpen (name : String)
  | invalidConfig (message : String)
deriving DecidableEq

/-- The text of a source error. -/
def SourceError.message : SourceError → String
  | «open» name message => "Failed to open source '" ++ name ++ "': " ++ message
  | size name message => "Failed to size source '" ++ name ++ "': " ++ message
  | query name message => "Failed to query source '" ++ name ++ "': " ++ message
  | close name message => "Failed to close source '" ++ name ++ "': " ++ message
  | notOpen name => "Source '" ++ name ++ "' is not open"
  | invalidConfig message => "Invalid source config: " ++ message

/-- A failure of the client pool or of one of its clients. -/
inductive ClientError where
  | poolNotOpen
  | «open» (message : String)
  | acquire (message : String)
  | transport (message : String)
  | rejected (message : String)
deriving DecidableEq

/-- The text of a client error. -/
def ClientError.message : ClientError → String
  | poolNotOpen => "Client pool is not open"
  | «open» message => "Failed to open client pool: " ++ message
  | acquire message => "Failed to acquire client: " ++ message
  | transport message => "Transport error: " ++ message
  | rejected message => "Server rejected statement: " ++ message

/-- A group of records from which no statement can be built. -/
inductive BuildError where
  | missingField (index expected actual : Nat)
  | other (message : String)
deriving DecidableEq

/-- The text of a build error. -/
def BuildError.message : BuildError → String
  | missingField index expected actual =>
      "Record " ++ toString index ++ " has " ++ toString actual ++ " fields, expected at least " ++
        toString expected
  | other message => "Failed to build statement: " ++ message

/-- A worker pool, named here, that takes no more work. -/
structure PoolClosed where
  name : String
deriving DecidableEq

/-- The text of a refusal by a closed pool. -/
def PoolClosed.message (e : PoolClosed) : String := "Worker pool '" ++ e.name ++ "' is closed"

/-- A raw record that cannot be converted. -/
inductive ConvertError where
  | fieldCount (expected actual : Nat)
  | other (message : String)
deriving DecidableEq

/-- The text of a conversion error. -/
def ConvertError.message : ConvertError → String
  | fieldCount expected actual =>
      "Record has " ++ toString actual ++ " fields, expected " ++ toString expected
  | other message => "Conversion failed: " ++ message

/-- Why a reader has no record or no batch to give. After `skip` reading goes on, and `eof` is the
regular end. -/
inductive ReadError where
  | skip (bytes : Nat) (reason : String)
  | eof
  | failed (sourceName message : String)
  | source (error : SourceError)
  | convert (error : ConvertError)
  | aborted (message : String)
deriving DecidableEq

/-- The text of a read error. -/
def ReadError.message : ReadError → String
  | skip _ reason => "Skipping record: " ++ reason
  | eof => "End of stream"
  | failed sourceName message => "Read failed on source '" ++ sourceName ++ "': " ++ message
  | source error => "Source error: " ++ error.message
  | convert error => "Conversion error: " ++ error.message
  | aborted message => "Reader task aborted: " ++ message

/-- Whether the source is exhausted. -/
def ReadError.isEof : ReadError → Bool
  | eof => true
  | _ => false

/-- Whether reading goes on after the error. -/
def ReadError.isSkip : ReadError → Bool
  | skip _ _ => true
  | _ => false

/-- A sub-batch that was not imported. -/
inductive ImportError where
  | build (records : Nat) (error : BuildError)
  | execute (statement : String) (attempts : Nat) (error : ClientError)
deriving DecidableEq

/-- The text of an import error. -/
def ImportError.message : ImportError → String
  | build records error =>
      "Failed to build statement for " ++ toString records ++ " records: " ++ error.message
  | execute statement attempts error =>
      "Statement failed after " ++ toString attempts ++ " attempts: " ++ error.message ++
        "; statement: " ++ statement

/-- The statement that failed, if one was sent. -/
def ImportError.statement? : ImportError → Option String
  | execute statement _ _ => some statement
  | build _ _ => none

/-- An error of the manager of a run, with the name of the graph. -/
inductive ManagerError where
  | openSource (graph sourceName : String) (error : SourceError)
  | sourceSize (graph sourceName : String) (error : SourceError)
  | submit (graph sourceName : String) (error : PoolClosed)
  | readBatch (graph sourceName : String) (error : ReadError)
  | hook (graph : String) (phase : HookPhase) (statement message : String)
  | clientPool (graph : String) (error : ClientError)
  | stopped (graph : String)
  | task (graph message : String)
deriving DecidableEq

/-- The text of a manager error. -/
def ManagerError.message : ManagerError → String
  | openSource graph name error =>
      "[" ++ graph ++ "] Failed to open source '" ++ name ++ "': " ++ error.message
  | sourceSize graph name error =>
      "[" ++ graph ++ "] Failed to size source '" ++ name ++ "': " ++ error.message
  | submit graph name error =>
      "[" ++ graph ++ "] Failed to submit job for source '" ++ name ++ "': " ++ error.message
  | readBatch graph name error =>
      "[" ++ graph ++ "] Failed to read from source '" ++ name ++ "': " ++ error.message
  | hook graph phase statement message =>
      "[" ++ graph ++ "] " ++ phase.word ++ " hook failed on statement '" ++ statement ++ "': " ++
        message
  | clientPool graph error => "[" ++ graph ++ "] Client pool error: " ++ error.message
  | stopped graph => "[" ++ graph ++ "] Manager already stopped"
  | task graph message => "[" ++ graph ++ "] Job task failed: " ++ message

/-- The message of a task that panicked. The number of the task is not known. -/
def panicMessage (text : String) : String :=
  "task N panicked with message " ++ Text.quoted text

end BulkLoad
