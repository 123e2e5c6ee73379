/-
# Faults

What can go wrong, by cause, and the text that tells of it. A source file or a state file that cannot
be read is recovered from where it occurs; the others end the operation.

Key definitions: `Fault`, `Fault.message`, `Fault.isRecoverable`, `Failure`.
-/
import CodeAtlas.Text.Blank

namespace CodeAtlas

/-- Why an operation failed. -/
inductive Fault where
  | parse (path message : String)
  | connection (message : String)
  | transaction (batch : String) (attempts : Nat) (message : String)
  | stateCorruption (path message : String)
  | queryExecution (query message : String)
  | config (message : String)
  | io (message : String)
  deriving DecidableEq

namespace Fault

/-- The name of the kind of a fault. -/
def kindName : Fault → String
  | .parse .. => "Parse"
  | .connection _ => "Connection"
  | .transaction .. => "Transaction"
  | .stateCorruption .. => "StateCorruption"
  | .queryExecution .. => "QueryExecution"
  | .config _ => "Config"
  | .io _ => "Io"

/-- The text of a fault. -/
def message : Fault → String
  | .parse path message => "failed to parse " ++ path ++ ": " ++ message
  | .connection message => "graph database connection failed: " ++ message
  | .transaction batch attempts message =>
    "transaction for " ++ batch ++ " failed after " ++ toString attempts ++ " attempt(s): " ++ message
  | .stateCorruption path message => "sync state at " ++ path ++ " is unreadable: " ++ message
  | .queryExecution query message => "query failed: " ++ message ++ "\n  query: " ++ query
  | .config message => "invalid configuration: " ++ message
  | .io message => message

/-- Whether the operation goes on after the fault. -/
def isRecoverable : Fault → Bool
  | .parse .. | .stateCorruption .. => true
  | _ => false

end Fault

/-- A fault and what was being done when it arose, the outermost first. -/
structure Failure where
  context : List String
  fault : Fault
  deriving DecidableEq

namespace Failure

/-- A fault on its own. -/
def ofFault (fault : Fault) : Failure := ⟨[], fault⟩

/-- The failure of something done as part of `step`. -/
def within (step : String) (f : Failure) : Failure := ⟨step :: f.context, f.fault⟩

/-- What was being done and the fault, each after a colon. -/
def message (f : Failure) : String := Text.join ": " (f.context ++ [f.fault.message])

end Failure

end CodeAtlas
