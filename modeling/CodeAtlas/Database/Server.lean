/-
# Database servers

A server is a type of states and what can be asked of it: to run a statement, to run one and read its
rows, and to begin, commit or roll back a transaction. Each may be refused. A server is reached over a
network by an address of a known scheme.

Key definitions: `Call`, `Refused`, `Server`, `Network`, `Network.reach`.
-/
import CodeAtlas.Database.Value

namespace CodeAtlas

/-- A statement as it is sent: by whom, to which database, and with which parameters. -/
structure Call where
  user : String
  password : String
  database : String
  text : String
  params : List (String × Value)

/-- Why a server refuses: for a reason it tells, or in a way that was not expected. -/
inductive Refused where
  | told (reason : String)
  | unexpected (reason : String)
  deriving DecidableEq

namespace Refused

/-- The text of a refusal. -/
def message : Refused → String
  | .told reason => "Neo4j error \x60Neo.ClientError.Statement.SyntaxError\x60: " ++ reason
  | .unexpected reason => "unexpected response: " ++ reason

end Refused

/-- What can be asked of a server. -/
structure Server (δ : Type) where
  run : Call → δ → Except Refused Unit × δ
  fetch : Call → δ → Except Refused (List Row) × δ
  begin : δ → Except Refused Unit × δ
  commit : δ → Except Refused Unit × δ
  rollback : δ → Except Refused Unit × δ

/-- A network that leads to servers, or one that leads nowhere. -/
inductive Network where
  | online
  | offline
  deriving DecidableEq

namespace Network

/-- The schemes that are understood. -/
def schemes : List String := ["bolt", "bolt+s", "bolt+ssc", "neo4j", "neo4j+s", "neo4j+ssc"]

/-- The scheme of an address, which is what stands before its first colon. -/
def schemeOf (address : String) : String := String.ofList (address.toList.takeWhile (· != ':'))

/-- Whether an address can be reached, or why not. -/
def reach (n : Network) (address : String) : Except String Unit :=
  let scheme := schemeOf address
  if !schemes.contains scheme then .error ("Unsupported URI scheme: " ++ scheme)
  else match n with
    | .online => .ok ()
    | .offline => .error "an IO error occurred: Network is unreachable (os error 101)"

end Network

end CodeAtlas
