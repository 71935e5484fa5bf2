import Skirmish.Config.Settings

/-!
# Starting the server

A start reads the settings from the environment and then takes the listening address; the first
of these that fails ends the start. The command line reports a failed start on the error stream
as `Error: ` and the failure's text, and exits with status `1`.

Taking an address fails for reasons of the system, which keep the system's wording and error
number; `addressInUse` is the one a second server on the same address meets.
-/

namespace Skirmish

/-- Why the listening address could not be taken. -/
inductive BindError where
  /-- Another socket holds the address. -/
  | addressInUse
  /-- Any other refusal, in the system's words. -/
  | other (text : String)
  deriving Repr, DecidableEq

/-- The text of a refused address. -/
def BindError.message : BindError → String
  | .addressInUse => "Address already in use (os error 98)"
  | .other text => text

/-- Why a start failed. -/
inductive StartError where
  /-- The settings are missing or invalid. -/
  | config (e : ConfigError)
  /-- The listening address could not be taken. -/
  | bind (e : BindError)
  deriving Repr, DecidableEq

namespace StartError

/-- The text of a failed start. -/
def message : StartError → String
  | .config e => e.message
  | .bind e => e.message

/-- What the command line writes to the error stream for a failed start. -/
def report (e : StartError) : String := "Error: " ++ e.message ++ "\n"

/-- The exit status of a failed start. -/
def exitCode (_ : StartError) : Nat := 1

end StartError

/-- Starts over an environment `lookup`, where `bind` says why an address cannot be taken, if it
cannot: the settings the server then runs with. -/
def startWith (lookup : String → Option String) (bind : SocketAddr → Option BindError) :
    Except StartError Config :=
  match Config.fromLookup lookup with
  | .error e => .error (.config e)
  | .ok c =>
    match bind c.serverAddr with
    | some e => .error (.bind e)
    | none => .ok c

end Skirmish
