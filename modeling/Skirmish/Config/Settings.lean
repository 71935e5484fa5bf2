import Skirmish.Config.Address
import Skirmish.Text.Numeral
import Skirmish.Json.Value

/-!
# Server settings

`Config.fromLookup` builds the settings from a lookup of environment variables, checking in a
fixed order and stopping at the first failure. The listening address comes first: `PORT` means
`0.0.0.0:PORT`, otherwise `SERVER_ADDR`, otherwise `0.0.0.0:8080`. It must read as a socket
address. `JWT_SECRET` must be set and not empty. The numeric settings follow, each read after
trimming as an unsigned integer of its width, a default standing for an unset variable. An empty
statistics URL or key counts as unset.
-/

namespace Skirmish

/-- Why the settings cannot be built. -/
inductive ConfigError where
  | missing (name : String)
  | invalid (name : String)
  | invalidAddress
  deriving Repr, DecidableEq

namespace ConfigError

/-- The name of the failure. -/
def kind : ConfigError → String
  | .missing _ => "Missing"
  | .invalid _ => "Invalid"
  | .invalidAddress => "InvalidAddress"

/-- The text of the failure. -/
def message : ConfigError → String
  | .missing n => "Missing required environment variable: " ++ n
  | .invalid n => "Invalid value for environment variable: " ++ n
  | .invalidAddress => "Invalid server address format"

end ConfigError

/-- The server's settings. -/
structure Config where
  serverAddr : SocketAddr
  logLevel : String
  jwtSecret : String
  /-- The origins allowed to call the API, separated by commas. -/
  clientOrigin : String
  statsUrl : Option String
  statsApiKey : Option String
  tickRate : Nat
  matchIntervalMs : Nat
  roomSweepSecs : Nat
  outboundQueueSize : Nat
  maxRooms : Nat
  shutdownGraceSecs : Nat

namespace Config

open Json

/-- The largest value of an unsigned integer of `bits` bits. -/
def widest (bits : Nat) : Nat := Nat.pow 2 bits - 1

/-- A numeric setting: the variable read when set, or the default. -/
def numeric (lookup : String → Option String) (name : String) (bits default : Nat) :
    Except ConfigError Nat :=
  match lookup name with
  | some raw =>
    match Text.parseUnsigned (Text.trimWhite raw) (widest bits) with
    | some n => .ok n
    | none => .error (.invalid name)
  | none => .ok default

/-- A setting whose empty value counts as unset. -/
def nonEmpty (lookup : String → Option String) (name : String) : Option String :=
  (lookup name).filter (!·.isEmpty)

/-- The environment variables the settings are read from. -/
def environmentNames : List String :=
  ["PORT", "SERVER_ADDR", "LOG_LEVEL", "JWT_SECRET", "CLIENT_ORIGIN", "STATS_URL", "STATS_API_KEY",
   "TICK_RATE", "MATCH_INTERVAL_MS", "ROOM_SWEEP_SECS", "OUTBOUND_QUEUE_SIZE", "MAX_ROOMS",
   "SHUTDOWN_GRACE_SECS"]

/-- The text of the listening address: `0.0.0.0:PORT` when `PORT` is set, otherwise
`SERVER_ADDR`, otherwise `0.0.0.0:8080`. -/
def listenText (lookup : String → Option String) : String :=
  match lookup "PORT" with
  | some p => "0.0.0.0:" ++ p
  | none => (lookup "SERVER_ADDR").getD "0.0.0.0:8080"

/-- The settings a lookup of environment variables gives. -/
def fromLookup (lookup : String → Option String) : Except ConfigError Config := do
  let some serverAddr := SocketAddr.parse (listenText lookup) | throw .invalidAddress
  let logLevel := (lookup "LOG_LEVEL").getD "info"
  let some jwtSecret := nonEmpty lookup "JWT_SECRET" | throw (.missing "JWT_SECRET")
  let clientOrigin := (lookup "CLIENT_ORIGIN").getD "http://localhost:3000"
  pure {
    serverAddr, logLevel, jwtSecret, clientOrigin
    statsUrl := nonEmpty lookup "STATS_URL"
    statsApiKey := nonEmpty lookup "STATS_API_KEY"
    tickRate := ← numeric lookup "TICK_RATE" 32 60
    matchIntervalMs := ← numeric lookup "MATCH_INTERVAL_MS" 64 1000
    roomSweepSecs := ← numeric lookup "ROOM_SWEEP_SECS" 64 10
    outboundQueueSize := ← numeric lookup "OUTBOUND_QUEUE_SIZE" 64 256
    maxRooms := ← numeric lookup "MAX_ROOMS" 64 500
    shutdownGraceSecs := ← numeric lookup "SHUTDOWN_GRACE_SECS" 64 5 }

/-- The settings as a JSON object, one member per setting, durations in their units. -/
def toJson (c : Config) : Json :=
  .object [("server_addr", .string c.serverAddr.text), ("log_level", .string c.logLevel),
    ("jwt_secret", .string c.jwtSecret), ("client_origin", .string c.clientOrigin),
    ("stats_url", .optional .string c.statsUrl), ("stats_api_key", .optional .string c.statsApiKey),
    ("tick_rate", .nat c.tickRate), ("match_interval_ms", .nat c.matchIntervalMs),
    ("room_sweep_secs", .nat c.roomSweepSecs), ("outbound_queue_size", .nat c.outboundQueueSize),
    ("max_rooms", .nat c.maxRooms), ("shutdown_grace_secs", .nat c.shutdownGraceSecs)]

end Config

end Skirmish
