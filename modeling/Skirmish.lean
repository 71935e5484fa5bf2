import Skirmish.Auth.Base64
import Skirmish.Auth.Sha256
import Skirmish.Auth.Token
import Skirmish.Binary.Convert
import Skirmish.Binary.Format
import Skirmish.Checked
import Skirmish.Clock
import Skirmish.Config.Address
import Skirmish.Config.Settings
import Skirmish.Config.Startup
import Skirmish.Decimal.Reading
import Skirmish.Decimal.Shortest
import Skirmish.Decimal.Text
import Skirmish.Game.Combat
import Skirmish.Game.Entity
import Skirmish.Game.Frame
import Skirmish.Game.Mode
import Skirmish.Game.Physics
import Skirmish.Game.Skill
import Skirmish.Game.World
import Skirmish.Geometry.Vec2
import Skirmish.Http.Body
import Skirmish.Http.Cors
import Skirmish.Http.Message
import Skirmish.Http.Router
import Skirmish.Ident.Uuid
import Skirmish.Json.Cursor
import Skirmish.Json.Lexeme
import Skirmish.Json.Read
import Skirmish.Json.Settle
import Skirmish.Json.Typed
import Skirmish.Json.Value
import Skirmish.Json.Write
import Skirmish.Main
import Skirmish.Match.Queue
import Skirmish.Match.Service
import Skirmish.Net.Hub
import Skirmish.Proofs.Combat.Hits
import Skirmish.Proofs.Combat.Pass
import Skirmish.Proofs.Combat.Wounds
import Skirmish.Proofs.Room.Ending
import Skirmish.Proofs.Room.Events
import Skirmish.Proofs.Room.Health
import Skirmish.Proofs.Room.Joins
import Skirmish.Proofs.Room.Lifecycle
import Skirmish.Proofs.Room.Seats
import Skirmish.Proofs.Room.Tallies
import Skirmish.Proofs.Server.Calls
import Skirmish.Proofs.Server.Delivery
import Skirmish.Proofs.Server.Links
import Skirmish.Proofs.Server.Outbox
import Skirmish.Proofs.Server.Tenure
import Skirmish.Proofs.Server.Worklist
import Skirmish.Proofs.World.Ids
import Skirmish.Proofs.World.Later
import Skirmish.Proofs.World.Scores
import Skirmish.Proofs.World.Sound
import Skirmish.Proofs.World.Tick
import Skirmish.Random.ChaCha
import Skirmish.Room.Room
import Skirmish.Room.Rules
import Skirmish.Server.App
import Skirmish.Server.State
import Skirmish.Text.Numeral
import Skirmish.Timing
import Skirmish.Wire.ClientMsg
import Skirmish.Wire.Decode
import Skirmish.Wire.ServerMsg
import Skirmish.Proofs.Match.Batch
import Skirmish.Proofs.Match.Ledger
import Skirmish.Proofs.Match.QueueLaws
import Skirmish.Proofs.Combat.Impact
import Skirmish.Proofs.Combat.Outcome
import Skirmish.Proofs.Combat.Settled
import Skirmish.Proofs.Wire.ClientText
import Skirmish.Proofs.Wire.Classify
import Skirmish.Proofs.Room.Teams
import Skirmish.Proofs.Room.Input
import Skirmish.Proofs.Server.Closing
import Skirmish.Proofs.Server.Replies
import Skirmish.Proofs.Server.Teardown
import Skirmish.Proofs.Server.Registry
import Skirmish.Proofs.Server.Sweep
import Skirmish.Proofs.Auth.Verify
import Skirmish.Proofs.Config.Reading
import Skirmish.Proofs.World.Allocation
