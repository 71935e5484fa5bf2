import Skirmish.Geometry.Vec2

/-!
# Entities of a room

Everything simulated in a room is an `Entity`: an id, a position, a rotation in degrees, a
velocity, and the data of its kind — a `Player`, a `Projectile` or an `Effect`. Ids are natural
numbers handed out in increasing order by the world; player ids are the signed account ids of
the players.

Sets of ids and the per-skill cooldowns are kept as lists sorted by key without repeats, so
that equal states are equal values.
-/

namespace Skirmish

/-- A team. `none` is the team of every player in a mode without teams. -/
inductive Team where
  | none
  | red
  | blue
  deriving Repr, DecidableEq, Inhabited

namespace Team

/-- The teams of team-based modes, in the order they are filled. -/
def playable : List Team := [.red, .blue]

/-- Whether two teams are allies: the same team, and not `none`. -/
def isAlly (a b : Team) : Bool := a != .none && a == b

/-- The wire name. -/
def name : Team → String
  | .none => "none"
  | .red => "red"
  | .blue => "blue"

/-- Every team with its wire name, in declaration order. -/
def all : List Team := [.none, .red, .blue]

end Team

/-- The kind of an entity, as reported. -/
inductive EntityType where
  | player
  | projectile
  | effect
  deriving Repr, DecidableEq

/-- The wire name of an entity kind. -/
def EntityType.name : EntityType → String
  | .player => "player"
  | .projectile => "projectile"
  | .effect => "effect"

/-- The cosmetic effects. -/
inductive EffectKind where
  | explosion
  | respawn
  deriving Repr, DecidableEq

/-- The wire name of an effect. -/
def EffectKind.name : EffectKind → String
  | .explosion => "explosion"
  | .respawn => "respawn"

/-- Inserts `x` into a sorted list without repeats. -/
def insertId (x : Nat) : List Nat → List Nat
  | [] => [x]
  | y :: rest => if x = y then y :: rest else if x < y then x :: y :: rest else y :: insertId x rest

/-- A player's combatant. -/
structure Player where
  playerId : Int
  characterId : Nat
  team : Team
  health : Int
  maxHealth : Int
  alive : Bool
  /-- Seconds until respawn while dead. -/
  respawnCountdown : Float32
  /-- Remaining cooldown per skill, sorted by skill id. -/
  cooldowns : List (Nat × Float32)
  /-- Entities that damaged the player since its last respawn, sorted. -/
  damagedBy : List Nat
  kills : Nat
  deaths : Nat
  assists : Nat

/-- A fresh player at full health. -/
def Player.fresh (playerId : Int) (characterId : Nat) (team : Team) (maxHealth : Int) : Player :=
  { playerId, characterId, team, health := maxHealth, maxHealth, alive := true,
    respawnCountdown := 0, cooldowns := [], damagedBy := [], kills := 0, deaths := 0,
    assists := 0 }

/-- The cooldown left for a skill, if one is recorded. -/
def Player.cooldown? (p : Player) (skill : Nat) : Option Float32 :=
  (p.cooldowns.find? (·.1 == skill)).map (·.2)

/-- Whether a skill is cooling down: a recorded cooldown above zero. -/
def Player.onCooldown (p : Player) (skill : Nat) : Bool :=
  match p.cooldown? skill with
  | some remaining => 0 < remaining
  | none => false

/-- Records a cooldown for a skill, replacing the old one. -/
def setCooldown (skill : Nat) (secs : Float32) : List (Nat × Float32) → List (Nat × Float32)
  | [] => [(skill, secs)]
  | (k, v) :: rest =>
    if skill = k then (skill, secs) :: rest
    else if skill < k then (skill, secs) :: (k, v) :: rest
    else (k, v) :: setCooldown skill secs rest

/-- A projectile fired by a skill. -/
structure Projectile where
  /-- The entity that fired it. -/
  ownerId : Nat
  skillId : Nat
  damage : Int
  /-- Seconds left. -/
  lifetime : Float32
  /-- Whether it survives hitting a target. -/
  piercing : Bool
  /-- Players it has damaged, sorted. -/
  hitEntities : List Nat

/-- A short-lived cosmetic entity. -/
structure Effect where
  effect : EffectKind
  /-- Seconds left. -/
  duration : Float32
  ownerId : Option Nat

/-- The data of an entity's kind. -/
inductive EntityKind where
  | player (p : Player)
  | projectile (p : Projectile)
  | effect (e : Effect)

/-- A simulated object. -/
structure Entity where
  id : Nat
  position : Vec2
  /-- Degrees, in `[0, 360)` when set through `setRotation`. -/
  rotation : Float32
  velocity : Vec2
  kind : EntityKind

namespace Entity

/-- A new entity at rest, facing `0`. -/
def fresh (id : Nat) (position : Vec2) (kind : EntityKind) : Entity :=
  ⟨id, position, 0, Vec2.zero, kind⟩

/-- The kind of the entity. -/
def type (e : Entity) : EntityType :=
  match e.kind with
  | .player _ => .player
  | .projectile _ => .projectile
  | .effect _ => .effect

/-- The player data, for a player. -/
def player? (e : Entity) : Option Player :=
  match e.kind with
  | .player p => some p
  | _ => none

/-- The projectile data, for a projectile. -/
def projectile? (e : Entity) : Option Projectile :=
  match e.kind with
  | .projectile p => some p
  | _ => none

/-- Changes the player data of a player; other entities are left as they are. -/
def mapPlayer (f : Player → Player) (e : Entity) : Entity :=
  match e.kind with
  | .player p => { e with kind := .player (f p) }
  | _ => e

/-- Changes the projectile data of a projectile; other entities are left as they are. -/
def mapProjectile (f : Projectile → Projectile) (e : Entity) : Entity :=
  match e.kind with
  | .projectile p => { e with kind := .projectile (f p) }
  | _ => e

/-- Sets the rotation, wrapped into `[0, 360)`. -/
def setRotation (e : Entity) (degrees : Float32) : Entity :=
  { e with rotation := normalizeDegrees degrees }

end Entity

end Skirmish
