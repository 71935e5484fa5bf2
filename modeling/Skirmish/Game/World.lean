import Skirmish.Game.Entity
import Skirmish.Game.Physics
import Skirmish.Checked

/-!
# The world of a room

A `World` holds the entities of a room sorted by id, the score of every player, the frozen
records of players who left a match, the next entity id and the spawn generator. Ids are
handed out in increasing order and never reused, so a spawned entity always goes to the end of
the list.

`advance dt` runs one tick of time: every entity moves, cooldowns run down and vanish at zero,
dead players count down and respawn at a fresh spawn point, projectiles and effects age and
expire. Entities are visited in id order; expired ones are removed after the visit, and each
respawned player then gets a respawn effect at its new position.
-/

namespace Skirmish

/-- Seconds a respawn effect lasts. -/
def respawnEffectSecs : Float32 := 0.5

/-- The entities, scores and spawn generator of one room. -/
structure World where
  /-- Sorted by id. -/
  entities : List Entity
  /-- The score of each player, sorted by player id. -/
  scores : List (Int × Nat)
  /-- Players who left a running match, frozen when they left, sorted by player id. -/
  departed : List Player
  nextEntityId : Nat
  rng : Random.ChaCha8
  bounds : MapBounds

/-- What `World.advance` did. -/
structure AdvanceReport where
  respawned : List Nat
  expired : List Nat

/-- Sets the value of `key` in a list sorted by key. -/
def setSorted {β : Type} (key : Int) (value : β) : List (Int × β) → List (Int × β)
  | [] => [(key, value)]
  | (k, v) :: rest =>
    if key = k then (key, value) :: rest
    else if key < k then (key, value) :: (k, v) :: rest
    else (k, v) :: setSorted key value rest

/-- Sets the departed record of a player, replacing an older one. -/
def setDeparted (p : Player) : List Player → List Player
  | [] => [p]
  | q :: rest =>
    if p.playerId = q.playerId then p :: rest
    else if p.playerId < q.playerId then p :: q :: rest
    else q :: setDeparted p rest

namespace World

/-- An empty world: no entities, ids from `1`. -/
def new (seed : UInt64) (bounds : MapBounds) : World :=
  ⟨[], [], [], 1, Random.ChaCha8.ofSeed seed, bounds⟩

/-- The entity with an id. -/
def get? (w : World) (id : Nat) : Option Entity := w.entities.find? (·.id == id)

/-- Changes the entity with an id. -/
def update (w : World) (id : Nat) (f : Entity → Entity) : World :=
  { w with entities := w.entities.map fun e => if e.id = id then f e else e }

/-- Adds an entity with the next id. -/
def spawn (w : World) (position : Vec2) (kind : EntityKind) : Nat × World :=
  let id := w.nextEntityId
  (id, { w with nextEntityId := id + 1, entities := w.entities ++ [Entity.fresh id position kind] })

/-- Draws a spawn point. -/
def spawnPoint (w : World) : Vec2 × World :=
  let (p, g) := randomSpawn w.rng w.bounds
  (p, { w with rng := g })

/-- The score of a player, `0` when it has none. -/
def scoreOf (w : World) (playerId : Int) : Nat :=
  ((w.scores.find? (·.1 == playerId)).map (·.2)).getD 0

/-- Whether a player has a score entry. -/
def hasScore (w : World) (playerId : Int) : Bool := w.scores.any (·.1 == playerId)

/-- Adds a player at a fresh spawn point and opens its score at `0` if it has none. -/
def spawnPlayer (w : World) (p : Player) : Nat × World :=
  let (position, w) := w.spawnPoint
  let (id, w) := w.spawn position (.player p)
  let w := if w.hasScore p.playerId then w else { w with scores := setSorted p.playerId 0 w.scores }
  (id, w)

/-- Adds an effect. -/
def spawnEffect (w : World) (position : Vec2) (effect : EffectKind) (duration : Float32)
    (ownerId : Option Nat) : Nat × World :=
  w.spawn position (.effect ⟨effect, duration, ownerId⟩)

/-- Removes an entity. -/
def remove (w : World) (id : Nat) : Option Entity × World :=
  (w.get? id, { w with entities := w.entities.filter (·.id != id) })

/-- Removes a player's entity. With `keep` the player is recorded as departed and keeps its
score; otherwise its score goes too. -/
def removePlayer (w : World) (id : Nat) (keep : Bool) : Option Entity × World :=
  let (removed, w) := w.remove id
  match removed with
  | some e =>
    match e.player? with
    | some p =>
      if keep then (removed, { w with departed := setDeparted p w.departed })
      else (removed, { w with scores := w.scores.filter (·.1 != p.playerId) })
    | none => (removed, w)
  | none => (none, w)

/-- Adds points to a player's score. -/
def addScore (w : World) (playerId : Int) (points : Nat) : Checked (Nat × World) := do
  let score ← addU32 (w.scoreOf playerId) points
  pure (score, { w with scores := setSorted playerId score w.scores })

/-- The highest score, `0` without scores. -/
def maxScore (w : World) : Nat := w.scores.foldl (fun m s => max m s.2) 0

/-- The player entities with their data. -/
def players (w : World) : List (Entity × Player) :=
  w.entities.filterMap fun e => e.player?.map (e, ·)

/-- Cooldowns after `dt` seconds: each runs down, and those no longer above zero vanish. -/
def tickCooldowns (dt : Float32) (cooldowns : List (Nat × Float32)) : List (Nat × Float32) :=
  (cooldowns.map fun (k, v) => (k, v - dt)).filter fun (_, v) => 0 < v

/-- One entity after `dt` seconds, with the generator for respawns: the moved entity, whether
it respawned, whether it expired. -/
def advanceEntity (dt : Float32) (bounds : MapBounds) (g : Random.ChaCha8) (e : Entity) :
    Entity × Bool × Bool × Random.ChaCha8 :=
  let e := { e with position := integrate e.position e.velocity dt }
  match e.kind with
  | .player p =>
    let p := { p with cooldowns := tickCooldowns dt p.cooldowns }
    if p.alive then ({ e with kind := .player p }, false, false, g)
    else
      let countdown := p.respawnCountdown - dt
      if countdown ≤ 0 then
        let (position, g) := randomSpawn g bounds
        let p := { p with alive := true, health := p.maxHealth, respawnCountdown := 0,
                          damagedBy := [] }
        ({ e with kind := .player p, position, velocity := Vec2.zero }, true, false, g)
      else ({ e with kind := .player { p with respawnCountdown := countdown } }, false, false, g)
  | .projectile q =>
    let lifetime := q.lifetime - dt
    ({ e with kind := .projectile { q with lifetime } }, false, lifetime ≤ 0, g)
  | .effect f =>
    let duration := f.duration - dt
    ({ e with kind := .effect { f with duration } }, false, duration ≤ 0, g)

/-- Advances the entities in order, collecting the respawned and the expired ids. -/
def advanceAll (dt : Float32) (bounds : MapBounds) :
    Random.ChaCha8 → List Entity → List Entity × List Nat × List Nat × Random.ChaCha8
  | g, [] => ([], [], [], g)
  | g, e :: rest =>
    let (e, respawned, expired, g) := advanceEntity dt bounds g e
    let (es, rs, xs, g) := advanceAll dt bounds g rest
    (e :: es, (if respawned then e.id :: rs else rs), (if expired then e.id :: xs else xs), g)

/-- Adds a respawn effect at the position of each respawned player. -/
def respawnEffects (w : World) : List Nat → World
  | [] => w
  | id :: rest =>
    match w.get? id with
    | some e => respawnEffects (w.spawnEffect e.position .respawn respawnEffectSecs (some id)).2 rest
    | none => respawnEffects w rest

/-- One tick of `dt` seconds. -/
def advance (w : World) (dt : Float32) : AdvanceReport × World :=
  let (entities, respawned, expired, g) := advanceAll dt w.bounds w.rng w.entities
  let w := { w with entities := entities.filter (fun e => !expired.contains e.id), rng := g }
  (⟨respawned, expired⟩, respawnEffects w respawned)

end World

end Skirmish
