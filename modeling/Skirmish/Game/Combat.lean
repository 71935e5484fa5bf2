import Skirmish.Game.World
import Skirmish.Game.Skill

/-!
# Combat

`useSkill` fires a skill: nothing happens for an unknown skill, a missing or dead caster, or a
skill still cooling down. Otherwise the shot is aimed from the caster at the target — or along
the caster's facing when the target is the caster's own position — each projectile turned by
its offset, and the skill's cooldown starts.

`resolveCollisions` runs one pass of hits. It looks at every pair of entity ids present at the
start, smaller id first and in increasing order, and for each pair of a projectile and a player
asks `tryHit`. A hit needs a live projectile not yet spent in this pass, a live target it has not
hit before and that is not its owner, no friendly fire between allies (unless enabled, and only
while the owner is present as a player), and overlapping circles. A hit damages the target and
records the owner among its damagers; a kill also kills the target, credits the owner with the
kill and a point and the other damagers with assists, and leaves an explosion. Non-piercing
projectiles that hit are removed after the pass.
-/

namespace Skirmish

/-- Seconds a dead player waits before respawning. -/
def respawnSecs : Float32 := 5

/-- Seconds an explosion lasts. -/
def explosionSecs : Float32 := 0.6

/-- Health after damage, not below zero, and whether it is a kill. -/
def applyDamage (health damage : Int) : Checked (Int × Bool) := do
  let h := max (← subI32 health damage) 0
  pure (h, h ≤ 0)

/-- Fires a skill from a caster towards a target and gives the ids of the new projectiles. -/
def useSkill (w : World) (caster skillId : Nat) (target : Vec2) : List Nat × World :=
  match SkillStats.forSkill skillId, w.get? caster with
  | some stats, some e =>
    match e.player? with
    | some p =>
      if !p.alive || p.onCooldown skillId then ([], w)
      else
        let aimed := (target - e.position).normalized
        let direction :=
          if aimed.sameAs Vec2.zero then
            let r := toRadians e.rotation
            (⟨r.cos, r.sin⟩ : Vec2)
          else aimed
        let (ids, w) := stats.offsets.foldl
          (fun (acc : List Nat × World) offset =>
            let heading := direction.rotated offset
            let (id, w) := acc.2.spawn e.position
              (.projectile ⟨caster, skillId, stats.damage, stats.lifetime, stats.piercing, []⟩)
            let w := w.update id fun q =>
              ({ q with velocity := heading * stats.projectileSpeed }).setRotation
                heading.headingDegrees
            (acc.1 ++ [id], w))
          ([], w)
        (ids, w.update caster (Entity.mapPlayer fun p =>
          { p with cooldowns := setCooldown skillId stats.cooldown p.cooldowns }))
    | none => ([], w)
  | _, _ => ([], w)

/-- A projectile striking a player. -/
structure HitResult where
  projectileId : Nat
  targetId : Nat
  position : Vec2
  normal : Vec2
  damage : Int

/-- A player eliminated. -/
structure KillRecord where
  /-- The owner's player, when the owner is still present as a player. -/
  killer : Option Int
  victim : Int
  assists : List Int
  position : Vec2

/-- What one pass of `resolveCollisions` did. -/
structure CombatOutcome where
  hits : List HitResult
  kills : List KillRecord

/-- Credits a contributor of a kill with an assist, when it is a present player; gives the
assisting players so far. -/
def creditAssist (acc : List Int × World) (id : Nat) : Checked (List Int × World) := do
  match (acc.2.get? id).bind Entity.player? with
  | some p =>
    let assists ← addU32 p.assists 1
    pure (acc.1 ++ [p.playerId], acc.2.update id (Entity.mapPlayer fun p => { p with assists }))
  | none => pure acc

/-- Credits the owner of a kill, when the owner is present: its entity, still a player, gets
the kill and its player a point. Gives the killing player. -/
def creditOwner (w : World) (owner : Option (Int × Team)) (ownerId : Nat) :
    Checked (Option Int × World) :=
  match owner with
  | some (killerPlayer, _) => do
    let w ← match (w.get? ownerId).bind Entity.player? with
      | some p => do
        let kills ← addU32 p.kills 1
        pure (w.update ownerId (Entity.mapPlayer fun p => { p with kills }))
      | none => pure w
    let (_, w) ← w.addScore killerPlayer 1
    pure (some killerPlayer, w)
  | none => pure (none, w)

/-- Credits a kill: the owner (when present) gets the kill and a point, each other damager that
is a player an assist; an explosion marks the spot. -/
def creditKill (w : World) (owner : Option (Int × Team)) (ownerId : Nat) (victim : Int)
    (contributors : List Nat) (position : Vec2) : Checked (KillRecord × World) := do
  let (killer, w) ← creditOwner w owner ownerId
  let (assists, w) ← contributors.foldlM creditAssist ([], w)
  let (_, w) := w.spawnEffect position .explosion explosionSecs (owner.map fun _ => ownerId)
  pure (⟨killer, victim, assists, position⟩, w)

/-- A hit as applied: its result, its kill, and whether the projectile pierces. -/
structure AppliedHit where
  result : HitResult
  kill : Option KillRecord
  piercing : Bool

/-- A projectile that can strike a player, with what the strike needs: the two entities, the
projectile's data, the target's data, and the owner's player and team when the owner is present
as a player. -/
structure Strike where
  projectile : Entity
  shot : Projectile
  target : Entity
  victim : Player
  owner : Option (Int × Team)

/-- Whether a projectile can strike a player: both present, the player alive, not struck by the
projectile before and not its owner, not an ally of a present owner unless friendly fire is on,
and their circles overlapping. -/
def strike? (w : World) (projectileId playerId : Nat) (friendlyFire : Bool) : Option Strike :=
  match w.get? projectileId, w.get? playerId with
  | some pe, some te =>
    match pe.projectile?, te.player? with
    | some proj, some target =>
      let owner := ((w.get? proj.ownerId).bind Entity.player?).map fun p => (p.playerId, p.team)
      if !target.alive || proj.hitEntities.contains playerId || proj.ownerId = playerId then none
      else if (match owner with
          | some (_, ownerTeam) => !friendlyFire && ownerTeam.isAlly target.team
          | none => false) then none
      else if !circlesOverlap pe.position projectileRadius te.position playerRadius then none
      else some ⟨pe, proj, te, target, owner⟩
    | _, _ => none
  | _, _ => none

/-- The target of a strike after it: its health falls by the damage, not below zero, and a
present owner joins its damagers; on a kill it dies, waits to respawn, counts one death more and
its damagers are cleared. Gives also whether it was killed and, on a kill, the damagers other
than the owner. -/
def Strike.hurt (s : Strike) : Checked (Player × Bool × List Nat) := do
  let (health, killed) ← applyDamage s.victim.health s.shot.damage
  let damagedBy :=
    if s.owner.isSome then insertId s.shot.ownerId s.victim.damagedBy else s.victim.damagedBy
  if killed then
    let deaths ← addU32 s.victim.deaths 1
    pure ({ s.victim with health, damagedBy := [], alive := false,
                          respawnCountdown := respawnSecs, deaths }, true,
          damagedBy.filter (· != s.shot.ownerId))
  else pure ({ s.victim with health, damagedBy }, false, [])

/-- Applies a strike: the target is recorded among the projectile's hits and hurt, a killed
target stops, and a kill is credited. -/
def applyStrike (w : World) (projectileId playerId : Nat) (s : Strike) :
    Checked (AppliedHit × World) := do
  let (victim, killed, contributors) ← s.hurt
  let w := w.update projectileId (Entity.mapProjectile fun q =>
    { q with hitEntities := insertId playerId q.hitEntities })
  let w := w.update playerId fun e =>
    let e := { e with kind := .player victim }
    if killed then { e with velocity := Vec2.zero } else e
  let (position, normal) := contact s.projectile.position s.target.position
  let result : HitResult := ⟨projectileId, playerId, position, normal, s.shot.damage⟩
  if killed then
    let (kill, w) ←
      creditKill w s.owner s.shot.ownerId s.victim.playerId contributors s.target.position
    pure (⟨result, some kill, s.shot.piercing⟩, w)
  else pure (⟨result, none, s.shot.piercing⟩, w)

/-- Tries a projectile against a player. -/
def tryHit (w : World) (projectileId playerId : Nat) (friendlyFire : Bool) :
    Checked (Option AppliedHit × World) :=
  match strike? w projectileId playerId friendlyFire with
  | none => pure (none, w)
  | some s => do
    let (h, w) ← applyStrike w projectileId playerId s
    pure (some h, w)

/-- The pairs `(i, j)` of list positions with `i < j`, in increasing order. -/
def orderedPairs {α : Type} : List α → List (α × α)
  | [] => []
  | a :: rest => rest.map (a, ·) ++ orderedPairs rest

/-- One pair of entity ids of a collision pass, with the outcome so far, the projectiles spent
so far and the world: a projectile and a player, in either order, are tried against each other
unless the projectile is spent. -/
def collidePair (friendlyFire : Bool) (acc : CombatOutcome × List Nat × World) (ab : Nat × Nat) :
    Checked (CombatOutcome × List Nat × World) := do
  let (a, b) := ab
  let (outcome, spent, w) := acc
  let pair := match (w.get? a).map Entity.type, (w.get? b).map Entity.type with
    | some .projectile, some .player => some (a, b)
    | some .player, some .projectile => some (b, a)
    | _, _ => none
  match pair with
  | none => pure acc
  | some (projectileId, playerId) =>
    if spent.contains projectileId then pure acc
    else
      let (hit, w) ← tryHit w projectileId playerId friendlyFire
      match hit with
      | none => pure (outcome, spent, w)
      | some h =>
        let spent := if h.piercing then spent else spent ++ [projectileId]
        let kills := match h.kill with
          | some k => outcome.kills ++ [k]
          | none => outcome.kills
        pure (⟨outcome.hits ++ [h.result], kills⟩, spent, w)

/-- One pass of projectile–player hits. -/
def resolveCollisions (w : World) (friendlyFire : Bool) : Checked (CombatOutcome × World) := do
  let ids := w.entities.map (·.id)
  let (outcome, spent, w) ← (orderedPairs ids).foldlM (collidePair friendlyFire) (⟨[], []⟩, [], w)
  let w := spent.foldl (fun w id => (w.remove id).2) w
  pure (outcome, w)

end Skirmish
