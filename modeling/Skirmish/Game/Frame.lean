import Skirmish.Game.Combat
import Skirmish.Wire.ServerMsg

/-!
# Frames and tallies

A frame reports one simulation step: the hits and kills of the step, the scores, the play time
left, and a snapshot of every entity in id order. The tallies of a finished game cover the
players still present and those who left during the match, best score first and, among equal
scores, by player id.
-/

namespace Skirmish

/-- The snapshot of an entity. -/
def Entity.snapshot (e : Entity) : EntitySnapshot :=
  let p := e.player?
  let (ownerId, effect) : Option Nat × Option EffectKind := match e.kind with
    | .projectile q => (some q.ownerId, none)
    | .effect f => (f.ownerId, some f.effect)
    | .player _ => (none, none)
  { id := e.id, type := e.type, position := e.position, rotation := e.rotation,
    velocity := e.velocity, playerId := p.map (·.playerId), health := p.map (·.health),
    alive := p.map (·.alive), team := p.map (·.team), ownerId, effect }

/-- The snapshots of all entities, in id order. -/
def World.snapshot (w : World) : List EntitySnapshot := w.entities.map Entity.snapshot

/-- The frame of a step. -/
def buildFrame (frameId : Nat) (w : World) (outcome : CombatOutcome) (remaining : Float32)
    (now : Nat) : ServerMsg :=
  .frame
    { frameId, timestamp := now,
      collisions := outcome.hits.map fun h =>
        ⟨h.projectileId, h.targetId, h.position, h.normal, h.damage⟩,
      kills := outcome.kills.map fun k => ⟨k.killer, k.victim, k.assists, k.position⟩,
      scores := w.scores, remainingTime := remaining, entities := w.snapshot }

/-- Whether tally `a` comes before tally `b`: a higher score, or an equal score and a smaller
player id. -/
def PlayerTally.before (a b : PlayerTally) : Bool :=
  b.score < a.score || (a.score == b.score && a.playerId < b.playerId)

/-- Inserts a tally after every tally that does not come after it. -/
def insertTally (t : PlayerTally) : List PlayerTally → List PlayerTally
  | [] => [t]
  | u :: rest => if t.before u then t :: u :: rest else u :: insertTally t rest

/-- The tallies of present and departed players, best first; the sort is stable. -/
def World.tallies (w : World) : List PlayerTally :=
  let tally (p : Player) : PlayerTally :=
    ⟨p.playerId, p.characterId, p.team, w.scoreOf p.playerId, p.kills, p.deaths, p.assists⟩
  let all := (w.players.map fun (_, p) => tally p) ++ w.departed.map tally
  all.foldl (fun acc t => insertTally t acc) []

end Skirmish
