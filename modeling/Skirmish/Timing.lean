/-!
# Tick rates and input limits

A room simulates at a fixed number of ticks per second; a rate of zero counts as one. Inbound
messages of a connection pass a rate limiter whose burst is its rate per second (again at least
one): of checks made back to back, that many pass.
-/

namespace Skirmish

/-- Ticks per second of a room's simulation. -/
def simulationTps : Nat := 60

/-- Inbound messages a connection may send per second. -/
def inputRateLimit : Nat := 60

/-- The length of one tick in microseconds. -/
def tickDurationMicros (tps : Nat) : Nat := 1000000 / max tps 1

/-- How many of `calls` back-to-back checks a fresh limiter of `rate` per second passes. -/
def burstAllowed (rate calls : Nat) : Nat := min calls (max rate 1)

end Skirmish
