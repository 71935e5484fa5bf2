/-!
# Wall-clock times

Times are milliseconds since the Unix epoch. `rfc3339` writes one as a UTC date and time with
the fraction of a second only when there is one (`2024-05-01T12:00:00.250Z`), and `clockDigits`
as the six digits `HHMMSS` of its time of day. Dates follow the proleptic Gregorian calendar,
computed from the day number by the usual era arithmetic.
-/

namespace Skirmish

/-- `n` written with at least `width` digits. -/
def padded (width n : Nat) : String :=
  let s := toString n
  String.ofList (List.replicate (width - s.length) '0') ++ s

/-- The year, month and day of a day counted from the epoch. -/
def civilDate (days : Nat) : Nat × Nat × Nat :=
  let z := days + 719468
  let era := z / 146097
  let doe := z - era * 146097
  let yoe := (doe - doe / 1460 + doe / 36524 - doe / 146096) / 365
  let y := yoe + era * 400
  let doy := doe - (365 * yoe + yoe / 4 - yoe / 100)
  let mp := (5 * doy + 2) / 153
  let d := doy - (153 * mp + 2) / 5 + 1
  let m := if mp < 10 then mp + 3 else mp - 9
  (if m ≤ 2 then y + 1 else y, m, d)

/-- The six digits `HHMMSS` of the time of day. -/
def clockDigits (ms : Nat) : String :=
  let secs := ms / 1000 % 86400
  padded 2 (secs / 3600) ++ padded 2 (secs / 60 % 60) ++ padded 2 (secs % 60)

/-- The RFC 3339 text of a time, in UTC. -/
def rfc3339 (ms : Nat) : String :=
  let (y, m, d) := civilDate (ms / 86400000)
  let secs := ms / 1000 % 86400
  let fraction := if ms % 1000 = 0 then "" else "." ++ padded 3 (ms % 1000)
  padded 4 y ++ "-" ++ padded 2 m ++ "-" ++ padded 2 d ++ "T" ++ padded 2 (secs / 3600) ++ ":" ++
    padded 2 (secs / 60 % 60) ++ ":" ++ padded 2 (secs % 60) ++ fraction ++ "Z"

end Skirmish
