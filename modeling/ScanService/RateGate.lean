import ScanService.Failure
import ScanService.Decimal.Layout
/-! The pace of map queries: one tick at a time, each a period after the one before. -/
namespace ScanService

/-- A gate that lets one query through in a period of so many nanoseconds. -/
structure RateGate where
  period : Nat
deriving DecidableEq, Repr

namespace RateGate

/-- The nanoseconds in a positive number of seconds; a half goes to the even neighbour. Nothing for
a number without a value or without an end. -/
def nanoseconds (seconds : Float) : Option Nat :=
  match Decimal.Shape.of seconds with
  | .finite d =>
    let v := Decimal.scaled (d.mantissa * 1000000000) 1 d.exponent
    some (Decimal.roundDiv v.1 v.2)
  | _ => none

/-- A gate of so many ticks in a second. The rate has to be positive and its period at least one
nanosecond; a period of more than 64 bits of nanoseconds cannot be held. -/
def perSecond (ticks : Float) : Setup SetupFailure RateGate :=
  if ticks.isFinite && 0.0 < ticks then
    match nanoseconds (1.0 / ticks) with
    | none => .crashed
    | some 0 => .refused (.config "ticks_per_second is too large")
    | some n => if n < 0x10000000000000000 then .ready ⟨n⟩ else .crashed
  else .refused (.config ("ticks_per_second must be positive, got " ++ Decimal.plain.text ticks))

end RateGate

end ScanService
