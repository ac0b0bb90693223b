import ScanService.Json.Basic
/-! Typed reading of data values. A record is an object, whose unknown members are ignored and whose
known ones stand at most once, or an array that gives its fields by position. -/
namespace ScanService.Json

inductive Field
  | given (value : Json)
  | missing
  | pastEnd

/-- Whether a name stands more than once among members. -/
def repeated (members : List (String × Json)) (name : String) : Bool :=
  1 < (members.filter (·.1 == name)).length

def record (names : List String) : Json → Option (List Field)
  | .obj ms =>
    if names.any (repeated ms) then none
    else some (names.map fun n => match ms.lookup n with
      | some j => .given j
      | none => .missing)
  | .arr vs =>
    if names.length < vs.length then none
    else some (vs.map .given ++ List.replicate (names.length - vs.length) .pastEnd)
  | _ => none

def Field.required {α : Type} (f : Json → Option α) : Field → Option α
  | .given j => f j
  | _ => none

def Field.orElse {α : Type} (f : Json → Option α) (default : α) : Field → Option α
  | .given j => f j
  | _ => some default

def nullable {α : Type} (f : Json → Option α) : Json → Option (Option α)
  | .null => some none
  | j => (f j).map some

def Field.optional {α : Type} (f : Json → Option α) : Field → Option (Option α)
  | .given j => nullable f j
  | .missing => some none
  | .pastEnd => none

def intIn (lo hi : Int) : Json → Option Int
  | .num (.int n) => if lo ≤ n ∧ n ≤ hi then some n else none
  | _ => none

def asInt64 : Json → Option Int := intIn (-0x8000000000000000) 0x7FFFFFFFFFFFFFFF
def asNat64 (j : Json) : Option Nat := (intIn 0 0xFFFFFFFFFFFFFFFF j).map Int.toNat
def asUInt64 (j : Json) : Option UInt64 := (asNat64 j).map UInt64.ofNat
def asUInt32 (j : Json) : Option UInt32 :=
  (intIn 0 0xFFFFFFFF j).map fun n => UInt32.ofNat n.toNat
def asUInt8 (j : Json) : Option UInt8 := (intIn 0 0xFF j).map fun n => UInt8.ofNat n.toNat

def asFloat : Json → Option Float
  | .num (.int n) => some (Decimal.ofInt n)
  | .num (.float x) => some x
  | _ => none

def asBool : Json → Option Bool
  | .bool b => some b
  | _ => none

def asText : Json → Option String
  | .str s => some s
  | _ => none

def asList {α : Type} (f : Json → Option α) : Json → Option (List α)
  | .arr items => items.mapM f
  | _ => none

end ScanService.Json
