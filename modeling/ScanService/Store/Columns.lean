import ScanService.Decimal.Binary
import ScanService.Store.ObjectTable
/-! The table of objects in columns, as a database holds it: the cells that an object fills, the
statements that write, remove and select rows, and the reading of a row as an object, which fails if
a cell holds something else. -/
namespace ScanService

inductive Cell
  | null
  | integer (n : Int)
  | real (x : Float)
  | text (s : String)

/-- Why a row is no object: a cell of another type, an integer beyond its field, or a code of no
kind. -/
inductive RowFault
  | type (column : Nat)
  | range (column : Nat) (n : Int)
  | kind (code : Int)
deriving DecidableEq, Repr

namespace Cell

def isNull : Cell → Bool
  | null => true
  | _ => false

/-- A float in a cell: what is no number has no value there, and zero no sign. -/
def ofFloat (x : Float) : Cell := if x.isNaN then null else real (ObjectTable.unsignedZero x)

def ofOption {α : Type} (f : α → Cell) : Option α → Cell
  | none => null
  | some a => f a

def int (column : Nat) : Cell → Except RowFault Int
  | integer n => .ok n
  | _ => .error (.type column)

def float (column : Nat) : Cell → Except RowFault Float
  | real x => .ok x
  | integer n => .ok (Decimal.ofInt n)
  | _ => .error (.type column)

def string (column : Nat) : Cell → Except RowFault String
  | text s => .ok s
  | _ => .error (.type column)

def upTo (top : Nat) (column : Nat) (c : Cell) : Except RowFault Nat :=
  match c.int column with
  | .ok n => if 0 ≤ n ∧ n ≤ top then .ok n.toNat else .error (.range column n)
  | .error e => .error e

def flag (column : Nat) (c : Cell) : Except RowFault Bool := (c.int column).map (· ≠ 0)

def nullable {α : Type} (read : Cell → Except RowFault α) : Cell → Except RowFault (Option α)
  | null => .ok none
  | c => (read c).map some

def testInt (p : Int → Bool) : Cell → Bool
  | integer n => p n
  | _ => false

def testReal (p : Float → Bool) : Cell → Bool
  | real x => p x
  | _ => false

def isText (s : String) : Cell → Bool
  | text t => t = s
  | _ => false

end Cell

structure ObjectRow where
  id : Cell
  kind : Cell
  lat : Cell
  lng : Cell
  expiry : Cell
  species : Cell
  team : Cell
  lured : Cell

namespace ObjectRow

def ofObject (o : ScanObject Float) : ObjectRow where
  id := .text o.id
  kind := .integer o.kind.code
  lat := .ofFloat o.lat
  lng := .ofFloat o.lng
  expiry := .integer o.expiry
  species := .ofOption (fun n : UInt32 => .integer n.toNat) o.species
  team := .ofOption (fun n : UInt8 => .integer n.toNat) o.team
  lured := .ofOption (fun b : Bool => .integer (if b then 1 else 0)) o.lured

def object? (r : ObjectRow) : Except RowFault (ScanObject Float) := do
  let code ← r.kind.int 1
  match ObjectKind.ofCode? code with
  | none => .error (.kind code)
  | some kind =>
    return { kind
             id := ← r.id.string 0
             lat := ← r.lat.float 2
             lng := ← r.lng.float 3
             expiry := ← r.expiry.int 4
             species := ← r.species.nullable fun c => (c.upTo 0xFFFFFFFF 5).map UInt32.ofNat
             team := ← r.team.nullable fun c => (c.upTo 0xFF 6).map UInt8.ofNat
             lured := ← r.lured.nullable (Cell.flag 7) }

/-- The first empty cell of a column that may not be empty. -/
def emptyColumn (r : ObjectRow) : Option String :=
  ([("objects.id",r.id),("objects.kind",r.kind),("objects.lat",r.lat),("objects.lng",r.lng),
    ("objects.expiry",r.expiry)].find? fun c => c.2.isNull).map (·.1)

/-- Sets every column but the id to what another row has there. -/
def overwrite (r new : ObjectRow) : ObjectRow :=
  { r with
    kind := new.kind
    lat := new.lat
    lng := new.lng
    expiry := new.expiry
    species := new.species
    team := new.team
    lured := new.lured }

/-- A live row of one of some kinds that lies in a box. -/
def selected (box : Box Float) (kinds : List ObjectKind) (now : Int) (r : ObjectRow) : Bool :=
  r.kind.testInt (fun n => kinds.any fun k => (k.code : Int) = n) &&
    r.expiry.testInt (fun n => n = 0 || now < n) &&
    r.lat.testReal (fun x => box.south ≤ x && x ≤ box.north) &&
    match box.sides with
    | none => true
    | some (west,east) => r.lng.testReal fun x => west ≤ x && x ≤ east

/-- A row of a creature that expires before a threshold. -/
def outdated (threshold : Int) (r : ObjectRow) : Bool :=
  r.kind.testInt (· = ObjectKind.creature.code) && r.expiry.testInt (· ≠ 0) && r.expiry.testInt
    (· < threshold)

end ObjectRow

structure ObjectRows where
  rows : List ObjectRow

namespace ObjectRows

def ofTable (t : ObjectTable Float) : ObjectRows := ⟨t.rows.map ObjectRow.ofObject⟩

/-- Inserts the row of an object. No required column may be empty. Where a row has the id, a
creature is refused, and any other object overwrites that row. -/
def write (d : ObjectRows) (o : ScanObject Float) : ObjectRows × Except StoreFailure Unit :=
  let new := ObjectRow.ofObject o
  match new.emptyColumn with
  | some column => (d,.error (.notNull column))
  | none =>
    if d.rows.any (·.id.isText o.id) then
      if o.kind.ephemeral then (d,.error (.duplicate "object" o.id))
      else (⟨d.rows.map fun r => if r.id.isText o.id then r.overwrite new else r⟩,.ok ())
    else (⟨d.rows ++ [new]⟩,.ok ())

/-- Deletes the creatures that expire before a threshold, and counts them. -/
def purge (d : ObjectRows) (threshold : Int) : ObjectRows × Nat :=
  (⟨d.rows.filter fun r => !r.outdated threshold⟩,(d.rows.filter (·.outdated threshold)).length)

def get (d : ObjectRows) (id : String) : Except RowFault (Option (ScanObject Float)) :=
  match d.rows.find? (·.id.isText id) with
  | none => .ok none
  | some r => r.object?.map some

/-- Selects rows by their kind, their expiry and a box, reads all of them, and keeps what lies
within the radius, the nearest first. -/
def query (d : ObjectRows) (g : Geometry Float) (center : Coordinate Float) (radius : Float)
    (kinds : List ObjectKind) (now : Int) : Except RowFault (List (ScanObject Float)) :=
  if kinds.isEmpty ∨ radius < 0 then .ok []
  else
    ((d.rows.filter (·.selected (Box.around g center radius) kinds now)).mapM ObjectRow.object?).map
      fun os =>
      let near := (os.mergeSort ObjectTable.rowLe).filter fun o =>
        g.distance center o.place ≤ radius
      near.mergeSort fun a b => g.distance center a.place ≤ g.distance center b.place

def count (d : ObjectRows) : Nat := d.rows.length

end ObjectRows

end ScanService
