import ScanService.Json.Basic
/-! The tables of a TOML text while it is read, and which of them a key or a header may still add
to. -/
namespace ScanService.Toml

/-- A part of the data. A table that no header names yet is implicit; one made by the points in a
key is dotted. Of the tables in a series the last one is open. -/
inductive Node
  | value (j : Json)
  | table (implicit dotted : Bool) (members : List (String × Node))
  | series (tables : List (List (String × Node)))

abbrev Members := List (String × Node)

namespace Node

mutual

/-- The data of a finished part; `fuel` bounds the depth. -/
def toJson : Nat → Node → Json
  | 0, _ => .null
  | _ + 1, value j => j
  | fuel + 1, table _ _ members => .obj (membersToJson fuel members)
  | fuel + 1, series tables => .arr (tables.map fun ms => .obj (membersToJson fuel ms))

def membersToJson : Nat → List (String × Node) → List (String × Json)
  | _, [] => []
  | 0, _ => []
  | fuel + 1, (name,node) :: ms => (name,toJson fuel node) :: membersToJson fuel ms

end

end Node

/-- Puts a node under a name, in place of what is there. -/
def put (name : String) (node : Node) : Members → Members
  | [] => [(name,node)]
  | m :: ms => if m.1 = name then (name,node) :: ms else m :: put name node ms

def changeLast (f : Members → Option Members) : List Members → Option (List Members)
  | [] => none
  | [t] => (f t).map fun t' => [t']
  | t :: ts => (changeLast f ts).map (t :: ·)

/-- Goes down a path and changes the members at its end. What is missing on the way is made,
implicit and dotted as told. Points in keys do not reach into a table that a header has named.
`dotted` is told of the table at the end. -/
def descend (dotted : Bool) (change : Bool → Members → Option Members) :
    List String → Bool → Members → Option Members
  | [], atEnd, ms => change atEnd ms
  | name :: path, _, ms =>
    match ms.lookup name with
    | none => (descend dotted change path dotted []).map fun inner =>
        put name (.table true dotted inner) ms
    | some (.value _) => none
    | some (.series tables) =>
      (changeLast (descend dotted change path false) tables).map fun tables' =>
        put name (.series tables') ms
    | some (.table implicit isDotted inner) =>
      if dotted ∧ ¬implicit then none
      else (descend dotted change path isDotted inner).map fun inner' =>
        put name (.table implicit isDotted inner') ms

/-- Adds a value under a key. A key with points ends in a dotted table, a key without them in one
that is not, and no key is given twice. -/
def addValue (key : List String) (j : Json) (ms : Members) : Option Members :=
  let path := key.dropLast
  let name := key.getLastD ""
  descend true (fun atEnd inner =>
    if atEnd = path.isEmpty then none
    else match inner.lookup name with
      | some _ => none
      | none => some (inner ++ [(name,.value j)])) path false ms

/-- Opens the table of a header: a new one, or one that was only implied so far. -/
def openTable (key : List String) (ms : Members) : Option Members :=
  let name := key.getLastD ""
  descend false (fun _ inner =>
    match inner.lookup name with
    | none => some (inner ++ [(name,.table false false [])])
    | some (.table true false members) => some (put name (.table false false members) inner)
    | some _ => none) key.dropLast false ms

def openNext (key : List String) (ms : Members) : Option Members :=
  let name := key.getLastD ""
  descend false (fun _ inner =>
    match inner.lookup name with
    | none => some (inner ++ [(name,.series [[]])])
    | some (.series tables) => some (put name (.series (tables ++ [[]])) inner)
    | some _ => none) key.dropLast false ms

/-- Adds a value under a key inside the table that a header has opened. -/
def addUnder (header key : List String) (j : Json) (ms : Members) : Option Members :=
  descend false (fun _ inner => addValue key j inner) header false ms

end ScanService.Toml
