import ScanService.Store.Basic
import ScanService.Text.Parts
/-! Files: texts, and the databases that hold stores. A path is read from the directory that the
program runs in. -/
namespace ScanService

inductive DiskEntry
  | directory
  | text (content : String)
  | database (store : Store)

/-- The entries under their paths, given by the names on the way. -/
structure Disk where
  entries : List (List String × DiskEntry)

/-- Why a store cannot be opened: there is no way to the directory of its file, or there is no
database in the file. -/
inductive OpenFailure
  | directory
  | database
deriving DecidableEq, Repr

namespace Disk

def empty : Disk := ⟨[]⟩

def entry? (d : Disk) (place : List String) : Option DiskEntry :=
  if place = [] then some .directory else d.entries.lookup place

/-- Puts an entry in the place of what stood under its path. -/
def put (d : Disk) (place : List String) (e : DiskEntry) : Disk :=
  ⟨(place,e) :: d.entries.filter fun f => f.1 ≠ place⟩

/-- The names in a path; those that mean the same level do not count. A slash in front is the name
of the uppermost level. -/
def names (path : String) : List String :=
  (if path.startsWith "/" then ["/"] else [])
    ++ ((Text.splitOn '/' path.toList).map String.ofList).filter fun n => n ≠ "" ∧ n ≠ "."

/-- Goes along names through directories; `..` leads to the upper level. -/
def walk (d : Disk) : List String → List String → Option (List String)
  | place, [] => some place
  | place, n :: ns =>
    match d.entry? place with
    | some .directory => if n = ".." then walk d place.dropLast ns else walk d (place ++ [n]) ns
    | _ => none

def text? (d : Disk) (path : String) : Option String :=
  match (d.walk [] (names path)).bind d.entry? with
  | some (.text content) => if path.endsWith "/" then none else some content
  | _ => none

/-- Makes the directories along names that are not there. -/
def makeDirectories (d : Disk) : List String → List String → Option Disk
  | _, [] => some d
  | place, n :: ns =>
    if n = ".." then makeDirectories d place.dropLast ns
    else
      let here := place ++ [n]
      match d.entry? here with
      | some .directory => makeDirectories d here ns
      | some _ => none
      | none => makeDirectories (d.put here .directory) here ns

def straight : List String → List String → List String
  | place, [] => place
  | place, n :: ns => if n = ".." then straight place.dropLast ns else straight (place ++ [n]) ns

def isFleeting (path : String) : Bool := path = "" || path = ":memory:"

/-- Opens the database of a path. Directories on the way and the database are made if they are not
there; an empty file is an empty database. -/
def openStore (d : Disk) (path : String) : Disk × Except OpenFailure Store :=
  if isFleeting path then (d,.ok .empty)
  else
    let ns := names path
    match d.makeDirectories [] ns.dropLast with
    | none => (d,.error .directory)
    | some d =>
      let home := straight [] ns
      match d.entry? home with
      | none | some (.text "") => (d.put home (.database .empty),.ok .empty)
      | some (.database store) => (d,.ok store)
      | some _ => (d,.error .database)

def saveStore (d : Disk) (path : String) (store : Store) : Disk :=
  if isFleeting path then d else d.put (straight [] (names path)) (.database store)

end Disk

end ScanService
