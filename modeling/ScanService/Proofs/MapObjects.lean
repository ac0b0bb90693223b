import Mathlib.Data.List.Forall2
import Mathlib.Data.Rat.Floor
import ScanService.MapResponse
/-! What a map stands for. Its objects are those of its cells, one after the other: a creature for
each wild one, and an object for each fort, after the creature that the lure of a checkpoint has
drawn. Nothing is lost and nothing is added, and the second in which a wild creature hides is
computed in machine integers without an overflow. -/
namespace ScanService

theorem forall₂_iff_map {α β : Type} {R : α → β → Prop} {f : α → β}
    (h : ∀ a b, R a b ↔ b = f a) (as : List α) (bs : List β) :
    List.Forall₂ R as bs ↔ bs = as.map f := by
  have he : R = fun a b => f a = b := by
    funext a b
    exact propext ((h a b).trans eq_comm)
  rw [he,← List.forall₂_map_left_iff (R := Eq),List.forall₂_eq_eq_eq,eq_comm]

namespace MapResponse

/-! ### What stands for what -/

/-- The creature that stands for a wild one: it hides so many milliseconds after `now`, or at once
if that is below zero, and not after the last millisecond there is. -/
structure StandsForWild (now : Int) (w : WildCreature) (o : ScanObject Float) : Prop where
  kind : o.kind = .creature
  id : o.id = encounterKey w.encounter
  place : o.place = ⟨w.lat,w.lng⟩
  expiry : o.expiry = ⌊((min (now + max 0 w.hiddenIn) (2 ^ 63 - 1) : Int) : ℚ) / 1000⌋
  species : o.species = some w.species
  team : o.team = none
  lured : o.lured = none

structure StandsForLure (f : Fort) (l : Lure) (o : ScanObject Float) : Prop where
  kind : o.kind = .creature
  id : o.id = encounterKey l.encounter
  place : o.place = ⟨f.lat,f.lng⟩
  expiry : o.expiry = ⌊(l.expires : ℚ) / 1000⌋
  species : o.species = some l.species
  team : o.team = none
  lured : o.lured = none

structure StandsForFort (f : Fort) (o : ScanObject Float) : Prop where
  kind : o.kind = match f.kind with
    | .checkpoint => .checkpoint
    | .stronghold => .stronghold
  id : o.id = f.id
  place : o.place = ⟨f.lat,f.lng⟩
  expiry : o.expiry = 0
  species : o.species = none
  team : o.team = if f.kind = .stronghold then some f.team else none
  lured : o.lured = if f.kind = .checkpoint then some f.modified else none

/-- The objects of a fort: a creature before it exactly if it is a checkpoint with a lure. -/
inductive OfFort (f : Fort) : List (ScanObject Float) → Prop
  | drawn {l : Lure} {c o : ScanObject Float} (hk : f.kind = .checkpoint) (hl : f.lure = some l)
      (hc : StandsForLure f l c) (ho : StandsForFort f o) : OfFort f [c,o]
  | alone {o : ScanObject Float} (h : ¬ (f.kind = .checkpoint ∧ f.lure.isSome))
      (ho : StandsForFort f o) : OfFort f [o]

def OfCell (now : Int) (c : MapCell) (os : List (ScanObject Float)) : Prop :=
  ∃ creatures forts, List.Forall₂ (StandsForWild now) c.wild creatures ∧
  List.Forall₂ OfFort c.forts forts ∧
    os = creatures ++ forts.flatten

def OfMap (now : Int) (r : MapResponse) (os : List (ScanObject Float)) : Prop :=
  ∃ cells, List.Forall₂ (OfCell now) r.cells cells ∧ os = cells.flatten

variable {now : Int} {f : Fort} {l : Lure} {o : ScanObject Float} {os : List (ScanObject Float)}

theorem floor_thousandth (n : Int) : ⌊(n : ℚ) / 1000⌋ = n / 1000 :=
  Rat.floor_intCast_div_natCast n 1000

theorem standsForWild_iff {w : WildCreature} : StandsForWild now w o ↔ o = wildObject now w := by
  constructor
  · rintro ⟨hk,hid,hp,he,hs,ht,hl⟩
    rw [floor_thousandth] at he
    obtain ⟨hlat,hlng⟩ := (Coordinate.mk.injEq ..).mp hp
    cases o
    simp_all [wildObject,ScanObject.creature,hidingTime]
  · rintro rfl
    exact ⟨rfl,rfl,rfl,(floor_thousandth _).symm,rfl,rfl,rfl⟩

theorem standsForLure_iff : StandsForLure f l o ↔ o = lureObject ⟨f.lat,f.lng⟩ l := by
  constructor
  · rintro ⟨hk,hid,hp,he,hs,ht,hl⟩
    rw [floor_thousandth] at he
    obtain ⟨hlat,hlng⟩ := (Coordinate.mk.injEq ..).mp hp
    cases o
    simp_all [lureObject,ScanObject.creature]
  · rintro rfl
    exact ⟨rfl,rfl,rfl,(floor_thousandth _).symm,rfl,rfl,rfl⟩

def fortObject (f : Fort) : ScanObject Float :=
  match f.kind with
  | .checkpoint => .checkpoint f.id ⟨f.lat,f.lng⟩ f.modified
  | .stronghold => .stronghold f.id ⟨f.lat,f.lng⟩ f.team

theorem standsForFort_iff : StandsForFort f o ↔ o = fortObject f := by
  unfold fortObject
  constructor
  · rintro ⟨hk,hid,hp,he,hs,ht,hl⟩
    obtain ⟨hlat,hlng⟩ := (Coordinate.mk.injEq ..).mp hp
    cases o
    cases hf : f.kind <;> simp_all [ScanObject.checkpoint,ScanObject.stronghold]
  · rintro rfl
    cases hf : f.kind <;> constructor <;> simp [hf,ScanObject.checkpoint,ScanObject.stronghold,
      ScanObject.place]

theorem ofFort_iff : OfFort f os ↔ os = fortObjects f := by
  have hf : fortObjects f = match f.kind with
      | .checkpoint => (f.lure.map (lureObject ⟨f.lat,f.lng⟩)).toList ++ [fortObject f]
      | .stronghold => [fortObject f] := by
    unfold fortObjects fortObject
    cases f.kind <;> rfl
  rw [hf]
  constructor
  · rintro (⟨hk,hl,hc,ho⟩ | ⟨h,ho⟩)
    · rw [standsForLure_iff.mp hc,standsForFort_iff.mp ho,hk,hl]
      rfl
    · rw [standsForFort_iff.mp ho]
      cases hk : f.kind with
      | stronghold => rfl
      | checkpoint =>
        rw [Option.not_isSome_iff_eq_none.mp fun hs => h ⟨hk,hs⟩]
        rfl
  · rintro rfl
    cases hk : f.kind with
    | stronghold => exact .alone (by simp [hk]) (standsForFort_iff.mpr rfl)
    | checkpoint =>
      cases hl : f.lure with
      | none => exact .alone (by simp [hl]) (standsForFort_iff.mpr rfl)
      | some l => exact .drawn hk hl (standsForLure_iff.mpr rfl) (standsForFort_iff.mpr rfl)

theorem ofCell_iff {c : MapCell} : OfCell now c os ↔ os = cellObjects now c := by
  have hw := forall₂_iff_map (R := StandsForWild now) (fun _ _ => standsForWild_iff) c.wild
  have hf := forall₂_iff_map (R := OfFort) (fun _ _ => ofFort_iff) c.forts
  simp [OfCell,hw,hf,cellObjects,List.flatMap]

/-- A list holds the objects of a map exactly if it is what the map is turned into. -/
theorem ofMap_iff {r : MapResponse} : OfMap now r os ↔ os = r.objects now := by
  have hc := forall₂_iff_map (R := OfCell now) (fun _ _ => ofCell_iff) r.cells
  simp [OfMap,hc,objects,List.flatMap]

/-! ### How many there are -/

theorem length_fortObjects (f : Fort) :
    (fortObjects f).length = 1 + if f.kind = .checkpoint ∧ f.lure.isSome then 1 else 0 := by
  unfold fortObjects
  cases f.kind <;> cases f.lure <;> rfl

theorem length_flatMap_fortObjects (fs : List Fort) : (fs.flatMap fortObjects).length =
    fs.length + fs.countP fun f => f.kind = .checkpoint ∧ f.lure.isSome := by
  induction fs with
  | nil => rfl
  | cons f fs ih =>
    rw [List.flatMap_cons,List.length_append,ih,length_fortObjects,List.countP_cons,
      List.length_cons]
    simp only [decide_eq_true_eq]
    omega

theorem length_objects (r : MapResponse) (now : Int) : (r.objects now).length =
    (r.cells.map (·.wild.length)).sum + (r.cells.map (·.forts.length)).sum +
      (r.cells.map fun c => c.forts.countP fun f => f.kind = .checkpoint ∧ f.lure.isSome).sum := by
  unfold objects
  induction r.cells with
  | nil => rfl
  | cons c cells ih =>
    rw [List.flatMap_cons,List.length_append,ih,cellObjects,List.length_append,List.length_map,
      length_flatMap_fortObjects]
    simp only [List.map_cons,List.sum_cons]
    omega

theorem objects_append (cells later : List MapCell) (now : Int) :
    objects ⟨cells ++ later⟩ now = objects ⟨cells⟩ now ++ objects ⟨later⟩ now := List.flatMap_append

/-! ### Where they come from -/

/-- Each object is one of a wild creature, of a lure or of a fort. -/
theorem mem_objects {r : MapResponse} :
    o ∈ r.objects now ↔ ∃ c ∈ r.cells, (∃ w ∈ c.wild, o = wildObject now w) ∨ ∃ f ∈ c.forts,
      o = fortObject f ∨
      (f.kind = .checkpoint ∧ ∃ l, f.lure = some l ∧ o = lureObject ⟨f.lat,f.lng⟩ l) := by
  have hf (f : Fort) : o ∈ fortObjects f ↔ o = fortObject f ∨
      (f.kind = .checkpoint ∧ ∃ l, f.lure = some l ∧ o = lureObject ⟨f.lat,f.lng⟩ l) := by
    unfold fortObjects fortObject
    cases f.kind <;> cases f.lure <;> simp [or_comm]
  simp only [objects,List.mem_flatMap,cellObjects,List.mem_append,List.mem_map,hf,eq_comm (a := o)]

theorem kind_fortObject (f : Fort) : (fortObject f).kind ≠ .creature := by
  unfold fortObject
  cases f.kind <;> simp [ScanObject.checkpoint,ScanObject.stronghold]

theorem expiry_of_static {r : MapResponse} (ho : o ∈ r.objects now) (hk : o.kind ≠ .creature) :
    o.expiry = 0 := by
  obtain ⟨c,_,⟨w,_,rfl⟩ | ⟨f,_,rfl | ⟨_,l,_,rfl⟩⟩⟩ := mem_objects.mp ho
  · exact absurd rfl hk
  · exact (standsForFort_iff.mpr rfl).expiry
  · exact absurd rfl hk

/-! ### In machine integers -/

def cappedSum (a b : Int64) : Int64 :=
  let sum := a + b
  if 0 ≤ b ∧ sum < a then .maxValue
  else if b < 0 ∧ a < sum then .minValue
  else sum

def flooredQuotient (a b : Int64) : Int64 :=
  if a % b < 0 then if 0 < b then a / b - 1 else a / b + 1 else a / b

def hidingSecond (now hiddenIn : Int64) :
    Int64 := flooredQuotient (cappedSum now (max hiddenIn 0)) 1000

theorem toInt_cappedSum (a b : Int64) :
    (cappedSum a b).toInt = max (min (a.toInt + b.toInt) (2 ^ 63 - 1)) (-2 ^ 63) := by
  have ha := a.le_toInt
  have ha' := a.toInt_lt
  have hb := b.le_toInt
  have hb' := b.toInt_lt
  have hsum : (a + b).toInt = (a.toInt + b.toInt).bmod (2 ^ 64) := Int64.toInt_add a b
  have hmax : Int64.maxValue.toInt = 2 ^ 63 - 1 := rfl
  have hmin : Int64.minValue.toInt = -2 ^ 63 := rfl
  have hzero : (0 : Int64).toInt = 0 := rfl
  -- the sum wraps around at most once, and then comes out on the wrong side of `a`
  unfold cappedSum
  simp only [Int64.lt_iff_toInt_lt,Int64.le_iff_toInt_le,hzero]
  split_ifs <;> simp only [hmax,hmin,hsum,Int.bmod_def] at * <;> omega

theorem toInt_flooredQuotient (a : Int64) : (flooredQuotient a 1000).toInt = a.toInt / 1000 := by
  have ha := a.le_toInt
  have ha' := a.toInt_lt
  have hquotient : (a / 1000).toInt = a.toInt.tdiv 1000 :=
    Int64.toInt_div_of_ne_right a 1000 (by decide)
  have hrest : (a % 1000).toInt = a.toInt.tmod 1000 := Int64.toInt_mod a 1000
  have hless : (a / 1000 - 1).toInt = ((a / 1000).toInt - 1).bmod (2 ^ 64) := Int64.toInt_sub _ 1
  have hzero : (0 : Int64).toInt = 0 := rfl
  have hsplit : a.toInt.tdiv 1000 * 1000 + a.toInt.tmod 1000 = a.toInt :=
    Int.tdiv_mul_add_tmod a.toInt 1000
  have hbelow : -1000 < a.toInt.tmod 1000 := Int.lt_tmod_of_pos a.toInt (by decide)
  have habove : a.toInt.tmod 1000 < 1000 := Int.tmod_lt_of_pos a.toInt (by decide)
  unfold flooredQuotient
  rw [if_pos (show (0 : Int64) < 1000 by decide)]
  simp only [Int64.lt_iff_toInt_lt,hzero,hrest]
  generalize a.toInt.tdiv 1000 = q at *
  generalize a.toInt.tmod 1000 = m at *
  split_ifs with h
  · rw [hless,hquotient,Int.bmod_def]
    omega
  · rw [hquotient]
    omega

theorem toInt_max_zero (t : Int64) : (max t 0).toInt = max 0 t.toInt := by
  have hm : max t 0 = if t ≤ 0 then 0 else t := rfl
  have hzero : (0 : Int64).toInt = 0 := rfl
  simp only [hm,apply_ite Int64.toInt,Int64.le_iff_toInt_le,hzero]
  split_ifs <;> omega

theorem toInt_hidingSecond (now hiddenIn : Int64) :
    (hidingSecond now hiddenIn).toInt = hidingTime now.toInt hiddenIn.toInt := by
  have hnow := now.le_toInt
  rw [hidingSecond,toInt_flooredQuotient,toInt_cappedSum,toInt_max_zero,hidingTime]
  omega

theorem hidingTime_mono {now later hiddenIn longer : Int} (hn : now ≤ later)
    (hh : hiddenIn ≤ longer) : hidingTime now hiddenIn ≤ hidingTime later longer := by
  unfold hidingTime
  omega

/-! ### Altogether -/

/-- A map is turned into the objects of its cells, no more and no fewer; those of the cells that
follow come after, and what is static never expires. -/
structure TurnsInto (r : MapResponse) (now : Int) : Prop where
  exactly : ∀ os, OfMap now r os ↔ os = r.objects now
  append : ∀ later, objects ⟨r.cells ++ later⟩ now = r.objects now ++ objects ⟨later⟩ now
  length : (r.objects now).length =
    (r.cells.map (·.wild.length)).sum + (r.cells.map (·.forts.length)).sum + (r.cells.map fun c =>
      c.forts.countP fun f => f.kind = .checkpoint ∧ f.lure.isSome).sum
  static : ∀ o ∈ r.objects now, o.kind ≠ .creature → o.expiry = 0

/-- A wild creature is given its second exactly, in machine integers as in all others; it is never
before that of the sight, and grows with both times. -/
structure HidesInTime (now hiddenIn : Int64) : Prop where
  machine : (hidingSecond now hiddenIn).toInt = hidingTime now.toInt hiddenIn.toInt
  exactly : (hidingSecond now hiddenIn).toInt =
    ⌊((min (now.toInt + max 0 hiddenIn.toInt) (2 ^ 63 - 1) : Int) : ℚ) / 1000⌋
  seen : ⌊(now.toInt : ℚ) / 1000⌋ ≤ (hidingSecond now hiddenIn).toInt
  mono : ∀ later longer, now ≤ later → hiddenIn ≤ longer →
    hidingSecond now hiddenIn ≤ hidingSecond later longer

theorem turnsInto (r : MapResponse) (now : Int) : r.TurnsInto now where
  exactly _ := ofMap_iff
  append later := objects_append r.cells later now
  length := r.length_objects now
  static _ ho hk := expiry_of_static ho hk

theorem hidesInTime (now hiddenIn : Int64) : HidesInTime now hiddenIn where
  machine := toInt_hidingSecond now hiddenIn
  exactly := by
    rw [toInt_hidingSecond,floor_thousandth]
    rfl
  seen := by
    have hnow := now.toInt_lt
    rw [toInt_hidingSecond,floor_thousandth,hidingTime]
    omega
  mono later longer hn hh := by
    rw [Int64.le_iff_toInt_le,toInt_hidingSecond,toInt_hidingSecond]
    exact hidingTime_mono (Int64.le_iff_toInt_le.mp hn) (Int64.le_iff_toInt_le.mp hh)

/-- Whatever a map reports and whenever it is seen, no object is lost and none is added; and
whatever the time and the span that is left, in whatever direction, a wild creature hides when it
should. -/
theorem turns_exactly : (∀ (r : MapResponse) (now : Int), r.TurnsInto now) ∧
    ∀ now hiddenIn : Int64, HidesInTime now hiddenIn := ⟨turnsInto,hidesInTime⟩

/-- A wild creature that has just hidden, and two forts with a lure, of which a checkpoint draws a
creature. -/
def clearing : MapResponse :=
  ⟨[{ wild := [⟨35,16,1,2,-5⟩]
      forts := [⟨"gym",.stronghold,3,4,1,false,some ⟨36,25,90500⟩⟩,
        ⟨"stop",.checkpoint,3,4,0,true,some ⟨36,25,90500⟩⟩] }]⟩

example : (clearing.objects 61999).map (fun o => (o.kind,o.id,o.expiry)) =
    [(.creature,"z",61),(.stronghold,"gym",0),(.creature,"10",90),(.checkpoint,"stop",0)] := by
      decide +kernel

end MapResponse

end ScanService
