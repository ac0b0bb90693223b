import Mathlib.Data.Int.Order.Basic
import Mathlib.Order.MinMax
import ScanService.Proofs.StoredObjects
/-! Purging. What a purge removes no search finds any more, so no search tells whether there was a
purge; and of two purges the one with the later threshold does the work of both. -/
namespace ScanService

namespace ObjectTable

section

variable {R : Type} {o : ScanObject R} {t : ObjectTable R} {threshold now : Int}

theorem expired_iff : expired threshold o = true ↔ o.kind = .creature ∧ o.expiry ≠ 0 ∧
    o.expiry < threshold := by
  simp [expired,and_assoc]

theorem live_of_expired (h : expired threshold o = true) (hn : threshold ≤ now) :
    o.live now = false := by
  obtain ⟨_,h0,hl⟩ := expired_iff.mp h
  simp only [ScanObject.live,h0,decide_false,Bool.false_or,decide_eq_false_iff_not]
  omega

theorem expired_max (first second : Int) (o : ScanObject R) :
    expired (max first second) o = (expired first o || expired second o) := by
  rw [Bool.eq_iff_iff,Bool.or_eq_true]
  simp only [expired_iff,lt_max_iff,and_or_left]

theorem mem_purge : o ∈ (t.purge threshold).1.rows ↔
    o ∈ t.rows ∧ ¬ (o.kind = .creature ∧ o.expiry ≠ 0 ∧ o.expiry < threshold) := by
  rw [purge,List.mem_filter,Bool.not_eq_true',← expired_iff,Bool.not_eq_true]

theorem count_purge (t : ObjectTable R) (threshold : Int) :
    (t.purge threshold).2 = t.rows.countP (expired threshold) := List.countP_eq_length_filter.symm

theorem size_purge (t : ObjectTable R) (threshold : Int) :
    (t.purge threshold).1.size + (t.purge threshold).2 = t.size := by
  have h := t.rows.length_eq_countP_add_countP (expired threshold)
  rw [count_purge,size,size,h,purge,← List.countP_eq_length_filter,Nat.add_comm]
  simp

theorem purge_purge (t : ObjectTable R) (first second : Int) :
    ((t.purge first).1.purge second).1 = (t.purge (max first second)).1 ∧
      (t.purge first).2 + ((t.purge first).1.purge second).2 = (t.purge (max first second)).2 := by
  have hm : expired (R := R) (max first second) = fun o => expired first o || expired second o :=
    funext (expired_max first second)
  constructor
  · simp only [purge,hm,List.filter_filter,Bool.not_or,Bool.and_comm]
  · rw [count_purge,count_purge,count_purge,hm,purge,List.countP_filter]
    induction t.rows with
    | nil => rfl
    | cons o rows ih =>
      -- an object is removed once: by the first purge, or by the second one
      simp only [List.countP_cons] at ih ⊢
      cases expired first o <;> cases expired second o <;> simp <;> omega

theorem purge_again (t : ObjectTable R) (threshold : Int) :
    ((t.purge threshold).1.purge threshold).2 = 0 := by
  have h := (t.purge_purge threshold threshold).2
  rw [max_self] at h
  omega

section Query

variable [LE R] [DecidableLE R] [LT R] [DecidableLT R]

theorem candidates_purge (t : ObjectTable R) (h : threshold ≤ now) (box : Box R)
    (kinds : List ObjectKind) :
    (t.purge threshold).1.candidates box kinds now = t.candidates box kinds now := by
  rw [candidates,candidates,purge,List.filter_filter]
  congr 1
  refine List.filter_congr fun o _ => ?_
  cases he : expired threshold o with
  | false => simp
  | true => simp [live_of_expired he h]

/-- A search finds the same before and after a purge, at the threshold and later. -/
theorem query_purge [Add R] [Sub R] [Neg R] [OfNat R 0] [OfNat R 180] (t : ObjectTable R)
    (h : threshold ≤ now) (g : Geometry R) (center : Coordinate R) (radius : R)
    (kinds : List ObjectKind) :
    (t.purge threshold).1.query g center radius kinds now = t.query g center radius kinds now := by
  rw [query,query,candidates_purge t h]

end Query

end

end ObjectTable

namespace Store

open ObjectTable

variable {s s' : Store} {threshold : Int} {n : ℕ}

/-- Without faults a change to the objects is made. -/
theorem Faultless.onObjects {α : Type} (h : s.Faultless) (c : StoreCall)
    (f : ObjectTable Float → ObjectTable Float × Except StoreFailure α) :
    ∃ t, Spends s t ∧ s.onObjects c f = ({ t with objects := (f s.objects).1 },
      (f s.objects).2) := by
  obtain ⟨t,ht,he | ⟨hn,_⟩⟩ :=
    s.call_cases c fun s => ({ s with objects := (f s.objects).1 },(f s.objects).2)
  · exact ⟨t,ht,by rw [Store.onObjects,he,ht.objects]⟩
  · exact absurd h hn

/-- Without faults a search is answered with what it finds. -/
theorem Faultless.query (h : s.Faultless) (center : Coordinate Float) (radius : Float)
    (kinds : List ObjectKind) (now : Int) :
    (s.query center radius kinds now).2 = .ok
      (s.objects.query .sphere center radius kinds now) := by
  obtain ⟨t,_,ht⟩ := h.ask .query (·.objects.query Geometry.sphere center radius kinds now)
  obtain ⟨hs,_⟩ := ask_ok ht
  rw [Store.query,ht,hs.objects]

/-- What a purge does: it removes the creatures that expire before the threshold, and counts them;
all other records stay, in their order, and no search at the threshold or later finds less. -/
structure Sweeps (s : Store) (threshold : Int) (s' : Store) (n : ℕ) : Prop where
  removed : ∀ o, o ∈ s'.objects.rows ↔
    o ∈ s.objects.rows ∧ ¬ (o.kind = .creature ∧ o.expiry ≠ 0 ∧ o.expiry < threshold)
  order : s'.objects.rows.Sublist s.objects.rows
  counted : n = s.objects.rows.countP fun o => o.kind = .creature ∧ o.expiry ≠ 0 ∧
    o.expiry < threshold
  rest : s'.objects.size + n = s.objects.size
  roster : s'.roster = s.roster
  unseen : ∀ now, threshold ≤ now → ∀ g center radius kinds,
    s'.objects.query g center radius kinds now = s.objects.query g center radius kinds now
  answered : ∀ now, threshold ≤ now → ∀ center radius kinds, ∃ os,
    (s.query center radius kinds now).2 = .ok os ∧ (s'.query center radius kinds now).2 = .ok os

/-- Without faults a purge of the store is one of its objects, and the rest stays as it is. -/
theorem Faultless.purge (h : s.Faultless) (threshold : Int) :
    ∃ s', s.purge threshold = (s',.ok (s.objects.purge threshold).2) ∧
      s'.objects = (s.objects.purge threshold).1 ∧ s'.roster = s.roster ∧ s'.Faultless := by
  obtain ⟨t,ht,hp⟩ := h.onObjects .purge fun t => ((t.purge threshold).1,.ok (t.purge threshold).2)
  exact ⟨_,hp,rfl,ht.roster,ht.faultless h⟩

theorem Faultless.sweeps (h : s.Faultless) (h' : s'.Faultless)
    (ho : s'.objects = (s.objects.purge threshold).1) (hr : s'.roster = s.roster) :
    s.Sweeps threshold s' (s.objects.purge threshold).2 where
  removed o := by rw [ho,mem_purge]
  order := by
    rw [ho]
    exact List.filter_sublist
  counted := by
    rw [count_purge]
    exact List.countP_congr fun o _ => by simp [expired_iff]
  rest := by rw [ho,size_purge]
  roster := hr
  unseen now hn g center radius kinds := by rw [ho,query_purge _ hn]
  answered now hn center radius kinds :=
    ⟨_,h.query center radius kinds now,by rw [h'.query,ho,query_purge _ hn]⟩

/-- A purge sweeps. With another one after it, it does what a single purge at the later of both
thresholds does; a second one at its own threshold does nothing. -/
structure PurgesUnseen (s : Store) (threshold : Int) : Prop where
  swept : ∃ n, (s.purge threshold).2 = .ok n ∧ s.Sweeps threshold (s.purge threshold).1 n
  together : ∀ second, ∃ n m k, (s.purge threshold).2 = .ok n ∧
    ((s.purge threshold).1.purge second).2 = .ok m ∧ (s.purge (max threshold second)).2 = .ok k ∧
    n + m = k ∧
      ((s.purge threshold).1.purge second).1.objects = (s.purge (max threshold second)).1.objects ∧
      ((s.purge threshold).1.purge second).1.roster = (s.purge (max threshold second)).1.roster
  again : ((s.purge threshold).1.purge threshold).2 = .ok 0 ∧
    ((s.purge threshold).1.purge threshold).1.objects = (s.purge threshold).1.objects

/-- Whatever the store holds, a purge removes exactly the creatures that have expired, and no search
shows it. -/
theorem purges_unseen (hs : s.Faultless) (threshold : Int) : s.PurgesUnseen threshold := by
  obtain ⟨s',hp,ho,hr,hf⟩ := hs.purge threshold
  refine ⟨?_,fun second => ?_,?_⟩ <;> rw [hp]
  · exact ⟨_,rfl,hs.sweeps hf ho hr⟩
  · obtain ⟨t,ht,hto,htr,_⟩ := hf.purge second
    obtain ⟨u,hu,huo,hur,_⟩ := hs.purge (max threshold second)
    obtain ⟨hrows,hcount⟩ := s.objects.purge_purge threshold second
    rw [← ho] at hrows hcount
    rw [ht,hu]
    exact ⟨_,_,_,rfl,rfl,rfl,hcount,by rw [hto,huo,hrows],by rw [htr,hr,hur]⟩
  · obtain ⟨t,ht,hto,_⟩ := hf.purge threshold
    have hrows := (s.objects.purge_purge threshold threshold).1
    rw [max_self,← ho] at hrows
    exact ⟨by rw [ht,ho,purge_again],by rw [ht,hto,hrows]⟩

def thicket : Store :=
  { empty with objects := ⟨[.creature "a" 29 ⟨1,2⟩ 100,.creature "b" 29 ⟨1,2⟩ (-3),
    .creature "c" 29 ⟨1,2⟩ 0,
      { ScanObject.stronghold "d" ⟨1,2⟩ 1 with expiry := 50 }]⟩ }

/-- A creature that expires at the threshold stays until a later one. -/
theorem purges_unseen_thicket : thicket.Faultless ∧
    (thicket.purge 100).1.objects.rows.map (·.id) = ["a","c","d"] ∧
    (thicket.purge 100).2.toOption = some 1 ∧ ((thicket.purge 100).1.purge 101).1.objects.rows.map
      (·.id) = ["c","d"] ∧ thicket.PurgesUnseen 100 := by
  have hf : thicket.Faultless := faultless_of_unplanned rfl
  exact ⟨hf,by decide +kernel,by decide +kernel,by decide +kernel,purges_unseen hf 100⟩

end Store

end ScanService
