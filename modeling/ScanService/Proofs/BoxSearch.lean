import Mathlib.Algebra.Order.Field.Basic
import Mathlib.Algebra.Order.Field.Rat
import Mathlib.Data.Int.Cast.Lemmas
import Mathlib.Tactic.Linarith
import Mathlib.Tactic.NormNum
import ScanService.Store.ObjectTable
/-! The search through a box, in exact arithmetic. It finds what a plain search of the whole table
finds, apart from the objects on the antimeridian that a box reaches from the other side and ends
at. -/
namespace ScanService

variable {R : Type} [Field R] [LinearOrder R] [IsStrictOrderedRing R]

/-- The point lies on the globe; both ends of both ranges do. -/
def Coordinate.OnGlobe (c : Coordinate R) : Prop :=
  (-90 ≤ c.lat ∧ c.lat ≤ 90) ∧ -180 ≤ c.lng ∧ c.lng ≤ 180

def Around (d x y : R) : Prop := ∃ k : ℤ, |x - y - 360 * k| ≤ d

/-- The extents bound every point within the radius; those in longitude do so unless they are
360. -/
def Geometry.Encloses (g : Geometry R) (center : Coordinate R) (radius : R) : Prop :=
  ∀ p : Coordinate R, p.OnGlobe → g.distance center p ≤ radius →
    |p.lat - center.lat| ≤ (g.extents center radius).1 ∧
      ((g.extents center radius).2 ≠ 360 → Around (g.extents center radius).2 p.lng center.lng)

/-- The point lies on the antimeridian, on the side that the box does not come from, and the box
ends there. -/
def Geometry.Clips (g : Geometry R) (center : Coordinate R) (radius : R) (p : Coordinate R) :
    Prop :=
  let d := (g.extents center radius).2
  center.lng + d = 180 ∧ -180 < center.lng - d ∧ p.lng = -180 ∨
    center.lng - d = -180 ∧ center.lng + d < 180 ∧ p.lng = 180

instance (g : Geometry R) (center : Coordinate R) (radius : R) (p : Coordinate R) :
    Decidable (g.Clips center radius p) :=
  inferInstanceAs (Decidable (_ ∨ _))

/-- The live objects of the wanted kinds within a radius of a point, by a plain search of the whole
table. -/
def ObjectTable.within (t : ObjectTable R) (g : Geometry R) (center : Coordinate R) (radius : R)
    (kinds : List ObjectKind) (now : Int) : List (ScanObject R) :=
  t.rows.filter fun o => kinds.contains o.kind && o.live now && decide
    (g.distance center o.place ≤ radius)

section Longitude

variable {d x y : R}

/-- Two longitudes on the globe that are close around the circle are close, unless both lie at its
ends. -/
theorem Around.cases (h : Around d x y) (hx : -180 ≤ x ∧ x ≤ 180) (hw : -180 ≤ y - d)
    (he : y + d ≤ 180) :
    |x - y| ≤ d ∨ (x = -180 ∧ y + d = 180) ∨ (x = 180 ∧ y - d = -180) := by
  obtain ⟨k,hk⟩ := h
  obtain ⟨hl,hu⟩ := abs_le.mp hk
  rcases lt_trichotomy k 0 with hk | rfl | hk
  · -- the point is met one turn to the east at least
    have hk : (k : R) ≤ -1 := by exact_mod_cast Int.le_sub_one_of_lt hk
    exact Or.inr (Or.inl ⟨by linarith,by linarith⟩)
  · exact Or.inl (by simpa using abs_le.mpr ⟨hl,hu⟩)
  · have hk : (1 : R) ≤ k := by exact_mod_cast hk
    exact Or.inr (Or.inr ⟨by linarith,by linarith⟩)

end Longitude

namespace ObjectTable

variable {g : Geometry R} {center : Coordinate R} {radius : R}

/-- The box holds every point within the radius that it does not clip, and none that it clips. -/
theorem holds_iff (hg : g.Encloses center radius) {p : Coordinate R} (hp : p.OnGlobe)
    (hd : g.distance center p ≤ radius) :
    (Box.around g center radius).holds p = true ↔ ¬ g.Clips center radius p := by
  obtain ⟨hlat,hlng⟩ := hg p hp hd
  obtain ⟨_,hx⟩ := hp
  obtain ⟨hs,hn⟩ := abs_le.mp hlat
  have hsouth : center.lat - (g.extents center radius).1 ≤ p.lat := by linarith
  have hnorth : p.lat ≤ center.lat + (g.extents center radius).1 := by linarith
  simp only [Box.around,Box.holds,Geometry.Clips,hsouth,hnorth,decide_true,Bool.true_and]
  generalize (g.extents center radius).2 = d at hlng
  by_cases hbox : -180 ≤ center.lng - d ∧ center.lng + d ≤ 180
  · simp only [if_pos hbox,Bool.and_eq_true,decide_eq_true_eq]
    have hd : d ≠ 360 := fun h => by linarith [hbox.1,hbox.2]
    rcases (hlng hd).cases hx hbox.1 hbox.2 with h | ⟨h,he⟩ | ⟨h,hw⟩
    · obtain ⟨hl,hu⟩ := abs_le.mp h
      refine iff_of_true ⟨by linarith,by linarith⟩ ?_
      rintro (⟨_,hw,h⟩ | ⟨_,he,h⟩) <;> linarith
    · refine ⟨fun hin => ?_,fun hc => ⟨?_,?_⟩⟩
      · rintro (⟨_,hw,_⟩ | ⟨_,_,h'⟩) <;> linarith [hin.1]
      · by_contra hw
        exact hc (Or.inl ⟨he,by linarith,h⟩)
      · linarith
    · refine ⟨fun hin => ?_,fun hc => ⟨?_,?_⟩⟩
      · rintro (⟨_,_,h'⟩ | ⟨_,he,_⟩) <;> linarith [hin.2]
      · linarith
      · by_contra he
        exact hc (Or.inr ⟨hw,by linarith,h⟩)
  · simp only [if_neg hbox,true_iff]
    rintro (⟨he,hw,_⟩ | ⟨hw,he,_⟩)
    · exact hbox ⟨hw.le,he.le⟩
    · exact hbox ⟨hw.ge,he.le⟩

/-- A search finds what a plain search of the whole table finds, apart from the objects that its box
clips. -/
theorem query_perm_within (t : ObjectTable R) {kinds : List ObjectKind} (now : Int)
    (hg : g.Encloses center radius) (hrows : ∀ o ∈ t.rows, o.place.OnGlobe) (hradius : 0 ≤ radius)
    (hkinds : kinds ≠ []) : (t.query g center radius kinds now).Perm
      ((t.within g center radius kinds now).filter fun o => ¬ g.Clips center radius o.place) := by
  have hn : ¬ (kinds.isEmpty = true ∨ radius < 0) := by
    simpa [hkinds] using hradius
  rw [query,if_neg hn]
  refine (List.mergeSort_perm _ _).trans (((List.mergeSort_perm _ _).filter _).trans ?_)
  rw [within,List.filter_filter,List.filter_filter]
  refine List.Perm.of_eq (List.filter_congr fun o ho => ?_)
  by_cases hd : g.distance center o.place ≤ radius
  · have hb := holds_iff hg (hrows o ho) hd
    by_cases hc : g.Clips center radius o.place <;> simp_all
  · simp [hd]

end ObjectTable

def Geometry.flat : Geometry ℚ where
  distance a b := max |b.lat - a.lat| (min |b.lng - a.lng| (360 - |b.lng - a.lng|))
  extents _ radius := (radius,radius)

theorem Geometry.flat_encloses {center : Coordinate ℚ} (hc : center.OnGlobe) (radius : ℚ) :
    flat.Encloses center radius := by
  intro p hp hd
  obtain ⟨hlat,hlng⟩ := max_le_iff.mp hd
  have hx := abs_le.mp (show |p.lng - center.lng| ≤ 360 by
    rw [abs_le]
    constructor <;> linarith [hp.2.1,hp.2.2,hc.2.1,hc.2.2])
  refine ⟨hlat,fun _ => ?_⟩
  change Around radius p.lng center.lng
  rcases min_le_iff.mp hlng with h | h
  · exact ⟨0,by simpa using h⟩
  · rcases abs_cases (p.lng - center.lng) with ⟨he,_⟩ | ⟨he,_⟩
    · refine ⟨1,abs_le.mpr ⟨?_,?_⟩⟩ <;> push_cast <;> linarith
    · refine ⟨-1,abs_le.mpr ⟨?_,?_⟩⟩ <;> push_cast <;> linarith

namespace ObjectTable

def brink : ObjectTable ℚ := ⟨[.checkpoint "east" ⟨0,180⟩ false,.checkpoint "west" ⟨0,-180⟩ false]⟩

theorem brink_onGlobe : ∀ o ∈ brink.rows, o.place.OnGlobe := by
  simp [brink,Coordinate.OnGlobe,ScanObject.place,ScanObject.checkpoint]

/-- The box may lose an object that lies within the radius. -/
theorem not_query_perm :
    ¬ ∀ (t : ObjectTable ℚ) (g : Geometry ℚ) (center : Coordinate ℚ) (radius : ℚ) (kinds :
      List ObjectKind) (now : Int), center.OnGlobe → g.Encloses center radius →
    (∀ o ∈ t.rows, o.place.OnGlobe) → 0 ≤ radius → kinds ≠ [] →
    (t.query g center radius kinds now).Perm (t.within g center radius kinds now) := by
  intro h
  have hc : Coordinate.OnGlobe (⟨0,179⟩ : Coordinate ℚ) := by simp [Coordinate.OnGlobe]; norm_num
  have hp := h brink .flat ⟨0,179⟩ 1 [.checkpoint] 0 hc (Geometry.flat_encloses hc 1)
    brink_onGlobe (by norm_num) (List.cons_ne_nil ObjectKind.checkpoint [])
  have hl : (brink.query .flat ⟨0,179⟩ 1 [.checkpoint] 0).length ≠
      (brink.within .flat ⟨0,179⟩ 1 [.checkpoint] 0).length := by decide +kernel
  exact hl hp.length_eq

theorem query_perm_within_brink : Geometry.flat.Encloses ⟨0,179⟩ 1 ∧
    (brink.within .flat ⟨0,179⟩ 1 [.checkpoint] 0).map (·.id) = ["east","west"] ∧
    (brink.query .flat ⟨0,179⟩ 1 [.checkpoint] 0).map (·.id) = ["east"] := by
  have hg : Geometry.flat.Encloses ⟨0,179⟩ 1 :=
    Geometry.flat_encloses (by simp [Coordinate.OnGlobe]; norm_num) 1
  have hp := query_perm_within brink 0 hg brink_onGlobe (by norm_num)
    (List.cons_ne_nil ObjectKind.checkpoint [])
  have hc : ((brink.within .flat ⟨0,179⟩ 1 [.checkpoint] 0).filter fun o =>
      ¬ Geometry.flat.Clips ⟨0,179⟩ 1 o.place).map (·.id) = ["east"] := by decide +kernel
  have hq := hp.map (·.id)
  rw [hc,List.perm_singleton] at hq
  exact ⟨hg,by decide +kernel,hq⟩

end ObjectTable

end ScanService
