import Mathlib.Data.Int.Order.Basic
import Mathlib.Data.Prod.Lex
import ScanService.Coordinate
/-! The numbers of the machine. Those that are numbers are ordered as their classes, exponents and
mantissas are; what is no number is in no order with any, and most of what is computed from it is no
number either. -/
namespace ScanService.Machine

open Float.Model

/-! ### Order -/

/-- The class of a number, its exponent and its mantissa, the last two turned round below zero. -/
abbrev Rank : Type := ℤ ×ₗ ℤ ×ₗ ℤ

def unpackedRank : UnpackedFloat → Rank
  | .infinity .negative => toLex (-2,toLex (0,0))
  | .finite .negative m e _ => toLex (-1,toLex (-e,-m))
  | .notANumber | .zero _ => toLex (0,toLex (0,0))
  | .finite .positive m e _ => toLex (1,toLex (e,m))
  | .infinity .positive => toLex (2,toLex (0,0))

def rank (x : Float) : Rank := unpackedRank x.toModel.unpack

theorem compare_toLex {a a' b b' c c' : ℤ} :
    compare (toLex (a,toLex (b,c))) (toLex (a',toLex (b',c'))) = (compare a a').then
      ((compare b b').then (compare c c')) := rfl

theorem compare_neg (a b : ℤ) : compare (-a) (-b) = (compare a b).swap := by
  rcases lt_trichotomy a b with h | rfl | h
  · rw [compare_lt_iff_lt.mpr h,compare_gt_iff_gt.mpr (Int.neg_lt_neg h)]
    rfl
  · simp
  · rw [compare_gt_iff_gt.mpr h,compare_lt_iff_lt.mpr (Int.neg_lt_neg h)]
    rfl

theorem compare_natCast (m n : ℕ) : compare (m : ℤ) (n : ℤ) = compare m n := by
  rcases lt_trichotomy m n with h | rfl | h
  · rw [compare_lt_iff_lt.mpr h,compare_lt_iff_lt.mpr (by exact_mod_cast h)]
  · simp
  · rw [compare_gt_iff_gt.mpr h,compare_gt_iff_gt.mpr (by exact_mod_cast h)]

theorem compare_positive {m m' : ℕ} {e e' : ℤ} : (compare e e').then (compare m m') =
    compare (toLex ((1 : ℤ),toLex (e,(m : ℤ)))) (toLex (1,toLex (e',(m' : ℤ)))) := by
  rw [compare_toLex,compare_natCast]
  rfl

theorem compare_negative {m m' : ℕ} {e e' : ℤ} : ((compare e e').then (compare m m')).swap =
    compare (toLex ((-1 : ℤ),toLex (-e,-(m : ℤ)))) (toLex (-1,toLex (-e',-(m' : ℤ)))) := by
  rw [compare_toLex,compare_neg e,compare_neg m,compare_natCast,Ordering.swap_then]
  rfl

theorem compare_unpacked {u v : UnpackedFloat} (hu : u.isNaN = false) (hv : v.isNaN = false) :
    u.compare v = some (compare (unpackedRank u) (unpackedRank v)) := by
  -- one case a pair of classes; all but those of two finite numbers of one sign compute
  rcases u with (_ | _) | _ | (_ | _) | ⟨_ | _,m,e,hm⟩ <;>
    rcases v with (_ | _) | _ | (_ | _) | ⟨_ | _,m',e',hm'⟩ <;>
    first
    | rfl
    | exact absurd hu (by decide)
    | exact absurd hv (by decide)
    | exact congrArg some compare_positive
    | exact congrArg some compare_negative

variable {x y : Float}

theorem le_iff_unpacked : x ≤ y ↔ x.toModel.unpack.le y.toModel.unpack = true := decide_eq_true_iff

theorem lt_iff_unpacked : x < y ↔ x.toModel.unpack.lt y.toModel.unpack = true := decide_eq_true_iff

theorem le_iff_rank (hx : x.isNaN = false) (hy : y.isNaN = false) : x ≤ y ↔ rank x ≤ rank y := by
  rw [le_iff_unpacked,UnpackedFloat.le,compare_unpacked hx hy]
  exact Ordering.isLE_iff_ne_gt.trans compare_le_iff_le

theorem lt_iff_rank (hx : x.isNaN = false) (hy : y.isNaN = false) : x < y ↔ rank x < rank y := by
  rw [lt_iff_unpacked,UnpackedFloat.lt,compare_unpacked hx hy]
  exact beq_iff_eq.trans (Option.some_inj.trans compare_lt_iff_lt)

/-! ### What is no number -/

theorem eq_of_isNaN_unpacked {u : UnpackedFloat} (h : u.isNaN = true) : u = .notANumber := by
  cases u with
  | notANumber => rfl
  | infinity s => exact absurd h Bool.false_ne_true
  | zero s => exact absurd h Bool.false_ne_true
  | finite s m e hm => exact absurd h Bool.false_ne_true

theorem unpack_of_isNaN (h : x.isNaN = true) : x.toModel.unpack = .notANumber :=
  eq_of_isNaN_unpacked h

theorem isNaN_packed : (Float.ofModel (.pack .notANumber)).isNaN = true := by decide +kernel

theorem not_le_of_isNaN_left (h : x.isNaN = true) : ¬ x ≤ y := by
  rw [le_iff_unpacked,unpack_of_isNaN h]
  exact Bool.false_ne_true

theorem not_le_of_isNaN_right (h : y.isNaN = true) : ¬ x ≤ y := by
  rw [le_iff_unpacked,unpack_of_isNaN h]
  cases x.toModel.unpack <;> exact Bool.false_ne_true

theorem not_lt_of_isNaN_left (h : x.isNaN = true) : ¬ x < y := by
  rw [lt_iff_unpacked,unpack_of_isNaN h]
  exact Bool.false_ne_true

/-- What is below something is a number. -/
theorem isNaN_eq_false_of_le (h : x ≤ y) : x.isNaN = false := by
  by_contra hx
  exact not_le_of_isNaN_left (by simpa using hx) h

theorem isNaN_sub_left (h : x.isNaN = true) : (x - y).isNaN = true := by
  change (Float.ofModel (.pack (.sub Format.binary64 x.toModel.unpack y.toModel.unpack))).isNaN =
    true
  rw [unpack_of_isNaN h]
  exact isNaN_packed

theorem isNaN_sub_right (h : y.isNaN = true) : (x - y).isNaN = true := by
  change (Float.ofModel (.pack (.sub Format.binary64 x.toModel.unpack y.toModel.unpack))).isNaN =
    true
  rw [unpack_of_isNaN h]
  cases x.toModel.unpack <;> exact isNaN_packed

theorem isNaN_add_right (h : y.isNaN = true) : (x + y).isNaN = true := by
  change (Float.ofModel (.pack (.add Format.binary64 x.toModel.unpack y.toModel.unpack))).isNaN =
    true
  rw [unpack_of_isNaN h]
  cases x.toModel.unpack <;> exact isNaN_packed

theorem isNaN_mul_left (h : x.isNaN = true) : (x * y).isNaN = true := by
  change (Float.ofModel (.pack (.mul Format.binary64 x.toModel.unpack y.toModel.unpack))).isNaN =
    true
  rw [unpack_of_isNaN h]
  exact isNaN_packed

theorem isNaN_mul_right (h : y.isNaN = true) : (x * y).isNaN = true := by
  change (Float.ofModel (.pack (.mul Format.binary64 x.toModel.unpack y.toModel.unpack))).isNaN =
    true
  rw [unpack_of_isNaN h]
  cases x.toModel.unpack <;> exact isNaN_packed

theorem isNaN_div_left (h : x.isNaN = true) : (x / y).isNaN = true := by
  change (Float.ofModel (.pack (.div Format.binary64 x.toModel.unpack y.toModel.unpack))).isNaN =
    true
  rw [unpack_of_isNaN h]
  exact isNaN_packed

theorem isNaN_sqrt (h : x.isNaN = true) : x.sqrt.isNaN = true := by
  change (Float.ofModel (.pack (.sqrt Format.binary64 x.toModel.unpack))).isNaN = true
  rw [unpack_of_isNaN h]
  exact isNaN_packed

end ScanService.Machine

namespace ScanService

open Machine

/-- A centre without a longitude is as far from every point as can be, if the sine of what is no
number is none either: the cap of the formula takes a value that is no number for one that is too
great. -/
theorem Coordinate.distance_of_isNaN_lng {τ : Trigonometry}
    (hτ : ∀ x, x.isNaN = true → (τ.sin x).isNaN = true) {a : Coordinate Float}
    (ha : a.lng.isNaN = true) (b : Coordinate Float) :
    a.distance b τ = 2.0 * earthRadius * τ.asin 1.0 := by
  have ht : (τ.sin (radians (b.lng - a.lng) / 2.0)).isNaN = true :=
    hτ _ (isNaN_div_left (isNaN_mul_left (isNaN_sub_right ha)))
  rw [distance,capped,if_neg (not_lt_of_isNaN_left (isNaN_sqrt (isNaN_add_right (isNaN_mul_right
    (isNaN_mul_left ht)))))]

end ScanService
