import Mathlib.Algebra.Order.Field.Basic
import Mathlib.Algebra.Order.Field.Rat
import Mathlib.Algebra.Group.Nat.Even
import Mathlib.Tactic.FieldSimp
import Mathlib.Tactic.Linarith
import Mathlib.Tactic.NormNum
import Mathlib.Tactic.Positivity
import Mathlib.Tactic.Ring
import ScanService.Decimal.Binary
import ScanService.Proofs.MachineNumbers
/-! The quotients of the machine. What is computed is the number nearest to the quotient, of those
with 53 binary digits; so a greater divisor never has a greater quotient. -/
namespace ScanService

/-! ### The nearest integer -/

/-- An integer that is nearest to a number, and even where another one is as near. -/
structure IsNearest (n : ℕ) (q : ℚ) : Prop where
  low : (n : ℚ) - 1 / 2 ≤ q
  high : q ≤ (n : ℚ) + 1 / 2
  even_low : (n : ℚ) - 1 / 2 = q → Even n
  even_high : q = (n : ℚ) + 1 / 2 → Even n

namespace IsNearest

variable {k m n : ℕ} {f p q : ℚ}

theorem below (h0 : 0 ≤ f) (hf : f < 1 / 2) : IsNearest k (k + f) :=
  ⟨by linarith,by linarith,fun h => by linarith,fun h => by linarith⟩

theorem above (hf : 1 / 2 < f) (h1 : f < 1) : IsNearest (k + 1) (k + f) := by
  constructor <;> push_cast
  · linarith
  · linarith
  · intro h
    linarith
  · intro h
    linarith

/-- From the middle it goes to the even neighbour. -/
theorem middle (k : ℕ) : IsNearest (k + k % 2) (k + 1 / 2) := by
  have heven : Even (k + k % 2) := by
    rw [Nat.even_iff]
    omega
  have hm : ((k % 2 : ℕ) : ℚ) = 0 ∨ ((k % 2 : ℕ) : ℚ) = 1 := by
    rcases Nat.mod_two_eq_zero_or_one k with h | h <;> simp [h]
  refine ⟨?_,?_,fun _ => heven,fun _ => heven⟩ <;> push_cast <;> rcases hm with h | h <;>
    rw [h] <;> linarith

theorem natCast (n : ℕ) : IsNearest n n := by
  have h := below (k := n) (f := 0) (by norm_num) (by norm_num)
  rwa [add_zero] at h

/-- A greater number has no smaller nearest integer. -/
theorem mono (h : IsNearest m p) (h' : IsNearest n q) (hpq : p ≤ q) : m ≤ n := by
  by_contra hn
  have hnm : (n : ℚ) + 1 ≤ m := by exact_mod_cast Nat.lt_of_not_le hn
  have hlow := h.low
  have hhigh := h'.high
  -- both numbers are half way from the one integer to the other, and both integers are even
  have hm : (m : ℚ) = n + 1 := by linarith
  have hem : Even m := h.even_low (by linarith)
  have hen : Even n := h'.even_high (by linarith)
  have hs : m = n + 1 := by exact_mod_cast hm
  rw [hs,Nat.even_add_one] at hem
  exact hem hen

end IsNearest

namespace Decimal

theorem isNearest_roundDiv (num : ℕ) {den : ℕ} (hd : 0 < den) :
    IsNearest (roundDiv num den) ((num : ℚ) / den) := by
  have hden : (0 : ℚ) < den := by exact_mod_cast hd
  have hnum : (num : ℚ) = den * (num / den : ℕ) + (num % den : ℕ) := by
    exact_mod_cast (Nat.div_add_mod num den).symm
  have hq : (num : ℚ) / den = (num / den : ℕ) + ((num % den : ℕ) : ℚ) / den := by
    rw [hnum]
    field_simp
  obtain ⟨f,hf⟩ : ∃ f : ℚ, f = ((num % den : ℕ) : ℚ) / den := ⟨_,rfl⟩
  have h0 : 0 ≤ f := by
    rw [hf]
    positivity
  have h1 : f < 1 := by
    rw [hf,div_lt_one₀ hden]
    exact_mod_cast Nat.mod_lt num hd
  rw [hq,← hf,roundDiv]
  by_cases hlt : 2 * (num % den) < den
  · rw [if_pos hlt]
    refine .below h0 ?_
    rw [hf,div_lt_iff₀ hden]
    have hlt : (2 : ℚ) * (num % den : ℕ) < den := by exact_mod_cast hlt
    linarith
  rw [if_neg hlt]
  by_cases hgt : den < 2 * (num % den)
  · rw [if_pos hgt]
    refine .above ?_ h1
    rw [hf,lt_div_iff₀ hden]
    have hgt : (den : ℚ) < 2 * (num % den : ℕ) := by exact_mod_cast hgt
    linarith
  · have heq : (2 : ℚ) * (num % den : ℕ) = den := by
      exact_mod_cast Nat.le_antisymm (by omega) (by omega)
    have hhalf : f = 1 / 2 := by
      rw [hf,div_eq_iff hden.ne']
      linarith
    rw [if_neg hgt,hhalf]
    exact .middle _

/-- `scaled` multiplies by a power of two. -/
theorem scaled_eq (num den : ℕ) (e : ℤ) :
    ((scaled num den e).1 : ℚ) / (scaled num den e).2 = (num : ℚ) / den * 2 ^ e := by
  unfold scaled
  split
  · rename_i he
    obtain ⟨k,rfl⟩ := Int.eq_ofNat_of_zero_le he
    simp only [Int.toNat_natCast,Nat.pow_eq,Nat.cast_mul,Nat.cast_pow,Nat.cast_ofNat,zpow_natCast]
    ring
  · rename_i he
    obtain ⟨k,hk⟩ := Int.eq_ofNat_of_zero_le (Int.neg_nonneg_of_nonpos (Int.le_of_not_le he))
    obtain rfl : e = -k := by omega
    simp only [Int.neg_neg,Int.toNat_natCast,Nat.pow_eq,Nat.cast_mul,Nat.cast_pow,Nat.cast_ofNat,
      zpow_neg,zpow_natCast]
    rw [div_mul_eq_div_div,div_eq_mul_inv _ ((2 : ℚ) ^ k)]

theorem scaled_snd_pos (num : ℕ) {den : ℕ} (hd : 0 < den) (e : ℤ) : 0 < (scaled num den e).2 := by
  unfold scaled
  split
  · exact hd
  · exact Nat.mul_pos hd (Nat.pow_pos (by decide))

end Decimal

namespace Machine

open Float.Model UnpackedFloat

/-! ### Digits and what is left -/

/-- Digits of a quotient, with what comes next told by two bits: whether at least a half is left,
and whether something else than nothing and a half. -/
structure Holds (em : ExtendedMantissa) (num den : ℕ) : Prop where
  den_pos : 0 < den
  mantissa : em.mantissa = num / den
  roundBit : em.roundBit = true ↔ den ≤ 2 * (num % den)
  stickyBit : em.stickyBit = true ↔ num % den ≠ 0 ∧ 2 * (num % den) ≠ den

section Holds

variable {em : ExtendedMantissa} {num den : ℕ}

theorem holds_ofFraction (num : ℕ) (hd : 0 < den) :
    Holds (.ofMantissaAndAccuracy (num / den) (accuracyOfFraction (num % den) den)) num den := by
  unfold accuracyOfFraction
  by_cases h0 : num % den = 0
  · rw [if_pos h0]
    refine ⟨hd,?_,?_,?_⟩ <;> simp [ExtendedMantissa.ofMantissaAndAccuracy,h0]
    omega
  · rw [if_neg h0]
    rcases Nat.lt_trichotomy (2 * (num % den)) den with h | h | h
    · rw [Nat.compare_eq_lt.mpr h]
      refine ⟨hd,?_,?_,?_⟩ <;> simp [ExtendedMantissa.ofMantissaAndAccuracy,h0] <;> omega
    · rw [Nat.compare_eq_eq.mpr h]
      refine ⟨hd,?_,?_,?_⟩ <;> simp [ExtendedMantissa.ofMantissaAndAccuracy,h0,h]
    · rw [Nat.compare_eq_gt.mpr h]
      refine ⟨hd,?_,?_,?_⟩ <;> simp [ExtendedMantissa.ofMantissaAndAccuracy,h0] <;> omega

/-- The last digit goes to the bits: it is the next half, and what was left is less than that. -/
theorem Holds.shiftRightOne (h : Holds em num den) : Holds em.shiftRightOne num (den * 2) := by
  have hd := h.den_pos
  have hlt := Nat.mod_lt num hd
  have hmod : num % (den * 2) = num % den + den * (num / den % 2) := Nat.mod_mul
  constructor
  · exact Nat.mul_pos hd (by decide)
  · rw [ExtendedMantissa.shiftRightOne,h.mantissa,Nat.div_div_eq_div_mul]
  · simp only [ExtendedMantissa.shiftRightOne,h.mantissa,bne_iff_ne,hmod]
    rcases Nat.mod_two_eq_zero_or_one (num / den) with hb | hb <;> rw [hb] <;> omega
  · simp only [ExtendedMantissa.shiftRightOne,Bool.or_eq_true,h.roundBit,h.stickyBit,hmod]
    rcases Nat.mod_two_eq_zero_or_one (num / den) with hb | hb <;> rw [hb] <;> omega

theorem Holds.shiftRight (h : Holds em num den) (k : ℕ) : Holds (em >>> k) num (den * 2 ^ k) := by
  change Holds (k.repeat ExtendedMantissa.shiftRightOne em) num (den * 2 ^ k)
  induction k with
  | zero => simpa [Nat.repeat] using h
  | succ k ih =>
    rw [Nat.pow_succ,← Nat.mul_assoc]
    exact ih.shiftRightOne

theorem Holds.roundedMantissa (h : Holds em num den) :
    em.roundedMantissa = Decimal.roundDiv num den := by
  have hr := h.roundBit
  have hs := h.stickyBit
  obtain ⟨m,r,s⟩ := em
  obtain rfl : m = num / den := h.mantissa
  simp only at hr hs
  simp only [Decimal.roundDiv,ExtendedMantissa.roundedMantissa]
  cases r <;> cases s <;>
    simp only [Bool.false_eq_true,false_iff,true_iff] at hr hs <;>
    simp only [ExtendedMantissa.accuracy,Accuracy.roundToNearestEven]
  · rw [if_pos (by omega)]
  · rw [if_pos (by omega)]
  · rw [if_neg (by omega),if_neg (by omega)]
  · rw [if_neg (by omega),if_pos (by omega)]

end Holds

/-! ### Rounding to 53 digits -/

/-- A number is rounded to digits and an exponent: to the nearest integer of 53 binary digits, or of
less at the least exponent. -/
structure Rounded (x : ℚ) (m : ℕ) (e : ℤ) : Prop where
  least : -1074 ≤ e
  lt : x < 2 ^ (e + 53)
  le : -1074 < e → (2 : ℚ) ^ (e + 52) ≤ x
  nearest : IsNearest m (x / 2 ^ e)

section Rounded

variable {x y : ℚ} {m n : ℕ} {e f : ℤ}

theorem two_zpow_pos (e : ℤ) : (0 : ℚ) < 2 ^ e := zpow_pos (by norm_num) e

theorem two_zpow_add (e : ℤ) (k : ℕ) : (2 : ℚ) ^ (e + k) = 2 ^ e * 2 ^ k := by
  rw [zpow_add₀ (by norm_num),zpow_natCast]

theorem Rounded.le_two_pow (h : Rounded x m e) : m ≤ 2 ^ 53 := by
  refine h.nearest.mono (.natCast (2 ^ 53)) ?_
  rw [div_le_iff₀ (two_zpow_pos e),mul_comm]
  have hlt := h.lt.le
  rw [show e + 53 = e + (53 : ℕ) from rfl,two_zpow_add] at hlt
  exact_mod_cast hlt

theorem Rounded.two_pow_le (h : Rounded x m e) (he : -1074 < e) : 2 ^ 52 ≤ m := by
  refine (IsNearest.natCast (2 ^ 52)).mono h.nearest ?_
  rw [le_div_iff₀ (two_zpow_pos e),mul_comm]
  have hle := h.le he
  rw [show e + 52 = e + (52 : ℕ) from rfl,two_zpow_add] at hle
  exact_mod_cast hle

/-- Digits of a greater exponent are worth as much as any of a smaller one, if they are as many as
they can be. -/
theorem two_pow_mul_le (hn : 2 ^ 52 ≤ n) (hef : e < f) : (2 : ℚ) ^ 53 * 2 ^ e ≤ n * 2 ^ f := by
  have hn : (2 : ℚ) ^ 52 ≤ n := by exact_mod_cast hn
  calc (2 : ℚ) ^ 53 * 2 ^ e = 2 ^ 52 * 2 ^ (e + 1) := by
        rw [zpow_add₀ (by norm_num),zpow_one]
        ring
    _ ≤ 2 ^ 52 * 2 ^ f :=
      mul_le_mul_of_nonneg_left (zpow_le_zpow_right₀ (by norm_num) hef) (by norm_num)
    _ ≤ n * 2 ^ f := mul_le_mul_of_nonneg_right hn (two_zpow_pos f).le

/-- A greater number is not rounded to a smaller one. -/
theorem Rounded.mono (h : Rounded x m e) (h' : Rounded y n f) (hxy : x ≤ y) :
    (m : ℚ) * 2 ^ e ≤ n * 2 ^ f := by
  rcases Int.lt_trichotomy e f with hef | rfl | hfe
  · have hm : (m : ℚ) ≤ 2 ^ 53 := by exact_mod_cast h.le_two_pow
    have hn := two_pow_mul_le (h'.two_pow_le (lt_of_le_of_lt h.least hef)) hef
    exact le_trans (mul_le_mul_of_nonneg_right hm (two_zpow_pos e).le) hn
  · have hmn : m ≤ n :=
      h.nearest.mono h'.nearest (div_le_div_of_nonneg_right hxy (two_zpow_pos e).le)
    exact mul_le_mul_of_nonneg_right (by exact_mod_cast hmn) (two_zpow_pos e).le
  · have hy : x < x := calc
      x ≤ y := hxy
      _ < 2 ^ (f + 53) := h'.lt
      _ ≤ 2 ^ (e + 52) := zpow_le_zpow_right₀ (by norm_num) (by omega)
      _ ≤ x := h.le (lt_of_le_of_lt h'.least hfe)
    exact absurd hy (lt_irrefl x)

end Rounded

theorem targetExponent_eq (t : ℤ) : Format.binary64.targetExponent t = max (t - 53) (-1074) := rfl

section Shift

variable {num den : ℕ} {e : ℤ}

theorem two_pow_log2_bounds (num : ℕ) {den : ℕ} (hd : 0 < den) (e : ℤ) :
    (num : ℚ) / den * 2 ^ e < 2 ^ (e + (num / den).log2 + 1) ∧
      (num / den ≠ 0 → (2 : ℚ) ^ (e + (num / den).log2) ≤ (num : ℚ) / den * 2 ^ e) := by
  have hden : (0 : ℚ) < den := by exact_mod_cast hd
  have hlog : num / den + 1 ≤ 2 ^ ((num / den).log2 + 1) := Nat.lt_log2_self
  constructor
  · have hq : (num : ℚ) / den < 2 ^ ((num / den).log2 + 1) := by
      rw [div_lt_iff₀ hden]
      have hlt : num < 2 ^ ((num / den).log2 + 1) * den :=
        lt_of_lt_of_le (Nat.lt_mul_of_div_lt (Nat.lt_succ_self _) hd)
          (Nat.mul_le_mul_right den hlog)
      exact_mod_cast hlt
    rw [add_assoc,show ((num / den).log2 : ℤ) + 1 = (((num / den).log2 + 1 : ℕ) : ℤ) from rfl,
      two_zpow_add,mul_comm ((2 : ℚ) ^ e)]
    exact mul_lt_mul_of_pos_right hq (two_zpow_pos e)
  · intro h0
    have hq : (2 : ℚ) ^ (num / den).log2 ≤ (num : ℚ) / den := by
      rw [le_div_iff₀ hden]
      have hle : 2 ^ (num / den).log2 * den ≤ num :=
        le_trans (Nat.mul_le_mul_right den (Nat.log2_self_le h0)) (Nat.div_mul_le_self num den)
      exact_mod_cast hle
    rw [two_zpow_add,mul_comm ((2 : ℚ) ^ e)]
    exact mul_le_mul_of_nonneg_right hq (two_zpow_pos e).le

theorem rounded_shift (hd : 0 < den) (he : e ≤ -1074 ∨ 2 ^ 52 ≤ num / den) :
    Rounded ((num : ℚ) / den * 2 ^ e)
      (shiftToTargetExponent Format.binary64 (num / den) e
        (accuracyOfFraction (num % den) den)).1.roundedMantissa
      (shiftToTargetExponent Format.binary64 (num / den) e
        (accuracyOfFraction (num % den) den)).2 := by
  obtain ⟨k,hk⟩ : ∃ k, k = (max ((num / den).log2 + 1 + e - 53) (-1074) - e).toNat := ⟨_,rfl⟩
  have hshift : shiftToTargetExponent Format.binary64 (num / den) e
      (accuracyOfFraction (num % den) den) =
        (ExtendedMantissa.ofMantissaAndAccuracy (num / den) (accuracyOfFraction (num % den) den) >>>
          k,e + k) := by
    rw [hk]
    rfl
  have hlog : 2 ^ 52 ≤ num / den → 52 ≤ (num / den).log2 := fun h => (Nat.le_log2 (by omega)).mpr h
  have hek : e + k = max ((num / den).log2 + e - 52) (-1074) := by
    rcases he with he | he
    · omega
    · have := hlog he
      omega
  obtain ⟨hlt,hle⟩ := two_pow_log2_bounds num hd e
  rw [hshift]
  constructor
  · omega
  · refine lt_of_lt_of_le hlt (zpow_le_zpow_right₀ (by norm_num) ?_)
    omega
  · intro hlast
    have h0 : num / den ≠ 0 := by
      intro h0
      rw [h0] at he hek
      simp at he hek
      omega
    refine le_trans (zpow_le_zpow_right₀ (by norm_num) ?_) (hle h0)
    omega
  · rw [((holds_ofFraction num hd).shiftRight k).roundedMantissa]
    have hn := Decimal.isNearest_roundDiv num
      (Nat.mul_pos hd (Nat.pow_pos (n := k) (Nat.succ_pos 1)))
    have hx : (num : ℚ) / den * 2 ^ e / 2 ^ (e + k) = (num : ℚ) / (den * 2 ^ k : ℕ) := by
      rw [two_zpow_add]
      push_cast
      field_simp
    rwa [hx]

end Shift

/-! ### What the bits stand for -/

open Decimal

theorem toNat_packComponents (e : BitVec 11) (m : BitVec 52) :
    (packComponents Format.binary64 .positive e m).toNat = e.toNat * 2 ^ 52 + m.toNat := by
  have h : packComponents Format.binary64 .positive e m = 0#1 ++ e ++ m := rfl
  rw [h,BitVec.toNat_append,BitVec.toNat_append,← Nat.shiftLeft_add_eq_or_of_lt m.isLt,
    ← Nat.shiftLeft_add_eq_or_of_lt e.isLt,Nat.shiftLeft_eq]
  simp

theorem shape_ofBits {e m : ℕ} (he : e < 2048) (hm : m < 2 ^ 52) : Shape.ofBits (e * 2 ^ 52 + m) =
    if e = 2047 then if m = 0 then .infinite false else .nan
    else if e = 0 then .finite ⟨false,m,-1074⟩ else .finite ⟨false,m + 2 ^ 52,e - 1075⟩ := by
  have hd : (e * 2 ^ 52 + m) / 0x10000000000000 % 2048 = e := by omega
  have hr : (e * 2 ^ 52 + m) % 0x10000000000000 = m := by omega
  have hs : decide (0x8000000000000000 ≤ e * 2 ^ 52 + m) = false := decide_eq_false (by omega)
  simp only [Shape.ofBits,hd,hr,hs]
  rfl

/-- What bits without a sign stand for: a number below the greatest power of two, or an infinity
from there on. -/
inductive Stands : Shape → ℚ → Prop
  | finite {m : ℕ} {e : ℤ} (h : (m : ℚ) * 2 ^ e < 2 ^ (1024 : ℤ)) :
      Stands (.finite ⟨false,m,e⟩) (m * 2 ^ e)
  | infinite {v : ℚ} (h : 2 ^ (1024 : ℤ) ≤ v) : Stands (.infinite false) v

section Pack

variable {m : ℕ} {e : ℤ}

theorem shape_pack (u : UnpackedFloat) :
    Shape.of (.ofModel (.pack u)) = Shape.ofBits (UnpackedFloat.pack Format.binary64 u).toNat := rfl

theorem pack_finite (hp : 0 < m) : UnpackedFloat.pack Format.binary64 (.finite .positive m e hp) =
    if 2048 ≤ (e + 1023 + 52).toNat + 1 then packComponents Format.binary64 .positive (-1#11) 0#52
    else if m.log2 + 1 = 53 then
      packComponents Format.binary64 .positive (BitVec.ofNat 11 (e + 1023 + 52).toNat)
        (BitVec.ofNat 52 m)
    else packComponents Format.binary64 .positive 0#11 (BitVec.ofNat 52 m) := rfl

theorem toNat_pack_infinite (hp : 0 < m) (he : 972 ≤ e) :
    (UnpackedFloat.pack Format.binary64 (.finite .positive m e hp)).toNat = 2047 * 2 ^ 52 + 0 := by
  rw [pack_finite,if_pos (by omega)]
  rfl

theorem toNat_pack_normal (hp : 0 < m) (hlo : 2 ^ 52 ≤ m) (hm : m < 2 ^ 53) (he : e < 972) :
    (UnpackedFloat.pack Format.binary64 (.finite .positive m e hp)).toNat =
      (e + 1075).toNat * 2 ^ 52 + (m - 2 ^ 52) := by
  have hlog : m.log2 = 52 := (Nat.log2_eq_iff hp.ne').mpr ⟨hlo,hm⟩
  have he' : (BitVec.ofNat 11 (e + 1023 + 52).toNat).toNat = (e + 1075).toNat := by
    rw [BitVec.toNat_ofNat]
    omega
  have hm' : (BitVec.ofNat 52 m).toNat = m - 2 ^ 52 := by
    rw [BitVec.toNat_ofNat]
    omega
  rw [pack_finite,if_neg (by omega),if_pos (by rw [hlog]),toNat_packComponents,he',hm']

theorem toNat_pack_subnormal (hp : 0 < m) (hm : m < 2 ^ 52) :
    (UnpackedFloat.pack Format.binary64 (.finite .positive m (-1074) hp)).toNat =
      0 * 2 ^ 52 + m := by
  have hlog := (Nat.log2_lt hp.ne').mpr hm
  have hm' : (BitVec.ofNat 52 m).toNat = m := by rw [BitVec.toNat_ofNat,Nat.mod_eq_of_lt hm]
  rw [pack_finite,if_neg (by decide),if_neg (by omega),toNat_packComponents,hm']
  rfl

theorem stands_pack (hp : 0 < m) (hm : m < 2 ^ 53) (he : -1074 ≤ e) (hn : -1074 < e → 2 ^ 52 ≤ m) :
    Stands (Shape.of (.ofModel (.pack (.finite .positive m e hp)))) (m * 2 ^ e) := by
  have hmq : (m : ℚ) < 2 ^ 53 := by exact_mod_cast hm
  have hlt (he : e < 972) : (m : ℚ) * 2 ^ e < 2 ^ (1024 : ℤ) := calc
    (m : ℚ) * 2 ^ e < 2 ^ 53 * 2 ^ e := mul_lt_mul_of_pos_right hmq (two_zpow_pos e)
    _ = 2 ^ (e + 53) := by rw [mul_comm,← Nat.cast_ofNat (R := ℤ),two_zpow_add]
    _ ≤ 2 ^ (1024 : ℤ) := zpow_le_zpow_right₀ (by norm_num) (by omega)
  rw [shape_pack]
  rcases lt_or_ge m (2 ^ 52) with hsmall | hlo
  · obtain rfl : e = -1074 := by
      by_contra hne
      have := hn (by omega)
      omega
    rw [toNat_pack_subnormal hp hsmall,shape_ofBits (by decide) hsmall]
    exact .finite (hlt (by decide))
  rcases lt_or_ge e 972 with hfin | hinf
  · have hexp : ((e + 1075).toNat : ℤ) - 1075 = e := by omega
    rw [toNat_pack_normal hp hlo hm hfin,shape_ofBits (by omega) (by omega),if_neg (by omega),
      if_neg (by omega),Nat.sub_add_cancel hlo,hexp]
    exact .finite (hlt hfin)
  · rw [toNat_pack_infinite hp hinf,shape_ofBits (by decide) (by decide)]
    refine .infinite ?_
    have hmq : (2 : ℚ) ^ 52 ≤ m := by exact_mod_cast hlo
    calc (2 : ℚ) ^ (1024 : ℤ) ≤ 2 ^ (e + 52) := zpow_le_zpow_right₀ (by norm_num) (by omega)
      _ = 2 ^ 52 * 2 ^ e := by rw [mul_comm,← Nat.cast_ofNat (R := ℤ),two_zpow_add]
      _ ≤ m * 2 ^ e := mul_le_mul_of_nonneg_right hmq (two_zpow_pos e).le

theorem stands_pack_zero : Stands (Shape.of (.ofModel (.pack (.zero .positive)))) 0 := by
  have h : Shape.of (.ofModel (.pack (.zero .positive))) = .finite ⟨false,0,-1074⟩ := by
    decide +kernel
  have hs := Stands.finite (m := 0) (e := -1074) (by simp)
  simpa [h] using hs

theorem shift_digits (hm : m < 2 ^ 53) (he : -1074 ≤ e) :
    shiftToTargetExponent Format.binary64 m e .exact = (⟨m,false,false⟩,e) := by
  have hlog : m.log2 ≤ 52 := by
    by_cases h0 : m = 0
    · rw [h0]
      decide
    · have := (Nat.log2_lt h0).mpr hm
      omega
  have hk : (Format.binary64.targetExponent (totalExponent m e) - e).toNat = 0 := by
    rw [targetExponent_eq,totalExponent]
    omega
  simp only [shiftToTargetExponent,shiftToExponent,hk]
  exact Prod.ext rfl (Int.add_zero e)

theorem shift_carry (he : -1074 ≤ e) :
    shiftToTargetExponent Format.binary64 (2 ^ 53) e .exact = (⟨2 ^ 52,false,false⟩,e + 1) := by
  have hk : (Format.binary64.targetExponent (totalExponent (2 ^ 53) e) - e).toNat = 1 := by
    rw [targetExponent_eq,totalExponent,Nat.log2_two_pow]
    omega
  simp only [shiftToTargetExponent,shiftToExponent,hk]
  rfl

section Round

variable {x : ℚ} {q : ℕ} {e₀ e' : ℤ} {acc : Accuracy} {em em' : ExtendedMantissa}

theorem roundWithAccuracy_eq (hs : shiftToTargetExponent Format.binary64 q e₀ acc = (em,e))
    (hs' : shiftToTargetExponent Format.binary64 em.roundedMantissa e .exact = (em',e')) :
    roundWithAccuracy Format.binary64 .positive q e₀ acc =
      if h : em'.mantissa = 0 then .zero .positive
      else .finite .positive em'.mantissa e' (Nat.pos_of_ne_zero h) := by
  obtain ⟨rfl,rfl⟩ := Prod.ext_iff.mp hs
  obtain ⟨rfl,rfl⟩ := Prod.ext_iff.mp hs'
  rfl

theorem stands_round (hs : shiftToTargetExponent Format.binary64 q e₀ acc = (em,e))
    (h : Rounded x em.roundedMantissa e) :
    Stands (Shape.of (.ofModel (.pack (roundWithAccuracy Format.binary64 .positive q e₀ acc))))
      (em.roundedMantissa * 2 ^ e) := by
  rcases lt_or_eq_of_le h.le_two_pow with hm | hm
  · rw [roundWithAccuracy_eq hs (shift_digits hm h.least)]
    by_cases h0 : em.roundedMantissa = 0
    · have hv : (em.roundedMantissa : ℚ) * 2 ^ e = 0 := by rw [h0,Nat.cast_zero,zero_mul]
      rw [dif_pos h0,hv]
      exact stands_pack_zero
    · rw [dif_neg h0]
      exact stands_pack _ hm h.least h.two_pow_le
  · have hc : shiftToTargetExponent Format.binary64 em.roundedMantissa e
        .exact = (⟨2 ^ 52,false,false⟩,e + 1) := by
      rw [hm,shift_carry h.least]
    have hv : ((2 ^ 53 : ℕ) : ℚ) * 2 ^ e = ((2 ^ 52 : ℕ) : ℚ) * 2 ^ (e + 1) := by
      rw [zpow_add₀ (by norm_num),zpow_one]
      push_cast
      ring
    have hle : -1074 ≤ e + 1 := le_trans h.least (Int.le_add_of_nonneg_right (by decide))
    rw [roundWithAccuracy_eq hs hc,dif_neg (by decide),hm,hv]
    exact stands_pack (by decide) (by decide) hle fun _ => le_rfl

end Round

end Pack

/-! ### Division -/

section Division

variable {m₁ m₂ : ℕ} {e₁ e₂ : ℤ}

theorem div_finite (h₁ : 0 < m₁) (h₂ : 0 < m₂) :
    UnpackedFloat.div Format.binary64 (.finite .positive m₁ e₁ h₁) (.finite .positive m₂ e₂ h₂) =
      roundWithAccuracy Format.binary64 .positive (divCore Format.binary64 m₁ e₁ m₂ e₂).1
        (divCore Format.binary64 m₁ e₁ m₂ e₂).2.1 (divCore Format.binary64 m₁ e₁ m₂ e₂).2.2 := rfl

theorem stands_div (h₁ : 0 < m₁) (h₂ : 0 < m₂) (e₁ e₂ : ℤ) :
    ∃ m e, Rounded ((m₁ : ℚ) * 2 ^ e₁ / (m₂ * 2 ^ e₂)) m e ∧
      Stands (Shape.of (.ofModel
        (.pack (.div Format.binary64 (.finite .positive m₁ e₁ h₁) (.finite .positive m₂ e₂ h₂)))))
      (m * 2 ^ e) := by
  obtain ⟨e₀,he₀⟩ : ∃ e₀, e₀ = min (e₁ - e₂)
      (Format.binary64.targetExponent (totalExponent m₁ e₁ - totalExponent m₂ e₂)) := ⟨_,rfl⟩
  obtain ⟨k,hk⟩ : ∃ k, k = (e₁ - e₂ - e₀).toNat := ⟨_,rfl⟩
  have hcore : divCore Format.binary64 m₁ e₁ m₂ e₂ =
      (m₁ * 2 ^ k / m₂,e₀,accuracyOfFraction (m₁ * 2 ^ k % m₂) m₂) := by
    rw [divCore,← he₀,← hk,Nat.shiftLeft_eq]
  have hkz : (k : ℤ) = e₁ - e₂ - e₀ := by omega
  have hdigits : e₀ ≤ -1074 ∨ 2 ^ 52 ≤ m₁ * 2 ^ k / m₂ := by
    rcases le_or_gt e₀ (-1074) with hle | hgt
    · exact Or.inl hle
    refine Or.inr ((Nat.le_div_iff_mul_le h₂).mpr ?_)
    rw [targetExponent_eq,totalExponent,totalExponent] at he₀
    calc 2 ^ 52 * m₂ ≤ 2 ^ 52 * 2 ^ (m₂.log2 + 1) := Nat.mul_le_mul_left _ Nat.lt_log2_self.le
      _ = 2 ^ (52 + (m₂.log2 + 1)) := (Nat.pow_add _ _ _).symm
      _ ≤ 2 ^ (m₁.log2 + k) := Nat.pow_le_pow_right (by decide) (by omega)
      _ = 2 ^ m₁.log2 * 2 ^ k := Nat.pow_add _ _ _
      _ ≤ m₁ * 2 ^ k := Nat.mul_le_mul_right _ (Nat.log2_self_le h₁.ne')
  have hx : (m₁ : ℚ) * 2 ^ e₁ / (m₂ * 2 ^ e₂) = ((m₁ * 2 ^ k : ℕ) : ℚ) / m₂ * 2 ^ e₀ := by
    have he : e₁ = e₀ + k + e₂ := by omega
    have hpos := two_zpow_pos e₂
    rw [he,zpow_add₀ (by norm_num),two_zpow_add]
    push_cast
    field_simp
  rw [hx]
  refine ⟨_,_,rounded_shift h₂ hdigits,?_⟩
  rw [div_finite,hcore]
  exact stands_round rfl (rounded_shift h₂ hdigits)

end Division

/-! ### Positive numbers -/

def unpackedDigits? : UnpackedFloat → Option (ℕ × ℤ)
  | .finite .positive m e _ => some (m,e)
  | _ => none

def digits? (x : Float) : Option (ℕ × ℤ) := unpackedDigits? x.toModel.unpack

/-- The digits are as many as they can be, 53 but for the least exponent. -/
structure Canonical (m : ℕ) (e : ℤ) : Prop where
  pos : 0 < m
  lt : m < 2 ^ 53
  least : -1074 ≤ e
  le : -1074 < e → 2 ^ 52 ≤ m

section Positive

variable {x y : Float} {m n : ℕ} {e f : ℤ}

theorem eq_of_unpackedDigits {u : UnpackedFloat} (h : unpackedDigits? u = some (m,e)) :
    ∃ hm, u = .finite .positive m e hm := by
  rcases u with _ | _ | _ | ⟨_ | _,m',e',hm⟩
  · cases h
  · cases h
  · cases h
  · cases h
  · obtain ⟨rfl,rfl⟩ := Prod.mk.inj (Option.some.inj h)
    exact ⟨hm,rfl⟩

theorem unpack_of_digits (h : digits? x = some (m,e)) :
    ∃ hm, x.toModel.unpack = .finite .positive m e hm :=
  eq_of_unpackedDigits h

theorem unpackedDigits_of_lt {u : UnpackedFloat} (hf : u.isFinite = true)
    (h0 : UnpackedFloat.lt (.zero .positive) u = true) : ∃ m e, unpackedDigits? u = some (m,e) := by
  rcases u with _ | _ | (_ | _) | ⟨_ | _,m,e,hm⟩
  · exact absurd hf Bool.false_ne_true
  · exact absurd hf Bool.false_ne_true
  · exact absurd h0 Bool.false_ne_true
  · exact absurd h0 Bool.false_ne_true
  · exact absurd h0 Bool.false_ne_true
  · exact ⟨m,e,rfl⟩

theorem digits_of_positive (hf : x.isFinite = true) (h0 : 0.0 < x) :
    ∃ m e, digits? x = some (m,e) := by
  have hz : (0.0 : Float).toModel.unpack = .zero .positive := rfl
  have hlt := lt_iff_unpacked.mp h0
  rw [hz] at hlt
  exact unpackedDigits_of_lt hf hlt

theorem canonical_subnormal {v : BitVec 52} (h : 0 < v.toNat) : Canonical v.toNat (-1074) :=
  ⟨h,lt_trans v.isLt (by decide),le_rfl,fun hle => absurd hle (lt_irrefl _)⟩

theorem canonical_normal {v : BitVec 52} {b : BitVec 11} (h : b ≠ 0#11) :
    Canonical (1#1 ++ v).toNat (b.toNat - 1075) := by
  have hpos : b.toNat ≠ 0 := fun h0 => h (BitVec.eq_of_toNat_eq h0)
  have hlt := v.isLt
  have hdigits : (1#1 ++ v).toNat = 2 ^ 52 + v.toNat := by
    rw [BitVec.toNat_append,← Nat.shiftLeft_add_eq_or_of_lt hlt]
    rfl
  rw [hdigits]
  exact ⟨by omega,by omega,by omega,fun _ => by omega⟩

theorem canonical_of_digits (h : digits? x = some (m,e)) : Canonical m e := by
  unfold digits? Float.Model.unpack UnpackedFloat.unpack at h
  dsimp only at h
  by_cases hlast : @unpackExponent Format.binary64 x.toModel.toBits.toBitVec = -1#11
  · rw [if_pos hlast] at h
    by_cases h0 : @unpackMantissa Format.binary64 x.toModel.toBits.toBitVec = 0#52
    · rw [if_pos h0] at h
      cases h
    · rw [if_neg h0] at h
      cases h
  rw [if_neg hlast] at h
  by_cases hfirst : @unpackExponent Format.binary64 x.toModel.toBits.toBitVec = 0#11
  · rw [if_pos hfirst] at h
    by_cases h0 : @unpackMantissa Format.binary64 x.toModel.toBits.toBitVec = 0#52
    · rw [dif_pos h0] at h
      cases h
    · rw [dif_neg h0] at h
      obtain ⟨hm,hu⟩ := eq_of_unpackedDigits h
      obtain ⟨-,rfl,rfl⟩ := UnpackedFloat.finite.inj hu
      rw [hfirst]
      exact canonical_subnormal hm
  · rw [if_neg hfirst] at h
    obtain ⟨hm,hu⟩ := eq_of_unpackedDigits h
    obtain ⟨-,rfl,rfl⟩ := UnpackedFloat.finite.inj hu
    exact canonical_normal hfirst

theorem rank_of_digits (h : digits? x = some (m,e)) : rank x = toLex (1,toLex (e,(m : ℤ))) := by
  obtain ⟨hm,hu⟩ := unpack_of_digits h
  rw [rank,hu]
  rfl

theorem isNaN_of_digits (h : digits? x = some (m,e)) : x.isNaN = false := by
  obtain ⟨hm,hu⟩ := unpack_of_digits h
  change x.toModel.unpack.isNaN = false
  rw [hu]
  rfl

/-- Of positive numbers the one of the smaller exponent is smaller, and in one exponent the one of
the smaller digits. -/
theorem le_iff_digits (hx : digits? x = some (m,e)) (hy : digits? y = some (n,f)) :
    x ≤ y ↔ e < f ∨ e = f ∧ m ≤ n := by
  rw [le_iff_rank (isNaN_of_digits hx) (isNaN_of_digits hy),rank_of_digits hx,rank_of_digits hy]
  simp [Prod.Lex.toLex_le_toLex]

theorem value_lt_of_lt (hx : digits? x = some (m,e)) (hy : digits? y = some (n,f))
    (h : e < f ∨ e = f ∧ m < n) : (m : ℚ) * 2 ^ e < n * 2 ^ f := by
  have hc := canonical_of_digits hx
  have hc' := canonical_of_digits hy
  rcases h with hef | ⟨rfl,hmn⟩
  · have hm : (m : ℚ) < 2 ^ 53 := by exact_mod_cast hc.lt
    have hn := two_pow_mul_le (hc'.le (lt_of_le_of_lt hc.least hef)) hef
    exact lt_of_lt_of_le (mul_lt_mul_of_pos_right hm (two_zpow_pos e)) hn
  · exact mul_lt_mul_of_pos_right (by exact_mod_cast hmn) (two_zpow_pos e)

/-- The order of the machine is that of the numbers. -/
theorem le_iff_value (hx : digits? x = some (m,e)) (hy : digits? y = some (n,f)) :
    x ≤ y ↔ (m : ℚ) * 2 ^ e ≤ n * 2 ^ f := by
  rw [le_iff_digits hx hy]
  constructor
  · rintro (hef | ⟨rfl,hmn⟩)
    · exact (value_lt_of_lt hx hy (Or.inl hef)).le
    · exact mul_le_mul_of_nonneg_right (by exact_mod_cast hmn) (two_zpow_pos e).le
  · intro hle
    by_contra hn
    have hlt : f < e ∨ f = e ∧ n < m := by omega
    exact absurd (value_lt_of_lt hy hx hlt) (not_lt_of_ge hle)

theorem digits_one : digits? 1.0 = some (2 ^ 52,-52) := by decide +kernel

theorem stands_reciprocal (hx : digits? x = some (m,e)) :
    ∃ n f, Rounded (1 / (m * 2 ^ e)) n f ∧ Stands (Shape.of (1.0 / x)) (n * 2 ^ f) := by
  obtain ⟨hm,hu⟩ := unpack_of_digits hx
  obtain ⟨h1,hu1⟩ := unpack_of_digits digits_one
  obtain ⟨n,f,hr,hs⟩ := stands_div h1 hm (-52) e
  have hone : ((2 ^ 52 : ℕ) : ℚ) * 2 ^ (-52 : ℤ) = 1 := by norm_num
  rw [hone] at hr
  refine ⟨n,f,hr,?_⟩
  rw [← hu1,← hu] at hs
  exact hs

/-- The reciprocal of a greater number is not greater. -/
theorem reciprocal_antitone (hx : digits? x = some (m,e)) (hy : digits? y = some (n,f))
    (hxy : x ≤ y) : ∃ v w, w ≤ v ∧ Stands (Shape.of (1.0 / x)) v ∧
    Stands (Shape.of (1.0 / y)) w := by
  obtain ⟨k,i,hr,hs⟩ := stands_reciprocal hx
  obtain ⟨l,j,hr',hs'⟩ := stands_reciprocal hy
  have hpos : (0 : ℚ) < m * 2 ^ e :=
    mul_pos (by exact_mod_cast (canonical_of_digits hx).pos) (two_zpow_pos e)
  exact ⟨_,_,hr'.mono hr (one_div_le_one_div_of_le hpos ((le_iff_value hx hy).mp hxy)),hs,hs'⟩

/-- Between digits and the next ones there is no number. -/
theorem le_or_next_le {z : Float} (hx : digits? x = some (m,e)) (hy : digits? y = some (m + 1,e))
    (hz : digits? z = some (n,f)) : z ≤ x ∨ y ≤ z := by
  rw [le_iff_digits hz hx,le_iff_digits hy hz]
  omega

end Positive

end Machine

end ScanService
