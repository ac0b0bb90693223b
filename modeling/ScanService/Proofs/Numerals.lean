import Mathlib.Algebra.Group.Nat.Defs
import Mathlib.Data.Nat.Digits.Lemmas
import Mathlib.Data.Nat.Notation
import Mathlib.Logic.Function.Basic
import ScanService.Text.Radix
/-! Positional notation and its reading. The digits of a number are digits of its base, no zero
stands in front of others, and there are no other such digits of which it is the value; reading them
gives the number back, whether or not it is padded, so no two numbers are written alike. -/
namespace ScanService.Text.Radix

variable {b n d : ℕ}

/-! ### Digits -/

theorem digits_ne_nil (b n : ℕ) : digits b n ≠ [] := by
  rw [digits]
  split <;> simp

theorem lt_of_mem_digits (hb : 2 ≤ b) (h : d ∈ digits b n) : d < b := by
  induction n using Nat.strongRecOn with
  | ind n ih =>
    by_cases hn : n < b
    · rw [digits_of_lt hn,List.mem_singleton] at h
      omega
    · rw [digits_of_le hb (by omega),List.mem_append,List.mem_singleton] at h
      rcases h with h | rfl
      · exact ih (n / b) (Nat.div_lt_self (by omega) (by omega)) h
      · exact Nat.mod_lt n (by omega)

theorem head?_digits_ne_zero (hb : 2 ≤ b) (hn : n ≠ 0) : (digits b n).head? ≠ some 0 := by
  induction n using Nat.strongRecOn with
  | ind n ih =>
    by_cases h : n < b
    · simpa [digits_of_lt h] using hn
    · have hq : n / b ≠ 0 := Nat.div_ne_zero_iff.mpr ⟨by omega,by omega⟩
      have hne := ih (n / b) (Nat.div_lt_self (by omega) (by omega)) hq
      obtain ⟨e,es,he⟩ := List.exists_cons_of_ne_nil (digits_ne_nil b (n / b))
      rw [digits_of_le hb (by omega),he]
      simpa [he] using hne

/-- A number below a power of the base has no more digits than the exponent says. -/
theorem length_digits_le (hb : 2 ≤ b) {k : ℕ} (hk : 0 < k) (h : n < b ^ k) :
    (digits b n).length ≤ k := by
  induction k generalizing n with
  | zero => omega
  | succ k ih =>
    by_cases hn : n < b
    · rw [digits_of_lt hn]
      simp
    · have hq : n / b < b ^ k := Nat.div_lt_of_lt_mul (by rwa [Nat.pow_succ,Nat.mul_comm] at h)
      have hk : 0 < k := by
        refine Nat.pos_of_ne_zero fun h0 => hn ?_
        rwa [h0,Nat.zero_add,Nat.pow_one] at h
      rw [digits_of_le hb (by omega)]
      simpa using ih hk hq

theorem value_cons_zero (b : ℕ) (ds : List ℕ) : value b (0 :: ds) = value b ds := by
  simp [value]

/-- The digits of a number but zero, which has one here and none there. -/
theorem digits_eq_reverse (hb : 2 ≤ b) (hn : n ≠ 0) : digits b n = (Nat.digits b n).reverse := by
  induction n using Nat.strongRecOn with
  | ind n ih =>
    rw [Nat.digits_def' hb (Nat.pos_of_ne_zero hn),List.reverse_cons]
    by_cases h : n < b
    · rw [digits_of_lt h,Nat.div_eq_of_lt h,Nat.mod_eq_of_lt h,Nat.digits_zero]
      rfl
    · have hq : n / b ≠ 0 := Nat.div_ne_zero_iff.mpr ⟨by omega,by omega⟩
      rw [digits_of_le hb (by omega),ih (n / b) (Nat.div_lt_self (by omega) (by omega)) hq]

theorem value_eq_ofDigits (b : ℕ) (ds : List ℕ) : value b ds = Nat.ofDigits b ds.reverse := by
  rw [value,Nat.ofDigits_eq_foldr,List.foldr_reverse]
  simp only [Nat.cast_id,Nat.mul_comm,Nat.add_comm]

/-- Digits of the base are those of their value, unless a zero stands in front of others. -/
theorem digits_value (hb : 2 ≤ b) {ds : List ℕ} (hd : ∀ d ∈ ds, d < b) (hne : ds ≠ [])
    (h0 : ds.head? = some 0 → ds = [0]) : digits b (value b ds) = ds := by
  by_cases hz : ds.head? = some 0
  · have hv : value b [0] = 0 := by simp [value]
    rw [h0 hz,hv,digits_of_lt (by omega)]
  -- turned around, the digits end in no zero, and so are those of their value
  · have hlast (h : ds.reverse ≠ []) : ds.reverse.getLast h ≠ 0 := fun he => hz <| by
      rw [← List.getLast?_reverse,List.getLast?_eq_getLast_of_ne_nil h,he]
    have hdigits : Nat.digits b (value b ds) = ds.reverse := by
      rw [value_eq_ofDigits]
      exact Nat.digits_ofDigits b hb ds.reverse (fun d h => hd d (List.mem_reverse.mp h)) hlast
    have hv : value b ds ≠ 0 := by
      rw [← Nat.digits_ne_nil_iff_ne_zero (b := b),hdigits]
      simpa using hne
    rw [digits_eq_reverse hb hv,hdigits,List.reverse_reverse]

/-! ### Characters -/

theorem digitOf_digitChar (hb : b ≤ 36) (hd : d < b) : digitOf b (digitChar d) = some d := by
  have h : ∀ d < 36, digitOf 36 (digitChar d) = some d := by decide
  have hd36 := h d (by omega)
  simp only [digitOf,Option.ite_none_right_eq_some,Option.some.injEq] at hd36 ⊢
  exact ⟨hd36.2.symm ▸ hd,hd36.2⟩

theorem isDigit_digitChar (hd : d < 10) : (digitChar d).isDigit = true := by
  have h : ∀ d < 10, (digitChar d).isDigit = true := by decide
  exact h d hd

theorem chars_ne_nil (b n : ℕ) : chars b n ≠ [] := by
  simpa [chars] using digits_ne_nil b n

theorem isDigit_of_mem_chars {c : Char} (h : c ∈ chars 10 n) : c.isDigit = true := by
  obtain ⟨d,hd,rfl⟩ := List.mem_map.mp h
  exact isDigit_digitChar (lt_of_mem_digits (by decide) hd)

/-- What comes first is a digit, and no zero unless the number is. -/
theorem head?_chars (hb : 2 ≤ b) (n : ℕ) :
    ∃ d < b, (chars b n).head? = some (digitChar d) ∧ (d = 0 → n = 0) := by
  obtain ⟨d,ds,hd⟩ := List.exists_cons_of_ne_nil (digits_ne_nil b n)
  refine ⟨d,lt_of_mem_digits hb (hd ▸ List.mem_cons_self),by simp [chars,hd],fun h0 => ?_⟩
  by_contra hn
  exact head?_digits_ne_zero hb hn (by rw [hd,h0]; rfl)

theorem mapM_digitOf {ds : List ℕ} (hb : b ≤ 36) (h : ∀ d ∈ ds, d < b) :
    (ds.map digitChar).mapM (digitOf b) = some ds := by
  induction ds with
  | nil => rfl
  | cons d ds ih =>
    rw [List.map_cons,List.mapM_cons,digitOf_digitChar hb (h d (by simp)),
      ih fun e he => h e (List.mem_cons_of_mem d he)]
    rfl

theorem read_map_digitChar {ds : List ℕ} (hb : b ≤ 36) (h : ∀ d ∈ ds, d < b) (hne : ds ≠ []) :
    read b (ds.map digitChar) = some (value b ds) := by
  rw [read,mapM_digitOf hb h]
  simp [hne]

theorem read_chars (hb : 2 ≤ b) (hb' : b ≤ 36) (n : ℕ) : read b (chars b n) = some n := by
  rw [chars,read_map_digitChar hb' (fun d => lt_of_mem_digits hb) (digits_ne_nil b n),
    value_digits hb]

theorem chars_injective (hb : 2 ≤ b) (hb' : b ≤ 36) : Function.Injective (chars b) := by
  intro m n h
  have hr := congrArg (read b) h
  rw [read_chars hb hb',read_chars hb hb'] at hr
  exact Option.some.inj hr

/-! ### Padding -/

theorem padded_eq (b width n : ℕ) : padded b width n =
    (List.replicate (width - (digits b n).length) 0 ++ digits b n).map digitChar := by
  simp [padded,chars,digitChar]

theorem value_replicate_zero (b k : ℕ) (ds : List ℕ) :
    value b (List.replicate k 0 ++ ds) = value b ds := by
  induction k with
  | zero => rfl
  | succ k ih => rw [List.replicate_succ,List.cons_append,value_cons_zero,ih]

theorem read_padded (hb : 2 ≤ b) (hb' : b ≤ 36) (width n : ℕ) :
    read b (padded b width n) = some n := by
  rw [padded_eq,read_map_digitChar hb' ?_ (by simp [digits_ne_nil]),value_replicate_zero,
    value_digits hb]
  intro d hd
  rcases List.mem_append.mp hd with hd | hd
  · have := List.eq_of_mem_replicate hd
    omega
  · exact lt_of_mem_digits hb hd

theorem length_padded (hb : 2 ≤ b) {width : ℕ} (hw : 0 < width) (h : n < b ^ width) :
    (padded b width n).length = width := by
  have := length_digits_le hb hw h
  rw [padded_eq,List.length_map,List.length_append,List.length_replicate]
  omega

/-! ### Signs -/

theorem chars_ne_minus (n : ℕ) (cs : List Char) : chars 10 n ≠ '-' :: cs := by
  intro h
  have hm : '-' ∈ chars 10 n := by simp [h]
  exact absurd (isDigit_of_mem_chars hm) (by decide)

/-- No two integers are written alike. -/
theorem signedChars_injective : Function.Injective signedChars := by
  intro i j h
  have hc := chars_injective (b := 10) (by decide) (by decide)
  cases i with
  | ofNat m =>
    cases j with
    | ofNat n => exact congrArg Int.ofNat (hc h)
    | negSucc n => exact absurd h (chars_ne_minus m _)
  | negSucc m =>
    cases j with
    | ofNat n => exact absurd h.symm (chars_ne_minus n _)
    | negSucc n =>
      have hs : m + 1 = n + 1 := hc (List.cons.inj h).2
      rw [Nat.succ.inj hs]

end ScanService.Text.Radix
