import ScanService.MapResponse
import ScanService.Proofs.Numerals
/-! The keys of encounters. A key is a numeral in base 36 without a zero in front of other digits,
and is the only such numeral of its encounter's number; so no two encounters share one, and no
numeral of a number that fits is left out. The machine finds it by division, last digit first. -/
namespace ScanService.MapResponse

/-! ### Numerals -/

def alphabet : List Char := "0123456789abcdefghijklmnopqrstuvwxyz".toList

/-- What a text counts for in base 36: its last character counts ones, and each other 36 times what
the next does. -/
def worth (s : String) : ℕ := Nat.ofDigits 36 (s.toList.reverse.map alphabet.idxOf)

/-- A numeral: digits, at least one, and no zero in front of others. -/
structure Canonical (s : String) : Prop where
  nonempty : s ≠ ""
  digits : ∀ c ∈ s.toList, c ∈ alphabet
  unpadded : s.toList.head? = some '0' → s = "0"

open Text.Radix (digitChar chars value)

variable {s : String} {c : Char} {d : ℕ}

theorem alphabet_eq : alphabet = (List.range 36).map digitChar := by decide +kernel

theorem length_alphabet : alphabet.length = 36 := by
  rw [alphabet_eq,List.length_map,List.length_range]

theorem digitChar_mem_alphabet (hd : d < 36) : digitChar d ∈ alphabet := by
  rw [alphabet_eq]
  exact List.mem_map_of_mem (List.mem_range.mpr hd)

theorem idxOf_digitChar (hd : d < 36) : alphabet.idxOf (digitChar d) = d := by
  have h : ∀ d < 36, alphabet.idxOf (digitChar d) = d := by decide +kernel
  exact h d hd

theorem digitChar_idxOf (hc : c ∈ alphabet) : digitChar (alphabet.idxOf c) = c := by
  rw [alphabet_eq] at hc
  obtain ⟨d,hd,rfl⟩ := List.mem_map.mp hc
  rw [idxOf_digitChar (List.mem_range.mp hd)]

theorem map_idxOf_digitChar {ds : List ℕ} (hd : ∀ d ∈ ds, d < 36) :
    (ds.map digitChar).map alphabet.idxOf = ds := by
  rw [List.map_map,Function.comp_def,List.map_congr_left fun d h =>
    idxOf_digitChar (hd d h),List.map_id']

theorem map_digitChar_idxOf {cs : List Char} (hc : ∀ c ∈ cs, c ∈ alphabet) :
    (cs.map alphabet.idxOf).map digitChar = cs := by
  rw [List.map_map,Function.comp_def,List.map_congr_left fun c h =>
    digitChar_idxOf (hc c h),List.map_id']

theorem worth_eq (s : String) : worth s = value 36 (s.toList.map alphabet.idxOf) := by
  rw [worth,Text.Radix.value_eq_ofDigits,List.map_reverse]

theorem ofList_chars_zero : String.ofList (chars 36 0) = "0" := by
  rw [chars,Text.Radix.digits_of_lt (by decide)]
  rfl

theorem canonical_chars (n : ℕ) : Canonical (String.ofList (chars 36 n)) where
  nonempty := by
    intro h
    exact Text.Radix.chars_ne_nil 36 n (String.ofList_eq_empty_iff.mp h)
  digits := by
    intro c hc
    rw [String.toList_ofList] at hc
    obtain ⟨d,hd,rfl⟩ := List.mem_map.mp hc
    exact digitChar_mem_alphabet (Text.Radix.lt_of_mem_digits (by decide) hd)
  unpadded := by
    intro h
    rw [String.toList_ofList] at h
    obtain ⟨d,hd,hh,hz⟩ := Text.Radix.head?_chars (b := 36) (by decide) n
    have hd0 : d = 0 := by
      rw [← idxOf_digitChar hd,Option.some.inj (hh.symm.trans h)]
      rfl
    rw [hz hd0,ofList_chars_zero]

theorem worth_chars (n : ℕ) : worth (String.ofList (chars 36 n)) = n := by
  rw [worth_eq,String.toList_ofList,chars,map_idxOf_digitChar fun d =>
    Text.Radix.lt_of_mem_digits (by decide)]
  exact Text.Radix.value_digits (by decide) n

theorem Canonical.chars_worth (h : Canonical s) : chars 36 (worth s) = s.toList := by
  have hd : ∀ d ∈ s.toList.map alphabet.idxOf, d < 36 := by
    intro d hd
    obtain ⟨c,hc,rfl⟩ := List.mem_map.mp hd
    rw [← length_alphabet]
    exact List.idxOf_lt_length_iff.mpr (h.digits c hc)
  -- a zero in front is the character zero, which a numeral has there only if it has no other
  have h0 : (s.toList.map alphabet.idxOf).head? = some 0 → s.toList.map alphabet.idxOf = [0] := by
    intro h0
    rw [List.head?_map,Option.map_eq_some_iff] at h0
    obtain ⟨c,hc,hc0⟩ := h0
    have he : c = '0' := by
      rw [← digitChar_idxOf (h.digits c (List.mem_of_head? hc)),hc0]
      rfl
    rw [h.unpadded (he ▸ hc)]
    rfl
  rw [worth_eq,chars,Text.Radix.digits_value (by decide) hd (by simpa using h.nonempty) h0]
  exact map_digitChar_idxOf h.digits

/-! ### By division -/

def lastDigit (n : UInt64) : Char :=
  alphabet.get ⟨(n % 36).toNat,length_alphabet ▸ Nat.mod_lt n.toNat (by decide)⟩

theorem toNat_div_lt {n : UInt64} (h : n ≠ 0) : (n / 36).toNat < n.toNat := by
  have hn : n.toNat ≠ 0 := fun h0 => h (UInt64.toNat_inj.mp h0)
  rw [UInt64.toNat_div]
  exact Nat.div_lt_self (Nat.pos_of_ne_zero hn) (by decide)

/-- The digits of a number, the last one first, of which zero has none. -/
def lastFirst (n : UInt64) : List Char :=
  if _h : n = 0 then [] else lastDigit n :: lastFirst (n / 36)
termination_by n.toNat
decreasing_by exact toNat_div_lt _h

/-- The key of an encounter as the machine finds it. -/
def foundKey (n : UInt64) : String := if n = 0 then "0" else String.ofList (lastFirst n).reverse

theorem lastDigit_eq (n : UInt64) : lastDigit n = digitChar (n.toNat % 36) := by
  simp [lastDigit,alphabet_eq]

theorem lastFirst_eq (n : UInt64) : lastFirst n = (Nat.digits 36 n.toNat).map digitChar := by
  induction n using lastFirst.induct with
  | case1 => rw [lastFirst]; rfl
  | case2 n h ih =>
    have hn : 0 < n.toNat := Nat.pos_of_ne_zero fun h0 => h (UInt64.toNat_inj.mp h0)
    rw [lastFirst,dif_neg h,ih,Nat.digits_def' (by decide) hn,List.map_cons,lastDigit_eq,
      UInt64.toNat_div]
    rfl

theorem foundKey_eq (n : UInt64) : foundKey n = encounterKey n := by
  unfold foundKey encounterKey
  split_ifs with h
  · rw [h]
    exact ofList_chars_zero.symm
  · have hn : n.toNat ≠ 0 := fun h0 => h (UInt64.toNat_inj.mp h0)
    rw [lastFirst_eq,chars,Text.Radix.digits_eq_reverse (by decide) hn,List.map_reverse]

/-! ### Keys -/

theorem length_encounterKey_le (n : UInt64) : (encounterKey n).length ≤ 13 := by
  have hn : n.toNat < 36 ^ 13 := n.toNat_lt.trans (by decide)
  rw [encounterKey,String.length_ofList,chars,List.length_map]
  exact Text.Radix.length_digits_le (by decide) (by decide) hn

theorem encounterKey_injective : Function.Injective encounterKey := by
  intro m n h
  have hc : chars 36 m.toNat = chars 36 n.toNat := String.ofList_inj.mp h
  exact UInt64.toNat_inj.mp (Text.Radix.chars_injective (by decide) (by decide) hc)

/-- Every numeral of a number that fits is the key of that number. -/
theorem Canonical.eq_encounterKey (h : Canonical s) (hs : worth s < 2 ^ 64) :
    encounterKey (UInt64.ofNat (worth s)) = s := by
  rw [encounterKey,UInt64.toNat_ofNat_of_lt' hs,h.chars_worth,String.ofList_toList]

/-- An encounter has a numeral of its number as key, of 13 digits at most. The machine finds it, and
it is read as the number again. -/
structure Keyed (n : UInt64) : Prop where
  found : foundKey n = encounterKey n
  canonical : Canonical (encounterKey n)
  length : (encounterKey n).length ≤ 13
  worth : worth (encounterKey n) = n.toNat
  read : Text.Radix.read 36 (encounterKey n).toList = some n.toNat

theorem keyed (n : UInt64) : Keyed n where
  found := foundKey_eq n
  canonical := canonical_chars n.toNat
  length := length_encounterKey_le n
  worth := worth_chars n.toNat
  read := by
    rw [encounterKey,String.toList_ofList]
    exact Text.Radix.read_chars (by decide) (by decide) n.toNat

/-- Whatever its number, an encounter has a key as it should be, which it shares with no other; and
each numeral of a number that fits is a key. -/
theorem keys_canonical : (∀ n, Keyed n) ∧ Function.Injective encounterKey ∧
    ∀ s, Canonical s → worth s < 2 ^ 64 → encounterKey (UInt64.ofNat (worth s)) = s :=
  ⟨keyed,encounterKey_injective,fun _ hc hs => hc.eq_encounterKey hs⟩

/-- The last key there is. -/
theorem keys_canonical_last : Canonical "3w5e11264sgsf" ∧ worth "3w5e11264sgsf" = 2 ^ 64 - 1 ∧
    encounterKey (UInt64.ofNat (worth "3w5e11264sgsf")) = "3w5e11264sgsf" := by
  have hd : "3w5e11264sgsf".toList.all alphabet.contains = true := by decide +kernel
  have hc : Canonical "3w5e11264sgsf" :=
    ⟨by decide,fun c h => List.contains_iff_mem.mp (List.all_eq_true.mp hd c h),by decide⟩
  have hw : worth "3w5e11264sgsf" = 2 ^ 64 - 1 := by
    rw [worth_eq]
    rfl
  exact ⟨hc,hw,keys_canonical.2.2 _ hc (by rw [hw]; decide)⟩

end ScanService.MapResponse
