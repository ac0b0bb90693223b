import Mathlib.Data.Int.Notation
import Mathlib.Tactic.SplitIfs
import ScanService.Json.Reader
import ScanService.Proofs.Numerals
/-! JSON text read back. A value whose numbers are integers of 64 bits is read from its text as it
was written. -/
namespace ScanService.Json

variable {c : Char} {s r rest : List Char} {fuel : ℕ}

/-! ### Strings -/

theorem readHex4_padded {n : ℕ} (hn : n < 16 ^ 4) (r : List Char) :
    readHex4 (Text.Radix.padded 16 4 n ++ r) = some (n,r) := by
  have hl : (Text.Radix.padded 16 4 n).length = 4 :=
    Text.Radix.length_padded (by decide) (by decide) hn
  have hr := Text.Radix.read_padded (b := 16) (by decide) (by decide) 4 n
  obtain ⟨w,x,y,z,hw⟩ : ∃ w x y z, Text.Radix.padded 16 4 n = [w,x,y,z] := by
    match Text.Radix.padded 16 4 n,hl with
    | [w,x,y,z],_ => exact ⟨w,x,y,z,rfl⟩
  rw [hw] at hr ⊢
  simp [readHex4,hr]

theorem readQuoted_short {e : Char} (he : e ≠ 'u') (hc : shortEscape e = some c) (fuel : ℕ)
    (r : List Char) : readQuoted (fuel + 1) ('\\' :: e :: r) = (readQuoted fuel r).map fun p =>
    (c :: p.1,p.2) := by
  simp [readQuoted,he,hc]

theorem readQuoted_escape (fuel : ℕ) (c : Char) (r : List Char) :
    readQuoted (fuel + 1) (escape c ++ r) = (readQuoted fuel r).map fun p => (c :: p.1,p.2) := by
  have hc {e : Char} {n : ℕ} (hs : shortEscape e = some (Char.ofNat n)) (hn : c.toNat = n) :
      shortEscape e = some c := by
    rw [hs,← hn,Char.ofNat_toNat]
  unfold escape
  split_ifs with hq hb h8 h9 h10 h12 h13 h32
  · exact readQuoted_short (by decide) (by simp [shortEscape,hq]) fuel r
  · exact readQuoted_short (by decide) (by simp [shortEscape,hb]) fuel r
  · exact readQuoted_short (by decide) (hc rfl h8) fuel r
  · exact readQuoted_short (by decide) (hc rfl h9) fuel r
  · exact readQuoted_short (by decide) (hc rfl h10) fuel r
  · exact readQuoted_short (by decide) (hc rfl h12) fuel r
  · exact readQuoted_short (by decide) (hc rfl h13) fuel r
  · have hu : readUnicode (Text.Radix.padded 16 4 c.toNat ++ r) = some (c,r) := by
      rw [readUnicode,readHex4_padded (by omega)]
      simp only
      rw [if_neg (by omega),if_neg (by omega),Char.ofNat_toNat]
    simp [readQuoted,unicodeEscape,hu]
  · simp [readQuoted,hq,hb,h32]

theorem readQuoted_escapes (h : s.length < fuel) (rest : List Char) :
    readQuoted fuel (s.flatMap escape ++ '"' :: rest) = some (s,rest) := by
  induction s generalizing fuel with
  | nil =>
    obtain ⟨fuel,rfl⟩ := Nat.exists_eq_succ_of_ne_zero (Nat.ne_of_gt h)
    simp [readQuoted]
  | cons c s ih =>
    obtain ⟨fuel,rfl⟩ := Nat.exists_eq_succ_of_ne_zero (Nat.ne_of_gt (Nat.zero_lt_of_lt h))
    rw [List.flatMap_cons,List.append_assoc,readQuoted_escape,ih (by simpa using h)]
    rfl

theorem length_le_flatMap_escape (s : List Char) : s.length ≤ (s.flatMap escape).length := by
  induction s with
  | nil => simp
  | cons c s ih =>
    have hc : 0 < (escape c).length := by
      unfold escape
      split_ifs <;> simp [unicodeEscape]
    rw [List.flatMap_cons,List.length_append,List.length_cons]
    omega

theorem readQuoted_quoted (s : String) (rest : List Char) :
    readQuoted ((s.toList.flatMap escape ++ '"' :: rest).length + 1)
      (s.toList.flatMap escape ++ '"' :: rest) = some (s.toList,rest) := by
  apply readQuoted_escapes
  have := length_le_flatMap_escape s.toList
  rw [List.length_append]
  omega

/-! ### Numbers -/

def Closes (rest : List Char) : Prop := ∀ c ∈ rest.head?, c = ',' ∨ c = ']' ∨ c = '\x7d'

theorem not_isDigit_head (h : Closes rest) : ∀ c ∈ rest.head?, c.isDigit = false := by
  intro c hc
  rcases h c hc with rfl | rfl | rfl <;> decide

theorem readDigits_append {ds : List Char} (hne : ds ≠ []) (hd : ∀ d ∈ ds, d.isDigit = true)
    (h : Closes rest) : readDigits (ds ++ rest) = some (ds,rest) := by
  have hr : rest.takeWhile Char.isDigit = [] ∧ rest.dropWhile Char.isDigit = rest := by
    cases rest with
    | nil => exact ⟨rfl,rfl⟩
    | cons c r =>
      have hc := not_isDigit_head h c rfl
      simp [hc]
  unfold readDigits
  rw [List.takeWhile_append_of_pos hd,List.dropWhile_append_of_pos hd,hr.1,hr.2,List.append_nil]
  cases ds with
  | nil => exact absurd rfl hne
  | cons d ds => rfl

theorem readWhole_chars (n : ℕ) (h : Closes rest) :
    readWhole (Text.Radix.chars 10 n ++ rest) = some (Text.Radix.chars 10 n,rest) := by
  by_cases hn : n = 0
  · subst hn
    have h0 : Text.Radix.chars 10 0 = ['0'] := by
      rw [Text.Radix.chars,Text.Radix.digits_of_lt (by decide)]
      rfl
    rw [h0,List.singleton_append,readWhole]
    have hh : (rest.head?.map Char.isDigit).getD false = false := by
      cases rest with
      | nil => rfl
      | cons c r => exact not_isDigit_head h c rfl
    simp [hh]
  · obtain ⟨d,hd,hh,h0⟩ := Text.Radix.head?_chars (b := 10) (by decide) n
    have hz : ∀ d < 10, Text.Radix.digitChar d = '0' → d = 0 := by decide
    rw [readWhole]
    · exact readDigits_append (Text.Radix.chars_ne_nil 10 n)
        (fun d => Text.Radix.isDigit_of_mem_chars) h
    · intro r hr
      have hc := congrArg List.head? hr
      rw [List.head?_append,hh] at hc
      exact hn (h0 (hz d hd (Option.some.inj hc)))

theorem readPlaces_of_closes (h : Closes rest) : readPlaces rest = some ([],rest) := by
  cases rest with
  | nil => rfl
  | cons c r => rcases h c rfl with rfl | rfl | rfl <;> rfl

theorem readPower_of_closes (h : Closes rest) : readPower rest = some (none,rest) := by
  cases rest with
  | nil => rfl
  | cons c r => rcases h c rfl with rfl | rfl | rfl <;> rfl

def Held (i : ℤ) : Prop := -0x8000000000000000 ≤ i ∧ i < 0x10000000000000000

theorem literal_chars {n : ℕ} {i : ℤ} {negative : Bool} (hi : i = if negative then -(n : ℤ) else n)
    (hh : Held i) (hz : ¬ (negative = true ∧ n = 0)) :
    literal negative (Text.Radix.chars 10 n) [] none = .int i := by
  have hr : (Text.Radix.read 10 (Text.Radix.chars 10 n ++ [])).getD 0 = n := by
    rw [List.append_nil,Text.Radix.read_chars (by decide) (by decide)]
    rfl
  unfold literal
  simp only [hr,← hi]
  rw [if_pos]
  exact ⟨rfl,rfl,hh.1,hh.2,hz⟩

theorem readNumber_of_digits {cs : List Char} {n : ℕ} (h : Closes rest)
    (hc : (if cs.head? = some '-' then cs.drop 1 else cs) = Text.Radix.chars 10 n ++ rest) :
    readNumber cs = some (literal (cs.head? = some '-') (Text.Radix.chars 10 n) [] none,rest) := by
  unfold readNumber
  simp only [hc,readWhole_chars n h,readPlaces_of_closes h,readPower_of_closes h,Option.map_some]

theorem readNumber_signedChars {i : ℤ} (hi : Held i) (h : Closes rest) :
    readNumber (Text.Radix.signedChars i ++ rest) = some (.int i,rest) := by
  cases i with
  | ofNat n =>
    have hm : ¬ (Text.Radix.chars 10 n ++ rest).head? = some '-' := by
      obtain ⟨d,hd,hh,_⟩ := Text.Radix.head?_chars (b := 10) (by decide) n
      have hz : ∀ d < 10, Text.Radix.digitChar d ≠ '-' := by decide
      rw [List.head?_append,hh]
      exact fun hc => hz d hd (Option.some.inj hc)
    rw [Text.Radix.signedChars,readNumber_of_digits h (if_neg hm),decide_eq_false hm,
      literal_chars (i := Int.ofNat n) rfl hi (by simp)]
  | negSucc n =>
    have hm : ('-' :: Text.Radix.chars 10 (n + 1) ++ rest).head? = some '-' := rfl
    rw [Text.Radix.signedChars,readNumber_of_digits h (if_pos hm),decide_eq_true hm,
      literal_chars (i := Int.negSucc n) rfl hi (by simp)]

/-! ### Values -/

mutual

def Whole : Json → Prop
  | .num n => ∃ i, n = .int i ∧ Held i
  | .arr items => WholeItems items
  | .obj members => WholeMembers members
  | _ => True

def WholeItems : List Json → Prop
  | [] => True
  | j :: js => Whole j ∧ WholeItems js

def WholeMembers : List (String × Json) → Prop
  | [] => True
  | m :: ms => Whole m.2 ∧ WholeMembers ms

end

/-- How a value may begin: with no blank and no closing bracket. -/
structure Opens (c : Char) : Prop where
  solid : isSpace c = false
  bracket : c ≠ ']'
  brace : c ≠ '\x7d'

def Numeric (c : Char) : Prop := c.isDigit = true ∨ c = '-'

theorem Numeric.ne (h : Numeric c) {d : Char} (hd : d.isDigit = false) (hm : d ≠ '-') : c ≠ d := by
  rintro rfl
  rcases h with h | h
  · exact absurd h (by simp [hd])
  · exact hm h

theorem Numeric.opens (h : Numeric c) : Opens c where
  solid := by
    have hs : ∀ n < 33, (Char.ofNat n).isDigit = false ∧ Char.ofNat n ≠ '-' := by decide
    have hn (n : ℕ) (hn : n < 33) : c.toNat ≠ n := by
      rintro rfl
      have := hs c.toNat hn
      rw [Char.ofNat_toNat] at this
      exact h.ne this.1 this.2 rfl
    simp [isSpace,hn 9,hn 10,hn 13,h.ne (d := ' ') (by decide) (by decide)]
  bracket := h.ne (by decide) (by decide)
  brace := h.ne (by decide) (by decide)

theorem exists_numeric (i : ℤ) : ∃ c r, Text.Radix.signedChars i = c :: r ∧ Numeric c := by
  cases i with
  | ofNat n =>
    obtain ⟨c,r,hc⟩ := List.exists_cons_of_ne_nil (Text.Radix.chars_ne_nil 10 n)
    exact ⟨c,r,hc,Or.inl (Text.Radix.isDigit_of_mem_chars (n := n) (hc ▸ List.mem_cons_self))⟩
  | negSucc n => exact ⟨'-',_,rfl,Or.inr rfl⟩

theorem exists_opens {j : Json} (h : Whole j) : ∃ c r, chars j = c :: r ∧ Opens c := by
  cases j with
  | null | str s | arr items | obj members => exact ⟨_,_,rfl,by decide,by decide,by decide⟩
  | bool b => cases b <;> exact ⟨_,_,rfl,by decide,by decide,by decide⟩
  | num n =>
    obtain ⟨i,rfl,_⟩ := h
    obtain ⟨c,r,hc,hn⟩ := exists_numeric i
    exact ⟨c,r,hc,hn.opens⟩

theorem skipSpace_cons (h : isSpace c = false) (r : List Char) : skipSpace (c :: r) = c :: r := by
  simp [skipSpace,h]

theorem readValue_signedChars {i : ℤ} (hi : Held i) (h : Closes rest) (fuel : ℕ) :
    readValue (fuel + 1) (Text.Radix.signedChars i ++ rest) = some (.num (.int i),rest) := by
  have hr := readNumber_signedChars hi h
  obtain ⟨c,r,hc,hn⟩ := exists_numeric i
  rw [hc,List.cons_append] at hr ⊢
  rw [readValue,if_neg (hn.ne (by decide) (by decide)),if_neg (hn.ne (by decide) (by decide)),
    if_neg (hn.ne (by decide) (by decide)),if_neg (hn.ne (by decide) (by decide)),
    if_neg (hn.ne (by decide) (by decide)),if_neg (hn.ne (by decide) (by decide)),hr]
  rfl

theorem quoted_append (s : String) (rest : List Char) :
    quoted s ++ rest = '"' :: (s.toList.flatMap escape ++ '"' :: rest) := by
  simp [quoted]

theorem readValue_quoted (s : String) (rest : List Char) (fuel : ℕ) :
    readValue (fuel + 1) (quoted s ++ rest) = some (.str s,rest) := by
  rw [quoted_append,readValue,if_pos rfl,readQuoted_quoted]
  simp

theorem readValue_items (h : Opens c) (r : List Char) (fuel : ℕ) :
    readValue (fuel + 1) ('[' :: c :: r) = (readItems fuel (c :: r)).map fun p =>
      (.arr p.1,p.2) := by
  have hb := h.bracket
  simp [readValue,skipSpace_cons h.solid,hb]

theorem readValue_members (r : List Char) (fuel : ℕ) :
    readValue (fuel + 1) ('\x7b' :: '"' :: r) = (readMembers fuel ('"' :: r)).map fun p =>
      (.obj p.1,p.2) := by
  simp [readValue,skipSpace,isSpace]

variable {j : Json} {js : List Json} {ms : List (String × Json)} {name : String}

theorem readItems_last (h : readValue fuel s = some (j,']' :: rest)) :
    readItems (fuel + 1) s = some ([j],rest) := by
  simp [readItems,h,skipSpace_cons (c := ']') (by decide)]

theorem readItems_next (h : readValue fuel s = some (j,',' :: c :: r)) (hc : Opens c)
    (hr : readItems fuel (c :: r) = some (js,rest)) :
    readItems (fuel + 1) s = some (j :: js,rest) := by
  simp [readItems,h,skipSpace_cons (c := ',') (by decide),skipSpace_cons hc.solid,hr]

theorem readMembers_last (hc : Opens c) (h : readValue fuel (c :: r) = some (j,'\x7d' :: rest)) :
    readMembers (fuel + 1) (quoted name ++ ':' :: c :: r) = some ([(name,j)],rest) := by
  rw [quoted_append,readMembers,readQuoted_quoted]
  simp [skipSpace_cons (c := ':') (by decide),skipSpace_cons hc.solid,h,
    skipSpace_cons (c := '\x7d') (by decide)]

theorem readMembers_next (hc : Opens c) (h : readValue fuel (c :: r) = some (j,',' :: '"' :: s))
    (hs : readMembers fuel ('"' :: s) = some (ms,rest)) :
    readMembers (fuel + 1) (quoted name ++ ':' :: c :: r) = some ((name,j) :: ms,rest) := by
  rw [quoted_append,readMembers,readQuoted_quoted]
  simp [skipSpace_cons (c := ':') (by decide),skipSpace_cons hc.solid,h,
    skipSpace_cons (c := ',') (by decide),skipSpace_cons (c := '"') (by decide),hs]

theorem exists_quote (ms : List (String × Json)) (m : String × Json) :
    ∃ r, memberChars (m :: ms) = '"' :: r := by
  cases ms <;> exact ⟨_,rfl⟩

theorem exists_opens_items (h : Whole j) (js : List Json) :
    ∃ c r, itemChars (j :: js) = c :: r ∧ Opens c := by
  obtain ⟨c,r,hc,ho⟩ := exists_opens h
  cases js with
  | nil => exact ⟨c,r ++ [']'],by simp [itemChars,hc],ho⟩
  | cons k js => exact ⟨c,r ++ ',' :: itemChars (k :: js),by simp [itemChars,hc],ho⟩

/-! The reader takes a step for each item and for each level, of which there are not more than
characters. -/

mutual

theorem readValue_chars : ∀ (j : Json) (fuel : ℕ) (rest : List Char), Whole j →
    2 * (chars j).length ≤ fuel → Closes rest → readValue fuel (chars j ++ rest) = some (j,rest)
  | j,0,rest,hj,hf,hr => by
    obtain ⟨c,r,hc,_⟩ := exists_opens hj
    simp [hc] at hf
  | .null,fuel + 1,rest,hj,hf,hr | .bool true,fuel + 1,rest,hj,hf,hr
  | .bool false,fuel + 1,rest,hj,hf,hr => by
    simp [chars,readValue,readWord]
  | .num n,fuel + 1,rest,hj,hf,hr => by
    obtain ⟨i,rfl,hi⟩ := hj
    exact readValue_signedChars hi hr fuel
  | .str s,fuel + 1,rest,hj,hf,hr => readValue_quoted s rest fuel
  | .arr [],fuel + 1,rest,hj,hf,hr => by
    simp [chars,itemChars,readValue,skipSpace,isSpace]
  | .arr (j :: js),fuel + 1,rest,hj,hf,hr => by
    have ih := readItems_itemChars j js fuel rest hj
      (by simp only [chars,List.length_cons] at hf; omega)
    obtain ⟨c,r,hc,ho⟩ := exists_opens_items hj.1 js
    rw [chars,List.cons_append]
    rw [hc,List.cons_append] at ih ⊢
    rw [readValue_items ho,ih]
    rfl
  | .obj [],fuel + 1,rest,hj,hf,hr => by
    simp [chars,memberChars,readValue,skipSpace,isSpace]
  | .obj (m :: ms),fuel + 1,rest,hj,hf,hr => by
    have ih := readMembers_memberChars m ms fuel rest hj
      (by simp only [chars,List.length_cons] at hf; omega)
    obtain ⟨r,hq⟩ := exists_quote ms m
    rw [chars,List.cons_append]
    rw [hq,List.cons_append] at ih ⊢
    rw [readValue_members,ih]
    rfl

theorem readItems_itemChars : ∀ (j : Json) (js : List Json) (fuel : ℕ) (rest : List Char),
    WholeItems (j :: js) → 2 * (itemChars (j :: js)).length ≤ fuel →
    readItems fuel (itemChars (j :: js) ++ rest) = some (j :: js,rest)
  | j,js,0,rest,hj,hf => by
    obtain ⟨c,r,hc,_⟩ := exists_opens_items hj.1 js
    simp [hc] at hf
  | j,[],fuel + 1,rest,hj,hf => by
    rw [itemChars,List.length_append] at hf
    rw [itemChars,List.append_assoc]
    exact readItems_last
      (readValue_chars j fuel (']' :: rest) hj.1 (by simp at hf; omega) (by simp [Closes]))
  | j,k :: js,fuel + 1,rest,hj,hf => by
    rw [itemChars,List.length_append,List.length_cons] at hf
    have ih := readValue_chars j fuel (',' :: (itemChars (k :: js) ++ rest)) hj.1 (by omega)
      (by simp [Closes])
    have ih' := readItems_itemChars k js fuel rest hj.2 (by omega)
    obtain ⟨c,r,hc,ho⟩ := exists_opens_items hj.2.1 js
    rw [itemChars,List.append_assoc,List.cons_append]
    rw [hc,List.cons_append] at ih ih' ⊢
    exact readItems_next ih ho ih'

theorem readMembers_memberChars :
    ∀ (m : String × Json) (ms : List (String × Json)) (fuel : ℕ) (rest : List Char),
      WholeMembers (m :: ms) → 2 * (memberChars (m :: ms)).length ≤ fuel →
    readMembers fuel (memberChars (m :: ms) ++ rest) = some (m :: ms,rest)
  | m,ms,0,rest,hm,hf => by
    obtain ⟨r,hq⟩ := exists_quote ms m
    simp [hq] at hf
  | (name,j),[],fuel + 1,rest,hm,hf => by
    obtain ⟨c,r,hc,ho⟩ := exists_opens hm.1
    have ih := readValue_chars j fuel ('\x7d' :: rest) hm.1 (by simp [memberChars] at hf; omega)
      (by simp [Closes])
    simp only [memberChars,List.append_assoc,List.cons_append]
    rw [hc,List.cons_append] at ih ⊢
    exact readMembers_last ho ih
  | (name,j),n :: ms,fuel + 1,rest,hm,hf => by
    obtain ⟨c,r,hc,ho⟩ := exists_opens hm.1
    obtain ⟨s,hs⟩ := exists_quote ms n
    simp only [memberChars,List.length_append,List.length_cons] at hf
    have ih := readValue_chars j fuel (',' :: (memberChars (n :: ms) ++ rest)) hm.1 (by omega)
      (by simp [Closes])
    have ih' := readMembers_memberChars n ms fuel rest hm.2 (by omega)
    simp only [memberChars,List.append_assoc,List.cons_append]
    rw [hc,hs,List.cons_append] at ih ⊢
    rw [hs] at ih'
    exact readMembers_next ho ih ih'

end

/-- A value is read from its text as it was written. -/
theorem ofText_text {j : Json} (h : Whole j) : ofText j.text = some j := by
  obtain ⟨c,r,hc,ho⟩ := exists_opens h
  have hs : skipSpace (chars j) = chars j := by rw [hc,skipSpace_cons ho.solid]
  have hv := readValue_chars j (2 * (chars j).length + 1) [] h (by omega) (by simp [Closes])
  rw [List.append_nil] at hv
  rw [ofText,text,String.toList_ofList,ofChars,hs,hv]
  rfl

end ScanService.Json
