/-! Positional notation in a base from 2 to 36: the digits of a number, most significant first, and
the number that digits stand for. -/
namespace ScanService.Text.Radix

/-- The digits of `n` in base `b`, most significant first; a base below two leaves one digit. -/
def digits (b n : Nat) : List Nat :=
  if _h : n < b ∨ b < 2 then [n] else digits b (n / b) ++ [n % b]
termination_by n
decreasing_by exact Nat.div_lt_self (by omega) (by omega)

def value (b : Nat) (ds : List Nat) : Nat := ds.foldl (fun n d => n * b + d) 0

theorem digits_of_lt {b n : Nat} (h : n < b) : digits b n = [n] := by
  rw [digits]; simp [h]

theorem digits_of_le {b n : Nat} (hb : 2 ≤ b) (h : b ≤ n) :
    digits b n = digits b (n / b) ++ [n % b] := by
  rw [digits,dif_neg (by omega)]

theorem value_append_one (b : Nat) (ds : List Nat) (d : Nat) :
    value b (ds ++ [d]) = value b ds * b + d := by
  simp [value]

theorem value_digits {b : Nat} (hb : 2 ≤ b) (n : Nat) : value b (digits b n) = n := by
  induction n using Nat.strongRecOn with
  | ind n ih =>
    by_cases h : n < b
    · simp [digits_of_lt h,value]
    · rw [digits_of_le hb (by omega),value_append_one,
        ih (n / b) (Nat.div_lt_self (by omega) (by omega))]
      exact Nat.div_add_mod' n b

/-- The character of a digit: `0` to `9`, then `a` to `z`. -/
def digitChar (d : Nat) : Char := Char.ofNat (if d < 10 then 48 + d else 87 + d)

/-- The digit of a character in base `b`; both cases of a letter are read. -/
def digitOf (b : Nat) (c : Char) : Option Nat :=
  let d := if c.isDigit then c.toNat - 48
    else if 'a' ≤ c ∧ c ≤ 'z' then c.toNat - 87
    else if 'A' ≤ c ∧ c ≤ 'Z' then c.toNat - 55
    else 36
  if d < b then some d else none

def chars (b n : Nat) : List Char := (digits b n).map digitChar

/-- A run of digit characters, at least one, as a number. -/
def read (b : Nat) (cs : List Char) : Option Nat :=
  if cs.isEmpty then none else (cs.mapM (digitOf b)).map (value b)

def decimal (n : Nat) : String := String.ofList (chars 10 n)

/-- An integer in decimal, a minus sign in front of a negative one. -/
def signedChars : Int → List Char
  | .ofNat n => chars 10 n
  | .negSucc n => '-' :: chars 10 (n + 1)

def signed (i : Int) : String := String.ofList (signedChars i)

/-- `n` in base `b`, padded on the left with zeros to `width` characters. -/
def padded (b width n : Nat) : List Char :=
  let cs := chars b n
  List.replicate (width - cs.length) '0' ++ cs

/-- An unsigned number in decimal, with an optional plus sign, of at most `top`. -/
def readUnsigned (top : Nat) (cs : List Char) : Option Nat :=
  let n := match cs with
    | '+' :: r => read 10 r
    | r => read 10 r
  n.filter (· ≤ top)

/-- An integer in decimal, with an optional sign, of 64 bits in two's complement. -/
def readSigned64 : List Char → Option Int
  | '-' :: r => ((read 10 r).filter (· ≤ 0x8000000000000000)).map fun n => -(n : Int)
  | '+' :: r => ((read 10 r).filter (· < 0x8000000000000000)).map fun n => (n : Int)
  | r => ((read 10 r).filter (· < 0x8000000000000000)).map fun n => (n : Int)

end ScanService.Text.Radix
