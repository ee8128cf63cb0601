import Mathlib.Data.Rat.Defs
import Mathlib.Data.List.Basic
import Mathlib.Data.List.TakeWhile
import Mathlib.Algebra.Field.Rat

/-! The parts of the ECMAScript library that the services read their settings
and labels with. Numbers are exact rationals with the three non-finite values. -/
namespace Js

inductive Number where
  | nan
  | infinity
  | negInfinity
  | finite (q : ℚ)
  deriving DecidableEq

/-- `left > right` for a finite left operand. -/
def greater (left : ℚ) : Number → Bool
  | .nan => false
  | .infinity => false
  | .negInfinity => true
  | .finite q => decide (q < left)

def isSpace (c : Char) : Bool :=
  c.toNat ∈ [0x09,0x0a,0x0b,0x0c,0x0d,0x20,0xa0,0x1680,0x2028,0x2029,0x202f,0x205f,0x3000,0xfeff] ||
    (0x2000 ≤ c.toNat && c.toNat ≤ 0x200a)

def number (digits : List Char) : Nat :=
  digits.foldl (fun value c => 10 * value + (c.toNat - '0'.toNat)) 0

def sign : List Char → Bool × List Char
  | '-' :: rest => (true,rest)
  | '+' :: rest => (false,rest)
  | text => (false,text)

def signed {α : Type} [Neg α] (negative : Bool) (value : α) : α := if negative then -value else value

/-- `parseInt(text, 10)`; `none` is NaN. -/
def parseInt (text : String) : Option Int :=
  let (negative,unsigned) := sign (text.toList.dropWhile isSpace)
  let digits := unsigned.takeWhile Char.isDigit
  if digits.isEmpty then none else some (signed negative (number digits : Int))

def exponent : List Char → Int
  | [] => 0
  | mark :: rest =>
    if mark = 'e' ∨ mark = 'E' then
      let (negative,unsigned) := sign rest
      signed negative (number (unsigned.takeWhile Char.isDigit) : Int)
    else 0

def parseFloat (text : String) : Number :=
  let (negative,unsigned) := sign (text.toList.dropWhile isSpace)
  if "Infinity".toList.isPrefixOf unsigned then
    if negative then .negInfinity else .infinity
  else
    let whole := unsigned.takeWhile Char.isDigit
    let rest := unsigned.dropWhile Char.isDigit
    let fraction := match rest with
      | '.' :: tail => tail.takeWhile Char.isDigit
      | _ => []
    let rest := match rest with
      | '.' :: tail => tail.dropWhile Char.isDigit
      | _ => rest
    if whole.isEmpty && fraction.isEmpty then .nan
    else .finite (signed negative
      ((number (whole ++ fraction) : ℚ) / 10^fraction.length * (10 : ℚ)^(exponent rest)))

/-- `parsed || fallback` on integers: NaN and zero are falsy. -/
def intOr (parsed : Option Int) (fallback : Int) : Int :=
  match parsed with
  | none => fallback
  | some value => if value = 0 then fallback else value

def numberOr (parsed : Number) (fallback : ℚ) : Number :=
  match parsed with
  | .nan => .finite fallback
  | .finite q => if q = 0 then .finite fallback else .finite q
  | other => other

def endsWith (text suffix : String) : Bool := suffix.toList.isSuffixOf text.toList

theorem digit_bounds {c : Char} (digit : c.isDigit = true) : 48 ≤ c.toNat ∧ c.toNat ≤ 57 := by
  simp only [Char.isDigit,Bool.and_eq_true,decide_eq_true_eq] at digit
  exact ⟨UInt32.le_iff_toNat_le.mp digit.1,UInt32.le_iff_toNat_le.mp digit.2⟩

theorem sign_digit {c : Char} (rest : List Char) (digit : c.isDigit = true) :
    sign (c :: rest) = (false,c :: rest) := by
  have bounds := digit_bounds digit
  unfold sign
  split
  · rename_i same
    obtain ⟨rfl,_⟩ := List.cons.inj same
    exact absurd bounds (by decide)
  · rename_i same
    obtain ⟨rfl,_⟩ := List.cons.inj same
    exact absurd bounds (by decide)
  · rfl

theorem isSpace_digit {c : Char} (digit : c.isDigit = true) : isSpace c = false := by
  have bounds := digit_bounds digit
  simp [isSpace]
  omega

theorem number_toDigits (n : Nat) : number (Nat.toDigits 10 n) = n := Nat.ofDigitChars_ten_toDigits

theorem toDigits_digit {n : Nat} {c : Char} (present : c ∈ Nat.toDigits 10 n) : c.isDigit = true :=
  Nat.isDigit_of_mem_toDigits (by decide) (by decide) present

/-- A number is read back from its decimal text. -/
theorem parseInt_toString (n : Nat) : parseInt (toString n) = some (n : Int) := by
  have all : ∀ c ∈ Nat.toDigits 10 n, c.isDigit = true := fun c present => toDigits_digit present
  have digits : (Nat.toDigits 10 n).takeWhile Char.isDigit = Nat.toDigits 10 n :=
    List.takeWhile_eq_self_iff.mpr all
  have nonempty : (Nat.toDigits 10 n).isEmpty = false := by simp
  obtain ⟨first,rest,split⟩ := List.exists_cons_of_ne_nil (Nat.toDigits_ne_nil (n := n) (b := 10))
  have digit : first.isDigit = true := all first (by simp [split])
  have kept : (Nat.toDigits 10 n).dropWhile isSpace = Nat.toDigits 10 n := by
    rw [split,List.dropWhile_cons_of_neg]
    simp [isSpace_digit digit]
  have unsigned : sign (Nat.toDigits 10 n) = (false,Nat.toDigits 10 n) := by
    rw [split]
    exact sign_digit rest digit
  unfold parseInt
  rw [Nat.toString_eq_repr,Nat.toList_repr,kept,unsigned]
  simp [digits,nonempty,number_toDigits,signed]

example : parseInt " 42ms" = some 42 := by decide
example : parseInt "-7" = some (-7) := by decide
example : parseInt "abc" = none := by decide

end Js
