import Mathlib.Algebra.Group.Int.Defs
import Mathlib.Algebra.Group.Nat.Defs
import Mathlib.Data.List.Basic
import Mathlib.Data.List.TakeWhile

namespace MysqlPlugin

/-- The bytes of a std::string, or of a buffer read with an explicit length. -/
abbrev Bytes := List UInt8

/-- What a reader of a C string sees: the bytes in front of the first NUL. -/
def cString (bytes : Bytes) : Bytes := bytes.takeWhile (· != 0)

theorem zero_notMem_cString (text : Bytes) : 0 ∉ cString text := by
  intro h
  simpa using List.mem_takeWhile_imp h

theorem cString_of_notMem {text : Bytes} (h : 0 ∉ text) (rest : Bytes) :
    cString (text ++ 0 :: rest) = text := by
  rw [cString, List.takeWhile_append_of_pos (by
    intro b hb
    simpa using fun he : b = 0 => h (he ▸ hb))]
  simp

theorem cString_eq_self {text : Bytes} (h : 0 ∉ text) : cString text = text := by
  rw [cString, List.takeWhile_eq_self_iff]
  intro b hb
  simpa using fun he : b = 0 => h (he ▸ hb)

abbrev Cell := Int32

/-- static_cast<int> of a size or a counter, which keeps the low 32 bits. -/
def staticCastInt (n : Nat) : Int32 := Int32.ofNat n

theorem toNat_staticCastInt {n : Nat} (h : n < 2 ^ 32) : (staticCastInt n).toUInt32.toNat = n := by
  rw [staticCastInt, Int32.toUInt32_ofNat', UInt32.toNat_ofNat']
  exact Nat.mod_eq_of_lt h

theorem toInt_staticCastInt_le (n : Nat) : (staticCastInt n).toInt ≤ n := by
  rw [staticCastInt, Int32.toInt_ofNat', Int.bmod_def]
  simp only [Int32.size]
  split <;> omega

/-- The id that a counter of unsigned ints gives out after n others. -/
def idOf (n : Nat) : UInt32 := UInt32.ofNat (n + 1)

theorem idOf_eq (n : Nat) : UInt32.ofNat n + 1 = idOf n := by
  rw [idOf, UInt32.ofNat_add]
  rfl

theorem toNat_idOf {n : Nat} (h : n + 1 < 2 ^ 32) : (idOf n).toNat = n + 1 := by
  simp only [idOf, UInt32.toNat_ofNat']
  exact Nat.mod_eq_of_lt h

theorem idOf_inj {m n : Nat} (hm : m + 1 < 2 ^ 32) (hn : n + 1 < 2 ^ 32) (h : idOf m = idOf n) :
    m = n := by
  have hi := congrArg UInt32.toNat h
  rw [toNat_idOf hm, toNat_idOf hn] at hi
  omega

def asciiDigit (b : UInt8) : Option Nat :=
  if 48 ≤ b ∧ b ≤ 57 then some (b.toNat - 48) else none

def leadingDigits (value : Nat) : Bytes → Nat
  | [] => value
  | b :: bytes =>
      match asciiDigit b with
      | some d => leadingDigits (10 * value + d) bytes
      | none => value

def isSpace (b : UInt8) : Bool := b == 32 || (9 ≤ b && b ≤ 13)

/-- strtol on a 32-bit long: white space, a sign and the leading digits, with
saturation at both ends of the range. -/
def atoi (text : Bytes) : Int32 :=
  let value : Int :=
    match (cString text).dropWhile isSpace with
    | 45 :: digits => -(leadingDigits 0 digits : Int)
    | 43 :: digits => leadingDigits 0 digits
    | digits => leadingDigits 0 digits
  Int32.ofInt (max (-2147483648) (min 2147483647 value))

example : atoi [32, 45, 49, 50, 120] = -12 := by decide

end MysqlPlugin
