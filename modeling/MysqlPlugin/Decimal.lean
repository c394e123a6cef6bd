import MysqlPlugin.Script

namespace MysqlPlugin.Decimal

/-- A number in decimal, with some zeros in front of it. -/
def digits (zeros n : Nat) : Bytes := List.replicate zeros 48 ++ Script.ascii n.repr

theorem isDigit_bounds {c : Char} (h : c.isDigit = true) :
    c.toNat.toUInt8.toNat = c.toNat ∧ 48 ≤ c.toNat ∧ c.toNat ≤ 57 := by
  have hc : 48 ≤ c.toNat ∧ c.toNat ≤ 57 := Char.isDigit_iff_toNat.mp h
  refine ⟨?_, hc⟩
  rw [Nat.toUInt8_eq, UInt8.toNat_ofNat']
  omega

theorem leadingDigits_eq_ofDigitChars (value : Nat) {digits : List Char}
    (h : ∀ c ∈ digits, c.isDigit = true) :
    leadingDigits value (digits.map fun c => c.toNat.toUInt8) = Nat.ofDigitChars 10 digits value := by
  induction digits generalizing value with
  | nil => rfl
  | cons c digits ih =>
      rw [List.forall_mem_cons] at h
      obtain ⟨hn, hc⟩ := isDigit_bounds h.1
      have hd : asciiDigit c.toNat.toUInt8 = some (c.toNat - 48) := by
        simp only [asciiDigit, UInt8.le_iff_toNat_le, hn]
        exact if_pos hc
      rw [List.map_cons, leadingDigits, hd, Nat.ofDigitChars_cons]
      exact ih _ h.2

theorem ascii_repr (n : Nat) :
    Script.ascii n.repr = (Nat.toDigits 10 n).map fun c => c.toNat.toUInt8 := by
  rw [Script.ascii, Nat.toList_repr]

theorem leadingDigits_repr (n : Nat) : leadingDigits 0 (Script.ascii n.repr) = n := by
  rw [ascii_repr, leadingDigits_eq_ofDigitChars 0 fun c hc =>
    Nat.isDigit_of_mem_toDigits (by decide) (by decide) hc, Nat.ofDigitChars_ten_toDigits]

theorem leadingDigits_digits (zeros n : Nat) : leadingDigits 0 (digits zeros n) = n := by
  induction zeros with
  | zero => exact leadingDigits_repr n
  | succ zeros ih => exact ih

theorem bounds_of_mem_digits {zeros n : Nat} {b : UInt8} (h : b ∈ digits zeros n) :
    48 ≤ b.toNat ∧ b.toNat ≤ 57 := by
  rcases List.mem_append.mp h with h | h
  · rw [List.eq_of_mem_replicate h]
    decide
  · rw [ascii_repr] at h
    obtain ⟨c, hc, rfl⟩ := List.mem_map.mp h
    obtain ⟨hn, hb⟩ := isDigit_bounds (Nat.isDigit_of_mem_toDigits (by decide) (by decide) hc)
    rw [hn]
    exact hb

theorem zero_notMem_digits (zeros n : Nat) : 0 ∉ digits zeros n := by
  intro h
  simpa using bounds_of_mem_digits h

theorem digits_ne_nil (zeros n : Nat) : digits zeros n ≠ [] := by
  simp [digits, ascii_repr]

theorem isSpace_eq_false {b : UInt8} (h : 32 < b.toNat) : isSpace b = false := by
  simp only [isSpace, Bool.or_eq_false_iff, Bool.and_eq_false_iff, beq_eq_false_iff_ne,
    decide_eq_false_iff_not, UInt8.le_iff_toNat_le, ne_eq, ← UInt8.toNat_inj]
  simp
  omega

theorem atoi_digits (zeros n : Nat) :
    atoi (digits zeros n) = Int32.ofInt (max (-2147483648) (min 2147483647 n)) := by
  have hl := leadingDigits_digits zeros n
  rw [atoi, cString_eq_self (zero_notMem_digits zeros n)]
  cases ht : digits zeros n with
  | nil => exact absurd ht (digits_ne_nil zeros n)
  | cons b rest =>
      have hb : 48 ≤ b.toNat ∧ b.toNat ≤ 57 := bounds_of_mem_digits (ht ▸ List.mem_cons_self)
      have hs : isSpace b = false := isSpace_eq_false (by omega)
      have h45 : b ≠ 45 := by
        rintro rfl
        simp at hb
      have h43 : b ≠ 43 := by
        rintro rfl
        simp at hb
      rw [ht] at hl
      simp [hs, h45, h43, hl]

theorem atoi_plus_digits (zeros n : Nat) :
    atoi (43 :: digits zeros n) = Int32.ofInt (max (-2147483648) (min 2147483647 n)) := by
  have hz : 0 ∉ 43 :: digits zeros n := by simp [zero_notMem_digits]
  have hs : isSpace 43 = false := by decide
  rw [atoi, cString_eq_self hz, List.dropWhile_cons_of_neg (by simp [hs])]
  simp only [leadingDigits_digits]

theorem atoi_minus_digits (zeros n : Nat) :
    atoi (45 :: digits zeros n) = Int32.ofInt (max (-2147483648) (min 2147483647 (-n))) := by
  have hz : 0 ∉ 45 :: digits zeros n := by simp [zero_notMem_digits]
  have hs : isSpace 45 = false := by decide
  rw [atoi, cString_eq_self hz, List.dropWhile_cons_of_neg (by simp [hs])]
  simp only [leadingDigits_digits]

end MysqlPlugin.Decimal
