import MysqlPlugin.Decimal
import MysqlPlugin.FieldNatives

namespace MysqlPlugin.IntegerColumns

open Decimal

def bigEndian : Bytes → Nat
  | [] => 0
  | b :: bytes => b.toNat * 256 ^ bytes.length + bigEndian bytes

/-- What libmysql delivers for an integer: the bytes of its value for BIT, and
decimal text for the other types, which may have a sign and zeros in front. -/
inductive Delivered : FieldType → Int → Bytes → Prop
  | bit (bytes : Bytes) : Delivered .bit (bigEndian bytes) bytes
  | unsigned {type : FieldType} (h : type ≠ .bit) (zeros n : Nat) :
      Delivered type n (digits zeros n)
  | plus {type : FieldType} (h : type ≠ .bit) (zeros n : Nat) :
      Delivered type n (43 :: digits zeros n)
  | minus {type : FieldType} (h : type ≠ .bit) (zeros n : Nat) :
      Delivered type (-n) (45 :: digits zeros n)

theorem leadingDigits_lt (value : Nat) (text : Bytes) :
    leadingDigits value text < (value + 1) * 10 ^ text.length := by
  induction text generalizing value with
  | nil => simp [leadingDigits]
  | cons b text ih =>
      rw [leadingDigits, List.length_cons, Nat.pow_succ]
      split
      next d hd =>
        have hd' : d < 10 := by
          unfold asciiDigit at hd
          split_ifs at hd with hb
          cases hd
          simp only [UInt8.le_iff_toNat_le] at hb
          have h9 : b.toNat ≤ 57 := hb.2
          omega
        calc
          leadingDigits (10 * value + d) text < (10 * value + d + 1) * 10 ^ text.length := ih _
          _ ≤ (10 * (value + 1)) * 10 ^ text.length := Nat.mul_le_mul_right _ (by omega)
          _ = (value + 1) * (10 ^ text.length * 10) := by
            rw [Nat.mul_comm 10, Nat.mul_assoc, Nat.mul_comm 10]
      next =>
        have hp : 0 < 10 ^ text.length * 10 := Nat.mul_pos (Nat.pow_pos (by decide)) (by decide)
        exact Nat.lt_of_lt_of_le (Nat.lt_succ_self value) (Nat.le_mul_of_pos_right _ hp)

theorem leadingDigits_lt_of_length_le {text : Bytes} {n : Nat} (h : text.length ≤ n) :
    leadingDigits 0 text < 256 ^ n :=
  calc
    leadingDigits 0 text < 10 ^ text.length := by simpa using leadingDigits_lt 0 text
    _ ≤ 10 ^ n := Nat.pow_le_pow_right (by decide) h
    _ ≤ 256 ^ n := Nat.pow_le_pow_left (by decide) n

/-- The number that strtol reads behind white space, before it saturates. -/
def signed : Bytes → Int
  | 45 :: digits => -(leadingDigits 0 digits : Int)
  | 43 :: digits => leadingDigits 0 digits
  | digits => leadingDigits 0 digits

theorem atoi_eq_signed (text : Bytes) :
    atoi text =
      Int32.ofInt (max (-2147483648) (min 2147483647 (signed ((cString text).dropWhile isSpace)))) :=
  rfl

theorem signed_lt_of_length_le {text : Bytes} {n : Nat} (h : text.length ≤ n) :
    signed text < (256 ^ n : Nat) := by
  have hdigits : ∀ {digits : Bytes}, digits.length ≤ n →
      (leadingDigits 0 digits : Int) < (256 ^ n : Nat) := fun h =>
    Int.ofNat_lt.mpr (leadingDigits_lt_of_length_le h)
  unfold signed
  split
  next digits =>
    have hd : (0 : Int) ≤ leadingDigits 0 digits := Int.natCast_nonneg _
    have hp : (0 : Int) < (256 ^ n : Nat) := Int.natCast_pos.mpr (Nat.pow_pos (by decide))
    omega
  next digits => exact hdigits (by simp at h; omega)
  next => exact hdigits h

theorem leadingDigits_cons_le {b : UInt8} {text : Bytes} {n : Nat} (h : text.length ≤ n) :
    leadingDigits 0 (b :: text) < b.toNat * 256 ^ n ∨ leadingDigits 0 (b :: text) = 0 := by
  rw [leadingDigits]
  split
  next d hd =>
    left
    unfold asciiDigit at hd
    split_ifs at hd with hb
    cases hd
    simp only [UInt8.le_iff_toNat_le] at hb
    have h48 : 48 ≤ b.toNat := hb.1
    calc
      leadingDigits (10 * 0 + (b.toNat - 48)) text
          < (10 * 0 + (b.toNat - 48) + 1) * 10 ^ text.length := leadingDigits_lt _ _
      _ ≤ b.toNat * 256 ^ n := Nat.mul_le_mul (by omega)
          ((Nat.pow_le_pow_right (by decide) h).trans (Nat.pow_le_pow_left (by decide) n))
  next => exact .inr rfl

theorem length_cString_le (text : Bytes) : (cString text).length ≤ text.length :=
  (List.takeWhile_prefix _).length_le

theorem signed_lt_bigEndian {b : UInt8} (hb : b ≠ 0) (bytes : Bytes) :
    signed ((cString (b :: bytes)).dropWhile isSpace) < bigEndian (b :: bytes) := by
  have hlen : (cString bytes).length ≤ bytes.length := length_cString_le bytes
  have hpos : 0 < b.toNat := by
    have hn : b.toNat ≠ 0 := fun h => hb (UInt8.toNat_inj.mp h)
    omega
  have hbig : b.toNat * 256 ^ bytes.length ≤ bigEndian (b :: bytes) := Nat.le_add_right _ _
  have hsmall : 256 ^ bytes.length ≤ bigEndian (b :: bytes) :=
    (Nat.le_mul_of_pos_left _ hpos).trans hbig
  have hc : cString (b :: bytes) = b :: cString bytes := by simp [cString, hb]
  rw [hc]
  by_cases hs : isSpace b = true
  · rw [List.dropWhile_cons_of_pos hs]
    have hrest := signed_lt_of_length_le ((List.dropWhile_suffix isSpace).length_le.trans hlen)
    omega
  · rw [List.dropWhile_cons_of_neg hs]
    unfold signed
    split
    next digits he =>
      have hp : 0 < 256 ^ bytes.length := Nat.pow_pos (by decide)
      omega
    next digits he =>
      cases he
      have hd := leadingDigits_lt_of_length_le hlen
      omega
    next =>
      have hp : 0 < 256 ^ bytes.length := Nat.pow_pos (by decide)
      rcases leadingDigits_cons_le (b := b) hlen with hd | hd <;> omega

theorem toInt_atoi_digits {value : Int} (hlow : -2147483648 ≤ value) (hhigh : value < 2147483648) :
    (Int32.ofInt (max (-2147483648) (min 2147483647 value))).toInt = value := by
  rw [Int32.toInt_ofInt_of_le (by omega) (by omega)]
  omega

theorem toInt_atoi_of_ne_bit {type : FieldType} (ht : type ≠ .bit) {value : Int}
    (hlow : -2147483648 ≤ value) (hhigh : value < 2147483648) {data : Bytes}
    (hd : Delivered type value data) : (atoi data).toInt = value := by
  cases hd with
  | bit => exact absurd rfl ht
  | unsigned _ zeros n =>
      rw [atoi_digits]
      exact toInt_atoi_digits hlow hhigh
  | plus _ zeros n =>
      rw [atoi_plus_digits]
      exact toInt_atoi_digits hlow hhigh
  | minus _ zeros n =>
      rw [atoi_minus_digits]
      exact toInt_atoi_digits hlow hhigh

/-- The bytes of BIT read as 0 where the first one is 0, and as too little
elsewhere, so the only value they read back as is 0. -/
theorem toInt_atoi_bit {bytes : Bytes} (h : bigEndian bytes < 2147483648) :
    (atoi bytes).toInt = bigEndian bytes ↔ bigEndian bytes = 0 := by
  cases bytes with
  | nil => decide
  | cons b bytes =>
      by_cases hb : b = 0
      · have hz : (atoi (b :: bytes)).toInt = 0 := by simp [hb, atoi, cString, leadingDigits]
        omega
      · have hlt := signed_lt_bigEndian hb bytes
        have hpos : b.toNat ≠ 0 := fun hn => hb (UInt8.toNat_inj.mp hn)
        have hbig : b.toNat * 256 ^ bytes.length ≤ bigEndian (b :: bytes) := Nat.le_add_right _ _
        have hne : b.toNat * 256 ^ bytes.length ≠ 0 :=
          Nat.mul_ne_zero hpos (Nat.pow_pos (by decide)).ne'
        rw [atoi_eq_signed, Int32.toInt_ofInt_of_le (by omega) (by omega)]
        omega

/-- A call of mysql_fetch_field_int that gets to this value: the result, the
current row and the column are there, and the type is the one it looks for. -/
def Finds (s : Plugin) (resultId field : Param) (stored : FieldValue) : Prop :=
  ∃ entry fieldName pointer, s.resultController.atId resultId.value.toUInt32 = some entry ∧
    amxStrParam field = some fieldName ∧ fieldName.length ≠ 0 ∧
    entry.fetchField fieldName .unknown = (.integer, some pointer) ∧
    entry.read pointer = some stored

theorem mysqlFetchFieldInt_of_finds {s : Plugin} {resultId field : Param} {integerVal : Int32}
    (h : Finds s resultId field (.integer integerVal)) :
    s.mysqlFetchFieldInt [resultId, field] = .returned integerVal none := by
  obtain ⟨entry, fieldName, pointer, hentry, hname, hlen, hfetch, hread⟩ := h
  simp [Plugin.mysqlFetchFieldInt, Plugin.fetchFieldAs, hentry, hname, hlen, hfetch, hread]

/-- An integer that fits a cell is what mysql_fetch_field_int returns for the
bytes libmysql delivers for it exactly when it is not the value of a BIT column,
or 0. -/
theorem integer_columns_decode {type : FieldType} (ht : toColumnType type = .integer) {value : Int}
    (hlow : -2147483648 ≤ value) (hhigh : value < 2147483648) {data : Bytes}
    (hd : Delivered type value data) (row : RowInfo) :
    ∃ stored,
      (row.pushField (some data) data.length (toColumnType type)).columns = row.columns ++ [stored] ∧
      ∀ (s : Plugin) (resultId field : Param), Finds s resultId field stored →
        ∃ cell : Cell, s.mysqlFetchFieldInt [resultId, field] = .returned cell none ∧
          (cell.toInt = value ↔ (type = .bit → value = 0)) := by
  refine ⟨.integer (atoi data), by simp [ht, RowInfo.pushField], ?_⟩
  intro s resultId field hf
  refine ⟨atoi data, mysqlFetchFieldInt_of_finds hf, ?_⟩
  by_cases hbit : type = .bit
  · subst hbit
    cases hd with
    | bit =>
        have hlt : bigEndian data < 2147483648 := by omega
        simp [toInt_atoi_bit hlt]
    | unsigned h => exact absurd rfl h
    | plus h => exact absurd rfl h
    | minus h => exact absurd rfl h
  · simp [hbit, toInt_atoi_of_ne_bit hbit hlow hhigh hd]

/-- SELECT a, b of a row in which the INT column a is -2147483648 and the BIT
column b is 1. -/
def lowestAndBit : StoredResult where
  fields := [⟨[97], .long⟩, ⟨[98], .bit⟩]
  rows := [[some [45, 50, 49, 52, 55, 52, 56, 51, 54, 52, 56], some [1]]]
  fields_lt := by decide
  row_length := by decide

def onFirstRow : Plugin :=
  { Plugin.new with
    resultController := (ResultController.new.push (readResult lowestAndBit).fetchRow.2).1 }

theorem integer_columns_decode_lowest :
    ∃ stored : FieldValue, (RowInfo.new.pushField (some [45, 50, 49, 52, 55, 52, 56, 51, 54, 52, 56])
        11 (toColumnType .long)).columns = RowInfo.new.columns ++ [stored] ∧
      Finds onFirstRow (.number 1) ⟨0, some (97, [97])⟩ stored ∧
      onFirstRow.mysqlFetchFieldInt [.number 1, ⟨0, some (97, [97])⟩] =
        .returned (-2147483648) none := by
  have hd : Delivered .long (-2147483648) [45, 50, 49, 52, 55, 52, 56, 51, 54, 52, 56] :=
    .minus (by decide) 0 2147483648
  obtain ⟨stored, hs, hread⟩ := integer_columns_decode rfl (by decide) (by decide) hd .new
  have hf : Finds onFirstRow (.number 1) ⟨0, some (97, [97])⟩ stored := by
    refine ⟨(readResult lowestAndBit).fetchRow.2, [97], ⟨0, 0⟩, by rfl, by decide, by decide,
      by decide, ?_⟩
    have hst : FieldValue.integer (-2147483648) = stored := List.head_eq_of_cons_eq hs
    rw [← hst]
    decide
  obtain ⟨cell, hcell, hiff⟩ := hread onFirstRow (.number 1) ⟨0, some (97, [97])⟩ hf
  have hv : cell = -2147483648 := Int32.toInt_inj.mp (hiff.mpr (by decide))
  exact ⟨stored, hs, hf, hv ▸ hcell⟩

theorem bit_reads_as_zero :
    toColumnType .bit = .integer ∧ Delivered .bit 1 [1] ∧
      (RowInfo.new.pushField (some [1]) 1 (toColumnType .bit)).columns = [.integer 0] ∧
      Finds onFirstRow (.number 1) ⟨0, some (98, [98])⟩ (.integer 0) ∧
      onFirstRow.mysqlFetchFieldInt [.number 1, ⟨0, some (98, [98])⟩] = .returned 0 none := by
  refine ⟨rfl, .bit [1], rfl, ?_, by decide⟩
  exact ⟨(readResult lowestAndBit).fetchRow.2, [98], ⟨0, 1⟩, by rfl, by decide, by decide,
    by decide, by decide⟩

end MysqlPlugin.IntegerColumns
