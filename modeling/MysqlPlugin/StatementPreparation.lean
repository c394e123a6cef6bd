import MysqlPlugin.StatementHistory

namespace MysqlPlugin.StatementPreparation

open StatementHistory

def passed (cell : Cell) (text : Bytes) : Param := ⟨0, some (cell, text)⟩

/-- What mysql_statement_prepare is to do with two strings: it refuses an empty
query, and any other one it can give out again, with its types, under an id that
is not negative. It reads no null pointer either way. -/
def Prepares (s : Plugin) (query parameters : Param) (queryText types : Bytes) : Prop :=
  if cString queryText = [] then s.mysqlStatementPrepare [query, parameters] = .returned s (-1) none
  else
    ∃ s' id, s.mysqlStatementPrepare [query, parameters] = .returned s' id none ∧ 0 ≤ id ∧
      s'.statementRegistry.atIndex id.toUInt32 = some ⟨cString queryText, cString types⟩

def nextId (registry : StatementRegistry) : UInt32 := UInt32.ofNat registry.statementVector.length

/-- The next id is not negative as an int, and not that of a different statement,
as it would be after the counter has come around. -/
def IdFree (registry : StatementRegistry) (statement : Statement) : Prop :=
  (nextId registry).toNat < 2 ^ 31 ∧ ∀ other, registry.atIndex (nextId registry) = some other →
    other = statement

theorem idFree_of_lt {registry : StatementRegistry} (h : registry.statementVector.length < 2 ^ 31)
    (statement : Statement) : IdFree registry statement := by
  have hn : (nextId registry).toNat = registry.statementVector.length := by
    rw [nextId, UInt32.toNat_ofNat']
    exact Nat.mod_eq_of_lt (by omega)
  constructor
  · rw [hn]
    exact h
  · intro other ho
    rw [StatementRegistry.atIndex, hn, List.getElem?_eq_none (Nat.le_refl _)] at ho
    cases ho

theorem toInt32_nonneg {id : UInt32} : 0 ≤ id.toInt32 ↔ id.toNat < 2 ^ 31 := by
  have h : id.toInt32.toInt = (id.toNat : Int).bmod (2 ^ 32) :=
    BitVec.toInt_eq_toNat_bmod id.toBitVec
  have hlt := id.toNat_lt
  rw [Int32.le_iff_toInt_le, h, Int32.toInt_zero, Int.bmod_def]
  split <;> omega

theorem amxStrParam_passed (cell : Cell) (text : Bytes) :
    amxStrParam (passed cell text) = if text = [] then none else some (cString text) := by
  cases text <;> simp [amxStrParam, passed]

theorem idFree_iff (registry : StatementRegistry) (query parameters : Bytes) :
    (0 ≤ (registry.create query parameters).2.toInt32 ∧
        (registry.create query parameters).1.atIndex (registry.create query parameters).2 =
          some ⟨query, parameters⟩) ↔ IdFree registry ⟨query, parameters⟩ := by
  have hid : (registry.create query parameters).2 = nextId registry := by
    simp [StatementRegistry.create, nextId]
  rw [atIndex_create, hid, if_pos rfl, toInt32_nonneg, IdFree]
  cases registry.atIndex (nextId registry) <;> simp

theorem prepares_iff_idFree (s : Plugin) (queryCell typesCell : Cell) (queryText types : Bytes) :
    Prepares s (passed queryCell queryText) (passed typesCell types) queryText types ↔
      queryText ≠ [] ∧ (cString queryText = [] ∨
        types ≠ [] ∧ IdFree s.statementRegistry ⟨cString queryText, cString types⟩) := by
  rw [Prepares, Plugin.mysqlStatementPrepare, amxStrParam_passed, amxStrParam_passed]
  by_cases hq : queryText = []
  · subst hq
    simp [cString]
  · by_cases hc : cString queryText = []
    · simp [hq, hc]
    · by_cases ht : types = []
      · simp [hq, hc, ht]
      · simp only [hq, hc, ht, if_false, ne_eq, not_false_eq_true, true_and, false_or,
          List.length_eq_zero_iff, NativeOutcome.returned.injEq, ← idFree_iff]
        constructor
        · rintro ⟨s', id, ⟨rfl, rfl, -⟩, h⟩
          simpa using h
        · intro h
          exact ⟨_, _, ⟨rfl, rfl, trivial⟩, by simpa using h⟩

/-- Preparing works exactly when the query is not the empty string and, where there
is something to prepare, the types are not the empty string either and an id is
free, as it is for the first 2^31 statements. amx_StrParam makes null pointers of
empty strings. -/
theorem prepares_iff (s : Plugin) (queryCell typesCell : Cell) (queryText types : Bytes) :
    let prepares := Prepares s (passed queryCell queryText) (passed typesCell types) queryText types
    (prepares ↔ queryText ≠ [] ∧ (cString queryText = [] ∨
        types ≠ [] ∧ IdFree s.statementRegistry ⟨cString queryText, cString types⟩)) ∧
      (s.statementRegistry.statementVector.length < 2 ^ 31 →
        (prepares ↔ queryText ≠ [] ∧ (cString queryText = [] ∨ types ≠ []))) := by
  have h := prepares_iff_idFree s queryCell typesCell queryText types
  refine ⟨h, fun hlt => h.trans ?_⟩
  have hid := idFree_of_lt hlt ⟨cString queryText, cString types⟩
  simp only [hid, and_true]

theorem empty_strings_not_prepared :
    ¬ Prepares Plugin.new (passed 0 (Script.ascii "SELECT 1")) (passed 0 [])
        (Script.ascii "SELECT 1") [] ∧
      ¬ Prepares Plugin.new (passed 0 []) (passed 0 [105]) [] [105] := by
  constructor
  · rintro ⟨s', id, h, -⟩
    cases h
  · intro h
    cases h

end MysqlPlugin.StatementPreparation
