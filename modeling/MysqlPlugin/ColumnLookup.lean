import MysqlPlugin.ResultEntry
import MysqlPlugin.SizedInsert

namespace MysqlPlugin.ColumnLookup

open SizedInsert

def columnOf (field : Field) : Bytes × (Nat → ColumnInfo) :=
  (field.name, fun size => ⟨field.name, toColumnType field.type, staticCastInt size⟩)

theorem addColumns_new (fields : List Field) (fieldCount : Int32) :
    addColumns .new fields fieldCount =
      { ResultEntry.new with columns := fill ((fields.take fieldCount.toNatClampNeg).map columnOf) } := by
  rw [addColumns]
  generalize fields.take fieldCount.toNatClampNeg = l
  induction l using List.reverseRecOn with
  | nil => rfl
  | append_singleton l field ih =>
      rw [List.foldl_append, ih, List.map_append, List.map_singleton, fill_snoc]
      rfl

theorem updateRow_createRow (entry : ResultEntry) (f : RowInfo → RowInfo) :
    entry.createRow.updateRow f = { entry with rows := entry.rows ++ [f .new] } := by
  have h : ∀ rows : List RowInfo, (rows ++ [RowInfo.new]).modify rows.length f = rows ++ [f .new] := by
    intro rows
    induction rows with
    | nil => rfl
    | cons row rows ih => simp [ih]
  simp [ResultEntry.updateRow, ResultEntry.createRow, h]

theorem foldl_createRow (rows : List (List FieldData)) (entry : ResultEntry)
    (f : List FieldData → RowInfo → RowInfo) :
    rows.foldl (fun entry row => entry.createRow.updateRow (f row)) entry =
      { entry with rows := entry.rows ++ rows.map (fun row => f row .new) } := by
  induction rows generalizing entry with
  | nil => simp
  | cons row rows ih => rw [List.foldl_cons, ih, updateRow_createRow]; simp

theorem readResult_eq (res : StoredResult) (h : 0 < staticCastInt res.rows.length) :
    readResult res =
      { ResultEntry.new with
        columns := fill ((res.fields.take (staticCastInt res.fields.length).toNatClampNeg).map columnOf)
        rows := res.rows.map (pushFields .new res.fields (staticCastInt res.fields.length)) } := by
  simp only [readResult, h, if_true, foldl_createRow, addColumns_new]
  rfl

theorem readResult_rows_of_nonpos (res : StoredResult) (h : ¬ 0 < staticCastInt res.rows.length) :
    (readResult res).rows = [] := by
  simp [readResult, h, ResultEntry.new]

theorem fieldCount_of_lt {n : Nat} (h : n < 2 ^ 31) : (staticCastInt n).toNatClampNeg = n :=
  Int32.toNatClampNeg_ofNat_of_lt h

theorem staticCastInt_nonpos {n : Nat} (h : 2 ^ 31 ≤ n) (h' : n < 2 ^ 32) : staticCastInt n ≤ 0 := by
  rw [Int32.le_iff_toInt_le, staticCastInt, Int32.toInt_ofNat']
  simp only [Int32.toInt_zero, Int32.size, Int.bmod_def]
  split <;> omega

def storedValue (data : FieldData) (type : FieldType) : FieldValue :=
  match toColumnType type with
  | .string => .string (cString (data.getD []))
  | .integer => .integer ((data.map atoi).getD 0)
  | _ => .float (cString (data.getD []))

theorem pushField_toColumnType (row : RowInfo) (data : FieldData) (type : FieldType) :
    row.pushField data (data.getD []).length (toColumnType type) =
      ⟨row.columns ++ [storedValue data type]⟩ := by
  cases type <;> simp [RowInfo.pushField, storedValue, toColumnType]

theorem member_storedValue (data : FieldData) (type : FieldType) :
    (storedValue data type).member = toColumnType type := by
  cases type <;> rfl

theorem pushFields_new (fields : List Field) (fieldCount : Int32) (resultRow : List FieldData) :
    (pushFields .new fields fieldCount resultRow).columns =
      ((resultRow.zip fields).take fieldCount.toNatClampNeg).map (fun p => storedValue p.1 p.2.type) := by
  rw [pushFields]
  generalize (resultRow.zip fields).take fieldCount.toNatClampNeg = l
  induction l using List.reverseRecOn with
  | nil => rfl
  | append_singleton l p ih =>
      rw [List.foldl_append, List.foldl_cons, List.foldl_nil, pushField_toColumnType, ih]
      simp

/-- The k-th row is current: fetchRow has been called k + 1 times and the
cursor is still in front of the end that the natives see. -/
def atRow (res : StoredResult) (k : Nat) : ResultEntry :=
  { readResult res with currentRow := staticCastInt k }

def IsRow (res : StoredResult) (k : Nat) : Prop :=
  (k : Int) < (staticCastInt (readResult res).rows.length).toInt

instance (res : StoredResult) (k : Nat) : Decidable (IsRow res k) :=
  inferInstanceAs (Decidable (_ < _))

theorem IsRow.lt {res : StoredResult} {k : Nat} (h : IsRow res k) :
    k < 2 ^ 31 ∧ k < (readResult res).rows.length := by
  have hlt : (staticCastInt (readResult res).rows.length).toInt < 2 ^ 31 := Int32.toInt_lt _
  have hle := toInt_staticCastInt_le (readResult res).rows.length
  rw [IsRow] at h
  omega

theorem IsRow.rowCount_pos {res : StoredResult} {k : Nat} (h : IsRow res k) :
    0 < staticCastInt res.rows.length := by
  by_contra hn
  have := h.lt.2
  rw [readResult_rows_of_nonpos res hn] at this
  simp at this

theorem currentRow_inside {res : StoredResult} {k : Nat} (h : IsRow res k) :
    ¬ ((atRow res k).currentRow < 0 ∨
      staticCastInt (atRow res k).rows.length ≤ (atRow res k).currentRow) := by
  have hk : (staticCastInt k).toInt = k := Int32.toInt_ofNat_of_lt h.lt.1
  simp only [atRow, Int32.lt_iff_toInt_lt, Int32.le_iff_toInt_le, hk, Int32.toInt_zero]
  rw [IsRow] at h
  omega

theorem row_eq {res : StoredResult} {k : Nat} (h : IsRow res k) (hm : res.fields.length < 2 ^ 31) :
    ∃ resultRow, res.rows[k]? = some resultRow ∧
      (readResult res).rows[k]? =
        some ⟨(resultRow.zip res.fields).map (fun p => storedValue p.1 p.2.type)⟩ := by
  have he := readResult_eq res h.rowCount_pos
  have hk : k < res.rows.length := by simpa [he] using h.lt.2
  refine ⟨res.rows[k], List.getElem?_eq_getElem hk, ?_⟩
  have hp := pushFields_new res.fields (staticCastInt res.fields.length) res.rows[k]
  rw [fieldCount_of_lt hm, List.take_of_length_le (by simp)] at hp
  simp [he, List.getElem?_eq_getElem hk, ← hp]

theorem fetchField_last {res : StoredResult} {k : Nat} (h : IsRow res k)
    (hm : res.fields.length < 2 ^ 31) {u v : List Field} {f : Field}
    (hf : res.fields = u ++ f :: v) (hv : f.name ∉ v.map Field.name) (type : ColumnType) :
    (atRow res k).fetchField f.name type =
      (toColumnType f.type, some ⟨k, distinct (u.map Field.name)⟩) := by
  have hc : (atRow res k).columns[f.name]? = some ((columnOf f).2 (distinct (u.map Field.name))) := by
    have hl := getElem?_fill (u.map columnOf) (columnOf f) (v.map columnOf)
      (by simpa [columnOf, Function.comp_def] using hv)
    rw [atRow, readResult_eq res h.rowCount_pos, fieldCount_of_lt hm, List.take_of_length_le le_rfl, hf]
    simpa [columnOf, Function.comp_def] using hl
  obtain ⟨resultRow, hr, hrow⟩ := row_eq h hm
  have hw : resultRow.length = res.fields.length :=
    res.row_length _ (List.mem_of_getElem? hr)
  have hd : distinct (u.map Field.name) < res.fields.length := by
    have := distinct_le_length (u.map Field.name)
    rw [List.length_map] at this
    rw [hf, List.length_append, List.length_cons]
    omega
  have hi : (staticCastInt (distinct (u.map Field.name))).toUInt32.toNat =
      distinct (u.map Field.name) := toNat_staticCastInt (by omega)
  have hk : (atRow res k).currentRow.toNatClampNeg = k := fieldCount_of_lt h.lt.1
  rw [ResultEntry.fetchField, if_neg (currentRow_inside h), hc]
  simp only [columnOf, hk]
  have hrow' : (atRow res k).rows[k]? = _ := hrow
  rw [hrow', Option.bind_some, RowInfo.column, hi]
  simp [hw, Nat.not_le.mpr hd]

theorem exists_last {fields : List Field} {name : Bytes} (h : name ∈ fields.map Field.name) :
    ∃ u g v, fields = u ++ g :: v ∧ g.name = name ∧ name ∉ v.map Field.name := by
  induction fields using List.reverseRecOn with
  | nil => simp at h
  | append_singleton fields f ih =>
      by_cases hf : f.name = name
      · exact ⟨fields, f, [], rfl, hf, by simp⟩
      · have hmem : name ∈ fields.map Field.name := by
          simpa [Ne.symm hf] using h
        obtain ⟨u, g, v, he, hg, hv⟩ := ih hmem
        exact ⟨u, g, v ++ [f], by simp [he], hg, by
          simp only [List.map_append, List.map_singleton, List.mem_append, List.mem_singleton, not_or]
          exact ⟨hv, Ne.symm hf⟩⟩

/-- Whichever row is current, the type and the value that a lookup of a field
name reports belong to one field of that name, and the value is the one that
pushField stored there, under the member that the type selects. -/
def FieldsConsistent (res : StoredResult) : Prop :=
  ∀ k, IsRow res k → ∀ f ∈ res.fields, ∀ type : ColumnType, ∃ p g resultRow data value,
    res.fields[p]? = some g ∧ g.name = f.name ∧
      res.rows[k]? = some resultRow ∧ resultRow[p]? = some data ∧
      (atRow res k).fetchField f.name type = (toColumnType g.type, some ⟨k, p⟩) ∧
      RowInfo.new.pushField data (data.getD []).length (toColumnType g.type) = ⟨[value]⟩ ∧
      (atRow res k).read ⟨k, p⟩ = some value ∧ value.member = toColumnType g.type

/-- Counting the distinct names in front of the last field of a name leads to a
field of the same name and column type. -/
def Aligned (fields : List Field) : Prop :=
  ∀ u f v, fields = u ++ f :: v → f.name ∉ v.map Field.name →
    ∃ g, fields[distinct (u.map Field.name)]? = some g ∧ g.name = f.name ∧
      toColumnType g.type = toColumnType f.type

theorem fetchField_of_no_columns {res : StoredResult} (hm : ¬ res.fields.length < 2 ^ 31)
    {k : Nat} (h : IsRow res k) (name : Bytes) (type : ColumnType) :
    (atRow res k).fetchField name type = (type, none) := by
  have hc : (staticCastInt res.fields.length).toNatClampNeg = 0 :=
    Int32.toNatClampNeg_eq_zero_iff.mpr (staticCastInt_nonpos (Nat.le_of_not_lt hm) res.fields_lt)
  have he : (atRow res k).columns[name]? = none := by
    rw [atRow, readResult_eq res h.rowCount_pos, hc]
    simp [fill]
  rw [ResultEntry.fetchField, if_neg (currentRow_inside h), he]

theorem aligned_of_consistent {res : StoredResult} (h : FieldsConsistent res)
    (hrow : 0 < staticCastInt res.rows.length) :
    res.fields.length < 2 ^ 31 ∧ Aligned res.fields := by
  have hk : IsRow res 0 := by
    have hp := Int32.lt_iff_toInt_lt.mp hrow
    rw [IsRow, readResult_eq res hrow]
    simpa using hp
  have hm : res.fields.length < 2 ^ 31 := by
    by_contra hm
    obtain ⟨f, hf⟩ : ∃ f, f ∈ res.fields := List.exists_mem_of_length_pos (by omega)
    obtain ⟨p, g, _, _, _, _, _, _, _, hfetch, _⟩ := h 0 hk f hf .unknown
    rw [fetchField_of_no_columns hm hk] at hfetch
    simp at hfetch
  refine ⟨hm, fun u f v hf hv => ?_⟩
  obtain ⟨p, g, _, _, _, hp, hn, _, _, hfetch, _⟩ := h 0 hk f (by simp [hf]) .unknown
  rw [fetchField_last hk hm hf hv] at hfetch
  simp only [Prod.mk.injEq, Option.some.injEq, FieldPointer.mk.injEq, true_and] at hfetch
  obtain ⟨ht, rfl⟩ := hfetch
  exact ⟨g, hp, hn, ht.symm⟩

theorem consistent_of_aligned {res : StoredResult} (hm : res.fields.length < 2 ^ 31)
    (h : Aligned res.fields) : FieldsConsistent res := by
  intro k hk f hf type
  obtain ⟨u, l, v, he, hl, hv⟩ := exists_last (List.mem_map_of_mem (f := Field.name) hf)
  obtain ⟨g, hg, hn, ht⟩ := h u l v he (hl ▸ hv)
  obtain ⟨resultRow, hr, hrow⟩ := row_eq hk hm
  have hw : resultRow.length = res.fields.length := res.row_length _ (List.mem_of_getElem? hr)
  have hlt : distinct (u.map Field.name) < resultRow.length := by
    rw [hw]; exact (List.getElem?_eq_some_iff.mp hg).1
  refine ⟨_, g, resultRow, _, _, hg, hn.trans hl, hr, List.getElem?_eq_getElem hlt, ?_,
    pushField_toColumnType _ _ _, ?_, member_storedValue _ _⟩
  · rw [← hl, fetchField_last hk hm he (hl ▸ hv), ht]
  · have hrow' : (atRow res k).rows[k]? = _ := hrow
    have hz : (resultRow.zip res.fields)[distinct (u.map Field.name)]? =
        some (resultRow[distinct (u.map Field.name)], g) :=
      List.getElem?_zip_eq_some.mpr ⟨List.getElem?_eq_getElem hlt, hg⟩
    rw [ResultEntry.read, hrow']
    simp [hz]

/-- A lookup by name is right in every row exactly when the names line up.
The other cases store no row at all, or no column at all. -/
theorem fieldsConsistent_iff (res : StoredResult) :
    FieldsConsistent res ↔ staticCastInt res.rows.length ≤ 0 ∨
      (res.fields.length < 2 ^ 31 ∧ Aligned res.fields) := by
  constructor
  · intro h
    by_cases hrow : 0 < staticCastInt res.rows.length
    · exact Or.inr (aligned_of_consistent h hrow)
    · exact Or.inl (Int32.not_lt.mp hrow)
  · rintro (hrow | ⟨hm, h⟩)
    · intro k hk
      exact absurd hk.rowCount_pos (Int32.not_lt.mpr hrow)
    · exact consistent_of_aligned hm h

/-- SELECT a.id, b.id, b.name: two tables that both have an id column. -/
def joinResult : StoredResult where
  fields := [⟨[105, 100], .long⟩, ⟨[105, 100], .long⟩, ⟨[110, 97, 109, 101], .other 253⟩]
  rows := [[some [49], some [50], some [120]]]
  fields_lt := by decide
  row_length := by decide

theorem joinResult_not_consistent : ¬ FieldsConsistent joinResult := by
  intro h
  have hf : (atRow joinResult 0).fetchField [110, 97, 109, 101] .unknown =
      (.string, some ⟨0, 1⟩) := by decide
  obtain ⟨p, g, _, _, _, hp, hn, _, _, hfetch, _⟩ :=
    h 0 (by decide) ⟨[110, 97, 109, 101], .other 253⟩ (by decide) .unknown
  rw [hf] at hfetch
  simp only [Prod.mk.injEq, Option.some.injEq, FieldPointer.mk.injEq, true_and] at hfetch
  obtain ⟨_, rfl⟩ := hfetch
  have hg : joinResult.fields[1]? = some ⟨[105, 100], .long⟩ := by decide
  rw [hg, Option.some.injEq] at hp
  subst hp
  exact absurd hn (by decide)

end MysqlPlugin.ColumnLookup
