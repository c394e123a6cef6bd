import MysqlPlugin.ColumnLookup

namespace MysqlPlugin.RowIteration

open ColumnLookup SizedInsert

def fetched (res : StoredResult) (calls : Nat) : ResultEntry :=
  (fun entry => entry.fetchRow.2)^[calls] (readResult res)

def storedIndex (res : StoredResult) (name : Bytes) : Option Int32 :=
  (readResult res).columns[name]?.map (·.index)

def LastAt (fields u : List Field) (f : Field) : Prop :=
  ∃ v, fields = u ++ f :: v ∧ f.name ∉ v.map Field.name

/-- A lookup in the entry gives the type of the field at a position and the value
that pushField stored for it in a row of the server. -/
def Shows (entry : ResultEntry) (res : StoredResult) (row position : Nat) (f : Field) : Prop :=
  ∃ resultRow data value pointer,
    res.rows[row]? = some resultRow ∧ resultRow[position]? = some data ∧
      RowInfo.new.pushField data (data.getD []).length (toColumnType f.type) = ⟨[value]⟩ ∧
      entry.fetchField f.name .unknown = (toColumnType f.type, some pointer) ∧
      entry.read pointer = some value

theorem currentRow_readResult (res : StoredResult) : (readResult res).currentRow = -1 := by
  by_cases h : 0 < staticCastInt res.rows.length
  · rw [readResult_eq res h]
    rfl
  · simp [readResult, h, ResultEntry.new]

theorem fetched_eq (res : StoredResult) (calls : Nat) :
    fetched res calls = { readResult res with currentRow := staticCastInt calls - 1 } := by
  induction calls with
  | zero =>
      change readResult res = { readResult res with currentRow := -1 }
      rw [← currentRow_readResult res]
  | succ calls ih =>
      have hn : staticCastInt (calls + 1) = staticCastInt calls + 1 := Int32.ofNat_add calls 1
      rw [fetched, Function.iterate_succ_apply', ← fetched, ih, ResultEntry.fetchRow, hn,
        Int32.sub_add_cancel, Int32.add_sub_cancel]

theorem fetched_succ (res : StoredResult) (k : Nat) : fetched res (k + 1) = atRow res k := by
  have hn : staticCastInt (k + 1) = staticCastInt k + 1 := Int32.ofNat_add k 1
  rw [fetched_eq, hn, Int32.add_sub_cancel, atRow]

theorem staticCastInt_inj {a b : Nat} (ha : a < 2 ^ 31) (hb : b < 2 ^ 31)
    (h : staticCastInt a = staticCastInt b) : a = b := by
  have hi := congrArg Int32.toInt h
  rw [staticCastInt, staticCastInt, Int32.toInt_ofNat_of_lt ha, Int32.toInt_ofNat_of_lt hb] at hi
  exact Int.ofNat_inj.mp hi

section

variable {res : StoredResult} (hm : res.fields.length < 2 ^ 31) (hn : 0 < res.rows.length)
  (hn' : res.rows.length < 2 ^ 31)

include hn hn'

theorem rowCount_pos : 0 < staticCastInt res.rows.length := by
  rw [Int32.lt_iff_toInt_lt, staticCastInt, Int32.toInt_ofNat_of_lt hn', Int32.toInt_zero]
  omega

theorem isRow_iff (k : Nat) : IsRow res k ↔ k < res.rows.length := by
  rw [IsRow, readResult_eq res (rowCount_pos hn hn'), List.length_map, staticCastInt,
    Int32.toInt_ofNat_of_lt hn']
  omega

theorem fetchRow_iff {k : Nat} (hk : k + 1 < 2 ^ 31) :
    (fetched res k).fetchRow.1 = true ↔ k + 1 ≤ res.rows.length := by
  have hl : (readResult res).rows.length = res.rows.length := by
    rw [readResult_eq res (rowCount_pos hn hn'), List.length_map]
  rw [fetched_eq, ResultEntry.fetchRow, Int32.sub_add_cancel, hl, decide_eq_true_iff, staticCastInt,
    staticCastInt, Int32.ofNat_lt_iff_lt (by omega) hn']
  exact Iff.rfl

include hm

theorem storedIndex_last {u : List Field} {f : Field} (hf : LastAt res.fields u f) :
    storedIndex res f.name = some (staticCastInt (distinct (u.map Field.name))) := by
  obtain ⟨v, he, hv⟩ := hf
  have hl := getElem?_fill (u.map columnOf) (columnOf f) (v.map columnOf)
    (by simpa [columnOf, Function.comp_def] using hv)
  rw [storedIndex, readResult_eq res (rowCount_pos hn hn'), fieldCount_of_lt hm,
    List.take_of_length_le le_rfl, he]
  simpa [columnOf, Function.comp_def] using congrArg (Option.map (·.index)) hl

theorem storedIndex_position {u : List Field} {f : Field} (hf : LastAt res.fields u f) :
    storedIndex res f.name = some (staticCastInt u.length) ↔ (u.map Field.name).Nodup := by
  have hlt : u.length < 2 ^ 31 := by
    obtain ⟨v, he, -⟩ := hf
    rw [he, List.length_append] at hm
    omega
  have hd := distinct_le_length (u.map Field.name)
  rw [List.length_map] at hd
  rw [storedIndex_last hm hn hn' hf, Option.some_inj, ← distinct_eq_length, List.length_map]
  exact ⟨staticCastInt_inj (by omega) hlt, congrArg staticCastInt⟩

/-- The indexes are positions exactly when no name repeats in front of the last
field, whose own index counts all the names before it. -/
theorem storedIndex_positions_iff :
    (∀ u f, LastAt res.fields u f → storedIndex res f.name = some (staticCastInt u.length)) ↔
      (res.fields.dropLast.map Field.name).Nodup := by
  constructor
  · intro h
    cases hr : res.fields using List.reverseRecOn with
    | nil => simp
    | append_singleton fields f _ =>
        have hf : LastAt res.fields fields f := ⟨[], hr, by simp⟩
        rw [List.dropLast_concat]
        exact (storedIndex_position hm hn hn' hf).mp (h fields f hf)
  · intro h u f hf
    refine (storedIndex_position hm hn hn' hf).mpr ?_
    obtain ⟨v, he, -⟩ := hf
    rw [he, List.dropLast_append_cons, List.map_append] at h
    exact h.of_append_left

theorem shows_of_lastAt {k : Nat} (hk : k < res.rows.length) {u : List Field} {f : Field}
    (hf : LastAt res.fields u f) (hu : (u.map Field.name).Nodup) :
    Shows (fetched res (k + 1)) res k u.length f := by
  obtain ⟨v, he, hv⟩ := hf
  have hrow := (isRow_iff hn hn' k).mpr hk
  obtain ⟨resultRow, hr, hstored⟩ := row_eq hrow hm
  have hfield : res.fields[u.length]? = some f := by simp [he]
  have hlt : u.length < resultRow.length := by
    rw [res.row_length _ (List.mem_of_getElem? hr)]
    exact (List.getElem?_eq_some_iff.mp hfield).1
  have hfetch := fetchField_last hrow hm he hv .unknown
  rw [distinct_eq_length.mpr hu, List.length_map] at hfetch
  rw [fetched_succ]
  refine ⟨resultRow, _, _, _, hr, List.getElem?_eq_getElem hlt, pushField_toColumnType _ _ _, hfetch, ?_⟩
  have hz : (resultRow.zip res.fields)[u.length]? = some (resultRow[u.length], f) :=
    List.getElem?_zip_eq_some.mpr ⟨List.getElem?_eq_getElem hlt, hfield⟩
  have hstored' : (atRow res k).rows[k]? = _ := hstored
  rw [ResultEntry.read, hstored']
  simp [hz]

/-- The index of a name counts the distinct names in front of its last field, and
it is the position of that field in all cases exactly when no name repeats before
the last one. Then a script sees the rows of the server one after the other. -/
theorem lookup_and_iteration :
    (∀ u f, LastAt res.fields u f →
        storedIndex res f.name = some (staticCastInt (distinct (u.map Field.name)))) ∧
      ((∀ u f, LastAt res.fields u f → storedIndex res f.name = some (staticCastInt u.length)) ↔
        (res.fields.dropLast.map Field.name).Nodup) ∧
      ((res.fields.dropLast.map Field.name).Nodup →
        (∀ k, k + 1 < 2 ^ 31 →
            ((fetched res k).fetchRow.1 = true ↔ k + 1 ≤ res.rows.length)) ∧
          ∀ k < res.rows.length, ∀ u f, LastAt res.fields u f →
            Shows (fetched res (k + 1)) res k u.length f) := by
  refine ⟨fun u f hf => storedIndex_last hm hn hn' hf, storedIndex_positions_iff hm hn hn', fun h => ?_⟩
  constructor
  · exact fun k hk => fetchRow_iff hn hn' hk
  · intro k hk u f hf
    have hp := (storedIndex_positions_iff hm hn hn').mpr h u f hf
    exact shows_of_lastAt hm hn hn' hk hf ((storedIndex_position hm hn hn' hf).mp hp)

end

def twoIds : StoredResult where
  fields := [⟨[105, 100], .long⟩, ⟨[105, 100], .long⟩]
  rows := [[some [49], some [50]], [some [51], some [52]]]
  fields_lt := by decide
  row_length := by decide

theorem lookup_and_iteration_twoIds :
    Shows (fetched twoIds 2) twoIds 1 1 ⟨[105, 100], .long⟩ := by
  have hm : twoIds.fields.length < 2 ^ 31 := by decide
  have hn : 0 < twoIds.rows.length := by decide
  have hn' : twoIds.rows.length < 2 ^ 31 := by decide
  obtain ⟨-, -, h⟩ := lookup_and_iteration hm hn hn'
  exact (h (by decide)).2 1 (by decide) [⟨[105, 100], .long⟩] ⟨[105, 100], .long⟩
    ⟨[], rfl, by decide⟩

end MysqlPlugin.RowIteration
