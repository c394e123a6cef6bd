import MysqlPlugin.ColumnLookup
import MysqlPlugin.ResultHistory

namespace MysqlPlugin

/-- How a native that fetches a field ends: with its value and, where it writes a
string into the script, that string and the size of the buffer. It goes wrong by
a read through the null pointer, outside of the rows, or of the wrong member. -/
inductive FieldOutcome
  | returned (value : Cell) (written : Option (Bytes × UInt32))
  | nullRead
  | invalidRead
  | misread
  deriving DecidableEq

namespace Plugin

/-- What the three natives have in common: the checks, of which the last one looks
at the type only, and the read through the pointer. -/
def fetchFieldAs (plugin : Plugin) (expected : ColumnType) (resultId field : Param)
    (result : FieldValue → FieldOutcome) : FieldOutcome :=
  match plugin.resultController.atId resultId.value.toUInt32 with
  | none => .returned 0 none
  | some entry =>
      match amxStrParam field with
      | none => .returned 0 none
      | some fieldName =>
          if fieldName.length = 0 then .returned 0 none
          else
            let (fieldType, fieldValue) := entry.fetchField fieldName .unknown
            if fieldType ≠ expected then .returned 0 none
            else
              match fieldValue with
              | none => .nullRead
              | some pointer =>
                  match entry.read pointer with
                  | none => .invalidRead
                  | some value => result value

def mysqlFetchFieldInt (plugin : Plugin) : List Param → FieldOutcome
  | [resultId, field] =>
      plugin.fetchFieldAs .integer resultId field fun
        | .integer integerVal => .returned integerVal none
        | _ => .misread
  | _ => .returned 0 none

/-- The cell of a float is what atof and amx_ftoc make of its text. -/
def mysqlFetchFieldFloat (amxFtoc : Bytes → Cell) (plugin : Plugin) : List Param → FieldOutcome
  | [resultId, field] =>
      plugin.fetchFieldAs .float resultId field fun
        | .float floatText => .returned (amxFtoc floatText) none
        | _ => .misread
  | _ => .returned 0 none

def mysqlFetchFieldString (plugin : Plugin) : List Param → FieldOutcome
  | [resultId, field, _buffer, bufferSize] =>
      plugin.fetchFieldAs .string resultId field fun
        | .string stringVal =>
            .returned (staticCastInt stringVal.length) (some (stringVal, bufferSize.value.toUInt32))
        | _ => .misread
  | _ => .returned 0 none

end Plugin

namespace FieldNatives

open ColumnLookup HostHistory QueryAccounting ResultHistory SizedInsert Transition

def Built (entry : ResultEntry) : Prop :=
  ∃ query callback executionType answer,
    (doQuery query callback executionType answer).feedback = .succeeded entry

inductive EntryCall
  | fetchRow
  | fetchField (fieldName : Bytes)

def perform (entry : ResultEntry) : EntryCall → ResultEntry
  | .fetchRow => entry.fetchRow.2
  | .fetchField _ => entry

def Shaped (entry : ResultEntry) : Prop :=
  ∀ (name : Bytes) (info : ColumnInfo), entry.columns[name]? = some info →
    info.type ≠ .unknown ∧ ∀ row ∈ entry.rows, info.index.toUInt32.toNat < row.columns.length

theorem shaped_of_noColumns {entry : ResultEntry} (h : entry.columns = ∅) : Shaped entry := by
  intro name info hi
  simp [h] at hi

theorem toColumnType_ne_unknown (type : FieldType) : toColumnType type ≠ .unknown := by
  cases type <;> simp [toColumnType]

/-- The columns and the rows come from the same fields, so the index of a column,
which counts names in front of one field, is below the length of a row. -/
theorem shaped_readResult (res : StoredResult) : Shaped (readResult res) := by
  by_cases hrow : 0 < staticCastInt res.rows.length
  · rw [readResult_eq res hrow]
    intro name info hi
    obtain ⟨u, p, v, hl, rfl⟩ := exists_of_getElem?_fill hi
    have hp : p ∈ (res.fields.take (staticCastInt res.fields.length).toNatClampNeg).map columnOf := by
      rw [hl]
      simp
    obtain ⟨field, -, rfl⟩ := List.mem_map.mp hp
    refine ⟨toColumnType_ne_unknown field.type, fun row hr => ?_⟩
    obtain ⟨resultRow, hmem, rfl⟩ := List.mem_map.mp hr
    have hw : resultRow.length = res.fields.length := res.row_length resultRow hmem
    have hd := distinct_le_length (u.map Prod.fst)
    have hc := congrArg List.length hl
    have hlt := res.fields_lt
    simp only [List.length_map, List.length_take, List.length_append, List.length_cons] at hd hc
    rw [columnOf, toNat_staticCastInt (by omega), pushFields_new, List.length_map, List.length_take,
      List.length_zip, hw]
    omega
  · refine shaped_of_noColumns ?_
    simp [readResult, hrow, ResultEntry.new]

theorem shaped_of_built {entry : ResultEntry} (h : Built entry) : Shaped entry := by
  obtain ⟨query, callback, executionType, answer, hf⟩ := h
  rw [doQuery_feedback ⟨⟨query, callback, 0⟩, executionType, answer, none⟩] at hf
  split_ifs at hf
  cases hf
  unfold entryOf
  split
  next res _ => exact shaped_readResult res
  next => exact shaped_of_noColumns rfl

theorem Shaped.perform {entry : ResultEntry} (h : Shaped entry) (call : EntryCall) :
    Shaped (perform entry call) := by
  cases call with
  | fetchRow => exact h
  | fetchField fieldName => exact h

theorem Shaped.foldl {entry : ResultEntry} (h : Shaped entry) (calls : List EntryCall) :
    Shaped (calls.foldl FieldNatives.perform entry) := by
  induction calls generalizing entry with
  | nil => exact h
  | cons call calls ih => exact ih (h.perform call)

theorem currentRow_lt {entry : ResultEntry}
    (h : ¬ (entry.currentRow < 0 ∨ staticCastInt entry.rows.length ≤ entry.currentRow)) :
    entry.currentRow.toNatClampNeg < entry.rows.length := by
  rw [not_or, Int32.not_lt, Int32.not_le, Int32.le_iff_toInt_le, Int32.lt_iff_toInt_lt] at h
  have hn : (entry.currentRow.toNatClampNeg : Int) = entry.currentRow.toInt :=
    Int.toNat_of_nonneg h.1
  have hl := toInt_staticCastInt_le entry.rows.length
  omega

theorem Shaped.fetchField {entry : ResultEntry} (h : Shaped entry) (fieldName : Bytes) :
    entry.fetchField fieldName .unknown = (.unknown, none) ∨
      ∃ type pointer value, type ≠ .unknown ∧
        entry.fetchField fieldName .unknown = (type, some pointer) ∧
        entry.read pointer = some value := by
  rw [ResultEntry.fetchField]
  split_ifs with hc
  · exact .inl rfl
  · split
    next hn => exact .inl rfl
    next info hi =>
      obtain ⟨ht, hrows⟩ := h fieldName info hi
      have hlt := currentRow_lt hc
      have hcol := hrows _ (List.getElem_mem hlt)
      refine .inr ⟨info.type, ⟨entry.currentRow.toNatClampNeg, info.index.toUInt32.toNat⟩,
        entry.rows[entry.currentRow.toNatClampNeg].columns[info.index.toUInt32.toNat], ht, ?_, ?_⟩
      · simp [List.getElem?_eq_getElem hlt, RowInfo.column, Nat.not_le.mpr hcol]
      · simp [ResultEntry.read, List.getElem?_eq_getElem hlt, List.getElem?_eq_getElem hcol]

theorem built_of_registered {s s' : Plugin} {a : PluginAction} {e : PluginEvent} {r : Registered}
    (h : PluginStep s a e s') (hr : registeredAt e = some r) : Built r.entry := by
  cases hostsStep_of_pluginStep h with
  | same he hh => simp [registeredAt, he] at hr
  | created script id request he hh => simp [registeredAt, he] at hr
  | moved pointer g g' act ev hh hs he hh' =>
      cases (hostStep_of_step hs).2 with
      | client results input ev c hc =>
          cases hc with
          | register information caller answer entry resultId hp hf =>
              simp only [registeredAt, he, Option.some.injEq] at hr
              cases hr
              exact ⟨_, _, _, _, hf⟩
          | _ => simp [registeredAt, he] at hr
      | _ => simp [registeredAt, he] at hr

def AllShaped (s : Plugin) : Prop :=
  ∀ id entry, s.resultController.atId id = some entry → Shaped entry

theorem allShaped_step {s s' : Plugin} {a : PluginAction} {e : PluginEvent} (h : PluginStep s a e s')
    (hs : AllShaped s) : AllShaped s' := by
  intro id entry hi
  cases resultsStep_of_pluginStep h with
  | same hr hsame => exact hs id entry (hsame ▸ hi)
  | registered r hr hid hpush =>
      rw [hpush, ResultController.atId_push] at hi
      split_ifs at hi
      · cases hi
        exact shaped_of_built (built_of_registered h hr)
      · exact hs id entry hi
  | freed id' hr hn hf hfree =>
      rw [hfree, ResultController.atId_free] at hi
      split_ifs at hi
      exact hs id entry hi
  | fetched id' hr hn hf hfetch =>
      rw [hfetch, ResultController.atId_update] at hi
      split_ifs at hi
      · obtain ⟨entry, he, rfl⟩ := Option.map_eq_some_iff.mp hi
        exact (hs id entry he).perform .fetchRow
      · exact hs id entry hi

theorem reach_allShaped {lib : Externals} {tr : List PluginEvent} {s : Plugin}
    (hr : Reach (Plugin.step lib) Plugin.new tr s) : AllShaped s := by
  induction hr with
  | start => simp [AllShaped, Plugin.new, ResultController.new, ResultController.atId]
  | step _ hs ih => exact allShaped_step (pluginStep_of_step hs) ih

def Reads (outcome : FieldOutcome) : Prop := outcome ≠ .nullRead ∧ outcome ≠ .invalidRead

@[simp] theorem reads_returned (value : Cell) (written : Option (Bytes × UInt32)) :
    Reads (.returned value written) :=
  ⟨by simp, by simp⟩

@[simp] theorem reads_misread : Reads .misread := ⟨by simp, by simp⟩

theorem reads_fetchFieldAs {s : Plugin} (h : AllShaped s) {expected : ColumnType}
    (he : expected ≠ .unknown) (resultId field : Param) {result : FieldValue → FieldOutcome}
    (hresult : ∀ value, Reads (result value)) :
    Reads (s.fetchFieldAs expected resultId field result) := by
  unfold Plugin.fetchFieldAs
  split
  next => exact reads_returned 0 none
  next entry hi =>
    split
    next => exact reads_returned 0 none
    next fieldName hname =>
      split_ifs with hl
      · exact reads_returned 0 none
      · rcases (h _ entry hi).fetchField fieldName with hf | ⟨type, pointer, value, -, hf, hv⟩
        · simp [hf, Ne.symm he]
        · simp only [hf, hv]
          split_ifs
          · exact reads_returned 0 none
          · exact hresult value

theorem reads_mysqlFetchFieldInt {s : Plugin} (h : AllShaped s) (params : List Param) :
    Reads (s.mysqlFetchFieldInt params) := by
  unfold Plugin.mysqlFetchFieldInt
  split
  · apply reads_fetchFieldAs h (by simp)
    intro value
    cases value <;> simp
  · exact reads_returned 0 none

theorem reads_mysqlFetchFieldFloat {s : Plugin} (h : AllShaped s) (amxFtoc : Bytes → Cell)
    (params : List Param) : Reads (s.mysqlFetchFieldFloat amxFtoc params) := by
  unfold Plugin.mysqlFetchFieldFloat
  split
  · apply reads_fetchFieldAs h (by simp)
    intro value
    cases value <;> simp
  · exact reads_returned 0 none

theorem reads_mysqlFetchFieldString {s : Plugin} (h : AllShaped s) (params : List Param) :
    Reads (s.mysqlFetchFieldString params) := by
  unfold Plugin.mysqlFetchFieldString
  split
  · apply reads_fetchFieldAs h (by simp)
    intro value
    cases value <;> simp
  · exact reads_returned 0 none

/-- After any calls on an entry that doQuery built, a lookup leaves the type as it
was exactly when it returns the null pointer, and any other pointer is that of a
field. So the natives, which look at the type only, read through no null pointer
in any run of the plugin. -/
theorem field_natives_read :
    (∀ entry, Built entry → ∀ (calls : List EntryCall) (fieldName : Bytes),
      let entry := calls.foldl perform entry
      let (type, pointer) := entry.fetchField fieldName .unknown
      (type ≠ .unknown ↔ pointer.isSome) ∧ (pointer = none ↔ type = .unknown) ∧
        ∀ p, pointer = some p → (entry.read p).isSome) ∧
      ∀ (lib : Externals) (tr : List PluginEvent) (s : Plugin),
        Reach (Plugin.step lib) Plugin.new tr s → ∀ (amxFtoc : Bytes → Cell) (params : List Param),
          Reads (s.mysqlFetchFieldInt params) ∧ Reads (s.mysqlFetchFieldFloat amxFtoc params) ∧
            Reads (s.mysqlFetchFieldString params) := by
  constructor
  · intro entry hb calls fieldName
    rcases ((shaped_of_built hb).foldl calls).fetchField fieldName with
      hf | ⟨type, pointer, value, ht, hf, hv⟩
    · simp [hf]
    · simp [hf, ht, hv]
  · intro lib tr s hr amxFtoc params
    have h := reach_allShaped hr
    exact ⟨reads_mysqlFetchFieldInt h params, reads_mysqlFetchFieldFloat h amxFtoc params,
      reads_mysqlFetchFieldString h params⟩

def joinSelected : List PluginAction :=
  [.native 1 .connect [.text "h", .text "u", .text "p", .text "d", .number 3306]] ++
    clientTurns 0 11 .empty ++ [.native 1 .query [.number 1, .text "q", .text "c", .number 0]] ++
    clientTurns 0 8 { QueryAnswer.empty with storeResult := some joinResult } ++
    [.native 1 .fetchRow [.number 1]]

theorem field_natives_read_joinSelected :
    let entry := [EntryCall.fetchRow].foldl perform (readResult joinResult)
    let s := (run (Plugin.step plainText) Plugin.new joinSelected).2
    (∀ p, (entry.fetchField [105, 100] .unknown).2 = some p → (entry.read p).isSome) ∧
      s.mysqlFetchFieldInt [.number 1, .text "id"] = .returned 2 none ∧
      Reads (s.mysqlFetchFieldInt [.number 1, .text "id"]) := by
  have hb : Built (readResult joinResult) :=
    ⟨[113], [99], .normalExecution, { QueryAnswer.empty with storeResult := some joinResult }, rfl⟩
  have hr := reach_run (Plugin.step plainText) Plugin.new joinSelected
  exact ⟨(field_natives_read.1 _ hb [.fetchRow] [105, 100]).2.2, by decide,
    (field_natives_read.2 plainText _ _ hr (fun _ => 0) [.number 1, .text "id"]).1⟩

end FieldNatives

end MysqlPlugin
