import MysqlPlugin.FieldNatives
import MysqlPlugin.NativeQueries
import MysqlPlugin.PendingResults
import MysqlPlugin.RowIteration
import MysqlPlugin.StatementHistory

namespace MysqlPlugin.ScriptReads

open ColumnLookup HostHistory NativeQueries PendingResults QueryAccounting ResultHistory RowIteration
open SizedInsert StatementHistory Transition

def freed (tr : List PluginEvent) : List UInt32 := tr.filterMap freedAt

theorem freed_snoc (tr : List PluginEvent) (e : PluginEvent) :
    freed (tr ++ [e]) = freed tr ++ (freedAt e).toList :=
  filterMap_snoc ..

def entryStep (id : UInt32) (entry : Option ResultEntry) (e : PluginEvent) : Option ResultEntry :=
  if freedAt e = some id then none
  else if fetchedAt e = some id then entry.map (·.fetchRow.2)
  else
    match registeredAt e with
    | some r => if r.id = id then some r.entry else entry
    | none => entry

theorem outcome_of_returned {lib : Externals} {s s' : Plugin} {a : PluginAction} {amx : Amx}
    {native : Native} {params : List Param} {value : Cell} {touched : Option (Nat × HostEvent)}
    (hn : native ≠ .close)
    (h : Plugin.step lib s a = some (s', .returned amx native params value touched)) :
    s.callNative lib amx params native = .returned s' value touched := by
  generalize he : PluginEvent.returned amx native params value touched = e at h
  cases pluginStep_of_step h with
  | stopped => cases he; exact absurd rfl hn
  | quiet _ _ _ _ _ ht | free _ _ ht | fetch _ _ _ ht | connect _ _ _ ht
  | query _ _ _ _ _ _ _ _ _ ht => cases he; exact callNative_of_step ht h
  | _ => cases he

theorem atId_of_mysqlFreeResult {s s' : Plugin} {amx : Amx} {resultId : Param} {value : Cell}
    {touched : Option (Nat × HostEvent)} (id : UInt32)
    (ho : s.mysqlFreeResult [resultId] = .returned s' value touched) :
    s'.resultController.atId id = entryStep id (s.resultController.atId id)
      (.returned amx .freeResult [resultId] value touched) := by
  cases ho
  refine (ResultController.atId_free s.resultController resultId.value.toUInt32 id).trans ?_
  simp [entryStep, registeredAt, hostEvent, freedAt, fetchedAt]

theorem atId_of_mysqlFetchRow {s s' : Plugin} {amx : Amx} {resultId : Param} {value : Cell}
    {touched : Option (Nat × HostEvent)} (id : UInt32)
    (ho : s.mysqlFetchRow [resultId] = .returned s' value touched) :
    s'.resultController.atId id = entryStep id (s.resultController.atId id)
      (.returned amx .fetchRow [resultId] value touched) := by
  cases hi : s.resultController.atId resultId.value.toUInt32 with
  | some entry =>
      simp only [Plugin.mysqlFetchRow, hi] at ho
      cases ho
      refine (ResultController.atId_update s.resultController _ id _).trans ?_
      simp [entryStep, registeredAt, hostEvent, freedAt, fetchedAt]
  | none =>
      simp only [Plugin.mysqlFetchRow, hi] at ho
      cases ho
      by_cases hid : resultId.value.toUInt32 = id
      · subst hid
        simp [entryStep, freedAt, fetchedAt, hi]
      · simp [entryStep, registeredAt, hostEvent, freedAt, fetchedAt, hid]

theorem atId_of_step {lib : Externals} {s s' : Plugin} {a : PluginAction} {e : PluginEvent}
    (h : Plugin.step lib s a = some (s', e)) (id : UInt32) :
    s'.resultController.atId id = entryStep id (s.resultController.atId id) e := by
  cases hfree : freedAt e with
  | some i =>
      unfold freedAt at hfree
      split at hfree <;> cases hfree
      exact atId_of_mysqlFreeResult id (outcome_of_returned (by simp) h)
  | none =>
      cases hfetch : fetchedAt e with
      | some i =>
          unfold fetchedAt at hfetch
          split at hfetch <;> cases hfetch
          exact atId_of_mysqlFetchRow id (outcome_of_returned (by simp) h)
      | none =>
          cases resultsStep_of_pluginStep (pluginStep_of_step h) with
          | same hr hsame => simp [hsame, entryStep, hfree, hfetch, hr]
          | registered r hr hid hpush =>
              rw [hpush, ResultController.atId_push, ← hid]
              simp [entryStep, hfree, hfetch, hr]
          | freed i hr hn hf => cases hfree.symm.trans hf
          | fetched i hr hn hf => cases hfetch.symm.trans hf

/-- The registry is the replay of what happened to its entries. -/
theorem reach_atId {lib : Externals} {tr : List PluginEvent} {s : Plugin}
    (hr : Reach (Plugin.step lib) Plugin.new tr s) (id : UInt32) :
    s.resultController.atId id = tr.foldl (entryStep id) none := by
  induction hr with
  | start => simp [Plugin.new, ResultController.new, ResultController.atId]
  | step _ hs ih => rw [List.foldl_append, ← ih, atId_of_step hs]; rfl

theorem foldl_entryStep {id : UInt32} {es : List PluginEvent}
    (hr : id ∉ (registered es).map (·.id)) (hf : id ∉ freed es) (entry : ResultEntry) :
    es.foldl (entryStep id) (some entry) =
      some ((fun entry => entry.fetchRow.2)^[(fetched es).count id] entry) := by
  induction es using List.reverseRecOn with
  | nil => rfl
  | append_singleton es e ih =>
      rw [registered_snoc, List.map_append, List.mem_append, not_or] at hr
      rw [freed_snoc, List.mem_append, not_or] at hf
      have he : freedAt e ≠ some id := fun h => hf.2 (by simp [h])
      rw [List.foldl_append, ih hr.1 hf.1, List.foldl_cons, List.foldl_nil, fetched_snoc,
        List.count_append, entryStep, if_neg he]
      split_ifs with hfetch
      · rw [hfetch, Option.toList_some, List.count_singleton_self, Function.iterate_succ_apply',
          Option.map_some]
      · have hn : id ∉ (fetchedAt e).toList := fun h => hfetch (Option.mem_toList.mp h)
        rw [List.count_eq_zero.mpr hn, Nat.add_zero]
        cases hreg : registeredAt e with
        | none => rfl
        | some r =>
            have hne : r.id ≠ id := by
              rintro rfl
              exact hr.2 (by simp [hreg])
            exact if_neg hne

theorem entry_of_registered {tr : List PluginEvent} {r : Registered}
    (hn : ((registered tr).map (·.id)).Nodup) (hr : r ∈ registered tr) (hf : r.id ∉ freed tr)
    (hfetch : r.id ∉ ResultHistory.fetched tr) : tr.foldl (entryStep r.id) none = some r.entry := by
  obtain ⟨e, he, hreg⟩ := List.mem_filterMap.mp hr
  have hf' : freedAt e ≠ some r.id := fun h => hf (List.mem_filterMap.mpr ⟨e, he, h⟩)
  have hfetch' : fetchedAt e ≠ some r.id := fun h => hfetch (List.mem_filterMap.mpr ⟨e, he, h⟩)
  obtain ⟨before, after, rfl⟩ := List.append_of_mem he
  have hs : after.Sublist (before ++ e :: after) :=
    (List.sublist_cons_self e after).trans (List.sublist_append_right before _)
  have hstep : entryStep r.id (before.foldl (entryStep r.id) none) e = some r.entry := by
    rw [entryStep, if_neg hf', if_neg hfetch', hreg]
    exact if_pos rfl
  have hzero : (ResultHistory.fetched after).count r.id = 0 :=
    List.count_eq_zero.mpr fun hm => hfetch ((hs.filterMap _).subset hm)
  rw [registered, List.filterMap_append, List.filterMap_cons_some hreg, List.map_append,
    List.map_cons, List.nodup_middle, List.nodup_cons, List.mem_append, not_or] at hn
  rw [List.foldl_append, List.foldl_cons, hstep,
    foldl_entryStep hn.1.2 (fun hm => hf ((hs.filterMap _).subset hm)), hzero]
  rfl

/-- What the natives report of rows that were stored, after so many calls of
mysql_fetch_row. A field is read under the type of its column only. -/
structure ShowsRows (s : Plugin) (id : UInt32) (res : StoredResult) (calls : Nat) : Prop where
  numRows : ∀ resultId : Param, resultId.value.toUInt32 = id →
    s.mysqlNumRows [resultId] = .returned s (staticCastInt res.rows.length) none
  fetchRow : ∀ resultId : Param, resultId.value.toUInt32 = id → calls < 2 ^ 31 →
    ∃ s', s.mysqlFetchRow [resultId] =
      .returned s' (if calls < res.rows.length then 1 else 0) none
  field : ∀ (resultId field : Param) (u : List Field) (f : Field) (row : Nat),
    resultId.value.toUInt32 = id → calls = row + 1 → row < res.rows.length →
    LastAt res.fields u f → (u.map Field.name).Nodup → f.name ≠ [] →
    amxStrParam field = some f.name →
    ∃ resultRow data, res.rows[row]? = some resultRow ∧ resultRow[u.length]? = some data ∧
      s.mysqlFetchFieldInt [resultId, field] =
        .returned (if toColumnType f.type = .integer then (data.map atoi).getD 0 else 0) none ∧
      (∀ amxFtoc, s.mysqlFetchFieldFloat amxFtoc [resultId, field] =
        .returned (if toColumnType f.type = .float then amxFtoc (cString (data.getD [])) else 0)
          none) ∧
      ∀ buffer bufferSize, s.mysqlFetchFieldString [resultId, field, buffer, bufferSize] =
        if toColumnType f.type = .string then
          .returned (staticCastInt (cString (data.getD [])).length)
            (some (cString (data.getD []), bufferSize.value.toUInt32))
        else .returned 0 none

section

variable {s : Plugin} {resultId : Param} {res : StoredResult} {calls : Nat}
variable (hn : res.rows.length < 2 ^ 31)

include hn

theorem rows_fetched (calls : Nat) :
    (RowIteration.fetched res calls).rows.length = res.rows.length := by
  rw [fetched_eq]
  by_cases h : 0 < staticCastInt res.rows.length
  · rw [readResult_eq res h, List.length_map]
  · have hzero : res.rows.length = 0 := by
      rw [Int32.lt_iff_toInt_lt, staticCastInt, Int32.toInt_ofNat_of_lt hn, Int32.toInt_zero] at h
      omega
    rw [readResult_rows_of_nonpos res h, hzero]
    rfl

theorem fetchRow_fetched (hc : calls < 2 ^ 31) :
    (RowIteration.fetched res calls).fetchRow.1 = decide (calls < res.rows.length) := by
  have hcursor : (RowIteration.fetched res calls).currentRow + 1 = staticCastInt calls := by
    rw [fetched_eq, Int32.sub_add_cancel]
  rw [ResultEntry.fetchRow, hcursor, rows_fetched hn, decide_eq_decide, staticCastInt, staticCastInt,
    Int32.ofNat_lt_iff_lt hc hn]

omit hn

variable (hi : s.resultController.atId resultId.value.toUInt32 = some (RowIteration.fetched res calls))

include hi

theorem fetchFieldAs_fetched {field : Param} {f : Field}
    (hname : amxStrParam field = some f.name) (hne : f.name ≠ []) {data : FieldData}
    {pointer : FieldPointer}
    (hf : (RowIteration.fetched res calls).fetchField f.name .unknown =
      (toColumnType f.type, some pointer))
    (hv : (RowIteration.fetched res calls).read pointer = some (storedValue data f.type))
    (expected : ColumnType) (result : FieldValue → FieldOutcome) :
    s.fetchFieldAs expected resultId field result =
      if toColumnType f.type = expected then result (storedValue data f.type)
      else .returned 0 none := by
  have hlen : f.name.length ≠ 0 := by rwa [Ne, List.length_eq_zero_iff]
  simp only [Plugin.fetchFieldAs, hi, hname, hlen, if_false, hf, hv]
  split_ifs <;> first | rfl | contradiction

end

theorem showsRows_of_atId {s : Plugin} {id : UInt32} {res : StoredResult} {calls : Nat}
    (hm : res.fields.length < 2 ^ 31) (hn : res.rows.length < 2 ^ 31)
    (hi : s.resultController.atId id = some (RowIteration.fetched res calls)) :
    ShowsRows s id res calls where
  numRows := by
    rintro resultId rfl
    simp only [Plugin.mysqlNumRows, Plugin.readEntry, hi]
    rw [ResultEntry.numRows, rows_fetched hn]
  fetchRow := by
    rintro resultId rfl hc
    simp only [Plugin.mysqlFetchRow, hi, fetchRow_fetched hn hc, decide_eq_true_eq]
    exact ⟨_, rfl⟩
  field := by
    rintro resultId field u f row rfl rfl hrow hlast hu hne hname
    obtain ⟨resultRow, data, value, pointer, hr, hd, hp, hf, hv⟩ :=
      shows_of_lastAt hm (Nat.zero_lt_of_lt hrow) hn hrow hlast hu
    rw [pushField_toColumnType, RowInfo.mk.injEq] at hp
    obtain rfl : storedValue data f.type = value := List.singleton_inj.mp hp
    have h := fetchFieldAs_fetched hi hname hne hf hv
    refine ⟨resultRow, data, hr, hd, ?_, ?_, ?_⟩
    · rw [Plugin.mysqlFetchFieldInt, h]
      split_ifs with ht
      · simp [storedValue, ht]
      · rfl
    · intro amxFtoc
      rw [Plugin.mysqlFetchFieldFloat, h]
      split_ifs with ht
      · simp [storedValue, ht]
      · rfl
    · intro buffer bufferSize
      rw [Plugin.mysqlFetchFieldString, h]
      split_ifs with ht
      · simp [storedValue, ht]
      · rfl

/-- What the natives report of a query without rows: the counts, as far as a cell
holds them. -/
structure ShowsCounts (s : Plugin) (id : UInt32) (answer : QueryAnswer) (calls : Nat) : Prop where
  affectedRows : ∀ resultId : Param, resultId.value.toUInt32 = id →
    s.mysqlAffectedRows [resultId] = .returned s answer.affectedRows.toUInt32.toInt32 none
  insertId : ∀ resultId : Param, resultId.value.toUInt32 = id →
    s.mysqlInsertId [resultId] = .returned s answer.insertId.toUInt32.toInt32 none
  numRows : ∀ resultId : Param, resultId.value.toUInt32 = id →
    s.mysqlNumRows [resultId] = .returned s 0 none
  fetchRow : ∀ resultId : Param, resultId.value.toUInt32 = id → calls < 2 ^ 31 →
    ∃ s', s.mysqlFetchRow [resultId] = .returned s' 0 none

theorem iterate_fetchRow (entry : ResultEntry) (calls : Nat) :
    (fun entry : ResultEntry => entry.fetchRow.2)^[calls] entry =
      { entry with currentRow := entry.currentRow + staticCastInt calls } := by
  induction calls with
  | zero => exact congrArg (ResultEntry.mk _ _ · _ _) (Int32.add_zero _).symm
  | succ calls ih =>
      have hn : staticCastInt (calls + 1) = staticCastInt calls + 1 := Int32.ofNat_add calls 1
      rw [Function.iterate_succ_apply', ih, ResultEntry.fetchRow, hn, Int32.add_assoc]

theorem showsCounts_of_atId {s : Plugin} {id : UInt32} {answer : QueryAnswer} {calls : Nat}
    (hi : s.resultController.atId id =
      some ((fun entry => entry.fetchRow.2)^[calls] (readAffected answer))) :
    ShowsCounts s id answer calls := by
  rw [iterate_fetchRow] at hi
  constructor
  · rintro resultId rfl
    simp only [Plugin.mysqlAffectedRows, Plugin.readEntry, hi]
    rfl
  · rintro resultId rfl
    simp only [Plugin.mysqlInsertId, Plugin.readEntry, hi]
    rfl
  · rintro resultId rfl
    simp only [Plugin.mysqlNumRows, Plugin.readEntry, hi]
    rfl
  · rintro resultId rfl hc
    have hcursor : -1 + staticCastInt calls + 1 = staticCastInt calls := by
      rw [Int32.add_comm (-1), Int32.add_assoc]
      exact Int32.add_zero _
    have hnot : ¬ staticCastInt calls < staticCastInt 0 := by
      rw [staticCastInt, staticCastInt, Int32.ofNat_lt_iff_lt hc (by decide)]
      omega
    simp only [Plugin.mysqlFetchRow, hi]
    simp only [ResultEntry.fetchRow, readAffected, ResultEntry.new, List.length_nil, hcursor, hnot,
      decide_false]
    exact ⟨_, rfl⟩

def ShowsAnswer (s : Plugin) (id : UInt32) (answer : QueryAnswer) (calls : Nat) : Prop :=
  match answer.storeResult with
  | some res =>
      res.fields.length < 2 ^ 31 → res.rows.length < 2 ^ 31 → ShowsRows s id res calls
  | none => ShowsCounts s id answer calls

theorem showsAnswer_of_atId {s : Plugin} {id : UInt32} {answer : QueryAnswer} {calls : Nat}
    (hi : s.resultController.atId id =
      some ((fun entry => entry.fetchRow.2)^[calls] (entryOf answer))) :
    ShowsAnswer s id answer calls := by
  unfold ShowsAnswer
  unfold entryOf at hi
  split
  next res h =>
    rw [h] at hi
    exact fun hm hn => showsRows_of_atId hm hn hi
  next h =>
    rw [h] at hi
    exact showsCounts_of_atId hi

theorem success_of_queued {tr : List HostEvent} {c : ConnectionClient} (ha : Accounted tr c)
    {message : SucceededQueryResult} (hm : message ∈ c.succeededQueryQueue) :
    ∃ q id, q ∈ executed tr ∧ DueSuccess q ∧ q.resultId = some id ∧
      message = successMessage q.information id := by
  have hsome : some message ∈ (handedSuccesses tr ++ c.succeededQueryQueue).map some :=
    List.mem_map_of_mem (List.mem_append_right _ hm)
  rw [ha.successes] at hsome
  obtain ⟨q, hq, he⟩ := List.mem_map.mp hsome
  obtain ⟨hq, hdue⟩ := List.mem_filter.mp hq
  obtain ⟨id, hid, rfl⟩ := Option.map_eq_some_iff.mp he
  exact ⟨q, id, hq, of_decide_eq_true hdue, hid, rfl⟩

theorem registered_of_message {tr : List PluginEvent} {s : Plugin} {p : Nat} {h : ConnectionHost}
    (hp : Projects tr s) (hh : s.hosts[p]? = some h) {message : SucceededQueryResult}
    (hm : message ∈ h.client.succeededQueryQueue) :
    ∃ q r, DueSuccess q ∧ q.information ∈ submitted (history p tr) ∧
      (q.information, q.executionType, q.answer) ∈ queried (history p tr) ∧
      message = successMessage q.information (messageId message) ∧
      r ∈ registered tr ∧ r.id = messageId message ∧ r.entry = entryOf q.answer := by
  have ha := accounted_of_host hp hh
  obtain ⟨q, id, hq, hdue, hid, rfl⟩ := success_of_queued ha hm
  rw [messageId_successMessage]
  have hr : (q.information, entryOf q.answer, id) ∈ registrations (history p tr) := by
    rw [ha.registered]
    exact List.mem_filterMap.mpr
      ⟨q, List.mem_append_left _ hq, by rw [registration, hid, Option.map_some]⟩
  rw [registrations_history] at hr
  obtain ⟨r, hmem, he⟩ := List.mem_map.mp hr
  simp only [Prod.mk.injEq] at he
  have hqueried : (q.information, q.executionType, q.answer) ∈ queried (history p tr) := by
    rw [ha.calls]
    exact List.mem_append_left _ (List.mem_map_of_mem hq)
  have hsubmitted : q.information ∈ submitted (history p tr) := by
    rw [ha.submissions]
    exact List.mem_append_left _ (List.mem_map_of_mem hq)
  exact ⟨q, r, hdue, hsubmitted, hqueried, rfl, (List.mem_filter.mp hmem).1, he.2.2, he.2.1⟩

/-- From the callback on, in any run and whatever else happens in it, the natives
report to a script that was handed a result, and has not freed it, of the answer
that the server gave to the query of that callback, which a native has accepted for
the same connection: its counts, its rows, and the columns whose names lead to
themselves. The cursor is where the calls of mysql_fetch_row have put it. -/
theorem script_reads_answer (lib : Externals) (acts : List PluginAction)
    {before after : List PluginEvent} {p : Nat} {message : SucceededQueryResult} {index : Int32}
    (htr : (run (Plugin.step lib) Plugin.new acts).1 =
      before ++ .host p (.callback message (some index)) :: after)
    (hb : (registered (run (Plugin.step lib) Plugin.new acts).1).length < 2 ^ 32)
    (hfetch : messageId message ∉ ResultHistory.fetched before)
    (hf : messageId message ∉ freed (run (Plugin.step lib) Plugin.new acts).1) :
    ∃ q, DueSuccess q ∧ q.information ∈ accepted p before ∧
      (q.information, .normalExecution, q.answer) ∈ queried (history p before) ∧
      message = successMessage q.information (messageId message) ∧
      ShowsAnswer (run (Plugin.step lib) Plugin.new acts).2 (messageId message) q.answer
        ((ResultHistory.fetched after).count (messageId message)) := by
  have hr := reach_run (Plugin.step lib) Plugin.new acts
  have hall := reach_atId hr (messageId message)
  have hnodup := (reach_numbered hr).nodup hb
  rw [htr] at hr hall hnodup hf
  obtain ⟨t, a, t', hbefore, hs⟩ := hr.split
  obtain ⟨-, h, hh, hm⟩ := queued_of_callback (pluginStep_of_step hs) rfl
  obtain ⟨q, r, hdue, hsubmitted, hq, hmessage, hreg, hid, hentry⟩ :=
    registered_of_message (reach_projects hbefore) hh hm
  rw [hdue.1] at hq
  rw [← accepted_eq_submitted hbefore p] at hsubmitted
  refine ⟨q, hdue, hsubmitted, hq, hmessage, showsAnswer_of_atId ?_⟩
  rw [← hid] at hall hfetch hf ⊢
  rw [registered, List.filterMap_append, List.map_append] at hnodup
  rw [freed, List.filterMap_append, List.mem_append, not_or] at hf
  have hr₀ := entry_of_registered hnodup.of_append_left hreg hf.1 hfetch
  rw [hall, List.foldl_append, hr₀, foldl_entryStep ?_ hf.2, hentry]
  · rfl
  · exact fun hm => hnodup.disjoint (List.mem_map_of_mem hreg) hm

def selectOne : List PluginAction :=
  let answer : QueryAnswer :=
    { QueryAnswer.empty with
      storeResult := some ⟨[⟨[110], .longlong⟩], [[some [55]]], by decide, by decide⟩ }
  [.native 1 .connect [.text "h", .text "u", .text "p", .text "d", .number 3306]] ++
    clientTurns 0 11 .empty ++ [.native 1 .query [.number 1, .text "q", .text "c", .number 0]] ++
    clientTurns 0 8 answer ++ List.replicate 11 .processTick ++
    List.replicate 7 (.tick fun _ => some 5) ++ [.native 1 .fetchRow [.number 1]]

theorem script_reads_answer_selectOne :
    ∃ q, DueSuccess q ∧
      ShowsAnswer (run (Plugin.step plainText) Plugin.new selectOne).2 1 q.answer 1 := by
  let tr := (run (Plugin.step plainText) Plugin.new selectOne).1
  have htr : tr = tr.take 38 ++ .host 0 (.callback ⟨[99], 1, 0⟩ (some 5)) :: tr.drop 39 := rfl
  obtain ⟨q, hdue, -, -, -, hs⟩ := script_reads_answer plainText selectOne htr (by decide)
    (by decide) (by decide)
  exact ⟨q, hdue, hs⟩

end MysqlPlugin.ScriptReads
