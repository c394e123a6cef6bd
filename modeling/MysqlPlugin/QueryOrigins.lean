import MysqlPlugin.NativeQueries
import MysqlPlugin.ParameterFidelity

namespace MysqlPlugin.QueryOrigins

open HostHistory NativeQueries ParameterFidelity QueryAccounting QueryBuilder StatementExecution
  StatementHistory StatementStructure Substitution Template Transition

/-- What the parameter loop makes of an argument, as far as its address is known. -/
def parameterOf (lib : Externals) (parameterType : UInt8) (argument : Param) : Parameter :=
  match argument.address with
  | none => .number []
  | some (cell, text) =>
      if parameterType = 115 then .string (cString (text.take 255))
      else if parameterType = 105 then .number (decimal cell)
      else .number (lib.formatFloat cell)

def parametersOf (lib : Externals) (types : List UInt8) (arguments : List Param) : List Parameter :=
  (types.zip arguments).map fun p => parameterOf lib p.1 p.2

/-- The text of a float has digits, a sign and a point, or letters. -/
def PlainFloats (lib : Externals) : Prop :=
  ∀ cell, ∀ b ∈ lib.formatFloat cell, b ≠ 0 ∧ b ≠ 34 ∧ b ≠ 39 ∧ b ≠ 96 ∧ b ≠ 92

/-- The query is the template filled with the arguments. Where every mark of the
template is outside of quotes, so that a server can take a value there, what it
reads outside of quotes does not depend on the strings among the arguments, and
each of these is one quoted region. -/
structure Fills (lib : Externals) (statement : Statement) (arguments : List Param)
    (query : Bytes) : Prop where
  count : statement.parameters.length = arguments.length
  built : build statement (renderAll lib (parametersOf lib statement.parameters arguments)) [] =
    (true, query)
  reading : MarksAt quoting 63 .plain .plain statement.query → ∃ emptied,
    build statement
        (renderAll lib ((parametersOf lib statement.parameters arguments).map Parameter.emptied)) [] =
      (true, emptied) ∧
    readIn quoting .plain .plain query = readIn quoting .plain .plain emptied
  regions : MarksAt quoting 63 .plain .plain statement.query → ∀ u v, statement.query = u ++ 63 :: v →
    statement.parameters[u.count 63]? = some 115 → ∃ x text y, query = x ++ text ++ y ∧
      quoting.evalFrom .plain x = .plain ∧ OneRegion text

/-- Where a query comes from that was handed to a connection: from a script that
gave its text as it is, or gave the arguments of a statement prepared before. -/
inductive Origin (lib : Externals) (past : List PluginEvent) (pointer : Nat)
    (information : QueryInformation) : Prop
  | verbatim (amx : Amx) (connectionId query callback dataId : Param)
      (hcall : .returned amx .query [connectionId, query, callback, dataId] 1
        (some (pointer, .querySubmitted information)) ∈ past)
      (hq : amxStrParam query = some information.query)
  | filled (amx : Amx) (connectionId statementId callback dataId : Param) (arguments : List Param)
      (statement : Statement)
      (hcall : .returned amx .statementExecute
        (connectionId :: statementId :: callback :: dataId :: arguments) 1
        (some (pointer, .querySubmitted information)) ∈ past)
      (hs : (statementId.value.toUInt32, statement) ∈ prepared past)
      (hf : Fills lib statement arguments information.query)

theorem decimal_plain (value : Cell) :
    ∀ b ∈ decimal value, b ≠ 34 ∧ b ≠ 39 ∧ b ≠ 96 ∧ b ≠ 92 := by
  have hplain {n : Nat} {b : UInt8} (hb : b ∈ Decimal.digits 0 n) :
      b ≠ 34 ∧ b ≠ 39 ∧ b ≠ 96 ∧ b ≠ 92 := by
    have hbounds := Decimal.bounds_of_mem_digits hb
    refine ⟨?_, ?_, ?_, ?_⟩ <;> rintro rfl <;> simp at hbounds
  intro b hb
  rw [decimal_eq] at hb
  split at hb
  · exact hplain hb
  · rcases List.mem_cons.mp hb with rfl | hb
    · decide
    · exact hplain hb

section

variable {lib : Externals} (hlib : BackslashEscaping lib.mysqlEscapeString) (hfloat : PlainFloats lib)

include hlib hfloat

theorem parameter_of_converts {p : UInt8 × Param} {parameter : Bytes} (h : Converts lib p parameter) :
    (parameterOf lib p.1 p.2).Admissible ∧ (parameterOf lib p.1 p.2).render lib = some parameter := by
  obtain ⟨cell, text, ha, hread⟩ := h
  rw [parameterOf, ha]
  by_cases hs : p.1 = 115
  · rw [hs, readParameter_string hlib, ← cString_take] at hread
    cases hread
    have hz := zero_notMem_cString (text.take 255)
    have hl : (cString (text.take 255)).length ≤ 255 :=
      (cString_length_le _).trans (List.length_take_le ..)
    simp only [hs, if_true]
    exact ⟨⟨hz, hl⟩, escapeStringParameter_eq hlib hz hl⟩
  · rw [readParameter, if_neg hs] at hread
    simp only [if_neg hs]
    split_ifs at hread ⊢
    · cases hread
      exact ⟨decimal_plain cell, rfl⟩
    · cases hread
      exact ⟨fun b hb => (hfloat cell b hb).2, rfl⟩

theorem parameters_of_read {types : List UInt8} {arguments : List Param} {parameters : List Bytes}
    (h : readParameters lib types arguments = .read parameters) :
    (∀ p ∈ parametersOf lib types arguments, p.Admissible) ∧
      renderAll lib (parametersOf lib types arguments) = parameters := by
  have hall := forall₂_of_readParameters h
  clear h
  rw [parametersOf]
  generalize types.zip arguments = pairs at hall
  induction hall with
  | nil => exact ⟨List.forall_mem_nil _, rfl⟩
  | cons hc _ ih =>
      obtain ⟨ha, hrender⟩ := parameter_of_converts hlib hfloat hc
      constructor
      · exact List.forall_mem_cons.mpr ⟨ha, ih.1⟩
      · rw [List.map_cons, renderAll, List.filterMap_cons_some hrender]
        exact congrArg _ ih.2

omit hlib hfloat in
theorem string_of_read {types : List UInt8} {arguments : List Param} {parameters : List Bytes}
    (h : readParameters lib types arguments = .read parameters) {i : Nat} (ht : types[i]? = some 115)
    {p : Parameter} (hp : (parametersOf lib types arguments)[i]? = some p) : ∃ t, p = .string t := by
  have hall := forall₂_of_readParameters h
  rw [parametersOf, List.getElem?_map] at hp
  obtain ⟨⟨type, argument⟩, hz, rfl⟩ := Option.map_eq_some_iff.mp hp
  obtain ⟨hi, hget⟩ := List.getElem?_eq_some_iff.mp hz
  obtain ⟨cell, text, haddress, -⟩ := hall.get hi (hall.length_eq ▸ hi)
  obtain rfl : (115 : UInt8) = type :=
    Option.some.inj (ht.symm.trans (List.getElem?_zip_eq_some.mp hz).1)
  rw [List.get_eq_getElem, hget] at haddress
  refine ⟨cString (text.take 255), ?_⟩
  rw [parameterOf, haddress]
  rfl

theorem fills_of_read {statement : Statement} {arguments : List Param} {parameters : List Bytes}
    {query : Bytes} (hl : statement.parameters.length = arguments.length)
    (hread : readParameters lib statement.parameters arguments = .read parameters)
    (hquery : substitute 63 statement.query parameters = some query) :
    Fills lib statement arguments query := by
  obtain ⟨hadm, rfl⟩ := parameters_of_read hlib hfloat hread
  generalize hps : parametersOf lib statement.parameters arguments = ps at *
  have hadm₀ := emptied_admissible hadm
  refine ⟨hl, ?_, fun hplain => ?_, fun hplain u v hu ht => ?_⟩
  · rw [hps]
    exact build_of_substitute hquery []
  · -- as many parameters, so the template does not run out of them either
    obtain ⟨emptied, he⟩ : ∃ emptied,
        substitute 63 statement.query (renderAll lib (ps.map Parameter.emptied)) = some emptied := by
      rw [← Option.isSome_iff_exists, substitute_isSome_iff, length_renderAll hlib hadm₀,
        List.length_map, ← length_renderAll hlib hadm, ← substitute_isSome_iff, hquery]
      rfl
    refine ⟨emptied, hps ▸ build_of_substitute he [], ?_⟩
    apply readIn_substitute mark_plain hplain
    · exact renderAll_plain hlib hadm
    · exact renderAll_plain hlib hadm₀
    · rw [readIn_renderAll hlib hadm, readIn_renderAll hlib hadm₀, List.map_map]
      exact List.map_congr_left fun p _ => p.outside_emptied.symm
    · exact hquery
    · exact he
  · obtain ⟨x, p, text, y, -, hp, -, hq, hx, -, hone⟩ :=
      region_at_mark hlib (hu ▸ hplain) hadm (hu ▸ hquery)
    obtain ⟨t, rfl⟩ := string_of_read hread ht (hps ▸ hp)
    exact ⟨x, text, y, hq, hx, hone t rfl⟩

end

theorem prepared_of_statementOf {tr : List PluginEvent} {id : UInt32} {statement : Statement}
    (h : statementOf tr id = some statement) : (id, statement) ∈ prepared tr := by
  obtain ⟨⟨id', statement'⟩, hf, rfl⟩ := Option.map_eq_some_iff.mp h
  have hid : id' = id := by simpa using List.find?_some hf
  exact hid ▸ List.mem_of_find?_eq_some hf

theorem query_of_mysqlQuery {s s' : Plugin} {params : List Param} {value : Cell} {pointer : Nat}
    {information : QueryInformation}
    (h : s.mysqlQuery params = .returned s' value (some (pointer, .querySubmitted information))) :
    ∃ connectionId query callback dataId, params = [connectionId, query, callback, dataId] ∧
      amxStrParam query = some information.query := by
  unfold Plugin.mysqlQuery at h
  split at h
  next connectionId query callback dataId =>
    split at h
    next q text hc hq =>
      cases touched_of_query h
      exact ⟨connectionId, query, callback, dataId, rfl, hq⟩
    next => cases h
  next => cases h

theorem params_of_mysqlStatementExecute {lib : Externals} {s s' : Plugin} {params : List Param}
    {value : Cell} {touched : Nat × HostEvent}
    (h : s.mysqlStatementExecute lib params = .returned s' value (some touched)) :
    ∃ connectionId statementId callback dataId arguments,
      params = connectionId :: statementId :: callback :: dataId :: arguments := by
  unfold Plugin.mysqlStatementExecute at h
  split at h
  next => exact ⟨_, _, _, _, _, rfl⟩
  next => cases h

theorem origin_of_accepted {lib : Externals} (hlib : BackslashEscaping lib.mysqlEscapeString)
    (hfloat : PlainFloats lib) {tr : List PluginEvent} {s s' : Plugin} {a : PluginAction}
    {e : PluginEvent} (hr : Reach (Plugin.step lib) Plugin.new tr s)
    (hs : Plugin.step lib s a = some (s', e)) {pointer : Nat} {information : QueryInformation}
    (he : acceptedRequest pointer e = some information) :
    Origin lib (tr ++ [e]) pointer information := by
  have hmem : e ∈ tr ++ [e] := by simp
  cases pluginStep_of_step hs with
  | query amx native params id q request h h' e ht hn hc hh hstep =>
      cases (hostStep_of_step hstep).2
      have hcall := callNative_of_step ht hs
      simp only [acceptedRequest, hn, true_and] at he
      split_ifs at he with hq
      cases he
      subst hq
      cases native with
      | query =>
          obtain ⟨connectionId, query, callback, dataId, rfl, hq⟩ := query_of_mysqlQuery hcall
          exact .verbatim amx connectionId query callback dataId hmem hq
      | statementExecute =>
          obtain ⟨connectionId, statementId, callback, dataId, arguments, rfl⟩ :=
            params_of_mysqlStatementExecute hcall
          obtain ⟨_, statement, parameters, query, hst, hl, hread, hquery, hq⟩ := of_returned_one hcall
          cases hq
          have hrecorded := reach_recorded hr
          have hp := prepared_of_statementOf ((hrecorded.statementOf_eq _).trans hst)
          have hz := (hrecorded.notMem statement (List.mem_of_getElem? hst)).1
          have hc := cString_query hlib (fun cell h0 => (hfloat cell 0 h0).1 rfl) hz hread hquery
          refine .filled amx connectionId statementId callback dataId arguments statement hmem ?_ ?_
          · rw [prepared_snoc]
            exact List.mem_append_left _ hp
          · simp only [hc]
            exact fills_of_read hlib hfloat hl hread hquery
      | _ => simp [Native.submits] at hn
  | stopped amx params q h h' e ht hh hstep =>
      cases (hostStep_of_step hstep).2
      simp [acceptedRequest] at he
  | _ => simp [acceptedRequest] at he

theorem Origin.mono {lib : Externals} {past : List PluginEvent} {pointer : Nat}
    {information : QueryInformation} (h : Origin lib past pointer information)
    (es : List PluginEvent) : Origin lib (past ++ es) pointer information := by
  cases h with
  | verbatim amx connectionId query callback dataId hcall hq =>
      exact .verbatim amx connectionId query callback dataId (List.mem_append_left _ hcall) hq
  | filled amx connectionId statementId callback dataId arguments statement hcall hs hf =>
      refine .filled amx connectionId statementId callback dataId arguments statement
        (List.mem_append_left _ hcall) ?_ hf
      rw [prepared, List.filterMap_append]
      exact List.mem_append_left _ hs

theorem submitted_of_queried {script : Script} {id : UInt32} {past : List HostEvent}
    {h h' : ConnectionHost} {a : HostAction} {now : Nat} {information : QueryInformation}
    {executionType : ExecutionType} {answer : QueryAnswer}
    (hr : Reach ConnectionHost.step (ConnectionHost.new script id) past h)
    (hs : ConnectionHost.step h a =
      some (h', .client now (.queried information executionType answer))) :
    information ∈ submitted past := by
  rw [(reach_accounted hr).submissions]
  cases (hostStep_of_step hs).2 with
  | client results input e c hc =>
      cases hc with
      | query information caller answer hp => simp [hp, inHand]

/-- No query reaches the server that a script has not written. Where all marks of a
prepared statement are outside of quotes, the strings that it is filled with do not
change how the query is read. -/
theorem queries_originate {lib : Externals} (hlib : BackslashEscaping lib.mysqlEscapeString)
    (hfloat : PlainFloats lib) (acts : List PluginAction) :
    Always (fun past e => ∀ pointer now information executionType answer,
        hostEvent e = some (pointer, .client now (.queried information executionType answer)) →
        Origin lib past pointer information) (run (Plugin.step lib) Plugin.new acts).1 := by
  refine reach_always (fun {tr s a s' e} hr hs => ?_) (reach_run (Plugin.step lib) Plugin.new acts)
  intro pointer now information executionType answer he
  have hmem : information ∈ accepted pointer tr := by
    rw [accepted_eq_submitted hr pointer]
    cases hostsStep_of_pluginStep (pluginStep_of_step hs) with
    | same hn => simp [hn] at he
    | created _ _ _ hc => simp [hc] at he
    | moved q h h' a' e' hh hstep hm =>
        cases hm.symm.trans he
        obtain ⟨script, id, hreach⟩ := (reach_projects hr).run pointer h hh
        exact submitted_of_queried hreach hstep
  obtain ⟨e₀, he₀, ha⟩ := List.mem_filterMap.mp hmem
  have horigins : Always (fun past e => ∀ pointer information,
      acceptedRequest pointer e = some information →
      Origin lib (past ++ [e]) pointer information) tr :=
    reach_always (fun hr hs _ _ => origin_of_accepted hlib hfloat hr hs) hr
  obtain ⟨before, rest, rfl, ho⟩ := always_mem horigins he₀
  have horigin := (ho pointer information ha).mono rest
  rwa [List.append_assoc, List.singleton_append] at horigin

def preparedAndExecuted : List PluginAction :=
  [.native 1 .connect [.text "h", .text "u", .text "p", .text "d", .number 3306],
    .native 1 .statementPrepare [.text "a=?", .text "s"]] ++ clientTurns 0 9 .empty ++
    [.native 1 .statementExecute [.number 1, .number 0, .text "c", .number 5, .text "\\"]] ++
    clientTurns 0 9 .empty

theorem queries_originate_backslashes :
    Always (fun past e => ∀ pointer now information executionType answer,
        hostEvent e = some (pointer, .client now (.queried information executionType answer)) →
        Origin backslashes past pointer information)
      (run (Plugin.step backslashes) Plugin.new preparedAndExecuted).1 := by
  have hfloat : PlainFloats backslashes := by
    intro cell b hb
    cases hb
  exact queries_originate backslashEscaping_backslashes hfloat preparedAndExecuted

end MysqlPlugin.QueryOrigins
