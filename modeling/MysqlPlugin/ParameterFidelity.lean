import MysqlPlugin.Decimal
import MysqlPlugin.StatementExecution
import MysqlPlugin.StatementStructure

namespace MysqlPlugin.ParameterFidelity

open Decimal QueryBuilder StatementExecution StatementHistory StatementStructure Substitution Template
  Transition

/-- What the server reads for a backslash and the byte behind it. The escapes of
the two wildcards keep their backslash outside of patterns. -/
def unescapeByte (b : UInt8) : Bytes :=
  if b = 48 then [0]
  else if b = 98 then [8]
  else if b = 110 then [10]
  else if b = 114 then [13]
  else if b = 116 then [9]
  else if b = 90 then [26]
  else if b = 37 ∨ b = 95 then [92, b]
  else [b]

/-- The rest of a literal, up to the closing quote at its end. Two quotes in a row
stand for one. -/
def unquoteRest : Bytes → Option Bytes
  | [] => none
  | [b] => if b = 34 then some [] else none
  | b :: c :: rest =>
      if b = 92 then (unquoteRest rest).map (unescapeByte c ++ ·)
      else if b = 34 then if c = 34 then (unquoteRest rest).map (34 :: ·) else none
      else (unquoteRest (c :: rest)).map (b :: ·)

/-- The value of a double-quoted literal of SQL; none where the text is not one. -/
def unquote : Bytes → Option Bytes
  | [] => none
  | b :: rest => if b = 34 then unquoteRest rest else none

theorem unquoteRest_escapeByte (b : UInt8) {rest : Bytes} (hn : rest ≠ []) :
    unquoteRest (escapeByte b ++ rest) = (unquoteRest rest).map (b :: ·) := by
  obtain ⟨c, rest, rfl⟩ := List.exists_cons_of_ne_nil hn
  rw [escapeByte]
  split_ifs with h0 h1 h2 h3 h4
  · simp [h0, unquoteRest, unescapeByte]
  · simp [h1, unquoteRest, unescapeByte]
  · simp [h2, unquoteRest, unescapeByte]
  · simp [h3, unquoteRest, unescapeByte]
  · rcases h4 with rfl | rfl | rfl <;> simp [unquoteRest, unescapeByte]
  · rw [not_or, not_or] at h4
    simp [unquoteRest, h4]

theorem unquote_literal (text : Bytes) : unquote (literal text) = some text := by
  rw [literal, unquote, if_pos rfl]
  induction text with
  | nil => rfl
  | cons b text ih =>
      rw [List.flatMap_cons, List.append_assoc, unquoteRest_escapeByte b (by simp), ih, Option.map_some]

theorem decimal_eq (value : Cell) :
    decimal value =
      if 0 ≤ value.toInt then digits 0 value.toInt.toNat else 45 :: digits 0 (-value.toInt).toNat := by
  rw [decimal, Int.toString_eq_repr, Int.repr_eq_if]
  split
  · rfl
  · simp [digits, Script.ascii]

theorem zero_notMem_decimal (value : Cell) : 0 ∉ decimal value := by
  rw [decimal_eq]
  split
  · exact zero_notMem_digits 0 _
  · simp [zero_notMem_digits]

theorem atoi_decimal (value : Cell) : atoi (decimal value) = value := by
  have hle : value.toInt < 2 ^ 31 := value.toInt_lt
  have hge : -2 ^ 31 ≤ value.toInt := value.le_toInt
  rw [decimal_eq]
  split
  next h =>
    have hv : max (-2147483648) (min 2147483647 (value.toInt.toNat : Int)) = value.toInt := by omega
    rw [atoi_digits, hv, Int32.ofInt_toInt]
  next h =>
    have hv : max (-2147483648) (min 2147483647 (-((-value.toInt).toNat : Int))) = value.toInt := by
      omega
    rw [atoi_minus_digits, hv, Int32.ofInt_toInt]

/-- The text p holds what a script passed: a number in decimal, or a literal whose
value is the string with only so many of its bytes kept. -/
def Holds (kept : Bytes → Bytes) (parameterType : UInt8) (argument : Param) (p : Bytes) : Prop :=
  ∃ cell text, argument.address = some (cell, text) ∧
    (parameterType = 105 → p = decimal cell ∧ atoi p = cell) ∧
    (parameterType = 115 → unquote p = some (kept (cString text)))

/-- In the place of each question mark, between the texts that are made of what
stands in front of it and behind it, the query holds the argument of that mark. -/
def Carries (kept : Bytes → Bytes) (statement : Statement) (arguments : List Param)
    (parameters : List Bytes) (query : Bytes) : Prop :=
  ∀ u v, statement.query = u ++ 63 :: v → ∃ x p y parameterType argument,
    substitute 63 u parameters = some x ∧
      substitute 63 v (parameters.drop (u.count 63 + 1)) = some y ∧ query = x ++ p ++ y ∧
      statement.parameters[u.count 63]? = some parameterType ∧
      arguments[u.count 63]? = some argument ∧ Holds kept parameterType argument p

theorem cString_take (text : Bytes) (n : Nat) : cString (text.take n) = (cString text).take n := by
  rw [cString, cString, List.take_takeWhile]

section

variable {lib : Externals} (hlib : BackslashEscaping lib.mysqlEscapeString)

include hlib

theorem readParameter_string (cell : Cell) (text : Bytes) :
    readParameter lib 115 cell text = .read [literal ((cString text).take 255)] := by
  have hlen : ((cString text).take 255).length ≤ 255 := List.length_take_le ..
  have hz : 0 ∉ (cString text).take 255 := fun h =>
    zero_notMem_cString text (List.mem_of_mem_take h)
  rw [readParameter, if_neg (by decide), if_neg (by decide), if_pos rfl, cString_take,
    escapeStringParameter_eq hlib hz hlen]

theorem holds_of_converts {p : UInt8 × Param} {parameter : Bytes} (h : Converts lib p parameter) :
    Holds (List.take 255) p.1 p.2 parameter := by
  obtain ⟨cell, text, ha, hread⟩ := h
  refine ⟨cell, text, ha, fun hi => ?_, fun hs => ?_⟩
  · rw [hi, readParameter, if_pos rfl] at hread
    cases hread
    exact ⟨rfl, atoi_decimal cell⟩
  · rw [hs, readParameter_string hlib] at hread
    cases hread
    exact unquote_literal _

theorem zero_notMem_of_converts (hfloat : ∀ cell, 0 ∉ lib.formatFloat cell) {p : UInt8 × Param}
    {parameter : Bytes} (h : Converts lib p parameter) : 0 ∉ parameter := by
  obtain ⟨cell, text, -, hread⟩ := h
  by_cases hs : p.1 = 115
  · rw [hs, readParameter_string hlib] at hread
    cases hread
    have hz := zero_notMem_escape ((cString text).take 255)
    rw [literal]
    simpa using hz
  · rw [readParameter, if_neg hs] at hread
    split_ifs at hread
    · cases hread
      exact zero_notMem_decimal cell
    · cases hread
      exact hfloat cell

end

theorem converts_at {lib : Externals} {types : List UInt8} {arguments : List Param}
    {parameters : List Bytes} (h : readParameters lib types arguments = .read parameters) {i : Nat}
    {p : Bytes} (hp : parameters[i]? = some p) :
    ∃ parameterType argument, types[i]? = some parameterType ∧ arguments[i]? = some argument ∧
      Converts lib (parameterType, argument) p := by
  have hall := forall₂_of_readParameters h
  obtain ⟨hi, rfl⟩ := List.getElem?_eq_some_iff.mp hp
  have hz : i < (types.zip arguments).length := by
    rw [hall.length_eq]
    exact hi
  obtain ⟨ht, ha⟩ := List.getElem?_zip_eq_some.mp (List.getElem?_eq_getElem hz)
  exact ⟨_, _, ht, ha, hall.get hz hi⟩

theorem carries_of_read {lib : Externals} (hlib : BackslashEscaping lib.mysqlEscapeString)
    {statement : Statement} {arguments : List Param} {parameters : List Bytes} {query : Bytes}
    (hread : readParameters lib statement.parameters arguments = .read parameters)
    (hquery : substitute 63 statement.query parameters = some query) :
    Carries (List.take 255) statement arguments parameters query := by
  intro u v hu
  rw [hu] at hquery
  obtain ⟨x, p, y, hx, hp, hy, hq⟩ := substitute_at_mark hquery
  obtain ⟨parameterType, argument, ht, ha, hc⟩ := converts_at hread hp
  exact ⟨x, p, y, parameterType, argument, hx, hy, hq, ht, ha, holds_of_converts hlib hc⟩

theorem cString_query {lib : Externals} (hlib : BackslashEscaping lib.mysqlEscapeString)
    (hfloat : ∀ cell, 0 ∉ lib.formatFloat cell) {statement : Statement} {arguments : List Param}
    {parameters : List Bytes} {query : Bytes} (hz : 0 ∉ statement.query)
    (hread : readParameters lib statement.parameters arguments = .read parameters)
    (hquery : substitute 63 statement.query parameters = some query) : cString query = query := by
  apply cString_eq_self
  refine notMem_substitute hz (fun p hp => ?_) hquery
  obtain ⟨i, hi⟩ := List.mem_iff_getElem?.mp hp
  obtain ⟨parameterType, argument, -, -, hc⟩ := converts_at hread hi
  exact zero_notMem_of_converts hlib hfloat hc

/-- Every query that mysql_statement_execute queues carries the integers as they are,
and of each string the first 255 bytes. -/
theorem execute_carries {lib : Externals} (hlib : BackslashEscaping lib.mysqlEscapeString)
    (hfloat : ∀ cell, 0 ∉ lib.formatFloat cell) {tr : List PluginEvent} {s s' : Plugin}
    (hr : Reach (Plugin.step lib) Plugin.new tr s)
    {connectionId statementId callback dataId : Param} {arguments : List Param}
    {touched : Option (Nat × HostEvent)}
    (h : s.mysqlStatementExecute lib (connectionId :: statementId :: callback :: dataId :: arguments) =
      .returned s' 1 touched) :
    ∃ pointer statement parameters request,
      s.statementRegistry.atIndex statementId.value.toUInt32 = some statement ∧
        readParameters lib statement.parameters arguments = .read parameters ∧
        touched = some (pointer, .querySubmitted request) ∧
        Carries (List.take 255) statement arguments parameters request.query := by
  obtain ⟨pointer, statement, parameters, query, hs, -, hread, hquery, ht⟩ := of_returned_one h
  have hz : 0 ∉ statement.query :=
    ((reach_recorded hr).notMem statement (List.mem_of_getElem? hs)).1
  refine ⟨pointer, statement, parameters, _, hs, hread, ht, ?_⟩
  simp only [cString_query hlib hfloat hz hread hquery]
  exact carries_of_read hlib hread hquery

def backslashes : Externals := ⟨fun text => text.flatMap escapeByte, fun _ => []⟩

theorem backslashEscaping_backslashes : BackslashEscaping backslashes.mysqlEscapeString :=
  fun _ => rfl

theorem escapesWithin_backslashes : EscapesWithin backslashes.mysqlEscapeString := length_escape_le

theorem execute_carries_both :
    ∃ statement parameters request,
      (preparing backslashes "a=? AND b=?" "is").2.statementRegistry.atIndex 0 = some statement ∧
        readParameters backslashes statement.parameters [integer (-7), .text "x"] = .read parameters ∧
        Carries (List.take 255) statement [integer (-7), .text "x"] parameters
          (QueryInformation.query request) := by
  have hr := reach_preparing backslashes "a=? AND b=?" "is"
  have ha : Accepts (preparing backslashes "a=? AND b=?" "is").1
      (preparing backslashes "a=? AND b=?" "is").2 (Param.number 1).value.toUInt32
      (Param.number 0).value.toUInt32 [integer (-7), .text "x"] 0
      ⟨Script.ascii "a=? AND b=?", Script.ascii "is"⟩ :=
    ⟨by decide, by decide, by decide, by simp [Script.ascii, Handled], by decide, by decide⟩
  obtain ⟨h, _, _, -, -, -, hs⟩ :=
    returned_of_accepts escapesWithin_backslashes hr (.text "c") (.number 5) rfl ha
  obtain ⟨pointer, statement, parameters, request, hst, hread, -, hc⟩ :=
    execute_carries backslashEscaping_backslashes (by simp [backslashes]) hr hs
  exact ⟨statement, parameters, request, hst, hread, hc⟩

theorem unquote_of_carries {kept : Bytes → Bytes} {value cell : Cell} {text query : Bytes}
    {parameters : List Bytes}
    (h : Carries kept ⟨[63], [115]⟩ [⟨value, some (cell, text)⟩] parameters query) :
    unquote query = some (kept (cString text)) := by
  obtain ⟨x, p, y, type, argument, hx, hy, hq, ht, ha, cell', text', haddr, -, hs⟩ := h [] [] rfl
  cases hx
  cases hy
  cases ht
  cases ha
  cases haddr
  rw [hq, List.nil_append, List.append_nil]
  exact hs rfl

def longText : Bytes := List.replicate 256 97

theorem execute_cuts_longText :
    ∃ s statement parameters request,
      (preparing backslashes "?" "s").2.mysqlStatementExecute backslashes
          [.number 1, .number 0, .text "c", .number 5, ⟨0, some (0, longText)⟩] =
        .returned s 1 (some (0, .querySubmitted request)) ∧
      (preparing backslashes "?" "s").2.statementRegistry.atIndex 0 = some statement ∧
      readParameters backslashes statement.parameters [⟨0, some (0, longText)⟩] = .read parameters ∧
      ¬ Carries id statement [⟨0, some (0, longText)⟩] parameters request.query := by
  have hr := reach_preparing backslashes "?" "s"
  have ha : Accepts (preparing backslashes "?" "s").1 (preparing backslashes "?" "s").2
      (Param.number 1).value.toUInt32 (Param.number 0).value.toUInt32 [⟨0, some (0, longText)⟩] 0
      ⟨[63], [115]⟩ :=
    ⟨by decide, by decide, by decide, by simp [Handled], by decide, by decide⟩
  obtain ⟨h, parameters, query, -, hread, hquery, hs⟩ :=
    returned_of_accepts escapesWithin_backslashes hr (.text "c") (.number 5) rfl ha
  refine ⟨_, _, parameters, _, hs, rfl, hread, fun hc => ?_⟩
  have hz : cString longText = longText :=
    cString_eq_self fun hmem => absurd (List.eq_of_mem_replicate hmem) (by decide)
  have hcut := unquote_of_carries (carries_of_read backslashEscaping_backslashes hread hquery)
  have hwhole := unquote_of_carries hc
  simp only [cString_query backslashEscaping_backslashes (by simp [backslashes]) (by simp) hread hquery,
    hcut, id, hz, Option.some.injEq] at hwhole
  have hlength := congrArg List.length hwhole
  rw [List.length_take, longText, List.length_replicate] at hlength
  omega

end MysqlPlugin.ParameterFidelity
