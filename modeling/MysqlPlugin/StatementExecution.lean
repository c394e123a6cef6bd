import MysqlPlugin.LiveConnections
import MysqlPlugin.StatementHistory
import MysqlPlugin.Substitution

namespace MysqlPlugin.StatementExecution

open LiveConnections QueryBuilder StatementHistory Substitution Template Transition

/-- What the manual of libmysql promises of the length of an escaped text. -/
def EscapesWithin (escape : Bytes → Bytes) : Prop := ∀ text, (escape text).length ≤ 2 * text.length

def Handled (parameterType : UInt8) : Prop :=
  parameterType = 105 ∨ parameterType = 102 ∨ parameterType = 115

def Converts (lib : Externals) (p : UInt8 × Param) (parameter : Bytes) : Prop :=
  ∃ cell text, p.2.address = some (cell, text) ∧
    readParameter lib p.1 cell text = .read [parameter]

theorem cString_length_le (text : Bytes) : (cString text).length ≤ text.length :=
  (List.takeWhile_sublist _).length_le

theorem escapeStringParameter_isSome {lib : Externals} (hlib : EscapesWithin lib.mysqlEscapeString)
    {text : Bytes} (hlen : text.length ≤ 255) :
    ∃ parameter, escapeStringParameter lib text = some parameter := by
  have hc := cString_length_le text
  have he := hlib (cString text)
  have hfit : (lib.mysqlEscapeString (cString text)).length + 2 < stringParameterBufferSize := by
    rw [stringParameterBufferSize]
    omega
  exact ⟨_, if_pos hfit⟩

theorem readParameter_cases {lib : Externals} (hlib : EscapesWithin lib.mysqlEscapeString)
    (parameterType : UInt8) (cell : Cell) (text : Bytes) :
    (Handled parameterType ∧
        ∃ parameter, readParameter lib parameterType cell text = .read [parameter]) ∨
      (¬ Handled parameterType ∧ readParameter lib parameterType cell text = .refused) := by
  unfold readParameter
  split_ifs with hi hf hs
  · exact .inl ⟨.inl hi, _, rfl⟩
  · exact .inl ⟨.inr (.inl hf), _, rfl⟩
  · have hlen : (cString (text.take 255)).length ≤ 255 :=
      (cString_length_le _).trans (List.length_take_le ..)
    obtain ⟨parameter, hp⟩ := escapeStringParameter_isSome hlib hlen
    exact .inl ⟨.inr (.inr hs), parameter, by rw [hp]⟩
  · exact .inr ⟨by simp [Handled, hi, hf, hs], rfl⟩

theorem readParameters_cases {lib : Externals} (hlib : EscapesWithin lib.mysqlEscapeString)
    (types : List UInt8) (arguments : List Param) :
    ((∀ p ∈ types.zip arguments, Handled p.1 ∧ p.2.address.isSome) ∧
        ∃ parameters, readParameters lib types arguments = .read parameters) ∨
      (¬ (∀ p ∈ types.zip arguments, Handled p.1 ∧ p.2.address.isSome) ∧
        readParameters lib types arguments = .refused) := by
  induction types generalizing arguments with
  | nil => exact .inl ⟨by simp, [], by cases arguments <;> rfl⟩
  | cons type types ih =>
      cases arguments with
      | nil => exact .inl ⟨by simp, [], rfl⟩
      | cons argument arguments =>
          rw [readParameters]
          simp only [List.zip_cons_cons, List.forall_mem_cons]
          cases ha : argument.address with
          | none => exact .inr ⟨by simp, rfl⟩
          | some p =>
              obtain ⟨cell, text⟩ := p
              rcases readParameter_cases hlib type cell text with ⟨ht, parameter, hp⟩ | ⟨ht, hp⟩
              · simp only [hp]
                rcases ih arguments with ⟨hall, parameters, hr⟩ | ⟨hall, hr⟩
                · exact .inl ⟨⟨⟨ht, rfl⟩, hall⟩, [parameter] ++ parameters, by rw [hr]⟩
                · exact .inr ⟨fun h => hall h.2, by rw [hr]⟩
              · exact .inr ⟨fun h => ht h.1.1, by simp only [hp]⟩

theorem singleton_of_readParameter {lib : Externals} {parameterType : UInt8} {cell : Cell}
    {text : Bytes} {read : List Bytes} (h : readParameter lib parameterType cell text = .read read) :
    ∃ parameter, read = [parameter] := by
  unfold readParameter at h
  split_ifs at h
  · cases h
    exact ⟨_, rfl⟩
  · cases h
    exact ⟨_, rfl⟩
  · split at h <;> cases h
    exact ⟨_, rfl⟩

theorem forall₂_of_readParameters {lib : Externals} {types : List UInt8} {arguments : List Param}
    {parameters : List Bytes} (h : readParameters lib types arguments = .read parameters) :
    List.Forall₂ (Converts lib) (types.zip arguments) parameters := by
  induction types generalizing arguments parameters with
  | nil =>
      cases h
      exact .nil
  | cons type types ih =>
      cases arguments with
      | nil =>
          cases h
          exact .nil
      | cons argument arguments =>
          rw [readParameters] at h
          split at h
          next => cases h
          next cell text ha =>
            split at h
            next read hp =>
              split at h
              next parameters hr =>
                cases h
                obtain ⟨parameter, rfl⟩ := singleton_of_readParameter hp
                exact .cons ⟨cell, text, ha, hp⟩ (ih hr)
              next hn => exact absurd h (hn _)
            next hn => exact absurd h (hn _)

theorem length_readParameters {lib : Externals} {types : List UInt8} {arguments : List Param}
    {parameters : List Bytes} (h : readParameters lib types arguments = .read parameters)
    (hl : types.length = arguments.length) : parameters.length = arguments.length := by
  rw [← (forall₂_of_readParameters h).length_eq, List.length_zip, hl, Nat.min_self]

/-- A call that is to queue a query: through this connection, from this statement. -/
structure Accepts (tr : List PluginEvent) (s : Plugin) (connectionId statementId : UInt32)
    (arguments : List Param) (pointer : Nat) (statement : Statement) : Prop where
  connection : s.connectionController.connection connectionId = some pointer
  prepared : statementOf tr statementId = some statement
  count : arguments.length = statement.parameters.length
  types : ∀ type ∈ statement.parameters, Handled type
  addresses : ∀ argument ∈ arguments, argument.address.isSome
  marks : statement.query.count 63 ≤ arguments.length

theorem forall_zip_iff {types : List UInt8} {arguments : List Param}
    (hl : types.length = arguments.length) :
    (∀ p ∈ types.zip arguments, Handled p.1 ∧ p.2.address.isSome) ↔
      (∀ type ∈ types, Handled type) ∧ ∀ argument ∈ arguments, argument.address.isSome := by
  constructor
  · intro h
    constructor
    · intro type ht
      rw [← List.map_fst_zip hl.le] at ht
      obtain ⟨p, hp, rfl⟩ := List.mem_map.mp ht
      exact (h p hp).1
    · intro argument ha
      rw [← List.map_snd_zip hl.ge] at ha
      obtain ⟨p, hp, rfl⟩ := List.mem_map.mp ha
      exact (h p hp).2
  · rintro ⟨ht, ha⟩ ⟨type, argument⟩ hp
    exact ⟨ht type (List.of_mem_zip hp).1, ha argument (List.of_mem_zip hp).2⟩

theorem touched_of_query {s s' : Plugin} {pointer : Nat} {request : QueryInformation} {value : Cell}
    {touched : Option (Nat × HostEvent)}
    (h : s.query pointer request = .returned s' value touched) :
    touched = some (pointer, .querySubmitted request) := by
  unfold Plugin.query at h
  split at h
  next s₁ e hq =>
    cases h
    obtain ⟨host, host', -, hs, -⟩ := touch_eq_some hq
    cases (hostStep_of_step hs).2
    rfl
  next => cases h

section

variable {lib : Externals} {tr : List PluginEvent} {s : Plugin}
  {connectionId statementId callback dataId : Param} {arguments : List Param}

theorem of_returned_one {s' : Plugin} {touched : Option (Nat × HostEvent)}
    (h : s.mysqlStatementExecute lib (connectionId :: statementId :: callback :: dataId :: arguments) =
      .returned s' 1 touched) :
    ∃ pointer statement parameters query,
      s.statementRegistry.atIndex statementId.value.toUInt32 = some statement ∧
        statement.parameters.length = arguments.length ∧
        readParameters lib statement.parameters arguments = .read parameters ∧
        substitute 63 statement.query parameters = some query ∧
        touched = some (pointer, .querySubmitted
          ⟨cString query, (amxStrParam callback).getD [], dataId.value.toUInt32⟩) := by
  rw [Plugin.mysqlStatementExecute] at h
  split at h
  next pointer statement hc hs =>
    split_ifs at h with hl
    · cases h
    · split at h
      next => cases h
      next => cases h
      next parameters hread =>
        simp only at h
        split_ifs at h with hb
        · obtain ⟨query, hquery, hbuild⟩ := build_eq_true.mp hb
          rw [hbuild] at h
          refine ⟨pointer, statement, parameters, query, hs, not_not.mp hl, hread, hquery, ?_⟩
          exact touched_of_query h
        · cases h
  next => cases h

variable (hlib : EscapesWithin lib.mysqlEscapeString) (hr : Reach (Plugin.step lib) Plugin.new tr s)

include hlib hr

theorem returned_of_accepts (callback dataId : Param) (ht : s.task = .idle) {pointer : Nat}
    {statement : Statement}
    (ha : Accepts tr s connectionId.value.toUInt32 statementId.value.toUInt32 arguments pointer
      statement) :
    ∃ h parameters query, s.hosts[pointer]? = some h ∧
      readParameters lib statement.parameters arguments = .read parameters ∧
      substitute 63 statement.query parameters = some query ∧
      s.mysqlStatementExecute lib
          (connectionId :: statementId :: callback :: dataId :: arguments) =
        .returned
          { s with
            hosts := s.hosts.set pointer
              (h.query ⟨cString query, (amxStrParam callback).getD [], dataId.value.toUInt32⟩) }
          1
          (some (pointer, .querySubmitted
            ⟨cString query, (amxStrParam callback).getD [], dataId.value.toUInt32⟩)) := by
  obtain ⟨parameters, hread⟩ : ∃ parameters,
      readParameters lib statement.parameters arguments = .read parameters := by
    rcases readParameters_cases hlib statement.parameters arguments with ⟨-, h⟩ | ⟨h, -⟩
    · exact h
    · exact absurd ((forall_zip_iff ha.count.symm).mpr ⟨ha.types, ha.addresses⟩) h
  obtain ⟨query, hquery⟩ : ∃ query, substitute 63 statement.query parameters = some query := by
    rw [← Option.isSome_iff_exists, substitute_isSome_iff, length_readParameters hread ha.count.symm]
    exact ha.marks
  obtain ⟨h, hh, -, hq⟩ := (reach_live hr).query ht ha.connection
    ⟨cString query, (amxStrParam callback).getD [], dataId.value.toUInt32⟩
  have hs : s.statementRegistry.atIndex statementId.value.toUInt32 = some statement := by
    rw [← (reach_recorded hr).statementOf_eq, ha.prepared]
  refine ⟨h, parameters, query, hh, hread, hquery, ?_⟩
  rw [Plugin.mysqlStatementExecute]
  simp only [ha.connection, hs, ha.count, hread, build_of_substitute hquery, ne_eq,
    not_true_eq_false, if_false, if_true, hq]

theorem returned_of_not_accepts
    (hn : ∀ pointer statement, ¬ Accepts tr s connectionId.value.toUInt32
      statementId.value.toUInt32 arguments pointer statement) :
    s.mysqlStatementExecute lib (connectionId :: statementId :: callback :: dataId :: arguments) =
      .returned s 0 none := by
  rw [Plugin.mysqlStatementExecute]
  split
  next pointer statement hc hs =>
    split_ifs with hl
    · rfl
    · rw [ne_eq, not_not] at hl
      rcases readParameters_cases hlib statement.parameters arguments with
        ⟨hall, parameters, hread⟩ | ⟨-, hread⟩
      · have hcount : ¬ statement.query.count 63 ≤ parameters.length := by
          rw [length_readParameters hread hl]
          intro hm
          obtain ⟨ht, ha⟩ := (forall_zip_iff hl).mp hall
          refine hn pointer statement ⟨hc, ?_, hl.symm, ht, ha, hm⟩
          rw [(reach_recorded hr).statementOf_eq, hs]
        have hb : ¬ (build statement parameters []).1 = true := by
          rw [build_isTrue_iff]
          exact hcount
        simp only [hread]
        rw [if_neg hb]
      · simp only [hread]
  next => rfl

/-- mysql_statement_execute in any state that a run can reach and in which a script
can call it. It returns 1 exactly for the calls that are to be accepted, and then it
has put one query, made from that statement, at the end of the queue of that
connection; any other call returns 0 and leaves the plugin as it was. -/
theorem execute_accepts (ht : s.task = .idle) (hrun : s.scriptRuns = true) (amx : Amx)
    (connectionId statementId callback dataId : Param) (arguments : List Param) :
    let params := connectionId :: statementId :: callback :: dataId :: arguments
    let accepts := Accepts tr s connectionId.value.toUInt32 statementId.value.toUInt32 arguments
    (∀ pointer statement, accepts pointer statement →
        ∃ h parameters query, s.hosts[pointer]? = some h ∧
          readParameters lib statement.parameters arguments = .read parameters ∧
          build statement parameters [] = (true, query) ∧
          let request := ⟨cString query, (amxStrParam callback).getD [], dataId.value.toUInt32⟩
          Plugin.step lib s (.native amx .statementExecute params) =
            some ({ s with
              hosts := s.hosts.set pointer
                { h with
                  client := { h.client with queryQueue := h.client.queryQueue ++ [request] } } },
              .returned amx .statementExecute params 1 (some (pointer, .querySubmitted request)))) ∧
      ((∀ pointer statement, ¬ accepts pointer statement) →
        Plugin.step lib s (.native amx .statementExecute params) =
          some (s, .returned amx .statementExecute params 0 none)) := by
  constructor
  · intro pointer statement ha
    obtain ⟨h, parameters, query, hh, hread, hquery, hcall⟩ :=
      returned_of_accepts hlib hr callback dataId ht ha
    refine ⟨h, parameters, query, hh, hread, build_of_substitute hquery [], ?_⟩
    exact step_of_returned ht hrun hcall
  · intro hn
    exact step_of_returned ht hrun (returned_of_not_accepts hlib hr hn)

end

def preparing (lib : Externals) (query parameters : String) : List PluginEvent × Plugin :=
  run (Plugin.step lib) Plugin.new
    [.native 1 .connect [.text "h", .text "u", .text "p", .text "d", .number 3306],
      .native 1 .statementPrepare [.text query, .text parameters]]

theorem reach_preparing (lib : Externals) (query parameters : String) :
    Reach (Plugin.step lib) Plugin.new (preparing lib query parameters).1
      (preparing lib query parameters).2 :=
  reach_run ..

def integer (value : Cell) : Param := ⟨0, some (value, [])⟩

theorem escapesWithin_plainText : EscapesWithin plainText.mysqlEscapeString := by
  intro text
  change text.length ≤ 2 * text.length
  omega

theorem accepts_oneMark :
    Accepts (preparing plainText "a=?" "i").1 (preparing plainText "a=?" "i").2
      (Param.number 1).value.toUInt32 (Param.number 0).value.toUInt32 [integer 7] 0
      ⟨Script.ascii "a=?", Script.ascii "i"⟩ :=
  ⟨by decide, by decide, by decide, by simp [Script.ascii, Handled], by decide, by decide⟩

theorem execute_accepts_integer :
    ∃ s request, Plugin.step plainText (preparing plainText "a=?" "i").2
        (.native 1 .statementExecute [.number 1, .number 0, .text "c", .number 5, integer 7]) =
      some (s, .returned 1 .statementExecute
        [.number 1, .number 0, .text "c", .number 5, integer 7] 1
        (some (0, .querySubmitted request))) := by
  obtain ⟨h, parameters, query, -, -, -, hs⟩ :=
    (execute_accepts escapesWithin_plainText (reach_preparing plainText "a=?" "i") rfl (by decide) 1
      (.number 1) (.number 0) (.text "c") (.number 5) [integer 7]).1 _ _ accepts_oneMark
  exact ⟨_, _, hs⟩

/-- Every parameter has a question mark of its own, and all of them are in the query. -/
def AllInserted (statement : Statement) (parameters : List Bytes) (query : Bytes) : Prop :=
  statement.query.count 63 = parameters.length ∧
    query = weave (statement.query.splitOn 63) parameters

theorem allInserted_iff {statement : Statement} {parameters : List Bytes} {query : Bytes}
    (h : substitute 63 statement.query parameters = some query) :
    AllInserted statement parameters query ↔ parameters.length ≤ statement.query.count 63 := by
  have hle : statement.query.count 63 ≤ parameters.length := by
    rw [← substitute_isSome_iff, h]
    rfl
  constructor
  · exact fun ha => ha.1.ge
  · intro hge
    have heq := Nat.le_antisymm hle hge
    refine ⟨heq, ?_⟩
    rw [substitute_eq_weave hle, heq, List.take_length, Option.some.injEq] at h
    exact h.symm

/-- A call that returns 1 has dropped no parameter exactly when the type string is
no longer than the template has question marks. Nothing compares the two. -/
theorem execute_inserts_all_iff {lib : Externals} {s s' : Plugin}
    {connectionId statementId callback dataId : Param} {arguments : List Param}
    {touched : Option (Nat × HostEvent)}
    (h : s.mysqlStatementExecute lib (connectionId :: statementId :: callback :: dataId :: arguments) =
      .returned s' 1 touched) :
    ∃ pointer statement parameters query,
      s.statementRegistry.atIndex statementId.value.toUInt32 = some statement ∧
        readParameters lib statement.parameters arguments = .read parameters ∧
        build statement parameters [] = (true, query) ∧
        touched = some (pointer, .querySubmitted
          ⟨cString query, (amxStrParam callback).getD [], dataId.value.toUInt32⟩) ∧
        (AllInserted statement parameters query ↔
          statement.parameters.length ≤ statement.query.count 63) := by
  obtain ⟨pointer, statement, parameters, query, hs, hl, hread, hquery, ht⟩ := of_returned_one h
  refine ⟨pointer, statement, parameters, query, hs, hread, build_of_substitute hquery [], ht, ?_⟩
  rw [allInserted_iff hquery, length_readParameters hread hl, hl]

theorem execute_inserts_all_iff_integer :
    ∃ statement parameters query,
      (preparing plainText "a=?" "i").2.statementRegistry.atIndex 0 = some statement ∧
        readParameters plainText statement.parameters [integer 7] = .read parameters ∧
        AllInserted statement parameters query := by
  obtain ⟨h, _, _, -, -, -, hs⟩ :=
    returned_of_accepts escapesWithin_plainText (reach_preparing plainText "a=?" "i") (.text "c")
      (.number 5) rfl accepts_oneMark
  obtain ⟨pointer, statement, parameters, query, hst, hread, -, -, hiff⟩ := execute_inserts_all_iff hs
  refine ⟨statement, parameters, query, hst, hread, hiff.mpr ?_⟩
  cases hst
  decide

theorem execute_drops_integer :
    ∃ s touched statement parameters,
      (preparing plainText "SELECT 1" "i").2.mysqlStatementExecute plainText
          [.number 1, .number 0, .text "c", .number 5, integer 7] = .returned s 1 touched ∧
        (preparing plainText "SELECT 1" "i").2.statementRegistry.atIndex 0 = some statement ∧
        readParameters plainText statement.parameters [integer 7] = .read parameters ∧
        statement.query.count 63 ≠ parameters.length := by
  have ha : Accepts (preparing plainText "SELECT 1" "i").1 (preparing plainText "SELECT 1" "i").2
      (Param.number 1).value.toUInt32 (Param.number 0).value.toUInt32 [integer 7] 0
      ⟨Script.ascii "SELECT 1", Script.ascii "i"⟩ :=
    ⟨by decide, by decide, by decide, by simp [Script.ascii, Handled], by decide, by decide⟩
  obtain ⟨h, parameters, query, -, hread, -, hs⟩ :=
    returned_of_accepts escapesWithin_plainText (reach_preparing plainText "SELECT 1" "i") (.text "c")
      (.number 5) rfl ha
  refine ⟨_, _, _, parameters, hs, rfl, hread, ?_⟩
  rw [length_readParameters hread rfl]
  decide

end MysqlPlugin.StatementExecution
