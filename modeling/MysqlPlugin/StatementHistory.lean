import MysqlPlugin.HostHistory

namespace MysqlPlugin.StatementHistory

open Transition

def preparedAt : PluginEvent → Option (UInt32 × Statement)
  | .returned _ .statementPrepare [query, parameters] value _ =>
      match amxStrParam query, amxStrParam parameters with
      | some query, some parameters =>
          if query.length = 0 then none else some (value.toUInt32, ⟨query, parameters⟩)
      | _, _ => none
  | _ => none

def prepared (tr : List PluginEvent) : List (UInt32 × Statement) := tr.filterMap preparedAt

/-- The statement of an id: the first one for which Create returned it. -/
def statementOf (tr : List PluginEvent) (id : UInt32) : Option Statement :=
  ((prepared tr).find? (·.1 = id)).map (·.2)

inductive RegistryStep (s s' : Plugin) (e : PluginEvent) : Prop
  | same (he : preparedAt e = none) (h : s'.statementRegistry = s.statementRegistry)
  | created (query parameters : Bytes) (hq : 0 ∉ query) (hp : 0 ∉ parameters)
      (he : preparedAt e =
        some ((s.statementRegistry.create query parameters).2, ⟨query, parameters⟩))
      (h : s'.statementRegistry = (s.statementRegistry.create query parameters).1)

def KeepsRegistry (s : Plugin) : NativeOutcome → Prop
  | .returned s' _ _ => s'.statementRegistry = s.statementRegistry
  | _ => True

section

variable (s : Plugin)

theorem keepsRegistry_query (pointer : Nat) (request : QueryInformation) :
    KeepsRegistry s (s.query pointer request) := by
  unfold Plugin.query
  split
  next s' e hq =>
    obtain ⟨h, h', hh, hs, rfl⟩ := touch_eq_some hq
    rfl
  next => trivial

theorem keepsRegistry_close (pointer : Nat) : KeepsRegistry s (s.close pointer) := by
  unfold Plugin.close
  split_ifs
  · trivial
  · split <;> trivial
  · rfl

theorem keepsRegistry_readEntry (value : ResultEntry → Cell) (params : List Param) :
    KeepsRegistry s (s.readEntry value params) := by
  unfold Plugin.readEntry
  split
  · split <;> rfl
  · rfl

theorem keepsRegistry_callNative (lib : Externals) (amx : Amx) (params : List Param)
    {native : Native} (hn : native ≠ .statementPrepare) :
    KeepsRegistry s (s.callNative lib amx params native) := by
  cases native with
  | statementPrepare => exact absurd rfl hn
  | connect =>
      simp only [Plugin.callNative, Plugin.mysqlConnect]
      split
      · split <;> rfl
      · rfl
  | close =>
      simp only [Plugin.callNative, Plugin.mysqlClose]
      split
      · split
        · exact keepsRegistry_close s _
        · rfl
      · rfl
  | query =>
      simp only [Plugin.callNative, Plugin.mysqlQuery]
      split
      · split
        · exact keepsRegistry_query s _ _
        · rfl
      · rfl
  | statementExecute =>
      simp only [Plugin.callNative, Plugin.mysqlStatementExecute]
      split
      · split
        · split_ifs
          · rfl
          · split
            · rfl
            · trivial
            · split_ifs
              · exact keepsRegistry_query s _ _
              · rfl
        · rfl
      · rfl
  | affectedRows => exact keepsRegistry_readEntry s _ params
  | insertId => exact keepsRegistry_readEntry s _ params
  | numRows => exact keepsRegistry_readEntry s _ params
  | freeResult =>
      simp only [Plugin.callNative, Plugin.mysqlFreeResult]
      split <;> rfl
  | fetchRow =>
      simp only [Plugin.callNative, Plugin.mysqlFetchRow]
      split
      · split <;> rfl
      · rfl

end

theorem zero_notMem_amxStrParam {param : Param} {text : Bytes} (h : amxStrParam param = some text) :
    0 ∉ text := by
  obtain ⟨⟨cell, bytes⟩, -, ht⟩ := Option.bind_eq_some_iff.mp h
  simp only at ht
  split_ifs at ht
  cases ht
  exact zero_notMem_cString bytes

theorem registryStep_of_prepare {s s' : Plugin} {amx : Amx} {params : List Param} {value : Cell}
    {touched : Option (Nat × HostEvent)}
    (h : s.mysqlStatementPrepare params = .returned s' value touched) :
    RegistryStep s s' (.returned amx .statementPrepare params value touched) := by
  unfold Plugin.mysqlStatementPrepare at h
  split at h
  next queryParam typesParam =>
    split at h
    next => cases h
    next query hq =>
      split_ifs at h with hl
      · cases h
        refine .same ?_ rfl
        simp only [preparedAt, hq]
        split
        next he hp => simp_all
        next => rfl
      · split at h
        next => cases h
        next parameters hp =>
          cases h
          refine .created query parameters (zero_notMem_amxStrParam hq) (zero_notMem_amxStrParam hp)
            ?_ rfl
          simp [preparedAt, hq, hp, hl, StatementRegistry.create]
  next hn =>
    cases h
    refine .same ?_ rfl
    unfold preparedAt
    split
    next heq =>
      cases heq
      exact absurd rfl (hn _ _)
    next => rfl

theorem callNative_of_step {lib : Externals} {s s' : Plugin} {amx : Amx} {native : Native}
    {params : List Param} {value : Cell} {touched : Option (Nat × HostEvent)} (ht : s.task = .idle)
    (h : Plugin.step lib s (.native amx native params) =
      some (s', .returned amx native params value touched)) :
    s.callNative lib amx params native = .returned s' value touched := by
  unfold Plugin.step at h
  simp only [ht] at h
  split_ifs at h
  split at h <;> cases h
  assumption

theorem step_of_returned {lib : Externals} {s s' : Plugin} {amx : Amx} {native : Native}
    {params : List Param} {value : Cell} {touched : Option (Nat × HostEvent)} (ht : s.task = .idle)
    (hrun : s.scriptRuns = true)
    (h : s.callNative lib amx params native = .returned s' value touched) :
    Plugin.step lib s (.native amx native params) =
      some (s', .returned amx native params value touched) := by
  unfold Plugin.step
  simp only [ht, hrun, if_true, h]

theorem registryStep_of_step {lib : Externals} {s s' : Plugin} {a : PluginAction} {e : PluginEvent}
    (h : Plugin.step lib s a = some (s', e)) : RegistryStep s s' e := by
  cases pluginStep_of_step h with
  | quiet amx native params value statementRegistry ht =>
      have ho := callNative_of_step ht h
      by_cases hn : native = .statementPrepare
      · subst hn
        exact registryStep_of_prepare ho
      · have hk := keepsRegistry_callNative s lib amx params hn
        rw [ho] at hk
        refine .same ?_ hk
        cases native <;> first | rfl | exact absurd rfl hn
  | frame ht hi =>
      refine .same rfl ?_
      rw [Plugin.processTick]
      split <;> rfl
  | query amx native params id pointer request h h' e ht hn hc hh hs =>
      cases native <;> first | exact .same rfl rfl | simp [Native.submits] at hn
  | _ => exact .same rfl rfl

theorem prepared_snoc (tr : List PluginEvent) (e : PluginEvent) :
    prepared (tr ++ [e]) = prepared tr ++ (preparedAt e).toList :=
  filterMap_snoc ..

structure Recorded (tr : List PluginEvent) (s : Plugin) : Prop where
  statementOf_eq : ∀ id, statementOf tr id = s.statementRegistry.atIndex id
  notMem : ∀ statement ∈ s.statementRegistry.statementVector,
    0 ∉ statement.query ∧ 0 ∉ statement.parameters

theorem atIndex_create (registry : StatementRegistry) (query parameters : Bytes) (id : UInt32) :
    (registry.create query parameters).1.atIndex id =
      (registry.atIndex id).or
        (if (registry.create query parameters).2 = id then some ⟨query, parameters⟩ else none) := by
  simp only [StatementRegistry.atIndex, StatementRegistry.create, List.length_append,
    List.length_singleton, Nat.add_sub_cancel]
  have hid := id.toNat_lt
  rcases Nat.lt_trichotomy id.toNat registry.statementVector.length with hlt | heq | hgt
  · rw [List.getElem?_append_left hlt, List.getElem?_eq_getElem hlt, Option.some_or]
  · have he : UInt32.ofNat registry.statementVector.length = id := by
      rw [← heq, UInt32.ofNat_toNat]
    rw [if_pos he, heq, List.getElem?_concat_length, List.getElem?_eq_none (Nat.le_refl _),
      Option.none_or]
  · have hne : UInt32.ofNat registry.statementVector.length ≠ id := by
      rintro rfl
      rw [UInt32.toNat_ofNat', Nat.mod_eq_of_lt (by omega)] at hgt
      exact Nat.lt_irrefl _ hgt
    rw [if_neg hne, List.getElem?_eq_none (Nat.le_of_lt hgt), Option.none_or,
      List.getElem?_eq_none]
    rw [List.length_append, List.length_singleton]
    omega

theorem recorded_step {tr : List PluginEvent} {s s' : Plugin} {e : PluginEvent}
    (h : RegistryStep s s' e) (hr : Recorded tr s) : Recorded (tr ++ [e]) s' := by
  cases h with
  | same he hreg =>
      constructor
      · intro id
        rw [statementOf, prepared_snoc, he, Option.toList_none, List.append_nil, hreg, ← statementOf,
          hr.statementOf_eq]
      · rw [hreg]
        exact hr.notMem
  | created query parameters hq hp he hreg =>
      constructor
      · intro id
        rw [hreg, atIndex_create, ← hr.statementOf_eq, statementOf, statementOf, prepared_snoc, he,
          Option.toList_some, List.find?_append, Option.map_or, List.find?_singleton]
        split <;> simp_all
      · rw [hreg]
        intro statement hs
        rcases List.mem_append.mp hs with hs | hs
        · exact hr.notMem statement hs
        · rw [List.mem_singleton.mp hs]
          exact ⟨hq, hp⟩

theorem reach_recorded {lib : Externals} {tr : List PluginEvent} {s : Plugin}
    (hr : Reach (Plugin.step lib) Plugin.new tr s) : Recorded tr s := by
  induction hr with
  | start => exact ⟨fun _ => rfl, by simp [Plugin.new, StatementRegistry.new]⟩
  | step _ hs ih => exact recorded_step (registryStep_of_step hs) ih

end MysqlPlugin.StatementHistory
