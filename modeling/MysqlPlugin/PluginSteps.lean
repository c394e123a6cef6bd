import MysqlPlugin.Natives
import MysqlPlugin.Steps

namespace MysqlPlugin

open Plugin

def Native.submits : Native → Bool
  | .query | .statementExecute => true
  | _ => false

/-- What one step of the plugin can do, with the conditions under which it does
it. -/
inductive PluginStep (s : Plugin) : PluginAction → PluginEvent → Plugin → Prop
  | client (pointer : Nat) (input : ClientInput) (h h' : ConnectionHost) (e : HostEvent)
      (c : ConnectionClient) (e' : ClientEvent) (results : ResultController ResultEntry)
      (hh : s.hosts[pointer]? = some h)
      (hs : ConnectionHost.step h (.client s.resultController input) = some (h', e))
      (hc : h.client.step s.resultController input = some (c, results, e')) :
      PluginStep s (.client pointer input) (.host pointer e)
        { s with hosts := s.hosts.set pointer h', resultController := results }
  | quiet (amx : Amx) (native : Native) (params : List Param) (value : Cell)
      (statementRegistry : StatementRegistry) (ht : s.task = .idle) :
      PluginStep s (.native amx native params) (.returned amx native params value none)
        { s with statementRegistry }
  | free (amx : Amx) (resultId : Param) (ht : s.task = .idle) :
      PluginStep s (.native amx .freeResult [resultId])
        (.returned amx .freeResult [resultId]
          (s.resultController.free resultId.value.toUInt32).2 none)
        { s with resultController := (s.resultController.free resultId.value.toUInt32).1 }
  | fetch (amx : Amx) (resultId : Param) (value : Cell) (ht : s.task = .idle) :
      PluginStep s (.native amx .fetchRow [resultId])
        (.returned amx .fetchRow [resultId] value none)
        { s with
          resultController :=
            s.resultController.update resultId.value.toUInt32 (·.fetchRow.2) }
  | connect (amx : Amx) (params : List Param) (request : ConnectionInformation)
      (ht : s.task = .idle) :
      PluginStep s (.native amx .connect params)
        (.returned amx .connect params (s.connectionController.connect s.hosts.length).2.toInt32
          (some (s.hosts.length, .connectionRequested request)))
        { s with
          connectionController := (s.connectionController.connect s.hosts.length).1
          hosts := s.hosts ++
            [(ConnectionHost.new (Script.new amx)
              (s.connectionController.connect s.hosts.length).2).connect request] }
  | query (amx : Amx) (native : Native) (params : List Param) (connectionId : UInt32) (pointer : Nat)
      (request : QueryInformation) (h h' : ConnectionHost) (e : HostEvent) (ht : s.task = .idle)
      (hn : native.submits = true)
      (hc : s.connectionController.connection connectionId = some pointer)
      (hh : s.hosts[pointer]? = some h)
      (hs : ConnectionHost.step h (.query request) = some (h', e)) :
      PluginStep s (.native amx native params) (.returned amx native params 1 (some (pointer, e)))
        { s with hosts := s.hosts.set pointer h' }
  | stop (amx : Amx) (params : List Param) (connectionId : UInt32) (pointer : Nat)
      (h h' : ConnectionHost) (e : HostEvent) (ht : s.task = .idle)
      (hc : s.connectionController.connection connectionId = some pointer)
      (hh : s.hosts[pointer]? = some h)
      (hs : ConnectionHost.step h .stopThread = some (h', e)) :
      PluginStep s (.native amx .close params) (.host pointer e)
        { s with hosts := s.hosts.set pointer h', task := .closing amx params pointer }
  | stopped (amx : Amx) (params : List Param) (pointer : Nat) (h h' : ConnectionHost) (e : HostEvent)
      (ht : s.task = .closing amx params pointer) (hh : s.hosts[pointer]? = some h)
      (hs : ConnectionHost.step h .joinThread = some (h', e)) :
      PluginStep s .resume (.returned amx .close params 1 (some (pointer, e)))
        { s with hosts := s.hosts.set pointer h', task := .idle }
  | frame (ht : s.task = .idle) (hi : s.iterator = none) :
      PluginStep s .processTick .frame s.processTick
  | tick (publics : Publics) (connectionId : UInt32) (pointer : Nat) (h h' : ConnectionHost)
      (e : HostEvent) (ht : s.task = .idle) (hi : s.iterator = some connectionId)
      (hc : s.connectionController.connection connectionId = some pointer)
      (hh : s.hosts[pointer]? = some h)
      (hs : ConnectionHost.step h (.processTick publics) = some (h', e)) :
      PluginStep s (.tick publics) (.host pointer e)
        { s with
          hosts := s.hosts.set pointer h'
          iterator :=
            if h'.tick = .outside then s.connectionController.next connectionId
            else some connectionId }
  | unload (amx : Amx) (ht : s.task = .idle) :
      PluginStep s (.amxUnload amx) (.unloadStarted amx) (s.amxUnload amx)
  | halt (amx : Amx) (connectionId : UInt32) (pointer : Nat) (remaining : List (UInt32 × Nat))
      (h h' : ConnectionHost) (a : HostAction) (e : HostEvent)
      (ht : s.task = .unloading amx ((connectionId, pointer) :: remaining))
      (ha : a = .stopThread ∨ a = .joinThread)
      (hh : s.hosts[pointer]? = some h) (hs : ConnectionHost.step h a = some (h', e)) :
      PluginStep s .resume (.host pointer e) { s with hosts := s.hosts.set pointer h' }
  | destroy (amx : Amx) (connectionId : UInt32) (pointer : Nat) (remaining : List (UInt32 × Nat))
      (h h' : ConnectionHost) (e : HostEvent)
      (ht : s.task = .unloading amx ((connectionId, pointer) :: remaining))
      (hh : s.hosts[pointer]? = some h) (hs : ConnectionHost.step h .destroy = some (h', e)) :
      PluginStep s .resume (.host pointer e)
        { s with
          hosts := s.hosts.set pointer h'
          connectionController := s.connectionController.erase connectionId
          task := .unloading amx remaining }
  | unloaded (amx : Amx) (ht : s.task = .unloading amx []) :
      PluginStep s .resume (.unloadFinished amx) { s with task := .idle }
  | undefinedBehaviour (amx : Amx) (native : Native) (params : List Param) (ht : s.task = .idle) :
      PluginStep s (.native amx native params) .undefinedBehaviour s.crash
  | staleHandle (amx : Amx) (native : Native) (params : List Param) (connectionId : UInt32)
      (pointer : Nat) (ht : s.task = .idle)
      (hc : s.connectionController.connection connectionId = some pointer)
      (hh : ∀ h, s.hosts[pointer]? = some h → h.deleted = true ∨ h.joining = true) :
      PluginStep s (.native amx native params) .useAfterFree s.crash
  | staleIterator (publics : Publics) (connectionId : UInt32) (ht : s.task = .idle)
      (hi : s.iterator = some connectionId)
      (hh : ∀ pointer h, s.connectionController.connection connectionId = some pointer →
        s.hosts[pointer]? = some h → h.deleted = true) :
      PluginStep s (.tick publics) .useAfterFree s.crash
  | staleRemoval (amx : Amx) (connectionId : UInt32) (pointer : Nat)
      (remaining : List (UInt32 × Nat))
      (ht : s.task = .unloading amx ((connectionId, pointer) :: remaining))
      (hh : ∀ h, s.hosts[pointer]? = some h → h.deleted = true) :
      PluginStep s .resume .useAfterFree s.crash

variable {s s' : Plugin}

theorem touch_eq_some {pointer : Nat} {a : HostAction} {e : HostEvent}
    (h : s.touch pointer a = some (s', e)) :
    ∃ host host', s.hosts[pointer]? = some host ∧ ConnectionHost.step host a = some (host', e) ∧
      s' = { s with hosts := s.hosts.set pointer host' } := by
  obtain ⟨host, hh, hm⟩ := Option.bind_eq_some_iff.mp h
  obtain ⟨⟨host', e'⟩, hs, he⟩ := Option.map_eq_some_iff.mp hm
  cases he
  exact ⟨host, host', hh, hs, rfl⟩

theorem touch_eq_none {pointer : Nat} {a : HostAction} {host : ConnectionHost}
    (h : s.touch pointer a = none) (hh : s.hosts[pointer]? = some host) :
    ConnectionHost.step host a = none := by
  simpa [touch, hh] using h

theorem isDeleted_iff {pointer : Nat} :
    s.isDeleted pointer = true ↔ ∀ h, s.hosts[pointer]? = some h → h.deleted = true := by
  unfold isDeleted
  cases s.hosts[pointer]? <;> simp

def StepOfOutcome (s : Plugin) (amx : Amx) (native : Native) (params : List Param) :
    NativeOutcome → Prop
  | .returned s' value touched =>
      PluginStep s (.native amx native params) (.returned amx native params value touched) s'
  | .waiting s' pointer event =>
      PluginStep s (.native amx native params) (.host pointer event)
        { s' with task := .closing amx params pointer }
  | .useAfterFree => PluginStep s (.native amx native params) .useAfterFree s.crash
  | .undefinedBehaviour => PluginStep s (.native amx native params) .undefinedBehaviour s.crash

section

variable {amx : Amx} {params : List Param} (ht : s.task = .idle)

include ht

theorem step_of_quiet (native : Native) (value : Cell) :
    StepOfOutcome s amx native params (.returned s value none) :=
  .quiet amx native params value s.statementRegistry ht

theorem step_of_query {native : Native} {connectionId : UInt32} {pointer : Nat}
    (hn : native.submits = true)
    (hc : s.connectionController.connection connectionId = some pointer)
    (request : QueryInformation) :
    StepOfOutcome s amx native params (s.query pointer request) := by
  unfold Plugin.query
  split
  next s' e hq =>
    obtain ⟨h, h', hh, hs, rfl⟩ := touch_eq_some hq
    exact .query amx native params connectionId pointer request h h' e ht hn hc hh hs
  next hq =>
    refine .staleHandle amx native params connectionId pointer ht hc fun h hh => ?_
    have hr := touch_eq_none hq hh
    by_contra hn
    rw [not_or, Bool.not_eq_true, Bool.not_eq_true] at hn
    simp [ConnectionHost.step, hn.1, hn.2] at hr

theorem step_of_close {connectionId : UInt32} {pointer : Nat}
    (hc : s.connectionController.connection connectionId = some pointer) :
    StepOfOutcome s amx .close params (s.close pointer) := by
  unfold Plugin.close
  split_ifs with hd hr
  · exact .staleHandle amx .close params connectionId pointer ht hc
      fun h hh => .inl (isDeleted_iff.mp hd h hh)
  · split
    next s' e hq =>
      obtain ⟨h, h', hh, hs, rfl⟩ := touch_eq_some hq
      exact .stop amx params connectionId pointer h h' e ht hc hh hs
    next hq =>
      refine .staleHandle amx .close params connectionId pointer ht hc fun h hh => ?_
      have hs := touch_eq_none hq hh
      have hrun : h.client.isRunning = true := by simpa [hh] using hr
      by_contra hn
      rw [not_or, Bool.not_eq_true, Bool.not_eq_true] at hn
      simp [ConnectionHost.joining, hrun] at hn
      simp [ConnectionHost.step, hn.1, hrun, hn.2] at hs
  · exact step_of_quiet ht .close 1

theorem step_of_readEntry (native : Native) (value : ResultEntry → Cell) :
    StepOfOutcome s amx native params (s.readEntry value params) := by
  unfold readEntry
  split
  · split <;> exact step_of_quiet ht native _
  · exact step_of_quiet ht native 0

theorem step_of_mysqlConnect :
    StepOfOutcome s amx .connect params (s.mysqlConnect amx params) := by
  unfold mysqlConnect
  split
  · split
    · exact .connect amx _ _ ht
    · exact step_of_quiet ht .connect 0
  · exact step_of_quiet ht .connect 0

theorem step_of_mysqlClose : StepOfOutcome s amx .close params (s.mysqlClose params) := by
  unfold mysqlClose
  split
  · split
    next pointer hc => exact step_of_close ht hc
    next => exact step_of_quiet ht .close 0
  · exact step_of_quiet ht .close 0

theorem step_of_mysqlQuery : StepOfOutcome s amx .query params (s.mysqlQuery params) := by
  unfold mysqlQuery
  split
  · split
    next pointer query hc hq => exact step_of_query ht rfl hc _
    next => exact step_of_quiet ht .query 0
  · exact step_of_quiet ht .query 0

theorem step_of_mysqlStatementPrepare :
    StepOfOutcome s amx .statementPrepare params (s.mysqlStatementPrepare params) := by
  unfold mysqlStatementPrepare
  split
  · split
    · exact .undefinedBehaviour amx .statementPrepare _ ht
    · split_ifs
      · exact step_of_quiet ht .statementPrepare (-1)
      · split
        · exact .undefinedBehaviour amx .statementPrepare _ ht
        · exact .quiet amx .statementPrepare _ _ _ ht
  · exact step_of_quiet ht .statementPrepare 0

theorem step_of_mysqlStatementExecute (lib : Externals) :
    StepOfOutcome s amx .statementExecute params (s.mysqlStatementExecute lib params) := by
  unfold mysqlStatementExecute
  split
  · split
    next pointer statement hc hst =>
      split_ifs
      · exact step_of_quiet ht .statementExecute 0
      · split
        · exact step_of_quiet ht .statementExecute 0
        · exact .undefinedBehaviour amx .statementExecute _ ht
        · simp only
          split_ifs
          · exact step_of_query ht rfl hc _
          · exact step_of_quiet ht .statementExecute 0
    next => exact step_of_quiet ht .statementExecute 0
  · exact step_of_quiet ht .statementExecute 0

theorem step_of_mysqlFreeResult :
    StepOfOutcome s amx .freeResult params (s.mysqlFreeResult params) := by
  unfold mysqlFreeResult
  split
  · exact .free amx _ ht
  · exact step_of_quiet ht .freeResult 0

theorem step_of_mysqlFetchRow : StepOfOutcome s amx .fetchRow params (s.mysqlFetchRow params) := by
  unfold mysqlFetchRow
  split
  · split
    · exact .fetch amx _ _ ht
    · exact step_of_quiet ht .fetchRow 0
  · exact step_of_quiet ht .fetchRow 0

theorem step_of_callNative (lib : Externals) (native : Native) :
    StepOfOutcome s amx native params (s.callNative lib amx params native) := by
  cases native with
  | connect => exact step_of_mysqlConnect ht
  | close => exact step_of_mysqlClose ht
  | query => exact step_of_mysqlQuery ht
  | statementPrepare => exact step_of_mysqlStatementPrepare ht
  | statementExecute => exact step_of_mysqlStatementExecute ht lib
  | affectedRows => exact step_of_readEntry ht .affectedRows _
  | insertId => exact step_of_readEntry ht .insertId _
  | freeResult => exact step_of_mysqlFreeResult ht
  | numRows => exact step_of_readEntry ht .numRows _
  | fetchRow => exact step_of_mysqlFetchRow ht

end

theorem pluginStep_of_clientStep {pointer : Nat} {input : ClientInput} {e : PluginEvent}
    (h : s.clientStep pointer input = some (s', e)) : PluginStep s (.client pointer input) e s' := by
  obtain ⟨host, hh, h⟩ := Option.bind_eq_some_iff.mp h
  obtain ⟨⟨c, results, e'⟩, hc, h⟩ := Option.bind_eq_some_iff.mp h
  obtain ⟨⟨s₁, e₁⟩, hq, he⟩ := Option.map_eq_some_iff.mp h
  obtain ⟨host₁, host', hh', hs, rfl⟩ := touch_eq_some hq
  cases he
  cases hh.symm.trans hh'
  exact .client pointer input host host' e₁ c e' results hh hs hc

theorem pluginStep_of_tick {publics : Publics} {e : PluginEvent} (ht : s.task = .idle)
    (h : s.tick publics = some (s', e)) : PluginStep s (.tick publics) e s' := by
  obtain ⟨connectionId, hi, h⟩ := Option.bind_eq_some_iff.mp h
  split at h
  next hc =>
    cases h
    exact .staleIterator publics connectionId ht hi fun pointer host hp _ => by simp [hc] at hp
  next pointer hc =>
    split_ifs at h with hd
    · cases h
      refine .staleIterator publics connectionId ht hi fun q host hq hh => ?_
      cases hc.symm.trans hq
      exact isDeleted_iff.mp hd host hh
    · obtain ⟨⟨s₁, e₁⟩, hq, he⟩ := Option.map_eq_some_iff.mp h
      obtain ⟨host, host', hh, hs, rfl⟩ := touch_eq_some hq
      cases he
      have hlt : pointer < s.hosts.length := (List.getElem?_eq_some_iff.mp hh).1
      simpa [hlt] using PluginStep.tick publics connectionId pointer host host' e₁ ht hi hc hh hs

theorem pluginStep_of_delete {amx : Amx} {connectionId : UInt32} {pointer : Nat}
    {remaining : List (UInt32 × Nat)} {e : PluginEvent}
    (ht : s.task = .unloading amx ((connectionId, pointer) :: remaining))
    (h : s.delete amx connectionId pointer remaining = some (s', e)) : PluginStep s .resume e s' := by
  unfold delete at h
  split at h
  next hn =>
    cases h
    exact .staleRemoval amx connectionId pointer remaining ht fun host hh => by simp [hn] at hh
  next host hh =>
    split_ifs at h with hd hr hq
    · cases h
      refine .staleRemoval amx connectionId pointer remaining ht fun host' hh' => ?_
      cases hh.symm.trans hh'
      exact hd
    · obtain ⟨⟨s₁, e₁⟩, hq', he⟩ := Option.map_eq_some_iff.mp h
      obtain ⟨host₁, host', hh', hs, rfl⟩ := touch_eq_some hq'
      cases he
      exact .halt amx connectionId pointer remaining host₁ host' _ e₁ ht (.inr rfl) hh' hs
    · obtain ⟨⟨s₁, e₁⟩, hq', he⟩ := Option.map_eq_some_iff.mp h
      obtain ⟨host₁, host', hh', hs, rfl⟩ := touch_eq_some hq'
      cases he
      exact .halt amx connectionId pointer remaining host₁ host' _ e₁ ht (.inl rfl) hh' hs
    · obtain ⟨⟨s₁, e₁⟩, hq', he⟩ := Option.map_eq_some_iff.mp h
      obtain ⟨host₁, host', hh', hs, rfl⟩ := touch_eq_some hq'
      cases he
      exact .destroy amx connectionId pointer remaining host₁ host' e₁ ht hh' hs

theorem pluginStep_of_step {lib : Externals} {a : PluginAction} {e : PluginEvent}
    (h : Plugin.step lib s a = some (s', e)) : PluginStep s a e s' := by
  unfold Plugin.step at h
  split at h
  next => cases h
  next pointer input => exact pluginStep_of_clientStep h
  next amx native params ht =>
    split_ifs at h with hr
    have ho : StepOfOutcome s amx native params (s.callNative lib amx params native) :=
      step_of_callNative ht lib native
    split at h
    next hn => cases h; rw [hn] at ho; exact ho
    next hn => cases h; rw [hn] at ho; exact ho
    next hn => cases h; rw [hn] at ho; exact ho
    next hn => cases h; rw [hn] at ho; exact ho
  next amx ht =>
    split_ifs at h
    cases h
    exact .unload amx ht
  next ht =>
    split_ifs at h with hi
    cases h
    exact .frame ht (Option.isNone_iff_eq_none.mp hi)
  next publics ht => exact pluginStep_of_tick ht h
  next amx params pointer ht =>
    obtain ⟨⟨s₁, e₁⟩, hq, he⟩ := Option.map_eq_some_iff.mp h
    obtain ⟨host, host', hh, hs, rfl⟩ := touch_eq_some hq
    cases he
    exact .stopped amx params pointer host host' e₁ ht hh hs
  next amx ht => cases h; exact .unloaded amx ht
  next amx connectionId pointer remaining ht => exact pluginStep_of_delete ht h
  next => cases h

end MysqlPlugin
