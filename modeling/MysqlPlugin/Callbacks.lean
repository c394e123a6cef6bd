import MysqlPlugin.CallbackDispatch
import MysqlPlugin.QueryOrigins
import MysqlPlugin.ScriptReads

namespace MysqlPlugin

/-- What the plugin asks the AMX of a script to do. A pushed string takes memory
there, which the plugin finds again in a cell of its own. -/
inductive AmxCall
  | pushString (stringCell : Nat) (text : Bytes)
  | push (value : Cell)
  | exec (index : Int32)
  | release (stringCell : Nat)
  deriving DecidableEq

namespace Script

def connectionAttemptCalls (connectionId : UInt32) (result : ConnectionAttemptResult)
    (index : Int32) : List AmxCall :=
  [.pushString 0 (cString result.error), .push result.errorNumber,
    .pushString 1 (cString result.username), .pushString 2 (cString result.hostname),
    .push (if result.succeeded then 1 else 0), .push connectionId.toInt32, .exec index,
    .release 0, .release 1, .release 2]

def queryErrorCalls (connectionId : UInt32) (result : FailedQueryResult) (index : Int32) :
    List AmxCall :=
  [.pushString 0 (cString result.error), .push result.errorNumber,
    .pushString 1 (cString result.callback), .pushString 2 (cString result.query),
    .push connectionId.toInt32, .exec index, .release 0, .release 1, .release 2]

def callbackCalls (result : SucceededQueryResult) (index : Int32) : List AmxCall :=
  [.push result.dataId, .push result.resultId, .exec index]

def amxCalls (connectionId : UInt32) : HostEvent → List AmxCall
  | .onConnectionAttempt result (some index) => connectionAttemptCalls connectionId result index
  | .onQueryError result (some index) => queryErrorCalls connectionId result index
  | .callback result (some index) => callbackCalls result index
  | _ => []

end Script

namespace Callbacks

open CallbackDispatch (ScriptCall)
open ClientInvariant ConnectionClient HostHistory NativeQueries PendingResults QueryAccounting
open QueryOrigins ScriptReads StatementExecution StatementHistory Transition

inductive Argument
  | cell (value : Cell)
  | text (text : Bytes)
  deriving DecidableEq

def pushed : AmxCall → Option Argument
  | .pushString _ text => some (.text text)
  | .push value => some (.cell value)
  | _ => none

def stringCell : AmxCall → Option Nat
  | .pushString stringCell _ => some stringCell
  | _ => none

/-- A public function is run once, on what was pushed before it, the last one in
front. Then every string is given back, once. -/
structure Executes (calls : List AmxCall) (index : Int32) (arguments : List Argument) : Prop where
  calls : ∃ pushes, calls =
    pushes ++ .exec index :: (pushes.filterMap stringCell).map AmxCall.release ∧
      (pushes.map pushed).reverse = arguments.map some ∧ (pushes.filterMap stringCell).Nodup

/-- The request of the call of mysql_connect that a script got this handle from. -/
structure Opened (tr : List PluginEvent) (p : Nat) (amx : Amx) (handle : Cell)
    (request : ConnectionInformation) : Prop where
  call : ∃ hostname username password database port,
    .returned amx .connect [hostname, username, password, database, port] handle
      (some (p, .connectionRequested request)) ∈ tr ∧
    amxStrParam hostname = some request.hostname ∧ amxStrParam username = some request.username ∧
    amxStrParam password = some request.password ∧ amxStrParam database = some request.database

def attempted (es : List HostEvent) : List (ConnectAnswer × ConnectionAttemptResult) :=
  es.filterMap fun
    | .client _ (.connected answer result) => some (answer, result)
    | _ => none

theorem attempted_append (es fs : List HostEvent) :
    attempted (es ++ fs) = attempted es ++ attempted fs :=
  List.filterMap_append

/-- A client knows no request but this one. Each of its results says what the server
answered to an attempt for it, and they are queued in the order of the attempts. -/
structure Informed (request : ConnectionInformation) (es : List HostEvent) (c : ConnectionClient) :
    Prop where
  queued : ∀ information ∈ c.connectionQueue, information = request
  taken : c.connectionStatus.hasConnectionInformation = true →
    c.connectionStatus.information = request
  answers : ∀ a ∈ attempted es, a.2 = attemptResult request a.1
  reports : (attempted es).map Prod.snd = attempts es ++ unreported c.point

theorem Informed.extend {request : ConnectionInformation} {es : List HostEvent}
    {c c' : ConnectionClient} {e : HostEvent} (hi : Informed request es c)
    (hq : ∀ information ∈ c'.connectionQueue, information = request)
    (ht : c'.connectionStatus.hasConnectionInformation = true →
      c'.connectionStatus.information = request)
    (ha : ∀ a ∈ attempted [e], a.2 = attemptResult request a.1)
    (hu : unreported c.point ++ (attempted [e]).map Prod.snd =
      attempts [e] ++ unreported c'.point) : Informed request (es ++ [e]) c' := by
  refine ⟨hq, ht, ?_, ?_⟩
  · rw [attempted_append]
    exact fun a hm => (List.mem_append.mp hm).elim (hi.answers a) (ha a)
  · rw [attempted_append, attempts_append, List.map_append, hi.reports, List.append_assoc, hu,
      List.append_assoc]

theorem informed_clientStep {request : ConnectionInformation} {es : List HostEvent}
    {c c' : ConnectionClient} {now : Nat} {e : ClientEvent} (h : ClientStep c now e c')
    (hs : Sound c) (hi : Informed request es c) : Informed request (es ++ [.client now e]) c' := by
  have hq := hi.queued
  have ht := hi.taken
  cases h with
  | again hp | leave hp | sleep hp | seeInformation hp | dueAttempt hp | duePing hp | seeQuery hp
  | startAttempt hp | pushAttempt _ hp | stampAttempt hp | stampPing hp | ping _ hp | popQuery _ _ hp
  | query _ _ _ hp | register _ _ _ _ _ hp | seeRemaining _ hp | endDrain _ hp | popRemaining _ _ _ hp
  | close hp | skipClose hp =>
      apply hi.extend
      · exact hq
      · exact ht
      · simp [attempted]
      · simp [hp, attempted, attempts, unreported]
  | quiet _ caller _ hp | fail _ caller _ _ hp | succeed _ caller _ _ hp =>
      apply hi.extend
      · exact hq
      · exact ht
      · simp [attempted]
      · rw [unreported_resume, hp]
        rfl
  | popInformation information queue hp hc =>
      rw [hc, List.forall_mem_cons] at hq
      apply hi.extend
      · exact hq.2
      · exact fun _ => hq.1
      · simp [attempted]
      · simp [hp, attempted, attempts, unreported]
  | connect answer hp =>
      have hinfo := (hs.attempting (by rw [hp]; rfl)).1
      apply hi.extend
      · exact hq
      · exact ht
      · simp [attempted, ht hinfo]
      · simp [hp, attempted, attempts, unreported]

theorem informed_hostStep {request : ConnectionInformation} {es : List HostEvent}
    {h h' : ConnectionHost} {a : HostAction} {e : HostEvent} (hs : HostStep h a e h')
    (hc : Sound h.client) (ha : ∀ request, a ≠ .connect request) (hi : Informed request es h.client) :
    Informed request (es ++ [e]) h'.client := by
  cases hs with
  | client results input e c hc' => exact informed_clientStep hc' hc hi
  | connect request => exact absurd rfl (ha request)
  | query | startTick | seePending | seeNothing | endCallback | onConnectionAttempt | onQueryError
  | callback | requestShutdown | join | destroy =>
      apply hi.extend
      · exact hi.queued
      · exact hi.taken
      · simp [attempted]
      · simp [attempted, attempts]

theorem Opened.mono {tr : List PluginEvent} {p : Nat} {amx : Amx} {handle : Cell}
    {request : ConnectionInformation} (ho : Opened tr p amx handle request) (e : PluginEvent) :
    Opened (tr ++ [e]) p amx handle request := by
  obtain ⟨hostname, username, password, database, port, hmem, hparams⟩ := ho
  exact ⟨hostname, username, password, database, port, List.mem_append_left _ hmem, hparams⟩

def HostsOpened (tr : List PluginEvent) (s : Plugin) : Prop :=
  ∀ p h, s.hosts[p]? = some h → ∃ request,
    Opened tr p h.script.runtime h.connectionId.toInt32 request ∧
      Informed request (history p tr) h.client

section

variable {tr : List PluginEvent} {s s' : Plugin} {e : PluginEvent}

theorem HostsOpened.same (ho : HostsOpened tr s) (he : hostEvent e = none)
    (hh : s'.hosts = s.hosts) : HostsOpened (tr ++ [e]) s' := by
  intro p h hp
  obtain ⟨request, hopened, hi⟩ := ho p h (hh ▸ hp)
  refine ⟨request, hopened.mono e, ?_⟩
  simpa [history_snoc, hostEventAt, he] using hi

theorem HostsOpened.moved (ho : HostsOpened tr s) (hp : Projects tr s) {q : Nat}
    {h h' : ConnectionHost} {a : HostAction} {ev : HostEvent} (hh : s.hosts[q]? = some h)
    (hs : ConnectionHost.step h a = some (h', ev)) (ha : ∀ request, a ≠ .connect request)
    (he : hostEvent e = some (q, ev)) (hh' : s'.hosts = s.hosts.set q h') :
    HostsOpened (tr ++ [e]) s' := by
  intro p g hg
  rw [hh', getElem?_set_some hh] at hg
  rw [history_snoc, hostEventAt, he]
  rcases hg with ⟨rfl, rfl⟩ | ⟨hq, hg⟩
  · obtain ⟨script, id, hreach⟩ := hp.run q h hh
    obtain ⟨request, hopened, hi⟩ := ho q h hh
    have hstep := (hostStep_of_step hs).2
    refine ⟨request, ?_, ?_⟩
    · rw [hstep.runtime_eq, hstep.connectionId_eq]
      exact hopened.mono e
    · simpa using informed_hostStep hstep (reach_sound hreach) ha hi
  · obtain ⟨request, hopened, hi⟩ := ho p g hg
    exact ⟨request, hopened.mono e, by simpa [hq] using hi⟩

theorem request_of_mysqlConnect {amx : Amx} {params : List Param} {value : Cell} {p : Nat}
    {request : ConnectionInformation}
    (h : s.mysqlConnect amx params = .returned s' value (some (p, .connectionRequested request))) :
    ∃ hostname username password database port,
      params = [hostname, username, password, database, port] ∧
      amxStrParam hostname = some request.hostname ∧ amxStrParam username = some request.username ∧
      amxStrParam password = some request.password ∧ amxStrParam database = some request.database := by
  unfold Plugin.mysqlConnect at h
  split at h
  next hostname username password database port =>
    split at h
    next hh hu hp hd =>
      cases h
      exact ⟨hostname, username, password, database, port, rfl, hh, hu, hp, hd⟩
    next => cases h
  next => cases h

theorem hostsOpened_step {lib : Externals} {a : PluginAction} (hp : Projects tr s)
    (h : Plugin.step lib s a = some (s', e)) (ho : HostsOpened tr s) :
    HostsOpened (tr ++ [e]) s' := by
  cases pluginStep_of_step h with
  | connect amx params request ht =>
      obtain ⟨hostname, username, password, database, port, rfl, hstrings⟩ :=
        request_of_mysqlConnect (callNative_of_step ht h)
      intro p g hg
      rw [history_snoc]
      rcases getElem?_snoc_some.mp hg with hg | ⟨rfl, rfl⟩
      · have hq : s.hosts.length ≠ p := Nat.ne_of_gt (List.getElem?_eq_some_iff.mp hg).1
        obtain ⟨request', hopened, hi⟩ := ho p g hg
        exact ⟨request', hopened.mono _, by simpa [hostEventAt, hostEvent, hq] using hi⟩
      · have hn : history s.hosts.length tr = [] :=
          hp.unused _ (List.getElem?_eq_none (Nat.le_refl _))
        refine ⟨request, ⟨hostname, username, password, database, port, ?_, hstrings⟩, ?_⟩
        · exact List.mem_append_right _ (List.mem_singleton_self _)
        · constructor <;> simp [hn, hostEventAt, hostEvent, attempted, attempts,
            ConnectionHost.connect, ConnectionHost.new, ConnectionClient.new,
            ThreadSafeQueue.push, ConnectionStatus.new, unreported]
  | client q input g g' ev c ev' results hh hs | query _ _ _ _ q _ g g' ev _ _ _ hh hs
  | stop _ _ _ q g g' ev _ _ hh hs | stopped _ _ q g g' ev _ hh hs
  | tick _ _ q g g' ev _ _ _ hh hs | destroy _ _ q _ g g' ev _ hh hs =>
      exact ho.moved hp hh hs (by simp) rfl rfl
  | halt _ _ q _ g g' a' ev _ ha hh hs =>
      exact ho.moved hp hh hs (by rcases ha with rfl | rfl <;> simp) rfl rfl
  | frame => exact ho.same rfl s.processTick_hosts
  | _ => exact ho.same rfl rfl

end

theorem reach_hostsOpened {lib : Externals} {tr : List PluginEvent} {s : Plugin}
    (hr : Reach (Plugin.step lib) Plugin.new tr s) : HostsOpened tr s := by
  induction hr with
  | start => simp [HostsOpened, Plugin.new]
  | step hr hs ih => exact hostsOpened_step (reach_projects hr) hs ih

/-- What amx_FindPublic answers while a tick is at this connection. -/
def offer (p : Nat) (s : Plugin) : PluginAction → Option Publics
  | .tick publics =>
      if s.iterator.bind s.connectionController.connection = some p then some publics else none
  | _ => none

/-- A lookup of this name gave the index, or gave none, for which a cell keeps -1. -/
def FoundPublic (offered : List Publics) (name : Bytes) : Option Int32 → Prop
  | some index => ∃ publics ∈ offered, publics name = some index
  | none =>
      ∃ publics ∈ offered, publics name = none ∨ publics name = some Script.callbackNotFoundIndex

theorem FoundPublic.mono {offered offered' : List Publics} {name : Bytes} {index : Option Int32}
    (hf : FoundPublic offered name index) (h : offered ⊆ offered') :
    FoundPublic offered' name index := by
  cases index with
  | none =>
      obtain ⟨publics, hm, hn⟩ := hf
      exact ⟨publics, h hm, hn⟩
  | some index =>
      obtain ⟨publics, hm, hs⟩ := hf
      exact ⟨publics, h hm, hs⟩

def Remembers (offered : List Publics) (name : Bytes) (cell : Int32) : Prop :=
  cell ≠ 0 → FoundPublic offered name (if cell = Script.callbackNotFoundIndex then none else some cell)

theorem remembers_lookup {offered : List Publics} {name : Bytes} {cell : Int32}
    (hr : Remembers offered name cell) (publics : Publics) :
    FoundPublic (offered ++ [publics]) name (Script.lookup publics name cell).2 ∧
      Remembers (offered ++ [publics]) name (Script.lookup publics name cell).1 := by
  have hmono {index : Option Int32} (hf : FoundPublic offered name index) :
      FoundPublic (offered ++ [publics]) name index := hf.mono (List.subset_append_left ..)
  have hmem : publics ∈ offered ++ [publics] := List.mem_append_right _ (List.mem_singleton_self _)
  unfold Script.lookup
  split_ifs with hn hz
  · have hf := hr (by rw [hn]; decide)
    rw [if_pos hn] at hf
    exact ⟨hmono hf, fun _ => by rw [if_pos hn]; exact hmono hf⟩
  · cases hp : publics name with
    | none =>
        exact ⟨⟨publics, hmem, .inl hp⟩, fun _ => ⟨publics, hmem, .inl hp⟩⟩
    | some found =>
        refine ⟨⟨publics, hmem, hp⟩, fun _ => ?_⟩
        split_ifs with hf
        · exact ⟨publics, hmem, .inr (hf ▸ hp)⟩
        · exact ⟨publics, hmem, hp⟩
  · have hf := hr hz
    rw [if_neg hn] at hf
    exact ⟨hmono hf, fun _ => by rw [if_neg hn]; exact hmono hf⟩

structure LookedUp (offered : List Publics) (script : Script) : Prop where
  connectionAttempt :
    Remembers offered ScriptCall.onConnectionAttempt.name script.onConnectionAttemptIndex
  queryError : Remembers offered ScriptCall.onQueryError.name script.onQueryErrorIndex

theorem LookedUp.mono {offered : List Publics} {script : Script} (hl : LookedUp offered script)
    (more : List Publics) : LookedUp (offered ++ more) script :=
  ⟨fun hz => (hl.connectionAttempt hz).mono (List.subset_append_left ..),
    fun hz => (hl.queryError hz).mono (List.subset_append_left ..)⟩

theorem lookedUp_hostStep {offered : List Publics} {publics : Publics} {h h' : ConnectionHost}
    {e : HostEvent} (hs : HostStep h (.processTick publics) e h') (hl : LookedUp offered h.script) :
    LookedUp (offered ++ [publics]) h'.script := by
  have hmono := hl.mono [publics]
  cases hs with
  | onConnectionAttempt _ result rest hj ht hq =>
      exact ⟨(remembers_lookup hl.connectionAttempt publics).2, hmono.queryError⟩
  | onQueryError _ result rest hj ht hq =>
      exact ⟨hmono.connectionAttempt, (remembers_lookup hl.queryError publics).2⟩
  | _ => exact hmono

theorem script_eq_of_hostStep {h h' : ConnectionHost} {a : HostAction} {e : HostEvent}
    (hs : HostStep h a e h') (ha : ∀ publics, a ≠ .processTick publics) : h'.script = h.script := by
  cases hs with
  | startTick publics | seePending publics | seeNothing publics | endCallback publics
  | onConnectionAttempt publics | onQueryError publics | callback publics =>
      exact absurd rfl (ha publics)
  | _ => rfl

def Remembered (p : Nat) (offered : List Publics) (s : Plugin) : Prop :=
  ∀ h, s.hosts[p]? = some h → LookedUp offered h.script

section

variable {p : Nat} {offered : List Publics} {s s' : Plugin}

theorem Remembered.same (hr : Remembered p offered s) (hh : s'.hosts = s.hosts)
    (more : List Publics) : Remembered p (offered ++ more) s' :=
  fun h hp => (hr h (hh ▸ hp)).mono more

theorem Remembered.moved (hr : Remembered p offered s) {q : Nat} {h h' : ConnectionHost}
    {a : HostAction} {ev : HostEvent} (hh : s.hosts[q]? = some h)
    (hs : ConnectionHost.step h a = some (h', ev)) (ha : ∀ publics, a ≠ .processTick publics)
    (hh' : s'.hosts = s.hosts.set q h') (more : List Publics) :
    Remembered p (offered ++ more) s' := by
  intro g hg
  rw [hh', getElem?_set_some hh] at hg
  rcases hg with ⟨rfl, rfl⟩ | ⟨-, hg⟩
  · rw [script_eq_of_hostStep (hostStep_of_step hs).2 ha]
    exact (hr h hh).mono more
  · exact (hr g hg).mono more

theorem remembered_step {lib : Externals} {a : PluginAction} {e : PluginEvent}
    (h : Plugin.step lib s a = some (s', e)) (hr : Remembered p offered s) :
    Remembered p (offered ++ (offer p s a).toList) s' := by
  cases pluginStep_of_step h with
  | tick publics id q g g' ev ht hi hc hh hs =>
      intro k hk
      rw [getElem?_set_some hh] at hk
      rcases hk with ⟨rfl, rfl⟩ | ⟨-, hk⟩
      · rw [offer, hi, Option.bind_some, if_pos hc]
        exact lookedUp_hostStep (hostStep_of_step hs).2 (hr g hh)
      · exact (hr k hk).mono _
  | connect amx params request ht =>
      intro k hk
      rcases getElem?_snoc_some.mp hk with hk | ⟨-, rfl⟩
      · exact (hr k hk).mono _
      · exact ⟨fun hz => absurd rfl hz, fun hz => absurd rfl hz⟩
  | client q input g g' ev c ev' results hh hs | query _ _ _ _ q _ g g' ev _ _ _ hh hs
  | stop _ _ _ q g g' ev _ _ hh hs | stopped _ _ q g g' ev _ hh hs
  | destroy _ _ q _ g g' ev _ hh hs =>
      exact hr.moved hh hs (by simp) rfl _
  | halt _ _ q _ g g' a' ev _ ha hh hs =>
      exact hr.moved hh hs (by rcases ha with rfl | rfl <;> simp) rfl _
  | frame => exact hr.same s.processTick_hosts _
  | _ => exact hr.same rfl _

end

theorem remembered_run (lib : Externals) (acts : List PluginAction) (p : Nat) :
    Remembered p (observed (Plugin.step lib) (offer p) Plugin.new acts)
      (run (Plugin.step lib) Plugin.new acts).2 := by
  have hall : Along (Plugin.step lib) (fun _ _ _ => True) [] Plugin.new acts :=
    along_of_forall _ (fun _ _ _ _ => trivial) _ _
  have h₀ : Remembered p [] Plugin.new := fun h hp => absurd hp (by simp [Plugin.new])
  simpa only [List.nil_append] using
    observed_invariant (P := fun _ offered s => Remembered p offered s) hall h₀
      fun hr _ hs => remembered_step hs hr

theorem zero_notMem_callback (callback : Param) : 0 ∉ (amxStrParam callback).getD [] := by
  cases h : amxStrParam callback with
  | none => simp
  | some text => exact zero_notMem_amxStrParam h

theorem texts_of_mysqlQuery {s s' : Plugin} {params : List Param} {value : Cell} {p : Nat}
    {information : QueryInformation}
    (h : s.mysqlQuery params = .returned s' value (some (p, .querySubmitted information))) :
    0 ∉ information.query ∧ 0 ∉ information.callback := by
  unfold Plugin.mysqlQuery at h
  split at h
  next connectionId query callback dataId =>
    split at h
    next hq =>
      cases touched_of_query h
      exact ⟨zero_notMem_amxStrParam hq, zero_notMem_callback callback⟩
    next => cases h
  next => cases h

theorem texts_of_accepted {lib : Externals} {s s' : Plugin} {a : PluginAction} {e : PluginEvent}
    (hs : Plugin.step lib s a = some (s', e)) {p : Nat} {information : QueryInformation}
    (he : acceptedRequest p e = some information) :
    0 ∉ information.query ∧ 0 ∉ information.callback := by
  cases pluginStep_of_step hs with
  | query amx native params id q request h h' ev ht hn hc hh hstep =>
      cases (hostStep_of_step hstep).2
      have hcall := callNative_of_step ht hs
      simp only [acceptedRequest, hn, true_and] at he
      split_ifs at he with hq
      cases he
      cases native with
      | query => exact texts_of_mysqlQuery hcall
      | statementExecute =>
          obtain ⟨connectionId, statementId, callback, dataId, arguments, rfl⟩ :=
            params_of_mysqlStatementExecute hcall
          obtain ⟨_, statement, parameters, query, -, -, -, -, hq⟩ := of_returned_one hcall
          cases hq
          exact ⟨zero_notMem_cString query, zero_notMem_callback callback⟩
      | _ => simp [Native.submits] at hn
  | stopped amx params q h h' e ht hh hstep =>
      cases (hostStep_of_step hstep).2
      simp [acceptedRequest] at he
  | _ => simp [acceptedRequest] at he

theorem texts_of_mem {lib : Externals} {tr : List PluginEvent} {s : Plugin}
    (hr : Reach (Plugin.step lib) Plugin.new tr s) {p : Nat} {information : QueryInformation}
    (hi : information ∈ accepted p tr) : 0 ∉ information.query ∧ 0 ∉ information.callback := by
  obtain ⟨e, he, ha⟩ := List.mem_filterMap.mp hi
  obtain ⟨before, after, rfl⟩ := List.append_of_mem he
  obtain ⟨t, a, t', -, hs⟩ := hr.split
  exact texts_of_accepted hs ha

def attemptArguments (handle : Cell) (request : ConnectionInformation) : ConnectAnswer → List Argument
  | .connected =>
      [.cell handle, .cell 1, .text request.hostname, .text request.username, .cell 0, .text []]
  | .refused error errorNumber =>
      [.cell handle, .cell 0, .text request.hostname, .text request.username,
        .cell errorNumber.toInt32, .text (cString error)]

def errorArguments (handle : Cell) (information : QueryInformation) (answer : QueryAnswer) :
    List Argument :=
  [.cell handle, .text information.query, .text information.callback,
    .cell answer.errorNumber.toInt32, .text (cString answer.error)]

def resultArguments (information : QueryInformation) (resultId : UInt32) : List Argument :=
  [.cell resultId.toInt32, .cell information.dataId.toInt32]

theorem executes_connectionAttempt (connectionId : UInt32) {request : ConnectionInformation}
    (answer : ConnectAnswer) (index : Int32) (hh : 0 ∉ request.hostname) (hu : 0 ∉ request.username) :
    Executes (Script.connectionAttemptCalls connectionId (attemptResult request answer) index) index
      (attemptArguments connectionId.toInt32 request answer) := by
  have hn : ([0, 1, 2] : List Nat).Nodup := by decide
  have hnil : cString [] = [] := rfl
  refine ⟨(Script.connectionAttemptCalls connectionId (attemptResult request answer) index).take 6,
    rfl, ?_, hn⟩
  cases answer <;>
    simp [Script.connectionAttemptCalls, attemptResult, attemptArguments, pushed,
      cString_eq_self hh, cString_eq_self hu, hnil]

theorem executes_queryError (connectionId : UInt32) {q : ExecutedQuery} (index : Int32)
    (hq : 0 ∉ q.information.query) (hc : 0 ∉ q.information.callback) :
    Executes (Script.queryErrorCalls connectionId (failureMessage q) index) index
      (errorArguments connectionId.toInt32 q.information q.answer) := by
  have hn : ([0, 1, 2] : List Nat).Nodup := by decide
  refine ⟨(Script.queryErrorCalls connectionId (failureMessage q) index).take 5, rfl, ?_, hn⟩
  simp [Script.queryErrorCalls, failureMessage, errorArguments, pushed, cString_eq_self hq,
    cString_eq_self hc]

theorem executes_callback (information : QueryInformation) (resultId : UInt32) (index : Int32) :
    Executes (Script.callbackCalls (successMessage information resultId) index) index
      (resultArguments information resultId) :=
  ⟨[.push information.dataId.toInt32, .push resultId.toInt32], rfl, rfl, List.nodup_nil⟩

/-- What the host thread asks of the script while it ticks a connection. The n-th
result it hands out is that of the n-th attempt to reach the server that the script
named, the n-th error is that of the n-th query that failed, and so it is for the
successes. The public function is the one that a lookup of its name has found. -/
inductive Tells (tr : List PluginEvent) (p : Nat) (request : ConnectionInformation)
    (handle : Cell) (offered : List Publics) (publics : Publics) : HostEvent → List AmxCall → Prop
  | nothing : Tells tr p request handle offered publics .ticked []
  | noAttempt (result : ConnectionAttemptResult)
      (hindex : FoundPublic offered ScriptCall.onConnectionAttempt.name none) :
      Tells tr p request handle offered publics (.onConnectionAttempt result none) []
  | noError (result : FailedQueryResult)
      (hindex : FoundPublic offered ScriptCall.onQueryError.name none) :
      Tells tr p request handle offered publics (.onQueryError result none) []
  | noCallback (result : SucceededQueryResult)
      (hindex : Script.callback publics result.callback = none) :
      Tells tr p request handle offered publics (.callback result none) []
  | attempt (answer : ConnectAnswer) (index : Int32) (calls : List AmxCall)
      (ha : (attempted (history p tr))[(handedAttempts (history p tr)).length]? =
        some (answer, attemptResult request answer))
      (hindex : FoundPublic offered ScriptCall.onConnectionAttempt.name (some index))
      (hc : Executes calls index (attemptArguments handle request answer)) :
      Tells tr p request handle offered publics
        (.onConnectionAttempt (attemptResult request answer) (some index)) calls
  | error (q : ExecutedQuery) (index : Int32) (calls : List AmxCall)
      (hq : ((executed (history p tr)).filter DueFailure)[(handedFailures (history p tr)).length]? =
        some q)
      (hi : q.information ∈ accepted p tr)
      (hindex : FoundPublic offered ScriptCall.onQueryError.name (some index))
      (hc : Executes calls index (errorArguments handle q.information q.answer)) :
      Tells tr p request handle offered publics (.onQueryError (failureMessage q) (some index)) calls
  | success (q : ExecutedQuery) (id : UInt32) (index : Int32) (calls : List AmxCall)
      (hq : ((executed (history p tr)).filter DueSuccess)[(handedSuccesses (history p tr)).length]? =
        some q)
      (hi : q.information ∈ accepted p tr) (hid : q.resultId = some id)
      (hindex : Script.callback publics q.information.callback = some index)
      (hc : Executes calls index (resultArguments q.information id)) :
      Tells tr p request handle offered publics
        (.callback (successMessage q.information id) (some index)) calls

theorem getElem?_of_front {α β : Type} {f : α → β} {l : List α} {handed rest : List β} {b : β}
    (h : handed ++ b :: rest = l.map f) : ∃ a, l[handed.length]? = some a ∧ f a = b := by
  have hget : (l.map f)[handed.length]? = some b := by
    rw [← h, List.getElem?_append_right (Nat.le_refl _), Nat.sub_self, List.getElem?_cons_zero]
  rw [List.getElem?_map] at hget
  exact Option.map_eq_some_iff.mp hget

section

variable {es : List HostEvent} {c : ConnectionClient}

theorem front_attempt {request : ConnectionInformation} {result : ConnectionAttemptResult}
    {rest : ThreadSafeQueue ConnectionAttemptResult} (hi : Informed request es c)
    (hr : Reported es c) (hq : c.connectionAttemptQueue = result :: rest) :
    ∃ answer, (attempted es)[(handedAttempts es).length]? =
        some (answer, attemptResult request answer) ∧ result = attemptResult request answer := by
  have hreports := hi.reports
  rw [← hr.queue, hq, List.append_assoc, List.cons_append] at hreports
  obtain ⟨⟨answer, result'⟩, hget, hfront⟩ := getElem?_of_front hreports.symm
  obtain rfl : result' = result := hfront
  obtain rfl : result' = attemptResult request answer :=
    hi.answers _ (List.mem_of_getElem? hget)
  exact ⟨answer, hget, rfl⟩

theorem front_failure {result : FailedQueryResult} {rest : ThreadSafeQueue FailedQueryResult}
    (ha : Accounted es c) (hq : c.failedQueryQueue = result :: rest) :
    ∃ q, ((executed es).filter DueFailure)[(handedFailures es).length]? = some q ∧
      result = failureMessage q := by
  obtain ⟨q, hget, hfront⟩ := getElem?_of_front (hq ▸ ha.failures)
  exact ⟨q, hget, hfront.symm⟩

theorem front_success {result : SucceededQueryResult} {rest : ThreadSafeQueue SucceededQueryResult}
    (ha : Accounted es c) (hq : c.succeededQueryQueue = result :: rest) :
    ∃ q id, ((executed es).filter DueSuccess)[(handedSuccesses es).length]? = some q ∧
      q.resultId = some id ∧ result = successMessage q.information id := by
  have hsuccesses := ha.successes
  rw [hq, List.map_append, List.map_cons] at hsuccesses
  obtain ⟨q, hget, hfront⟩ := getElem?_of_front hsuccesses
  rw [List.length_map] at hget
  obtain ⟨id, hid, hmessage⟩ := Option.map_eq_some_iff.mp hfront
  exact ⟨q, id, hget, hid, hmessage.symm⟩

end

theorem information_accepted {lib : Externals} {tr : List PluginEvent} {s : Plugin}
    (hr : Reach (Plugin.step lib) Plugin.new tr s) {p : Nat} {h : ConnectionHost}
    (hh : s.hosts[p]? = some h) {due : ExecutedQuery → Prop} [DecidablePred due] {n : Nat}
    {q : ExecutedQuery} (hq : ((executed (history p tr)).filter due)[n]? = some q) :
    q.information ∈ accepted p tr := by
  rw [accepted_eq_submitted hr, (accounted_of_host (reach_projects hr) hh).submissions]
  have hm := (List.mem_filter.mp (List.mem_of_getElem? hq)).1
  exact List.mem_append_left _ (List.mem_map_of_mem hm)

theorem tells_of_step {lib : Externals} {tr : List PluginEvent} {s : Plugin}
    (hr : Reach (Plugin.step lib) Plugin.new tr s) {p : Nat} {h h' : ConnectionHost}
    (hh : s.hosts[p]? = some h) {request : ConnectionInformation}
    (hi : Informed request (history p tr) h.client) (hhost : 0 ∉ request.hostname)
    (huser : 0 ∉ request.username) {offered : List Publics} (hl : LookedUp offered h.script)
    {publics : Publics} {e : HostEvent} (hs : HostStep h (.processTick publics) e h') :
    Tells tr p request h.connectionId.toInt32 (offered ++ [publics]) publics e
      (Script.amxCalls h.connectionId e) := by
  have ha := accounted_of_host (reach_projects hr) hh
  cases hs with
  | startTick | seePending | seeNothing | endCallback => exact .nothing
  | onConnectionAttempt _ result rest hj ht hq =>
      obtain ⟨script, id, hreach⟩ := (reach_projects hr).run p h hh
      obtain ⟨answer, hget, rfl⟩ := front_attempt hi (reach_reported hreach) hq
      have hfound : FoundPublic (offered ++ [publics]) ScriptCall.onConnectionAttempt.name
          (h.script.onConnectionAttempt publics).2 :=
        (remembers_lookup hl.connectionAttempt publics).1
      cases hx : (h.script.onConnectionAttempt publics).2 with
      | none => exact .noAttempt _ (hx ▸ hfound)
      | some index =>
          exact .attempt answer index _ hget (hx ▸ hfound)
            (executes_connectionAttempt _ answer index hhost huser)
  | onQueryError _ result rest hj ht hq =>
      obtain ⟨q, hget, rfl⟩ := front_failure ha hq
      have hacc := information_accepted hr hh hget
      obtain ⟨hquery, hcallback⟩ := texts_of_mem hr hacc
      have hfound : FoundPublic (offered ++ [publics]) ScriptCall.onQueryError.name
          (h.script.onQueryError publics).2 :=
        (remembers_lookup hl.queryError publics).1
      cases hx : (h.script.onQueryError publics).2 with
      | none => exact .noError _ (hx ▸ hfound)
      | some index =>
          exact .error q index _ hget hacc (hx ▸ hfound)
            (executes_queryError _ index hquery hcallback)
  | callback _ result rest hj ht hq =>
      obtain ⟨q, id, hget, hid, rfl⟩ := front_success ha hq
      cases hx : Script.callback publics (successMessage q.information id).callback with
      | none => exact .noCallback _ hx
      | some index =>
          exact .success q id index _ hget (information_accepted hr hh hget) hid hx
            (executes_callback q.information id index)

/-- In any run, whatever a tick calls in a script: it is the script that opened the
connection, it is given the handle that mysql_connect returned to it, and each thing
it is told is what came of its own request there, in order. -/
theorem scripts_are_told (lib : Externals) (acts : List PluginAction) {publics : Publics}
    {s' : Plugin} {p : Nat} {e : HostEvent}
    (hs : Plugin.step lib (run (Plugin.step lib) Plugin.new acts).2 (.tick publics) =
      some (s', .host p e)) :
    let tr := (run (Plugin.step lib) Plugin.new acts).1
    let offered := observed (Plugin.step lib) (offer p) Plugin.new acts ++ [publics]
    ∃ h handle request, (run (Plugin.step lib) Plugin.new acts).2.hosts[p]? = some h ∧
      Opened tr p h.script.runtime handle request ∧
      Tells tr p request handle offered publics e (Script.amxCalls h.connectionId e) := by
  have hr := reach_run (Plugin.step lib) Plugin.new acts
  cases pluginStep_of_step hs with
  | tick _ id _ h h' _ ht hi hc hh hstep =>
      obtain ⟨request, ho, hinformed⟩ := reach_hostsOpened hr p h hh
      obtain ⟨_, _, _, _, _, -, hhost, huser, -⟩ := ho.call
      exact ⟨h, _, request, hh, ho, tells_of_step hr hh hinformed (zero_notMem_amxStrParam hhost)
        (zero_notMem_amxStrParam huser) (remembered_run lib acts p h hh) (hostStep_of_step hstep).2⟩

/-- A first attempt that is refused, a second one and a query that fails, all before
the first tick. -/
def refusedFirst : List PluginAction :=
  let failing : QueryAnswer :=
    { QueryAnswer.empty with realQuery := 1, error := [101], errorNumber := 7 }
  let turns (steps now : Nat) (answer : ConnectAnswer) : List PluginAction :=
    List.replicate steps (.client 0 ⟨now, answer, 0, failing⟩)
  [.native 1 .connect [.text "h", .text "u", .text "p", .text "d", .number 3306],
    .native 1 .query [.number 1, .text "q", .text "c", .number 0]] ++
    turns 9 1000 (.refused [110] 2003) ++ turns 15 7000 .connected ++
    List.replicate 11 .processTick ++ List.replicate 8 (.tick fun _ => some 5) ++
    List.replicate 11 .processTick ++ List.replicate 3 (.tick fun _ => some 5)

theorem scripts_are_told_refusedFirst :
    let publics : Publics := fun _ => some 5
    let told (n : Nat) (e : HostEvent) : Prop :=
      let tr := (run (Plugin.step plainText) Plugin.new (refusedFirst.take n)).1
      let offered :=
        observed (Plugin.step plainText) (offer 0) Plugin.new (refusedFirst.take n) ++ [publics]
      ∃ h handle request,
        (run (Plugin.step plainText) Plugin.new (refusedFirst.take n)).2.hosts[0]? = some h ∧
          Opened tr 0 h.script.runtime handle request ∧
          Tells tr 0 request handle offered publics e (Script.amxCalls h.connectionId e)
    told 42 (.onQueryError ⟨[113], [99], [101], 7⟩ (some 5)) ∧
      told 58 (.onConnectionAttempt ⟨[104], [117], [], true, 0⟩ (some 5)) :=
  ⟨scripts_are_told plainText (refusedFirst.take 42) rfl,
    scripts_are_told plainText (refusedFirst.take 58) rfl⟩

end Callbacks

end MysqlPlugin
