import MysqlPlugin.ClientInvariant
import MysqlPlugin.HostHistory
import MysqlPlugin.QueryAccounting

namespace MysqlPlugin.Service

open Transition ConnectionClient ConnectionHost QueryAccounting ClientInvariant HostHistory

/-- A connection serves its script until it is told to close; then so many of
the requests that are left are still executed, and then it is over. -/
inductive Stage
  | serving
  | closing (left : Nat)
  | over
  deriving DecidableEq

/-- What a connection is to the scripts: requests that wait to be executed, and
reports that wait to be told, each kind in its order. -/
structure State where
  stage : Stage
  connected : Bool
  closeRequested : Bool
  requests : List QueryInformation
  attempts : List ConnectionAttemptResult
  failures : List FailedQueryResult
  successes : List SucceededQueryResult

def State.new : State := ⟨.serving, false, false, [], [], [], []⟩

inductive Action
  | submit (request : QueryInformation)
  | attempt (answer : ConnectAnswer) (result : ConnectionAttemptResult)
  | ping (answer : Int32)
  | execute (answer : QueryAnswer) (resultId : Option UInt32)
  | requestClose
  | hangUp
  | leave
  | tellAttempt
  | tellFailure
  | tellSuccess

inductive Observation
  | submitted (request : QueryInformation)
  | attempted (answer : ConnectAnswer) (result : ConnectionAttemptResult)
  | pinged (answer : Int32)
  | executed (query : ExecutedQuery)
  | closeRequested
  | left (connected : Bool)
  | toldAttempt (result : ConnectionAttemptResult)
  | toldFailure (result : FailedQueryResult)
  | toldSuccess (result : SucceededQueryResult)

def successReport (q : ExecutedQuery) : List SucceededQueryResult :=
  if DueSuccess q then (q.resultId.map (successMessage q.information)).toList else []

def failureReport (q : ExecutedQuery) : List FailedQueryResult :=
  if DueFailure q then [failureMessage q] else []

/-- One step of a connection. Hanging up is the one step that nobody sees. -/
def step : Machine State Action (Option Observation) := fun s action =>
  match action with
  | .submit request =>
      match s.stage with
      | .closing _ => none
      | _ => some ({ s with requests := s.requests ++ [request] }, some (.submitted request))
  | .attempt answer result =>
      if s.stage = .serving ∧ s.connected = false ∧ result.succeeded = answer.accepted then
        some ({ s with connected := answer.accepted, attempts := s.attempts ++ [result] },
          some (.attempted answer result))
      else none
  | .ping answer =>
      if s.stage = .serving ∧ s.connected = true then some (s, some (.pinged answer)) else none
  | .execute answer resultId =>
      match s.stage, s.requests with
      | .serving, information :: rest =>
          let q := ⟨information, .normalExecution, answer, resultId⟩
          if s.connected = true ∧ resultId.isSome = decide (DueSuccess q) then
            some ({ s with
                requests := rest
                failures := s.failures ++ failureReport q
                successes := s.successes ++ successReport q }, some (.executed q))
          else none
      | .closing (left + 1), information :: rest =>
          some ({ s with stage := .closing left, requests := rest },
            some (.executed ⟨information, .silentExecution, answer, none⟩))
      | _, _ => none
  | .requestClose =>
      if s.closeRequested = false then
        some ({ s with closeRequested := true }, some .closeRequested)
      else none
  | .hangUp =>
      if s.stage = .serving ∧ s.closeRequested = true then
        some ({ s with
            stage := .closing (if s.connected then min 50 s.requests.length else 0) }, none)
      else none
  | .leave =>
      if s.stage = .closing 0 then some ({ s with stage := .over }, some (.left s.connected)) else none
  | .tellAttempt =>
      match s.attempts with
      | result :: rest => some ({ s with attempts := rest }, some (.toldAttempt result))
      | [] => none
  | .tellFailure =>
      match s.failures with
      | result :: rest => some ({ s with failures := rest }, some (.toldFailure result))
      | [] => none
  | .tellSuccess =>
      match s.successes with
      | result :: rest => some ({ s with successes := rest }, some (.toldSuccess result))
      | [] => none

def stageOf (c : ConnectionClient) : Stage :=
  match c.point with
  | .drainCondition n =>
      .closing (if c.connectionStatus.isConnected then min (50 - n) c.queryQueue.length else 0)
  | .popRemaining n => .closing (min (51 - n) c.queryQueue.length)
  | .query _ (.drain n) | .feedback _ (.drain n) _ | .pushSucceeded _ (.drain n) _ _ =>
      .closing (min (50 - n) c.queryQueue.length + 1)
  | .close => .closing 0
  | .finished => .over
  | _ => .serving

def ofClient (c : ConnectionClient) : State where
  stage := stageOf c
  connected := c.connectionStatus.isConnected
  closeRequested := c.requestShutdown
  requests := inHand c.point ++ c.queryQueue
  attempts := c.connectionAttemptQueue ++ unreported c.point
  failures := c.failedQueryQueue
  successes := c.succeededQueryQueue

def observation : HostEvent → Option Observation
  | .querySubmitted request => some (.submitted request)
  | .onConnectionAttempt result _ => some (.toldAttempt result)
  | .onQueryError result _ => some (.toldFailure result)
  | .callback result _ => some (.toldSuccess result)
  | .shutdownRequested => some .closeRequested
  | .client _ (.connected answer result) => some (.attempted answer result)
  | .client _ (.pinged answer) => some (.pinged answer)
  | .client _ (.executed query) => some (.executed query)
  | .client _ .closed => some (.left true)
  | .client _ .returnedUnclosed => some (.left false)
  | _ => none

def Counted : RunPoint → Prop
  | .popRemaining n | .query _ (.drain n) | .feedback _ (.drain n) _ | .pushSucceeded _ (.drain n) _ _ =>
      n ≤ 50
  | _ => True

def Simulates (s s' : State) (o : Option Observation) : Prop :=
  s' = s ∧ o = none ∨ ∃ action, step s action = some (s', o)

section

variable {c c' : ConnectionClient} {now : Nat}

theorem simulates_quiet {o : Option Observation} (ho : o = none) (hs : stageOf c' = stageOf c)
    (hc : c'.connectionStatus.isConnected = c.connectionStatus.isConnected)
    (hr : c'.requestShutdown = c.requestShutdown)
    (hq : inHand c'.point ++ c'.queryQueue = inHand c.point ++ c.queryQueue)
    (ha : c'.connectionAttemptQueue ++ unreported c'.point =
      c.connectionAttemptQueue ++ unreported c.point)
    (hf : c'.failedQueryQueue = c.failedQueryQueue)
    (hsq : c'.succeededQueryQueue = c.succeededQueryQueue) :
    Simulates (ofClient c) (ofClient c') o := by
  refine .inl ⟨?_, ho⟩
  simp only [ofClient, hs, hc, hr, hq, ha, hf, hsq]

theorem due_of_feedback (q : ExecutedQuery) :
    match (doQuery q.information.query q.information.callback q.executionType q.answer).feedback with
    | .none => ¬ DueSuccess q ∧ ¬ DueFailure q
    | .failed result => ¬ DueSuccess q ∧ DueFailure q ∧ result = failureMessage q
    | .succeeded _ => DueSuccess q := by
  rw [doQuery_feedback]
  split_ifs with hs hf
  · exact hs
  · exact ⟨hs, hf, rfl⟩
  · exact ⟨hs, hf⟩

theorem simulates_quietQuery {information : QueryInformation} {caller : QueryCaller}
    {answer : QueryAnswer} (hs : Sound c) (hp : c.point = .feedback information caller answer)
    (hf : (doQuery information.query information.callback caller.executionType answer).feedback =
      .none) :
    Simulates (ofClient c) (ofClient { c with point := caller.resume })
      (some (.executed ⟨information, caller.executionType, answer, none⟩)) := by
  have hc : c.connectionStatus.isConnected = true := hs.serving (by rw [hp]; rfl)
  have hdue := due_of_feedback ⟨information, caller.executionType, answer, none⟩
  simp only [hf] at hdue
  refine .inr ⟨.execute answer none, ?_⟩
  cases caller with
  | loop =>
      simp [step, ofClient, stageOf, hp, hc, inHand, ClientInvariant.unreported, failureReport,
        successReport, QueryCaller.resume, QueryCaller.executionType] at hdue ⊢
      simp [hdue.1, hdue.2]
  | drain n =>
      simp [step, ofClient, stageOf, hp, hc, inHand, ClientInvariant.unreported,
        QueryCaller.resume, QueryCaller.executionType]

theorem simulates_failedQuery {information : QueryInformation} {caller : QueryCaller}
    {answer : QueryAnswer} {result : FailedQueryResult} (hs : Sound c)
    (hp : c.point = .feedback information caller answer)
    (hf : (doQuery information.query information.callback caller.executionType answer).feedback =
      .failed result) :
    Simulates (ofClient c)
      (ofClient { c with
        failedQueryQueue := c.failedQueryQueue ++ [result]
        point := caller.resume })
      (some (.executed ⟨information, caller.executionType, answer, none⟩)) := by
  have hc : c.connectionStatus.isConnected = true := hs.serving (by rw [hp]; rfl)
  have hdue := due_of_feedback ⟨information, caller.executionType, answer, none⟩
  simp only [hf] at hdue
  obtain ⟨hns, hdf, rfl⟩ := hdue
  refine .inr ⟨.execute answer none, ?_⟩
  cases caller with
  | loop =>
      simp [step, ofClient, stageOf, hp, hc, inHand, ClientInvariant.unreported, failureReport,
        successReport, QueryCaller.resume, QueryCaller.executionType] at hns hdf ⊢
      simp [hns, hdf]
  | drain n => exact absurd hdf.1 (by simp [QueryCaller.executionType])

theorem simulates_succeededQuery {information : QueryInformation} {caller : QueryCaller}
    {answer : QueryAnswer} {resultId : UInt32} (hs : Sound c)
    (hp : c.point = .pushSucceeded information caller answer resultId)
    (hd : DueSuccess ⟨information, caller.executionType, answer, some resultId⟩) :
    Simulates (ofClient c)
      (ofClient { c with
        succeededQueryQueue := c.succeededQueryQueue ++
          [⟨information.callback, resultId.toInt32, information.dataId.toInt32⟩]
        point := caller.resume })
      (some (.executed ⟨information, caller.executionType, answer, some resultId⟩)) := by
  have hc : c.connectionStatus.isConnected = true := hs.serving (by rw [hp]; rfl)
  have hnf := not_dueFailure hd
  refine .inr ⟨.execute answer (some resultId), ?_⟩
  cases caller with
  | loop =>
      simp [step, ofClient, stageOf, hp, hc, inHand, ClientInvariant.unreported, failureReport,
        successReport, successMessage, QueryCaller.resume, QueryCaller.executionType] at hd hnf ⊢
      simp [hd, hnf]
  | drain n => exact absurd hd.1 (by simp [QueryCaller.executionType])

theorem simulates_clientStep {e : ClientEvent} (h : ClientStep c now e c') (hs : Sound c)
    (hd : ∀ q ∈ unannounced c.point, DueSuccess q) (hn : Counted c.point) :
    Simulates (ofClient c) (ofClient c') (observation (.client now e)) ∧ Counted c'.point := by
  cases h with
  | again hp | sleep hp | seeInformation hp | dueAttempt hp | duePing hp | seeQuery hp
  | popInformation _ _ hp | startAttempt hp | stampAttempt hp | stampPing hp =>
      refine ⟨?_, trivial⟩
      apply simulates_quiet <;> simp [observation, stageOf, hp, inHand, ClientInvariant.unreported]
  | pushAttempt result hp =>
      refine ⟨?_, trivial⟩
      apply simulates_quiet <;> simp [observation, stageOf, hp, inHand, ClientInvariant.unreported]
  | leave hp hr =>
      refine ⟨.inr ⟨.hangUp, ?_⟩, trivial⟩
      simp [step, ofClient, stageOf, hp, hr, inHand, ClientInvariant.unreported, observation]
  | connect answer hp =>
      have hc := (hs.attempting (by rw [hp]; rfl)).2
      refine ⟨.inr ⟨.attempt answer (attemptResult c.connectionStatus.information answer), ?_⟩, trivial⟩
      simp [step, ofClient, stageOf, hp, hc, inHand, ClientInvariant.unreported, observation]
  | ping answer hp =>
      have hc := hs.serving (by rw [hp]; rfl)
      refine ⟨.inr ⟨.ping answer, ?_⟩, trivial⟩
      simp [step, ofClient, stageOf, hp, hc, inHand, ClientInvariant.unreported, observation]
  | popQuery information queue hp hq =>
      refine ⟨?_, trivial⟩
      apply simulates_quiet <;> simp [observation, stageOf, hp, hq, inHand, ClientInvariant.unreported]
  | query information caller answer hp =>
      rw [hp] at hn
      refine ⟨?_, by cases caller <;> exact hn⟩
      apply simulates_quiet <;> simp [observation, stageOf, hp, inHand, ClientInvariant.unreported]
      cases caller <;> rfl
  | quiet information caller answer hp hf =>
      exact ⟨simulates_quietQuery hs hp hf, by cases caller <;> trivial⟩
  | fail information caller answer result hp hf =>
      exact ⟨simulates_failedQuery hs hp hf, by cases caller <;> trivial⟩
  | register information caller answer entry resultId hp hf =>
      rw [hp] at hn
      refine ⟨?_, by cases caller <;> exact hn⟩
      apply simulates_quiet <;> simp [observation, stageOf, hp, inHand, ClientInvariant.unreported]
      cases caller <;> rfl
  | succeed information caller answer resultId hp =>
      have hdue := hd ⟨information, caller.executionType, answer, some resultId⟩ (by simp [hp, unannounced])
      exact ⟨simulates_succeededQuery hs hp hdue, by cases caller <;> trivial⟩
  | seeRemaining n hp hc hq hlt =>
      refine ⟨?_, hlt⟩
      apply simulates_quiet <;>
        simp [observation, stageOf, hp, hc, inHand, ClientInvariant.unreported]
  | endDrain n hp hl =>
      refine ⟨?_, trivial⟩
      apply simulates_quiet <;>
        simp [observation, stageOf, hp, inHand, ClientInvariant.unreported]
      intro hc
      by_cases hq : c.queryQueue = []
      · simp [hq]
      · have hlt : ¬ n < 50 := fun hlt => hl ⟨hc, hq, hlt⟩
        omega
  | popRemaining n information queue hp hq =>
      rw [hp] at hn
      change n ≤ 50 at hn
      refine ⟨?_, hn⟩
      apply simulates_quiet <;>
        simp [observation, stageOf, hp, hq, inHand, ClientInvariant.unreported]
      omega
  | close hp hi hc =>
      refine ⟨.inr ⟨.leave, ?_⟩, trivial⟩
      simp [step, ofClient, stageOf, hp, hc, inHand, ClientInvariant.unreported, observation]
  | skipClose hp hc =>
      have hn : c.connectionStatus.isConnected = false := by
        by_contra hn
        rw [Bool.not_eq_false] at hn
        exact hc ⟨hs.informed hn, hn⟩
      refine ⟨.inr ⟨.leave, ?_⟩, trivial⟩
      simp [step, ofClient, stageOf, hp, hn, inHand, ClientInvariant.unreported, observation]

end

theorem ofClient_new : ofClient ConnectionClient.new = State.new := rfl

/-- While the host thread may call into a host, its client is not in the drain. -/
theorem stage_of_not_joining {h : ConnectionHost} (hs : Sound h.client) (hj : h.joining = false) :
    ∀ left, stageOf h.client ≠ .closing left := by
  intro left hl
  have he : ending h.client.point = true := by
    revert hl
    rw [stageOf]
    split <;> simp_all [ending, drains]
  have hr := hs.ending he
  have hf : h.client.isRunning = false := by simpa [joining, hr] using hj
  rw [stageOf, hs.joined hf] at hl
  cases hl

theorem stageOf_queue {c : ConnectionClient} (hs : ∀ left, stageOf c ≠ .closing left)
    (queryQueue : ThreadSafeQueue QueryInformation) : stageOf { c with queryQueue } = stageOf c := by
  revert hs
  rw [stageOf, stageOf]
  split <;> simp_all

theorem step_submit {s : State} (hs : ∀ left, s.stage ≠ .closing left) (request : QueryInformation) :
    step s (.submit request) =
      some ({ s with requests := s.requests ++ [request] }, some (.submitted request)) := by
  rw [step]
  split
  next left hl => exact absurd hl (hs left)
  next => rfl

theorem simulates_hostStep {h h' : ConnectionHost} {a : HostAction} {e : HostEvent}
    (hst : HostStep h a e h') (hs : Sound h.client)
    (hd : ∀ q ∈ unannounced h.client.point, DueSuccess q) (hn : Counted h.client.point) :
    Simulates (ofClient h.client) (ofClient h'.client) (observation e) ∧ Counted h'.client.point := by
  cases hst with
  | client results input e c hc => exact simulates_clientStep hc hs hd hn
  | query request hj =>
      refine ⟨.inr ⟨.submit request, ?_⟩, hn⟩
      have hl := stage_of_not_joining hs hj
      rw [step_submit (s := ofClient h.client) hl]
      simp only [ofClient, List.append_assoc, stageOf_queue hl]
      rfl
  | onConnectionAttempt publics result rest hj ht hq =>
      refine ⟨.inr ⟨.tellAttempt, ?_⟩, hn⟩
      simp [step, ofClient, hq, observation]
      rfl
  | onQueryError publics result rest hj ht hq =>
      refine ⟨.inr ⟨.tellFailure, ?_⟩, hn⟩
      simp [step, ofClient, hq, observation]
      rfl
  | callback publics result rest hj ht hq =>
      refine ⟨.inr ⟨.tellSuccess, ?_⟩, hn⟩
      simp [step, ofClient, hq, observation]
      rfl
  | requestShutdown hr hsd =>
      refine ⟨.inr ⟨.requestClose, ?_⟩, hn⟩
      simp [step, ofClient, hsd, observation]
      rfl
  | connect | startTick | seePending | seeNothing | endCallback | join | destroy =>
      exact ⟨.inl ⟨rfl, rfl⟩, hn⟩

def Represents (h : ConnectionHost) (s : State) : Prop := ofClient h.client = s ∧ Counted h.client.point

theorem reach_simulates {script : Script} {connectionId : UInt32} {tr : List HostEvent}
    {h : ConnectionHost} (hr : Reach ConnectionHost.step (ConnectionHost.new script connectionId) tr h) :
    ∃ es, Reach step State.new es (ofClient h.client) ∧
      es.filterMap id = tr.filterMap observation := by
  have hstep : ∀ {tr h a h' e s}, Reach ConnectionHost.step (ConnectionHost.new script connectionId) tr h →
      ConnectionHost.step h a = some (h', e) → Represents h s →
      Represents h' s ∧ observation e = none ∨
        ∃ b t, step s b = some (t, observation e) ∧ Represents h' t := by
    rintro tr h a h' e s hr hs ⟨rfl, hn⟩
    obtain ⟨hsim, hn'⟩ := simulates_hostStep (hostStep_of_step hs).2 (reach_sound hr)
      (reach_accounted hr).due hn
    rcases hsim with ⟨hq, ho⟩ | ⟨b, hb⟩
    · exact .inl ⟨⟨hq, hn'⟩, ho⟩
    · exact .inr ⟨b, _, hb, rfl, hn'⟩
  have hsim : ∃ es s, Reach step State.new es s ∧
      es.filterMap id = tr.filterMap observation ∧ Represents h s :=
    reach_simulated hstep ⟨ofClient_new, trivial⟩ hr
  obtain ⟨es, s, hN, he, rfl, -⟩ := hsim
  exact ⟨es, hN, he⟩

/-- Every host of the plugin, whatever runs beside it, is a connection: its
client stands for a state that the connection reaches in a run that shows the
same things in the same order. -/
theorem connections_serve (lib : Externals) (acts : List PluginAction) :
    let r := run (Plugin.step lib) Plugin.new acts
    ∀ pointer host, r.2.hosts[pointer]? = some host →
      ∃ es, Reach Service.step State.new es (ofClient host.client) ∧
        es.filterMap id = (history pointer r.1).filterMap observation := by
  intro r pointer host hh
  obtain ⟨script, id, hr⟩ := (reach_projects (reach_run _ _ acts)).run pointer host hh
  exact reach_simulates hr

end MysqlPlugin.Service
