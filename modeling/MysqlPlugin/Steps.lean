import MysqlPlugin.ConnectionHost

namespace MysqlPlugin

open ConnectionClient ConnectionHost

/-- What one step of the client thread can do, with the conditions under which
it does it. -/
inductive ClientStep (c : ConnectionClient) (now : Nat) : ClientEvent → ConnectionClient → Prop
  | again (hp : c.point = .loopCondition) (hr : c.requestShutdown = false) :
      ClientStep c now .internal { c with point := .loopBody }
  | leave (hp : c.point = .loopCondition) (hr : c.requestShutdown = true) :
      ClientStep c now .internal { c with point := .drainCondition 0 }
  | sleep (hp : c.point = .loopBody) : ClientStep c now .internal { c with point := .loopCondition }
  | seeInformation (hp : c.point = .loopBody) (hq : c.connectionQueue ≠ []) :
      ClientStep c now .internal { c with point := .popInformation }
  | dueAttempt (hp : c.point = .loopBody) (hi : c.connectionStatus.hasConnectionInformation = true)
      (hc : c.connectionStatus.isConnected = false)
      (ht : c.connectionStatus.lastAttempt = 0 ∨
        connectionRetryIntervalMs < Thread.timeSpan now c.connectionStatus.lastAttempt) :
      ClientStep c now .internal { c with point := .connect }
  | duePing (hp : c.point = .loopBody) (hi : c.connectionStatus.hasConnectionInformation = true)
      (hc : c.connectionStatus.isConnected = true)
      (ht : c.connectionStatus.lastPing = 0 ∨
        serverPingIntervalMs < Thread.timeSpan now c.connectionStatus.lastPing) :
      ClientStep c now .internal { c with point := .stampPing }
  | seeQuery (hp : c.point = .loopBody) (hi : c.connectionStatus.hasConnectionInformation = true)
      (hc : c.connectionStatus.isConnected = true) (hl : c.connectionStatus.lastPing ≠ 0)
      (ht : Thread.timeSpan now c.connectionStatus.lastPing ≤ serverPingIntervalMs)
      (hq : c.queryQueue ≠ []) :
      ClientStep c now .internal { c with point := .popQuery }
  | popInformation (information : ConnectionInformation) (queue : ThreadSafeQueue ConnectionInformation)
      (hp : c.point = .popInformation) (hq : c.connectionQueue = information :: queue) :
      ClientStep c now .internal
        { c with
          connectionQueue := queue
          connectionStatus := { c.connectionStatus with information, hasConnectionInformation := true }
          point := .loopCondition }
  | startAttempt (hp : c.point = .connect) :
      ClientStep c now .attemptStarted { c with point := .awaitConnect }
  | connect (answer : ConnectAnswer) (hp : c.point = .awaitConnect) :
      ClientStep c now (.connected answer (attemptResult c.connectionStatus.information answer))
        { c with
          connectionStatus :=
            { c.connectionStatus with
              isConnected := answer.accepted || c.connectionStatus.isConnected }
          point := .pushAttempt (attemptResult c.connectionStatus.information answer) }
  | pushAttempt (result : ConnectionAttemptResult) (hp : c.point = .pushAttempt result) :
      ClientStep c now (.attemptQueued result)
        { c with
          connectionAttemptQueue := c.connectionAttemptQueue ++ [result]
          point := .stampAttempt }
  | stampAttempt (hp : c.point = .stampAttempt) :
      ClientStep c now .internal
        { c with
          connectionStatus := { c.connectionStatus with lastAttempt := Thread.time now }
          point := .loopCondition }
  | stampPing (hp : c.point = .stampPing) :
      ClientStep c now .pingStamped
        { c with
          connectionStatus := { c.connectionStatus with lastPing := Thread.time now }
          point := .ping }
  | ping (answer : Int32) (hp : c.point = .ping) :
      ClientStep c now (.pinged answer) { c with point := .loopCondition }
  | popQuery (information : QueryInformation) (queue : ThreadSafeQueue QueryInformation)
      (hp : c.point = .popQuery) (hq : c.queryQueue = information :: queue) :
      ClientStep c now (.popped information .normalExecution)
        { c with queryQueue := queue, point := .query information .loop }
  | query (information : QueryInformation) (caller : QueryCaller) (answer : QueryAnswer)
      (hp : c.point = .query information caller) :
      ClientStep c now (.queried information caller.executionType answer)
        { c with point := .feedback information caller answer }
  | quiet (information : QueryInformation) (caller : QueryCaller) (answer : QueryAnswer)
      (hp : c.point = .feedback information caller answer)
      (hf : (doQuery information.query information.callback caller.executionType answer).feedback =
        .none) :
      ClientStep c now (.executed ⟨information, caller.executionType, answer, none⟩)
        { c with point := caller.resume }
  | fail (information : QueryInformation) (caller : QueryCaller) (answer : QueryAnswer)
      (result : FailedQueryResult) (hp : c.point = .feedback information caller answer)
      (hf : (doQuery information.query information.callback caller.executionType answer).feedback =
        .failed result) :
      ClientStep c now (.executed ⟨information, caller.executionType, answer, none⟩)
        { c with failedQueryQueue := c.failedQueryQueue ++ [result], point := caller.resume }
  | register (information : QueryInformation) (caller : QueryCaller) (answer : QueryAnswer)
      (entry : ResultEntry) (resultId : UInt32) (hp : c.point = .feedback information caller answer)
      (hf : (doQuery information.query information.callback caller.executionType answer).feedback =
        .succeeded entry) :
      ClientStep c now (.registered information entry resultId)
        { c with point := .pushSucceeded information caller answer resultId }
  | succeed (information : QueryInformation) (caller : QueryCaller) (answer : QueryAnswer)
      (resultId : UInt32) (hp : c.point = .pushSucceeded information caller answer resultId) :
      ClientStep c now (.executed ⟨information, caller.executionType, answer, some resultId⟩)
        { c with
          succeededQueryQueue := c.succeededQueryQueue ++
            [⟨information.callback, resultId.toInt32, information.dataId.toInt32⟩]
          point := caller.resume }
  | seeRemaining (executedQueries : Nat) (hp : c.point = .drainCondition executedQueries)
      (hc : c.connectionStatus.isConnected = true) (hq : c.queryQueue ≠ [])
      (hn : executedQueries < 50) :
      ClientStep c now .internal { c with point := .popRemaining (executedQueries + 1) }
  | endDrain (executedQueries : Nat) (hp : c.point = .drainCondition executedQueries)
      (hn : ¬ (c.connectionStatus.isConnected = true ∧ c.queryQueue ≠ [] ∧ executedQueries < 50)) :
      ClientStep c now .internal { c with point := .close }
  | popRemaining (executedQueries : Nat) (information : QueryInformation)
      (queue : ThreadSafeQueue QueryInformation) (hp : c.point = .popRemaining executedQueries)
      (hq : c.queryQueue = information :: queue) :
      ClientStep c now (.popped information .silentExecution)
        { c with queryQueue := queue, point := .query information (.drain executedQueries) }
  | close (hp : c.point = .close) (hi : c.connectionStatus.hasConnectionInformation = true)
      (hc : c.connectionStatus.isConnected = true) :
      ClientStep c now .closed { c with point := .finished }
  | skipClose (hp : c.point = .close)
      (hc : ¬ (c.connectionStatus.hasConnectionInformation = true ∧
        c.connectionStatus.isConnected = true)) :
      ClientStep c now .returnedUnclosed { c with point := .finished }

theorem clientStep_of_loopBranch (c : ConnectionClient) (now : Nat) (hp : c.point = .loopBody) :
    ClientStep c now .internal { c with point := c.loopBranch now } := by
  rw [loopBranch]
  split_ifs with hi hq hc ht hl hq'
  · exact .seeInformation hp (ThreadSafeQueue.size_pos.mp hq)
  · exact .sleep hp
  · exact .dueAttempt hp (by simpa using hi) hc ht
  · exact .sleep hp
  · exact .duePing hp (by simpa using hi) (by simpa using hc) hl
  · rw [not_or, Int.not_lt] at hl
    exact .seeQuery hp (by simpa using hi) (by simpa using hc) hl.1 hl.2
      (ThreadSafeQueue.size_pos.mp hq')
  · exact .sleep hp

theorem clientStep_of_step {results results' : ResultController ResultEntry} {input : ClientInput}
    {c c' : ConnectionClient} {e : ClientEvent} (h : c.step results input = some (c', results', e)) :
    ClientStep c input.now e c' := by
  rw [ConnectionClient.step] at h
  split at h
  next hp =>
    cases h
    by_cases hr : c.requestShutdown = true
    · rw [if_pos hr]
      exact .leave hp hr
    · rw [if_neg hr]
      exact .again hp (by simpa using hr)
  next hp =>
    cases h
    exact clientStep_of_loopBranch c input.now hp
  next hp =>
    obtain ⟨⟨information, queue⟩, hq, he⟩ := Option.map_eq_some_iff.mp h
    cases he
    exact .popInformation information queue hp (ThreadSafeQueue.pop_eq_some.mp hq)
  next hp => cases h; exact .startAttempt hp
  next hp => cases h; exact .connect input.realConnect hp
  next result hp => cases h; exact .pushAttempt result hp
  next hp => cases h; exact .stampAttempt hp
  next hp => cases h; exact .stampPing hp
  next hp => cases h; exact .ping input.ping hp
  next hp =>
    obtain ⟨⟨information, queue⟩, hq, he⟩ := Option.map_eq_some_iff.mp h
    cases he
    exact .popQuery information queue hp (ThreadSafeQueue.pop_eq_some.mp hq)
  next information caller hp => cases h; exact .query information caller input.query hp
  next information caller answer hp =>
    split at h
    next hf => cases h; exact .quiet information caller answer hp hf
    next result hf => cases h; exact .fail information caller answer result hp hf
    next entry hf => cases h; exact .register information caller answer entry _ hp hf
  next information caller answer resultId hp =>
    cases h; exact .succeed information caller answer resultId hp
  next executedQueries hp =>
    split at h
    next hn =>
      cases h
      exact .seeRemaining executedQueries hp hn.1 (ThreadSafeQueue.size_pos.mp hn.2.1) hn.2.2
    next hn =>
      cases h
      exact .endDrain executedQueries hp (by simpa using hn)
  next executedQueries hp =>
    obtain ⟨⟨information, queue⟩, hq, he⟩ := Option.map_eq_some_iff.mp h
    cases he
    exact .popRemaining executedQueries information queue hp (ThreadSafeQueue.pop_eq_some.mp hq)
  next hp =>
    split at h
    next hc => cases h; exact .close hp hc.1 hc.2
    next hc => cases h; exact .skipClose hp hc
  next => cases h

/-- What one step of a host can do. Of the steps of the host thread only the
join goes on while that thread waits for the client. -/
inductive HostStep (h : ConnectionHost) : HostAction → HostEvent → ConnectionHost → Prop
  | client (results : ResultController ResultEntry) (input : ClientInput) (event : ClientEvent)
      (c : ConnectionClient) (hc : ClientStep h.client input.now event c) :
      HostStep h (.client results input) (.client input.now event) { h with client := c }
  | connect (request : ConnectionInformation) (hj : h.joining = false) :
      HostStep h (.connect request) (.connectionRequested request)
        { h with
          client := { h.client with connectionQueue := h.client.connectionQueue ++ [request] } }
  | query (request : QueryInformation) (hj : h.joining = false) :
      HostStep h (.query request) (.querySubmitted request)
        { h with client := { h.client with queryQueue := h.client.queryQueue ++ [request] } }
  | startTick (publics : Publics) (hj : h.joining = false) (ht : h.tick = .outside) :
      HostStep h (.processTick publics) .ticked { h with tick := .check .attempts }
  | seePending (publics : Publics) (queue : TickQueue) (hj : h.joining = false)
      (ht : h.tick = .check queue) (hq : 0 < h.pending queue) :
      HostStep h (.processTick publics) .ticked { h with tick := .pop queue }
  | seeNothing (publics : Publics) (queue : TickQueue) (hj : h.joining = false)
      (ht : h.tick = .check queue) (hq : h.pending queue = 0) :
      HostStep h (.processTick publics) .ticked { h with tick := queue.next }
  | endCallback (publics : Publics) (queue : TickQueue) (hj : h.joining = false)
      (ht : h.tick = .callback queue) :
      HostStep h (.processTick publics) .ticked { h with tick := queue.next }
  | onConnectionAttempt (publics : Publics) (result : ConnectionAttemptResult)
      (rest : ThreadSafeQueue ConnectionAttemptResult) (hj : h.joining = false)
      (ht : h.tick = .pop .attempts) (hq : h.client.connectionAttemptQueue = result :: rest) :
      HostStep h (.processTick publics)
        (.onConnectionAttempt result (h.script.onConnectionAttempt publics).2)
        { h with
          script := (h.script.onConnectionAttempt publics).1
          client := { h.client with connectionAttemptQueue := rest }
          tick := afterCall .attempts (h.script.onConnectionAttempt publics).2 }
  | onQueryError (publics : Publics) (result : FailedQueryResult)
      (rest : ThreadSafeQueue FailedQueryResult) (hj : h.joining = false)
      (ht : h.tick = .pop .failures) (hq : h.client.failedQueryQueue = result :: rest) :
      HostStep h (.processTick publics)
        (.onQueryError result (h.script.onQueryError publics).2)
        { h with
          script := (h.script.onQueryError publics).1
          client := { h.client with failedQueryQueue := rest }
          tick := afterCall .failures (h.script.onQueryError publics).2 }
  | callback (publics : Publics) (result : SucceededQueryResult)
      (rest : ThreadSafeQueue SucceededQueryResult) (hj : h.joining = false)
      (ht : h.tick = .pop .successes) (hq : h.client.succeededQueryQueue = result :: rest) :
      HostStep h (.processTick publics)
        (.callback result (Script.callback publics result.callback))
        { h with
          client := { h.client with succeededQueryQueue := rest }
          tick := afterCall .successes (Script.callback publics result.callback) }
  | requestShutdown (hr : h.client.isRunning = true) (hs : h.client.requestShutdown = false) :
      HostStep h .stopThread .shutdownRequested
        { h with client := { h.client with requestShutdown := true } }
  | join (hr : h.client.isRunning = true) (hs : h.client.requestShutdown = true)
      (hp : h.client.point = .finished) :
      HostStep h .joinThread .joined { h with client := { h.client with isRunning := false } }
  | destroy (hr : h.client.isRunning = false) :
      HostStep h .destroy .destroyed { h with deleted := true }

theorem hostStep_of_processTick {publics : Publics} {h h' : ConnectionHost} {e : HostEvent}
    (hj : h.joining = false) (hs : h.processTick publics = some (h', e)) :
    HostStep h (.processTick publics) e h' := by
  rw [processTick] at hs
  split at hs
  next ht => cases hs; exact .startTick publics hj ht
  next queue ht =>
    cases hs
    split_ifs with hq
    · exact .seePending publics queue hj ht hq
    · exact .seeNothing publics queue hj ht (by omega)
  next ht =>
    obtain ⟨⟨result, rest⟩, hq, he⟩ := Option.map_eq_some_iff.mp hs
    cases he
    exact .onConnectionAttempt publics result rest hj ht (ThreadSafeQueue.pop_eq_some.mp hq)
  next ht =>
    obtain ⟨⟨result, rest⟩, hq, he⟩ := Option.map_eq_some_iff.mp hs
    cases he
    exact .onQueryError publics result rest hj ht (ThreadSafeQueue.pop_eq_some.mp hq)
  next ht =>
    obtain ⟨⟨result, rest⟩, hq, he⟩ := Option.map_eq_some_iff.mp hs
    cases he
    exact .callback publics result rest hj ht (ThreadSafeQueue.pop_eq_some.mp hq)
  next queue ht => cases hs; exact .endCallback publics queue hj ht

theorem hostStep_of_step {h h' : ConnectionHost} {a : HostAction} {e : HostEvent}
    (hs : ConnectionHost.step h a = some (h', e)) : h.deleted = false ∧ HostStep h a e h' := by
  unfold ConnectionHost.step at hs
  split at hs
  next => cases hs
  next hd =>
    refine ⟨by simpa using hd, ?_⟩
    split at hs
    next results input =>
      obtain ⟨⟨c, results', e'⟩, hc, he⟩ := Option.map_eq_some_iff.mp hs
      cases he
      exact .client results input e' c (clientStep_of_step hc)
    next =>
      split at hs
      next hj hp =>
        cases hs
        have hj' : h.client.isRunning = true ∧ h.client.requestShutdown = true := by
          simpa [joining] using hj
        exact .join hj'.1 hj'.2 hp
      next => cases hs
    next request =>
      split at hs
      next => cases hs
      next hj => cases hs; exact .connect request (by simpa using hj)
    next request =>
      split at hs
      next => cases hs
      next hj => cases hs; exact .query request (by simpa using hj)
    next publics =>
      split at hs
      next => cases hs
      next hj => exact hostStep_of_processTick (by simpa using hj) hs
    next =>
      split at hs
      next hr =>
        cases hs
        have hr' : h.client.isRunning = true ∧ h.client.requestShutdown = false := by simpa using hr
        exact .requestShutdown hr'.1 hr'.2
      next => cases hs
    next =>
      split at hs
      next => cases hs
      next hr => cases hs; exact .destroy (by simpa using hr)

section

variable {h h' : ConnectionHost} {a : HostAction} {e : HostEvent}

theorem HostStep.connectionId_eq (hs : HostStep h a e h') : h'.connectionId = h.connectionId := by
  cases hs <;> rfl

theorem HostStep.runtime_eq (hs : HostStep h a e h') : h'.script.runtime = h.script.runtime := by
  cases hs <;> rfl

theorem HostStep.deleted_iff (hs : HostStep h a e h') (hd : h.deleted = false) :
    h'.deleted = true ↔ e = .destroyed := by
  cases hs <;> simp [hd]

theorem ClientStep.flags_eq {c c' : ConnectionClient} {now : Nat} {e : ClientEvent}
    (hs : ClientStep c now e c') :
    c'.isRunning = c.isRunning ∧ c'.requestShutdown = c.requestShutdown := by
  cases hs <;> exact ⟨rfl, rfl⟩

theorem HostStep.joining_of (hs : HostStep h a e h') (hj : h'.joining = true) :
    h.joining = true ∧ e ≠ .joined ∨ e = .shutdownRequested := by
  cases hs with
  | client results input e c hc =>
      simp only [joining, hc.flags_eq.1, hc.flags_eq.2] at hj
      exact .inl ⟨hj, by simp⟩
  | requestShutdown => exact .inr rfl
  | join => simp [joining] at hj
  | connect _ hj' | query _ hj' | startTick _ hj' | seePending _ _ hj' | seeNothing _ _ hj'
  | endCallback _ _ hj' | onConnectionAttempt _ _ _ hj' | onQueryError _ _ _ hj'
  | callback _ _ _ hj' => exact .inl ⟨hj, by simp⟩
  | destroy hr => simp [joining, hr] at hj

end

end MysqlPlugin
