import MysqlPlugin.Steps

namespace MysqlPlugin.QueryAccounting

open ConnectionClient ConnectionHost Transition

def Succeeded (answer : QueryAnswer) : Prop :=
  answer.realQuery = 0 ∧ (answer.storeResult.isSome ∨ answer.fieldCount = 0)

instance (answer : QueryAnswer) : Decidable (Succeeded answer) := inferInstanceAs (Decidable (_ ∧ _))

def DueSuccess (q : ExecutedQuery) : Prop :=
  q.executionType = .normalExecution ∧ q.information.callback ≠ [] ∧ Succeeded q.answer

instance (q : ExecutedQuery) : Decidable (DueSuccess q) := inferInstanceAs (Decidable (_ ∧ _))

/-- The executed query is due a message on the queue of failures. A query
without a callback never asks for its rows, so only mysql_real_query can fail. -/
def DueFailure (q : ExecutedQuery) : Prop :=
  q.executionType = .normalExecution ∧
    (q.answer.realQuery ≠ 0 ∨ (q.information.callback ≠ [] ∧ ¬ Succeeded q.answer))

instance (q : ExecutedQuery) : Decidable (DueFailure q) := inferInstanceAs (Decidable (_ ∧ _))

def entryOf (answer : QueryAnswer) : ResultEntry :=
  match answer.storeResult with
  | some queryResult => readResult queryResult
  | none => readAffected answer

def successMessage (information : QueryInformation) (resultId : UInt32) : SucceededQueryResult :=
  ⟨information.callback, resultId.toInt32, information.dataId.toInt32⟩

def failureMessage (q : ExecutedQuery) : FailedQueryResult :=
  ⟨q.information.query, q.information.callback, q.answer.error, q.answer.errorNumber.toInt32⟩

theorem not_dueFailure {q : ExecutedQuery} (h : DueSuccess q) : ¬ DueFailure q := by
  rintro ⟨-, hr | ⟨-, hn⟩⟩
  · exact hr h.2.2.1
  · exact hn h.2.2

theorem doQuery_feedback (q : ExecutedQuery) :
    (doQuery q.information.query q.information.callback q.executionType q.answer).feedback =
      if DueSuccess q then .succeeded (entryOf q.answer)
      else if DueFailure q then .failed (failureMessage q)
      else .none := by
  obtain ⟨information, executionType, answer, resultId⟩ := q
  by_cases hr : answer.realQuery = 0
  · cases executionType with
    | silentExecution => simp [doQuery, hr, DueSuccess, DueFailure]
    | normalExecution =>
        by_cases hc : information.callback = []
        · simp [doQuery, hr, hc, DueSuccess, DueFailure]
        · cases hs : answer.storeResult <;>
            by_cases hf : answer.fieldCount = 0 <;>
            simp [doQuery, hr, hc, hs, hf, DueSuccess, DueFailure, Succeeded, entryOf,
              failureFeedback, failureMessage]
  · cases executionType <;>
      simp [doQuery, hr, DueSuccess, DueFailure, Succeeded, failureFeedback, failureMessage]

def submitted (tr : List HostEvent) : List QueryInformation :=
  tr.filterMap fun
    | .querySubmitted request => some request
    | _ => none

def queried (tr : List HostEvent) : List (QueryInformation × ExecutionType × QueryAnswer) :=
  tr.filterMap fun
    | .client _ (.queried information executionType answer) => some (information, executionType, answer)
    | _ => none

def executed (tr : List HostEvent) : List ExecutedQuery :=
  tr.filterMap fun
    | .client _ (.executed query) => some query
    | _ => none

def registrations (tr : List HostEvent) : List (QueryInformation × ResultEntry × UInt32) :=
  tr.filterMap fun
    | .client _ (.registered information entry resultId) => some (information, entry, resultId)
    | _ => none

def handedSuccesses (tr : List HostEvent) : List SucceededQueryResult :=
  tr.filterMap fun
    | .callback result _ => some result
    | _ => none

def handedFailures (tr : List HostEvent) : List FailedQueryResult :=
  tr.filterMap fun
    | .onQueryError result _ => some result
    | _ => none

def inHand : RunPoint → List QueryInformation
  | .query information _ => [information]
  | .feedback information _ _ => [information]
  | .pushSucceeded information _ _ _ => [information]
  | _ => []

def answered : RunPoint → List (QueryInformation × ExecutionType × QueryAnswer)
  | .feedback information caller answer => [(information, caller.executionType, answer)]
  | .pushSucceeded information caller answer _ => [(information, caller.executionType, answer)]
  | _ => []

def unannounced : RunPoint → List ExecutedQuery
  | .pushSucceeded information caller answer resultId =>
      [⟨information, caller.executionType, answer, some resultId⟩]
  | _ => []

def registration (q : ExecutedQuery) : Option (QueryInformation × ResultEntry × UInt32) :=
  q.resultId.map fun resultId => (q.information, entryOf q.answer, resultId)

theorem length_inHand_le (point : RunPoint) : (inHand point).length ≤ 1 := by
  cases point <;> simp [inHand]

@[simp] theorem inHand_resume (caller : QueryCaller) : inHand caller.resume = [] := by
  cases caller <;> rfl

@[simp] theorem answered_resume (caller : QueryCaller) : answered caller.resume = [] := by
  cases caller <;> rfl

@[simp] theorem unannounced_resume (caller : QueryCaller) : unannounced caller.resume = [] := by
  cases caller <;> rfl

section

variable (tr es : List HostEvent)

theorem submitted_append : submitted (tr ++ es) = submitted tr ++ submitted es :=
  List.filterMap_append

theorem queried_append : queried (tr ++ es) = queried tr ++ queried es := List.filterMap_append

theorem executed_append : executed (tr ++ es) = executed tr ++ executed es := List.filterMap_append

theorem registrations_append : registrations (tr ++ es) = registrations tr ++ registrations es :=
  List.filterMap_append

theorem handedSuccesses_append :
    handedSuccesses (tr ++ es) = handedSuccesses tr ++ handedSuccesses es :=
  List.filterMap_append

theorem handedFailures_append : handedFailures (tr ++ es) = handedFailures tr ++ handedFailures es :=
  List.filterMap_append

end

/-- Where every query and every message of a run is: it went from one queue to
the next in order, and nothing was left behind. -/
structure Accounted (tr : List HostEvent) (c : ConnectionClient) : Prop where
  submissions : submitted tr = (executed tr).map (·.information) ++ (inHand c.point ++ c.queryQueue)
  calls : queried tr =
    (executed tr).map (fun q => (q.information, q.executionType, q.answer)) ++ answered c.point
  registered : registrations tr = (executed tr ++ unannounced c.point).filterMap registration
  successes : (handedSuccesses tr ++ c.succeededQueryQueue).map some =
    ((executed tr).filter DueSuccess).map fun q => q.resultId.map (successMessage q.information)
  failures : handedFailures tr ++ c.failedQueryQueue =
    ((executed tr).filter DueFailure).map failureMessage
  due : ∀ q ∈ unannounced c.point, DueSuccess q

namespace Accounted

variable {tr : List HostEvent} {c c' : ConnectionClient} {e : HostEvent}

theorem extend (ha : Accounted tr c) (hx : executed [e] = [])
    (hi : inHand c'.point ++ c'.queryQueue = inHand c.point ++ c.queryQueue ++ submitted [e])
    (hw : answered c'.point = answered c.point ++ queried [e])
    (hu : (unannounced c'.point).filterMap registration =
      (unannounced c.point).filterMap registration ++ registrations [e])
    (hs : handedSuccesses [e] ++ c'.succeededQueryQueue = c.succeededQueryQueue)
    (hf : handedFailures [e] ++ c'.failedQueryQueue = c.failedQueryQueue)
    (hd : ∀ q ∈ unannounced c'.point, DueSuccess q) : Accounted (tr ++ [e]) c' := by
  have hx' : executed (tr ++ [e]) = executed tr := by rw [executed_append, hx, List.append_nil]
  constructor
  · rw [submitted_append, hx', hi, ha.submissions, List.append_assoc]
  · rw [queried_append, hx', hw, ha.calls, List.append_assoc]
  · rw [registrations_append, hx', ha.registered, List.filterMap_append, List.filterMap_append, hu,
      List.append_assoc]
  · rw [handedSuccesses_append, hx', List.append_assoc, hs, ha.successes]
  · rw [handedFailures_append, hx', List.append_assoc, hf, ha.failures]
  · exact hd

theorem execute {now : Nat} {q : ExecutedQuery} (ha : Accounted tr c)
    (hi : inHand c.point = [q.information])
    (hw : answered c.point = [(q.information, q.executionType, q.answer)])
    (hu : (unannounced c.point).filterMap registration = [q].filterMap registration)
    (hi' : inHand c'.point = []) (hw' : answered c'.point = []) (hu' : unannounced c'.point = [])
    (hq : c'.queryQueue = c.queryQueue)
    (hs : c'.succeededQueryQueue.map some = c.succeededQueryQueue.map some ++
      if DueSuccess q then [q.resultId.map (successMessage q.information)] else [])
    (hf : c'.failedQueryQueue =
      c.failedQueryQueue ++ if DueFailure q then [failureMessage q] else []) :
    Accounted (tr ++ [.client now (.executed q)]) c' := by
  have hx : executed (tr ++ [.client now (.executed q)]) = executed tr ++ [q] := executed_append ..
  have hsuccesses := ha.successes
  rw [List.map_append] at hsuccesses
  constructor
  · rw [submitted_append, hx, hi', hq, ha.submissions, hi]
    simp [submitted]
  · rw [queried_append, hx, hw', ha.calls, hw]
    simp [queried]
  · rw [registrations_append, hx, hu', ha.registered, List.filterMap_append, hu]
    simp [registrations]
  · rw [handedSuccesses_append, hx, List.map_append, hs, ← List.append_assoc]
    by_cases hd : DueSuccess q <;> simp [handedSuccesses, hd, ← hsuccesses]
  · rw [handedFailures_append, hx, hf, ← List.append_assoc]
    by_cases hd : DueFailure q <;> simp [handedFailures, hd, ← ha.failures]
  · simp [hu']

end Accounted

theorem accounted_clientStep {tr : List HostEvent} {c c' : ConnectionClient} {now : Nat}
    {e : ClientEvent} (h : ClientStep c now e c') (ha : Accounted tr c) :
    Accounted (tr ++ [.client now e]) c' := by
  cases h with
  | again hp | leave hp | sleep hp | seeInformation hp | dueAttempt hp | duePing hp | seeQuery hp
  | popInformation _ _ hp | startAttempt hp | connect _ hp | pushAttempt _ hp | stampAttempt hp
  | stampPing hp | ping _ hp | query _ _ _ hp | seeRemaining _ hp | endDrain _ hp | close hp
  | skipClose hp =>
      apply ha.extend
      · rfl
      · simp [hp, inHand, submitted]
      · simp [hp, answered, queried]
      · simp [hp, unannounced, registrations]
      · rfl
      · rfl
      · simp [unannounced]
  | popQuery information queue hp hq | popRemaining _ information queue hp hq =>
      apply ha.extend
      · rfl
      · simp [hp, hq, inHand, submitted]
      · simp [hp, answered, queried]
      · simp [hp, unannounced, registrations]
      · rfl
      · rfl
      · simp [unannounced]
  | quiet information caller answer hp hf =>
      rw [doQuery_feedback ⟨information, caller.executionType, answer, none⟩] at hf
      split_ifs at hf with hd hb
      apply ha.execute
      · rw [hp]
        rfl
      · rw [hp]
        rfl
      · rw [hp]
        rfl
      · simp
      · simp
      · simp
      · rfl
      · simp [hd]
      · simp [hb]
  | fail information caller answer result hp hf =>
      rw [doQuery_feedback ⟨information, caller.executionType, answer, none⟩] at hf
      split_ifs at hf with hd hb
      cases hf
      apply ha.execute
      · rw [hp]
        rfl
      · rw [hp]
        rfl
      · rw [hp]
        rfl
      · simp
      · simp
      · simp
      · rfl
      · simp [hd]
      · simp [hb]
  | register information caller answer entry resultId hp hf =>
      rw [doQuery_feedback ⟨information, caller.executionType, answer, some resultId⟩] at hf
      split_ifs at hf with hd hb
      cases hf
      apply ha.extend
      · rfl
      · simp [hp, inHand, submitted]
      · simp [hp, answered, queried]
      · simp [hp, unannounced, registrations, registration]
      · rfl
      · rfl
      · simpa [unannounced] using hd
  | succeed information caller answer resultId hp =>
      have hd : DueSuccess ⟨information, caller.executionType, answer, some resultId⟩ :=
        ha.due _ (by simp [hp, unannounced])
      apply ha.execute
      · rw [hp]
        rfl
      · rw [hp]
        rfl
      · rw [hp]
        rfl
      · simp
      · simp
      · simp
      · rfl
      · simp [hd, successMessage]
      · simp [not_dueFailure hd]

theorem accounted_hostStep {tr : List HostEvent} {h h' : ConnectionHost} {a : HostAction} {e : HostEvent}
    (hs : HostStep h a e h') (ha : Accounted tr h.client) : Accounted (tr ++ [e]) h'.client := by
  cases hs with
  | client results input e c hc => exact accounted_clientStep hc ha
  | onQueryError publics result rest hj ht hq | callback publics result rest hj ht hq =>
      apply ha.extend
      · rfl
      · simp [submitted]
      · simp [queried]
      · simp [registrations]
      · simp [handedSuccesses, hq]
      · simp [handedFailures, hq]
      · exact ha.due
  | connect | query | startTick | seePending | seeNothing | endCallback | onConnectionAttempt
  | requestShutdown | join | destroy =>
      apply ha.extend
      · rfl
      · simp [submitted]
      · simp [queried]
      · simp [registrations]
      · rfl
      · rfl
      · exact ha.due

theorem reach_accounted {script : Script} {id : UInt32} {tr : List HostEvent} {h : ConnectionHost}
    (hr : Reach ConnectionHost.step (ConnectionHost.new script id) tr h) : Accounted tr h.client := by
  induction hr with
  | start => constructor <;> first | rfl | exact List.forall_mem_nil _
  | step _ hs ih => exact accounted_hostStep (hostStep_of_step hs).2 ih

/-- In every state of every run: the submitted queries are the executed ones, at
most one that has been popped, and the queue; the messages that were handed to
the script are, with those still queued, the messages for the executed queries
that are due one, each with the id of its own result; and the same for failures. -/
theorem nothing_lost (script : Script) (id : UInt32) (acts : List HostAction) :
    let r := run ConnectionHost.step (ConnectionHost.new script id) acts
    let c := r.2.client
    (submitted r.1 = (executed r.1).map (·.information) ++ inHand c.point ++ c.queryQueue ∧
        (inHand c.point).length ≤ 1 ∧
        queried r.1 = (executed r.1).map (fun q => (q.information, q.executionType, q.answer)) ++
          answered c.point) ∧
      ((handedSuccesses r.1 ++ c.succeededQueryQueue).map some =
          ((executed r.1).filter DueSuccess).map
            (fun q => q.resultId.map (successMessage q.information)) ∧
        registrations r.1 = (executed r.1 ++ unannounced c.point).filterMap registration) ∧
      handedFailures r.1 ++ c.failedQueryQueue =
        ((executed r.1).filter DueFailure).map failureMessage := by
  intro r c
  have ha := reach_accounted (reach_run ConnectionHost.step (ConnectionHost.new script id) acts)
  refine ⟨⟨?_, length_inHand_le c.point, ha.calls⟩, ⟨ha.successes, ha.registered⟩, ha.failures⟩
  rw [List.append_assoc]
  exact ha.submissions

end MysqlPlugin.QueryAccounting
