import MysqlPlugin.ClientInvariant
import MysqlPlugin.QueryAccounting

namespace MysqlPlugin.AcceptedQueries

open ClientInvariant QueryAccounting Transition

def isSubmission : HostEvent → Bool
  | .querySubmitted _ => true
  | _ => false

def isRequest : HostEvent → Bool
  | .shutdownRequested => true
  | _ => false

def isDestruction : HostEvent → Bool
  | .destroyed => true
  | _ => false

def isReturn : HostEvent → Bool
  | .client _ .closed | .client _ .returnedUnclosed => true
  | _ => false

def isConnection : HostEvent → Bool
  | .client _ (.connected answer _) => answer.accepted
  | _ => false

def beforeRequest (tr : List HostEvent) : List HostEvent := tr.takeWhile (!isRequest ·)

/-- Shutdown was requested on a connected client with a backlog that the second
loop of run can handle. -/
def Drainable (tr : List HostEvent) : Prop :=
  occurred isConnection (beforeRequest tr) = true ∧
    (submitted (beforeRequest tr)).length ≤ (queried (beforeRequest tr)).length + 50

instance (tr : List HostEvent) : Decidable (Drainable tr) := inferInstanceAs (Decidable (_ ∧ _))

/-- What an accepted query is promised: once the host is gone every query that it
took was handed to the server exactly once, in order, and no query was ever taken
for a client that had returned from run. -/
structure AcceptedExecuted (tr : List HostEvent) : Prop where
  executed : occurred isDestruction tr = true → Drainable tr → (queried tr).map (·.1) = submitted tr
  running : Always (fun past e => isSubmission e = true → occurred isReturn past = false) tr

def NoneAfterClose (tr : List HostEvent) : Prop :=
  Always (fun past e => isSubmission e = true → occurred isRequest past = false) tr

instance (tr : List HostEvent) : Decidable (NoneAfterClose tr) :=
  inferInstanceAs (Decidable (Always _ tr))

structure Shown (tr : List HostEvent) (h : ConnectionHost) : Prop where
  request : occurred isRequest tr = h.client.requestShutdown
  connection : occurred isConnection tr = h.client.connectionStatus.isConnected
  returned : occurred isReturn tr = true ↔ h.client.point = .finished
  destroyed : occurred isDestruction tr = true → h.client.isRunning = false

theorem shown_hostStep {tr : List HostEvent} {h h' : ConnectionHost} {a : HostAction}
    {e : HostEvent} (hs : HostStep h a e h') (hv : Shown tr h) : Shown (tr ++ [e]) h' := by
  obtain ⟨hq, hc, hr, hd⟩ := hv
  cases hs with
  | client results input e c hc' =>
      cases hc' with
      | connect answer hp =>
          constructor <;> simp_all [isRequest, isConnection, isReturn, isDestruction, Bool.or_comm]
      | quiet _ caller | fail _ caller | succeed _ caller =>
          cases caller <;> constructor <;>
            simp_all [isRequest, isConnection, isReturn, isDestruction, QueryCaller.resume]
      | _ => constructor <;> simp_all [isRequest, isConnection, isReturn, isDestruction]
  | _ => constructor <;> simp_all [isRequest, isConnection, isReturn, isDestruction]

theorem reach_shown {script : Script} {id : UInt32} {tr : List HostEvent} {h : ConnectionHost}
    (hr : Reach ConnectionHost.step (ConnectionHost.new script id) tr h) : Shown tr h := by
  induction hr with
  | start => exact ⟨rfl, rfl, by simp [ConnectionHost.new, ConnectionClient.new], by simp⟩
  | step _ hs ih => exact shown_hostStep (hostStep_of_step hs).2 ih

theorem beforeRequest_snoc (tr : List HostEvent) (e : HostEvent) :
    beforeRequest (tr ++ [e]) =
      if occurred isRequest tr then beforeRequest tr else if isRequest e then tr else tr ++ [e] := by
  induction tr with
  | nil => cases he : isRequest e <;> simp [beforeRequest, occurred, he]
  | cons f tr ih =>
      cases hf : isRequest f with
      | true => simp [beforeRequest, occurred, hf]
      | false =>
          have hb (es : List HostEvent) : beforeRequest (f :: es) = f :: beforeRequest es := by
            simp [beforeRequest, hf]
          have ho : occurred isRequest (f :: tr) = occurred isRequest tr := by simp [occurred, hf]
          rw [List.cons_append, hb, hb, ih, ho]
          split_ifs <;> rfl

/-- What a client with so many queries in its queue has to execute, at most. The
limit of the second loop is not in its way. -/
def Room (queued : Nat) : RunPoint → Prop
  | .drainCondition n | .query _ (.drain n) | .feedback _ (.drain n) _
  | .pushSucceeded _ (.drain n) _ _ => n + queued ≤ 50
  | .popRemaining n => n + queued ≤ 51
  | .close | .finished => queued = 0
  | .query _ .loop => queued + 1 ≤ 50
  | _ => queued ≤ 50

structure Draining (c : ConnectionClient) : Prop where
  connected : c.connectionStatus.isConnected = true
  room : Room c.queryQueue.length c.point

theorem draining_clientStep {c c' : ConnectionClient} {now : Nat} {e : ClientEvent}
    (h : ClientStep c now e c') (hd : Draining c) : Draining c' := by
  obtain ⟨hc, hr⟩ := hd
  cases h with
  | quiet _ caller _ hp | fail _ caller _ _ hp | succeed _ caller _ _ hp =>
      refine ⟨hc, ?_⟩
      rw [hp] at hr
      cases caller <;> exact hr
  | register _ caller _ _ _ hp =>
      refine ⟨hc, ?_⟩
      rw [hp] at hr
      cases caller <;> exact hr
  | query _ caller _ hp =>
      refine ⟨hc, ?_⟩
      rw [hp] at hr
      cases caller with
      | loop => exact Nat.le_of_succ_le hr
      | drain n => exact hr
  | connect answer hp =>
      rw [hp] at hr
      exact ⟨by simp [hc], hr⟩
  | popQuery information queue hp hq | popRemaining _ information queue hp hq =>
      refine ⟨hc, ?_⟩
      rw [hp, hq] at hr
      simp only [Room, List.length_cons] at hr ⊢
      omega
  | seeRemaining n hp | leave hp =>
      refine ⟨hc, ?_⟩
      rw [hp] at hr
      simp only [Room] at hr ⊢
      omega
  | endDrain n hp hn =>
      refine ⟨hc, ?_⟩
      rw [hp] at hr
      simp only [Room] at hr ⊢
      by_contra hq
      exact hn ⟨hc, by simpa using hq, by omega⟩
  | again hp | sleep hp | seeInformation hp | dueAttempt hp | duePing hp | seeQuery hp
  | popInformation _ _ hp | startAttempt hp | pushAttempt _ hp | stampAttempt hp | stampPing hp
  | ping _ hp | close hp | skipClose hp =>
      rw [hp] at hr
      exact ⟨hc, hr⟩

theorem draining_hostStep {h h' : ConnectionHost} {a : HostAction} {e : HostEvent}
    (hs : HostStep h a e h') (he : isSubmission e = false) (hd : Draining h.client) :
    Draining h'.client := by
  obtain ⟨hc, hr⟩ := hd
  cases hs with
  | client results input e c hc' => exact draining_clientStep hc' ⟨hc, hr⟩
  | query request => cases he
  | connect | startTick | seePending | seeNothing | endCallback | onConnectionAttempt | onQueryError
  | callback | requestShutdown | join | destroy => exact ⟨hc, hr⟩

theorem draining_of_backlog {tr : List HostEvent} {c : ConnectionClient} (ha : Accounted tr c)
    (hc : c.connectionStatus.isConnected = true) (he : ending c.point = false)
    (hb : (submitted tr).length ≤ (queried tr).length + 50) : Draining c := by
  refine ⟨hc, ?_⟩
  have hs := congrArg List.length ha.submissions
  have hq := congrArg List.length ha.calls
  simp only [List.length_append, List.length_map] at hs hq
  cases hp : c.point with
  | query _ caller | feedback _ caller _ | pushSucceeded _ caller _ _ =>
      cases caller with
      | loop =>
          simp only [hp, inHand, answered, List.length_cons, List.length_nil] at hs hq
          simp only [Room]
          omega
      | drain n => simp [hp, ending, drains] at he
  | drainCondition | popRemaining | close | finished => simp [hp, ending] at he
  | loopCondition | loopBody | popInformation | connect | awaitConnect | pushAttempt | stampAttempt
  | stampPing | ping | popQuery =>
      simp only [hp, inHand, answered, List.length_nil] at hs hq
      simp only [Room]
      omega

theorem reach_draining {script : Script} {id : UInt32} {tr : List HostEvent} {h : ConnectionHost}
    (hr : Reach ConnectionHost.step (ConnectionHost.new script id) tr h) (hl : NoneAfterClose tr)
    (hq : occurred isRequest tr = true) (hd : Drainable tr) : Draining h.client := by
  induction hr with
  | start => cases hq
  | @step tr h a h' e hr hs ih =>
      rw [NoneAfterClose, always_snoc] at hl
      have hstep := (hostStep_of_step hs).2
      rw [Drainable, beforeRequest_snoc] at hd
      by_cases ht : occurred isRequest tr = true
      · rw [if_pos ht] at hd
        have he : isSubmission e = false := by
          by_contra hne
          simp [hl.2 (by simpa using hne)] at ht
        exact draining_hostStep hstep he (ih hl.1 ht hd)
      · -- the first request: from here on the queue is only drained
        have he : isRequest e = true := by simpa [ht] using hq
        rw [if_neg ht, if_pos he] at hd
        have hshown := reach_shown hr
        have hend : ending h.client.point = false := by
          by_contra hne
          have hreq := (reach_sound hr).ending (by simpa using hne)
          rw [← hshown.request] at hreq
          exact ht hreq
        have hn : isSubmission e = false := by
          cases e <;> first | rfl | cases he
        exact draining_hostStep hstep hn (draining_of_backlog (reach_accounted hr)
          (hshown.connection ▸ hd.1) hend hd.2)

/-- A query that is taken after the request comes too late: the host thread was
held up until run had returned. -/
theorem returned_iff_requested {script : Script} {id : UInt32} {tr : List HostEvent}
    {h h' : ConnectionHost} {a : HostAction} {e : HostEvent}
    (hr : Reach ConnectionHost.step (ConnectionHost.new script id) tr h)
    (hs : ConnectionHost.step h a = some (h', e)) :
    (isSubmission e = true → occurred isReturn tr = false) ↔
      (isSubmission e = true → occurred isRequest tr = false) := by
  have hshown := reach_shown hr
  have hsound := reach_sound hr
  cases (hostStep_of_step hs).2 with
  | query request hj =>
      have hf : occurred isReturn tr = true ↔ occurred isRequest tr = true := by
        rw [hshown.returned, hshown.request]
        constructor
        · intro hp
          exact hsound.ending (by rw [hp]; rfl)
        · intro hreq
          exact hsound.joined (by simpa [ConnectionHost.joining, hreq] using hj)
      simp only [isSubmission, true_imp_iff, Bool.eq_false_iff, ne_eq, hf]
  | _ => simp [isSubmission]

theorem accepted_executed_iff {script : Script} {id : UInt32} {tr : List HostEvent}
    {h : ConnectionHost} (hr : Reach ConnectionHost.step (ConnectionHost.new script id) tr h) :
    AcceptedExecuted tr ↔ NoneAfterClose tr := by
  have hiff := reach_always_iff returned_iff_requested hr
  refine ⟨fun ha => hiff.mp ha.running, fun hl => ⟨?_, hiff.mpr hl⟩⟩
  intro hd hdrain
  have hshown := reach_shown hr
  have hsound := reach_sound hr
  have hp := hsound.joined (hshown.destroyed hd)
  have hreq : occurred isRequest tr = true := hshown.request.trans (hsound.ending (by rw [hp]; rfl))
  have hroom := (reach_draining hr hl hreq hdrain).room
  rw [hp] at hroom
  have ha := reach_accounted hr
  rw [ha.calls, ha.submissions, hp, List.length_eq_zero_iff.mp hroom]
  simp [inHand, answered]

end MysqlPlugin.AcceptedQueries
