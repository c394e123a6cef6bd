import MysqlPlugin.ClientInvariant

namespace MysqlPlugin.LifeCycle

open ClientInvariant Transition

/-- The calls of libmysql that go to the server, as run makes them. -/
inductive Operation
  | failedConnect | connect | ping | query | silentQuery | close
  deriving DecidableEq

def operation : HostEvent → Option Operation
  | .client _ (.connected answer _) => some (if answer.accepted then .connect else .failedConnect)
  | .client _ (.pinged _) => some .ping
  | .client _ (.queried _ .normalExecution _) => some .query
  | .client _ (.queried _ .silentExecution _) => some .silentQuery
  | .client _ .closed => some .close
  | _ => none

def operations (tr : List HostEvent) : List Operation := tr.filterMap operation

structure Work (work : List Operation) : Prop where
  only : ∀ o ∈ work, o = .ping ∨ o = .query
  pingFirst : ∀ i : Nat, work[i]? = some Operation.query → ∃ j < i, work[j]? = some Operation.ping

def started (failures : Nat) (work : List Operation) : List Operation :=
  List.replicate failures .failedConnect ++ .connect :: work

theorem started_append (failures : Nat) (work ops : List Operation) :
    started failures work ++ ops = started failures (work ++ ops) := by
  simp [started]

inductive Complete : List Operation → Prop
  | neverConnected (failures : Nat) : Complete (List.replicate failures .failedConnect)
  | connected (failures : Nat) (work : List Operation) (silent : Nat) (hw : Work work)
      (hs : silent ≤ 50) :
      Complete (started failures work ++ List.replicate silent .silentQuery ++ [.close])

theorem work_nil : Work [] := ⟨by simp, by simp⟩

theorem Work.snoc {work : List Operation} {o : Operation} (h : Work work)
    (ho : o = .ping ∨ o = .query ∧ .ping ∈ work) : Work (work ++ [o]) := by
  constructor
  · intro p hp
    rcases List.mem_append.mp hp with hp | hp
    · exact h.only p hp
    · rw [List.mem_singleton.mp hp]
      exact ho.imp id And.left
  · intro i hi
    by_cases hl : i < work.length
    · rw [List.getElem?_append_left hl] at hi
      obtain ⟨j, hj, hp⟩ := h.pingFirst i hi
      exact ⟨j, hj, by rw [List.getElem?_append_left (by omega), hp]⟩
    · rw [List.getElem?_append_right (by omega)] at hi
      rcases ho with rfl | ⟨rfl, hp⟩
      · simp [List.getElem?_singleton] at hi
      · obtain ⟨j, hj, he⟩ := List.getElem_of_mem hp
        exact ⟨j, by omega, by rw [List.getElem?_append_left hj, List.getElem?_eq_getElem hj, he]⟩

def queryable : RunPoint → Bool
  | .popQuery | .query _ .loop => true
  | _ => false

/-- The client has pinged the server at least once. The stamp comes before the
ping it stands for. -/
def Pinged (c : ConnectionClient) : Prop :=
  queryable c.point = true ∨ c.connectionStatus.lastPing ≠ 0 ∧ c.point ≠ .ping

def Silent (silent : Nat) : RunPoint → Prop
  | .drainCondition n | .feedback _ (.drain n) _ | .pushSucceeded _ (.drain n) _ _ => n = silent
  | .popRemaining n | .query _ (.drain n) => n = silent + 1 ∧ silent < 50
  | .close => True
  | _ => False

theorem Silent.ending {silent : Nat} {point : RunPoint} (h : Silent silent point) :
    ending point = true := by
  unfold Silent at h
  split at h
  all_goals first | rfl | exact h.elim

inductive Stage (c : ConnectionClient) : List Operation → Prop
  | connecting (failures : Nat) (hc : c.connectionStatus.isConnected = false) :
      Stage c (List.replicate failures .failedConnect)
  | working (failures : Nat) (work : List Operation) (hc : c.connectionStatus.isConnected = true)
      (hw : Work work) (he : ending c.point = false) (hp : Pinged c → .ping ∈ work) :
      Stage c (started failures work)
  | draining (failures : Nat) (work : List Operation) (silent : Nat)
      (hc : c.connectionStatus.isConnected = true) (hw : Work work) (hs : Silent silent c.point)
      (hn : silent ≤ 50) :
      Stage c (started failures work ++ List.replicate silent .silentQuery)
  | closed (failures : Nat) (work : List Operation) (silent : Nat)
      (hc : c.connectionStatus.isConnected = true) (hw : Work work) (hp : c.point = .finished)
      (hn : silent ≤ 50) :
      Stage c (started failures work ++ List.replicate silent .silentQuery ++ [.close])

theorem Stage.extends {c : ConnectionClient} {ops : List Operation} (h : Stage c ops) :
    ∃ rest, Complete (ops ++ rest) := by
  cases h with
  | connecting failures => exact ⟨[], by simpa using Complete.neverConnected failures⟩
  | working failures work hc hw =>
      exact ⟨[.close], by simpa using Complete.connected failures work 0 hw (by omega)⟩
  | draining failures work silent hc hw hs hn =>
      exact ⟨[.close], Complete.connected failures work silent hw hn⟩
  | closed failures work silent hc hw hp hn =>
      exact ⟨[], by simpa using Complete.connected failures work silent hw hn⟩

theorem Stage.complete {c : ConnectionClient} {ops : List Operation} (h : Stage c ops)
    (hp : c.point = .finished) : Complete ops := by
  cases h with
  | connecting failures => exact .neverConnected failures
  | working failures work hc hw he => simp [hp, ending] at he
  | draining failures work silent hc hw hs => simp [hp, Silent] at hs
  | closed failures work silent hc hw hp hn => exact .connected failures work silent hw hn

theorem Stage.move {c c' : ConnectionClient} {ops : List Operation} (h : Stage c ops)
    (hc : c'.connectionStatus.isConnected = c.connectionStatus.isConnected)
    (he : ending c.point = false → ending c'.point = false) (hp : Pinged c' → Pinged c)
    (hs : ∀ silent, Silent silent c.point → Silent silent c'.point)
    (hf : c.point ≠ .finished) : Stage c' ops := by
  cases h with
  | connecting failures hc' => exact .connecting failures (hc.trans hc')
  | working failures work hc' hw he' hp' =>
      exact .working failures work (hc.trans hc') hw (he he') (fun h => hp' (hp h))
  | draining failures work silent hc' hw hs' hn =>
      exact .draining failures work silent (hc.trans hc') hw (hs silent hs') hn
  | closed failures work silent hc' hw hp' hn => exact absurd hp' hf

theorem Stage.connecting_of {c : ConnectionClient} {ops : List Operation} (h : Stage c ops)
    (hc : c.connectionStatus.isConnected = false) :
    ∃ failures, ops = List.replicate failures .failedConnect := by
  cases h with
  | connecting failures => exact ⟨failures, rfl⟩
  | working _ _ hc' | draining _ _ _ hc' | closed _ _ _ hc' => simp [hc] at hc'

theorem Stage.working_of {c : ConnectionClient} {ops : List Operation} (h : Stage c ops)
    (hc : c.connectionStatus.isConnected = true) (he : ending c.point = false) :
    ∃ failures work, Work work ∧ (Pinged c → .ping ∈ work) ∧ ops = started failures work := by
  cases h with
  | connecting failures hc' => simp [hc] at hc'
  | working failures work _ hw _ hp => exact ⟨failures, work, hw, hp, rfl⟩
  | draining failures work silent _ hw hs =>
      simp [hs.ending] at he
  | closed failures work silent _ hw hp => simp [hp, ending] at he

theorem Stage.draining_of {c : ConnectionClient} {ops : List Operation} (h : Stage c ops)
    (hc : c.connectionStatus.isConnected = true) (he : ending c.point = true)
    (hf : c.point ≠ .finished) :
    ∃ failures work silent, Work work ∧ Silent silent c.point ∧ silent ≤ 50 ∧
      ops = started failures work ++ List.replicate silent .silentQuery := by
  cases h with
  | connecting failures hc' => simp [hc] at hc'
  | working failures work _ hw he' => simp [he] at he'
  | draining failures work silent _ hw hs hn => exact ⟨failures, work, silent, hw, hs, hn, rfl⟩
  | closed failures work silent _ hw hp => exact absurd hp hf

theorem Stage.attempted {c c' : ConnectionClient} {ops : List Operation}
    {answer : ConnectAnswer} {result : ConnectionAttemptResult} {now : Nat} (h : Stage c ops)
    (hc : c.connectionStatus.isConnected = false)
    (hc' : c'.connectionStatus.isConnected = answer.accepted)
    (he : ending c'.point = false) (hp : ¬Pinged c') :
    Stage c' (ops ++ operations [.client now (.connected answer result)]) := by
  obtain ⟨failures, rfl⟩ := h.connecting_of hc
  cases hr : answer.accepted with
  | true =>
      have ho : operations [.client now (.connected answer result)] = [.connect] := by
        simp [operations, operation, hr]
      rw [ho]
      exact .working failures [] (hc'.trans hr) work_nil he (fun h => absurd h hp)
  | false =>
      have ho : operations [.client now (.connected answer result)] = [.failedConnect] := by
        simp [operations, operation, hr]
      rw [ho, ← List.replicate_succ']
      exact .connecting (failures + 1) (hc'.trans hr)

theorem Stage.worked {c c' : ConnectionClient} {ops : List Operation} {o : Operation}
    (h : Stage c ops) (hc : c.connectionStatus.isConnected = true) (he : ending c.point = false)
    (hc' : c'.connectionStatus.isConnected = true) (he' : ending c'.point = false)
    (ho : o = .ping ∨ o = .query ∧ Pinged c) : Stage c' (ops ++ [o]) := by
  obtain ⟨failures, work, hw, hp, rfl⟩ := h.working_of hc he
  have ho' : o = .ping ∨ o = .query ∧ .ping ∈ work := ho.imp id (And.imp id hp)
  rw [started_append]
  refine .working failures _ hc' (hw.snoc ho') he' (fun _ => ?_)
  rcases ho' with rfl | ⟨-, hm⟩
  · exact List.mem_append_right _ (List.mem_singleton_self _)
  · exact List.mem_append_left _ hm

theorem stage_clientStep {c c' : ConnectionClient} {now : Nat} {e : ClientEvent}
    {ops : List Operation} (h : ClientStep c now e c') (hs : Sound c) (hg : Stage c ops) :
    Stage c' (ops ++ operations [.client now e]) := by
  cases h with
  | again hp | sleep hp | seeInformation hp | dueAttempt hp | duePing hp | popInformation _ _ hp
  | startAttempt hp | pushAttempt _ hp | stampAttempt hp | stampPing hp | popQuery _ _ hp
  | endDrain _ hp | popRemaining _ _ _ hp =>
      rw [show operations [_] = [] from rfl, List.append_nil]
      apply hg.move
      · rfl
      · simp [hp, ending, drains]
      · simp [Pinged, queryable, hp]
      · simp [Silent, hp]
      · simp [hp]
  | seeQuery hp hi hc hl =>
      rw [show operations [_] = [] from rfl, List.append_nil]
      apply hg.move
      · rfl
      · simp [ending]
      · simp [Pinged, hp, hl]
      · simp [Silent, hp]
      · simp [hp]
  | seeRemaining n hp hc hq hn =>
      rw [show operations [_] = [] from rfl, List.append_nil]
      apply hg.move
      · rfl
      · simp [hp, ending]
      · simp [Pinged, queryable, hp]
      · simp only [hp, Silent]
        omega
      · simp [hp]
  | quiet _ caller _ hp | fail _ caller _ _ hp | register _ caller _ _ _ hp
  | succeed _ caller _ _ hp =>
      rw [show operations [_] = [] from rfl, List.append_nil]
      cases caller with
      | loop | drain executedQueries =>
          apply hg.move
          · rfl
          · simp [hp, ending, drains, QueryCaller.resume]
          · simp [Pinged, queryable, QueryCaller.resume, hp]
          · simp [Silent, QueryCaller.resume, hp]
          · simp [hp]
  | leave hp =>
      rw [show operations [_] = [] from rfl, List.append_nil]
      cases hc : c.connectionStatus.isConnected with
      | false =>
          obtain ⟨failures, rfl⟩ := hg.connecting_of hc
          exact .connecting failures hc
      | true =>
          obtain ⟨failures, work, hw, -, rfl⟩ := hg.working_of hc (by simp [hp, ending])
          rw [← List.append_nil (started failures work)]
          exact .draining failures work 0 hc hw rfl (by omega)
  | connect answer hp =>
      have hc := (hs.attempting (by rw [hp]; rfl)).2
      apply hg.attempted
      · exact hc
      · simp [hc]
      · rfl
      · simp [Pinged, queryable, hs.unpinged hc]
  | ping answer hp =>
      have hc := hs.serving (by rw [hp]; rfl)
      apply hg.worked
      · exact hc
      · simp [hp, ending]
      · exact hc
      · simp [ending]
      · exact .inl rfl
  | query information caller answer hp =>
      have hc := hs.serving (by rw [hp]; rfl)
      cases caller with
      | loop =>
          -- the stamp of a ping let this query through
          have hpinged : Pinged c := .inl (by rw [hp]; rfl)
          apply hg.worked
          · exact hc
          · simp [hp, ending, drains]
          · exact hc
          · simp [ending, drains]
          · exact .inr ⟨rfl, hpinged⟩
      | drain n =>
          obtain ⟨failures, work, silent, hw, hs, hn, rfl⟩ :=
            hg.draining_of hc (by simp [hp, ending, drains]) (by simp [hp])
          rw [hp] at hs
          have ho : List.replicate silent Operation.silentQuery ++
              operations [.client now
                (.queried information (QueryCaller.drain n).executionType answer)] =
              List.replicate (silent + 1) .silentQuery :=
            List.replicate_succ'.symm
          rw [List.append_assoc, ho]
          exact .draining failures work (silent + 1) hc hw hs.1 hs.2
  | close hp hi hc =>
      obtain ⟨failures, work, silent, hw, -, hn, rfl⟩ :=
        hg.draining_of hc (by simp [hp, ending]) (by simp [hp])
      exact .closed failures work silent hc hw rfl hn
  | skipClose hp hc =>
      rw [show operations [_] = [] from rfl, List.append_nil]
      have hc' : c.connectionStatus.isConnected = false := by
        rw [Bool.eq_false_iff]
        exact fun hc' => hc ⟨hs.informed hc', hc'⟩
      obtain ⟨failures, rfl⟩ := hg.connecting_of hc'
      exact .connecting failures hc'

theorem stage_hostStep {h h' : ConnectionHost} {a : HostAction} {e : HostEvent} {ops : List Operation}
    (hs : HostStep h a e h') (hc : Sound h.client) (hg : Stage h.client ops) :
    Stage h'.client (ops ++ operations [e]) := by
  cases hs with
  | client results input e c hc' => exact stage_clientStep hc' hc hg
  | connect | query | startTick | seePending | seeNothing | endCallback | onConnectionAttempt
  | onQueryError | callback | requestShutdown | join | destroy =>
      rw [show operations [_] = [] from rfl, List.append_nil]
      cases hg with
      | connecting failures hc => exact .connecting failures hc
      | working failures work hc hw he hp => exact .working failures work hc hw he hp
      | draining failures work silent hc hw hs hn => exact .draining failures work silent hc hw hs hn
      | closed failures work silent hc hw hp hn => exact .closed failures work silent hc hw hp hn

theorem reach_stage {script : Script} {id : UInt32} {tr : List HostEvent} {h : ConnectionHost}
    (hr : Reach ConnectionHost.step (ConnectionHost.new script id) tr h) :
    Stage h.client (operations tr) := by
  induction hr with
  | start => exact .connecting 0 rfl
  | step h hs ih =>
      rw [operations, List.filterMap_append]
      exact stage_hostStep (hostStep_of_step hs).2 (reach_sound h) ih

/-- The operations of a client that has returned are a complete life cycle, those
of a running client are the beginning of one, and the attempt results that it
queues are failures up to at most one success. -/
theorem operations_complete (script : Script) (id : UInt32) (acts : List HostAction) :
    let r := run ConnectionHost.step (ConnectionHost.new script id) acts
    (r.2.client.point = .finished → Complete (operations r.1)) ∧
      (∃ rest, Complete (operations r.1 ++ rest)) ∧
      ∃ isConnected, FailuresThenSuccess isConnected (attempts r.1) := by
  intro r
  have hr := reach_run ConnectionHost.step (ConnectionHost.new script id) acts
  have hg := reach_stage hr
  exact ⟨hg.complete, hg.extends, (reach_reported hr).pushed⟩

end MysqlPlugin.LifeCycle
