import MysqlPlugin.Steps

namespace MysqlPlugin.ClientInvariant

open Transition

def attempting : RunPoint → Bool
  | .connect | .awaitConnect => true
  | _ => false

def serving : RunPoint → Bool
  | .stampPing | .ping | .popQuery | .query _ _ | .feedback _ _ _ | .pushSucceeded _ _ _ _
  | .popRemaining _ => true
  | _ => false

def drains : QueryCaller → Bool
  | .loop => false
  | .drain _ => true

def ending : RunPoint → Bool
  | .query _ caller | .feedback _ caller _ | .pushSucceeded _ caller _ _ => drains caller
  | .drainCondition _ | .popRemaining _ | .close | .finished => true
  | _ => false

def unreported : RunPoint → List ConnectionAttemptResult
  | .pushAttempt result => [result]
  | _ => []

section

variable (caller : QueryCaller)

@[simp] theorem attempting_resume : attempting caller.resume = false := by cases caller <;> rfl

@[simp] theorem serving_resume : serving caller.resume = false := by cases caller <;> rfl

@[simp] theorem ending_resume : ending caller.resume = drains caller := by cases caller <;> rfl

@[simp] theorem unreported_resume : unreported caller.resume = [] := by cases caller <;> rfl

end

/-- How the flags of a client go together with the point its thread is at. -/
structure Sound (c : ConnectionClient) : Prop where
  informed : c.connectionStatus.isConnected = true →
    c.connectionStatus.hasConnectionInformation = true
  attempting : attempting c.point = true →
    c.connectionStatus.hasConnectionInformation = true ∧ c.connectionStatus.isConnected = false
  serving : serving c.point = true → c.connectionStatus.isConnected = true
  unreported : ∀ result ∈ unreported c.point, result.succeeded = c.connectionStatus.isConnected
  unpinged : c.connectionStatus.isConnected = false → c.connectionStatus.lastPing = 0
  ending : ending c.point = true → c.requestShutdown = true
  joined : c.isRunning = false → c.point = .finished

theorem Sound.move {c c' : ConnectionClient} (hs : Sound c)
    (hc : c'.connectionStatus = c.connectionStatus) (hr : c'.requestShutdown = c.requestShutdown)
    (ha : ClientInvariant.attempting c'.point = true → ClientInvariant.attempting c.point = true ∨
      c.connectionStatus.hasConnectionInformation = true ∧ c.connectionStatus.isConnected = false)
    (hv : ClientInvariant.serving c'.point = true →
      ClientInvariant.serving c.point = true ∨ c.connectionStatus.isConnected = true)
    (hu : ∀ result ∈ ClientInvariant.unreported c'.point,
      result ∈ ClientInvariant.unreported c.point)
    (he : ClientInvariant.ending c'.point = true →
      ClientInvariant.ending c.point = true ∨ c.requestShutdown = true)
    (hi : c'.isRunning = c.isRunning) (hf : c.point ≠ .finished) : Sound c' := by
  constructor
  · rw [hc]
    exact hs.informed
  · rw [hc]
    exact fun h => (ha h).elim hs.attempting id
  · rw [hc]
    exact fun h => (hv h).elim hs.serving id
  · rw [hc]
    exact fun result h => hs.unreported result (hu result h)
  · rw [hc]
    exact hs.unpinged
  · rw [hr]
    exact fun h => (he h).elim hs.ending id
  · rw [hi]
    exact fun h => absurd (hs.joined h) hf

theorem sound_clientStep {c c' : ConnectionClient} {now : Nat} {e : ClientEvent}
    (h : ClientStep c now e c') (hs : Sound c) : Sound c' := by
  cases h with
  | again hp | sleep hp | seeInformation hp | pushAttempt _ hp | ping _ hp | popQuery _ _ hp
  | endDrain _ hp | popRemaining _ _ _ hp | close hp | skipClose hp | startAttempt hp =>
      apply hs.move
      · rfl
      · rfl
      · simp [hp, ClientInvariant.attempting]
      · simp [hp, ClientInvariant.serving]
      · simp [ClientInvariant.unreported]
      · simp [hp, ClientInvariant.ending, drains]
      · rfl
      · simp [hp]
  | query _ caller _ hp | register _ caller _ _ _ hp =>
      apply hs.move
      · rfl
      · rfl
      · simp [ClientInvariant.attempting]
      · simp [hp, ClientInvariant.serving]
      · simp [ClientInvariant.unreported]
      · rw [hp]
        exact Or.inl
      · rfl
      · simp [hp]
  | quiet _ caller _ hp | fail _ caller _ _ hp | succeed _ caller _ _ hp =>
      apply hs.move
      · rfl
      · rfl
      · simp
      · simp
      · simp
      · rw [ending_resume, hp]
        exact Or.inl
      · rfl
      · simp [hp]
  | leave hp hr =>
      apply hs.move
      · rfl
      · rfl
      · simp [ClientInvariant.attempting]
      · simp [ClientInvariant.serving]
      · simp [ClientInvariant.unreported]
      · simp [hr]
      · rfl
      · simp [hp]
  | dueAttempt hp hi hc =>
      apply hs.move
      · rfl
      · rfl
      · simp [hi, hc]
      · simp [ClientInvariant.serving]
      · simp [ClientInvariant.unreported]
      · simp [ClientInvariant.ending]
      · rfl
      · simp [hp]
  | duePing hp hi hc | seeQuery hp hi hc | seeRemaining _ hp hc =>
      apply hs.move
      · rfl
      · rfl
      · simp [ClientInvariant.attempting]
      · simp [hc]
      · simp [ClientInvariant.unreported]
      · simp [hp, ClientInvariant.ending]
      · rfl
      · simp [hp]
  | popInformation information queue hp =>
      exact ⟨fun _ => rfl, by simp [ClientInvariant.attempting], by simp [ClientInvariant.serving],
        by simp [ClientInvariant.unreported], hs.unpinged, by simp [ClientInvariant.ending],
        fun h => absurd (hs.joined h) (by simp [hp])⟩
  | connect answer hp =>
      obtain ⟨hi, hc⟩ := hs.attempting (by rw [hp]; rfl)
      exact ⟨fun _ => hi, by simp [ClientInvariant.attempting], by simp [ClientInvariant.serving],
        by simp [ClientInvariant.unreported, hc], fun _ => hs.unpinged hc,
        by simp [ClientInvariant.ending], fun h => absurd (hs.joined h) (by simp [hp])⟩
  | stampAttempt hp =>
      exact ⟨hs.informed, by simp [ClientInvariant.attempting], by simp [ClientInvariant.serving],
        by simp [ClientInvariant.unreported], hs.unpinged, by simp [ClientInvariant.ending],
        fun h => absurd (hs.joined h) (by simp [hp])⟩
  | stampPing hp =>
      have hc : c.connectionStatus.isConnected = true := hs.serving (by rw [hp]; rfl)
      exact ⟨hs.informed, by simp [ClientInvariant.attempting], fun _ => hc,
        by simp [ClientInvariant.unreported], by simp [hc], by simp [ClientInvariant.ending],
        fun h => absurd (hs.joined h) (by simp [hp])⟩

theorem sound_hostStep {h h' : ConnectionHost} {a : HostAction} {e : HostEvent} (hs : HostStep h a e h')
    (hc : Sound h.client) : Sound h'.client := by
  cases hs with
  | client results input e c hc' => exact sound_clientStep hc' hc
  | requestShutdown hr =>
      obtain ⟨hi, ha, hv, hu, hp, he, hj⟩ := hc
      exact ⟨hi, ha, hv, hu, hp, fun _ => rfl, hj⟩
  | join hr hs hp =>
      obtain ⟨hi, ha, hv, hu, hp', he, hj⟩ := hc
      exact ⟨hi, ha, hv, hu, hp', he, fun _ => hp⟩
  | connect | query | startTick | seePending | seeNothing | endCallback | onConnectionAttempt
  | onQueryError | callback | destroy =>
      obtain ⟨hi, ha, hv, hu, hp, he, hj⟩ := hc
      exact ⟨hi, ha, hv, hu, hp, he, hj⟩

theorem sound_new : Sound ConnectionClient.new := by
  constructor <;> simp [ConnectionClient.new, ConnectionStatus.new, ClientInvariant.attempting,
    ClientInvariant.serving, ClientInvariant.ending, ClientInvariant.unreported]

theorem reach_sound {script : Script} {id : UInt32} {tr : List HostEvent} {h : ConnectionHost}
    (hr : Reach ConnectionHost.step (ConnectionHost.new script id) tr h) : Sound h.client := by
  induction hr with
  | start => exact sound_new
  | step _ hs ih => exact sound_hostStep (hostStep_of_step hs).2 ih

def attempts (tr : List HostEvent) : List ConnectionAttemptResult :=
  tr.filterMap fun
    | .client _ (.attemptQueued result) => some result
    | _ => none

def handedAttempts (tr : List HostEvent) : List ConnectionAttemptResult :=
  tr.filterMap fun
    | .onConnectionAttempt result _ => some result
    | _ => none

theorem attempts_append (tr es : List HostEvent) :
    attempts (tr ++ es) = attempts tr ++ attempts es :=
  List.filterMap_append

theorem handedAttempts_append (tr es : List HostEvent) :
    handedAttempts (tr ++ es) = handedAttempts tr ++ handedAttempts es :=
  List.filterMap_append

/-- Failures only, and after them one success where there is a connection. -/
def FailuresThenSuccess (isConnected : Bool) (results : List ConnectionAttemptResult) : Prop :=
  ∃ failures successes, results = failures ++ successes ∧
    (∀ result ∈ failures, result.succeeded = false) ∧
    if isConnected then ∃ result, successes = [result] ∧ result.succeeded = true
    else successes = []

theorem FailuresThenSuccess.snoc {results : List ConnectionAttemptResult}
    (h : FailuresThenSuccess false results) (result : ConnectionAttemptResult) :
    FailuresThenSuccess result.succeeded (results ++ [result]) := by
  obtain ⟨failures, successes, rfl, hf, rfl⟩ := h
  cases hr : result.succeeded with
  | true => exact ⟨failures, [result], by simp, hf, result, rfl, hr⟩
  | false =>
      refine ⟨failures ++ [result], [], by simp, ?_, rfl⟩
      intro r hm
      rcases List.mem_append.mp hm with hm | hm
      · exact hf r hm
      · rwa [List.mem_singleton.mp hm]

theorem FailuresThenSuccess.left {isConnected : Bool} {results : List ConnectionAttemptResult}
    {result : ConnectionAttemptResult}
    (h : FailuresThenSuccess isConnected (results ++ [result])) : FailuresThenSuccess false results := by
  obtain ⟨failures, successes, he, hf, hs⟩ := h
  split at hs
  · obtain ⟨success, rfl, -⟩ := hs
    obtain ⟨rfl, -⟩ := List.append_inj' he rfl
    exact ⟨results, [], by simp, hf, rfl⟩
  · subst hs
    rw [List.append_nil] at he
    subst he
    exact ⟨results, [], by simp, fun r hr => hf r (List.mem_append_left _ hr), rfl⟩

theorem FailuresThenSuccess.countP_le {isConnected : Bool} {results : List ConnectionAttemptResult}
    (h : FailuresThenSuccess isConnected results) : results.countP (·.succeeded) ≤ 1 := by
  obtain ⟨failures, successes, rfl, hf, hs⟩ := h
  have hz : failures.countP (·.succeeded) = 0 := by
    rw [List.countP_eq_zero]
    intro result hr
    simp [hf result hr]
  rw [List.countP_append, hz, Nat.zero_add]
  split at hs
  · obtain ⟨result, rfl, -⟩ := hs
    exact List.countP_le_length
  · rw [hs]
    simp

/-- No result of an attempt is lost on the way to the script. -/
structure Reported (tr : List HostEvent) (c : ConnectionClient) : Prop where
  queue : handedAttempts tr ++ c.connectionAttemptQueue = attempts tr
  outcome : FailuresThenSuccess c.connectionStatus.isConnected (attempts tr ++ unreported c.point)

theorem Reported.pushed {tr : List HostEvent} {c : ConnectionClient} (h : Reported tr c) :
    ∃ isConnected, FailuresThenSuccess isConnected (attempts tr) := by
  have ho := h.outcome
  cases hu : unreported c.point with
  | nil =>
      rw [hu, List.append_nil] at ho
      exact ⟨_, ho⟩
  | cons result rest =>
      have hn : rest = [] := by
        cases hp : c.point <;> rw [hp] at hu <;> cases hu
        rfl
      rw [hu, hn] at ho
      exact ⟨false, ho.left⟩

theorem Reported.extend {tr : List HostEvent} {c c' : ConnectionClient} {e : HostEvent}
    (hr : Reported tr c) (hq : handedAttempts [e] ++ c'.connectionAttemptQueue =
      c.connectionAttemptQueue ++ attempts [e])
    (hu : attempts [e] ++ unreported c'.point = unreported c.point)
    (hc : c'.connectionStatus.isConnected = c.connectionStatus.isConnected) :
    Reported (tr ++ [e]) c' := by
  constructor
  · rw [handedAttempts_append, attempts_append, List.append_assoc, hq, ← hr.queue,
      List.append_assoc]
  · rw [attempts_append, List.append_assoc, hu, hc]
    exact hr.outcome

theorem reported_clientStep {tr : List HostEvent} {c c' : ConnectionClient} {now : Nat}
    {e : ClientEvent} (h : ClientStep c now e c') (hs : Sound c) (hr : Reported tr c) :
    Reported (tr ++ [.client now e]) c' := by
  cases h with
  | again hp | leave hp | sleep hp | seeInformation hp | dueAttempt hp | duePing hp | seeQuery hp
  | popInformation _ _ hp | startAttempt hp | pushAttempt _ hp | stampAttempt hp | stampPing hp
  | ping _ hp | popQuery _ _ hp | query _ _ _ hp | register _ _ _ _ _ hp | seeRemaining _ hp
  | endDrain _ hp | popRemaining _ _ _ hp | close hp | skipClose hp =>
      apply hr.extend
      · simp [handedAttempts, attempts]
      · simp [hp, attempts, ClientInvariant.unreported]
      · rfl
  | quiet _ caller _ hp | fail _ caller _ _ hp | succeed _ caller _ _ hp =>
      apply hr.extend
      · simp [handedAttempts, attempts]
      · rw [unreported_resume, hp]
        rfl
      · rfl
  | connect answer hp =>
      -- an attempt is made without a connection, so all that came before it failed
      have hc : c.connectionStatus.isConnected = false := (hs.attempting (by rw [hp]; rfl)).2
      have ho := hr.outcome
      rw [hp, hc] at ho
      constructor
      · rw [handedAttempts_append, attempts_append]
        simpa [handedAttempts, attempts] using hr.queue
      · rw [attempts_append]
        simpa [hc, attempts, ClientInvariant.unreported] using
          ho.snoc (ConnectionClient.attemptResult c.connectionStatus.information answer)

theorem reported_hostStep {tr : List HostEvent} {h h' : ConnectionHost} {a : HostAction} {e : HostEvent}
    (hs : HostStep h a e h') (hc : Sound h.client) (hr : Reported tr h.client) :
    Reported (tr ++ [e]) h'.client := by
  cases hs with
  | client results input e c hc' => exact reported_clientStep hc' hc hr
  | onConnectionAttempt publics result rest hj ht hq =>
      apply hr.extend
      · simp [handedAttempts, attempts, hq]
      · simp [attempts]
      · rfl
  | connect | query | startTick | seePending | seeNothing | endCallback | onQueryError | callback
  | requestShutdown | join | destroy =>
      apply hr.extend
      · simp [handedAttempts, attempts]
      · simp [attempts]
      · rfl

theorem reach_reported {script : Script} {id : UInt32} {tr : List HostEvent} {h : ConnectionHost}
    (hr : Reach ConnectionHost.step (ConnectionHost.new script id) tr h) : Reported tr h.client := by
  induction hr with
  | start => exact ⟨rfl, [], [], rfl, List.forall_mem_nil _, rfl⟩
  | step h hs ih => exact reported_hostStep (hostStep_of_step hs).2 (reach_sound h) ih

end MysqlPlugin.ClientInvariant
