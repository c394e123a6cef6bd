import MysqlPlugin.ClientInvariant
import MysqlPlugin.QueryAccounting

namespace MysqlPlugin.AttemptsFirst

open ClientInvariant QueryAccounting Transition

def delivers : HostEvent → Bool
  | .onQueryError _ _ | .callback _ _ => true
  | _ => false

def ConnectionFirst (tr : List HostEvent) : Prop :=
  Always (fun past e => delivers e = true → ∃ result ∈ handedAttempts past, result.succeeded = true) tr

instance (tr : List HostEvent) : Decidable (ConnectionFirst tr) :=
  inferInstanceAs (Decidable (Always _ tr))

def delivering (h : ConnectionHost) : Bool :=
  match h.tick with
  | .pop .failures | .pop .successes => true
  | _ => false

/-- The condition on the steps: no successful attempt waits in its queue while
processTick pops the result of a query. -/
def NoneWaiting (_ : List HostEvent) (h : ConnectionHost) : HostAction → Prop
  | .processTick _ => delivering h = true →
      ∀ result ∈ h.client.connectionAttemptQueue, result.succeeded = false
  | _ => True

def Served (tr : List HostEvent) : Prop :=
  executed tr ≠ [] → ∃ result ∈ attempts tr, result.succeeded = true

theorem connected_attempt {tr : List HostEvent} {c : ConnectionClient} (hr : Reported tr c)
    (hc : c.connectionStatus.isConnected = true) (hu : unreported c.point = []) :
    ∃ result ∈ attempts tr, result.succeeded = true := by
  obtain ⟨failures, successes, he, hf, hs⟩ := hr.outcome
  rw [hc, if_pos rfl] at hs
  obtain ⟨result, rfl, hr⟩ := hs
  rw [hu, List.append_nil] at he
  exact ⟨result, by simp [he], hr⟩

theorem unreported_of_serving {point : RunPoint} (h : serving point = true) :
    unreported point = [] := by
  cases point <;> first | rfl | cases h

theorem serving_of_executed {c c' : ConnectionClient} {now : Nat} {e : ClientEvent}
    (h : ClientStep c now e c') (hx : executed [.client now e] ≠ []) : serving c.point = true := by
  cases h with
  | quiet _ _ _ hp | fail _ _ _ _ hp | succeed _ _ _ _ hp =>
      rw [hp]
      rfl
  | _ => exact absurd rfl hx

theorem served_hostStep {tr : List HostEvent} {h h' : ConnectionHost} {a : HostAction}
    {e : HostEvent} (hs : HostStep h a e h') (hc : Sound h.client) (hr : Reported tr h.client)
    (hv : Served tr) : Served (tr ++ [e]) := by
  intro hx
  rw [executed_append] at hx
  rw [attempts_append]
  have hmono : (∃ result ∈ attempts tr, result.succeeded = true) →
      ∃ result ∈ attempts tr ++ attempts [e], result.succeeded = true := by
    rintro ⟨result, hm, hok⟩
    exact ⟨result, List.mem_append_left _ hm, hok⟩
  by_cases ht : executed tr = []
  · rw [ht, List.nil_append] at hx
    cases hs with
    | client results input e c hc' =>
        have hp := serving_of_executed hc' hx
        exact hmono (connected_attempt hr (hc.serving hp) (unreported_of_serving hp))
    | _ => exact absurd rfl hx
  · exact hmono (hv ht)

theorem reach_served {script : Script} {id : UInt32} {tr : List HostEvent} {h : ConnectionHost}
    (hr : Reach ConnectionHost.step (ConnectionHost.new script id) tr h) : Served tr := by
  induction hr with
  | start => exact fun h => absurd rfl h
  | step h hs ih =>
      exact served_hostStep (hostStep_of_step hs).2 (reach_sound h) (reach_reported h) ih

theorem none_waiting_iff_handed {tr : List HostEvent} {c : ConnectionClient} (hr : Reported tr c)
    (hs : ∃ result ∈ attempts tr, result.succeeded = true) :
    (∀ result ∈ c.connectionAttemptQueue, result.succeeded = false) ↔
      ∃ result ∈ handedAttempts tr, result.succeeded = true := by
  obtain ⟨isConnected, hf⟩ := hr.pushed
  have hle := hf.countP_le
  rw [← hr.queue, List.countP_append] at hle
  constructor
  · intro hq
    obtain ⟨result, hm, hok⟩ := hs
    rw [← hr.queue] at hm
    rcases List.mem_append.mp hm with hm | hm
    · exact ⟨result, hm, hok⟩
    · simp [hq result hm] at hok
  · rintro ⟨result, hm, hok⟩
    have hpos : 0 < (handedAttempts tr).countP (·.succeeded) :=
      List.countP_pos_iff.mpr ⟨result, hm, hok⟩
    have hz : c.connectionAttemptQueue.countP (·.succeeded) = 0 := by omega
    intro r hr
    simpa using List.countP_eq_zero.mp hz r hr

theorem executed_of_pending {tr : List HostEvent} {c : ConnectionClient} (ha : Accounted tr c)
    (hq : c.failedQueryQueue ≠ [] ∨ c.succeededQueryQueue ≠ []) : executed tr ≠ [] := by
  intro hx
  have hs := ha.successes
  have hf := ha.failures
  simp only [hx, List.filter_nil, List.map_nil, List.map_eq_nil_iff, List.append_eq_nil_iff] at hs hf
  exact hq.elim (· hf.2) (· hs.2)

theorem noneWaiting_iff {script : Script} {id : UInt32} {tr : List HostEvent}
    {h h' : ConnectionHost} {a : HostAction} {e : HostEvent}
    (hr : Reach ConnectionHost.step (ConnectionHost.new script id) tr h)
    (hs : ConnectionHost.step h a = some (h', e)) :
    NoneWaiting tr h a ↔
      (delivers e = true → ∃ result ∈ handedAttempts tr, result.succeeded = true) := by
  cases (hostStep_of_step hs).2 with
  | onQueryError publics result rest hj ht hq =>
      have hx := executed_of_pending (reach_accounted hr) (.inl (by simp [hq]))
      simpa [NoneWaiting, delivering, ht, delivers] using
        none_waiting_iff_handed (reach_reported hr) (reach_served hr hx)
  | callback publics result rest hj ht hq =>
      have hx := executed_of_pending (reach_accounted hr) (.inr (by simp [hq]))
      simpa [NoneWaiting, delivering, ht, delivers] using
        none_waiting_iff_handed (reach_reported hr) (reach_served hr hx)
  | startTick publics hj ht | seePending publics queue hj ht | seeNothing publics queue hj ht
  | endCallback publics queue hj ht | onConnectionAttempt publics result rest hj ht =>
      simp [NoneWaiting, delivering, ht, delivers]
  | client | connect | query | requestShutdown | join | destroy => simp [NoneWaiting, delivers]

/-- The results of queries stay behind the success of an attempt exactly in the
runs whose steps meet the condition. -/
theorem connection_first_iff (script : Script) (id : UInt32) (acts : List HostAction) :
    ConnectionFirst (run ConnectionHost.step (ConnectionHost.new script id) acts).1 ↔
      Along ConnectionHost.step NoneWaiting [] (ConnectionHost.new script id) acts :=
  (along_iff_always noneWaiting_iff acts).symm

def rejecting (answer : ConnectAnswer) (now steps : Nat) : List HostAction :=
  List.replicate steps (.client .new ⟨now, answer, 0, ⟨1, none, 0, 0, 0, [], 1064⟩⟩)

/-- The first attempt is refused, the second one succeeds, a query fails, and
only then the first tick runs. -/
def lateTick : List HostAction :=
  [.connect default, .query default] ++ rejecting (.refused [] 2003) 1000 9 ++
    rejecting .connected 7000 15 ++ List.replicate 5 (.processTick fun _ => none)

theorem lateTick_not_connection_first :
    ¬ ConnectionFirst (run ConnectionHost.step (ConnectionHost.new (Script.new 1) 1) lateTick).1 := by
  decide

end MysqlPlugin.AttemptsFirst
