import MysqlPlugin.HostHistory

namespace MysqlPlugin.CheckedPops

open ConnectionHost HostHistory Transition

/-- The five queues of a client. Its own thread pops the first two of them, the
host thread the other three. -/
inductive Queue
  | connection | query | connectionAttempt | failedQuery | succeededQuery
  deriving DecidableEq

def size (c : ConnectionClient) : Queue → Nat
  | .connection => c.connectionQueue.size
  | .query => c.queryQueue.size
  | .connectionAttempt => c.connectionAttemptQueue.size
  | .failedQuery => c.failedQueryQueue.size
  | .succeededQuery => c.succeededQueryQueue.size

def clientPop : RunPoint → Option Queue
  | .popInformation => some .connection
  | .popQuery | .popRemaining _ => some .query
  | _ => none

def hostPop : TickPoint → Option Queue
  | .pop .attempts => some .connectionAttempt
  | .pop .failures => some .failedQuery
  | .pop .successes => some .succeededQuery
  | _ => none

/-- A pop that either thread is about to make finds an element. -/
structure PopsFind (h : ConnectionHost) : Prop where
  client : ∀ queue, clientPop h.client.point = some queue → 0 < size h.client queue
  host : ∀ queue, hostPop h.tick = some queue → 0 < size h.client queue

@[simp] theorem clientPop_resume (caller : QueryCaller) : clientPop caller.resume = none := by
  cases caller <;> rfl

@[simp] theorem hostPop_next (queue : TickQueue) : hostPop queue.next = none := by
  cases queue <;> rfl

@[simp] theorem hostPop_afterCall (queue : TickQueue) (index : Option Int32) :
    hostPop (afterCall queue index) = none := by
  rw [afterCall]
  split
  · rfl
  · exact hostPop_next queue

theorem size_clientStep {c c' : ConnectionClient} {now : Nat} {e : ClientEvent}
    (h : ClientStep c now e c') {queue : Queue} (hq : clientPop c.point ≠ some queue) :
    size c queue ≤ size c' queue := by
  cases h with
  | popInformation information rest hp | popQuery information rest hp
  | popRemaining executedQueries information rest hp =>
      rw [hp] at hq
      cases queue <;> first | exact absurd rfl hq | exact Nat.le_refl _
  | pushAttempt | fail | succeed =>
      cases queue <;> simp [size, ThreadSafeQueue.size]
  | _ => exact Nat.le_refl _

theorem clientPop_clientStep {c c' : ConnectionClient} {now : Nat} {e : ClientEvent}
    (h : ClientStep c now e c') {queue : Queue} (hq : clientPop c'.point = some queue) :
    0 < size c' queue := by
  cases h with
  | seeInformation hp hn | seeQuery hp hi hc hl ht hn | seeRemaining n hp hc hn =>
      cases hq
      exact ThreadSafeQueue.size_pos.mpr hn
  | quiet | fail | succeed => simp at hq
  | _ => cases hq

theorem hostPop_clientStep {c c' : ConnectionClient} {now : Nat} {e : ClientEvent}
    (h : ClientStep c now e c') {tick : TickPoint} {queue : Queue} (hq : hostPop tick = some queue)
    (hs : 0 < size c queue) : 0 < size c' queue := by
  refine Nat.lt_of_lt_of_le hs (size_clientStep h fun hc => ?_)
  -- what the host pops is nothing that the client pops
  cases tick with
  | pop q => cases q <;> cases hq <;> cases hp : c.point <;> simp [hp, clientPop] at hc
  | outside | check | callback => cases hq

theorem size_hostStep {h h' : ConnectionHost} {a : HostAction} {e : HostEvent}
    (hs : HostStep h a e h') {queue : Queue} (hc : clientPop h.client.point ≠ some queue)
    (ht : hostPop h.tick ≠ some queue) : size h.client queue ≤ size h'.client queue := by
  cases hs with
  | client results input e c hstep => exact size_clientStep hstep hc
  | connect | query => cases queue <;> simp [size, ThreadSafeQueue.size]
  | onConnectionAttempt publics result rest hj hp | onQueryError publics result rest hj hp
  | callback publics result rest hj hp =>
      rw [hp] at ht
      cases queue <;> first | exact absurd rfl ht | exact Nat.le_refl _
  | _ => exact Nat.le_refl _

theorem popsFind_hostStep {h h' : ConnectionHost} {a : HostAction} {e : HostEvent}
    (hs : HostStep h a e h') (hp : PopsFind h) : PopsFind h' := by
  cases hs with
  | client results input e c hc =>
      constructor
      · exact fun queue hq => clientPop_clientStep hc hq
      · exact fun queue hq => hostPop_clientStep hc hq (hp.host queue hq)
  | connect request | query request =>
      constructor
      · intro queue hq
        have := hp.client queue hq
        cases queue <;> simp_all [size, ThreadSafeQueue.size]
      · intro queue hq
        have := hp.host queue hq
        cases queue <;> simp_all [size, ThreadSafeQueue.size]
  | seePending publics queue hj ht hn =>
      refine ⟨hp.client, fun q hq => ?_⟩
      cases queue <;> cases hq <;> exact hn
  | onConnectionAttempt publics result rest hj ht hq | onQueryError publics result rest hj ht hq
  | callback publics result rest hj ht hq =>
      constructor
      · intro queue hc
        have := hp.client queue hc
        cases hpoint : h.client.point <;> simp [hpoint, clientPop] at hc <;> subst hc <;> exact this
      · intro queue hc
        simp at hc
  | startTick => exact ⟨hp.client, fun queue hq => nomatch hq⟩
  | seeNothing | endCallback =>
      refine ⟨hp.client, fun queue hq => ?_⟩
      simp at hq
  | requestShutdown | join | destroy => exact ⟨hp.client, hp.host⟩

theorem reach_popsFind {script : Script} {id : UInt32} {tr : List HostEvent} {h : ConnectionHost}
    (hr : Reach ConnectionHost.step (ConnectionHost.new script id) tr h) : PopsFind h := by
  induction hr with
  | start => exact ⟨(fun _ hq => nomatch hq), (fun _ hq => nomatch hq)⟩
  | step _ hs ih => exact popsFind_hostStep (hostStep_of_step hs).2 ih

theorem reach_hostsFind {lib : Externals} {tr : List PluginEvent} {s : Plugin}
    (hr : Reach (Plugin.step lib) Plugin.new tr s) : ∀ h ∈ s.hosts, PopsFind h := by
  intro h hmem
  obtain ⟨p, hh⟩ := List.mem_iff_getElem?.mp hmem
  obtain ⟨script, id, hreach⟩ := (reach_projects hr).run p h hh
  exact reach_popsFind hreach

theorem size_hostsStep {s s' : Plugin} {e : PluginEvent} (hs : HostsStep s s' e) {p : Nat}
    {h h' : ConnectionHost} (hh : s.hosts[p]? = some h) (hh' : s'.hosts[p]? = some h') {queue : Queue}
    (hc : clientPop h.client.point ≠ some queue) (ht : hostPop h.tick ≠ some queue) :
    size h.client queue ≤ size h'.client queue := by
  cases hs with
  | same he hsame =>
      rw [hsame, hh] at hh'
      cases hh'
      exact Nat.le_refl _
  | moved q g g' a e' hg hstep he hset =>
      rw [hset, getElem?_set_some hg] at hh'
      rcases hh' with ⟨rfl, rfl⟩ | ⟨-, hh'⟩
      · cases hg.symm.trans hh
        exact size_hostStep (hostStep_of_step hstep).2 hc ht
      · cases hh.symm.trans hh'
        exact Nat.le_refl _
  | created script id request he happ =>
      rw [happ, getElem?_snoc_some] at hh'
      rcases hh' with hh' | ⟨rfl, -⟩
      · cases hh.symm.trans hh'
        exact Nat.le_refl _
      · exact absurd (List.getElem?_eq_some_iff.mp hh).1 (Nat.lt_irrefl _)

/-- Wherever the threads stand, on whatever host: the queue that is popped next has
not run empty since its size was read, and no step takes elements in another way. -/
theorem pops_find_elements (lib : Externals) (acts : List PluginAction) :
    let s := (run (Plugin.step lib) Plugin.new acts).2
    (∀ h ∈ s.hosts, PopsFind h) ∧
      ∀ a s' e, Plugin.step lib s a = some (s', e) → ∀ (p : Nat) (h h' : ConnectionHost),
        s.hosts[p]? = some h → s'.hosts[p]? = some h' → ∀ queue,
          size h'.client queue < size h.client queue →
            clientPop h.client.point = some queue ∨ hostPop h.tick = some queue := by
  intro s
  refine ⟨reach_hostsFind (reach_run (Plugin.step lib) Plugin.new acts), ?_⟩
  intro a s' e hs p h h' hh hh' queue hlt
  by_contra hn
  rw [not_or] at hn
  exact Nat.not_le_of_lt hlt (size_hostsStep (hostsStep_of_pluginStep (pluginStep_of_step hs)) hh hh'
    hn.1 hn.2)

end MysqlPlugin.CheckedPops
