import MysqlPlugin.TickVisits

namespace MysqlPlugin.DeliverySchedule

open ConnectionHost HostHistory LiveConnections TickVisits Transition

inductive Message
  | attempt (result : ConnectionAttemptResult)
  | failure (result : FailedQueryResult)
  | success (result : SucceededQueryResult)
  deriving DecidableEq

def messages (c : ConnectionClient) : TickQueue → List Message
  | .attempts => c.connectionAttemptQueue.map .attempt
  | .failures => c.failedQueryQueue.map .failure
  | .successes => c.succeededQueryQueue.map .success

def handed (queue : TickQueue) : HostEvent → Option Message
  | .onConnectionAttempt result _ => if queue = .attempts then some (.attempt result) else none
  | .onQueryError result _ => if queue = .failures then some (.failure result) else none
  | .callback result _ => if queue = .successes then some (.success result) else none
  | _ => none

/-- The queues that processTick has still to come to from here. -/
def ahead : TickPoint → List TickQueue
  | .outside | .check .attempts | .pop .attempts => [.attempts, .failures, .successes]
  | .callback .attempts | .check .failures | .pop .failures => [.failures, .successes]
  | .callback .failures | .check .successes | .pop .successes => [.successes]
  | .callback .successes => []

/-- The same in the state after a step, where outside means that it has returned. -/
def leftOver (tick : TickPoint) : List TickQueue := if tick = .outside then [] else ahead tick

theorem leftOver_next (queue : TickQueue) : leftOver queue.next = ahead (.callback queue) := by
  cases queue <;> decide

theorem leftOver_afterCall (queue : TickQueue) (index : Option Int32) :
    leftOver (afterCall queue index) = ahead (.callback queue) := by
  rw [afterCall]
  split
  · rfl
  · exact leftOver_next queue

theorem ahead_check (queue : TickQueue) : ahead (.check queue) = queue :: ahead (.callback queue) := by
  cases queue <;> decide

theorem ahead_pop (queue : TickQueue) : ahead (.pop queue) = queue :: ahead (.callback queue) := by
  cases queue <;> decide

theorem notMem_ahead_callback (queue : TickQueue) : queue ∉ ahead (.callback queue) := by
  cases queue <;> decide

theorem length_messages (h : ConnectionHost) (queue : TickQueue) :
    (messages h.client queue).length = h.pending queue := by
  cases queue <;> simp [messages, pending, ThreadSafeQueue.size]

inductive QueueStep (h h' : ConnectionHost) (e : HostEvent) (queue : TickQueue) : Prop
  | kept (he : handed queue e = none) (hm : messages h'.client queue = messages h.client queue)
      (hq : queue ∈ leftOver h'.tick ↔ queue ∈ ahead h.tick)
  | skipped (he : handed queue e = none) (hm : messages h.client queue = [])
      (hm' : messages h'.client queue = []) (hq : queue ∈ ahead h.tick)
      (hq' : queue ∉ leftOver h'.tick)
  | delivered (message : Message) (he : handed queue e = some message)
      (hm : messages h.client queue = message :: messages h'.client queue)
      (hq : queue ∈ ahead h.tick) (hq' : queue ∉ leftOver h'.tick)

theorem queueStep_of_pop {h h' : ConnectionHost} {e : HostEvent} {popped : TickQueue}
    {index : Option Int32} {message : Message} (ht : h.tick = .pop popped)
    (ht' : h'.tick = afterCall popped index) (he : handed popped e = some message)
    (hm : messages h.client popped = message :: messages h'.client popped)
    (hother : ∀ queue, queue ≠ popped →
      handed queue e = none ∧ messages h'.client queue = messages h.client queue)
    (queue : TickQueue) : QueueStep h h' e queue := by
  have hleft : leftOver h'.tick = ahead (.callback popped) := by rw [ht', leftOver_afterCall]
  by_cases hne : queue = popped
  · subst hne
    refine .delivered message he hm (by simp [ht, ahead_pop]) ?_
    rw [hleft]
    exact notMem_ahead_callback queue
  · refine .kept (hother queue hne).1 (hother queue hne).2 ?_
    rw [hleft, ht, ahead_pop, List.mem_cons]
    simp [hne]

theorem queueStep_of_hostStep {h h' : ConnectionHost} {publics : Publics} {e : HostEvent}
    (hs : HostStep h (.processTick publics) e h') (queue : TickQueue) : QueueStep h h' e queue := by
  cases hs with
  | startTick publics hj ht => exact .kept rfl rfl (by rw [ht]; rfl)
  | seePending publics q hj ht hq => exact .kept rfl rfl (by rw [ht, ahead_check, ← ahead_pop]; rfl)
  | seeNothing publics q hj ht hq =>
      have hempty : messages h.client q = [] := by
        rw [← List.length_eq_zero_iff, length_messages, hq]
      by_cases hne : queue = q
      · subst hne
        refine .skipped rfl hempty hempty (by simp [ht, ahead_check]) ?_
        rw [leftOver_next]
        exact notMem_ahead_callback queue
      · refine .kept rfl rfl ?_
        rw [leftOver_next, ht, ahead_check, List.mem_cons]
        simp [hne]
  | endCallback publics q hj ht => exact .kept rfl rfl (by rw [leftOver_next, ht])
  | onConnectionAttempt publics result rest hj ht hq =>
      have hm : messages h.client .attempts = .attempt result :: rest.map .attempt := by
        simp [messages, hq]
      refine queueStep_of_pop ht rfl rfl hm (fun other hne => ?_) queue
      cases other <;> first | exact absurd rfl hne | exact ⟨rfl, rfl⟩
  | onQueryError publics result rest hj ht hq =>
      have hm : messages h.client .failures = .failure result :: rest.map .failure := by
        simp [messages, hq]
      refine queueStep_of_pop ht rfl rfl hm (fun other hne => ?_) queue
      cases other <;> first | exact absurd rfl hne | exact ⟨rfl, rfl⟩
  | callback publics result rest hj ht hq =>
      have hm : messages h.client .successes = .success result :: rest.map .success := by
        simp [messages, hq]
      refine queueStep_of_pop ht rfl rfl hm (fun other hne => ?_) queue
      cases other <;> first | exact absurd rfl hne | exact ⟨rfl, rfl⟩

/-- The most steps that processTick takes from here. -/
def stepsLeft : TickPoint → Nat
  | .outside => 10
  | .check queue => 3 * (ahead (.check queue)).length
  | .pop queue => 3 * (ahead (.pop queue)).length - 1
  | .callback queue => 3 * (ahead (.callback queue)).length + 1

theorem stepsLeft_next {queue : TickQueue} (hin : queue.next ≠ .outside) :
    stepsLeft queue.next < stepsLeft (.callback queue) := by
  cases queue <;> first | decide | exact absurd rfl hin

theorem stepsLeft_afterCall {queue : TickQueue} {index : Option Int32}
    (hin : afterCall queue index ≠ .outside) :
    stepsLeft (afterCall queue index) ≤ stepsLeft (.callback queue) := by
  rw [afterCall] at hin ⊢
  split_ifs at hin ⊢
  · exact Nat.le_refl _
  · exact Nat.le_of_lt (stepsLeft_next hin)

theorem stepsLeft_pop (queue : TickQueue) :
    stepsLeft (.callback queue) < stepsLeft (.pop queue) ∧
      stepsLeft (.pop queue) < stepsLeft (.check queue) := by
  cases queue <;> decide

theorem stepsLeft_of_hostStep {h h' : ConnectionHost} {publics : Publics} {e : HostEvent}
    (hs : HostStep h (.processTick publics) e h') (hin : h'.tick ≠ .outside) :
    stepsLeft h'.tick < stepsLeft h.tick := by
  cases hs with
  | startTick publics hj ht =>
      rw [ht]
      exact Nat.lt_succ_self 9
  | seePending publics q hj ht hq =>
      rw [ht]
      exact (stepsLeft_pop q).2
  | seeNothing publics q hj ht hq =>
      rw [ht]
      exact (stepsLeft_next hin).trans ((stepsLeft_pop q).1.trans (stepsLeft_pop q).2)
  | endCallback publics q hj ht =>
      rw [ht]
      exact stepsLeft_next hin
  | onConnectionAttempt publics result rest hj ht hq | onQueryError publics result rest hj ht hq
  | callback publics result rest hj ht hq =>
      rw [ht]
      exact (stepsLeft_afterCall hin).trans_lt (stepsLeft_pop _).1

theorem stepsLeft_le (tick : TickPoint) : stepsLeft tick ≤ 10 := by
  cases tick with
  | outside => exact Nat.le_refl _
  | check queue | pop queue | callback queue => cases queue <;> decide

theorem pending_of_pop {h h' : ConnectionHost} {publics : Publics} {e : HostEvent}
    (hs : HostStep h (.processTick publics) e h') {queue : TickQueue} (ht : h'.tick = .pop queue) :
    0 < h'.pending queue := by
  have hnext : ∀ q : TickQueue, q.next ≠ .pop queue := by
    intro q
    cases q <;> simp [TickQueue.next]
  have hcall : ∀ (q : TickQueue) (index : Option Int32), afterCall q index ≠ .pop queue := by
    intro q index
    rw [afterCall]
    split
    · simp
    · exact hnext q
  cases hs with
  | startTick => cases ht
  | seePending publics q hj ht' hq =>
      cases ht
      exact hq
  | seeNothing publics q | endCallback publics q => exact absurd ht (hnext q)
  | onConnectionAttempt | onQueryError | callback => exact absurd ht (hcall _ _)

def deliveredAt (p : Nat) (queue : TickQueue) (e : PluginEvent) : Option Message :=
  (hostEventAt p e).bind (handed queue)

def delivered (p : Nat) (queue : TickQueue) (tr : List PluginEvent) : List Message :=
  tr.filterMap (deliveredAt p queue)

def isFrame : PluginEvent → Bool
  | .frame => true
  | _ => false

def frames (tr : List PluginEvent) : Nat := tr.countP isFrame

/-- A call that goes on to ConnectionController::processTick. -/
def controllerTick (s : Plugin) : PluginAction → Option Unit
  | .processTick => if s.frameCounter < 10 then none else some ()
  | _ => none

/-- The clients push nothing, and neither scripts nor the server call anything else. -/
def Undisturbed (s : Plugin) : PluginAction → Prop
  | .processTick | .tick _ => True
  | .client pointer input => ∀ h c results e, s.hosts[pointer]? = some h →
      h.client.step s.resultController input = some (c, results, e) →
        messages c = messages h.client
  | _ => False

def OneIdEach (controller : ConnectionController) : Prop :=
  ∀ id id' p, controller.connection id = some p → controller.connection id' = some p → id = id'

/-- The plugin outside of its ProcessTick: the hosts in the map are there, under one id
each, and none of them is in its own processTick or waited for. -/
structure Resting (s : Plugin) : Prop where
  task : s.task = .idle
  iterator : s.iterator = none
  frameCounter : s.frameCounter.toNat ≤ 10
  hosts : ∀ id p, s.connectionController.connection id = some p →
    ∃ h, s.hosts[p]? = some h ∧ h.deleted = false ∧ h.joining = false ∧ h.tick = .outside
  injective : OneIdEach s.connectionController

def Unserved (s : Plugin) (id : UInt32) (tick : TickPoint) (queue : TickQueue) : Prop :=
  ∃ current, s.iterator = some current ∧ (current < id ∨ current = id ∧ queue ∈ ahead tick)

/-- After so many ticks, of which the last one may have still to serve the queue, as many of
its messages are delivered, and the others are in it. -/
def Served (s : Plugin) (ticks : Nat) (id : UInt32) (tick : TickPoint) (queue : TickQueue)
    (found done left : List Message) : Prop :=
  ∃ n, (n = ticks ∧ ¬ Unserved s id tick queue ∨ n + 1 = ticks ∧ Unserved s id tick queue) ∧
    done = found.take n ∧ left = found.drop n

structure HostServed (start : Plugin) (tr : List PluginEvent) (ticks : Nat) (s : Plugin)
    (id : UInt32) (p : Nat) (h₀ h : ConnectionHost) : Prop where
  found : start.hosts[p]? = some h₀
  host : s.hosts[p]? = some h
  deleted : h.deleted = false
  joining : h.joining = false
  outside : s.iterator ≠ some id → h.tick = .outside
  pops : ∀ queue, h.tick = .pop queue → 0 < h.pending queue
  served : ∀ queue, Served s ticks id h.tick queue (messages h₀.client queue)
    (delivered p queue tr) (messages h.client queue)

structure Scheduled (start : Plugin) (tr : List PluginEvent) (ticks : List Unit) (s : Plugin) :
    Prop where
  task : s.task = .idle
  controller : s.connectionController = start.connectionController
  frames : frames tr + start.frameCounter.toNat = 11 * ticks.length + s.frameCounter.toNat
  frameCounter : s.frameCounter.toNat ≤ 10
  current : ∀ id, s.iterator = some id → s.frameCounter = 0 ∧
    ∃ p, s.connectionController.connection id = some p
  hosts : ∀ id p, s.connectionController.connection id = some p →
    ∃ h₀ h, HostServed start tr ticks.length s id p h₀ h

theorem scheduled_start {start : Plugin} (hs : Resting start) : Scheduled start [] [] start where
  task := hs.task
  controller := rfl
  frames := by simp [frames]
  frameCounter := hs.frameCounter
  current := by simp [hs.iterator]
  hosts := by
    intro id p hp
    obtain ⟨h, hh, hd, hj, ht⟩ := hs.hosts id p hp
    refine ⟨h, h, hh, hh, hd, hj, fun _ => ht, by simp [ht], fun queue => ⟨0, .inl ⟨rfl, ?_⟩, ?_⟩⟩
    · simp [Unserved, hs.iterator]
    · simp [delivered]

theorem delivered_snoc (p : Nat) (queue : TickQueue) (tr : List PluginEvent) (e : PluginEvent) :
    delivered p queue (tr ++ [e]) = delivered p queue tr ++ (deliveredAt p queue e).toList :=
  filterMap_snoc ..

theorem frames_snoc (tr : List PluginEvent) (e : PluginEvent) :
    frames (tr ++ [e]) = frames tr + if isFrame e then 1 else 0 := by
  simp [frames, List.countP_append, List.countP_singleton]

theorem not_unserved {s : Plugin} (hi : s.iterator = none) (id : UInt32) (tick : TickPoint)
    (queue : TickQueue) : ¬ Unserved s id tick queue := by
  rintro ⟨current, hc, -⟩
  cases hi.symm.trans hc

section

variable {start s s' : Plugin} {tr : List PluginEvent} {ticks : List Unit}

theorem Scheduled.counted (hs : Scheduled start tr ticks s) (hi : s.iterator = none)
    (hf : s.frameCounter < 10) : Scheduled start (tr ++ [.frame]) ticks s.processTick := by
  have hlt : s.frameCounter.toNat < 10 := UInt32.lt_iff_toNat_lt.mp hf
  have hn : (s.frameCounter + 1).toNat = s.frameCounter.toNat + 1 := by
    rw [UInt32.toNat_add]
    exact Nat.mod_eq_of_lt (by simp; omega)
  have he : s.processTick = { s with frameCounter := s.frameCounter + 1 } := if_pos hf
  have hframes := hs.frames
  refine ⟨by simpa using hs.task, by simpa using hs.controller, ?_, ?_, ?_, ?_⟩
  · rw [frames_snoc, he, hn]
    simp only [isFrame, if_true]
    omega
  · rw [he, hn]
    omega
  · simp [he, hi]
  · intro id p hp
    obtain ⟨h₀, h, hh⟩ := hs.hosts id p (by simpa using hp)
    refine ⟨h₀, h, hh.found, by simpa using hh.host, hh.deleted, hh.joining, ?_, hh.pops, ?_⟩
    · rw [he]
      exact hh.outside
    · intro queue
      have hd : deliveredAt p queue .frame = none := rfl
      rw [he, delivered_snoc, hd, Option.toList_none, List.append_nil]
      exact hh.served queue

theorem Scheduled.looped (hs : Scheduled start tr ticks s) (hi : s.iterator = none)
    (hf : ¬ s.frameCounter < 10) :
    Scheduled start (tr ++ [.frame]) (ticks ++ [()]) s.processTick := by
  have hge : 10 ≤ s.frameCounter.toNat := by
    rw [UInt32.lt_iff_toNat_lt, Nat.not_lt] at hf
    exact hf
  have hle := hs.frameCounter
  have hframes := hs.frames
  have he : s.processTick =
      { s with frameCounter := 0, iterator := s.connectionController.begin } := if_neg hf
  refine ⟨by simpa using hs.task, by simpa using hs.controller, ?_, by simp [he], ?_, ?_⟩
  · rw [frames_snoc, he, List.length_append]
    simp only [isFrame, if_true, List.length_singleton]
    simp only [UInt32.toNat_zero]
    omega
  · intro id hid
    rw [he] at hid ⊢
    exact ⟨rfl, (ConnectionController.begin_eq_some hid).1⟩
  · intro id p hp
    have hp' : s.connectionController.connection id = some p := by simpa using hp
    obtain ⟨h₀, h, hh⟩ := hs.hosts id p hp'
    have hout : h.tick = .outside := hh.outside (by simp [hi])
    refine ⟨h₀, h, hh.found, by simpa using hh.host, hh.deleted, hh.joining, fun _ => hout, hh.pops,
      fun queue => ?_⟩
    obtain ⟨n, hn, hdone, hleft⟩ := hh.served queue
    have hn : n = ticks.length := by
      rcases hn with ⟨hn, -⟩ | ⟨-, hu⟩
      · exact hn
      · exact absurd hu (not_unserved hi id h.tick queue)
    refine ⟨n, .inr ⟨by rw [List.length_append, hn]; rfl, ?_⟩, ?_, hleft⟩
    · cases hb : s.connectionController.begin with
      | none => simp [ConnectionController.begin_eq_none hb id] at hp'
      | some first =>
          have hle := (ConnectionController.begin_eq_some hb).2 id p hp'
          refine ⟨first, by rw [he, ← hb], ?_⟩
          rw [hout]
          rcases UInt32.le_iff_lt_or_eq.mp hle with hlt | heq
          · exact .inl hlt
          · exact .inr ⟨heq, by cases queue <;> decide⟩
    · rw [delivered_snoc, hdone]
      simp [deliveredAt, hostEventAt, hostEvent]

theorem Scheduled.client (hs : Scheduled start tr ticks s) {pointer : Nat} {input : ClientInput}
    {h h' : ConnectionHost} {e : HostEvent} {c : ConnectionClient} {e' : ClientEvent}
    {results : ResultController ResultEntry} (hh : s.hosts[pointer]? = some h)
    (hstep : ConnectionHost.step h (.client s.resultController input) = some (h', e))
    (hc : h.client.step s.resultController input = some (c, results, e'))
    (hm : messages c = messages h.client)
    (hs' : s' = { s with hosts := s.hosts.set pointer h', resultController := results }) :
    Scheduled start (tr ++ [.host pointer e]) ticks s' := by
  obtain ⟨hd, -⟩ := hostStep_of_step hstep
  have hflags := (clientStep_of_step hc).flags_eq
  have he : h' = { h with client := c } ∧ e = .client input.now e' := by
    simp only [ConnectionHost.step, hd, hc] at hstep
    cases hstep
    exact ⟨by simp [hd], rfl⟩
  obtain ⟨rfl, rfl⟩ := he
  have hnone : ∀ p queue, deliveredAt p queue (.host pointer (.client input.now e')) = none := by
    intro p queue
    simp only [deliveredAt, hostEventAt, hostEvent, Option.bind_some]
    split_ifs <;> rfl
  subst hs'
  refine ⟨hs.task, hs.controller, ?_, hs.frameCounter, hs.current, ?_⟩
  · simpa [frames_snoc, isFrame] using hs.frames
  · intro id p hp
    obtain ⟨h₀, g, hg⟩ := hs.hosts id p hp
    have hserved : ∀ queue, Served s ticks.length id g.tick queue (messages h₀.client queue)
        (delivered p queue (tr ++ [.host pointer (.client input.now e')]))
        (messages g.client queue) := by
      intro queue
      rw [delivered_snoc, hnone, Option.toList_none, List.append_nil]
      exact hg.served queue
    by_cases hq : pointer = p
    · subst hq
      cases hh.symm.trans hg.host
      refine ⟨h₀, { h with client := c }, hg.found, moved_self hh rfl, hg.deleted, ?_, hg.outside, ?_, ?_⟩
      · simpa only [joining, hflags.1, hflags.2] using hg.joining
      · intro queue ht
        rw [← length_messages, hm, length_messages]
        exact hg.pops queue ht
      · intro queue
        rw [hm]
        exact hserved queue
    · refine ⟨h₀, g, hg.found, ?_, hg.deleted, hg.joining, hg.outside, hg.pops, hserved⟩
      rw [List.getElem?_set_ne hq]
      exact hg.host

end

theorem take_succ_of_drop {α : Type} {l rest : List α} {a : α} {n : Nat} (h : l.drop n = a :: rest) :
    l[n]? = some a ∧ l.take (n + 1) = l.take n ++ [a] ∧ l.drop (n + 1) = rest := by
  have hget : l[n]? = some a := by
    have h0 := congrArg (·[0]?) h
    simpa using h0
  refine ⟨hget, ?_, ?_⟩
  · rw [List.take_add_one, hget]
    rfl
  · rw [← List.drop_drop, h]
    rfl

section

variable {start s s' : Plugin} {tr : List PluginEvent} {ticks : List Unit} {current : UInt32}
  {q : Nat} {h h' : ConnectionHost} {e : HostEvent}

theorem unserved_current (hi : s.iterator = some current) (queue : TickQueue) :
    Unserved s current h.tick queue ↔ queue ∈ ahead h.tick := by
  simp [Unserved, hi, UInt32.lt_irrefl]

theorem mem_ahead_outside (queue : TickQueue) : queue ∈ ahead .outside := by
  cases queue <;> decide

section

variable (hi : s.iterator = some current)
  (hi' : s'.iterator = if h'.tick = .outside then s.connectionController.next current
    else some current)

include hi hi'

theorem unserved_after (queue : TickQueue) :
    Unserved s' current h'.tick queue ↔ queue ∈ leftOver h'.tick := by
  rw [leftOver]
  by_cases hout : h'.tick = .outside
  · rw [if_pos hout] at hi'
    simp only [hout, if_true, List.not_mem_nil, iff_false]
    rintro ⟨next, hn, hle⟩
    have hlt := (ConnectionController.next_eq_some (hi'.symm.trans hn)).2.1
    rcases hle with hle | ⟨rfl, -⟩
    · exact absurd (UInt32.lt_trans hlt hle) (UInt32.lt_irrefl _)
    · exact UInt32.lt_irrefl _ hlt
  · rw [if_neg hout] at hi' ⊢
    exact unserved_current hi' queue

theorem unserved_other {id : UInt32} {p : Nat}
    (hp : s.connectionController.connection id = some p) (hne : current ≠ id) (queue : TickQueue) :
    Unserved s' id .outside queue ↔ Unserved s id .outside queue := by
  have hs : Unserved s id .outside queue ↔ current < id := by simp [Unserved, hi, hne]
  rw [hs]
  by_cases hout : h'.tick = .outside
  · rw [if_pos hout] at hi'
    cases hn : s.connectionController.next current with
    | none =>
        have hnot := ConnectionController.next_eq_none hn hp
        simp [not_unserved (hi'.trans hn), hnot]
    | some next =>
        obtain ⟨-, hlt, hfirst⟩ := ConnectionController.next_eq_some hn
        have hs' : Unserved s' id .outside queue ↔ next ≤ id := by
          simp [Unserved, hi'.trans hn, mem_ahead_outside, UInt32.le_iff_lt_or_eq]
        rw [hs']
        exact ⟨UInt32.lt_of_lt_of_le hlt, hfirst id p hp⟩
  · rw [if_neg hout] at hi'
    simp [Unserved, hi', hne]

end

theorem served_of_queueStep {n : Nat} {queue : TickQueue} {found done : List Message}
    (hq : QueueStep h h' e queue)
    (hb : Unserved s current h.tick queue ↔ queue ∈ ahead h.tick)
    (ha : Unserved s' current h'.tick queue ↔ queue ∈ leftOver h'.tick)
    (hs : Served s n current h.tick queue found done (messages h.client queue)) :
    Served s' n current h'.tick queue found (done ++ (handed queue e).toList)
      (messages h'.client queue) := by
  obtain ⟨m, hm, rfl, hleft⟩ := hs
  cases hq with
  | kept he hsame hiff =>
      refine ⟨m, ?_, by simp [he], by rw [hsame, hleft]⟩
      rwa [ha, hiff, ← hb]
  | skipped he hempty hempty' hmem hmem' =>
      have hm1 : m + 1 = n := by simpa [hb, hmem] using hm
      refine ⟨n, .inl ⟨rfl, by rwa [ha]⟩, ?_, ?_⟩
      · have hlen : found.length ≤ m := List.drop_eq_nil_iff.mp (hleft.symm.trans hempty)
        rw [he, Option.toList_none, List.append_nil, List.take_of_length_le hlen,
          List.take_of_length_le (by omega)]
      · have hlen : found.length ≤ m := List.drop_eq_nil_iff.mp (hleft.symm.trans hempty)
        rw [hempty', List.drop_eq_nil_iff.mpr (by omega)]
  | delivered message he hcons hmem hmem' =>
      have hm1 : m + 1 = n := by simpa [hb, hmem] using hm
      obtain ⟨-, htake, hdrop⟩ := take_succ_of_drop (hleft.symm.trans hcons)
      refine ⟨n, .inl ⟨rfl, by rwa [ha]⟩, ?_, ?_⟩
      · rw [← hm1, htake, he, Option.toList_some]
      · rw [← hm1, hdrop]

end

/-- A message that is handed to a script is the next one of its queue, and it comes with
the frame that its position says. -/
def OnTime (start : Plugin) (past : List PluginEvent) (e : PluginEvent) : Prop :=
  ∀ p queue message, deliveredAt p queue e = some message →
    let position := (delivered p queue past).length
    (∃ h₀, start.hosts[p]? = some h₀ ∧ (messages h₀.client queue)[position]? = some message) ∧
      frames past + start.frameCounter.toNat = 11 * (position + 1)

theorem deliveredAt_host (p q : Nat) (queue : TickQueue) (e : HostEvent) :
    deliveredAt p queue (.host q e) = if q = p then handed queue e else none := by
  simp only [deliveredAt, hostEventAt, hostEvent, Option.bind_some]
  split_ifs <;> rfl

section

variable {start s s' : Plugin} {tr : List PluginEvent} {ticks : List Unit} {publics : Publics}
  {current : UInt32} {q : Nat} {h h' : ConnectionHost} {e : HostEvent}
  (hs : Scheduled start tr ticks s) (hi : s.iterator = some current)
  (hc : s.connectionController.connection current = some q) (hh : s.hosts[q]? = some h)
  (hstep : HostStep h (.processTick publics) e h')

include hs hi hc hh hstep

theorem Scheduled.ticked
    (hinj : OneIdEach s.connectionController)
    (hs' : s' = { s with
      hosts := s.hosts.set q h'
      iterator := if h'.tick = .outside then s.connectionController.next current else some current }) :
    Scheduled start (tr ++ [.host q e]) ticks s' := by
  have hi' : s'.iterator = if h'.tick = .outside then s.connectionController.next current
      else some current := by rw [hs']
  subst hs'
  refine ⟨hs.task, hs.controller, ?_, hs.frameCounter, ?_, ?_⟩
  · simpa [frames_snoc, isFrame] using hs.frames
  · intro id hid
    refine ⟨(hs.current current hi).1, ?_⟩
    rw [hi'] at hid
    split_ifs at hid
    · exact (ConnectionController.next_eq_some hid).1
    · cases hid
      exact ⟨q, hc⟩
  · intro id p hp
    obtain ⟨h₀, g, hg⟩ := hs.hosts id p hp
    by_cases hid : current = id
    · subst hid
      cases hc.symm.trans hp
      cases hh.symm.trans hg.host
      refine ⟨h₀, h', hg.found, moved_self hh rfl, ?_, ?_, ?_, ?_, ?_⟩
      · have hne : e ≠ .destroyed := by cases hstep <;> simp
        rwa [← Bool.not_eq_true, hstep.deleted_iff hg.deleted]
      · have hne : e ≠ .shutdownRequested := by cases hstep <;> simp
        rw [← Bool.not_eq_true]
        intro hj
        rcases hstep.joining_of hj with ⟨hj', -⟩ | he
        · simp [hg.joining] at hj'
        · exact hne he
      · intro hne
        by_contra hout
        exact hne (by rw [hi', if_neg hout])
      · exact fun queue ht => pending_of_pop hstep ht
      · intro queue
        rw [delivered_snoc, deliveredAt_host, if_pos rfl]
        exact served_of_queueStep (queueStep_of_hostStep hstep queue) (unserved_current hi queue)
          (unserved_after hi hi' queue) (hg.served queue)
    · have hne : q ≠ p := by
        rintro rfl
        exact hid (hinj _ _ _ hc hp)
      have hout : g.tick = .outside := by
        refine hg.outside ?_
        rw [hi]
        exact fun he => hid (Option.some.inj he)
      refine ⟨h₀, g, hg.found, ?_, hg.deleted, hg.joining, fun _ => hout, hg.pops, fun queue => ?_⟩
      · rw [List.getElem?_set_ne hne]
        exact hg.host
      · obtain ⟨n, hn, hdone, hleft⟩ := hg.served queue
        refine ⟨n, ?_, ?_, hleft⟩
        · rw [hout] at hn ⊢
          rwa [unserved_other hi hi' hp hid queue]
        · rw [delivered_snoc, deliveredAt_host, if_neg hne, Option.toList_none, List.append_nil]
          exact hdone

theorem Scheduled.onTime : OnTime start tr (.host q e) := by
  intro p queue message hm
  rw [deliveredAt_host] at hm
  split_ifs at hm with hq
  subst hq
  obtain ⟨h₀, g, hg⟩ := hs.hosts current q hc
  cases hh.symm.trans hg.host
  obtain ⟨n, hn, hdone, hleft⟩ := hg.served queue
  cases queueStep_of_hostStep hstep queue with
  | kept he | skipped he => simp [he] at hm
  | delivered message' he hcons hmem hmem' =>
      cases he.symm.trans hm
      have hticks : n + 1 = ticks.length := by
        simpa [(unserved_current hi queue).mpr hmem] using hn
      have hget := (take_succ_of_drop (hleft.symm.trans hcons)).1
      have hlt : n < (messages h₀.client queue).length := (List.getElem?_eq_some_iff.mp hget).1
      have hlen : (delivered q queue tr).length = n := by
        rw [hdone, List.length_take]
        omega
      have hframes := hs.frames
      have hzero := (hs.current current hi).1
      rw [hlen]
      refine ⟨⟨h₀, hg.found, hget⟩, ?_⟩
      rw [hframes, hzero, hticks]
      rfl

end

theorem scheduled_step {start s s' : Plugin} {tr : List PluginEvent} {ticks : List Unit}
    {a : PluginAction} {e : PluginEvent} (h : PluginStep s a e s') (ha : Undisturbed s a)
    (hs : Scheduled start tr ticks s)
    (hinj : OneIdEach s.connectionController) :
    Scheduled start (tr ++ [e]) (ticks ++ (controllerTick s a).toList) s' ∧ OnTime start tr e := by
  cases h with
  | client pointer input h h' e c e' results hh hstep hc =>
      simp only [controllerTick, Option.toList_none, List.append_nil]
      refine ⟨hs.client hh hstep hc (ha h c results e' hh hc) rfl, ?_⟩
      intro p queue message hm
      rw [deliveredAt_host] at hm
      obtain ⟨-, hhost⟩ := hostStep_of_step hstep
      cases hhost
      split_ifs at hm
      cases hm
  | frame ht hi =>
      rw [controllerTick]
      refine ⟨?_, fun p queue message hm => by cases hm⟩
      split_ifs with hf
      · rw [Option.toList_none, List.append_nil]
        exact hs.counted hi hf
      · exact hs.looped hi hf
  | tick publics id p h h' e ht hi hc hh hstep =>
      simp only [controllerTick, Option.toList_none, List.append_nil]
      have hhost := (hostStep_of_step hstep).2
      exact ⟨hs.ticked hi hc hh hhost hinj rfl, hs.onTime hi hc hh hhost⟩
  | staleIterator publics id ht hi hh =>
      obtain ⟨-, p, hp⟩ := hs.current id hi
      obtain ⟨h₀, g, hg⟩ := hs.hosts id p hp
      simpa [hg.deleted] using hh p g hp hg.host
  | _ => exact ha.elim

def above (controller : ConnectionController) (id : UInt32) : Nat :=
  controller.connections.keys.countP (id < ·)

theorem above_next {controller : ConnectionController} {id next : UInt32}
    (h : controller.next id = some next) : above controller next < above controller id := by
  have hlt := (ConnectionController.next_eq_some h).2.1
  obtain ⟨-, before, after, hk, -⟩ := List.find?_eq_some_iff_append.mp h
  have hmono : ∀ keys : List UInt32, keys.countP (next < ·) ≤ keys.countP (id < ·) := by
    intro keys
    refine List.countP_mono_left fun key _ hkey => ?_
    simp only [decide_eq_true_eq] at hkey ⊢
    exact UInt32.lt_trans hlt hkey
  have hbefore := hmono before
  have hafter := hmono after
  rw [above, above, hk, List.countP_append, List.countP_append, List.countP_cons, List.countP_cons]
  simp only [hlt, UInt32.lt_irrefl, decide_true, decide_false, if_true]
  simp
  omega

theorem above_lt {controller : ConnectionController} {id : UInt32} {p : Nat}
    (h : controller.connection id = some p) :
    above controller id < controller.connections.keys.length := by
  rw [above, List.countP_eq_length_filter, List.length_filter_lt_length_iff_exists]
  exact ⟨id, ConnectionController.mem_keys.mpr ⟨p, h⟩, by simp [UInt32.lt_irrefl]⟩

theorem stepsLeft_pos (tick : TickPoint) : 0 < stepsLeft tick := by
  cases tick with
  | outside => exact Nat.succ_pos 9
  | check queue | pop queue | callback queue => cases queue <;> decide

structure Due (start : Plugin) (n : Nat) (s : Plugin) : Prop where
  scheduled : ∃ tr ticks, Scheduled start tr ticks s
  steps : ∀ id p h, s.iterator = some id → s.connectionController.connection id = some p →
    s.hosts[p]? = some h → stepsLeft h.tick + 10 * above s.connectionController id ≤ n

theorem due_after {lib : Externals} {start s : Plugin} {n : Nat}
    (hinj : OneIdEach start.connectionController)
    (h : Due start n s) (publics : Publics) :
    Due start (n - 1) (after (Plugin.step lib) s (.tick publics)) := by
  obtain ⟨tr, ticks, hs⟩ := h.scheduled
  cases hi : s.iterator with
  | none =>
      have hstep : Plugin.step lib s (.tick publics) = none := by
        simp [Plugin.step, hs.task, Plugin.tick, hi]
      have hafter : after (Plugin.step lib) s (.tick publics) = s := by simp [after, hstep]
      rw [hafter]
      exact ⟨h.scheduled, by simp [hi]⟩
  | some id =>
      obtain ⟨-, p, hp⟩ := hs.current id hi
      obtain ⟨h₀, g, hg⟩ := hs.hosts id p hp
      obtain ⟨s', e, hstep⟩ : ∃ s' e, Plugin.step lib s (.tick publics) = some (s', .host p e) :=
        exists_tick hs.task hi hp hg.host hg.deleted hg.joining hg.pops publics
      have hafter : after (Plugin.step lib) s (.tick publics) = s' := by simp [after, hstep]
      have hinj' := hs.controller ▸ hinj
      have hplugin := pluginStep_of_step hstep
      rw [hafter]
      refine ⟨⟨_, _, (scheduled_step hplugin trivial hs hinj').1⟩, ?_⟩
      have hn := h.steps id p g hi hp hg.host
      have hpos := stepsLeft_pos g.tick
      cases hplugin with
      | tick _ id' _ f f' _ ht hi' hc hh hs' =>
          cases hi.symm.trans hi'
          cases hh.symm.trans hg.host
          intro next p' g' hnext hp' hg'
          have hhost := (hostStep_of_step hs').2
          dsimp only at hnext hp' hg'
          split_ifs at hnext with hout
          · have hlt := above_next hnext
            have hle := stepsLeft_le g'.tick
            dsimp only
            omega
          · cases hnext
            cases hp.symm.trans hp'
            rw [List.getElem?_set_self (List.getElem?_eq_some_iff.mp hh).1] at hg'
            cases hg'
            have hlt := stepsLeft_of_hostStep hhost hout
            dsimp only
            omega

theorem run_through {lib : Externals} {start s : Plugin} {tr : List PluginEvent} {ticks : List Unit}
    (hinj : OneIdEach start.connectionController)
    (hs : Scheduled start tr ticks s) {more : List Publics}
    (hmore : 10 * start.connectionController.connections.keys.length ≤ more.length) :
    (run (Plugin.step lib) s (more.map .tick)).2.iterator = none := by
  have hdue : Due start (10 * start.connectionController.connections.keys.length) s := by
    refine ⟨⟨tr, ticks, hs⟩, fun id p h hi hp hh => ?_⟩
    have hlt := above_lt hp
    have hle := stepsLeft_le h.tick
    rw [hs.controller] at hlt ⊢
    omega
  have hstep : ∀ n s a, (∃ publics, a = PluginAction.tick publics) → Due start n s →
      Due start (n - 1) (after (Plugin.step lib) s a) := by
    rintro n s a ⟨publics, rfl⟩ h
    exact due_after hinj h publics
  have hticks : ∀ a ∈ more.map PluginAction.tick, ∃ publics, a = PluginAction.tick publics := by simp
  have hend := run_left hstep hdue hticks
  rw [List.length_map, Nat.sub_eq_zero_of_le hmore] at hend
  obtain ⟨tr', ticks', hs'⟩ := hend.scheduled
  by_contra hn
  obtain ⟨id, hi⟩ := Option.ne_none_iff_exists'.mp hn
  obtain ⟨-, p, hp⟩ := hs'.current id hi
  obtain ⟨h₀, g, hg⟩ := hs'.hosts id p hp
  have hzero := hend.steps id p g hi hp hg.host
  have hpos := stepsLeft_pos g.tick
  omega

theorem reach_frameCounter {lib : Externals} {tr : List PluginEvent} {s : Plugin}
    (hr : Reach (Plugin.step lib) Plugin.new tr s) : s.frameCounter.toNat ≤ 10 := by
  induction hr with
  | start => exact Nat.zero_le 10
  | step _ hs ih =>
      cases pluginStep_of_step hs with
      | frame =>
          rw [Plugin.processTick]
          split
          next hf =>
            rw [UInt32.lt_iff_toNat_lt] at hf
            simp only [UInt32.toNat_add] at hf ⊢
            simp at hf ⊢
            omega
          next => exact Nat.zero_le 10
      | _ => exact ih

/-- The plugin rests whenever its ProcessTick and the natives have returned. -/
theorem reach_resting {lib : Externals} {tr : List PluginEvent} {s : Plugin}
    (hr : Reach (Plugin.step lib) Plugin.new tr s) (ht : s.task = .idle) (hi : s.iterator = none) :
    Resting s := by
  have hl := reach_live hr
  refine ⟨ht, hi, reach_frameCounter hr, fun id p hp => ?_, hl.injective⟩
  obtain ⟨h, hh, hd⟩ := hl.mapped id p hp
  exact ⟨h, hh, hd, hl.not_joining ht hh, (reach_standing hr).outside id p h hp (by simp [hi]) hh⟩

theorem run_scheduled {lib : Externals} {start : Plugin} (hs : Resting start)
    {acts : List PluginAction} (ha : Along (Plugin.step lib) (fun _ => Undisturbed) [] start acts) :
    Scheduled start (run (Plugin.step lib) start acts).1
        (observed (Plugin.step lib) controllerTick start acts) (run (Plugin.step lib) start acts).2 ∧
      Always (OnTime start) (run (Plugin.step lib) start acts).1 := by
  let P (tr : List PluginEvent) (ticks : List Unit) (s : Plugin) : Prop :=
    Scheduled start tr ticks s ∧ Always (OnTime start) tr
  have hstep : ∀ {tr ticks s a s' e}, P tr ticks s → Undisturbed s a →
      Plugin.step lib s a = some (s', e) →
        P (tr ++ [e]) (ticks ++ (controllerTick s a).toList) s' := by
    rintro tr ticks s a s' e ⟨hsched, honTime⟩ ha hs'
    have hinj := hsched.controller ▸ hs.injective
    obtain ⟨hsched', h⟩ := scheduled_step (pluginStep_of_step hs') ha hsched hinj
    exact ⟨hsched', (always_snoc ..).mpr ⟨honTime, h⟩⟩
  exact observed_invariant (P := P) ha ⟨scheduled_start hs, always_nil _⟩ hstep

/-- From a plugin at rest, with whatever is in the queues, while nothing is pushed and
nothing called from inside. The controller ticks with every eleventh frame, of which the
counter has seen some before. A tick delivers the first message of each queue, so that
when the loop is through each queue has lost as many as there were ticks; and each message
comes with the frame that its position says. The loop gets through by itself. -/
theorem delivery_schedule {lib : Externals} {start : Plugin} (hs : Resting start)
    {acts : List PluginAction} (ha : Along (Plugin.step lib) (fun _ => Undisturbed) [] start acts) :
    let tr := (run (Plugin.step lib) start acts).1
    let s := (run (Plugin.step lib) start acts).2
    let ticks := (observed (Plugin.step lib) controllerTick start acts).length
    ticks = (frames tr + start.frameCounter.toNat) / 11 ∧
      (s.iterator = none → ∀ id p, start.connectionController.connection id = some p →
        ∃ h₀ h, start.hosts[p]? = some h₀ ∧ s.hosts[p]? = some h ∧ ∀ queue,
          delivered p queue tr = (messages h₀.client queue).take ticks ∧
            messages h.client queue = (messages h₀.client queue).drop ticks) ∧
      Always (OnTime start) tr ∧
      ∀ more : List Publics,
        10 * start.connectionController.connections.keys.length ≤ more.length →
          (run (Plugin.step lib) s (more.map .tick)).2.iterator = none := by
  intro tr s ticks
  obtain ⟨hsched, honTime⟩ := run_scheduled hs ha
  refine ⟨?_, ?_, honTime, fun more hmore => run_through hs.injective hsched hmore⟩
  · have hframes : frames tr + start.frameCounter.toNat = 11 * ticks + s.frameCounter.toNat :=
      hsched.frames
    have hle : s.frameCounter.toNat ≤ 10 := hsched.frameCounter
    omega
  · intro hi id p hp
    obtain ⟨h₀, h, hh⟩ := hsched.hosts id p (hsched.controller ▸ hp)
    refine ⟨h₀, h, hh.found, hh.host, fun queue => ?_⟩
    obtain ⟨n, hn, hdone, hleft⟩ := hh.served queue
    rcases hn with ⟨rfl, -⟩ | ⟨-, hu⟩
    · exact ⟨hdone, hleft⟩
    · exact absurd hu (not_unserved hi id h.tick queue)

def executedTwo : Plugin :=
  (run (Plugin.step plainText) Plugin.new
    (connecting :: clientTurns 0 9 .empty ++
      [.native 1 .query [.number 1, .text "q", .text "c", .number 0],
        .native 1 .query [.number 1, .text "r", .text "d", .number 0]] ++
      clientTurns 0 22 .empty ++ List.replicate 10 .processTick)).2

def twoTicks : List PluginAction :=
  let tick := .processTick :: List.replicate 10 (.tick fun _ => none)
  tick ++ List.replicate 10 .processTick ++ tick

theorem delivery_schedule_twoTicks :
    let r := run (Plugin.step plainText) executedTwo twoTicks
    ∃ h₀ h, executedTwo.hosts[0]? = some h₀ ∧ r.2.hosts[0]? = some h ∧
      messages h₀.client .successes = [.success ⟨[99], 1, 0⟩, .success ⟨[100], 2, 0⟩] ∧
        delivered 0 .successes r.1 = messages h₀.client .successes ∧
          messages h.client .successes = [] := by
  have hresting : Resting executedTwo :=
    reach_resting (reach_run (Plugin.step plainText) Plugin.new _) rfl (by decide)
  have hall : ∀ a ∈ twoTicks, ∀ (_ : List PluginEvent) s, Undisturbed s a := by
    intro a ha _ s
    simp only [twoTicks, List.mem_append, List.mem_cons, List.mem_replicate] at ha
    rcases ha with ((rfl | ⟨-, rfl⟩) | ⟨-, rfl⟩) | rfl | ⟨-, rfl⟩ <;> trivial
  have halong := along_of_forall (Plugin.step plainText) hall [] executedTwo
  obtain ⟨-, hend, -, -⟩ := delivery_schedule hresting halong
  obtain ⟨h₀, h, hh₀, hh, hqueues⟩ := hend (by decide) 1 0 (by decide)
  have hfound : messages h₀.client .successes = [.success ⟨[99], 1, 0⟩, .success ⟨[100], 2, 0⟩] := by
    have hmap : (executedTwo.hosts[0]?.map fun h => messages h.client .successes) =
        some [.success ⟨[99], 1, 0⟩, .success ⟨[100], 2, 0⟩] := by
      decide
    simpa [hh₀] using hmap
  have htwo : (observed (Plugin.step plainText) controllerTick executedTwo twoTicks).length = 2 := by
    decide
  obtain ⟨hdone, hleft⟩ := hqueues .successes
  rw [htwo, hfound] at hdone hleft
  exact ⟨h₀, h, hh₀, hh, hfound, hdone.trans hfound.symm, hleft⟩

end MysqlPlugin.DeliverySchedule
