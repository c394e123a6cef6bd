import MysqlPlugin.DeliverySchedule
import MysqlPlugin.Progress

namespace MysqlPlugin.Answers

open AcceptedQueries ClientInvariant ConnectionHost DeliverySchedule HostHistory NativeQueries Progress
open QueryAccounting Transition

def isTick : HostEvent → Bool
  | .ticked | .onConnectionAttempt _ _ | .onQueryError _ _ | .callback _ _ => true
  | _ => false

def ticks (tr : List HostEvent) : Nat := tr.countP isTick

def pops (queue : TickQueue) (tr : List HostEvent) : Nat :=
  tr.countP fun e => (handed queue e).isSome

def place : TickPoint → Nat
  | .outside => 0
  | .check .attempts => 1
  | .pop .attempts => 2
  | .callback .attempts => 3
  | .check .failures => 4
  | .pop .failures => 5
  | .callback .failures => 6
  | .check .successes => 7
  | .pop .successes => 8
  | .callback .successes => 9

/-- The most steps of processTick until the message with so many others in front
of it is handed over. -/
def ticksUntil (queue : TickQueue) (ahead : Nat) (tick : TickPoint) : Nat :=
  10 * ahead + (place (.pop queue) + 10 - place tick) % 10 + 1

theorem ticksUntil_le (queue : TickQueue) (ahead : Nat) (tick : TickPoint) :
    ticksUntil queue ahead tick ≤ 10 * (ahead + 1) := by
  have hlt := Nat.mod_lt (place (.pop queue) + 10 - place tick) (show 0 < 10 by decide)
  rw [ticksUntil]
  omega

theorem ticksUntil_next {queue q : TickQueue} (ahead : Nat) {tick : TickPoint}
    (ht : tick = .callback q ∨ (tick = .check q ∨ tick = .pop q) ∧ queue ≠ q) :
    ticksUntil queue ahead q.next + 1 ≤ ticksUntil queue ahead tick := by
  rcases ht with rfl | ⟨rfl | rfl, hne⟩ <;> cases q <;> cases queue <;>
    first | exact absurd rfl hne | simp [ticksUntil, TickQueue.next, place]

theorem ticksUntil_afterCall {queue q : TickQueue} (ahead : Nat) (hne : queue ≠ q)
    (index : Option Int32) :
    ticksUntil queue ahead (afterCall q index) + 1 ≤ ticksUntil queue ahead (.pop q) := by
  rw [afterCall]
  split
  · cases q <;> cases queue <;> first | exact absurd rfl hne | simp [ticksUntil, place]
  · exact ticksUntil_next ahead (.inr ⟨.inr rfl, hne⟩)

theorem nearer_pop {queue q : TickQueue} {e : HostEvent} {index : Option Int32}
    (he : (handed queue e).isSome ↔ queue = q) {ahead : Nat} (hn : pops queue [e] ≤ ahead) :
    ticksUntil queue (ahead - pops queue [e]) (afterCall q index) + 1 ≤
      ticksUntil queue ahead (.pop q) := by
  by_cases hq : queue = q
  · have hpops : pops queue [e] = 1 := by simp [pops, he.mpr hq]
    subst hq
    rw [hpops] at hn ⊢
    have hle := ticksUntil_le queue (ahead - 1) (afterCall queue index)
    have hlt : 10 * ahead < ticksUntil queue ahead (.pop queue) := by
      rw [ticksUntil]
      omega
    omega
  · have hpops : pops queue [e] = 0 := by
      simp only [pops, List.countP_singleton, he, hq, if_false]
    rw [hpops]
    exact ticksUntil_afterCall ahead hq index

theorem nearer_hostStep {h h' : ConnectionHost} {a : HostAction} {e : HostEvent}
    (hs : HostStep h a e h') {queue : TickQueue} (hw : 0 < h.pending queue) {ahead : Nat}
    (hn : pops queue [e] ≤ ahead) :
    ticksUntil queue (ahead - pops queue [e]) h'.tick + ticks [e] ≤
      ticksUntil queue ahead h.tick := by
  cases hs with
  | startTick publics hj ht =>
      rw [ht]
      cases queue <;> simp [pops, handed, ticks, isTick, ticksUntil, place]
  | seePending publics q hj ht hq =>
      rw [ht]
      cases q <;> cases queue <;> simp [pops, handed, ticks, isTick, ticksUntil, place]
  | seeNothing publics q hj ht hq =>
      have hne : queue ≠ q := by
        rintro rfl
        omega
      rw [ht]
      exact ticksUntil_next ahead (.inr ⟨.inl rfl, hne⟩)
  | endCallback publics q hj ht =>
      rw [ht]
      exact ticksUntil_next ahead (.inl rfl)
  | onConnectionAttempt publics result rest hj ht hq | onQueryError publics result rest hj ht hq
  | callback publics result rest hj ht hq =>
      rw [ht]
      exact nearer_pop (by cases queue <;> simp [handed]) hn
  | _ => simp [pops, handed, ticks, isTick]

theorem pending_hostStep {h h' : ConnectionHost} {a : HostAction} {e : HostEvent}
    (hs : HostStep h a e h') (queue : TickQueue) :
    h.pending queue ≤ h'.pending queue + pops queue [e] := by
  cases hs with
  | client results input ev c hc =>
      refine Nat.le_trans ?_ (Nat.le_add_right _ _)
      cases hc <;> cases queue <;> simp [pending, ThreadSafeQueue.size]
  | onConnectionAttempt publics result rest hj ht hq | onQueryError publics result rest hj ht hq
  | callback publics result rest hj ht hq =>
      cases queue <;> simp [pending, ThreadSafeQueue.size, pops, handed, hq]
  | _ => exact Nat.le_add_right _ _

section

variable {t h : ConnectionHost} {es : List HostEvent}

theorem reach_nearer (hr : Reach ConnectionHost.step t es h) (queue : TickQueue) {k : Nat}
    (hk : k ≤ t.pending queue) :
    t.pending queue ≤ h.pending queue + pops queue es ∧
      (k ≤ pops queue es ∨
        ticks es + ticksUntil queue (k - 1 - pops queue es) h.tick ≤ 10 * k) := by
  induction hr with
  | start =>
      refine ⟨Nat.le_refl _, ?_⟩
      cases k with
      | zero => exact .inl (Nat.zero_le _)
      | succ k =>
          have hle := ticksUntil_le queue k t.tick
          exact .inr (by simpa [ticks, pops] using hle)
  | @step es s a s' e hr hs ih =>
      obtain ⟨hpending, hleft⟩ := ih
      have hstep := (hostStep_of_step hs).2
      have hkeep := pending_hostStep hstep queue
      have hpops : pops queue (es ++ [e]) = pops queue es + pops queue [e] := List.countP_append
      have hticks : ticks (es ++ [e]) = ticks es + ticks [e] := List.countP_append
      rw [hpops, hticks]
      refine ⟨by omega, ?_⟩
      rcases hleft with hdone | hleft
      · exact .inl (by omega)
      · by_cases hnow : k ≤ pops queue es + pops queue [e]
        · exact .inl hnow
        · have hwaits : 0 < s.pending queue := by omega
          have hone : pops queue [e] ≤ k - 1 - pops queue es := by omega
          have hnearer := nearer_hostStep hstep hwaits hone
          rw [← Nat.sub_sub (k - 1)]
          exact .inr (by omega)

theorem popped_of_ticks (hr : Reach ConnectionHost.step t es h) (queue : TickQueue) {k : Nat}
    (hk : k ≤ t.pending queue) (hticks : 10 * k ≤ ticks es) : k ≤ pops queue es := by
  refine (reach_nearer hr queue hk).2.resolve_right fun hle => ?_
  rw [ticksUntil] at hle
  omega

end

theorem pops_successes (tr : List HostEvent) : pops .successes tr = (handedSuccesses tr).length := by
  rw [handedSuccesses, List.length_filterMap_eq_countP]
  exact List.countP_congr fun e _ => by cases e <;> simp [handed]

theorem pops_failures (tr : List HostEvent) : pops .failures tr = (handedFailures tr).length := by
  rw [handedFailures, List.length_filterMap_eq_countP]
  exact List.countP_congr fun e _ => by cases e <;> simp [handed]

def successesDue (tr : List HostEvent) (n : Nat) : List (Option SucceededQueryResult) :=
  (((executed tr).take n).filter DueSuccess).map fun q =>
    q.resultId.map (successMessage q.information)

def failuresDue (tr : List HostEvent) (n : Nat) : List FailedQueryResult :=
  (((executed tr).take n).filter DueFailure).map failureMessage

/-- How many of them the script has yet to be handed, in the longer queue. -/
def outstanding (tr : List HostEvent) (n : Nat) : Nat :=
  max ((successesDue tr n).length - (handedSuccesses tr).length)
    ((failuresDue tr n).length - (handedFailures tr).length)

/-- These queries were the first to be executed. Each that has a callback is due a
message, and all these messages have been handed to the script. -/
structure Answered (tr : List HostEvent) (requests : List QueryInformation) : Prop where
  executed : ((executed tr).map (·.information)).take requests.length = requests
  due : ∀ q ∈ (QueryAccounting.executed tr).take requests.length, q.information.callback ≠ [] →
    DueSuccess q ∨ DueFailure q
  successes : successesDue tr requests.length <+: (handedSuccesses tr).map some
  failures : failuresDue tr requests.length <+: handedFailures tr

section

variable {script : Script} {id : UInt32} {before after : List HostEvent} {t h : ConnectionHost}

theorem normal_of_reach {tr : List HostEvent}
    (hr : Reach ConnectionHost.step (ConnectionHost.new script id) tr h)
    (hreq : occurred isRequest tr = false) :
    ∀ q ∈ executed tr, q.executionType = .normalExecution := by
  induction hr with
  | start => simp [executed]
  | @step tr s a s' e hr hs ih =>
      rw [occurred_snoc, Bool.or_eq_false_iff] at hreq
      rw [executed_append]
      intro q hq
      rcases List.mem_append.mp hq with hq | hq
      · exact ih hreq.1 q hq
      · have he := not_ending (reach_sound hr) ((reach_shown hr).request ▸ hreq.1)
        cases (hostStep_of_step hs).2 with
        | client results input ev c hc =>
            cases hc with
            | quiet _ caller _ hp | fail _ caller _ _ hp | succeed _ caller _ _ hp =>
                cases caller with
                | loop =>
                    cases List.mem_singleton.mp hq
                    rfl
                | drain executedQueries => simp [hp, ending, drains] at he
            | _ => simp [executed] at hq
        | _ => simp [executed] at hq

theorem due_prefix {α : Type} (tr : List HostEvent) (n : Nat) (p : ExecutedQuery → Prop)
    [DecidablePred p] (f : ExecutedQuery → α) :
    (((executed tr).take n).filter p).map f <+: ((executed tr).filter p).map f :=
  ((List.take_prefix n _).filter _).map f

theorem handed_of_ticks (hr : Reach ConnectionHost.step t after h) (queue : TickQueue) {α : Type}
    {due given left given' left' : List α} (hdue : due <+: given ++ left)
    (hdue' : due <+: given' ++ left') (hleft : left.length = t.pending queue)
    (hgiven : given'.length = given.length + pops queue after)
    (hticks : 10 * (due.length - given.length) ≤ ticks after) : due <+: given' := by
  have hle := hdue.length_le
  rw [List.length_append] at hle
  have hpops := popped_of_ticks hr queue (k := due.length - given.length) (by omega) hticks
  exact List.prefix_of_prefix_length_le hdue' (List.prefix_append given' left') (by omega)

theorem answered_of_ticks
    (hr : Reach ConnectionHost.step (ConnectionHost.new script id) (before ++ after) h)
    (hreq : occurred isRequest before = false) {n : Nat} {requests : List QueryInformation}
    (hn : n ≤ (executed before).length)
    (hexec : ((executed before).map (·.information)).take n = requests)
    (hticks : 10 * outstanding before n ≤ ticks after) : Answered (before ++ after) requests := by
  obtain ⟨t, ht, hafter⟩ := hr.of_append
  have hlen : requests.length = n := by
    rw [← hexec, List.length_take, List.length_map, Nat.min_eq_left hn]
  have htake : (executed (before ++ after)).take n = (executed before).take n := by
    rw [executed_append, List.take_append_of_le_length hn]
  have hb := reach_accounted ht
  have ha := reach_accounted hr
  rw [outstanding] at hticks
  constructor <;> rw [hlen]
  · rw [← hexec, ← List.map_take, ← List.map_take, htake]
  · intro q hq hc
    rw [htake] at hq
    have hnormal := normal_of_reach ht hreq q (List.mem_of_mem_take hq)
    by_cases hs : Succeeded q.answer
    · exact .inl ⟨hnormal, hc, hs⟩
    · exact .inr ⟨hnormal, .inr ⟨hc, hs⟩⟩
  · rw [successesDue, htake]
    have hdue := due_prefix before n DueSuccess fun q => q.resultId.map (successMessage q.information)
    have hdue' := due_prefix (before ++ after) n DueSuccess
      fun q => q.resultId.map (successMessage q.information)
    rw [← hb.successes, List.map_append] at hdue
    rw [htake, ← ha.successes, List.map_append] at hdue'
    refine handed_of_ticks hafter .successes hdue hdue' ?_ ?_ ?_
    · rw [List.length_map]
      rfl
    · rw [List.length_map, List.length_map, handedSuccesses_append, List.length_append,
        pops_successes]
    · rw [successesDue, List.length_map] at hticks
      rw [List.length_map, List.length_map]
      omega
  · rw [failuresDue, htake]
    have hdue := due_prefix before n DueFailure failureMessage
    have hdue' := due_prefix (before ++ after) n DueFailure failureMessage
    rw [← hb.failures] at hdue
    rw [htake, ← ha.failures] at hdue'
    refine handed_of_ticks hafter .failures hdue hdue' rfl ?_ ?_
    · rw [handedFailures_append, List.length_append, pops_failures]
    · change 10 * ((failuresDue before n).length - _) ≤ _
      omega

end

/-- On a connection that has been made and that nobody closes, while its pings are
prompt: after ten turns of the client for each of the first n accepted queries, two
more, and then ten steps of processTick for each message that is left, these
queries have been executed in order, and the script has been handed the message of
each that has a callback, those of each of the two queues in order. -/
theorem queries_answered (lib : Externals) (acts : List PluginAction)
    {before between after : List PluginEvent}
    (htr : (run (Plugin.step lib) Plugin.new acts).1 = before ++ between ++ after) (p : Nat)
    (hconn : occurred isConnection (history p before) = true)
    (hreq : occurred isRequest (history p (before ++ between)) = false)
    (hprompt : PromptPings (history p between)) {n : Nat} (hn : n ≤ (accepted p before).length)
    (hturns : 10 * (n - (executed (history p before)).length) + 2 ≤ turns (history p between))
    (hticks : 10 * outstanding (history p (before ++ between)) n ≤ ticks (history p after)) :
    Answered (history p (run (Plugin.step lib) Plugin.new acts).1) ((accepted p before).take n) := by
  have hr := reach_run (Plugin.step lib) Plugin.new acts
  rw [htr] at hr ⊢
  obtain ⟨_, hearly, -⟩ := hr.of_append
  obtain ⟨_, hbefore, -⟩ := hearly.of_append
  rw [accepted_eq_submitted hbefore] at hn ⊢
  rw [history_append] at hreq hticks
  rw [history_append, history_append]
  obtain ⟨script, id, h, hreach⟩ := reach_of_occurred hr (p := p) (f := isConnection)
    (by
      rw [history_append, history_append]
      exact occurred_append_left (occurred_append_left hconn _) _)
  rw [history_append, history_append] at hreach
  obtain ⟨t, ht, -⟩ := hreach.of_append
  obtain ⟨hdone, hexec⟩ := executed_of_turns ht hconn hreq hprompt hn hturns
  exact answered_of_ticks hreach hreq hdone hexec hticks

def queriesAndTick : List PluginAction :=
  let tick := List.replicate 11 .processTick ++ List.replicate 10 (.tick fun _ => some 5)
  queriesAndWait ++ tick ++ tick ++ tick ++ tick

theorem queries_answered_queriesAndTick :
    Answered (history 0 (run (Plugin.step plainText) Plugin.new queriesAndTick).1)
      [⟨[113], [99], 0⟩, ⟨[114], [99], 0⟩] := by
  let tr := (run (Plugin.step plainText) Plugin.new queriesAndTick).1
  have htr : tr = tr.take 12 ++ (tr.drop 12).take 22 ++ tr.drop 34 := rfl
  have htwo : (accepted 0 (tr.take 12)).take 2 = [⟨[113], [99], 0⟩, ⟨[114], [99], 0⟩] := by decide
  rw [← htwo]
  exact queries_answered plainText queriesAndTick htr 0 (by decide) (by decide) (by decide)
    (by decide) (by decide) (by decide)

end MysqlPlugin.Answers
