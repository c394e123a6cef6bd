import MysqlPlugin.NativeQueries
import MysqlPlugin.RateLimits

namespace MysqlPlugin.Progress

open AcceptedQueries ClientInvariant HostHistory NativeQueries QueryAccounting RateLimits Transition

def isTurn : HostEvent → Bool
  | .client _ _ => true
  | _ => false

def isPing : HostEvent → Bool
  | .client _ .pingStamped => true
  | _ => false

def turns (tr : List HostEvent) : Nat := tr.countP isTurn

def pings (tr : List HostEvent) : Nat := tr.countP isPing

/-- The stamp of the last ping, and the steps that the client has taken since. -/
def stampAfter (last : Option (Nat × Nat)) : HostEvent → Option (Nat × Nat)
  | .client now .pingStamped => some (now, 0)
  | .client _ _ => last.map fun (stamp, steps) => (stamp, steps + 1)
  | _ => last

def lastStamp (tr : List HostEvent) : Option (Nat × Nat) := tr.foldl stampAfter none

/-- The third step after a stamp is the next loop body, with the ping in between. -/
def Prompt (now : Nat) : Option (Nat × Nat) → Prop
  | some (stamp, 2) => Thread.time stamp ≠ 0 ∧ stamp ≤ now ∧ now ≤ stamp + 5000
  | _ => True

instance (now : Nat) : DecidablePred (Prompt now)
  | some (stamp, 2) => inferInstanceAs (Decidable (Thread.time stamp ≠ 0 ∧ _))
  | none | some (_, 0) | some (_, 1) | some (_, _ + 3) => inferInstanceAs (Decidable True)

/-- No ping takes so long that the next one is due when it returns, and none is
stamped with the 0 of a stamp that was never taken. -/
def PromptPings (tr : List HostEvent) : Prop :=
  Always (fun past e => ∀ now ∈ clock e, Prompt now (lastStamp past)) tr

instance (tr : List HostEvent) : Decidable (PromptPings tr) :=
  inferInstanceAs (Decidable (Always _ tr))

/-- The steps of a connected client until it has executed the query with so many
others in front of it. A ping is paid for when it is stamped. -/
def stepsUntil (ahead : Nat) : RunPoint → Nat
  | .pushSucceeded _ _ _ _ => 6 * ahead + 1
  | .feedback _ _ _ => 6 * ahead + 2
  | .query _ _ => 6 * ahead + 3
  | .popQuery | .stampPing => 6 * ahead + 4
  | .loopBody => 6 * ahead + 5
  | .loopCondition => 6 * ahead + 6
  | .popInformation | .stampAttempt | .ping => 6 * ahead + 7
  | .pushAttempt _ => 6 * ahead + 8
  | .connect | .awaitConnect | .drainCondition _ | .popRemaining _ | .close | .finished => 0

theorem stepsUntil_le (ahead : Nat) (point : RunPoint) :
    stepsUntil ahead point ≤ 6 * (ahead + 1) + 2 := by
  cases point <;> simp only [stepsUntil] <;> omega

structure Serves (c : ConnectionClient) : Prop where
  sound : Sound c
  connected : c.connectionStatus.isConnected = true
  goesOn : c.requestShutdown = false

theorem loopBranch_of_serves {c : ConnectionClient} (hc : Serves c) (hq : c.queryQueue ≠ [])
    (now : Nat) : c.loopBranch now = .stampPing ∨ c.loopBranch now = .popQuery := by
  have hsize := ThreadSafeQueue.size_pos.mpr hq
  simp only [ConnectionClient.loopBranch, hc.sound.informed hc.connected, hc.connected, hsize,
    reduceCtorEq, if_false, if_true]
  split
  · exact .inl rfl
  · exact .inr rfl

theorem not_ending {c : ConnectionClient} (hs : Sound c) (hr : c.requestShutdown = false) :
    ending c.point = false := by
  by_contra h
  have := hs.ending (by simpa using h)
  simp [hr] at this

theorem not_attempting {c : ConnectionClient} (hc : Serves c) : attempting c.point = false := by
  by_contra h
  have := (hc.sound.attempting (by simpa using h)).2
  simp [hc.connected] at this

theorem loopBranch_of_prompt {c : ConnectionClient} (hc : Serves c) (hq : c.queryQueue ≠ [])
    {stamp now : Nat} (hs : c.connectionStatus.lastPing = Thread.time stamp)
    (hp : Prompt now (some (stamp, 2))) : c.loopBranch now = .popQuery := by
  obtain ⟨hz, hle, hnow⟩ := hp
  have hspan := Clock.timeSpan_time_le hle
  have hdue : ¬ (Thread.time stamp = 0 ∨
      serverPingIntervalMs < Thread.timeSpan now (Thread.time stamp)) := by
    rw [not_or, serverPingIntervalMs]
    exact ⟨hz, by omega⟩
  simp only [ConnectionClient.loopBranch, hc.sound.informed hc.connected, hc.connected, hs, hdue,
    ThreadSafeQueue.size_pos.mpr hq, reduceCtorEq, if_false, if_true]

theorem lastStamp_snoc (tr : List HostEvent) (e : HostEvent) :
    lastStamp (tr ++ [e]) = stampAfter (lastStamp tr) e := by
  simp [lastStamp]

def afterStamp : Nat → RunPoint
  | 0 => .ping
  | 1 => .loopCondition
  | _ => .loopBody

def pinged : Option (Nat × Nat) → Nat
  | some (_, steps) => if steps ≤ 2 then 1 else 0
  | none => 0

def begun (last : Option (Nat × Nat)) : RunPoint → Nat
  | .popQuery | .query _ _ | .feedback _ _ _ | .pushSucceeded _ _ _ _ => 1
  | _ => pinged last

theorem pinged_le (last : Option (Nat × Nat)) : pinged last ≤ 1 := by
  unfold pinged
  split
  · split <;> omega
  · omega

theorem begun_le (last : Option (Nat × Nat)) (point : RunPoint) : begun last point ≤ 1 := by
  cases point <;> first | exact Nat.le_refl 1 | exact pinged_le last

/-- Each ping is paid for by a query that comes after it. -/
structure Charged (tr : List HostEvent) (c : ConnectionClient) : Prop where
  recent : ∀ stamp steps, lastStamp tr = some (stamp, steps) → steps ≤ 2 →
    c.connectionStatus.lastPing = Thread.time stamp ∧ c.point = afterStamp steps
  pings : pings tr ≤ (executed tr).length + begun (lastStamp tr) c.point

theorem stampAfter_client {e : ClientEvent} (he : e ≠ .pingStamped) (last : Option (Nat × Nat))
    (now : Nat) : stampAfter last (.client now e) = last.map fun (stamp, steps) => (stamp, steps + 1) := by
  cases e <;> first | rfl | exact absurd rfl he

section

variable {tr : List HostEvent} {c c' : ConnectionClient} {now : Nat} {e : ClientEvent}

theorem pings_of_ne (he : e ≠ .pingStamped) : pings (tr ++ [.client now e]) = pings tr := by
  rw [pings, List.countP_append]
  cases e <;> first | rfl | exact absurd rfl he

theorem charged_host (hg : Charged tr c) {e : HostEvent} (he : clock e = none)
    (hs : c'.connectionStatus = c.connectionStatus) (hp : c'.point = c.point) :
    Charged (tr ++ [e]) c' := by
  have hlast : lastStamp (tr ++ [e]) = lastStamp tr := by
    rw [lastStamp_snoc]
    cases e <;> first | rfl | cases he
  have hpings : pings (tr ++ [e]) = pings tr := by
    rw [pings, List.countP_append]
    cases e <;> first | rfl | cases he
  have hx : executed [e] = [] := by
    cases e <;> first | rfl | cases he
  constructor
  · rw [hlast, hs, hp]
    exact hg.recent
  · rw [hlast, hp, hpings, executed_append, hx, List.append_nil]
    exact hg.pings

theorem Charged.later (hg : Charged tr c) (he : e ≠ .pingStamped) (hl : pinged (lastStamp tr) = 0)
    (hb : begun none c.point ≤ (executed [.client now e]).length + begun none c'.point) :
    Charged (tr ++ [.client now e]) c' := by
  have hlast : lastStamp (tr ++ [.client now e]) =
      (lastStamp tr).map fun (stamp, steps) => (stamp, steps + 1) := by
    rw [lastStamp_snoc, stampAfter_client he]
  have hnone (point : RunPoint) : begun (lastStamp tr) point = begun none point := by
    cases point <;> first | rfl | exact hl
  have hle (point : RunPoint) (last : Option (Nat × Nat)) : begun none point ≤ begun last point := by
    cases point <;> first | exact Nat.le_refl _ | exact Nat.zero_le _
  constructor
  · intro stamp steps hs hn
    rw [hlast] at hs
    obtain ⟨⟨stamp, k⟩, hk, he⟩ := Option.map_eq_some_iff.mp hs
    cases he
    simp only [hk, pinged] at hl
    split_ifs at hl
    omega
  · have hpings := hg.pings
    have := hle c'.point (lastStamp (tr ++ [.client now e]))
    rw [hnone] at hpings
    rw [pings_of_ne he, executed_append, List.length_append]
    omega

theorem Charged.soon (hg : Charged tr c) (he : e ≠ .pingStamped) {stamp steps : Nat}
    (hl : lastStamp tr = some (stamp, steps)) (hs : steps ≤ 2)
    (hc : c'.connectionStatus.lastPing = c.connectionStatus.lastPing)
    (hp : steps < 2 → c'.point = afterStamp (steps + 1))
    (hb : begun (some (stamp, steps + 1)) c'.point = 1) : Charged (tr ++ [.client now e]) c' := by
  have hlast : lastStamp (tr ++ [.client now e]) = some (stamp, steps + 1) := by
    rw [lastStamp_snoc, stampAfter_client he, hl]
    rfl
  constructor
  · intro stamp' steps' hs' hn
    cases hlast.symm.trans hs'
    exact ⟨hc.trans (hg.recent stamp steps hl hs).1, hp (by omega)⟩
  · have hpings := hg.pings
    have hle := begun_le (lastStamp tr) c.point
    rw [pings_of_ne he, executed_append, List.length_append, hlast, hb]
    omega

theorem Charged.stamp (hg : Charged tr c) (hp : c.point = .stampPing)
    (hl : pinged (lastStamp tr) = 0) (hs : c'.connectionStatus.lastPing = Thread.time now)
    (hp' : c'.point = .ping) : Charged (tr ++ [.client now .pingStamped]) c' := by
  have hlast : lastStamp (tr ++ [.client now .pingStamped]) = some (now, 0) := by
    rw [lastStamp_snoc]
    rfl
  constructor
  · intro stamp steps hstamp _
    cases hlast.symm.trans hstamp
    exact ⟨hs, hp'⟩
  · have hpings := hg.pings
    have hnone : begun (lastStamp tr) .stampPing = 0 := hl
    rw [hp, hnone] at hpings
    rw [Progress.pings, List.countP_append, executed_append, List.length_append, hlast, hp']
    exact Nat.add_le_add hpings (Nat.le_refl 1)

theorem charged_unstamped (h : ClientStep c now e c') (hl : pinged (lastStamp tr) = 0)
    (hg : Charged tr c) : Charged (tr ++ [.client now e]) c' := by
  cases h with
  | stampPing hpt => exact hg.stamp hpt hl rfl rfl
  | quiet _ caller _ hpt | fail _ caller _ _ hpt | succeed _ caller _ _ hpt =>
      exact hg.later (by simp) hl (by simp [hpt, begun, executed])
  | again hpt | leave hpt | sleep hpt | seeInformation hpt | dueAttempt hpt | duePing hpt
  | seeQuery hpt | popInformation _ _ hpt | startAttempt hpt | connect _ hpt | pushAttempt _ hpt
  | stampAttempt hpt | ping _ hpt | popQuery _ _ hpt | query _ _ _ hpt | register _ _ _ _ _ hpt
  | seeRemaining _ hpt | endDrain _ hpt | popRemaining _ _ _ hpt | close hpt | skipClose hpt =>
      exact hg.later (by simp) hl (by simp [hpt, begun, pinged])

end

theorem recent_of_pinged {last : Option (Nat × Nat)} (h : pinged last ≠ 0) :
    ∃ stamp steps, last = some (stamp, steps) ∧ steps ≤ 2 := by
  unfold pinged at h
  split at h
  next stamp steps =>
    split_ifs at h with hs
    · exact ⟨stamp, steps, rfl, hs⟩
    · exact absurd rfl h
  next => exact absurd rfl h

/-- The client goes on from a stamp to the ping, the loop condition and the loop body,
which comes to the queue when the ping was prompt. -/
theorem charged_clientStep {tr : List HostEvent} {results results' : ResultController ResultEntry}
    {input : ClientInput} {c c' : ConnectionClient} {e : ClientEvent}
    (h : c.step results input = some (c', results', e)) (hc : Serves c)
    (hq : inHand c.point ++ c.queryQueue ≠ []) (hp : Prompt input.now (lastStamp tr))
    (hg : Charged tr c) : Charged (tr ++ [.client input.now e]) c' := by
  by_cases hl : pinged (lastStamp tr) = 0
  · exact charged_unstamped (clientStep_of_step h) hl hg
  · obtain ⟨stamp, steps, hlast, hs⟩ := recent_of_pinged hl
    obtain ⟨hping, hpoint⟩ := hg.recent stamp steps hlast hs
    rcases (by omega : steps = 0 ∨ steps = 1 ∨ steps = 2) with rfl | rfl | rfl
    · simp only [ConnectionClient.step, hpoint, afterStamp, Option.some.injEq, Prod.mk.injEq] at h
      obtain ⟨rfl, -, rfl⟩ := h
      exact hg.soon (by simp) hlast hs rfl (fun _ => rfl) rfl
    · simp only [ConnectionClient.step, hpoint, afterStamp, hc.goesOn, Option.some.injEq,
        Prod.mk.injEq] at h
      obtain ⟨rfl, -, rfl⟩ := h
      exact hg.soon (by simp) hlast hs rfl (fun _ => rfl) rfl
    · have hqueue : c.queryQueue ≠ [] := by simpa [hpoint, afterStamp, inHand] using hq
      have hpop := loopBranch_of_prompt hc hqueue hping (hlast ▸ hp)
      simp only [ConnectionClient.step, hpoint, afterStamp, Option.some.injEq, Prod.mk.injEq] at h
      obtain ⟨rfl, -, rfl⟩ := h
      refine hg.soon (by simp) hlast hs rfl (by omega) ?_
      rw [hpop]
      rfl

theorem nearer_step {results results' : ResultController ResultEntry} {input : ClientInput}
    {c c' : ConnectionClient} {e : ClientEvent} (h : c.step results input = some (c', results', e))
    (hc : Serves c) {ahead : Nat} (hw : ahead < (inHand c.point ++ c.queryQueue).length)
    (hn : (executed [.client input.now e]).length ≤ ahead) :
    stepsUntil (ahead - (executed [.client input.now e]).length) c'.point + 1 ≤
      stepsUntil ahead c.point + 4 * pings [.client input.now e] := by
  have he := not_ending hc.sound hc.goesOn
  have ha := not_attempting hc
  by_cases hp : c.point = .loopBody
  · have hq : c.queryQueue ≠ [] := by
      rintro hq
      simp [inHand, hp, hq] at hw
    simp only [ConnectionClient.step, hp, Option.some.injEq, Prod.mk.injEq] at h
    obtain ⟨rfl, -, rfl⟩ := h
    rcases loopBranch_of_serves hc hq input.now with hb | hb <;>
      simp [hb, hp, stepsUntil, executed, pings, isPing]
  · cases clientStep_of_step h with
    | again hq | popInformation _ _ hq | pushAttempt _ hq | stampAttempt hq | stampPing hq
    | ping _ hq | popQuery _ _ hq | query _ _ _ hq | register _ _ _ _ _ hq =>
        simp [hq, stepsUntil, executed, pings, isPing]
    | quiet _ caller _ hq | fail _ caller _ _ hq | succeed _ caller _ _ hq =>
        cases caller with
        | loop =>
            simp only [executed, List.filterMap_cons, List.filterMap_nil, List.length_singleton] at hn
            simp [hq, QueryCaller.resume, stepsUntil, executed, pings, isPing]
            omega
        | drain executedQueries => simp [hq, ending, drains] at he
    | leave hq hr => simp [hc.goesOn] at hr
    | sleep hq | seeInformation hq | dueAttempt hq | duePing hq | seeQuery hq => exact absurd hq hp
    | startAttempt hq | connect _ hq => simp [hq, attempting] at ha
    | seeRemaining _ hq | endDrain _ hq | popRemaining _ _ _ hq | close hq | skipClose hq =>
        simp [hq, ending] at he

theorem nearer_hostStep {h h' : ConnectionHost} {a : HostAction} {e : HostEvent}
    (hs : ConnectionHost.step h a = some (h', e)) (hc : Serves h.client) {ahead : Nat}
    (hw : ahead < (inHand h.client.point ++ h.client.queryQueue).length)
    (hn : (executed [e]).length ≤ ahead) :
    stepsUntil (ahead - (executed [e]).length) h'.client.point + turns [e] ≤
      stepsUntil ahead h.client.point + 4 * pings [e] := by
  obtain ⟨hd, hstep⟩ := hostStep_of_step hs
  cases hstep with
  | client results input e c _ =>
      rw [ConnectionHost.step, if_neg (by simp [hd])] at hs
      obtain ⟨⟨c', results', e'⟩, hstep, he⟩ := Option.map_eq_some_iff.mp hs
      cases he
      exact nearer_step hstep hc hw hn
  | _ => simp [executed, turns, isTurn, pings, isPing]

theorem stepsUntil_pos {c : ConnectionClient} (hc : Serves c) (ahead : Nat) :
    0 < stepsUntil ahead c.point := by
  have he := not_ending hc.sound hc.goesOn
  have ha := not_attempting hc
  cases hp : c.point <;> simp [hp, ending, attempting, stepsUntil] at he ha ⊢

theorem reach_of_occurred {lib : Externals} {tr : List PluginEvent} {s : Plugin}
    (hr : Reach (Plugin.step lib) Plugin.new tr s) {p : Nat} {f : HostEvent → Bool}
    (ho : occurred f (history p tr) = true) :
    ∃ script id h, Reach ConnectionHost.step (ConnectionHost.new script id) (history p tr) h := by
  obtain ⟨hrun, hunused⟩ := reach_projects hr
  cases hh : s.hosts[p]? with
  | none => simp [hunused p hh] at ho
  | some h =>
      obtain ⟨script, id, hreach⟩ := hrun p h hh
      exact ⟨script, id, h, hreach⟩

section

variable {script : Script} {id : UInt32} {before after : List HostEvent} {t h : ConnectionHost}

theorem serves_of_reach (hr : Reach ConnectionHost.step (ConnectionHost.new script id) before h)
    (hconn : occurred isConnection before = true) (hreq : occurred isRequest before = false) :
    Serves h.client := by
  have hs := reach_shown hr
  exact ⟨reach_sound hr, hs.connection ▸ hconn, hs.request ▸ hreq⟩

theorem reach_nearer (ht : Reach ConnectionHost.step (ConnectionHost.new script id) before t)
    (hr : Reach ConnectionHost.step t after h) (hconn : occurred isConnection before = true)
    (hreq : occurred isRequest (before ++ after) = false) {n : Nat}
    (hn : n ≤ (submitted before).length) (hlt : (executed before).length < n) :
    n ≤ (executed (before ++ after)).length ∨
      turns after + stepsUntil (n - 1 - (executed (before ++ after)).length) h.client.point ≤
        6 * (n - (executed before).length) + 4 * pings after + 2 := by
  induction hr with
  | start =>
      have hle := stepsUntil_le (n - 1 - (executed before).length) t.client.point
      rw [List.append_nil]
      simp only [turns, pings, List.countP_nil]
      omega
  | @step es s a s' e hr hs ih =>
      rw [← List.append_assoc, occurred_snoc, Bool.or_eq_false_iff] at hreq
      have hall := ht.trans hr
      have hserves := serves_of_reach hall (occurred_append_left hconn es) hreq.1
      have hlen := congrArg List.length (reach_accounted hall).submissions
      rw [submitted_append, List.length_append, List.length_append, List.length_map] at hlen
      rw [← List.append_assoc, executed_append, List.length_append]
      have hturns : turns (es ++ [e]) = turns es + turns [e] := List.countP_append
      have hpings : pings (es ++ [e]) = pings es + pings [e] := List.countP_append
      rcases ih hreq.1 with hdone | hleft
      · exact .inl (by omega)
      · by_cases hnow : n ≤ (executed (before ++ es)).length + (executed [e]).length
        · exact .inl hnow
        · have hwaits : n - 1 - (executed (before ++ es)).length <
              (inHand s.client.point ++ s.client.queryQueue).length := by omega
          have hnearer := nearer_hostStep hs hserves hwaits (by omega)
          rw [hturns, hpings, ← Nat.sub_sub (n - 1)]
          exact .inr (by omega)

theorem reach_charged (ht : Reach ConnectionHost.step (ConnectionHost.new script id) before t)
    (hr : Reach ConnectionHost.step t after h) (hconn : occurred isConnection before = true)
    (hreq : occurred isRequest (before ++ after) = false) (hprompt : PromptPings after)
    (hw : (executed (before ++ after)).length < (submitted before).length) :
    Charged after h.client := by
  induction hr with
  | start => exact ⟨by simp [lastStamp], Nat.zero_le _⟩
  | @step es s a s' e hr hs ih =>
      rw [← List.append_assoc, occurred_snoc, Bool.or_eq_false_iff] at hreq
      rw [← List.append_assoc, executed_append, List.length_append] at hw
      rw [PromptPings, always_snoc] at hprompt
      have hcharged := ih hreq.1 hprompt.1 (by omega)
      have hall := ht.trans hr
      obtain ⟨hd, hstep⟩ := hostStep_of_step hs
      cases hstep with
      | client results input ev c _ =>
          rw [ConnectionHost.step, if_neg (by simp [hd])] at hs
          obtain ⟨⟨c', results', ev'⟩, hclient, he⟩ := Option.map_eq_some_iff.mp hs
          cases he
          have hserves := serves_of_reach hall (occurred_append_left hconn es) hreq.1
          have hlen := congrArg List.length (reach_accounted hall).submissions
          rw [submitted_append, List.length_append, List.length_append, List.length_map] at hlen
          have hqueue : inHand s.client.point ++ s.client.queryQueue ≠ [] := by
            rw [← List.length_pos_iff]
            omega
          exact charged_clientStep hclient hserves hqueue (hprompt.2 input.now rfl) hcharged
      | _ => exact charged_host hcharged rfl rfl rfl

theorem executed_of_turns
    (hr : Reach ConnectionHost.step (ConnectionHost.new script id) (before ++ after) h)
    (hconn : occurred isConnection before = true)
    (hreq : occurred isRequest (before ++ after) = false) (hprompt : PromptPings after) {n : Nat}
    (hn : n ≤ (submitted before).length)
    (hturns : 10 * (n - (executed before).length) + 2 ≤ turns after) :
    n ≤ (executed (before ++ after)).length ∧
      ((executed (before ++ after)).map (·.information)).take n = (submitted before).take n := by
  have hacc := (reach_accounted hr).submissions
  have hdone : n ≤ (executed (before ++ after)).length := by
    by_contra hleft
    obtain ⟨t, ht, hafter⟩ := hr.of_append
    have hlen : (executed (before ++ after)).length =
        (executed before).length + (executed after).length := by
      rw [executed_append, List.length_append]
    have hnearer := (reach_nearer ht hafter hconn hreq hn (by omega)).resolve_left hleft
    have hpings := (reach_charged ht hafter hconn hreq hprompt (by omega)).pings
    have hbegun := begun_le (lastStamp after) h.client.point
    have hpos := stepsUntil_pos (serves_of_reach hr (occurred_append_left hconn after) hreq)
      (n - 1 - (executed (before ++ after)).length)
    omega
  refine ⟨hdone, ?_⟩
  rw [← List.take_append_of_le_length hn, ← submitted_append, hacc,
    List.take_append_of_le_length (by rwa [List.length_map])]

end

/-- While no ping takes longer than the interval between two of them, queries do not
starve: on a connection that has been made and that nobody closes, the client has
executed the first n accepted queries, in their order, after ten turns for each
that was left and two more. -/
theorem queries_progress (lib : Externals) (acts : List PluginAction) {before after : List PluginEvent}
    (htr : (run (Plugin.step lib) Plugin.new acts).1 = before ++ after) (p : Nat)
    (hconn : occurred isConnection (history p before) = true)
    (hreq : occurred isRequest (history p (before ++ after)) = false)
    (hprompt : PromptPings (history p after)) {n : Nat} (hn : n ≤ (accepted p before).length)
    (hturns : 10 * (n - (executed (history p before)).length) + 2 ≤ turns (history p after)) :
    ((executed (history p (before ++ after))).map (·.information)).take n =
      (accepted p before).take n := by
  have hr := reach_run (Plugin.step lib) Plugin.new acts
  rw [htr] at hr
  obtain ⟨_, hbefore, -⟩ := hr.of_append
  rw [accepted_eq_submitted hbefore] at hn ⊢
  rw [history_append] at hreq ⊢
  obtain ⟨script, id, h, hreach⟩ := reach_of_occurred hr (p := p) (f := isConnection)
    (by rw [history_append]; exact occurred_append_left hconn _)
  rw [history_append] at hreach
  exact (executed_of_turns hreach hconn hreq hprompt hn hturns).2

def queriesAndWait : List PluginAction :=
  [.native 1 .connect [.text "h", .text "u", .text "p", .text "d", .number 3306]] ++
    clientTurns 0 9 .empty ++
    [.native 1 .query [.number 1, .text "q", .text "c", .number 0],
      .native 1 .query [.number 1, .text "r", .text "c", .number 0]] ++
    clientTurns 0 22 .empty

theorem queries_progress_queriesAndWait :
    ((executed (history 0 (run (Plugin.step plainText) Plugin.new queriesAndWait).1)).map
      (·.information)).take 2 = [⟨[113], [99], 0⟩, ⟨[114], [99], 0⟩] := by
  let tr := (run (Plugin.step plainText) Plugin.new queriesAndWait).1
  have htr : tr = tr.take 12 ++ tr.drop 12 := (List.take_append_drop 12 tr).symm
  have h := queries_progress plainText queriesAndWait htr 0 (by decide) (by decide) (by decide)
    (n := 2) (by decide) (by decide)
  rw [List.take_append_drop] at h
  exact h.trans (by decide)

end MysqlPlugin.Progress
