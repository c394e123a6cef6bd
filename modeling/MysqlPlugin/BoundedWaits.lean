import MysqlPlugin.CheckedPops
import MysqlPlugin.Fairness
import MysqlPlugin.LiveConnections

namespace MysqlPlugin.BoundedWaits

open CheckedPops Fairness HostHistory LiveConnections Transition

def drainSteps (executedQueries : Nat) : Nat := 5 * (50 - executedQueries) + 2

def resumeSteps : QueryCaller → Nat
  | .loop => drainSteps 0 + 1
  | .drain executedQueries => drainSteps executedQueries

/-- No more steps than these come before the end of run, once its flag is set:
one turn of the first loop may still have to end, and the second one has fifty. -/
def stepsLeft : RunPoint → Nat
  | .loopCondition => drainSteps 0 + 1
  | .loopBody => drainSteps 0 + 6
  | .popInformation | .stampAttempt | .ping => drainSteps 0 + 2
  | .pushAttempt _ | .stampPing => drainSteps 0 + 3
  | .awaitConnect => drainSteps 0 + 4
  | .connect | .popQuery => drainSteps 0 + 5
  | .query _ caller => resumeSteps caller + 3
  | .feedback _ caller _ => resumeSteps caller + 2
  | .pushSucceeded _ caller _ _ => resumeSteps caller + 1
  | .drainCondition executedQueries => drainSteps executedQueries
  | .popRemaining executedQueries => drainSteps executedQueries + 4
  | .close => 1
  | .finished => 0

def maxSteps : Nat := 258

@[simp] theorem stepsLeft_resume (caller : QueryCaller) :
    stepsLeft caller.resume = resumeSteps caller := by
  cases caller <;> rfl

theorem drainSteps_le (executedQueries : Nat) : drainSteps executedQueries ≤ 252 := by
  rw [drainSteps]
  omega

theorem resumeSteps_le (caller : QueryCaller) : resumeSteps caller ≤ 253 := by
  cases caller with
  | loop => exact Nat.le_refl _
  | drain executedQueries => exact (drainSteps_le executedQueries).trans (by omega)

theorem stepsLeft_le (point : RunPoint) : stepsLeft point ≤ maxSteps := by
  have hd := drainSteps_le
  have hr := resumeSteps_le
  unfold stepsLeft maxSteps
  split
  all_goals first | omega | grind

theorem stepsLeft_pos {point : RunPoint} (h : point ≠ .finished) : 0 < stepsLeft point := by
  cases point <;> first | exact absurd rfl h | simp [stepsLeft, drainSteps]

theorem stepsLeft_clientStep {c c' : ConnectionClient} {now : Nat} {e : ClientEvent}
    (h : ClientStep c now e c') (hr : c.requestShutdown = true) :
    stepsLeft c'.point < stepsLeft c.point := by
  cases h with
  | again hp hn => simp [hr] at hn
  | quiet _ caller _ hp | fail _ caller _ _ hp | succeed _ caller _ _ hp =>
      rw [stepsLeft_resume, hp, stepsLeft]
      omega
  | seeRemaining executedQueries hp hc hq hn =>
      simp only [hp, stepsLeft, drainSteps]
      omega
  | popRemaining _ _ _ hp | query _ _ _ hp | register _ _ _ _ _ hp =>
      simp only [hp, stepsLeft, resumeSteps]
      omega
  | leave hp | sleep hp | seeInformation hp | dueAttempt hp | duePing hp | seeQuery hp
  | popInformation _ _ hp | startAttempt hp | connect _ hp | pushAttempt _ hp | stampAttempt hp
  | stampPing hp | ping _ hp | popQuery _ _ hp | endDrain _ hp | close hp | skipClose hp =>
      simp only [hp, stepsLeft, resumeSteps]
      first | omega | simp [drainSteps]

/-- The steps that the host thread and this client take together until the host is
deleted: to set the flag, to end run, to join and to delete. -/
def hostSteps (h : ConnectionHost) : Nat :=
  if h.client.isRunning then
    if h.client.requestShutdown then stepsLeft h.client.point + 2 else maxSteps + 3
  else 1

def stepsAt (hosts : List ConnectionHost) (pointer : Nat) : Nat :=
  (hosts[pointer]?.map hostSteps).getD 0

def removalSteps (hosts : List ConnectionHost) : List (UInt32 × Nat) → Nat
  | [] => 0
  | (_, pointer) :: remaining => stepsAt hosts pointer + removalSteps hosts remaining

theorem hostSteps_le (h : ConnectionHost) : hostSteps h ≤ maxSteps + 3 := by
  have hp := stepsLeft_le h.client.point
  rw [hostSteps]
  split_ifs <;> omega

theorem hostSteps_joining {h : ConnectionHost} (hj : h.joining = true) :
    hostSteps h = stepsLeft h.client.point + 2 := by
  rw [ConnectionHost.joining, Bool.and_eq_true] at hj
  rw [hostSteps, if_pos hj.1, if_pos hj.2]

theorem stepsAt_set {hosts : List ConnectionHost} {q : Nat} {h h' : ConnectionHost}
    (hh : hosts[q]? = some h) (p : Nat) :
    stepsAt (hosts.set q h') p = if q = p then hostSteps h' else stepsAt hosts p := by
  have hlt : q < hosts.length := (List.getElem?_eq_some_iff.mp hh).1
  rw [stepsAt, List.getElem?_set]
  split_ifs with hp
  · rfl
  · rfl

theorem stepsAt_of_host {hosts : List ConnectionHost} {p : Nat} {h : ConnectionHost}
    (hh : hosts[p]? = some h) : stepsAt hosts p = hostSteps h := by
  rw [stepsAt, hh]
  rfl

theorem stepsAt_set_le {hosts : List ConnectionHost} {q : Nat} {h h' : ConnectionHost}
    (hh : hosts[q]? = some h) (hle : hostSteps h' ≤ hostSteps h) (p : Nat) :
    stepsAt (hosts.set q h') p ≤ stepsAt hosts p := by
  rw [stepsAt_set hh]
  split_ifs with hp
  · rwa [← hp, stepsAt_of_host hh]
  · exact Nat.le_refl _

theorem removalSteps_set {hosts : List ConnectionHost} {q : Nat} {h h' : ConnectionHost}
    (hh : hosts[q]? = some h) (hle : hostSteps h' ≤ hostSteps h) (remaining : List (UInt32 × Nat)) :
    removalSteps (hosts.set q h') remaining ≤ removalSteps hosts remaining := by
  induction remaining with
  | nil => exact Nat.le_refl _
  | cons entry remaining ih => exact Nat.add_le_add (stepsAt_set_le hh hle entry.2) ih

theorem hostSteps_hostStep {h h' : ConnectionHost} {a : HostAction} {e : HostEvent}
    (hs : HostStep h a e h') (ha : a = .stopThread ∨ a = .joinThread) :
    hostSteps h' < hostSteps h := by
  have hle := stepsLeft_le h.client.point
  cases hs with
  | requestShutdown hr hs =>
      simp only [hostSteps, hr, hs, if_true, Bool.false_eq_true, if_false]
      omega
  | join hr hs hp => simp [hostSteps, hr, hs]
  | _ => simp at ha

theorem hostSteps_client {h : ConnectionHost} {c : ConnectionClient} {now : Nat} {e : ClientEvent}
    (hs : ClientStep h.client now e c) :
    hostSteps { h with client := c } ≤ hostSteps h ∧
      (h.joining = true → hostSteps { h with client := c } < hostSteps h) := by
  obtain ⟨hi, hr⟩ := hs.flags_eq
  simp only [hostSteps, ConnectionHost.joining, hi, hr, Bool.and_eq_true]
  split_ifs with h₁ h₂
  · have := stepsLeft_clientStep hs h₂
    exact ⟨by omega, fun _ => by omega⟩
  · exact ⟨Nat.le_refl _, fun hj => absurd hj.2 h₂⟩
  · exact ⟨Nat.le_refl _, fun hj => absurd hj.1 h₁⟩

theorem hostSteps_pos (h : ConnectionHost) : 0 < hostSteps h := by
  rw [hostSteps]
  split_ifs <;> omega

inductive Mover
  | resume
  | client (pointer : Nat)
  | other
  deriving DecidableEq

def mover : PluginAction → Mover
  | .resume => .resume
  | .client pointer _ => .client pointer
  | _ => .other

def taskSteps (s : Plugin) : Nat :=
  match s.task with
  | .idle | .crashed => 0
  | .closing _ _ pointer => stepsAt s.hosts pointer
  | .unloading _ remaining => removalSteps s.hosts remaining + 1

def awaited (s : Plugin) : Option Nat :=
  match s.task with
  | .closing _ _ pointer | .unloading _ ((_, pointer) :: _) => some pointer
  | _ => none

/-- Where the host thread has to wait for a client it is that client that has to
move. -/
def helper (s : Plugin) : Mover :=
  match awaited s with
  | none => .resume
  | some pointer =>
      if s.hosts[pointer]?.any fun h => h.joining && 0 < stepsLeft h.client.point then .client pointer
      else .resume

section

variable {s s' : Plugin}

theorem removalSteps_cons (hosts : List ConnectionHost) (id : UInt32) (p : Nat)
    (remaining : List (UInt32 × Nat)) :
    removalSteps hosts ((id, p) :: remaining) = stepsAt hosts p + removalSteps hosts remaining := rfl

theorem helper_of_awaited {p : Nat} (ha : awaited s = some p) {h : ConnectionHost}
    (hh : s.hosts[p]? = some h) :
    helper s = if h.joining = true ∧ 0 < stepsLeft h.client.point then .client p else .resume := by
  simp [helper, ha, hh]

theorem helper_of_none (ha : awaited s = none) : helper s = .resume := by
  rw [helper, ha]

theorem helper_client {q : Nat} {h : ConnectionHost} {c : ConnectionClient} {now : Nat}
    {e : ClientEvent} (hh : s.hosts[q]? = some h) (hs : ClientStep h.client now e c)
    (hh' : s'.hosts = s.hosts.set q { h with client := c }) (ht : s'.task = s.task)
    (hj : awaited s = some q → h.joining = false) :
    helper s' = helper s ∧ .client q ≠ helper s := by
  have ha : awaited s' = awaited s := by rw [awaited, awaited, ht]
  cases hp : awaited s with
  | none => simp [helper_of_none hp, helper_of_none (ha.trans hp)]
  | some p =>
      by_cases hq : q = p
      · subst hq
        have hself : s'.hosts[q]? = some { h with client := c } := by
          rw [hh', List.getElem?_set_self (List.getElem?_eq_some_iff.mp hh).1]
        have hj' : ({ h with client := c } : ConnectionHost).joining = h.joining := by
          rw [ConnectionHost.joining, ConnectionHost.joining, hs.flags_eq.1, hs.flags_eq.2]
        rw [helper_of_awaited (ha.trans hp) hself, helper_of_awaited hp hh, hj']
        simp [hj hp]
      · rw [helper, helper, ha, hp, hh']
        simp only [List.getElem?_set_ne hq, true_and]
        split_ifs <;> simp [hq]

section

variable {q : Nat} {h h' : ConnectionHost} (hh : s.hosts[q]? = some h)
  (hh' : s'.hosts = s.hosts.set q h') (ht : s'.task = s.task)

include hh hh' ht

theorem taskSteps_le (hle : hostSteps h' ≤ hostSteps h) : taskSteps s' ≤ taskSteps s := by
  rw [taskSteps, taskSteps, ht, hh']
  split
  next => exact Nat.le_refl _
  next => exact Nat.le_refl _
  next p _ => exact stepsAt_set_le hh hle p
  next remaining _ => exact Nat.add_le_add_right (removalSteps_set hh hle remaining) 1

theorem taskSteps_lt (ha : awaited s = some q) (hlt : hostSteps h' < hostSteps h) :
    taskSteps s' < taskSteps s := by
  have hset : stepsAt (s.hosts.set q h') q < stepsAt s.hosts q := by
    rwa [stepsAt_set hh, if_pos rfl, stepsAt_of_host hh]
  rw [taskSteps, taskSteps, ht, hh']
  unfold awaited at ha
  split at ha
  next hclosing =>
    cases ha
    rw [hclosing]
    exact hset
  next id p remaining hunloading =>
    cases ha
    have hrest := removalSteps_set hh hlt.le remaining
    simp only [hunloading, removalSteps_cons]
    omega
  next => cases ha

end

theorem taskSteps_client {q : Nat} {h : ConnectionHost} {c : ConnectionClient} {now : Nat}
    {e : ClientEvent} (hh : s.hosts[q]? = some h) (hs : ClientStep h.client now e c)
    (hh' : s'.hosts = s.hosts.set q { h with client := c }) (ht : s'.task = s.task) :
    taskSteps s' < taskSteps s ∨
      taskSteps s' = taskSteps s ∧ helper s' = helper s ∧ .client q ≠ helper s := by
  obtain ⟨hle, hlt⟩ := hostSteps_client hs
  by_cases hj : awaited s = some q ∧ h.joining = true
  · exact .inl (taskSteps_lt hh hh' ht hj.1 (hlt hj.2))
  · have hhelper := helper_client hh hs hh' ht fun ha => by simpa [ha] using hj
    rcases (taskSteps_le hh hh' ht hle).lt_or_eq with hl | he
    · exact .inl hl
    · exact .inr ⟨he, hhelper⟩

theorem taskSteps_destroy {amx : Amx} {id : UInt32} {q : Nat} {remaining : List (UInt32 × Nat)}
    (ht : s.task = .unloading amx ((id, q) :: remaining)) {h h' : ConnectionHost} {e : HostEvent}
    (hh : s.hosts[q]? = some h) (hs : ConnectionHost.step h .destroy = some (h', e))
    (hh' : s'.hosts = s.hosts.set q h') (ht' : s'.task = .unloading amx remaining) :
    taskSteps s' < taskSteps s := by
  cases (hostStep_of_step hs).2 with
  | destroy hr =>
      have hle : hostSteps { h with deleted := true } ≤ hostSteps h := Nat.le_refl _
      have hrest := removalSteps_set hh hle remaining
      have hp := hostSteps_pos h
      simp only [taskSteps, ht, ht', hh', removalSteps_cons, stepsAt_of_host hh]
      omega

/-- Every move of the host thread counts, and so does every move of the client that it
waits for. -/
theorem taskSteps_step {a : PluginAction} {e : PluginEvent} (h : PluginStep s a e s')
    (hpos : 0 < taskSteps s) :
    taskSteps s' < taskSteps s ∨
      taskSteps s' = taskSteps s ∧ helper s' = helper s ∧ mover a ≠ helper s := by
  cases h with
  | client q input h h' e c e' results hh hs hc =>
      cases (hostStep_of_step hs).2 with
      | client _ _ ev c' hcs => exact taskSteps_client hh hcs rfl rfl
  | halt amx id q remaining h h' a e ht ha hh hs =>
      have ha' : awaited s = some q := by rw [awaited, ht]
      exact .inl (taskSteps_lt hh rfl rfl ha' (hostSteps_hostStep (hostStep_of_step hs).2 ha))
  | destroy amx id q remaining h h' e ht hh hs => exact .inl (taskSteps_destroy ht hh hs rfl rfl)
  | stopped | unloaded | staleRemoval => exact .inl hpos
  | quiet _ _ _ _ _ ht | free _ _ ht | fetch _ _ _ ht | connect _ _ _ ht
  | query _ _ _ _ _ _ _ _ _ ht | stop _ _ _ _ _ _ _ ht | frame ht | tick _ _ _ _ _ _ ht
  | unload _ ht | undefinedBehaviour _ _ _ ht | staleHandle _ _ _ _ _ ht | staleIterator _ _ ht =>
      simp [taskSteps, ht] at hpos

def ClosingJoins (s : Plugin) : Prop :=
  ∀ amx params p, s.task = .closing amx params p →
    ∃ h, s.hosts[p]? = some h ∧ h.deleted = false ∧ h.joining = true

theorem closingJoins_step {a : PluginAction} {e : PluginEvent} (h : PluginStep s a e s')
    (hc : ClosingJoins s) : ClosingJoins s' := by
  intro amx params p ht'
  cases h with
  | client q input h h' e c e' results hh hs _ =>
      obtain ⟨g, hg, hd, hj⟩ := hc amx params p ht'
      by_cases hq : q = p
      · subst hq
        cases hh.symm.trans hg
        have hlt := (List.getElem?_eq_some_iff.mp hh).1
        cases (hostStep_of_step hs).2 with
        | client _ _ ev c' hcs =>
            refine ⟨_, List.getElem?_set_self hlt, hd, ?_⟩
            rw [ConnectionHost.joining] at hj ⊢
            rwa [hcs.flags_eq.1, hcs.flags_eq.2]
      · exact ⟨g, by rwa [List.getElem?_set_ne hq], hd, hj⟩
  | stop amx' params' id q h h' e ht hc' hh hs =>
      cases ht'
      have hlt := (List.getElem?_eq_some_iff.mp hh).1
      obtain ⟨hd, hstep⟩ := hostStep_of_step hs
      cases hstep with
      | requestShutdown hr hs =>
          exact ⟨_, List.getElem?_set_self hlt, hd, by simp [ConnectionHost.joining, hr]⟩
  | halt _ _ _ _ _ _ _ _ ht => cases ht.symm.trans ht'
  | frame ht => simp [ht] at ht'
  | quiet _ _ _ _ _ ht | free _ _ ht | fetch _ _ _ ht | connect _ _ _ ht
  | query _ _ _ _ _ _ _ _ _ ht | tick _ _ _ _ _ _ ht => cases ht.symm.trans ht'
  | stopped | destroy | unload | unloaded | undefinedBehaviour | staleHandle | staleIterator
  | staleRemoval => cases ht'

theorem reach_closingJoins {lib : Externals} {tr : List PluginEvent}
    (hr : Reach (Plugin.step lib) Plugin.new tr s) : ClosingJoins s := by
  induction hr with
  | start => rintro _ _ _ ⟨⟩
  | step _ hs ih => exact closingJoins_step (pluginStep_of_step hs) ih

theorem exists_pop {α : Type} {queue : ThreadSafeQueue α} (h : 0 < queue.size) :
    ∃ r, queue.pop = some r := by
  obtain ⟨value, rest, hq⟩ := List.exists_cons_of_ne_nil (ThreadSafeQueue.size_pos.mp h)
  exact ⟨_, ThreadSafeQueue.pop_eq_some.mpr hq⟩

theorem exists_clientStep {h : ConnectionHost} (hf : PopsFind h) (hp : h.client.point ≠ .finished)
    (results : ResultController ResultEntry) (input : ClientInput) :
    ∃ r, h.client.step results input = some r := by
  have hpop := hf.client
  unfold ConnectionClient.step
  cases hpoint : h.client.point with
  | popInformation =>
      obtain ⟨r, hr⟩ := exists_pop (hpop .connection (by rw [hpoint]; rfl))
      exact ⟨_, Option.map_eq_some_iff.mpr ⟨r, hr, rfl⟩⟩
  | popQuery | popRemaining =>
      obtain ⟨r, hr⟩ := exists_pop (hpop .query (by rw [hpoint]; rfl))
      exact ⟨_, Option.map_eq_some_iff.mpr ⟨r, hr, rfl⟩⟩
  | feedback information caller answer =>
      simp only
      split <;> exact ⟨_, rfl⟩
  | drainCondition | close =>
      simp only
      split_ifs <;> exact ⟨_, rfl⟩
  | finished => exact absurd hpoint hp
  | _ => exact ⟨_, rfl⟩

theorem exists_clientAction {p : Nat} {h : ConnectionHost} (hf : PopsFind h)
    (hh : s.hosts[p]? = some h) (hd : h.deleted = false) (hp : h.client.point ≠ .finished)
    (input : ClientInput) : ∃ r, s.clientStep p input = some r := by
  obtain ⟨⟨c, results, e⟩, hc⟩ := exists_clientStep hf hp s.resultController input
  simp [Plugin.clientStep, Plugin.touch, hh, hc, ConnectionHost.step, hd]

theorem exists_join {p : Nat} {h : ConnectionHost} (hh : s.hosts[p]? = some h)
    (hd : h.deleted = false) (hj : h.joining = true) (hp : h.client.point = .finished) :
    ∃ r, s.touch p .joinThread = some r := by
  simp [Plugin.touch, hh, ConnectionHost.step, hd, hj, hp]

theorem exists_destruction {p : Nat} {h : ConnectionHost} (hh : s.hosts[p]? = some h)
    (hd : h.deleted = false) (hp : h.joining = true → h.client.point = .finished) :
    if h.client.isRunning then
      ∃ r, s.touch p (if h.client.requestShutdown then .joinThread else .stopThread) = some r
    else ∃ r, s.touch p .destroy = some r := by
  split_ifs with hr hs
  · have hj : h.joining = true := by simp [ConnectionHost.joining, hr, hs]
    exact exists_join hh hd hj (hp hj)
  · simp [Plugin.touch, hh, ConnectionHost.step, hd, hr, hs]
  · simp [Plugin.touch, hh, ConnectionHost.step, hd, hr]

theorem exists_delete (amx : Amx) (id : UInt32) {p : Nat} (rest : List (UInt32 × Nat))
    {h : ConnectionHost} (hh : s.hosts[p]? = some h) (hd : h.deleted = false)
    (hp : h.joining = true → h.client.point = .finished) :
    ∃ r, s.delete amx id p rest = some r := by
  have hmove := exists_destruction hh hd hp
  simp only [Plugin.delete, hh, hd, Bool.false_eq_true, if_false]
  by_cases hr : h.client.isRunning = true
  all_goals
    simp only [hr, if_true, Bool.false_eq_true, if_false] at hmove ⊢
    obtain ⟨r, hmove⟩ := hmove
    exact ⟨_, congrArg (Option.map _) hmove⟩

theorem exists_step_of_awaited {lib : Externals} {tr : List PluginEvent}
    (hr : Reach (Plugin.step lib) Plugin.new tr s) {p : Nat} (hp : awaited s = some p)
    {h : ConnectionHost} (hh : s.hosts[p]? = some h) (hd : h.deleted = false)
    (hresume : (h.joining = true → h.client.point = .finished) →
      ∃ r, Plugin.step lib s .resume = some r)
    (hclient : ∀ input, Plugin.step lib s (.client p input) = s.clientStep p input)
    {a : PluginAction} (ha : mover a = helper s) : ∃ r, Plugin.step lib s a = some r := by
  rw [helper_of_awaited hp hh] at ha
  split_ifs at ha with hj
  · cases a with
    | client q input =>
        cases ha
        have hf : h.client.point ≠ .finished := by
          intro hf
          simp [hf, stepsLeft] at hj
        rw [hclient]
        exact exists_clientAction (reach_hostsFind hr h (List.mem_of_getElem? hh)) hh hd hf input
    | _ => cases ha
  · cases a with
    | resume =>
        apply hresume
        intro hjoin
        by_contra hf
        exact hj ⟨hjoin, stepsLeft_pos hf⟩
    | _ => cases ha

theorem exists_step {lib : Externals} {tr : List PluginEvent}
    (hr : Reach (Plugin.step lib) Plugin.new tr s) (hpos : 0 < taskSteps s) {a : PluginAction}
    (ha : mover a = helper s) : ∃ r, Plugin.step lib s a = some r := by
  cases ht : s.task with
  | idle | crashed => simp [taskSteps, ht] at hpos
  | closing amx params p =>
      obtain ⟨h, hh, hd, hj⟩ := reach_closingJoins hr amx params p ht
      refine exists_step_of_awaited hr (by rw [awaited, ht]) hh hd (fun hf => ?_) (fun input => ?_) ha
      · obtain ⟨r, hjoin⟩ := exists_join hh hd hj (hf hj)
        exact ⟨_, by simp only [Plugin.step, ht, hjoin, Option.map_some]; rfl⟩
      · simp only [Plugin.step, ht]
  | unloading amx remaining =>
      cases remaining with
      | nil =>
          rw [helper_of_none (by rw [awaited, ht])] at ha
          cases a <;> cases ha
          exact ⟨_, by simp only [Plugin.step, ht]; rfl⟩
      | cons entry rest =>
          obtain ⟨id, p⟩ := entry
          have hl := reach_live hr
          obtain ⟨h, hh, hd⟩ := hl.mapped id p ((hl.removal amx _ ht).2 id p (List.mem_cons_self ..))
          refine exists_step_of_awaited hr (by rw [awaited, ht]) hh hd (fun hf => ?_) (fun input => ?_)
            ha
          · obtain ⟨r, hdelete⟩ := exists_delete amx id rest hh hd hf
            exact ⟨r, by simp only [Plugin.step, ht, hdelete]⟩
          · simp only [Plugin.step, ht]

end

theorem length_step {s s' : Plugin} {a : PluginAction} {e : PluginEvent} (h : PluginStep s a e s')
    (hpos : 0 < taskSteps s) : s'.hosts.length = s.hosts.length := by
  cases h with
  | connect _ _ _ ht => simp [taskSteps, ht] at hpos
  | frame => rw [Plugin.processTick_hosts]
  | _ => first | rfl | exact List.length_set ..

theorem after_eq {σ α ε : Type} {M : Machine σ α ε} {s t : σ} {a : α} {e : ε}
    (h : M s a = some (t, e)) : after M s a = t := by
  rw [after, h]
  rfl

/-- The threads that a call of the host thread may have to wait for. -/
def Concerned (hosts : Nat) : Mover → Prop
  | .resume => True
  | .client pointer => pointer < hosts
  | .other => False

theorem concerned_helper {s : Plugin} : Concerned s.hosts.length (helper s) := by
  unfold helper
  split
  next => trivial
  next p _ =>
    split_ifs with hp
    · obtain ⟨h, hh, -⟩ := Option.any_eq_true _ _ |>.mp hp
      exact (List.getElem?_eq_some_iff.mp hh).1
    · trivial

theorem helps (lib : Externals) (hosts : Nat) :
    Helps (Plugin.step lib) mover
      (fun s => (∃ tr, Reach (Plugin.step lib) Plugin.new tr s) ∧ s.hosts.length = hosts)
      taskSteps helper := by
  constructor
  · rintro s a ⟨⟨tr, hr⟩, hl⟩ hpos
    refine ⟨hr.after a, ?_⟩
    cases hs : Plugin.step lib s a with
    | none => simpa [after, hs] using hl
    | some r =>
        rw [after_eq hs, length_step (pluginStep_of_step hs) hpos]
        exact hl
  · rintro s a ⟨⟨tr, hr⟩, -⟩ hpos ha
    obtain ⟨r, hs⟩ := exists_step hr hpos ha
    rw [after_eq hs]
    rcases taskSteps_step (pluginStep_of_step hs) hpos with hlt | ⟨-, -, hne⟩
    · exact hlt
    · exact absurd ha hne
  · rintro s a - hpos -
    cases hs : Plugin.step lib s a with
    | none => simp [after, hs]
    | some r =>
        rw [after_eq hs]
        exact (taskSteps_step (pluginStep_of_step hs) hpos).imp_right fun h => ⟨h.1, h.2.1⟩

/-- What is to happen while the host thread is not idle: its call is still going on, or
it has ended with this event. -/
def Ends (task : Task) (tr : List PluginEvent) (s : Plugin) : Prop :=
  match task with
  | .closing amx params p =>
      s.task = .closing amx params p ∨ .returned amx .close params 1 (some (p, .joined)) ∈ tr
  | .unloading amx _ => (∃ remaining, s.task = .unloading amx remaining) ∨ .unloadFinished amx ∈ tr
  | _ => True

theorem ends_step {lib : Externals} {past tr : List PluginEvent} {s s' : Plugin} {a : PluginAction}
    {e : PluginEvent} {task : Task} (hr : Reach (Plugin.step lib) Plugin.new past s)
    (hs : Plugin.step lib s a = some (s', e)) (h : Ends task tr s) : Ends task (tr ++ [e]) s' := by
  cases task with
  | idle | crashed => trivial
  | closing amx params p =>
      rcases h with ht | he
      · cases pluginStep_of_step hs with
        | client => exact .inl ht
        | stopped _ _ _ h h' e' ht' hh hjoin =>
            cases ht.symm.trans ht'
            cases (hostStep_of_step hjoin).2
            exact .inr (by simp)
        | _ => simp [ht] at *
      · exact .inr (List.mem_append_left _ he)
  | unloading amx remaining =>
      rcases h with ⟨rest, ht⟩ | he
      · cases pluginStep_of_step hs with
        | client | halt => exact .inl ⟨rest, ht⟩
        | destroy _ _ _ rest' _ _ _ ht' =>
            cases ht.symm.trans ht'
            exact .inl ⟨rest', rfl⟩
        | unloaded _ ht' =>
            cases ht.symm.trans ht'
            exact .inr (by simp)
        | staleRemoval _ id q _ ht' hh =>
            have hl := reach_live hr
            obtain ⟨g, hg, hd⟩ :=
              hl.mapped id q ((hl.removal _ _ ht').2 id q (List.mem_cons_self ..))
            simp [hh g hg] at hd
        | _ => simp [ht] at *
      · exact .inr (List.mem_append_left _ he)

theorem removalSteps_le (hosts : List ConnectionHost) (remaining : List (UInt32 × Nat)) :
    removalSteps hosts remaining ≤ 261 * remaining.length := by
  induction remaining with
  | nil => exact Nat.le_refl _
  | cons entry rest ih =>
      have hp : stepsAt hosts entry.2 ≤ 261 := by
        rw [stepsAt]
        cases hosts[entry.2]? with
        | none => exact Nat.zero_le _
        | some h => exact hostSteps_le h
      rw [removalSteps_cons hosts entry.1 entry.2 rest, List.length_cons]
      omega

theorem ends_in_rounds {lib : Externals} {past : List PluginEvent} {s : Plugin}
    (hr : Reach (Plugin.step lib) Plugin.new past s) (task : Task) (ht : Ends task [] s)
    {rounds : List (List PluginAction)}
    (hrounds : ∀ as ∈ rounds, Round mover (Concerned s.hosts.length) as)
    (hl : taskSteps s ≤ rounds.length) :
    ∃ before after past' s', rounds.flatten = before ++ after ∧
      Reach (Plugin.step lib) Plugin.new past' s' ∧ taskSteps s' = 0 ∧
      Ends task (run (Plugin.step lib) s before).1 s' := by
  obtain ⟨before, after, hflat, hzero⟩ :=
    (helps lib s.hosts.length).reaches (fun s hs _ => hs.2 ▸ concerned_helper) hrounds
      ⟨⟨past, hr⟩, rfl⟩ hl
  refine ⟨before, after, _, _, hflat, reach_run_append hr before, hzero, ?_⟩
  let P (tr : List PluginEvent) (s : Plugin) : Prop :=
    (∃ past, Reach (Plugin.step lib) Plugin.new past s) ∧ Ends task tr s
  have hall : Along (Plugin.step lib) (fun _ _ _ => True) [] s before :=
    along_of_forall _ (fun _ _ _ _ => trivial) [] s
  have hP : P [] s := ⟨⟨past, hr⟩, ht⟩
  have hrun := run_invariant (P := P) hall hP fun ⟨⟨past, hr⟩, he⟩ _ hs =>
    ⟨⟨_, hr.step hs⟩, ends_step hr hs he⟩
  exact hrun.2

/-- Neither a call of mysql_close nor the unloading of a script waits for ever,
whatever the servers answer and however the threads take turns. -/
theorem blocked_calls_return (lib : Externals) (acts : List PluginAction)
    (rounds : List (List PluginAction))
    (hrounds : ∀ as ∈ rounds,
      Round mover (Concerned (run (Plugin.step lib) Plugin.new acts).2.hosts.length) as) :
    let s := (run (Plugin.step lib) Plugin.new acts).2
    let tr := (run (Plugin.step lib) s rounds.flatten).1
    (∀ amx params p, s.task = .closing amx params p → 260 ≤ rounds.length →
        .returned amx .close params 1 (some (p, .joined)) ∈ tr) ∧
      ∀ amx remaining, s.task = .unloading amx remaining →
        261 * remaining.length + 1 ≤ rounds.length → .unloadFinished amx ∈ tr := by
  intro s tr
  have hr := reach_run (Plugin.step lib) Plugin.new acts
  constructor
  · intro amx params p ht hl
    obtain ⟨h, hh, -, hj⟩ := reach_closingJoins hr amx params p ht
    have hsteps : taskSteps s ≤ rounds.length := by
      have hp := stepsLeft_le h.client.point
      have hcost : stepsAt s.hosts p = stepsLeft h.client.point + 2 :=
        (stepsAt_of_host hh).trans (hostSteps_joining hj)
      simp only [maxSteps] at hp
      simp only [taskSteps, ht]
      omega
    obtain ⟨before, after, past', s', hflat, hr', hzero, hends | hmem⟩ :=
      ends_in_rounds hr (.closing amx params p) (.inl ht) hrounds hsteps
    · obtain ⟨g, hg, -⟩ := reach_closingJoins hr' amx params p hends
      have hpos := hostSteps_pos g
      simp only [taskSteps, hends, stepsAt_of_host hg] at hzero
      omega
    · simp only [tr, hflat, run_append]
      exact List.mem_append_left _ hmem
  · intro amx remaining ht hl
    have hsteps : taskSteps s ≤ rounds.length := by
      have hp := removalSteps_le s.hosts remaining
      simp only [taskSteps, ht]
      omega
    obtain ⟨before, after, past', s', hflat, hr', hzero, ⟨rest, hends⟩ | hmem⟩ :=
      ends_in_rounds hr (.unloading amx remaining) (.inl ⟨remaining, ht⟩) hrounds hsteps
    · simp [taskSteps, hends] at hzero
    · simp only [tr, hflat, run_append]
      exact List.mem_append_left _ hmem

def closeWhileServing : List PluginAction :=
  [.native 1 .connect [.text "h", .text "u", .text "p", .text "d", .number 3306]] ++
    clientTurns 0 9 .empty ++ [.native 1 .query [.number 1, .text "q", .text "c", .number 0],
      .native 1 .close [.number 1]]

theorem blocked_calls_return_close :
    .returned 1 .close [.number 1] 1 (some (0, .joined)) ∈
      (run (Plugin.step plainText) (run (Plugin.step plainText) Plugin.new closeWhileServing).2
        (List.replicate 260 (clientTurns 0 1 .empty ++ [.resume])).flatten).1 := by
  have hrounds : ∀ as ∈ List.replicate 260 (clientTurns 0 1 .empty ++ [PluginAction.resume]),
      Round mover
        (Concerned (run (Plugin.step plainText) Plugin.new closeWhileServing).2.hosts.length) as := by
    intro as has k hk
    rw [List.eq_of_mem_replicate has]
    cases k with
    | resume => exact ⟨.resume, by simp, rfl⟩
    | client p =>
        have hp : p < 1 := hk
        obtain rfl : p = 0 := by omega
        exact ⟨_, List.mem_cons_self .., rfl⟩
    | other => exact hk.elim
  exact (blocked_calls_return plainText closeWhileServing _ hrounds).1 1 [.number 1] 0 rfl
    (by rw [List.length_replicate])

end MysqlPlugin.BoundedWaits
