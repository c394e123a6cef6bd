import MysqlPlugin.ResultHistory

namespace MysqlPlugin.ShutdownDrain

open QueryAccounting ResultHistory Transition

structure RunEvent where
  event : ClientEvent
  found : ResultController ResultEntry
  left : ResultController ResultEntry

/-- run on its own, from any point of it. Other threads may change the registry
between two steps; nobody else has the queue of queries while the host thread waits
for this one to end. -/
def step : Machine ConnectionClient (ResultController ResultEntry × ClientInput) RunEvent :=
  fun c (results, input) =>
    (c.step results input).map fun (c, left, event) => (c, ⟨event, results, left⟩)

def executed (tr : List RunEvent) : List QueryInformation :=
  tr.filterMap fun e =>
    match e.event with
    | .queried information _ _ => some information
    | _ => none

def limit (c : ConnectionClient) : Nat :=
  if c.connectionStatus.isConnected then min 50 c.queryQueue.length else 0

/-- The point of the second loop at which so many queries have been taken from the
queue, some of which were executed, after so many steps. -/
def At (c : ConnectionClient) (taken : Nat) (done : List QueryInformation) (steps : Nat) :
    RunPoint → Prop
  | .drainCondition n => n = taken ∧ done = c.queryQueue.take taken ∧ steps = 4 * taken
  | .popRemaining n =>
      n = taken + 1 ∧ taken < limit c ∧ done = c.queryQueue.take taken ∧ steps = 4 * taken + 1
  | .query information (.drain n) =>
      n = taken ∧ done ++ [information] = c.queryQueue.take taken ∧ steps + 2 = 4 * taken
  | .feedback _ (.drain n) _ => n = taken ∧ done = c.queryQueue.take taken ∧ steps + 1 = 4 * taken
  | .close => taken = limit c ∧ done = c.queryQueue.take taken ∧ steps = 4 * taken + 1
  | .finished => taken = limit c ∧ done = c.queryQueue.take taken ∧ steps = 4 * taken + 2
  | _ => False

structure Progress (c : ConnectionClient) (tr : List RunEvent) (c' : ConnectionClient) : Prop where
  registry : ∀ e ∈ tr, e.left = e.found
  at_point : ∃ taken point, taken ≤ limit c ∧
    c' = { c with queryQueue := c.queryQueue.drop taken, point } ∧
    At c taken (executed tr) tr.length point

theorem executed_snoc (tr : List RunEvent) (e : RunEvent) :
    executed (tr ++ [e]) = executed tr ++ executed [e] := by
  simp [executed]

theorem feedback_silent (information : QueryInformation) (answer : QueryAnswer) :
    (doQuery information.query information.callback .silentExecution answer).feedback = .none := by
  rw [doQuery_feedback ⟨information, .silentExecution, answer, none⟩]
  simp [DueSuccess, DueFailure]

theorem lt_limit {c : ConnectionClient} {taken : Nat} (hc : c.connectionStatus.isConnected = true)
    (hq : c.queryQueue.drop taken ≠ []) (hn : taken < 50) : taken < limit c := by
  have hl : taken < c.queryQueue.length := by
    by_contra hl
    exact hq (List.drop_eq_nil_of_le (Nat.le_of_not_lt hl))
  rw [limit, if_pos hc]
  omega

theorem eq_limit {c : ConnectionClient} {taken : Nat} (hle : taken ≤ limit c)
    (hn : ¬ (c.connectionStatus.isConnected = true ∧ c.queryQueue.drop taken ≠ [] ∧ taken < 50)) :
    taken = limit c := by
  by_contra hne
  apply hn
  have hlt : taken < limit c := Nat.lt_of_le_of_ne hle hne
  rw [limit] at hlt
  split_ifs at hlt with hc
  · refine ⟨hc, ?_, by omega⟩
    rw [ne_eq, List.drop_eq_nil_iff]
    omega
  · omega

theorem progress_clientStep {c c' : ConnectionClient} {now taken steps : Nat} {e : ClientEvent}
    {done : List QueryInformation} {point : RunPoint} (hle : taken ≤ limit c)
    (hat : At c taken done steps point)
    (h : ClientStep { c with queryQueue := c.queryQueue.drop taken, point } now e c') :
    (∀ information entry id, e ≠ .registered information entry id) ∧
      ∃ taken' point', taken' ≤ limit c ∧
        c' = { c with queryQueue := c.queryQueue.drop taken', point := point' } ∧
        At c taken' (done ++ (match e with | .queried information _ _ => [information] | _ => []))
          (steps + 1) point' := by
  cases h with
  | seeRemaining n hp hc hq hn =>
      cases hp
      obtain ⟨rfl, hd, hs⟩ := hat
      refine ⟨by simp, n, _, hle, rfl, rfl, lt_limit hc hq hn, ?_, ?_⟩
      · simpa using hd
      · omega
  | endDrain n hp hn =>
      cases hp
      obtain ⟨rfl, hd, hs⟩ := hat
      refine ⟨by simp, n, _, hle, rfl, eq_limit hle hn, ?_, ?_⟩
      · simpa using hd
      · omega
  | popRemaining n information queue hp hq =>
      cases hp
      obtain ⟨rfl, hlt, hd, hs⟩ := hat
      have hq' : c.queryQueue.drop taken = information :: queue := hq
      have hi : c.queryQueue[taken]? = some information := by
        rw [← List.head?_drop, hq']
        rfl
      have hrest : queue = c.queryQueue.drop (taken + 1) := by
        rw [← List.tail_drop, hq']
        rfl
      subst hrest
      refine ⟨by simp, taken + 1, _, hlt, rfl, rfl, ?_, ?_⟩
      · rw [List.append_nil, hd, List.take_add_one, hi]
        rfl
      · omega
  | query information caller answer hp =>
      cases hp
      cases caller with
      | loop => exact hat.elim
      | drain n =>
          obtain ⟨rfl, hd, hs⟩ := hat
          refine ⟨by simp, n, _, hle, rfl, rfl, hd, ?_⟩
          omega
  | quiet information caller answer hp hf =>
      cases hp
      cases caller with
      | loop => exact hat.elim
      | drain n =>
          obtain ⟨rfl, hd, hs⟩ := hat
          refine ⟨by simp, n, _, hle, rfl, rfl, ?_, ?_⟩
          · simpa using hd
          · omega
  | fail information caller answer result hp hf | register information caller answer entry id hp hf =>
      cases hp
      cases caller with
      | loop => exact hat.elim
      | drain n =>
          rw [QueryCaller.executionType, feedback_silent] at hf
          cases hf
  | close hp | skipClose hp =>
      cases hp
      obtain ⟨ht, hd, hs⟩ := hat
      refine ⟨by simp, taken, _, hle, rfl, ht, ?_, ?_⟩
      · simpa using hd
      · omega
  | again hp | leave hp | sleep hp | seeInformation hp | dueAttempt hp | duePing hp | seeQuery hp
  | popInformation _ _ hp | startAttempt hp | connect _ hp | pushAttempt _ hp | stampAttempt hp
  | stampPing hp | ping _ hp | popQuery _ _ hp | succeed _ _ _ _ hp =>
      cases hp
      exact hat.elim

theorem progress_step {c c' c'' : ConnectionClient} {tr : List RunEvent}
    {a : ResultController ResultEntry × ClientInput} {e : RunEvent} (hp : Progress c tr c')
    (h : step c' a = some (c'', e)) : Progress c (tr ++ [e]) c'' := by
  obtain ⟨hr, taken, point, hle, rfl, hat⟩ := hp
  obtain ⟨⟨c₁, left, event⟩, hs, he⟩ := Option.map_eq_some_iff.mp h
  cases he
  obtain ⟨hn, taken', point', hle', rfl, hat'⟩ :=
    progress_clientStep hle hat (clientStep_of_step hs)
  constructor
  · intro e he
    rcases List.mem_append.mp he with he | he
    · exact hr e he
    · rw [List.mem_singleton.mp he]
      rcases results_of_clientStep hs with ⟨-, hsame⟩ | ⟨information, entry, hreg, -⟩
      · exact hsame
      · exact absurd hreg (hn _ _ _)
  · refine ⟨taken', point', hle', rfl, ?_⟩
    rw [executed_snoc, List.length_append]
    cases event <;> exact hat'

theorem reach_progress {c c' : ConnectionClient} {tr : List RunEvent}
    (h : Reach step { c with point := .drainCondition 0 } tr c') : Progress c tr c' := by
  induction h with
  | start => exact ⟨by simp, 0, .drainCondition 0, Nat.zero_le _, rfl, rfl, rfl, rfl⟩
  | step _ hs ih => exact progress_step ih hs

theorem steps_of_refused {c c' : ConnectionClient} {tr : List RunEvent}
    {a : ResultController ResultEntry × ClientInput} (hp : Progress c tr c')
    (h : step c' a = none) : tr.length = 4 * limit c + 2 := by
  obtain ⟨-, taken, point, hle, rfl, hat⟩ := hp
  rw [step, Option.map_eq_none_iff] at h
  cases point with
  | finished =>
      obtain ⟨rfl, -, hs⟩ := hat
      exact hs
  | popRemaining n =>
      obtain ⟨rfl, hlt, -⟩ := hat
      simp only [ConnectionClient.step, Option.map_eq_none_iff] at h
      have hq : c.queryQueue.drop taken = [] := by
        cases hq : c.queryQueue.drop taken with
        | nil => rfl
        | cons information queue => simp [hq, ThreadSafeQueue.pop] at h
      rw [List.drop_eq_nil_iff] at hq
      rw [limit] at hlt
      split_ifs at hlt <;> omega
  | drainCondition | close =>
      simp only [ConnectionClient.step] at h
      split_ifs at h
  | feedback information caller answer =>
      simp only [ConnectionClient.step] at h
      split at h <;> cases h
  | query => simp [ConnectionClient.step] at h
  | _ => exact hat.elim

theorem finished_of_steps {c : ConnectionClient} {taken steps : Nat} {done : List QueryInformation}
    {point : RunPoint} (hle : taken ≤ limit c) (hat : At c taken done steps point)
    (hs : 4 * limit c + 2 ≤ steps) : point = .finished := by
  unfold At at hat
  split at hat
  all_goals first | rfl | exact hat.elim | omega

theorem prefix_of_at {c : ConnectionClient} {taken steps : Nat} {done : List QueryInformation}
    {point : RunPoint} (hat : At c taken done steps point) : done <+: c.queryQueue.take taken := by
  unfold At at hat
  split at hat
  next => exact hat.2.1 ▸ List.prefix_rfl
  next => exact hat.2.2.1 ▸ List.prefix_rfl
  next => exact ⟨_, hat.2.1⟩
  next => exact hat.2.1 ▸ List.prefix_rfl
  next => exact hat.2.1 ▸ List.prefix_rfl
  next => exact hat.2.1 ▸ List.prefix_rfl
  next => exact hat.elim

theorem run_finished (c : ConnectionClient) {acts : List (ResultController ResultEntry × ClientInput)}
    (hl : 4 * limit c + 2 ≤ acts.length) :
    (run step { c with point := .drainCondition 0 } acts).2.point = .finished := by
  let Left (n : Nat) (c' : ConnectionClient) : Prop :=
    ∃ tr, Progress c tr c' ∧ 4 * limit c + 2 ≤ tr.length + n
  have hstep (n : Nat) (c' : ConnectionClient) (a : ResultController ResultEntry × ClientInput)
      (_ : True) (h : Left n c') : Left (n - 1) (after step c' a) := by
    obtain ⟨tr, hp, hn⟩ := h
    cases hs : step c' a with
    | none =>
        have := steps_of_refused hp hs
        refine ⟨tr, ?_, by omega⟩
        simpa [after, hs] using hp
    | some p =>
        refine ⟨tr ++ [p.2], ?_, ?_⟩
        · simpa [after, hs] using progress_step hp hs
        · rw [List.length_append, List.length_singleton]
          omega
  have hstart : Left (4 * limit c + 2) { c with point := .drainCondition 0 } :=
    ⟨[], reach_progress .start, Nat.le_add_left ..⟩
  obtain ⟨tr, ⟨-, taken, point, hle, he, hat⟩, hn⟩ := run_left hstep hstart fun _ _ => trivial
  rw [he]
  exact finished_of_steps hle hat (by omega)

/-- The second loop of run, whatever is in the queue and whatever the server answers.
It takes the first fifty queries at most, and those only on a connected client,
executes them in their order and then returns. Nothing but the queue changes, nothing
is registered, and enough steps of the thread come to the end of it. -/
theorem drain_executes (c : ConnectionClient)
    (acts : List (ResultController ResultEntry × ClientInput)) :
    let limit := if c.connectionStatus.isConnected then min 50 c.queryQueue.length else 0
    let r := run step { c with point := .drainCondition 0 } acts
    (∃ queryQueue point, r.2 = { c with queryQueue, point }) ∧
      (∀ e ∈ r.1, e.left = e.found) ∧
      executed r.1 <+: c.queryQueue.take limit ∧
      (r.2.point = .finished →
        executed r.1 = c.queryQueue.take limit ∧ r.2.queryQueue = c.queryQueue.drop limit) ∧
      (4 * limit + 2 ≤ acts.length → r.2.point = .finished) := by
  obtain ⟨hregistry, taken, point, hle, he, hat⟩ :=
    reach_progress (reach_run step { c with point := .drainCondition 0 } acts)
  refine ⟨⟨_, _, he⟩, hregistry, ?_, ?_, run_finished c⟩
  · exact (prefix_of_at hat).trans (List.take_prefix_take_left hle)
  · rw [he]
    rintro rfl
    obtain ⟨rfl, hd, -⟩ := hat
    exact ⟨hd, rfl⟩

end MysqlPlugin.ShutdownDrain
