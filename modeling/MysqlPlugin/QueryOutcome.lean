import MysqlPlugin.QueryAccounting

namespace MysqlPlugin.QueryOutcome

open QueryAccounting

/-- One call of doQuery from run, without the steps of other threads in between.
It returns after two steps, or after three where it registers a result. -/
def callDoQuery (input : ClientInput) (information : QueryInformation) (caller : QueryCaller)
    (c : ConnectionClient) (results : ResultController ResultEntry) :
    Option (ConnectionClient × ResultController ResultEntry) :=
  (ConnectionClient.step results input { c with point := .query information caller }).bind
    fun (c, results, _) =>
      (ConnectionClient.step results input c).bind fun (c, results, _) =>
        match c.point with
        | .pushSucceeded _ _ _ _ =>
            (ConnectionClient.step results input c).map fun (c, results, _) => (c, results)
        | _ => some (c, results)

/-- One message about a failure; about a success one message with one registered
result, if there is a callback to take them. -/
structure Reports (information : QueryInformation) (answer : QueryAnswer) (c c' : ConnectionClient)
    (results results' : ResultController ResultEntry) : Prop where
  failed : ¬ Succeeded answer →
    c'.failedQueryQueue = c.failedQueryQueue ++
        [⟨information.query, information.callback, answer.error, answer.errorNumber.toInt32⟩] ∧
      c'.succeededQueryQueue = c.succeededQueryQueue
  succeeded : Succeeded answer →
    c'.failedQueryQueue = c.failedQueryQueue ∧
      (information.callback ≠ [] →
        c'.succeededQueryQueue = c.succeededQueryQueue ++
            [successMessage information (results.push (entryOf answer)).2] ∧
          results' = (results.push (entryOf answer)).1) ∧
      (information.callback = [] →
        c'.succeededQueryQueue = c.succeededQueryQueue ∧ results' = results)

def UnheardFailure (information : QueryInformation) (answer : QueryAnswer) : Prop :=
  answer.realQuery = 0 ∧ answer.storeResult = none ∧ answer.fieldCount ≠ 0 ∧ information.callback = []

theorem callDoQuery_eq (input : ClientInput) (information : QueryInformation) (caller : QueryCaller)
    (c : ConnectionClient) (results : ResultController ResultEntry) :
    callDoQuery input information caller c results =
      match (doQuery information.query information.callback caller.executionType input.query).feedback with
      | .none => some ({ c with point := caller.resume }, results)
      | .failed result =>
          some ({ c with
            failedQueryQueue := c.failedQueryQueue ++ [result]
            point := caller.resume }, results)
      | .succeeded entry =>
          some ({ c with
            succeededQueryQueue :=
              c.succeededQueryQueue ++ [successMessage information (results.push entry).2]
            point := caller.resume }, (results.push entry).1) := by
  rw [callDoQuery]
  simp only [ConnectionClient.step, Option.bind_some]
  cases (doQuery information.query information.callback caller.executionType input.query).feedback with
  | none => cases caller <;> rfl
  | failed result => cases caller <;> rfl
  | succeeded entry => rfl

theorem unheard_or_succeeded {information : QueryInformation} {answer : QueryAnswer}
    (hs : ¬ DueSuccess ⟨information, .normalExecution, answer, none⟩)
    (hf : ¬ DueFailure ⟨information, .normalExecution, answer, none⟩) :
    information.callback = [] ∧ (Succeeded answer ∨ UnheardFailure information answer) := by
  simp only [DueSuccess, DueFailure, true_and, not_and, not_or, not_not] at hs hf
  obtain ⟨hr, hf⟩ := hf
  have hc : information.callback = [] := by
    by_contra hc
    exact hs hc (hf hc)
  refine ⟨hc, ?_⟩
  by_cases ha : Succeeded answer
  · exact .inl ha
  · have hn : answer.storeResult = none ∧ answer.fieldCount ≠ 0 := by
      simpa [Succeeded, hr] using ha
    exact .inr ⟨hr, hn.1, hn.2, hc⟩

theorem not_succeeded_of_unheard {information : QueryInformation} {answer : QueryAnswer}
    (h : UnheardFailure information answer) : ¬ Succeeded answer := by
  rintro ⟨-, hs | hf⟩
  · simp [h.2.1] at hs
  · exact h.2.2.1 hf

/-- doQuery in its normal mode always returns, and says what it has to say of the
query exactly when that is not a failure which the missing callback hides. -/
theorem reports_iff (input : ClientInput) (information : QueryInformation) (c : ConnectionClient)
    (results : ResultController ResultEntry) :
    ∃ c' results', callDoQuery input information .loop c results = some (c', results') ∧
      (Reports information input.query c c' results results' ↔
        ¬ UnheardFailure information input.query) := by
  have hq := doQuery_feedback ⟨information, .normalExecution, input.query, none⟩
  rw [callDoQuery_eq, QueryCaller.executionType, hq]
  split_ifs with hd hf
  · obtain ⟨-, hc, hs⟩ := hd
    refine ⟨_, _, rfl, iff_of_true ⟨fun h => absurd hs h, fun _ => ?_⟩ fun h => hc h.2.2.2⟩
    exact ⟨rfl, fun _ => ⟨rfl, rfl⟩, fun h => absurd h hc⟩
  · obtain ⟨-, hf⟩ := hf
    have hs : ¬ Succeeded input.query := fun hs => hf.elim (fun hr => hr hs.1) fun h => h.2 hs
    refine ⟨_, _, rfl, iff_of_true ⟨fun _ => ⟨rfl, rfl⟩, fun h => absurd h hs⟩ fun h => ?_⟩
    exact hf.elim (fun hr => hr h.1) fun hc => hc.1 h.2.2.2
  · obtain ⟨hc, hs | hu⟩ := unheard_or_succeeded hd hf
    · refine ⟨_, _, rfl, iff_of_true ⟨fun h => absurd hs h, fun _ => ?_⟩ fun h => ?_⟩
      · exact ⟨rfl, fun h => absurd hc h, fun _ => ⟨rfl, rfl⟩⟩
      · exact not_succeeded_of_unheard h hs
    · refine ⟨_, _, rfl, iff_of_false (fun h => ?_) fun h => h hu⟩
      -- the queue of failures is as it was
      have he := (h.failed (not_succeeded_of_unheard hu)).1
      simp at he

def lostRows : ClientInput :=
  ⟨1000, .connected, 0, ⟨0, none, 1, 0, 0, [108, 111, 115, 116], 2013⟩⟩

theorem lostRows_unreported :
    ∃ c' results', callDoQuery lostRows ⟨[83], [], 0⟩ .loop .new .new = some (c', results') ∧
      ¬ Reports ⟨[83], [], 0⟩ lostRows.query .new c' .new results' := by
  refine ⟨_, _, callDoQuery_eq .., fun h => ?_⟩
  have he := (h.failed (by decide)).1
  simp [lostRows, ConnectionClient.new] at he

end MysqlPlugin.QueryOutcome
