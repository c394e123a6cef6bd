import Mathlib.Data.List.Induction
import MysqlPlugin.ConnectionClient

namespace MysqlPlugin.HeldResultSets

structure Call where
  information : QueryInformation
  executionType : ExecutionType
  answer : QueryAnswer

/-- The result sets that libmysql holds for the plugin are numbered in the order
in which they were obtained; each call of mysql_free_result is on record. -/
structure ResultSets where
  obtained : Nat
  released : List Nat

/-- The local queryResult is the result set obtained last. -/
def perform (sets : ResultSets) : ResultSetCall → ResultSets
  | .storeResult => { sets with obtained := sets.obtained + 1 }
  | .freeResult => { sets with released := sets.released ++ [sets.obtained - 1] }

def Call.calls (call : Call) : List ResultSetCall :=
  (doQuery call.information.query call.information.callback call.executionType call.answer).calls

def execute (sets : ResultSets) (call : Call) : ResultSets := call.calls.foldl perform sets

def after (calls : List Call) : ResultSets := calls.foldl execute ⟨0, []⟩

def Released (sets : ResultSets) : Prop :=
  ∀ resultSet < sets.obtained, sets.released.count resultSet = 1

instance (sets : ResultSets) : Decidable (Released sets) := inferInstanceAs (Decidable (∀ _ < _, _))

def Obtains (call : Call) : Prop :=
  call.answer.realQuery = 0 ∧ call.answer.storeResult.isSome = true

def Unwanted (call : Call) : Prop :=
  Obtains call ∧ (call.information.callback = [] ∨ call.executionType = .silentExecution)

instance (call : Call) : Decidable (Obtains call) := inferInstanceAs (Decidable (_ ∧ _))

instance (call : Call) : Decidable (Unwanted call) := inferInstanceAs (Decidable (_ ∧ _))

theorem calls_eq (call : Call) :
    call.calls =
      if Unwanted call then [.storeResult]
      else if Obtains call then [.storeResult, .freeResult]
      else [] := by
  obtain ⟨information, executionType, realQuery, storeResult, fieldCount⟩ := call
  simp only [Call.calls, doQuery, Unwanted, Obtains, List.length_eq_zero_iff]
  by_cases hr : realQuery = 0
  · by_cases hc : information.callback = [] ∨ executionType = .silentExecution
    · cases storeResult <;> simp [hr, hc]
    · cases storeResult with
      | none => by_cases hf : fieldCount = 0 <;> simp [hr, hf, hc]
      | some queryResult => simp [hr, hc]
  · simp [hr]

theorem after_snoc (calls : List Call) (call : Call) :
    after (calls ++ [call]) = execute (after calls) call := by
  simp [after]

theorem execute_eq (sets : ResultSets) (call : Call) :
    execute sets call =
      if Unwanted call then { sets with obtained := sets.obtained + 1 }
      else if Obtains call then ⟨sets.obtained + 1, sets.released ++ [sets.obtained]⟩
      else sets := by
  rw [execute, calls_eq]
  split_ifs <;> rfl

theorem released_lt (calls : List Call) :
    ∀ resultSet ∈ (after calls).released, resultSet < (after calls).obtained := by
  induction calls using List.reverseRecOn with
  | nil => simp [after]
  | append_singleton calls call ih =>
      rw [after_snoc, execute_eq]
      split_ifs
      · exact fun r hr => Nat.lt_succ_of_lt (ih r hr)
      · intro r hr
        rcases List.mem_append.mp hr with hr | hr
        · exact Nat.lt_succ_of_lt (ih r hr)
        · rw [List.mem_singleton.mp hr]
          exact Nat.lt_succ_self _
      · exact ih

theorem released_execute {sets : ResultSets} (hlt : ∀ r ∈ sets.released, r < sets.obtained)
    (call : Call) : Released (execute sets call) ↔ Released sets ∧ ¬ Unwanted call := by
  have hfresh : sets.released.count sets.obtained = 0 :=
    List.count_eq_zero_of_not_mem fun h => Nat.lt_irrefl _ (hlt _ h)
  rw [execute_eq]
  split_ifs with hu ho
  · -- the new result set is never released
    refine iff_of_false (fun h => ?_) (fun h => h.2 hu)
    have := h sets.obtained (Nat.lt_succ_self _)
    simp [hfresh] at this
  · simp only [hu, not_false_eq_true, and_true]
    constructor
    · intro h r hr
      have := h r (Nat.lt_succ_of_lt hr)
      simpa [List.count_append, Nat.ne_of_gt hr] using this
    · intro h r hr
      rcases Nat.lt_succ_iff_lt_or_eq.mp hr with hr | rfl
      · simpa [List.count_append, Nat.ne_of_gt hr] using h r hr
      · simp [List.count_append, hfresh]
  · simp [hu]

theorem released_after (calls : List Call) :
    Released (after calls) ↔ ∀ call ∈ calls, ¬ Unwanted call := by
  induction calls using List.reverseRecOn with
  | nil => simp [after, Released]
  | append_singleton calls call ih =>
      rw [after_snoc, released_execute (released_lt calls), ih]
      simp [or_imp, forall_and]

/-- Between any two queries every result set has been released once, exactly when
none of the queries obtains one that nobody wants to see. -/
theorem all_released_iff (calls : List Call) :
    (∀ past, past <+: calls → Released (after past)) ↔ ∀ call ∈ calls, ¬ Unwanted call := by
  constructor
  · intro h
    exact (released_after calls).mp (h calls (List.prefix_refl calls))
  · intro h past hp
    exact (released_after past).mpr fun call hmem => h call (hp.subset hmem)

def selectUnheard : Call where
  information := ⟨[83, 69, 76, 69, 67, 84, 32, 49], [], 0⟩
  executionType := .normalExecution
  answer :=
    { QueryAnswer.empty with
      storeResult := some ⟨[⟨[49], .longlong⟩], [[some [49]]], by decide, by decide⟩ }

theorem selectUnheard_not_released :
    ¬ ∀ past, past <+: [selectUnheard] → Released (after past) :=
  fun h => absurd (h [selectUnheard] (List.prefix_refl _)) (by decide)

end MysqlPlugin.HeldResultSets
