import MysqlPlugin.Script
import MysqlPlugin.Transition

namespace MysqlPlugin.CallbackDispatch

open Script Transition

/-- The calls of a script whose public function is looked up once. -/
inductive ScriptCall
  | onConnectionAttempt | onQueryError
  deriving DecidableEq

def ScriptCall.name : ScriptCall → Bytes
  | onConnectionAttempt => ascii "OnConnectionAttempt"
  | onQueryError => ascii "OnQueryError"

def step (publics : Publics) : Machine Script ScriptCall (ScriptCall × Option Int32) :=
  fun script call =>
    match call with
    | .onConnectionAttempt =>
        some ((script.onConnectionAttempt publics).1, call, (script.onConnectionAttempt publics).2)
    | .onQueryError =>
        some ((script.onQueryError publics).1, call, (script.onQueryError publics).2)

def Indexes (publics : Publics) : Prop := ∀ name index, publics name = some index → 0 ≤ index

/-- What a cell can hold: 0 says nothing, -1 that there is no such function, and any
other index is what the lookup gave. -/
def Cached (publics : Publics) (name : Bytes) (cell : Int32) : Prop :=
  cell = 0 ∨ cell = callbackNotFoundIndex ∧ publics name = none ∨ publics name = some cell

theorem lookup_of_cached {publics : Publics} (hp : Indexes publics) {name : Bytes} {cell : Int32}
    (h : Cached publics name cell) :
    Cached publics name (lookup publics name cell).1 ∧
      (lookup publics name cell).2 = publics name := by
  rcases h with rfl | ⟨rfl, hn⟩ | hs
  · -- the cell that says nothing, which may also be the index 0
    rw [lookup, if_neg (by decide), if_pos rfl]
    cases hn : publics name with
    | none => exact ⟨.inr (.inl ⟨rfl, hn⟩), rfl⟩
    | some found => exact ⟨.inr (.inr hn), rfl⟩
  · rw [lookup, if_pos rfl, hn]
    exact ⟨.inr (.inl ⟨rfl, hn⟩), rfl⟩
  · have hcell := hp name cell hs
    have hne : cell ≠ callbackNotFoundIndex := by
      rintro rfl
      exact absurd hcell (by decide)
    have hlookup : lookup publics name cell = (cell, some cell) := by
      rw [lookup, if_neg hne, hs, ite_self]
    rw [hlookup]
    exact ⟨.inr (.inr hs), hs.symm⟩

structure Cells (publics : Publics) (script : Script) : Prop where
  connectionAttempt : Cached publics ScriptCall.onConnectionAttempt.name script.onConnectionAttemptIndex
  queryError : Cached publics ScriptCall.onQueryError.name script.onQueryErrorIndex

theorem cells_new (publics : Publics) (runtime : Amx) : Cells publics (Script.new runtime) :=
  ⟨.inl rfl, .inl rfl⟩

theorem cells_step {publics : Publics} (hp : Indexes publics) {script : Script}
    (hc : Cells publics script) (call : ScriptCall) :
    ∃ script', step publics script call = some (script', call, publics call.name) ∧
      Cells publics script' := by
  cases call with
  | onConnectionAttempt =>
      obtain ⟨hcell, hi⟩ := lookup_of_cached hp hc.connectionAttempt
      refine ⟨(script.onConnectionAttempt publics).1, ?_, hcell, hc.queryError⟩
      rw [← hi]
      rfl
  | onQueryError =>
      obtain ⟨hcell, hi⟩ := lookup_of_cached hp hc.queryError
      refine ⟨(script.onQueryError publics).1, ?_, hc.connectionAttempt, hcell⟩
      rw [← hi]
      rfl

theorem run_of_cells {publics : Publics} (hp : Indexes publics) {script : Script}
    (hc : Cells publics script) (calls : List ScriptCall) :
    (run (step publics) script calls).1 = calls.map fun call => (call, publics call.name) := by
  induction calls generalizing script with
  | nil => rfl
  | cons call calls ih =>
      obtain ⟨script', hs, hc'⟩ := cells_step hp hc call
      simp only [run, hs, ih hc', List.map_cons]

/-- Each call runs the function that a fresh lookup of its name finds, or none where
the lookup finds none, and never a negative index. -/
theorem calls_dispatch_fresh {publics : Publics}
    (hp : ∀ name index, publics name = some index → 0 ≤ index) (runtime : Amx)
    (calls : List ScriptCall) :
    let executed := (run (step publics) (Script.new runtime) calls).1
    executed = calls.map (fun call => (call, publics call.name)) ∧
      ∀ call index, (call, some index) ∈ executed → 0 ≤ index := by
  have hrun := run_of_cells hp (cells_new publics runtime) calls
  refine ⟨hrun, fun call index hm => ?_⟩
  rw [hrun] at hm
  obtain ⟨call', -, he⟩ := List.mem_map.mp hm
  exact hp call'.name index (congrArg Prod.snd he)

theorem calls_dispatch_first :
    let publics : Publics := fun name => if name = ScriptCall.onQueryError.name then some 0 else none
    (run (step publics) (Script.new 1) [.onQueryError, .onConnectionAttempt, .onQueryError]).1 =
      [(.onQueryError, some 0), (.onConnectionAttempt, none), (.onQueryError, some 0)] := by
  intro publics
  have hp : ∀ name index, publics name = some index → 0 ≤ index := by
    intro name index h
    simp only [publics] at h
    split_ifs at h
    cases h
    decide
  have h := (calls_dispatch_fresh hp 1 [.onQueryError, .onConnectionAttempt, .onQueryError]).1
  rw [h]
  rfl

end MysqlPlugin.CallbackDispatch
