import MysqlPlugin.RowMemory
import MysqlPlugin.ScriptReads

namespace MysqlPlugin.HeldStrings

open HostHistory QueryAccounting ResultHistory RowMemory ScriptReads Transition

def heldAnswer (s : Plugin) (pointer : Nat) : Option QueryAnswer :=
  s.hosts[pointer]?.bind fun host =>
    match host.client.point with
    | .feedback _ _ answer => some answer
    | _ => none

/-- The heap that the threads share, and the rows of the registered entries on it. -/
structure Memory where
  heap : Heap Bytes
  results : ResultController (List RowCells)

namespace Memory

def new : Memory := ⟨.empty, .new⟩

def push (grows : Nat → Bool) (memory : Memory) (answer : QueryAnswer) : Option Memory :=
  let result :=
    match answer.storeResult with
    | some queryResult => RowMemory.readResult grows memory.heap queryResult
    | none => some (memory.heap, [])
  result.map fun (heap, rows) => ⟨heap, (memory.results.push rows).1⟩

def free (memory : Memory) (resultId : UInt32) : Option Memory :=
  match memory.results.atId resultId with
  | none => some memory
  | some rows =>
      (destroyRows memory.heap rows).map fun heap => ⟨heap, (memory.results.free resultId).1⟩

def follow (grows : Nat → Bool) (s : Plugin) (memory : Memory) (e : PluginEvent) : Option Memory :=
  match freedAt e with
  | some resultId => memory.free resultId
  | none =>
      match registeredAt e with
      | none => some memory
      | some r => (heldAnswer s r.pointer).bind (memory.push grows)

end Memory

/-- The plugin with its memory, which is none after a fault. -/
def step (lib : Externals) (grows : Nat → Bool) :
    Machine (Plugin × Option Memory) PluginAction PluginEvent := fun (s, memory) a =>
  (Plugin.step lib s a).map fun (s', e) =>
    ((s', memory.bind fun memory => memory.follow grows s e), e)

def start : Plugin × Option Memory := (Plugin.new, some .new)

/-- Whose string a block is. Those of an entry that another one took the id of
are lost. -/
inductive Owner
  | building
  | lost
  | held (id : UInt32)
  deriving DecidableEq

def Memory.owners (memory : Memory) (lost : List Nat) : Owner → List Nat
  | .building => []
  | .lost => lost
  | .held id => ((memory.results.atId id).map owned).getD []

/-- The rows in memory are those of the entries in the registry, and every block
in use is a string of one of them or is lost. -/
structure Backed (results : ResultController ResultEntry) (memory : Memory) (lost : List Nat) :
    Prop where
  latest : memory.results.latestResultId = results.latestResultId
  entries : ∀ id, Option.Rel (fun rows entry => Represents memory.heap rows entry.rows)
    (memory.results.atId id) (results.atId id)
  owned : memory.heap.OwnedBy (memory.owners lost)

def Readable (s : Plugin) (memory : Memory) : Prop :=
  ∀ id entry pointer value, s.resultController.atId id = some entry →
    entry.read pointer = some value →
    ∃ rows row cell, memory.results.atId id = some rows ∧ rows[pointer.row]? = some row ∧
      row.columns[pointer.column]? = some cell ∧ cell.Holds memory.heap value

theorem backed_new : Backed .new .new [] where
  latest := rfl
  entries id := by
    have hm : Memory.new.results.atId id = none := by
      simp [Memory.new, ResultController.new, ResultController.atId]
    have hr : (ResultController.new : ResultController ResultEntry).atId id = none := by
      simp [ResultController.new, ResultController.atId]
    rw [hm, hr]
    exact .none
  owned := by
    have howners : Memory.new.owners [] = fun _ => [] := by
      funext owner
      cases owner <;> simp [Memory.owners, Memory.new, ResultController.new, ResultController.atId]
    rw [howners]
    exact Heap.ownedBy_empty

theorem forall₂_getElem? {α β : Type} {R : α → β → Prop} {l : List α} {l' : List β}
    (h : List.Forall₂ R l l') {n : Nat} {b : β} (hb : l'[n]? = some b) :
    ∃ a, l[n]? = some a ∧ R a b := by
  obtain ⟨hn, rfl⟩ := List.getElem?_eq_some_iff.mp hb
  have hn' : n < l.length := h.length_eq ▸ hn
  exact ⟨l[n], List.getElem?_eq_getElem hn', h.get hn' hn⟩

section

variable {results : ResultController ResultEntry} {memory : Memory} {lost : List Nat}

theorem Backed.readable {s : Plugin} (h : Backed s.resultController memory lost) :
    Readable s memory := by
  intro id entry pointer value hid hread
  have hrel := h.entries id
  rw [hid] at hrel
  generalize hm : memory.results.atId id = found at hrel
  cases hrel with
  | @some rows entry hrows =>
      obtain ⟨info, hinfo, hvalue⟩ := Option.bind_eq_some_iff.mp hread
      obtain ⟨row, hrow, hcells⟩ := forall₂_getElem? hrows hinfo
      obtain ⟨cell, hcell, hholds⟩ := forall₂_getElem? hcells hvalue
      exact ⟨rows, row, cell, rfl, hrow, hcell, hholds⟩

theorem built_of_answer (h : memory.heap.OwnedBy (memory.owners lost)) (grows : Nat → Bool)
    (answer : QueryAnswer) :
    ∃ heap rows, memory.push grows answer = some ⟨heap, (memory.results.push rows).1⟩ ∧
      memory.heap.Extends heap ∧
      Built heap (memory.owners lost) .building rows (entryOf answer).rows := by
  cases hs : answer.storeResult with
  | some queryResult =>
      obtain ⟨heap, rows, hbuild, hextends, hbuilt⟩ :=
        readResult_spec (i := Owner.building) h rfl grows queryResult
      refine ⟨heap, rows, ?_, hextends, by rw [entryOf, hs]; exact hbuilt⟩
      rw [Memory.push, hs]
      exact congrArg (Option.map _) hbuild
  | none =>
      refine ⟨memory.heap, [], by rw [Memory.push, hs]; rfl, .refl _, ?_, by rw [entryOf, hs]; exact .nil⟩
      rw [show owned [] = memory.owners lost .building from rfl, Function.update_eq_self]
      exact h

theorem rel_imp {α β : Type} {R S : α → β → Prop} {x : Option α} {y : Option β}
    (h : Option.Rel R x y) (hi : ∀ a b, x = some a → R a b → S a b) : Option.Rel S x y := by
  cases h with
  | some hr => exact .some (hi _ _ rfl hr)
  | none => exact .none

theorem owners_push (memory : Memory) (lost : List Nat) (heap : Heap Bytes) (rows : List RowCells) :
    let held := Owner.held (memory.results.latestResultId + 1)
    let built := Function.update (memory.owners lost) .building (owned rows)
    let kept := Function.update (Function.update built held []) .lost (built .lost ++ built held)
    Memory.owners ⟨heap, (memory.results.push rows).1⟩ (lost ++ memory.owners lost held) =
      Function.update (Function.update kept .building []) held (kept held ++ kept .building) := by
  intro held built kept
  funext owner
  cases owner with
  | building | lost => simp [Memory.owners, held, built, kept]
  | held j =>
      by_cases hj : memory.results.latestResultId + 1 = j
      · subst hj
        simp [Memory.owners, ResultController.atId_push, held, built, kept]
      · have hne : Owner.held j ≠ held := fun he => hj (Owner.held.inj he).symm
        simp [Memory.owners, ResultController.atId_push, hj, hne, built, kept]

theorem owners_free (memory : Memory) (lost : List Nat) (heap : Heap Bytes) (id : UInt32) :
    Memory.owners ⟨heap, (memory.results.free id).1⟩ lost =
      Function.update (memory.owners lost) (.held id) [] := by
  funext owner
  cases owner with
  | building | lost => simp [Memory.owners]
  | held j =>
      by_cases hj : id = j
      · subst hj
        simp [Memory.owners, ResultController.atId_free]
      · have hne : Owner.held j ≠ .held id := fun he => hj (Owner.held.inj he).symm
        rw [Function.update_of_ne hne]
        simp [Memory.owners, ResultController.atId_free, hj]

theorem Backed.push (h : Backed results memory lost) (grows : Nat → Bool) (answer : QueryAnswer) :
    ∃ memory' lost', memory.push grows answer = some memory' ∧
      Backed (results.push (entryOf answer)).1 memory' lost' ∧
      (results.atId (results.latestResultId + 1) = none → lost' = lost) := by
  obtain ⟨heap, rows, hpush, hextends, hbuilt⟩ := built_of_answer h.owned grows answer
  let held := Owner.held (memory.results.latestResultId + 1)
  refine ⟨_, lost ++ memory.owners lost held, hpush, ⟨by simp [h.latest], fun j => ?_, ?_⟩, ?_⟩
  · rw [ResultController.atId_push, ResultController.atId_push, h.latest]
    split_ifs
    · exact .some hbuilt.represents
    · exact rel_imp (h.entries j) fun _ _ _ hrows => hrows.extends hextends
  · rw [owners_push]
    exact (hbuilt.owned.give (i := held) (j := .lost) (by simp [held])).give (by simp)
  · intro hnone
    have hrel := h.entries (memory.results.latestResultId + 1)
    rw [h.latest, hnone] at hrel
    generalize hm : memory.results.atId (results.latestResultId + 1) = found at hrel
    cases hrel
    simp [Memory.owners, held, h.latest, hm]

theorem Backed.free (h : Backed results memory lost) (id : UInt32) :
    ∃ memory', memory.free id = some memory' ∧ Backed (results.free id).1 memory' lost := by
  have hrel := h.entries id
  generalize hm : memory.results.atId id = found, hr : results.atId id = entry at hrel
  cases hrel with
  | none =>
      refine ⟨memory, by rw [Memory.free, hm], by simp [h.latest], fun j => ?_, h.owned⟩
      rw [ResultController.atId_free]
      split_ifs with hj
      · rw [← hj, hm]
        exact .none
      · exact h.entries j
  | @some rows entry hrows =>
      obtain ⟨heap, hfree, howned, hread⟩ := h.owned.freeAll (.held id)
      have hheld : memory.owners lost (.held id) = RowMemory.owned rows := by simp [Memory.owners, hm]
      rw [hheld, ← hrows.destroyRows_eq] at hfree
      refine ⟨⟨heap, (memory.results.free id).1⟩, ?_, by simp [h.latest], fun j => ?_, ?_⟩
      · simp only [Memory.free, hm]
        rw [hfree, Option.map_some]
      · rw [ResultController.atId_free, ResultController.atId_free]
        split_ifs with hj
        · exact .none
        · refine rel_imp (h.entries j) fun rows' _ hrows' hold => ?_
          refine hold.congr fun a ha block hb => ?_
          have hmem : a ∈ memory.owners lost (.held j) := by simpa [Memory.owners, hrows'] using ha
          rw [hread _ (fun he => hj (Owner.held.inj he).symm) a hmem, hb]
      · rw [owners_free]
        exact howned

theorem Backed.fetch (h : Backed results memory lost) (id : UInt32) :
    Backed (results.update id (·.fetchRow.2)) memory lost := by
  refine ⟨by rw [ResultController.latestResultId_update, h.latest], fun j => ?_, h.owned⟩
  rw [ResultController.atId_update]
  split_ifs
  · have hrel := h.entries j
    generalize memory.results.atId j = found, results.atId j = entry at hrel
    cases hrel with
    | some hrows => exact .some hrows
    | none => exact .none
  · exact h.entries j

end

theorem foldl_unregistered {id : UInt32} {tr : List PluginEvent}
    (h : id ∉ (registered tr).map (·.id)) : tr.foldl (entryStep id) none = none := by
  induction tr using List.reverseRecOn with
  | nil => rfl
  | append_singleton tr e ih =>
      rw [registered_snoc, List.map_append, List.mem_append, not_or] at h
      rw [List.foldl_append, ih h.1, List.foldl_cons, List.foldl_nil, entryStep]
      split_ifs
      · rfl
      · rfl
      · cases hr : registeredAt e with
        | none => rfl
        | some r =>
            have hne : r.id ≠ id := by
              rintro rfl
              exact h.2 (by simp [hr])
            exact if_neg hne

theorem answer_of_registered {s s' : Plugin} {e : PluginEvent} {r : Registered}
    (h : HostsStep s s' e) (hr : registeredAt e = some r) :
    ∃ answer, heldAnswer s r.pointer = some answer ∧ r.entry = entryOf answer := by
  rw [registeredAt] at hr
  split at hr
  next p now information entry id he =>
    cases hr
    cases h with
    | same hn => simp [hn] at he
    | created script connectionId request hc => simp [hc] at he
    | moved q host host' a ev hh hs he' =>
        cases he'.symm.trans he
        cases (hostStep_of_step hs).2 with
        | client results input _ c hc =>
            cases hc with
            | register _ caller answer _ _ hp hf =>
                refine ⟨answer, by simp [heldAnswer, hh, hp], ?_⟩
                have hq := doQuery_feedback ⟨information, caller.executionType, answer, none⟩
                rw [hf] at hq
                split_ifs at hq
                exact Feedback.succeeded.inj hq
  next => cases hr

theorem backed_step {lib : Externals} {grows : Nat → Bool} {s s' : Plugin} {a : PluginAction}
    {e : PluginEvent} {memory : Memory} {lost : List Nat}
    (h : Plugin.step lib s a = some (s', e)) (hb : Backed s.resultController memory lost) :
    ∃ memory' lost', memory.follow grows s e = some memory' ∧
      Backed s'.resultController memory' lost' ∧
      ((∀ r, registeredAt e = some r → s.resultController.atId r.id = none) → lost' = lost) := by
  cases hfree : freedAt e with
  | some id =>
      unfold freedAt at hfree
      split at hfree <;> cases hfree
      have ho := outcome_of_returned (by simp) h
      cases ho
      obtain ⟨memory', hfollow, hbacked⟩ := hb.free _
      exact ⟨memory', lost, hfollow, hbacked, fun _ => rfl⟩
  | none =>
      cases resultsStep_of_pluginStep (pluginStep_of_step h) with
      | same hr hsame =>
          exact ⟨memory, lost, by simp [Memory.follow, hfree, hr], by rwa [hsame], fun _ => rfl⟩
      | registered r hr hid hpush =>
          obtain ⟨answer, hanswer, hentry⟩ := answer_of_registered (hostsStep_of_pluginStep (pluginStep_of_step h)) hr
          obtain ⟨memory', lost', hfollow, hbacked, hlost⟩ := hb.push grows answer
          refine ⟨memory', lost', ?_, by rwa [hpush, hentry], fun hn => hlost (hid ▸ hn r hr)⟩
          simp [Memory.follow, hfree, hr, hanswer, hfollow]
      | freed id hr hn hf => cases hfree.symm.trans hf
      | fetched id hr hn hf hupdate =>
          exact ⟨memory, lost, by simp [Memory.follow, hfree, hr], by rw [hupdate]; exact hb.fetch id,
            fun _ => rfl⟩

theorem step_eq {lib : Externals} {grows : Nat → Bool} {m m' : Plugin × Option Memory}
    {a : PluginAction} {e : PluginEvent} (h : step lib grows m a = some (m', e)) :
    Plugin.step lib m.1 a = some (m'.1, e) ∧
      m'.2 = m.2.bind fun memory => memory.follow grows m.1 e := by
  obtain ⟨p, hp, he⟩ := Option.map_eq_some_iff.mp h
  cases he
  exact ⟨hp, rfl⟩

theorem reach_plugin {lib : Externals} {grows : Nat → Bool} {tr : List PluginEvent}
    {m : Plugin × Option Memory} (hr : Reach (step lib grows) start tr m) :
    Reach (Plugin.step lib) Plugin.new tr m.1 := by
  induction hr with
  | start => exact .start
  | step _ hs ih => exact ih.step (step_eq hs).1

theorem reach_backed {lib : Externals} {grows : Nat → Bool} {tr : List PluginEvent}
    {m : Plugin × Option Memory} (hr : Reach (step lib grows) start tr m) :
    ∃ memory lost, m.2 = some memory ∧ Backed m.1.resultController memory lost ∧
      ((registered tr).length < 2 ^ 32 → lost = []) := by
  induction hr with
  | start => exact ⟨.new, [], rfl, backed_new, fun _ => rfl⟩
  | @step tr m a m' e hr hs ih =>
      obtain ⟨memory, lost, hm, hbacked, hlost⟩ := ih
      obtain ⟨hstep, hm'⟩ := step_eq hs
      obtain ⟨memory', lost', hfollow, hbacked', hlost'⟩ := @backed_step lib grows _ _ _ _ _ _ hstep hbacked
      refine ⟨memory', lost', by rw [hm', hm, Option.bind_some, hfollow], hbacked', fun hb => ?_⟩
      have hplugin := reach_plugin hr
      have hnodup := (reach_numbered (hplugin.step hstep)).nodup hb
      rw [registered_snoc, List.length_append] at hb
      rw [hlost', hlost (by omega)]
      intro r hreg
      rw [reach_atId hplugin, foldl_unregistered]
      rw [registered_snoc, hreg, List.map_append] at hnodup
      intro hmem
      exact hnodup.disjoint hmem (by simp)

/-- In every run no string is given back twice, none is written past its end and
none is read after it was given back: every registered entry has its rows in
memory, with the strings that the natives are to read, and every block in use is
one string of one registered entry. However the vectors of rows grow, their moves
free nothing. Only from the 2^32th registration on can blocks be lost. -/
theorem strings_held_once (lib : Externals) (grows : Nat → Bool) (acts : List PluginAction) :
    ∃ memory lost, (run (step lib grows) start acts).2.2 = some memory ∧
      Backed (run (step lib grows) start acts).2.1.resultController memory lost ∧
      Readable (run (step lib grows) start acts).2.1 memory ∧
      ((registered (run (step lib grows) start acts).1).length < 2 ^ 32 → lost = []) := by
  obtain ⟨memory, lost, hm, hbacked, hlost⟩ := reach_backed (reach_run (step lib grows) start acts)
  exact ⟨memory, lost, hm, hbacked, hbacked.readable, hlost⟩

end MysqlPlugin.HeldStrings
