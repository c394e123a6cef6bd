import MysqlPlugin.ResultController
import MysqlPlugin.Transition

namespace MysqlPlugin.ResultRegistry

open Transition

variable {Entry : Type}

inductive Call (Entry : Type)
  | push (entry : Entry)
  | free (resultId : UInt32)
  | atId (resultId : UInt32)

/-- A call that has returned. free deletes the entry that find led it to. -/
inductive Event (Entry : Type)
  | pushed (entry : Entry) (resultId : UInt32)
  | freed (resultId : UInt32) (deleted : Option Entry) (value : Cell)
  | found (resultId : UInt32) (result : Option Entry)

/-- The mutex makes each call one step, in the order in which the threads get it. -/
def step : Machine (ResultController Entry) (Call Entry) (Event Entry) := fun controller call =>
  match call with
  | .push entry =>
      let (controller', resultId) := controller.push entry
      some (controller', .pushed entry resultId)
  | .free resultId =>
      let (controller', value) := controller.free resultId
      some (controller', .freed resultId (controller.atId resultId) value)
  | .atId resultId => some (controller, .found resultId (controller.atId resultId))

def pushed : Event Entry → Option Entry
  | .pushed entry _ => some entry
  | _ => none

def pushes (tr : List (Event Entry)) : List Entry := tr.filterMap pushed

def touches (id : UInt32) : Event Entry → Prop
  | .pushed _ resultId => resultId = id
  | .freed resultId _ _ => resultId = id
  | .found _ _ => False

/-- The latest push that returned this id is the one after n others, it was given
this entry, and the id has not been freed since. -/
def Holds (tr : List (Event Entry)) (id : UInt32) (n : Nat) (entry : Entry) : Prop :=
  ∃ before since, tr = before ++ .pushed entry id :: since ∧ (pushes before).length = n ∧
    ∀ e ∈ since, ¬ touches id e

def Deleted (tr : List (Event Entry)) (n : Nat) : Prop :=
  ∃ before id entry value since, tr = before ++ .freed id (some entry) value :: since ∧
    Holds before id n entry

theorem pushes_snoc (tr : List (Event Entry)) (e : Event Entry) :
    pushes (tr ++ [e]) = pushes tr ++ (pushed e).toList :=
  filterMap_snoc pushed tr e

theorem cases_snoc {β : Type} {tr before since : List β} {e a : β}
    (h : tr ++ [e] = before ++ a :: since) :
    (tr = before ∧ e = a ∧ since = []) ∨
      ∃ since', tr = before ++ a :: since' ∧ since = since' ++ [e] := by
  rcases List.eq_nil_or_concat' since with rfl | ⟨since', b, rfl⟩
  · obtain ⟨rfl, he⟩ := List.append_inj' h rfl
    exact .inl ⟨rfl, List.singleton_inj.mp he, rfl⟩
  · have h' : tr ++ [e] = (before ++ a :: since') ++ [b] := by simpa using h
    obtain ⟨rfl, he⟩ := List.append_inj' h' rfl
    exact .inr ⟨since', rfl, by rw [List.singleton_inj.mp he]⟩

theorem holds_snoc {tr : List (Event Entry)} {e : Event Entry} {id : UInt32} {n : Nat}
    {entry : Entry} :
    Holds (tr ++ [e]) id n entry ↔
      e = .pushed entry id ∧ (pushes tr).length = n ∨ ¬ touches id e ∧ Holds tr id n entry := by
  constructor
  · rintro ⟨before, since, h, hn, hs⟩
    rcases cases_snoc h with ⟨rfl, he, -⟩ | ⟨since', rfl, rfl⟩
    · exact .inl ⟨he, hn⟩
    · rw [List.forall_mem_append] at hs
      exact .inr ⟨hs.2 e (List.mem_singleton.mpr rfl), before, since', rfl, hn, hs.1⟩
  · rintro (⟨rfl, hn⟩ | ⟨he, before, since, rfl, hn, hs⟩)
    · exact ⟨tr, [], rfl, hn, by simp⟩
    · refine ⟨before, since ++ [e], by simp, hn, ?_⟩
      rw [List.forall_mem_append]
      exact ⟨hs, by simpa using he⟩

theorem deleted_snoc {tr : List (Event Entry)} {e : Event Entry} {n : Nat} :
    Deleted (tr ++ [e]) n ↔
      Deleted tr n ∨ ∃ id entry value, e = .freed id (some entry) value ∧ Holds tr id n entry := by
  constructor
  · rintro ⟨before, id, entry, value, since, h, hh⟩
    rcases cases_snoc h with ⟨rfl, he, -⟩ | ⟨since', rfl, -⟩
    · exact .inr ⟨id, entry, value, he, hh⟩
    · exact .inl ⟨before, id, entry, value, since', rfl, hh⟩
  · rintro (⟨before, id, entry, value, since, rfl, hh⟩ | ⟨id, entry, value, rfl, hh⟩)
    · exact ⟨before, id, entry, value, since ++ [e], by simp, hh⟩
    · exact ⟨tr, id, entry, value, [], rfl, hh⟩

/-- The registry after these events: what it holds under an id is the entry that the
events leave there, and that entry was pushed at most a lap of the counter ago. -/
structure Registry (tr : List (Event Entry)) (controller : ResultController Entry) : Prop where
  latest : controller.latestResultId = UInt32.ofNat (pushes tr).length
  held : ∀ id entry, controller.atId id = some entry ↔ ∃ n, Holds tr id n entry
  recent : ∀ {id n entry}, Holds tr id n entry →
    id = idOf n ∧ n < (pushes tr).length ∧ (pushes tr).length ≤ n + 2 ^ 32
  deleted : ∀ {n}, Deleted tr n → n < (pushes tr).length ∧ ∀ id entry, ¬ Holds tr id n entry

theorem registry_new : Registry ([] : List (Event Entry)) .new where
  latest := rfl
  held := by simp [ResultController.new, ResultController.atId, Holds]
  recent := by simp [Holds]
  deleted := by simp [Deleted]

theorem idOf_add_lap (n : Nat) : idOf (n + 2 ^ 32) = idOf n := by
  rw [idOf, idOf, ← UInt32.toNat_inj, UInt32.toNat_ofNat', UInt32.toNat_ofNat']
  omega

theorem Registry.push {tr : List (Event Entry)} {controller : ResultController Entry}
    (hr : Registry tr controller) (entry : Entry) :
    Registry (tr ++ [.pushed entry (controller.push entry).2]) (controller.push entry).1 := by
  have hid : controller.latestResultId + 1 = idOf (pushes tr).length := by rw [hr.latest, idOf_eq]
  have hp : (controller.push entry).2 = idOf (pushes tr).length := hid
  have hlen : (pushes (tr ++ [.pushed entry (controller.push entry).2])).length =
      (pushes tr).length + 1 := by simp [pushes_snoc, pushed]
  refine ⟨?_, ?_, ?_, ?_⟩
  · rw [hlen, ResultController.latestResultId_push, hid, idOf]
  · intro id entry'
    rw [ResultController.atId_push, hid, hp]
    simp only [holds_snoc, touches]
    split_ifs with hi
    · simp [hi]
    · simp [hi, hr.held]
  · intro id n entry' hh
    rw [hlen]
    rcases holds_snoc.mp hh with ⟨he, rfl⟩ | ⟨ht, hh⟩
    · cases he
      exact ⟨hid, by omega, by omega⟩
    · obtain ⟨rfl, hlt, hle⟩ := hr.recent hh
      -- the push that would come a lap after this one returns the same id
      have hne : (pushes tr).length ≠ n + 2 ^ 32 := by
        intro hn
        refine ht ?_
        rw [touches, hp, hn, idOf_add_lap]
      exact ⟨rfl, by omega, by omega⟩
  · intro n hd
    rw [hlen]
    rcases deleted_snoc.mp hd with hd | ⟨_, _, _, he, -⟩
    · obtain ⟨hlt, hnone⟩ := hr.deleted hd
      refine ⟨by omega, fun id entry' hh => ?_⟩
      rcases holds_snoc.mp hh with ⟨-, rfl⟩ | ⟨-, hh⟩
      · exact absurd hlt (Nat.lt_irrefl _)
      · exact hnone id entry' hh
    · cases he

theorem Registry.free {tr : List (Event Entry)} {controller : ResultController Entry}
    (hr : Registry tr controller) (resultId : UInt32) :
    Registry (tr ++ [.freed resultId (controller.atId resultId) (controller.free resultId).2])
      (controller.free resultId).1 := by
  have hlen : pushes (tr ++ [.freed resultId (controller.atId resultId)
      (controller.free resultId).2]) = pushes tr := by simp [pushes_snoc, pushed]
  have hkept : ∀ {id n entry}, Holds (tr ++ [.freed resultId (controller.atId resultId)
      (controller.free resultId).2]) id n entry ↔ resultId ≠ id ∧ Holds tr id n entry := by
    simp [holds_snoc, touches]
  refine ⟨?_, ?_, ?_, ?_⟩
  · rw [hlen, ResultController.latestResultId_free, hr.latest]
  · intro id entry
    rw [ResultController.atId_free]
    simp only [hkept]
    split_ifs with hi <;> simp [hi, hr.held]
  · intro id n entry hh
    rw [hlen]
    exact hr.recent (hkept.mp hh).2
  · intro n hd
    rw [hlen]
    rcases deleted_snoc.mp hd with hd | ⟨id, entry, value, he, hh⟩
    · exact ⟨(hr.deleted hd).1, fun id entry hh => (hr.deleted hd).2 id entry (hkept.mp hh).2⟩
    · obtain ⟨hid, hlt, -⟩ := hr.recent hh
      have hfree : resultId = id := by injection he
      refine ⟨hlt, fun id' entry' hh' => ?_⟩
      obtain ⟨hne, hh'⟩ := hkept.mp hh'
      exact hne (by rw [hfree, hid, (hr.recent hh').1])

theorem Registry.found {tr : List (Event Entry)} {controller : ResultController Entry}
    (hr : Registry tr controller) (resultId : UInt32) (result : Option Entry) :
    Registry (tr ++ [.found resultId result]) controller := by
  have hlen : pushes (tr ++ [.found resultId result]) = pushes tr := by simp [pushes_snoc, pushed]
  have hkept : ∀ {id n entry},
      Holds (tr ++ [.found resultId result]) id n entry ↔ Holds tr id n entry := by
    simp [holds_snoc, touches]
  have hdel : ∀ {n}, Deleted (tr ++ [.found resultId result]) n ↔ Deleted tr n := by
    simp [deleted_snoc]
  refine ⟨?_, ?_, ?_, ?_⟩
  · rw [hlen, hr.latest]
  · simp only [hkept]
    exact hr.held
  · intro id n entry hh
    rw [hlen]
    exact hr.recent (hkept.mp hh)
  · intro n hd
    rw [hlen]
    simp only [hkept]
    exact hr.deleted (hdel.mp hd)

theorem reach_registry {tr : List (Event Entry)} {controller : ResultController Entry}
    (h : Reach step .new tr controller) : Registry tr controller := by
  induction h with
  | start => exact registry_new
  | @step tr controller call controller' e _ hs ih =>
      cases call with
      | push entry => cases hs; exact ih.push entry
      | free resultId => cases hs; exact ih.free resultId
      | atId resultId => cases hs; exact ih.found resultId _

/-- What a call returns: push its number, at the entry that the id holds, and free
whether it holds one, which has then been deleted for the first time. -/
def Answers (past : List (Event Entry)) : Event Entry → Prop
  | .pushed _ id => id.toNat = ((pushes past).length + 1) % 2 ^ 32
  | .freed id deleted value =>
      (∀ entry, deleted = some entry ↔ ∃ n, Holds past id n entry) ∧
        value = (if deleted.isSome then 1 else 0) ∧
        ∀ n entry, Holds past id n entry → ¬ Deleted past n
  | .found id result => ∀ entry, result = some entry ↔ ∃ n, Holds past id n entry

/-- No entry stays unfreed across 2^32 further pushes: the last of them finds it deleted. -/
def FreedInTime (tr : List (Event Entry)) : Prop :=
  Always (fun past e => ∀ entry id, e = .pushed entry id →
    ∀ n, (pushes past).length = n + 2 ^ 32 → Deleted past n) tr

def NeverOverwrites (tr : List (Event Entry)) : Prop :=
  Always (fun past e => ∀ entry id, e = .pushed entry id → ∀ n old, ¬ Holds past id n old) tr

theorem Registry.answers {tr : List (Event Entry)} {controller controller' : ResultController Entry}
    {call : Call Entry} {e : Event Entry} (hr : Registry tr controller)
    (hs : ResultRegistry.step controller call = some (controller', e)) : Answers tr e := by
  cases call with
  | push entry =>
      cases hs
      have hid : controller.latestResultId + 1 = idOf (pushes tr).length := by
        rw [hr.latest, idOf_eq]
      rw [Answers, hid, idOf, UInt32.toNat_ofNat']
  | free resultId =>
      cases hs
      refine ⟨hr.held resultId, ?_, fun n entry hh hd => (hr.deleted hd).2 resultId entry hh⟩
      split
      next h => simp [ResultController.atId, h]
      next h => simp [ResultController.atId, h]
  | atId resultId =>
      cases hs
      exact hr.held resultId

theorem lap_le {m n : Nat} (h : idOf m = idOf n) (hlt : m < n) : m + 2 ^ 32 ≤ n := by
  have hi := congrArg UInt32.toNat h
  simp only [idOf, UInt32.toNat_ofNat'] at hi
  omega

theorem Registry.not_holds {tr : List (Event Entry)} {controller : ResultController Entry}
    (hr : Registry tr controller)
    (hd : ∀ n, (pushes tr).length = n + 2 ^ 32 → Deleted tr n) (n : Nat) (old : Entry) :
    ¬ Holds tr (controller.latestResultId + 1) n old := by
  intro hh
  obtain ⟨hid, hlt, hle⟩ := hr.recent hh
  rw [hr.latest, idOf_eq] at hid
  have hlap : n + 2 ^ 32 ≤ (pushes tr).length := lap_le hid.symm hlt
  have hlen : (pushes tr).length = n + 2 ^ 32 := by omega
  exact (hr.deleted (hd n hlen)).2 _ old hh

theorem reach_neverOverwrites {tr : List (Event Entry)} {controller : ResultController Entry}
    (h : Reach step .new tr controller) (hf : FreedInTime tr) : NeverOverwrites tr := by
  induction h with
  | start => exact always_nil _
  | @step tr controller call controller' e hr hs ih =>
      obtain ⟨hf, hlast⟩ := (always_snoc ..).mp hf
      refine (always_snoc ..).mpr ⟨ih hf, ?_⟩
      rintro entry id rfl n old
      have hid : id = controller.latestResultId + 1 := by
        cases call <;> cases hs
        rfl
      exact hid ▸ (reach_registry hr).not_holds (hlast entry id rfl) n old

/-- The registry in every run of calls. The counter may wrap as often as it will: at and
free are about the latest push that returned the id. Where every entry is freed within
2^32 further pushes, no push takes the id of one that is still there. -/
theorem registry_answers (calls : List (Call Entry)) :
    let r := run step .new calls
    Always Answers r.1 ∧
      (∀ id entry, r.2.atId id = some entry ↔ ∃ n, Holds r.1 id n entry) ∧
      (∀ id id', (r.2.free id).1.atId id' = if id = id' then none else r.2.atId id') ∧
      (FreedInTime r.1 → NeverOverwrites r.1) := by
  have hr := reach_run step (.new : ResultController Entry) calls
  refine ⟨reach_always (fun h hs => (reach_registry h).answers hs) hr, (reach_registry hr).held, ?_,
    reach_neverOverwrites hr⟩
  intro id id'
  exact ResultController.atId_free _ id id'

end MysqlPlugin.ResultRegistry
