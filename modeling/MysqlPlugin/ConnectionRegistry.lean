import MysqlPlugin.HostHistory

namespace MysqlPlugin.ConnectionRegistry

open HostHistory Transition

def Owns (s : Plugin) (pointer : Nat) (amx : Amx) : Prop :=
  ∃ h, s.hosts[pointer]? = some h ∧ h.deleted = false ∧ h.script.runtime = amx

theorem owns_unique {s : Plugin} {p : Nat} {amx owner : Amx} (h : Owns s p amx)
    (h' : Owns s p owner) : amx = owner := by
  obtain ⟨g, hg, -, rfl⟩ := h
  obtain ⟨g', hg', -, rfl⟩ := h'
  cases hg.symm.trans hg'
  rfl

theorem owned_lt {s : Plugin} {p : Nat} {amx : Amx} (h : Owns s p amx) : p < s.hosts.length := by
  obtain ⟨g, hg, -⟩ := h
  exact (List.getElem?_eq_some_iff.mp hg).1

theorem owns_same {s s' : Plugin} (hh : s'.hosts = s.hosts) (p : Nat) (amx : Amx) :
    Owns s' p amx ↔ Owns s p amx := by
  rw [Owns, Owns, hh]

theorem owns_moved {s s' : Plugin} {q : Nat} {h h' : ConnectionHost} {a : HostAction} {e : HostEvent}
    (hh : s.hosts[q]? = some h) (hs : ConnectionHost.step h a = some (h', e))
    (hh' : s'.hosts = s.hosts.set q h') (p : Nat) (amx : Amx) :
    Owns s' p amx ↔ Owns s p amx ∧ ¬ (p = q ∧ e = .destroyed) := by
  have hlt : q < s.hosts.length := (List.getElem?_eq_some_iff.mp hh).1
  obtain ⟨hd, hstep⟩ := hostStep_of_step hs
  have hiff := hstep.deleted_iff hd
  by_cases hp : q = p
  · subst hp
    simp only [Owns, hh', hh, List.getElem?_set_self hlt, Option.some.injEq, exists_eq_left',
      hstep.runtime_eq, hd, true_and, ← hiff, Bool.not_eq_true]
    exact and_comm
  · simp [Owns, hh', List.getElem?_set_ne hp, Ne.symm hp]

theorem owns_created {s s' : Plugin} {h : ConnectionHost} (hh : s'.hosts = s.hosts ++ [h])
    (hd : h.deleted = false) (p : Nat) (amx : Amx) :
    Owns s' p amx ↔ Owns s p amx ∨ p = s.hosts.length ∧ h.script.runtime = amx := by
  rw [Owns, Owns, hh]
  simp only [getElem?_snoc_some]
  constructor
  · rintro ⟨g, hg | ⟨rfl, rfl⟩, hown⟩
    · exact .inl ⟨g, hg, hown⟩
    · exact .inr ⟨rfl, hown.2⟩
  · rintro (⟨g, hg, hown⟩ | ⟨rfl, hrun⟩)
    · exact ⟨g, .inl hg, hown⟩
    · exact ⟨h, .inr ⟨rfl, rfl⟩, hd, hrun⟩

def Awaited (task : Task) (pointer : Nat) : Prop :=
  (∃ amx params, task = .closing amx params pointer) ∨
    ∃ amx id rest, task = .unloading amx ((id, pointer) :: rest)

@[simp] theorem awaited_idle (pointer : Nat) : ¬ Awaited .idle pointer := by
  simp [Awaited]

@[simp] theorem awaited_closing (amx : Amx) (params : List Param) (q pointer : Nat) :
    Awaited (.closing amx params q) pointer ↔ q = pointer := by
  simp [Awaited]

@[simp] theorem awaited_unloading_nil (amx : Amx) (pointer : Nat) :
    ¬ Awaited (.unloading amx []) pointer := by
  simp [Awaited]

@[simp] theorem awaited_unloading_cons (amx : Amx) (id : UInt32) (q : Nat)
    (rest : List (UInt32 × Nat)) (pointer : Nat) :
    Awaited (.unloading amx ((id, q) :: rest)) pointer ↔ q = pointer := by
  simp [Awaited]

section

variable {s s' : Plugin} {q : Nat} {h h' : ConnectionHost}

theorem awaited_set (hh : s.hosts[q]? = some h) (hh' : s'.hosts = s.hosts.set q h')
    (hw : h'.joining = true → Awaited s'.task q)
    (hw' : ∀ p g, p ≠ q → s.hosts[p]? = some g → g.joining = true → Awaited s'.task p) :
    ∀ p g, s'.hosts[p]? = some g → g.joining = true → Awaited s'.task p := by
  intro p g hg hj
  rw [hh', getElem?_set_some hh] at hg
  rcases hg with ⟨rfl, rfl⟩ | ⟨hp, hg⟩
  · exact hw hj
  · exact hw' p g hp.symm hg hj

variable (hwaiting : ∀ p g, s.hosts[p]? = some g → g.joining = true → Awaited s.task p)

include hwaiting

theorem not_joining_of_idle (ht : s.task = .idle) (hh : s.hosts[q]? = some h) : h.joining = false := by
  by_contra hj
  simpa [ht] using hwaiting q h hh (by simpa using hj)

theorem awaited_created (ht : s.task = .idle) {script : Script} {connectionId : UInt32}
    {request : ConnectionInformation}
    (hh : s'.hosts = s.hosts ++ [(ConnectionHost.new script connectionId).connect request]) :
    ∀ p g, s'.hosts[p]? = some g → g.joining = true → Awaited s'.task p := by
  intro p g hg hj
  rw [hh, getElem?_snoc_some] at hg
  rcases hg with hg | ⟨rfl, rfl⟩
  · simp [not_joining_of_idle hwaiting ht hg] at hj
  · simp [ConnectionHost.joining, ConnectionHost.connect, ConnectionHost.new, ConnectionClient.new] at hj

theorem awaited_destroyed {amx : Amx} {id : UInt32} {remaining : List (UInt32 × Nat)} {e : HostEvent}
    (ht : s.task = .unloading amx ((id, q) :: remaining)) (hh : s.hosts[q]? = some h)
    (hs : ConnectionHost.step h .destroy = some (h', e)) (hh' : s'.hosts = s.hosts.set q h') :
    ∀ p g, s'.hosts[p]? = some g → g.joining = true → Awaited s'.task p := by
  apply awaited_set hh hh'
  · intro hj
    cases (hostStep_of_step hs).2 with
    | destroy hr => simp [ConnectionHost.joining, hr] at hj
  · intro p g hp hg hj
    have hw := hwaiting p g hg hj
    rw [ht, awaited_unloading_cons] at hw
    exact absurd hw.symm hp

end

/-- The id is that of a host which the unload under way does not take. -/
def Lasting (s : Plugin) (task : Task) (id : UInt32) : Prop :=
  ∃ p amx, id = idOf p ∧ Owns s p amx ∧ ∀ rest, task ≠ .unloading amx rest

def Removes (s : Plugin) (amx : Amx) (rest : List (UInt32 × Nat)) : Prop :=
  rest.Nodup ∧ ∀ id p, (id, p) ∈ rest ↔ id = idOf p ∧ Owns s p amx

/-- The registry of the plugin while no id is given twice: the map holds the hosts
that are there, the iterator stays on one of them, and an unload goes through
those of its script. -/
structure Consistent (s : Plugin) : Prop where
  latest : s.connectionController.latestConnectionId = UInt32.ofNat s.hosts.length
  ids : ∀ p h, s.hosts[p]? = some h → h.connectionId = idOf p
  mapped : ∀ id p, s.connectionController.connection id = some p ↔
    id = idOf p ∧ ∃ amx, Owns s p amx
  waiting : ∀ p h, s.hosts[p]? = some h → h.joining = true → Awaited s.task p
  iterator : ∀ id, s.iterator = some id → Lasting s s.task id
  removal : ∀ amx rest, s.task = .unloading amx rest → Removes s amx rest

/-- The condition on the steps: no script is unloaded while one of its own
callbacks runs. -/
def NotFromInside (_ : List PluginEvent) (s : Plugin) : PluginAction → Prop
  | .amxUnload amx => s.visited.all (·.script.runtime != amx) = true
  | _ => True

instance (tr : List PluginEvent) (s : Plugin) : (a : PluginAction) → Decidable (NotFromInside tr s a)
  | .amxUnload amx => inferInstanceAs (Decidable (s.visited.all (·.script.runtime != amx) = true))
  | .native _ _ _ | .resume | .processTick | .tick _ | .client _ _ => inferInstanceAs (Decidable True)

theorem consistent_new : Consistent Plugin.new := by
  constructor <;> simp [Plugin.new, ConnectionController.new, ConnectionController.connection, Owns]

namespace Consistent

variable {s s' : Plugin}

theorem not_joining (hk : Consistent s) (ht : s.task = .idle) {p : Nat} {h : ConnectionHost}
    (hh : s.hosts[p]? = some h) : h.joining = false :=
  not_joining_of_idle hk.waiting ht hh

theorem no_useAfterFree (hk : Consistent s) {a : PluginAction} {e : PluginEvent}
    (h : PluginStep s a e s') : e ≠ .useAfterFree := by
  cases h with
  | staleHandle amx native params id p ht hc hh =>
      obtain ⟨-, owner, h, hp, hd, -⟩ := (hk.mapped id p).mp hc
      rcases hh h hp with hd' | hj
      · simp [hd] at hd'
      · simp [hk.not_joining ht hp] at hj
  | staleIterator publics id ht hi hh =>
      obtain ⟨p, owner, hid, ⟨h, hp, hd, hr⟩, -⟩ := hk.iterator id hi
      have hc := (hk.mapped id p).mpr ⟨hid, owner, h, hp, hd, hr⟩
      simp [hh p h hc hp] at hd
  | staleRemoval amx id p remaining ht hh =>
      obtain ⟨-, h, hp, hd, -⟩ := ((hk.removal amx _ ht).2 id p).mp (List.mem_cons_self ..)
      simp [hh h hp] at hd
  | _ => simp

theorem ids_set (hk : Consistent s) {q : Nat} {h h' : ConnectionHost} {a : HostAction} {e : HostEvent}
    (hh : s.hosts[q]? = some h) (hs : ConnectionHost.step h a = some (h', e)) (p : Nat)
    (g : ConnectionHost) (hg : (s.hosts.set q h')[p]? = some g) : g.connectionId = idOf p := by
  rcases (getElem?_set_some hh).mp hg with ⟨rfl, rfl⟩ | ⟨-, hg⟩
  · rw [(hostStep_of_step hs).2.connectionId_eq]
    exact hk.ids q h hh
  · exact hk.ids p g hg

theorem move (hk : Consistent s) (ho : ∀ p amx, Owns s' p amx ↔ Owns s p amx)
    (hl : s'.hosts.length = s.hosts.length)
    (hc : s'.connectionController = s.connectionController)
    (hids : ∀ p h, s'.hosts[p]? = some h → h.connectionId = idOf p)
    (hw : ∀ p h, s'.hosts[p]? = some h → h.joining = true → Awaited s'.task p)
    (hi : ∀ id, s'.iterator = some id → Lasting s s'.task id)
    (hr : ∀ amx rest, s'.task = .unloading amx rest → Removes s amx rest) : Consistent s' := by
  refine ⟨?_, hids, ?_, hw, ?_, ?_⟩
  · rw [hc, hl]
    exact hk.latest
  · simpa only [hc, ho] using hk.mapped
  · simpa only [Lasting, ho] using hi
  · simpa only [Removes, ho] using hr

theorem same (hk : Consistent s) (hh : s'.hosts = s.hosts)
    (hc : s'.connectionController = s.connectionController)
    (hw : ∀ p h, s.hosts[p]? = some h → h.joining = true → Awaited s'.task p)
    (hi : ∀ id, s'.iterator = some id → Lasting s s'.task id)
    (hr : ∀ amx rest, s'.task = .unloading amx rest → Removes s amx rest) : Consistent s' :=
  hk.move (owns_same hh) (by rw [hh]) hc (by rw [hh]; exact hk.ids) (by rw [hh]; exact hw) hi hr

theorem moved (hk : Consistent s) {q : Nat} {h h' : ConnectionHost} {a : HostAction} {e : HostEvent}
    (hh : s.hosts[q]? = some h) (hs : ConnectionHost.step h a = some (h', e)) (hne : e ≠ .destroyed)
    (hh' : s'.hosts = s.hosts.set q h')
    (hc : s'.connectionController = s.connectionController)
    (hw : h'.joining = true → Awaited s'.task q)
    (hw' : ∀ p g, p ≠ q → s.hosts[p]? = some g → g.joining = true → Awaited s'.task p)
    (hi : ∀ id, s'.iterator = some id → Lasting s s'.task id)
    (hr : ∀ amx rest, s'.task = .unloading amx rest → Removes s amx rest) : Consistent s' := by
  refine hk.move (fun p amx => ?_) (by rw [hh', List.length_set]) hc ?_ ?_ hi hr
  · rw [owns_moved hh hs hh']
    simp [hne]
  · rw [hh']
    exact hk.ids_set hh hs
  · exact awaited_set hh hh' hw hw'

theorem moved_idle (hk : Consistent s) (ht : s.task = .idle) {q : Nat} {h h' : ConnectionHost}
    {a : HostAction} {e : HostEvent} (hh : s.hosts[q]? = some h)
    (hs : ConnectionHost.step h a = some (h', e)) (hne : e ≠ .destroyed)
    (hh' : s'.hosts = s.hosts.set q h')
    (hc : s'.connectionController = s.connectionController)
    (hw : h'.joining = true → ∃ amx params, s'.task = .closing amx params q)
    (hi : ∀ id, s'.iterator = some id → ∃ p amx, id = idOf p ∧ Owns s p amx)
    (hr : ∀ amx rest, s'.task ≠ .unloading amx rest) : Consistent s' := by
  refine hk.moved hh hs hne hh' hc (fun hj => .inl (hw hj)) ?_ ?_ ?_
  · intro p g _ hg hj
    simp [hk.not_joining ht hg] at hj
  · intro id hid
    obtain ⟨p, amx, he, ho⟩ := hi id hid
    exact ⟨p, amx, he, ho, hr amx⟩
  · exact fun amx rest hu => absurd hu (hr amx rest)

theorem iterator_live (hk : Consistent s) (id : UInt32) (hi : s.iterator = some id) :
    ∃ p amx, id = idOf p ∧ Owns s p amx := by
  obtain ⟨p, amx, he, ho, -⟩ := hk.iterator id hi
  exact ⟨p, amx, he, ho⟩

theorem key_live (hk : Consistent s) {id : UInt32} (h : id ∈ s.connectionController.connections.keys) :
    ∃ p amx, id = idOf p ∧ Owns s p amx := by
  obtain ⟨p, hp⟩ := ConnectionController.mem_keys.mp h
  obtain ⟨he, amx, ho⟩ := (hk.mapped id p).mp hp
  exact ⟨p, amx, he, ho⟩

theorem created (hk : Consistent s) (ht : s.task = .idle) (hlt : s.hosts.length + 1 < 2 ^ 32)
    (amx : Amx) (request : ConnectionInformation)
    (hc : s'.connectionController = (s.connectionController.connect s.hosts.length).1)
    (hh : s'.hosts = s.hosts ++ [(ConnectionHost.new (Script.new amx)
      (s.connectionController.connect s.hosts.length).2).connect request])
    (ht' : s'.task = s.task) (hi : s'.iterator = s.iterator) : Consistent s' := by
  have hid : s.connectionController.latestConnectionId + 1 = idOf s.hosts.length := by
    rw [hk.latest, idOf_eq]
  have ho := owns_created hh rfl
  refine ⟨?_, ?_, ?_, ?_, ?_, ?_⟩
  · rw [hc, hh, ConnectionController.connect, hid, List.length_append]
    rfl
  · intro p g hg
    rw [hh, getElem?_snoc_some] at hg
    rcases hg with hg | ⟨rfl, rfl⟩
    · exact hk.ids p g hg
    · exact hid
  · intro id p
    rw [hc, ConnectionController.connection_connect, hid]
    simp only [ho]
    split_ifs with hi
    · subst hi
      constructor
      · intro hp
        cases hp
        exact ⟨rfl, amx, .inr ⟨rfl, rfl⟩⟩
      · rintro ⟨he, owner, hown | ⟨rfl, -⟩⟩
        · have hp := owned_lt hown
          have hl := idOf_inj hlt (by omega) he
          omega
        · rfl
    · rw [hk.mapped]
      constructor
      · rintro ⟨rfl, owner, hown⟩
        exact ⟨rfl, owner, .inl hown⟩
      · rintro ⟨rfl, owner, hown | ⟨rfl, -⟩⟩
        · exact ⟨rfl, owner, hown⟩
        · exact absurd rfl hi
  · exact awaited_created hk.waiting ht hh
  · intro id hid'
    obtain ⟨p, owner, he, hown, hn⟩ := hk.iterator id (hi ▸ hid')
    exact ⟨p, owner, he, (ho p owner).mpr (.inl hown), by rwa [ht']⟩
  · intro amx rest hu
    simp [ht', ht] at hu

theorem destroyed (hk : Consistent s) (hlt : s.hosts.length < 2 ^ 32) {amx : Amx} {id : UInt32}
    {q : Nat} {remaining : List (UInt32 × Nat)} {h h' : ConnectionHost} {e : HostEvent}
    (ht : s.task = .unloading amx ((id, q) :: remaining)) (hh : s.hosts[q]? = some h)
    (hs : ConnectionHost.step h .destroy = some (h', e))
    (hh' : s'.hosts = s.hosts.set q h')
    (hc : s'.connectionController = s.connectionController.erase id)
    (ht' : s'.task = .unloading amx remaining) (hi : s'.iterator = s.iterator) : Consistent s' := by
  have he : e = .destroyed := by
    cases (hostStep_of_step hs).2
    rfl
  have ho := owns_moved hh hs hh'
  simp only [he, and_true] at ho
  obtain ⟨hnd, hmem⟩ := hk.removal amx _ ht
  rw [List.nodup_cons] at hnd
  obtain ⟨rfl, hown⟩ := (hmem id q).mp (List.mem_cons_self ..)
  have hinj {p : Nat} {owner : Amx} (h : Owns s p owner) (hp : idOf p = idOf q) : p = q :=
    idOf_inj (by have := owned_lt h; omega) (by have := owned_lt hown; omega) hp
  refine ⟨?_, ?_, ?_, ?_, ?_, ?_⟩
  · rw [hc, hh', List.length_set]
    exact hk.latest
  · rw [hh']
    exact hk.ids_set hh hs
  · intro id p
    rw [hc, ConnectionController.connection_erase]
    simp only [ho]
    split_ifs with hi
    · subst hi
      simp only [false_iff, not_and, not_exists]
      rintro hp owner hown' hne
      exact hne (hinj hown' hp.symm)
    · rw [hk.mapped]
      constructor
      · rintro ⟨rfl, owner, hown'⟩
        exact ⟨rfl, owner, hown', fun hp => hi (by rw [hp])⟩
      · rintro ⟨rfl, owner, hown', -⟩
        exact ⟨rfl, owner, hown'⟩
  · exact awaited_destroyed hk.waiting ht hh hs hh'
  · intro id hid
    obtain ⟨p, owner, hid, hown', hn⟩ := hk.iterator id (hi ▸ hid)
    refine ⟨p, owner, hid, (ho p owner).mpr ⟨hown', ?_⟩, ?_⟩
    · intro hp
      subst hp
      rw [owns_unique hown' hown] at hn
      exact hn _ ht
    · intro rest hu
      cases ht'.symm.trans hu
      exact hn _ ht
  · intro amx' rest hu
    cases ht'.symm.trans hu
    refine ⟨hnd.2, fun id p => ?_⟩
    rw [ho]
    constructor
    · intro hm
      obtain ⟨hid, hown'⟩ := (hmem id p).mp (List.mem_cons_of_mem _ hm)
      refine ⟨hid, hown', ?_⟩
      rintro rfl
      exact hnd.1 (hid ▸ hm)
    · rintro ⟨hid, hown', hne⟩
      rcases List.mem_cons.mp ((hmem id p).mpr ⟨hid, hown'⟩) with hm | hm
      · cases hm
        exact absurd rfl hne
      · exact hm

theorem joined (hk : Consistent s) {amx : Amx} {params : List Param} {q : Nat} {h h' : ConnectionHost}
    {e : HostEvent} (ht : s.task = .closing amx params q) (hh : s.hosts[q]? = some h)
    (hs : ConnectionHost.step h .joinThread = some (h', e)) (hh' : s'.hosts = s.hosts.set q h')
    (hc : s'.connectionController = s.connectionController) (ht' : s'.task = .idle)
    (hi : s'.iterator = s.iterator) : Consistent s' := by
  cases (hostStep_of_step hs).2 with
  | join =>
      refine hk.moved hh hs (by simp) hh' hc (by simp [ConnectionHost.joining]) ?_ ?_ (by simp [ht'])
      · intro p g hp hg hj
        have hw := hk.waiting p g hg hj
        rw [ht, awaited_closing] at hw
        exact absurd hw.symm hp
      · intro id hid
        obtain ⟨p, owner, he, hown⟩ := hk.iterator_live id (hi ▸ hid)
        exact ⟨p, owner, he, hown, by simp [ht']⟩

theorem framed (hk : Consistent s) (ht : s.task = .idle) (hi : s.iterator = none) :
    Consistent s.processTick := by
  refine hk.same s.processTick_hosts s.processTick_connectionController ?_ ?_ (by simp [ht])
  · intro p g hg hj
    simp [hk.not_joining ht hg] at hj
  · intro id hid
    have hkey : id ∈ s.connectionController.connections.keys := by
      rw [Plugin.processTick] at hid
      split at hid
      · simp [hi] at hid
      · exact List.mem_of_head? hid
    obtain ⟨p, owner, he, hown⟩ := hk.key_live hkey
    exact ⟨p, owner, he, hown, by simp [ht]⟩

theorem unloads (hk : Consistent s) (ht : s.task = .idle) {amx : Amx}
    (ha : s.visited.all (·.script.runtime != amx) = true) : Consistent (s.amxUnload amx) := by
  refine hk.same rfl rfl ?_ ?_ ?_
  · intro p g hg hj
    simp [hk.not_joining ht hg] at hj
  · intro id hi
    obtain ⟨p, owner, he, hown⟩ := hk.iterator_live id hi
    refine ⟨p, owner, he, hown, fun rest hu => ?_⟩
    -- none of the callbacks of this script runs, so the iterator is on a host of another one
    have hc := (hk.mapped id p).mpr ⟨he, owner, hown⟩
    obtain ⟨g, hg, -, hrun⟩ := hown
    have hi' : s.iterator = some id := hi
    have hne : owner ≠ amx := by
      simpa [Plugin.visited, hi', hc, hg, hrun] using ha
    simp only [Plugin.amxUnload, Task.unloading.injEq] at hu
    exact hne hu.1.symm
  · intro amx' rest hu
    simp only [Plugin.amxUnload, Task.unloading.injEq] at hu
    obtain ⟨rfl, rfl⟩ := hu
    refine ⟨ConnectionController.nodup_removeVector .., fun id p => ?_⟩
    rw [ConnectionController.mem_removeVector, hk.mapped]
    constructor
    · rintro ⟨⟨he, owner, g, hg, hd, -⟩, g', hg', hrun⟩
      cases hg.symm.trans hg'
      exact ⟨he, g, hg, hd, hrun⟩
    · rintro ⟨he, g, hg, hd, hrun⟩
      exact ⟨⟨he, amx, g, hg, hd, hrun⟩, g, hg, hrun⟩

end Consistent

theorem consistent_step {tr : List PluginEvent} {s s' : Plugin} {a : PluginAction} {e : PluginEvent}
    (h : PluginStep s a e s') (ha : NotFromInside tr s a) (hlt : s'.hosts.length < 2 ^ 32)
    (hk : Consistent s) : Consistent s' := by
  cases h with
  | client pointer input h h' e c e' results hh hs hc =>
      cases (hostStep_of_step hs).2 with
      | client _ _ ev c' hcs =>
          refine hk.moved hh hs (by simp) rfl rfl ?_ (fun p g _ => hk.waiting p g) hk.iterator hk.removal
          intro hj
          refine hk.waiting pointer h hh ?_
          simpa [ConnectionHost.joining, hcs.flags_eq.1, hcs.flags_eq.2] using hj
  | quiet amx native params value statementRegistry ht =>
      exact hk.same rfl rfl hk.waiting hk.iterator hk.removal
  | free amx resultId ht | fetch amx resultId value ht =>
      exact hk.same rfl rfl hk.waiting hk.iterator hk.removal
  | connect amx params request ht =>
      exact hk.created ht (by simpa using hlt) amx request rfl rfl rfl rfl
  | query amx native params id pointer request h h' e ht hn hc hh hs =>
      cases (hostStep_of_step hs).2 with
      | query _ hj =>
          refine hk.moved_idle ht hh hs (by simp) rfl rfl ?_ hk.iterator_live (by simp [ht])
          intro hj'
          simp [ConnectionHost.joining] at hj hj'
          simp [hj hj'.1] at hj'
  | stop amx params id pointer h h' e ht hc hh hs =>
      cases (hostStep_of_step hs).2 with
      | requestShutdown =>
          exact hk.moved_idle ht hh hs (by simp) rfl rfl (fun _ => ⟨amx, params, rfl⟩)
            hk.iterator_live (by simp)
  | stopped amx params pointer h h' e ht hh hs =>
      exact hk.joined ht hh hs rfl rfl rfl rfl
  | frame ht hi => exact hk.framed ht hi
  | tick publics id pointer h h' e ht hi hc hh hs =>
      have hstep := (hostStep_of_step hs).2
      have hne : e ≠ .destroyed ∧ e ≠ .shutdownRequested := by cases hstep <;> simp
      refine hk.moved_idle ht hh hs hne.1 rfl rfl ?_ ?_ (by simp [ht])
      · intro hj
        rcases hstep.joining_of hj with ⟨hj, -⟩ | he
        · simp [hk.not_joining ht hh] at hj
        · exact absurd he hne.2
      · intro id' hid
        split at hid
        · exact hk.key_live (List.mem_of_find?_eq_some hid)
        · exact hk.iterator_live id' (hi.trans hid)
  | unload amx ht => exact hk.unloads ht ha
  | halt amx id pointer remaining h h' a e ht ha hh hs =>
      have hne : e ≠ .destroyed := by
        rintro rfl
        cases (hostStep_of_step hs).2
        simp at ha
      exact hk.moved hh hs hne rfl rfl (fun _ => .inr ⟨amx, id, remaining, ht⟩)
        (fun p g _ => hk.waiting p g) hk.iterator hk.removal
  | destroy amx id pointer remaining h h' e ht hh hs =>
      exact hk.destroyed (by simpa using hlt) ht hh hs rfl rfl rfl rfl
  | unloaded amx ht =>
      refine hk.same rfl rfl ?_ ?_ (by simp)
      · intro p g hg hj
        simpa [ht] using hk.waiting p g hg hj
      · intro id hi
        obtain ⟨p, owner, he, hown⟩ := hk.iterator_live id hi
        exact ⟨p, owner, he, hown, by simp⟩
  | undefinedBehaviour amx native params ht =>
      refine hk.same rfl rfl ?_ ?_ (by simp [Plugin.crash])
      · intro p g hg hj
        simp [hk.not_joining ht hg] at hj
      · intro id hi
        obtain ⟨p, owner, he, hown⟩ := hk.iterator_live id hi
        exact ⟨p, owner, he, hown, by simp [Plugin.crash]⟩
  | staleHandle amx native params id p ht hc hh =>
      exact absurd rfl (hk.no_useAfterFree (.staleHandle amx native params id p ht hc hh))
  | staleIterator publics id ht hi hh =>
      exact absurd rfl (hk.no_useAfterFree (.staleIterator publics id ht hi hh))
  | staleRemoval amx id p remaining ht hh =>
      exact absurd rfl (hk.no_useAfterFree (.staleRemoval amx id p remaining ht hh))

end MysqlPlugin.ConnectionRegistry
