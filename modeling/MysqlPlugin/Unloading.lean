import MysqlPlugin.AcceptedQueries
import MysqlPlugin.BoundedWaits
import MysqlPlugin.LifeCycle
import MysqlPlugin.Process

namespace MysqlPlugin.Unloading

open AcceptedQueries BoundedWaits CheckedPops ClientInvariant Fairness HostHistory LifeCycle
  LiveConnections Transition

structure Numbered (s : Plugin) : Prop where
  keys : ∀ id p, s.connectionController.connection id = some p →
    id ≤ s.connectionController.latestConnectionId
  count : s.connectionController.latestConnectionId.toNat ≤ s.hosts.length

def Mapped (s : Plugin) (pointer : Nat) : Prop :=
  ∃ id, s.connectionController.connection id = some pointer

theorem isThere_of_set {hosts : List ConnectionHost} {p q : Nat} {h h' : ConnectionHost}
    (hh : hosts[q]? = some h) (hd : h.deleted = false) (hp : IsThere (hosts.set q h') p) :
    IsThere hosts p ∧ (q = p → h'.deleted = false) := by
  obtain ⟨g, hg, hgd⟩ := hp
  rw [getElem?_set_some hh] at hg
  rcases hg with ⟨rfl, rfl⟩ | ⟨hq, hg⟩
  · exact ⟨⟨h, hh, hd⟩, fun _ => hgd⟩
  · exact ⟨⟨g, hg, hgd⟩, fun he => absurd he hq⟩

section

variable {s s' : Plugin}

theorem Numbered.moved (hn : Numbered s) (hc : s'.connectionController = s.connectionController)
    (hl : s'.hosts.length = s.hosts.length) : Numbered s' := by
  constructor
  · rw [hc]
    exact hn.keys
  · rw [hc, hl]
    exact hn.count

theorem mapped_moved {q : Nat} {h h' : ConnectionHost} {a : HostAction} {e : HostEvent}
    (hh : s.hosts[q]? = some h) (hs : ConnectionHost.step h a = some (h', e))
    (hh' : s'.hosts = s.hosts.set q h') (hc : s'.connectionController = s.connectionController)
    (hm : ∀ p, IsThere s.hosts p → Mapped s p) (p : Nat) (hp : IsThere s'.hosts p) : Mapped s' p := by
  rw [hh'] at hp
  rw [Mapped, hc]
  exact hm p (isThere_of_set hh (hostStep_of_step hs).1 hp).1

/-- The map forgets no host that is there, as long as the counter has not come
around: a new id is larger than all before it. -/
theorem mapped_step {a : PluginAction} {e : PluginEvent} (h : PluginStep s a e s') (hl : Live s)
    (hlt : s'.hosts.length < 2 ^ 32) (hn : Numbered s) (hm : ∀ p, IsThere s.hosts p → Mapped s p) :
    Numbered s' ∧ ∀ p, IsThere s'.hosts p → Mapped s' p := by
  cases h with
  | quiet | free | fetch | unload | unloaded | undefinedBehaviour | staleHandle | staleIterator
  | staleRemoval => exact ⟨⟨hn.keys, hn.count⟩, hm⟩
  | frame =>
      refine ⟨hn.moved s.processTick_connectionController (by rw [s.processTick_hosts]), ?_⟩
      intro p hp
      rw [s.processTick_hosts] at hp
      rw [Mapped, s.processTick_connectionController]
      exact hm p hp
  | client q input h h' e c e' results hh hs hc =>
      exact ⟨hn.moved rfl (List.length_set ..), mapped_moved hh hs rfl rfl hm⟩
  | query amx native params id q request h h' e ht hns hc hh hs =>
      exact ⟨hn.moved rfl (List.length_set ..), mapped_moved hh hs rfl rfl hm⟩
  | stop amx params id q h h' e ht hc hh hs =>
      exact ⟨hn.moved rfl (List.length_set ..), mapped_moved hh hs rfl rfl hm⟩
  | stopped amx params q h h' e ht hh hs =>
      exact ⟨hn.moved rfl (List.length_set ..), mapped_moved hh hs rfl rfl hm⟩
  | tick publics id q h h' e ht hi hc hh hs =>
      exact ⟨hn.moved rfl (List.length_set ..), mapped_moved hh hs rfl rfl hm⟩
  | halt amx id q remaining h h' a e ht ha hh hs =>
      exact ⟨hn.moved rfl (List.length_set ..), mapped_moved hh hs rfl rfl hm⟩
  | connect amx params request ht =>
      simp only [List.length_append, List.length_singleton] at hlt
      have hcount := hn.count
      have hsucc : (s.connectionController.latestConnectionId + 1).toNat =
          s.connectionController.latestConnectionId.toNat + 1 := by
        rw [UInt32.toNat_add, UInt32.toNat_one]
        omega
      constructor
      · constructor
        · intro id p hp
          rw [ConnectionController.connection_connect] at hp
          split_ifs at hp with hi
          · exact hi ▸ UInt32.le_refl _
          · have hle := hn.keys id p hp
            rw [UInt32.le_iff_toNat_le] at hle ⊢
            simp only [ConnectionController.connect, hsucc]
            omega
        · simp only [ConnectionController.connect, hsucc, List.length_append, List.length_singleton]
          omega
      · rintro p ⟨g, hg, hd⟩
        simp only [Mapped, ConnectionController.connection_connect]
        rcases getElem?_snoc_some.mp hg with hg | ⟨rfl, -⟩
        · obtain ⟨id, hid⟩ := hm p ⟨g, hg, hd⟩
          refine ⟨id, ?_⟩
          rw [if_neg, hid]
          rintro rfl
          have hle := hn.keys _ p hid
          rw [UInt32.le_iff_toNat_le] at hle
          omega
        · exact ⟨_, if_pos rfl⟩
  | destroy amx id q remaining h h' e ht hh hs =>
      have hq := (hl.removal amx _ ht).2 id q (List.mem_cons_self ..)
      constructor
      · constructor
        · intro id' p hp
          rw [ConnectionController.connection_erase] at hp
          split_ifs at hp
          exact hn.keys id' p hp
        · rw [List.length_set]
          exact hn.count
      · intro p hp
        cases (hostStep_of_step hs).2 with
        | destroy =>
            obtain ⟨hp, hne⟩ := isThere_of_set hh (hostStep_of_step hs).1 hp
            obtain ⟨id', hid⟩ := hm p hp
            refine ⟨id', ?_⟩
            rw [ConnectionController.connection_erase, if_neg, hid]
            rintro rfl
            cases hq.symm.trans hid
            exact absurd (hne rfl) (by simp)

end

def Registered (s : Process) (pointer : Nat) : Prop :=
  match s.phase with
  | .absent => False
  | .loaded => Mapped s.plugin pointer
  | .unloading remaining => ∃ id, (id, pointer) ∈ remaining

/-- What holds between two steps of the process, in every phase: each host that is
there is due to be deleted, and the destructor has only such hosts before it. -/
structure DueForDeletion (s : Process) : Prop where
  live : s.phase = .loaded → Live s.plugin
  numbered : s.phase = .loaded → Numbered s.plugin
  idle : s.phase ≠ .loaded → s.plugin.task = .idle
  registered : ∀ p, IsThere s.plugin.hosts p → Registered s p
  pending : ∀ remaining, s.phase = .unloading remaining →
    (remaining.map Prod.snd).Nodup ∧ ∀ entry ∈ remaining, IsThere s.plugin.hosts entry.2
  waiting : s.phase ≠ .loaded → ∀ p h, s.plugin.hosts[p]? = some h → h.joining = true →
    ∃ id rest, s.phase = .unloading ((id, p) :: rest)

namespace DueForDeletion

variable {s : Process}

theorem new : DueForDeletion Process.new := by
  constructor <;> simp [Process.new, Plugin.new, IsThere]

theorem load (hk : DueForDeletion s) (hp : s.phase = .absent) : DueForDeletion s.load := by
  have hne : s.phase ≠ .loaded := by simp [hp]
  have hnone (p : Nat) : ¬ IsThere s.plugin.hosts p := by
    intro hp'
    have hr := hk.registered p hp'
    rwa [Registered, hp] at hr
  constructor
  · intro _
    constructor
    · simp [Process.load, ConnectionController.new, ConnectionController.connection]
    · simp [Process.load, ConnectionController.new, ConnectionController.connection]
    · intro amx rest ht
      cases ht.symm.trans (hk.idle hne)
    · intro p h hh hj
      obtain ⟨id, rest, hu⟩ := hk.waiting hne p h hh hj
      simp [hp] at hu
  · intro _
    constructor <;>
      simp [Process.load, ConnectionController.new, ConnectionController.connection]
  · exact fun h => absurd rfl h
  · exact fun p hp => absurd hp (hnone p)
  · rintro remaining ⟨⟩
  · exact fun h => absurd rfl h

theorem plugin (hk : DueForDeletion s) (hp : s.phase = .loaded) {a : PluginAction} {e : PluginEvent}
    {plugin : Plugin} (h : PluginStep s.plugin a e plugin) (hlt : plugin.hosts.length < 2 ^ 32) :
    DueForDeletion ⟨plugin, .loaded⟩ := by
  have hm : ∀ p, IsThere s.plugin.hosts p → Mapped s.plugin p := by
    intro p hp'
    have hr := hk.registered p hp'
    rwa [Registered, hp] at hr
  obtain ⟨hn, hm'⟩ := mapped_step h (hk.live hp) hlt (hk.numbered hp) hm
  refine ⟨fun _ => live_step h (hk.live hp), fun _ => hn, fun h => absurd rfl h, hm', ?_,
    fun h => absurd rfl h⟩
  rintro remaining ⟨⟩

theorem unload (hk : DueForDeletion s) (hp : s.phase = .loaded) (ht : s.plugin.task = .idle) :
    DueForDeletion s.unload := by
  have hl := hk.live hp
  have hmem (id : UInt32) (p : Nat) :
      (id, p) ∈ s.plugin.connectionController.connections.toList ↔
        s.plugin.connectionController.connection id = some p := by
    simp [ConnectionController.connection, Std.TreeMap.mem_toList_iff_getElem?_eq_some]
  constructor
  · rintro ⟨⟩
  · rintro ⟨⟩
  · exact fun _ => ht
  · intro p hp'
    have hr := hk.registered p hp'
    rw [Registered, hp] at hr
    obtain ⟨id, hid⟩ := hr
    exact ⟨id, (hmem id p).mpr hid⟩
  · intro remaining hr
    cases hr
    constructor
    · have hnd : s.plugin.connectionController.connections.toList.Nodup := by
        refine s.plugin.connectionController.connections.distinct_keys_toList.imp ?_
        rintro a b hne rfl
        exact hne (by simp)
      refine hnd.map_on ?_
      rintro ⟨id, p⟩ hx ⟨id', p'⟩ hy rfl
      obtain rfl := hl.injective id id' p ((hmem id p).mp hx) ((hmem id' p).mp hy)
      rfl
    · rintro ⟨id, p⟩ hx
      exact hl.mapped id p ((hmem id p).mp hx)
  · intro _ p h hh hj
    exact absurd hj (by simp [hl.not_joining ht hh])

section

variable {q : Nat} {h h' : ConnectionHost} {a : HostAction} {e : HostEvent}
  (hh : s.plugin.hosts[q]? = some h) (hs : ConnectionHost.step h a = some (h', e))

include hh hs

theorem moved (hk : DueForDeletion s) (hp : s.phase ≠ .loaded) {plugin : Plugin}
    (hh' : plugin.hosts = s.plugin.hosts.set q h') (ht : plugin.task = s.plugin.task)
    (hne : e ≠ .destroyed)
    (hw : h'.joining = true → ∃ id rest, s.phase = .unloading ((id, q) :: rest)) :
    DueForDeletion ⟨plugin, s.phase⟩ := by
  obtain ⟨hd, hstep⟩ := hostStep_of_step hs
  have hd' : h'.deleted = false := by
    rw [← Bool.not_eq_true, hstep.deleted_iff hd]
    exact hne
  constructor
  · exact fun h => absurd h hp
  · exact fun h => absurd h hp
  · intro _
    rw [ht]
    exact hk.idle hp
  · intro p hthere
    rw [hh'] at hthere
    have hr := hk.registered p (isThere_of_set hh hd hthere).1
    unfold Registered at hr ⊢
    split at hr
    next => exact hr.elim
    next hl => exact absurd hl hp
    next remaining hu =>
      simp only [hu]
      exact hr
  · intro remaining hu
    obtain ⟨hnd, hall⟩ := hk.pending remaining hu
    refine ⟨hnd, fun entry hentry => ?_⟩
    rw [hh']
    exact isThere_set hh (fun _ => hd') (hall entry hentry)
  · intro _ p g hg hj
    rw [hh', getElem?_set_some hh] at hg
    rcases hg with ⟨rfl, rfl⟩ | ⟨-, hg⟩
    · exact hw hj
    · exact hk.waiting hp p g hg hj

end

theorem client (hk : DueForDeletion s) (hp : s.phase ≠ .loaded) {pointer : Nat} {input : ClientInput}
    {e : PluginEvent} {plugin : Plugin} (h : PluginStep s.plugin (.client pointer input) e plugin) :
    DueForDeletion ⟨plugin, s.phase⟩ := by
  cases h with
  | client _ _ h h' e c e' results hh hs hc =>
      cases (hostStep_of_step hs).2 with
      | client _ _ ev c' hcs =>
          refine hk.moved hh hs hp rfl rfl (by simp) fun hj => ?_
          refine hk.waiting hp pointer h hh ?_
          simpa [ConnectionHost.joining, hcs.flags_eq.1, hcs.flags_eq.2] using hj

theorem halt (hk : DueForDeletion s) {id : UInt32} {q : Nat} {remaining : List (UInt32 × Nat)}
    (hp : s.phase = .unloading ((id, q) :: remaining)) {h h' : ConnectionHost} {a : HostAction}
    {e : HostEvent} (ha : a = .stopThread ∨ a = .joinThread) (hh : s.plugin.hosts[q]? = some h)
    (hs : ConnectionHost.step h a = some (h', e)) :
    DueForDeletion ⟨{ s.plugin with hosts := s.plugin.hosts.set q h' }, s.phase⟩ := by
  have hne : e ≠ .destroyed := by
    rintro rfl
    cases (hostStep_of_step hs).2
    simp at ha
  exact hk.moved hh hs (by simp [hp]) rfl rfl hne fun _ => ⟨id, remaining, hp⟩

theorem destroy (hk : DueForDeletion s) {id : UInt32} {q : Nat} {remaining : List (UInt32 × Nat)}
    (hp : s.phase = .unloading ((id, q) :: remaining)) {h h' : ConnectionHost} {e : HostEvent}
    (hh : s.plugin.hosts[q]? = some h) (hs : ConnectionHost.step h .destroy = some (h', e)) :
    DueForDeletion ⟨{ s.plugin with hosts := s.plugin.hosts.set q h' }, .unloading remaining⟩ := by
  have hne : s.phase ≠ .loaded := by simp [hp]
  obtain ⟨hnd, hall⟩ := hk.pending _ hp
  rw [List.map_cons, List.nodup_cons] at hnd
  have hlt : q < s.plugin.hosts.length := (List.getElem?_eq_some_iff.mp hh).1
  obtain ⟨hd, hstep⟩ := hostStep_of_step hs
  cases hstep with
  | destroy hr =>
      constructor
      · rintro ⟨⟩
      · rintro ⟨⟩
      · exact fun _ => hk.idle hne
      · intro p hthere
        obtain ⟨hthere, hq⟩ := isThere_of_set hh hd hthere
        have hr := hk.registered p hthere
        rw [Registered, hp] at hr
        obtain ⟨id', hmem⟩ := hr
        refine ⟨id', (List.mem_cons.mp hmem).resolve_left ?_⟩
        rintro ⟨⟩
        exact absurd (hq rfl) (by simp)
      · intro rest hrest
        cases hrest
        refine ⟨hnd.2, fun entry hentry => ?_⟩
        refine isThere_set hh (fun hq => ?_) (hall entry (List.mem_cons_of_mem _ hentry))
        exact absurd (List.mem_map.mpr ⟨entry, hentry, hq.symm⟩) hnd.1
      · intro _ p g hg hj
        rw [getElem?_set_some hh] at hg
        rcases hg with ⟨rfl, rfl⟩ | ⟨hq, hg⟩
        · simp [ConnectionHost.joining, hr] at hj
        · obtain ⟨id', rest, hu⟩ := hk.waiting hne p g hg hj
          cases hp.symm.trans hu
          exact absurd rfl hq

theorem unloaded (hk : DueForDeletion s) (hp : s.phase = .unloading []) :
    DueForDeletion ⟨s.plugin, .absent⟩ := by
  have hne : s.phase ≠ .loaded := by simp [hp]
  constructor
  · rintro ⟨⟩
  · rintro ⟨⟩
  · exact fun _ => hk.idle hne
  · intro p hthere
    have hr := hk.registered p hthere
    rw [Registered, hp] at hr
    obtain ⟨id, hmem⟩ := hr
    cases hmem
  · rintro remaining ⟨⟩
  · intro _ p g hg hj
    obtain ⟨id, rest, hu⟩ := hk.waiting hne p g hg hj
    cases hp.symm.trans hu

end DueForDeletion

theorem length_le_of_pluginStep {s s' : Plugin} {a : PluginAction} {e : PluginEvent}
    (h : PluginStep s a e s') : s.hosts.length ≤ s'.hosts.length := by
  cases hostsStep_of_pluginStep h with
  | same he hh => rw [hh]
  | moved _ _ _ _ _ _ _ _ hh' => rw [hh', List.length_set]
  | created _ _ _ _ hh =>
      rw [hh, List.length_append]
      exact Nat.le_add_right ..

theorem dueForDeletion_step {lib : Externals} {s s' : Process} {a : ProcessAction} {e : ProcessEvent}
    (h : ProcessStep lib s a e s') (hlt : s'.plugin.hosts.length < 2 ^ 32) (hk : DueForDeletion s) :
    DueForDeletion s' := by
  cases h with
  | load hp => exact hk.load hp
  | plugin action event plugin hp hs => exact hk.plugin hp (pluginStep_of_step hs) hlt
  | unload hp ht => exact hk.unload hp ht
  | client pointer input event plugin hp hs => exact hk.client hp hs
  | halt id q remaining h h' a e hp ha hh hs => exact hk.halt hp ha hh hs
  | destroy id q remaining h h' e hp hh hs => exact hk.destroy hp hh hs
  | stale id q remaining hp hh =>
      obtain ⟨h, hg, hd⟩ := (hk.pending _ hp).2 _ (List.mem_cons_self ..)
      simp [hh h hg] at hd
  | unloaded hp => exact hk.unloaded hp

theorem length_le_of_processStep {lib : Externals} {s s' : Process} {a : ProcessAction}
    {e : ProcessEvent} (h : ProcessStep lib s a e s') :
    s.plugin.hosts.length ≤ s'.plugin.hosts.length := by
  cases h with
  | plugin _ _ _ _ hs => exact length_le_of_pluginStep (pluginStep_of_step hs)
  | client _ _ _ _ _ hs => exact length_le_of_pluginStep hs
  | halt | destroy => exact (List.length_set ..).ge
  | load | unload | stale | unloaded => exact Nat.le_refl _

theorem reach_dueForDeletion {lib : Externals} {tr : List ProcessEvent} {s : Process}
    (hr : Reach (Process.step lib) Process.new tr s) (hlt : s.plugin.hosts.length < 2 ^ 32) :
    DueForDeletion s := by
  induction hr with
  | start => exact DueForDeletion.new
  | step _ hs ih =>
      have hstep := processStep_of_step hs
      exact dueForDeletion_step hstep hlt (ih (by have := length_le_of_processStep hstep; omega))

def pluginEvent : ProcessEvent → Option PluginEvent
  | .plugin event => some event
  | _ => none

def pluginEvents (tr : List ProcessEvent) : List PluginEvent := tr.filterMap pluginEvent

theorem pluginEvents_snoc (tr : List ProcessEvent) (e : ProcessEvent) :
    pluginEvents (tr ++ [e]) = pluginEvents tr ++ (pluginEvent e).toList :=
  filterMap_snoc ..

theorem reach_processProjects {lib : Externals} {tr : List ProcessEvent} {s : Process}
    (hr : Reach (Process.step lib) Process.new tr s) : Projects (pluginEvents tr) s.plugin := by
  induction hr with
  | start => exact ⟨by simp [Process.new, Plugin.new], fun _ _ => rfl⟩
  | @step tr s a s' e _ hs ih =>
      rw [pluginEvents_snoc]
      cases processStep_of_step hs with
      | load | unload | unloaded =>
          simp only [pluginEvent, Option.toList_none, List.append_nil]
          exact ⟨ih.run, ih.unused⟩
      | plugin action event plugin hp hstep =>
          exact projects_step (hostsStep_of_pluginStep (pluginStep_of_step hstep)) ih
      | client pointer input event plugin hp hstep =>
          exact projects_step (hostsStep_of_pluginStep hstep) ih
      | halt id q remaining h h' a e hp ha hh hstep =>
          exact projects_step (.moved q h h' a e hh hstep rfl rfl) ih
      | destroy id q remaining h h' e hp hh hstep =>
          exact projects_step (.moved q h h' _ e hh hstep rfl rfl) ih
      | stale id q remaining hp hh =>
          have hsame : HostsStep s.plugin s.plugin.crash .useAfterFree := .same rfl rfl
          exact projects_step hsame ih

structure Deleted (tr : List HostEvent) (h : ConnectionHost) : Prop where
  stopped : h.deleted = true → h.client.isRunning = false
  once : tr.countP isDestruction = if h.deleted then 1 else 0

theorem reach_deleted {script : Script} {id : UInt32} {tr : List HostEvent} {h : ConnectionHost}
    (hr : Reach ConnectionHost.step (ConnectionHost.new script id) tr h) : Deleted tr h := by
  induction hr with
  | start => exact ⟨by rintro ⟨⟩, rfl⟩
  | step _ hs ih =>
      obtain ⟨hd, hstep⟩ := hostStep_of_step hs
      have honce := ih.once
      rw [hd] at honce
      cases hstep with
      | destroy hrun => exact ⟨fun _ => hrun, by simp [honce, isDestruction]⟩
      | _ => exact ⟨by simp [hd], by simp [honce, hd, isDestruction]⟩

/-- When nothing is loaded any more, no host and no thread of it is left: each one was
deleted once, its client had come to the end of run, and a connection that it had
opened was closed. The destructor never finds a host that is gone. -/
theorem unload_leaves_nothing (lib : Externals) (acts : List ProcessAction)
    (hlt : (run (Process.step lib) Process.new acts).2.plugin.hosts.length < 2 ^ 32) :
    let r := run (Process.step lib) Process.new acts
    (r.2.phase ≠ .loaded → r.2.plugin.task = .idle) ∧
      (r.2.phase = .absent → ∀ p h, r.2.plugin.hosts[p]? = some h →
        h.deleted = true ∧ h.client.isRunning = false ∧ h.client.point = .finished ∧
          Complete (operations (history p (pluginEvents r.1))) ∧
          (history p (pluginEvents r.1)).countP isDestruction = 1) := by
  intro r
  have hr := reach_run (Process.step lib) Process.new acts
  have hk := reach_dueForDeletion hr hlt
  refine ⟨hk.idle, fun hp p h hh => ?_⟩
  have hdel : h.deleted = true := by
    by_contra hd
    have hreg := hk.registered p ⟨h, hh, by simpa using hd⟩
    rwa [Registered, hp] at hreg
  obtain ⟨script, id, hreach⟩ := (reach_processProjects hr).run p h hh
  have hd := reach_deleted hreach
  have hstopped := hd.stopped hdel
  have hfinished := (reach_sound hreach).joined hstopped
  refine ⟨hdel, hstopped, hfinished, (reach_stage hreach).complete hfinished, ?_⟩
  rw [hd.once, hdel]
  rfl

def loadAndUnload : List ProcessAction :=
  [.load] ++ List.replicate 2
      (.plugin (.native 1 .connect [.text "h", .text "u", .text "p", .text "d", .number 3306])) ++
    ((clientTurns 0 9 .empty ++ clientTurns 1 4 .empty).map .plugin) ++ [.unload] ++
    (List.replicate 6 ([ProcessAction.resume] ++
      (clientTurns 0 9 .empty ++ clientTurns 1 9 .empty).map .plugin)).flatten ++ [.resume]

theorem unload_leaves_nothing_loadAndUnload :
    let r := run (Process.step plainText) Process.new loadAndUnload
    ∃ h, r.2.plugin.hosts[1]? = some h ∧ h.deleted = true ∧
      Complete (operations (history 1 (pluginEvents r.1))) := by
  intro r
  have hlen : r.2.plugin.hosts.length = 2 := rfl
  have hlt : 1 < r.2.plugin.hosts.length := by omega
  have hh : r.2.plugin.hosts[1]? = some r.2.plugin.hosts[1] := List.getElem?_eq_getElem hlt
  have h := (unload_leaves_nothing plainText loadAndUnload (by rw [hlen]; omega)).2 rfl 1 _ hh
  exact ⟨_, hh, h.1, h.2.2.2.1⟩

/-- The destructor at work looks like onScriptUnload for as long a list. -/
def working (s : Process) : Plugin :=
  match s.phase with
  | .unloading remaining => { s.plugin with task := .unloading 0 remaining }
  | _ => { s.plugin with task := .idle }

def processMover : ProcessAction → Mover
  | .resume => .resume
  | .plugin (.client pointer _) => .client pointer
  | _ => .other

theorem eq_resume_of_processMover {a : ProcessAction} (h : processMover a = .resume) :
    a = .resume := by
  unfold processMover at h
  split at h <;> first | rfl | cases h

theorem exists_of_processMover_client {a : ProcessAction} {p : Nat}
    (h : processMover a = .client p) : ∃ input, a = .plugin (.client p input) := by
  unfold processMover at h
  split at h <;> cases h
  exact ⟨_, rfl⟩

theorem working_of_unloading {s : Process} {remaining : List (UInt32 × Nat)}
    (hp : s.phase = .unloading remaining) :
    working s = { s.plugin with task := .unloading 0 remaining } := by
  rw [working, hp]

theorem unloading_of_working {s : Process} (hpos : 0 < taskSteps (working s)) :
    ∃ remaining, s.phase = .unloading remaining := by
  cases hp : s.phase with
  | unloading remaining => exact ⟨remaining, rfl⟩
  | absent | loaded => simp [working, hp, taskSteps] at hpos

theorem working_step {lib : Externals} {s s' : Process} {a : ProcessAction} {e : ProcessEvent}
    (h : ProcessStep lib s a e s') (hk : DueForDeletion s) (hpos : 0 < taskSteps (working s)) :
    taskSteps (working s') < taskSteps (working s) ∨
      taskSteps (working s') = taskSteps (working s) ∧ helper (working s') = helper (working s) ∧
        processMover a ≠ helper (working s) := by
  obtain ⟨remaining, hu⟩ := unloading_of_working hpos
  have hw := working_of_unloading hu
  have hhosts : (working s).hosts = s.plugin.hosts := by rw [hw]
  cases h with
  | load hp => simp [hu] at hp
  | plugin _ _ _ hp => simp [hu] at hp
  | unload hp => simp [hu] at hp
  | client q input event plugin hp hs =>
      cases hs with
      | client _ _ h h' e c e' results hh hs hc =>
          cases (hostStep_of_step hs).2 with
          | client _ _ ev c' hcs =>
              have hw' := working_of_unloading
                (s := ⟨{ s.plugin with
                  hosts := s.plugin.hosts.set q { h with client := c' }
                  resultController := results }, s.phase⟩) hu
              exact taskSteps_client (hhosts ▸ hh) hcs (by rw [hw', hhosts]) (by rw [hw', hw])
  | halt id q rest h h' a e hp ha hh hs =>
      left
      have hw' := working_of_unloading
        (s := ⟨{ s.plugin with hosts := s.plugin.hosts.set q h' }, s.phase⟩) hu
      have ha' : awaited (working s) = some q := by
        cases hu.symm.trans hp
        rw [hw]
        rfl
      exact taskSteps_lt (hhosts ▸ hh) (by rw [hw', hhosts]) (by rw [hw', hw]) ha'
        (hostSteps_hostStep (hostStep_of_step hs).2 ha)
  | destroy id q rest h h' e hp hh hs =>
      left
      cases hu.symm.trans hp
      have ht : (working s).task = .unloading 0 ((id, q) :: rest) := by rw [hw]
      exact taskSteps_destroy ht (hhosts ▸ hh) hs (by rw [hhosts]; rfl) rfl
  | stale id q rest hp hh =>
      obtain ⟨h, hg, hd⟩ := (hk.pending _ hp).2 _ (List.mem_cons_self ..)
      simp [hh h hg] at hd
  | unloaded hp => exact .inl hpos

theorem exists_processDelete {s : Plugin} (id : UInt32) {p : Nat} (rest : List (UInt32 × Nat))
    {h : ConnectionHost} (hh : s.hosts[p]? = some h) (hd : h.deleted = false)
    (hp : h.joining = true → h.client.point = .finished) :
    ∃ r, Process.delete s id p rest = some r := by
  have hmove := exists_destruction hh hd hp
  simp only [Process.delete, hh, hd, Bool.false_eq_true, if_false]
  by_cases hr : h.client.isRunning = true
  all_goals
    simp only [hr, if_true, Bool.false_eq_true, if_false] at hmove ⊢
    obtain ⟨r, hmove⟩ := hmove
    exact ⟨_, congrArg (Option.map _) hmove⟩

theorem exists_processStep {lib : Externals} {tr : List ProcessEvent} {s : Process}
    (hr : Reach (Process.step lib) Process.new tr s) (hk : DueForDeletion s)
    (hpos : 0 < taskSteps (working s)) {a : ProcessAction}
    (ha : processMover a = helper (working s)) : ∃ r, Process.step lib s a = some r := by
  obtain ⟨remaining, hu⟩ := unloading_of_working hpos
  have hw := working_of_unloading hu
  have ht : s.plugin.task = .idle := hk.idle (by simp [hu])
  cases remaining with
  | nil =>
      rw [helper_of_none (by rw [hw]; rfl)] at ha
      obtain rfl := eq_resume_of_processMover ha
      exact ⟨_, by simp only [Process.step, hu, ht]; rfl⟩
  | cons entry rest =>
      obtain ⟨id, p⟩ := entry
      obtain ⟨h, hh, hd⟩ := (hk.pending _ hu).2 _ (List.mem_cons_self ..)
      obtain ⟨script, id', hreach⟩ := (reach_processProjects hr).run p h hh
      have hawaited : awaited (working s) = some p := by
        rw [hw]
        rfl
      have hhosts : (working s).hosts = s.plugin.hosts := by rw [hw]
      rw [helper_of_awaited hawaited (hhosts ▸ hh)] at ha
      split_ifs at ha with hj
      · -- the client that the destructor waits for
        obtain ⟨input, rfl⟩ := exists_of_processMover_client ha
        have hf : h.client.point ≠ .finished := by
          intro hf
          simp [hf, stepsLeft] at hj
        obtain ⟨⟨plugin, event⟩, hstep⟩ := exists_clientAction (reach_popsFind hreach) hh hd hf input
        refine ⟨(⟨plugin, s.phase⟩, .plugin event), ?_⟩
        simp only [Process.step, hu, ht]
        exact Option.map_eq_some_iff.mpr ⟨_, hstep, rfl⟩
      · -- the host thread: the client has returned, or was not told to yet
        obtain rfl := eq_resume_of_processMover ha
        have hf : h.joining = true → h.client.point = .finished := by
          intro hjoin
          by_contra hf
          exact hj ⟨hjoin, stepsLeft_pos hf⟩
        obtain ⟨r, hdelete⟩ := exists_processDelete id rest hh hd hf
        exact ⟨r, by simp only [Process.step, hu, ht, hdelete]⟩

theorem length_working {lib : Externals} {s s' : Process} {a : ProcessAction} {e : ProcessEvent}
    (h : ProcessStep lib s a e s') (hpos : 0 < taskSteps (working s)) :
    s'.plugin.hosts.length = s.plugin.hosts.length := by
  obtain ⟨remaining, hu⟩ := unloading_of_working hpos
  cases h with
  | plugin _ _ _ hp => simp [hu] at hp
  | client q input event plugin hp hs =>
      cases hs with
      | client => exact List.length_set ..
  | halt | destroy => exact List.length_set ..
  | load | unload | stale | unloaded => rfl

theorem helps (lib : Externals) {hosts : Nat} (hlt : hosts < 2 ^ 32) :
    Helps (Process.step lib) processMover
      (fun s => (∃ tr, Reach (Process.step lib) Process.new tr s) ∧ s.plugin.hosts.length = hosts)
      (fun s => taskSteps (working s)) (fun s => helper (working s)) := by
  constructor
  · rintro s a ⟨⟨tr, hr⟩, hl⟩ hpos
    refine ⟨hr.after a, ?_⟩
    cases hs : Process.step lib s a with
    | none => simpa [after, hs] using hl
    | some r =>
        rw [after_eq hs, length_working (processStep_of_step hs) hpos]
        exact hl
  · rintro s a ⟨⟨tr, hr⟩, rfl⟩ hpos ha
    have hk := reach_dueForDeletion hr hlt
    obtain ⟨r, hs⟩ := exists_processStep hr hk hpos ha
    rw [after_eq hs]
    rcases working_step (processStep_of_step hs) hk hpos with hless | ⟨-, -, hne⟩
    · exact hless
    · exact absurd ha hne
  · rintro s a ⟨⟨tr, hr⟩, rfl⟩ hpos -
    cases hs : Process.step lib s a with
    | none => simp [after, hs]
    | some r =>
        rw [after_eq hs]
        exact (working_step (processStep_of_step hs) (reach_dueForDeletion hr hlt) hpos).imp_right
          fun h => ⟨h.1, h.2.1⟩

def Ends (tr : List ProcessEvent) (s : Process) : Prop :=
  (∃ remaining, s.phase = .unloading remaining) ∨ .unloaded ∈ tr

theorem ends_step {lib : Externals} {tr : List ProcessEvent} {s s' : Process} {a : ProcessAction}
    {e : ProcessEvent} (h : ProcessStep lib s a e s') (he : Ends tr s) : Ends (tr ++ [e]) s' := by
  rcases he with ⟨remaining, hu⟩ | hmem
  · cases h with
    | load hp => simp [hu] at hp
    | plugin _ _ _ hp => simp [hu] at hp
    | unload hp => simp [hu] at hp
    | client | halt => exact .inl ⟨remaining, hu⟩
    | destroy _ _ rest | stale _ _ rest => exact .inl ⟨rest, rfl⟩
    | unloaded => exact .inr (by simp)
  · exact .inr (List.mem_append_left _ hmem)

/-- Unload comes back, whatever the servers answer to the clients that it stops. -/
theorem unload_returns (lib : Externals) (acts : List ProcessAction)
    (hlt : (run (Process.step lib) Process.new acts).2.plugin.hosts.length < 2 ^ 32)
    {remaining : List (UInt32 × Nat)}
    (hp : (run (Process.step lib) Process.new acts).2.phase = .unloading remaining)
    (rounds : List (List ProcessAction))
    (hrounds : ∀ as ∈ rounds, Round processMover
      (Concerned (run (Process.step lib) Process.new acts).2.plugin.hosts.length) as)
    (hl : 261 * remaining.length + 1 ≤ rounds.length) :
    .unloaded ∈
      (run (Process.step lib) (run (Process.step lib) Process.new acts).2 rounds.flatten).1 := by
  have hr := reach_run (Process.step lib) Process.new acts
  generalize (run (Process.step lib) Process.new acts).2 = s at *
  have hsteps : taskSteps (working s) ≤ rounds.length := by
    have hremoval := removalSteps_le s.plugin.hosts remaining
    rw [working_of_unloading hp]
    simp only [taskSteps]
    omega
  have hconcerned (t : Process)
      (ht : (∃ tr, Reach (Process.step lib) Process.new tr t) ∧
        t.plugin.hosts.length = s.plugin.hosts.length) (hpos : 0 < taskSteps (working t)) :
      Concerned s.plugin.hosts.length (helper (working t)) := by
    obtain ⟨rest, hu⟩ := unloading_of_working hpos
    have hhosts : (working t).hosts = t.plugin.hosts := by rw [working_of_unloading hu]
    rw [← ht.2, ← hhosts]
    exact concerned_helper
  obtain ⟨before, after, hflat, hzero⟩ :=
    (helps lib hlt).reaches hconcerned hrounds ⟨⟨_, hr⟩, rfl⟩ hsteps
  have hall : Along (Process.step lib) (fun _ _ _ => True) [] s before :=
    along_of_forall _ (fun _ _ _ _ => trivial) [] s
  have hends : Ends [] s := .inl ⟨remaining, hp⟩
  rcases run_invariant (P := Ends) hall hends fun he _ hs => ends_step (processStep_of_step hs) he with
    ⟨rest, hu⟩ | hmem
  · rw [working_of_unloading hu] at hzero
    simp [taskSteps] at hzero
  · rw [hflat, run_append]
    exact List.mem_append_left _ hmem

def loadConnectUnload : List ProcessAction :=
  [.load, .plugin (.native 1 .connect [.text "h", .text "u", .text "p", .text "d", .number 3306]),
    .unload]

theorem unload_returns_loadConnectUnload :
    .unloaded ∈ (run (Process.step plainText)
      (run (Process.step plainText) Process.new loadConnectUnload).2
      (List.replicate 262 [.resume, .plugin (.client 0 ⟨1000, .connected, 0, .empty⟩)]).flatten).1 := by
  have hrounds : ∀ as ∈ List.replicate 262
        [ProcessAction.resume, .plugin (.client 0 ⟨1000, .connected, 0, .empty⟩)],
      Round processMover (Concerned
        (run (Process.step plainText) Process.new loadConnectUnload).2.plugin.hosts.length) as := by
    intro as has k hk
    rw [List.eq_of_mem_replicate has]
    cases k with
    | resume => exact ⟨.resume, by simp, rfl⟩
    | client p =>
        have hp : p < 1 := hk
        obtain rfl : p = 0 := by omega
        exact ⟨_, List.mem_cons_of_mem _ List.mem_cons_self, rfl⟩
    | other => exact hk.elim
  have hlen : (run (Process.step plainText) Process.new loadConnectUnload).2.plugin.hosts.length = 1 :=
    rfl
  have hp : (run (Process.step plainText) Process.new loadConnectUnload).2.phase =
      .unloading [(1, 0)] := rfl
  exact unload_returns plainText loadConnectUnload (by rw [hlen]; omega) hp _ hrounds
    (by rw [List.length_replicate, List.length_singleton])

end MysqlPlugin.Unloading
