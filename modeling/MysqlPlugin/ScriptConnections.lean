import MysqlPlugin.ConnectionRegistry

namespace MysqlPlugin.ScriptConnections

open ConnectionRegistry HostHistory Transition

structure Connection where
  id : UInt32
  owner : Amx
  pointer : Nat
  deriving DecidableEq

def created : PluginEvent → Option Connection
  | .returned amx .connect _ value (some (pointer, _)) => some ⟨value.toUInt32, amx, pointer⟩
  | _ => none

def issued (tr : List PluginEvent) : List Connection := tr.filterMap created

def registryAfter (registry : List Connection) : PluginEvent → List Connection
  | .unloadFinished amx => registry.filter (·.owner ≠ amx)
  | e => registry ++ (created e).toList

def registry (tr : List PluginEvent) : List Connection := tr.foldl registryAfter []

def unloadingAfter (unloading : Option Amx) : PluginEvent → Option Amx
  | .unloadStarted amx => some amx
  | .unloadFinished _ => none
  | _ => unloading

def unloading (tr : List PluginEvent) : Option Amx := tr.foldl unloadingAfter none

def destroyedAt : PluginEvent → Option Nat
  | .host pointer .destroyed => some pointer
  | _ => none

def destroyed (tr : List PluginEvent) : List Nat := tr.filterMap destroyedAt

def callOf : PluginEvent → Option Nat
  | .host pointer (.onConnectionAttempt _ _) => some pointer
  | .host pointer (.onQueryError _ _) => some pointer
  | .host pointer (.callback _ _) => some pointer
  | _ => none

theorem issued_snoc (tr : List PluginEvent) (e : PluginEvent) :
    issued (tr ++ [e]) = issued tr ++ (created e).toList :=
  filterMap_snoc ..

theorem registry_snoc (tr : List PluginEvent) (e : PluginEvent) :
    registry (tr ++ [e]) = registryAfter (registry tr) e := by
  simp [registry]

theorem unloading_snoc (tr : List PluginEvent) (e : PluginEvent) :
    unloading (tr ++ [e]) = unloadingAfter (unloading tr) e := by
  simp [unloading]

theorem destroyed_snoc (tr : List PluginEvent) (e : PluginEvent) :
    destroyed (tr ++ [e]) = destroyed tr ++ (destroyedAt e).toList :=
  filterMap_snoc ..

def unloadingTask : Task → Option Amx
  | .unloading amx _ => some amx
  | _ => none

structure Recorded (tr : List PluginEvent) (s : Plugin) : Prop where
  pointers : (issued tr).map (·.pointer) = List.range s.hosts.length
  hosts : ∀ c ∈ issued tr, c.id = idOf c.pointer ∧
    ∃ h, s.hosts[c.pointer]? = some h ∧ h.script.runtime = c.owner
  registered : ∀ c ∈ registry tr, c ∈ issued tr
  current : unloading tr = unloadingTask s.task
  owned : ∀ p amx, Owns s p amx → ⟨idOf p, amx, p⟩ ∈ registry tr
  live : ∀ c ∈ registry tr, unloading tr ≠ some c.owner → Owns s c.pointer c.owner
  gone : ∀ p, p ∈ destroyed tr ↔ ∃ h, s.hosts[p]? = some h ∧ h.deleted = true
  once : (destroyed tr).Nodup

namespace Recorded

variable {tr : List PluginEvent} {s s' : Plugin} {e : PluginEvent}

theorem new : Recorded [] Plugin.new := by
  constructor <;> simp [issued, registry, unloading, unloadingTask, destroyed, Plugin.new, Owns]

theorem length_issued (hr : Recorded tr s) : (issued tr).length = s.hosts.length := by
  have h := congrArg List.length hr.pointers
  simpa using h

theorem pointer_lt (hr : Recorded tr s) {c : Connection} (hc : c ∈ issued tr) :
    c.pointer < s.hosts.length := by
  obtain ⟨-, h, hh, -⟩ := hr.hosts c hc
  exact (List.getElem?_eq_some_iff.mp hh).1

theorem frame (hr : Recorded tr s) (hl : s'.hosts.length = s.hosts.length)
    (hg : ∀ (p : Nat) (h : ConnectionHost), s'.hosts[p]? = some h →
      ∃ g, s.hosts[p]? = some g ∧ h.script.runtime = g.script.runtime ∧ h.deleted = g.deleted)
    (hc : created e = none) (hreg : registryAfter (registry tr) e = registry tr)
    (hu : unloadingAfter (unloading tr) e = unloading tr) (hd : destroyedAt e = none)
    (ht : unloadingTask s'.task = unloadingTask s.task) : Recorded (tr ++ [e]) s' := by
  have hg' (p : Nat) (g : ConnectionHost) (hp : s.hosts[p]? = some g) :
      ∃ h, s'.hosts[p]? = some h ∧ h.script.runtime = g.script.runtime ∧ h.deleted = g.deleted := by
    have hlt : p < s'.hosts.length := by
      rw [hl]
      exact (List.getElem?_eq_some_iff.mp hp).1
    obtain ⟨g', hq, hrun, hdel⟩ := hg p _ (List.getElem?_eq_getElem hlt)
    cases hp.symm.trans hq
    exact ⟨_, List.getElem?_eq_getElem hlt, hrun, hdel⟩
  have hi : issued (tr ++ [e]) = issued tr := by simp [issued_snoc, hc]
  have hs : registry (tr ++ [e]) = registry tr := by rw [registry_snoc, hreg]
  have hun : unloading (tr ++ [e]) = unloading tr := by rw [unloading_snoc, hu]
  have hds : destroyed (tr ++ [e]) = destroyed tr := by simp [destroyed_snoc, hd]
  refine ⟨?_, ?_, ?_, ?_, ?_, ?_, ?_, ?_⟩
  · rw [hi, hl]
    exact hr.pointers
  · rw [hi]
    intro c hcm
    obtain ⟨hid, g, hp, hrun⟩ := hr.hosts c hcm
    obtain ⟨h, hh, hrun', -⟩ := hg' _ g hp
    exact ⟨hid, h, hh, hrun'.trans hrun⟩
  · rw [hi, hs]
    exact hr.registered
  · rw [hun, ht]
    exact hr.current
  · rintro p amx ⟨h, hh, hdel, hrun⟩
    obtain ⟨g, hp, hrun', hdel'⟩ := hg p h hh
    rw [hs]
    exact hr.owned p amx ⟨g, hp, hdel'.symm.trans hdel, hrun'.symm.trans hrun⟩
  · rw [hs, hun]
    intro c hcm hne
    obtain ⟨g, hp, hdel, hrun⟩ := hr.live c hcm hne
    obtain ⟨h, hh, hrun', hdel'⟩ := hg' _ g hp
    exact ⟨h, hh, hdel'.trans hdel, hrun'.trans hrun⟩
  · intro p
    rw [hds, hr.gone]
    constructor
    · rintro ⟨g, hp, hdel⟩
      obtain ⟨h, hh, -, hdel'⟩ := hg' p g hp
      exact ⟨h, hh, hdel'.trans hdel⟩
    · rintro ⟨h, hh, hdel⟩
      obtain ⟨g, hp, -, hdel'⟩ := hg p h hh
      exact ⟨g, hp, hdel'.symm.trans hdel⟩
  · rw [hds]
    exact hr.once

theorem same (hr : Recorded tr s) (hh : s'.hosts = s.hosts) (hc : created e = none)
    (hreg : registryAfter (registry tr) e = registry tr)
    (hu : unloadingAfter (unloading tr) e = unloading tr) (hd : destroyedAt e = none)
    (ht : unloadingTask s'.task = unloadingTask s.task) : Recorded (tr ++ [e]) s' :=
  hr.frame (by rw [hh]) (fun p h hp => ⟨h, hh ▸ hp, rfl, rfl⟩) hc hreg hu hd ht

theorem moved (hr : Recorded tr s) {q : Nat} {h h' : ConnectionHost} {a : HostAction}
    {ev : HostEvent} (hh : s.hosts[q]? = some h) (hs : ConnectionHost.step h a = some (h', ev))
    (hne : ev ≠ .destroyed) (hh' : s'.hosts = s.hosts.set q h') (hc : created e = none)
    (hreg : registryAfter (registry tr) e = registry tr)
    (hu : unloadingAfter (unloading tr) e = unloading tr) (hd : destroyedAt e = none)
    (ht : unloadingTask s'.task = unloadingTask s.task) : Recorded (tr ++ [e]) s' := by
  refine hr.frame (by rw [hh', List.length_set]) ?_ hc hreg hu hd ht
  intro p g hp
  obtain ⟨hdel, hstep⟩ := hostStep_of_step hs
  rw [hh', getElem?_set_some hh] at hp
  rcases hp with ⟨rfl, rfl⟩ | ⟨-, hp⟩
  · have hdel' : h'.deleted = false := by
      rw [← Bool.not_eq_true, hstep.deleted_iff hdel]
      exact hne
    exact ⟨h, hh, hstep.runtime_eq, hdel'.trans hdel.symm⟩
  · exact ⟨g, hp, rfl, rfl⟩

theorem keep (hr : Recorded tr s) (hh : s'.hosts = s.hosts) (hc : created e = none)
    (hd : destroyedAt e = none) (hreg : ∀ c ∈ registry (tr ++ [e]), c ∈ registry tr)
    (hu : unloading (tr ++ [e]) = unloadingTask s'.task)
    (hown : ∀ p amx, Owns s p amx → ⟨idOf p, amx, p⟩ ∈ registry (tr ++ [e]))
    (hlive : ∀ c ∈ registry (tr ++ [e]), unloading (tr ++ [e]) ≠ some c.owner →
      Owns s c.pointer c.owner) : Recorded (tr ++ [e]) s' := by
  have hi : issued (tr ++ [e]) = issued tr := by simp [issued_snoc, hc]
  have hds : destroyed (tr ++ [e]) = destroyed tr := by simp [destroyed_snoc, hd]
  constructor
  · rw [hi, hh]
    exact hr.pointers
  · rw [hi, hh]
    exact hr.hosts
  · rw [hi]
    exact fun c hc => hr.registered c (hreg c hc)
  · exact hu
  · exact fun p amx ho => hown p amx ((owns_same hh p amx).mp ho)
  · exact fun c hc hn => (owns_same hh _ _).mpr (hlive c hc hn)
  · rw [hds, hh]
    exact hr.gone
  · rw [hds]
    exact hr.once

end Recorded

theorem recorded_connect {tr : List PluginEvent} {s s' : Plugin} {c : Connection} {e : PluginEvent}
    {h : ConnectionHost} (hr : Recorded tr s) (hc : created e = some c)
    (hreg : registryAfter (registry tr) e = registry tr ++ [c])
    (hu : unloadingAfter (unloading tr) e = unloading tr) (hde : destroyedAt e = none)
    (hp : c.pointer = s.hosts.length) (hid : c.id = idOf c.pointer)
    (ho : h.script.runtime = c.owner) (hd : h.deleted = false)
    (hh : s'.hosts = s.hosts ++ [h]) (ht : s'.task = s.task) : Recorded (tr ++ [e]) s' := by
  have hi : issued (tr ++ [e]) = issued tr ++ [c] := by simp [issued_snoc, hc]
  have hs : registry (tr ++ [e]) = registry tr ++ [c] := by rw [registry_snoc, hreg]
  have hun : unloading (tr ++ [e]) = unloading tr := by rw [unloading_snoc, hu]
  have hds : destroyed (tr ++ [e]) = destroyed tr := by simp [destroyed_snoc, hde]
  have hold {p : Nat} {g : ConnectionHost} (hg : s.hosts[p]? = some g) : s'.hosts[p]? = some g := by
    rw [hh, List.getElem?_append_left (List.getElem?_eq_some_iff.mp hg).1]
    exact hg
  have hnew : s'.hosts[c.pointer]? = some h := by simp [hh, hp]
  refine ⟨?_, ?_, ?_, ?_, ?_, ?_, ?_, ?_⟩
  · rw [hi, hh, List.map_append, hr.pointers, List.length_append, List.length_singleton,
      List.range_succ, List.map_singleton, hp]
  · rw [hi]
    intro d hd
    rcases List.mem_append.mp hd with hd | hd
    · obtain ⟨hid, g, hg, hrun⟩ := hr.hosts d hd
      exact ⟨hid, g, hold hg, hrun⟩
    · obtain rfl := List.mem_singleton.mp hd
      exact ⟨hid, h, hnew, ho⟩
  · rw [hi, hs]
    intro d hd
    rcases List.mem_append.mp hd with hd | hd
    · exact List.mem_append_left _ (hr.registered d hd)
    · exact List.mem_append_right _ hd
  · rw [hun, ht]
    exact hr.current
  · intro p amx hown
    rw [hs]
    rcases (owns_created hh hd p amx).mp hown with hown | ⟨rfl, rfl⟩
    · exact List.mem_append_left _ (hr.owned p amx hown)
    · refine List.mem_append_right _ (List.mem_singleton.mpr ?_)
      rw [ho, ← hp, ← hid]
  · rw [hs, hun]
    intro d hd' hne
    rw [owns_created hh hd]
    rcases List.mem_append.mp hd' with hd' | hd'
    · exact .inl (hr.live d hd' hne)
    · obtain rfl := List.mem_singleton.mp hd'
      exact .inr ⟨hp, ho⟩
  · intro p
    rw [hds, hr.gone]
    constructor
    · rintro ⟨g, hg, hdel⟩
      exact ⟨g, hold hg, hdel⟩
    · rintro ⟨g, hg, hdel⟩
      rw [hh, List.getElem?_append] at hg
      split_ifs at hg with hlt
      · exact ⟨g, hg, hdel⟩
      · have hg' := List.mem_of_getElem? hg
        obtain rfl := List.mem_singleton.mp hg'
        simp [hd] at hdel
  · rw [hds]
    exact hr.once

theorem recorded_destroy {tr : List PluginEvent} {s s' : Plugin} {q : Nat} {h h' : ConnectionHost}
    {amx : Amx} (hr : Recorded tr s) (hu : unloadingTask s.task = some amx)
    (hrun : h.script.runtime = amx) (hh : s.hosts[q]? = some h)
    (hs : ConnectionHost.step h .destroy = some (h', .destroyed))
    (hh' : s'.hosts = s.hosts.set q h') (ht : unloadingTask s'.task = some amx) :
    Recorded (tr ++ [.host q .destroyed]) s' := by
  have hlt : q < s.hosts.length := (List.getElem?_eq_some_iff.mp hh).1
  have hi : issued (tr ++ [.host q .destroyed]) = issued tr := by simp [issued_snoc, created]
  have hreg : registry (tr ++ [.host q .destroyed]) = registry tr := by
    simp [registry_snoc, registryAfter, created]
  have hun : unloading (tr ++ [.host q .destroyed]) = unloading tr := by
    simp [unloading_snoc, unloadingAfter]
  have hds : destroyed (tr ++ [.host q .destroyed]) = destroyed tr ++ [q] := by
    simp [destroyed_snoc, destroyedAt]
  have ho := owns_moved hh hs hh'
  obtain ⟨hdel, hstep⟩ := hostStep_of_step hs
  have hdel' : h'.deleted = true := (hstep.deleted_iff hdel).mpr rfl
  refine ⟨?_, ?_, ?_, ?_, ?_, ?_, ?_, ?_⟩
  · rw [hi, hh', List.length_set]
    exact hr.pointers
  · rw [hi]
    intro c hc
    obtain ⟨hid, g, hg, hrun⟩ := hr.hosts c hc
    refine ⟨hid, ?_⟩
    rw [hh', List.getElem?_set]
    split_ifs with hq
    · subst hq
      cases hh.symm.trans hg
      exact ⟨h', rfl, hstep.runtime_eq.trans hrun⟩
    · exact ⟨g, hg, hrun⟩
  · rw [hi, hreg]
    exact hr.registered
  · rw [hun, ht, ← hu]
    exact hr.current
  · intro p owner hown
    rw [hreg]
    exact hr.owned p owner ((ho p owner).mp hown).1
  · rw [hreg, hun]
    intro c hc hne
    have hown := hr.live c hc hne
    refine (ho c.pointer c.owner).mpr ⟨hown, ?_⟩
    rintro ⟨hq, -⟩
    have howner := owns_unique (hq ▸ hown) ⟨h, hh, hdel, hrun⟩
    rw [hr.current, hu, howner] at hne
    exact hne rfl
  · intro p
    rw [hds, List.mem_append, List.mem_singleton, hr.gone, hh', List.getElem?_set]
    split_ifs with hq
    · subst hq
      simp [hdel']
    · simp [Ne.symm hq]
  · rw [hds, ← List.concat_eq_append, List.nodup_concat, hr.gone]
    refine ⟨?_, hr.once⟩
    rintro ⟨g, hg, hdel'⟩
    cases hh.symm.trans hg
    simp [hdel] at hdel'

theorem recorded_unload {tr : List PluginEvent} {s s' : Plugin} {amx : Amx} (hr : Recorded tr s)
    (ht : s.task = .idle) (hh : s'.hosts = s.hosts) (hu : unloadingTask s'.task = some amx) :
    Recorded (tr ++ [.unloadStarted amx]) s' := by
  have hreg : registry (tr ++ [.unloadStarted amx]) = registry tr := by
    simp [registry_snoc, registryAfter, created]
  have hnone : unloading tr = none := by
    rw [hr.current, ht]
    rfl
  apply hr.keep hh rfl rfl
  · rw [hreg]
    exact fun c hc => hc
  · rw [unloading_snoc, hu]
    rfl
  · rw [hreg]
    exact hr.owned
  · rw [hreg]
    intro c hc _
    exact hr.live c hc (by simp [hnone])

theorem recorded_unloaded {tr : List PluginEvent} {s s' : Plugin} {amx : Amx} (hr : Recorded tr s)
    (hu : unloadingTask s.task = some amx) (hnone : ∀ p, ¬ Owns s p amx)
    (hh : s'.hosts = s.hosts) (ht : s'.task = .idle) :
    Recorded (tr ++ [.unloadFinished amx]) s' := by
  have hreg : registry (tr ++ [.unloadFinished amx]) = (registry tr).filter (·.owner ≠ amx) := by
    simp [registry_snoc, registryAfter]
  apply hr.keep hh rfl rfl
  · rw [hreg]
    exact fun c hc => List.mem_of_mem_filter hc
  · rw [unloading_snoc, ht]
    rfl
  · rw [hreg]
    intro p owner hown
    refine List.mem_filter.mpr ⟨hr.owned p owner hown, ?_⟩
    rw [decide_eq_true_eq]
    rintro rfl
    exact hnone p hown
  · rw [hreg]
    intro c hc _
    obtain ⟨hc, hne⟩ := List.mem_filter.mp hc
    apply hr.live c hc
    rw [decide_eq_true_eq] at hne
    rw [hr.current, hu]
    exact fun h => hne (Option.some.inj h).symm

theorem recorded_step {tr : List PluginEvent} {s s' : Plugin} {a : PluginAction} {e : PluginEvent}
    (h : PluginStep s a e s') (hk : Consistent s) (hr : Recorded tr s) : Recorded (tr ++ [e]) s' := by
  have hreg (hc : created e = none) (hu : ∀ amx, e ≠ .unloadFinished amx) :
      registryAfter (registry tr) e = registry tr := by
    rw [registryAfter, hc, Option.toList_none, List.append_nil]
    exact hu
  cases h with
  | client pointer input h h' ev c e' results hh hs hc =>
      cases (hostStep_of_step hs).2
      exact hr.moved hh hs (by simp) rfl rfl (hreg rfl (by simp)) rfl rfl rfl
  | quiet amx native params value statementRegistry ht =>
      have hc : created (.returned amx native params value none) = none := by
        cases native <;> rfl
      exact hr.same rfl hc (hreg hc (by simp)) rfl rfl rfl
  | free amx resultId ht | fetch amx resultId value ht =>
      exact hr.same rfl rfl (hreg rfl (by simp)) rfl rfl rfl
  | connect amx params request ht =>
      refine recorded_connect (c := ⟨_, amx, s.hosts.length⟩) hr rfl rfl rfl rfl rfl ?_ rfl rfl rfl rfl
      rw [UInt32.toUInt32_toInt32, ConnectionController.connect, hk.latest, idOf_eq]
  | query amx native params id pointer request h h' ev ht hn hc hh hs =>
      cases (hostStep_of_step hs).2
      have hcr : created (.returned amx native params 1 (some (pointer, .querySubmitted request))) =
          none := by
        cases native <;> first | rfl | simp [Native.submits] at hn
      exact hr.moved hh hs (by simp) rfl hcr (hreg hcr (by simp)) rfl rfl rfl
  | stop amx params id pointer h h' ev ht hc hh hs =>
      cases (hostStep_of_step hs).2
      refine hr.moved hh hs (by simp) rfl rfl (hreg rfl (by simp)) rfl rfl ?_
      rw [ht]
      rfl
  | stopped amx params pointer h h' ev ht hh hs =>
      cases (hostStep_of_step hs).2
      refine hr.moved hh hs (by simp) rfl rfl (hreg rfl (by simp)) rfl rfl ?_
      rw [ht]
      rfl
  | frame ht hi =>
      exact hr.same (by simp) rfl (hreg rfl (by simp)) rfl rfl (by simp)
  | tick publics id pointer h h' ev ht hi hc hh hs =>
      have hne : ev ≠ .destroyed := by cases (hostStep_of_step hs).2 <;> simp
      have hd : destroyedAt (.host pointer ev) = none := by
        cases ev <;> first | rfl | simp at hne
      exact hr.moved hh hs hne rfl rfl (hreg rfl (by simp)) rfl hd rfl
  | unload amx ht =>
      exact recorded_unload hr ht rfl rfl
  | halt amx id pointer remaining h h' a ev ht ha hh hs =>
      have hne : ev ≠ .destroyed := by
        rintro rfl
        cases (hostStep_of_step hs).2
        simp at ha
      have hd : destroyedAt (.host pointer ev) = none := by
        cases ev <;> first | rfl | simp at hne
      exact hr.moved hh hs hne rfl rfl (hreg rfl (by simp)) rfl hd rfl
  | destroy amx id pointer remaining h h' ev ht hh hs =>
      obtain ⟨-, g, hg, -, hrun⟩ := ((hk.removal amx _ ht).2 id pointer).mp (List.mem_cons_self ..)
      cases hh.symm.trans hg
      cases (hostStep_of_step hs).2
      exact recorded_destroy hr (by rw [ht]; rfl) hrun hh hs rfl rfl
  | unloaded amx ht =>
      refine recorded_unloaded hr (by rw [ht]; rfl) ?_ rfl rfl
      intro p hown
      simpa using ((hk.removal amx [] ht).2 (idOf p) p).mpr ⟨rfl, hown⟩
  | undefinedBehaviour amx native params ht =>
      exact hr.same rfl rfl (hreg rfl (by simp)) rfl rfl (by rw [ht]; rfl)
  | staleHandle amx native params id p ht hc hh =>
      exact absurd rfl (hk.no_useAfterFree (.staleHandle amx native params id p ht hc hh))
  | staleIterator publics id ht hi hh =>
      exact absurd rfl (hk.no_useAfterFree (.staleIterator publics id ht hi hh))
  | staleRemoval amx id p remaining ht hh =>
      exact absurd rfl (hk.no_useAfterFree (.staleRemoval amx id p remaining ht hh))

theorem connection_of_call {s s' : Plugin} {a : PluginAction} {e : PluginEvent} {p : Nat}
    (h : PluginStep s a e s') (he : callOf e = some p) :
    ∃ id, s.connectionController.connection id = some p := by
  cases h with
  | tick publics id pointer h h' ev ht hi hc hh hs =>
      have hp : pointer = p := by cases ev <;> simp_all [callOf]
      exact ⟨id, hp ▸ hc⟩
  | client _ _ _ _ _ _ _ _ _ hs | stop _ _ _ _ _ _ _ _ _ _ hs | destroy _ _ _ _ _ _ _ _ _ hs =>
      cases (hostStep_of_step hs).2
      cases he
  | halt _ _ _ _ _ _ _ _ _ ha _ hs =>
      rcases ha with rfl | rfl <;> cases (hostStep_of_step hs).2 <;> cases he
  | _ => cases he

theorem unloading_of_destruction {s s' : Plugin} {a : PluginAction} {e : PluginEvent} {p : Nat}
    (h : PluginStep s a e s') (he : destroyedAt e = some p) :
    ∃ amx id rest, s.task = .unloading amx ((id, p) :: rest) := by
  cases h with
  | destroy amx id pointer remaining h h' ev ht hh hs =>
      cases (hostStep_of_step hs).2
      cases he
      exact ⟨amx, id, remaining, ht⟩
  | client _ _ _ _ _ _ _ _ _ hs | stop _ _ _ _ _ _ _ _ _ _ hs =>
      cases (hostStep_of_step hs).2
      cases he
  | tick _ _ _ _ _ _ _ _ _ _ hs => cases (hostStep_of_step hs).2 <;> cases he
  | halt _ _ _ _ _ _ _ _ _ ha _ hs =>
      rcases ha with rfl | rfl <;> cases (hostStep_of_step hs).2 <;> cases he
  | _ => cases he

/-- What an event may do to the connections that the history has left. -/
structure Orderly (past : List PluginEvent) (e : PluginEvent) : Prop where
  safe : e ≠ .useAfterFree
  present : ∀ p ev, hostEvent e = some (p, ev) → p ∉ destroyed past
  call : ∀ p, callOf e = some p → ∃ c ∈ registry past, c.pointer = p
  removal : ∀ p, destroyedAt e = some p →
    ∃ c ∈ registry past, c.pointer = p ∧ unloading past = some c.owner
  complete : ∀ amx, e = .unloadFinished amx →
    ∀ c ∈ registry past, c.owner = amx → c.pointer ∈ destroyed past

theorem orderly_of_step {tr : List PluginEvent} {s s' : Plugin} {a : PluginAction} {e : PluginEvent}
    (h : PluginStep s a e s') (hk : Consistent s) (hr : Recorded tr s) : Orderly tr e := by
  refine ⟨hk.no_useAfterFree h, ?_, ?_, ?_, ?_⟩
  · intro p ev he
    rw [hr.gone]
    rintro ⟨g, hg, hdel⟩
    cases hostsStep_of_pluginStep h with
    | same hn => simp [hn] at he
    | moved q h h' a' e' hh hs he' =>
        cases he'.symm.trans he
        cases hh.symm.trans hg
        simp [(hostStep_of_step hs).1] at hdel
    | created script id request he' =>
        cases he'.symm.trans he
        simp at hg
  · intro p he
    obtain ⟨id, hc⟩ := connection_of_call h he
    obtain ⟨-, amx, hown⟩ := (hk.mapped id p).mp hc
    exact ⟨_, hr.owned p amx hown, rfl⟩
  · intro p he
    obtain ⟨amx, id, rest, ht⟩ := unloading_of_destruction h he
    obtain ⟨-, hown⟩ := ((hk.removal amx _ ht).2 id p).mp (List.mem_cons_self ..)
    refine ⟨_, hr.owned p amx hown, rfl, ?_⟩
    rw [hr.current, ht]
    rfl
  · rintro amx rfl c hc hown
    cases h with
    | unloaded _ ht =>
        obtain ⟨-, g, hg, hrun⟩ := hr.hosts c (hr.registered c hc)
        rw [hr.gone]
        refine ⟨g, hg, ?_⟩
        by_contra hd
        have ho : Owns s c.pointer amx := ⟨g, hg, by simpa using hd, hrun.trans hown⟩
        simpa using ((hk.removal amx [] ht).2 (idOf c.pointer) c.pointer).mpr ⟨rfl, ho⟩

def UnloadStep (amx : Amx) (tr : List PluginEvent) : PluginAction → Prop
  | .amxUnload amx' => amx' = amx
  | .resume => unloading tr = some amx
  | _ => False

theorem unload_frame {tr : List PluginEvent} {s s' : Plugin} {a : PluginAction} {e : PluginEvent}
    {amx : Amx} (h : PluginStep s a e s') (hk : Consistent s) (hr : Recorded tr s)
    (ha : UnloadStep amx tr a) {c : Connection} (hc : c ∈ registry tr) (hne : c.owner ≠ amx) :
    s'.connectionController.connection c.id = some c.pointer ∧
      s'.hosts[c.pointer]? = s.hosts[c.pointer]? := by
  have hu : unloading tr ≠ some c.owner → s.connectionController.connection c.id = some c.pointer :=
    fun hu => (hk.mapped _ _).mpr
      ⟨(hr.hosts c (hr.registered c hc)).1, c.owner, hr.live c hc hu⟩
  have hother {id : UInt32} {q : Nat} {rest : List (UInt32 × Nat)}
      (ht : s.task = .unloading amx ((id, q) :: rest)) :
      s.connectionController.connection id = some q ∧ q ≠ c.pointer := by
    obtain ⟨hid, hown⟩ := ((hk.removal amx _ ht).2 id q).mp (List.mem_cons_self ..)
    refine ⟨(hk.mapped _ _).mpr ⟨hid, amx, hown⟩, ?_⟩
    -- a host on the list is one of the script that is unloaded, so it is not that of c
    rintro rfl
    obtain ⟨-, g, hg, hrun⟩ := hr.hosts c (hr.registered c hc)
    obtain ⟨g', hg', -, hrun'⟩ := hown
    cases hg.symm.trans hg'
    exact hne (hrun.symm.trans hrun')
  have hidle {amx' : Amx} (ht : unloadingTask s.task = some amx') (hn : amx' ≠ c.owner) :
      s.connectionController.connection c.id = some c.pointer := by
    refine hu ?_
    rw [hr.current, ht]
    exact fun h => hn (Option.some.inj h)
  cases h with
  | unload amx' ht =>
      refine ⟨hu ?_, rfl⟩
      rw [hr.current, ht]
      simp [unloadingTask]
  | stopped amx' params pointer h h' ev ht hh hs =>
      rw [UnloadStep, hr.current, ht] at ha
      simp [unloadingTask] at ha
  | halt amx' id pointer remaining h h' a ev ht ha' hh hs =>
      have hamx : amx' = amx := by simpa [UnloadStep, hr.current, ht, unloadingTask] using ha
      subst hamx
      refine ⟨hidle (by rw [ht]; rfl) (Ne.symm hne), ?_⟩
      rw [List.getElem?_set_ne (hother ht).2]
  | destroy amx' id pointer remaining h h' ev ht hh hs =>
      have hamx : amx' = amx := by simpa [UnloadStep, hr.current, ht, unloadingTask] using ha
      subst hamx
      obtain ⟨hcon, hp⟩ := hother ht
      have hcon' := hidle (by rw [ht]; rfl) (Ne.symm hne)
      have hid : id ≠ c.id := by
        rintro rfl
        exact hp (Option.some.inj (hcon.symm.trans hcon'))
      constructor
      · rw [ConnectionController.connection_erase, if_neg hid]
        exact hcon'
      · rw [List.getElem?_set_ne hp]
  | unloaded amx' ht =>
      have hamx : amx' = amx := by simpa [UnloadStep, hr.current, ht, unloadingTask] using ha
      subst hamx
      exact ⟨hidle (by rw [ht]; rfl) (Ne.symm hne), rfl⟩
  | staleRemoval amx' id p remaining ht hh =>
      exact absurd rfl (hk.no_useAfterFree (.staleRemoval amx' id p remaining ht hh))
  | _ => exact ha.elim

theorem guarded_recorded {lib : Externals} {tr : List PluginEvent} {s : Plugin}
    (hg : Guarded (Plugin.step lib) NotFromInside Plugin.new tr s)
    (hb : (issued tr).length < 2 ^ 32) : Consistent s ∧ Recorded tr s ∧ Always Orderly tr := by
  induction hg with
  | start => exact ⟨consistent_new, .new, always_nil _⟩
  | step hg ha hs ih =>
      have hstep := pluginStep_of_step hs
      obtain ⟨hk, hr, ho⟩ := ih (by rw [issued_snoc, List.length_append] at hb; omega)
      have hr' := recorded_step hstep hk hr
      refine ⟨consistent_step hstep ha ?_ hk, hr', (always_snoc ..).mpr ⟨ho, orderly_of_step hstep hk hr⟩⟩
      rw [← hr'.length_issued]
      exact hb

/-- The registry does what it is there for: every id is new, an id leads to the
host that was made for it until its script is unloaded, and an unload takes
exactly the hosts of its script. -/
structure Consistent (lib : Externals) (tr : List PluginEvent) (s : Plugin) : Prop where
  increasing : ((issued tr).map (·.id)).Pairwise (· < ·)
  nonzero : ∀ c ∈ issued tr, c.id ≠ 0
  distinct : ((issued tr).map (·.pointer)).Nodup
  hosts : ∀ c ∈ issued tr, ∃ h, s.hosts[c.pointer]? = some h ∧ h.connectionId = c.id ∧
    h.script.runtime = c.owner
  found : unloading tr = none → ∀ id p, s.connectionController.connection id = some p ↔
    ∃ owner, ⟨id, owner, p⟩ ∈ registry tr
  alive : ∀ c ∈ registry tr, unloading tr ≠ some c.owner →
    ∃ h, s.hosts[c.pointer]? = some h ∧ h.deleted = false
  orderly : Always Orderly tr
  once : (destroyed tr).Nodup
  frame : ∀ a s' e amx, Plugin.step lib s a = some (s', e) → UnloadStep amx tr a →
    ∀ c ∈ registry tr, c.owner ≠ amx →
      s'.connectionController.connection c.id = some c.pointer ∧
        s'.hosts[c.pointer]? = s.hosts[c.pointer]?

theorem registry_consistent (lib : Externals) (acts : List PluginAction)
    (ha : Along (Plugin.step lib) NotFromInside [] Plugin.new acts)
    (hb : (issued (run (Plugin.step lib) Plugin.new acts).1).length < 2 ^ 32) :
    Consistent lib (run (Plugin.step lib) Plugin.new acts).1
      (run (Plugin.step lib) Plugin.new acts).2 := by
  have hg := guarded_run ha
  revert hb hg
  generalize (run (Plugin.step lib) Plugin.new acts).1 = tr
  generalize (run (Plugin.step lib) Plugin.new acts).2 = s
  intro hb hg
  obtain ⟨hk, hr, ho⟩ := guarded_recorded hg hb
  rw [hr.length_issued] at hb
  have hids : (issued tr).map (·.id) = (List.range s.hosts.length).map idOf := by
    rw [← hr.pointers, List.map_map]
    exact List.map_congr_left fun c hc => (hr.hosts c hc).1
  refine ⟨?_, ?_, ?_, ?_, ?_, ?_, ho, hr.once, ?_⟩
  · rw [hids, List.pairwise_map]
    refine List.pairwise_lt_range.imp_of_mem fun hp hq hlt => ?_
    rw [List.mem_range] at hp hq
    rw [UInt32.lt_iff_toNat_lt, toNat_idOf (by omega), toNat_idOf (by omega)]
    omega
  · intro c hc h
    have hlt := hr.pointer_lt hc
    have hn := toNat_idOf (n := c.pointer) (by omega)
    rw [← (hr.hosts c hc).1, h] at hn
    simp at hn
  · rw [hr.pointers]
    exact List.nodup_range
  · intro c hc
    obtain ⟨hid, h, hh, hrun⟩ := hr.hosts c hc
    exact ⟨h, hh, (hk.ids _ h hh).trans hid.symm, hrun⟩
  · intro hu id p
    rw [hk.mapped]
    constructor
    · rintro ⟨rfl, amx, hown⟩
      exact ⟨amx, hr.owned p amx hown⟩
    · rintro ⟨owner, hc⟩
      exact ⟨(hr.hosts _ (hr.registered _ hc)).1, owner, hr.live _ hc (by simp [hu])⟩
  · intro c hc hu
    obtain ⟨h, hh, hd, -⟩ := hr.live c hc hu
    exact ⟨h, hh, hd⟩
  · intro a s' e amx hs hu c hc hne
    exact unload_frame (pluginStep_of_step hs) hk hr hu hc hne

def unloadOfOne : List PluginAction :=
  let connect (amx : Amx) : PluginAction :=
    .native amx .connect [.text "h", .text "u", .text "p", .text "d", .number 3306]
  [connect 1, connect 2, .amxUnload 1, .resume] ++ clientTurns 0 4 .empty ++
    [.resume, .resume, .resume, connect 2]

theorem registry_consistent_unloadOfOne :
    registry (run (Plugin.step plainText) Plugin.new unloadOfOne).1 = [⟨2, 2, 1⟩, ⟨3, 2, 2⟩] ∧
      Consistent plainText (run (Plugin.step plainText) Plugin.new unloadOfOne).1
        (run (Plugin.step plainText) Plugin.new unloadOfOne).2 :=
  ⟨by decide, registry_consistent plainText unloadOfOne (by decide) (by decide)⟩

end MysqlPlugin.ScriptConnections
