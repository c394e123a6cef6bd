import MysqlPlugin.ConnectionRegistry

namespace MysqlPlugin.LiveConnections

open ConnectionRegistry HostHistory Transition

def IsThere (hosts : List ConnectionHost) (pointer : Nat) : Prop :=
  ∃ h, hosts[pointer]? = some h ∧ h.deleted = false

theorem isThere_set {hosts : List ConnectionHost} {p q : Nat} {h h' : ConnectionHost}
    (hh : hosts[q]? = some h) (hd : q = p → h'.deleted = false) (hp : IsThere hosts p) :
    IsThere (hosts.set q h') p := by
  obtain ⟨g, hg, hgd⟩ := hp
  by_cases hq : q = p
  · exact ⟨h', (getElem?_set_some hh).mpr (.inl ⟨hq, rfl⟩), hd hq⟩
  · exact ⟨g, (getElem?_set_some hh).mpr (.inr ⟨hq, hg⟩), hgd⟩

/-- The map as the host thread relies on it, in every run: its hosts are there,
under one id each, and so are those that an unload has still to delete. Ids that
are given out again and scripts that are unloaded from inside do not change that. -/
structure Live (s : Plugin) : Prop where
  mapped : ∀ id p, s.connectionController.connection id = some p → IsThere s.hosts p
  injective : ∀ id id' p, s.connectionController.connection id = some p →
    s.connectionController.connection id' = some p → id = id'
  removal : ∀ amx rest, s.task = .unloading amx rest →
    rest.Nodup ∧ ∀ id p, (id, p) ∈ rest → s.connectionController.connection id = some p
  waiting : ∀ p h, s.hosts[p]? = some h → h.joining = true → Awaited s.task p

theorem live_new : Live Plugin.new := by
  constructor <;> simp [Plugin.new, ConnectionController.new, ConnectionController.connection]

namespace Live

variable {s s' : Plugin}

theorem not_joining (hl : Live s) (ht : s.task = .idle) {p : Nat} {h : ConnectionHost}
    (hh : s.hosts[p]? = some h) : h.joining = false :=
  not_joining_of_idle hl.waiting ht hh

theorem same (hl : Live s) (hh : s'.hosts = s.hosts)
    (hc : s'.connectionController = s.connectionController)
    (hw : ∀ p h, s.hosts[p]? = some h → h.joining = true → Awaited s'.task p)
    (hr : ∀ amx rest, s'.task = .unloading amx rest →
      rest.Nodup ∧ ∀ id p, (id, p) ∈ rest → s.connectionController.connection id = some p) :
    Live s' := by
  refine ⟨?_, ?_, ?_, ?_⟩
  · rw [hc, hh]
    exact hl.mapped
  · rw [hc]
    exact hl.injective
  · rw [hc]
    exact hr
  · rw [hh]
    exact hw

theorem same_idle (hl : Live s) (ht : s.task = .idle) (hh : s'.hosts = s.hosts)
    (hc : s'.connectionController = s.connectionController)
    (hr : ∀ amx rest, s'.task ≠ .unloading amx rest) : Live s' := by
  apply hl.same hh hc
  · intro p h hp hj
    simp [hl.not_joining ht hp] at hj
  · exact fun amx rest hu => absurd hu (hr amx rest)

theorem moved (hl : Live s) {q : Nat} {h h' : ConnectionHost} {a : HostAction} {e : HostEvent}
    (hh : s.hosts[q]? = some h) (hs : ConnectionHost.step h a = some (h', e)) (hne : e ≠ .destroyed)
    (hh' : s'.hosts = s.hosts.set q h')
    (hc : s'.connectionController = s.connectionController)
    (hw : h'.joining = true → Awaited s'.task q)
    (hw' : ∀ p g, p ≠ q → s.hosts[p]? = some g → g.joining = true → Awaited s'.task p)
    (hr : ∀ amx rest, s'.task = .unloading amx rest → s.task = .unloading amx rest) : Live s' := by
  obtain ⟨hd, hstep⟩ := hostStep_of_step hs
  have hd' : h'.deleted = false := by
    rw [← Bool.not_eq_true, hstep.deleted_iff hd]
    exact hne
  refine ⟨?_, ?_, ?_, ?_⟩
  · intro id p hp
    rw [hh']
    exact isThere_set hh (fun _ => hd') (hl.mapped id p (hc ▸ hp))
  · rw [hc]
    exact hl.injective
  · intro amx rest hu
    rw [hc]
    exact hl.removal amx rest (hr amx rest hu)
  · exact awaited_set hh hh' hw hw'

theorem moved_idle (hl : Live s) (ht : s.task = .idle) {q : Nat} {h h' : ConnectionHost}
    {a : HostAction} {e : HostEvent} (hh : s.hosts[q]? = some h)
    (hs : ConnectionHost.step h a = some (h', e)) (hne : e ≠ .destroyed)
    (hh' : s'.hosts = s.hosts.set q h')
    (hc : s'.connectionController = s.connectionController)
    (hw : e = .shutdownRequested → Awaited s'.task q)
    (hr : ∀ amx rest, s'.task ≠ .unloading amx rest) : Live s' := by
  apply hl.moved hh hs hne hh' hc
  · intro hj
    rcases (hostStep_of_step hs).2.joining_of hj with ⟨hj', -⟩ | he
    · simp [hl.not_joining ht hh] at hj'
    · exact hw he
  · intro p g _ hg hj
    simp [hl.not_joining ht hg] at hj
  · exact fun amx rest hu => absurd hu (hr amx rest)

theorem created (hl : Live s) (ht : s.task = .idle) (amx : Amx) (request : ConnectionInformation)
    (hc : s'.connectionController = (s.connectionController.connect s.hosts.length).1)
    (hh : s'.hosts = s.hosts ++ [(ConnectionHost.new (Script.new amx)
      (s.connectionController.connect s.hosts.length).2).connect request])
    (ht' : s'.task = s.task) : Live s' := by
  have hold {id : UInt32} {p : Nat} (h : s.connectionController.connection id = some p) :
      p < s.hosts.length := by
    obtain ⟨g, hg, -⟩ := hl.mapped id p h
    exact (List.getElem?_eq_some_iff.mp hg).1
  refine ⟨?_, ?_, ?_, ?_⟩
  · intro id p hp
    rw [hc, ConnectionController.connection_connect] at hp
    rw [hh]
    split_ifs at hp
    · cases hp
      exact ⟨_, getElem?_snoc_some.mpr (.inr ⟨rfl, rfl⟩), rfl⟩
    · obtain ⟨g, hg, hd⟩ := hl.mapped id p hp
      exact ⟨g, getElem?_snoc_some.mpr (.inl hg), hd⟩
  · intro id id' p hp hp'
    rw [hc, ConnectionController.connection_connect] at hp hp'
    split_ifs at hp hp' with hi hi'
    · exact hi.symm.trans hi'
    · cases hp
      exact absurd (hold hp') (Nat.lt_irrefl _)
    · cases hp'
      exact absurd (hold hp) (Nat.lt_irrefl _)
    · exact hl.injective id id' p hp hp'
  · intro amx rest hu
    simp [ht', ht] at hu
  · exact awaited_created hl.waiting ht hh

theorem joined (hl : Live s) {amx : Amx} {params : List Param} {q : Nat} {h h' : ConnectionHost}
    {e : HostEvent} (ht : s.task = .closing amx params q) (hh : s.hosts[q]? = some h)
    (hs : ConnectionHost.step h .joinThread = some (h', e)) (hh' : s'.hosts = s.hosts.set q h')
    (hc : s'.connectionController = s.connectionController) (ht' : s'.task = .idle) : Live s' := by
  cases (hostStep_of_step hs).2 with
  | join =>
      apply hl.moved hh hs (by simp) hh' hc
      · simp [ConnectionHost.joining]
      · intro p g hp hg hj
        have hw := hl.waiting p g hg hj
        rw [ht, awaited_closing] at hw
        exact absurd hw.symm hp
      · simp [ht']

theorem destroyed (hl : Live s) {amx : Amx} {id : UInt32} {q : Nat}
    {remaining : List (UInt32 × Nat)} {h h' : ConnectionHost} {e : HostEvent}
    (ht : s.task = .unloading amx ((id, q) :: remaining)) (hh : s.hosts[q]? = some h)
    (hs : ConnectionHost.step h .destroy = some (h', e)) (hh' : s'.hosts = s.hosts.set q h')
    (hc : s'.connectionController = s.connectionController.erase id)
    (ht' : s'.task = .unloading amx remaining) : Live s' := by
  obtain ⟨hnd, hrest⟩ := hl.removal amx _ ht
  rw [List.nodup_cons] at hnd
  have hq := hrest id q (List.mem_cons_self ..)
  refine ⟨?_, ?_, ?_, ?_⟩
  · intro id' p hp
    rw [hc, ConnectionController.connection_erase] at hp
    split_ifs at hp with hi
    rw [hh']
    apply isThere_set hh _ (hl.mapped id' p hp)
    rintro rfl
    exact absurd (hl.injective id id' q hq hp) hi
  · intro id₁ id₂ p hp hp'
    rw [hc, ConnectionController.connection_erase] at hp hp'
    split_ifs at hp hp'
    exact hl.injective id₁ id₂ p hp hp'
  · intro amx' rest hu
    cases ht'.symm.trans hu
    refine ⟨hnd.2, fun id' p hm => ?_⟩
    have hp := hrest id' p (List.mem_cons_of_mem _ hm)
    rw [hc, ConnectionController.connection_erase, if_neg]
    · exact hp
    · rintro rfl
      cases hq.symm.trans hp
      exact hnd.1 hm
  · exact awaited_destroyed hl.waiting ht hh hs hh'

theorem unloads (hl : Live s) (ht : s.task = .idle) (amx : Amx) : Live (s.amxUnload amx) := by
  refine hl.same rfl rfl ?_ ?_
  · intro p h hp hj
    simp [hl.not_joining ht hp] at hj
  · intro amx' rest hu
    simp only [Plugin.amxUnload, Task.unloading.injEq] at hu
    obtain ⟨-, rfl⟩ := hu
    refine ⟨ConnectionController.nodup_removeVector .., fun id p hm => ?_⟩
    exact (ConnectionController.mem_removeVector.mp hm).1

end Live

theorem live_step {s s' : Plugin} {a : PluginAction} {e : PluginEvent} (h : PluginStep s a e s')
    (hl : Live s) : Live s' := by
  cases h with
  | client pointer input h h' e c e' results hh hs hc =>
      cases (hostStep_of_step hs).2 with
      | client _ _ ev c' hcs =>
          refine hl.moved hh hs (by simp) rfl rfl ?_ ?_ ?_
          · intro hj
            refine hl.waiting pointer h hh ?_
            simpa [ConnectionHost.joining, hcs.flags_eq.1, hcs.flags_eq.2] using hj
          · exact fun p g _ => hl.waiting p g
          · exact fun amx rest hu => hu
  | quiet amx native params value statementRegistry ht => exact hl.same_idle ht rfl rfl (by simp [ht])
  | free amx resultId ht => exact hl.same_idle ht rfl rfl (by simp [ht])
  | fetch amx resultId value ht => exact hl.same_idle ht rfl rfl (by simp [ht])
  | connect amx params request ht => exact hl.created ht amx request rfl rfl rfl
  | query amx native params id pointer request h h' e ht hn hc hh hs =>
      cases (hostStep_of_step hs).2 with
      | query => exact hl.moved_idle ht hh hs (by simp) rfl rfl (by simp) (by simp [ht])
  | stop amx params id pointer h h' e ht hc hh hs =>
      cases (hostStep_of_step hs).2 with
      | requestShutdown =>
          exact hl.moved_idle ht hh hs (by simp) rfl rfl (fun _ => .inl ⟨amx, params, rfl⟩) (by simp)
  | stopped amx params pointer h h' e ht hh hs => exact hl.joined ht hh hs rfl rfl rfl
  | frame ht hi =>
      exact hl.same_idle ht s.processTick_hosts s.processTick_connectionController (by simp [ht])
  | tick publics id pointer h h' e ht hi hc hh hs =>
      have hne : e ≠ .destroyed ∧ e ≠ .shutdownRequested := by
        cases (hostStep_of_step hs).2 <;> simp
      exact hl.moved_idle ht hh hs hne.1 rfl rfl (fun he => absurd he hne.2) (by simp [ht])
  | unload amx ht => exact hl.unloads ht amx
  | halt amx id pointer remaining h h' a e ht ha hh hs =>
      have hne : e ≠ .destroyed := by
        rintro rfl
        cases (hostStep_of_step hs).2
        simp at ha
      refine hl.moved hh hs hne rfl rfl ?_ ?_ ?_
      · exact fun _ => .inr ⟨amx, id, remaining, ht⟩
      · exact fun p g _ => hl.waiting p g
      · exact fun amx rest hu => hu
  | destroy amx id pointer remaining h h' e ht hh hs => exact hl.destroyed ht hh hs rfl rfl rfl
  | unloaded amx ht =>
      refine hl.same rfl rfl ?_ ?_
      · intro p g hg hj
        simpa [ht] using hl.waiting p g hg hj
      · simp
  | undefinedBehaviour amx native params ht => exact hl.same_idle ht rfl rfl (by simp [Plugin.crash])
  | staleHandle amx native params id p ht hc hh =>
      exact hl.same_idle ht rfl rfl (by simp [Plugin.crash])
  | staleIterator publics id ht hi hh => exact hl.same_idle ht rfl rfl (by simp [Plugin.crash])
  | staleRemoval amx id p remaining ht hh =>
      obtain ⟨g, hg, hd⟩ := hl.mapped id p ((hl.removal amx _ ht).2 id p (List.mem_cons_self ..))
      simp [hh g hg] at hd

theorem reach_live {lib : Externals} {tr : List PluginEvent} {s : Plugin}
    (hr : Reach (Plugin.step lib) Plugin.new tr s) : Live s := by
  induction hr with
  | start => exact live_new
  | step _ hs ih => exact live_step (pluginStep_of_step hs) ih

theorem Live.query {s : Plugin} (hl : Live s) (ht : s.task = .idle) {id : UInt32} {p : Nat}
    (hc : s.connectionController.connection id = some p) (request : QueryInformation) :
    ∃ h, s.hosts[p]? = some h ∧ h.deleted = false ∧
      s.query p request =
        .returned { s with hosts := s.hosts.set p (h.query request) } 1
          (some (p, .querySubmitted request)) := by
  obtain ⟨h, hh, hd⟩ := hl.mapped id p hc
  refine ⟨h, hh, hd, ?_⟩
  simp [Plugin.query, Plugin.touch, hh, ConnectionHost.step, hd, hl.not_joining ht hh]

end MysqlPlugin.LiveConnections
