import MysqlPlugin.PluginSteps

namespace MysqlPlugin.HostHistory

open Transition

def hostEvent : PluginEvent → Option (Nat × HostEvent)
  | .returned _ _ _ _ touched => touched
  | .host pointer event => some (pointer, event)
  | _ => none

def hostEventAt (pointer : Nat) (e : PluginEvent) : Option HostEvent :=
  (hostEvent e).bind fun (q, event) => if q = pointer then some event else none

def history (pointer : Nat) (tr : List PluginEvent) : List HostEvent :=
  tr.filterMap (hostEventAt pointer)

theorem getElem?_set_some {hosts : List ConnectionHost} {p q : Nat} {g h h' : ConnectionHost}
    (hh : hosts[q]? = some h) :
    (hosts.set q h')[p]? = some g ↔ q = p ∧ h' = g ∨ q ≠ p ∧ hosts[p]? = some g := by
  have hlt : q < hosts.length := (List.getElem?_eq_some_iff.mp hh).1
  rw [List.getElem?_set]
  by_cases hp : q = p
  · simp [hp, hp ▸ hlt]
  · simp [hp]

theorem getElem?_snoc_some {hosts : List ConnectionHost} {p : Nat} {g h : ConnectionHost} :
    (hosts ++ [h])[p]? = some g ↔ hosts[p]? = some g ∨ hosts.length = p ∧ h = g := by
  rcases Nat.lt_trichotomy p hosts.length with hp | rfl | hp
  · simp [List.getElem?_append_left hp, Nat.ne_of_gt hp]
  · simp
  · have hn : (hosts ++ [h])[p]? = none :=
      List.getElem?_eq_none (by rw [List.length_append, List.length_singleton]; omega)
    simp [hn, List.getElem?_eq_none (Nat.le_of_lt hp), Nat.ne_of_lt hp]

inductive HostsStep (s s' : Plugin) (e : PluginEvent) : Prop
  | same (he : hostEvent e = none) (hh : s'.hosts = s.hosts)
  | moved (pointer : Nat) (h h' : ConnectionHost) (a : HostAction) (e' : HostEvent)
      (hh : s.hosts[pointer]? = some h) (hs : ConnectionHost.step h a = some (h', e'))
      (he : hostEvent e = some (pointer, e')) (hh' : s'.hosts = s.hosts.set pointer h')
  | created (script : Script) (connectionId : UInt32) (request : ConnectionInformation)
      (he : hostEvent e = some (s.hosts.length, .connectionRequested request))
      (hh : s'.hosts = s.hosts ++ [(ConnectionHost.new script connectionId).connect request])

theorem hostsStep_of_pluginStep {s s' : Plugin} {a : PluginAction} {e : PluginEvent}
    (h : PluginStep s a e s') : HostsStep s s' e := by
  cases h with
  | client pointer input h h' e c e' results hh hs => exact .moved pointer h h' _ e hh hs rfl rfl
  | query amx native params id pointer request h h' e ht hn hc hh hs =>
      exact .moved pointer h h' _ e hh hs rfl rfl
  | stop amx params id pointer h h' e ht hc hh hs => exact .moved pointer h h' _ e hh hs rfl rfl
  | stopped amx params pointer h h' e ht hh hs => exact .moved pointer h h' _ e hh hs rfl rfl
  | tick publics id pointer h h' e ht hi hc hh hs => exact .moved pointer h h' _ e hh hs rfl rfl
  | halt amx id pointer remaining h h' a e ht ha hh hs => exact .moved pointer h h' a e hh hs rfl rfl
  | destroy amx id pointer remaining h h' e ht hh hs => exact .moved pointer h h' _ e hh hs rfl rfl
  | connect amx params request ht => exact .created _ _ request rfl rfl
  | frame =>
      refine .same rfl ?_
      rw [Plugin.processTick]
      split <;> rfl
  | quiet | free | fetch | unload | unloaded | undefinedBehaviour | staleHandle | staleIterator
  | staleRemoval => exact .same rfl rfl

theorem history_append (pointer : Nat) (tr es : List PluginEvent) :
    history pointer (tr ++ es) = history pointer tr ++ history pointer es :=
  List.filterMap_append

theorem history_snoc (pointer : Nat) (tr : List PluginEvent) (e : PluginEvent) :
    history pointer (tr ++ [e]) = history pointer tr ++ (hostEventAt pointer e).toList :=
  filterMap_snoc ..

/-- Every host behaves as a host does alone: its history is that of a run of
ConnectionHost.step, and an address not yet used has none. -/
structure Projects (tr : List PluginEvent) (s : Plugin) : Prop where
  run : ∀ pointer h, s.hosts[pointer]? = some h →
    ∃ script id, Reach ConnectionHost.step (ConnectionHost.new script id) (history pointer tr) h
  unused : ∀ pointer, s.hosts[pointer]? = none → history pointer tr = []

theorem projects_step {tr : List PluginEvent} {s s' : Plugin} {e : PluginEvent}
    (h : HostsStep s s' e) (hp : Projects tr s) : Projects (tr ++ [e]) s' := by
  obtain ⟨hr, hu⟩ := hp
  cases h with
  | same he hh =>
      have hn (p : Nat) : history p (tr ++ [e]) = history p tr := by
        simp [history_snoc, hostEventAt, he]
      constructor
      · intro p h hp
        rw [hn]
        exact hr p h (hh ▸ hp)
      · intro p hp
        rw [hn]
        exact hu p (hh ▸ hp)
  | moved q h h' a e' hh hs he hh' =>
      constructor
      · intro p g hg
        rw [hh', getElem?_set_some hh] at hg
        rw [history_snoc, hostEventAt, he]
        rcases hg with ⟨rfl, rfl⟩ | ⟨hq, hg⟩
        · obtain ⟨script, id, hreach⟩ := hr q h hh
          exact ⟨script, id, by simpa using hreach.step hs⟩
        · simpa [hq] using hr p g hg
      · intro p hp
        have hq : q ≠ p := by
          rintro rfl
          rw [hh', List.getElem?_set_self (List.getElem?_eq_some_iff.mp hh).1] at hp
          cases hp
        rw [hh', List.getElem?_set_ne hq] at hp
        simp [history_snoc, hostEventAt, he, hq, hu p hp]
  | created script id request he hh =>
      constructor
      · intro p g hg
        rw [hh, getElem?_snoc_some] at hg
        rw [history_snoc, hostEventAt, he]
        rcases hg with hg | ⟨rfl, rfl⟩
        · have hp : s.hosts.length ≠ p := Nat.ne_of_gt (List.getElem?_eq_some_iff.mp hg).1
          simpa [hp] using hr p g hg
        · have hs : ConnectionHost.step (ConnectionHost.new script id) (.connect request) =
              some ((ConnectionHost.new script id).connect request, .connectionRequested request) :=
            rfl
          have hn : history s.hosts.length tr = [] := hu _ (List.getElem?_eq_none (Nat.le_refl _))
          refine ⟨script, id, ?_⟩
          simpa [hn] using Reach.start.step hs
      · intro p hp
        rw [hh, List.getElem?_eq_none_iff, List.length_append, List.length_singleton] at hp
        have hn : history p tr = [] := hu p (List.getElem?_eq_none (by omega))
        have hq : s.hosts.length ≠ p := by omega
        simp [history_snoc, hostEventAt, he, hq, hn]

theorem reach_projects {lib : Externals} {tr : List PluginEvent} {s : Plugin}
    (hr : Reach (Plugin.step lib) Plugin.new tr s) : Projects tr s := by
  induction hr with
  | start => exact ⟨by simp [Plugin.new], fun _ _ => rfl⟩
  | step _ hs ih => exact projects_step (hostsStep_of_pluginStep (pluginStep_of_step hs)) ih

end MysqlPlugin.HostHistory
