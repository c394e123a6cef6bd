import MysqlPlugin.CheckedPops
import MysqlPlugin.LiveConnections

namespace MysqlPlugin.TickVisits

open CheckedPops ConnectionHost HostHistory LiveConnections Transition

/-- Every id tells the address of its host, and the hosts are outside of their
processTick, up to the one at the iterator. -/
structure Standing (s : Plugin) : Prop where
  latest : s.connectionController.latestConnectionId = UInt32.ofNat s.hosts.length
  numbered : ∀ id p, s.connectionController.connection id = some p → id = idOf p
  outside : ∀ id p h, s.connectionController.connection id = some p → s.iterator ≠ some id →
    s.hosts[p]? = some h → h.tick = .outside

theorem standing_new : Standing Plugin.new := by
  constructor <;> simp [Plugin.new, ConnectionController.new, ConnectionController.connection]

theorem tick_eq_of_hostStep {h h' : ConnectionHost} {a : HostAction} {e : HostEvent}
    (hs : HostStep h a e h') (ha : ∀ publics, a ≠ .processTick publics) : h'.tick = h.tick := by
  cases hs <;> first | rfl | exact absurd rfl (ha _)

namespace Standing

variable {s s' : Plugin}

theorem same (hs : Standing s) (hh : s'.hosts = s.hosts)
    (hc : s'.connectionController = s.connectionController)
    (hi : ∀ id, s.iterator = some id → s'.iterator = some id) : Standing s' := by
  refine ⟨?_, ?_, ?_⟩
  · rw [hc, hh]
    exact hs.latest
  · rw [hc]
    exact hs.numbered
  · intro id p h hp hne hg
    rw [hc] at hp
    rw [hh] at hg
    exact hs.outside id p h hp (fun h => hne (hi id h)) hg

theorem moved (hs : Standing s) {q : Nat} {h h' : ConnectionHost} {a : HostAction} {e : HostEvent}
    (hh : s.hosts[q]? = some h) (hstep : ConnectionHost.step h a = some (h', e))
    (ha : ∀ publics, a ≠ .processTick publics) (hh' : s'.hosts = s.hosts.set q h')
    (hl : s'.connectionController.latestConnectionId = s.connectionController.latestConnectionId)
    (hc : ∀ id p, s'.connectionController.connection id = some p →
      s.connectionController.connection id = some p)
    (hi : s'.iterator = s.iterator) : Standing s' := by
  refine ⟨?_, fun id p hp => hs.numbered id p (hc id p hp), ?_⟩
  · rw [hl, hh', List.length_set]
    exact hs.latest
  · intro id p g hp hne hg
    rw [hi] at hne
    rw [hh', getElem?_set_some hh] at hg
    rcases hg with ⟨rfl, rfl⟩ | ⟨-, hg⟩
    · rw [tick_eq_of_hostStep (hostStep_of_step hstep).2 ha]
      exact hs.outside id q h (hc id q hp) hne hh
    · exact hs.outside id p g (hc id p hp) hne hg

theorem created (hs : Standing s) (amx : Amx) (request : ConnectionInformation)
    (hc : s'.connectionController = (s.connectionController.connect s.hosts.length).1)
    (hh : s'.hosts = s.hosts ++ [(ConnectionHost.new (Script.new amx)
      (s.connectionController.connect s.hosts.length).2).connect request])
    (hi : s'.iterator = s.iterator) : Standing s' := by
  have hid : s.connectionController.latestConnectionId + 1 = idOf s.hosts.length := by
    rw [hs.latest, idOf_eq]
  refine ⟨?_, ?_, ?_⟩
  · rw [hc, hh, List.length_append]
    exact hid
  · intro id p hp
    rw [hc, ConnectionController.connection_connect, hid] at hp
    split_ifs at hp with he
    · cases hp
      exact he.symm
    · exact hs.numbered id p hp
  · intro id p g hp hne hg
    rw [hc, ConnectionController.connection_connect] at hp
    rw [hi] at hne
    rw [hh, getElem?_snoc_some] at hg
    rcases hg with hg | ⟨rfl, rfl⟩
    · split_ifs at hp
      · cases hp
        exact absurd (List.getElem?_eq_some_iff.mp hg).1 (Nat.lt_irrefl _)
      · exact hs.outside id p g hp hne hg
    · rfl

theorem ticked (hs : Standing s) (hl : Live s) {connectionId : UInt32} {q : Nat}
    {h h' : ConnectionHost} (hi : s.iterator = some connectionId)
    (hq : s.connectionController.connection connectionId = some q) (hh : s.hosts[q]? = some h)
    (hh' : s'.hosts = s.hosts.set q h') (hc : s'.connectionController = s.connectionController)
    (hi' : s'.iterator = if h'.tick = .outside then s.connectionController.next connectionId
      else some connectionId) : Standing s' := by
  refine ⟨?_, ?_, ?_⟩
  · rw [hc, hh', List.length_set]
    exact hs.latest
  · rw [hc]
    exact hs.numbered
  · intro id p g hp hne hg
    rw [hc] at hp
    rw [hh', getElem?_set_some hh] at hg
    rcases hg with ⟨rfl, rfl⟩ | ⟨hqp, hg⟩
    · cases hl.injective id connectionId q hp hq
      by_contra hout
      exact hne (by rw [hi', if_neg hout])
    · refine hs.outside id p g hp ?_ hg
      rw [hi]
      rintro he
      cases he
      exact hqp (Option.some.inj (hq.symm.trans hp))

end Standing

theorem standing_step {s s' : Plugin} {a : PluginAction} {e : PluginEvent} (h : PluginStep s a e s')
    (hl : Live s) (hs : Standing s) : Standing s' := by
  cases h with
  | client pointer input h h' e c e' results hh hstep hc =>
      exact hs.moved hh hstep (by simp) rfl rfl (fun _ _ hp => hp) rfl
  | connect amx params request ht => exact hs.created amx request rfl rfl rfl
  | query amx native params id pointer request h h' e ht hn hc hh hstep =>
      exact hs.moved hh hstep (by simp) rfl rfl (fun _ _ hp => hp) rfl
  | stop amx params id pointer h h' e ht hc hh hstep =>
      exact hs.moved hh hstep (by simp) rfl rfl (fun _ _ hp => hp) rfl
  | stopped amx params pointer h h' e ht hh hstep =>
      exact hs.moved hh hstep (by simp) rfl rfl (fun _ _ hp => hp) rfl
  | frame ht hi =>
      exact hs.same s.processTick_hosts s.processTick_connectionController (by simp [hi])
  | tick publics id pointer h h' e ht hi hc hh hstep => exact hs.ticked hl hi hc hh rfl rfl rfl
  | halt amx id pointer remaining h h' a e ht ha hh hstep =>
      have hne : ∀ publics, a ≠ .processTick publics := by
        rintro publics rfl
        simp at ha
      exact hs.moved hh hstep hne rfl rfl (fun _ _ hp => hp) rfl
  | destroy amx id pointer remaining h h' e ht hh hstep =>
      refine hs.moved hh hstep (by simp) rfl rfl (fun id' p hp => ?_) rfl
      rw [ConnectionController.connection_erase] at hp
      split_ifs at hp
      exact hp
  | quiet | free | fetch | unload | unloaded | undefinedBehaviour | staleHandle | staleIterator
  | staleRemoval => exact hs.same rfl rfl fun _ hi => hi

theorem reach_standing {lib : Externals} {tr : List PluginEvent} {s : Plugin}
    (hr : Reach (Plugin.step lib) Plugin.new tr s) : Standing s := by
  induction hr with
  | start => exact standing_new
  | step hr hs ih => exact standing_step (pluginStep_of_step hs) (reach_live hr) ih

/-- The processTick of a host that a step starts: the id at the iterator and the
address of the host, which is outside of it. -/
def visit (s : Plugin) : PluginAction → Option (UInt32 × Nat)
  | .tick _ =>
      s.iterator.bind fun id =>
        (s.connectionController.connection id).bind fun pointer =>
          if s.hosts[pointer]?.any (·.tick == .outside) then some (id, pointer) else none
  | _ => none

/-- The loop has still to come to this id, which need not be in the map yet. -/
def Ahead (s : Plugin) (id : UInt32) : Prop :=
  ∃ current p h, s.iterator = some current ∧
    s.connectionController.connection current = some p ∧ s.hosts[p]? = some h ∧
      (current < id ∨ current = id ∧ h.tick = .outside)

/-- A tick that began with the connections of one state and has made these visits. The
connections are still there, and each of them has been visited or is ahead. -/
structure Visiting (start : Plugin) (vs : List (UInt32 × Nat)) (s : Plugin) : Prop where
  increasing : (vs.map Prod.fst).Pairwise (· < ·)
  numbered : ∀ v ∈ vs, v.1 = idOf v.2
  behind : ∀ v ∈ vs, ¬ Ahead s v.1
  kept : ∀ id p, start.connectionController.connection id = some p →
    s.connectionController.connection id = some p
  due : ∀ id p, start.connectionController.connection id = some p → (id, p) ∈ vs ∨ Ahead s id
  current : ∀ id, s.iterator = some id → ∃ p, s.connectionController.connection id = some p
  staying : ∀ amx rest, s.task ≠ .unloading amx rest

section

variable {s s' : Plugin} {connectionId : UInt32} {p : Nat} {h : ConnectionHost}
  (hi : s.iterator = some connectionId)
  (hc : s.connectionController.connection connectionId = some p) (hh : s.hosts[p]? = some h)

include hi hc hh

theorem visit_tick (publics : Publics) :
    visit s (.tick publics) = if h.tick = .outside then some (connectionId, p) else none := by
  simp [visit, hi, hc, hh]

theorem ahead_iff (id : UInt32) :
    Ahead s id ↔ connectionId < id ∨ connectionId = id ∧ h.tick = .outside := by
  constructor
  · rintro ⟨current, p', h', hi', hc', hh', ha⟩
    cases hi.symm.trans hi'
    cases hc.symm.trans hc'
    cases hh.symm.trans hh'
    exact ha
  · exact fun ha => ⟨connectionId, p, h, hi, hc, hh, ha⟩

end

theorem moved_self {s s' : Plugin} {q : Nat} {h h' : ConnectionHost} (hh : s.hosts[q]? = some h)
    (hh' : s'.hosts = s.hosts.set q h') : s'.hosts[q]? = some h' := by
  rw [hh', List.getElem?_set_self (List.getElem?_eq_some_iff.mp hh).1]

theorem not_ahead_of_none {s : Plugin} (hi : s.iterator = none) (id : UInt32) : ¬ Ahead s id := by
  rintro ⟨current, p, h, hi', -⟩
  cases hi.symm.trans hi'

namespace Visiting

variable {start s s' : Plugin} {vs : List (UInt32 × Nat)}

theorem nodup (hv : Visiting start vs s) : (vs.map Prod.snd).Nodup := by
  have hids : vs.map Prod.fst = (vs.map Prod.snd).map idOf := by
    rw [List.map_map]
    exact List.map_congr_left hv.numbered
  have hne := hv.increasing.imp UInt32.ne_of_lt
  rw [hids] at hne
  exact List.Nodup.of_map idOf hne

theorem stay (hv : Visiting start vs s) (hl : Live s) (hi : s'.iterator = s.iterator)
    (hc : ∀ id p, s.connectionController.connection id = some p →
      s'.connectionController.connection id = some p)
    (hh : ∀ (p : Nat) (h : ConnectionHost), s.hosts[p]? = some h →
      ∃ h', s'.hosts[p]? = some h' ∧ h'.tick = h.tick)
    (ht : ∀ amx rest, s'.task ≠ .unloading amx rest) : Visiting start vs s' := by
  have ha : ∀ id, Ahead s' id ↔ Ahead s id := by
    intro id
    cases hid : s.iterator with
    | none => simp [not_ahead_of_none hid, not_ahead_of_none (hi.trans hid)]
    | some current =>
        obtain ⟨p, hp⟩ := hv.current current hid
        obtain ⟨h, hg, -⟩ := hl.mapped current p hp
        obtain ⟨h', hg', ht⟩ := hh p h hg
        rw [ahead_iff hid hp hg, ahead_iff (hi.trans hid) (hc current p hp) hg', ht]
  refine ⟨hv.increasing, hv.numbered, ?_, ?_, ?_, ?_, ht⟩
  · simpa only [ha] using hv.behind
  · exact fun id p hp => hc id p (hv.kept id p hp)
  · simpa only [ha] using hv.due
  · intro id hid
    obtain ⟨p, hp⟩ := hv.current id (hi ▸ hid)
    exact ⟨p, hc id p hp⟩

section

variable {connectionId : UInt32} {q : Nat} {h h' : ConnectionHost} {e : HostEvent} {publics : Publics}
  (hv : Visiting start vs s) (hi : s.iterator = some connectionId)
  (hc : s.connectionController.connection connectionId = some q) (hh : s.hosts[q]? = some h)
  (hh' : s'.hosts = s.hosts.set q h') (hc' : s'.connectionController = s.connectionController)
  (ht : ∀ amx rest, s'.task ≠ .unloading amx rest)

include hv hi hc hh hh' hc' ht

theorem begun (hout : h.tick = .outside) (hin : h'.tick ≠ .outside)
    (hi' : s'.iterator = some connectionId) (hs : Standing s) :
    Visiting start (vs ++ [(connectionId, q)]) s' := by
  have ha : ∀ id, Ahead s id ↔ connectionId < id ∨ connectionId = id := by
    simpa [hout] using ahead_iff hi hc hh
  have hself : s'.hosts[q]? = some h' := moved_self hh hh'
  have ha' : ∀ id, Ahead s' id ↔ connectionId < id := by
    simpa [hin] using ahead_iff hi' (hc' ▸ hc) hself
  refine ⟨?_, ?_, ?_, ?_, ?_, ?_, ht⟩
  · rw [List.map_append, List.pairwise_append]
    refine ⟨hv.increasing, by simp, ?_⟩
    intro id hid id' hid'
    obtain ⟨v, hm, rfl⟩ := List.mem_map.mp hid
    have hb := hv.behind v hm
    rw [ha, not_or, UInt32.not_lt] at hb
    rw [List.map_singleton, List.mem_singleton] at hid'
    rw [hid']
    exact UInt32.lt_of_le_of_ne hb.1 (Ne.symm hb.2)
  · intro v hm
    rcases List.mem_append.mp hm with hm | hm
    · exact hv.numbered v hm
    · rw [List.mem_singleton.mp hm]
      exact hs.numbered connectionId q hc
  · intro v hm
    rw [ha']
    rcases List.mem_append.mp hm with hm | hm
    · have hb := hv.behind v hm
      rw [ha, not_or] at hb
      exact hb.1
    · rw [List.mem_singleton.mp hm]
      exact UInt32.lt_irrefl _
  · intro id p hp
    rw [hc']
    exact hv.kept id p hp
  · intro id p hp
    rw [ha', List.mem_append, List.mem_singleton]
    rcases hv.due id p hp with hm | hahead
    · exact .inl (.inl hm)
    · rcases (ha id).mp hahead with hlt | rfl
      · exact .inr hlt
      · cases hc.symm.trans (hv.kept _ p hp)
        exact .inl (.inr rfl)
  · intro id hid
    cases hi'.symm.trans hid
    exact ⟨q, hc' ▸ hc⟩

theorem continued (hin : h.tick ≠ .outside)
    (hi' : s'.iterator = if h'.tick = .outside then s.connectionController.next connectionId
      else some connectionId) (hl : Live s) (hs : Standing s) : Visiting start vs s' := by
  have ha : ∀ id, Ahead s id ↔ connectionId < id := by
    simpa [hin] using ahead_iff hi hc hh
  have hself : s'.hosts[q]? = some h' := moved_self hh hh'
  have hkept : ∀ id p, start.connectionController.connection id = some p →
      s'.connectionController.connection id = some p := by
    rw [hc']
    exact hv.kept
  by_cases hout : h'.tick = .outside
  · rw [if_pos hout] at hi'
    cases hn : s.connectionController.next connectionId with
    | none =>
        rw [hn] at hi'
        refine ⟨hv.increasing, hv.numbered, fun v _ => not_ahead_of_none hi' v.1, hkept, ?_, ?_, ht⟩
        · intro id p hp
          rcases hv.due id p hp with hm | hahead
          · exact .inl hm
          · exact absurd ((ha id).mp hahead) (ConnectionController.next_eq_none hn (hv.kept id p hp))
        · simp [hi']
    | some next =>
        rw [hn] at hi'
        obtain ⟨⟨p, hp⟩, hlt, hfirst⟩ := ConnectionController.next_eq_some hn
        obtain ⟨g, hg, -⟩ := hl.mapped next p hp
        have hne : q ≠ p := by
          rintro rfl
          rw [hl.injective _ _ _ hc hp] at hlt
          exact UInt32.lt_irrefl _ hlt
        have hgout : g.tick = .outside := by
          refine hs.outside next p g hp ?_ hg
          rw [hi]
          rintro he
          cases he
          exact UInt32.lt_irrefl _ hlt
        have hg' : s'.hosts[p]? = some g := by rw [hh', List.getElem?_set_ne hne, hg]
        have ha' : ∀ id, Ahead s' id ↔ next < id ∨ next = id := by
          simpa [hgout] using ahead_iff hi' (hc' ▸ hp) hg'
        refine ⟨hv.increasing, hv.numbered, ?_, hkept, ?_, ?_, ht⟩
        · intro v hm
          have hb := hv.behind v hm
          rw [ha, UInt32.not_lt] at hb
          have hv1 : v.1 < next := UInt32.lt_of_le_of_lt hb hlt
          rw [ha', not_or, UInt32.not_lt]
          exact ⟨UInt32.le_of_lt hv1, (UInt32.ne_of_lt hv1).symm⟩
        · intro id p' hp'
          rcases hv.due id p' hp' with hm | hahead
          · exact .inl hm
          · right
            rw [ha', ← UInt32.le_iff_lt_or_eq]
            exact hfirst id p' (hv.kept id p' hp') ((ha id).mp hahead)
        · intro id hid
          cases hi'.symm.trans hid
          exact ⟨p, hc' ▸ hp⟩
  · rw [if_neg hout] at hi'
    have ha' : ∀ id, Ahead s' id ↔ connectionId < id := by
      simpa [hout] using ahead_iff hi' (hc' ▸ hc) hself
    refine ⟨hv.increasing, hv.numbered, ?_, hkept, ?_, ?_, ht⟩
    · simpa only [ha', ha] using hv.behind
    · simpa only [ha', ha] using hv.due
    · intro id hid
      cases hi'.symm.trans hid
      exact ⟨q, hc' ▸ hc⟩

end

theorem moved (hv : Visiting start vs s) (hl : Live s) {q : Nat} {h h' : ConnectionHost}
    {a : HostAction} {e : HostEvent} (hh : s.hosts[q]? = some h)
    (hstep : ConnectionHost.step h a = some (h', e)) (ha : ∀ publics, a ≠ .processTick publics)
    (hh' : s'.hosts = s.hosts.set q h') (hc : s'.connectionController = s.connectionController)
    (hi : s'.iterator = s.iterator) (ht : ∀ amx rest, s'.task ≠ .unloading amx rest) :
    Visiting start vs s' := by
  refine hv.stay hl hi (by simp [hc]) (fun p g hg => ?_) ht
  by_cases hq : q = p
  · subst hq
    cases hh.symm.trans hg
    exact ⟨h', moved_self hh hh', tick_eq_of_hostStep (hostStep_of_step hstep).2 ha⟩
  · exact ⟨g, by rw [hh', List.getElem?_set_ne hq, hg], rfl⟩

theorem created (hv : Visiting start vs s) (hl : Live s) (hs : Standing s)
    (hlt : s.hosts.length + 1 < 2 ^ 32) {host : ConnectionHost}
    (hc : s'.connectionController = (s.connectionController.connect s.hosts.length).1)
    (hh : s'.hosts = s.hosts ++ [host]) (hi : s'.iterator = s.iterator)
    (ht : ∀ amx rest, s'.task ≠ .unloading amx rest) : Visiting start vs s' := by
  refine hv.stay hl hi (fun id p hp => ?_) (fun p g hg => ?_) ht
  · have hne : s.connectionController.latestConnectionId + 1 ≠ id := by
      rw [hs.latest, idOf_eq, hs.numbered id p hp]
      intro he
      obtain ⟨g, hg, -⟩ := hl.mapped id p hp
      have hp' := (List.getElem?_eq_some_iff.mp hg).1
      have := idOf_inj hlt (by omega) he
      omega
    rw [hc, ConnectionController.connection_connect, if_neg hne]
    exact hp
  · exact ⟨g, by rw [hh]; exact getElem?_snoc_some.mpr (.inl hg), rfl⟩

end Visiting

/-- What may happen while a tick is under way: anything but another frame and an unload. -/
def WithinTick : PluginAction → Prop
  | .processTick | .amxUnload _ => False
  | _ => True

instance : (a : PluginAction) → Decidable (WithinTick a)
  | .processTick | .amxUnload _ => inferInstanceAs (Decidable False)
  | .native _ _ _ | .resume | .tick _ | .client _ _ => inferInstanceAs (Decidable True)

theorem outside_of_startTick {h h' : ConnectionHost} {publics : Publics} {e : HostEvent}
    (hs : HostStep h (.processTick publics) e h') (ht : h.tick = .outside) : h'.tick ≠ .outside := by
  cases hs <;> simp_all

theorem visiting_between {start s s' : Plugin} {vs : List (UInt32 × Nat)} {a : PluginAction}
    {e : PluginEvent} (h : PluginStep s a e s') (ha : WithinTick a) (hlt : s'.hosts.length < 2 ^ 32)
    (hl : Live s) (hs : Standing s) (hv : Visiting start vs s) (hnone : visit s a = none) :
    Visiting start vs s' := by
  cases h with
  | tick publics id p h h' e ht hi hc hh hstep =>
      rw [visit_tick hi hc hh] at hnone
      have hin : h.tick ≠ .outside := by
        intro hout
        simp [hout] at hnone
      exact hv.continued hi hc hh rfl rfl hv.staying hin rfl hl hs
  | frame | unload => exact ha.elim
  | client pointer input h h' e c e' results hh hstep hc =>
      exact hv.moved hl hh hstep (by simp) rfl rfl rfl hv.staying
  | connect amx params request ht =>
      exact hv.created hl hs (by simpa using hlt) rfl rfl rfl hv.staying
  | query amx native params id pointer request h h' e ht hn hc hh hstep =>
      exact hv.moved hl hh hstep (by simp) rfl rfl rfl hv.staying
  | stop amx params id pointer h h' e ht hc hh hstep =>
      exact hv.moved hl hh hstep (by simp) rfl rfl rfl (by simp)
  | stopped amx params pointer h h' e ht hh hstep =>
      exact hv.moved hl hh hstep (by simp) rfl rfl rfl (by simp)
  | halt amx id p remaining h h' a e ht | destroy amx id p remaining h h' e ht
  | unloaded amx ht | staleRemoval amx id p remaining ht => exact absurd ht (hv.staying _ _)
  | staleIterator publics id ht hi hh =>
      obtain ⟨p, hp⟩ := hv.current id hi
      obtain ⟨g, hg, hd⟩ := hl.mapped id p hp
      simp [hh p g hp hg] at hd
  | quiet | free | fetch =>
      exact hv.stay hl rfl (fun _ _ hp => hp) (fun _ g hg => ⟨g, hg, rfl⟩) hv.staying
  | undefinedBehaviour | staleHandle =>
      exact hv.stay hl rfl (fun _ _ hp => hp) (fun _ g hg => ⟨g, hg, rfl⟩) (by simp [Plugin.crash])

theorem visiting_visit {start s s' : Plugin} {vs : List (UInt32 × Nat)} {a : PluginAction}
    {e : PluginEvent} {v : UInt32 × Nat} (h : PluginStep s a e s') (hl : Live s) (hs : Standing s)
    (hv : Visiting start vs s) (hsome : visit s a = some v) : Visiting start (vs ++ [v]) s' := by
  cases h with
  | tick publics id p h h' e ht hi hc hh hstep =>
      rw [visit_tick hi hc hh] at hsome
      split_ifs at hsome with hout
      cases hsome
      have hin := outside_of_startTick (hostStep_of_step hstep).2 hout
      exact hv.begun hi hc hh rfl rfl hv.staying hout hin (if_neg hin) hs
  | staleIterator publics id ht hi hh =>
      obtain ⟨p, hp⟩ := hv.current id hi
      obtain ⟨g, hg, hd⟩ := hl.mapped id p hp
      simp [hh p g hp hg] at hd
  | _ => cases hsome

theorem visiting_step {start s s' : Plugin} {vs : List (UInt32 × Nat)} {a : PluginAction}
    {e : PluginEvent} (h : PluginStep s a e s') (ha : WithinTick a) (hlt : s'.hosts.length < 2 ^ 32)
    (hl : Live s) (hs : Standing s) (hv : Visiting start vs s) :
    Visiting start (vs ++ (visit s a).toList) s' := by
  cases hvisit : visit s a with
  | none =>
      rw [Option.toList_none, List.append_nil]
      exact visiting_between h ha hlt hl hs hv hvisit
  | some v => exact visiting_visit h hl hs hv hvisit

theorem visiting_start {s : Plugin} (hl : Live s) (hs : Standing s) (ht : s.task = .idle)
    (hi : s.iterator = none) (hf : ¬ s.frameCounter < 10) : Visiting s [] s.processTick := by
  have hbegin : s.processTick.iterator = s.connectionController.begin := by
    rw [Plugin.processTick, if_neg hf]
  refine ⟨by simp, by simp, by simp, by simp, ?_, ?_, by simp [ht]⟩
  · intro id p hp
    right
    cases hb : s.connectionController.begin with
    | none => simp [ConnectionController.begin_eq_none hb id] at hp
    | some first =>
        obtain ⟨⟨q, hq⟩, hle⟩ := ConnectionController.begin_eq_some hb
        obtain ⟨g, hg, -⟩ := hl.mapped first q hq
        have hout := hs.outside first q g hq (by simp [hi]) hg
        refine ⟨first, q, g, hbegin.trans hb, by simpa using hq, by simpa using hg, ?_⟩
        rcases UInt32.le_iff_lt_or_eq.mp (hle id p hp) with h | h
        · exact .inl h
        · exact .inr ⟨h, hout⟩
  · intro id hid
    obtain ⟨hq, -⟩ := ConnectionController.begin_eq_some (hbegin.symm.trans hid)
    simpa using hq

theorem length_le_of_hostsStep {s s' : Plugin} {e : PluginEvent} (h : HostsStep s s' e) :
    s.hosts.length ≤ s'.hosts.length := by
  cases h with
  | same he hh => rw [hh]
  | moved pointer h h' a e' hh hs he hh' => rw [hh', List.length_set]
  | created script id request he hh =>
      rw [hh, List.length_append]
      exact Nat.le_add_right _ _

theorem exists_processTick {h : ConnectionHost}
    (hp : ∀ queue, h.tick = .pop queue → 0 < h.pending queue) (publics : Publics) :
    ∃ h' e, h.processTick publics = some (h', e) := by
  have hcons : ∀ {α : Type} {queue : ThreadSafeQueue α}, 0 < queue.size →
      ∃ data rest, queue = data :: rest := fun hq =>
    List.exists_cons_of_ne_nil (ThreadSafeQueue.size_pos.mp hq)
  rw [processTick]
  cases ht : h.tick with
  | outside | check queue | callback queue => exact ⟨_, _, rfl⟩
  | pop queue =>
      cases queue with
      | attempts =>
          obtain ⟨data, rest, hq⟩ := hcons (hp .attempts ht)
          exact ⟨_, _, by simp only [popAttempt, hq]; rfl⟩
      | failures =>
          obtain ⟨data, rest, hq⟩ := hcons (hp .failures ht)
          exact ⟨_, _, by simp only [popFailure, hq]; rfl⟩
      | successes =>
          obtain ⟨data, rest, hq⟩ := hcons (hp .successes ht)
          exact ⟨_, _, by simp only [popSuccess, hq]; rfl⟩

theorem pending_of_popsFind {h : ConnectionHost} (hp : PopsFind h) (queue : TickQueue)
    (ht : h.tick = .pop queue) : 0 < h.pending queue := by
  cases queue with
  | attempts => exact hp.host .connectionAttempt (by rw [ht]; rfl)
  | failures => exact hp.host .failedQuery (by rw [ht]; rfl)
  | successes => exact hp.host .succeededQuery (by rw [ht]; rfl)

theorem exists_tick {lib : Externals} {s : Plugin} (ht : s.task = .idle) {id : UInt32} {p : Nat}
    {h : ConnectionHost} (hi : s.iterator = some id)
    (hc : s.connectionController.connection id = some p) (hh : s.hosts[p]? = some h)
    (hd : h.deleted = false) (hj : h.joining = false)
    (hp : ∀ queue, h.tick = .pop queue → 0 < h.pending queue) (publics : Publics) :
    ∃ s' e, Plugin.step lib s (.tick publics) = some (s', .host p e) := by
  obtain ⟨h', e, hs⟩ := exists_processTick hp publics
  have hstep : ConnectionHost.step h (.processTick publics) = some (h', e) := by
    simpa [ConnectionHost.step, hd, hj] using hs
  simp [Plugin.step, ht, Plugin.tick, hi, hc, Plugin.isDeleted, hh, hd, Plugin.touch, hstep]

theorem Visiting.no_useAfterFree {start s s' : Plugin} {vs : List (UInt32 × Nat)} {a : PluginAction}
    {e : PluginEvent} (hv : Visiting start vs s) (hl : Live s) (h : PluginStep s a e s') :
    e ≠ .useAfterFree := by
  cases h with
  | staleHandle amx native params id p ht hc hh =>
      obtain ⟨g, hg, hd⟩ := hl.mapped id p hc
      rcases hh g hg with hd' | hj
      · simp [hd] at hd'
      · simp [hl.not_joining ht hg] at hj
  | staleIterator publics id ht hi hh =>
      obtain ⟨p, hp⟩ := hv.current id hi
      obtain ⟨g, hg, hd⟩ := hl.mapped id p hp
      simp [hh p g hp hg] at hd
  | staleRemoval amx id p remaining ht hh => exact absurd ht (hv.staying _ _)
  | _ => simp

/-- A run of the plugin that has come into a tick, with the events since then. It is about
the visits as long as no id is given twice. -/
structure InTick (lib : Externals) (start : Plugin) (tr : List PluginEvent)
    (vs : List (UInt32 × Nat)) (s : Plugin) : Prop where
  reach : ∃ past, Reach (Plugin.step lib) Plugin.new past s
  visiting : s.hosts.length < 2 ^ 32 → Visiting start vs s
  safe : s.hosts.length < 2 ^ 32 → ∀ e ∈ tr, e ≠ .useAfterFree

theorem inTick_step {lib : Externals} {start : Plugin} {tr : List PluginEvent}
    {vs : List (UInt32 × Nat)} {s s' : Plugin} {a : PluginAction} {e : PluginEvent}
    (h : InTick lib start tr vs s) (ha : WithinTick a) (hs : Plugin.step lib s a = some (s', e)) :
    InTick lib start (tr ++ [e]) (vs ++ (visit s a).toList) s' := by
  obtain ⟨past, hr⟩ := h.reach
  have hstep := pluginStep_of_step hs
  have hle := length_le_of_hostsStep (hostsStep_of_pluginStep hstep)
  refine ⟨⟨past ++ [e], hr.step hs⟩, fun hlt => ?_, fun hlt => ?_⟩
  · exact visiting_step hstep ha hlt (reach_live hr) (reach_standing hr) (h.visiting (by omega))
  · rw [List.forall_mem_append, List.forall_mem_singleton]
    exact ⟨h.safe (by omega), (h.visiting (by omega)).no_useAfterFree (reach_live hr) hstep⟩

theorem inTick_of_tick {lib : Externals} {tr : List PluginEvent} {s : Plugin}
    (hr : Reach (Plugin.step lib) Plugin.new tr s) (ht : s.task = .idle) (hi : s.iterator = none)
    (hf : ¬ s.frameCounter < 10) {acts : List PluginAction} (ha : ∀ a ∈ acts, WithinTick a) :
    InTick lib s (run (Plugin.step lib) s (.processTick :: acts)).1
      (observed (Plugin.step lib) visit s (.processTick :: acts))
      (run (Plugin.step lib) s (.processTick :: acts)).2 := by
  have hstep : Plugin.step lib s .processTick = some (s.processTick, .frame) := by
    simp [Plugin.step, ht, hi]
  have hstart : InTick lib s [.frame] [] s.processTick := by
    refine ⟨⟨_, hr.step hstep⟩, fun _ => ?_, fun _ => by simp⟩
    exact visiting_start (reach_live hr) (reach_standing hr) ht hi hf
  have hall : Along (Plugin.step lib) (fun _ _ => WithinTick) [.frame] s.processTick acts :=
    along_of_forall _ (fun a hm _ _ => ha a hm) _ _
  have hin := observed_invariant hall hstart inTick_step
  simpa only [run, observed, hstep, visit, Option.toList_none, List.nil_append,
    List.singleton_append] using hin

/-- A tick in which scripts may call whatever they want, from its first step up to any
later one. The visits go up in the ids, no host is visited twice, no host is gone that
the loop or a native uses, and the loop stops at none. Once it is through it has visited
each connection that was there when it began, and has left its host. -/
theorem tick_visits {lib : Externals} {tr : List PluginEvent} {s : Plugin}
    (hr : Reach (Plugin.step lib) Plugin.new tr s) (ht : s.task = .idle) (hi : s.iterator = none)
    (hf : ¬ s.frameCounter < 10) {acts : List PluginAction} (ha : ∀ a ∈ acts, WithinTick a)
    (hb : (run (Plugin.step lib) s (.processTick :: acts)).2.hosts.length < 2 ^ 32) :
    let s' := (run (Plugin.step lib) s (.processTick :: acts)).2
    let visits := observed (Plugin.step lib) visit s (.processTick :: acts)
    (visits.map Prod.fst).Pairwise (· < ·) ∧ (visits.map Prod.snd).Nodup ∧
      (∀ e ∈ (run (Plugin.step lib) s (.processTick :: acts)).1, e ≠ .useAfterFree) ∧
      (∀ id publics, s'.task = .idle → s'.iterator = some id →
        ∃ p s'' e, Plugin.step lib s' (.tick publics) = some (s'', .host p e)) ∧
      (s'.iterator = none → ∀ id p, s.connectionController.connection id = some p →
        visits.count (id, p) = 1 ∧ ∃ h, s'.hosts[p]? = some h ∧ h.tick = .outside) := by
  intro s' visits
  have hin := inTick_of_tick hr ht hi hf ha
  have hv : Visiting s visits s' := hin.visiting hb
  have hr' : Reach (Plugin.step lib) Plugin.new _ s' :=
    reach_run_append hr (.processTick :: acts)
  have hl := reach_live hr'
  refine ⟨hv.increasing, hv.nodup, hin.safe hb, ?_, ?_⟩
  · intro id publics ht' hi'
    obtain ⟨p, hp⟩ := hv.current id hi'
    obtain ⟨h, hh, hd⟩ := hl.mapped id p hp
    have hpops := pending_of_popsFind (reach_hostsFind hr' h (List.mem_of_getElem? hh))
    obtain ⟨s'', e, hs⟩ := exists_tick ht' hi' hp hh hd (hl.not_joining ht' hh) hpops publics
    exact ⟨p, s'', e, hs⟩
  · intro hi' id p hp
    have hm : (id, p) ∈ visits := (hv.due id p hp).resolve_right (not_ahead_of_none hi' id)
    obtain ⟨h, hh, -⟩ := hl.mapped id p (hv.kept id p hp)
    refine ⟨List.count_eq_one_of_mem (List.Nodup.of_map _ hv.nodup) hm, h, hh, ?_⟩
    exact (reach_standing hr').outside id p h (hv.kept id p hp) (by simp [hi']) hh

def connecting : PluginAction :=
  .native 1 .connect [.text "h", .text "u", .text "p", .text "d", .number 3306]

def beforeTick : Plugin :=
  (run (Plugin.step plainText) Plugin.new
    (connecting :: clientTurns 0 9 .empty ++ List.replicate 10 .processTick)).2

/-- OnConnectionAttempt makes another connection and closes the one it is about. -/
def reentrant : List PluginAction :=
  List.replicate 3 (.tick fun _ => some 0) ++ [connecting, .native 1 .close [.number 1]] ++
    clientTurns 0 10 .empty ++ [.resume] ++ List.replicate 8 (.tick fun _ => none)

theorem tick_visits_reentrant :
    let visits := observed (Plugin.step plainText) visit beforeTick (.processTick :: reentrant)
    visits = [(1, 0), (2, 1)] ∧ (visits.map Prod.snd).Nodup ∧ visits.count (1, 0) = 1 := by
  obtain ⟨-, hnodup, -, -, honce⟩ := tick_visits (reach_run (Plugin.step plainText) Plugin.new
    (connecting :: clientTurns 0 9 .empty ++ List.replicate 10 .processTick)) rfl (by decide)
      (by decide) (show ∀ a ∈ reentrant, WithinTick a by decide) (by decide)
  exact ⟨by decide, hnodup, (honce (by decide) 1 0 (by decide)).1⟩

end MysqlPlugin.TickVisits
