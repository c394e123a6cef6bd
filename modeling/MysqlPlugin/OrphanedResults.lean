import MysqlPlugin.ClientInvariant
import MysqlPlugin.PendingResults

namespace MysqlPlugin.OrphanedResults

open HostHistory PendingResults QueryAccounting ResultHistory Transition

def pending (hosts : List ConnectionHost) : List UInt32 :=
  (hosts.filter fun h => !h.deleted).flatMap fun h => pendingIds h.client

/-- Every result that is held is pending, or some script has been told of it. -/
def NoOrphans (tr : List PluginEvent) (s : Plugin) : Prop :=
  ∀ id, (s.resultController.atId id).isSome = true → id ∈ handed tr ∨ id ∈ pending s.hosts

def Freed (s : Plugin) (message : SucceededQueryResult) : Prop :=
  s.resultController.atId (messageId message) = none

def removed (s : Plugin) : Option ConnectionHost :=
  match s.task with
  | .unloading _ ((_, pointer) :: _) => s.hosts[pointer]?
  | _ => none

/-- The condition on the steps: a tick that takes a message finds its callback,
and a host that is destroyed has none left. -/
def Delivers (_ : List PluginEvent) (s : Plugin) : PluginAction → Prop
  | .tick publics => ∀ h ∈ s.visited, h.tick = .pop .successes →
      ∀ message ∈ h.client.succeededQueryQueue.head?,
        (Script.callback publics message.callback).isSome = true ∨ Freed s message
  | .resume => ∀ h ∈ removed s, h.client.isRunning = false →
      ∀ message ∈ h.client.succeededQueryQueue, Freed s message
  | _ => True

instance (s : Plugin) (message : SucceededQueryResult) : Decidable (Freed s message) :=
  inferInstanceAs (Decidable (_ = none))

instance (tr : List PluginEvent) (s : Plugin) : (a : PluginAction) → Decidable (Delivers tr s a)
  | .tick publics =>
      inferInstanceAs (Decidable (∀ h ∈ s.visited, h.tick = .pop .successes →
        ∀ message ∈ h.client.succeededQueryQueue.head?,
          (Script.callback publics message.callback).isSome = true ∨ Freed s message))
  | .resume =>
      inferInstanceAs (Decidable (∀ h ∈ removed s, h.client.isRunning = false →
        ∀ message ∈ h.client.succeededQueryQueue, Freed s message))
  | .native _ _ _ | .amxUnload _ | .processTick | .client _ _ => inferInstanceAs (Decidable True)

section

variable {s s' : Plugin} {e : PluginEvent} {tr : List PluginEvent} {id : UInt32}

theorem mem_pending {hosts : List ConnectionHost} : id ∈ pending hosts ↔
    ∃ (p : Nat) (h : ConnectionHost), hosts[p]? = some h ∧ h.deleted = false ∧
      id ∈ pendingIds h.client := by
  simp only [pending, List.mem_flatMap, List.mem_filter, Bool.not_eq_true']
  constructor
  · rintro ⟨h, ⟨hmem, hd⟩, hid⟩
    obtain ⟨p, hp⟩ := List.mem_iff_getElem?.mp hmem
    exact ⟨p, h, hp, hd, hid⟩
  · rintro ⟨p, h, hp, hd, hid⟩
    exact ⟨h, ⟨List.mem_of_getElem? hp, hd⟩, hid⟩

theorem pending_set {hosts : List ConnectionHost} {q : Nat} {h h' : ConnectionHost}
    (hh : hosts[q]? = some h) (hid : id ∈ pending hosts) :
    id ∈ pending (hosts.set q h') ∨
      id ∈ pendingIds h.client ∧ (id ∈ pendingIds h'.client → h'.deleted = true) := by
  obtain ⟨p, g, hg, hd, hid⟩ := mem_pending.mp hid
  have hlt : q < hosts.length := (List.getElem?_eq_some_iff.mp hh).1
  by_cases hp : q = p
  · subst hp
    cases hh.symm.trans hg
    by_cases hd' : h'.deleted = true
    · exact .inr ⟨hid, fun _ => hd'⟩
    · by_cases hid' : id ∈ pendingIds h'.client
      · refine .inl (mem_pending.mpr ⟨q, h', ?_, by simpa using hd', hid'⟩)
        rw [List.getElem?_set_self hlt]
      · exact .inr ⟨hid, fun h => absurd h hid'⟩
  · refine .inl (mem_pending.mpr ⟨p, g, ?_, hd, hid⟩)
    rw [List.getElem?_set_ne hp]
    exact hg

theorem pendingIds_clientStep {c c' : ConnectionClient} {now : Nat} {ev : ClientEvent}
    (h : ClientStep c now ev c') : pendingIds c ⊆ pendingIds c' := by
  cases h with
  | succeed information caller answer resultId hp =>
      simp [pendingIds, hp, unannounced, messageId]
  | again hp | leave hp | sleep hp | seeInformation hp | dueAttempt hp | duePing hp | seeQuery hp
  | popInformation _ _ hp | startAttempt hp | connect _ hp | pushAttempt _ hp | stampAttempt hp
  | stampPing hp | ping _ hp | popQuery _ _ hp | query _ _ _ hp | quiet _ _ _ hp | fail _ _ _ _ hp
  | register _ _ _ _ _ hp | seeRemaining _ hp | endDrain _ hp | popRemaining _ _ _ hp | close hp
  | skipClose hp =>
      simp [pendingIds, hp, unannounced]

theorem pendingIds_hostStep {h h' : ConnectionHost} {a : HostAction} {ev : HostEvent}
    (hs : HostStep h a ev h') (hn : ∀ message index, ev ≠ .callback message index) :
    pendingIds h.client ⊆ pendingIds h'.client := by
  cases hs with
  | client results input e c hc => exact pendingIds_clientStep hc
  | callback publics result rest hj ht hq => exact absurd rfl (hn _ _)
  | _ => exact fun _ => id

theorem pending_mono (h : HostsStep s s' e)
    (hc : ∀ p message index, hostEvent e ≠ some (p, .callback message index))
    (hd : ∀ p, hostEvent e ≠ some (p, .destroyed)) (hid : id ∈ pending s.hosts) :
    id ∈ pending s'.hosts := by
  cases h with
  | same he hh => rwa [hh]
  | created script connectionId request he hh =>
      rw [hh, pending, List.filter_append, List.flatMap_append]
      exact List.mem_append_left _ hid
  | moved q h h' a ev hh hs he hh' =>
      obtain ⟨hdel, hstep⟩ := hostStep_of_step hs
      rw [hh']
      rcases pending_set hh hid with hid | ⟨hid, hgone⟩
      · exact hid
      · have hd' := hgone (pendingIds_hostStep hstep (fun m i hev => hc q m i (by rw [he, hev])) hid)
        exact absurd (by rw [he, (hstep.deleted_iff hdel).mp hd']) (hd q)

theorem taken_tick {publics : Publics} {connectionId : UInt32} {q : Nat} {h h' : ConnectionHost}
    {ev : HostEvent} (hi : s.iterator = some connectionId)
    (hc : s.connectionController.connection connectionId = some q) (hh : s.hosts[q]? = some h)
    (hs : ConnectionHost.step h (.processTick publics) = some (h', ev))
    (ha : Delivers tr s (.tick publics)) (hid : id ∈ pendingIds h.client)
    (hid' : id ∉ pendingIds h'.client) (hm : (s.resultController.atId id).isSome = true) :
    handedAt (.host q ev) = some id := by
  have hstep := (hostStep_of_step hs).2
  have hv : h ∈ s.visited := by simp [Plugin.visited, hi, hc, hh]
  by_cases hev : ∀ message index, ev ≠ .callback message index
  · exact absurd (pendingIds_hostStep hstep hev hid) hid'
  · cases hstep with
    | callback _ message rest hj ht hq =>
        have hmessage : id = messageId message := by
          simp only [pendingIds, hq, List.map_cons, List.cons_append, List.mem_cons] at hid hid'
          rcases hid with hid | hid
          · exact hid
          · exact absurd hid hid'
        rcases ha h hv ht message (by simp [hq]) with hfound | hfreed
        · obtain ⟨index, hindex⟩ := Option.isSome_iff_exists.mp hfound
          simp [handedAt, hostEvent, hindex, hmessage, messageId]
        · rw [hmessage, hfreed] at hm
          cases hm
    | _ => simp at hev

theorem taken_destroy {amx : Amx} {connectionId : UInt32} {q : Nat}
    {remaining : List (UInt32 × Nat)} {h : ConnectionHost}
    (ht : s.task = .unloading amx ((connectionId, q) :: remaining)) (hh : s.hosts[q]? = some h)
    (hr : h.client.isRunning = false) (hs : ClientInvariant.Sound h.client)
    (ha : Delivers tr s .resume) (hid : id ∈ pendingIds h.client) :
    s.resultController.atId id = none := by
  have hu : unannounced h.client.point = [] := by rw [hs.joined hr]; rfl
  rw [pendingIds, hu, List.filterMap_nil, List.append_nil] at hid
  obtain ⟨message, hm, rfl⟩ := List.mem_map.mp hid
  refine ha h ?_ hr message hm
  rw [removed, ht]
  exact hh

theorem registered_pending {r : Registered} (h : HostsStep s s' e) (hr : registeredAt e = some r) :
    r.id ∈ pending s'.hosts := by
  rw [registeredAt] at hr
  split at hr
  next p now information entry resultId he =>
    cases hr
    cases h with
    | same hn => simp [hn] at he
    | created script connectionId request hc => simp [hc] at he
    | moved q h h' a ev hh hs he' hh' =>
        cases he'.symm.trans he
        obtain ⟨hdel, hstep⟩ := hostStep_of_step hs
        have hlt : p < s.hosts.length := (List.getElem?_eq_some_iff.mp hh).1
        have hdel' : h'.deleted = false := by
          rw [← Bool.not_eq_true, hstep.deleted_iff hdel]
          simp
        refine mem_pending.mpr ⟨p, h', ?_, hdel', ?_⟩
        · rw [hh', List.getElem?_set_self hlt]
        · cases hstep with
          | client results input _ c hc =>
              cases hc with
              | register _ caller answer _ _ hp hf => simp [pendingIds, unannounced]
  next => cases hr

theorem held_of_held (h : ResultsStep s s' e)
    (hid : (s'.resultController.atId id).isSome = true) :
    (s.resultController.atId id).isSome = true ∨ ∃ r, registeredAt e = some r ∧ r.id = id := by
  cases h with
  | same hr h => exact .inl (by rwa [← h])
  | registered r hr hr' h =>
      rw [h, ResultController.atId_push] at hid
      split_ifs at hid with hi
      · exact .inr ⟨r, hr, hr'.trans hi⟩
      · exact .inl hid
  | freed i hr hn hf h =>
      rw [h, ResultController.atId_free] at hid
      split_ifs at hid
      · cases hid
      · exact .inl hid
  | fetched i hr hn hf h =>
      rw [h, ResultController.atId_update] at hid
      split_ifs at hid
      · exact .inl (by rwa [Option.isSome_map] at hid)
      · exact .inl hid

theorem noOrphans_step {a : PluginAction} (h : PluginStep s a e s')
    (hs : ∀ (p : Nat) (h : ConnectionHost), s.hosts[p]? = some h → ClientInvariant.Sound h.client)
    (ha : Delivers tr s a) (hn : NoOrphans tr s) : NoOrphans (tr ++ [e]) s' := by
  intro id hid
  have hosts := hostsStep_of_pluginStep h
  rw [handed_snoc, List.mem_append, Option.mem_toList]
  -- a result that was held before stays pending, unless this step takes its message
  rcases held_of_held (resultsStep_of_pluginStep h) hid with hold | ⟨r, hr, rfl⟩
  · rcases hn id hold with hm | hm
    · exact .inl (.inl hm)
    · cases h with
      | tick publics connectionId q g g' ev ht hi hc hh hstep =>
          rcases pending_set hh hm with hm | ⟨hm, hgone⟩
          · exact .inr hm
          · obtain ⟨hdel, hs'⟩ := hostStep_of_step hstep
            have hdel' : ¬ g'.deleted = true := by
              rw [hs'.deleted_iff hdel]
              cases hs' <;> simp
            exact .inl (.inr (taken_tick hi hc hh hstep ha hm (fun h => hdel' (hgone h)) hold))
      | destroy amx connectionId q remaining g g' ev ht hh hstep =>
          rcases pending_set hh hm with hm | ⟨hm, -⟩
          · exact .inr hm
          · cases (hostStep_of_step hstep).2 with
            | destroy hr =>
                rw [taken_destroy ht hh hr (hs q g hh) ha hm] at hold
                cases hold
      | client _ _ _ _ _ _ _ _ _ hstep | query _ _ _ _ _ _ _ _ _ _ _ _ _ hstep
      | stop _ _ _ _ _ _ _ _ _ _ hstep | stopped _ _ _ _ _ _ _ _ hstep =>
          cases (hostStep_of_step hstep).2
          exact .inr (pending_mono hosts (by simp [hostEvent]) (by simp [hostEvent]) hm)
      | halt amx connectionId q remaining g g' a ev ht ha' hh hstep =>
          rcases ha' with rfl | rfl <;> cases (hostStep_of_step hstep).2 <;>
            exact .inr (pending_mono hosts (by simp [hostEvent]) (by simp [hostEvent]) hm)
      | _ => exact .inr (pending_mono hosts (by simp [hostEvent]) (by simp [hostEvent]) hm)
  · exact .inr (registered_pending hosts hr)

theorem guarded_noOrphans {lib : Externals}
    (hg : Guarded (Plugin.step lib) Delivers Plugin.new tr s) : NoOrphans tr s := by
  induction hg with
  | start => intro id hid; simp [Plugin.new, ResultController.new, ResultController.atId] at hid
  | step hg ha hs ih =>
      refine noOrphans_step (pluginStep_of_step hs) ?_ ha ih
      intro p h hh
      obtain ⟨script, connectionId, hr⟩ := (reach_projects hg.reach).run p h hh
      exact ClientInvariant.reach_sound hr

end

/-- As long as every message is delivered, nothing that is held is out of
reach. -/
theorem no_orphans (lib : Externals) (acts : List PluginAction)
    (ha : Along (Plugin.step lib) Delivers [] Plugin.new acts) :
    NoOrphans (run (Plugin.step lib) Plugin.new acts).1 (run (Plugin.step lib) Plugin.new acts).2 :=
  guarded_noOrphans (guarded_run ha)

def deliver (publics : Publics) : List PluginAction :=
  List.replicate 11 .processTick ++ List.replicate 8 (.tick publics)

def queryAndUnload (delivery : List PluginAction) : List PluginAction :=
  [.native 1 .connect [.text "h", .text "u", .text "p", .text "d", .number 3306]] ++
    clientTurns 0 11 .empty ++ [.native 1 .query [.number 1, .text "q", .text "c", .number 0]] ++
    clientTurns 0 8 .empty ++ delivery ++ [.amxUnload 1, .resume] ++ clientTurns 0 3 .empty ++
    [.resume, .resume, .resume]

theorem no_orphans_delivered :
    NoOrphans (run (Plugin.step plainText) Plugin.new (queryAndUnload (deliver fun _ => some 5))).1
      (run (Plugin.step plainText) Plugin.new (queryAndUnload (deliver fun _ => some 5))).2 :=
  no_orphans plainText (queryAndUnload (deliver fun _ => some 5)) (by decide)

theorem undelivered_orphaned :
    (¬ NoOrphans (run (Plugin.step plainText) Plugin.new (queryAndUnload (deliver fun _ => none))).1
        (run (Plugin.step plainText) Plugin.new (queryAndUnload (deliver fun _ => none))).2) ∧
      ¬ NoOrphans (run (Plugin.step plainText) Plugin.new (queryAndUnload [])).1
        (run (Plugin.step plainText) Plugin.new (queryAndUnload [])).2 :=
  ⟨fun h => absurd (h 1 (by decide)) (by decide), fun h => absurd (h 1 (by decide)) (by decide)⟩

end MysqlPlugin.OrphanedResults
