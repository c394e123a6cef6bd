import MysqlPlugin.HostHistory
import MysqlPlugin.QueryAccounting

namespace MysqlPlugin.ResultHistory

open HostHistory QueryAccounting Transition

structure Registered where
  pointer : Nat
  information : QueryInformation
  entry : ResultEntry
  id : UInt32

def registeredAt (e : PluginEvent) : Option Registered :=
  match hostEvent e with
  | some (pointer, .client _ (.registered information entry id)) =>
      some ⟨pointer, information, entry, id⟩
  | _ => none

def registered (tr : List PluginEvent) : List Registered := tr.filterMap registeredAt

def handedAt (e : PluginEvent) : Option UInt32 :=
  match hostEvent e with
  | some (_, .callback result (some _)) => some result.resultId.toUInt32
  | _ => none

def handed (tr : List PluginEvent) : List UInt32 := tr.filterMap handedAt

def freedAt : PluginEvent → Option UInt32
  | .returned _ .freeResult [resultId] _ _ => some resultId.value.toUInt32
  | _ => none

def fetchedAt : PluginEvent → Option UInt32
  | .returned _ .fetchRow [resultId] _ _ => some resultId.value.toUInt32
  | _ => none

def fetched (tr : List PluginEvent) : List UInt32 := tr.filterMap fetchedAt

inductive ResultsStep (s s' : Plugin) (e : PluginEvent) : Prop
  | same (hr : registeredAt e = none) (h : s'.resultController = s.resultController)
  | registered (r : Registered) (hr : registeredAt e = some r)
      (hid : r.id = s.resultController.latestResultId + 1)
      (h : s'.resultController = (s.resultController.push r.entry).1)
  | freed (id : UInt32) (hr : registeredAt e = none) (hn : hostEvent e = none)
      (hf : freedAt e = some id)
      (h : s'.resultController = (s.resultController.free id).1)
  | fetched (id : UInt32) (hr : registeredAt e = none) (hn : hostEvent e = none)
      (hf : fetchedAt e = some id)
      (h : s'.resultController = s.resultController.update id (·.fetchRow.2))

theorem results_of_clientStep {results results' : ResultController ResultEntry} {input : ClientInput}
    {c c' : ConnectionClient} {e : ClientEvent} (h : c.step results input = some (c', results', e)) :
    (∀ information entry id, e ≠ .registered information entry id) ∧ results' = results ∨
      ∃ information entry, e = .registered information entry (results.latestResultId + 1) ∧
        results' = (results.push entry).1 := by
  cases hp : c.point <;> simp only [ConnectionClient.step, hp] at h
  case feedback information caller answer =>
      split at h
      next => cases h; exact .inl ⟨by simp, rfl⟩
      next => cases h; exact .inl ⟨by simp, rfl⟩
      next entry _ => cases h; exact .inr ⟨information, entry, rfl, rfl⟩
  case popInformation | popQuery | popRemaining =>
      obtain ⟨p, -, he⟩ := Option.map_eq_some_iff.mp h
      cases he
      exact .inl ⟨by simp, rfl⟩
  case drainCondition | close => split at h <;> cases h <;> exact .inl ⟨by simp, rfl⟩
  all_goals cases h <;> exact .inl ⟨by simp, rfl⟩

theorem resultsStep_of_pluginStep {s s' : Plugin} {a : PluginAction} {e : PluginEvent}
    (h : PluginStep s a e s') : ResultsStep s s' e := by
  cases h with
  | client pointer input h h' ev c e' results hh hs hc =>
      have hev : ev = .client input.now e' := by
        obtain ⟨hd, -⟩ := hostStep_of_step hs
        simp only [ConnectionHost.step, hd, hc] at hs
        cases hs
        rfl
      subst hev
      rcases results_of_clientStep hc with ⟨hn, rfl⟩ | ⟨information, entry, rfl, rfl⟩
      · refine .same ?_ rfl
        cases e' <;> first | rfl | exact absurd rfl (hn _ _ _)
      · exact .registered ⟨pointer, information, entry, _⟩ rfl rfl rfl
  | free amx resultId ht => exact .freed _ rfl rfl rfl rfl
  | fetch amx resultId value ht => exact .fetched _ rfl rfl rfl rfl
  | frame ht hi => exact .same rfl s.processTick_resultController
  | quiet | connect | unload | unloaded | undefinedBehaviour | staleHandle | staleIterator
  | staleRemoval => exact .same rfl rfl
  | query amx native params id pointer request h h' ev ht hn hc hh hs =>
      cases (hostStep_of_step hs).2
      exact .same rfl rfl
  | stop amx params id pointer h h' ev ht hc hh hs =>
      cases (hostStep_of_step hs).2
      exact .same rfl rfl
  | stopped amx params pointer h h' ev ht hh hs =>
      cases (hostStep_of_step hs).2
      exact .same rfl rfl
  | tick publics id pointer h h' ev ht hi hc hh hs =>
      cases (hostStep_of_step hs).2 <;> exact .same rfl rfl
  | halt amx id pointer remaining h h' a ev ht ha hh hs =>
      rcases ha with rfl | rfl <;> cases (hostStep_of_step hs).2 <;> exact .same rfl rfl
  | destroy amx id pointer remaining h h' ev ht hh hs =>
      cases (hostStep_of_step hs).2
      exact .same rfl rfl

theorem registered_snoc (tr : List PluginEvent) (e : PluginEvent) :
    registered (tr ++ [e]) = registered tr ++ (registeredAt e).toList :=
  filterMap_snoc ..

theorem fetched_snoc (tr : List PluginEvent) (e : PluginEvent) :
    fetched (tr ++ [e]) = fetched tr ++ (fetchedAt e).toList :=
  filterMap_snoc ..

theorem handed_snoc (tr : List PluginEvent) (e : PluginEvent) :
    handed (tr ++ [e]) = handed tr ++ (handedAt e).toList :=
  filterMap_snoc ..

structure Numbered (tr : List PluginEvent) (s : Plugin) : Prop where
  latest : s.resultController.latestResultId = UInt32.ofNat (registered tr).length
  ids : (registered tr).map (·.id) = (List.range (registered tr).length).map idOf

theorem Numbered.same {tr : List PluginEvent} {s s' : Plugin} {e : PluginEvent} (hn : Numbered tr s)
    (hr : registeredAt e = none)
    (h : s'.resultController.latestResultId = s.resultController.latestResultId) :
    Numbered (tr ++ [e]) s' := by
  have hr' : registered (tr ++ [e]) = registered tr := by simp [registered_snoc, hr]
  exact ⟨by rw [h, hr', hn.latest], by rw [hr', hn.ids]⟩

theorem numbered_step {tr : List PluginEvent} {s s' : Plugin} {e : PluginEvent}
    (h : ResultsStep s s' e) (hn : Numbered tr s) : Numbered (tr ++ [e]) s' := by
  cases h with
  | same hr h => exact hn.same hr (by rw [h])
  | registered r hr hid h =>
      have hr' : registered (tr ++ [e]) = registered tr ++ [r] := by simp [registered_snoc, hr]
      have hid' : r.id = idOf (registered tr).length := by rw [hid, hn.latest, idOf_eq]
      constructor <;> rw [hr', List.length_append, List.length_singleton]
      · rw [h, ResultController.latestResultId_push, hn.latest, idOf_eq]
        rfl
      · rw [List.map_append, hn.ids, List.map_singleton, hid', List.range_succ, List.map_append,
          List.map_singleton]
  | freed id hr hn' hf h => exact hn.same hr (by rw [h, ResultController.latestResultId_free])
  | fetched id hr hn' hf h => exact hn.same hr (by rw [h, ResultController.latestResultId_update])

theorem reach_numbered {lib : Externals} {tr : List PluginEvent} {s : Plugin}
    (hr : Reach (Plugin.step lib) Plugin.new tr s) : Numbered tr s := by
  induction hr with
  | start => exact ⟨rfl, rfl⟩
  | step _ hs ih => exact numbered_step (resultsStep_of_pluginStep (pluginStep_of_step hs)) ih

theorem Numbered.nodup {tr : List PluginEvent} {s : Plugin} (hn : Numbered tr s)
    (hb : (registered tr).length < 2 ^ 32) : ((registered tr).map (·.id)).Nodup := by
  rw [hn.ids]
  refine List.Nodup.map_on ?_ List.nodup_range
  intro m hm n hn h
  rw [List.mem_range] at hm hn
  exact idOf_inj (by omega) (by omega) h

/-- One host by itself has registered what the whole history says it has. -/
theorem registrations_history (pointer : Nat) (tr : List PluginEvent) :
    registrations (history pointer tr) =
      ((registered tr).filter (·.pointer = pointer)).map fun r => (r.information, r.entry, r.id) := by
  induction tr using List.reverseRecOn with
  | nil => rfl
  | append_singleton tr e ih =>
      rw [history_snoc, registrations_append, ih, registered_snoc, List.filter_append, List.map_append]
      congr 1
      rw [hostEventAt, registeredAt]
      cases hostEvent e with
      | none => rfl
      | some p =>
          obtain ⟨q, ev⟩ := p
          by_cases hq : q = pointer
          · cases ev with
            | client now ev => cases ev <;> simp [hq, registrations]
            | _ => simp [hq, registrations]
          · cases ev with
            | client now ev => cases ev <;> simp [hq, registrations]
            | _ => simp [hq, registrations]

end MysqlPlugin.ResultHistory
