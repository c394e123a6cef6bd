import Mathlib.Data.List.Pairwise
import MysqlPlugin.ResultHistory

namespace MysqlPlugin.PendingResults

open HostHistory QueryAccounting ResultHistory Transition

def messageId (message : SucceededQueryResult) : UInt32 := message.resultId.toUInt32

def pendingIds (c : ConnectionClient) : List UInt32 :=
  c.succeededQueryQueue.map messageId ++ (unannounced c.point).filterMap (·.resultId)

/-- The condition on the calls: scripts free only what they were handed. -/
def FreesHanded (past : List PluginEvent) (e : PluginEvent) : Prop :=
  ∀ id ∈ freedAt e, id ∈ handed past

instance (past : List PluginEvent) (e : PluginEvent) : Decidable (FreesHanded past e) :=
  Option.decidableForallMem (freedAt e)

/-- The registry holds the entry under the id. Its cursor moves only when a
script fetches a row of it. -/
def Found (tr : List PluginEvent) (s : Plugin) (id : UInt32) (entry : ResultEntry) : Prop :=
  ∃ currentRow, s.resultController.atId id = some { entry with currentRow } ∧
    (id ∉ fetched tr → currentRow = entry.currentRow)

theorem messageId_successMessage (information : QueryInformation) (id : UInt32) :
    messageId (successMessage information id) = id :=
  UInt32.toUInt32_toInt32 id

theorem ids_sublist {tr : List HostEvent} {c : ConnectionClient} (ha : Accounted tr c) :
    ((handedSuccesses tr).map messageId ++ pendingIds c).Sublist ((registrations tr).map (·.2.2)) := by
  have hid : (Option.map messageId ∘ fun q : ExecutedQuery =>
      q.resultId.map (successMessage q.information)) = (·.resultId) := by
    funext q
    cases h : q.resultId <;> simp [h, messageId_successMessage]
  have hm : (handedSuccesses tr ++ c.succeededQueryQueue).map messageId =
      ((executed tr).filter DueSuccess).filterMap (·.resultId) := by
    have h := congrArg (List.filterMap (Option.map messageId)) ha.successes
    rwa [List.filterMap_map, List.filterMap_map, hid,
      show Option.map messageId ∘ some = some ∘ messageId from rfl, List.filterMap_eq_map] at h
  have hr : (registrations tr).map (·.2.2) =
      (executed tr ++ unannounced c.point).filterMap (·.resultId) := by
    rw [ha.registered, List.map_filterMap]
    congr 1
    funext q
    cases h : q.resultId <;> simp [registration, h]
  rw [pendingIds, ← List.append_assoc, ← List.map_append, hm, hr, List.filterMap_append]
  exact (List.filter_sublist.filterMap _).append (List.Sublist.refl _)

section

variable {tr : List PluginEvent} {s s' : Plugin} {e : PluginEvent} {id : UInt32} {entry : ResultEntry}

theorem Found.frame (h : Found tr s id entry)
    (hs : s'.resultController.atId id = s.resultController.atId id) : Found (tr ++ [e]) s' id entry := by
  obtain ⟨currentRow, he, hc⟩ := h
  refine ⟨currentRow, hs.trans he, fun hf => hc fun hm => hf ?_⟩
  rw [fetched_snoc]
  exact List.mem_append_left _ hm

theorem Found.fetch (h : Found tr s id entry) (hf : fetchedAt e = some id)
    (hs : s'.resultController = s.resultController.update id (·.fetchRow.2)) :
    Found (tr ++ [e]) s' id entry := by
  obtain ⟨currentRow, he, -⟩ := h
  refine ⟨currentRow + 1, ?_, fun hn => absurd ?_ hn⟩
  · rw [hs, ResultController.atId_update, if_pos rfl, he]
    rfl
  · simp [fetched_snoc, hf]

theorem found_step (h : ResultsStep s s' e) (hf : FreesHanded tr e)
    (hn : ((registered (tr ++ [e])).map (·.id)).Nodup)
    (hs : ∀ r ∈ registered tr, r.id ∉ handed tr → Found tr s r.id r.entry) :
    ∀ r ∈ registered (tr ++ [e]), r.id ∉ handed (tr ++ [e]) → Found (tr ++ [e]) s' r.id r.entry := by
  intro r hr hh
  have hh' : r.id ∉ handed tr := fun hm => hh (by rw [handed_snoc]; exact List.mem_append_left _ hm)
  cases h with
  | same hq h =>
      rw [registered_snoc, hq, Option.toList_none, List.append_nil] at hr
      exact (hs r hr hh').frame (by rw [h])
  | registered q hq hid h =>
      rw [registered_snoc, hq, Option.toList_some] at hr hn
      rw [List.map_append, List.nodup_append] at hn
      rcases List.mem_append.mp hr with hr | hr
      · have hne : r.id ≠ q.id := hn.2.2 _ (List.mem_map_of_mem hr) _ (by simp)
        refine (hs r hr hh').frame ?_
        rw [h, ResultController.atId_push, if_neg]
        rw [← hid]
        exact hne.symm
      · obtain rfl := List.mem_singleton.mp hr
        refine ⟨r.entry.currentRow, ?_, fun _ => rfl⟩
        rw [h, ResultController.atId_push, if_pos hid.symm]
  | freed id hq hn' hfree h =>
      rw [registered_snoc, hq, Option.toList_none, List.append_nil] at hr
      have hne : id ≠ r.id := by
        rintro rfl
        exact hh' (hf _ hfree)
      refine (hs r hr hh').frame ?_
      rw [h, ResultController.atId_free, if_neg hne]
  | fetched id hq hn' hfetch h =>
      rw [registered_snoc, hq, Option.toList_none, List.append_nil] at hr
      by_cases hid : id = r.id
      · subst hid
        exact (hs r hr hh').fetch hfetch h
      · refine (hs r hr hh').frame ?_
        rw [h, ResultController.atId_update, if_neg hid]

theorem reach_found {lib : Externals} (hr : Reach (Plugin.step lib) Plugin.new tr s)
    (hf : Always FreesHanded tr) (hb : (registered tr).length < 2 ^ 32) :
    ∀ r ∈ registered tr, r.id ∉ handed tr → Found tr s r.id r.entry := by
  induction hr with
  | start => simp [registered]
  | step hr hs ih =>
      rw [always_snoc] at hf
      have hb' := hb
      rw [registered_snoc, List.length_append] at hb'
      have hstep := resultsStep_of_pluginStep (pluginStep_of_step hs)
      exact found_step hstep hf.2 ((reach_numbered (hr.step hs)).nodup hb)
        (ih hf.1 (by omega))

end

section

variable {tr : List PluginEvent} {s : Plugin} {p q : Nat} {h : ConnectionHost} {id : UInt32}

theorem accounted_of_host (hp : Projects tr s) (hh : s.hosts[p]? = some h) :
    Accounted (history p tr) h.client := by
  obtain ⟨script, connectionId, hr⟩ := hp.run p h hh
  exact reach_accounted hr

theorem ids_of_host (hp : Projects tr s) (hh : s.hosts[p]? = some h) :
    ((handedSuccesses (history p tr)).map messageId ++ pendingIds h.client).Sublist
      (((registered tr).filter (·.pointer = p)).map (·.id)) := by
  have hs := ids_sublist (accounted_of_host hp hh)
  rwa [registrations_history, List.map_map] at hs

theorem registered_of_mem (hp : Projects tr s) (hh : s.hosts[p]? = some h)
    (hm : id ∈ (handedSuccesses (history p tr)).map messageId ++ pendingIds h.client) :
    ∃ r ∈ registered tr, r.pointer = p ∧ r.id = id := by
  obtain ⟨r, hr, rfl⟩ := List.mem_map.mp ((ids_of_host hp hh).subset hm)
  obtain ⟨hr, hp⟩ := List.mem_filter.mp hr
  exact ⟨r, hr, by simpa using hp, rfl⟩

theorem host_unique (hp : Projects tr s) (hn : ((registered tr).map (·.id)).Nodup)
    {g : ConnectionHost} (hh : s.hosts[p]? = some h) (hg : s.hosts[q]? = some g)
    (hm : id ∈ (handedSuccesses (history p tr)).map messageId ++ pendingIds h.client)
    (hm' : id ∈ (handedSuccesses (history q tr)).map messageId ++ pendingIds g.client) : p = q := by
  obtain ⟨r, hr, rfl, hid⟩ := registered_of_mem hp hh hm
  obtain ⟨r', hr', rfl, hid'⟩ := registered_of_mem hp hg hm'
  rw [List.inj_on_of_nodup_map hn hr hr' (hid.trans hid'.symm)]

theorem host_of_handed (hp : Projects tr s) (hid : id ∈ handed tr) :
    ∃ p h, s.hosts[p]? = some h ∧ id ∈ (handedSuccesses (history p tr)).map messageId := by
  obtain ⟨e, he, hid⟩ := List.mem_filterMap.mp hid
  rw [handedAt] at hid
  split at hid
  next p result index hev =>
    have hmem : .callback result (some index) ∈ history p tr :=
      List.mem_filterMap.mpr ⟨e, he, by simp [hostEventAt, hev]⟩
    cases hh : s.hosts[p]? with
    | none =>
        rw [hp.unused p hh] at hmem
        cases hmem
    | some h =>
        refine ⟨p, h, hh, List.mem_map.mpr ⟨result, ?_, Option.some.inj hid⟩⟩
        exact List.mem_filterMap.mpr ⟨_, hmem, rfl⟩
  next => cases hid

theorem nodup_of_host (hp : Projects tr s) (hn : ((registered tr).map (·.id)).Nodup)
    (hh : s.hosts[p]? = some h) :
    ((handedSuccesses (history p tr)).map messageId ++ pendingIds h.client).Nodup :=
  (hn.sublist (List.filter_sublist.map _)).sublist (ids_of_host hp hh)

theorem pending_not_handed (hp : Projects tr s) (hn : ((registered tr).map (·.id)).Nodup)
    (hh : s.hosts[p]? = some h) (hid : id ∈ pendingIds h.client) : id ∉ handed tr := by
  intro hm
  obtain ⟨q, g, hg, hq⟩ := host_of_handed hp hm
  -- an id belongs to one host, and there it is listed once
  obtain rfl := host_unique hp hn hh hg (List.mem_append_right _ hid) (List.mem_append_left _ hq)
  cases hh.symm.trans hg
  exact (List.nodup_append.mp (nodup_of_host hp hn hh)).2.2 id hq id hid rfl

theorem pending_nodup (hp : Projects tr s) (hn : ((registered tr).map (·.id)).Nodup) :
    (s.hosts.flatMap fun h => pendingIds h.client).Nodup := by
  rw [List.nodup_flatMap]
  constructor
  · intro h hh
    obtain ⟨p, hp'⟩ := List.mem_iff_getElem?.mp hh
    exact (List.nodup_append.mp (nodup_of_host hp hn hp')).2.1
  · rw [List.pairwise_iff_getElem]
    intro p q hlt hlt' hpq id hm hm'
    have heq := host_unique hp hn (List.getElem?_eq_getElem hlt) (List.getElem?_eq_getElem hlt')
      (List.mem_append_right _ hm) (List.mem_append_right _ hm')
    omega

theorem query_of_message {tr : List HostEvent} {c : ConnectionClient} (ha : Accounted tr c)
    {message : SucceededQueryResult} (hm : message ∈ c.succeededQueryQueue) :
    ∃ q ∈ executed tr, ∃ id, q.resultId = some id ∧ message = successMessage q.information id := by
  have h : some message ∈ (handedSuccesses tr ++ c.succeededQueryQueue).map some :=
    List.mem_map_of_mem (List.mem_append_right _ hm)
  rw [ha.successes] at h
  obtain ⟨q, hq, he⟩ := List.mem_map.mp h
  obtain ⟨id, hid, rfl⟩ := Option.map_eq_some_iff.mp he
  exact ⟨q, (List.mem_filter.mp hq).1, id, hid, rfl⟩

theorem found_of_pending (hp : Projects tr s) (hn : ((registered tr).map (·.id)).Nodup)
    (hf : ∀ r ∈ registered tr, r.id ∉ handed tr → Found tr s r.id r.entry)
    (hh : s.hosts[p]? = some h) (hid : id ∈ pendingIds h.client) {q : ExecutedQuery}
    (hq : q ∈ executed (history p tr) ++ unannounced h.client.point) (hqid : q.resultId = some id) :
    Found tr s id (entryOf q.answer) := by
  have hr : (q.information, entryOf q.answer, id) ∈ registrations (history p tr) := by
    rw [(accounted_of_host hp hh).registered]
    exact List.mem_filterMap.mpr ⟨q, hq, by rw [registration, hqid, Option.map_some]⟩
  rw [registrations_history] at hr
  obtain ⟨r, hmem, he⟩ := List.mem_map.mp hr
  simp only [Prod.mk.injEq] at he
  obtain ⟨-, hentry, rfl⟩ := he
  rw [← hentry]
  exact hf r (List.mem_filter.mp hmem).1 (pending_not_handed hp hn hh hid)

theorem found_of_queued (hp : Projects tr s) (hn : ((registered tr).map (·.id)).Nodup)
    (hf : ∀ r ∈ registered tr, r.id ∉ handed tr → Found tr s r.id r.entry)
    (hh : s.hosts[p]? = some h) {message : SucceededQueryResult}
    (hm : message ∈ h.client.succeededQueryQueue) :
    ∃ q ∈ executed (history p tr), ∃ id, q.resultId = some id ∧
      message = successMessage q.information id ∧
      (q.information, q.executionType, q.answer) ∈ queried (history p tr) ∧
      Found tr s id (entryOf q.answer) := by
  have ha := accounted_of_host hp hh
  obtain ⟨q, hq, id, hid, rfl⟩ := query_of_message ha hm
  have hmem : id ∈ pendingIds h.client :=
    List.mem_append_left _ (List.mem_map.mpr ⟨_, hm, messageId_successMessage q.information id⟩)
  have hqueried : (q.information, q.executionType, q.answer) ∈ queried (history p tr) := by
    rw [ha.calls]
    exact List.mem_append_left _ (List.mem_map_of_mem hq)
  exact ⟨q, hq, id, hid, rfl, hqueried,
    found_of_pending hp hn hf hh hmem (List.mem_append_left _ hq) hid⟩

theorem found_of_unannounced (hp : Projects tr s) (hn : ((registered tr).map (·.id)).Nodup)
    (hf : ∀ r ∈ registered tr, r.id ∉ handed tr → Found tr s r.id r.entry)
    (hh : s.hosts[p]? = some h) {q : ExecutedQuery} (hq : q ∈ unannounced h.client.point) :
    ∃ id, q.resultId = some id ∧
      (q.information, q.executionType, q.answer) ∈ queried (history p tr) ∧
      Found tr s id (entryOf q.answer) := by
  have ha := accounted_of_host hp hh
  cases hpoint : h.client.point with
  | pushSucceeded information caller answer resultId =>
      have hmem : resultId ∈ pendingIds h.client := by simp [pendingIds, hpoint, unannounced]
      have hq' := hq
      rw [hpoint, unannounced, List.mem_singleton] at hq'
      subst hq'
      have hqueried : (information, caller.executionType, answer) ∈ queried (history p tr) := by
        rw [ha.calls, hpoint]
        exact List.mem_append_right _ (List.mem_singleton_self _)
      exact ⟨resultId, rfl, hqueried,
        found_of_pending hp hn hf hh hmem (List.mem_append_right _ hq) rfl⟩
  | _ => simp [hpoint, unannounced] at hq

theorem queued_of_callback {s' : Plugin} {a : PluginAction} {e : PluginEvent}
    {message : SucceededQueryResult} {index : Option Int32} (hs : PluginStep s a e s')
    (he : hostEvent e = some (p, .callback message index)) :
    s'.resultController = s.resultController ∧
      ∃ h, s.hosts[p]? = some h ∧ message ∈ h.client.succeededQueryQueue := by
  constructor
  · cases resultsStep_of_pluginStep hs with
    | same _ h => exact h
    | registered r hq => simp [registeredAt, he] at hq
    | freed id _ hn | fetched id _ hn => simp [hn] at he
  · cases hostsStep_of_pluginStep hs with
    | same hn => simp [hn] at he
    | created script id request hc => simp [hc] at he
    | moved q h h' a' e' hh hs' he' =>
        cases he'.symm.trans he
        cases (hostStep_of_step hs').2 with
        | callback publics _ rest hj ht hq =>
            exact ⟨h, hh, by rw [hq]; exact List.mem_cons_self ..⟩

end

/-- Every pending result is held, under an id of its own, with the answer to its
query. -/
structure Pending (lib : Externals) (tr : List PluginEvent) (s : Plugin) : Prop where
  distinct : (s.hosts.flatMap fun h => pendingIds h.client).Nodup
  queued : ∀ p h, s.hosts[p]? = some h → ∀ message ∈ h.client.succeededQueryQueue,
    ∃ q ∈ executed (history p tr), ∃ id, q.resultId = some id ∧
      message = successMessage q.information id ∧
      (q.information, q.executionType, q.answer) ∈ queried (history p tr) ∧
      Found tr s id (entryOf q.answer)
  unqueued : ∀ p h, s.hosts[p]? = some h → ∀ q ∈ unannounced h.client.point,
    ∃ id, q.resultId = some id ∧
      (q.information, q.executionType, q.answer) ∈ queried (history p tr) ∧
      Found tr s id (entryOf q.answer)
  started : ∀ a s' e p message index, Plugin.step lib s a = some (s', e) →
    hostEvent e = some (p, .callback message index) →
    (s'.resultController.atId (messageId message)).isSome = true

theorem pending_results (lib : Externals) (acts : List PluginAction)
    (hf : Always FreesHanded (run (Plugin.step lib) Plugin.new acts).1)
    (hb : (registered (run (Plugin.step lib) Plugin.new acts).1).length < 2 ^ 32) :
    Pending lib (run (Plugin.step lib) Plugin.new acts).1 (run (Plugin.step lib) Plugin.new acts).2 := by
  have hr := reach_run (Plugin.step lib) Plugin.new acts
  revert hf hb hr
  generalize (run (Plugin.step lib) Plugin.new acts).1 = tr
  generalize (run (Plugin.step lib) Plugin.new acts).2 = s
  intro hf hb hr
  have hp := reach_projects hr
  have hn := (reach_numbered hr).nodup hb
  have hfound := reach_found hr hf hb
  refine ⟨pending_nodup hp hn, fun p h hh message hm => found_of_queued hp hn hfound hh hm,
    fun p h hh q hq => found_of_unannounced hp hn hfound hh hq, ?_⟩
  intro a s' e p message index hs he
  obtain ⟨hsame, h, hh, hm⟩ := queued_of_callback (pluginStep_of_step hs) he
  obtain ⟨q, -, id, -, rfl, -, currentRow, hat, -⟩ := found_of_queued hp hn hfound hh hm
  rw [hsame, messageId_successMessage, hat]
  rfl

def freeAndQueryAgain : List PluginAction :=
  let query : PluginAction :=
    .native 1 .query [.number 1, .text "q", .text "c", .number 0]
  let tick : PluginAction := .tick fun _ => some 5
  [.native 1 .connect [.text "h", .text "u", .text "p", .text "d", .number 3306]] ++
    clientTurns 0 11 .empty ++ [query] ++ clientTurns 0 8 .empty ++
    List.replicate 11 .processTick ++ List.replicate 7 tick ++
    [.native 1 .freeResult [.number 1], query] ++ clientTurns 0 6 .empty

theorem pending_results_freeAndQueryAgain :
    ((run (Plugin.step plainText) Plugin.new freeAndQueryAgain).2.hosts.flatMap
        fun h => pendingIds h.client) = [2] ∧
      Pending plainText (run (Plugin.step plainText) Plugin.new freeAndQueryAgain).1
        (run (Plugin.step plainText) Plugin.new freeAndQueryAgain).2 :=
  ⟨by decide, pending_results plainText freeAndQueryAgain (by decide) (by decide)⟩

end MysqlPlugin.PendingResults
