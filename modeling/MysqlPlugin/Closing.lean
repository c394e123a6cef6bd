import MysqlPlugin.LiveConnections
import MysqlPlugin.Progress

namespace MysqlPlugin.Closing

open AcceptedQueries ConnectionRegistry HostHistory LiveConnections NativeQueries Progress
open QueryAccounting Transition

def Ended (h : ConnectionHost) : Prop := h.client.isRunning = false ∧ h.client.point = .finished

theorem ended_of_joined {h h' : ConnectionHost} {a : HostAction} (hs : HostStep h a .joined h') :
    Ended h' := by
  cases hs with
  | join hr hs hp => exact ⟨rfl, hp⟩

theorem point_ne_finished {c c' : ConnectionClient} {now : Nat} {e : ClientEvent}
    (h : ClientStep c now e c') : c.point ≠ .finished := by
  intro hp
  cases h <;> cases hp.symm.trans ‹c.point = _›

theorem ended_hostStep {h h' : ConnectionHost} {a : HostAction} {e : HostEvent}
    (hs : HostStep h a e h') (he : Ended h) : Ended h' ∧ isTurn e = false := by
  obtain ⟨hr, hp⟩ := he
  cases hs with
  | client results input ev c hc => exact absurd hp (point_ne_finished hc)
  | requestShutdown hr' => simp [hr] at hr'
  | join hr' => simp [hr] at hr'
  | _ => exact ⟨⟨hr, hp⟩, rfl⟩

theorem turns_of_ended {t h : ConnectionHost} {es : List HostEvent}
    (hr : Reach ConnectionHost.step t es h) (ht : Ended t) : Ended h ∧ turns es = 0 := by
  induction hr with
  | start => exact ⟨ht, rfl⟩
  | @step es s a s' e _ hs ih =>
      obtain ⟨he, hn⟩ := ended_hostStep (hostStep_of_step hs).2 ih.1
      have hsum : turns (es ++ [e]) = turns es + turns [e] := List.countP_append
      refine ⟨he, ?_⟩
      rw [hsum, ih.2]
      simp [turns, hn]

theorem filterMap_of_turns {β : Type} {f : HostEvent → Option β} {es : List HostEvent}
    (hf : ∀ e, isTurn e = false → f e = none) (h : turns es = 0) : es.filterMap f = [] := by
  rw [turns, List.countP_eq_zero] at h
  exact List.filterMap_eq_nil_iff.mpr fun e he => hf e (by simpa using h e he)

theorem queried_of_turns_eq {es : List HostEvent} (h : turns es = 0) : queried es = [] :=
  filterMap_of_turns (fun e he => by cases e <;> first | rfl | cases he) h

theorem executed_of_turns_eq {es : List HostEvent} (h : turns es = 0) : executed es = [] :=
  filterMap_of_turns (fun e he => by cases e <;> first | rfl | cases he) h

section

variable {script : Script} {id : UInt32} {before after : List HostEvent} {h : ConnectionHost}

theorem ended_of_mem (hr : Reach ConnectionHost.step (ConnectionHost.new script id) before h)
    (hj : .joined ∈ before) : Ended h := by
  obtain ⟨past, rest, rfl⟩ := List.append_of_mem hj
  rw [← List.singleton_append, ← List.append_assoc] at hr
  obtain ⟨t, ht, hrest⟩ := hr.of_append
  refine (turns_of_ended hrest ?_).1
  generalize htr : past ++ [HostEvent.joined] = tr at ht
  cases ht with
  | start => simp at htr
  | step _ hs =>
      obtain ⟨-, he⟩ := List.append_inj' htr rfl
      cases he
      exact ended_of_joined (hostStep_of_step hs).2

/-- What a host that has been joined has left: the queries that its client did not
take, those that came too late, and the messages that no tick has taken yet. -/
structure Left (before after : List HostEvent) (h : ConnectionHost) : Prop where
  silent : turns after = 0
  queue : (queried before).map (·.1) ++ h.client.queryQueue = submitted before ++ submitted after
  successes : (handedSuccesses (before ++ after) ++ h.client.succeededQueryQueue).map some =
    ((executed before).filter DueSuccess).map fun q => q.resultId.map (successMessage q.information)
  failures : handedFailures (before ++ after) ++ h.client.failedQueryQueue =
    ((executed before).filter DueFailure).map failureMessage

theorem left_of_reach
    (hr : Reach ConnectionHost.step (ConnectionHost.new script id) (before ++ after) h)
    (hj : .joined ∈ before) : Left before after h := by
  obtain ⟨t, ht, hafter⟩ := hr.of_append
  obtain ⟨⟨-, hp⟩, hturns⟩ := turns_of_ended hafter (ended_of_mem ht hj)
  have hq := queried_of_turns_eq hturns
  have hx := executed_of_turns_eq hturns
  have ha := reach_accounted hr
  have hs := ha.submissions
  have hc := ha.calls
  have hsuccesses := ha.successes
  have hfailures := ha.failures
  rw [executed_append, hx, List.append_nil] at hsuccesses hfailures
  rw [queried_append, hq, List.append_nil, hp] at hc
  rw [submitted_append, hp] at hs
  refine ⟨hturns, ?_, hsuccesses, hfailures⟩
  rw [hs, hc]
  simp [answered, inHand]

end

/-- mysql_close has returned for the connection: its client takes no more steps, so no
query reaches the server, though the natives go on to accept them. What had been
answered by then is still handed to the script. -/
theorem closed_for_good (lib : Externals) (acts : List PluginAction) {before after : List PluginEvent}
    (htr : (run (Plugin.step lib) Plugin.new acts).1 = before ++ after) {p : Nat}
    (hj : .joined ∈ history p before) :
    ∃ h, (run (Plugin.step lib) Plugin.new acts).2.hosts[p]? = some h ∧
      Left (history p before) (history p after) h ∧
      ∀ connectionId query callback dataId text,
        (run (Plugin.step lib) Plugin.new acts).2.task = .idle →
        (run (Plugin.step lib) Plugin.new acts).2.connectionController.connection
          connectionId.value.toUInt32 = some p →
        amxStrParam query = some text →
        let request := ⟨text, (amxStrParam callback).getD [], dataId.value.toUInt32⟩
        (run (Plugin.step lib) Plugin.new acts).2.mysqlQuery [connectionId, query, callback, dataId] =
          .returned
            { (run (Plugin.step lib) Plugin.new acts).2 with
              hosts := (run (Plugin.step lib) Plugin.new acts).2.hosts.set p
                { h with
                  client := { h.client with queryQueue := h.client.queryQueue ++ [request] } } } 1
            (some (p, .querySubmitted request)) := by
  have hr := reach_run (Plugin.step lib) Plugin.new acts
  generalize (run (Plugin.step lib) Plugin.new acts).2 = s at hr ⊢
  rw [htr] at hr
  have happend := history_append p before after
  obtain ⟨hrun, hunused⟩ := reach_projects hr
  cases hh : s.hosts[p]? with
  | none =>
      have hnil := hunused p hh
      rw [happend, List.append_eq_nil_iff] at hnil
      rw [hnil.1] at hj
      cases hj
  | some h =>
      obtain ⟨script, id, hreach⟩ := hrun p h hh
      rw [happend] at hreach
      refine ⟨h, rfl, left_of_reach hreach hj, ?_⟩
      intro connectionId query callback dataId text ht hc hq
      obtain ⟨h', hh', -, hquery⟩ := (reach_live hr).query ht hc
        ⟨text, (amxStrParam callback).getD [], dataId.value.toUInt32⟩
      cases hh.symm.trans hh'
      rw [Plugin.mysqlQuery, hc, hq]
      exact hquery

def queryAfterClose : List PluginAction :=
  [.native 1 .connect [.text "h", .text "u", .text "p", .text "d", .number 3306],
    .native 1 .close [.number 1]] ++ clientTurns 0 3 .empty ++
    [.resume, .native 1 .query [.number 1, .text "q", .text "c", .number 0]] ++
    clientTurns 0 5 .empty

theorem closed_for_good_queryAfterClose :
    ∃ h, (run (Plugin.step plainText) Plugin.new queryAfterClose).2.hosts[0]? = some h ∧
      (queried (history 0 ((run (Plugin.step plainText) Plugin.new queryAfterClose).1.take 6))).map
        (·.1) ++ h.client.queryQueue = [⟨[113], [99], 0⟩] := by
  let tr := (run (Plugin.step plainText) Plugin.new queryAfterClose).1
  have htr : tr = tr.take 6 ++ tr.drop 6 := (List.take_append_drop 6 tr).symm
  have hj : .joined ∈ history 0 (tr.take 6) :=
    List.mem_of_getElem? (show (history 0 (tr.take 6))[5]? = some .joined from rfl)
  obtain ⟨h, hh, hleft, -⟩ := closed_for_good plainText queryAfterClose htr hj
  exact ⟨h, hh, hleft.queue.trans (by decide)⟩

end MysqlPlugin.Closing
