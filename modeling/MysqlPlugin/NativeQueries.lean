import MysqlPlugin.AcceptedQueries
import MysqlPlugin.HostHistory

namespace MysqlPlugin.NativeQueries

open AcceptedQueries HostHistory QueryAccounting Transition

def submission : HostEvent → Option QueryInformation
  | .querySubmitted request => some request
  | _ => none

/-- The query for which mysql_query or mysql_statement_execute returned 1. -/
def acceptedRequest (pointer : Nat) : PluginEvent → Option QueryInformation
  | .returned _ native _ value (some (q, .querySubmitted request)) =>
      if native.submits = true ∧ value = 1 ∧ q = pointer then some request else none
  | _ => none

def accepted (pointer : Nat) (tr : List PluginEvent) : List QueryInformation :=
  tr.filterMap (acceptedRequest pointer)

theorem acceptedRequest_eq {s s' : Plugin} {a : PluginAction} {e : PluginEvent} (pointer : Nat)
    (h : PluginStep s a e s') :
    acceptedRequest pointer e = (hostEventAt pointer e).bind submission := by
  cases h with
  | query amx native params id q request h h' e ht hn hc hh hs =>
      cases (hostStep_of_step hs).2
      by_cases hq : q = pointer <;>
        simp [acceptedRequest, hostEventAt, hostEvent, hn, hq, submission]
  | client q input h h' e c e' results hh hs | stop amx params id q h h' e ht hc hh hs
  | stopped amx params q h h' e ht hh hs | tick publics id q h h' e ht hi hc hh hs
  | destroy amx id q remaining h h' e ht hh hs =>
      cases (hostStep_of_step hs).2 <;>
        by_cases hq : q = pointer <;> simp [acceptedRequest, hostEventAt, hostEvent, hq, submission]
  | halt amx id q remaining h h' a e ht ha hh hs =>
      rcases ha with rfl | rfl <;> cases (hostStep_of_step hs).2 <;>
        by_cases hq : q = pointer <;> simp [acceptedRequest, hostEventAt, hostEvent, hq, submission]
  | connect amx params request ht =>
      by_cases hq : s.hosts.length = pointer <;>
        simp [acceptedRequest, hostEventAt, hostEvent, hq, submission]
  | quiet | free | fetch | frame | unload | unloaded | undefinedBehaviour | staleHandle
  | staleIterator | staleRemoval => rfl

theorem accepted_eq_submitted {lib : Externals} {tr : List PluginEvent} {s : Plugin}
    (hr : Reach (Plugin.step lib) Plugin.new tr s) (pointer : Nat) :
    accepted pointer tr = submitted (history pointer tr) := by
  induction hr with
  | start => rfl
  | @step tr s a s' e _ hs ih =>
      have he := acceptedRequest_eq pointer (pluginStep_of_step hs)
      rw [accepted, List.filterMap_append, history_snoc, submitted_append, ← ih, accepted]
      congr 1
      cases hq : hostEventAt pointer e with
      | none => simp [he, hq, submitted]
      | some e' => cases e' <;> simp [he, hq, submission, submitted]

/-- What a native that returns 1 for a query promises: once the host is gone, each
query it accepted was handed to the server exactly once, if the second loop of
run could do so; and it never accepts one for a client that has returned. -/
structure Promise (pointer : Nat) (tr : List PluginEvent) : Prop where
  executed : occurred isDestruction (history pointer tr) = true → Drainable (history pointer tr) →
    (queried (history pointer tr)).map (·.1) = accepted pointer tr
  running : Always (fun past e => (acceptedRequest pointer e).isSome = true →
    occurred isReturn (history pointer past) = false) tr

def NoneAfterClose (pointer : Nat) (tr : List PluginEvent) : Prop :=
  Always (fun past e => (acceptedRequest pointer e).isSome = true →
    occurred isRequest (history pointer past) = false) tr

theorem always_accepted_iff {lib : Externals} {tr : List PluginEvent} {s : Plugin}
    (hr : Reach (Plugin.step lib) Plugin.new tr s) (pointer : Nat) (p : List HostEvent → Prop) :
    Always (fun past e => (acceptedRequest pointer e).isSome = true → p (history pointer past)) tr ↔
      Always (fun past e => isSubmission e = true → p past) (history pointer tr) := by
  rw [history, always_filterMap]
  refine reach_always_iff (fun {past s a s' e} _ hs => ?_) hr
  rw [acceptedRequest_eq pointer (pluginStep_of_step hs)]
  cases hostEventAt pointer e with
  | none => simp
  | some e' => cases e' <;> simp [submission, isSubmission, history]

/-- Each host by itself: the promise is kept exactly where no query comes after
the close. -/
theorem promise_iff (lib : Externals) (acts : List PluginAction) (pointer : Nat) :
    let tr := (run (Plugin.step lib) Plugin.new acts).1
    Promise pointer tr ↔ NoneAfterClose pointer tr := by
  intro tr
  have hr := reach_run (Plugin.step lib) Plugin.new acts
  have hp := reach_projects hr
  have ha : accepted pointer tr = submitted (history pointer tr) := accepted_eq_submitted hr pointer
  have hrun := always_accepted_iff hr pointer (occurred isReturn · = false)
  have hcond := always_accepted_iff hr pointer (occurred isRequest · = false)
  have hiff : AcceptedExecuted (history pointer tr) ↔
      AcceptedQueries.NoneAfterClose (history pointer tr) := by
    cases hh : (run (Plugin.step lib) Plugin.new acts).2.hosts[pointer]? with
    | some h =>
        obtain ⟨script, id, hreach⟩ := hp.run pointer h hh
        exact accepted_executed_iff hreach
    | none =>
        rw [hp.unused pointer hh]
        exact ⟨fun _ => trivial, fun _ => ⟨by simp, trivial⟩⟩
  constructor
  · rintro ⟨hx, hr⟩
    exact hcond.mpr (hiff.mp ⟨fun hd hq => ha ▸ hx hd hq, hrun.mp hr⟩)
  · intro hn
    obtain ⟨hx, hr⟩ := hiff.mpr (hcond.mp hn)
    exact ⟨fun hd hq => ha ▸ hx hd hq, hrun.mpr hr⟩

def queryAfterClose : List PluginAction :=
  [.native 1 .connect [.text "h", .text "u", .text "p", .text "d", .number 3306]] ++
    clientTurns 0 9 .empty ++ [.native 1 .close [.number 1]] ++ clientTurns 0 4 .empty ++
    [.resume, .native 1 .query [.number 1, .text "q", .text "c", .number 0], .amxUnload 1,
      .resume, .resume]

theorem queryAfterClose_breaks_promise :
    ¬ Promise 0 (run (Plugin.step plainText) Plugin.new queryAfterClose).1 :=
  fun h => absurd (h.executed (by decide) (by decide)) (by decide)

end MysqlPlugin.NativeQueries
