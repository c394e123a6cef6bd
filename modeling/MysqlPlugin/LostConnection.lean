import MysqlPlugin.ClientInvariant

namespace MysqlPlugin.LostConnection

open Transition

/-- What one event tells about the connection: a ping that returned an error
says that it is lost, a queued success that it is there again. -/
def lostAfter (lost : Bool) : HostEvent → Bool
  | .client _ (.pinged answer) => if answer = 0 then lost else true
  | .client _ (.attemptQueued result) => if result.succeeded then false else lost
  | _ => lost

def lost (tr : List HostEvent) : Bool := tr.foldl lostAfter false

def popsInLoop : HostEvent → Bool
  | .client _ (.popped _ .normalExecution) => true
  | _ => false

def QueuedWhileLost (tr : List HostEvent) : Prop :=
  Always (fun past e => popsInLoop e = true → lost past = false) tr

instance (tr : List HostEvent) : Decidable (QueuedWhileLost tr) :=
  inferInstanceAs (Decidable (Always _ tr))

def queryNext (c : ConnectionClient) (now : Nat) : Bool :=
  match c.point with
  | .loopBody =>
      c.queryQueue ≠ [] ∧ c.connectionStatus.lastPing ≠ 0 ∧
        Thread.timeSpan now c.connectionStatus.lastPing ≤ serverPingIntervalMs
  | _ => false

/-- The condition on the steps: after a failed ping the loop body finds its queue
empty whenever no further ping is due. -/
def NothingToPop (tr : List HostEvent) (h : ConnectionHost) : HostAction → Prop
  | .client _ input => lost tr = true → queryNext h.client input.now = false
  | _ => True

instance (tr : List HostEvent) (h : ConnectionHost) : (a : HostAction) → Decidable (NothingToPop tr h a)
  | .client _ input =>
      inferInstanceAs (Decidable (lost tr = true → queryNext h.client input.now = false))
  | .connect _ | .query _ | .processTick _ | .stopThread | .joinThread | .destroy =>
      inferInstanceAs (Decidable True)

theorem lost_snoc (tr : List HostEvent) (e : HostEvent) :
    lost (tr ++ [e]) = lostAfter (lost tr) e := by
  simp [lost]

def Unlost (tr : List HostEvent) (c : ConnectionClient) : Prop :=
  c.point = .popQuery → lost tr = false

theorem unlost_clientStep {tr : List HostEvent} {c c' : ConnectionClient} {now : Nat}
    {e : ClientEvent} (h : ClientStep c now e c') (hn : lost tr = true → queryNext c now = false) :
    Unlost (tr ++ [.client now e]) c' := by
  cases h with
  | seeQuery hp hi hc hl ht hq =>
      intro _
      rw [lost_snoc]
      change lost tr = false
      by_contra hlost
      have hq' := hn (by simpa using hlost)
      simp [queryNext, hp, hq, hl, ht] at hq'
  | quiet _ caller | fail _ caller | succeed _ caller =>
      cases caller <;> exact fun h => by cases h
  | _ => exact fun h => by cases h

theorem unlost_hostStep {tr : List HostEvent} {h h' : ConnectionHost} {a : HostAction}
    {e : HostEvent} (hs : ConnectionHost.step h a = some (h', e)) (ha : NothingToPop tr h a)
    (hu : Unlost tr h.client) : Unlost (tr ++ [e]) h'.client := by
  cases (hostStep_of_step hs).2 with
  | client results input e c hc =>
      exact unlost_clientStep hc ha
  | connect | query | startTick | seePending | seeNothing | endCallback | onConnectionAttempt
  | onQueryError | callback | requestShutdown | join | destroy =>
      intro hp
      rw [lost_snoc]
      exact hu hp

theorem guarded_unlost {script : Script} {id : UInt32} {tr : List HostEvent} {h : ConnectionHost}
    (hg : Guarded ConnectionHost.step NothingToPop (ConnectionHost.new script id) tr h) :
    Unlost tr h.client := by
  induction hg with
  | start => exact fun h => by cases h
  | step _ ha hs ih => exact unlost_hostStep hs ha ih

/-- In every run whose steps meet the condition, queries stay queued from a failed
ping on. -/
theorem queued_while_lost (script : Script) (id : UInt32) (acts : List HostAction)
    (ha : Along ConnectionHost.step NothingToPop [] (ConnectionHost.new script id) acts) :
    QueuedWhileLost (run ConnectionHost.step (ConnectionHost.new script id) acts).1 := by
  refine guarded_always ?_ (guarded_run ha)
  intro tr h a h' e hg _ hs hpop
  cases (hostStep_of_step hs).2 with
  | client results input e c hc =>
      cases hc with
      | popQuery information queue hp => exact guarded_unlost hg hp
      | _ => cases hpop
  | _ => cases hpop

def unpingable (now steps : Nat) : List HostAction :=
  List.replicate steps (.client .new ⟨now, .connected, 1, ⟨0, none, 0, 0, 0, [], 0⟩⟩)

def failedPing : List HostAction :=
  [.connect default] ++ unpingable 1000 13 ++ [.query default]

theorem failedPing_then_popped :
    ¬ QueuedWhileLost (run ConnectionHost.step (ConnectionHost.new (Script.new 1) 1)
      (failedPing ++ unpingable 1000 3)).1 := by
  decide

theorem queued_while_lost_failedPing :
    lost (run ConnectionHost.step (ConnectionHost.new (Script.new 1) 1)
        (failedPing ++ unpingable 7000 4)).1 = true ∧
      QueuedWhileLost (run ConnectionHost.step (ConnectionHost.new (Script.new 1) 1)
        (failedPing ++ unpingable 7000 4)).1 :=
  ⟨by decide, queued_while_lost (Script.new 1) 1 (failedPing ++ unpingable 7000 4) (by decide)⟩

end MysqlPlugin.LostConnection
