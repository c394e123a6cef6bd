import MysqlPlugin.Clock
import MysqlPlugin.Steps

namespace MysqlPlugin.RateLimits

open Transition

def clock : HostEvent → Option Nat
  | .client now _ => some now
  | _ => none

def clocks (tr : List HostEvent) : List Nat := tr.filterMap clock

def NonDecreasing (tr : List HostEvent) : Prop := (clocks tr).Pairwise (· ≤ ·)

instance (tr : List HostEvent) : Decidable (NonDecreasing tr) :=
  inferInstanceAs (Decidable (List.Pairwise _ _))

def attemptStart : HostEvent → Option Nat
  | .client now .attemptStarted => some now
  | _ => none

def attemptReturn : HostEvent → Option Nat
  | .client now (.attemptQueued _) => some now
  | _ => none

def returns (tr : List HostEvent) : List Nat := tr.filterMap attemptReturn

def pingStart : HostEvent → Option Nat
  | .client now (.pinged _) => some now
  | _ => none

def pingStamp : HostEvent → Option Nat
  | .client now .pingStamped => some now
  | _ => none

def stamps (tr : List HostEvent) : List Nat := tr.filterMap pingStamp

/-- Each attempt starts more than 5000 ms after the ones before it returned, each
ping more than 5000 ms after the ones before it were stamped. The last stamp in
front of a ping is its own. -/
structure RateLimited (tr : List HostEvent) : Prop where
  attempts : Always (fun past e => ∀ now ∈ attemptStart e, ∀ t ∈ returns past, t + 5000 < now) tr
  pings : Always (fun past e => ∀ now ∈ pingStart e, ∀ t ∈ (stamps past).dropLast, t + 5000 < now) tr

def stamping : RunPoint → Bool
  | .stampAttempt | .stampPing => true
  | _ => false

/-- The condition on the steps: time() is not 0 when run keeps it as a stamp, where 0
stands for a stamp that was never taken. -/
def NoZeroStamp (_ : List HostEvent) (h : ConnectionHost) : HostAction → Prop
  | .client _ input => stamping h.client.point = true → Thread.time input.now ≠ 0
  | _ => True

instance (tr : List HostEvent) (h : ConnectionHost) : (a : HostAction) → Decidable (NoZeroStamp tr h a)
  | .client _ input => inferInstanceAs (Decidable (_ → Thread.time input.now ≠ 0))
  | .connect _ | .query _ | .processTick _ | .stopThread | .joinThread | .destroy =>
      inferInstanceAs (Decidable True)

theorem clocks_snoc (tr : List HostEvent) (e : HostEvent) :
    clocks (tr ++ [e]) = clocks tr ++ (clock e).toList :=
  filterMap_snoc ..

theorem returns_snoc (tr : List HostEvent) (e : HostEvent) :
    returns (tr ++ [e]) = returns tr ++ (attemptReturn e).toList :=
  filterMap_snoc ..

theorem stamps_snoc (tr : List HostEvent) (e : HostEvent) :
    stamps (tr ++ [e]) = stamps tr ++ (pingStamp e).toList :=
  filterMap_snoc ..

theorem mem_clocks_of_mem_returns {tr : List HostEvent} {t : Nat} (h : t ∈ returns tr) :
    t ∈ clocks tr := by
  obtain ⟨e, he, ht⟩ := List.mem_filterMap.mp h
  refine List.mem_filterMap.mpr ⟨e, he, ?_⟩
  unfold attemptReturn at ht
  split at ht
  · exact ht
  · cases ht

theorem NonDecreasing.left {tr : List HostEvent} {e : HostEvent} (h : NonDecreasing (tr ++ [e])) :
    NonDecreasing tr := by
  rw [NonDecreasing, clocks_snoc] at h
  exact (List.pairwise_append.mp h).1

theorem NonDecreasing.le_now {tr : List HostEvent} {now : Nat} {e : ClientEvent}
    (h : NonDecreasing (tr ++ [.client now e])) : ∀ t ∈ clocks tr, t ≤ now := by
  rw [NonDecreasing, clocks_snoc] at h
  exact fun t ht => (List.pairwise_append.mp h).2.2 t ht now (List.mem_singleton_self _)

def Passed (marks : List Nat) (tr : List HostEvent) : Prop :=
  ∀ t ∈ marks, ∃ s ∈ clocks tr, t + 5000 < s

def Stamped (marks : List Nat) (last : Int) (tr : List HostEvent) : Prop :=
  ∀ t ∈ marks, ∃ s ∈ clocks tr, last = Thread.time s ∧ Thread.time s ≠ 0 ∧ t ≤ s

theorem Passed.snoc {marks : List Nat} {tr : List HostEvent} (h : Passed marks tr) (e : HostEvent) :
    Passed marks (tr ++ [e]) := by
  intro t ht
  obtain ⟨s, hs, hlt⟩ := h t ht
  refine ⟨s, ?_, hlt⟩
  rw [clocks_snoc]
  exact List.mem_append_left _ hs

theorem Stamped.snoc {marks : List Nat} {last : Int} {tr : List HostEvent}
    (h : Stamped marks last tr) (e : HostEvent) : Stamped marks last (tr ++ [e]) := by
  intro t ht
  obtain ⟨s, hs, hlast⟩ := h t ht
  refine ⟨s, ?_, hlast⟩
  rw [clocks_snoc]
  exact List.mem_append_left _ hs

theorem Passed.lt_now {marks : List Nat} {tr : List HostEvent} {now : Nat} (h : Passed marks tr)
    (hclock : ∀ t ∈ clocks tr, t ≤ now) : ∀ t ∈ marks, t + 5000 < now := by
  intro t ht
  obtain ⟨s, hs, hlt⟩ := h t ht
  exact Nat.lt_of_lt_of_le hlt (hclock s hs)

theorem Stamped.passed {marks : List Nat} {last : Int} {tr : List HostEvent} {now : Nat}
    {e : ClientEvent} (h : Stamped marks last tr) (hclock : ∀ t ∈ clocks tr, t ≤ now)
    (hdue : last = 0 ∨ 5000 < Thread.timeSpan now last) : Passed marks (tr ++ [.client now e]) := by
  intro t ht
  obtain ⟨s, hs, rfl, hne, hle⟩ := h t ht
  have hspan := Clock.timeSpan_time_le (hclock s hs)
  refine ⟨now, ?_, ?_⟩
  · rw [clocks_snoc]
    exact List.mem_append_right _ (List.mem_singleton_self _)
  · rcases hdue with hz | hd
    · exact absurd hz hne
    · omega

theorem stamped_now {marks : List Nat} {tr : List HostEvent} {now : Nat} {e : ClientEvent}
    (hmarks : ∀ t ∈ marks, t ≤ now) (hz : Thread.time now ≠ 0) :
    Stamped marks (Thread.time now) (tr ++ [.client now e]) := by
  intro t ht
  refine ⟨now, ?_, rfl, hz, hmarks t ht⟩
  rw [clocks_snoc]
  exact List.mem_append_right _ (List.mem_singleton_self _)

def underway : RunPoint → Bool
  | .awaitConnect | .pushAttempt _ | .stampAttempt => true
  | _ => false

@[simp] theorem underway_resume (caller : QueryCaller) : underway caller.resume = false := by
  cases caller <;> rfl

structure Spaced (tr : List HostEvent) (c : ConnectionClient) : Prop where
  attempt : c.point = .connect → Passed (returns tr) tr
  lastAttempt : underway c.point = false → Stamped (returns tr) c.connectionStatus.lastAttempt tr
  stamp : c.point = .stampPing → Passed (stamps tr) tr
  ping : c.point = .ping → Passed (stamps tr).dropLast tr
  lastPing : Stamped (stamps tr) c.connectionStatus.lastPing tr

theorem Spaced.move {tr : List HostEvent} {c c' : ConnectionClient} {e : HostEvent} (h : Spaced tr c)
    (hr : attemptReturn e = none) (hp : pingStamp e = none)
    (hc : c'.connectionStatus.lastAttempt = c.connectionStatus.lastAttempt)
    (hc' : c'.connectionStatus.lastPing = c.connectionStatus.lastPing)
    (hu : underway c'.point = false → underway c.point = false)
    (ha : c'.point = .connect → Passed (returns tr) (tr ++ [e]))
    (hs : c'.point = .stampPing → Passed (stamps tr) (tr ++ [e]))
    (hping : c'.point = .ping → c.point = .ping) : Spaced (tr ++ [e]) c' := by
  have hreturns : returns (tr ++ [e]) = returns tr := by simp [returns_snoc, hr]
  have hstamps : stamps (tr ++ [e]) = stamps tr := by simp [stamps_snoc, hp]
  constructor
  · rw [hreturns]
    exact ha
  · rw [hreturns, hc]
    exact fun h' => (h.lastAttempt (hu h')).snoc e
  · rw [hstamps]
    exact hs
  · rw [hstamps]
    exact fun h' => (h.ping (hping h')).snoc e
  · rw [hstamps, hc']
    exact h.lastPing.snoc e

theorem spaced_clientStep {tr : List HostEvent} {c c' : ConnectionClient} {now : Nat}
    {e : ClientEvent} (h : ClientStep c now e c') (hs : Spaced tr c)
    (hclock : ∀ t ∈ clocks tr, t ≤ now)
    (hz : stamping c.point = true → Thread.time now ≠ 0) :
    Spaced (tr ++ [.client now e]) c' := by
  cases h with
  | again hp | leave hp | sleep hp | seeInformation hp | seeQuery hp | popInformation _ _ hp
  | startAttempt hp | connect _ hp | ping _ hp | popQuery _ _ hp | query _ _ _ hp
  | register _ _ _ _ _ hp | seeRemaining _ hp | endDrain _ hp | popRemaining _ _ _ hp | close hp
  | skipClose hp =>
      apply hs.move
      · rfl
      · rfl
      · rfl
      · rfl
      · simp [hp, underway]
      · simp
      · simp
      · simp
  | quiet _ caller _ hp | fail _ caller _ _ hp | succeed _ caller _ _ hp =>
      apply hs.move
      · rfl
      · rfl
      · rfl
      · rfl
      · simp [hp, underway]
      · cases caller <;> simp [QueryCaller.resume]
      · cases caller <;> simp [QueryCaller.resume]
      · cases caller <;> simp [QueryCaller.resume]
  | dueAttempt hp hi hc ht =>
      apply hs.move
      · rfl
      · rfl
      · rfl
      · rfl
      · simp [hp, underway]
      · exact fun _ => (hs.lastAttempt (by rw [hp]; rfl)).passed hclock ht
      · simp
      · simp
  | duePing hp hi hc ht =>
      apply hs.move
      · rfl
      · rfl
      · rfl
      · rfl
      · simp [hp, underway]
      · simp
      · exact fun _ => hs.lastPing.passed hclock ht
      · simp
  | pushAttempt result hp =>
      have hstamps : stamps (tr ++ [.client now (.attemptQueued result)]) = stamps tr := by
        simp [stamps_snoc, pingStamp]
      constructor
      · simp
      · simp [underway]
      · simp
      · simp
      · rw [hstamps]
        exact hs.lastPing.snoc _
  | stampAttempt hp =>
      have hreturns : returns (tr ++ [.client now .internal]) = returns tr := by
        simp [returns_snoc, attemptReturn]
      have hstamps : stamps (tr ++ [.client now .internal]) = stamps tr := by
        simp [stamps_snoc, pingStamp]
      constructor
      · simp
      · intro
        rw [hreturns]
        exact stamped_now (fun t ht => hclock t (mem_clocks_of_mem_returns ht)) (hz (by rw [hp]; rfl))
      · simp
      · simp
      · rw [hstamps]
        exact hs.lastPing.snoc _
  | stampPing hp =>
      have hreturns : returns (tr ++ [.client now .pingStamped]) = returns tr := by
        simp [returns_snoc, attemptReturn]
      have hstamps : stamps (tr ++ [.client now .pingStamped]) = stamps tr ++ [now] := by
        simp [stamps_snoc, pingStamp]
      have hpassed := hs.stamp hp
      constructor
      · simp
      · intro
        rw [hreturns]
        exact (hs.lastAttempt (by rw [hp]; rfl)).snoc _
      · simp
      · intro
        rw [hstamps, List.dropLast_concat]
        exact hpassed.snoc _
      · rw [hstamps]
        refine stamped_now (fun t ht => ?_) (hz (by rw [hp]; rfl))
        rcases List.mem_append.mp ht with ht | ht
        · exact Nat.le_of_lt (Nat.lt_of_le_of_lt (Nat.le_add_right t 5000) (hpassed.lt_now hclock t ht))
        · exact Nat.le_of_eq (List.mem_singleton.mp ht)

theorem Spaced.host {tr : List HostEvent} {c c' : ConnectionClient} {e : HostEvent} (h : Spaced tr c)
    (hr : attemptReturn e = none) (hp : pingStamp e = none)
    (hc : c'.connectionStatus = c.connectionStatus) (hpoint : c'.point = c.point) :
    Spaced (tr ++ [e]) c' := by
  apply h.move hr hp
  · rw [hc]
  · rw [hc]
  · rw [hpoint]
    exact id
  · rw [hpoint]
    exact fun h' => (h.attempt h').snoc e
  · rw [hpoint]
    exact fun h' => (h.stamp h').snoc e
  · rw [hpoint]
    exact id

theorem spaced_hostStep {tr : List HostEvent} {h h' : ConnectionHost} {a : HostAction} {e : HostEvent}
    (hstep : HostStep h a e h') (hs : Spaced tr h.client) (hclock : NonDecreasing (tr ++ [e]))
    (hz : NoZeroStamp tr h a) : Spaced (tr ++ [e]) h'.client := by
  cases hstep with
  | client results input e c hc => exact spaced_clientStep hc hs hclock.le_now hz
  | _ => exact hs.host rfl rfl rfl rfl

theorem guarded_spaced {script : Script} {id : UInt32} {tr : List HostEvent} {h : ConnectionHost}
    (hg : Guarded ConnectionHost.step NoZeroStamp (ConnectionHost.new script id) tr h)
    (hclock : NonDecreasing tr) : Spaced tr h.client := by
  induction hg with
  | start => constructor <;> simp [returns, stamps, Passed, Stamped]
  | step hg hz hs ih => exact spaced_hostStep (hostStep_of_step hs).2 (ih hclock.left) hclock hz

theorem rateLimited_hostStep {tr : List HostEvent} {h h' : ConnectionHost} {a : HostAction}
    {e : HostEvent} (hstep : HostStep h a e h') (hs : Spaced tr h.client)
    (hclock : NonDecreasing (tr ++ [e])) (hr : RateLimited tr) : RateLimited (tr ++ [e]) := by
  refine ⟨(always_snoc ..).mpr ⟨hr.attempts, ?_⟩, (always_snoc ..).mpr ⟨hr.pings, ?_⟩⟩
  · intro now hnow
    cases hstep with
    | client results input e c hc =>
        cases hc with
        | startAttempt hp =>
            cases hnow
            exact (hs.attempt hp).lt_now hclock.le_now
        | _ => cases hnow
    | _ => cases hnow
  · intro now hnow
    cases hstep with
    | client results input e c hc =>
        cases hc with
        | ping answer hp =>
            cases hnow
            exact (hs.ping hp).lt_now hclock.le_now
        | _ => cases hnow
    | _ => cases hnow

theorem guarded_rateLimited {script : Script} {id : UInt32} {tr : List HostEvent} {h : ConnectionHost}
    (hg : Guarded ConnectionHost.step NoZeroStamp (ConnectionHost.new script id) tr h)
    (hclock : NonDecreasing tr) : RateLimited tr := by
  induction hg with
  | start => exact ⟨always_nil _, always_nil _⟩
  | step hg hz hs ih =>
      exact rateLimited_hostStep (hostStep_of_step hs).2 (guarded_spaced hg hclock.left) hclock
        (ih hclock.left)

/-- With a clock that does not go back the intervals are kept in every run that takes
no stamp of 0. -/
theorem rate_limits (script : Script) (id : UInt32) (acts : List HostAction)
    (hz : Along ConnectionHost.step NoZeroStamp [] (ConnectionHost.new script id) acts)
    (hclock : NonDecreasing (run ConnectionHost.step (ConnectionHost.new script id) acts).1) :
    RateLimited (run ConnectionHost.step (ConnectionHost.new script id) acts).1 :=
  guarded_rateLimited (guarded_run hz) hclock

def refused (now steps : Nat) : List HostAction :=
  List.replicate steps (.client .new ⟨now, .refused [] 2003, 0, .empty⟩)

def retrying (now : Nat) : List HostAction :=
  .connect default :: refused now 12 ++ refused (now + 5001) 3

theorem rate_limits_retrying :
    RateLimited (run ConnectionHost.step (ConnectionHost.new (Script.new 1) 1) (retrying 1000)).1 :=
  rate_limits (Script.new 1) 1 (retrying 1000) (by decide) (by decide)

/-- At the end of a lap of the clock the next attempt starts at once. -/
theorem retrying_at_zero :
    let tr := (run ConnectionHost.step (ConnectionHost.new (Script.new 1) 1) (retrying 1048576000)).1
    NonDecreasing tr ∧ ¬ RateLimited tr := by
  constructor
  · decide
  · exact fun h => absurd h.attempts (by decide)

end MysqlPlugin.RateLimits
