import MysqlPlugin.ConnectionMessages
import MysqlPlugin.Monitor
import MysqlPlugin.ResultController

namespace MysqlPlugin.Locking

open Transition Monitor

inductive QueueKind
  | connection | query | connectionAttempt | failedQuery | succeededQuery
  deriving DecidableEq

def Message : QueueKind → Type
  | .connection => ConnectionInformation
  | .query => QueryInformation
  | .connectionAttempt => ConnectionAttemptResult
  | .failedQuery => FailedQueryResult
  | .succeededQuery => SucceededQueryResult

inductive Shared
  | queue (pointer : Nat) (kind : QueueKind)
  | results
  deriving DecidableEq

inductive ThreadName
  | host
  | client (pointer : Nat)
  deriving DecidableEq

inductive QueueMethod (α : Type)
  | push (data : α)
  | pop

inductive RegistryMethod (Entry : Type)
  | push (entry : Entry)
  | free (resultId : UInt32)

/-- A pointer in the map of results: null, to an entry, or to memory that has
been deleted. -/
inductive Slot (Entry : Type)
  | null
  | entry (entry : Entry)
  | deleted

/-- The members of ResultController while its methods are underway. -/
structure Registry (Entry : Type) where
  resultMap : Std.TreeMap UInt32 (Slot Entry)
  latestResultId : UInt32

variable {Entry : Type}

def Content (Entry : Type) : Shared → Type
  | .queue _ kind => ThreadSafeQueue (Message kind)
  | .results => Registry Entry

def Method (Entry : Type) : Shared → Type
  | .queue _ kind => QueueMethod (Message kind)
  | .results => RegistryMethod Entry

/-- The message that pop copies out, or the number that push and free return. -/
def Registers : Shared → Type
  | .queue _ kind => Option (Message kind)
  | .results => UInt32

/-- ThreadSafeQueue::push and ThreadSafeQueue::pop behind the ScopedMutex. What
the std::deque does in one of its own calls is one step here, so nothing is said
of a reader that does not take the mutex. -/
def queueBody {α : Type} : QueueMethod α →
    List (ThreadSafeQueue α → Option α → Option (ThreadSafeQueue α × Option α))
  | .push data => [fun queue registers => some (queue ++ [data], registers)]
  | .pop =>
      [fun queue _ => queue.head?.map fun data => (queue, some data),
        fun queue registers => some (queue.tail, registers)]

/-- ResultController::push and ResultController::free behind the ScopedMutex, with
each call of the std::map as one step. -/
def registryBody : RegistryMethod Entry →
    List (Registry Entry → UInt32 → Option (Registry Entry × UInt32))
  | .push entry =>
      [fun registry registers =>
          some ({ registry with latestResultId := registry.latestResultId + 1 }, registers),
        -- the subscript puts a null pointer in front of the assignment
        fun registry registers =>
          some ({ registry with
              resultMap := registry.resultMap.insertIfNew registry.latestResultId .null }, registers),
        fun registry _ =>
          some ({ registry with
              resultMap := registry.resultMap.insert registry.latestResultId (.entry entry) },
            registry.latestResultId)]
  | .free resultId =>
      [fun registry _ => some (registry, if registry.resultMap.contains resultId then 1 else 0),
        fun registry registers =>
          some (if registers = 1 then
              { registry with resultMap := registry.resultMap.insert resultId .deleted }
            else registry, registers),
        fun registry registers =>
          some (if registers = 1 then
              { registry with resultMap := registry.resultMap.erase resultId }
            else registry, registers)]

def code (Entry : Type) : Code (Content Entry) (Method Entry) Registers where
  start
    | .queue _ _, _ => none
    | .results, _ => (0 : UInt32)
  body
    | .queue _ _, m => queueBody m
    | .results, m => registryBody m

def Contents (Entry : Type) : Shared → Type
  | .queue _ kind => ThreadSafeQueue (Message kind)
  | .results => ResultController Entry

def queuePerform {α : Type} (queue : ThreadSafeQueue α) :
    QueueMethod α → Option (ThreadSafeQueue α × Option α)
  | .push data => some (queue.push data, none)
  | .pop => queue.pop.map fun (data, rest) => (rest, some data)

def registryPerform (controller : ResultController Entry) :
    RegistryMethod Entry → ResultController Entry × UInt32
  | .push entry => controller.push entry
  | .free resultId => ((controller.free resultId).1, (controller.free resultId).2.toUInt32)

def perform : (k : Shared) → Method Entry k → Contents Entry k → Option (Contents Entry k × Registers k)
  | .queue _ _, m, queue => queuePerform queue m
  | .results, m, controller => some (registryPerform controller m)

/-- The thread that takes messages out of a queue; it alone asks for the size. -/
def consumer (pointer : Nat) : QueueKind → ThreadName
  | .connection | .query => .client pointer
  | .connectionAttempt | .failedQuery | .succeededQuery => .host

def producer (pointer : Nat) : QueueKind → ThreadName
  | .connection | .query => .host
  | .connectionAttempt | .failedQuery | .succeededQuery => .client pointer

def roles : Roles ThreadName (Content Entry) (Method Entry) where
  mayCall t
    | .queue pointer kind, .push _ => t = producer pointer kind
    | .queue pointer kind, .pop => t = consumer pointer kind
    | .results, .push _ => ∃ pointer, t = .client pointer
    | .results, .free _ => t = .host
  ready
    | .queue _ _, .push _, _ => True
    | .queue _ kind, .pop, queue => 0 < ThreadSafeQueue.size (α := Message kind) queue
    | .results, _, _ => True

def RegistryStores (registry : Registry Entry) (controller : ResultController Entry) : Prop :=
  registry.latestResultId = controller.latestResultId ∧
    ∀ id, registry.resultMap[id]? = (controller.atId id).map .entry

def Stores : (k : Shared) → Content Entry k → Contents Entry k → Prop
  | .queue _ _ => Eq
  | .results => RegistryStores

def Pre : (k : Shared) → Method Entry k → Contents Entry k → Prop
  | .queue _ _, .pop => fun queue => queue ≠ ([] : List _)
  | _, _ => fun _ => True

section

variable {registry : Registry Entry} {controller : ResultController Entry}

theorem stores_push (h : RegistryStores registry controller) (entry : Entry) :
    RegistryStores
      ⟨(registry.resultMap.insertIfNew (registry.latestResultId + 1) .null).insert
        (registry.latestResultId + 1) (.entry entry), registry.latestResultId + 1⟩
      (controller.push entry).1 := by
  refine ⟨by simp [h.1], fun id => ?_⟩
  rw [ResultController.atId_push, Std.TreeMap.getElem?_insert, Std.TreeMap.getElem?_insertIfNew, ← h.1]
  split
  next hk => simp [Std.compare_eq_iff_eq.mp hk]
  next hk =>
      have hne : registry.latestResultId + 1 ≠ id := fun he => hk (Std.compare_eq_iff_eq.mpr he)
      rw [if_neg hne, if_neg fun he => hk he.1]
      exact h.2 id

/-- The three steps of free leave the map as the one operation does, and the
pointer that is left dangling by the second does not outlive the third. -/
theorem stores_free (h : RegistryStores registry controller) (resultId : UInt32) :
    ∃ value : UInt32, value = (controller.free resultId).2.toUInt32 ∧
      (if registry.resultMap.contains resultId then 1 else 0) = value ∧
      RegistryStores
        (if value = 1 then
          ⟨(registry.resultMap.insert resultId .deleted).erase resultId, registry.latestResultId⟩
        else registry) (controller.free resultId).1 := by
  have hc := h.2 resultId
  rw [ResultController.atId] at hc
  cases hm : controller.resultMap[resultId]? with
  | none =>
      rw [hm, Option.map_none] at hc
      refine ⟨0, by rw [ResultController.free, hm]; rfl, ?_, ?_⟩
      · simp [Std.TreeMap.contains_eq_isSome_getElem?, hc]
      · simpa [ResultController.free, hm] using h
  | some entry =>
      rw [hm, Option.map_some] at hc
      refine ⟨1, by rw [ResultController.free, hm]; rfl, ?_, ?_⟩
      · simp [Std.TreeMap.contains_eq_isSome_getElem?, hc]
      · refine ⟨by simpa using h.1, fun id => ?_⟩
        rw [ResultController.atId_free]
        simp only [if_true, Std.TreeMap.getElem?_erase, Std.TreeMap.getElem?_insert]
        by_cases hk : compare resultId id = .eq
        · simp [Std.compare_eq_iff_eq.mp hk]
        · have hne : resultId ≠ id := fun he => hk (Std.compare_eq_iff_eq.mpr he)
          simp [hk, hne, h.2 id]

end

theorem body_nonempty (k : Shared) (m : Method Entry k) : 0 < ((code Entry).body k m).length := by
  cases k with
  | queue pointer kind => cases m <;> exact Nat.zero_lt_succ _
  | results => cases m <;> exact Nat.zero_lt_succ _

section

variable {pointer : Nat} {kind : QueueKind}

theorem after_queue (m : QueueMethod (Message kind)) (queue : ThreadSafeQueue (Message kind)) :
    (code Entry).after (k := .queue pointer kind) m queue (queueBody m).length =
      queuePerform queue m := by
  cases m with
  | push data => rfl
  | pop => cases queue <;> rfl

theorem after_queue_underway {m : QueueMethod (Message kind)} {queue queue' : ThreadSafeQueue (Message kind)}
    {registers : Option (Message kind)} {n : Nat} (hn : n < (queueBody m).length)
    (h : (code Entry).after (k := .queue pointer kind) m queue n = some (queue', registers)) :
    queue' = queue := by
  cases m with
  | push data =>
      rw [show n = 0 from by simpa [queueBody] using hn] at h
      cases h
      rfl
  | pop =>
      rcases Nat.lt_or_eq_of_le (Nat.le_of_lt_succ hn) with h0 | rfl
      · rw [show n = 0 from by simpa using h0] at h
        cases h
        rfl
      · cases queue <;> cases h
        rfl

end

theorem after_push (registry : Registry Entry) (entry : Entry) :
    (code Entry).after (k := .results) (.push entry : RegistryMethod Entry) registry 3 =
      some (⟨(registry.resultMap.insertIfNew (registry.latestResultId + 1) .null).insert
        (registry.latestResultId + 1) (.entry entry), registry.latestResultId + 1⟩,
        registry.latestResultId + 1) :=
  rfl

theorem after_free (registry : Registry Entry) (resultId value : UInt32)
    (hv : (if registry.resultMap.contains resultId then 1 else 0) = value) :
    (code Entry).after (k := .results) (.free resultId : RegistryMethod Entry) registry 3 =
      some (if value = 1 then
          ⟨(registry.resultMap.insert resultId .deleted).erase resultId, registry.latestResultId⟩
        else registry, value) := by
  subst hv
  by_cases h : registry.resultMap.contains resultId = true
  · change some (if (if registry.resultMap.contains resultId then (1 : UInt32) else 0) = 1 then _ else _, _) = _
    rw [if_pos h, if_pos rfl, if_pos rfl, if_pos rfl]
  · change some (if (if registry.resultMap.contains resultId then (1 : UInt32) else 0) = 1 then _ else _, _) = _
    have h0 : ¬ (0 : UInt32) = 1 := by decide
    rw [if_neg h, if_neg h0, if_neg h0, if_neg h0]

theorem total_queue {pointer : Nat} {kind : QueueKind} {m : QueueMethod (Message kind)}
    {queue : ThreadSafeQueue (Message kind)} {n : Nat} (hn : n ≤ (queueBody m).length)
    (hp : m = .pop → queue ≠ []) :
    ((code Entry).after (k := .queue pointer kind) m queue n).isSome := by
  cases m with
  | push data =>
      rcases (by simp [queueBody] at hn; omega : n = 0 ∨ n = 1) with rfl | rfl <;> rfl
  | pop =>
      obtain ⟨data, rest, rfl⟩ := List.exists_cons_of_ne_nil (hp rfl)
      rcases (by simp [queueBody] at hn; omega : n = 0 ∨ n = 1 ∨ n = 2) with rfl | rfl | rfl <;> rfl

theorem total_registry (m : RegistryMethod Entry) (registry : Registry Entry) {n : Nat} (hn : n ≤ 3) :
    ((code Entry).after (k := .results) m registry n).isSome := by
  rcases (by omega : n = 0 ∨ n = 1 ∨ n = 2 ∨ n = 3) with rfl | rfl | rfl | rfl <;> cases m <;> rfl

def implements (Entry : Type) : Implements (code Entry) roles perform where
  Stores := Stores
  Pre := Pre
  nonempty := body_nonempty
  total := by
    intro k m x a n hp hg hn
    cases k with
    | queue pointer kind =>
        cases hg
        refine total_queue hn ?_
        rintro rfl
        exact hp
    | results => cases m <;> exact total_registry _ x hn
  commits := by
    intro k x a m x' r hg hx
    cases k with
    | queue pointer kind =>
        cases hg
        exact ⟨x', (after_queue m x).symm.trans hx, rfl⟩
    | results =>
        cases m with
        | push entry =>
            obtain ⟨rfl, rfl⟩ := Prod.mk.inj (Option.some.inj ((after_push x entry).symm.trans hx))
            refine ⟨_, ?_, stores_push hg entry⟩
            rw [show x.latestResultId = a.latestResultId from hg.1]
            rfl
        | free id =>
            obtain ⟨value, hv, hc, hs⟩ := stores_free hg id
            obtain ⟨rfl, rfl⟩ := Prod.mk.inj (Option.some.inj ((after_free x id value hc).symm.trans hx))
            refine ⟨_, ?_, hs⟩
            rw [hv]
            rfl
  settled := by
    intro t k m x a hc hr hg
    cases k with
    | queue pointer kind =>
        cases m with
        | push data => trivial
        | pop =>
            cases hg
            exact ThreadSafeQueue.size_pos.mp hr
    | results => cases m <;> trivial
  underway := by
    intro t u k m m' x x' a n r hc hc' hne hg hn hx hr
    cases k with
    | queue pointer kind =>
        cases m with
        | push data => trivial
        | pop =>
            cases hg
            rw [after_queue_underway hn hx] at hr
            exact ThreadSafeQueue.size_pos.mp hr
    | results => cases m <;> trivial
  stable := by
    intro t u k m m' a a' r hc hc' hne hp ha
    cases k with
    | queue pointer kind =>
        cases m with
        | push data => trivial
        | pop =>
            cases m' with
            | push data =>
                cases ha
                exact List.append_ne_nil_of_right_ne_nil _ (List.cons_ne_nil _ _)
            | pop => exact absurd (hc'.trans hc.symm) hne
    | results => cases m <;> trivial

def empty (Entry : Type) : (k : Shared) → Content Entry k
  | .queue _ kind => ([] : List (Message kind))
  | .results => (⟨∅, 0⟩ : Registry Entry)

def noContents (Entry : Type) : (k : Shared) → Contents Entry k
  | .queue _ kind => ([] : List (Message kind))
  | .results => (ResultController.new : ResultController Entry)

theorem stores_empty (k : Shared) : Stores k (empty Entry k) (noContents Entry k) := by
  cases k with
  | queue pointer kind => rfl
  | results => exact ⟨rfl, fun id => by simp [noContents, ResultController.new, ResultController.atId, empty]⟩

abbrev Threads (ν Entry : Type) := State ThreadName ν (Content Entry) (Method Entry) Registers

abbrev ThreadEvent (Entry : Type) := Monitor.Event ThreadName (Method Entry) Registers

/-- What a run comes to, with the calls taken in the order of their commits. -/
structure Linearized {ν : Type} [DecidableEq ν] (mutexOf : Shared → ν)
    (tr : List (ThreadEvent Entry)) (s : Threads ν Entry) : Prop where
  sequential : ∃ a, Sequential perform (noContents Entry) (commits tr) a ∧
    ∀ k, s.holder (mutexOf k) = none → Stores k (s.store k) (a k)
  answers : Always Answers tr
  exclusive : ∀ t u k l m m' n n' r r', s.phase t = .inside k m n r → s.phase u = .inside l m' n' r' →
    mutexOf k = mutexOf l → t = u
  progress : ∀ t, s.phase t ≠ .outside → ∃ u, (step (code Entry) mutexOf s (.advance u)).isSome

/-- Whether every object has a mutex of its own, or all of them share the one
that has a name: the calls of any number of threads amount to the operations of
the model one after the other, and never block each other for good. -/
theorem calls_linearize {ν : Type} [DecidableEq ν] (mutexOf : Shared → ν)
    (acts : List (Monitor.Action ThreadName (Method Entry)))
    (h : Along (step (code Entry) mutexOf) (Keeps roles) [] (.new (empty Entry)) acts) :
    let r := run (step (code Entry) mutexOf) (.new (empty Entry)) acts
    Linearized mutexOf r.1 r.2 := by
  intro r
  have hg := guarded_run h
  obtain ⟨a, hseq, hl⟩ := guarded_linked (implements Entry) stores_empty hg
  exact
    { sequential := ⟨a, hseq, fun k hk => hl.settled_of_free hk⟩
      answers := reach_answers body_nonempty hg.reach
      exclusive := fun t u k l m m' n n' r r' ht hu hk => hl.exclusive ht hu hk
      progress := fun t ht => hl.progress ht }

def pushAndFree : List (Monitor.Action ThreadName (Method Nat)) :=
  [.call (.client 0) .results (.push 7 : RegistryMethod Nat), .advance (.client 0),
    .advance (.client 0), .call .host .results (.free 1 : RegistryMethod Nat), .advance .host,
    .advance (.client 0), .advance (.client 0), .advance (.client 0), .advance .host,
    .advance .host, .advance .host, .advance .host, .advance .host]

theorem keeps_pushAndFree : Along (step (code Nat) fun _ => ()) (Keeps roles) []
    (.new (empty Nat)) pushAndFree :=
  ⟨⟨⟨0, rfl⟩, trivial⟩, trivial, trivial, ⟨rfl, trivial⟩, trivial, trivial, trivial, trivial,
    trivial, trivial, trivial, trivial, trivial⟩

theorem calls_linearize_pushAndFree :
    let r := run (step (code Nat) fun _ => ()) (.new (empty Nat)) pushAndFree
    Linearized (fun _ => ()) r.1 r.2 :=
  calls_linearize (fun _ => ()) pushAndFree keeps_pushAndFree

end MysqlPlugin.Locking
