import Mathlib.Data.List.Nodup
import MysqlPlugin.ConnectionHost
import MysqlPlugin.QueryBuilder

namespace MysqlPlugin

/-- The map of connections. Its pointers are addresses of hosts. -/
structure ConnectionController where
  connections : Std.TreeMap UInt32 Nat
  latestConnectionId : UInt32

namespace ConnectionController

def new : ConnectionController := ⟨∅, 0⟩

def connect (controller : ConnectionController) (pointer : Nat) : ConnectionController × UInt32 :=
  let latestConnectionId := controller.latestConnectionId + 1
  (⟨controller.connections.insert latestConnectionId pointer, latestConnectionId⟩,
    latestConnectionId)

def connection (controller : ConnectionController) (connectionId : UInt32) : Option Nat :=
  controller.connections[connectionId]?

def erase (controller : ConnectionController) (connectionId : UInt32) : ConnectionController :=
  { controller with connections := controller.connections.erase connectionId }

theorem connection_connect (controller : ConnectionController) (pointer : Nat) (id : UInt32) :
    (controller.connect pointer).1.connection id =
      if controller.latestConnectionId + 1 = id then some pointer else controller.connection id := by
  simp [connect, connection, Std.TreeMap.getElem?_insert]

theorem connection_erase (controller : ConnectionController) (connectionId id : UInt32) :
    (controller.erase connectionId).connection id =
      if connectionId = id then none else controller.connection id := by
  simp [erase, connection, Std.TreeMap.getElem?_erase]

/-- The key at connections_.begin(); none is connections_.end(). -/
def begin (controller : ConnectionController) : Option UInt32 := controller.connections.keys.head?

def next (controller : ConnectionController) (connectionId : UInt32) : Option UInt32 :=
  controller.connections.keys.find? (connectionId < ·)

theorem mem_keys {controller : ConnectionController} {id : UInt32} :
    id ∈ controller.connections.keys ↔ ∃ pointer, controller.connection id = some pointer := by
  rw [Std.TreeMap.mem_keys, Std.TreeMap.mem_iff_isSome_getElem?, Option.isSome_iff_exists]
  rfl

theorem sorted_keys (controller : ConnectionController) :
    controller.connections.keys.Pairwise (· < ·) :=
  Std.TreeMap.ordered_keys.imp fun h => Std.compare_eq_lt.mp h

theorem begin_eq_some {controller : ConnectionController} {id : UInt32}
    (h : controller.begin = some id) :
    (∃ pointer, controller.connection id = some pointer) ∧
      ∀ id' pointer, controller.connection id' = some pointer → id ≤ id' := by
  obtain ⟨rest, hk⟩ := List.head?_eq_some_iff.mp h
  have hs := controller.sorted_keys
  rw [hk, List.pairwise_cons] at hs
  refine ⟨mem_keys.mp (by rw [hk]; exact List.mem_cons_self), fun id' pointer hp => ?_⟩
  have hm := mem_keys.mpr ⟨pointer, hp⟩
  rw [hk, List.mem_cons] at hm
  rcases hm with rfl | hm
  · exact UInt32.le_refl _
  · exact UInt32.le_of_lt (hs.1 id' hm)

theorem begin_eq_none {controller : ConnectionController} (h : controller.begin = none)
    (id : UInt32) : controller.connection id = none := by
  rw [begin, List.head?_eq_none_iff] at h
  by_contra hn
  have hm := mem_keys.mpr (Option.ne_none_iff_exists'.mp hn)
  simp [h] at hm

theorem next_eq_some {controller : ConnectionController} {id next : UInt32}
    (h : controller.next id = some next) :
    (∃ pointer, controller.connection next = some pointer) ∧ id < next ∧
      ∀ id' pointer, controller.connection id' = some pointer → id < id' → next ≤ id' := by
  obtain ⟨hlt, before, after, hk, hbefore⟩ := List.find?_eq_some_iff_append.mp h
  have hs := controller.sorted_keys
  rw [hk, List.pairwise_append, List.pairwise_cons] at hs
  refine ⟨mem_keys.mp (by rw [hk]; simp), by simpa using hlt, fun id' pointer hp hid => ?_⟩
  have hm := mem_keys.mpr ⟨pointer, hp⟩
  rw [hk, List.mem_append, List.mem_cons] at hm
  rcases hm with hm | rfl | hm
  · simpa [hid] using hbefore id' hm
  · exact UInt32.le_refl _
  · exact UInt32.le_of_lt (hs.2.1.1 id' hm)

theorem next_eq_none {controller : ConnectionController} {id : UInt32}
    (h : controller.next id = none) {id' : UInt32} {pointer : Nat}
    (hp : controller.connection id' = some pointer) : ¬ id < id' := by
  have hn := List.find?_eq_none.mp h id' (mem_keys.mpr ⟨pointer, hp⟩)
  simpa using hn

/-- The removeVector of onScriptUnload. -/
def removeVector (controller : ConnectionController) (hosts : List ConnectionHost)
    (script : Script) : List (UInt32 × Nat) :=
  controller.connections.toList.filter fun (_, pointer) =>
    hosts[pointer]?.any (·.script.runtime == script.runtime)

theorem mem_removeVector {controller : ConnectionController} {hosts : List ConnectionHost}
    {script : Script} {connectionId : UInt32} {pointer : Nat} :
    (connectionId, pointer) ∈ controller.removeVector hosts script ↔
      controller.connection connectionId = some pointer ∧
        ∃ host, hosts[pointer]? = some host ∧ host.script.runtime = script.runtime := by
  simp [removeVector, connection, Std.TreeMap.mem_toList_iff_getElem?_eq_some, Option.any_eq_true]

theorem nodup_removeVector (controller : ConnectionController) (hosts : List ConnectionHost)
    (script : Script) : (controller.removeVector hosts script).Nodup := by
  refine List.Nodup.filter _ (controller.connections.distinct_keys_toList.imp ?_)
  rintro a b hne rfl
  exact hne (by simp)

end ConnectionController

/-- A cell of params and, where it is the address of something in the script,
the cell and the string found there. -/
structure Param where
  value : Cell
  address : Option (Cell × Bytes)
  deriving DecidableEq

def Param.number (value : Cell) : Param := ⟨value, none⟩

def Param.text (s : String) : Param := ⟨0, some (0, Script.ascii s)⟩

/-- The natives of the plugin that change it, or that read a result as a whole. -/
inductive Native
  | connect | close | query | statementPrepare | statementExecute
  | affectedRows | insertId | freeResult | numRows | fetchRow
  deriving DecidableEq

/-- What the host thread waits for while other threads move. After undefined
behaviour the process has no further steps. -/
inductive Task
  | idle
  | closing (amx : Amx) (params : List Param) (pointer : Nat)
  | unloading (amx : Amx) (remaining : List (UInt32 × Nat))
  | crashed

/-- The globals of the plugin, with every host that was ever allocated, by its
address. The iterator is that of ConnectionController::processTick. -/
structure Plugin where
  connectionController : ConnectionController
  resultController : ResultController ResultEntry
  statementRegistry : StatementRegistry
  frameCounter : UInt32
  hosts : List ConnectionHost
  iterator : Option UInt32
  task : Task

inductive PluginAction
  | native (amx : Amx) (native : Native) (params : List Param)
  | amxUnload (amx : Amx)
  | resume
  | processTick
  | tick (publics : Publics)
  | client (pointer : Nat) (input : ClientInput)

inductive PluginEvent
  | returned (amx : Amx) (native : Native) (params : List Param) (value : Cell)
      (touched : Option (Nat × HostEvent))
  | host (pointer : Nat) (event : HostEvent)
  | unloadStarted (amx : Amx)
  | unloadFinished (amx : Amx)
  | frame
  | useAfterFree
  | undefinedBehaviour

namespace Plugin

def new : Plugin := ⟨.new, .new, .new, 0, [], none, .idle⟩

def touch (plugin : Plugin) (pointer : Nat) (action : HostAction) : Option (Plugin × HostEvent) :=
  plugin.hosts[pointer]?.bind fun host =>
    (ConnectionHost.step host action).map fun (host, event) =>
      ({ plugin with hosts := plugin.hosts.set pointer host }, event)

def isDeleted (plugin : Plugin) (pointer : Nat) : Bool :=
  plugin.hosts[pointer]?.all (·.deleted)

def clientStep (plugin : Plugin) (pointer : Nat) (input : ClientInput) :
    Option (Plugin × PluginEvent) :=
  plugin.hosts[pointer]?.bind fun host =>
    (host.client.step plugin.resultController input).bind fun (_, resultController, _) =>
      (plugin.touch pointer (.client plugin.resultController input)).map fun (plugin, event) =>
        ({ plugin with resultController }, .host pointer event)

def visited (plugin : Plugin) : Option ConnectionHost :=
  (plugin.iterator.bind plugin.connectionController.connection).bind (plugin.hosts[·]?)

/-- The host thread is outside of the plugin, or in a script that a tick called.
Where the host that made the call is gone the script is still running. -/
def scriptRuns (plugin : Plugin) : Bool :=
  match plugin.iterator, plugin.visited with
  | none, _ => true
  | some _, some host => match host.tick with
    | .callback _ => true
    | _ => false
  | some _, none => true

/-- ProcessTick up to the loop over the connections. -/
def processTick (plugin : Plugin) : Plugin :=
  if plugin.frameCounter < 10 then { plugin with frameCounter := plugin.frameCounter + 1 }
  else { plugin with frameCounter := 0, iterator := plugin.connectionController.begin }

section

variable (plugin : Plugin)

@[simp] theorem processTick_task : plugin.processTick.task = plugin.task := by
  rw [processTick]; split <;> rfl

@[simp] theorem processTick_hosts : plugin.processTick.hosts = plugin.hosts := by
  rw [processTick]; split <;> rfl

@[simp] theorem processTick_connectionController :
    plugin.processTick.connectionController = plugin.connectionController := by
  rw [processTick]; split <;> rfl

@[simp] theorem processTick_resultController :
    plugin.processTick.resultController = plugin.resultController := by
  rw [processTick]; split <;> rfl

end

def crash (plugin : Plugin) : Plugin := { plugin with task := .crashed }

/-- One step of the loop of ConnectionController::processTick: a step of the host
at the iterator, which moves on when that host is done. -/
def tick (plugin : Plugin) (publics : Publics) : Option (Plugin × PluginEvent) :=
  plugin.iterator.bind fun connectionId =>
    match plugin.connectionController.connection connectionId with
    | none => some (plugin.crash, .useAfterFree)
    | some pointer =>
        if plugin.isDeleted pointer then some (plugin.crash, .useAfterFree)
        else
          (plugin.touch pointer (.processTick publics)).map fun (plugin, event) =>
            let done := plugin.hosts[pointer]?.all (·.tick == .outside)
            ({ plugin with
                iterator :=
                  if done then plugin.connectionController.next connectionId else some connectionId },
              .host pointer event)

/-- onScriptUnload up to its second loop. -/
def amxUnload (plugin : Plugin) (amx : Amx) : Plugin :=
  { plugin with
    task := .unloading amx
      (plugin.connectionController.removeVector plugin.hosts (Script.new amx)) }

/-- The deletion of one host: its destructor stops the thread, and its entry
leaves the map right after it. -/
def delete (plugin : Plugin) (amx : Amx) (connectionId : UInt32) (pointer : Nat)
    (remaining : List (UInt32 × Nat)) : Option (Plugin × PluginEvent) :=
  match plugin.hosts[pointer]? with
  | none => some (plugin.crash, .useAfterFree)
  | some host =>
      if host.deleted then some (plugin.crash, .useAfterFree)
      else if host.client.isRunning then
        (plugin.touch pointer
            (if host.client.requestShutdown then .joinThread else .stopThread)).map
          fun (plugin, event) => (plugin, .host pointer event)
      else
        (plugin.touch pointer .destroy).map fun (plugin, event) =>
          ({ plugin with
              connectionController := plugin.connectionController.erase connectionId
              task := .unloading amx remaining }, .host pointer event)

end Plugin

end MysqlPlugin
