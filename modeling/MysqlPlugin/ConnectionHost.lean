import MysqlPlugin.ConnectionClient
import MysqlPlugin.Script
import MysqlPlugin.Transition

namespace MysqlPlugin

inductive TickQueue
  | attempts | failures | successes
  deriving DecidableEq

/-- Where the host thread is in ConnectionHost::processTick. While a public
function runs, its script may call any native. -/
inductive TickPoint
  | outside
  | check (queue : TickQueue)
  | pop (queue : TickQueue)
  | callback (queue : TickQueue)
  deriving DecidableEq

def TickQueue.next : TickQueue → TickPoint
  | attempts => .check .failures
  | failures => .check .successes
  | successes => .outside

/-- A host with its client. The flag deleted is set by delete: from then on
the memory belongs to nobody. -/
structure ConnectionHost where
  connectionId : UInt32
  script : Script
  client : ConnectionClient
  tick : TickPoint
  deleted : Bool

/-- Each call into the script carries the index that amx_Exec ran, or none
where the script has no such public function. -/
inductive HostEvent
  | connectionRequested (request : ConnectionInformation)
  | querySubmitted (request : QueryInformation)
  | ticked
  | onConnectionAttempt (result : ConnectionAttemptResult) (index : Option Int32)
  | onQueryError (result : FailedQueryResult) (index : Option Int32)
  | callback (result : SucceededQueryResult) (index : Option Int32)
  | shutdownRequested
  | joined
  | destroyed
  | client (now : Nat) (event : ClientEvent)

/-- The moves of the two threads of a connection. A tick is taken in small
steps; publics is what the script offers at that moment. The client's step may
find the shared registry in any state. -/
inductive HostAction
  | connect (request : ConnectionInformation)
  | query (request : QueryInformation)
  | processTick (publics : Publics)
  | stopThread
  | joinThread
  | destroy
  | client (results : ResultController ResultEntry) (input : ClientInput)

namespace ConnectionHost

def new (script : Script) (connectionId : UInt32) : ConnectionHost :=
  ⟨connectionId, script, .new, .outside, false⟩

def joining (h : ConnectionHost) : Bool := h.client.isRunning && h.client.requestShutdown

def connect (h : ConnectionHost) (request : ConnectionInformation) : ConnectionHost :=
  { h with client := { h.client with connectionQueue := h.client.connectionQueue.push request } }

def query (h : ConnectionHost) (request : QueryInformation) : ConnectionHost :=
  { h with client := { h.client with queryQueue := h.client.queryQueue.push request } }

def pending (h : ConnectionHost) : TickQueue → Nat
  | .attempts => h.client.connectionAttemptQueue.size
  | .failures => h.client.failedQueryQueue.size
  | .successes => h.client.succeededQueryQueue.size

/-- A call into the script comes back at once when there is nothing to run. -/
def afterCall (queue : TickQueue) (index : Option Int32) : TickPoint :=
  if index.isSome then .callback queue else queue.next

def popAttempt (h : ConnectionHost) (publics : Publics) : Option (ConnectionHost × HostEvent) :=
  h.client.connectionAttemptQueue.pop.map fun (result, queue) =>
    let (script, index) := h.script.onConnectionAttempt publics
    ({ h with
        script
        client := { h.client with connectionAttemptQueue := queue }
        tick := afterCall .attempts index }, .onConnectionAttempt result index)

def popFailure (h : ConnectionHost) (publics : Publics) : Option (ConnectionHost × HostEvent) :=
  h.client.failedQueryQueue.pop.map fun (result, queue) =>
    let (script, index) := h.script.onQueryError publics
    ({ h with
        script
        client := { h.client with failedQueryQueue := queue }
        tick := afterCall .failures index }, .onQueryError result index)

def popSuccess (h : ConnectionHost) (publics : Publics) : Option (ConnectionHost × HostEvent) :=
  h.client.succeededQueryQueue.pop.map fun (result, queue) =>
    let index := Script.callback publics result.callback
    ({ h with
        client := { h.client with succeededQueryQueue := queue }
        tick := afterCall .successes index }, .callback result index)

/-- One step of processTick: a size check, a pop with the call into the script
that follows it, or the return of the function that was called. -/
def processTick (h : ConnectionHost) (publics : Publics) : Option (ConnectionHost × HostEvent) :=
  match h.tick with
  | .outside => some ({ h with tick := .check .attempts }, .ticked)
  | .check queue =>
      some ({ h with tick := if 0 < h.pending queue then .pop queue else queue.next }, .ticked)
  | .pop .attempts => h.popAttempt publics
  | .pop .failures => h.popFailure publics
  | .pop .successes => h.popSuccess publics
  | .callback queue => some ({ h with tick := queue.next }, .ticked)

/-- The first half of Thread::stopThread. A thread that is not running needs
no second one. The second half is that of the pthread build, where Thread::stop joins
the thread; the WIN32 build waits 1000 ms at most and goes on. -/
def stopThread (h : ConnectionHost) : ConnectionHost :=
  { h with client := { h.client with requestShutdown := true } }

def joinThread (h : ConnectionHost) : ConnectionHost :=
  { h with client := { h.client with isRunning := false } }

/-- A deleted host has no steps, and the host thread has none but the join
while it waits for the client. -/
def step : Transition.Machine ConnectionHost HostAction HostEvent := fun h action =>
  if h.deleted then none
  else
    match action with
    | .client results input =>
        (h.client.step results input).map fun (client, _, event) =>
          ({ h with client }, .client input.now event)
    | .joinThread =>
        match h.joining, h.client.point with
        | true, .finished => some (h.joinThread, .joined)
        | _, _ => none
    | .connect request => if h.joining then none else some (h.connect request, .connectionRequested request)
    | .query request => if h.joining then none else some (h.query request, .querySubmitted request)
    | .processTick publics => if h.joining then none else h.processTick publics
    | .stopThread =>
        if h.client.isRunning && !h.client.requestShutdown then
          some (h.stopThread, .shutdownRequested)
        else none
    | .destroy => if h.client.isRunning then none else some ({ h with deleted := true }, .destroyed)

end ConnectionHost

end MysqlPlugin
