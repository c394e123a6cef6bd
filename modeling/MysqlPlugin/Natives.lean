import MysqlPlugin.Plugin

namespace MysqlPlugin

/-- How the call of a native ends. One that waits comes back in a later step. -/
inductive NativeOutcome
  | returned (plugin : Plugin) (value : Cell) (touched : Option (Nat × HostEvent))
  | waiting (plugin : Plugin) (pointer : Nat) (event : HostEvent)
  | useAfterFree
  | undefinedBehaviour

/-- amx_StrParam: the null pointer for an empty string. -/
def amxStrParam (param : Param) : Option Bytes :=
  param.address.bind fun (_, text) => if 0 < text.length then some (cString text) else none

def decimal (value : Cell) : Bytes := Script.ascii (toString value.toInt)

inductive ReadParameters
  | read (parameters : List Bytes)
  | refused
  | overflow

/-- One turn of the parameter loop. Strings are cut to the size of its buffer. -/
def readParameter (lib : Externals) (parameterType : UInt8) (cell : Cell) (text : Bytes) :
    ReadParameters :=
  if parameterType = 105 then .read [decimal cell]
  else if parameterType = 102 then .read [lib.formatFloat cell]
  else if parameterType = 115 then
    match escapeStringParameter lib (cString (text.take 255)) with
    | some parameter => .read [parameter]
    | none => .overflow
  else .refused

def readParameters (lib : Externals) : List UInt8 → List Param → ReadParameters
  | parameterType :: types, param :: params =>
      match param.address with
      | none => .refused
      | some (cell, text) =>
          match readParameter lib parameterType cell text with
          | .read parameter =>
              match readParameters lib types params with
              | .read parameters => .read (parameter ++ parameters)
              | ending => ending
          | ending => ending
  | _, _ => .read []

namespace Plugin

def query (plugin : Plugin) (pointer : Nat) (request : QueryInformation) : NativeOutcome :=
  match plugin.touch pointer (.query request) with
  | some (plugin, event) => .returned plugin 1 (some (pointer, event))
  | none => .useAfterFree

/-- A call of ConnectionHost::close, after which the native returns 1. It waits
for a thread that is running. -/
def close (plugin : Plugin) (pointer : Nat) : NativeOutcome :=
  if plugin.isDeleted pointer then .useAfterFree
  else if plugin.hosts[pointer]?.all (·.client.isRunning) then
    match plugin.touch pointer .stopThread with
    | some (plugin, event) => .waiting plugin pointer event
    | none => .useAfterFree
  else .returned plugin 1 none

/-- ConnectionController::connect. The new host starts its client thread, which
finds nothing to do before the request. -/
def connect (plugin : Plugin) (script : Script) (request : ConnectionInformation) : NativeOutcome :=
  let pointer := plugin.hosts.length
  let (connectionController, connectionId) := plugin.connectionController.connect pointer
  let host := (ConnectionHost.new script connectionId).connect request
  .returned { plugin with connectionController, hosts := plugin.hosts ++ [host] }
    connectionId.toInt32 (some (pointer, .connectionRequested request))

def mysqlConnect (plugin : Plugin) (amx : Amx) : List Param → NativeOutcome
  | [hostname, username, password, database, port] =>
      match amxStrParam hostname, amxStrParam username, amxStrParam password, amxStrParam database with
      | some hostname, some username, some password, some database =>
          plugin.connect (Script.new amx) ⟨hostname, username, password, database, port.value.toUInt32⟩
      | _, _, _, _ => .returned plugin 0 none
  | _ => .returned plugin 0 none

def mysqlClose (plugin : Plugin) : List Param → NativeOutcome
  | [connectionId] =>
      match plugin.connectionController.connection connectionId.value.toUInt32 with
      | some pointer => plugin.close pointer
      | none => .returned plugin 0 none
  | _ => .returned plugin 0 none

def mysqlQuery (plugin : Plugin) : List Param → NativeOutcome
  | [connectionId, query, callback, dataId] =>
      match plugin.connectionController.connection connectionId.value.toUInt32, amxStrParam query with
      | some pointer, some query =>
          plugin.query pointer ⟨query, (amxStrParam callback).getD [], dataId.value.toUInt32⟩
      | _, _ => .returned plugin 0 none
  | _ => .returned plugin 0 none

/-- An empty query or list of parameters is a null pointer, which strlen and the
constructor of std::string read. -/
def mysqlStatementPrepare (plugin : Plugin) : List Param → NativeOutcome
  | [query, parameters] =>
      match amxStrParam query with
      | none => .undefinedBehaviour
      | some query =>
          if query.length = 0 then .returned plugin (-1) none
          else
            match amxStrParam parameters with
            | none => .undefinedBehaviour
            | some parameters =>
                let (statementRegistry, statementId) := plugin.statementRegistry.create query parameters
                .returned { plugin with statementRegistry } statementId.toInt32 none
  | _ => .returned plugin 0 none

def mysqlStatementExecute (lib : Externals) (plugin : Plugin) : List Param → NativeOutcome
  | connectionId :: statementId :: callback :: dataId :: arguments =>
      match plugin.connectionController.connection connectionId.value.toUInt32,
          plugin.statementRegistry.atIndex statementId.value.toUInt32 with
      | some pointer, some statement =>
          if statement.parameters.length ≠ arguments.length then .returned plugin 0 none
          else
            match readParameters lib statement.parameters arguments with
            | .refused => .returned plugin 0 none
            | .overflow => .undefinedBehaviour
            | .read parameters =>
                let (built, query) := QueryBuilder.build statement parameters []
                if built then
                  plugin.query pointer
                    ⟨cString query, (amxStrParam callback).getD [], dataId.value.toUInt32⟩
                else .returned plugin 0 none
      | _, _ => .returned plugin 0 none
  | _ => .returned plugin 0 none

/-- The natives that read a result return 0 where there is none of that id. -/
def readEntry (plugin : Plugin) (value : ResultEntry → Cell) : List Param → NativeOutcome
  | [resultId] =>
      match plugin.resultController.atId resultId.value.toUInt32 with
      | some entry => .returned plugin (value entry) none
      | none => .returned plugin 0 none
  | _ => .returned plugin 0 none

def mysqlAffectedRows (plugin : Plugin) : List Param → NativeOutcome :=
  plugin.readEntry (·.affectedRows)

def mysqlInsertId (plugin : Plugin) : List Param → NativeOutcome := plugin.readEntry (·.insertId)

def mysqlNumRows (plugin : Plugin) : List Param → NativeOutcome :=
  plugin.readEntry fun entry => staticCastInt entry.numRows

def mysqlFreeResult (plugin : Plugin) : List Param → NativeOutcome
  | [resultId] =>
      let (resultController, value) := plugin.resultController.free resultId.value.toUInt32
      .returned { plugin with resultController } value none
  | _ => .returned plugin 0 none

def mysqlFetchRow (plugin : Plugin) : List Param → NativeOutcome
  | [resultId] =>
      match plugin.resultController.atId resultId.value.toUInt32 with
      | some entry =>
          .returned
            { plugin with
              resultController :=
                plugin.resultController.update resultId.value.toUInt32 (·.fetchRow.2) }
            (if entry.fetchRow.1 then 1 else 0) none
      | none => .returned plugin 0 none
  | _ => .returned plugin 0 none

def callNative (lib : Externals) (plugin : Plugin) (amx : Amx) (params : List Param) :
    Native → NativeOutcome
  | .connect => plugin.mysqlConnect amx params
  | .close => plugin.mysqlClose params
  | .query => plugin.mysqlQuery params
  | .statementPrepare => plugin.mysqlStatementPrepare params
  | .statementExecute => plugin.mysqlStatementExecute lib params
  | .affectedRows => plugin.mysqlAffectedRows params
  | .insertId => plugin.mysqlInsertId params
  | .freeResult => plugin.mysqlFreeResult params
  | .numRows => plugin.mysqlNumRows params
  | .fetchRow => plugin.mysqlFetchRow params

/-- One step of the process: of a client thread, or of the one host thread,
which the server lends to the plugin and to the scripts. -/
def step (lib : Externals) : Transition.Machine Plugin PluginAction PluginEvent :=
  fun plugin action =>
    match plugin.task, action with
    | .crashed, _ => none
    | _, .client pointer input => plugin.clientStep pointer input
    | .idle, .native amx native params =>
        if plugin.scriptRuns then
          match plugin.callNative lib amx params native with
          | .returned plugin value touched =>
              some (plugin, .returned amx native params value touched)
          | .waiting plugin pointer event =>
              some ({ plugin with task := .closing amx params pointer }, .host pointer event)
          | .useAfterFree => some (plugin.crash, .useAfterFree)
          | .undefinedBehaviour => some (plugin.crash, .undefinedBehaviour)
        else none
    | .idle, .amxUnload amx =>
        if plugin.scriptRuns then some (plugin.amxUnload amx, .unloadStarted amx) else none
    | .idle, .processTick =>
        if plugin.iterator.isNone then some (plugin.processTick, .frame) else none
    | .idle, .tick publics => plugin.tick publics
    | .closing amx params pointer, .resume =>
        (plugin.touch pointer .joinThread).map fun (plugin, event) =>
          ({ plugin with task := .idle }, .returned amx .close params 1 (some (pointer, event)))
    | .unloading amx [], .resume => some ({ plugin with task := .idle }, .unloadFinished amx)
    | .unloading amx ((connectionId, pointer) :: remaining), .resume =>
        plugin.delete amx connectionId pointer remaining
    | _, _ => none

end Plugin

def plainText : Externals := ⟨id, fun _ => []⟩

def clientTurns (pointer steps : Nat) (answer : QueryAnswer) : List PluginAction :=
  List.replicate steps (.client pointer ⟨1000, .connected, 0, answer⟩)

end MysqlPlugin
