import MysqlPlugin.ConnectionMessages
import MysqlPlugin.ResultController
import MysqlPlugin.ResultEntry
import MysqlPlugin.Thread

namespace MysqlPlugin

/-- What mysql_real_connect returns, and mysql_error and mysql_errno after it. -/
inductive ConnectAnswer
  | connected
  | refused (error : Bytes) (errorNumber : UInt32)
  deriving DecidableEq

def ConnectAnswer.accepted : ConnectAnswer → Bool
  | connected => true
  | refused _ _ => false

/-- What libmysql answers to the calls that one doQuery may make. -/
structure QueryAnswer where
  realQuery : Int32
  storeResult : Option StoredResult
  fieldCount : UInt32
  affectedRows : UInt64
  insertId : UInt64
  error : Bytes
  errorNumber : UInt32

def QueryAnswer.empty : QueryAnswer := ⟨0, none, 0, 0, 0, [], 0⟩

/-- What the outside world answers to one step of the client thread: the clock
in milliseconds since the epoch, and the server. -/
structure ClientInput where
  now : Nat
  realConnect : ConnectAnswer
  ping : Int32
  query : QueryAnswer

inductive ExecutionType
  | normalExecution | silentExecution
  deriving DecidableEq

structure ConnectionStatus where
  information : ConnectionInformation
  hasConnectionInformation : Bool
  isConnected : Bool
  lastAttempt : Int
  lastPing : Int

def ConnectionStatus.new : ConnectionStatus := ⟨default, false, false, 0, 0⟩

def connectionRetryIntervalMs : Int := 5000

def serverPingIntervalMs : Int := 5000

/-- A call on the MYSQL_RES of a query, which is not null in either. -/
inductive ResultSetCall
  | storeResult | freeResult
  deriving DecidableEq

inductive Feedback
  | none
  | succeeded (entry : ResultEntry)
  | failed (result : FailedQueryResult)

structure QueryOutcome where
  calls : List ResultSetCall
  feedback : Feedback

def readAffected (answer : QueryAnswer) : ResultEntry :=
  { ResultEntry.new with
    affectedRows := answer.affectedRows.toUInt32.toInt32
    insertId := answer.insertId.toUInt32.toInt32 }

/-- The message part at the end of doQuery, which both kinds of failure reach. -/
def failureFeedback (query callback : Bytes) (executionType : ExecutionType) (answer : QueryAnswer) :
    Feedback :=
  if executionType = .silentExecution then .none
  else .failed ⟨query, callback, answer.error, answer.errorNumber.toInt32⟩

/-- doQuery up to the point where it registers and queues its messages. -/
def doQuery (query callback : Bytes) (executionType : ExecutionType) (answer : QueryAnswer) :
    QueryOutcome :=
  if answer.realQuery = 0 then
    let stored := if answer.storeResult.isSome then [ResultSetCall.storeResult] else []
    if callback.length = 0 ∨ executionType = .silentExecution then ⟨stored, .none⟩
    else
      match answer.storeResult with
      | some queryResult => ⟨stored ++ [.freeResult], .succeeded (readResult queryResult)⟩
      | none =>
          if answer.fieldCount ≠ 0 then
            ⟨stored, failureFeedback query callback executionType answer⟩
          else ⟨stored, .succeeded (readAffected answer)⟩
  else ⟨[], failureFeedback query callback executionType answer⟩

/-- The two places of run that call doQuery. The second one counts. -/
inductive QueryCaller
  | loop
  | drain (executedQueries : Nat)
  deriving DecidableEq

/-- The points of run between two steps that other threads can observe. -/
inductive RunPoint
  | loopCondition
  | loopBody
  | popInformation
  | connect
  | awaitConnect
  | pushAttempt (result : ConnectionAttemptResult)
  | stampAttempt
  | stampPing
  | ping
  | popQuery
  | query (information : QueryInformation) (caller : QueryCaller)
  | feedback (information : QueryInformation) (caller : QueryCaller) (answer : QueryAnswer)
  | pushSucceeded (information : QueryInformation) (caller : QueryCaller) (answer : QueryAnswer)
      (resultId : UInt32)
  | drainCondition (executedQueries : Nat)
  | popRemaining (executedQueries : Nat)
  | close
  | finished

namespace QueryCaller

def executionType : QueryCaller → ExecutionType
  | loop => .normalExecution
  | drain _ => .silentExecution

def resume : QueryCaller → RunPoint
  | loop => .loopCondition
  | drain executedQueries => .drainCondition executedQueries

end QueryCaller

structure ConnectionClient where
  isRunning : Bool
  requestShutdown : Bool
  connectionQueue : ThreadSafeQueue ConnectionInformation
  queryQueue : ThreadSafeQueue QueryInformation
  connectionAttemptQueue : ThreadSafeQueue ConnectionAttemptResult
  failedQueryQueue : ThreadSafeQueue FailedQueryResult
  succeededQueryQueue : ThreadSafeQueue SucceededQueryResult
  connectionStatus : ConnectionStatus
  point : RunPoint

structure ExecutedQuery where
  information : QueryInformation
  executionType : ExecutionType
  answer : QueryAnswer
  resultId : Option UInt32

inductive ClientEvent
  | internal
  | attemptStarted
  | connected (answer : ConnectAnswer) (result : ConnectionAttemptResult)
  | attemptQueued (result : ConnectionAttemptResult)
  | pingStamped
  | pinged (answer : Int32)
  | popped (information : QueryInformation) (executionType : ExecutionType)
  | queried (information : QueryInformation) (executionType : ExecutionType) (answer : QueryAnswer)
  | registered (information : QueryInformation) (entry : ResultEntry) (resultId : UInt32)
  | executed (query : ExecutedQuery)
  | closed
  | returnedUnclosed

namespace ConnectionClient

def new : ConnectionClient := ⟨true, false, [], [], [], [], [], .new, .loopCondition⟩

def attemptResult (information : ConnectionInformation) : ConnectAnswer → ConnectionAttemptResult
  | .connected => ⟨information.hostname, information.username, [], true, 0⟩
  | .refused error errorNumber =>
      ⟨information.hostname, information.username, error, false, errorNumber.toInt32⟩

@[simp] theorem attemptResult_succeeded (information : ConnectionInformation) (answer : ConnectAnswer) :
    (attemptResult information answer).succeeded = answer.accepted := by
  cases answer <;> rfl

/-- The branches of the loop body up to the first thing they do. A thread that
only sleeps is back at the loop condition. -/
def loopBranch (c : ConnectionClient) (now : Nat) : RunPoint :=
  let status := c.connectionStatus
  if status.hasConnectionInformation = false then
    if 0 < c.connectionQueue.size then .popInformation else .loopCondition
  else if status.isConnected = false then
    if status.lastAttempt = 0 ∨ connectionRetryIntervalMs < Thread.timeSpan now status.lastAttempt then
      .connect
    else .loopCondition
  else if status.lastPing = 0 ∨ serverPingIntervalMs < Thread.timeSpan now status.lastPing then
    .stampPing
  else if 0 < c.queryQueue.size then .popQuery
  else .loopCondition

/-- One step of run. A pop of an empty queue has no step, and neither has a
thread that has returned. -/
def step (results : ResultController ResultEntry) (input : ClientInput) (c : ConnectionClient) :
    Option (ConnectionClient × ResultController ResultEntry × ClientEvent) :=
  match c.point with
  | .loopCondition =>
      some ({ c with point := if c.requestShutdown then .drainCondition 0 else .loopBody },
        results, .internal)
  | .loopBody => some ({ c with point := c.loopBranch input.now }, results, .internal)
  | .popInformation =>
      c.connectionQueue.pop.map fun (information, queue) =>
        ({ c with
            connectionQueue := queue
            connectionStatus :=
              { c.connectionStatus with information, hasConnectionInformation := true }
            point := .loopCondition }, results, .internal)
  | .connect => some ({ c with point := .awaitConnect }, results, .attemptStarted)
  | .awaitConnect =>
      let result := attemptResult c.connectionStatus.information input.realConnect
      let isConnected := input.realConnect.accepted || c.connectionStatus.isConnected
      some ({ c with
          connectionStatus := { c.connectionStatus with isConnected }
          point := .pushAttempt result }, results, .connected input.realConnect result)
  | .pushAttempt result =>
      some ({ c with
          connectionAttemptQueue := c.connectionAttemptQueue.push result
          point := .stampAttempt }, results, .attemptQueued result)
  | .stampAttempt =>
      some ({ c with
          connectionStatus := { c.connectionStatus with lastAttempt := Thread.time input.now }
          point := .loopCondition }, results, .internal)
  | .stampPing =>
      some ({ c with
          connectionStatus := { c.connectionStatus with lastPing := Thread.time input.now }
          point := .ping }, results, .pingStamped)
  | .ping => some ({ c with point := .loopCondition }, results, .pinged input.ping)
  | .popQuery =>
      c.queryQueue.pop.map fun (information, queue) =>
        ({ c with queryQueue := queue, point := .query information .loop }, results,
          .popped information .normalExecution)
  | .query information caller =>
      some ({ c with point := .feedback information caller input.query }, results,
        .queried information caller.executionType input.query)
  | .feedback information caller answer =>
      match (doQuery information.query information.callback caller.executionType answer).feedback with
      | .none =>
          some ({ c with point := caller.resume }, results,
            .executed ⟨information, caller.executionType, answer, none⟩)
      | .failed result =>
          some ({ c with
              failedQueryQueue := c.failedQueryQueue.push result
              point := caller.resume }, results,
            .executed ⟨information, caller.executionType, answer, none⟩)
      | .succeeded entry =>
          let (results, resultId) := results.push entry
          some ({ c with point := .pushSucceeded information caller answer resultId }, results,
            .registered information entry resultId)
  | .pushSucceeded information caller answer resultId =>
      some ({ c with
          succeededQueryQueue := c.succeededQueryQueue.push
            ⟨information.callback, resultId.toInt32, information.dataId.toInt32⟩
          point := caller.resume }, results,
        .executed ⟨information, caller.executionType, answer, some resultId⟩)
  | .drainCondition executedQueries =>
      if c.connectionStatus.isConnected ∧ 0 < c.queryQueue.size ∧ executedQueries < 50 then
        some ({ c with point := .popRemaining (executedQueries + 1) }, results, .internal)
      else some ({ c with point := .close }, results, .internal)
  | .popRemaining executedQueries =>
      c.queryQueue.pop.map fun (information, queue) =>
        ({ c with queryQueue := queue, point := .query information (.drain executedQueries) }, results,
          .popped information .silentExecution)
  | .close =>
      if c.connectionStatus.hasConnectionInformation ∧ c.connectionStatus.isConnected then
        some ({ c with point := .finished }, results, .closed)
      else some ({ c with point := .finished }, results, .returnedUnclosed)
  | .finished => none

end ConnectionClient

end MysqlPlugin
