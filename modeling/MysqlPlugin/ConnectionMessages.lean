import MysqlPlugin.Values

namespace MysqlPlugin

structure ConnectionInformation where
  hostname : Bytes
  username : Bytes
  password : Bytes
  database : Bytes
  port : UInt32
  deriving DecidableEq, Inhabited

structure QueryInformation where
  query : Bytes
  callback : Bytes
  dataId : UInt32
  deriving DecidableEq, Inhabited

structure ConnectionAttemptResult where
  hostname : Bytes
  username : Bytes
  error : Bytes
  succeeded : Bool
  errorNumber : Int32
  deriving DecidableEq, Inhabited

structure FailedQueryResult where
  query : Bytes
  callback : Bytes
  error : Bytes
  errorNumber : Int32
  deriving DecidableEq, Inhabited

structure SucceededQueryResult where
  callback : Bytes
  resultId : Int32
  dataId : Int32
  deriving DecidableEq, Inhabited

/-- The std::queue behind the mutex. Each operation holds the mutex throughout,
so it is one step of the thread that calls it. In the 32-bit build size_t and
unsigned int are the same type, so size is the length itself. -/
abbrev ThreadSafeQueue (α : Type) := List α

namespace ThreadSafeQueue

variable {α : Type}

def push (queue : ThreadSafeQueue α) (data : α) : ThreadSafeQueue α := queue ++ [data]

/-- The front element and the rest; none where front() has no element to return. -/
def pop : ThreadSafeQueue α → Option (α × ThreadSafeQueue α)
  | [] => none
  | data :: queue => some (data, queue)

def size (queue : ThreadSafeQueue α) : Nat := queue.length

@[simp] theorem push_eq (queue : ThreadSafeQueue α) (data : α) : push queue data = queue ++ [data] :=
  rfl

@[simp] theorem pop_eq_some {queue rest : ThreadSafeQueue α} {data : α} :
    pop queue = some (data, rest) ↔ queue = data :: rest := by
  cases queue <;> simp [pop]

@[simp] theorem size_pos {queue : ThreadSafeQueue α} : 0 < size queue ↔ queue ≠ [] :=
  List.length_pos_iff

end ThreadSafeQueue

end MysqlPlugin
