import MysqlPlugin.Values

namespace MysqlPlugin

structure Statement where
  query : Bytes
  parameters : Bytes
  deriving DecidableEq

structure StatementRegistry where
  statementVector : List Statement
  deriving DecidableEq

namespace StatementRegistry

def new : StatementRegistry := ⟨[]⟩

def create (registry : StatementRegistry) (query parameters : Bytes) : StatementRegistry × UInt32 :=
  let statementVector := registry.statementVector ++ [⟨query, parameters⟩]
  (⟨statementVector⟩, UInt32.ofNat (statementVector.length - 1))

def atIndex (registry : StatementRegistry) (index : UInt32) : Option Statement :=
  registry.statementVector[index.toNat]?

end StatementRegistry

/-- Functions that the plugin calls and that live outside of it: escaping in
libmysql, and the text that snprintf makes of a float cell with "%.4f". -/
structure Externals where
  mysqlEscapeString : Bytes → Bytes
  formatFloat : Cell → Bytes

def overwrite (buffer : Bytes) (offset : Nat) (bytes : Bytes) : Bytes :=
  buffer.take offset ++ bytes ++ buffer.drop (offset + bytes.length)

def stringParameterBufferSize : Nat := 2048

/-- The returned string; none where the closing quote and the NUL behind it
would not fit in the static buffer. -/
def escapeStringParameter (lib : Externals) (query : Bytes) : Option Bytes :=
  let buffer := List.replicate stringParameterBufferSize 0
  let buffer := overwrite buffer 0 [34]
  let escaped := lib.mysqlEscapeString (cString query)
  if escaped.length + 2 < stringParameterBufferSize then
    let buffer := overwrite buffer 1 (escaped ++ [0])
    let buffer := overwrite buffer (1 + escaped.length) [34]
    some (cString buffer)
  else none

namespace QueryBuilder

def findFirstOf (s : Bytes) (c : UInt8) (position : Nat) : Option Nat :=
  ((s.drop position).idxOf? c).map (position + ·)

theorem findFirstOf_bounds {s : Bytes} {c : UInt8} {i j : Nat} (h : findFirstOf s c i = some j) :
    i ≤ j ∧ j < s.length := by
  obtain ⟨k, hk, rfl⟩ := Option.map_eq_some_iff.mp h
  obtain ⟨hlt, _⟩ := List.findIdx?_eq_some_iff_getElem.mp hk
  rw [List.length_drop] at hlt
  omega

def buildLoop (query : Bytes) (parameters : List Bytes) (currentPosition parameterIndex : Nat)
    (result : Bytes) : Bool × Bytes :=
  match _h : findFirstOf query 63 currentPosition with
  | none => (true, result ++ query.drop currentPosition)
  | some position =>
      let result := result ++ (query.drop currentPosition).take (position - currentPosition)
      match parameters[parameterIndex]? with
      | none => (false, result)
      | some parameter =>
          buildLoop query parameters (position + 1) (parameterIndex + 1) (result ++ parameter)
termination_by query.length + 1 - currentPosition
decreasing_by
  have := findFirstOf_bounds _h
  omega

/-- The returned flag and what the out parameter holds afterwards. What it
held before is cleared. -/
def build (statement : Statement) (parameters : List Bytes) (_result : Bytes) : Bool × Bytes :=
  buildLoop statement.query parameters 0 0 []

end QueryBuilder

end MysqlPlugin
