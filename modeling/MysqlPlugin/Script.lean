import MysqlPlugin.Values

namespace MysqlPlugin

/-- An AMX pointer. Scripts are told apart by it. -/
abbrev Amx := Nat

/-- What amx_FindPublic answers for a script: the index of a public function. -/
abbrev Publics := Bytes → Option Int32

structure Script where
  runtime : Amx
  onConnectionAttemptIndex : Int32
  onQueryErrorIndex : Int32
  deriving DecidableEq

namespace Script

def callbackNotFoundIndex : Int32 := -1

def new (runtime : Amx) : Script := ⟨runtime, 0, 0⟩

def ascii (s : String) : Bytes := s.toList.map (fun c => c.toNat.toUInt8)

/-- The lookup that both fixed callbacks make, each with its own name and its
own cell: the cell afterwards, and the index that amx_Exec is called with. -/
def lookup (publics : Publics) (name : Bytes) (index : Int32) : Int32 × Option Int32 :=
  if index = callbackNotFoundIndex then (index, none)
  else if index = 0 then
    match publics name with
    | none => (callbackNotFoundIndex, none)
    | some found => (found, some found)
  else (index, some index)

def onConnectionAttempt (script : Script) (publics : Publics) : Script × Option Int32 :=
  let found := lookup publics (ascii "OnConnectionAttempt") script.onConnectionAttemptIndex
  ({ script with onConnectionAttemptIndex := found.1 }, found.2)

def onQueryError (script : Script) (publics : Publics) : Script × Option Int32 :=
  let found := lookup publics (ascii "OnQueryError") script.onQueryErrorIndex
  ({ script with onQueryErrorIndex := found.1 }, found.2)

def callback (publics : Publics) (callbackName : Bytes) : Option Int32 :=
  if callbackName.length = 0 then none else publics callbackName

end Script

end MysqlPlugin
