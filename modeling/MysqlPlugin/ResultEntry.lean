import Std.Data.TreeMap
import Std.Data.TreeMap.Lemmas
import MysqlPlugin.Values

namespace MysqlPlugin

/-- The field types that toColumnType names; every other one is a code. -/
inductive FieldType
  | decimal | float | double | tiny | short | long | bit | longlong | int24 | year
  | other (code : Nat)
  deriving DecidableEq

structure Field where
  name : Bytes
  type : FieldType
  deriving DecidableEq

/-- A value of a row as libmysql hands it out: null, or the bytes whose length
mysql_fetch_lengths reports and which a NUL follows. -/
abbrev FieldData := Option Bytes

/-- A result set held by mysql_store_result. mysql_num_fields counts in an
unsigned int, and every row has one value for each field. -/
structure StoredResult where
  fields : List Field
  rows : List (List FieldData)
  fields_lt : fields.length < 2 ^ 32
  row_length : ∀ row ∈ rows, row.length = fields.length

inductive ColumnType
  | string | integer | float | unknown
  deriving DecidableEq

def toColumnType : FieldType → ColumnType
  | .decimal | .float | .double => .float
  | .tiny | .short | .long | .bit | .longlong | .int24 | .year => .integer
  | .other _ => .string

structure ColumnInfo where
  name : Bytes
  type : ColumnType
  index : Int32
  deriving DecidableEq

/-- The tagged union, by the member that was written. A float is kept as the
text that atof reads; the empty text reads as 0.0. -/
inductive FieldValue
  | string (stringVal : Bytes)
  | integer (integerVal : Int32)
  | float (floatText : Bytes)
  deriving DecidableEq

def FieldValue.member : FieldValue → ColumnType
  | .string _ => .string
  | .integer _ => .integer
  | .float _ => .float

structure RowInfo where
  columns : List FieldValue
  deriving DecidableEq

namespace RowInfo

def new : RowInfo := ⟨[]⟩

/-- The position that the returned pointer refers to; none is the null pointer. -/
def column (row : RowInfo) (index : UInt32) : Option Nat :=
  if row.columns.length ≤ index.toNat then none else some index.toNat

def pushField (row : RowInfo) (value : FieldData) (length : Nat) (type : ColumnType) : RowInfo :=
  match type with
  | .string => ⟨row.columns ++ [.string (cString ((value.getD []).take length))]⟩
  | .integer => ⟨row.columns ++ [.integer ((value.map atoi).getD 0)]⟩
  | .float => ⟨row.columns ++ [.float (cString (value.getD []))]⟩
  | .unknown => row -- the switch has no case for this type

end RowInfo

structure FieldPointer where
  row : Nat
  column : Nat
  deriving DecidableEq

structure ResultEntry where
  affectedRows : Int32
  insertId : Int32
  currentRow : Int32
  columns : Std.TreeMap Bytes ColumnInfo
  rows : List RowInfo

namespace ResultEntry

def new : ResultEntry := ⟨0, 0, -1, ∅, []⟩

/-- The right-hand side, with the size of the map, is evaluated before the
subscript inserts the key. -/
def addColumn (entry : ResultEntry) (name : Bytes) (type : ColumnType) : ResultEntry :=
  { entry with
    columns := entry.columns.insert name ⟨name, type, staticCastInt entry.columns.size⟩ }

def createRow (entry : ResultEntry) : ResultEntry :=
  { entry with rows := entry.rows ++ [RowInfo.new] }

def updateRow (entry : ResultEntry) (f : RowInfo → RowInfo) : ResultEntry :=
  { entry with rows := entry.rows.modify (entry.rows.length - 1) f }

def numRows (entry : ResultEntry) : Nat := entry.rows.length

def fetchRow (entry : ResultEntry) : Bool × ResultEntry :=
  (entry.currentRow + 1 < staticCastInt entry.rows.length,
    { entry with currentRow := entry.currentRow + 1 })

/-- The type the out parameter is left with, and the returned pointer. -/
def fetchField (entry : ResultEntry) (fieldName : Bytes) (type : ColumnType) :
    ColumnType × Option FieldPointer :=
  if entry.currentRow < 0 ∨ staticCastInt entry.rows.length ≤ entry.currentRow then (type, none)
  else
    match entry.columns[fieldName]? with
    | none => (type, none)
    | some info =>
        let current := entry.currentRow.toNatClampNeg
        (info.type, (entry.rows[current]?.bind (·.column info.index.toUInt32)).map (⟨current, ·⟩))

def read (entry : ResultEntry) (pointer : FieldPointer) : Option FieldValue :=
  entry.rows[pointer.row]?.bind (·.columns[pointer.column]?)

end ResultEntry

/-- The column loop of doQuery, which runs while fieldId is below field_count. -/
def addColumns (entry : ResultEntry) (fields : List Field) (fieldCount : Int32) : ResultEntry :=
  (fields.take fieldCount.toNatClampNeg).foldl
    (fun entry field => entry.addColumn field.name (toColumnType field.type)) entry

def pushFields (row : RowInfo) (fields : List Field) (fieldCount : Int32)
    (resultRow : List FieldData) : RowInfo :=
  ((resultRow.zip fields).take fieldCount.toNatClampNeg).foldl
    (fun row p => row.pushField p.1 (p.1.getD []).length (toColumnType p.2.type)) row

def readResult (queryResult : StoredResult) : ResultEntry :=
  let fieldCount := staticCastInt queryResult.fields.length
  let rowCount := staticCastInt queryResult.rows.length
  if 0 < rowCount then
    queryResult.rows.foldl
      (fun entry resultRow =>
        entry.createRow.updateRow (pushFields · queryResult.fields fieldCount resultRow))
      (addColumns .new queryResult.fields fieldCount)
  else .new

end MysqlPlugin
