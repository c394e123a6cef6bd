import Mathlib.Data.List.Forall2
import MysqlPlugin.ColumnLookup
import MysqlPlugin.Heap

namespace MysqlPlugin.RowMemory

open ColumnLookup

/-- A member of the union. The string is a pointer to its own block. -/
inductive FieldUnion
  | stringVal (address : Nat)
  | integerVal (value : Int32)
  | floatVal (text : Bytes)
  deriving DecidableEq

structure FieldCell where
  ownsString : Bool
  value : FieldUnion
  deriving DecidableEq

namespace FieldCell

def ofString (value : Nat) : FieldCell := ⟨true, .stringVal value⟩

def ofInteger (value : Int32) : FieldCell := ⟨false, .integerVal value⟩

def ofFloat (value : Bytes) : FieldCell := ⟨false, .floatVal value⟩

/-- The body of the loop of ~RowInfo. There is no result where it would read a
member that was not written. -/
def destroy (heap : Heap Bytes) (cell : FieldCell) : Option (Heap Bytes) :=
  if cell.ownsString = false then some heap
  else
    match cell.value with
    | .stringVal address => heap.free address -- delete, though it is calloc that allocated it
    | _ => none

def owned : FieldCell → List Nat
  | ⟨true, .stringVal address⟩ => [address]
  | _ => []

/-- Who reads the field finds this value. A string is a block in use that holds
a NUL, so that the reader stays inside of it. -/
def Holds (heap : Heap Bytes) (cell : FieldCell) : FieldValue → Prop
  | .string stringVal => ∃ address block, cell = ofString address ∧
      heap.read address = some block ∧ 0 ∈ block ∧ cString block = stringVal
  | .integer integerVal => cell = ofInteger integerVal
  | .float floatText => cell = ofFloat floatText

end FieldCell

def calloc (count size : Nat) : Bytes := List.replicate (count * size) 0

/-- The source up to its NUL, filled up with zeros to n bytes, where they fit. -/
def strncpy (source : Bytes) (n : Nat) (destination : Bytes) : Option Bytes :=
  let copied := (cString source).take n
  if n ≤ destination.length then
    some (copied ++ List.replicate (n - copied.length) 0 ++ destination.drop n)
  else none

structure RowCells where
  columns : List FieldCell
  deriving DecidableEq

namespace RowCells

def new : RowCells := ⟨[]⟩

/-- The new row and the one it was moved from, whose columns were swapped. -/
def moveConstruct (other : RowCells) : RowCells × RowCells := (other, new)

def destroy (heap : Heap Bytes) (row : RowCells) : Option (Heap Bytes) :=
  row.columns.foldlM FieldCell.destroy heap

def pushField (heap : Heap Bytes) (row : RowCells) (value : FieldData) (length : Nat)
    (type : ColumnType) : Option (Heap Bytes × RowCells) :=
  match type with
  | .string =>
      let (heap, fieldMemory) := heap.alloc (calloc 1 (length + 1))
      let copied :=
        match value with
        | some value => heap.write fieldMemory (strncpy value length)
        | none => some heap
      copied.map fun heap => (heap, ⟨row.columns ++ [.ofString fieldMemory]⟩)
  | .integer => some (heap, ⟨row.columns ++ [.ofInteger ((value.map atoi).getD 0)]⟩)
  | .float => some (heap, ⟨row.columns ++ [.ofFloat (cString (value.getD []))]⟩)
  | .unknown => some (heap, row)

def owned (row : RowCells) : List Nat := row.columns.flatMap FieldCell.owned

def Holds (heap : Heap Bytes) (row : RowCells) (info : RowInfo) : Prop :=
  List.Forall₂ (FieldCell.Holds heap) row.columns info.columns

end RowCells

/-- push_back of a full vector: the rows are moved to a larger storage and then
destroyed where they were. -/
def relocate (heap : Heap Bytes) (rows : List RowCells) : Option (Heap Bytes × List RowCells) :=
  let moved := rows.map RowCells.moveConstruct
  ((moved.map (·.2)).foldlM RowCells.destroy heap).map fun heap => (heap, moved.map (·.1))

/-- The other rows, and the one that the returned pointer refers to. Which sizes
make the vector grow is up to the library. -/
def createRow (grows : Nat → Bool) (heap : Heap Bytes) (rows : List RowCells) :
    Option (Heap Bytes × List RowCells × RowCells) :=
  let (back, temporary) := RowCells.new.moveConstruct
  (if grows rows.length then relocate heap rows else some (heap, rows)).bind fun (heap, rows) =>
    (temporary.destroy heap).map fun heap => (heap, rows, back)

def pushFields (heap : Heap Bytes) (row : RowCells) (fields : List Field) (fieldCount : Int32)
    (resultRow : List FieldData) : Option (Heap Bytes × RowCells) :=
  ((resultRow.zip fields).take fieldCount.toNatClampNeg).foldlM
    (fun m p => m.2.pushField m.1 p.1 (p.1.getD []).length (toColumnType p.2.type)) (heap, row)

def addRow (grows : Nat → Bool) (fields : List Field) (fieldCount : Int32)
    (m : Heap Bytes × List RowCells) (resultRow : List FieldData) :
    Option (Heap Bytes × List RowCells) :=
  (createRow grows m.1 m.2).bind fun (heap, rows, row) =>
    (pushFields heap row fields fieldCount resultRow).map fun (heap, row) => (heap, rows ++ [row])

def readResult (grows : Nat → Bool) (heap : Heap Bytes) (queryResult : StoredResult) :
    Option (Heap Bytes × List RowCells) :=
  let fieldCount := staticCastInt queryResult.fields.length
  let rowCount := staticCastInt queryResult.rows.length
  if 0 < rowCount then queryResult.rows.foldlM (addRow grows queryResult.fields fieldCount) (heap, [])
  else some (heap, [])

def destroyRows (heap : Heap Bytes) (rows : List RowCells) : Option (Heap Bytes) :=
  rows.foldlM RowCells.destroy heap

def owned (rows : List RowCells) : List Nat := rows.flatMap RowCells.owned

def Represents (heap : Heap Bytes) (rows : List RowCells) (infos : List RowInfo) : Prop :=
  List.Forall₂ (RowCells.Holds heap) rows infos

theorem owned_snoc (rows : List RowCells) (row : RowCells) :
    owned (rows ++ [row]) = owned rows ++ row.owned := by
  simp [owned]

theorem foldlM_flatMap {α β γ : Type} (f : γ → β → Option γ) (g : α → List β) (l : List α) (c : γ) :
    (l.flatMap g).foldlM f c = l.foldlM (fun c a => (g a).foldlM f c) c := by
  induction l generalizing c with
  | nil => rfl
  | cons a l ih =>
      rw [List.flatMap_cons, List.foldlM_append, List.foldlM_cons]
      exact congrArg _ (funext ih)

section

variable {heap heap' : Heap Bytes}

theorem FieldCell.Holds.congr {cell : FieldCell} {value : FieldValue} (h : cell.Holds heap value)
    (hr : ∀ a ∈ cell.owned, ∀ block, heap.read a = some block → heap'.read a = some block) :
    cell.Holds heap' value := by
  cases value with
  | string text =>
      obtain ⟨address, block, rfl, hread, hz, ht⟩ := h
      exact ⟨address, block, rfl, hr address (List.mem_singleton.mpr rfl) block hread, hz, ht⟩
  | integer | float => exact h

theorem Represents.congr {rows : List RowCells} {infos : List RowInfo}
    (h : Represents heap rows infos)
    (hr : ∀ a ∈ owned rows, ∀ block, heap.read a = some block → heap'.read a = some block) :
    Represents heap' rows infos := by
  have hrow : ∀ row ∈ rows, ∀ info, row.Holds heap info → row.Holds heap' info := by
    intro row hrow info hi
    have hcell : ∀ cell ∈ row.columns, ∀ value, cell.Holds heap value → cell.Holds heap' value :=
      fun cell hc value hv => hv.congr fun a ha =>
        hr a (List.mem_flatMap.mpr ⟨row, hrow, List.mem_flatMap.mpr ⟨cell, hc, ha⟩⟩)
    exact List.forall₂_iff_zip.mpr ⟨hi.length_eq, fun hz =>
      hcell _ (List.of_mem_zip hz).1 _ (List.forall₂_zip hi hz)⟩
  exact List.forall₂_iff_zip.mpr ⟨h.length_eq, fun hz =>
    hrow _ (List.of_mem_zip hz).1 _ (List.forall₂_zip h hz)⟩

theorem Represents.extends {rows : List RowCells} {infos : List RowInfo}
    (h : Represents heap rows infos) (he : heap.Extends heap') : Represents heap' rows infos :=
  h.congr fun a _ => he a

theorem FieldCell.Holds.destroy_eq {cell : FieldCell} {value : FieldValue}
    (h : cell.Holds heap value) (heap' : Heap Bytes) :
    cell.destroy heap' = cell.owned.foldlM Heap.free heap' := by
  cases value with
  | string text =>
      obtain ⟨address, block, rfl, -⟩ := h
      change heap'.free address = (heap'.free address).bind some
      rw [Option.bind_fun_some]
  | integer | float => cases h; rfl

theorem Represents.destroyRows_eq {rows : List RowCells} {infos : List RowInfo}
    (h : Represents heap rows infos) (heap' : Heap Bytes) :
    destroyRows heap' rows = (owned rows).foldlM Heap.free heap' := by
  rw [destroyRows, owned, foldlM_flatMap]
  induction h generalizing heap' with
  | nil => rfl
  | @cons row info rows infos hrow _ ih =>
      have hcells : row.destroy heap' = row.owned.foldlM Heap.free heap' := by
        obtain ⟨columns⟩ := row
        obtain ⟨values⟩ := info
        rw [RowCells.destroy, RowCells.owned, foldlM_flatMap]
        clear ih
        change List.Forall₂ _ columns values at hrow
        induction hrow generalizing heap' with
        | nil => rfl
        | cons hcell _ ih =>
            rw [List.foldlM_cons, List.foldlM_cons, hcell.destroy_eq heap']
            exact congrArg _ (funext ih)
      rw [List.foldlM_cons, List.foldlM_cons, hcells]
      exact congrArg _ (funext ih)

end

theorem cString_strncpy (source : Bytes) (n : Nat) :
    ∃ block, strncpy source n (calloc 1 (n + 1)) = some block ∧ 0 ∈ block ∧
      cString block = cString (source.take n) := by
  have hcopied : (cString source).take n = cString (source.take n) := List.take_takeWhile
  have hz : (List.replicate (n - (cString (source.take n)).length) (0 : UInt8) ++
      (calloc 1 (n + 1)).drop n) =
      0 :: List.replicate (n - (cString (source.take n)).length) (0 : UInt8) := by
    simp [calloc, ← List.replicate_succ']
    rfl
  refine ⟨cString (source.take n) ++ 0 ::
    List.replicate (n - (cString (source.take n)).length) 0, ?_, ?_, ?_⟩
  · simp only [strncpy, hcopied]
    rw [if_pos (by simp [calloc]), List.append_assoc, hz]
  · simp
  · exact cString_of_notMem (zero_notMem_cString _) _

/-- The rows of an entry stand for these, and their strings are all that one owner has. -/
structure Built {ι : Type} [DecidableEq ι] (heap : Heap Bytes) (owns : ι → List Nat) (i : ι)
    (rows : List RowCells) (infos : List RowInfo) : Prop where
  owned : heap.OwnedBy (Function.update owns i (owned rows))
  represents : Represents heap rows infos

section

variable {ι : Type} [DecidableEq ι] {heap : Heap Bytes} {owns : ι → List Nat} {i : ι}
  {rows : List RowCells} {infos : List RowInfo} {row : RowCells} {info : RowInfo}

theorem represents_snoc : Represents heap (rows ++ [row]) (infos ++ [info]) ↔
    Represents heap rows infos ∧ row.Holds heap info := by
  constructor
  · intro h
    have hl : rows.length = infos.length := by simpa using h.length_eq
    have hrows := List.forall₂_take rows.length h
    have hrow := List.forall₂_drop rows.length h
    rw [List.take_left, hl, List.take_left] at hrows
    rw [List.drop_left, hl, List.drop_left] at hrow
    exact ⟨hrows, (List.forall₂_cons.mp hrow).1⟩
  · rintro ⟨hrows, hrow⟩
    exact List.rel_append hrows (.cons hrow .nil)

theorem RowCells.Holds.push {cell : FieldCell} {value : FieldValue} (h : row.Holds heap info)
    (hc : cell.Holds heap value) :
    RowCells.Holds heap ⟨row.columns ++ [cell]⟩ ⟨info.columns ++ [value]⟩ :=
  List.rel_append h (.cons hc .nil)

theorem Built.pushValue (h : Built heap owns i (rows ++ [row]) (infos ++ [info])) {cell : FieldCell}
    {value : FieldValue} (hc : cell.Holds heap value) (ho : cell.owned = []) :
    Built heap owns i (rows ++ [⟨row.columns ++ [cell]⟩]) (infos ++ [⟨info.columns ++ [value]⟩]) := by
  obtain ⟨hrows, hrow⟩ := represents_snoc.mp h.represents
  refine ⟨?_, represents_snoc.mpr ⟨hrows, hrow.push hc⟩⟩
  have hsame : RowCells.owned ⟨row.columns ++ [cell]⟩ = row.owned := by
    simp [RowCells.owned, ho]
  rw [owned_snoc, hsame, ← owned_snoc]
  exact h.owned

theorem Built.pushString (h : Built heap owns i (rows ++ [row]) (infos ++ [info]))
    {heap' : Heap Bytes} {block block' : Bytes}
    (hr : ∀ a, heap'.read a = if a = (heap.alloc block).2 then some block' else heap.read a)
    (hz : 0 ∈ block') :
    heap.Extends heap' ∧
      Built heap' owns i (rows ++ [⟨row.columns ++ [.ofString (heap.alloc block).2]⟩])
        (infos ++ [⟨info.columns ++ [.string (cString block')]⟩]) := by
  have hextends : heap.Extends heap' := by
    intro a b ha
    rw [hr, if_neg, ha]
    rintro rfl
    rw [Heap.read_alloc_none] at ha
    cases ha
  obtain ⟨hrows, hrow⟩ := represents_snoc.mp (h.represents.extends hextends)
  have hcell : (FieldCell.ofString (heap.alloc block).2).Holds heap' (.string (cString block')) :=
    ⟨_, block', rfl, by rw [hr, if_pos rfl], hz, rfl⟩
  refine ⟨hextends, ?_, represents_snoc.mpr ⟨hrows, hrow.push hcell⟩⟩
  have halloc : heap'.OwnedBy _ := (h.owned.alloc i block).congr fun a => by
    rw [hr, Heap.read_alloc]
    split_ifs <;> simp
  rw [Function.update_self, Function.update_idem] at halloc
  have howned : RowCells.owned ⟨row.columns ++ [.ofString (heap.alloc block).2]⟩ =
      row.owned ++ [(heap.alloc block).2] := by
    simp [RowCells.owned, FieldCell.ofString, FieldCell.owned]
  rw [owned_snoc, howned, ← List.append_assoc, ← owned_snoc]
  exact halloc

theorem pushField_spec (h : Built heap owns i (rows ++ [row]) (infos ++ [info])) (value : FieldData)
    (length : Nat) (type : ColumnType) :
    ∃ heap' row', row.pushField heap value length type = some (heap', row') ∧
      heap.Extends heap' ∧
      Built heap' owns i (rows ++ [row']) (infos ++ [info.pushField value length type]) := by
  cases type with
  | string =>
      cases value with
      | none =>
          obtain ⟨hextends, hbuilt⟩ := h.pushString (Heap.read_alloc heap (calloc 1 (length + 1)))
            (by simp [calloc])
          refine ⟨_, _, rfl, hextends, ?_⟩
          have ht : cString (calloc 1 (length + 1)) = cString (([] : Bytes).take length) := by
            simp [calloc, cString, List.replicate_succ]
          rw [ht] at hbuilt
          exact hbuilt
      | some value =>
          obtain ⟨block, hcopy, hz, ht⟩ := cString_strncpy value length
          obtain ⟨heap', hwrite, hread⟩ := Heap.write_eq
            ((Heap.read_alloc heap (calloc 1 (length + 1)) _).trans (if_pos rfl)) hcopy
          have hread' : ∀ a, heap'.read a =
              if a = (heap.alloc (calloc 1 (length + 1))).2 then some block else heap.read a := by
            intro a
            rw [hread, Heap.read_alloc]
            split_ifs <;> rfl
          obtain ⟨hextends, hbuilt⟩ := h.pushString hread' hz
          rw [ht] at hbuilt
          exact ⟨heap', _, congrArg (Option.map _) hwrite, hextends, hbuilt⟩
  | integer => exact ⟨heap, _, rfl, .refl heap, h.pushValue rfl rfl⟩
  | float => exact ⟨heap, _, rfl, .refl heap, h.pushValue rfl rfl⟩
  | unknown => exact ⟨heap, row, rfl, .refl heap, h⟩

theorem pushFields_spec (h : Built heap owns i (rows ++ [row]) (infos ++ [info]))
    (fields : List Field) (fieldCount : Int32) (resultRow : List FieldData) :
    ∃ heap' row', pushFields heap row fields fieldCount resultRow = some (heap', row') ∧
      heap.Extends heap' ∧
      Built heap' owns i (rows ++ [row'])
        (infos ++ [MysqlPlugin.pushFields info fields fieldCount resultRow]) := by
  rw [pushFields, MysqlPlugin.pushFields]
  generalize (resultRow.zip fields).take fieldCount.toNatClampNeg = pairs
  induction pairs generalizing heap row info with
  | nil => exact ⟨heap, row, rfl, .refl heap, h⟩
  | cons p pairs ih =>
      obtain ⟨heap₁, row₁, hpush, hextends, hbuilt⟩ :=
        pushField_spec h p.1 (p.1.getD []).length (toColumnType p.2.type)
      obtain ⟨heap₂, row₂, hrest, hextends', hbuilt'⟩ := ih hbuilt
      refine ⟨heap₂, row₂, ?_, hextends.trans hextends', hbuilt'⟩
      rw [List.foldlM_cons, hpush]
      exact hrest

theorem relocate_eq (heap : Heap Bytes) (rows : List RowCells) :
    relocate heap rows = some (heap, rows) := by
  have hdestroy : ∀ moved : List RowCells, (∀ row ∈ moved, row = .new) →
      moved.foldlM RowCells.destroy heap = some heap := by
    intro moved hm
    induction moved with
    | nil => rfl
    | cons row moved ih =>
        rw [List.forall_mem_cons] at hm
        rw [List.foldlM_cons, hm.1]
        exact ih hm.2
  have hmoved : rows.map (fun row => row.moveConstruct.1) = rows := List.map_id rows
  rw [relocate, hdestroy]
  · rw [Option.map_some, List.map_map]
    exact congrArg (fun rows => some (heap, rows)) hmoved
  · simp [RowCells.moveConstruct]

theorem createRow_eq (grows : Nat → Bool) (heap : Heap Bytes) (rows : List RowCells) :
    createRow grows heap rows = some (heap, rows, .new) := by
  rw [createRow, relocate_eq, ite_self]
  rfl

theorem addRow_spec (h : Built heap owns i rows infos) (grows : Nat → Bool) (fields : List Field)
    (fieldCount : Int32) (resultRow : List FieldData) :
    ∃ heap' rows', addRow grows fields fieldCount (heap, rows) resultRow = some (heap', rows') ∧
      heap.Extends heap' ∧
      Built heap' owns i rows'
        (infos ++ [MysqlPlugin.pushFields .new fields fieldCount resultRow]) := by
  have hnew : Built heap owns i (rows ++ [.new]) (infos ++ [.new]) := by
    refine ⟨?_, represents_snoc.mpr ⟨h.represents, .nil⟩⟩
    rw [owned_snoc, show RowCells.new.owned = [] from rfl, List.append_nil]
    exact h.owned
  obtain ⟨heap', row, hpush, hextends, hbuilt⟩ := pushFields_spec hnew fields fieldCount resultRow
  refine ⟨heap', rows ++ [row], ?_, hextends, hbuilt⟩
  rw [addRow, createRow_eq, Option.bind_some]
  exact congrArg (Option.map _) hpush

/-- The loops of doQuery, whatever the vector does to grow: no fault, and an
owner that had nothing has the strings of the new entry. -/
theorem readResult_spec (h : heap.OwnedBy owns) (hi : owns i = []) (grows : Nat → Bool)
    (queryResult : StoredResult) :
    ∃ heap' rows, readResult grows heap queryResult = some (heap', rows) ∧ heap.Extends heap' ∧
      Built heap' owns i rows (MysqlPlugin.readResult queryResult).rows := by
  have hnil : Built heap owns i [] [] := by
    refine ⟨?_, .nil⟩
    rw [show owned [] = owns i from hi.symm, Function.update_eq_self]
    exact h
  by_cases hc : 0 < staticCastInt queryResult.rows.length
  · rw [readResult_eq queryResult hc]
    simp only [readResult, hc, if_true]
    suffices ∀ {heap rows infos}, Built heap owns i rows infos →
        ∃ heap' rows', queryResult.rows.foldlM
            (addRow grows queryResult.fields (staticCastInt queryResult.fields.length)) (heap, rows) =
          some (heap', rows') ∧ heap.Extends heap' ∧
          Built heap' owns i rows' (infos ++ queryResult.rows.map
            (MysqlPlugin.pushFields .new queryResult.fields
              (staticCastInt queryResult.fields.length))) by
      simpa using this hnil
    generalize queryResult.rows = resultRows
    intro heap rows infos hb
    induction resultRows generalizing heap rows infos with
    | nil => exact ⟨heap, rows, rfl, .refl heap, by simpa using hb⟩
    | cons resultRow resultRows ih =>
        obtain ⟨heap₁, rows₁, hadd, hextends, hbuilt⟩ := addRow_spec hb grows queryResult.fields
          (staticCastInt queryResult.fields.length) resultRow
        obtain ⟨heap₂, rows₂, hrest, hextends', hbuilt'⟩ := ih hbuilt
        refine ⟨heap₂, rows₂, ?_, hextends.trans hextends', by simpa using hbuilt'⟩
        rw [List.foldlM_cons, hadd]
        exact hrest
  · rw [readResult_rows_of_nonpos queryResult hc]
    exact ⟨heap, [], by simp only [readResult, hc, if_false], .refl heap, hnil⟩

end

example :
    let rows := [[some [97, 98]], [none]]
    let built := readResult (fun _ => true) .empty ⟨[⟨[49], .other 253⟩], rows, by decide, by decide⟩
    built.map (·.1.blocks) = some [some [97, 98, 0], some [0]] ∧
      (built.bind fun m => destroyRows m.1 m.2).map (·.blocks) = some [none, none] := by
  decide

end MysqlPlugin.RowMemory
