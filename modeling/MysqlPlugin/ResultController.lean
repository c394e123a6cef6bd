import Std.Data.TreeMap
import Std.Data.TreeMap.Lemmas
import MysqlPlugin.Values

namespace MysqlPlugin

/-- The registry of results that scripts can ask for. push and free hold the
mutex throughout, so each is one step of the thread that calls it. -/
structure ResultController (Entry : Type) where
  resultMap : Std.TreeMap UInt32 Entry
  latestResultId : UInt32

namespace ResultController

variable {Entry : Type}

def new : ResultController Entry := ⟨∅, 0⟩

def push (controller : ResultController Entry) (entry : Entry) : ResultController Entry × UInt32 :=
  let latestResultId := controller.latestResultId + 1
  (⟨controller.resultMap.insert latestResultId entry, latestResultId⟩, latestResultId)

def free (controller : ResultController Entry) (resultId : UInt32) : ResultController Entry × Cell :=
  match controller.resultMap[resultId]? with
  | none => (controller, 0)
  | some _ => ({ controller with resultMap := controller.resultMap.erase resultId }, 1)

def atId (controller : ResultController Entry) (resultId : UInt32) : Option Entry :=
  controller.resultMap[resultId]?

/-- A write through the pointer that at returned. -/
def update (controller : ResultController Entry) (resultId : UInt32) (f : Entry → Entry) :
    ResultController Entry :=
  match controller.resultMap[resultId]? with
  | none => controller
  | some entry => { controller with resultMap := controller.resultMap.insert resultId (f entry) }

theorem atId_push (controller : ResultController Entry) (entry : Entry) (id : UInt32) :
    (controller.push entry).1.atId id =
      if controller.latestResultId + 1 = id then some entry else controller.atId id := by
  simp [push, atId, Std.TreeMap.getElem?_insert]

theorem atId_free (controller : ResultController Entry) (resultId id : UInt32) :
    (controller.free resultId).1.atId id =
      if resultId = id then none else controller.atId id := by
  rw [free, atId, atId]
  split
  next h =>
    split
    next he => rw [← he, h]
    next => rfl
  next => simp [Std.TreeMap.getElem?_erase]

theorem atId_update (controller : ResultController Entry) (resultId id : UInt32) (f : Entry → Entry) :
    (controller.update resultId f).atId id =
      if resultId = id then (controller.atId id).map f else controller.atId id := by
  rw [update, atId, atId]
  split
  next h =>
    split
    next he => simp [← he, h]
    next => rfl
  next entry h =>
    rw [Std.TreeMap.getElem?_insert]
    simp only [Std.LawfulEqOrd.compare_eq_iff_eq]
    split
    next he => simp [← he, h]
    next => rfl

@[simp] theorem latestResultId_push (controller : ResultController Entry) (entry : Entry) :
    (controller.push entry).1.latestResultId = controller.latestResultId + 1 :=
  rfl

@[simp] theorem latestResultId_free (controller : ResultController Entry) (resultId : UInt32) :
    (controller.free resultId).1.latestResultId = controller.latestResultId := by
  rw [free]; split <;> rfl

@[simp] theorem latestResultId_update (controller : ResultController Entry) (resultId : UInt32)
    (f : Entry → Entry) : (controller.update resultId f).latestResultId = controller.latestResultId := by
  rw [update]; split <;> rfl

end ResultController

end MysqlPlugin
