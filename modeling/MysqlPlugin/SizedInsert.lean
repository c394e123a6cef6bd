import Std.Data.TreeMap
import Std.Data.TreeMap.Lemmas
import Mathlib.Data.Finset.Card

namespace MysqlPlugin.SizedInsert

section Distinct

variable {κ : Type} [DecidableEq κ]

def distinct (keys : List κ) : Nat := keys.toFinset.card

theorem distinct_snoc (keys : List κ) (k : κ) :
    distinct (keys ++ [k]) = if k ∈ keys then distinct keys else distinct keys + 1 := by
  have h : (keys ++ [k]).toFinset = insert k keys.toFinset := by
    ext a; simp
  rw [distinct, h, distinct]
  split
  next hk => rw [Finset.insert_eq_self.mpr (List.mem_toFinset.mpr hk)]
  next hk => rw [Finset.card_insert_of_notMem (by simpa using hk)]

theorem distinct_le_length (keys : List κ) : distinct keys ≤ keys.length := List.toFinset_card_le keys

theorem distinct_eq_length {keys : List κ} : distinct keys = keys.length ↔ keys.Nodup :=
  Multiset.toFinset_card_eq_card_iff_nodup (m := (keys : Multiset κ))

end Distinct

section Fill

variable {κ β : Type} [Ord κ]

def insertSized (m : Std.TreeMap κ β) (p : κ × (Nat → β)) : Std.TreeMap κ β :=
  m.insert p.1 (p.2 m.size)

def fill (l : List (κ × (Nat → β))) : Std.TreeMap κ β := l.foldl insertSized ∅

theorem fill_snoc (l : List (κ × (Nat → β))) (p : κ × (Nat → β)) :
    fill (l ++ [p]) = insertSized (fill l) p := by
  simp [fill]

variable [Std.TransOrd κ] [Std.LawfulEqOrd κ]

theorem contains_fill (l : List (κ × (Nat → β))) (k : κ) :
    (fill l).contains k = true ↔ k ∈ l.map Prod.fst := by
  induction l using List.reverseRecOn with
  | nil => simp [fill]
  | append_singleton l p ih =>
      rw [fill_snoc, insertSized, Std.TreeMap.contains_insert, Bool.or_eq_true, ih, beq_iff_eq,
        Std.LawfulEqOrd.compare_eq_iff_eq, List.map_append, List.mem_append, List.map_singleton,
        List.mem_singleton, eq_comm, or_comm]

theorem size_fill [DecidableEq κ] (l : List (κ × (Nat → β))) :
    (fill l).size = distinct (l.map Prod.fst) := by
  induction l using List.reverseRecOn with
  | nil => simp [fill, distinct]
  | append_singleton l p ih =>
      rw [fill_snoc, insertSized, Std.TreeMap.size_insert, ih, List.map_append, List.map_singleton,
        distinct_snoc]
      simp only [contains_fill]

theorem getElem?_foldl_of_notMem (v : List (κ × (Nat → β))) (m : Std.TreeMap κ β) (k : κ)
    (hk : k ∉ v.map Prod.fst) : (v.foldl insertSized m)[k]? = m[k]? := by
  induction v generalizing m with
  | nil => rfl
  | cons p v ih =>
      simp only [List.map_cons, List.mem_cons, not_or] at hk
      rw [List.foldl_cons, ih _ hk.2, insertSized, Std.TreeMap.getElem?_insert]
      simp [Ne.symm hk.1]

/-- The last insertion of a key decides its value; the size it saw is the
number of distinct keys inserted before it. -/
theorem getElem?_fill [DecidableEq κ] (u : List (κ × (Nat → β))) (p : κ × (Nat → β))
    (v : List (κ × (Nat → β))) (hp : p.1 ∉ v.map Prod.fst) :
    (fill (u ++ p :: v))[p.1]? = some (p.2 (distinct (u.map Prod.fst))) := by
  have h : fill (u ++ p :: v) = v.foldl insertSized (insertSized (fill u) p) := by
    simp [fill]
  rw [h, getElem?_foldl_of_notMem v _ _ hp, insertSized, Std.TreeMap.getElem?_insert_self, size_fill]

theorem exists_of_getElem?_fill [DecidableEq κ] {l : List (κ × (Nat → β))} {k : κ} {b : β}
    (h : (fill l)[k]? = some b) :
    ∃ u p v, l = u ++ p :: v ∧ b = p.2 (distinct (u.map Prod.fst)) := by
  induction l using List.reverseRecOn with
  | nil => simp [fill] at h
  | append_singleton l p ih =>
      by_cases hk : p.1 = k
      · subst hk
        rw [getElem?_fill l p [] (by simp), Option.some.injEq] at h
        exact ⟨l, p, [], rfl, h.symm⟩
      · rw [fill_snoc, insertSized, Std.TreeMap.getElem?_insert] at h
        obtain ⟨u, q, v, hl, hb⟩ := ih (by simpa [hk] using h)
        exact ⟨u, q, v ++ [p], by simp [hl], hb⟩

end Fill

end MysqlPlugin.SizedInsert
