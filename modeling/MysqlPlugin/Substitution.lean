import MysqlPlugin.QueryBuilder
import MysqlPlugin.Template

namespace MysqlPlugin.Substitution

open QueryBuilder Template

theorem findFirstOf_eq_none {s : Bytes} {c : UInt8} {i : Nat} :
    findFirstOf s c i = none ↔ c ∉ s.drop i := by
  rw [findFirstOf, Option.map_eq_none_iff, List.idxOf?_eq_none_iff]

theorem findFirstOf_eq_some {s : Bytes} {c : UInt8} {i j : Nat} (h : findFirstOf s c i = some j) :
    s.drop i = (s.drop i).take (j - i) ++ c :: s.drop (j + 1) ∧ c ∉ (s.drop i).take (j - i) := by
  obtain ⟨k, hk, rfl⟩ := Option.map_eq_some_iff.mp h
  obtain ⟨hlt, hc, hfirst⟩ := List.findIdx?_eq_some_iff_getElem.mp hk
  rw [Nat.add_sub_cancel_left]
  constructor
  · have hd : s.drop (i + k + 1) = (s.drop i).drop (k + 1) := by
      rw [List.drop_drop, Nat.add_assoc]
    have hg : (s.drop i)[k] = c := by simpa using hc
    rw [hd, ← hg, ← List.drop_eq_getElem_cons hlt, List.take_append_drop]
  · intro hmem
    obtain ⟨m, hm, he⟩ := List.mem_take_iff_getElem.mp hmem
    have := hfirst m (by omega)
    simp [he] at this

theorem buildLoop_of_none {query : Bytes} {current : Nat} (h : findFirstOf query 63 current = none)
    (parameters : List Bytes) (index : Nat) (result : Bytes) :
    buildLoop query parameters current index result = (true, result ++ query.drop current) := by
  rw [buildLoop]
  split
  · rfl
  next h' => simp [h] at h'

theorem buildLoop_of_some {query : Bytes} {current position : Nat}
    (h : findFirstOf query 63 current = some position)
    (parameters : List Bytes) (index : Nat) (result : Bytes) :
    buildLoop query parameters current index result =
      match parameters[index]? with
      | none => (false, result ++ (query.drop current).take (position - current))
      | some parameter => buildLoop query parameters (position + 1) (index + 1)
          (result ++ (query.drop current).take (position - current) ++ parameter) := by
  rw [buildLoop]
  split
  next h' => simp [h] at h'
  next position' h' =>
    obtain rfl : position = position' := by simpa [h] using h'
    rfl

theorem buildLoop_eq (query : Bytes) (parameters : List Bytes) (current index : Nat) (result : Bytes) :
    (buildLoop query parameters current index result).1 =
        (substitute 63 (query.drop current) (parameters.drop index)).isSome ∧
      ∀ w, substitute 63 (query.drop current) (parameters.drop index) = some w →
        buildLoop query parameters current index result = (true, result ++ w) := by
  induction current, index, result using buildLoop.induct query parameters with
  | case1 current index result h =>
      rw [buildLoop_of_none h, substitute_of_notMem (findFirstOf_eq_none.mp h)]
      exact ⟨rfl, fun w hw => by rw [Option.some.inj hw]⟩
  | case2 current index result position h hp =>
      obtain ⟨hsplit, hfree⟩ := findFirstOf_eq_some h
      have hd : parameters.drop index = [] := List.drop_eq_nil_of_le (List.getElem?_eq_none_iff.mp hp)
      have hs : substitute 63 (query.drop current) (parameters.drop index) = none := by
        rw [hsplit, substitute_append, substitute_of_notMem hfree, hd]
        simp [substitute]
      rw [buildLoop_of_some h, hp, hs]
      exact ⟨rfl, fun w hw => by cases hw⟩
  | case3 current index result position h result' parameter hp ih =>
      obtain ⟨hsplit, hfree⟩ := findFirstOf_eq_some h
      have hd : parameters.drop index = parameter :: parameters.drop (index + 1) := by
        obtain ⟨hlt, hg⟩ := List.getElem?_eq_some_iff.mp hp
        rw [← hg, List.drop_eq_getElem_cons hlt]
      have hs : substitute 63 (query.drop current) (parameters.drop index) =
          (substitute 63 (query.drop (position + 1)) (parameters.drop (index + 1))).map
            (fun w => (query.drop current).take (position - current) ++ (parameter ++ w)) := by
        rw [hsplit, substitute_append, substitute_of_notMem hfree, hd,
          List.count_eq_zero_of_not_mem hfree, List.drop_zero, Option.bind_some, substitute_mark,
          Option.map_map]
        simp [Function.comp_def, ← hsplit]
      rw [buildLoop_of_some h, hp, hs]
      refine ⟨by simpa [result'] using ih.1, fun w hw => ?_⟩
      obtain ⟨x, hx, rfl⟩ := Option.map_eq_some_iff.mp hw
      simpa only [result', List.append_assoc] using ih.2 x hx

theorem build_eq_true {statement : Statement} {parameters : List Bytes} {before : Bytes} :
    (build statement parameters before).1 = true ↔
      ∃ w, substitute 63 statement.query parameters = some w ∧
        build statement parameters before = (true, w) := by
  have h := buildLoop_eq statement.query parameters 0 0 []
  simp only [List.drop_zero] at h
  constructor
  · intro hb
    obtain ⟨w, hw⟩ := Option.isSome_iff_exists.mp (h.1 ▸ hb)
    exact ⟨w, hw, h.2 w hw⟩
  · rintro ⟨w, _, hb⟩
    rw [hb]

theorem build_of_substitute {statement : Statement} {parameters : List Bytes} {w : Bytes}
    (h : substitute 63 statement.query parameters = some w) (before : Bytes) :
    build statement parameters before = (true, w) := by
  have hb := buildLoop_eq statement.query parameters 0 0 []
  simp only [List.drop_zero] at hb
  exact hb.2 w h

theorem build_isTrue_iff {statement : Statement} {parameters : List Bytes} {before : Bytes} :
    (build statement parameters before).1 = true ↔
      statement.query.count 63 ≤ parameters.length := by
  rw [build_eq_true, ← substitute_isSome_iff, Option.isSome_iff_exists]
  constructor
  · rintro ⟨w, hw, -⟩
    exact ⟨w, hw⟩
  · rintro ⟨w, hw⟩
    exact ⟨w, hw, build_of_substitute hw before⟩

/-- Build fails exactly when the template has more question marks than there are
parameters. Otherwise the result is the text around them, as it is in the
template, with one parameter in the place of each; the rest of the parameters and
what the result held before have no part in it. -/
theorem build_substitutes (statement : Statement) (parameters : List Bytes) (before : Bytes) :
    ((build statement parameters before).1 = false ↔
        parameters.length < statement.query.count 63) ∧
      ((build statement parameters before).1 = true →
        (build statement parameters before).2 =
          weave (statement.query.splitOn 63) (parameters.take (statement.query.count 63))) := by
  constructor
  · rw [← Bool.not_eq_true, build_isTrue_iff, Nat.not_le]
  · intro h
    have hw := substitute_eq_weave (build_isTrue_iff.mp h)
    rw [build_of_substitute hw before]

end MysqlPlugin.Substitution
