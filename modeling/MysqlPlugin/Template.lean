import Mathlib.Computability.DFA

namespace MysqlPlugin.Template

section Weaving

variable {α : Type}

def weave (pieces ps : List (List α)) : List α := (List.zipWith (· ++ ·) pieces (ps ++ [[]])).flatten

theorem weave_modifyHead (a : α) {pieces : List (List α)} (hn : pieces ≠ []) (ps : List (List α)) :
    weave (pieces.modifyHead (List.cons a)) ps = a :: weave pieces ps := by
  cases pieces with
  | nil => exact absurd rfl hn
  | cons piece pieces => cases ps <;> simp [weave]

end Weaving

section Substitution

variable {α : Type} [DecidableEq α]

/-- Replace the marks from left to right by the parameters in their order.
There is no result when the parameters run out before the marks do. -/
def substitute (mark : α) : List α → List (List α) → Option (List α)
  | [], _ => some []
  | a :: as, ps =>
      if a = mark then
        match ps with
        | [] => none
        | p :: ps => (substitute mark as ps).map (p ++ ·)
      else (substitute mark as ps).map (a :: ·)

variable {mark : α}

theorem substitute_mark (as : List α) (p : List α) (ps : List (List α)) :
    substitute mark (mark :: as) (p :: ps) = (substitute mark as ps).map (p ++ ·) := by
  simp [substitute]

theorem substitute_cons {a : α} {as : List α} {ps : List (List α)} {w : List α}
    (h : substitute mark (a :: as) ps = some w) :
    (a = mark ∧ ∃ p rest x, ps = p :: rest ∧ substitute mark as rest = some x ∧ w = p ++ x) ∨
      (a ≠ mark ∧ ∃ x, substitute mark as ps = some x ∧ w = a :: x) := by
  by_cases ha : a = mark
  · subst ha
    cases ps with
    | nil => simp [substitute] at h
    | cons p rest =>
        rw [substitute_mark] at h
        obtain ⟨x, hx, rfl⟩ := Option.map_eq_some_iff.mp h
        exact .inl ⟨rfl, p, rest, x, rfl, hx, rfl⟩
  · simp only [substitute, ha, if_false] at h
    obtain ⟨x, hx, rfl⟩ := Option.map_eq_some_iff.mp h
    exact .inr ⟨ha, x, hx, rfl⟩

theorem substitute_append (u v : List α) (ps : List (List α)) :
    substitute mark (u ++ v) ps =
      (substitute mark u ps).bind
        (fun x => (substitute mark v (ps.drop (u.count mark))).map (x ++ ·)) := by
  induction u generalizing ps with
  | nil => simp [substitute]
  | cons a u ih =>
      by_cases ha : a = mark
      · subst ha
        cases ps with
        | nil => simp [substitute]
        | cons p ps =>
            simp only [List.cons_append, substitute_mark, ih, List.count_cons_self, List.drop_succ_cons]
            cases substitute a u ps <;> simp [Function.comp_def]
      · simp only [List.cons_append, substitute, ha, if_false, ih, List.count_cons_of_ne ha]
        cases substitute mark u ps <;> simp [Function.comp_def]

theorem substitute_of_notMem {u : List α} (h : mark ∉ u) (ps : List (List α)) :
    substitute mark u ps = some u := by
  induction u with
  | nil => rfl
  | cons a u ih =>
      simp only [List.mem_cons, not_or] at h
      simp [substitute, Ne.symm h.1, ih h.2]

theorem substitute_isSome_iff (u : List α) (ps : List (List α)) :
    (substitute mark u ps).isSome ↔ u.count mark ≤ ps.length := by
  induction u generalizing ps with
  | nil => simp [substitute]
  | cons a u ih =>
      by_cases ha : a = mark
      · subst ha
        cases ps with
        | nil => simp [substitute]
        | cons p ps => simp [substitute_mark, ih]
      · simp [substitute, ha, ih, List.count_cons_of_ne ha]

/-- At a mark of a substituted template stands the parameter of that mark, and the
parameters after it are for the rest. -/
theorem substitute_at_mark {u v : List α} {ps : List (List α)} {w : List α}
    (h : substitute mark (u ++ mark :: v) ps = some w) :
    ∃ x p y, substitute mark u ps = some x ∧ ps[u.count mark]? = some p ∧
      substitute mark v (ps.drop (u.count mark + 1)) = some y ∧ w = x ++ p ++ y := by
  rw [substitute_append] at h
  obtain ⟨x, hx, h⟩ := Option.bind_eq_some_iff.mp h
  obtain ⟨z, hz, rfl⟩ := Option.map_eq_some_iff.mp h
  cases hd : ps.drop (u.count mark) with
  | nil => simp [hd, substitute] at hz
  | cons p rest =>
      rw [hd, substitute_mark] at hz
      obtain ⟨y, hy, rfl⟩ := Option.map_eq_some_iff.mp hz
      have hp : ps[u.count mark]? = some p := by
        rw [← Nat.add_zero (u.count mark), ← List.getElem?_drop, hd]
        rfl
      have hrest : ps.drop (u.count mark + 1) = rest := by
        rw [← List.drop_drop, hd, List.drop_one, List.tail_cons]
      exact ⟨x, p, y, hx, hp, hrest ▸ hy, (List.append_assoc x p y).symm⟩

theorem notMem_substitute {a : α} {template : List α} {ps : List (List α)} {w : List α}
    (ht : a ∉ template) (hps : ∀ p ∈ ps, a ∉ p) (h : substitute mark template ps = some w) :
    a ∉ w := by
  induction template generalizing ps w with
  | nil =>
      cases h
      exact ht
  | cons b template ih =>
      rw [List.mem_cons, not_or] at ht
      rcases substitute_cons h with ⟨-, p, rest, x, rfl, hx, rfl⟩ | ⟨-, x, hx, rfl⟩
      · rw [List.forall_mem_cons] at hps
        rw [List.mem_append, not_or]
        exact ⟨hps.1, ih ht.2 hps.2 hx⟩
      · rw [List.mem_cons, not_or]
        exact ⟨ht.1, ih ht.2 hps hx⟩

theorem substitute_at_letter {u v : List α} {a : α} (ha : a ≠ mark) {ps : List (List α)} {w : List α}
    (h : substitute mark (u ++ a :: v) ps = some w) :
    ∃ x y, substitute mark u ps = some x ∧ w = x ++ a :: y := by
  rw [substitute_append] at h
  obtain ⟨x, hx, h⟩ := Option.bind_eq_some_iff.mp h
  obtain ⟨z, hz, rfl⟩ := Option.map_eq_some_iff.mp h
  simp only [substitute, ha, if_false] at hz
  obtain ⟨y, _, rfl⟩ := Option.map_eq_some_iff.mp hz
  exact ⟨x, y, hx, rfl⟩

theorem splitOn_cons_mark (as : List α) : (mark :: as).splitOn mark = [] :: as.splitOn mark := by
  rw [List.splitOn, List.splitOnP_cons_eq_if_modifyHead]
  simp [List.splitOn]

theorem splitOn_cons_of_ne {a : α} (ha : a ≠ mark) (as : List α) :
    (a :: as).splitOn mark = (as.splitOn mark).modifyHead (List.cons a) := by
  rw [List.splitOn, List.splitOnP_cons_eq_if_modifyHead]
  simp [List.splitOn, ha]

theorem substitute_eq_weave {template : List α} {ps : List (List α)}
    (h : template.count mark ≤ ps.length) :
    substitute mark template ps =
      some (weave (template.splitOn mark) (ps.take (template.count mark))) := by
  induction template generalizing ps with
  | nil => simp [substitute, weave]
  | cons a as ih =>
      by_cases ha : a = mark
      · subst ha
        rw [List.count_cons_self] at h ⊢
        cases ps with
        | nil => simp at h
        | cons p ps =>
            rw [substitute_mark, ih (Nat.le_of_succ_le_succ h), splitOn_cons_mark]
            simp [weave]
      · have hn : as.splitOn mark ≠ [] := List.splitOnP_ne_nil _ _
        rw [List.count_cons_of_ne ha] at h ⊢
        rw [splitOn_cons_of_ne ha, weave_modifyHead a hn]
        simp [substitute, ha, ih h]

end Substitution

section Readings

variable {α σ : Type} (M : DFA α σ)

def StaysIn (P : σ → Prop) : σ → List α → Prop
  | s, [] => P s
  | s, a :: as => P s ∧ StaysIn P (M.step s a) as

variable {M}

theorem staysIn_append {P : σ → Prop} {s : σ} {u v : List α} :
    StaysIn M P s (u ++ v) ↔ StaysIn M P s u ∧ StaysIn M P (M.evalFrom s u) v := by
  induction u generalizing s with
  | nil =>
      simp only [List.nil_append, StaysIn, DFA.evalFrom_nil]
      exact ⟨fun h => ⟨by cases v <;> simp_all [StaysIn], h⟩, And.right⟩
  | cons a u ih => simp [StaysIn, ih, and_assoc]

theorem StaysIn.mono {P Q : σ → Prop} (hPQ : ∀ s, P s → Q s) {s : σ} {u : List α}
    (h : StaysIn M P s u) : StaysIn M Q s u := by
  induction u generalizing s with
  | nil => exact hPQ s h
  | cons a u ih => exact ⟨hPQ s h.1, ih h.2⟩

theorem StaysIn.left {P : σ → Prop} {s : σ} {u v : List α} (h : StaysIn M P s (u ++ v)) :
    P (M.evalFrom s u) := by
  have h' := (staysIn_append.mp h).2
  cases v with
  | nil => exact h'
  | cons a v => exact h'.1

variable {mark : α} {q : σ}

def MarksAt (M : DFA α σ) (mark : α) (q s : σ) (template : List α) : Prop :=
  ∀ u v, template = u ++ mark :: v → M.evalFrom s u = q

theorem MarksAt.head {s : σ} {as : List α} (h : MarksAt M mark q s (mark :: as)) : s = q :=
  h [] as rfl

theorem MarksAt.tail {s : σ} {a : α} {as : List α} (h : MarksAt M mark q s (a :: as)) :
    MarksAt M mark q (M.step s a) as :=
  fun u v he => h (a :: u) v (by simp [he])

theorem MarksAt.left {s : σ} {u v : List α} (h : MarksAt M mark q s (u ++ v)) :
    MarksAt M mark q s u :=
  fun x y he => h x (y ++ v) (by simp [he])

variable [DecidableEq α]

/-- Parameters that lead from q back to q leave every state of the template
as it is, provided the mark itself does not move the automaton either. -/
theorem evalFrom_substitute (hmark : M.step q mark = q) {s : σ} {template : List α}
    (hm : MarksAt M mark q s template) {ps : List (List α)}
    (hps : ∀ p ∈ ps, M.evalFrom q p = q) {w : List α}
    (h : substitute mark template ps = some w) : M.evalFrom s w = M.evalFrom s template := by
  induction template generalizing s ps w with
  | nil =>
      simp only [substitute, Option.some.injEq] at h
      rw [← h]
  | cons a as ih =>
      rcases substitute_cons h with ⟨rfl, p, rest, x, rfl, hx, rfl⟩ | ⟨-, x, hx, rfl⟩
      · obtain rfl := hm.head
        have ht := hm.tail
        rw [hmark] at ht
        rw [List.forall_mem_cons] at hps
        rw [DFA.evalFrom_of_append, hps.1, DFA.evalFrom_cons, hmark]
        exact ih ht hps.2 hx
      · rw [DFA.evalFrom_cons, DFA.evalFrom_cons]
        exact ih hm.tail hps hx

variable (M)

def readIn [DecidableEq σ] (q : σ) : σ → List α → List α
  | _, [] => []
  | s, a :: as => if s = q then a :: readIn q (M.step s a) as else readIn q (M.step s a) as

variable {M} [DecidableEq σ]

omit [DecidableEq α] in
theorem readIn_append (s : σ) (u v : List α) :
    readIn M q s (u ++ v) = readIn M q s u ++ readIn M q (M.evalFrom s u) v := by
  induction u generalizing s with
  | nil => rfl
  | cons a u ih =>
      simp only [List.cons_append, readIn, ih, DFA.evalFrom_cons]
      split <;> rfl

omit [DecidableEq α] in
theorem readIn_eq_nil {s : σ} {u : List α} (h : StaysIn M (· ≠ q) s u) : readIn M q s u = [] := by
  induction u generalizing s with
  | nil => rfl
  | cons a u ih => simp [readIn, h.1, ih h.2]

/-- Two lists of such parameters that agree on what is read in q produce
words that agree on it. -/
theorem readIn_substitute (hmark : M.step q mark = q) {s : σ} {template : List α}
    (hm : MarksAt M mark q s template) {ps ps' : List (List α)}
    (hps : ∀ p ∈ ps, M.evalFrom q p = q) (hps' : ∀ p ∈ ps', M.evalFrom q p = q)
    (he : ps.map (readIn M q q) = ps'.map (readIn M q q)) {w w' : List α}
    (h : substitute mark template ps = some w) (h' : substitute mark template ps' = some w') :
    readIn M q s w = readIn M q s w' := by
  induction template generalizing s ps ps' w w' with
  | nil =>
      simp only [substitute, Option.some.injEq] at h h'
      rw [← h, ← h']
  | cons a as ih =>
      rcases substitute_cons h with ⟨rfl, p, rest, x, rfl, hx, rfl⟩ | ⟨ha, x, hx, rfl⟩
      · rcases substitute_cons h' with ⟨-, p', rest', x', rfl, hx', rfl⟩ | ⟨ha', -⟩
        · obtain rfl := hm.head
          have ht := hm.tail
          rw [hmark] at ht
          rw [List.forall_mem_cons] at hps hps'
          rw [List.map_cons, List.map_cons, List.cons.injEq] at he
          rw [readIn_append, readIn_append, he.1, hps.1, hps'.1]
          congr 1
          exact ih ht hps.2 hps'.2 he.2 hx hx'
        · exact absurd rfl ha'
      · rcases substitute_cons h' with ⟨ha', -⟩ | ⟨-, x', hx', rfl⟩
        · exact absurd ha' ha
        · simp only [readIn]
          rw [ih hm.tail hps hps' he hx hx']

end Readings

end MysqlPlugin.Template
