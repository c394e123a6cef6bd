import Mathlib.Data.List.Basic
import Mathlib.Data.List.Induction

namespace MysqlPlugin.Transition

variable {σ α ε : Type}

/-- A machine driven from outside: an action names the party that moves and
what its environment answers. The machine refuses the action with none when
that party cannot move. -/
abbrev Machine (σ α ε : Type) := σ → α → Option (σ × ε)

/-- The events of a schedule and the state it ends in. A refused action is
passed over, so every list of actions is a schedule. -/
def run (M : Machine σ α ε) : σ → List α → List ε × σ
  | s, [] => ([], s)
  | s, a :: as =>
      match M s a with
      | none => run M s as
      | some (t, e) =>
          match run M t as with
          | (es, u) => (e :: es, u)

inductive Reach (M : Machine σ α ε) (s₀ : σ) : List ε → σ → Prop
  | start : Reach M s₀ [] s₀
  | step {tr : List ε} {s : σ} {a : α} {t : σ} {e : ε} (h : Reach M s₀ tr s)
      (hs : M s a = some (t, e)) : Reach M s₀ (tr ++ [e]) t

def after (M : Machine σ α ε) (s : σ) (a : α) : σ := ((M s a).map Prod.fst).getD s

theorem run_cons_snd (M : Machine σ α ε) (s : σ) (a : α) (as : List α) :
    (run M s (a :: as)).2 = (run M (after M s a) as).2 := by
  rw [run, after]
  cases M s a <;> rfl

theorem run_append (M : Machine σ α ε) (s : σ) (as bs : List α) :
    run M s (as ++ bs) =
      ((run M s as).1 ++ (run M (run M s as).2 bs).1, (run M (run M s as).2 bs).2) := by
  induction as generalizing s with
  | nil => rfl
  | cons a as ih =>
      rw [List.cons_append, run, run]
      cases M s a with
      | none => exact ih s
      | some p => simp only [ih, List.cons_append]

/-- What f sees of the steps that a schedule takes, each in the state before it. -/
def observed {β : Type} (M : Machine σ α ε) (f : σ → α → Option β) : σ → List α → List β
  | _, [] => []
  | s, a :: as =>
      match M s a with
      | none => observed M f s as
      | some (t, _) => (f s a).toList ++ observed M f t as

theorem run_left {M : Machine σ α ε} {ok : α → Prop} {Left : Nat → σ → Prop}
    (hstep : ∀ n s a, ok a → Left n s → Left (n - 1) (after M s a)) {n : Nat} {s : σ}
    (h : Left n s) {as : List α} (ha : ∀ a ∈ as, ok a) : Left (n - as.length) (run M s as).2 := by
  induction as generalizing n s with
  | nil => exact h
  | cons a as ih =>
      rw [List.forall_mem_cons] at ha
      rw [run_cons_snd, List.length_cons, Nat.add_comm, ← Nat.sub_sub]
      exact ih (hstep n s a ha.1 h) ha.2

/-- Every step a schedule takes meets the condition, which may look at the
events so far, the state before the step and the action. -/
def Along (M : Machine σ α ε) (ok : List ε → σ → α → Prop) : List ε → σ → List α → Prop
  | _, _, [] => True
  | tr, s, a :: as =>
      match M s a with
      | none => Along M ok tr s as
      | some (t, e) => ok tr s a ∧ Along M ok (tr ++ [e]) t as

theorem along_of_forall (M : Machine σ α ε) {ok : List ε → σ → α → Prop} {as : List α}
    (h : ∀ a ∈ as, ∀ tr s, ok tr s a) (tr : List ε) (s : σ) : Along M ok tr s as := by
  induction as generalizing tr s with
  | nil => trivial
  | cons a as ih =>
      rw [List.forall_mem_cons] at h
      rw [Along]
      split
      next => exact ih h.2 tr s
      next t e _ => exact ⟨h.1 tr s, ih h.2 (tr ++ [e]) t⟩

instance decidableAlong (M : Machine σ α ε) (ok : List ε → σ → α → Prop)
    [∀ tr s a, Decidable (ok tr s a)] :
    (tr : List ε) → (s : σ) → (as : List α) → Decidable (Along M ok tr s as)
  | _, _, [] => inferInstanceAs (Decidable True)
  | tr, s, a :: as =>
      match h : M s a with
      | none =>
          letI := decidableAlong M ok tr s as
          decidable_of_iff (Along M ok tr s as) (by rw [Along, h])
      | some (t, e) =>
          letI := decidableAlong M ok (tr ++ [e]) t as
          decidable_of_iff (ok tr s a ∧ Along M ok (tr ++ [e]) t as) (by rw [Along, h])

theorem observed_invariant {β : Type} {M : Machine σ α ε} {f : σ → α → Option β}
    {ok : List ε → σ → α → Prop} {P : List ε → List β → σ → Prop} {tr : List ε} {obs : List β}
    {s : σ} {as : List α} (ha : Along M ok tr s as) (h : P tr obs s)
    (hstep : ∀ {tr obs s a t e}, P tr obs s → ok tr s a → M s a = some (t, e) →
      P (tr ++ [e]) (obs ++ (f s a).toList) t) :
    P (tr ++ (run M s as).1) (obs ++ observed M f s as) (run M s as).2 := by
  induction as generalizing tr obs s with
  | nil => simpa [run, observed] using h
  | cons a as ih =>
      rw [Along] at ha
      cases hs : M s a with
      | none =>
          rw [hs] at ha
          simpa only [run, observed, hs] using ih ha h
      | some p =>
          obtain ⟨t, e⟩ := p
          rw [hs] at ha
          simpa only [run, observed, hs, List.append_assoc, List.singleton_append] using
            ih ha.2 (hstep h ha.1 hs)

theorem run_invariant {M : Machine σ α ε} {ok : List ε → σ → α → Prop} {P : List ε → σ → Prop}
    {tr : List ε} {s : σ} {as : List α} (ha : Along M ok tr s as) (h : P tr s)
    (hstep : ∀ {tr s a t e}, P tr s → ok tr s a → M s a = some (t, e) → P (tr ++ [e]) t) :
    P (tr ++ (run M s as).1) (run M s as).2 :=
  @observed_invariant σ α ε Empty M (fun _ _ => none) ok (fun tr _ => P tr) tr [] s as ha h hstep

theorem reach_run_append {M : Machine σ α ε} {s₀ s : σ} {tr : List ε} (h : Reach M s₀ tr s)
    (as : List α) : Reach M s₀ (tr ++ (run M s as).1) (run M s as).2 := by
  have hall : Along M (fun _ _ _ => True) tr s as := along_of_forall M (fun _ _ _ _ => trivial) tr s
  exact run_invariant hall h fun hr _ hs => hr.step hs

theorem reach_run (M : Machine σ α ε) (s₀ : σ) (as : List α) :
    Reach M s₀ (run M s₀ as).1 (run M s₀ as).2 := by
  have h : Reach M s₀ [] s₀ := .start
  simpa only [List.nil_append] using reach_run_append h as

theorem Reach.after {M : Machine σ α ε} {s₀ s : σ} {tr : List ε} (h : Reach M s₀ tr s) (a : α) :
    ∃ tr', Reach M s₀ tr' (after M s a) := by
  rw [Transition.after]
  cases hs : M s a with
  | none => exact ⟨tr, h⟩
  | some p => exact ⟨_, h.step hs⟩

theorem Reach.trans {M : Machine σ α ε} {s₀ t s : σ} {before after : List ε}
    (h : Reach M s₀ before t) (h' : Reach M t after s) : Reach M s₀ (before ++ after) s := by
  induction h' with
  | start => rwa [List.append_nil]
  | step _ hs ih => rw [← List.append_assoc]; exact ih.step hs

theorem Reach.of_append {M : Machine σ α ε} {s₀ s : σ} {before after : List ε}
    (h : Reach M s₀ (before ++ after) s) : ∃ t, Reach M s₀ before t ∧ Reach M t after s := by
  induction after using List.reverseRecOn generalizing s with
  | nil => exact ⟨s, by simpa using h, .start⟩
  | append_singleton after e ih =>
      generalize htr : before ++ (after ++ [e]) = tr at h
      cases h with
      | start => simp at htr
      | step h hs =>
          rw [← List.append_assoc] at htr
          obtain ⟨rfl, he⟩ := List.append_inj' htr rfl
          cases he
          obtain ⟨t, hbefore, hafter⟩ := ih h
          exact ⟨t, hbefore, hafter.step hs⟩

theorem Reach.split {M : Machine σ α ε} {s₀ s : σ} {before after : List ε} {e : ε}
    (h : Reach M s₀ (before ++ e :: after) s) :
    ∃ t a t', Reach M s₀ before t ∧ M t a = some (t', e) := by
  rw [← List.singleton_append, ← List.append_assoc] at h
  obtain ⟨t', ht', -⟩ := h.of_append
  generalize htr : before ++ [e] = tr at ht'
  cases ht' with
  | start => simp at htr
  | step h hs =>
      obtain ⟨rfl, he⟩ := List.append_inj' htr rfl
      cases he
      exact ⟨_, _, t', h, hs⟩

inductive Guarded (M : Machine σ α ε) (ok : List ε → σ → α → Prop) (s₀ : σ) : List ε → σ → Prop
  | start : Guarded M ok s₀ [] s₀
  | step {tr : List ε} {s : σ} {a : α} {t : σ} {e : ε} (h : Guarded M ok s₀ tr s)
      (ha : ok tr s a) (hs : M s a = some (t, e)) : Guarded M ok s₀ (tr ++ [e]) t

theorem Guarded.reach {M : Machine σ α ε} {ok : List ε → σ → α → Prop} {s₀ s : σ} {tr : List ε}
    (h : Guarded M ok s₀ tr s) : Reach M s₀ tr s := by
  induction h with
  | start => exact .start
  | step _ _ hs ih => exact ih.step hs

theorem guarded_run_append {M : Machine σ α ε} {ok : List ε → σ → α → Prop} {s₀ s : σ}
    {tr : List ε} (h : Guarded M ok s₀ tr s) {as : List α} (ha : Along M ok tr s as) :
    Guarded M ok s₀ (tr ++ (run M s as).1) (run M s as).2 :=
  run_invariant ha h fun hg hok hs => hg.step hok hs

theorem guarded_run {M : Machine σ α ε} {ok : List ε → σ → α → Prop} {s₀ : σ} {as : List α}
    (ha : Along M ok [] s₀ as) : Guarded M ok s₀ (run M s₀ as).1 (run M s₀ as).2 := by
  simpa only [List.nil_append] using guarded_run_append .start ha

def occurred (p : ε → Bool) (tr : List ε) : Bool := tr.any p

@[simp] theorem occurred_nil (p : ε → Bool) : occurred p [] = false := rfl

@[simp] theorem occurred_snoc (p : ε → Bool) (tr : List ε) (e : ε) :
    occurred p (tr ++ [e]) = (occurred p tr || p e) := by
  simp [occurred]

theorem occurred_append_left {p : ε → Bool} {tr : List ε} (h : occurred p tr = true) (es : List ε) :
    occurred p (tr ++ es) = true := by
  rw [occurred, List.any_append, Bool.or_eq_true]
  exact .inl h

/-- Every event of the second list stands in the relation to the events
before it, where the first list has already happened. -/
def AlwaysFrom (R : List ε → ε → Prop) : List ε → List ε → Prop
  | _, [] => True
  | past, e :: es => R past e ∧ AlwaysFrom R (past ++ [e]) es

def Always (R : List ε → ε → Prop) (tr : List ε) : Prop := AlwaysFrom R [] tr

instance decidableAlwaysFrom (R : List ε → ε → Prop) [∀ past e, Decidable (R past e)] :
    (past es : List ε) → Decidable (AlwaysFrom R past es)
  | _, [] => inferInstanceAs (Decidable True)
  | past, e :: es =>
      letI := decidableAlwaysFrom R (past ++ [e]) es
      inferInstanceAs (Decidable (R past e ∧ AlwaysFrom R (past ++ [e]) es))

instance (R : List ε → ε → Prop) [∀ past e, Decidable (R past e)] (tr : List ε) :
    Decidable (Always R tr) :=
  inferInstanceAs (Decidable (AlwaysFrom R [] tr))

theorem alwaysFrom_append (R : List ε → ε → Prop) (past es fs : List ε) :
    AlwaysFrom R past (es ++ fs) ↔ AlwaysFrom R past es ∧ AlwaysFrom R (past ++ es) fs := by
  induction es generalizing past with
  | nil => simp [AlwaysFrom]
  | cons e es ih => simp [AlwaysFrom, ih, and_assoc]

@[simp] theorem always_nil (R : List ε → ε → Prop) : Always R [] := trivial

@[simp] theorem always_snoc (R : List ε → ε → Prop) (tr : List ε) (e : ε) :
    Always R (tr ++ [e]) ↔ Always R tr ∧ R tr e := by
  simp [Always, alwaysFrom_append, AlwaysFrom]

theorem always_mem {R : List ε → ε → Prop} {tr : List ε} (h : Always R tr) {e : ε} (he : e ∈ tr) :
    ∃ before rest, tr = before ++ e :: rest ∧ R before e := by
  obtain ⟨before, rest, rfl⟩ := List.append_of_mem he
  rw [Always, alwaysFrom_append] at h
  exact ⟨before, rest, rfl, h.2.1⟩

/-- A condition on the steps that decides the relation of each event to its past
decides it for the whole run. -/
theorem along_iff_alwaysFrom {M : Machine σ α ε} {ok : List ε → σ → α → Prop}
    {R : List ε → ε → Prop} {s₀ : σ}
    (h : ∀ {tr s a t e}, Reach M s₀ tr s → M s a = some (t, e) → (ok tr s a ↔ R tr e))
    {tr : List ε} {s : σ} (hr : Reach M s₀ tr s) (as : List α) :
    Along M ok tr s as ↔ AlwaysFrom R tr (run M s as).1 := by
  induction as generalizing tr s with
  | nil => simp [Along, run, AlwaysFrom]
  | cons a as ih =>
      rw [Along, run]
      cases hs : M s a with
      | none => exact ih hr
      | some p =>
          obtain ⟨t, e⟩ := p
          exact and_congr (h hr hs) (ih (hr.step hs))

theorem along_iff_always {M : Machine σ α ε} {ok : List ε → σ → α → Prop}
    {R : List ε → ε → Prop} {s₀ : σ}
    (h : ∀ {tr s a t e}, Reach M s₀ tr s → M s a = some (t, e) → (ok tr s a ↔ R tr e))
    (as : List α) : Along M ok [] s₀ as ↔ Always R (run M s₀ as).1 :=
  along_iff_alwaysFrom h .start as

theorem reach_always_iff {M : Machine σ α ε} {R R' : List ε → ε → Prop} {s₀ : σ}
    (h : ∀ {tr s a t e}, Reach M s₀ tr s → M s a = some (t, e) → (R tr e ↔ R' tr e))
    {tr : List ε} {s : σ} (hr : Reach M s₀ tr s) : Always R tr ↔ Always R' tr := by
  induction hr with
  | start => simp
  | step hr hs ih => rw [always_snoc, always_snoc, ih, h hr hs]

theorem reach_always {M : Machine σ α ε} {R : List ε → ε → Prop} {s₀ : σ}
    (h : ∀ {tr s a t e}, Reach M s₀ tr s → M s a = some (t, e) → R tr e)
    {tr : List ε} {s : σ} (hr : Reach M s₀ tr s) : Always R tr := by
  induction hr with
  | start => exact always_nil R
  | step hr hs ih => exact (always_snoc ..).mpr ⟨ih, h hr hs⟩

theorem guarded_always {M : Machine σ α ε} {R : List ε → ε → Prop} {s₀ : σ}
    {ok : List ε → σ → α → Prop}
    (h : ∀ {tr s a t e}, Guarded M ok s₀ tr s → ok tr s a → M s a = some (t, e) → R tr e)
    {tr : List ε} {s : σ} (hg : Guarded M ok s₀ tr s) : Always R tr := by
  induction hg with
  | start => exact always_nil R
  | step hg ha hs ih => exact (always_snoc ..).mpr ⟨ih, h hg ha hs⟩

theorem filterMap_snoc {β : Type} (f : ε → Option β) (tr : List ε) (e : ε) :
    (tr ++ [e]).filterMap f = tr.filterMap f ++ (f e).toList := by
  rw [List.filterMap_append]
  cases h : f e <;> simp [h]

/-- Forward simulation: where each step of M is no step of N or one of its steps,
and shows of itself what that step shows, so does a run of M of a run of N. -/
theorem reach_simulated {τ β δ : Type} {M : Machine σ α ε} {N : Machine τ β (Option δ)}
    {label : ε → Option δ} {R : σ → τ → Prop} {s₀ : σ} {t₀ : τ}
    (hstep : ∀ {tr s a s' e t}, Reach M s₀ tr s → M s a = some (s', e) → R s t →
      R s' t ∧ label e = none ∨ ∃ b t', N t b = some (t', label e) ∧ R s' t')
    (h₀ : R s₀ t₀) {tr : List ε} {s : σ} (hr : Reach M s₀ tr s) :
    ∃ es t, Reach N t₀ es t ∧ es.filterMap id = tr.filterMap label ∧ R s t := by
  induction hr with
  | start => exact ⟨[], t₀, .start, rfl, h₀⟩
  | step hr hs ih =>
      obtain ⟨es, t, hN, hes, hR⟩ := ih
      rcases hstep hr hs hR with ⟨hR', hl⟩ | ⟨b, t', hb, hR'⟩
      · exact ⟨es, t, hN, by rw [filterMap_snoc, hl, hes, Option.toList_none, List.append_nil], hR'⟩
      · exact ⟨es ++ [label _], t', hN.step hb, by rw [filterMap_snoc, filterMap_snoc, hes, id], hR'⟩

theorem always_filterMap {β : Type} (f : ε → Option β) (R : List β → β → Prop) (tr : List ε) :
    Always R (tr.filterMap f) ↔
      Always (fun past e => ∀ b, f e = some b → R (past.filterMap f) b) tr := by
  induction tr using List.reverseRecOn with
  | nil => simp
  | append_singleton tr e ih =>
      rw [filterMap_snoc, always_snoc, ← ih]
      cases h : f e with
      | none => simp
      | some b => simp [always_snoc]

end MysqlPlugin.Transition
