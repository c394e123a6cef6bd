import Mathlib.Logic.Function.Basic
import MysqlPlugin.Transition

namespace MysqlPlugin.Monitor

open Transition

variable {ι κ ν : Type} {σ μ ρ α : κ → Type}

/-- The methods of a family of objects, each with the small steps that it takes
on its object and on the registers of the call. A small step without a result
is one that no caller may provoke. -/
structure Code (σ μ ρ : κ → Type) where
  start : (k : κ) → μ k → ρ k
  body : (k : κ) → μ k → List (σ k → ρ k → Option (σ k × ρ k))

def Code.after (code : Code σ μ ρ) {k : κ} (m : μ k) (x : σ k) : Nat → Option (σ k × ρ k)
  | 0 => some (x, code.start k m)
  | n + 1 => (code.after m x n).bind fun p => (code.body k m)[n]?.bind fun work => work p.1 p.2

theorem Code.after_succ {code : Code σ μ ρ} {k : κ} {m : μ k} {x : σ k} {n : Nat} {p : σ k × ρ k}
    {work : σ k → ρ k → Option (σ k × ρ k)} (hp : code.after m x n = some p)
    (hw : (code.body k m)[n]? = some work) : code.after m x (n + 1) = work p.1 p.2 := by
  rw [Code.after, hp, hw]
  rfl

inductive Phase (μ ρ : κ → Type)
  | outside
  | waiting (k : κ) (m : μ k)
  | inside (k : κ) (m : μ k) (taken : Nat) (registers : ρ k)

structure State (ι ν : Type) (σ μ ρ : κ → Type) where
  store : (k : κ) → σ k
  holder : ν → Option ι
  phase : ι → Phase μ ρ

def State.new (store : (k : κ) → σ k) : State ι ν σ μ ρ := ⟨store, fun _ => none, fun _ => .outside⟩

inductive Action (ι : Type) (μ : κ → Type)
  | call (t : ι) (k : κ) (m : μ k)
  | advance (t : ι)

inductive Event (ι : Type) (μ ρ : κ → Type)
  | called (t : ι) (k : κ) (m : μ k)
  | locked (t : ι)
  | worked (t : ι)
  | committed (t : ι) (k : κ) (m : μ k) (result : ρ k)
  | returned (t : ι) (k : κ) (m : μ k) (result : ρ k)

/-- Which thread may call a method, and what it has made sure of before. -/
structure Roles (ι : Type) (σ μ : κ → Type) where
  mayCall : ι → (k : κ) → μ k → Prop
  ready : (k : κ) → μ k → σ k → Prop

def Keeps (roles : Roles ι σ μ) (_ : List (Event ι μ ρ)) (s : State ι ν σ μ ρ) :
    Action ι μ → Prop
  | .call t k m => roles.mayCall t k m ∧ roles.ready k m (s.store k)
  | .advance _ => True

/-- What has to hold of the code of the methods one by one, so that they can be
taken for single operations on the contents α of the objects. -/
structure Implements (code : Code σ μ ρ) (roles : Roles ι σ μ)
    (perform : (k : κ) → μ k → α k → Option (α k × ρ k)) where
  Stores : (k : κ) → σ k → α k → Prop
  Pre : (k : κ) → μ k → α k → Prop
  nonempty : ∀ k m, 0 < (code.body k m).length
  total : ∀ {k m x a n}, Pre k m a → Stores k x a → n ≤ (code.body k m).length →
    (code.after m x n).isSome
  commits : ∀ {k x a} {m : μ k} {x' r}, Stores k x a →
    code.after m x (code.body k m).length = some (x', r) →
    ∃ a', perform k m a = some (a', r) ∧ Stores k x' a'
  settled : ∀ {t k m x a}, roles.mayCall t k m → roles.ready k m x → Stores k x a → Pre k m a
  underway : ∀ {t u k m} {m' : μ k} {x x' a n r}, roles.mayCall t k m → roles.mayCall u k m' → u ≠ t →
    Stores k x a → n < (code.body k m').length → code.after m' x n = some (x', r) →
    roles.ready k m x' → Pre k m a
  stable : ∀ {t u k m m' a a' r}, roles.mayCall t k m → roles.mayCall u k m' → u ≠ t →
    Pre k m a → perform k m' a = some (a', r) → Pre k m a'

inductive Pends (code : Code σ μ ρ) : Phase μ ρ → (k : κ) → μ k → Prop
  | waiting (k : κ) (m : μ k) : Pends code (.waiting k m) k m
  | inside (k : κ) (m : μ k) (taken : Nat) (registers : ρ k)
      (hn : taken < (code.body k m).length) : Pends code (.inside k m taken registers) k m

section

variable {code : Code σ μ ρ} {roles : Roles ι σ μ}
  {perform : (k : κ) → μ k → α k → Option (α k × ρ k)} (imp : Implements code roles perform)
  {mutexOf : κ → ν} {store : (k : κ) → σ k} {holder : ν → Option ι} {phase : ι → Phase μ ρ}
  {a : (k : κ) → α k}

/-- How the threads and the objects stand to the contents after the calls that
are committed. -/
structure Linked (mutexOf : κ → ν) (store : (k : κ) → σ k) (holder : ν → Option ι)
    (phase : ι → Phase μ ρ) (a : (k : κ) → α k) : Prop where
  allowed : ∀ t k m, Pends code (phase t) k m → roles.mayCall t k m ∧ imp.Pre k m (a k)
  alone : ∀ t k m n r, phase t = .inside k m n r → holder (mutexOf k) = some t
  held : ∀ v t, holder v = some t → ∃ k m n r, phase t = .inside k m n r ∧ mutexOf k = v
  underway : ∀ t k m n r, phase t = .inside k m n r → n < (code.body k m).length →
    ∃ x, imp.Stores k x (a k) ∧ code.after m x n = some (store k, r)
  settled : ∀ k, (∀ t m n r, phase t = .inside k m n r → (code.body k m).length ≤ n) →
    imp.Stores k (store k) (a k)

namespace Linked

variable {imp}

theorem exclusive (h : Linked imp mutexOf store holder phase a) {t u : ι} {k l : κ} {m : μ k} {m' : μ l}
    {n n' : Nat} {r : ρ k} {r' : ρ l} (ht : phase t = .inside k m n r)
    (hu : phase u = .inside l m' n' r') (hk : mutexOf k = mutexOf l) : t = u := by
  have hh := h.alone t k m n r ht
  rw [hk, h.alone u l m' n' r' hu] at hh
  exact (Option.some.inj hh).symm

theorem settled_of_free (h : Linked imp mutexOf store holder phase a) {k : κ} (hh : holder (mutexOf k) = none) :
    imp.Stores k (store k) (a k) := by
  refine h.settled k fun t m n r hp => ?_
  rw [h.alone t k m n r hp] at hh
  cases hh

theorem pre_of_ready (h : Linked imp mutexOf store holder phase a) {t : ι} (ht : phase t = .outside)
    {k : κ} {m : μ k} (hc : roles.mayCall t k m) (hr : roles.ready k m (store k)) :
    imp.Pre k m (a k) := by
  by_cases hs : ∀ u m' n r, phase u = .inside k m' n r → (code.body k m').length ≤ n
  · exact imp.settled hc hr (h.settled k hs)
  · -- another thread is in the middle of a call on the same object
    simp only [not_forall, Nat.not_le] at hs
    obtain ⟨u, m', n, r, hu, hn⟩ := hs
    obtain ⟨x, hx, ha⟩ := h.underway u k m' n r hu hn
    have hne : u ≠ t := by
      rintro rfl
      rw [ht] at hu
      cases hu
    have hcall := (h.allowed u k m' (hu ▸ .inside k m' n r hn)).1
    exact imp.underway hc hcall hne hx hn ha hr

theorem other_object (h : Linked imp mutexOf store holder phase a) {t u : ι} {k l : κ} {m : μ k}
    {m' : μ l} {n n' : Nat} {r : ρ k} {r' : ρ l} (hp : phase t = .inside k m n r)
    (hu : phase u = .inside l m' n' r') (he : u ≠ t) : l ≠ k := by
  rintro rfl
  exact he (h.exclusive hu hp rfl)

end Linked

theorem linked_new (mutexOf : κ → ν) {store : (k : κ) → σ k} {a₀ : (k : κ) → α k}
    (hg : ∀ k, imp.Stores k (store k) (a₀ k)) :
    Linked imp mutexOf store (fun _ => none : ν → Option ι) (fun _ => .outside) a₀ := by
  refine ⟨?_, ?_, ?_, ?_, fun k _ => hg k⟩
  · rintro t k m ⟨⟩
  all_goals simp

end

structure Commit (ι : Type) (μ ρ : κ → Type) where
  thread : ι
  object : κ
  method : μ object
  result : ρ object

def commitOf : Event ι μ ρ → Option (Commit ι μ ρ)
  | .committed t k m result => some ⟨t, k, m, result⟩
  | _ => none

/-- The commits of a trace, in their order. Each lies between the call that it
ends and the return of that call. -/
def commits (tr : List (Event ι μ ρ)) : List (Commit ι μ ρ) := tr.filterMap commitOf

theorem commits_snoc (tr : List (Event ι μ ρ)) (e : Event ι μ ρ) :
    commits (tr ++ [e]) = commits tr ++ (commitOf e).toList :=
  filterMap_snoc ..

section

variable [DecidableEq ι]

def caller : Event ι μ ρ → Option ι
  | .called t _ _ | .committed t _ _ _ | .returned t _ _ _ => some t
  | _ => none

def lastOf (t : ι) (tr : List (Event ι μ ρ)) : Option (Event ι μ ρ) :=
  (tr.filter (caller · == some t)).getLast?

/-- The calls of a thread follow each other, and what a call returns is the result
with which it was committed after it began. -/
def Answers (past : List (Event ι μ ρ)) : Event ι μ ρ → Prop
  | .called t _ _ => ∀ e, lastOf t past = some e → ∃ k m r, e = .returned t k m r
  | .committed t k m _ => lastOf t past = some (.called t k m)
  | .returned t k m r => lastOf t past = some (.committed t k m r)
  | _ => True

def Recorded (code : Code σ μ ρ) (tr : List (Event ι μ ρ)) (t : ι) : Phase μ ρ → Prop
  | .outside => ∀ e, lastOf t tr = some e → ∃ k m r, e = .returned t k m r
  | .waiting k m => lastOf t tr = some (.called t k m)
  | .inside k m n r =>
      lastOf t tr =
        some (if n < (code.body k m).length then .called t k m else .committed t k m r)

theorem lastOf_snoc (t : ι) (tr : List (Event ι μ ρ)) (e : Event ι μ ρ) :
    lastOf t (tr ++ [e]) = if caller e = some t then some e else lastOf t tr := by
  rw [lastOf, lastOf, List.filter_append]
  by_cases h : caller e = some t <;> simp [h]

theorem Recorded.other {code : Code σ μ ρ} {tr : List (Event ι μ ρ)} {u : ι} {e : Event ι μ ρ} {p : Phase μ ρ}
    (h : Recorded code tr u p) (he : caller e ≠ some u) : Recorded code (tr ++ [e]) u p := by
  cases p <;> simpa only [Recorded, lastOf_snoc, if_neg he] using h

variable {code : Code σ μ ρ} {roles : Roles ι σ μ}
  {perform : (k : κ) → μ k → α k → Option (α k × ρ k)} {imp : Implements code roles perform}
  {mutexOf : κ → ν} {store : (k : κ) → σ k} {holder : ν → Option ι} {phase : ι → Phase μ ρ}
  {a : (k : κ) → α k}

namespace Linked

variable {t : ι} {k : κ} {m : μ k} {n : Nat} {r r' : ρ k} {x : σ k}
  {work : σ k → ρ k → Option (σ k × ρ k)}

theorem called (h : Linked imp mutexOf store holder phase a) (hp : phase t = .outside)
    (hc : roles.mayCall t k m) (hr : roles.ready k m (store k)) :
    Linked imp mutexOf store holder (Function.update phase t (.waiting k m)) a := by
  have hpre := h.pre_of_ready hp hc hr
  have inside : ∀ {u l m' n r}, Function.update phase t (.waiting k m) u = .inside l m' n r →
      phase u = .inside l m' n r := by
    intro u l m' n r hu
    by_cases he : u = t
    · subst he
      simp at hu
    · rwa [Function.update_of_ne he] at hu
  constructor
  · intro u l m' hu
    by_cases he : u = t
    · subst he
      rw [Function.update_self] at hu
      cases hu
      exact ⟨hc, hpre⟩
    · rw [Function.update_of_ne he] at hu
      exact h.allowed u l m' hu
  · exact fun u l m' n r hu => h.alone u l m' n r (inside hu)
  · intro v u hv
    obtain ⟨l, m', n, r, hu, hl⟩ := h.held v u hv
    have he : u ≠ t := by
      rintro rfl
      rw [hp] at hu
      cases hu
    exact ⟨l, m', n, r, by rwa [Function.update_of_ne he], hl⟩
  · exact fun u l m' n r hu hn => h.underway u l m' n r (inside hu) hn
  · refine fun l hl => h.settled l fun u m' n r hu => hl u m' n r ?_
    have he : u ≠ t := by
      rintro rfl
      rw [hp] at hu
      cases hu
    rwa [Function.update_of_ne he]

theorem alone_moved (h : Linked imp mutexOf store holder phase a) (hp : phase t = .inside k m n r) (u : ι) (l : κ)
    (m' : μ l) (n' : Nat) (r₁ : ρ l)
    (hu : Function.update phase t (.inside k m (n + 1) r') u = .inside l m' n' r₁) :
    holder (mutexOf l) = some u := by
  by_cases he : u = t
  · subst he
    rw [Function.update_self] at hu
    cases hu
    exact h.alone u k m n r hp
  · rw [Function.update_of_ne he] at hu
    exact h.alone u l m' n' r₁ hu

theorem held_moved (h : Linked imp mutexOf store holder phase a) (hp : phase t = .inside k m n r) (v : ν) (u : ι)
    (hv : holder v = some u) : ∃ l m' n' r₁,
      Function.update phase t (.inside k m (n + 1) r') u = .inside l m' n' r₁ ∧ mutexOf l = v := by
  obtain ⟨l, m', n', r₁, hu, hl⟩ := h.held v u hv
  by_cases he : u = t
  · subst he
    rw [hp] at hu
    cases hu
    exact ⟨k, m, n + 1, r', Function.update_self .., hl⟩
  · exact ⟨l, m', n', r₁, by rwa [Function.update_of_ne he], hl⟩

section

variable [DecidableEq κ]

theorem worked (h : Linked imp mutexOf store holder phase a) (hp : phase t = .inside k m n r)
    (hn : n + 1 ≠ (code.body k m).length) (hw : (code.body k m)[n]? = some work)
    (hx : work (store k) r = some (x, r')) :
    Linked imp mutexOf (Function.update store k x) holder
      (Function.update phase t (.inside k m (n + 1) r')) a := by
  have hlt := (List.getElem?_eq_some_iff.mp hw).1
  constructor
  · intro u l m' hu
    by_cases he : u = t
    · subst he
      rw [Function.update_self] at hu
      cases hu
      exact h.allowed u k m (hp ▸ .inside k m n r hlt)
    · rw [Function.update_of_ne he] at hu
      exact h.allowed u l m' hu
  · exact h.alone_moved hp
  · exact h.held_moved hp
  · intro u l m' n' r₁ hu hn'
    by_cases he : u = t
    · subst he
      rw [Function.update_self] at hu
      cases hu
      obtain ⟨x₀, hx₀, ha⟩ := h.underway u k m n r hp hlt
      exact ⟨x₀, hx₀, by rw [Code.after_succ ha hw, hx, Function.update_self]⟩
    · rw [Function.update_of_ne he] at hu
      rw [Function.update_of_ne (h.other_object hp hu he)]
      exact h.underway u l m' n' r₁ hu hn'
  · intro l hl
    by_cases he : l = k
    · subst he
      have hle := hl t m (n + 1) r' (Function.update_self ..)
      omega
    · rw [Function.update_of_ne he]
      refine h.settled l fun u m' n' r₁ hu => hl u m' n' r₁ ?_
      have hne : u ≠ t := by
        rintro rfl
        rw [hp] at hu
        cases hu
        exact he rfl
      rwa [Function.update_of_ne hne]

theorem committed (h : Linked imp mutexOf store holder phase a) (hp : phase t = .inside k m n r)
    (hn : n + 1 = (code.body k m).length) (hw : (code.body k m)[n]? = some work)
    (hx : work (store k) r = some (x, r')) :
    ∃ b, perform k m (a k) = some (b, r') ∧
      Linked imp mutexOf (Function.update store k x) holder
        (Function.update phase t (.inside k m (n + 1) r')) (Function.update a k b) := by
  have hlt := (List.getElem?_eq_some_iff.mp hw).1
  obtain ⟨x₀, hx₀, ha⟩ := h.underway t k m n r hp hlt
  have hafter := Code.after_succ ha hw
  rw [hn, hx] at hafter
  obtain ⟨b, hb, hgood⟩ := imp.commits hx₀ hafter
  have hcall := (h.allowed t k m (hp ▸ .inside k m n r hlt)).1
  refine ⟨b, hb, ⟨?_, h.alone_moved hp, h.held_moved hp, ?_, ?_⟩⟩
  · intro u l m' hu
    by_cases he : u = t
    · subst he
      rw [Function.update_self] at hu
      cases hu
      omega
    · rw [Function.update_of_ne he] at hu
      have hold := h.allowed u l m' hu
      by_cases hl : l = k
      · subst hl
        rw [Function.update_self]
        exact ⟨hold.1, imp.stable hold.1 hcall (Ne.symm he) hold.2 hb⟩
      · rwa [Function.update_of_ne hl]
  · intro u l m' n' r₁ hu hn'
    by_cases he : u = t
    · subst he
      rw [Function.update_self] at hu
      cases hu
      omega
    · rw [Function.update_of_ne he] at hu
      have hl := h.other_object hp hu he
      rw [Function.update_of_ne hl, Function.update_of_ne hl]
      exact h.underway u l m' n' r₁ hu hn'
  · intro l hl
    by_cases he : l = k
    · subst he
      rwa [Function.update_self, Function.update_self]
    · rw [Function.update_of_ne he, Function.update_of_ne he]
      refine h.settled l fun u m' n' r₁ hu => hl u m' n' r₁ ?_
      have hne : u ≠ t := by
        rintro rfl
        rw [hp] at hu
        cases hu
        exact he rfl
      rwa [Function.update_of_ne hne]

end

variable [DecidableEq ν]

theorem locked (h : Linked imp mutexOf store holder phase a) (hp : phase t = .waiting k m)
    (hh : holder (mutexOf k) = none) :
    Linked imp mutexOf store (Function.update holder (mutexOf k) (some t))
      (Function.update phase t (.inside k m 0 (code.start k m))) a := by
  have free : ∀ u l m' n r, phase u = .inside l m' n r → mutexOf l ≠ mutexOf k := by
    intro u l m' n r hu he
    have ha := h.alone u l m' n r hu
    rw [he, hh] at ha
    cases ha
  constructor
  · intro u l m' hu
    by_cases he : u = t
    · subst he
      rw [Function.update_self] at hu
      cases hu
      exact h.allowed u k m (hp ▸ .waiting k m)
    · rw [Function.update_of_ne he] at hu
      exact h.allowed u l m' hu
  · intro u l m' n r hu
    by_cases he : u = t
    · subst he
      rw [Function.update_self] at hu
      cases hu
      exact Function.update_self ..
    · rw [Function.update_of_ne he] at hu
      rw [Function.update_of_ne (free u l m' n r hu)]
      exact h.alone u l m' n r hu
  · intro v u hv
    by_cases he : v = mutexOf k
    · subst he
      rw [Function.update_self] at hv
      cases hv
      exact ⟨k, m, 0, code.start k m, Function.update_self .., rfl⟩
    · rw [Function.update_of_ne he] at hv
      obtain ⟨l, m', n, r, hu, hl⟩ := h.held v u hv
      have hne : u ≠ t := by
        rintro rfl
        rw [hp] at hu
        cases hu
      exact ⟨l, m', n, r, by rwa [Function.update_of_ne hne], hl⟩
  · intro u l m' n r hu hn
    by_cases he : u = t
    · subst he
      rw [Function.update_self] at hu
      cases hu
      exact ⟨store k, h.settled_of_free hh, rfl⟩
    · rw [Function.update_of_ne he] at hu
      exact h.underway u l m' n r hu hn
  · refine fun l hl => h.settled l fun u m' n r hu => hl u m' n r ?_
    have he : u ≠ t := by
      rintro rfl
      rw [hp] at hu
      cases hu
    rwa [Function.update_of_ne he]

theorem unlocked (h : Linked imp mutexOf store holder phase a) (hp : phase t = .inside k m n r)
    (hn : (code.body k m).length ≤ n) :
    Linked imp mutexOf store (Function.update holder (mutexOf k) none)
      (Function.update phase t .outside) a := by
  have left : ∀ {u : ι} {p : Phase μ ρ}, p ≠ .outside → Function.update phase t .outside u = p →
      u ≠ t ∧ phase u = p := by
    intro u p hne hu
    by_cases he : u = t
    · subst he
      rw [Function.update_self] at hu
      exact absurd hu.symm hne
    · rw [Function.update_of_ne he] at hu
      exact ⟨he, hu⟩
  constructor
  · intro u l m' hu
    obtain ⟨_, hu'⟩ := left (u := u) (by rintro hq; rw [hq] at hu; cases hu) rfl
    rw [← hu'] at hu
    exact h.allowed u l m' hu
  · intro u l m' n' r₁ hu
    obtain ⟨he, hu⟩ := left (by simp) hu
    have hl : mutexOf l ≠ mutexOf k := fun hk => he (h.exclusive hu hp hk)
    rw [Function.update_of_ne hl]
    exact h.alone u l m' n' r₁ hu
  · intro v u hv
    by_cases hk : v = mutexOf k
    · subst hk
      rw [Function.update_self] at hv
      cases hv
    · rw [Function.update_of_ne hk] at hv
      obtain ⟨l, m', n', r₁, hu, hl⟩ := h.held v u hv
      have he : u ≠ t := by
        rintro rfl
        rw [hp] at hu
        cases hu
        exact hk hl.symm
      exact ⟨l, m', n', r₁, by rwa [Function.update_of_ne he], hl⟩
  · intro u l m' n' r₁ hu hn'
    exact h.underway u l m' n' r₁ (left (by simp) hu).2 hn'
  · refine fun l hl => h.settled l fun u m' n' r₁ hu => ?_
    by_cases he : u = t
    · subst he
      rw [hp] at hu
      cases hu
      exact hn
    · exact hl u m' n' r₁ (by rwa [Function.update_of_ne he])

end Linked

end

variable [DecidableEq ι] [DecidableEq κ] [DecidableEq ν]

/-- The mutex of an object is held from before the first small step of a call
until after the last one, which is the one that commits it. -/
def step (code : Code σ μ ρ) (mutexOf : κ → ν) :
    Machine (State ι ν σ μ ρ) (Action ι μ) (Event ι μ ρ) := fun s action =>
  match action with
  | .call t k m =>
      match s.phase t with
      | .outside => some ({ s with phase := Function.update s.phase t (.waiting k m) }, .called t k m)
      | _ => none
  | .advance t =>
      match s.phase t with
      | .outside => none
      | .waiting k m =>
          if s.holder (mutexOf k) = none then
            some ({ s with
                holder := Function.update s.holder (mutexOf k) (some t)
                phase := Function.update s.phase t (.inside k m 0 (code.start k m)) }, .locked t)
          else none
      | .inside k m taken registers =>
          match (code.body k m)[taken]? with
          | some work =>
              (work (s.store k) registers).map fun (x, registers) =>
                ({ s with
                    store := Function.update s.store k x
                    phase := Function.update s.phase t (.inside k m (taken + 1) registers) },
                  if taken + 1 = (code.body k m).length then .committed t k m registers
                  else .worked t)
          | none =>
              some ({ s with
                  holder := Function.update s.holder (mutexOf k) none
                  phase := Function.update s.phase t .outside }, .returned t k m registers)

inductive Step (code : Code σ μ ρ) (mutexOf : κ → ν) (s : State ι ν σ μ ρ) :
    Action ι μ → Event ι μ ρ → State ι ν σ μ ρ → Prop
  | call (t : ι) (k : κ) (m : μ k) (hp : s.phase t = .outside) :
      Step code mutexOf s (.call t k m) (.called t k m)
        { s with phase := Function.update s.phase t (.waiting k m) }
  | lock (t : ι) (k : κ) (m : μ k) (hp : s.phase t = .waiting k m)
      (hh : s.holder (mutexOf k) = none) :
      Step code mutexOf s (.advance t) (.locked t)
        { s with
          holder := Function.update s.holder (mutexOf k) (some t)
          phase := Function.update s.phase t (.inside k m 0 (code.start k m)) }
  | work (t : ι) (k : κ) (m : μ k) (taken : Nat) (registers registers' : ρ k) (x : σ k)
      (work : σ k → ρ k → Option (σ k × ρ k)) (hp : s.phase t = .inside k m taken registers)
      (hn : taken + 1 ≠ (code.body k m).length) (hw : (code.body k m)[taken]? = some work)
      (hx : work (s.store k) registers = some (x, registers')) :
      Step code mutexOf s (.advance t) (.worked t)
        { s with
          store := Function.update s.store k x
          phase := Function.update s.phase t (.inside k m (taken + 1) registers') }
  | commit (t : ι) (k : κ) (m : μ k) (taken : Nat) (registers registers' : ρ k) (x : σ k)
      (work : σ k → ρ k → Option (σ k × ρ k)) (hp : s.phase t = .inside k m taken registers)
      (hn : taken + 1 = (code.body k m).length) (hw : (code.body k m)[taken]? = some work)
      (hx : work (s.store k) registers = some (x, registers')) :
      Step code mutexOf s (.advance t) (.committed t k m registers')
        { s with
          store := Function.update s.store k x
          phase := Function.update s.phase t (.inside k m (taken + 1) registers') }
  | unlock (t : ι) (k : κ) (m : μ k) (taken : Nat) (registers : ρ k)
      (hp : s.phase t = .inside k m taken registers) (hn : (code.body k m).length ≤ taken) :
      Step code mutexOf s (.advance t) (.returned t k m registers)
        { s with
          holder := Function.update s.holder (mutexOf k) none
          phase := Function.update s.phase t .outside }

theorem step_cases {code : Code σ μ ρ} {mutexOf : κ → ν} {s s' : State ι ν σ μ ρ}
    {action : Action ι μ} {e : Event ι μ ρ} (h : step code mutexOf s action = some (s', e)) :
    Step code mutexOf s action e s' := by
  unfold step at h
  split at h
  next t k m =>
    split at h
    next hp => cases h; exact .call t k m hp
    next => cases h
  next t =>
    split at h
    next => cases h
    next k m hp =>
      split_ifs at h with hh
      cases h
      exact .lock t k m hp hh
    next k m taken registers hp =>
      split at h
      next work hw =>
        obtain ⟨⟨x, registers'⟩, hx, he⟩ := Option.map_eq_some_iff.mp h
        dsimp only at he
        split_ifs at he with hn
        · cases he
          exact .commit t k m taken registers registers' x work hp hn hw hx
        · cases he
          exact .work t k m taken registers registers' x work hp hn hw hx
      next hw =>
        cases h
        exact .unlock t k m taken registers hp (List.getElem?_eq_none_iff.mp hw)

/-- Operations performed one after the other, each with the result that it gives
on the contents at that moment. -/
inductive Sequential (perform : (k : κ) → μ k → α k → Option (α k × ρ k)) (a₀ : (k : κ) → α k) :
    List (Commit ι μ ρ) → ((k : κ) → α k) → Prop
  | start : Sequential perform a₀ [] a₀
  | commit {cs : List (Commit ι μ ρ)} {a : (k : κ) → α k} (t : ι) (k : κ) (m : μ k) (result : ρ k)
      (x : α k) (h : Sequential perform a₀ cs a) (hp : perform k m (a k) = some (x, result)) :
      Sequential perform a₀ (cs ++ [⟨t, k, m, result⟩]) (Function.update a k x)

section

variable {code : Code σ μ ρ} {roles : Roles ι σ μ}
  {perform : (k : κ) → μ k → α k → Option (α k × ρ k)} {imp : Implements code roles perform}
  {mutexOf : κ → ν} {store : (k : κ) → σ k} {holder : ν → Option ι} {phase : ι → Phase μ ρ}
  {s s' : State ι ν σ μ ρ} {a a₀ : (k : κ) → α k} {tr : List (Event ι μ ρ)}

theorem Linked.progress (h : Linked imp mutexOf s.store s.holder s.phase a) {t : ι} (ht : s.phase t ≠ .outside) :
    ∃ u, (step code mutexOf s (.advance u)).isSome := by
  have inside : ∀ u k m n r, s.phase u = .inside k m n r →
      (step code mutexOf s (.advance u)).isSome := by
    intro u k m n r hu
    simp only [step, hu]
    split
    next work hw =>
      have hn := (List.getElem?_eq_some_iff.mp hw).1
      obtain ⟨x, hx, ha⟩ := h.underway u k m n r hu hn
      have hs := imp.total (h.allowed u k m (hu ▸ .inside k m n r hn)).2 hx
        (show n + 1 ≤ (code.body k m).length from hn)
      rw [Code.after_succ ha hw] at hs
      simpa using hs
    next => rfl
  cases hp : s.phase t with
  | outside => exact absurd hp ht
  | inside k m n r => exact ⟨t, inside t k m n r hp⟩
  | waiting k m =>
      cases hh : s.holder (mutexOf k) with
      | none => exact ⟨t, by simp [step, hp, hh]⟩
      | some u =>
          obtain ⟨l, m', n, r, hu, _⟩ := h.held _ u hh
          exact ⟨u, inside u l m' n r hu⟩

theorem linked_step {action : Action ι μ} {e : Event ι μ ρ} (h : Linked imp mutexOf s.store s.holder s.phase a)
    (hs : Step code mutexOf s action e s') (hk : Keeps roles tr s action)
    (hseq : Sequential perform a₀ (commits tr) a) :
    ∃ b, Sequential perform a₀ (commits (tr ++ [e])) b ∧ Linked imp mutexOf s'.store s'.holder s'.phase b := by
  rw [commits_snoc]
  cases hs with
  | call t k m hp => exact ⟨a, by simpa [commitOf] using hseq, h.called hp hk.1 hk.2⟩
  | lock t k m hp hh => exact ⟨a, by simpa [commitOf] using hseq, h.locked hp hh⟩
  | work t k m n r r' x work hp hn hw hx =>
      exact ⟨a, by simpa [commitOf] using hseq, h.worked hp hn hw hx⟩
  | commit t k m n r r' x work hp hn hw hx =>
      obtain ⟨b, hb, hl⟩ := h.committed hp hn hw hx
      exact ⟨Function.update a k b, hseq.commit t k m r' b hb, hl⟩
  | unlock t k m n r hp hn => exact ⟨a, by simpa [commitOf] using hseq, h.unlocked hp hn⟩

/-- Whatever the threads do, as long as they keep to their roles, the calls are
performed one after the other. -/
theorem guarded_linked (imp : Implements code roles perform) {store : (k : κ) → σ k}
    (hg : ∀ k, imp.Stores k (store k) (a₀ k))
    (hr : Guarded (step code mutexOf) (Keeps roles) (State.new store) tr s) :
    ∃ a, Sequential perform a₀ (commits tr) a ∧ Linked imp mutexOf s.store s.holder s.phase a := by
  induction hr with
  | start => exact ⟨a₀, .start, linked_new imp mutexOf hg⟩
  | step _ hk hs ih =>
      obtain ⟨a, hseq, hl⟩ := ih
      exact linked_step hl (step_cases hs) hk hseq

theorem recorded_step (hb : ∀ k m, 0 < (code.body k m).length) {action : Action ι μ}
    {e : Event ι μ ρ} (hs : Step code mutexOf s action e s')
    (h : ∀ t, Recorded code tr t (s.phase t)) :
    Answers tr e ∧ ∀ t, Recorded code (tr ++ [e]) t (s'.phase t) := by
  -- only the phase of the thread that moves changes, and only its own events concern it
  have frame : ∀ {t : ι} {p : Phase μ ρ}, (caller e = some t ∨ caller e = none) →
      Recorded code (tr ++ [e]) t p → ∀ u, Recorded code (tr ++ [e]) u (Function.update s.phase t p u) := by
    intro t p hc hp u
    by_cases hu : u = t
    · subst hu
      rwa [Function.update_self]
    · rw [Function.update_of_ne hu]
      refine (h u).other fun he => ?_
      rcases hc with hc | hc
      · exact hu (Option.some.inj (he.symm.trans hc))
      · cases hc.symm.trans he
  cases hs with
  | call t k m hp =>
      have ht := h t
      rw [hp] at ht
      exact ⟨ht, frame (.inl rfl) (by simp [Recorded, lastOf_snoc, caller])⟩
  | lock t k m hp hh =>
      have ht := h t
      rw [hp] at ht
      refine ⟨trivial, frame (.inr rfl) ?_⟩
      simpa [Recorded, lastOf_snoc, caller, hb k m] using ht
  | work t k m n r r' x work hp hn hw hx =>
      have hlt := (List.getElem?_eq_some_iff.mp hw).1
      have ht := h t
      rw [hp, Recorded, if_pos hlt] at ht
      refine ⟨trivial, frame (.inr rfl) ?_⟩
      rw [Recorded, if_pos (by omega), lastOf_snoc]
      simpa [caller] using ht
  | commit t k m n r r' x work hp hn hw hx =>
      have hlt := (List.getElem?_eq_some_iff.mp hw).1
      have ht := h t
      rw [hp, Recorded, if_pos hlt] at ht
      refine ⟨ht, frame (.inl rfl) ?_⟩
      rw [Recorded, if_neg (by omega), lastOf_snoc]
      simp [caller]
  | unlock t k m n r hp hn =>
      have ht := h t
      rw [hp, Recorded, if_neg (by omega)] at ht
      refine ⟨ht, frame (.inl rfl) ?_⟩
      simp [Recorded, lastOf_snoc, caller]

theorem reach_recorded (hb : ∀ k m, 0 < (code.body k m).length) {store : (k : κ) → σ k}
    (hr : Reach (step code mutexOf) (State.new store) tr s) (t : ι) :
    Recorded code tr t (s.phase t) := by
  induction hr generalizing t with
  | start => simp [Recorded, State.new, lastOf]
  | step _ hs ih => exact (recorded_step hb (step_cases hs) ih).2 t

theorem reach_answers (hb : ∀ k m, 0 < (code.body k m).length) {store : (k : κ) → σ k}
    (hr : Reach (step code mutexOf) (State.new store) tr s) : Always Answers tr :=
  reach_always (fun hr hs => (recorded_step hb (step_cases hs) fun t => reach_recorded hb hr t).1) hr

end

end MysqlPlugin.Monitor
