import MysqlPlugin.Transition

namespace MysqlPlugin.Fairness

open Transition

variable {σ α ε κ : Type}

/-- In every state that is not yet at the goal there is a party whose next move
brings it nearer. Until that party moves, nobody moves away from the goal, and
the party stays the same one. -/
structure Helps (M : Machine σ α ε) (party : α → κ) (good : σ → Prop) (left : σ → Nat)
    (helper : σ → κ) : Prop where
  keeps : ∀ s a, good s → 0 < left s → good (after M s a)
  moves : ∀ s a, good s → 0 < left s → party a = helper s → left (after M s a) < left s
  waits : ∀ s a, good s → 0 < left s → party a ≠ helper s →
    left (after M s a) < left s ∨ left (after M s a) = left s ∧ helper (after M s a) = helper s

/-- A stretch of a schedule in which each of these parties has a move. -/
def Round (party : α → κ) (parties : κ → Prop) (as : List α) : Prop :=
  ∀ k, parties k → ∃ a ∈ as, party a = k

theorem Round.append_left {party : α → κ} {parties : κ → Prop} {as : List α}
    (h : Round party parties as) (bs : List α) : Round party parties (bs ++ as) := by
  intro k hk
  obtain ⟨a, ha, he⟩ := h k hk
  exact ⟨a, List.mem_append_right bs ha, he⟩

namespace Helps

variable {M : Machine σ α ε} {party : α → κ} {good : σ → Prop} {left : σ → Nat} {helper : σ → κ}
  (h : Helps M party good left helper)

include h

theorem nearer {s : σ} (hs : good s) (hl : 0 < left s) {as : List α}
    (ha : ∃ a ∈ as, party a = helper s) :
    ∃ before rest, as = before ++ rest ∧ good (run M s before).2 ∧
      left (run M s before).2 < left s := by
  induction as generalizing s with
  | nil =>
      obtain ⟨a, ha, -⟩ := ha
      cases ha
  | cons a as ih =>
      have hgood := h.keeps s a hs hl
      by_cases hlt : left (after M s a) < left s
      · refine ⟨[a], as, rfl, ?_⟩
        rw [run_cons_snd]
        exact ⟨hgood, hlt⟩
      · have hne : party a ≠ helper s := fun he => hlt (h.moves s a hs hl he)
        obtain ⟨heq, hhelper⟩ := (h.waits s a hs hl hne).resolve_left hlt
        obtain ⟨b, hb, he⟩ := ha
        rcases List.mem_cons.mp hb with rfl | hb
        · exact absurd he hne
        · obtain ⟨before, rest, rfl, hg, hlt'⟩ := ih hgood (heq ▸ hl) ⟨b, hb, hhelper ▸ he⟩
          refine ⟨a :: before, rest, rfl, ?_⟩
          rw [run_cons_snd]
          exact ⟨hg, heq ▸ hlt'⟩

theorem reaches {parties : κ → Prop} (hp : ∀ s, good s → 0 < left s → parties (helper s))
    {rounds : List (List α)} (hr : ∀ as ∈ rounds, Round party parties as) {s : σ} (hs : good s)
    (hl : left s ≤ rounds.length) :
    ∃ before rest, rounds.flatten = before ++ rest ∧ left (run M s before).2 = 0 := by
  obtain ⟨n, hn⟩ : ∃ n, rounds.length = n := ⟨_, rfl⟩
  -- a round that the goal cuts in two lends its rest to the next one
  induction n generalizing rounds s with
  | zero => exact ⟨[], _, rfl, Nat.eq_zero_of_le_zero (hn ▸ hl)⟩
  | succ n ih =>
      obtain ⟨as, rounds, rfl⟩ := List.exists_cons_of_length_eq_add_one hn
      rw [List.length_cons] at hl hn
      rw [List.forall_mem_cons] at hr
      by_cases hz : left s = 0
      · exact ⟨[], _, rfl, hz⟩
      · have hpos : 0 < left s := Nat.pos_of_ne_zero hz
        obtain ⟨before, rest, rfl, hg, hlt⟩ := h.nearer hs hpos (hr.1 _ (hp s hs hpos))
        cases rounds with
        | nil =>
            refine ⟨before, rest, by simp, ?_⟩
            rw [List.length_nil] at hl
            omega
        | cons bs rounds =>
            rw [List.forall_mem_cons] at hr
            have hr' : ∀ cs ∈ (rest ++ bs) :: rounds, Round party parties cs :=
              List.forall_mem_cons.mpr ⟨hr.2.1.append_left rest, hr.2.2⟩
            rw [List.length_cons] at hl hn
            obtain ⟨before', rest', hflat, hleft⟩ :=
              ih hr' hg (by rw [List.length_cons]; omega) (by rw [List.length_cons]; omega)
            refine ⟨before ++ before', rest', ?_, ?_⟩
            · rw [List.append_assoc, ← hflat]
              simp
            · rw [run_append]
              exact hleft

end Helps

end MysqlPlugin.Fairness
