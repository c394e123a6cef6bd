import Mathlib.Data.List.Nodup
import Mathlib.Logic.Function.Basic

namespace MysqlPlugin

/-- Memory in blocks. An address stands for the block that was allocated under
it and is not given out again, so a use of an old pointer is a fault: none. -/
structure Heap (β : Type) where
  blocks : List (Option β)

namespace Heap

variable {β ι : Type}

def empty : Heap β := ⟨[]⟩

def read (heap : Heap β) (address : Nat) : Option β := heap.blocks[address]?.join

def alloc (heap : Heap β) (block : β) : Heap β × Nat :=
  (⟨heap.blocks ++ [some block]⟩, heap.blocks.length)

def write (heap : Heap β) (address : Nat) (f : β → Option β) : Option (Heap β) :=
  ((heap.read address).bind f).map fun block => ⟨heap.blocks.set address (some block)⟩

def free (heap : Heap β) (address : Nat) : Option (Heap β) :=
  (heap.read address).map fun _ => ⟨heap.blocks.set address none⟩

theorem lt_of_read {heap : Heap β} {a : Nat} {block : β} (h : heap.read a = some block) :
    a < heap.blocks.length := by
  by_contra hn
  rw [read, List.getElem?_eq_none (by omega)] at h
  cases h

@[simp] theorem read_empty (a : Nat) : (empty : Heap β).read a = none := rfl

theorem read_alloc (heap : Heap β) (block : β) (a : Nat) :
    (heap.alloc block).1.read a = if a = (heap.alloc block).2 then some block else heap.read a := by
  split_ifs with h
  · simp [read, alloc, h]
  · change a ≠ heap.blocks.length at h
    rcases Nat.lt_or_gt_of_ne h with hlt | hgt
    · simp [read, alloc, List.getElem?_append_left hlt]
    · simp [read, alloc, List.getElem?_eq_none (show heap.blocks.length ≤ a by omega),
        List.getElem?_eq_none (show (heap.blocks ++ [some block]).length ≤ a by simp; omega)]

theorem read_alloc_none (heap : Heap β) (block : β) : heap.read (heap.alloc block).2 = none := by
  simp [read, alloc]

theorem read_set (heap : Heap β) {a : Nat} (ha : a < heap.blocks.length) (value : Option β)
    (b : Nat) :
    (⟨heap.blocks.set a value⟩ : Heap β).read b = if b = a then value else heap.read b := by
  rw [read, read, List.getElem?_set]
  split_ifs with h h' h'
  · simp
  · exact absurd h.symm h'
  · exact absurd h'.symm h
  · rfl

theorem write_eq {heap : Heap β} {a : Nat} {block block' : β} {f : β → Option β}
    (h : heap.read a = some block) (hf : f block = some block') :
    ∃ heap', heap.write a f = some heap' ∧
      ∀ b, heap'.read b = if b = a then some block' else heap.read b :=
  ⟨_, by rw [write, h, Option.bind_some, hf, Option.map_some], read_set heap (lt_of_read h) _⟩

theorem free_eq {heap : Heap β} {a : Nat} (h : (heap.read a).isSome) :
    ∃ heap', heap.free a = some heap' ∧ ∀ b, heap'.read b = if b = a then none else heap.read b := by
  obtain ⟨block, hb⟩ := Option.isSome_iff_exists.mp h
  exact ⟨_, by rw [free, hb, Option.map_some], read_set heap (lt_of_read hb) none⟩

theorem freeAll_eq {heap : Heap β} {addresses : List Nat} (hn : addresses.Nodup)
    (h : ∀ a ∈ addresses, (heap.read a).isSome) :
    ∃ heap', addresses.foldlM free heap = some heap' ∧
      ∀ b, heap'.read b = if b ∈ addresses then none else heap.read b := by
  induction addresses generalizing heap with
  | nil => exact ⟨heap, rfl, fun b => by simp⟩
  | cons a addresses ih =>
      rw [List.nodup_cons] at hn
      rw [List.forall_mem_cons] at h
      obtain ⟨heap₁, hfree, hread⟩ := free_eq h.1
      have hlive : ∀ b ∈ addresses, (heap₁.read b).isSome := by
        intro b hb
        rw [hread, if_neg (by rintro rfl; exact hn.1 hb)]
        exact h.2 b hb
      obtain ⟨heap₂, hrest, hread'⟩ := ih hn.2 hlive
      refine ⟨heap₂, by rw [List.foldlM_cons, hfree, Option.bind_eq_bind, Option.bind_some, hrest], ?_⟩
      intro b
      rw [hread', hread]
      by_cases hba : b = a <;> by_cases hbs : b ∈ addresses <;> simp [hba, hbs]

def Extends (heap heap' : Heap β) : Prop :=
  ∀ a block, heap.read a = some block → heap'.read a = some block

theorem Extends.refl (heap : Heap β) : heap.Extends heap := fun _ _ h => h

theorem Extends.trans {heap heap' heap'' : Heap β} (h : heap.Extends heap')
    (h' : heap'.Extends heap'') : heap.Extends heap'' :=
  fun a block hr => h' a block (h a block hr)

/-- The blocks in use are divided among owners, each of which lists its own once. -/
structure OwnedBy (heap : Heap β) (owns : ι → List Nat) : Prop where
  nodup : ∀ i, (owns i).Nodup
  exclusive : ∀ {i j a}, a ∈ owns i → a ∈ owns j → i = j
  live : ∀ a, (heap.read a).isSome ↔ ∃ i, a ∈ owns i

theorem ownedBy_empty : (empty : Heap β).OwnedBy (fun _ : ι => []) :=
  ⟨fun _ => List.nodup_nil, fun h => absurd h List.not_mem_nil, fun a => by simp⟩

theorem OwnedBy.congr {heap heap' : Heap β} {owns : ι → List Nat} (h : heap.OwnedBy owns)
    (hr : ∀ a, (heap'.read a).isSome ↔ (heap.read a).isSome) : heap'.OwnedBy owns :=
  ⟨h.nodup, h.exclusive, fun a => (hr a).trans (h.live a)⟩

section

variable [DecidableEq ι] {heap : Heap β} {owns : ι → List Nat}

theorem OwnedBy.alloc (h : heap.OwnedBy owns) (i : ι) (block : β) :
    (heap.alloc block).1.OwnedBy
      (Function.update owns i (owns i ++ [(heap.alloc block).2])) := by
  have hfresh : ∀ j, (heap.alloc block).2 ∉ owns j := by
    intro j hj
    have hsome := (h.live _).mpr ⟨j, hj⟩
    rw [read_alloc_none] at hsome
    cases hsome
  have hmem : ∀ j a, a ∈ Function.update owns i (owns i ++ [(heap.alloc block).2]) j ↔
      a ∈ owns j ∨ j = i ∧ a = (heap.alloc block).2 := by
    intro j a
    by_cases hj : j = i
    · subst hj; simp
    · simp [hj]
  refine ⟨fun j => ?_, fun {j k a} hj hk => ?_, fun a => ?_⟩
  · by_cases hj : j = i
    · subst hj
      rw [Function.update_self]
      exact List.nodup_append_comm.mp (List.nodup_cons.mpr ⟨hfresh j, h.nodup j⟩)
    · rw [Function.update_of_ne hj]
      exact h.nodup j
  · rcases (hmem j a).mp hj with hj' | ⟨rfl, rfl⟩ <;>
      rcases (hmem k _).mp hk with hk' | ⟨rfl, hk'⟩
    · exact h.exclusive hj' hk'
    · exact absurd (hk' ▸ hj') (hfresh j)
    · exact absurd hk' (hfresh k)
    · rfl
  · simp only [hmem, read_alloc]
    split_ifs with ha
    · simp [ha]
    · simp [ha, h.live]

theorem OwnedBy.give (h : heap.OwnedBy owns) {i j : ι} (hij : i ≠ j) :
    heap.OwnedBy (Function.update (Function.update owns i []) j (owns j ++ owns i)) := by
  have hmem : ∀ k a, a ∈ Function.update (Function.update owns i []) j (owns j ++ owns i) k ↔
      k ≠ i ∧ a ∈ owns k ∨ k = j ∧ a ∈ owns i := by
    intro k a
    by_cases hj : k = j
    · subst hj; simp [hij.symm]
    · by_cases hi : k = i
      · subst hi; simp [hj]
      · simp [hj, hi]
  refine ⟨fun k => ?_, fun {k l a} hk hl => ?_, fun a => ?_⟩
  · by_cases hj : k = j
    · subst hj
      rw [Function.update_self]
      exact (h.nodup k).append (h.nodup i) fun a hk hi => hij (h.exclusive hi hk)
    · by_cases hi : k = i
      · subst hi; simp [hj]
      · rw [Function.update_of_ne hj, Function.update_of_ne hi]
        exact h.nodup k
  · rcases (hmem k a).mp hk with ⟨hki, hk'⟩ | ⟨rfl, hk'⟩ <;>
      rcases (hmem l a).mp hl with ⟨hli, hl'⟩ | ⟨rfl, hl'⟩
    · exact h.exclusive hk' hl'
    · exact absurd (h.exclusive hk' hl') hki
    · exact absurd (h.exclusive hl' hk') hli
    · rfl
  · rw [h.live]
    constructor
    · rintro ⟨k, hk⟩
      by_cases hi : k = i
      · exact ⟨j, (hmem j a).mpr (.inr ⟨rfl, hi ▸ hk⟩)⟩
      · exact ⟨k, (hmem k a).mpr (.inl ⟨hi, hk⟩)⟩
    · rintro ⟨k, hk⟩
      rcases (hmem k a).mp hk with ⟨-, hk⟩ | ⟨-, hk⟩
      exacts [⟨k, hk⟩, ⟨i, hk⟩]

theorem OwnedBy.freeAll (h : heap.OwnedBy owns) (i : ι) :
    ∃ heap', (owns i).foldlM free heap = some heap' ∧
      heap'.OwnedBy (Function.update owns i []) ∧
      ∀ j, j ≠ i → ∀ a ∈ owns j, heap'.read a = heap.read a := by
  obtain ⟨heap', hfree, hread⟩ := freeAll_eq (h.nodup i) fun a ha => (h.live a).mpr ⟨i, ha⟩
  have hmem : ∀ j a, a ∈ Function.update owns i [] j ↔ j ≠ i ∧ a ∈ owns j := by
    intro j a
    by_cases hj : j = i
    · subst hj; simp
    · simp [hj]
  refine ⟨heap', hfree, ⟨fun j => ?_, fun {j k a} hj hk => ?_, fun a => ?_⟩, fun j hj a ha => ?_⟩
  · by_cases hj : j = i
    · subst hj; simp
    · rw [Function.update_of_ne hj]
      exact h.nodup j
  · exact h.exclusive ((hmem j a).mp hj).2 ((hmem k a).mp hk).2
  · rw [hread]
    simp only [hmem]
    split_ifs with ha
    · have hnone : ∀ j, j ≠ i → a ∉ owns j := fun j hj ha' => hj (h.exclusive ha' ha)
      simpa using hnone
    · rw [h.live]
      exact exists_congr fun j => ⟨fun hj => ⟨by rintro rfl; exact ha hj, hj⟩, fun hj => hj.2⟩
  · rw [hread, if_neg fun ha' => hj (h.exclusive ha ha')]

end

end Heap

end MysqlPlugin
