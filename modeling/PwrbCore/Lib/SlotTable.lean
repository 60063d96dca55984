/-
  Lib.SlotTable — TABLES OF BUCKETS WITH SLOTS.

  A table holds one key in each slot of each bucket.  A key that has its place in each bucket
  can be in a table several times, once a bucket; `refs` counts how often.  The rest says how
  the count changes when a slot is written or all slots of a key are cleared, and what a walk
  over all slots finds.
-/
import Mathlib.Data.List.ProdSigma
import Mathlib.Data.Fintype.EquivFin
import Mathlib.Algebra.BigOperators.Group.List.Basic

namespace PwrbCore

open List

/-- A key in each slot `π` of each bucket `β`. -/
abbrev SlotTable (β π κ : Type) := β → π → κ

namespace SlotTable

variable {β π κ : Type}

section Set

variable [DecidableEq β] [DecidableEq π]

/-- `t[b][p] = k`. -/
def set (t : SlotTable β π κ) (b : β) (p : π) (k : κ) : SlotTable β π κ :=
  fun b' p' => if b' = b ∧ p' = p then k else t b' p'

theorem set_self (t : SlotTable β π κ) (b : β) (p : π) (k : κ) : t.set b p k b p = k := if_pos ⟨rfl, rfl⟩

theorem set_of_ne {t : SlotTable β π κ} {b b' : β} {p p' : π} {k : κ} (h : ¬ (b' = b ∧ p' = p)) :
    t.set b p k b' p' = t b' p' := if_neg h

end Set

variable [DecidableEq κ]

/-! ## §1. How often a key is in a table. -/

section Refs

variable [Fintype β] {t : SlotTable β π κ} {place : β → π} {b : β} {p : π} {k k' : κ}

def refs (t : SlotTable β π κ) (place : β → π) (k : κ) : Nat :=
  (Finset.univ.filter fun b => t b (place b) = k).card

theorem refs_congr {t' : SlotTable β π κ} (h : ∀ b, t' b (place b) = k ↔ t b (place b) = k) :
    refs t' place k = refs t place k := by
  unfold refs
  congr 1
  ext b
  rw [Finset.mem_filter, Finset.mem_filter, h]

theorem refs_pos (h : t b (place b) = k) : 0 < refs t place k :=
  Finset.card_pos.mpr ⟨b, Finset.mem_filter.mpr ⟨Finset.mem_univ b, h⟩⟩

theorem refs_eq_zero (h : ∀ b, t b (place b) ≠ k) : refs t place k = 0 := by
  unfold refs
  rw [Finset.card_eq_zero, Finset.filter_eq_empty_iff]
  exact fun b _ => h b

variable [DecidableEq β] [DecidableEq π]

theorem refs_set_self (h : t b (place b) ≠ k) : refs (t.set b (place b) k) place k = refs t place k + 1 := by
  have hsplit : (Finset.univ.filter fun b' => t.set b (place b) k b' (place b') = k)
      = insert b (Finset.univ.filter fun b' => t b' (place b') = k) := by
    grind [set_self, set_of_ne]
  unfold refs
  rw [hsplit, Finset.card_insert_of_notMem]
  simpa using h

theorem refs_set_of_eq (h : t b (place b) = k) (hne : k' ≠ k) :
    refs (t.set b (place b) k') place k + 1 = refs t place k := by
  have hsplit : (Finset.univ.filter fun b' => t.set b (place b) k' b' (place b') = k)
      = (Finset.univ.filter fun b' => t b' (place b') = k).erase b := by
    grind [set_self, set_of_ne]
  unfold refs
  rw [hsplit, Finset.card_erase_add_one]
  simpa using h

theorem refs_set_of_ne (h : t b p ≠ k) (hne : k' ≠ k) : refs (t.set b p k') place k = refs t place k := by
  apply refs_congr
  intro b'
  by_cases hslot : b' = b ∧ place b' = p
  · obtain ⟨rfl, rfl⟩ := hslot
    rw [set_self]
    exact ⟨fun heq => absurd heq hne, fun heq => absurd heq h⟩
  · rw [set_of_ne hslot]

end Refs

/-! ## §2. Clearing all slots of a key. -/

section Clear

variable [DecidableEq β] [DecidableEq π]

/-- One turn of a loop that clears the places of `k` and counts down. -/
def clearStep (place : β → π) (k empty : κ) (acc : SlotTable β π κ × Int) (b : β) : SlotTable β π κ × Int :=
  if acc.1 b (place b) = k then (acc.1.set b (place b) empty, acc.2 - 1) else acc

/-- The loop over some buckets clears the places of `k` in these. -/
theorem foldl_clearStep (place : β → π) (k empty : κ) (t : SlotTable β π κ) (n : Int) (bs : List β)
    (hnodup : bs.Nodup) : (∀ b p, (bs.foldl (clearStep place k empty) (t, n)).1 b p
        = if b ∈ bs ∧ p = place b ∧ t b p = k then empty else t b p) ∧
      (bs.foldl (clearStep place k empty) (t, n)).2 = n - (bs.countP fun b => t b (place b) = k : Nat) := by
  induction bs using reverseRecOn with
  | nil => simp
  | append_singleton bs b0 ih =>
    rw [nodup_append] at hnodup
    obtain ⟨htable, hcount⟩ := ih hnodup.1
    -- the turns before have left the place in this bucket alone
    have hhere : (bs.foldl (clearStep place k empty) (t, n)).1 b0 (place b0) = t b0 (place b0) := by
      rw [htable, if_neg fun h => hnodup.2.2 b0 h.1 b0 mem_cons_self rfl]
    rw [foldl_concat, clearStep, hhere, countP_append, countP_singleton]
    by_cases hb : t b0 (place b0) = k
    · rw [if_pos hb, if_pos (decide_eq_true hb)]
      refine ⟨fun b p => ?_, by omega⟩
      show set _ b0 (place b0) empty b p = _
      unfold set
      grind
    · rw [if_neg hb, if_neg (by simpa using hb)]
      refine ⟨fun b p => ?_, hcount⟩
      grind

end Clear

/-! ## §3. Walking over the slots. -/

section Keys

variable {t : SlotTable β π κ} {k empty : κ} {slots : List (β × π)} {c : β × π}

/-- The keys in some slots, slot after slot. -/
def keysIn (t : SlotTable β π κ) (empty : κ) (slots : List (β × π)) : List κ :=
  (slots.filter fun c => t c.1 c.2 ≠ empty).map fun c => t c.1 c.2

theorem keysIn_cons_of_eq (h : t c.1 c.2 = empty) : keysIn t empty (c :: slots) = keysIn t empty slots := by
  simp [keysIn, h]

theorem keysIn_cons_of_ne (h : t c.1 c.2 ≠ empty) :
    keysIn t empty (c :: slots) = t c.1 c.2 :: keysIn t empty slots := by
  simp [keysIn, h]

theorem mem_keysIn : k ∈ keysIn t empty slots ↔ k ≠ empty ∧ ∃ c ∈ slots, t c.1 c.2 = k := by
  unfold keysIn
  simp only [mem_map, mem_filter, decide_eq_true_eq]
  constructor
  · rintro ⟨c, ⟨hc, hne⟩, rfl⟩
    exact ⟨hne, c, hc, rfl⟩
  · rintro ⟨hne, c, hc, rfl⟩
    exact ⟨c, ⟨hc, hne⟩, rfl⟩

theorem count_keysIn (h : k ≠ empty) : (keysIn t empty slots).count k = slots.countP fun c => t c.1 c.2 = k := by
  unfold keysIn
  rw [count, countP_map, countP_filter]
  apply countP_congr
  simp +contextual [h]

theorem nodup_keysIn (hslots : slots.Nodup) (h : ∀ c c' : β × π, t c.1 c.2 ≠ empty → t c.1 c.2 = t c'.1 c'.2 → c = c') :
    (keysIn t empty slots).Nodup :=
  (hslots.filter _).map_on fun c hc c' _ heq => h c c' (by simpa using (mem_filter.mp hc).2) heq

end Keys

section Walk

variable [Fintype β] {t : SlotTable β π κ} {place : β → π} {k : κ} {bs : List β} {ps : List π}

theorem countP_eq_refs (hnodup : bs.Nodup) (hall : ∀ b, b ∈ bs) :
    bs.countP (fun b => t b (place b) = k) = refs t place k := by
  classical
  have hfilter : (Finset.univ.filter fun b => t b (place b) = k) = (bs.filter fun b => t b (place b) = k).toFinset := by
    ext b
    simp [hall b]
  unfold refs
  rw [hfilter, toFinset_card_of_nodup (hnodup.filter _), countP_eq_length_filter]

/-- A key that is only ever at its places is met `refs` times. -/
theorem countP_product_eq_refs (hbs : bs.Nodup) (hballs : ∀ b, b ∈ bs) (hps : ps.Nodup) (hpall : ∀ p, p ∈ ps)
    (hplace : ∀ b p, t b p = k → p = place b) : (bs ×ˢ ps).countP (fun c => t c.1 c.2 = k) = refs t place k := by
  rw [← countP_eq_refs hbs hballs, countP_eq_length_filter, countP_eq_length_filter,
    ← length_map fun b => (b, place b)]
  -- the slots that hold the key are its places
  refine Perm.length_eq ((perm_ext_iff_of_nodup ((hbs.product hps).filter _)
    ((hbs.filter _).map fun _ _ heq => congrArg Prod.fst heq)).mpr fun c => ?_)
  simp only [mem_filter, mem_map, hballs, decide_eq_true_eq, true_and]
  constructor
  · rintro ⟨-, hk⟩
    exact ⟨c.1, hplace _ _ hk ▸ hk, Prod.ext rfl (hplace _ _ hk).symm⟩
  · rintro ⟨b, hb, rfl⟩
    exact ⟨pair_mem_product.mpr ⟨hballs b, hpall _⟩, hb⟩

end Walk

end SlotTable

end PwrbCore
