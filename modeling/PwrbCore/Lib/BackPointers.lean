/-
  Lib.BackPointers — A VECTOR WHOSE ELEMENTS KNOW THEIR PLACE.

  Elements stand in a vector in any order, and each remembers its index, so that it can be
  removed in constant time: swapped to the end and popped.  `Indexed` says that vector and memory
  agree; it is kept by appending, swapping two places and popping.
-/
import Mathlib.Data.List.Basic

namespace PwrbCore

open Function

variable {κ : Type} {v : List κ} {pos : κ → Option Int} {k a b : κ} {i j : Nat}

/-- Each element remembers its index, and what remembers an index stands there. -/
structure Indexed (v : List κ) (pos : κ → Option Int) : Prop where
  remembers : ∀ (i : Nat) k, v[i]? = some k → pos k = some (i : Int)
  stands : ∀ k p, pos k = some p → 0 ≤ p ∧ v[p.toNat]? = some k

namespace Indexed

theorem index_unique (h : Indexed v pos) (hi : v[i]? = some k) (hj : v[j]? = some k) : i = j := by
  have hp := h.remembers i k hi
  rw [h.remembers j k hj] at hp
  have heq : (j : Int) = i := Option.some.inj hp
  omega

variable [DecidableEq κ]

theorem push (h : Indexed v pos) (hnew : pos k = none) : Indexed (v ++ [k]) (update pos k (some (v.length : Int))) := by
  have hbefore : ∀ (i : Nat) k', v[i]? = some k' → k' ≠ k := by
    intro i k' hk' heq
    subst heq
    rw [h.remembers i k' hk'] at hnew
    cases hnew
  constructor
  · intro i k' hk'
    rw [List.getElem?_append] at hk'
    split_ifs at hk' with hlt
    · rw [update_of_ne (hbefore i k' hk')]
      exact h.remembers i k' hk'
    grind
  · intro k' p hp
    by_cases hk : k' = k
    · grind
    rw [update_of_ne hk] at hp
    obtain ⟨hpos, hget⟩ := h.stands k' p hp
    refine ⟨hpos, ?_⟩
    rw [List.getElem?_append_left (List.getElem?_eq_some_iff.mp hget).1]
    exact hget

theorem swap (h : Indexed v pos) (hi : v[i]? = some a) (hj : v[j]? = some b) (hne : i ≠ j) :
    Indexed ((v.set i b).set j a) (update (update pos a (some (j : Int))) b (some (i : Int))) := by
  have hab : a ≠ b := fun heq => hne (h.index_unique hi (heq ▸ hj))
  -- who stands where after the exchange
  have hget : ∀ n : Nat, ((v.set i b).set j a)[n]? = if n = j then some a else if n = i then some b else v[n]? := by
    grind
  constructor
  · intro n k hk
    rw [hget] at hk
    split_ifs at hk with hnj hni
    · cases hk
      rw [hnj, update_of_ne hab, update_self]
    · cases hk
      rw [hni, update_self]
    have hka : k ≠ a := fun heq => hni (h.index_unique (heq ▸ hk) hi)
    have hkb : k ≠ b := fun heq => hnj (h.index_unique (heq ▸ hk) hj)
    rw [update_of_ne hkb, update_of_ne hka]
    exact h.remembers n k hk
  · intro k p hp
    by_cases hkb : k = b
    · subst hkb
      rw [update_self] at hp
      cases hp
      refine ⟨Int.natCast_nonneg _, ?_⟩
      rw [hget, Int.toNat_natCast, if_neg hne, if_pos rfl]
    · rw [update_of_ne hkb] at hp
      by_cases hka : k = a
      · subst hka
        rw [update_self] at hp
        cases hp
        refine ⟨Int.natCast_nonneg _, ?_⟩
        rw [hget, Int.toNat_natCast, if_pos rfl]
      · rw [update_of_ne hka] at hp
        obtain ⟨hpos, hstands⟩ := h.stands k p hp
        refine ⟨hpos, ?_⟩
        have hpj : p.toNat ≠ j := by
          intro heq
          rw [heq, hj] at hstands
          exact hkb (Option.some.inj hstands).symm
        have hpi : p.toNat ≠ i := by
          intro heq
          rw [heq, hi] at hstands
          exact hka (Option.some.inj hstands).symm
        rw [hget, if_neg hpj, if_neg hpi]
        exact hstands

theorem pop (h : Indexed v pos) (hlast : v[v.length - 1]? = some k) : Indexed v.dropLast (update pos k none) := by
  constructor
  · grind [h.index_unique, h.remembers]
  intro k' p hp
  have hne : k' ≠ k := by
    intro heq
    rw [heq, update_self] at hp
    cases hp
  rw [update_of_ne hne] at hp
  obtain ⟨hpos, hstands⟩ := h.stands k' p hp
  grind

end Indexed

end PwrbCore
