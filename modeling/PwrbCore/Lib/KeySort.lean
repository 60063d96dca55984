/-
  Lib.KeySort — SORTING BY A KEY (`std::sort` with a comparator on the first component).

  The sort may put elements with equal keys in any order, but it sees nothing of an element
  except its key.

  Main result: `order_ignored_iff`.
-/
import Mathlib.Data.List.Sort

namespace PwrbCore

open List

/-- **A sort by key**, largest first. -/
structure KeySort (κ α : Type) [LinearOrder κ] where
  sort : List (κ × α) → List (κ × α)
  perm : ∀ l, (sort l).Perm l
  sorted : ∀ l, (sort l).Pairwise fun a b => b.1 ≤ a.1
  /-- only keys are compared -/
  blind : ∀ (f : α → α) (l : List (κ × α)), sort (l.map (Prod.map id f)) = (sort l).map (Prod.map id f)

namespace KeySort

variable {κ α : Type} [LinearOrder κ]

/-- Insertion sort is one. -/
def insertion : KeySort κ α where
  sort := insertionSort fun a b => b.1 ≤ a.1
  perm := perm_insertionSort _
  sorted l := by
    exact pairwise_insertionSort _ l
  blind f l := (map_insertionSort (fun a b => b.1 ≤ a.1) (fun a b => b.1 ≤ a.1)
    (Prod.map id f) l fun _ _ _ _ => Iff.rfl).symm

variable (s : KeySort κ α) {l l' : List (κ × α)}

theorem sort_eq_of_perm (hkeys : (l.map Prod.fst).Nodup) (h : l'.Perm l) : s.sort l' = s.sort l := by
  have hinj := inj_on_of_nodup_map hkeys
  refine List.Perm.eq_of_pairwise (fun a b ha hb hba hab => ?_) (s.sorted l') (s.sorted l)
    ((s.perm l').trans (h.trans (s.perm l).symm))
  apply hinj (h.mem_iff.mp ((s.perm l').mem_iff.mp ha)) ((s.perm l).mem_iff.mp hb)
  exact le_antisymm hab hba

/-- **The order of the input.** -/
theorem order_ignored_iff [DecidableEq α] (hvals : (l.map Prod.snd).Nodup) :
    (∀ l', l'.Perm l → s.sort l' = s.sort l) ↔ (l.map Prod.fst).Nodup := by
  refine ⟨fun hall => ?_, fun hkeys l' h => s.sort_eq_of_perm hkeys h⟩
  have hnodup := List.Nodup.of_map _ hvals
  have hinj := inj_on_of_nodup_map hvals
  refine hnodup.map_on fun x hx y hy hkey => ?_
  by_contra hne
  -- exchange the two values: the list has the same elements
  let g : κ × α → κ × α := .map id (Equiv.swap x.2 y.2)
  have hg : Function.Injective g := .prodMap Function.injective_id (Equiv.injective _)
  have hsub : ∀ z ∈ l.map g, z ∈ l := by
    intro z hz
    obtain ⟨w, hw, rfl⟩ := mem_map.mp hz
    show (w.1, Equiv.swap x.2 y.2 w.2) ∈ l
    rw [Equiv.swap_apply_def]
    split_ifs with hwx hwy
    · rw [hinj hw hx hwx, hkey]
      exact hy
    · rw [hinj hw hy hwy, ← hkey]
      exact hx
    · exact hw
  have hperm : (l.map g).Perm l :=
    (subperm_of_subset (hnodup.map hg) hsub).perm_of_length_le (by rw [length_map])
  have hsame : (s.sort l).map g = s.sort l := (s.blind _ l).symm.trans (hall _ hperm)
  obtain ⟨i, hi, hat⟩ := getElem_of_mem ((s.perm l).mem_iff.mpr hx)
  have hfix : (s.sort l)[i]?.map g = (s.sort l)[i]? := by
    rw [← getElem?_map, hsame]
  rw [getElem?_eq_getElem hi, hat] at hfix
  have hval : y.2 = x.2 := (Equiv.swap_apply_left x.2 y.2).symm.trans (congrArg Prod.snd (Option.some.inj hfix))
  exact hne (Prod.ext hkey hval.symm)

end KeySort

end PwrbCore
