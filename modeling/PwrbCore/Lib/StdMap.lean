/-
  Lib.StdMap — FINITE MAPS with the operations of `std::map`: lookup, assignment, `insert` that keeps an
  existing entry, `erase`.

  A map is an association list without duplicate keys.  Everything is said through
  `get`: one equation for each operation.  `sumBy` adds something up over the entries.
-/
import Mathlib.Algebra.BigOperators.Group.List.Basic
import Mathlib.Data.List.AList

/-- A finite map from `κ` to `ν`. -/
abbrev StdMap (κ ν : Type) := AList fun _ : κ => ν

namespace StdMap

open List AList

variable {κ ν : Type} [DecidableEq κ]

section

variable (m : StdMap κ ν)

/-- `m[k]`, `none` where there is no entry. -/
def get (k : κ) : Option ν := AList.lookup k m

/-- `m[k] = v`. -/
def set (k : κ) (v : ν) : StdMap κ ν := AList.insert k v m

/-- `m.erase(k)`. -/
def remove (k : κ) : StdMap κ ν := AList.erase k m

/-- `m.insert({k, v})`: an entry that exists stays. -/
def insertNew (k : κ) (v : ν) : StdMap κ ν :=
  match m.get k with
  | some _ => m
  | none => m.set k v

/-- `m.erase(k)` for each key of a list. -/
def removeAll (ks : List κ) : StdMap κ ν := ks.foldl remove m

/-- `m[k] = v` for each pair of a list. -/
def setAll (kvs : List (κ × ν)) : StdMap κ ν :=
  kvs.foldl (fun m kv => m.set kv.1 kv.2) m

/-- The sum of `f` over the entries. -/
def sumBy {M : Type} [AddCommMonoid M] (f : ν → M) (m : StdMap κ ν) : M :=
  (m.entries.map fun e => f e.2).sum

@[simp] theorem get_empty (k : κ) : (∅ : StdMap κ ν).get k = none := rfl

theorem get_set (k k' : κ) (v : ν) : (m.set k v).get k' = if k' = k then some v else m.get k' := by
  split_ifs with h
  · subst h
    exact lookup_insert m
  · exact lookup_insert_ne h

theorem get_remove (k k' : κ) : (m.remove k).get k' = if k' = k then none else m.get k' := by
  split_ifs with h
  · subst h
    exact lookup_erase _ _
  · exact lookup_erase_ne h

theorem get_insertNew (k k' : κ) (v : ν) :
    (m.insertNew k v).get k' = if k' = k then some ((m.get k).getD v) else m.get k' := by
  unfold insertNew
  cases hk : m.get k with
  | some v' =>
    split_ifs with h
    · subst h
      exact hk
    · rfl
  | none => exact get_set m k k' v

theorem get_set_self (k : κ) (v : ν) : (m.set k v).get k = some v := by
  rw [get_set, if_pos rfl]

end

variable {k : κ} {m : StdMap κ ν} {v : ν}

theorem get_set_of_ne (m : StdMap κ ν) {k' : κ} (v : ν) (h : k' ≠ k) : (m.set k v).get k' = m.get k' := by
  rw [get_set, if_neg h]

theorem set_set (m : StdMap κ ν) (k : κ) (v v' : ν) : (m.set k v).set k v' = m.set k v' :=
  insert_insert m

theorem remove_set (v : ν) (h : m.get k = none) : (m.set k v).remove k = m := by
  have hnot : k ∉ m.entries.keys := lookup_eq_none.mp h
  apply ext
  calc (⟨k, v⟩ :: m.entries.kerase k : List (Sigma fun _ : κ => ν)).kerase k
      = m.entries.kerase k := kerase_cons_eq rfl
    _ = m.entries := kerase_of_notMem_keys hnot

theorem get_removeAll (m : StdMap κ ν) (ks : List κ) (k : κ) :
    (m.removeAll ks).get k = if k ∈ ks then none else m.get k := by
  induction ks generalizing m with
  | nil => rfl
  | cons k' ks ih =>
    show ((m.remove k').removeAll ks).get k = _
    rw [ih, get_remove]
    by_cases hks : k ∈ ks
    · rw [if_pos hks, if_pos (mem_cons_of_mem k' hks)]
    · simp_all

theorem get_setAll_of_not_mem {kvs : List (κ × ν)} (h : k ∉ kvs.map Prod.fst) : (m.setAll kvs).get k = m.get k := by
  induction kvs generalizing m with
  | nil => rfl
  | cons kv kvs ih =>
    rw [map_cons, mem_cons, not_or] at h
    show ((m.set kv.1 kv.2).setAll kvs).get k = _
    rw [ih h.2, get_set, if_neg h.1]

theorem get_setAll_of_mem {kvs : List (κ × ν)}
    (hnodup : (kvs.map Prod.fst).Nodup) (h : (k, v) ∈ kvs) : (m.setAll kvs).get k = some v := by
  induction kvs generalizing m with
  | nil => cases h
  | cons kv kvs ih =>
    rw [map_cons, nodup_cons] at hnodup
    show ((m.set kv.1 kv.2).setAll kvs).get k = _
    rcases mem_cons.mp h with rfl | h
    · rw [get_setAll_of_not_mem hnodup.1, get_set_self]
    · exact ih hnodup.2 h

theorem sumBy_set {M : Type} [AddCommMonoid M] (f : ν → M) (v : ν)
    (h : m.get k = none) : sumBy f (m.set k v) = f v + sumBy f m := by
  have hnot : k ∉ m := lookup_eq_none.mp h
  unfold sumBy set
  rw [entries_insert_of_notMem hnot, map_cons, sum_cons]

theorem perm_remove (h : m.get k = some v) : m.entries ~ ⟨k, v⟩ :: (m.remove k).entries := by
  classical
  have hperm := perm_cons_erase (mem_lookup_iff.mp h)
  exact hperm.trans (((hperm.kerase m.nodupKeys).trans (.of_eq (kerase_cons_eq rfl))).symm.cons _)

theorem sumBy_remove {M : Type} [AddCommMonoid M] (f : ν → M)
    (h : m.get k = some v) : f v + sumBy f (m.remove k) = sumBy f m :=
  (((perm_remove h).map fun e : Sigma fun _ : κ => ν => f e.2).sum_eq).symm

theorem sumBy_set_of_get {M : Type} [AddCommMonoid M] (f : ν → M) (v' : ν)
    (h : m.get k = some v) : f v + sumBy f (m.set k v') = f v' + sumBy f m := by
  have hset : sumBy f (m.set k v') = f v' + sumBy f (m.remove k) := rfl
  rw [hset, ← sumBy_remove f h, add_left_comm]

theorem mem_entries_iff : (⟨k, v⟩ : Sigma fun _ : κ => ν) ∈ m.entries ↔ m.get k = some v := by
  exact mem_lookup_iff.symm

theorem sumBy_eq_zero {M : Type} [AddCommMonoid M] {f : ν → M} (h : ∀ k v, m.get k = some v → f v = 0) :
    sumBy f m = 0 := by
  apply sum_eq_zero
  intro x hx
  obtain ⟨e, he, rfl⟩ := mem_map.mp hx
  exact h e.1 e.2 (mem_entries_iff.mp he)

theorem sumBy_removeAll {M : Type} [AddCommMonoid M] {f : ν → M} {ks : List κ}
    (h : ∀ k ∈ ks, ∀ v, m.get k = some v → f v = 0) : sumBy f (m.removeAll ks) = sumBy f m := by
  induction ks generalizing m with
  | nil => rfl
  | cons k ks ih =>
    have hfirst : sumBy f (m.remove k) = sumBy f m := by
      cases hk : m.get k with
      | none =>
        have hsame : m.remove k = m := ext (kerase_of_notMem_keys (lookup_eq_none.mp hk))
        rw [hsame]
      | some v => rw [← sumBy_remove f hk, h k mem_cons_self v hk, zero_add]
    have hrest : sumBy f ((m.remove k).removeAll ks) = sumBy f (m.remove k) := by
      refine ih fun k' hk' v hv => ?_
      rw [get_remove] at hv
      split_ifs at hv
      exact h k' (mem_cons_of_mem k hk') v hv
    exact hrest.trans hfirst

def mapVal (f : κ → ν → ν) (m : StdMap κ ν) : StdMap κ ν :=
  ⟨m.entries.map fun s => ⟨s.1, f s.1 s.2⟩, m.nodupKeys.map₂ f⟩

theorem get_mapVal (f : κ → ν → ν) (m : StdMap κ ν) (k : κ) : (m.mapVal f).get k = (m.get k).map (f k) :=
  dlookup_map₂ k

theorem mem_keys_iff : k ∈ m.keys ↔ ∃ v, m.get k = some v := by
  rw [← Option.isSome_iff_exists]
  exact lookup_isSome.symm

/-- **A loop over the entries that changes one key at a time.** If each turn can be made (`P`) and leaves `g` of what
was there, so does the loop. -/
theorem foldlM_entries {μ : Type} {f : StdMap κ μ → κ → ν → Option (StdMap κ μ)} {g : Option μ → ν → Option μ}
    {P : Option μ → ν → Prop} (hf : ∀ us k v, P (us.get k) v → ∃ us', f us k v = some us' ∧
      ∀ k', us'.get k' = if k' = k then g (us.get k) v else us.get k')
    (m : StdMap κ ν) (us : StdMap κ μ) (hok : ∀ k v, m.get k = some v → P (us.get k) v) :
    ∃ us', m.entries.foldlM (fun us e => f us e.1 e.2) us = some us' ∧
      ∀ k, us'.get k = match m.get k with | some v => g (us.get k) v | none => us.get k := by
  suffices hlist : ∀ (es : List (Sigma fun _ : κ => ν)) (us : StdMap κ μ), es.NodupKeys →
      (∀ k v, es.dlookup k = some v → P (us.get k) v) →
      ∃ us', es.foldlM (fun us e => f us e.1 e.2) us = some us' ∧
        ∀ k, us'.get k = match es.dlookup k with | some v => g (us.get k) v | none => us.get k from
    hlist m.entries us m.nodupKeys hok
  intro es
  induction es with
  | nil => intro us _ _; exact ⟨us, rfl, fun k => rfl⟩
  | cons e es ih =>
    intro us hnodup hok
    obtain ⟨hnew, hrest⟩ := nodupKeys_cons.mp hnodup
    obtain ⟨k0, v0⟩ := e
    obtain ⟨us1, hus1, hget1⟩ := hf us k0 v0 (hok k0 v0 (dlookup_cons_eq es k0 v0))
    have hnone : es.dlookup k0 = none := dlookup_eq_none.mpr hnew
    -- the other keys are as they were
    have hok1 : ∀ k v, es.dlookup k = some v → P (us1.get k) v := by grind
    obtain ⟨us', hus', hget'⟩ := ih us1 hrest hok1
    refine ⟨us', ?_, ?_⟩
    · rw [foldlM_cons, hus1]
      exact hus'
    · grind

end StdMap
