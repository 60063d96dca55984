/-
  Lib.ParentTree — TREES GIVEN BY PARENT POINTERS.

  Keys have at most one parent each, and a parent is one lower than its child.  The path of
  a key is the walk from it to its root.

  Main results: `mem_path` (the path lists the ancestors), `Above.of_height_le` (the
  ancestors of a key are a chain), `path_eq_append` (the path splits at every ancestor),
  `exists_fork` (where two paths meet).
-/
import Mathlib.Logic.Relation
import Mathlib.Data.List.Nodup
import Mathlib.Data.List.TakeWhile

namespace PwrbCore.ParentTree

open List

/-! ## §1. Ancestors and paths. -/

section

variable {κ : Type}

/-- `a` is `k` or an ancestor of `k`. -/
def Above (parent : κ → Option κ) (a k : κ) : Prop :=
  Relation.ReflTransGen (fun x y => parent x = some y) k a

def walk (parent : κ → Option κ) : Nat → κ → List κ
  | 0, _ => []
  | n + 1, k =>
    k :: match parent k with
      | some p => walk parent n p
      | none => []

def path (parent : κ → Option κ) (height : κ → Nat) (k : κ) : List κ := walk parent (height k + 1) k

/-- A parent is one lower than its child. -/
def Ranked (parent : κ → Option κ) (height : κ → Nat) : Prop :=
  ∀ k p, parent k = some p → height k = height p + 1

variable {parent : κ → Option κ} {height : κ → Nat} {a b k p : κ}

theorem Above.refl (parent : κ → Option κ) (k : κ) : Above parent k k := Relation.ReflTransGen.refl

theorem Above.trans (h : Above parent a b) (h' : Above parent b k) : Above parent a k :=
  Relation.ReflTransGen.trans h' h

theorem Above.of_parent (hp : parent k = some p) (h : Above parent a p) : Above parent a k :=
  .head hp h

theorem Above.up (h : Above parent a k) (hp : parent a = some p) : Above parent p k :=
  .tail h hp

/-- An ancestor is the key itself or an ancestor of its parent. -/
theorem above_iff : Above parent a k ↔ a = k ∨ ∃ p, parent k = some p ∧ Above parent a p :=
  Relation.ReflTransGen.cases_head_iff.trans (or_congr_left eq_comm)

theorem Above.cases (h : Above parent a k) : a = k ∨ ∃ p, parent k = some p ∧ Above parent a p := above_iff.mp h

/-- Induction along the way up: what holds of a key holds of its parent. -/
theorem Above.holds {P : κ → Prop} (h : Above parent a k) (hk : P k)
    (step : ∀ x p, P x → parent x = some p → P p) : P a := by
  induction h with
  | refl => exact hk
  | tail _ hp ih => exact step _ _ ih hp

theorem path_of_parent (hr : Ranked parent height) (hp : parent k = some p) :
    path parent height k = k :: path parent height p := by
  unfold path
  rw [hr k p hp, walk, hp]

theorem path_of_root (hp : parent k = none) : path parent height k = [k] := by
  unfold path walk
  rw [hp]

theorem mem_path_self (parent : κ → Option κ) (height : κ → Nat) (k : κ) : k ∈ path parent height k := by
  exact mem_cons_self

end

/-! ## §2. Heights. -/

section

variable {κ : Type} {parent : κ → Option κ} {height : κ → Nat} {a b c k : κ}

section

variable (hr : Ranked parent height)
include hr

theorem Ranked.induction {P : κ → Prop} (step : ∀ k, (∀ p, parent k = some p → P p) → P k) (k : κ) : P k := by
  refine (measure height).wf.induction k fun k ih => step k fun p hp => ih p ?_
  show height p < height k
  rw [hr k p hp]
  exact Nat.lt_succ_self _

/-- **The path lists the ancestors.** -/
theorem mem_path : a ∈ path parent height k ↔ Above parent a k := by
  induction k using hr.induction with
  | step k ih =>
    cases hp : parent k with
    | none =>
      rw [path_of_root hp, mem_singleton, above_iff]
      simp [hp]
    | some p =>
      rw [path_of_parent hr hp, mem_cons, ih p hp, above_iff (k := k)]
      simp [hp]

theorem Above.height_le (h : Above parent a k) : height a ≤ height k := by
  refine h.holds (P := fun x => height x ≤ height k) (le_rfl) ?_
  intro x p hx hp
  have hheight := hr x p hp
  omega

theorem Above.eq_of_height (h : Above parent a k) (hh : height k ≤ height a) : a = k := by
  rcases h.cases with rfl | ⟨p, hp, h⟩
  · rfl
  · have hle := h.height_le hr
    have hheight := hr k p hp
    omega

theorem Above.antisymm (h : Above parent a k) (h' : Above parent k a) : a = k :=
  h.eq_of_height hr (h'.height_le hr)

/-- **The ancestors of a key are a chain.** -/
theorem Above.of_height_le (ha : Above parent a k) (hb : Above parent b k)
    (hle : height a ≤ height b) : Above parent a b := by
  induction k using hr.induction with
  | step k ih =>
    rcases hb.cases with rfl | ⟨p, hp, hb'⟩
    · exact ha
    rcases ha.cases with rfl | ⟨p', hp', ha'⟩
    · have hlow := hb'.height_le hr
      have hheight := hr _ p hp
      omega
    · rw [hp] at hp'
      cases hp'
      exact ih p hp ha' hb'

theorem Above.exists_height {n : Nat} (h : Above parent a k) (hlow : height a ≤ n)
    (hhigh : n ≤ height k) : ∃ b, Above parent b k ∧ height b = n := by
  induction k using hr.induction with
  | step k ih =>
    by_cases hk : height k = n
    · exact ⟨k, .refl parent k, hk⟩
    rcases h.cases with rfl | ⟨p, hp, h'⟩
    · omega
    · have hheight := hr k p hp
      obtain ⟨b, hb, hbn⟩ := ih p hp h' (by omega)
      exact ⟨b, hb.of_parent hp, hbn⟩

/-- Where the roots have height `0`, a path is as long as its key is high. -/
theorem length_path (hroot : ∀ k, parent k = none → height k = 0) : (path parent height k).length = height k + 1 := by
  induction k using hr.induction with
  | step k ih =>
    cases hp : parent k with
    | none =>
      rw [path_of_root hp, hroot k hp]
      rfl
    | some p => rw [path_of_parent hr hp, length_cons, ih p hp, hr k p hp]

theorem getLast?_path (h : Above parent a k) (hroot : parent a = none) : (path parent height k).getLast? = some a := by
  induction k using hr.induction with
  | step k ih =>
    rcases h.cases with rfl | ⟨p, hp, hap⟩
    · rw [path_of_root hroot]
      rfl
    · rw [path_of_parent hr hp, getLast?_cons, ih p hp hap]
      rfl

/-- **The path splits at every ancestor.** -/
theorem path_eq_append [DecidableEq κ] (h : Above parent a k) :
    path parent height k = (path parent height k).takeWhile (fun x => decide (x ≠ a)) ++ path parent height a := by
  induction k using hr.induction with
  | step k ih =>
    by_cases hk : k = a
    · grind [path, walk, takeWhile_cons_of_neg]
    · grind [h.cases, path_of_parent, takeWhile_cons_of_pos]

/-- What stands on the path before an ancestor descends from it. -/
theorem above_of_mem_takeWhile [DecidableEq κ] (h : Above parent a k)
    (hb : b ∈ (path parent height k).takeWhile fun x => decide (x ≠ a)) : Above parent a b := by
  induction k using hr.induction with
  | step k ih =>
    by_cases hk : k = a
    · grind [path, walk, takeWhile_cons_of_neg]
    · grind [h.cases, path_of_parent, takeWhile_cons_of_pos]

theorem lt_height_of_mem_takeWhile {n : Nat} {x : κ} (hn : n ≤ height k)
    (hx : x ∈ (path parent height k).takeWhile fun y => decide (height y ≠ n)) : n < height x := by
  induction k using hr.induction with
  | step k ih =>
    by_cases hk : height k = n
    · grind [path, walk, takeWhile_cons_of_neg]
    cases hp : parent k with
    | none =>
      have hx' := (takeWhile_sublist _).subset hx
      rw [path_of_root hp, mem_singleton] at hx'
      rw [hx']
      omega
    | some p =>
      have hheight := hr k p hp
      rw [path_of_parent hr hp, takeWhile_cons_of_pos (by simpa using hk), mem_cons] at hx
      rcases hx with rfl | hx
      · omega
      · exact ih p hp (by omega) hx

end

end

/-! ## §3. The fork of two paths. -/

section

variable {κ : Type} [DecidableEq κ] {parent : κ → Option κ} {height : κ → Nat} {k t : κ}

/-- **Where two paths meet.** Up from `k` the first key on the path of `t` is an ancestor of both, every other common
ancestor is above it, and what comes before it is what precedes it on the path. -/
theorem exists_fork (hr : Ranked parent height) {r : κ} (hk : Above parent r k) (ht : Above parent r t) :
    ∃ f, (path parent height k).find? (fun x => decide (x ∈ path parent height t)) = some f ∧
      Above parent f k ∧ Above parent f t ∧ (∀ c, Above parent c k → Above parent c t → Above parent c f) ∧
      (path parent height k).takeWhile (fun x => !decide (x ∈ path parent height t))
        = (path parent height k).takeWhile (fun x => decide (x ≠ f)) := by
  induction k using hr.induction with
  | step k ih =>
    by_cases hmem : Above parent k t
    · grind [path, walk, mem_path, takeWhile_cons_of_neg]
    have hpath : decide (k ∈ path parent height t) = false :=
      decide_eq_false fun h => hmem ((mem_path hr).mp h)
    rcases hk.cases with rfl | ⟨p, hp, hk'⟩
    · exact absurd ht hmem
    obtain ⟨f, hfind, hfp, hft, hmax, htake⟩ := ih p hp hk'
    refine ⟨f, ?_, hfp.of_parent hp, hft, fun c hc hct => ?_, ?_⟩
    · rw [path_of_parent hr hp, find?_cons_of_neg (by rw [hpath]; decide), hfind]
    · grind [hc.cases]
    · grind [path_of_parent, takeWhile_cons_of_pos]

end

/-! ## §4. Two trees that agree. -/

section

variable {κ : Type} {parent parent' : κ → Option κ} {height : κ → Nat} {a k : κ}

/-- Ancestors are the same where the parents of all ancestors are. -/
theorem Above.congr (h : Above parent a k) (hsame : ∀ x, Above parent x k → parent x = parent' x) :
    Above parent' a k := by
  induction h with
  | refl => exact .refl parent' k
  | tail hb hp ih =>
    rw [hsame _ hb] at hp
    exact .tail ih hp

/-- The walk is the same where the parents of all ancestors are. -/
theorem walk_congr {n : Nat} (hsame : ∀ x, Above parent x k → parent x = parent' x) :
    walk parent n k = walk parent' n k := by
  induction n generalizing k with
  | zero => rfl
  | succ n ih =>
    unfold walk
    rw [← hsame k (.refl parent k)]
    cases hp : parent k with
    | none => rfl
    | some p =>
      dsimp only
      rw [ih fun x hx => hsame x (hx.of_parent hp)]

end

end PwrbCore.ParentTree
