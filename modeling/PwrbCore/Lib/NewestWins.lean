/-
  Lib.NewestWins — A MAP THAT KEEPS THE NEWEST MESSAGE FOR EACH KEY.

  Messages have a key and a time.  A message replaces the one stored under its key if it is
  newer by at least `gap`; the first message of a key is always stored.

  Main results: `foldl_offer_of_newest`, `foldl_offer_of_stuck`.
-/
import PwrbCore.Lib.StdMap

namespace NewestWins

variable {κ μ : Type} [DecidableEq κ] (key : μ → κ) (time : μ → Int) (gap : Int)

def offer (m : StdMap κ μ) (x : μ) : StdMap κ μ :=
  match m.get (key x) with
  | some y => if time y + gap ≤ time x then m.set (key x) x else m
  | none => m.set (key x) x

/-- The message is newer by the gap than every other message of its key. -/
structure Newest (S : List μ) (x : μ) : Prop where
  mem : x ∈ S
  spaced : ∀ y ∈ S, key y = key x → y = x ∨ time y + gap ≤ time x

variable {key time gap}

variable {m : StdMap κ μ} {x y : μ} {k : κ} {xs : List μ}

theorem get_offer_of_ne (h : k ≠ key x) : (offer key time gap m x).get k = m.get k := by
  unfold offer
  split
  · split_ifs
    · exact StdMap.get_set_of_ne m x h
    · rfl
  · exact StdMap.get_set_of_ne m x h

theorem get_offer (h : (offer key time gap m x).get k = some y) : (y = x ∧ k = key x) ∨ m.get k = some y := by
  by_cases hk : k = key x
  · subst hk
    unfold offer at h
    split at h
    · split_ifs at h
      · rw [StdMap.get_set_self] at h
        exact .inl ⟨(Option.some.inj h).symm, rfl⟩
      · exact .inr h
    · rw [StdMap.get_set_self] at h
      exact .inl ⟨(Option.some.inj h).symm, rfl⟩
  · rw [get_offer_of_ne hk] at h
    exact .inr h

theorem get_offer_self (h : ∀ y, m.get (key x) = some y → y = x ∨ time y + gap ≤ time x) :
    (offer key time gap m x).get (key x) = some x := by
  unfold offer
  cases hget : m.get (key x) with
  | none => exact StdMap.get_set_self m _ _
  | some y =>
    dsimp only
    split_ifs with hgap
    · exact StdMap.get_set_self m _ _
    · rw [hget]
      exact congrArg some ((h y hget).resolve_right hgap)

theorem get_offer_of_stuck (hy : m.get k = some y)
    (hold : key x = k → ¬ time y + gap ≤ time x) : (offer key time gap m x).get k = some y := by
  by_cases hk : k = key x
  · subst hk
    unfold offer
    rw [hy]
    dsimp only
    rw [if_neg (hold rfl)]
    exact hy
  · rw [get_offer_of_ne hk]
    exact hy

/-- A stored message stays while nothing newer by the gap is delivered. -/
theorem foldl_offer_of_stuck (hy : m.get k = some y) (hold : ∀ x ∈ xs, key x = k → ¬ time y + gap ≤ time x) :
    (xs.foldl (offer key time gap) m).get k = some y :=
  List.foldlRecOn (motive := fun m : StdMap κ μ => m.get k = some y) xs _ hy fun _ hm x hx =>
    get_offer_of_stuck hm (hold x hx)

theorem foldl_offer_of_unused (h : ∀ x ∈ xs, key x ≠ k) : (xs.foldl (offer key time gap) m).get k = m.get k := by
  induction xs generalizing m with
  | nil => rfl
  | cons x xs ih =>
    simp_all [get_offer_of_ne, Ne.symm]

/-- **The newest message is stored**, in whatever order and however often they come. -/
theorem foldl_offer_of_newest {S : List μ} (hgap : 0 < gap)
    (hx : Newest key time gap S x) (hsub : ∀ y ∈ xs, y ∈ S)
    (hstored : ∀ y, m.get (key x) = some y → y ∈ S ∧ key y = key x)
    (hcomes : x ∈ xs ∨ m.get (key x) = some x) : (xs.foldl (offer key time gap) m).get (key x) = some x := by
  induction xs generalizing m with
  | nil =>
    rcases hcomes with hcomes | hcomes
    · cases hcomes
    · exact hcomes
  | cons z xs ih =>
    -- what is stored after the first message still belongs to the set
    have hstored' : ∀ y, (offer key time gap m z).get (key x) = some y → y ∈ S ∧ key y = key x := by
      intro y hy
      rcases get_offer hy with ⟨rfl, hk⟩ | hold
      · exact ⟨hsub y List.mem_cons_self, hk.symm⟩
      · exact hstored y hold
    refine ih (fun y hy => hsub y (List.mem_cons_of_mem z hy)) hstored' ?_
    by_cases hz : z = x
    · subst hz
      right
      apply get_offer_self
      intro y hy
      obtain ⟨hyS, hyk⟩ := hstored y hy
      exact hx.spaced y hyS hyk
    · rcases hcomes with hcomes | hcomes
      · rcases List.mem_cons.mp hcomes with h | h
        · exact absurd h.symm hz
        · exact .inl h
      · right
        apply get_offer_of_stuck hcomes
        intro hk hnewer
        rcases hx.spaced z (hsub z List.mem_cons_self) hk with h | h
        · exact hz h
        · omega

end NewestWins
