/-
  Lib.OrderedSet — THE LAST ELEMENT OF A SET WITH A COMPARATOR (`std::set<T, Compare>`, `rbegin`).

  The set is a list without an order of its own; the comparator says which element comes
  last.

  Main result: `last_spec`.
-/
import Mathlib.Tactic.Common

namespace PwrbCore.OrderedSet

/-- A comparator that puts any two different elements in an order. -/
structure StrictTotal {α : Type} (lt : α → α → Bool) : Prop where
  irrefl : ∀ a, lt a a = false
  trans : ∀ a b c, lt a b = true → lt b c = true → lt a c = true
  total : ∀ a b, lt a b = false → lt b a = false → a = b

/-- `*rbegin()`. -/
def last {α : Type} (lt : α → α → Bool) : List α → Option α
  | [] => none
  | a :: l =>
    match last lt l with
    | none => some a
    | some b => if lt b a = true then some a else some b

section

variable {α : Type} {lt : α → α → Bool} {a b c m : α} {l : List α}

theorem StrictTotal.asymm (h : StrictTotal lt) (hab : lt a b = true) : lt b a = false := by
  cases hba : lt b a with
  | false => rfl
  | true =>
    have haa := h.trans a b a hab hba
    rw [h.irrefl a] at haa
    cases haa

theorem StrictTotal.not_lt_trans (h : StrictTotal lt) (hab : lt a b = false) (hbc : lt b c = false) :
    lt a c = false := by
  cases hac : lt a c with
  | false => rfl
  | true =>
    -- `c` comes after `a`; `b` would have to be `c`
    grind [h.trans, h.total]

theorem StrictTotal.lt_of_ne (h : StrictTotal lt) (hab : lt a b = false) (hne : a ≠ b) : lt b a = true := by
  cases hba : lt b a with
  | true => rfl
  | false => exact absurd (h.total a b hab hba) hne

theorem last_eq_none (h : last lt l = none) : l = [] := by
  cases l with
  | nil => rfl
  | cons a l =>
    grind [last]

/-- **The last element.** -/
theorem last_spec (hlt : StrictTotal lt) (h : last lt l = some m) : m ∈ l ∧ ∀ c ∈ l, lt m c = false := by
  fun_induction last lt l generalizing m with
  | case1 => cases h
  | case2 a l hl =>
    cases h
    simp [last_eq_none hl, hlt.irrefl]
  | case3 a l b hl hba ih =>
    cases h
    refine ⟨List.mem_cons_self, List.forall_mem_cons.mpr ⟨hlt.irrefl a, fun c hc => ?_⟩⟩
    exact hlt.not_lt_trans (hlt.asymm hba) ((ih hl).2 c hc)
  | case4 a l b hl hba ih =>
    cases h
    exact ⟨List.mem_cons_of_mem _ (ih hl).1, List.forall_mem_cons.mpr ⟨by simpa using hba, (ih hl).2⟩⟩

end

end PwrbCore.OrderedSet
