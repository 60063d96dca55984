/-
  Lib.Stricter — ONE CHECKED COMPUTATION IS STRICTER THAN ANOTHER.

  `Stricter x y`: whatever `x` accepts, `y` accepts with the same result.  It is a preorder,
  and each way of building checked computations keeps it, so two programs of one shape are
  compared part by part.
-/
import PwrbCore.Lib.Checked

open Checked

/-- What `x` accepts, `y` accepts with the same result. -/
def Stricter {ε α : Type} (x y : Except ε α) : Prop := ∀ a, x = .ok a → y = .ok a

namespace Stricter

variable {ε α β : Type} {x y : Except ε α}

theorem refl (x : Except ε α) : Stricter x x := fun _ h => h

theorem bind {f g : α → Except ε β} (h : Stricter x y) (hfg : ∀ a, Stricter (f a) (g a)) :
    Stricter (x >>= f) (y >>= g) := by
  intro b hb
  obtain ⟨a, ha, hf⟩ := bind_eq_ok.mp hb
  exact bind_eq_ok.mpr ⟨a, h a ha, hfg a b hf⟩

theorem bind_right {f g : α → Except ε β} (hfg : ∀ a, Stricter (f a) (g a)) : Stricter (x >>= f) (x >>= g) :=
  (refl x).bind hfg

theorem bind_left {f : α → Except ε β} (h : Stricter x y) : Stricter (x >>= f) (y >>= f) := h.bind fun _ => refl _

theorem require {c c' : Prop} [Decidable c] [Decidable c'] {e : ε} (h : c → c') :
    Stricter (require c e) (require c' e) := by
  intro u hu
  exact require_eq_ok.mpr (h (require_eq_ok.mp hu))

theorem checkIf {c c' : Bool} {x y : Except ε Unit} (hc : c' = true → c = true) (h : Stricter x y) :
    Stricter (checkIf c x) (checkIf c' y) := by
  intro u hu
  rw [checkIf_eq_ok] at hu ⊢
  intro htrue
  exact h () (hu (hc htrue))

end Stricter
