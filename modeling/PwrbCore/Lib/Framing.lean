/-
  Lib.Framing — ENCODINGS THAT END BY THEMSELVES.

  `Framed u v P`: whenever one stream starts with `u` and with `v`, then `P` holds and what
  follows is the same.  Said of the encodings of two values with `P` their equality, it is
  unique decoding from the front.  The rules follow the way an encoder writes: fixed widths,
  one thing after the other, and a counted loop.
-/
import Mathlib.Data.List.Basic

namespace PwrbCore

/-- Streams that start with `u` and `v` are equal only if `P` holds and they go on alike. -/
def Framed {β : Type} (u v : List β) (P : Prop) : Prop := ∀ s t, u ++ s = v ++ t → P ∧ s = t

namespace Framed

variable {β : Type} {u v u' v' : List β} {P Q : Prop}

theorem of_length (hlen : u.length = v.length) (h : u = v → P) : Framed u v P := by
  intro s t hst
  obtain ⟨huv, hrest⟩ := List.append_inj hst hlen
  exact ⟨h huv, hrest⟩

theorem refl (u : List β) : Framed u u True := of_length rfl fun _ => trivial

theorem mono (h : Framed u v P) (hPQ : P → Q) : Framed u v Q := by
  intro s t hst
  obtain ⟨hP, hrest⟩ := h s t hst
  exact ⟨hPQ hP, hrest⟩

/-- One thing after the other; the second may use what is known of the first. -/
theorem append (h : Framed u v P) (h' : P → Framed u' v' Q) : Framed (u ++ u') (v ++ v') (P ∧ Q) := by
  intro s t hst
  rw [List.append_assoc, List.append_assoc] at hst
  obtain ⟨hP, hrest⟩ := h _ _ hst
  obtain ⟨hQ, hrest'⟩ := h' hP _ _ hrest
  exact ⟨⟨hP, hQ⟩, hrest'⟩

theorem flatMap_range {u v : Nat → List β} {P : Nat → Prop} {n : Nat} (h : ∀ i < n, Framed (u i) (v i) (P i)) :
    Framed ((List.range n).flatMap u) ((List.range n).flatMap v) (∀ i < n, P i) := by
  induction n with
  | zero => exact (refl []).mono fun _ i hi => absurd hi (Nat.not_lt_zero i)
  | succ n ih =>
    have hloop := (ih fun i hi => h i (Nat.lt_succ_of_lt hi)).append fun _ => h n (Nat.lt_succ_self n)
    grind [List.range_succ, hloop.mono]

end Framed

end PwrbCore
