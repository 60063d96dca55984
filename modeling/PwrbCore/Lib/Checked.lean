/-
  Lib.Checked — SEQUENCES OF CHECKS in `Except`: the shape of code that tests one condition after the
  other and stops with the first failure.

  `require` is one test.  The lemmas read a successful run backwards: `bind_eq_ok` and
  `require_bind_eq_ok` peel one step off, `foldlM_invariant` carries a fact through a
  checked loop, `foldlM_forall_mem` gives the turns of the loop.
-/
import Mathlib.Algebra.Order.Ring.Int

namespace Checked

variable {ε α β σ : Type}

/-- Stop with `e` unless `c` holds. -/
def require (c : Prop) [Decidable c] (e : ε) : Except ε Unit := if c then .ok () else .error e

/-- The value of `x`, or stop with `e`. -/
def orStop (x : Option α) (e : ε) : Except ε α :=
  match x with
  | some a => .ok a
  | none => .error e

/-- A section that is checked only where `c` holds. -/
def checkIf (c : Bool) (x : Except ε Unit) : Except ε Unit := if c then x else .ok ()

variable {x : Except ε α} {b : β} {e : ε} {a : α} {f : σ → α → Except ε σ} {l : List α} {s t : σ}

theorem bind_eq_ok {f : α → Except ε β} : (x >>= f) = .ok b ↔ ∃ a, x = .ok a ∧ f a = .ok b := by
  cases x with
  | error e => exact iff_of_false (nofun) fun ⟨_, h, _⟩ => by cases h
  | ok a => exact ⟨fun h => ⟨a, rfl, h⟩, fun ⟨a', h, hf⟩ => by cases h; exact hf⟩

theorem require_eq_ok {c : Prop} [Decidable c] {u : Unit} : require c e = .ok u ↔ c := by
  unfold require
  split_ifs with h
  · exact iff_of_true rfl h
  · exact iff_of_false (nofun) h

theorem require_bind_eq_ok {c : Prop} [Decidable c] {f : Unit → Except ε β} :
    (require c e >>= f) = .ok b ↔ c ∧ f () = .ok b := by
  rw [bind_eq_ok]
  constructor
  · rintro ⟨u, hc, hf⟩
    exact ⟨require_eq_ok.mp hc, hf⟩
  · rintro ⟨hc, hf⟩
    exact ⟨(), require_eq_ok.mpr hc, hf⟩

theorem orStop_eq_ok {x : Option α} : orStop x e = .ok a ↔ x = some a := by
  cases x with
  | none => exact iff_of_false (nofun) (nofun)
  | some a' => exact ⟨fun h => by cases h; rfl, fun h => by cases h; rfl⟩

theorem checkIf_eq_ok {c : Bool} {x : Except ε Unit} {u : Unit} : checkIf c x = .ok u ↔ (c = true → x = .ok ()) := by
  cases c with
  | false => exact iff_of_true rfl (nofun)
  | true => exact ⟨fun h _ => h, fun h => h rfl⟩

theorem ok_bind {f : α → Except ε β} : ((.ok a : Except ε α) >>= f) = f a := rfl

theorem orStop_some_bind {f : α → Except ε β} : (orStop (some a) e >>= f) = f a := rfl

theorem exists_ok_of_isOk (h : x.isOk = true) : ∃ a, x = .ok a := by
  cases x with
  | error e => cases h
  | ok a => exact ⟨a, rfl⟩

theorem exists_ok_of_map {f : α → β} (h : x.map f = .ok b) : ∃ a, x = .ok a ∧ f a = b := by
  cases x with
  | error e => cases h
  | ok a => exact ⟨a, rfl, Except.ok.inj h⟩

theorem foldlM_cons_eq_ok : (a :: l).foldlM f s = .ok t ↔ ∃ s', f s a = .ok s' ∧ l.foldlM f s' = .ok t := by
  rw [List.foldlM_cons, bind_eq_ok]

theorem foldlM_nil_eq_ok : ([] : List α).foldlM f s = .ok t ↔ s = t := by
  constructor
  · intro h
    cases h
    rfl
  · rintro rfl
    rfl

theorem foldlM_congr {g : σ → α → Except ε σ} (h : ∀ a ∈ l, ∀ s, f s a = g s a) (s : σ) :
    l.foldlM f s = l.foldlM g s := by
  induction l generalizing s with
  | nil => rfl
  | cons a l ih =>
    simp_all

/-- **Invariant rule for a checked loop.** -/
theorem foldlM_invariant (Inv : σ → Prop) (hstep : ∀ a ∈ l, ∀ s s', Inv s → f s a = .ok s' → Inv s') (hs : Inv s)
    (h : l.foldlM f s = .ok t) : Inv t := by
  induction l generalizing s with
  | nil =>
    rw [foldlM_nil_eq_ok] at h
    subst h
    exact hs
  | cons a l ih =>
    obtain ⟨s', hstep', hrun⟩ := foldlM_cons_eq_ok.mp h
    exact ih (fun b hb => hstep b (List.mem_cons_of_mem a hb))
      (hstep a List.mem_cons_self s s' hs hstep') hrun

/-- **Counting through a checked loop**: each turn raises a measure by the value of its element. -/
theorem foldlM_measure (measure : σ → Int) (value : α → Int)
    (hstep : ∀ a ∈ l, ∀ s s', f s a = .ok s' → measure s' = measure s + value a)
    (h : l.foldlM f s = .ok t) : measure t = measure s + (l.map value).sum := by
  induction l generalizing s with
  | nil =>
    rw [foldlM_nil_eq_ok] at h
    subst h
    exact (Int.add_zero _).symm
  | cons a l ih =>
    obtain ⟨s', hturn, hrun⟩ := foldlM_cons_eq_ok.mp h
    grind

theorem foldlM_forall_mem (h : l.foldlM f s = .ok t) : ∀ a ∈ l, ∃ s1 s2, f s1 a = .ok s2 := by
  induction l generalizing s with
  | nil => intro a ha; cases ha
  | cons b l ih =>
    obtain ⟨s', hstep, hrun⟩ := foldlM_cons_eq_ok.mp h
    intro a ha
    rcases List.mem_cons.mp ha with rfl | ha
    · exact ⟨s, s', hstep⟩
    · exact ih hrun a ha

theorem foldlM_isOk (h : ∀ a ∈ l, ∀ s, ∃ s', f s a = .ok s') (s : σ) : ∃ t, l.foldlM f s = .ok t := by
  induction l generalizing s with
  | nil => exact ⟨s, rfl⟩
  | cons a l ih =>
    obtain ⟨s', hs'⟩ := h a List.mem_cons_self s
    obtain ⟨t, ht⟩ := ih (fun b hb => h b (List.mem_cons_of_mem a hb)) s'
    exact ⟨t, foldlM_cons_eq_ok.mpr ⟨s', hs', ht⟩⟩

end Checked
