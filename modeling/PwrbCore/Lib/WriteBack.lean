/-
  Lib.WriteBack — STACKS OF WRITE-BACK CACHES over a base map.

  A layer holds slots: a value, whether it was changed (`dirty`), and whether the stack below
  has nothing alive under the key (`fresh`).  A dead value counts as none (`alive`).  `Sound`
  says that the flags of every layer are right; the rules below say how the operations of a
  cache keep it and what they do to the answers (`peek`).
-/
import PwrbCore.Lib.StdMap

namespace WriteBack

/-! ## §1. Layers and answers. -/

structure Slot (ν : Type) where
  val : ν
  dirty : Bool := false
  fresh : Bool := false
  deriving DecidableEq, Repr

abbrev Layer (κ ν : Type) := StdMap κ (Slot ν)

variable {κ ν : Type} [DecidableEq κ]

/-- What the layers over `base` hold under a key. -/
def peek (base : κ → Option ν) : List (Layer κ ν) → κ → Option ν
  | [], k => base k
  | l :: below, k =>
    match l.get k with
    | some s => some s.val
    | none => peek base below k

def alive (dead : ν → Bool) (o : Option ν) : Option ν := o.filter fun v => !dead v

section

variable {dead : ν → Bool} {base : κ → Option ν} {l : Layer κ ν} {below : List (Layer κ ν)} {k : κ}

theorem peek_of_get {s : Slot ν} (h : l.get k = some s) : peek base (l :: below) k = some s.val := by
  unfold peek
  rw [h]

theorem peek_of_get_none (h : l.get k = none) : peek base (l :: below) k = peek base below k := by
  show (match l.get k with | some s => some s.val | none => peek base below k) = _
  rw [h]

@[simp] theorem alive_none : alive dead none = none := rfl

theorem alive_of_dead {v : ν} (h : dead v = true) : alive dead (some v) = none := by
  unfold alive
  rw [Option.filter_some, h]
  rfl

theorem alive_of_not_dead {v : ν} (h : dead v = false) : alive dead (some v) = some v := by
  unfold alive
  rw [Option.filter_some, h]
  rfl

theorem alive_eq_none_iff {v : ν} : dead v = true ↔ alive dead (some v) = none := by
  cases h : dead v with
  | true => exact iff_of_true rfl (alive_of_dead h)
  | false => simp [alive_of_not_dead h]

end

/-! ## §2. Right flags. -/

/-- The layer on top holds the key; the base holds every key. -/
def Held : List (Layer κ ν) → κ → Prop
  | [], _ => True
  | l :: _, k => (l.get k).isSome = true

/-- The flags of a slot are right over what the stack below answers. -/
structure Slot.Fits (dead : ν → Bool) (answer : Option ν) (held : Prop) (s : Slot ν) : Prop where
  fresh : s.fresh = true ↔ alive dead answer = none
  held : s.fresh = false → held
  clean : s.dirty = false → answer = some s.val

def Sound (dead : ν → Bool) (base : κ → Option ν) : List (Layer κ ν) → Prop
  | [] => True
  | l :: below =>
    (∀ k s, l.get k = some s → s.Fits dead (peek base below k) (Held below k)) ∧ Sound dead base below

section

variable {dead : ν → Bool} {base : κ → Option ν} {l : Layer κ ν} {below below' : List (Layer κ ν)}

theorem Sound.push (h : Sound dead base below) : Sound dead base (∅ :: below) :=
  ⟨fun k s hs => (by cases hs), h⟩

theorem Sound.congr_below (h : Sound dead base (l :: below)) (hbelow : Sound dead base below')
    (hpeek : ∀ k, peek base below' k = peek base below k) (hheld : ∀ k, Held below k → Held below' k) :
    Sound dead base (l :: below') := by
  refine ⟨?_, hbelow⟩
  intro k s hs
  have hfits := h.1 k s hs
  rw [hpeek k]
  exact ⟨hfits.fresh, fun hf => hheld k (hfits.held hf), hfits.clean⟩

/-! ## §3. Changing the top layer. -/

theorem peek_set (base : κ → Option ν) (l : Layer κ ν) (below : List (Layer κ ν)) (k k' : κ) (s : Slot ν) :
    peek base (l.set k s :: below) k' = if k' = k then some s.val else peek base (l :: below) k' := by
  simp only [peek, StdMap.get_set]
  split_ifs <;> rfl

theorem peek_remove (base : κ → Option ν) (l : Layer κ ν) (below : List (Layer κ ν)) (k k' : κ) :
    peek base (l.remove k :: below) k' = if k' = k then peek base below k' else peek base (l :: below) k' := by
  simp only [peek, StdMap.get_remove]
  split_ifs <;> rfl

variable {k : κ} {s : Slot ν} {us : Layer κ ν}

theorem Sound.set (h : Sound dead base (l :: below))
    (hs : s.Fits dead (peek base below k) (Held below k)) : Sound dead base (l.set k s :: below) := by
  refine ⟨?_, h.2⟩
  intro k' s' hs'
  rw [StdMap.get_set] at hs'
  split_ifs at hs' with hk
  · cases hs'
    rw [hk]
    exact hs
  · exact h.1 k' s' hs'

theorem Sound.remove (h : Sound dead base (l :: below)) (k : κ) : Sound dead base (l.remove k :: below) := by
  refine ⟨?_, h.2⟩
  intro k' s' hs'
  rw [StdMap.get_remove] at hs'
  split_ifs at hs' with hk
  exact h.1 k' s' hs'

/-! ## §4. Writing the top layer down. -/

/-- What becomes of the slot below. A dead value erases what only the layer below has. -/
def mergeSlot (dead : ν → Bool) (us : Option (Slot ν)) (s : Slot ν) : Option (Slot ν) :=
  if s.dirty then
    match us with
    | none => if dead s.val then none else some ⟨s.val, true, true⟩
    | some u => if u.fresh && dead s.val then none else some ⟨s.val, true, u.fresh⟩
  else us

/-- A merged slot has the value written, or is the one that was there. -/
theorem mergeSlot_val {us : Option (Slot ν)} {u : Slot ν} (h : mergeSlot dead us s = some u) :
    u.val = s.val ∨ us = some u := by
  unfold mergeSlot at h
  cases hd : s.dirty with
  | false =>
    rw [hd] at h
    exact .inr h
  | true => grind

/-- The layer below after all slots of `l` were written down to it. -/
def Merged (dead : ν → Bool) (l us us' : Layer κ ν) : Prop :=
  ∀ k, us'.get k = match l.get k with | some s => mergeSlot dead (us.get k) s | none => us.get k

section

variable (h : Sound dead base (l :: us :: below))
include h

/-- **A live slot that the layer below does not hold is fresh.** -/
theorem Sound.fresh_of_not_held (hs : l.get k = some s) (hus : us.get k = none) : s.fresh = true := by
  cases hf : s.fresh with
  | true => rfl
  | false =>
    have hheld : (us.get k).isSome = true := (h.1 k s hs).held hf
    rw [hus] at hheld
    cases hheld

/-- One slot written down: the flags stay right and the answer is that of the slot. -/
theorem mergeSlot_fits (hs : l.get k = some s) :
    (∀ u, mergeSlot dead (us.get k) s = some u → u.Fits dead (peek base below k) (Held below k)) ∧
      alive dead (match mergeSlot dead (us.get k) s with | some u => some u.val | none => peek base below k)
        = alive dead (some s.val) := by
  have hfits := h.1 k s hs
  unfold mergeSlot
  cases hd : s.dirty with
  | false =>
    -- nothing to write: the slot is what the stack below answers
    have hclean := hfits.clean hd
    cases hus : us.get k with
    | none =>
      rw [peek_of_get_none hus] at hclean
      exact ⟨fun u hu => (by cases hu), congrArg (alive dead) hclean⟩
    | some u =>
      rw [peek_of_get hus] at hclean
      refine ⟨fun u' hu' => ?_, congrArg (alive dead) hclean⟩
      cases hu'
      exact h.2.1 k u hus
  | true =>
    rw [if_pos rfl]
    cases hus : us.get k with
    | none =>
      have hgone := hfits.fresh.mp (h.fresh_of_not_held hs hus)
      rw [peek_of_get_none hus] at hgone
      cases hdead : dead s.val with
      | true =>
        rw [if_pos rfl]
        exact ⟨fun u hu => (by cases hu), by rw [hgone, alive_of_dead hdead]⟩
      | false =>
        refine ⟨fun u hu => ?_, rfl⟩
        cases hu
        exact ⟨iff_of_true rfl hgone, fun hf => (by cases hf), fun hc => (by cases hc)⟩
    | some u =>
      have hu := h.2.1 k u hus
      dsimp only
      cases hdead : dead s.val with
      | false =>
        rw [Bool.and_false]
        refine ⟨fun u' hu' => ?_, rfl⟩
        cases hu'
        exact ⟨hu.fresh, hu.held, nofun⟩
      | true =>
        rw [Bool.and_true]
        cases hf : u.fresh with
        | true =>
          rw [if_pos rfl]
          exact ⟨fun u' hu' => (by cases hu'), by rw [hu.fresh.mp hf, alive_of_dead hdead]⟩
        | false =>
          refine ⟨fun u' hu' => ?_, rfl⟩
          cases hu'
          exact ⟨by rw [← hu.fresh, hf], fun _ => hu.held hf, nofun⟩

/-- **Writing a layer down** keeps the flags right and changes no answer. -/
theorem Sound.merge {us' : Layer κ ν} (hmerged : Merged dead l us us') : Sound dead base (us' :: below) ∧
      ∀ k, alive dead (peek base (us' :: below) k) = alive dead (peek base (l :: us :: below) k) := by
  refine ⟨⟨?_, h.2.2⟩, ?_⟩
  · intro k u hu
    rw [hmerged k] at hu
    cases hs : l.get k with
    | none =>
      rw [hs] at hu
      exact h.2.1 k u hu
    | some s =>
      rw [hs] at hu
      exact (mergeSlot_fits h hs).1 u hu
  · intro k
    cases hs : l.get k with
    | none =>
      have hsame : us'.get k = us.get k := by rw [hmerged k, hs]
      rw [peek_of_get_none hs]
      unfold peek
      rw [hsame]
    | some s =>
      have hget : us'.get k = mergeSlot dead (us.get k) s := by rw [hmerged k, hs]
      rw [peek_of_get hs, ← (mergeSlot_fits h hs).2]
      show alive dead (match us'.get k with | some u => some u.val | none => peek base below k) = _
      rw [hget]

end

def writeBase (dead : ν → Bool) (l : Layer κ ν) (base : κ → Option ν) : κ → Option ν := fun k =>
  match l.get k with
  | some s => if s.dirty then (if dead s.val then none else some s.val) else base k
  | none => base k

/-- **Writing the last layer to the base** changes no answer. -/
theorem Sound.write (h : Sound dead base [l]) (k : κ) :
    alive dead (writeBase dead l base k) = alive dead (peek base [l] k) := by
  unfold writeBase
  cases hs : l.get k with
  | none => rw [peek_of_get_none hs]; rfl
  | some s =>
    rw [peek_of_get hs]
    dsimp only
    cases hd : s.dirty with
    | false =>
      have hclean : base k = some s.val := (h.1 k s hs).clean hd
      rw [if_neg (by decide), hclean]
    | true =>
      rw [if_pos rfl]
      cases hdead : dead s.val with
      | true => rw [if_pos rfl, alive_of_dead hdead, alive_none]
      | false => rw [if_neg (by decide)]

end

/-! ## §5. The answers of every layer. -/

/-- What the layers answer one after the other, down to the base. -/
def answers (base : κ → Option ν) : List (Layer κ ν) → List (κ → Option ν)
  | [] => [base]
  | l :: below => peek base (l :: below) :: answers base below

section

variable {base : κ → Option ν} {below below' : List (Layer κ ν)}

theorem answers_eq_cons (base : κ → Option ν) (layers : List (Layer κ ν)) :
    ∃ rest, answers base layers = peek base layers :: rest := by
  cases layers with
  | nil => exact ⟨[], rfl⟩
  | cons l below => exact ⟨answers base below, rfl⟩

theorem peek_eq_of_answers (h : answers base below' = answers base below) : peek base below' = peek base below := by
  obtain ⟨rest, hrest⟩ := answers_eq_cons base below
  obtain ⟨rest', hrest'⟩ := answers_eq_cons base below'
  rw [hrest, hrest'] at h
  exact (List.cons.inj h).1

theorem answers_cons (h : answers base below' = answers base below) (l : Layer κ ν) :
    answers base (l :: below') = answers base (l :: below) := by
  have hpeek : peek base (l :: below') = peek base (l :: below) := by
    funext k
    unfold peek
    rw [peek_eq_of_answers h]
  rw [answers, answers, hpeek, h]

end

end WriteBack
