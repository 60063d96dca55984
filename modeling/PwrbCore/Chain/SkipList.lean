/-
  Chain.SkipList — SKIP POINTERS LEAD TO THE ANCESTOR (`CBlockIndex::GetAncestor`, `CBlockIndex::BuildSkip`,
  `LastCommonAncestor` of `main.cpp`).

  An entry points to its parent, and to an ancestor further down.  `GetAncestor` takes one or
  the other at each step, and `BuildSkip` calls it on the parent to find where the pointer of
  a new entry goes.  A null pointer that is followed is `none`.

  Main result: `skip_list_ancestors`.
-/
import PwrbCore.Chain.BlockIndex

namespace PwrbCore

open ParentTree StdMap ChainGlobals

variable {height : Nat}

/-- `mapBlockIndex`. -/
abbrev BlockMap := StdMap Uint256 CBlockIndex

namespace BlockMap

/-! ## §1. The walks. -/

section

variable (m : BlockMap)

def pprev (k : Uint256) : Option Uint256 := (m.get k).bind CBlockIndex.pprev

def pskip (k : Uint256) : Option Uint256 := (m.get k).bind CBlockIndex.pskip

def nHeight (k : Uint256) : Nat := ((m.get k).map CBlockIndex.nHeight).getD 0

/-- Following `pprev` so many times. -/
def back (n : Nat) (k : Uint256) : Option Uint256 := (fun q => q.bind m.pprev)^[n] (some k)

/-- The loop of `GetAncestor`, with a bound on its turns. -/
def getAncestorLoop (height : Nat) : Nat → Uint256 → Nat → Option Uint256
  | 0, pindexWalk, heightWalk => if heightWalk ≤ height then some pindexWalk else none
  | n + 1, pindexWalk, heightWalk =>
    if heightWalk ≤ height then some pindexWalk
    else
      let heightSkip := getSkipHeight heightWalk
      let heightSkipPrev := getSkipHeight (heightWalk - 1)
      if heightSkip = height ∨ (height < heightSkip ∧
        ¬ (heightSkipPrev + 2 < heightSkip ∧ height ≤ heightSkipPrev)) then
        (m.pskip pindexWalk).bind fun p => getAncestorLoop height n p heightSkip
      else (m.pprev pindexWalk).bind fun p => getAncestorLoop height n p (heightWalk - 1)

/-- `GetAncestor`: each turn goes down, so the height bounds the turns. -/
def getAncestor (k : Uint256) (height : Int) : Option Uint256 :=
  if m.nHeight k < height ∨ height < 0 then none else m.getAncestorLoop height.toNat (m.nHeight k) k (m.nHeight k)

def buildSkip (e : CBlockIndex) : CBlockIndex :=
  match e.pprev with
  | none => e
  | some p => { e with pskip := m.getAncestor p (getSkipHeight e.nHeight) }

/-- The loop of `LastCommonAncestor`, with a bound on its turns. -/
def commonLoop : Nat → Option Uint256 → Option Uint256 → Option Uint256 × Option Uint256
  | n + 1, some pa, some pb => if pa = pb then (some pa, some pb) else commonLoop n (m.pprev pa) (m.pprev pb)
  | _, pa, pb => (pa, pb)

/-- `LastCommonAncestor`; `none` where its assertion fails. -/
def lastCommonAncestor (a b : Uint256) : Option Uint256 :=
  let pa := if m.nHeight b < m.nHeight a then m.getAncestor a (m.nHeight b) else some a
  let pb := if m.nHeight a < m.nHeight b then m.getAncestor b (m.nHeight a) else some b
  let met := m.commonLoop (min (m.nHeight a) (m.nHeight b) + 1) pa pb
  if met.1 = met.2 then met.1 else none

end

/-- A first entry, then new entries on top of known ones, each with its skip pointer. -/
inductive Built (g : Uint256) : BlockMap → Prop
  | first {e : CBlockIndex} (hprev : e.pprev = none) (hheight : e.nHeight = 0) : Built g (set ∅ g e)
  | append {m : BlockMap} {k p : Uint256} {e prev : CBlockIndex} (hm : Built g m) (hnew : m.get k = none)
      (hget : m.get p = some prev) (hprev : e.pprev = some p) (hheight : e.nHeight = prev.nHeight + 1) :
      Built g (m.set k (m.buildSkip e))

variable {m m' : BlockMap} {g k p a b : Uint256} {n : Nat}

/-- An entry is the first one, or one above its parent with its skip pointer on the level of `GetSkipHeight`. -/
def Placed (g : Uint256) (m : BlockMap) (k : Uint256) : Prop :=
  match m.pprev k with
  | none => k = g ∧ m.nHeight k = 0
  | some p => m.get p ≠ none ∧ m.nHeight k = m.nHeight p + 1 ∧
      ∃ s, m.pskip k = some s ∧ m.get s ≠ none ∧ m.nHeight s = getSkipHeight (m.nHeight k) ∧ Above m.pprev s k

/-- **One tree**, whose skip pointers lead to ancestors. -/
def Sound (g : Uint256) (m : BlockMap) : Prop := ∀ k, m.get k ≠ none → Placed g m k

/-! ## §2. `GetAncestor`. -/

namespace Sound

variable (hs : Sound g m)

include hs

theorem ranked : Ranked m.pprev m.nHeight := by
  intro k p hp
  have hk : m.get k ≠ none := by
    intro hnone
    rw [pprev, hnone] at hp
    cases hp
  have hplaced := hs k hk
  rw [Placed, hp] at hplaced
  exact hplaced.2.1

/-- An entry above height zero has its two pointers. -/
theorem pointers (hk : m.get k ≠ none) (hheight : 0 < m.nHeight k) :
    (∃ p, m.pprev k = some p ∧ m.get p ≠ none ∧ m.nHeight k = m.nHeight p + 1) ∧
      ∃ s, m.pskip k = some s ∧ m.get s ≠ none ∧ m.nHeight s = getSkipHeight (m.nHeight k) ∧ Above m.pprev s k := by
  have hplaced := hs k hk
  rw [Placed] at hplaced
  cases hp : m.pprev k with
  | none =>
    rw [hp] at hplaced
    omega
  | some p =>
    rw [hp] at hplaced
    exact ⟨⟨p, rfl, hplaced.1, hplaced.2.1⟩, hplaced.2.2⟩

/-- **The loop of `GetAncestor`** ends at the ancestor of that height, by induction on its turns. -/
theorem getAncestorLoop_spec (hk : m.get k ≠ none) (hle : height ≤ m.nHeight k) (hn : m.nHeight k ≤ n + height) :
    ∃ a, m.getAncestorLoop height n k (m.nHeight k) = some a ∧ m.get a ≠ none ∧ m.nHeight a = height ∧
        Above m.pprev a k := by
  induction n generalizing k with
  | zero => exact ⟨k, if_pos (by omega), hk, by omega, .refl m.pprev k⟩
  | succ n ih =>
    unfold getAncestorLoop
    by_cases hend : m.nHeight k ≤ height
    · exact ⟨k, if_pos hend, hk, by omega, .refl m.pprev k⟩
    rw [if_neg hend]
    obtain ⟨⟨p, hp, hgetp, hlow⟩, s, hskip, hgets, hlevel, hway⟩ := hs.pointers hk (by omega)
    have hdown := getSkipHeight_lt (show 0 < m.nHeight k by omega)
    dsimp only
    split_ifs with hjump
    · -- the skip pointer ends at or above the target
      obtain ⟨a, hloop, hgeta, hheight, habove⟩ := ih hgets (by omega) (by omega)
      rw [hskip, ← hlevel]
      exact ⟨a, hloop, hgeta, hheight, habove.trans hway⟩
    · obtain ⟨a, hloop, hgeta, hheight, habove⟩ := ih hgetp (by omega) (by omega)
      rw [hp, hlow]
      exact ⟨a, hloop, hgeta, hheight, habove.of_parent hp⟩

theorem getAncestor_spec (hk : m.get k ≠ none) (hle : height ≤ m.nHeight k) :
    ∃ a, m.getAncestor k height = some a ∧ m.get a ≠ none ∧ m.nHeight a = height ∧ Above m.pprev a k := by
  unfold getAncestor
  rw [if_neg (by omega)]
  exact hs.getAncestorLoop_spec hk hle (Nat.le_add_right _ _)

/-- An ancestor is as many parents away as it is lower. -/
theorem back_of_above (h : Above m.pprev a k) : m.back (m.nHeight k - m.nHeight a) k = some a := by
  induction k using hs.ranked.induction with
  | step k ih =>
    rcases h.cases with rfl | ⟨p, hp, hrest⟩
    · rw [Nat.sub_self]
      rfl
    have hheight := hs.ranked k p hp
    have hle := hrest.height_le hs.ranked
    rw [show m.nHeight k - m.nHeight a = m.nHeight p - m.nHeight a + 1 by omega, back, Function.iterate_succ_apply,
      Option.bind_some, hp]
    exact ih p hp hrest

end Sound

/-! ## §3. The index is built. -/

def Kept (m m' : BlockMap) : Prop := ∀ k, m.get k ≠ none → m'.get k = m.get k

namespace Kept

variable (hkept : Kept m m')

include hkept

theorem known (hk : m.get k ≠ none) : m'.get k ≠ none := by rwa [hkept k hk]

theorem nHeight_eq (hk : m.get k ≠ none) : m'.nHeight k = m.nHeight k := by rw [nHeight, nHeight, hkept k hk]

theorem above (h : Above m.pprev a k) : Above m'.pprev a k := by
  refine Relation.ReflTransGen.mono (fun x y hxy => ?_) _ _ h
  rw [pprev] at hxy ⊢
  rwa [hkept x fun hnone => by rw [hnone] at hxy; cases hxy]

theorem placed (hk : m.get k ≠ none) (h : Placed g m k) : Placed g m' k := by
  have hprev : m'.pprev k = m.pprev k := by rw [pprev, pprev, hkept k hk]
  rw [Placed] at h ⊢
  rw [hprev, hkept.nHeight_eq hk, pskip, hkept k hk]
  cases hp : m.pprev k with
  | none =>
    rw [hp] at h
    exact h
  | some p =>
    rw [hp] at h
    obtain ⟨hgetp, hlow, s, hskip, hgets, hlevel, hway⟩ := h
    exact ⟨hkept.known hgetp, by rwa [hkept.nHeight_eq hgetp], s, hskip, hkept.known hgets,
      by rwa [hkept.nHeight_eq hgets], hkept.above hway⟩

end Kept

/-- **Every index built so is sound**: a new skip pointer is found from the parent. -/
theorem Built.sound (h : Built g m) : Sound g m := by
  induction h with
  | @first e hprev hheight =>
    intro k hk
    have hkg : k = g := by
      by_contra hne
      rw [get_set_of_ne _ _ hne] at hk
      exact hk rfl
    rw [Placed, pprev, nHeight, hkg, get_set_self]
    simp [hprev, hheight]
  | @append m k p e prev hm hnew hget hprev hheight hs =>
    have hgetp : m.get p ≠ none := by simp [hget]
    have hlow : m.nHeight p = prev.nHeight := by simp [nHeight, hget]
    have hdown := getSkipHeight_lt (show 0 < e.nHeight by omega)
    obtain ⟨s, hskip, hgets, hlevel, hway⟩ :=
      hs.getAncestor_spec hgetp (show getSkipHeight e.nHeight ≤ m.nHeight p by omega)
    have hkept : Kept m (m.set k (m.buildSkip e)) := by
      intro x hx
      refine get_set_of_ne _ _ ?_
      rintro rfl
      exact hx hnew
    intro x hx
    by_cases hxk : x = k
    · subst hxk
      have hown : (m.set x (m.buildSkip e)).get x = some { e with pskip := some s } := by
        rw [get_set_self, buildSkip, hprev, ← hskip]
      have hparent : pprev (m.set x (m.buildSkip e)) x = some p := by rw [pprev, hown, ← hprev]; rfl
      have hhigh : nHeight (m.set x (m.buildSkip e)) x = e.nHeight := by rw [nHeight, hown]; rfl
      rw [Placed, hparent, hhigh]
      refine ⟨hkept.known hgetp, ?_, s, ?_, hkept.known hgets, ?_, (hkept.above hway).of_parent hparent⟩
      · rw [hkept.nHeight_eq hgetp, hlow, hheight]
      · rw [pskip, hown]
        rfl
      · rw [hkept.nHeight_eq hgets, hlevel]
    · rw [get_set_of_ne _ _ hxk] at hx
      exact hkept.placed hx (hs x hx)

/-! ## §4. `LastCommonAncestor`. -/

/-- **Side by side** two blocks of one height come to the first block they share. -/
theorem Sound.commonLoop_spec (hs : Sound g m) (ha : m.get a ≠ none) (hb : m.get b ≠ none) (hna : m.nHeight a = n)
    (hnb : m.nHeight b = n) :
    ∃ f, m.commonLoop (n + 1) (some a) (some b) = (some f, some f) ∧ Above m.pprev f a ∧ Above m.pprev f b ∧
      ∀ c, Above m.pprev c a → Above m.pprev c b → Above m.pprev c f := by
  induction n generalizing a b with
  | zero =>
    have hroot : ∀ {k}, m.get k ≠ none → m.nHeight k = 0 → k = g := by
      intro k hk hzero
      have hplaced := hs k hk
      rw [Placed] at hplaced
      split at hplaced
      · exact hplaced.1
      · omega
    obtain rfl := hroot ha hna
    obtain rfl := hroot hb hnb
    exact ⟨b, if_pos rfl, .refl m.pprev b, .refl m.pprev b, fun c hc _ => hc⟩
  | succ n ih =>
    by_cases hab : a = b
    · subst hab
      exact ⟨a, if_pos rfl, .refl m.pprev a, .refl m.pprev a, fun c hc _ => hc⟩
    obtain ⟨⟨pa, hpa, hgeta, hlowa⟩, -⟩ := hs.pointers ha (by omega)
    obtain ⟨⟨pb, hpb, hgetb, hlowb⟩, -⟩ := hs.pointers hb (by omega)
    obtain ⟨f, hloop, hfa, hfb, hmax⟩ := ih hgeta hgetb (by omega) (by omega)
    refine ⟨f, ?_, hfa.of_parent hpa, hfb.of_parent hpb, fun c hca hcb => ?_⟩
    · rw [commonLoop, if_neg hab, hpa, hpb]
      exact hloop
    -- neither of the two is an ancestor of the other
    rcases hca.cases with rfl | ⟨p, hp, hca'⟩
    · exact absurd (hcb.eq_of_height hs.ranked (by omega)) hab
    rcases hcb.cases with rfl | ⟨q, hq, hcb'⟩
    · exact absurd (hca.eq_of_height hs.ranked (by omega)).symm hab
    cases hpa.symm.trans hp
    cases hpb.symm.trans hq
    exact hmax c hca' hcb'

/-- **`LastCommonAncestor`** brings both blocks to one height first. -/
theorem Sound.lastCommonAncestor_spec (hs : Sound g m) (ha : m.get a ≠ none) (hb : m.get b ≠ none) :
    ∃ f, m.lastCommonAncestor a b = some f ∧ Above m.pprev f a ∧ Above m.pprev f b ∧
      ∀ c, Above m.pprev c a → Above m.pprev c b → Above m.pprev c f := by
  -- either block is taken down to the lower of the two heights
  have hdown : ∀ {x y}, m.get x ≠ none → ∃ x',
    (if m.nHeight y < m.nHeight x then m.getAncestor x (m.nHeight y) else some x) = some x' ∧
      m.get x' ≠ none ∧ m.nHeight x' = min (m.nHeight x) (m.nHeight y) ∧ Above m.pprev x' x := by
    intro x y hx
    split_ifs with hlt
    · obtain ⟨x', hget, hknown, hheight, habove⟩ := hs.getAncestor_spec hx (Nat.le_of_lt hlt)
      exact ⟨x', hget, hknown, by omega, habove⟩
    · exact ⟨x, rfl, hx, by omega, .refl m.pprev x⟩
  obtain ⟨a', hgeta, hknowna, hheighta, hwaya⟩ := hdown (y := b) ha
  obtain ⟨b', hgetb, hknownb, hheightb, hwayb⟩ := hdown (y := a) hb
  obtain ⟨f, hloop, hfa, hfb, hmax⟩ := hs.commonLoop_spec hknowna hknownb hheighta (by omega)
  refine ⟨f, ?_, hfa.trans hwaya, hfb.trans hwayb, fun c hca hcb => ?_⟩
  · unfold lastCommonAncestor
    dsimp only
    rw [hgeta, hgetb, hloop, if_pos rfl]
  · -- a common ancestor is no higher than either
    have hlea := hca.height_le hs.ranked
    have hleb := hcb.height_le hs.ranked
    exact hmax c (hca.of_height_le hs.ranked hwaya (by omega)) (hcb.of_height_le hs.ranked hwayb (by omega))

/-- **`GetAncestor` goes where `pprev` leads, and `LastCommonAncestor` to the highest common ancestor**, in every index
that was built by appending entries with `BuildSkip`. -/
theorem skip_list_ancestors (h : Built g m) : (∀ k, m.get k ≠ none → ∀ height ≤ m.nHeight k,
      ∃ a, m.getAncestor k height = some a ∧ m.back (m.nHeight k - height) k = some a) ∧
      ∀ a b, m.get a ≠ none → m.get b ≠ none → ∃ f, m.lastCommonAncestor a b = some f ∧
        Above m.pprev f a ∧ Above m.pprev f b ∧ ∀ c, Above m.pprev c a → Above m.pprev c b →
            m.nHeight c ≤ m.nHeight f := by
  have hs := h.sound
  refine ⟨fun k hk height hle => ?_, fun a b ha hb => ?_⟩
  · obtain ⟨a, hget, -, hheight, habove⟩ := hs.getAncestor_spec hk hle
    refine ⟨a, hget, ?_⟩
    rw [← hheight]
    exact hs.back_of_above habove
  · obtain ⟨f, hget, hfa, hfb, hmax⟩ := hs.lastCommonAncestor_spec ha hb
    exact ⟨f, hget, hfa, hfb, fun c hca hcb => (hmax c hca hcb).height_le hs.ranked⟩

def entryAt (pprev : Option Uint256) (nHeight : Nat) : CBlockIndex :=
  { header := { hash := 0, hashPrevBlock := 0, nTime := 0, vtx := [] }, pprev, nHeight, nChainWork := 0 }

def siblings : BlockMap :=
  let root := set ∅ 1 (entryAt none 0)
  let one := root.set 2 (buildSkip root (entryAt (some 1) 1))
  one.set 3 (buildSkip one (entryAt (some 1) 1))

theorem siblings_share_an_ancestor : Built 1 siblings ∧ ∃ f, siblings.lastCommonAncestor 2 3 = some f ∧
    Above siblings.pprev f 2 ∧ Above siblings.pprev f 3 ∧
      ∀ c, Above siblings.pprev c 2 → Above siblings.pprev c 3 → siblings.nHeight c ≤ siblings.nHeight f := by
  have hbuilt : Built 1 siblings :=
    .append (p := 1) (.append (p := 1) (.first rfl rfl) (by decide) rfl rfl rfl) (by decide) rfl rfl rfl
  exact ⟨hbuilt, (skip_list_ancestors hbuilt).2 2 3 (by decide) (by decide)⟩

end BlockMap

end PwrbCore
