/-
  Chain.Links — HOW THE ENTRIES OF THE BLOCK INDEX HANG TOGETHER.

  Chain selection marks entries as valid or failed and nothing else (`Kept`): parents, heights,
  work, bodies, `nChainTx` and sequence ids stay.

  Main results: `Wired.chainTx_iff` — `nChainTx` is set exactly for the blocks whose own
  body and all ancestors' bodies are there; `Wired.mem_unlinked` — what
  `mapBlocksUnlinked` holds; `Wired.kept` — chain selection keeps both.
-/
import PwrbCore.Chain.Acceptance

namespace PwrbCore

open ParentTree OrderedSet ChainGlobals CBlockIndex

variable {e : CBlockIndex} {k p genesis a : Uint256}

variable {σ : Type}

/-! ## §1. What chain selection keeps. -/

variable {st st' : ChainGlobals σ}

def CBlockIndex.link (e : CBlockIndex) : CBlockIndex :=
  { e with nValid := 0, failedValid := false, failedChild := false }

section

variable {e' : CBlockIndex}

section

variable (h : e'.link = e.link)

include h

theorem link_pprev : e'.pprev = e.pprev := (congrArg CBlockIndex.pprev h :)

theorem link_data : e'.data = e.data := (congrArg CBlockIndex.data h :)

theorem link_nChainTx : e'.nChainTx = e.nChainTx := (congrArg CBlockIndex.nChainTx h :)

theorem link_nSequenceId : e'.nSequenceId = e.nSequenceId := (congrArg CBlockIndex.nSequenceId h :)

end

end

theorem CBlockIndex.link_raiseValidity (e : CBlockIndex) (n : Nat) : (e.raiseValidity n).link = e.link := by
  unfold raiseValidity
  split_ifs <;> rfl

namespace ChainGlobals

theorem pprev_eq_of_map
    (h : (st'.index k).map CBlockIndex.pprev = (st.index k).map CBlockIndex.pprev) : st'.pprev k = st.pprev k := by
  have hjoin := congrArg (·.bind id) h
  rwa [Option.bind_map, Option.bind_map] at hjoin

/-- The entries are the same up to their status, and so is `mapBlocksUnlinked`. -/
structure Kept (st st' : ChainGlobals σ) : Prop where
  entries : ∀ h, (st'.index h).map CBlockIndex.link = (st.index h).map CBlockIndex.link
  unlinked : st'.mapBlocksUnlinked = st.mapBlocksUnlinked
  sequence : st'.nBlockSequenceId = st.nBlockSequenceId

namespace Kept

variable {st'' : ChainGlobals σ}

theorem refl (st : ChainGlobals σ) : Kept st st := ⟨fun _ => rfl, rfl, rfl⟩

section

variable (h : Kept st st')

include h

theorem trans (h' : Kept st' st'') : Kept st st'' :=
  ⟨fun k => (h'.entries k).trans (h.entries k), h'.unlinked.trans h.unlinked, h'.sequence.trans h.sequence⟩

theorem symm : Kept st' st :=
  ⟨fun k => (h.entries k).symm, h.unlinked.symm, h.sequence.symm⟩

theorem map_eq {α : Type} {g : CBlockIndex → α} (hg : ∀ e, g e.link = g e) (k : Uint256) :
    (st'.index k).map g = (st.index k).map g := by
  have hcomp : g ∘ link = g := funext hg
  rw [← hcomp, ← Option.map_map, h.entries k, Option.map_map]

theorem pprev : st'.pprev = st.pprev := by
  funext k
  exact pprev_eq_of_map (h.map_eq (fun _ => rfl) k)

theorem height : st'.height = st.height := by
  funext k
  unfold ChainGlobals.height
  rw [h.map_eq (g := nHeight) (fun _ => rfl)]

theorem work : st'.work = st.work := by
  funext k
  unfold ChainGlobals.work
  rw [h.map_eq (g := nChainWork) (fun _ => rfl)]

theorem sequenceId : st'.sequenceId = st.sequenceId := by
  funext k
  unfold ChainGlobals.sequenceId
  rw [h.map_eq (g := nSequenceId) (fun _ => rfl)]

theorem chainTx : st'.chainTx = st.chainTx := by
  funext k
  unfold ChainGlobals.chainTx
  rw [h.map_eq (g := nChainTx) (fun _ => rfl)]

theorem haveData : st'.haveData = st.haveData := by
  funext k
  unfold ChainGlobals.haveData
  rw [h.map_eq (g := fun e => e.data.isSome) (fun _ => rfl)]

theorem path : st'.path = st.path := by
  funext k
  unfold ChainGlobals.path
  rw [h.pprev, h.height]

theorem worse : st'.worse = st.worse := by
  funext a b
  exact worse_congr (congrFun h.work a) (congrFun h.work b) (congrFun h.sequenceId a) (congrFun h.sequenceId b)

theorem known (hk : st.index k = some e) : ∃ e', st'.index k = some e' ∧ e'.link = e.link := by
  have hread := h.entries k
  simp_all

end

theorem update (st : ChainGlobals σ) (k : Uint256) {f : CBlockIndex → CBlockIndex} (hf : ∀ e, (f e).link = e.link) :
    Kept st (st.update k f) := by
  obtain ⟨-, -, hunlinked, hsequence, -⟩ := st.update_fields k f
  refine ⟨fun h => ?_, hunlinked, hsequence⟩
  rw [index_update]
  split_ifs
  · rw [Option.map_map, show link ∘ f = link from funext hf]
  · rfl

theorem markFailedValid (st : ChainGlobals σ) (k : Uint256) : Kept st (st.markFailedValid k) :=
  update st k fun _ => rfl

theorem markFailedChild (st : ChainGlobals σ) (k : Uint256) : Kept st (st.markFailedChild k) :=
  update st k fun _ => rfl

theorem updateAll (st : ChainGlobals σ) {f : Uint256 → CBlockIndex → CBlockIndex} (hf : ∀ k e, (f k e).link = e.link) :
    Kept st (st.updateAll f) := by
  refine ⟨fun h => ?_, rfl, rfl⟩
  rw [index_updateAll, Option.map_map, show link ∘ f h = link from funext (hf h)]

theorem of_index (hindex : st'.mapBlockIndex = st.mapBlockIndex)
    (hunlinked : st'.mapBlocksUnlinked = st.mapBlocksUnlinked)
    (hsequence : st'.nBlockSequenceId = st.nBlockSequenceId) : Kept st st' := by
  refine ⟨fun h => ?_, hunlinked, hsequence⟩
  unfold index
  rw [hindex]

end Kept

end ChainGlobals

/-! ## §2. The wiring. -/

namespace ChainGlobals

structure Rooted (genesis : Uint256) (st : ChainGlobals σ) : Prop where
  first : ∃ e, st.index genesis = some e ∧ e.pprev = none ∧ e.nHeight = 0
  root : ∀ h e, st.index h = some e → e.pprev = none → h = genesis
  parent : ∀ h e p, st.index h = some e → e.pprev = some p → ∃ e', st.index p = some e' ∧ e.nHeight = e'.nHeight + 1

def Waits (st : ChainGlobals σ) (h : Uint256) (e : CBlockIndex) : Prop :=
  st.index h = some e ∧ e.data.isSome = true ∧ e.nChainTx = 0

/-- **The entries hang together** while the blocks of `queue` wait: `nChainTx` says what is linked,
`mapBlocksUnlinked` holds what waits for its parent. -/
structure Linking (genesis : Uint256) (queue : List Uint256) (st : ChainGlobals σ) :
    Prop extends Rooted genesis st where
  bodies : ∀ h e block, st.index h = some e → e.data = some block → block.vtx ≠ []
  sequence : ∀ h e, st.index h = some e → e.nChainTx = 0 → e.nSequenceId = 0
  settled : ∀ h e, st.index h = some e → h ∉ queue →
    (e.nChainTx ≠ 0 ↔ e.data.isSome = true ∧ ∀ p, e.pprev = some p → st.chainTx p ≠ 0)
  ready : ∀ h ∈ queue, ∃ e, st.Waits h e ∧ ∀ p, e.pprev = some p → st.chainTx p ≠ 0
  waiting : ∀ p h, (p, h) ∈ st.mapBlocksUnlinked ↔ (∃ e, st.Waits h e ∧ e.pprev = some p) ∧ h ∉ queue
  once : st.mapBlocksUnlinked.Nodup
  queued : queue.Nodup

abbrev Wired (genesis : Uint256) (st : ChainGlobals σ) : Prop := Linking genesis [] st

variable {h : Uint256}

section

variable (he : st.index h = some e)

include he

theorem pprev_of_index : st.pprev h = e.pprev := by
  unfold pprev
  rw [he]
  rfl

theorem height_of_index : st.height h = e.nHeight := by
  unfold height
  rw [he]
  rfl

theorem work_of_index : st.work h = e.nChainWork := by
  unfold work
  rw [he]
  rfl

theorem chainTx_of_index : st.chainTx h = e.nChainTx := by
  unfold chainTx
  rw [he]
  rfl

theorem haveData_of_index : st.haveData h = e.data.isSome := by
  unfold haveData
  rw [he]
  rfl

theorem failed_of_index : st.failed h = e.failed := by
  unfold failed
  rw [he]
  rfl

end

theorem known_of_pprev (hp : st.pprev h = some p) : ∃ e, st.index h = some e ∧ e.pprev = some p :=
  Option.bind_eq_some_iff.mp hp

theorem known_of_chainTx (hlinked : st.chainTx h ≠ 0) : ∃ e, st.index h = some e :=
  Option.ne_none_iff_exists'.mp fun hnone => hlinked (by simp [chainTx, hnone])

theorem waits_iff : (∃ e, st.Waits h e ∧ e.pprev = some p) ↔
    st.pprev h = some p ∧ st.haveData h = true ∧ st.chainTx h = 0 := by
  constructor
  · rintro ⟨e, ⟨he, hdata, h0⟩, hp⟩
    exact ⟨(pprev_of_index he).trans hp, (haveData_of_index he).trans hdata, (chainTx_of_index he).trans h0⟩
  · rintro ⟨hp, hdata, h0⟩
    obtain ⟨e, he, hep⟩ := known_of_pprev hp
    exact ⟨e, ⟨he, (haveData_of_index he).symm.trans hdata, (chainTx_of_index he).symm.trans h0⟩, hep⟩

namespace Rooted

variable {h : Uint256}

section

variable (w : Rooted genesis st)

include w

theorem of_places
    (hsame : ∀ k, (st'.index k).map (fun e => (e.pprev, e.nHeight)) = (st.index k).map fun e => (e.pprev, e.nHeight)) :
    Rooted genesis st' := by
  have hread : ∀ {s s' : ChainGlobals σ} {k e}, (s'.index k).map (fun e => (e.pprev, e.nHeight))
      = (s.index k).map (fun e => (e.pprev, e.nHeight)) → s.index k = some e →
      ∃ e', s'.index k = some e' ∧ e'.pprev = e.pprev ∧ e'.nHeight = e.nHeight := by
    intro s s' k e hk he
    rw [he] at hk
    obtain ⟨e', he', hplace⟩ := Option.map_eq_some_iff.mp hk
    exact ⟨e', he', congrArg Prod.fst hplace, congrArg Prod.snd hplace⟩
  refine ⟨?_, fun k e' he' hp => ?_, fun k e' p he' hp => ?_⟩
  · obtain ⟨e, he, hp, hh⟩ := w.first
    obtain ⟨e', he', hp', hh'⟩ := hread (hsame genesis) he
    exact ⟨e', he', hp'.trans hp, hh'.trans hh⟩
  · obtain ⟨e, he, hpprev, -⟩ := hread (hsame k).symm he'
    exact w.root k e he (hpprev.trans hp)
  · obtain ⟨e, he, hpprev, hheight⟩ := hread (hsame k).symm he'
    obtain ⟨ep, hep, hh⟩ := w.parent k e p he (hpprev.trans hp)
    obtain ⟨ep', hep', -, hheight'⟩ := hread (hsame p) hep
    exact ⟨ep', hep', by omega⟩

theorem ranked : Ranked st.pprev st.height := by
  intro k p hp
  obtain ⟨e, he, hep⟩ := known_of_pprev hp
  obtain ⟨e', he', hheight⟩ := w.parent k e p he hep
  rw [height_of_index he, height_of_index he', hheight]

theorem known_parent (hp : st.pprev h = some p) : ∃ e, st.index p = some e := by
  obtain ⟨e, he, hep⟩ := known_of_pprev hp
  obtain ⟨e', he', -⟩ := w.parent h e p he hep
  exact ⟨e', he'⟩

theorem above_genesis (he : st.index h = some e) : Above st.pprev genesis h := by
  induction h using w.ranked.induction generalizing e with
  | step h ih =>
    cases hp : e.pprev with
    | none =>
      rw [w.root h e he hp]
      exact .refl st.pprev genesis
    | some p =>
      have hpp : st.pprev h = some p := (pprev_of_index he).trans hp
      obtain ⟨e', he'⟩ := w.known_parent hpp
      exact (ih p hpp he').of_parent hpp

theorem known_above (ha : Above st.pprev a h) (he : st.index h = some e) : ∃ e', st.index a = some e' := by
  refine ha.holds (P := fun k => ∃ e', st.index k = some e') ⟨e, he⟩ ?_
  intro k p _ hp
  exact w.known_parent hp

theorem pprev_genesis : st.pprev genesis = none := by
  obtain ⟨e, he, hp, -⟩ := w.first
  exact (pprev_of_index he).trans hp

theorem height_genesis : st.height genesis = 0 := by
  obtain ⟨e, he, -, hheight⟩ := w.first
  exact (height_of_index he).trans hheight

end

end Rooted

namespace Wired

variable {h : Uint256}

section

variable (w : Wired genesis st)

include w

theorem linked (he : st.index h = some e) :
    e.nChainTx ≠ 0 ↔ e.data.isSome = true ∧ ∀ p, e.pprev = some p → st.chainTx p ≠ 0 :=
  w.settled h e he List.not_mem_nil

/-- **`mapBlocksUnlinked` holds exactly what has a body and is not linked.** -/
theorem mem_unlinked :
    (p, h) ∈ st.mapBlocksUnlinked ↔ st.pprev h = some p ∧ st.haveData h = true ∧ st.chainTx h = 0 := by
  rw [w.waiting p h, waits_iff]
  exact and_iff_left List.not_mem_nil

theorem data_of_linked (hlinked : st.chainTx h ≠ 0) : st.haveData h = true := by
  obtain ⟨e, he⟩ := known_of_chainTx hlinked
  rw [chainTx_of_index he] at hlinked
  rw [haveData_of_index he]
  exact (w.linked he |>.mp hlinked).1

theorem linked_parent (hlinked : st.chainTx h ≠ 0) (hp : st.pprev h = some p) : st.chainTx p ≠ 0 := by
  obtain ⟨e, he⟩ := known_of_chainTx hlinked
  rw [chainTx_of_index he] at hlinked
  exact (w.linked he |>.mp hlinked).2 p ((pprev_of_index he).symm.trans hp)

theorem linked_above (hlinked : st.chainTx h ≠ 0) (ha : Above st.pprev a h) : st.chainTx a ≠ 0 :=
  ha.holds (P := fun k => st.chainTx k ≠ 0) hlinked fun _ _ hk hp => w.linked_parent hk hp

/-- **`nChainTx` says whether all bodies down to the first block are there.** -/
theorem chainTx_iff (he : st.index h = some e) : st.chainTx h ≠ 0 ↔ ∀ a, Above st.pprev a h → st.haveData a = true := by
  constructor
  · intro hlinked a ha
    exact w.data_of_linked (w.linked_above hlinked ha)
  intro hdata
  induction h using w.ranked.induction generalizing e with
  | step h ih =>
    have hown := hdata h (.refl st.pprev h)
    rw [haveData_of_index he] at hown
    rw [chainTx_of_index he, w.linked he]
    refine ⟨hown, fun p hp => ?_⟩
    have hpp : st.pprev h = some p := (pprev_of_index he).trans hp
    obtain ⟨e', he'⟩ := w.known_parent hpp
    exact ih p hpp he' fun a ha => hdata a (ha.of_parent hpp)

theorem kept (hkept : Kept st st') : Wired genesis st' := by
  have hback : ∀ {k e'}, st'.index k = some e' → ∃ e, st.index k = some e ∧ e'.link = e.link := by
    grind [hkept.symm.known]
  refine { toRooted := w.toRooted.of_places (hkept.map_eq fun _ => rfl), bodies := ?_, sequence := ?_, settled := ?_,
           ready := ?_, waiting := ?_, once := ?_, queued := List.nodup_nil }
  · grind [w.bodies, link_data]
  · intro k e' he' h0
    obtain ⟨e, he, hl⟩ := hback he'
    rw [link_nSequenceId hl]
    exact w.sequence k e he ((link_nChainTx hl).symm.trans h0)
  · intro k e' he' _
    obtain ⟨e, he, hl⟩ := hback he'
    rw [link_nChainTx hl, link_data hl, link_pprev hl, hkept.chainTx]
    exact w.linked he
  · intro k hk
    cases hk
  · intro p k
    rw [hkept.unlinked, w.waiting p k, waits_iff, waits_iff, hkept.pprev, hkept.haveData, hkept.chainTx]
  · rw [hkept.unlinked]
    exact w.once

end

end Wired

end ChainGlobals

end PwrbCore
