/-
  Node.AddrManRuns — THE ADDRESS MANAGER STAYS CONSISTENT.

  `Consistent` joins the parts: `vRandom` and the positions, `mapAddr` and the addresses, the
  tables (`Placed`), the counters, and the times.  Inside a call an entry may be loose and may
  be missing from the counters; between calls neither.

  Main result: `addrman_stays_consistent`.
-/
import PwrbCore.Lib.BackPointers
import PwrbCore.Node.AddrTables

namespace PwrbCore

open List Option StdMap Function CAddrInfo CAddrMan SlotTable

/-! ## §1. Parts of the entries. -/

variable {m : StdMap Int CAddrInfo} {k nId nTime : Int} {info info' : CAddrInfo} {hash : BucketHash} {st : CAddrMan}
  {addr : CNetAddr}

def view {α : Type} (m : StdMap Int CAddrInfo) (f : CAddrInfo → α) (id : Int) : Option α := (m.get id).map f

def CAddrInfo.tableEntry (info : CAddrInfo) : TableEntry := ⟨info.toCService, info.nRefCount, info.fInTried⟩

def CAddrInfo.netAddr (info : CAddrInfo) : CNetAddr := info.toCNetAddr

/-- An entry up to its place in `vRandom`. -/
def CAddrInfo.body (info : CAddrInfo) : CAddrInfo := { info with nRandomPos := 0 }

section View

variable {α : Type} {m' : StdMap Int CAddrInfo} {f : CAddrInfo → α} {id : Int}

theorem view_of_get (h : m.get id = some info) : view m f id = some (f info) := by
  unfold view
  rw [h]
  rfl

theorem view_update {x : Option CAddrInfo} (h : ∀ k, m'.get k = if k = id then x else m.get k) :
    view m' f = update (view m f) id (x.map f) := by
  funext k
  unfold view
  rw [h]
  by_cases hk : k = id
  · rw [if_pos hk, hk, update_self]
  · rw [if_neg hk, update_of_ne hk]

theorem view_set (m : StdMap Int CAddrInfo) (f : CAddrInfo → α) (id : Int) (info : CAddrInfo) :
    view (m.set id info) f = update (view m f) id (some (f info)) :=
  view_update fun k => get_set m id k info

theorem view_remove (m : StdMap Int CAddrInfo) (f : CAddrInfo → α) (id : Int) :
    view (m.remove id) f = update (view m f) id none :=
  view_update fun k => get_remove m id k

theorem view_set_same (h : m.get id = some info) (hsame : f info' = f info) : view (m.set id info') f = view m f := by
  rw [view_set, hsame, ← view_of_get h, update_eq_self]

theorem get_of_body (h : view m' body k = view m body k) (hget : m.get k = some info) :
    ∃ info', m'.get k = some info' ∧ info'.toCService = info.toCService ∧ info'.fInTried = info.fInTried ∧
      info'.nRefCount = info.nRefCount ∧ info'.nLastSuccess = info.nLastSuccess := by
  rw [view_of_get hget] at h
  obtain ⟨info', hinfo', hbody⟩ := map_eq_some_iff.mp h
  have hfield : ∀ {β : Type} (f : CAddrInfo → β), f info'.body = f info.body := fun f => congrArg f hbody
  exact ⟨info', hinfo', hfield fun i => i.toCService, hfield fInTried, hfield nRefCount, hfield nLastSuccess⟩

end View

/-! ## §2. Consistency. -/

def CAddrInfo.newOne (info : CAddrInfo) : Int := if info.fInTried then 0 else 1

def CAddrInfo.triedOne (info : CAddrInfo) : Int := if info.fInTried then 1 else 0

/-- The times of an entry are not negative, and a tried one had success. -/
def CAddrInfo.Timed (info : CAddrInfo) : Prop :=
  0 ≤ info.nLastTry ∧ 0 ≤ info.nLastSuccess ∧ (info.fInTried = true → info.nLastSuccess ≠ 0)

/-- **Consistency**, with entries that are `loose` or that `nNew` does not count. -/
structure Consistent (hash : BucketHash) (loose : Int → Prop) (uncounted : Int) (st : CAddrMan) : Prop where
  key : st.nKey ≠ 0
  indexed : Indexed st.vRandom (view st.mapInfo CAddrInfo.nRandomPos)
  named : ∀ addr id, st.mapAddr.get addr = some id ↔ view st.mapInfo CAddrInfo.netAddr id = some addr
  placed : Placed hash st.nKey loose st.vvNew st.vvTried (view st.mapInfo CAddrInfo.tableEntry)
  newCount : st.nNew + uncounted = st.mapInfo.sumBy CAddrInfo.newOne
  triedCount : st.nTried = st.mapInfo.sumBy CAddrInfo.triedOne
  size : (st.vRandom.length : Int) = st.nTried + st.nNew + uncounted
  timed : ∀ id info, st.mapInfo.get id = some info → info.Timed

/-- Consistency between calls. -/
abbrev Settled (hash : BucketHash) (st : CAddrMan) : Prop := Consistent hash (fun _ => False) 0 st

def AddrCall.Positive : AddrCall → Prop
  | .good _ nTime => 0 < nTime
  | .attempt _ _ nTime => 0 < nTime
  | .connected _ nTime => 0 < nTime
  | _ => True

/-- If the call makes an entry, its id is unused and not the mark of an empty slot. -/
def AddrCall.FreshId (st : CAddrMan) : AddrCall → Prop
  | .add addr _ _ => st.find addr.toCNetAddr = none → st.mapInfo.get st.nIdCount = none ∧ st.nIdCount ≠ -1
  | _ => True

namespace Consistent

variable {loose loose' : Int → Prop} {uncounted : Int}

theorem loosen (h : Consistent hash loose uncounted st)
    (hloose : ∀ id info, st.mapInfo.get id = some info → info.fInTried = false → loose id →
      loose' id ∨ 1 ≤ info.nRefCount) :
    Consistent hash loose' uncounted st := by
  refine ⟨h.key, h.indexed, h.named, h.placed.loosen ?_, h.newCount, h.triedCount, h.size, h.timed⟩
  intro id e hid hnew hl
  obtain ⟨info, hget, rfl⟩ := map_eq_some_iff.mp hid
  exact hloose id info hget hnew hl

/-! ## §3. Changing one entry. -/

theorem newOne_add_triedOne (info : CAddrInfo) : info.newOne + info.triedOne = 1 := by
  unfold newOne triedOne
  cases info.fInTried <;> rfl

theorem newOne_eq (h : info.fInTried = false) : info.newOne = 1 := by simp [newOne, h]

theorem newOne_tried (h : info.fInTried = true) : info.newOne = 0 := by simp [newOne, h]

/-- **One entry changes, with tables and counters**; address and place stay. -/
theorem setEntry {uncounted' nNew nTried n : Int} {b : Bool} {vvNew : SlotTable NewBucket BucketPosition Int}
    {vvTried : SlotTable TriedBucket BucketPosition Int} (h : Consistent hash loose uncounted st)
    (hget : st.mapInfo.get nId = some info) (haddr : info'.toCService = info.toCService)
    (hpos : info'.nRandomPos = info.nRandomPos) (href : info'.nRefCount = n) (hin : info'.fInTried = b)
    (htimed : info'.Timed)
    (hplaced : Placed hash st.nKey loose' vvNew vvTried
      (update (view st.mapInfo tableEntry) nId (some ⟨info.toCService, n, b⟩)))
    (hnew : nNew + uncounted' + info.newOne = st.nNew + uncounted + info'.newOne)
    (htried : nTried + info.triedOne = st.nTried + info'.triedOne) : Consistent hash loose' uncounted' { st with
      mapInfo := st.mapInfo.set nId info', vvNew := vvNew, vvTried := vvTried, nNew := nNew, nTried := nTried } := by
  have hnet : info'.netAddr = info.netAddr := by
    unfold netAddr
    rw [haddr]
  refine ⟨h.key, ?_, ?_, ?_, ?_, ?_, ?_, ?_⟩
  · show Indexed st.vRandom (view (st.mapInfo.set nId info') nRandomPos)
    rw [view_set_same hget hpos]
    exact h.indexed
  · show ∀ addr id, st.mapAddr.get addr = some id ↔ view (st.mapInfo.set nId info') netAddr id = some addr
    rw [view_set_same hget hnet]
    exact h.named
  · show Placed hash st.nKey loose' vvNew vvTried (view (st.mapInfo.set nId info') tableEntry)
    rw [view_set, tableEntry, haddr, href, hin]
    exact hplaced
  · have hset := sumBy_set_of_get newOne info' hget
    have hcount := h.newCount
    show nNew + uncounted' = (st.mapInfo.set nId info').sumBy newOne
    omega
  · have hset := sumBy_set_of_get triedOne info' hget
    have hcount := h.triedCount
    show nTried = (st.mapInfo.set nId info').sumBy triedOne
    omega
  · have hsize := h.size
    have hone := newOne_add_triedOne info
    have hone' := newOne_add_triedOne info'
    show (st.vRandom.length : Int) = nTried + nNew + uncounted'
    omega
  · grind [get_set, h.timed]

theorem setInfo (h : Consistent hash loose uncounted st) (hget : st.mapInfo.get nId = some info) (info' : CAddrInfo)
    (haddr : info'.toCService = info.toCService) (href : info'.nRefCount = info.nRefCount)
    (hin : info'.fInTried = info.fInTried) (hpos : info'.nRandomPos = info.nRandomPos) (htimed : info'.Timed) :
    Consistent hash loose uncounted { st with mapInfo := st.mapInfo.set nId info' } := by
  refine h.setEntry hget haddr hpos href hin htimed ?_ ?_ ?_
  · have hsame : view st.mapInfo tableEntry nId = some ⟨info.toCService, info.nRefCount, info.fInTried⟩ :=
      view_of_get hget
    rw [← hsame, update_eq_self]
    exact h.placed
  · unfold newOne
    rw [hin]
  · unfold triedOne
    rw [hin]

/-! ## §4. `SwapRandom`, `Delete`, `ClearNew`. -/

/-- A set on an entry that is there does not change a sum that it leaves alone. -/
theorem sumBy_set_same {f : CAddrInfo → Int} (hget : m.get nId = some info)
    (hsame : f info' = f info) : (m.set nId info').sumBy f = m.sumBy f := by
  have hset := sumBy_set_of_get f info' hget
  omega

section

variable (h : Consistent hash loose uncounted st)

include h

/-- Two places of `vRandom` are exchanged; nothing else changes. -/
theorem swapRandom {nRndPos1 nRndPos2 : Nat} (h1 : nRndPos1 < st.vRandom.length) (h2 : nRndPos2 < st.vRandom.length) :
    ∃ m v, st.swapRandom nRndPos1 nRndPos2 = some { st with mapInfo := m, vRandom := v } ∧
      Consistent hash loose uncounted { st with mapInfo := m, vRandom := v } ∧ v.length = st.vRandom.length ∧
      v[nRndPos2]? = st.vRandom[nRndPos1]? ∧ ∀ k, view m body k = view st.mapInfo body k := by
  by_cases hne : nRndPos1 = nRndPos2
  · refine ⟨st.mapInfo, st.vRandom, ?_, h, rfl, ?_, fun k => rfl⟩
    · unfold CAddrMan.swapRandom
      rw [if_pos hne]
    · rw [hne]
  have hv1 : st.vRandom[nRndPos1]? = some st.vRandom[nRndPos1] := getElem?_eq_getElem h1
  have hv2 : st.vRandom[nRndPos2]? = some st.vRandom[nRndPos2] := getElem?_eq_getElem h2
  generalize st.vRandom[nRndPos1] = nId1 at hv1
  generalize st.vRandom[nRndPos2] = nId2 at hv2
  obtain ⟨info1, hget1, -⟩ := map_eq_some_iff.mp (h.indexed.remembers _ _ hv1)
  obtain ⟨info2, hget2, -⟩ := map_eq_some_iff.mp (h.indexed.remembers _ _ hv2)
  have hids : nId2 ≠ nId1 := by grind [h.indexed.index_unique]
  -- the second assignment finds what was there before the first
  have hget2' : (st.mapInfo.set nId1 { info1 with nRandomPos := nRndPos2 }).get nId2 = some info2 := by
    rw [get_set_of_ne _ _ hids]
    exact hget2
  have hview : ∀ {α : Type} (f : CAddrInfo → α), (∀ i p, f { i with nRandomPos := p } = f i) →
      view ((st.mapInfo.set nId1 { info1 with nRandomPos := nRndPos2 }).set nId2
        { info2 with nRandomPos := nRndPos1 }) f
        = view st.mapInfo f := by grind [view_set_same]
  have hsum : ∀ f : CAddrInfo → Int, (∀ i p, f { i with nRandomPos := p } = f i) →
      ((st.mapInfo.set nId1 { info1 with nRandomPos := nRndPos2 }).set nId2
        { info2 with nRandomPos := nRndPos1 }).sumBy f
        = st.mapInfo.sumBy f := by grind [sumBy_set_same]
  refine ⟨(st.mapInfo.set nId1 { info1 with nRandomPos := nRndPos2 }).set nId2 { info2 with nRandomPos := nRndPos1 },
    (st.vRandom.set nRndPos1 nId2).set nRndPos2 nId1, ?_, ⟨h.key, ?_, ?_, ?_, ?_, ?_, ?_, ?_⟩, ?_, ?_, ?_⟩
  · unfold CAddrMan.swapRandom
    rw [if_neg hne, hv1, hv2]
    dsimp only
    rw [hget1, hget2]
  · show Indexed _ (view (set _ _ _) nRandomPos)
    rw [view_set, view_set]
    exact h.indexed.swap hv1 hv2 hne
  · show ∀ addr id, st.mapAddr.get addr = some id ↔ view (set _ _ _) netAddr id = some addr
    rw [hview netAddr fun _ _ => rfl]
    exact h.named
  · show Placed hash st.nKey loose st.vvNew st.vvTried (view (set _ _ _) tableEntry)
    rw [hview tableEntry fun _ _ => rfl]
    exact h.placed
  · show st.nNew + uncounted = sumBy _ (set _ _ _)
    rw [hsum newOne fun _ _ => rfl]
    exact h.newCount
  · show st.nTried = sumBy _ (set _ _ _)
    rw [hsum triedOne fun _ _ => rfl]
    exact h.triedCount
  · show (((st.vRandom.set nRndPos1 nId2).set nRndPos2 nId1).length : Int) = _
    rw [length_set, length_set]
    exact h.size
  · intro id i hi
    rw [get_set, get_set] at hi
    split_ifs at hi
    · cases hi
      exact h.timed nId2 info2 hget2
    · cases hi
      exact h.timed nId1 info1 hget1
    · exact h.timed id i hi
  · rw [length_set, length_set]
  · rw [getElem?_set_self (by rw [length_set]; exact h2), hv1]
  · intro k
    rw [hview body fun _ _ => rfl]

/-- A loose entry is deleted; of the others only the places change. -/
theorem delete (hget : st.mapInfo.get nId = some info) (hin : info.fInTried = false)
    (href : info.nRefCount = 0) : ∃ st', st.delete nId = some st' ∧ Consistent hash loose uncounted st' ∧
      st' = { st with mapInfo := st'.mapInfo, vRandom := st'.vRandom, mapAddr := st'.mapAddr, nNew := st.nNew - 1 } ∧
      st'.mapInfo.get nId = none ∧ ∀ k, k ≠ nId → view st'.mapInfo CAddrInfo.body k = view st.mapInfo .body k := by
  obtain ⟨hpos, hstands⟩ := h.indexed.stands nId info.nRandomPos (view_of_get hget)
  have hlt : info.nRandomPos.toNat < st.vRandom.length := (List.getElem?_eq_some_iff.mp hstands).1
  have hne : st.vRandom ≠ [] := by
    intro hnil
    rw [hnil] at hlt
    exact Nat.not_lt_zero _ hlt
  obtain ⟨m, v, hswap, hcons, hlen, hlast, hbody⟩ :=
    h.swapRandom hlt (show st.vRandom.length - 1 < st.vRandom.length by omega)
  rw [hstands] at hlast
  obtain ⟨info₁, hget₁, haddr1, hin1, href1, -⟩ := get_of_body (hbody nId) hget
  rw [hin] at hin1
  rw [href] at href1
  have hnet1 : info₁.netAddr = info.netAddr := congrArg (fun a : CService => a.toCNetAddr) haddr1
  refine ⟨{ st with
      mapInfo := m.remove nId, vRandom := v.dropLast
      mapAddr := st.mapAddr.remove info.netAddr, nNew := st.nNew - 1 },
    ?_, ⟨h.key, ?_, ?_, ?_, ?_, ?_, ?_, ?_⟩, rfl, ?_, ?_⟩
  · unfold CAddrMan.delete
    rw [hget]
    dsimp only
    rw [if_neg (by rw [hin, href]; simp), if_neg (by rw [not_or]; exact ⟨by omega, hne⟩), hswap]
    rfl
  · show Indexed v.dropLast (view (m.remove nId) nRandomPos)
    rw [view_remove]
    apply hcons.indexed.pop
    rw [← hlen] at hlast
    exact hlast
  · -- no other entry has this address
    intro addr id
    show (st.mapAddr.remove info.netAddr).get addr = some id ↔ view (m.remove nId) netAddr id = some addr
    have hnamed : st.mapAddr.get addr = some id ↔ view m netAddr id = some addr := hcons.named addr id
    have hown : st.mapAddr.get info.netAddr = some nId := by
      rw [h.named]
      exact view_of_get hget
    rw [get_remove, view_remove]
    by_cases hid : id = nId
    · grind [view_of_get]
    · grind
  · show Placed hash st.nKey loose st.vvNew st.vvTried (view (m.remove nId) tableEntry)
    rw [view_remove]
    exact hcons.placed.delete (view_of_get hget₁) hin1 href1
  · have hsum := sumBy_remove newOne hget₁
    have hone := newOne_eq hin1
    have hcount : st.nNew + uncounted = m.sumBy newOne := hcons.newCount
    show st.nNew - 1 + uncounted = (m.remove nId).sumBy newOne
    omega
  · have hsum := sumBy_remove triedOne hget₁
    have hone := newOne_eq hin1
    have hsplit := newOne_add_triedOne info₁
    have hcount : st.nTried = m.sumBy triedOne := hcons.triedCount
    show st.nTried = (m.remove nId).sumBy triedOne
    omega
  · have hsize := h.size
    show (v.dropLast.length : Int) = st.nTried + (st.nNew - 1) + uncounted
    rw [length_dropLast]
    omega
  · grind [get_remove, hcons.timed]
  · show (m.remove nId).get nId = none
    rw [get_remove, if_pos rfl]
  · intro k hk
    show view (m.remove nId) body k = _
    rw [view_remove, update_of_ne hk]
    exact hbody k

/-- A slot of the new table is cleared; an entry that has no other goes. -/
theorem clearNew (b : NewBucket) (p : BucketPosition) :
    ∃ st', st.clearNew b p = some st' ∧ Consistent hash loose uncounted st' ∧ st'.vvNew b p = -1 ∧
      st'.vvTried = st.vvTried ∧ st'.nKey = st.nKey ∧
      ∀ k, k ≠ st.vvNew b p → view st'.mapInfo body k = view st.mapInfo body k := by
  by_cases hempty : st.vvNew b p = -1
  · grind [clearNew]
  obtain ⟨e, he, -⟩ := h.placed.newAt b p hempty
  have hrefs := h.placed.refs_of_mem he rfl
  have hnew := h.placed.new_of_mem he rfl
  have htake := h.placed.takeSlot he rfl
  generalize hid : st.vvNew b p = nId at hempty he htake
  obtain ⟨info, hget, rfl⟩ := map_eq_some_iff.mp he
  have hpos : 1 ≤ info.nRefCount := hrefs
  have hin : info.fInTried = false := hnew
  -- the entry with one reference less
  have hcons : Consistent hash (fun j => loose j ∨ j = nId) uncounted { st with
      mapInfo := st.mapInfo.set nId { info with nRefCount := info.nRefCount - 1 }, vvNew := st.vvNew.set b p (-1) } :=
    h.setEntry hget rfl rfl rfl hin (h.timed nId info hget) htake rfl rfl
  have hget' : (st.mapInfo.set nId { info with nRefCount := info.nRefCount - 1 }).get nId
      = some { info with nRefCount := info.nRefCount - 1 } := get_set_self _ _ _
  have hbody : ∀ k, k ≠ nId → view (st.mapInfo.set nId { info with nRefCount := info.nRefCount - 1 }) body k
      = view st.mapInfo body k := by
    intro k hk
    rw [view_set, update_of_ne hk]
  by_cases hzero : info.nRefCount - 1 = 0
  · obtain ⟨st', hdelete, hcons', hst', hgone, hbody'⟩ := hcons.delete hget' hin hzero
    refine ⟨st', ?_, ?_, ?_, ?_, ?_, ?_⟩
    · unfold CAddrMan.clearNew
      rw [hid, if_neg hempty, hget]
      dsimp only
      rw [if_neg (by omega), if_pos hzero]
      exact hdelete
    · apply hcons'.loosen
      intro id i hi _ hl
      rcases hl with hl | rfl
      · exact .inl hl
      · rw [hgone] at hi
        cases hi
    · rw [hst']
      exact set_self _ _ _ _
    · rw [hst']
    · rw [hst']
    · intro k hk
      rw [hbody' k hk]
      exact hbody k hk
  · refine ⟨{ st with
        mapInfo := st.mapInfo.set nId { info with nRefCount := info.nRefCount - 1 }, vvNew := st.vvNew.set b p (-1) },
      ?_, ?_, set_self _ _ _ _, rfl, rfl, hbody⟩
    · unfold CAddrMan.clearNew
      rw [hid, if_neg hempty, hget]
      dsimp only
      rw [if_neg (by omega), if_neg hzero]
    · apply hcons.loosen
      intro id i hi _ hl
      rcases hl with hl | rfl
      · exact .inl hl
      rw [hget'] at hi
      cases hi
      right
      show 1 ≤ info.nRefCount - 1
      omega

/-! ## §5. `MakeTried`, `Good_`. -/

theorem leaveNew (hget : st.mapInfo.get nId = some info) (hin : info.fInTried = false) :
    Consistent hash (fun j => loose j ∨ j = nId) (uncounted + 1) (st.leaveNew hash info nId) ∧
      (st.leaveNew hash info nId).mapInfo.get nId = some { info with nRefCount := 0 } := by
  have hentry : view st.mapInfo tableEntry nId = some info.tableEntry := view_of_get hget
  obtain ⟨htable, hcount⟩ := foldl_clearStep (hash.newPlace st.nKey info.toCService) nId (-1) st.vvNew
    info.nRefCount (finRange 1024) (nodup_finRange 1024)
  -- every reference is found
  have hzero : ((finRange 1024).foldl (clearStep (hash.newPlace st.nKey info.toCService) nId (-1))
      (st.vvNew, info.nRefCount)).2 = 0 := by
    have hrefs : info.nRefCount = refs st.vvNew (hash.newPlace st.nKey info.toCService) nId :=
      h.placed.counted nId _ hentry
    rw [hcount, countP_eq_refs (nodup_finRange 1024) (fun b => mem_finRange b), hrefs, sub_self]
  have hinfo : (st.leaveNew hash info nId).mapInfo = st.mapInfo.set nId { info with nRefCount := 0 } := by
    show st.mapInfo.set nId { info with nRefCount := _ } = _
    rw [← hzero]
  refine ⟨?_, by rw [hinfo]; exact get_set_self _ _ _⟩
  have hst : st.leaveNew hash info nId = { st with
      mapInfo := st.mapInfo.set nId { info with nRefCount := 0 }
      vvNew := ((finRange 1024).foldl (clearStep (hash.newPlace st.nKey info.toCService) nId (-1))
        (st.vvNew, info.nRefCount)).1
      nNew := st.nNew - 1 } := by
    rw [← hinfo]
    rfl
  rw [hst]
  refine h.setEntry hget rfl rfl rfl hin (h.timed nId info hget) ?_ ?_ rfl
  · exact h.placed.leave hentry hin ((finRange 1024).foldl
      (clearStep (hash.newPlace st.nKey info.toCService) nId (-1)) (st.vvNew, info.nRefCount)).1 (by
        intro b p
        rw [htable]
        simp only [mem_finRange, true_and]
        rfl)
  · show st.nNew - 1 + (uncounted + 1) + info.newOne = st.nNew + uncounted + info.newOne
    omega

/-- The entry in a tried slot goes back to the new table. Loose entries do not change. -/
theorem evictTried (k : TriedBucket) (q : BucketPosition) :
    ∃ st', st.evictTried hash k q = some st' ∧ Consistent hash loose uncounted st' ∧ st'.vvTried k q = -1 ∧
      st'.nKey = st.nKey ∧ ∀ j i, st.mapInfo.get j = some i → i.fInTried = false → i.nRefCount = 0 →
        view st'.mapInfo CAddrInfo.body j = view st.mapInfo body j := by
  by_cases hempty : st.vvTried k q = -1
  · grind [evictTried]
  obtain ⟨e, he, hin, -⟩ := h.placed.triedAt k q hempty
  have hleave := h.placed.leaveTried he rfl
  generalize hid : st.vvTried k q = nIdEvict at hempty he hleave
  obtain ⟨infoOld, hget, rfl⟩ := map_eq_some_iff.mp he
  have hin' : infoOld.fInTried = true := hin
  have hzero : infoOld.nRefCount = 0 := (h.placed.tried nIdEvict _ he hin).1
  -- out of the tried table
  have hcons1 : Consistent hash (fun j => loose j ∨ j = nIdEvict) (uncounted + 1)
      (st.leaveTried infoOld nIdEvict k q) := by
    refine h.setEntry hget rfl rfl hzero rfl ?_ hleave ?_ ?_
    · obtain ⟨htry, hsuccess, -⟩ := h.timed nIdEvict infoOld hget
      exact ⟨htry, hsuccess, Bool.noConfusion⟩
    · have hone := newOne_tried hin'
      show st.nNew + (uncounted + 1) + infoOld.newOne = st.nNew + uncounted + 1
      omega
    · have hone := newOne_tried hin'
      have hsplit := newOne_add_triedOne infoOld
      show st.nTried - 1 + infoOld.triedOne = st.nTried + 0
      omega
  have hget₁ : (st.leaveTried infoOld nIdEvict k q).mapInfo.get nIdEvict = some { infoOld with fInTried := false } :=
    get_set_self _ _ _
  have hbody1 : ∀ j, j ≠ nIdEvict →
      (st.leaveTried infoOld nIdEvict k q).mapInfo.get j = st.mapInfo.get j := fun j hj => get_set_of_ne _ _ hj
  -- what is in the way there is cleared; it is not an entry without references
  obtain ⟨st2, hclear, hcons2, hslot2, htried2, hkey2, hbody2⟩ := hcons1.clearNew
    (hash.getNewBucket st.nKey infoOld.toCService infoOld.source)
    (hash.newPlace st.nKey infoOld.toCService (hash.getNewBucket st.nKey infoOld.toCService infoOld.source))
  generalize hb : hash.getNewBucket st.nKey infoOld.toCService infoOld.source = b at hclear hslot2 hbody2
  generalize hp : hash.newPlace st.nKey infoOld.toCService b = p at hclear hslot2 hbody2
  have hother : ∀ j i, (st.leaveTried infoOld nIdEvict k q).mapInfo.get j = some i → i.nRefCount = 0 →
      j ≠ (st.leaveTried infoOld nIdEvict k q).vvNew b p := by
    intro j i hj hi heq
    have hpos : 1 ≤ i.nRefCount := hcons1.placed.refs_of_mem (view_of_get hj) heq.symm
    omega
  obtain ⟨infoOld2, hget₂, haddr2, hin2, href2, -⟩ :=
    get_of_body (hbody2 nIdEvict (hother nIdEvict _ hget₁ hzero)) hget₁
  have hzero2 : infoOld2.nRefCount = 0 := href2.trans hzero
  have hkey : st2.nKey = st.nKey := hkey2
  refine ⟨{ st2 with
    mapInfo := st2.mapInfo.set nIdEvict { infoOld2 with nRefCount := 1 }, vvNew := st2.vvNew.set b p nIdEvict
    nNew := st2.nNew + 1 }, ?_, ?_, ?_, hkey, ?_⟩
  · grind [evictTried, returnNew]
  · -- into the new table
    refine hcons2.setEntry hget₂ rfl rfl (by rw [hzero2]; rfl : (1 : Int) = infoOld2.nRefCount + 1) hin2
      (hcons2.timed nIdEvict infoOld2 hget₂) ?_ ?_ rfl
    · have hplace : p = hash.newPlace st2.nKey infoOld2.tableEntry.addr b := by
        rw [hkey, ← hp]
        show hash.newPlace st.nKey infoOld.toCService b = hash.newPlace st.nKey infoOld2.toCService b
        rw [haddr2]
      rw [hplace] at hslot2 ⊢
      refine hcons2.placed.putSlot (view_of_get hget₂) hin2 hslot2 ?_ ?_
      · show infoOld2.nRefCount < 8
        omega
      intro j hj hl
      rcases hl with hl | heq
      · exact hl
      · exact absurd heq hj
    · show st2.nNew + 1 + uncounted + infoOld2.newOne = st2.nNew + (uncounted + 1) + infoOld2.newOne
      omega
  · show st2.vvTried k q = -1
    rw [htried2]
    exact set_self _ _ _ _
  · intro j i hj hi hij
    have hne : j ≠ nIdEvict := by grind
    rw [view_set, update_of_ne hne]
    have hj1 := hbody1 j hne
    rw [hbody2 j (hother j i (hj1.trans hj) hij)]
    unfold view
    rw [hj1]

end

/-- A loose entry that had success is put into its empty tried slot. -/
theorem enterTried (h : Consistent hash loose (uncounted + 1) st) (hget : st.mapInfo.get nId = some info)
    (hin : info.fInTried = false) (hzero : info.nRefCount = 0) (hsuccess : info.nLastSuccess ≠ 0) {k : TriedBucket}
    {q : BucketPosition} (hk : k = hash.getTriedBucket st.nKey info.toCService)
    (hq : q = hash.triedPlace st.nKey info.toCService k) (hempty : st.vvTried k q = -1)
    (hloose : ∀ j, j ≠ nId → loose j → loose' j) :
    ∃ st', st.enterTried nId k q = some st' ∧ Consistent hash loose' uncounted st' := by
  refine ⟨{ st with
    vvTried := st.vvTried.set k q nId, nTried := st.nTried + 1
    mapInfo := st.mapInfo.set nId { info with fInTried := true } },
    ?_, ?_⟩
  · unfold CAddrMan.enterTried
    rw [if_neg (by rw [hempty]; simp), hget]
    rfl
  refine h.setEntry hget rfl rfl hzero rfl ?_
    (h.placed.enterTried (view_of_get hget) hin hzero hk hq hempty hloose) ?_ ?_
  · obtain ⟨htry, hpos, -⟩ := h.timed nId info hget
    exact ⟨htry, hpos, fun _ => hsuccess⟩
  · have hone := newOne_eq hin
    show st.nNew + uncounted + info.newOne = st.nNew + (uncounted + 1) + 0
    omega
  · have hone := newOne_eq hin
    have hsplit := newOne_add_triedOne info
    show st.nTried + 1 + info.triedOne = st.nTried + 1
    omega

theorem makeTried (h : Settled hash st) (hget : st.mapInfo.get nId = some info)
    (hin : info.fInTried = false) (hsuccess : info.nLastSuccess ≠ 0) :
    ∃ st', st.makeTried hash info nId = some st' ∧ Settled hash st' := by
  obtain ⟨hcons1, hget₁⟩ := h.leaveNew hget hin
  obtain ⟨st2, hevict, hcons2, hslot2, hkey2, hbody2⟩ := hcons1.evictTried
    (hash.getTriedBucket st.nKey info.toCService)
    (hash.triedPlace st.nKey info.toCService (hash.getTriedBucket st.nKey info.toCService))
  obtain ⟨info₂, hget₂, haddr, hin2, hzero2, hsuccess2⟩ := get_of_body (hbody2 nId _ hget₁ hin rfl) hget₁
  have hkey : st2.nKey = st.nKey := hkey2
  have hnone : ∀ j, j ≠ nId → (False ∨ j = nId) → False := by simp_all
  obtain ⟨st3, henter, hcons3⟩ := hcons2.enterTried hget₂ (hin2.trans hin) hzero2 (by rw [hsuccess2]; exact hsuccess)
    (by rw [hkey, haddr]) (by rw [hkey, haddr]) hslot2 hnone
  refine ⟨st3, ?_, hcons3⟩
  unfold CAddrMan.makeTried
  dsimp only
  rw [hget₁]
  rw [hevict]
  exact henter

theorem lastGood (h : Consistent hash loose uncounted st) (nTime : Int) :
    Consistent hash loose uncounted { st with nLastGood := nTime } :=
  ⟨h.key, h.indexed, h.named, h.placed, h.newCount, h.triedCount, h.size, h.timed⟩

theorem get_of_find (hfind : st.find addr = some (nId, info)) : st.mapInfo.get nId = some info := by
  unfold find at hfind
  cases hget : st.mapAddr.get addr with
  | none =>
    rw [hget] at hfind
    cases hfind
  | some id => grind [map_eq_some_iff]

theorem get_of_find_none (h : Consistent hash loose uncounted st) (hfind : st.find addr = none) :
    st.mapAddr.get addr = none := by
  unfold find at hfind
  cases hget : st.mapAddr.get addr with
  | none => rfl
  | some id =>
    rw [hget] at hfind
    obtain ⟨i, hi, -⟩ := map_eq_some_iff.mp ((h.named addr id).mp hget)
    dsimp only at hfind
    rw [hi] at hfind
    cases hfind

theorem good_ (h : Settled hash st) (c : AddrChoice) (addr : CService) (hpos : 0 < nTime) :
    ∃ st', st.good_ hash c addr nTime = some st' ∧ Settled hash st' := by
  have hlast := h.lastGood nTime
  unfold CAddrMan.good_
  dsimp only
  cases hfind : find { st with nLastGood := nTime } addr.toCNetAddr with
  | none => exact ⟨_, rfl, hlast⟩
  | some found =>
    obtain ⟨nId, info⟩ := found
    have hget : st.mapInfo.get nId = some info := get_of_find hfind
    dsimp only
    by_cases hport : info.toCService ≠ addr
    · rw [if_pos hport]
      exact ⟨_, rfl, hlast⟩
    rw [if_neg hport]
    have htimed : ({ info with nLastSuccess := nTime, nLastTry := nTime, nAttempts := 0 } : CAddrInfo).Timed :=
      ⟨le_of_lt hpos, le_of_lt hpos, fun _ => by show nTime ≠ 0; omega⟩
    have hset := hlast.setInfo hget { info with nLastSuccess := nTime, nLastTry := nTime, nAttempts := 0 }
      rfl rfl rfl rfl htimed
    by_cases hin : info.fInTried = true
    · rw [if_pos hin]
      exact ⟨_, rfl, hset⟩
    split_ifs
    · exact hset.makeTried (get_set_self _ _ _) (by simpa using hin) (by show nTime ≠ 0; omega)
    · exact ⟨_, rfl, hset⟩

/-! ## §6. `Add_`. -/

theorem create (h : Settled hash st) (addr : CAddress) (source : CNetAddr)
    (hnone : st.mapAddr.get addr.toCNetAddr = none) (hfresh : st.mapInfo.get st.nIdCount = none)
    (hid : st.nIdCount ≠ -1) :
    Consistent hash (fun j => j = st.nIdCount) 0 { (st.create addr source).2 with nNew := st.nNew + 1 } := by
  have hview : ∀ {α : Type} (f : CAddrInfo → α), view st.mapInfo f st.nIdCount = none := by
    intro α f
    unfold view
    rw [hfresh]
    rfl
  refine ⟨h.key, ?_, ?_, ?_, ?_, ?_, ?_, ?_⟩
  · show Indexed (st.vRandom ++ [st.nIdCount]) (view (st.mapInfo.set _ _) nRandomPos)
    rw [view_set]
    exact h.indexed.push (hview _)
  · intro a id
    show (st.mapAddr.set addr.toCNetAddr st.nIdCount).get a = some id ↔
      view (st.mapInfo.set st.nIdCount (st.newInfo addr source)) netAddr id = some a
    have hnet : (st.newInfo addr source).netAddr = addr.toCNetAddr := rfl
    rw [view_set, get_set, hnet]
    by_cases hid' : id = st.nIdCount
    · subst hid'
      by_cases ha : a = addr.toCNetAddr
      · rw [ha]
        simp
      · -- the id was not in use
        rw [if_neg ha, h.named, hview]
        simp [Ne.symm ha]
    · rw [update_of_ne hid', ← h.named]
      by_cases ha : a = addr.toCNetAddr
      · rw [ha, hnone]
        simp [Ne.symm hid']
      · rw [if_neg ha]
  · show Placed hash st.nKey _ st.vvNew st.vvTried (view (st.mapInfo.set _ _) tableEntry)
    rw [view_set]
    apply (h.placed.create (hview _) hid addr.toCService).loosen
    intro id e _ _ hl
    rcases hl with hl | heq
    · exact hl.elim
    · exact .inl heq
  · have hset := sumBy_set newOne (st.newInfo addr source) hfresh
    have hcount := h.newCount
    have hone : (st.newInfo addr source).newOne = 1 := rfl
    show st.nNew + 1 + 0 = (st.mapInfo.set _ _).sumBy newOne
    omega
  · have hset := sumBy_set triedOne (st.newInfo addr source) hfresh
    have hcount := h.triedCount
    have hone : (st.newInfo addr source).triedOne = 0 := rfl
    show st.nTried = (st.mapInfo.set _ _).sumBy triedOne
    omega
  · have hsize := h.size
    show ((st.vRandom ++ [st.nIdCount]).length : Int) = st.nTried + (st.nNew + 1) + 0
    rw [length_append, length_singleton]
    omega
  · intro id i hi
    have hi' : (st.mapInfo.set st.nIdCount (st.newInfo addr source)).get id = some i := hi
    rw [get_set] at hi'
    split_ifs at hi'
    · cases hi'
      exact ⟨le_rfl, le_rfl, Bool.noConfusion⟩
    · exact h.timed id i hi'

/-- The entry is put into its bucket, or deleted if it is in none. -/
theorem placeNew (h : Consistent hash (fun j => j = nId) 0 st) (c : AddrChoice) (source : CNetAddr)
    (hget : st.mapInfo.get nId = some info) (hin : info.fInTried = false)
    (hmax : info.nRefCount ≠ ADDRMAN_NEW_BUCKETS_PER_ADDRESS) :
    ∃ st', st.placeNew hash c source nId = some st' ∧ Settled hash st' := by
  have hentry : view st.mapInfo tableEntry nId = some info.tableEntry := view_of_get hget
  have hle : info.nRefCount ≤ ADDRMAN_NEW_BUCKETS_PER_ADDRESS := (h.placed.new nId _ hentry hin).2
  have hnonneg : 0 ≤ info.nRefCount := by
    have hcount : info.nRefCount = refs st.vvNew (hash.newPlace st.nKey info.toCService) nId :=
      h.placed.counted nId _ hentry
    omega
  unfold CAddrMan.placeNew
  rw [hget]
  dsimp only
  generalize hash.getNewBucket st.nKey info.toCService source = b
  generalize hp : hash.newPlace st.nKey info.toCService b = p
  by_cases hthere : st.vvNew b p = nId
  · rw [if_pos hthere]
    refine ⟨st, rfl, h.loosen ?_⟩
    intro id i hi _ hl
    right
    have hid : id = nId := hl
    rw [hid, hget] at hi
    cases hi
    exact h.placed.refs_of_mem hentry hthere
  -- `mapInfo[..]` finds the entry in the slot
  have hsame : (if st.vvNew b p = -1 then st
      else { st with mapInfo := st.mapInfo.insertNew (st.vvNew b p) blank }) = st := by
    split_ifs with hempty
    · rfl
    obtain ⟨e, he, -⟩ := h.placed.newAt b p hempty
    obtain ⟨old, hold, -⟩ := map_eq_some_iff.mp he
    unfold insertNew
    rw [hold]
  rw [hsame]
  split_ifs with hinsert hzero
  · obtain ⟨st2, hclear, hcons2, hslot2, -, hkey2, hbody2⟩ := h.clearNew b p
    obtain ⟨info₂, hget₂, haddr2, hin2, href2, -⟩ := get_of_body (hbody2 nId (.symm hthere)) hget
    rw [hin] at hin2
    rw [hclear]
    dsimp only
    rw [hget₂]
    refine ⟨_, rfl, hcons2.setEntry hget₂ rfl rfl rfl hin2 (hcons2.timed nId info₂ hget₂) ?_ rfl rfl⟩
    have hplace : p = hash.newPlace st2.nKey info₂.tableEntry.addr b := by
      rw [hkey2, ← hp]
      show hash.newPlace st.nKey info.toCService b = hash.newPlace st.nKey info₂.toCService b
      rw [haddr2]
    rw [hplace] at hslot2 ⊢
    refine hcons2.placed.putSlot (view_of_get hget₂) hin2 hslot2 ?_ ?_
    · show info₂.nRefCount < ADDRMAN_NEW_BUCKETS_PER_ADDRESS
      omega
    · exact fun j hj hl => hj hl
  · obtain ⟨st', hdelete, hcons', -, hgone, -⟩ := h.delete hget hin hzero
    refine ⟨st', hdelete, hcons'.loosen ?_⟩
    intro id i hi _ hl
    have hid : id = nId := hl
    rw [hid, hgone] at hi
    cases hi
  · grind [h.loosen]

theorem add_ (h : Settled hash st) (c : AddrChoice) (addr : CAddress)
    (source : CNetAddr) (nTimePenalty : Int)
    (hfresh : st.find addr.toCNetAddr = none → st.mapInfo.get st.nIdCount = none ∧ st.nIdCount ≠ -1) :
    ∃ r, st.add_ hash c addr source nTimePenalty = some r ∧ Settled hash r.2 := by
  unfold CAddrMan.add_
  by_cases hroutable : addr.toCNetAddr.isRoutable = false
  · rw [if_pos hroutable]
    exact ⟨_, rfl, h⟩
  rw [if_neg hroutable]
  cases hfind : st.find addr.toCNetAddr with
  | none =>
    obtain ⟨hunused, hid⟩ := hfresh hfind
    have hcreate := h.create addr source (h.get_of_find_none hfind) hunused hid
    have hget : (st.mapInfo.set st.nIdCount (st.newInfo addr source)).get st.nIdCount = some (st.newInfo addr source) :=
      get_set_self _ _ _
    have hset : Consistent hash (fun j => j = st.nIdCount) 0 (st.created addr source nTimePenalty) :=
      hcreate.setInfo hget _ rfl rfl rfl rfl ⟨le_rfl, le_rfl, nofun⟩
    have hget' : (st.created addr source nTimePenalty).mapInfo.get st.nIdCount
        = some { st.newInfo addr source with nTime := .ofInt (max 0 (addr.nTime.toNat - nTimePenalty)) } :=
      get_set_self _ _ _
    have hmax : (0 : Int) ≠ ADDRMAN_NEW_BUCKETS_PER_ADDRESS := by decide
    obtain ⟨st', hplace, hcons'⟩ := hset.placeNew c source hget' rfl hmax
    refine ⟨(true, st'), ?_, hcons'⟩
    rw [hplace]
    rfl
  | some found =>
    obtain ⟨nId, info⟩ := found
    have hget : st.mapInfo.get nId = some info := get_of_find hfind
    have hset := h.setInfo hget (refreshed info (c.getAdjustedTime 0) addr nTimePenalty) rfl rfl rfl rfl
      (h.timed nId info hget)
    dsimp only
    split_ifs with htime hin hmax hrandom
    · exact ⟨_, rfl, hset⟩
    · exact ⟨_, rfl, hset⟩
    · exact ⟨_, rfl, hset⟩
    · exact ⟨_, rfl, hset⟩
    · obtain ⟨st', hplace, hcons'⟩ := (hset.loosen (fun _ _ _ _ hl => hl.elim)).placeNew c source
        (get_set_self _ _ _) (by simpa using hin) hmax
      rw [hplace]
      exact ⟨_, rfl, hcons'⟩

/-! ## §7. The other calls. -/

section

variable (h : Consistent hash loose uncounted st)

include h

/-- A change of the entry that is found, if one is. -/
theorem changeFound (addr : CNetAddr) {change : Int → CAddrInfo → CAddrMan}
    (hchange : ∀ nId info, st.mapInfo.get nId = some info → Consistent hash loose uncounted (change nId info)) :
    Consistent hash loose uncounted (match st.find addr with | none => st | some (nId, info) => change nId info) := by
  cases hfind : st.find addr with
  | none => exact h
  | some found => exact hchange found.1 found.2 (get_of_find hfind)

theorem attempt_ (addr : CService) (fCountFailure : Bool) (hpos : 0 < nTime) :
    Consistent hash loose uncounted (st.attempt_ addr fCountFailure nTime) := by
  refine h.changeFound addr.toCNetAddr fun nId info hget => ?_
  obtain ⟨-, hsuccess, htried⟩ := h.timed nId info hget
  dsimp only
  split_ifs
  · exact h
  · exact h.setInfo hget _ rfl rfl rfl rfl ⟨le_of_lt hpos, hsuccess, htried⟩
  · exact h.setInfo hget _ rfl rfl rfl rfl ⟨le_of_lt hpos, hsuccess, htried⟩

theorem connected_ (addr : CService) (nTime : Int) : Consistent hash loose uncounted (st.connected_ addr nTime) := by
  refine h.changeFound addr.toCNetAddr fun nId info hget => ?_
  split_ifs
  · exact h
  · exact h.setInfo hget _ rfl rfl rfl rfl (h.timed nId info hget)
  · exact h

theorem setServices_ (addr : CService) (nServices : UInt64) :
    Consistent hash loose uncounted (st.setServices_ addr nServices) := by
  refine h.changeFound addr.toCNetAddr fun nId info hget => ?_
  split_ifs
  · exact h
  · exact h.setInfo hget _ rfl rfl rfl rfl (h.timed nId info hget)

/-- The loop of `GetAddr_` only exchanges places of `vRandom`. -/
theorem getAddrLoop (c : AddrChoice) (nNodes left : Nat) (hleft : left ≤ st.vRandom.length) (vAddr : List CAddress) :
    ∃ r, getAddrLoop c nNodes left st vAddr = some r ∧ Consistent hash loose uncounted r.2 := by
  induction left generalizing st vAddr with
  | zero => exact ⟨_, rfl, h⟩
  | succ left ih =>
    unfold getAddrLoop
    by_cases henough : nNodes ≤ vAddr.length
    · rw [if_pos henough]
      exact ⟨_, rfl, h⟩
    rw [if_neg henough]
    dsimp only
    generalize hn : st.vRandom.length - (left + 1) = n
    have hlt : n < st.vRandom.length := by omega
    have hrandom : c.randomInt n (st.vRandom.length - n) < st.vRandom.length - n := Nat.mod_lt _ (by omega)
    obtain ⟨m, v, hswap, hcons, hlen, -, -⟩ := h.swapRandom hlt
      (show c.randomInt n (st.vRandom.length - n) + n < st.vRandom.length by omega)
    rw [hswap]
    dsimp only
    obtain ⟨nId, hv⟩ : ∃ nId, v[n]? = some nId := ⟨_, getElem?_eq_getElem (by omega)⟩
    obtain ⟨info, hget, -⟩ := map_eq_some_iff.mp (hcons.indexed.remembers n nId hv)
    rw [hv, bind_some, show get m nId = some info from hget]
    exact ih hcons (show left ≤ v.length by omega) _

end

section

variable (h : Settled hash st)

include h

/-- **One call.** -/
theorem call (c : AddrChoice) (a : AddrCall) (htime : a.Positive)
    (hfresh : a.FreshId st) : ∃ st', st.call hash c a = some st' ∧ Settled hash st' := by
  cases a with
  | add addr source nTimePenalty =>
    obtain ⟨r, hadd, hcons⟩ := h.add_ c addr source nTimePenalty hfresh
    refine ⟨r.2, ?_, hcons⟩
    show (st.add_ hash c addr source nTimePenalty).map Prod.snd = some r.2
    rw [hadd]
    rfl
  | good addr nTime => exact h.good_ c addr htime
  | attempt addr fCountFailure nTime => exact ⟨_, rfl, h.attempt_ addr fCountFailure htime⟩
  | connected addr nTime => exact ⟨_, rfl, h.connected_ addr nTime⟩
  | setServices addr nServices => exact ⟨_, rfl, h.setServices_ addr nServices⟩
  | getAddr =>
    obtain ⟨r, hloop, hcons⟩ := h.getAddrLoop c _ _ (le_rfl) []
    refine ⟨r.2, ?_, hcons⟩
    show (st.getAddr_ c).map Prod.snd = some r.2
    unfold getAddr_
    rw [hloop]
    rfl

/-! ## §8. `Check_`. -/

theorem checkInfo (hget : st.mapInfo.get nId = some info) (acc : Finset Int × StdMap Int Int) :
    st.checkInfo acc nId info
      = .ok (if info.fInTried then (insert nId acc.1, acc.2) else (acc.1, acc.2.set nId info.nRefCount)) := by
  have hentry : view st.mapInfo tableEntry nId = some info.tableEntry := view_of_get hget
  obtain ⟨htry, hsuccess, htried⟩ := h.timed nId info hget
  obtain ⟨hpos, hstands⟩ := h.indexed.stands nId info.nRandomPos (view_of_get hget)
  have hlt : info.nRandomPos.toNat < st.vRandom.length := (List.getElem?_eq_some_iff.mp hstands).1
  have hzero : info.fInTried = true → info.nRefCount = 0 := fun hin => (h.placed.tried nId _ hentry hin).1
  have hnew : info.fInTried = false → 1 ≤ info.nRefCount ∧ info.nRefCount ≤ ADDRMAN_NEW_BUCKETS_PER_ADDRESS := by
    intro hin
    obtain ⟨hor, hle⟩ := h.placed.new nId _ hentry hin
    exact ⟨hor.resolve_left id, hle⟩
  have hname : st.mapAddr.get info.toCNetAddr = some nId := (h.named _ _).mpr (view_of_get hget)
  unfold CAddrMan.checkInfo
  rw [if_neg, if_neg, if_neg, if_neg, if_neg, if_neg, if_neg, if_neg]
  · omega
  · omega
  · rw [hstands]
    simp
    omega
  · rw [hname]
    simp
  · rintro ⟨hin, hno⟩
    have hone := (hnew hin).1
    omega
  · grind
  · rintro ⟨hin, hne⟩
    exact hne (hzero hin)
  · rintro ⟨hin, hno⟩
    exact htried hin hno

/-- **The first loop** collects the tried ids, and the new ids with references. -/
theorem checkInfos (es : List (Sigma fun _ : Int => CAddrInfo))
    (hnodup : es.NodupKeys) (hall : ∀ e ∈ es, st.mapInfo.get e.1 = some e.2) (setTried : Finset Int)
    (mapNew : StdMap Int Int) (hset : ∀ e ∈ es, e.1 ∉ setTried) (hmap : ∀ e ∈ es, mapNew.get e.1 = none) :
    ∃ setTried' mapNew', es.foldlM (fun acc e => st.checkInfo acc e.1 e.2) (setTried, mapNew)
      = .ok (setTried', mapNew') ∧
      (setTried'.card : Int) = setTried.card + (es.map fun e => e.2.triedOne).sum ∧
      (mapNew'.entries.length : Int) = mapNew.entries.length + (es.map fun e => e.2.newOne).sum ∧
      (∀ k, k ∈ setTried' ↔ k ∈ setTried ∨ ∃ e ∈ es, e.1 = k ∧ e.2.fInTried = true) ∧ ∀ k r, mapNew'.get k = some r ↔
        mapNew.get k = some r ∨ ∃ e ∈ es, e.1 = k ∧ e.2.fInTried = false ∧ e.2.nRefCount = r := by
  induction es generalizing setTried mapNew with
  | nil => exact ⟨setTried, mapNew, rfl, by simp, by simp, by simp, by simp⟩
  | cons e es ih =>
    obtain ⟨hfresh, hnodup⟩ := nodupKeys_cons.mp hnodup
    have hne : ∀ e' ∈ es, e'.1 ≠ e.1 := fun e' he' heq => hfresh (heq ▸ mem_keys_of_mem he')
    have hno : mapNew.get e.1 = none := hmap e mem_cons_self
    have hset' : ∀ e' ∈ es, e'.1 ∉ setTried := fun e' he' => hset e' (mem_cons_of_mem e he')
    have hmap' : ∀ e' ∈ es, mapNew.get e'.1 = none := fun e' he' => hmap e' (mem_cons_of_mem e he')
    rw [foldlM_cons, h.checkInfo (hall e mem_cons_self)]
    by_cases htried : e.2.fInTried = true
    · obtain ⟨S, M, hrun, hcard, hlen, hS, hM⟩ := ih hnodup (fun e' he' => hall e' (mem_cons_of_mem e he'))
        (insert e.1 setTried) mapNew
        (fun e' he' hmem => (Finset.mem_insert.mp hmem).elim (hne e' he') (hset' e' he')) hmap'
      refine ⟨S, M, ?_, ?_, ?_, ?_, ?_⟩
      · rw [if_pos htried]
        exact hrun
      · grind [triedOne]
      · rw [hlen, map_cons, sum_cons, newOne, if_pos htried, zero_add]
      · grind
      · intro k r
        rw [hM k r]
        simp [htried]
    · rw [Bool.not_eq_true] at htried
      obtain ⟨S, M, hrun, hcard, hlen, hS, hM⟩ := ih hnodup (fun e' he' => hall e' (mem_cons_of_mem e he'))
        setTried (mapNew.set e.1 e.2.nRefCount) hset'
        (fun e' he' => by rw [get_set_of_ne _ _ (hne e' he')]; exact hmap' e' he')
      refine ⟨S, M, ?_, ?_, ?_, ?_, ?_⟩
      · rw [htried]
        exact hrun
      · rw [hcard, map_cons, triedOne, htried]
        simp
      · have hentries : (mapNew.set e.1 e.2.nRefCount).entries.length = mapNew.entries.length + 1 := by
          unfold StdMap.set
          rw [AList.entries_insert_of_notMem (AList.lookup_eq_none.mp hno), length_cons]
        rw [hlen, map_cons, newOne, htried]
        simp
        omega
      · intro k
        rw [hS k]
        simp [htried]
      · intro k r
        rw [hM k r, get_set]
        by_cases hk : k = e.1
        · subst hk
          rw [hno]
          simp [htried]
        · rw [if_neg hk]
          simp [Ne.symm hk]

/-- A key is in as many slots of the new table as its entry says. -/
theorem count_new (hget : st.mapInfo.get nId = some info) :
    info.nRefCount = ((keysIn st.vvNew (-1) (finRange 1024 ×ˢ finRange 64)).count nId : Nat) := by
  have hentry : view st.mapInfo tableEntry nId = some info.tableEntry := view_of_get hget
  refine (h.placed.counted nId _ hentry).trans (congrArg Nat.cast ?_)
  rw [count_keysIn (h.placed.ne_unused hentry)]
  exact (countP_product_eq_refs (nodup_finRange 1024) mem_finRange (nodup_finRange 64) mem_finRange
    fun b p hslot => h.placed.place_of_mem hentry hslot).symm

/-- **The second loop** finds each tried id once. -/
theorem checkTrieds (slots : List (TriedBucket × BucketPosition)) (honce : (keysIn st.vvTried (-1) slots).Nodup) :
    slots.foldlM (st.checkTried hash) (keysIn st.vvTried (-1) slots).toFinset = .ok ∅ := by
  induction slots with
  | nil => rfl
  | cons c slots ih =>
    rw [foldlM_cons]
    by_cases hslot : st.vvTried c.1 c.2 = -1
    · rw [keysIn_cons_of_eq hslot] at honce ⊢
      have hstep : ∀ setTried, st.checkTried hash setTried c = .ok setTried := fun _ => if_pos hslot
      rw [hstep]
      exact ih honce
    · rw [keysIn_cons_of_ne hslot] at honce ⊢
      obtain ⟨hnew, honce⟩ := nodup_cons.mp honce
      obtain ⟨e, he, -, hb, hp⟩ := h.placed.triedAt c.1 c.2 hslot
      obtain ⟨info, hget, rfl⟩ := map_eq_some_iff.mp he
      unfold checkTried
      dsimp only
      rw [hget, if_neg hslot, if_neg (by simp), if_neg (fun hno => hno hb.symm), if_neg (fun hno => hno hp.symm),
        toFinset_cons, Finset.erase_insert (by simpa using hnew)]
      exact ih honce

/-- **The third loop** finds each new id as often as its entry says. -/
theorem checkNews (slots : List (NewBucket × BucketPosition)) (mapNew : StdMap Int Int)
    (hmap : ∀ k r, mapNew.get k = some r ↔ 1 ≤ r ∧ r = ((keysIn st.vvNew (-1) slots).count k : Nat)) :
    ∃ mapNew', slots.foldlM (st.checkNew hash) mapNew = .ok mapNew' ∧ mapNew'.entries = [] := by
  induction slots generalizing mapNew with
  | nil =>
    refine ⟨mapNew, rfl, ?_⟩
    apply eq_nil_iff_forall_not_mem.mpr
    intro e he
    obtain ⟨hone, hr⟩ := (hmap e.1 e.2).mp (mem_entries_iff.mp he)
    change e.2 = 0 at hr
    omega
  | cons c slots ih =>
    rw [foldlM_cons]
    by_cases hslot : st.vvNew c.1 c.2 = -1
    · rw [keysIn_cons_of_eq hslot] at hmap
      have hstep : st.checkNew hash mapNew c = .ok mapNew := if_pos hslot
      rw [hstep]
      exact ih mapNew hmap
    · rw [keysIn_cons_of_ne hslot] at hmap
      obtain ⟨e, he, hp⟩ := h.placed.newAt c.1 c.2 hslot
      obtain ⟨info, hget, rfl⟩ := map_eq_some_iff.mp he
      have hfound : mapNew.get (st.vvNew c.1 c.2)
          = some (((keysIn st.vvNew (-1) slots).count (st.vvNew c.1 c.2) : Int) + 1) := by
        rw [hmap, count_cons_self]
        omega
      unfold checkNew
      dsimp only
      rw [hget, if_neg hslot, hfound]
      dsimp only
      rw [if_neg (fun hno => hno hp.symm), Int.add_sub_cancel]
      refine ih _ ?_
      intro k r
      -- only the id of this slot counts down
      by_cases hk : k = st.vvNew c.1 c.2
      · grind [get_remove, get_set_self]
      · grind [get_remove, get_set_of_ne]

/-- **A consistent state passes `Check_`.** -/
theorem check_ : st.check_ hash = 0 := by
  obtain ⟨setTried, mapNew, hinfos, hcard, hlen, hset, hmap⟩ := h.checkInfos st.mapInfo.entries st.mapInfo.nodupKeys
    (fun e he => mem_entries_iff.mp he) ∅ ∅ (fun e _ => Finset.notMem_empty e.1) (fun e _ => rfl)
  have htried : (setTried.card : Int) = st.nTried := by
    have hstart : ((∅ : Finset Int).card : Int) = 0 := rfl
    rw [hcard, h.triedCount, hstart, Int.zero_add]
    rfl
  have hnew : (mapNew.entries.length : Int) = st.nNew := by
    have hcount := h.newCount
    have hstart : ((∅ : StdMap Int Int).entries.length : Int) = 0 := rfl
    rw [hlen, hstart, Int.zero_add]
    show st.mapInfo.sumBy newOne = st.nNew
    omega
  have hsize : (st.vRandom.length : Int) = st.nTried + st.nNew := by
    have hsize := h.size
    omega
  -- the ids that the first loop has collected are those of the tried table
  have htrieds : setTried = (keysIn st.vvTried (-1) (finRange 256 ×ˢ finRange 64)).toFinset := by
    ext k
    rw [hset k, List.mem_toFinset, mem_keysIn]
    constructor
    · rintro (hno | ⟨e, he, rfl, hin⟩)
      · exact absurd hno (Finset.notMem_empty k)
      · have hentry := view_of_get (f := tableEntry) (mem_entries_iff.mp he)
        exact ⟨h.placed.ne_unused hentry, (_, _), by simp, (h.placed.tried e.1 _ hentry hin).2⟩
    · rintro ⟨hid, c, -, rfl⟩
      obtain ⟨e, he, hin, -⟩ := h.placed.triedAt c.1 c.2 hid
      obtain ⟨info, hget, rfl⟩ := map_eq_some_iff.mp he
      exact .inr ⟨⟨_, info⟩, mem_entries_iff.mpr hget, rfl, hin⟩
  have honce : (keysIn st.vvTried (-1) (finRange 256 ×ˢ finRange 64)).Nodup := by
    refine nodup_keysIn ((nodup_finRange 256).product (nodup_finRange 64)) fun c c' hne heq => ?_
    obtain ⟨e, he, -, hb, hp⟩ := h.placed.triedAt c.1 c.2 hne
    obtain ⟨e', he', -, hb', hp'⟩ := h.placed.triedAt c'.1 c'.2 (heq ▸ hne)
    rw [← heq, he] at he'
    cases he'
    have hbucket := hb.trans hb'.symm
    exact Prod.ext hbucket (hp.trans (hbucket ▸ hp'.symm))
  -- and their references those of the new table
  obtain ⟨mapNew', hnews, hnil⟩ := h.checkNews (finRange 1024 ×ˢ finRange 64) mapNew (by
    intro k r
    rw [hmap k r]
    constructor
    · rintro (hno | ⟨e, he, rfl, hin, rfl⟩)
      · cases hno
      · have hget := mem_entries_iff.mp he
        obtain ⟨hor, -⟩ := h.placed.new e.1 e.2.tableEntry (view_of_get hget) hin
        exact ⟨hor.resolve_left id, h.count_new hget⟩
    · rintro ⟨hone, rfl⟩
      obtain ⟨hid, c, -, rfl⟩ := mem_keysIn.mp (count_pos_iff.mp (Int.natCast_pos.mp hone))
      obtain ⟨e, he, -⟩ := h.placed.newAt c.1 c.2 hid
      have hin : e.fInTried = false := h.placed.new_of_mem he rfl
      obtain ⟨info, hget, rfl⟩ := map_eq_some_iff.mp he
      exact .inr ⟨⟨_, info⟩, mem_entries_iff.mpr hget, rfl, hin, h.count_new hget⟩)
  unfold CAddrMan.check_
  rw [if_neg (fun hno => hno hsize), hinfos]
  dsimp only
  rw [if_neg (fun hno => hno htried), if_neg (fun hno => hno hnew), htrieds, h.checkTrieds _ honce]
  rw [hnews]
  dsimp only
  rw [if_neg (by simp), if_neg (by simp [hnil]), if_neg h.key]

end

theorem empty (hash : BucketHash) {nKey : Uint256} (hkey : nKey ≠ 0) :
    Settled hash { nKey := nKey } := by
  refine ⟨hkey, ⟨?_, ?_⟩, ?_, ⟨rfl, ?_, ?_, ?_, ?_, ?_⟩, rfl, rfl, rfl, ?_⟩
  · intro i k hi
    cases hi
  · intro k i hk
    cases hk
  · intro addr id
    constructor
    · intro hno
      cases hno
    · intro hno
      cases hno
  · exact fun b p hne => absurd rfl hne
  · exact fun b p hne => absurd rfl hne
  · intro id e he
    cases he
  · intro id e he
    cases he
  · intro id e he
    cases he
  · intro id info hget
    cases hget

end Consistent

/-! ## §9. Runs. -/

/-- Calls one after the other; `none` if an assertion fails. -/
def CAddrMan.run (hash : BucketHash) : CAddrMan → List (AddrChoice × AddrCall) → Option CAddrMan
  | st, [] => some st
  | st, (c, call) :: calls => (st.call hash c call).bind fun st' => st'.run hash calls

/-- Each call of a run finds a fresh id where it makes an entry. -/
def CAddrMan.RunFresh (hash : BucketHash) : CAddrMan → List (AddrChoice × AddrCall) → Prop
  | _, [] => True
  | st, (c, call) :: calls => call.FreshId st ∧ ∀ st', st.call hash c call = some st' → st'.RunFresh hash calls

theorem Consistent.run (h : Settled hash st)
    (calls : List (AddrChoice × AddrCall)) (htimes : ∀ c ∈ calls, c.2.Positive) (hfresh : st.RunFresh hash calls) :
    ∃ st', st.run hash calls = some st' ∧ Settled hash st' := by
  induction calls generalizing st with
  | nil => exact ⟨st, rfl, h⟩
  | cons call calls ih =>
    obtain ⟨st1, hcall, hcons⟩ := h.call call.1 call.2 (htimes call mem_cons_self) hfresh.1
    obtain ⟨st', hrun, hcons'⟩ := ih hcons (fun c hc => htimes c (mem_cons_of_mem call hc)) (hfresh.2 st1 hcall)
    refine ⟨st', ?_, hcons'⟩
    show (st.call hash call.1 call.2).bind _ = some st'
    rw [hcall]
    exact hrun

/-- **The address manager stays consistent.** While no new id is in use or is -1, calls with positive times fail no
assertion, and `Check_` finds nothing. -/
theorem addrman_stays_consistent (hash : BucketHash) {nKey : Uint256} (hkey : nKey ≠ 0)
    (calls : List (AddrChoice × AddrCall)) (htimes : ∀ c ∈ calls, c.2.Positive)
    (hfresh : CAddrMan.RunFresh hash { nKey := nKey } calls) :
    ∃ st, run hash { nKey := nKey } calls = some st ∧ Consistent hash (fun _ => False) 0 st ∧ st.check_ hash = 0 := by
  obtain ⟨st, hrun, hcons⟩ := (Consistent.empty hash hkey).run calls htimes hfresh
  exact ⟨st, hrun, hcons, hcons.check_⟩

def oneSlotHash : BucketHash where
  getTriedBucket := fun _ _ => 0
  getNewBucket := fun _ _ _ => 0
  getBucketPosition := fun _ _ _ _ => 0

def sampleChoice : AddrChoice := ⟨fun _ => 0, fun _ => 1500000000⟩

/-- `::ffff:n.n.n.n`, announced just now. -/
def sampleAddress (n : UInt8) : CAddress where
  ip := [0, 0, 0, 0, 0, 0, 0, 0, 0, 0, 255, 255, n, n, n, n]
  port := 8333
  nServices := 1
  nTime := 1500000000

def announce (n : UInt8) : AddrChoice × AddrCall := (sampleChoice, .add (sampleAddress n) ⟨List.replicate 16 0⟩ 0)

def firstInfo : CAddrInfo :=
  { toCAddress := sampleAddress 8, source := ⟨List.replicate 16 0⟩, nRefCount := 1, nRandomPos := 0 }

def oneAddress (nIdCount : Int) : CAddrMan where
  nIdCount := nIdCount
  mapInfo := StdMap.set ∅ 0 firstInfo
  mapAddr := StdMap.set ∅ (sampleAddress 8).toCNetAddr 0
  vRandom := [0]
  nNew := 1
  vvNew := SlotTable.set (fun _ _ => -1) 0 0 0
  nKey := 1

theorem first_announced : call oneSlotHash sampleChoice { nKey := 1 } (announce 8).2 = some (oneAddress 1) := by
  rfl

def otherInfo : CAddrInfo := { toCAddress := sampleAddress 9, source := ⟨List.replicate 16 0⟩, nRandomPos := 1 }

def twoAddresses (k : Int) : CAddrMan :=
  { oneAddress ((k + 1).bmod (2 ^ 32)) with
    mapInfo := (oneAddress k).mapInfo.set k otherInfo
    mapAddr := (oneAddress k).mapAddr.set (sampleAddress 9).toCNetAddr k
    vRandom := [0, k]
    nNew := 2 }

theorem call_announce (k : Int) : (oneAddress k).call oneSlotHash sampleChoice (announce 9).2
      = (twoAddresses k).placeNew oneSlotHash sampleChoice ⟨replicate 16 0⟩ k := by
  have hcreated : (oneAddress k).created (sampleAddress 9) ⟨replicate 16 0⟩ 0 = twoAddresses k := by
    have hset := set_set (oneAddress k).mapInfo k ((oneAddress k).newInfo (sampleAddress 9) ⟨replicate 16 0⟩) otherInfo
    have heq := congrArg (fun m => ({ twoAddresses k with mapInfo := m } : CAddrMan)) hset
    exact heq
  show ((((oneAddress k).created (sampleAddress 9) ⟨replicate 16 0⟩ 0).placeNew oneSlotHash sampleChoice
    ⟨replicate 16 0⟩ k).map fun st => (true, st)).map Prod.snd = _
  rw [hcreated, Option.map_map]
  exact map_id'

/-- A new entry whose slot is taken by one that stays is deleted. -/
theorem placeNew_declined {c : AddrChoice} {source : CNetAddr} {nIdOld : Int}
    {infoOld : CAddrInfo} (hget : st.mapInfo.get nId = some info) (hzero : info.nRefCount = 0)
    (hslot : st.vvNew (hash.getNewBucket st.nKey info.toCService source)
      (hash.newPlace st.nKey info.toCService (hash.getNewBucket st.nKey info.toCService source)) = nIdOld)
    (hne : nIdOld ≠ nId) (hused : nIdOld ≠ -1) (hold : st.mapInfo.get nIdOld = some infoOld)
    (hgood : infoOld.isTerrible (c.getAdjustedTime 1) = false) (hone : infoOld.nRefCount ≤ 1) :
    st.placeNew hash c source nId = st.delete nId := by
  have hkeep : ({ st with mapInfo := st.mapInfo.insertNew nIdOld .blank } : CAddrMan) = st := by
    unfold insertNew
    rw [hold]
  unfold placeNew
  rw [hget]
  dsimp only
  rw [hslot, if_neg hne, if_neg hused, hkeep, hold, any_some, hgood, hzero, if_pos rfl]
  have hfew : ¬ 1 < infoOld.nRefCount := by omega
  simp [hused, hfew]

/-- A second address that finds the slot taken goes again; only `nIdCount` moves. -/
theorem other_announced (hk : k ≠ 0) :
    (oneAddress k).call oneSlotHash sampleChoice (announce 9).2 = some (oneAddress ((k + 1).bmod (2 ^ 32))) := by
  have hfresh : (oneAddress k).mapInfo.get k = none := by
    show get (set ∅ 0 _) k = none
    rw [get_set_of_ne _ _ hk]
    rfl
  have hown : (twoAddresses k).mapInfo.get k = some otherInfo := get_set_self _ _ _
  have hold : (twoAddresses k).mapInfo.get 0 = some firstInfo :=
    (get_set_of_ne _ _ (.symm hk)).trans (get_set_self _ _ _)
  have hplace : (twoAddresses k).placeNew oneSlotHash sampleChoice ⟨replicate 16 0⟩ k = (twoAddresses k).delete k :=
    placeNew_declined hown rfl (.refl (0 : Int)) (.symm hk) (by decide) hold (by decide) (by decide)
  rw [call_announce]
  rw [hplace]
  have hdelete : (twoAddresses k).delete k = some { twoAddresses k with
      vRandom := [0]
      mapAddr := (twoAddresses k).mapAddr.remove (sampleAddress 9).toCNetAddr
      mapInfo := (twoAddresses k).mapInfo.remove k
      nNew := 1 } := by
    unfold delete
    rw [hown]
    rfl
  have hmap : (twoAddresses k).mapInfo.remove k = (oneAddress k).mapInfo := remove_set _ hfresh
  rw [hdelete, hmap]
  rfl

/-- As long as the counter has not come round to 0, nothing else changes. -/
theorem run_announce (n : Nat) (k : Int) (hk : ∀ i < n, (k + i).bmod (2 ^ 32) ≠ 0)
    (calls : List (AddrChoice × AddrCall)) :
    (oneAddress (k.bmod (2 ^ 32))).run oneSlotHash (replicate n (announce 9) ++ calls)
      = (oneAddress ((k + n).bmod (2 ^ 32))).run oneSlotHash calls := by
  induction n generalizing k with
  | zero => simp
  | succ n ih =>
    have hfirst : k.bmod (2 ^ 32) ≠ 0 := by grind
    rw [replicate_succ, cons_append]
    show ((oneAddress (k.bmod (2 ^ 32))).call oneSlotHash sampleChoice (announce 9).2).bind _ = _
    rw [other_announced hfirst, Int.bmod_add_bmod, bind_some, ih (k + 1)]
    · congr 3
      omega
    · grind

/-- Addresses become known, one is connected to, and all are asked for. -/
theorem sample_addresses_consistent : ∃ st, CAddrMan.run oneSlotHash { nKey := 1 } [announce 8, announce 9,
        (sampleChoice, .good (sampleAddress 8).toCService 1500000001), (sampleChoice, .getAddr)] = some st ∧
      Consistent oneSlotHash (fun _ => False) 0 st ∧ st.check_ oneSlotHash = 0 := by
  refine addrman_stays_consistent oneSlotHash (by decide) _ (by simp [AddrCall.Positive, announce]) ?_
  refine ⟨fun _ => ⟨rfl, by decide⟩, fun st hcall => ?_⟩
  obtain rfl : oneAddress 1 = st := some.inj (first_announced.symm.trans hcall)
  exact ⟨fun _ => ⟨rfl, by decide⟩, fun st _ => ⟨trivial, fun st _ => ⟨trivial, fun st _ => trivial⟩⟩⟩

/-- **The ids come round.** After 2^32 announcements that find the slot taken the next id is that of the entry in it,
which is overwritten. -/
theorem overflowing_ids_break_consistency :
    ∃ st, CAddrMan.run oneSlotHash { nKey := 1 } (announce 8 :: replicate (2 ^ 32) (announce 9)) = some st ∧
      st.check_ oneSlotHash = -4 := by
  obtain ⟨n, hn⟩ : ∃ n, 2 ^ 32 = n + 1 := ⟨4294967295, rfl⟩
  refine ⟨twoAddresses 0, ?_, by rfl⟩
  show (call oneSlotHash sampleChoice { nKey := 1 } (announce 8).2).bind _ = _
  rw [first_announced, hn, replicate_succ']
  have hround : (1 + (n : Int)).bmod (2 ^ 32) = 0 := by simp_all
  have hbelow : ∀ i < n, (1 + (i : Int)).bmod (2 ^ 32) ≠ 0 := by grind
  have hrun := run_announce n 1 hbelow [announce 9]
  rw [hround] at hrun
  refine hrun.trans ?_
  show ((oneAddress 0).call oneSlotHash sampleChoice (announce 9).2).bind _ = _
  rw [call_announce]
  rfl

end PwrbCore
