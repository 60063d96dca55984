/-
  Node.AddrTables — THE TABLES OF THE ADDRESS MANAGER, WITHOUT THE CODE.

  Of an entry the two tables need its address, its number of references and the side it is
  on.  `Placed` says that tables and entries agree: what is in a slot stands where its hash puts
  it, an entry counts its slots, and a tried entry is in its slot.  Entries may be
  `loose`, in no slot yet or any more.  Each way the tables change keeps `Placed`.
-/
import PwrbCore.Node.AddrMan

namespace PwrbCore

open Function SlotTable

/-! ## §1. What it means. -/

/-- What the tables need to know of an entry. -/
structure TableEntry where
  addr : CService
  nRefCount : Int
  fInTried : Bool

/-- **The tables agree with the entries**; `loose` ones may be in no slot. -/
structure Placed (hash : BucketHash) (nKey : Uint256) (loose : Int → Prop)
    (vvNew : SlotTable NewBucket BucketPosition Int)
    (vvTried : SlotTable TriedBucket BucketPosition Int) (entry : Int → Option TableEntry) : Prop where
  unused : entry (-1) = none
  newAt : ∀ b p, vvNew b p ≠ -1 → ∃ e, entry (vvNew b p) = some e ∧ p = hash.newPlace nKey e.addr b
  triedAt : ∀ b p, vvTried b p ≠ -1 → ∃ e, entry (vvTried b p) = some e ∧ e.fInTried = true ∧
    b = hash.getTriedBucket nKey e.addr ∧ p = hash.triedPlace nKey e.addr b
  counted : ∀ id e, entry id = some e → e.nRefCount = SlotTable.refs vvNew (hash.newPlace nKey e.addr) id
  tried : ∀ id e, entry id = some e → e.fInTried = true → e.nRefCount = 0 ∧ vvTried (hash.getTriedBucket nKey e.addr)
      (hash.triedPlace nKey e.addr (hash.getTriedBucket nKey e.addr)) = id
  new : ∀ id e, entry id = some e → e.fInTried = false →
    (loose id ∨ 1 ≤ e.nRefCount) ∧ e.nRefCount ≤ ADDRMAN_NEW_BUCKETS_PER_ADDRESS

namespace Placed

variable {hash : BucketHash} {nKey : Uint256} {loose loose' : Int → Prop}
    {vvNew : SlotTable NewBucket BucketPosition Int}
  {vvTried : SlotTable TriedBucket BucketPosition Int} {entry : Int → Option TableEntry} {id : Int} {e : TableEntry}
  {b : NewBucket} {p : BucketPosition} {k : TriedBucket} {q : BucketPosition}

section

variable (h : Placed hash nKey loose vvNew vvTried entry)
include h

theorem ne_unused (hid : entry id = some e) : id ≠ -1 := by
  intro heq
  rw [heq, h.unused] at hid
  cases hid

theorem place_of_mem (hid : entry id = some e) (hslot : vvNew b p = id) : p = hash.newPlace nKey e.addr b := by
  obtain ⟨e', he', hp⟩ := h.newAt b p (by rw [hslot]; exact h.ne_unused hid)
  rw [hslot, hid] at he'
  cases he'
  exact hp

theorem refs_of_mem (hid : entry id = some e) (hslot : vvNew b p = id) : 1 ≤ e.nRefCount := by
  have hp := h.place_of_mem hid hslot
  subst hp
  have hpos : 0 < refs vvNew (hash.newPlace nKey e.addr) id := refs_pos hslot
  rw [h.counted id e hid]
  omega

/-- What is loose may grow, and may lose entries with a reference. -/
theorem loosen (hloose : ∀ id e, entry id = some e → e.fInTried = false → loose id → loose' id ∨ 1 ≤ e.nRefCount) :
    Placed hash nKey loose' vvNew vvTried entry := by
  refine ⟨h.unused, h.newAt, h.triedAt, h.counted, h.tried, ?_⟩
  grind [h.new]

theorem unused_update (hid : id ≠ -1) (x : Option TableEntry) : update entry id x (-1) = none :=
  (update_of_ne hid.symm _ _).trans h.unused

/-- The entry that changes apart, what is loose may grow. -/
theorem new_update {e' : TableEntry} (hloose : ∀ j, j ≠ id → loose j → loose' j)
    (hown : e'.fInTried = false → (loose' id ∨ 1 ≤ e'.nRefCount) ∧ e'.nRefCount ≤ ADDRMAN_NEW_BUCKETS_PER_ADDRESS)
    (j : Int) (i : TableEntry) (hj : update entry id (some e') j = some i) (hin : i.fInTried = false) :
    (loose' j ∨ 1 ≤ i.nRefCount) ∧ i.nRefCount ≤ ADDRMAN_NEW_BUCKETS_PER_ADDRESS := by
  by_cases hji : j = id
  · subst hji
    rw [update_self] at hj
    cases hj
    exact hown hin
  · rw [update_of_ne hji] at hj
    exact (h.new j i hj hin).imp_left (Or.imp_left (hloose j hji))

/-! ## §2. The new table. -/

theorem create (hfresh : entry id = none) (hid : id ≠ -1) (addr : CService) :
    Placed hash nKey (fun j => loose j ∨ j = id) vvNew vvTried (update entry id (some ⟨addr, 0, false⟩)) := by
  -- the old slots do not hold the id
  have hnew : ∀ b p, vvNew b p ≠ id := by grind [h.newAt]
  have htried : ∀ b p, vvTried b p ≠ id := by grind [h.triedAt]
  refine ⟨h.unused_update hid _, ?_, ?_, ?_, ?_,
    h.new_update (fun _ _ => .inl) fun _ => ⟨.inl (.inr rfl), (by decide : (0 : Int) ≤ 8)⟩⟩
  · intro b p hne
    rw [update_of_ne (hnew b p)]
    exact h.newAt b p hne
  · intro b p hne
    rw [update_of_ne (htried b p)]
    exact h.triedAt b p hne
  · grind [refs_eq_zero, h.counted]
  · grind [h.tried]

section

variable (hid : entry id = some e)
include hid

/-- **One entry changes, with the new table.** What speaks of other entries stays. -/
theorem updateNew (he : e.fInTried = false) (vvNew' : SlotTable NewBucket BucketPosition Int) (n : Int)
    (hslots : ∀ b p, vvNew' b p = -1 ∨ vvNew' b p = vvNew b p ∨ vvNew' b p = id ∧ p = hash.newPlace nKey e.addr b)
    (hothers : ∀ j addr, j ≠ id → j ≠ -1 →
      refs vvNew' (hash.newPlace nKey addr) j = refs vvNew (hash.newPlace nKey addr) j)
    (hcount : n = refs vvNew' (hash.newPlace nKey e.addr) id) (hle : n ≤ ADDRMAN_NEW_BUCKETS_PER_ADDRESS)
    (hloose : ∀ j, j ≠ id → loose j → loose' j) (hown : loose' id ∨ 1 ≤ n) :
    Placed hash nKey loose' vvNew' vvTried (update entry id (some ⟨e.addr, n, false⟩)) := by
  have hid1 : id ≠ -1 := h.ne_unused hid
  refine ⟨h.unused_update hid1 _, ?_, ?_, ?_, ?_, h.new_update hloose fun _ => ⟨hown, hle⟩⟩
  · grind [h.newAt]
  · grind [h.triedAt]
  · grind [h.ne_unused, h.counted]
  · grind [h.tried]

theorem new_of_mem (hslot : vvNew b p = id) : e.fInTried = false := by
  by_contra hne
  have hzero := (h.tried id e hid (by simpa using hne)).1
  have hpos := h.refs_of_mem hid hslot
  omega

theorem takeSlot (hslot : vvNew b p = id) : Placed hash nKey (fun j => loose j ∨ j = id) (vvNew.set b p (-1)) vvTried
      (update entry id (some ⟨e.addr, e.nRefCount - 1, false⟩)) := by
  have hid1 := h.ne_unused hid
  have hnew := h.new_of_mem hid hslot
  have hp := h.place_of_mem hid hslot
  apply h.updateNew hid hnew
  · grind [set_self, set_of_ne]
  · intro j addr hj hj1
    exact refs_set_of_ne (by rw [hslot]; exact .symm hj) (.symm hj1)
  · have hcount := h.counted id e hid
    rw [hp] at hslot
    have hone : refs (vvNew.set b _ (-1)) (hash.newPlace nKey e.addr) id + 1 = _ :=
      refs_set_of_eq hslot (.symm hid1)
    rw [hp]
    omega
  · have hle := (h.new id e hid hnew).2
    omega
  · exact fun j _ hl => .inl hl
  · exact .inl (.inr rfl)

theorem putSlot (he : e.fInTried = false)
    (hempty : vvNew b (hash.newPlace nKey e.addr b) = -1) (hmax : e.nRefCount < ADDRMAN_NEW_BUCKETS_PER_ADDRESS)
    (hloose : ∀ j, j ≠ id → loose j → loose' j) :
    Placed hash nKey loose' (vvNew.set b (hash.newPlace nKey e.addr b) id) vvTried
      (update entry id (some ⟨e.addr, e.nRefCount + 1, false⟩)) := by
  have hid1 := h.ne_unused hid
  have hcount := h.counted id e hid
  apply h.updateNew hid he
  · intro b' p'
    by_cases hcell : b' = b ∧ p' = hash.newPlace nKey e.addr b
    · right
      right
      rw [hcell.1, hcell.2]
      exact ⟨set_self _ _ _ _, rfl⟩
    · right
      left
      exact set_of_ne hcell
  · intro j addr hj hj1
    exact refs_set_of_ne (by rw [hempty]; exact .symm hj1) (.symm hj)
  · have hone : refs (vvNew.set b (hash.newPlace nKey e.addr b) id) (hash.newPlace nKey e.addr) id
        = refs vvNew (hash.newPlace nKey e.addr) id + 1 :=
      refs_set_self (by rw [hempty]; exact .symm hid1)
    omega
  · omega
  · exact hloose
  · right
    omega

theorem leave (he : e.fInTried = false) (vvNew' : SlotTable NewBucket BucketPosition Int)
    (htable : ∀ b p, vvNew' b p = if p = hash.newPlace nKey e.addr b ∧ vvNew b p = id then -1 else vvNew b p) :
    Placed hash nKey (fun j => loose j ∨ j = id) vvNew' vvTried (update entry id (some ⟨e.addr, 0, false⟩)) := by
  have hid1 := h.ne_unused hid
  apply h.updateNew hid he
  · intro b p
    rw [htable]
    split_ifs
    · exact .inl rfl
    · exact .inr (.inl rfl)
  · intro j addr hj hj1
    apply refs_congr
    grind
  · symm
    rw [Int.natCast_eq_zero]
    apply refs_eq_zero
    intro b
    rw [htable]
    split_ifs with hcell
    · exact .symm hid1
    · exact fun heq => hcell ⟨rfl, heq⟩
  · show (0 : Int) ≤ 8
    decide
  · exact fun j _ hl => .inl hl
  · exact .inl (.inr rfl)

theorem delete (he : e.fInTried = false)
    (hzero : e.nRefCount = 0) : Placed hash nKey loose vvNew vvTried (update entry id none) := by
  have hnew : ∀ b p, vvNew b p ≠ id := by
    intro b p hslot
    have hpos := h.refs_of_mem hid hslot
    omega
  have htried : ∀ b p, vvTried b p ≠ -1 → vvTried b p ≠ id := by grind [h.triedAt]
  -- an entry that is left was there before
  have hold : ∀ j e', update entry id none j = some e' → entry j = some e' := by grind
  refine ⟨h.unused_update (h.ne_unused hid) _, ?_, ?_, fun j e' hj => h.counted j e' (hold j e' hj),
    fun j e' hj => h.tried j e' (hold j e' hj), fun j e' hj => h.new j e' (hold j e' hj)⟩
  · intro b p hne
    rw [update_of_ne (hnew b p)]
    exact h.newAt b p hne
  · intro b p hne
    rw [update_of_ne (htried b p hne)]
    exact h.triedAt b p hne

/-! ## §3. The tried table. -/

/-- **One entry changes sides.**  It has no reference, and the tried table changes at its slot. -/
theorem updateTried (hzero : e.nRefCount = 0) (vvTried' : SlotTable TriedBucket BucketPosition Int) (fInTried : Bool)
    (hothers : ∀ k q, vvTried' k q ≠ -1 → vvTried' k q ≠ id → vvTried' k q = vvTried k q)
    (hkept : ∀ k q, vvTried k q ≠ -1 → vvTried k q ≠ id → vvTried' k q = vvTried k q)
    (hown : ∀ k q, vvTried' k q = id → fInTried = true ∧ k = hash.getTriedBucket nKey e.addr ∧
      q = hash.triedPlace nKey e.addr k) (hput : fInTried = true → vvTried' (hash.getTriedBucket nKey e.addr)
      (hash.triedPlace nKey e.addr (hash.getTriedBucket nKey e.addr)) = id)
    (hloose : ∀ j, j ≠ id → loose j → loose' j) (hfree : fInTried = false → loose' id) :
    Placed hash nKey loose' vvNew vvTried' (update entry id (some ⟨e.addr, 0, fInTried⟩)) := by
  have hid1 := h.ne_unused hid
  refine ⟨h.unused_update hid1 _, ?_, ?_, ?_, ?_,
    h.new_update hloose fun hin => ⟨.inl (hfree hin), (by decide : (0 : Int) ≤ 8)⟩⟩
  · grind [h.newAt]
  · grind [h.triedAt]
  · grind [h.counted]
  · grind [h.tried, h.ne_unused]

theorem leaveTried (hslot : vvTried k q = id) :
    Placed hash nKey (fun j => loose j ∨ j = id) vvNew (vvTried.set k q (-1))
      (update entry id (some ⟨e.addr, 0, false⟩)) := by
  have hid1 := h.ne_unused hid
  obtain ⟨e', he', hin, hk, hq⟩ := h.triedAt k q (by rw [hslot]; exact hid1)
  rw [hslot, hid] at he'
  cases he'
  have hcell : ∀ k' q', vvTried.set k q (-1) k' q' = if k' = k ∧ q' = q then -1 else vvTried k' q' := fun _ _ => rfl
  apply h.updateTried hid (h.tried id e hid hin).1
  · simp_all
  · grind
  · intro k' q' heq
    rw [hcell] at heq
    split_ifs at heq with hc
    · exact absurd heq.symm hid1
    · -- the entry is in no other slot
      obtain ⟨e', he', -, hk', hq'⟩ := h.triedAt k' q' (by rw [heq]; exact hid1)
      simp_all
  · intro hfalse
    cases hfalse
  · exact fun j _ hl => .inl hl
  · exact fun _ => .inr rfl

/-- An entry without references is put into its empty slot of the tried table. -/
theorem enterTried (he : e.fInTried = false)
    (hzero : e.nRefCount = 0) (hk : k = hash.getTriedBucket nKey e.addr) (hq : q = hash.triedPlace nKey e.addr k)
    (hempty : vvTried k q = -1) (hloose : ∀ j, j ≠ id → loose j → loose' j) :
    Placed hash nKey loose' vvNew (vvTried.set k q id) (update entry id (some ⟨e.addr, 0, true⟩)) := by
  have hid1 := h.ne_unused hid
  have hcell : ∀ k' q', vvTried.set k q id k' q' = if k' = k ∧ q' = q then id else vvTried k' q' := fun _ _ => rfl
  apply h.updateTried hid hzero
  · simp_all
  · grind
  · grind [h.triedAt]
  · intro _
    rw [← hk, ← hq]
    exact set_self _ _ _ _
  · exact hloose
  · intro hfalse
    cases hfalse

end

end

end Placed

end PwrbCore
