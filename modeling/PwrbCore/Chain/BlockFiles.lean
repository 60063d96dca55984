/-
  Chain.BlockFiles — WHERE BLOCKS AND UNDO RECORDS GO ON DISK (`FindBlockPos`, `FindUndoPos` of `main.cpp`).

  Each file has a counter for its blocks and one for its undo records, in 32 bits.  A block
  that does not fit goes to the next file; undo records go to the file of their block,
  however much is there already.

  Main result: `disk_ranges_apart`.
-/
import Mathlib.Algebra.Order.Ring.Int

namespace PwrbCore

open Function

variable {nFile : Nat} {nAddSize : UInt32}

/-- `CBlockFileInfo`, as far as positions are concerned. -/
structure CBlockFileInfo where
  nSize : UInt32 := 0
  nUndoSize : UInt32 := 0

def MAX_BLOCKFILE_SIZE : UInt32 := 0x8000000

def BLOCKFILE_CHUNK_SIZE : UInt32 := 0x1000000

def UNDOFILE_CHUNK_SIZE : UInt32 := 0x100000

/-- `nLastBlockFile` and `vinfoBlockFile`, whose entries from `size` on are as `resize` makes them. -/
structure BlockFiles where
  vinfoBlockFile : Nat → CBlockFileInfo := fun _ => {}
  size : Nat := 0
  nLastBlockFile : Nat := 0

/-- Bytes from `start` to `stop` of a file. -/
structure DiskRange where
  nFile : Nat
  start : Nat
  stop : Nat

def DiskRange.at (pos : Nat × UInt32) (nAddSize : UInt32) : DiskRange :=
  ⟨pos.1, pos.2.toNat, pos.2.toNat + nAddSize.toNat⟩

/-- Ranges of one file do not overlap. -/
def DiskRange.Apart (r r' : DiskRange) : Prop := r.nFile = r'.nFile → r.stop ≤ r'.start ∨ r'.stop ≤ r.start

instance : DecidableRel DiskRange.Apart := fun _ _ => inferInstanceAs (Decidable (_ → _))

/-- Whether there is space for the chunks that `nPos` and `nSize` do not share. -/
def hasSpace (checkDiskSpace : UInt32 → Bool) (chunk nPos nSize : UInt32) : Bool :=
  let nOldChunks := (nPos + chunk - 1) / chunk
  let nNewChunks := (nSize + chunk - 1) / chunk
  if nOldChunks < nNewChunks then checkDiskSpace (nNewChunks * chunk - nPos) else true

namespace BlockFiles

/-- The loop of `FindBlockPos`; `none` where the turns do not suffice. -/
def leaveFull (files : BlockFiles) (nAddSize : UInt32) : Nat → Nat → Option Nat
  | 0, _ => none
  | n + 1, nFile =>
    if MAX_BLOCKFILE_SIZE ≤ (files.vinfoBlockFile nFile).nSize + nAddSize then files.leaveFull nAddSize n (nFile + 1)
    else some nFile

/-- `FindBlockPos` with `fKnown = false`: the position, and whether it returns true. -/
def findBlockPos (files : BlockFiles) (checkDiskSpace : UInt32 → Bool) (nAddSize : UInt32) :
    Option (BlockFiles × (Nat × UInt32) × Bool) :=
  (files.leaveFull nAddSize (files.size + 1) files.nLastBlockFile).map fun nFile =>
    let info := files.vinfoBlockFile nFile
    let nSize := info.nSize + nAddSize
    ({ vinfoBlockFile := update files.vinfoBlockFile nFile { info with nSize }
       size := max files.size (nFile + 1)
       nLastBlockFile := nFile },
      (nFile, info.nSize), hasSpace checkDiskSpace BLOCKFILE_CHUNK_SIZE info.nSize nSize)

/-- `FindUndoPos`; `none` where there is no such file. -/
def findUndoPos (files : BlockFiles) (checkDiskSpace : UInt32 → Bool) (nFile : Nat) (nAddSize : UInt32) :
    Option (BlockFiles × (Nat × UInt32) × Bool) :=
  let info := files.vinfoBlockFile nFile
  let nUndoSize := info.nUndoSize + nAddSize
  if nFile < files.size then
    some ({ files with vinfoBlockFile := update files.vinfoBlockFile nFile { info with nUndoSize } },
      (nFile, info.nUndoSize), hasSpace checkDiskSpace UNDOFILE_CHUNK_SIZE info.nUndoSize nUndoSize)
  else none

end BlockFiles

/-- A call, with what `CheckDiskSpace` answers. -/
inductive DiskCall
  | block (checkDiskSpace : UInt32 → Bool) (nAddSize : UInt32)
  | undo (checkDiskSpace : UInt32 → Bool) (nFile : Nat) (nAddSize : UInt32)

/-- The files and the ranges that were handed out, also by calls that then found no space. -/
structure DiskState where
  files : BlockFiles := {}
  blocks : List DiskRange := []
  undos : List DiskRange := []

namespace DiskState

def call (st : DiskState) : DiskCall → Option DiskState
  | .block checkDiskSpace nAddSize =>
    (st.files.findBlockPos checkDiskSpace nAddSize).map fun r =>
      { st with files := r.1, blocks := .at r.2.1 nAddSize :: st.blocks }
  | .undo checkDiskSpace nFile nAddSize =>
    (st.files.findUndoPos checkDiskSpace nFile nAddSize).map fun r =>
      { st with files := r.1, undos := .at r.2.1 nAddSize :: st.undos }

def run : DiskState → List DiskCall → Option DiskState
  | st, [] => some st
  | st, c :: calls => (st.call c).bind fun st' => st'.run calls

/-- The size fits in a file; undo records are for a file that is there, and its counter has room for them. -/
def Fits (st : DiskState) : DiskCall → Prop
  | .block _ nAddSize => nAddSize < MAX_BLOCKFILE_SIZE
  | .undo _ nFile nAddSize => nAddSize < MAX_BLOCKFILE_SIZE ∧ nFile < st.files.size ∧
      (st.files.vinfoBlockFile nFile).nUndoSize.toNat + nAddSize.toNat < 2 ^ 32

def RunFits : DiskState → List DiskCall → Prop
  | _, [] => True
  | st, c :: calls => st.Fits c ∧ ∀ st', st.call c = some st' → st'.RunFits calls

instance (st : DiskState) : DecidablePred st.Fits
  | .block _ _ => inferInstanceAs (Decidable (_ < _))
  | .undo _ _ _ => inferInstanceAs (Decidable (_ ∧ _ ∧ _))

instance decidableRunFits : ∀ (calls : List DiskCall) (st : DiskState), Decidable (st.RunFits calls)
  | [], _ => inferInstanceAs (Decidable True)
  | c :: calls, st =>
    have : DecidablePred fun st' : DiskState => st'.RunFits calls := decidableRunFits calls
    inferInstanceAs (Decidable (st.Fits c ∧ ∀ st' ∈ st.call c, st'.RunFits calls))

end DiskState

/-! ## §2. Counters. -/

/-- **Ranges below their counters**, no two of which overlap. -/
structure Packed (size : Nat → UInt32) (ranges : List DiskRange) : Prop where
  below : ∀ r ∈ ranges, r.stop ≤ (size r.nFile).toNat
  apart : ranges.Pairwise DiskRange.Apart

/-- A counter is advanced over a new range, which begins where the others of its file have ended. -/
theorem Packed.grow {size : Nat → UInt32} {ranges : List DiskRange} {n : UInt32} (h : Packed size ranges)
    (hroom : (size nFile).toNat + n.toNat < 2 ^ 32) :
    Packed (update size nFile (size nFile + n)) (.at (nFile, size nFile) n :: ranges) := by
  have hsum : (size nFile + n).toNat = (size nFile).toNat + n.toNat := by rw [UInt32.toNat_add, Nat.mod_eq_of_lt hroom]
  refine ⟨fun r hr => ?_, List.pairwise_cons.mpr ⟨fun r hr heq => .inr ?_, h.apart⟩⟩
  · rw [update_apply]
    rcases List.mem_cons.mp hr with rfl | hr
    · exact le_of_eq (hsum.symm.trans (congrArg _ (if_pos rfl).symm))
    · have hbelow := h.below r hr
      split_ifs with heq
      · rw [heq] at hbelow
        omega
      · exact hbelow
  · have hbelow := h.below r hr
    rw [← heq] at hbelow
    exact hbelow

/-- **The roll-over loop ends** at a file with room, since a new file has room. -/
theorem BlockFiles.exists_leaveFull {files : BlockFiles} (hadd : nAddSize < MAX_BLOCKFILE_SIZE)
    (hfresh : ∀ i, files.size ≤ i → files.vinfoBlockFile i = {}) {n : Nat} (hfile : nFile ≤ files.size)
    (hn : files.size < n + nFile) : ∃ i, files.leaveFull nAddSize n nFile = some i ∧
      (files.vinfoBlockFile i).nSize + nAddSize < MAX_BLOCKFILE_SIZE := by
  induction n generalizing nFile with
  | zero => omega
  | succ n ih =>
    unfold leaveFull
    split_ifs with hfull
    · have hlt : nFile < files.size := by
        by_contra hlast
        rw [hfresh nFile (by omega), UInt32.zero_add] at hfull
        exact absurd hadd (UInt32.not_lt.mpr hfull)
      exact ih hlt (by omega)
    · exact ⟨nFile, rfl, UInt32.not_le.mp hfull⟩

namespace DiskState

/-- **What calls keep**: every range lies below the counter of its file. -/
structure Inv (st : DiskState) : Prop where
  fresh : ∀ i, st.files.size ≤ i → st.files.vinfoBlockFile i = {}
  last : st.files.nLastBlockFile ≤ st.files.size
  bounded : ∀ i, (st.files.vinfoBlockFile i).nSize < MAX_BLOCKFILE_SIZE
  blocks : Packed (CBlockFileInfo.nSize ∘ st.files.vinfoBlockFile) st.blocks
  undos : Packed (CBlockFileInfo.nUndoSize ∘ st.files.vinfoBlockFile) st.undos

variable {st : DiskState}

theorem Inv.block (h : st.Inv) (hadd : nAddSize < MAX_BLOCKFILE_SIZE) (space : UInt32 → Bool) :
    ∃ st', st.call (.block space nAddSize) = some st' ∧ st'.Inv := by
  obtain ⟨nFile, hloop, hroom⟩ := BlockFiles.exists_leaveFull hadd h.fresh h.last
    (show st.files.size < st.files.size + 1 + st.files.nLastBlockFile by omega)
  have hsize := Nat.add_lt_add (UInt32.lt_iff_toNat_lt.mp (h.bounded nFile)) (UInt32.lt_iff_toNat_lt.mp hadd)
  refine ⟨_, by rw [call, BlockFiles.findBlockPos, hloop]; rfl, fun i hi => ?_, ?_, ?_, ?_, ?_⟩
  · have hlast : max st.files.size (nFile + 1) ≤ i := hi
    exact (update_of_ne (by omega) _ _).trans (h.fresh i (by omega))
  · exact le_trans (Nat.le_succ nFile) (le_max_right _ _)
  · exact (forall_update_iff _ fun _ e => CBlockFileInfo.nSize e < MAX_BLOCKFILE_SIZE).mpr
      ⟨hroom, fun i _ => h.bounded i⟩
  · show Packed (CBlockFileInfo.nSize ∘ update _ nFile _) _
    rw [comp_update]
    exact h.blocks.grow (lt_trans hsize (by decide))
  · show Packed (CBlockFileInfo.nUndoSize ∘ update _ nFile _) _
    rw [comp_update]
    exact (update_eq_self nFile (CBlockFileInfo.nUndoSize ∘ st.files.vinfoBlockFile)).symm ▸ h.undos

theorem Inv.undo (h : st.Inv) (hfile : nFile < st.files.size)
    (hroom : (st.files.vinfoBlockFile nFile).nUndoSize.toNat + nAddSize.toNat < 2 ^ 32) (space : UInt32 → Bool) :
    ∃ st', st.call (.undo space nFile nAddSize) = some st' ∧ st'.Inv := by
  refine ⟨_, by rw [call, BlockFiles.findUndoPos, if_pos hfile]; rfl, fun i hi => ?_, ?_, ?_, ?_, ?_⟩
  · have hlast : st.files.size ≤ i := hi
    exact (update_of_ne (by omega) _ _).trans (h.fresh i hlast)
  · exact h.last
  · exact (forall_update_iff _ fun _ e => CBlockFileInfo.nSize e < MAX_BLOCKFILE_SIZE).mpr
      ⟨h.bounded nFile, fun i _ => h.bounded i⟩
  · show Packed (CBlockFileInfo.nSize ∘ update _ nFile _) _
    rw [comp_update]
    exact (update_eq_self nFile (CBlockFileInfo.nSize ∘ st.files.vinfoBlockFile)).symm ▸ h.blocks
  · show Packed (CBlockFileInfo.nUndoSize ∘ update _ nFile _) _
    rw [comp_update]
    exact h.undos.grow hroom

/-- **Ranges on disk do not overlap**, and those of blocks end below the limit of a file, in every run of calls whose
sizes fit. -/
theorem disk_ranges_apart {calls : List DiskCall} (hfits : RunFits {} calls) :
    ∃ st, run {} calls = some st ∧ st.blocks.Pairwise DiskRange.Apart ∧
      (∀ r ∈ st.blocks, r.stop < MAX_BLOCKFILE_SIZE.toNat) ∧ st.undos.Pairwise DiskRange.Apart := by
  have hrun : ∀ (calls : List DiskCall) (st : DiskState), st.Inv → st.RunFits calls →
      ∃ st', st.run calls = some st' ∧ st'.Inv := by
    intro calls
    induction calls with
    | nil => exact fun st h _ => ⟨st, rfl, h⟩
    | cons c calls ih =>
      intro st h hfits
      obtain ⟨st1, hcall, h1⟩ : ∃ st1, st.call c = some st1 ∧ st1.Inv := by
        cases c with
        | block space => exact h.block hfits.1 space
        | undo space => exact h.undo hfits.1.2.1 hfits.1.2.2 space
      obtain ⟨st', hrest, h'⟩ := ih st1 h1 (hfits.2 st1 hcall)
      refine ⟨st', ?_, h'⟩
      rw [run, hcall]
      exact hrest
  have hstart : Inv {} := ⟨fun _ _ => rfl, le_rfl, fun _ =>
    (by decide : (0 : UInt32) < _), ⟨nofun, .nil⟩, ⟨nofun, .nil⟩⟩
  obtain ⟨st, hend, h⟩ := hrun calls {} hstart hfits
  refine ⟨st, hend, h.blocks.apart, fun r hr => ?_, h.undos.apart⟩
  exact lt_of_le_of_lt (h.blocks.below r hr) (UInt32.lt_iff_toNat_lt.mp (h.bounded r.nFile))

/-- One block, and thirty-four undo records of almost the size of a file. -/
def manyUndos : List DiskCall :=
  .block (fun _ => true) 1 :: List.replicate 34 (.undo (fun _ => true) 0 (MAX_BLOCKFILE_SIZE - 1))

theorem many_undos_overlap : ∃ st, run {} manyUndos = some st ∧ ¬ st.undos.Pairwise DiskRange.Apart := by
  have hend : (run {} manyUndos).map (fun st => decide (st.undos.Pairwise DiskRange.Apart)) = some false := by
    decide +kernel
  obtain ⟨st, hrun, hfalse⟩ := Option.map_eq_some_iff.mp hend
  exact ⟨st, hrun, of_decide_eq_false hfalse⟩

/-- Two blocks and their undo records in the first file; the third block does not fit there, so it
and the fourth go to the second. -/
def rollOver : List DiskCall :=
  [.block (fun _ => true) (MAX_BLOCKFILE_SIZE / 2), .undo (fun _ => true) 0 100,
    .block (fun _ => true) 300, .undo (fun _ => true) 0 200,
    .block (fun _ => true) (MAX_BLOCKFILE_SIZE - 400), .undo (fun _ => true) 1 100,
    .block (fun _ => true) 300, .undo (fun _ => true) 1 200]

theorem roll_over_apart :
    ((run {} rollOver).map fun st => (st.blocks.map DiskRange.nFile, st.undos.map DiskRange.nFile))
        = some ([1, 1, 0, 0], [1, 1, 0, 0]) ∧
      ∃ st, run {} rollOver = some st ∧ st.blocks.Pairwise DiskRange.Apart ∧
        (∀ r ∈ st.blocks, r.stop < MAX_BLOCKFILE_SIZE.toNat) ∧ st.undos.Pairwise DiskRange.Apart :=
  ⟨by decide +kernel, disk_ranges_apart (by decide +kernel)⟩

end DiskState

end PwrbCore
