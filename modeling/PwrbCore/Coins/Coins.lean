/-
  Coins.Coins — ONE ENTRY OF THE UTXO SET (`CCoins` of `coins.h`, `coins.cpp`) and the undo record of
  one spent output (`CTxInUndo` of `undo.h`).

  An entry holds the unspent outputs of one transaction; a spent output is stored as
  the null output and trailing null outputs are dropped.  `spend` nulls one output and
  saves the entry's metadata in the undo record only when nothing is left.
-/
import Mathlib.Data.List.DropRight
import PwrbCore.Serialize.VarInt
import PwrbCore.Primitives.Transaction

namespace PwrbCore

open List CTxOut

/-! ## §1. Entries and their operations. -/

variable {n : Nat} {o : CTxOut}

/-- `CCoins`: the unspent outputs of one transaction and its metadata. -/
@[ext]
structure CCoins where
  fCoinBase : Bool := false
  fCoinStake : Bool := false
  vout : List CTxOut := []
  nHeight : Int := 0
  nVersion : Int := 0
  deriving DecidableEq, Repr

variable {c : CCoins}

namespace CCoins

/-- `Cleanup`: drop the spent outputs at the end. -/
def cleanup (c : CCoins) : CCoins := { c with vout := c.vout.rdropWhile CTxOut.isNull }

def clearUnspendable (c : CCoins) : CCoins :=
  cleanup { c with
    vout := c.vout.map fun o => if o.scriptPubKey.isUnspendable then CTxOut.null else o }

def fromTx (tx : CTransaction) (nHeight : Int) : CCoins :=
  clearUnspendable
    { fCoinBase := tx.isCoinBase, fCoinStake := tx.isCoinStake, vout := tx.vout,
      nHeight := nHeight, nVersion := tx.nVersion }

/-- `IsPruned`: every output is spent. -/
def isPruned (c : CCoins) : Bool := c.vout.all CTxOut.isNull

/-- `IsAvailable`: present, unspent, and not a zerocoin mint. -/
def isAvailable (c : CCoins) (nPos : Nat) : Bool :=
  match c.vout[nPos]? with
  | some o => !o.isNull && !o.isZerocoinMint
  | none => false

/-- `operator==`: pruned entries are equal whatever their metadata. -/
def eqv (a b : CCoins) : Bool := (a.isPruned && b.isPruned) || a == b

end CCoins

/-! ## §2. Undo records and their disk form. -/

/-- `CTxInUndo`: the spent output and, when it was the last one, the metadata of its transaction. -/
structure CTxInUndo where
  txout : CTxOut
  fCoinBase : Bool := false
  fCoinStake : Bool := false
  nHeight : Int := 0
  nVersion : Int := 0
  deriving DecidableEq, Repr

namespace CTxInUndo

/-- `Serialize`, up to the output: the code word is computed in `unsigned int`. -/
def writeMeta (u : CTxInUndo) : List UInt8 :=
  writeVarInt ((u.nHeight * 4 + (if u.fCoinBase then 2 else 0) + (if u.fCoinStake then 1 else 0)) % 2 ^ 32)
    ++ if 0 < u.nHeight then writeVarInt u.nVersion else []

/-- `Unserialize` into a fresh object, up to the output. -/
def readMeta (txout : CTxOut) (s : List UInt8) : Option CTxInUndo :=
  match readVarInt s with
  | none => none
  | some (nCode, s) =>
    let base : CTxInUndo :=
      { txout := txout, fCoinBase := decide (nCode / 2 % 2 = 1), fCoinStake := decide (nCode % 2 = 1),
        nHeight := nCode / 4 }
    if 0 < nCode / 4 then
      match readVarInt s with
      | none => none
      | some (nVersion, _) => some { base with nVersion := nVersion }
    else some base

/-- What `ReadFromDisk` gives back for a written record. `CTxOutCompressor` keeps the output. -/
def reload (u : CTxInUndo) : Option CTxInUndo := readMeta u.txout u.writeMeta

end CTxInUndo

/-- `CCoins::Spend`: the entry without output `n`, and the undo record; `none` for false. -/
def CCoins.spend (c : CCoins) (n : Nat) : Option (CCoins × CTxInUndo) :=
  match c.vout[n]? with
  | none => none
  | some o =>
    if o.isNull then none
    else
      let c' := ({ c with vout := c.vout.set n CTxOut.null } : CCoins).cleanup
      if c'.vout = [] then
        some (c', { txout := o, fCoinBase := c.fCoinBase, fCoinStake := c.fCoinStake,
                    nHeight := c.nHeight, nVersion := c.nVersion })
      else some (c', { txout := o })

/-- The entry `DisconnectBlock` writes for one input: `Clear` and the saved metadata when the record has a height
(`fCoinStake` is not set), then the output at its position. -/
def CCoins.restoreInput (undo : CTxInUndo) (n : Nat) (coins : CCoins) : CCoins :=
  let base : CCoins :=
    if undo.nHeight ≠ 0 then
      { fCoinBase := undo.fCoinBase, nHeight := undo.nHeight, nVersion := undo.nVersion }
    else coins
  ({ base with
      vout := (base.vout ++ List.replicate (n + 1 - base.vout.length) CTxOut.null).set n undo.txout }
    : CCoins).cleanup

/-! ## §3. The shape of stored entries. -/

/-- Shape of a stored entry: spent outputs are null, none at the end, and the height is that of a connected block (not
the genesis block; within the 30 bits of an undo record). -/
structure CCoins.WF (c : CCoins) : Prop where
  null_canonical : ∀ o ∈ c.vout, o.isNull = true → o = CTxOut.null
  no_trailing_null : c.vout.rdropWhile CTxOut.isNull = c.vout
  height_pos : 0 < c.nHeight
  height_lt : c.nHeight < 2 ^ 30

namespace CCoins

theorem isPruned_iff (c : CCoins) : c.isPruned = true ↔ ∀ o ∈ c.vout, o.isNull = true := by
  simp [isPruned]

theorem isPruned_cleanup (c : CCoins) : c.cleanup.isPruned = true ↔ c.cleanup.vout = [] := by
  rw [isPruned_iff, ← rdropWhile_eq_nil_iff (p := isNull)]
  simp only [cleanup, rdropWhile_idempotent]

theorem cleanup_of_tight (h : c.vout.rdropWhile isNull = c.vout) : c.cleanup = c := by
  unfold cleanup
  rw [h]

/-! ## §4. Spending and restoring one output. -/

/-- **The position of a restored output.** In a list whose null elements are `z` and whose last element is not null,
nulling position `n`, dropping trailing nulls, padding to `n + 1` and writing the old element gives the list back. -/
theorem restore_position {vout : List CTxOut}
    (hnull : ∀ x ∈ vout, x.isNull = true → x = CTxOut.null) (htail : vout.rdropWhile CTxOut.isNull = vout)
    (hget : vout[n]? = some o) (_ : o.isNull = false) : (((vout.set n CTxOut.null).rdropWhile CTxOut.isNull)
        ++ List.replicate (n + 1 - ((vout.set n CTxOut.null).rdropWhile CTxOut.isNull).length)
            CTxOut.null).set n o = vout := by
  have hn : n < vout.length := (List.getElem?_eq_some_iff.mp hget).1
  have hset : (vout.set n .null).set n o = vout := by grind [List.set_set, List.set_getElem_self]
  set w := vout.set n .null with hw
  have hlen : w.length = vout.length := by rw [List.length_set]
  have hsplit : w.rdropWhile CTxOut.isNull ++ w.rtakeWhile CTxOut.isNull = w := List.rdropWhile_append_rtakeWhile
  -- what was dropped is null, and padding puts it back
  have hcanon : w.rtakeWhile CTxOut.isNull = .replicate (w.rtakeWhile CTxOut.isNull).length .null := by
    rw [List.eq_replicate_iff]
    refine ⟨rfl, fun x hx => ?_⟩
    have hxw : x ∈ w := (List.rtakeWhile_suffix CTxOut.isNull w).subset hx
    rcases List.mem_or_eq_of_mem_set (hw ▸ hxw) with h | h
    · exact hnull x h (List.mem_rtakeWhile_imp hx)
    · exact h
  have hpad : n + 1 - (w.rdropWhile CTxOut.isNull).length = (w.rtakeWhile CTxOut.isNull).length := by
    have hsum := congrArg List.length hsplit
    rw [List.length_append] at hsum
    by_cases hlast : n + 1 = vout.length
    · omega
    -- an inner output is spent: the last one is still there and nothing was dropped
    have hkeep : w.rdropWhile CTxOut.isNull = w := by
      rw [List.rdropWhile_eq_self_iff]
      intro hne
      have hvne : vout ≠ [] := by
        intro h
        rw [h] at hn
        simp at hn
      have hsame : w.getLast hne = vout.getLast hvne := by
        rw [List.getLast_eq_getElem, List.getLast_eq_getElem]
        simp only [hw, List.length_set]
        rw [List.getElem_set_of_ne (by omega)]
      rw [hsame]
      exact List.rdropWhile_eq_self_iff.mp htail hvne
    rw [hkeep] at hsum ⊢
    omega
  rw [hpad, ← hcanon, hsplit, hset]

def without (c : CCoins) (n : Nat) : CCoins :=
  ({ c with vout := c.vout.set n CTxOut.null } : CCoins).cleanup

/-- **Inversion of `spend`.** -/
theorem spend_eq_some_iff (c c' : CCoins) (n : Nat) (undo : CTxInUndo) :
    c.spend n = some (c', undo) ↔ ∃ o, c.vout[n]? = some o ∧ o.isNull = false ∧ c' = c.without n ∧
        undo = if (c.without n).vout = [] then
            { txout := o, fCoinBase := c.fCoinBase, fCoinStake := c.fCoinStake,
              nHeight := c.nHeight, nVersion := c.nVersion }
          else { txout := o } := by
  unfold spend without
  grind

/-- What an undo record with metadata brings back: all but the coinstake flag, and of a negative version seven bits.
-/
def scrub (c : CCoins) : CCoins :=
  { c with fCoinStake := false
           nVersion := if c.nVersion < 0 then c.nVersion % 128 else c.nVersion }

theorem scrub_eq_self_iff (c : CCoins) : c.scrub = c ↔ ¬ (c.fCoinStake = true ∨ c.nVersion < 0) := by
  simp only [CCoins.ext_iff, scrub, true_and, eq_comm (a := false), not_or, Bool.not_eq_true]
  refine and_congr_right fun _ => ?_
  split_ifs <;> omega

end CCoins

theorem CTxInUndo.reload_plain (o : CTxOut) : reload { txout := o } = some { txout := o } := by
  have hread : readVarInt (writeVarInt 0) = some (0, []) := by
    simpa using readVarInt_writeVarInt 0 [] (by omega)
  simp [reload, readMeta, writeMeta, hread]

/-- A record with metadata keeps its flags and height; a negative version is cut to seven bits. -/
theorem CTxInUndo.reload_meta (u : CTxInUndo) (hpos : 0 < u.nHeight) (hlt : u.nHeight < 2 ^ 30) :
    u.reload = some { u with nVersion := if u.nVersion < 0 then u.nVersion % 128 else u.nVersion } := by
  set code : Int := u.nHeight * 4 + (if u.fCoinBase then 2 else 0) + (if u.fCoinStake then 1 else 0)
    with hcode
  have hmod : code % 2 ^ 32 = code := by omega
  have hheight : code / 4 = u.nHeight := by omega
  have hb : decide (code / 2 % 2 = 1) = u.fCoinBase := by grind
  have hs : decide (code % 2 = 1) = u.fCoinStake := by grind
  have hread1 : readVarInt (writeVarInt code ++ writeVarInt u.nVersion)
      = some (code, writeVarInt u.nVersion) := readVarInt_writeVarInt _ _ (by omega)
  have hread2 : readVarInt (writeVarInt u.nVersion)
      = some (if u.nVersion < 0 then u.nVersion % 128 else u.nVersion, []) := by
    split_ifs with hneg
    · simpa using readVarInt_writeVarInt_neg u.nVersion [] hneg
    · simpa using readVarInt_writeVarInt u.nVersion [] (by omega)
  simp_all [reload, writeMeta, readMeta]

namespace CCoins

/-- **Undoing a spend that leaves outputs behind** gives the entry back. -/
theorem restoreInput_without (hc : c.WF)
    (hget : c.vout[n]? = some o) (ho : o.isNull = false) : restoreInput { txout := o } n (c.without n) = c := by
  have hpos := restore_position hc.null_canonical hc.no_trailing_null hget ho
  unfold restoreInput
  simp only [ne_eq, not_true_eq_false, if_false]
  show cleanup { c.without n with vout := _ } = c
  have hvout : (c.without n).vout = (c.vout.set n .null).rdropWhile isNull := rfl
  rw [hvout, hpos]
  exact cleanup_of_tight hc.no_trailing_null

/-- **Undoing a spend that empties the entry** gives it back `scrub`bed. -/
theorem restoreInput_scrub (hc : c.WF)
    (hget : c.vout[n]? = some o) (ho : o.isNull = false) (hempty : (c.without n).vout = [])
    (coins : CCoins) :
    restoreInput { txout := o, fCoinBase := c.fCoinBase, fCoinStake := c.fCoinStake,
                   nHeight := c.nHeight,
                   nVersion := if c.nVersion < 0 then c.nVersion % 128 else c.nVersion } n coins
      = c.scrub := by
  have hpos := restore_position hc.null_canonical hc.no_trailing_null hget ho
  have hvout : (c.vout.set n .null).rdropWhile isNull = [] := hempty
  rw [hvout] at hpos
  have hne : c.nHeight ≠ 0 := by have := hc.height_pos; omega
  unfold restoreInput
  simp only [if_pos hne, hpos]
  exact cleanup_of_tight (c := c.scrub) hc.no_trailing_null

end CCoins

end PwrbCore
