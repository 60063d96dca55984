/-
  Chain.BlockIndex — THE BLOCK INDEX (`chain.h`, `chain.cpp`, `pow.cpp`, and of `main.cpp` the globals around
  `mapBlockIndex`, `AddToBlockIndex` and `ReceivedBlockTransactions`).

  A `CBlockIndex*` is the hash of its block: `mapBlockIndex` has one entry for each hash.
  The body of a block lies in its entry once it is on disk.  Chain work is a 256-bit number
  and wraps; the counters do not.  `GetAncestor` is the walk over `pprev`, which the skip
  pointers only shorten.
-/
import PwrbCore.Primitives.Transaction
import PwrbCore.Lib.OrderedSet
import PwrbCore.Lib.ParentTree
import PwrbCore.Lib.StdMap

namespace PwrbCore

open ParentTree OrderedSet

/-! ## §1. Entries. -/

variable {a b : Uint256}

def BLOCK_VALID_TREE : Nat := 2
def BLOCK_VALID_TRANSACTIONS : Nat := 3
def BLOCK_VALID_SCRIPTS : Nat := 5

/-- `CBlockIndex`, with the bits of `nStatus` apart. -/
structure CBlockIndex where
  /-- `GetBlockHeader()` -/
  header : CBlock
  pprev : Option Uint256
  pskip : Option Uint256 := none
  nHeight : Nat
  nChainWork : Nat
  /-- the body on disk, `BLOCK_HAVE_DATA` -/
  data : Option CBlock := none
  /-- of 32 bits in the source, which 2^32 transactions would bring round -/
  nChainTx : Nat := 0
  nSequenceId : Nat := 0
  /-- `nStatus & BLOCK_VALID_MASK` -/
  nValid : Nat := 0
  /-- `BLOCK_FAILED_VALID` -/
  failedValid : Bool := false
  /-- `BLOCK_FAILED_CHILD` -/
  failedChild : Bool := false
  deriving DecidableEq, Repr

namespace CBlockIndex

def nTx (e : CBlockIndex) : Nat :=
  match e.data with
  | some block => block.vtx.length
  | none => 0

def failed (e : CBlockIndex) : Bool := e.failedValid || e.failedChild

def isValid (e : CBlockIndex) (nUpTo : Nat) : Bool := !e.failed && decide (nUpTo ≤ e.nValid)

def raiseValidity (e : CBlockIndex) (nUpTo : Nat) : CBlockIndex :=
  if e.failed then e else if e.nValid < nUpTo then { e with nValid := nUpTo } else e

def clearFailed (e : CBlockIndex) : CBlockIndex := { e with failedValid := false, failedChild := false }

end CBlockIndex

/-! ## §2. The work of a block. -/

/-- `SetCompact`: the target, and whether it is negative or overflows. -/
def setCompact (nCompact : Nat) : Nat × Bool × Bool :=
  let nSize := nCompact / 2 ^ 24
  let nWord := if nSize ≤ 3 then nCompact % 2 ^ 23 / 2 ^ (8 * (3 - nSize)) else nCompact % 2 ^ 23
  (if nSize ≤ 3 then nWord else nWord * 2 ^ (8 * (nSize - 3)) % 2 ^ 256,
    decide (nWord ≠ 0) && decide (nCompact / 2 ^ 23 % 2 = 1),
    decide (nWord ≠ 0) && (decide (34 < nSize) || (decide (0xff < nWord) && decide (33 < nSize))
      || (decide (0xffff < nWord) && decide (32 < nSize))))

/-- `GetBlockProof`: the work that the target stands for. -/
def getBlockProof (nBits : Nat) : Nat :=
  let (bnTarget, fNegative, fOverflow) := setCompact nBits
  if fNegative || fOverflow || decide (bnTarget = 0) then 0
  else (2 ^ 256 - 1 - bnTarget) / (bnTarget + 1) + 1

/-! ## §3. The globals. -/

/-- The globals of chain selection. `coins` is what `ConnectBlock` and `DisconnectBlock` work on. -/
structure ChainGlobals (σ : Type) where
  mapBlockIndex : StdMap Uint256 CBlockIndex
  /-- `chainActive`, the tip first -/
  chainActive : List Uint256
  setBlockIndexCandidates : List Uint256
  mapBlocksUnlinked : List (Uint256 × Uint256)
  nBlockSequenceId : Nat
  coins : σ

namespace ChainGlobals

variable {σ : Type}

section

variable (st : ChainGlobals σ) (h : Uint256)

def index : Option CBlockIndex := st.mapBlockIndex.get h

def pprev (st : ChainGlobals σ) (h : Uint256) : Option Uint256 := (st.index h).bind CBlockIndex.pprev

def height : Nat := ((st.index h).map CBlockIndex.nHeight).getD 0

def work : Nat := ((st.index h).map CBlockIndex.nChainWork).getD 0

def sequenceId : Nat := ((st.index h).map CBlockIndex.nSequenceId).getD 0

def chainTx : Nat := ((st.index h).map CBlockIndex.nChainTx).getD 0

def haveData : Bool :=
  ((st.index h).map fun e => e.data.isSome).getD false

def failed (st : ChainGlobals σ) (h : Uint256) : Bool := ((st.index h).map CBlockIndex.failed).getD false

def isValid (st : ChainGlobals σ) (h : Uint256) (nUpTo : Nat) : Bool :=
  ((st.index h).map fun e => e.isValid nUpTo).getD false

def tip (st : ChainGlobals σ) : Option Uint256 := st.chainActive.head?

def chainHeight (st : ChainGlobals σ) : Int := st.chainActive.length - 1

/-- `chainActive.Contains(pindex)`: the chain has the block at its height. -/
def contains : Bool := decide (h ∈ st.chainActive)

def update (f : CBlockIndex → CBlockIndex) : ChainGlobals σ :=
  match st.index h with
  | some e => { st with mapBlockIndex := st.mapBlockIndex.set h (f e) }
  | none => st

def updateAll (st : ChainGlobals σ) (f : Uint256 → CBlockIndex → CBlockIndex) : ChainGlobals σ :=
  { st with mapBlockIndex := st.mapBlockIndex.mapVal f }

def insertCandidate : ChainGlobals σ :=
  { st with setBlockIndexCandidates := st.setBlockIndexCandidates.insert h }

/-- `setBlockIndexCandidates.insert` of each entry that passes a test. -/
def insertCandidates (st : ChainGlobals σ) (p : Uint256 → Bool) : ChainGlobals σ :=
  { st with
    setBlockIndexCandidates :=
      st.setBlockIndexCandidates
        ++ st.mapBlockIndex.keys.filter fun h => p h && decide (h ∉ st.setBlockIndexCandidates) }

def eraseCandidate : ChainGlobals σ :=
  { st with setBlockIndexCandidates := st.setBlockIndexCandidates.filter fun c => decide (c ≠ h) }

/-! ## §4. Paths and the order of candidates. -/

def path (st : ChainGlobals σ) (h : Uint256) : List Uint256 := ParentTree.path st.pprev st.height h

def getAncestor (height : Nat) : Option Uint256 :=
  (st.path h).find? fun a => decide (st.height a = height)

def findFork : Option Uint256 := (st.path h).find? st.contains

/-- `CBlockIndexWorkComparator()(a, b)`: less work, or as much and received later.  The address
of an entry is its hash. -/
def worse (st : ChainGlobals σ) (a b : Uint256) : Bool :=
  if st.work b < st.work a then false
  else if st.work a < st.work b then true
  else if st.sequenceId a < st.sequenceId b then false
  else if st.sequenceId b < st.sequenceId a then true
  else if a.toNat < b.toNat then false
  else decide (b.toNat < a.toNat)

def bestCandidate (st : ChainGlobals σ) : Option Uint256 := last st.worse st.setBlockIndexCandidates

def worthTrying : Bool :=
  match st.tip with
  | none => true
  | some t => !st.worse h t

/-! ## §5. New entries, received bodies. -/

def invertLowestOne (n : Nat) : Nat := n &&& (n - 1)

def getSkipHeight (height : Nat) : Nat :=
  if height < 2 then 0
  else if height % 2 = 1 then invertLowestOne (invertLowestOne (height - 1)) + 1
  else invertLowestOne height

theorem invertLowestOne_le (n : Nat) : invertLowestOne n ≤ n - 1 := Nat.and_le_right

theorem getSkipHeight_lt {n : Nat} (hn : 0 < n) : getSkipHeight n < n := by
  unfold getSkipHeight
  have hle := invertLowestOne_le n
  have hle' := invertLowestOne_le (n - 1)
  have hle'' := invertLowestOne_le (invertLowestOne (n - 1))
  split_ifs <;> omega

/-- The entry `AddToBlockIndex` makes for a block on top of `prev`. -/
def newEntry (st : ChainGlobals σ) (block : CBlock) (prev : CBlockIndex) : CBlockIndex :=
  ({ header := { block with vtx := [] }, pprev := some block.hashPrevBlock,
     pskip := st.getAncestor block.hashPrevBlock (getSkipHeight (prev.nHeight + 1)),
     nHeight := prev.nHeight + 1,
     nChainWork := (prev.nChainWork + getBlockProof block.nBits) % 2 ^ 256 } : CBlockIndex).raiseValidity
    BLOCK_VALID_TREE

/-- `AddToBlockIndex` on the index; `none` where `vtx[1].vin[0]` is read of a block without it, such as a bare header
from height `heightModifierV2` on. -/
def addToBlockIndex (st : ChainGlobals σ) (heightModifierV2 : Int) (block : CBlock) (prev : CBlockIndex) :
    Option (ChainGlobals σ) :=
  let readable := match block.vtx with
    | _ :: tx :: _ => !tx.vin.isEmpty
    | _ => false
  if decide ((prev.nHeight + 1 : Int) < heightModifierV2) || readable then
    some { st with mapBlockIndex := st.mapBlockIndex.set block.hash (st.newEntry block prev) }
  else none

/-- What `mapBlocksUnlinked` holds under a block. -/
def unlinkedChildren : List Uint256 :=
  (st.mapBlocksUnlinked.filter fun pair => decide (pair.1 = h)).map Prod.snd

/-- The `nChainTx` of the parent, `0` for the genesis block. -/
def parentChainTx : Nat :=
  match st.pprev h with
  | some p => st.chainTx p
  | none => 0

/-- One turn of the queue loop of `ReceivedBlockTransactions`: the block gets `nChainTx` and a sequence id, may become
a candidate, and its children leave `mapBlocksUnlinked`. -/
def linkBlock : ChainGlobals σ :=
  let linked := st.update h fun e =>
    { e with nChainTx := st.parentChainTx h + e.nTx, nSequenceId := st.nBlockSequenceId }
  let linked := if linked.worthTrying h then linked.insertCandidate h else linked
  { linked with
    nBlockSequenceId := (st.nBlockSequenceId + 1) % 2 ^ 32
    mapBlocksUnlinked := st.mapBlocksUnlinked.filter fun pair => decide (pair.1 ≠ h) }

end

/-- The queue loop; every turn takes a block from the queue or `mapBlocksUnlinked`. -/
def linkQueue : Nat → List Uint256 → ChainGlobals σ → ChainGlobals σ
  | 0, _, st => st
  | _ + 1, [], st => st
  | n + 1, h :: queue, st => linkQueue n (queue ++ st.unlinkedChildren h) (st.linkBlock h)

/-- The entry of a block whose body has been received. -/
def receivedEntry (block : CBlock) (e : CBlockIndex) : CBlockIndex :=
  ({ e with data := some block, nChainTx := 0 } : CBlockIndex).raiseValidity BLOCK_VALID_TRANSACTIONS

/-- `ReceivedBlockTransactions`: the body is stored; the block and those that waited for it are linked, or it
waits. -/
def receivedBlockTransactions (st : ChainGlobals σ) (block : CBlock) : ChainGlobals σ :=
  let stored := st.update block.hash (receivedEntry block)
  match stored.pprev block.hash with
  | none => linkQueue (stored.mapBlocksUnlinked.length + 1) [block.hash] stored
  | some p =>
    if stored.chainTx p ≠ 0 then linkQueue (stored.mapBlocksUnlinked.length + 1) [block.hash] stored
    else if stored.isValid p BLOCK_VALID_TREE then
      { stored with mapBlocksUnlinked := stored.mapBlocksUnlinked ++ [(p, block.hash)] }
    else stored

/-- The entry of the first block. -/
abbrev genesisEntry (genesis : CBlock) : CBlockIndex where
  header := { genesis with vtx := [] }
  pprev := none
  nHeight := 0
  nChainWork := getBlockProof genesis.nBits
  data := some genesis
  nChainTx := genesis.vtx.length
  nSequenceId := 1
  nValid := BLOCK_VALID_TRANSACTIONS

/-- The globals after `InitBlockIndex`: the genesis block is on disk and active. -/
def init (genesis : CBlock) (coins : σ) : ChainGlobals σ where
  mapBlockIndex := (∅ : StdMap Uint256 CBlockIndex).set genesis.hash (genesisEntry genesis)
  chainActive := [genesis.hash]
  setBlockIndexCandidates := [genesis.hash]
  mapBlocksUnlinked := []
  nBlockSequenceId := 2
  coins := coins

/-! ## §6. How the updates read. -/

variable {st : ChainGlobals σ} {h k : Uint256}

theorem index_update (st : ChainGlobals σ) (h k : Uint256) (f : CBlockIndex → CBlockIndex) :
    (st.update h f).index k = if k = h then (st.index k).map f else st.index k := by
  unfold update
  cases hget : st.index h with
  | none =>
    split_ifs with hk
    · rw [hk, hget]
      rfl
    · rfl
  | some e =>
    show (st.mapBlockIndex.set h (f e)).get k = _
    rw [StdMap.get_set]
    split_ifs with hk
    · rw [hk, hget]
      rfl
    · rfl

theorem update_fields (st : ChainGlobals σ) (h : Uint256) (f : CBlockIndex → CBlockIndex) :
    (st.update h f).chainActive = st.chainActive ∧
      (st.update h f).setBlockIndexCandidates = st.setBlockIndexCandidates ∧
      (st.update h f).mapBlocksUnlinked = st.mapBlocksUnlinked ∧
      (st.update h f).nBlockSequenceId = st.nBlockSequenceId ∧ (st.update h f).coins = st.coins := by
  unfold update
  cases st.index h <;> exact ⟨rfl, rfl, rfl, rfl, rfl⟩

theorem index_updateAll (st : ChainGlobals σ) (k : Uint256) (f : Uint256 → CBlockIndex → CBlockIndex) :
    (st.updateAll f).index k = (st.index k).map (f k) := StdMap.get_mapVal f st.mapBlockIndex k

@[simp] theorem mem_eraseCandidate :
    k ∈ (st.eraseCandidate h).setBlockIndexCandidates ↔ k ∈ st.setBlockIndexCandidates ∧ k ≠ h := by
  simp [eraseCandidate]

theorem mem_insertCandidates {p : Uint256 → Bool} : k ∈ (st.insertCandidates p).setBlockIndexCandidates ↔
      k ∈ st.setBlockIndexCandidates ∨ ((∃ e, st.index k = some e) ∧ p k = true) := by
  show k ∈ st.setBlockIndexCandidates ++ .filter _ st.mapBlockIndex.keys ↔ _
  rw [List.mem_append, List.mem_filter]
  have hkeys : k ∈ st.mapBlockIndex.keys ↔ ∃ e, st.index k = some e := StdMap.mem_keys_iff
  rw [hkeys]
  by_cases hmem : k ∈ st.setBlockIndexCandidates
  · simp [hmem]
  · simp [hmem]

/-- **The order of candidates** puts any two blocks in an order. -/
theorem worse_strictTotal (st : ChainGlobals σ) : StrictTotal st.worse where
  irrefl a := by
    unfold worse
    simp
  trans a b c hab hbc := by
    unfold worse at *
    split_ifs at hab hbc ⊢ <;> simp only [decide_eq_true_eq] at * <;> omega
  total a b hab hba := by
    unfold worse at *
    split_ifs at hab hba <;> simp only [decide_eq_false_iff_not] at * <;>
      first
        | omega
        | exact BitVec.eq_of_toNat_eq (by omega)

theorem work_le_of_not_worse (h : st.worse a b = false) : st.work b ≤ st.work a := by
  unfold worse at h
  split_ifs at h <;> omega

theorem worse_of_work_lt (h : st.work a < st.work b) : st.worse a b = true := by
  unfold worse
  rw [if_neg (by omega), if_pos h]

/-- The order reads work and sequence ids only. -/
theorem worse_congr {st' : ChainGlobals σ} (ha : st'.work a = st.work a)
    (hb : st'.work b = st.work b) (hsa : st'.sequenceId a = st.sequenceId a)
    (hsb : st'.sequenceId b = st.sequenceId b) : st'.worse a b = st.worse a b := by
  unfold worse
  rw [ha, hb, hsa, hsb]

end ChainGlobals

end PwrbCore
