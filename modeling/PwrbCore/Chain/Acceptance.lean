/-
  Chain.Acceptance — ACCEPTING HEADERS AND BLOCKS (`ContextualCheckBlockHeader`, `AcceptBlockHeader`, `AcceptBlock`,
  `ProcessNewBlock` of `main.cpp`, `checkpoints.cpp`).

  The checks of a block's own contents, of its work and of its stake are parameters here
  (`AcceptRules`).  The first block is always known.
-/
import PwrbCore.Chain.Activation
import PwrbCore.Params

namespace PwrbCore

open Checked

variable {σ : Type}

/-- The checks of `AcceptBlockHeader` and `AcceptBlock`, and the settings they read. -/
structure AcceptRules (σ : Type) extends ChainRules σ where
  params : ConsensusParams
  height_start_StakeModifierV2 : Int
  /-- `-maxreorg` -/
  maxReorg : Int
  /-- `mapCheckpoints`, lowest first; `none` when checkpoints are turned off -/
  mapCheckpoints : Option (List (Nat × Uint256))
  /-- `CheckBlockHeader(block, state, false)` -/
  checkBlockHeader : CBlock → Validated Unit
  /-- `CheckBlockTime` -/
  checkBlockTime : ChainGlobals σ → CBlock → Validated Unit
  checkWork : ChainGlobals σ → CBlock → Bool
  checkProofOfStake : ChainGlobals σ → CBlock → Bool
  checkBlock : ChainGlobals σ → CBlock → Validated Unit
  checkBlockSignature : CBlock → Bool
  contextualCheckBlock : ChainGlobals σ → CBlock → Nat → Validated Unit
  /-- the checks `AcceptBlock` makes of the inputs of a coinstake -/
  checkStakeInputs : ChainGlobals σ → CBlock → Validated Unit
  /-- `CheckBlock` refuses a block without transactions -/
  checkBlock_ne_nil : ∀ st block, checkBlock st block = .ok () → block.vtx ≠ []

namespace AcceptRules

variable (rules : AcceptRules σ)

/-! ## §1. Checkpoints. -/

/-- `Checkpoints::CheckBlock(nHeight, hash, fMatchesCheckpoint)`. -/
def checkpointsCheckBlock (nHeight : Nat) (hash : Uint256) (fMatchesCheckpoint : Bool) : Bool :=
  match rules.mapCheckpoints with
  | none => true
  | some checkpoints =>
    match checkpoints.find? fun c => decide (c.1 = nHeight) with
    | none => !fMatchesCheckpoint
    | some c => decide (hash = c.2)

def getLastCheckpoint (st : ChainGlobals σ) : Option CBlockIndex :=
  match rules.mapCheckpoints with
  | none => none
  | some checkpoints => checkpoints.reverse.findSome? fun c => st.index c.2

/-! ## §2. Headers. -/

/-- The version of the block is outdated at the height. -/
def outdated (nVersion : Int) (nHeight : Int) : Bool :=
  (decide (nVersion < 3) && decide (1 ≤ nHeight))
    || (decide (nVersion < 4) && decide (rules.params.height_start_ZC ≤ nHeight))
    || (decide (nVersion < 5) && decide (rules.params.height_start_BIP65 ≤ nHeight))
    || (decide (nVersion < 6) && decide (rules.height_start_StakeModifierV2 ≤ nHeight))
    || (decide (nVersion < 7) && decide (rules.params.height_start_TimeProtoV2 ≤ nHeight))

section

variable (st : ChainGlobals σ) (block : CBlock)

/-- `ContextualCheckBlockHeader` of a block on top of `prev`. -/
def contextualCheckBlockHeader (prev : CBlockIndex) : Validated Unit :=
  if block.hash = rules.params.hashGenesisBlock then .ok ()
  else do
    let nHeight := prev.nHeight + 1
    require (st.chainHeight - nHeight < rules.maxReorg) (dos 1)
    rules.checkBlockTime st block
    require (rules.checkpointsCheckBlock nHeight block.hash false = true) (dos 100 "checkpoint mismatch")
    require (∀ pcheckpoint, rules.getLastCheckpoint st = some pcheckpoint → pcheckpoint.nHeight ≤ nHeight) (dos 0)
    require (rules.outdated block.nVersion nHeight = false)
      (dos 0 s!"rejected block version {block.nVersion} at height {nHeight}")

/-- `AcceptBlockHeader`: a known header passes unless it failed, a new one is checked and added. -/
def acceptBlockHeader : Validated (ChainGlobals σ) :=
  match st.index block.hash with
  | some pindex => if pindex.failed then .error (dos 0 "duplicate") else .ok st
  | none => do
    rules.checkBlockHeader block
    let pindexPrev ← orStop (st.index block.hashPrevBlock) (dos 0 "bad-prevblk")
    require (pindexPrev.failed = false) (dos 100 "bad-prevblk")
    rules.contextualCheckBlockHeader st block pindexPrev
    orStop (st.addToBlockIndex rules.height_start_StakeModifierV2 block pindexPrev) .thrown

/-! ## §3. Blocks. -/

def checkBody (fAlreadyCheckedBlock : Bool) : Validated Unit := do
  checkIf (!fAlreadyCheckedBlock) (rules.checkBlock st block)
  rules.contextualCheckBlock st block (st.height block.hash)

/-- The part of `AcceptBlock` after the header: check the body, write it to disk. -/
def storeBlock (fAlreadyCheckedBlock : Bool) : ChainGlobals σ × Validated Unit :=
  if st.haveData block.hash then (st, .ok ())
  else
    match rules.checkBody st block fAlreadyCheckedBlock with
    | .error (.invalid nDoS reason false) => (st.markFailedValid block.hash, .error (.invalid nDoS reason false))
    | .error e => (st, .error e)
    | .ok () =>
      match checkIf block.isProofOfStake (rules.checkStakeInputs st block) with
      | .error e => (st, .error e)
      | .ok () => (st.receivedBlockTransactions block, .ok ())

/-- The part of `AcceptBlock` after the parent was found usable. -/
def acceptOnParent (fAlreadyCheckedBlock : Bool) : ChainGlobals σ × Validated Unit :=
  if block.hash ≠ rules.params.hashGenesisBlock ∧ rules.checkWork st block = false then (st, .error .returned)
  else if block.isProofOfStake = true ∧ rules.checkProofOfStake st block = false then (st, .error (dos 100))
  else
    match rules.acceptBlockHeader st block with
    | .error e => (st, .error e)
    | .ok st' => rules.storeBlock st' block fAlreadyCheckedBlock

/-- `AcceptBlock`. A failed parent that is a checkpoint is reconsidered; the block is then not stored. -/
def acceptBlock (fAlreadyCheckedBlock : Bool) : Except Halt (ChainGlobals σ × Validated Unit) :=
  if block.hash = rules.params.hashGenesisBlock then .ok (rules.acceptOnParent st block fAlreadyCheckedBlock)
  else
    match st.index block.hashPrevBlock with
    | none => .ok (st, .error (dos 0 "bad-prevblk"))
    | some pindexPrev =>
      if pindexPrev.failed then
        if rules.checkpointsCheckBlock pindexPrev.nHeight block.hashPrevBlock true then
          match rules.activateBestChain (st.reconsiderBlock block.hashPrevBlock) none false with
          | .error halt => .error halt
          | .ok (st', _) => .ok (st', .ok ())
        else .ok (st, .error (dos 100 "bad-prevblk"))
      else .ok (rules.acceptOnParent st block fAlreadyCheckedBlock)

/-- The part of `ProcessNewBlock` before `ActivateBestChain`: `CheckBlock`, the signature, `AcceptBlock`. -/
def receiveBlock : Except Halt (ChainGlobals σ × Validated Unit) :=
  match rules.checkBlock st block with
  | .error e => .ok (st, .error e)
  | .ok () =>
    if rules.checkBlockSignature block = false then .ok (st, .error .returned)
    else rules.acceptBlock st block true

end

end AcceptRules

/-! ## §4. Events. -/

/-- What happens to the block index; each event sees its own surroundings. -/
inductive IndexEvent (σ : Type) where
  | header (rules : AcceptRules σ) (block : CBlock)
  /-- a block by way of `ProcessNewBlock`, without the activation that follows -/
  | block (rules : AcceptRules σ) (block : CBlock)
  /-- a block by way of `AcceptBlock` alone -/
  | accept (rules : AcceptRules σ) (block : CBlock)
  | activate (rules : ChainRules σ) (pblock : Option CBlock) (fAlreadyChecked : Bool)
  | invalidate (rules : ChainRules σ) (h : Uint256)
  | reconsider (h : Uint256)

/-- What an event does to the globals. -/
def ChainGlobals.step (st : ChainGlobals σ) : IndexEvent σ → Except Halt (ChainGlobals σ)
  | .header rules block =>
    match rules.acceptBlockHeader st block with
    | .ok st' => .ok st'
    | .error _ => .ok st
  | .block rules block => (rules.receiveBlock st block).map Prod.fst
  | .accept rules block => (rules.acceptBlock st block false).map Prod.fst
  | .activate rules pblock fAlreadyChecked => (rules.activateBestChain st pblock fAlreadyChecked).map Prod.fst
  | .invalidate rules h =>
    match st.index h with
    | some _ => .ok (rules.invalidateBlock st h).1
    | none => .ok st
  | .reconsider h =>
    match st.index h with
    | some _ => .ok (st.reconsiderBlock h)
    | none => .ok st

end PwrbCore
