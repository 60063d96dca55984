/-
  Chain.Activation — CHAIN SELECTION (`FindMostWorkChain`, `ActivateBestChainStep`, `ActivateBestChain`,
  `InvalidateBlock`, `ReconsiderBlock` of `main.cpp`).

  `ConnectBlock` and `DisconnectBlock` are parameters here (`ChainRules`): they work on the
  coins and whatever the node keeps with them.  A failed assertion, and a loop that uses up
  the turns it is given, end a function (`Halt`).  Warnings and notifications are left out.
-/
import PwrbCore.Chain.BlockIndex
import PwrbCore.Validation.State

namespace PwrbCore

/-! ## §1. `ConnectTip`, `DisconnectTip`. -/

inductive Halt where
  /-- an `assert` fired -/
  | assertion
  /-- a loop used up its turns -/
  | running
  deriving DecidableEq, Repr

structure ChainRules (σ : Type) where
  /-- `ConnectBlock` of a block with its index entry; the flag is `fAlreadyChecked` -/
  connectBlock : ChainGlobals σ → Uint256 → CBlock → Bool → Validated σ
  /-- `DisconnectBlock` and what `DisconnectTip` does to the mempool -/
  disconnectBlock : ChainGlobals σ → CBlock → Validated σ

variable {σ : Type}

namespace ChainGlobals

section

variable (st : ChainGlobals σ) (h : Uint256)

def readBlockFromDisk : Option CBlock := (st.index h).bind CBlockIndex.data

def markFailedValid : ChainGlobals σ :=
  st.update h fun e => { e with failedValid := true }

def markFailedChild : ChainGlobals σ :=
  st.update h fun e => { e with failedChild := true }

/-- `InvalidBlockFound`: a mark, unless the block may be corrupted. -/
def invalidBlockFound (e : ValidationError) : ChainGlobals σ :=
  match e with
  | .invalid _ _ false => (st.markFailedValid h).eraseCandidate h
  | _ => st

def connected (coins : σ) : ChainGlobals σ :=
  { st.update h fun e => e.raiseValidity BLOCK_VALID_SCRIPTS with
    chainActive := h :: st.chainActive
    coins := coins }

end

end ChainGlobals

namespace ChainRules

variable (rules : ChainRules σ)

/-- `ConnectTip`: the block at hand, else the one on disk. -/
def connectTip (st : ChainGlobals σ) (h : Uint256) (pblock : Option CBlock) (fAlreadyChecked : Bool) :
    Except Halt (ChainGlobals σ × Validated Unit) :=
  if st.pprev h ≠ st.tip then .error .assertion
  else
    match pblock.or (st.readBlockFromDisk h) with
    | none => .ok (st, .error (.error "Failed to read block"))
    | some block =>
      match rules.connectBlock st h block (pblock.isSome && fAlreadyChecked) with
      | .error e => .ok (st.invalidBlockFound h e, .error e)
      | .ok coins => .ok (st.connected h coins, .ok ())

/-- `DisconnectTip`.  The first block has no undo data. -/
def disconnectTip (st : ChainGlobals σ) : ChainGlobals σ × Bool :=
  match st.chainActive with
  | h :: p :: below =>
    match st.readBlockFromDisk h with
    | none => (st, false)
    | some block =>
      match rules.disconnectBlock st block with
      | .error _ => (st, false)
      | .ok coins => ({ st with chainActive := p :: below, coins := coins }, true)
  | _ => (st, false)

end ChainRules

/-! ## §2. `FindMostWorkChain`, `PruneBlockIndexCandidates`. -/

namespace ChainGlobals

section

variable (st : ChainGlobals σ)

/-- The candidate and its ancestors that are not active. -/
def inactivePath (h : Uint256) : List Uint256 :=
  (st.path h).takeWhile fun a => !st.contains a

/-- The block is failed or its body is missing: no candidate on top of it is of use. -/
def unusable (h : Uint256) : Bool := st.failed h || !st.haveData h

/-- One block between the candidate and the unusable one: a failed child, or back in `mapBlocksUnlinked`. -/
def setAside (fFailedChain : Bool) (h : Uint256) : ChainGlobals σ :=
  if fFailedChain then (st.markFailedChild h).eraseCandidate h
  else
    match st.pprev h with
    | some p => { st with mapBlocksUnlinked := st.mapBlocksUnlinked ++ [(p, h)] }.eraseCandidate h
    | none => st.eraseCandidate h

/-- Remove the entire chain from the set, from the candidate to the unusable block. -/
def discardCandidate (pindexNew pindexTest : Uint256) : ChainGlobals σ :=
  (((st.path pindexNew).takeWhile fun a => decide (a ≠ pindexTest)).foldl
    (fun st' h => st'.setAside (st.failed pindexTest) h) st).eraseCandidate pindexTest

/-- `assert(pindexTest->nChainTx || pindexTest->nHeight == 0)`. -/
def linkedOrFirst (h : Uint256) : Bool :=
  decide (st.chainTx h ≠ 0) || decide (st.height h = 0)

/-- The outer loop of `FindMostWorkChain`, by turns. -/
def findMostWorkLoop : Nat → ChainGlobals σ → Except Halt (ChainGlobals σ × Option Uint256)
  | 0, _ => .error .running
  | n + 1, st =>
    match st.bestCandidate with
    | none => .ok (st, none)
    | some pindexNew =>
      match (st.inactivePath pindexNew).find? fun a => !st.linkedOrFirst a || st.unusable a with
      | none => .ok (st, some pindexNew)
      | some pindexTest =>
        if st.linkedOrFirst pindexTest then findMostWorkLoop n (st.discardCandidate pindexNew pindexTest)
        else .error .assertion

/-- `FindMostWorkChain`: a turn for each candidate, and one more. -/
def findMostWorkChain : Except Halt (ChainGlobals σ × Option Uint256) :=
  findMostWorkLoop (st.setBlockIndexCandidates.length + 1) st

/-- `PruneBlockIndexCandidates`; `none` where its assertion fires. -/
def pruneBlockIndexCandidates : Option (ChainGlobals σ) :=
  match st.tip with
  | none => none
  | some t =>
    let kept := st.setBlockIndexCandidates.filter fun c => !st.worse c t
    if kept = [] then none else some { st with setBlockIndexCandidates := kept }

/-- `chainActive.Tip()->nChainWork > pindexOldTip->nChainWork`, or there was no tip. -/
def betterThan (pindexOldTip : Option Uint256) : Bool :=
  match pindexOldTip, st.tip with
  | some old, some t => decide (st.work old < st.work t)
  | _, _ => true

/-- `vpindexToConnect`, lowest first: the ancestors of `pindexMostWork` from above `nHeight` to `nTargetHeight`. -/
def toConnect (pindexMostWork : Uint256) (nHeight nTargetHeight : Int) : List Uint256 :=
  match st.getAncestor pindexMostWork nTargetHeight.toNat with
  | some pindexIter => ((st.path pindexIter).takeWhile fun a => decide ((st.height a : Int) ≠ nHeight)).reverse
  | none => []

end

end ChainGlobals

/-! ## §3. `ActivateBestChainStep`. -/

inductive BatchEnd where
  /-- every block is connected -/
  | complete
  /-- an invalid block, or a better tip than before -/
  | stopped
  /-- a system error -/
  | failed
  deriving DecidableEq, Repr

namespace ChainRules

variable (rules : ChainRules σ)

/-- Disconnect active blocks which are no longer in the best chain. -/
def disconnectTo (pindexFork : Option Uint256) : Nat → ChainGlobals σ → ChainGlobals σ × Bool
  | 0, st => (st, true)
  | n + 1, st =>
    if st.tip = none ∨ st.tip = pindexFork then (st, true)
    else
      match rules.disconnectTip st with
      | (st', true) => disconnectTo pindexFork n st'
      | (st', false) => (st', false)

/-- `ConnectTip` for the blocks of a batch, lowest first, until one fails or the tip is better. -/
def connectBatch (pindexMostWork : Uint256) (pindexOldTip : Option Uint256) (pblock : Option CBlock)
    (fAlreadyChecked : Bool) : List Uint256 → ChainGlobals σ → Except Halt (ChainGlobals σ × BatchEnd)
  | [], st => .ok (st, .complete)
  | h :: hs, st =>
    match rules.connectTip st h (if h = pindexMostWork then pblock else none) fAlreadyChecked with
    | .error halt => .error halt
    | .ok (st', .error e) => .ok (st', if e.isInvalid then .stopped else .failed)
    | .ok (st', .ok ()) =>
      match st'.pruneBlockIndexCandidates with
      | none => .error .assertion
      | some pruned =>
        if pruned.betterThan pindexOldTip then .ok (pruned, .stopped)
        else connectBatch pindexMostWork pindexOldTip pblock fAlreadyChecked hs pruned

/-- The batches of `ActivateBestChainStep`, 32 blocks each, from `nHeight` upwards. -/
def connectBatches (pindexMostWork : Uint256) (pindexOldTip : Option Uint256) (pblock : Option CBlock)
    (fAlreadyChecked : Bool) : Nat → Int → ChainGlobals σ → Except Halt (ChainGlobals σ × Bool)
  | 0, _, _ => .error .running
  | n + 1, nHeight, st =>
    if nHeight = st.height pindexMostWork then .ok (st, true)
    else
      let nTargetHeight := min (nHeight + 32) (st.height pindexMostWork)
      match rules.connectBatch pindexMostWork pindexOldTip pblock fAlreadyChecked
        (st.toConnect pindexMostWork nHeight nTargetHeight) st with
      | .error halt => .error halt
      | .ok (st', .complete) =>
        connectBatches pindexMostWork pindexOldTip pblock fAlreadyChecked n nTargetHeight st'
      | .ok (st', .stopped) => .ok (st', true)
      | .ok (st', .failed) => .ok (st', false)

/-- `ActivateBestChainStep`: back to the fork, then up in batches. -/
def activateBestChainStep (st : ChainGlobals σ) (pindexMostWork : Uint256) (pblock : Option CBlock)
    (fAlreadyChecked : Bool) : Except Halt (ChainGlobals σ × Bool) :=
  let pindexFork := st.findFork pindexMostWork
  match rules.disconnectTo pindexFork st.chainActive.length st with
  | (st', false) => .ok (st', false)
  | (st', true) =>
    let nHeight : Int := match pindexFork with
      | some fork => st'.height fork
      | none => -1
    rules.connectBatches pindexMostWork st.tip pblock fAlreadyChecked (st'.height pindexMostWork + 2) nHeight st'

/-! ## §4. `ActivateBestChain`. -/

/-- The loop of `ActivateBestChain`, by turns. -/
def activateLoop (pblock : Option CBlock) (fAlreadyChecked : Bool) :
    Nat → ChainGlobals σ → Except Halt (ChainGlobals σ × Bool)
  | 0, _ => .error .running
  | n + 1, st =>
    match st.findMostWorkChain with
    | .error halt => .error halt
    | .ok (st', none) => .ok (st', true)
    | .ok (st', some pindexMostWork) =>
      if st'.tip = some pindexMostWork then .ok (st', true)
      else
        match rules.activateBestChainStep st' pindexMostWork
          (pblock.filter fun block => decide (block.hash = pindexMostWork)) fAlreadyChecked with
        | .error halt => .error halt
        | .ok (st'', false) => .ok (st'', false)
        | .ok (st'', true) =>
          if st''.tip = some pindexMostWork then .ok (st'', true)
          else activateLoop pblock fAlreadyChecked n st''

/-- `ActivateBestChain`: the globals and the return value. The turns suffice where every block is valid or invalid for
good. -/
def activateBestChain (st : ChainGlobals σ) (pblock : Option CBlock) (fAlreadyChecked : Bool) :
    Except Halt (ChainGlobals σ × Bool) :=
  rules.activateLoop pblock fAlreadyChecked
    ((st.mapBlockIndex.keys.length + 1) * (st.mapBlockIndex.keys.length + 1) + 1) st

/-! ## §5. `InvalidateBlock`, `ReconsiderBlock`. -/

/-- The loop of `InvalidateBlock`: disconnect to below the block, marking what goes. -/
def disconnectMarked (h : Uint256) : Nat → ChainGlobals σ → ChainGlobals σ × Bool
  | 0, st => (st, true)
  | n + 1, st =>
    if st.contains h then
      match st.tip with
      | none => (st, true)
      | some pindexWalk =>
        match rules.disconnectTip ((st.markFailedChild pindexWalk).eraseCandidate pindexWalk) with
        | (st', true) => disconnectMarked h n st'
        | (st', false) => (st', false)
    else (st, true)

/-- `InvalidateBlock`: the flag, back below the block, and every block worth trying a candidate. -/
def invalidateBlock (st : ChainGlobals σ) (h : Uint256) : ChainGlobals σ × Bool :=
  let marked := (st.markFailedValid h).eraseCandidate h
  match rules.disconnectMarked h st.chainActive.length marked with
  | (st', false) => (st', false)
  | (st', true) =>
    (st'.insertCandidates fun k =>
      st'.isValid k BLOCK_VALID_TRANSACTIONS && decide (st'.chainTx k ≠ 0) && st'.worthTrying k, true)

end ChainRules

namespace ChainGlobals

/-- `setBlockIndexCandidates.value_comp()(chainActive.Tip(), pindex)`. -/
def beatsTip (st : ChainGlobals σ) (h : Uint256) : Bool :=
  match st.tip with
  | none => false
  | some t => st.worse t h

/-- `ReconsiderBlock`: flags of descendants cleared, candidates added, then flags of ancestors cleared. -/
def reconsiderBlock (st : ChainGlobals σ) (h : Uint256) : ChainGlobals σ :=
  let touched := fun k => !st.isValid k BLOCK_VALID_TRANSACTIONS
    && decide (st.getAncestor k (st.height h) = some h)
  let cleared := st.updateAll fun k e => if touched k then e.clearFailed else e
  let readded := cleared.insertCandidates fun k => touched k
    && cleared.isValid k BLOCK_VALID_TRANSACTIONS && decide (cleared.chainTx k ≠ 0) && cleared.beatsTip k
  readded.updateAll fun k e => if k ∈ st.path h then e.clearFailed else e

end ChainGlobals

end PwrbCore
