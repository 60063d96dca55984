/-
  Validation.SupplyTracksCoins — THE MONEY SUPPLY AGAINST THE COINS VIEW.

  `ConnectBlock` counts what a block adds to `nMoneySupply` from the totals of its
  transactions, less the outputs whose text starts with OP_RETURN; the coins view adds the
  outputs of `FromTx`, which drops every output `IsUnspendable` calls unspendable.  The two
  differ by the outputs whose script is too long to run: those count as supply and are in
  no entry.

  Main results: `ConnectBlockOk.supply_sub_totalValue`, `supply_tracks_coins_iff`.
-/
import PwrbCore.Coins.TotalValue
import PwrbCore.Validation.SupplyCounters

namespace PwrbCore

open Checked List CTransaction NodeEnv

/-! ## §1. One transaction. -/

variable {block : CBlock}

/-- The script is longer than any script may be, and is no OP_RETURN. -/
def CScript.isOversized (s : CScript) : Bool :=
  decide (MAX_SCRIPT_SIZE < s.length) && !CScript.startsWithOpcode OP_RETURN s

def CTransaction.oversizedOut (tx : CTransaction) : Int :=
  ((tx.vout.filter fun o => o.scriptPubKey.isOversized).map CTxOut.nValue).sum

def CBlock.oversizedValue (block : CBlock) : Int := (block.vtx.map CTransaction.oversizedOut).sum

variable {tx : CTransaction} {env : NodeEnv} {nHeight : Int}

theorem CTransaction.sum_vout_split (tx : CTransaction) :
    (tx.vout.map CTxOut.nValue).sum = tx.spendableOut + tx.valueBet + tx.oversizedOut := by
  unfold spendableOut valueBet oversizedOut
  induction tx.vout with
  | nil => rfl
  | cons o vout ih =>
    have hburn : isOpReturnAsm o.scriptPubKey = CScript.startsWithOpcode OP_RETURN o.scriptPubKey := by
      rw [Bool.eq_iff_iff, isOpReturnAsm_iff]
      exact beq_iff_eq.symm
    rw [map_cons, sum_cons, ih, filter_cons, filter_cons, hburn]
    unfold CScript.isUnspendable CScript.isOversized
    grind

/-! ## §2. One block. -/

/-- The block has no zerocoin mints or spends. -/
def CBlock.zerocoinFree (block : CBlock) : Prop := ∀ tx ∈ block.vtx, tx.containsZerocoins = false

/-- One turn of the loop, measured by the total value and the value taken in. -/
theorem NodeEnv.connectTx_totalValue (hzc : tx.containsZerocoins = false) (acc acc' : ConnectAcc)
    (h : env.connectTx block nHeight acc tx = .ok acc') : acc'.nValueOut - acc'.nValueIn - acc'.view.totalValue
      = acc.nValueOut - acc.nValueIn - acc.view.totalValue + (tx.valueBet + tx.oversizedOut) := by
  obtain ⟨ok⟩ := env.connectTx_eq_ok h
  have hvalue := ok.nValueIn
  unfold connectedSpent at hvalue
  rw [noSpends_of_free hzc, if_neg (by decide)] at hvalue
  obtain ⟨hsum, hnonneg⟩ := getValueOut_eq_some ok.valueOut_eq
  have htotal := connectTxCoins_totalValue hnonneg ok.haveInputs ok.coins
  have hout := hsum.trans tx.sum_vout_split
  rw [ok.acc_eq]
  dsimp only
  omega

/-- **How far one block drives supply and view apart**: what it pays to oversized scripts, less what it locks. -/
theorem ConnectBlockOk.supply_sub_totalValue
    {st : ChainState} {r : Connected} (ok : ConnectBlockOk env block nHeight st r) (hzc : block.zerocoinFree) :
    r.state.nMoneySupply - st.nMoneySupply - (r.state.view.totalValue - st.view.totalValue)
      = block.oversizedValue - env.lockedValue nHeight := by
  have hloop := foldlM_measure
    (fun acc : ConnectAcc => acc.nValueOut - acc.nValueIn - acc.view.totalValue)
    (fun tx => tx.valueBet + tx.oversizedOut)
    (fun tx htx => env.connectTx_totalValue (hzc tx htx)) ok.loop
  rw [sum_map_add] at hloop
  have hview : r.state.view.totalValue = ok.acc.view.totalValue :=
    (congrArg (fun r => r.state.view.totalValue) ok.result).trans
      (CCoinsView.totalValue_setBestBlock _ _)
  have hmoney := ok.nMoneySupply
  unfold CBlock.burnedValue at hmoney
  unfold CBlock.oversizedValue
  dsimp only at hloop
  omega

/-! ## §3. Along a chain. -/

/-- One connected block, with the node it was connected on and the states around it. -/
structure ChainStep where
  env : NodeEnv
  block : CBlock
  nHeight : Int
  before : ChainState
  after : ChainState

def ChainStep.Connects (s : ChainStep) : Prop :=
  ∃ fAlreadyChecked r, s.env.connectBlock s.block s.nHeight s.before false fAlreadyChecked = .ok r ∧ r.state = s.after

/-- Blocks connected one after another. -/
structure ConnectedChain (steps : List ChainStep) : Prop where
  connects : ∀ s ∈ steps, s.Connects
  linked : steps.IsChain fun s s' => s.after = s'.before

def ChainStep.Tracks (s : ChainStep) : Prop :=
  s.after.nMoneySupply - s.before.nMoneySupply = s.after.view.totalValue - s.before.view.totalValue

/-- A step tracks exactly when it is the first block, or when the block pays to oversized scripts what it locks. -/
theorem ChainStep.tracks_iff {s : ChainStep} (h : s.Connects) (hzc : s.block.zerocoinFree) :
    s.Tracks ↔ s.block.hash = s.env.params.hashGenesisBlock ∨ s.block.oversizedValue = s.env.lockedValue s.nHeight := by
  obtain ⟨fAlreadyChecked, r, hconnect, hafter⟩ := h
  unfold ChainStep.Tracks
  rw [← hafter]
  by_cases hgenesis : s.block.hash = s.env.params.hashGenesisBlock
  · refine iff_of_true ?_ (.inl hgenesis)
    unfold connectBlock at hconnect
    simp only [bind_eq_ok, if_pos hgenesis] at hconnect
    obtain ⟨-, -, -, -, hr⟩ := hconnect
    cases hr
    simp
  · obtain ⟨ok⟩ := s.env.connectBlock_eq_ok hgenesis hconnect
    have hdiff := ok.supply_sub_totalValue hzc
    rw [or_iff_right hgenesis]
    omega

/-- **Supply against coins.**  Along every chain of blocks without zerocoins the supply grows,
block by block, by what the view gains, exactly when no block pays to an oversized script (up to
the value frozen at the one height that locks any). -/
theorem supply_tracks_coins_iff {steps : List ChainStep} (hchain : ConnectedChain steps)
    (hzc : ∀ s ∈ steps, s.block.zerocoinFree) : (∀ s ∈ steps, s.Tracks) ↔
      ∀ s ∈ steps, s.block.hash = s.env.params.hashGenesisBlock ∨
        s.block.oversizedValue = s.env.lockedValue s.nHeight :=
  forall₂_congr fun s hs => ChainStep.tracks_iff (hchain.connects s hs) (hzc s hs)

def paymentStep (outs : List CTxOut) (r : Connected) : ChainStep :=
  ⟨entryNode twoCoinEntry, paymentBlock outs, 400, oneEntryState twoCoinEntry, r.state⟩

theorem transfer_tracks : ∃ r, (entryNode twoCoinEntry).connectBlock transferBlock 400
        (oneEntryState twoCoinEntry) false false = .ok r ∧ r.state.nMoneySupply - 0
        = r.state.view.totalValue - (oneEntryView twoCoinEntry).totalValue := by
  have hok : ((entryNode twoCoinEntry).connectBlock transferBlock 400
      (oneEntryState twoCoinEntry) false false).isOk = true := by decide +kernel
  obtain ⟨r, hr⟩ := exists_ok_of_isOk hok
  refine ⟨r, hr, ?_⟩
  let s := paymentStep [⟨6 * COIN, payTo 2⟩] r
  have hchain : ConnectedChain [s] := ⟨forall_mem_singleton.mpr ⟨false, r, hr, rfl⟩, by simp⟩
  have hzc : ∀ s' ∈ [s], s'.block.zerocoinFree :=
    forall_mem_singleton.mpr (show ∀ tx ∈ transferBlock.vtx, tx.containsZerocoins = false by decide)
  have hlost : transferBlock.oversizedValue = (entryNode twoCoinEntry).lockedValue 400 := by
    decide +kernel
  exact (supply_tracks_coins_iff hchain hzc).mpr (forall_mem_singleton.mpr (.inr hlost)) s mem_cons_self

/-- A script of one byte more than any script may have: one push of 9998 bytes. -/
def oversizedScript : CScript := OP_PUSHDATA2 :: 0x0e :: 0x27 :: List.replicate 9998 0

def firstBlock : CBlock :=
  { hash := ConsensusParams.mainNet.hashGenesisBlock
    hashPrevBlock := 0
    nTime := 1591653000
    vtx := [{ hash := 30, vin := [coinbaseIn],
              vout := [⟨0, []⟩] }] }

def oversizedBlock : CBlock :=
  { hash := 901
    hashPrevBlock := ConsensusParams.mainNet.hashGenesisBlock
    nTime := 1602000015
    vtx := [{ hash := 40, vin := [coinbaseIn],
              vout := [⟨1 * COIN, oversizedScript⟩] }] }

def emptyView : CCoinsView := ⟨fun _ => none, 0⟩

def minedNode (blocks : List CBlock) : NodeEnv := { plainNode 0 emptyView with chain := blocks }

def minedRun : Validated (Connected × Connected) := do
  let r ← (minedNode []).connectBlock firstBlock 0 ⟨emptyView, 0, fun _ => 0⟩ false true
  let r' ← (minedNode [firstBlock]).connectBlock oversizedBlock 1 r.state false false
  return (r, r')

/-- **Lost and still counted**: the second block mints a coin that no entry of the view holds, and the supply counts
it. -/
theorem oversized_payment_stays_in_supply :
    ∃ r r', (minedNode []).connectBlock firstBlock 0 ⟨emptyView, 0, fun _ => 0⟩ false true = .ok r ∧
      (minedNode [firstBlock]).connectBlock oversizedBlock 1 r.state false false = .ok r' ∧
      firstBlock.zerocoinFree ∧ oversizedBlock.zerocoinFree ∧ r'.state.nMoneySupply - r.state.nMoneySupply
        = r'.state.view.totalValue - r.state.view.totalValue + 1 * COIN := by
  have hok : minedRun.isOk = true := by decide +kernel
  obtain ⟨⟨r, r'⟩, hrun⟩ := exists_ok_of_isOk hok
  unfold minedRun at hrun
  simp only [bind_eq_ok] at hrun
  obtain ⟨r0, hr, r1, hr', hpair⟩ := hrun
  cases hpair
  have hzc : oversizedBlock.zerocoinFree := by
    unfold CBlock.zerocoinFree
    decide +kernel
  refine ⟨r, r', hr, hr', ?_, hzc, ?_⟩
  · unfold CBlock.zerocoinFree
    decide
  obtain ⟨ok⟩ := connectBlock_eq_ok (by decide) hr'
  have hdiff := ok.supply_sub_totalValue hzc
  have hvalue : oversizedBlock.oversizedValue - (minedNode [firstBlock]).lockedValue 1
      = 1 * COIN := by decide +kernel
  omega

end PwrbCore
