/-
  Params — CHAIN PARAMETERS (`consensus/params.h`, `chainparams.cpp`) and the block subsidy
  (`GetBlockValue`, `GetMasternodePayment` of `main.cpp`).

  Only the fields some modelled function reads are kept.  The development address is
  held decoded, as `CBitcoinAddress(strDevPayoutAddr).Get()` returns it.
-/
import PwrbCore.Script.Standard

namespace PwrbCore

/-- `CBaseChainParams::Network`. -/
inductive Network where
  | main | testnet | regtest
  deriving DecidableEq, Repr

/-- The part of `Consensus::Params` the validation code below reads. -/
structure ConsensusParams where
  network : Network
  hashGenesisBlock : Uint256
  nBudgetCycleBlocks : Int
  nCoinbaseMaturity : Int
  nFutureTimeDriftPoW : Int
  nFutureTimeDriftPoS : Int
  nMaxMoneyOut : Int
  nStakeMinDepth : Int
  nTimeSlotLength : Int
  devPayout : CTxDestination
  nBetBlocksIndexTimespan : Int
  /-- declared `int64_t`, so the literal `0.05` it is set from is stored as `0` -/
  nMinBetPayoutRange : Int
  nMaxBetPayoutRange : Int
  nMaxWinnerPayout : Int
  nBetPlaceTimeoutBlocks : Int
  height_last_PoW : Int
  height_last_ZC_AccumCheckpoint : Int
  height_last_ZC_WrappedSerials : Int
  height_start_BIP65 : Int
  height_start_InvalidUTXOsCheck : Int
  height_start_TimeProtoV2 : Int
  height_start_ZC : Int
  height_start_ZC_PublicSpends : Int
  height_ZC_RecalcAccumulators : Int
  ZC_MaxPublicSpendsPerTx : Nat
  ZC_MaxSpendsPerTx : Nat
  ZC_TimeStart : Int

namespace ConsensusParams

def mainNet : ConsensusParams where
  network := .main
  hashGenesisBlock := 0x000001240cc694469fa1944f31e3e1de71799ae415cff0dfdf4e7229896b37eb
  nBudgetCycleBlocks := 43200
  nCoinbaseMaturity := 100
  nFutureTimeDriftPoW := 7200
  nFutureTimeDriftPoS := 180
  nMaxMoneyOut := 3000000 * COIN
  nStakeMinDepth := 600
  nTimeSlotLength := 15
  devPayout := .keyID ⟨[248, 111, 3, 23, 247, 241, 151, 183, 143, 24, 86, 255, 131, 35, 126, 78,
    246, 23, 135, 68], rfl⟩
  nBetBlocksIndexTimespan := 1440 * 7
  nMinBetPayoutRange := 0
  nMaxBetPayoutRange := 833
  nMaxWinnerPayout := 10001
  nBetPlaceTimeoutBlocks := 110 * 60
  height_last_PoW := 200
  height_last_ZC_AccumCheckpoint := 208
  height_last_ZC_WrappedSerials := -1
  height_start_BIP65 := 210
  height_start_InvalidUTXOsCheck := 999999999
  height_start_TimeProtoV2 := 2100
  height_start_ZC := 205
  height_start_ZC_PublicSpends := 2100
  height_ZC_RecalcAccumulators := 999999999
  ZC_MaxPublicSpendsPerTx := 637
  ZC_MaxSpendsPerTx := 7
  ZC_TimeStart := 1591653000

def moneyRange (params : ConsensusParams) (nValue : Int) : Bool :=
  decide (0 ≤ nValue) && decide (nValue ≤ params.nMaxMoneyOut)

def isTimeProtocolV2 (params : ConsensusParams) (nHeight : Int) : Bool :=
  decide (params.height_start_TimeProtoV2 ≤ nHeight)

def futureBlockTimeDrift (params : ConsensusParams) (nHeight : Int) : Int :=
  if params.isTimeProtocolV2 nHeight then params.nTimeSlotLength - 1
  else if params.height_last_PoW < nHeight then params.nFutureTimeDriftPoS
  else params.nFutureTimeDriftPoW

/-- `IsValidBlockTimeStamp`: time protocol v2 puts blocks in slots. -/
def isValidBlockTimeStamp (params : ConsensusParams) (nTime nHeight : Int) : Bool :=
  if !params.isTimeProtocolV2 nHeight then true else decide (nTime % params.nTimeSlotLength = 0)

end ConsensusParams

/-- `GetBlockValue`: the first block carries the premine, every other one coin. -/
def getBlockValue (nHeight : Int) : Int := if nHeight = 1 then 175200 * COIN else 1 * COIN

def getMasternodePayment : Int := 0

theorem getBlockValue_pos (nHeight : Int) : 0 < getBlockValue nHeight := by
  unfold getBlockValue COIN
  split_ifs <;> decide

end PwrbCore
