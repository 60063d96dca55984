/-
  Staking.Kernel — THE PROOF OF STAKE OF A BLOCK (`kernel.cpp`, `stakeinput.cpp`, and `base_uint` of
  `arith_uint256.cpp`).

  A stake input is the output that a coinstake spends first.  Its value weights the target
  that the hash of the kernel has to meet; the weighted target is a product of 256-bit
  integers.  An access to an output vector beyond its end is undefined behaviour in the
  source and an outcome of its own here.

  Main results: `kernel_target_exact_iff`, `checkProofOfStake_reads_output_iff`.
-/
import PwrbCore.Betting.SinglePayment
import PwrbCore.Chain.BlockIndex
import PwrbCore.Lib.Limbs
import PwrbCore.Serialize.Fields
import PwrbCore.Validation.Reorg

namespace PwrbCore

open Option ConsensusParams

/-! ## §1. Staking parameters. -/

variable {txin : CTxIn}

/-- The consensus parameters that only staking reads. -/
structure StakingParams where
  posLimitV1 : Nat
  posLimitV2 : Nat
  nStakeMinAge : Nat
  height_start_StakeModifierV2 : Int

/-- `CMainParams` and `CTestNetParams`. -/
def StakingParams.mainNet : StakingParams where
  posLimitV1 := (2 ^ 256 - 1) / 2 ^ 24
  posLimitV2 := (2 ^ 256 - 1) / 2 ^ 20
  nStakeMinAge := 3600
  height_start_StakeModifierV2 := 2000

def StakingParams.proofOfStakeLimit (params : StakingParams) (fV2 : Bool) : Nat :=
  if fV2 then params.posLimitV2 else params.posLimitV1

section

variable (params : ConsensusParams) (staking : StakingParams)

/-- `HasStakeMinAgeOrDepth`; the age is added in `uint32_t`. -/
def hasStakeMinAgeOrDepth (contextHeight : Int) (contextTime : Nat)
    (utxoFromBlockHeight : Int) (utxoFromBlockTime : Nat) : Bool :=
  if contextHeight < staking.height_start_StakeModifierV2 then
    decide ((utxoFromBlockTime + staking.nStakeMinAge) % 2 ^ 32 ≤ contextTime)
  else decide (params.nStakeMinDepth ≤ contextHeight - utxoFromBlockHeight)

/-! ## §2. Stake inputs. -/

/-- A block index entry, as far as staking reads it. -/
structure StakeIndex where
  hash : Uint256
  nHeight : Int
  nTime : Nat
  deriving DecidableEq, Repr

/-- `CPwrbStake`: the transaction staked from, the position of the output and the block. -/
structure CPwrbStake where
  txFrom : CTransaction
  nPosition : Nat
  pindexFrom : StakeIndex
  deriving DecidableEq, Repr

/-- The index entry of a block of the active chain. -/
def NodeEnv.indexInChain (env : NodeEnv) (hashBlock : Uint256) : Option StakeIndex :=
  (env.heightInChain hashBlock).bind fun height =>
    (env.chain[height]?).map fun block => ⟨block.hash, height, block.nTime⟩

/-- `CPwrbStake::InitFromTxIn`.  The position is taken over as it stands. -/
def NodeEnv.initFromTxIn (env : NodeEnv) (txin : CTxIn) : Option CPwrbStake :=
  if txin.isZerocoinSpend then none
  else
    match env.getTransaction txin.prevout.hash with
    | none => none
    | some (txPrev, hashBlock) =>
      (env.indexInChain hashBlock).map fun pindexFrom => ⟨txPrev, txin.prevout.n, pindexFrom⟩

def CPwrbStake.getTxOutFrom (stake : CPwrbStake) : Option CTxOut :=
  if (stake.txFrom.vin.isEmpty && stake.txFrom.vout.isEmpty) ||
    decide (stake.txFrom.vout.length ≤ stake.nPosition) then none
  else stake.txFrom.vout[stake.nPosition]?

/-- `CPwrbStake::GetValue`; `none` is an access beyond the end of the outputs. -/
def CPwrbStake.getValue (stake : CPwrbStake) : Option Int :=
  (stake.txFrom.vout[stake.nPosition]?).map CTxOut.nValue

def CPwrbStake.getUniqueness (stake : CPwrbStake) : List UInt8 :=
  writeLE 4 stake.nPosition ++ writeLE 32 stake.txFrom.hash.toNat

def CPwrbStake.contextCheck (stake : CPwrbStake) (nHeight : Int) (nTime : Nat) : Bool :=
  !(decide (params.height_start_ZC_PublicSpends - 1 ≤ nHeight)
    && !hasStakeMinAgeOrDepth params staking nHeight nTime stake.pindexFrom.nHeight stake.pindexFrom.nTime)

/-- A stake of the time when zerocoins could stake (`CLegacyZPwrbStake`): its value is a denomination, and there is no
previous output. -/
structure CLegacyZPwrbStake where
  value : Int
  uniqueness : List UInt8
  pindexFrom : StakeIndex
  contextCheck : Int → Nat → Bool

inductive CStakeInput where
  | pwrb (stake : CPwrbStake)
  | zpwrb (stake : CLegacyZPwrbStake)

def CStakeInput.getValue : CStakeInput → Option Int
  | pwrb stake => stake.getValue
  | zpwrb stake => some stake.value

def CStakeInput.getUniqueness : CStakeInput → List UInt8
  | pwrb stake => stake.getUniqueness
  | zpwrb stake => stake.uniqueness

def CStakeInput.pindexFrom : CStakeInput → StakeIndex
  | pwrb stake => stake.pindexFrom
  | zpwrb stake => stake.pindexFrom

def CStakeInput.contextCheck (params : ConsensusParams) (staking : StakingParams) (nHeight : Int) (nTime : Nat) :
    CStakeInput → Bool
  | pwrb stake => stake.contextCheck params staking nHeight nTime
  | zpwrb stake => stake.contextCheck nHeight nTime

/-! ## §3. The kernel. -/

/-- What the proof of stake takes from elsewhere: hash function, modifiers, accumulators, script interpreter. -/
structure StakeRules where
  /-- `Hash`, double SHA-256 -/
  hash : List UInt8 → Uint256
  /-- `GetOldStakeModifier`, zero where it fails -/
  oldStakeModifier : CStakeInput → Nat
  /-- `GetStakeModifierV2` of a block -/
  stakeModifierV2 : Uint256 → Uint256
  /-- `CLegacyZPwrbStake::InitFromTxIn` -/
  legacyStake : CTxIn → Option CLegacyZPwrbStake
  /-- `VerifyScript` of the first input with the standard flags: the error text, if it fails -/
  verifyStakeScript : CTransaction → CScript → Option String

structure CStakeKernel where
  stakeModifier : List UInt8
  nTimeBlockFrom : Int
  stakeUniqueness : List UInt8
  nTime : Int
  nBits : Nat
  stakeValue : Int
  deriving DecidableEq, Repr

/-- The constructor of `CStakeKernel`; `none` where reading the value is undefined. -/
def stakeKernel (staking : StakingParams) (rules : StakeRules) (pindexPrev : StakeIndex) (stakeInput : CStakeInput)
    (nBits : Nat) (nTimeTx : Int) : Option CStakeKernel :=
  stakeInput.getValue.map fun stakeValue =>
    { stakeModifier :=
        if pindexPrev.nHeight + 1 < staking.height_start_StakeModifierV2 then writeLE 8
          (rules.oldStakeModifier stakeInput)
        else writeLE 32 (rules.stakeModifierV2 pindexPrev.hash).toNat
      nTimeBlockFrom := stakeInput.pindexFrom.nTime
      stakeUniqueness := stakeInput.getUniqueness
      nTime := nTimeTx
      nBits := nBits
      stakeValue := stakeValue }

def CStakeKernel.getHash (kernel : CStakeKernel) (hash : List UInt8 → Uint256) : Uint256 :=
  hash (kernel.stakeModifier ++ writeInt 4 kernel.nTimeBlockFrom ++ kernel.stakeUniqueness ++ writeInt 4 kernel.nTime)

/-- A `uint256` with arithmetic: eight limbs of 32 bits. -/
abbrev ArithUint256 := LimbInt (2 ^ 32) 8

def ArithUint256.ofNat (n : Nat) : ArithUint256 := LimbInt.ofNat (by decide) 8 n

/-- `bnTarget.SetCompact(nBits); bnTarget *= (uint256(stakeValue) / 100)`. The value is converted to `uint64_t`. -/
def weightedTarget (nBits : Nat) (stakeValue : Int) : ArithUint256 :=
  LimbInt.mul (by decide) (ArithUint256.ofNat (setCompact nBits).1)
    (ArithUint256.ofNat ((Limbs.shiftSubtract (stakeValue % 2 ^ 64).toNat 100).getD 0))

def CStakeKernel.checkKernelHash (kernel : CStakeKernel) (hash : List UInt8 → Uint256) : Bool :=
  decide ((kernel.getHash hash).toNat < (weightedTarget kernel.nBits kernel.stakeValue).value)

/-! ## §4. `CheckProofOfStake`. -/

inductive StakeVerdict where
  | accepted
  | rejected (strError : String)
  /-- an output vector was indexed beyond its end -/
  | undefinedAccess
  deriving DecidableEq, Repr

def CBlock.stakeTxIn (block : CBlock) : Option CTxIn := (block.vtx[1]?).bind fun tx => tx.vin.head?

def NodeEnv.loadStakeInput (env : NodeEnv) (rules : StakeRules) (block : CBlock) (pindexPrev : StakeIndex) :
    Option CStakeInput :=
  if block.hashPrevBlock ≠ pindexPrev.hash then none
  else if !block.isProofOfStake then none
  else
    block.stakeTxIn.bind fun txin =>
      if txin.isZerocoinSpend then (rules.legacyStake txin).map .zpwrb else (env.initFromTxIn txin).map .pwrb

/-- The last part of `CheckProofOfStake`, for a stake that is no zerocoin spend. -/
def CPwrbStake.verifyPrevout (stake : CPwrbStake) (rules : StakeRules) (tx : CTransaction) : StakeVerdict :=
  match stake.getTxOutFrom with
  | none => .rejected "unable to get stake prevout for coinstake"
  | some stakePrevout =>
    match rules.verifyStakeScript tx stakePrevout.scriptPubKey with
    | some serror => .rejected ("signature fails: " ++ serror)
    | none => .accepted

/-- `CheckProofOfStake`: the input, its age, then the kernel. -/
def NodeEnv.checkProofOfStake (env : NodeEnv) (staking : StakingParams) (rules : StakeRules) (block : CBlock)
    (pindexPrev : StakeIndex) : StakeVerdict :=
  match env.loadStakeInput rules block pindexPrev with
  | none => .rejected "stake input initialization failed"
  | some stakeInput =>
    if !stakeInput.contextCheck env.params staking (pindexPrev.nHeight + 1) block.nTime then
      .rejected "stake input failing contextual checks"
    else
      match stakeKernel staking rules pindexPrev stakeInput block.nBits block.nTime with
      | none => .undefinedAccess
      | some kernel =>
        if !kernel.checkKernelHash rules.hash then .rejected "kernel hash check fails"
        else
          match stakeInput, block.vtx[1]? with
          | .pwrb stake, some tx => stake.verifyPrevout rules tx
          | _, _ => .accepted

/-! ## §5. The weighted target. -/

/-- **The weighted target** is the product modulo `2 ^ 256`. -/
theorem value_weightedTarget (nBits : Nat) {stakeValue : Int} (h : 0 ≤ stakeValue ∧ stakeValue < 2 ^ 63) :
    (weightedTarget nBits stakeValue).value = (setCompact nBits).1 * (stakeValue.toNat / 100) % 2 ^ 256 := by
  have hcast : (stakeValue % 2 ^ 64).toNat = stakeValue.toNat := by omega
  simp_all [weightedTarget, ArithUint256.ofNat, LimbInt.value_mul, LimbInt.value_ofNat, Limbs.shiftSubtract_eq]

theorem CStakeKernel.checkKernelHash_iff {kernel : CStakeKernel}
    (h : 0 ≤ kernel.stakeValue ∧ kernel.stakeValue < 2 ^ 63)
    (hash : List UInt8 → Uint256) : kernel.checkKernelHash hash = true ↔
      (kernel.getHash hash).toNat < (setCompact kernel.nBits).1 * (kernel.stakeValue.toNat / 100) % 2 ^ 256 := by
  unfold checkKernelHash
  rw [decide_eq_true_iff, value_weightedTarget kernel.nBits h]

/-- **No wrap-around.**  Take any difficulty bits and a stake value within the money range.  For all kernels and
hash functions the test is "hash below target times value / 100" over the natural numbers, and a smaller stake
never does better, exactly if the product is below `2 ^ 256`. -/
theorem kernel_target_exact_iff (nBits : Nat) (stakeValue : Int) (hvalue : mainNet.moneyRange stakeValue = true) :
    (∀ (hash : List UInt8 → Uint256) (kernel : CStakeKernel), kernel.nBits = nBits → kernel.stakeValue = stakeValue →
        (kernel.checkKernelHash hash = true ↔
          (kernel.getHash hash).toNat < (setCompact nBits).1 * (stakeValue.toNat / 100)) ∧
        ∀ smaller, 0 ≤ smaller → smaller ≤ stakeValue →
          ({ kernel with stakeValue := smaller } : CStakeKernel).checkKernelHash hash = true →
          kernel.checkKernelHash hash = true) ↔ (setCompact nBits).1 * (stakeValue.toNat / 100) < 2 ^ 256 := by
  have hmoney : 0 ≤ stakeValue ∧ stakeValue < 2 ^ 63 := by
    unfold moneyRange at hvalue
    rw [Bool.and_eq_true, decide_eq_true_iff, decide_eq_true_iff] at hvalue
    have hmax : mainNet.nMaxMoneyOut = 300000000000000 := rfl
    omega
  constructor
  · intro hexact
    by_contra hwrap
    have hboth := (hexact (fun _ => .ofNat 256 ((setCompact nBits).1 * (stakeValue.toNat / 100)))
      ⟨[], 0, [], 0, nBits, stakeValue⟩ rfl rfl).1
    rw [CStakeKernel.checkKernelHash_iff hmoney] at hboth
    exact absurd (hboth.mpr (by omega)) (lt_irrefl _)
  · intro hsmall hash kernel hbits hstake
    subst hbits hstake
    have hexact := CStakeKernel.checkKernelHash_iff hmoney hash
    rw [Nat.mod_eq_of_lt hsmall] at hexact
    refine ⟨hexact, ?_⟩
    intro smaller hnonneg hle haccept
    rw [CStakeKernel.checkKernelHash_iff (show 0 ≤ smaller ∧ smaller < 2 ^ 63 by omega)] at haccept
    -- the smaller product does not wrap either
    have hless : (setCompact kernel.nBits).1 * (smaller.toNat / 100)
        ≤ (setCompact kernel.nBits).1 * (kernel.stakeValue.toNat / 100) :=
      Nat.mul_le_mul_left _ (Nat.div_le_div_right (by omega))
    rw [Nat.mod_eq_of_lt (lt_of_le_of_lt hless hsmall)] at haccept
    rw [hexact]
    exact lt_of_lt_of_le haccept hless

/-- At the bits of the genesis block and a stake of 100 base units the test is exact. -/
theorem small_stake_exact :
    (∀ (hash : List UInt8 → Uint256) (kernel : CStakeKernel), kernel.nBits = 0x1e0ffff0 → kernel.stakeValue = 100 →
        (kernel.checkKernelHash hash = true ↔
          (kernel.getHash hash).toNat < (setCompact 0x1e0ffff0).1 * ((100 : Int).toNat / 100)) ∧
        ∀ smaller, 0 ≤ smaller → smaller ≤ 100 →
          ({ kernel with stakeValue := smaller } : CStakeKernel).checkKernelHash hash = true →
          kernel.checkKernelHash hash = true) ↔ (setCompact 0x1e0ffff0).1 * ((100 : Int).toNat / 100) < 2 ^ 256 :=
  kernel_target_exact_iff 0x1e0ffff0 100 (by decide)

/-- At the same bits a stake of about 68719 coins multiplies the target by `2 ^ 36` and wraps to zero: no kernel is
accepted, not even of hash zero, which a stake of 100 base units has accepted. -/
theorem large_stake_wraps : (setCompact 0x1e0ffff0).1 ≤ StakingParams.mainNet.proofOfStakeLimit true ∧
      mainNet.moneyRange (100 * 2 ^ 36) = true ∧
      (⟨[], 0, [], 0, 0x1e0ffff0, 100⟩ : CStakeKernel).checkKernelHash (fun _ => 0) = true ∧
      (⟨[], 0, [], 0, 0x1e0ffff0, 100 * 2 ^ 36⟩ : CStakeKernel).checkKernelHash (fun _ => 0) = false := by
  decide +kernel

/-! ## §6. The staked output. -/

/-- The coinstake's first input names an output that its previous transaction lacks. -/
structure MissingOutput (env : NodeEnv) (block : CBlock) (txin : CTxIn) (txPrev : CTransaction)
    (hashBlock : Uint256) : Prop where
  input : block.stakeTxIn = some txin
  notZerocoin : txin.isZerocoinSpend = false
  found : env.getTransaction txin.prevout.hash = some (txPrev, hashBlock)
  missing : txPrev.vout.length ≤ txin.prevout.n

/-- **The origin of the stake is accepted**: a staked block on the parent, the previous transaction in the active
chain, deep or old enough. -/
def OriginAccepted (env : NodeEnv) (staking : StakingParams) (block : CBlock) (pindexPrev : StakeIndex)
    (hashBlock : Uint256) : Prop :=
  block.hashPrevBlock = pindexPrev.hash ∧ block.isProofOfStake = true ∧
    ∃ pindexFrom, env.indexInChain hashBlock = some pindexFrom ∧
      (pindexPrev.nHeight + 1 < env.params.height_start_ZC_PublicSpends - 1 ∨
        hasStakeMinAgeOrDepth env.params staking (pindexPrev.nHeight + 1) block.nTime pindexFrom.nHeight
          pindexFrom.nTime = true)

theorem CPwrbStake.contextCheck_iff (stake : CPwrbStake)
    (nHeight : Int) (nTime : Nat) : stake.contextCheck params staking nHeight nTime = true ↔
      nHeight < params.height_start_ZC_PublicSpends - 1 ∨
        hasStakeMinAgeOrDepth params staking nHeight nTime stake.pindexFrom.nHeight stake.pindexFrom.nTime = true := by
  unfold contextCheck
  rw [Bool.not_eq_true', Bool.and_eq_false_iff, decide_eq_false_iff_not, Bool.not_eq_false', not_le]

end

variable {rules : StakeRules}

/-- The value of a stake is read from an output exactly if there is one. -/
theorem CPwrbStake.getValue_eq_none_iff (stake : CPwrbStake) :
    stake.getValue = none ↔ stake.txFrom.vout.length ≤ stake.nPosition := by
  unfold getValue
  rw [map_eq_none_iff, List.getElem?_eq_none_iff]

/-- The last part of the check makes no access that is undefined. -/
theorem CPwrbStake.verifyPrevout_ne (stake : CPwrbStake) (rules : StakeRules) (tx : CTransaction) :
    stake.verifyPrevout rules tx ≠ .undefinedAccess := by
  unfold verifyPrevout
  cases stake.getTxOutFrom with
  | none => exact StakeVerdict.noConfusion
  | some stakePrevout => grind

/-- **Where the access is undefined**: a stake input is loaded, passes its check, and has no value. -/
theorem NodeEnv.checkProofOfStake_undefined_iff (env : NodeEnv) (staking : StakingParams) (rules : StakeRules)
    (block : CBlock) (pindexPrev : StakeIndex) :
    env.checkProofOfStake staking rules block pindexPrev = .undefinedAccess ↔
      ∃ stakeInput, env.loadStakeInput rules block pindexPrev = some stakeInput ∧
        stakeInput.contextCheck env.params staking (pindexPrev.nHeight + 1) block.nTime = true ∧
        stakeInput.getValue = none := by
  unfold checkProofOfStake
  cases hload : env.loadStakeInput rules block pindexPrev with
  | none =>
    refine iff_of_false StakeVerdict.noConfusion ?_
    rintro ⟨_, h, -⟩
    cases h
  | some stakeInput =>
    dsimp only
    cases hcheck : stakeInput.contextCheck env.params staking (pindexPrev.nHeight + 1) block.nTime with
    | false =>
      simp [hcheck]
    | true =>
      unfold stakeKernel
      cases hvalue : stakeInput.getValue with
      | none => exact iff_of_true rfl ⟨stakeInput, rfl, hcheck, hvalue⟩
      | some value =>
        refine iff_of_false ?_ ?_
        · -- the kernel was built, so only the prevout is left to read
          rw [map_some]
          dsimp only
          generalize CStakeKernel.checkKernelHash _ rules.hash = meets
          cases meets with
          | false => exact StakeVerdict.noConfusion
          | true =>
            cases stakeInput with
            | zpwrb stake => exact StakeVerdict.noConfusion
            | pwrb stake =>
              cases block.vtx[1]? with
              | none => exact StakeVerdict.noConfusion
              | some tx => exact stake.verifyPrevout_ne rules tx
        · rintro ⟨_, ⟨⟩, -, h⟩
          rw [hvalue] at h
          cases h

variable {block : CBlock} {txPrev : CTransaction} {hashBlock : Uint256} {staking : StakingParams}
  {pindexPrev : StakeIndex}

/-- What `LoadStakeInput` makes of an input that is no zerocoin spend. -/
theorem NodeEnv.loadStakeInput_eq {env : NodeEnv} (rules : StakeRules) (pindexPrev : StakeIndex)
    (hin : block.stakeTxIn = some txin)
    (hzero : txin.isZerocoinSpend = false) (hfound : env.getTransaction txin.prevout.hash = some (txPrev, hashBlock)) :
    env.loadStakeInput rules block pindexPrev = if block.hashPrevBlock ≠ pindexPrev.hash then none
      else if !block.isProofOfStake then none
      else (env.indexInChain hashBlock).map fun pindexFrom => .pwrb ⟨txPrev, txin.prevout.n, pindexFrom⟩ := by
  unfold loadStakeInput initFromTxIn
  have hplain : ¬ txin.isZerocoinSpend = true := by
    rw [hzero]
    decide
  simp only [hin, bind_some, if_neg hplain, hfound, map_map]
  rfl

/-- A stake with a missing output and an accepted origin is loaded and passes its check. -/
theorem NodeEnv.loads_of_originAccepted (env : NodeEnv) (rules : StakeRules)
    (hmissing : MissingOutput env block txin txPrev hashBlock)
    (haccepted : OriginAccepted env staking block pindexPrev hashBlock) :
    ∃ stakeInput, env.loadStakeInput rules block pindexPrev = some stakeInput ∧
      stakeInput.contextCheck env.params staking (pindexPrev.nHeight + 1) block.nTime = true ∧
      stakeInput.getValue = none := by
  obtain ⟨hparent, hstake, pindexFrom, hindex, hdeep⟩ := haccepted
  refine ⟨.pwrb ⟨txPrev, txin.prevout.n, pindexFrom⟩, ?_, ?_, ?_⟩
  · rw [loadStakeInput_eq rules pindexPrev hmissing.input hmissing.notZerocoin hmissing.found,
      if_neg (not_not_intro hparent), if_neg (by rw [hstake]; decide), hindex]
    rfl
  · exact (CPwrbStake.contextCheck_iff env.params staking ⟨txPrev, txin.prevout.n, pindexFrom⟩ _ _).mpr hdeep
  · exact (CPwrbStake.getValue_eq_none_iff ⟨txPrev, txin.prevout.n, pindexFrom⟩).mpr hmissing.missing

/-- A stake without a value that passes its check has a missing output and an accepted origin. -/
theorem NodeEnv.originAccepted_of_loads (env : NodeEnv) {stakeInput : CStakeInput}
    (hload : env.loadStakeInput rules block pindexPrev = some stakeInput)
    (hcheck : stakeInput.contextCheck env.params staking (pindexPrev.nHeight + 1) block.nTime = true)
    (hvalue : stakeInput.getValue = none) : ∃ txin txPrev hashBlock, MissingOutput env block txin txPrev hashBlock ∧
      OriginAccepted env staking block pindexPrev hashBlock := by
  unfold loadStakeInput at hload
  split_ifs at hload with hparent hstake
  rw [bind_eq_some_iff] at hload
  obtain ⟨txin, hin, hinput⟩ := hload
  split_ifs at hinput with hzero
  · -- a zerocoin stake has a value
    rw [map_eq_some_iff] at hinput
    obtain ⟨stake, -, rfl⟩ := hinput
    cases hvalue
  have hplain : txin.isZerocoinSpend = false := by simpa using hzero
  rw [map_eq_some_iff] at hinput
  obtain ⟨stake, hinit, rfl⟩ := hinput
  unfold initFromTxIn at hinit
  rw [if_neg hzero] at hinit
  cases hfound : env.getTransaction txin.prevout.hash with
  | none =>
    rw [hfound] at hinit
    cases hinit
  | some found =>
    obtain ⟨txPrev, hashBlock⟩ := found
    rw [hfound] at hinit
    rw [map_eq_some_iff] at hinit
    obtain ⟨pindexFrom, hindex, rfl⟩ := hinit
    refine ⟨txin, txPrev, hashBlock, ⟨hin, hplain, hfound, ?_⟩, not_not.mp hparent,
      by simpa using hstake, pindexFrom, hindex, ?_⟩
    · exact (CPwrbStake.getValue_eq_none_iff ⟨txPrev, txin.prevout.n, pindexFrom⟩).mp hvalue
    · exact (CPwrbStake.contextCheck_iff env.params staking ⟨txPrev, txin.prevout.n, pindexFrom⟩ _ _).mp hcheck

/-- A stake with a missing output is refused if its origin is not accepted. -/
theorem NodeEnv.rejected_of_missing (env : NodeEnv) (hmissing : MissingOutput env block txin txPrev hashBlock)
    (hrefused : ¬ OriginAccepted env staking block pindexPrev hashBlock) :
    ∃ strError, env.checkProofOfStake staking rules block pindexPrev = .rejected strError := by
  unfold checkProofOfStake
  rw [loadStakeInput_eq rules pindexPrev hmissing.input hmissing.notZerocoin hmissing.found]
  by_cases hparent : block.hashPrevBlock = pindexPrev.hash
  · rw [if_neg (not_not_intro hparent)]
    cases hstake : block.isProofOfStake with
    | false => exact ⟨_, rfl⟩
    | true =>
      cases hindex : env.indexInChain hashBlock with
      | none => exact ⟨_, rfl⟩
      | some pindexFrom =>
        dsimp only [Bool.not_true, map_some]
        rw [if_neg (by decide)]
        dsimp only
        rw [if_pos]
        · exact ⟨_, rfl⟩
        rw [Bool.not_eq_true']
        by_contra hcheck
        rw [Bool.not_eq_false] at hcheck
        exact hrefused ⟨hparent, hstake, pindexFrom, hindex,
          (CPwrbStake.contextCheck_iff env.params staking ⟨txPrev, txin.prevout.n, pindexFrom⟩ _ _).mp hcheck⟩
  · rw [if_pos hparent]
    exact ⟨_, rfl⟩

/-- **The staked output.**  No output vector is indexed beyond its end, and a block whose coinstake names a missing
output is refused, exactly if the origin of no stake with a missing output is accepted. -/
theorem checkProofOfStake_reads_output_iff (env : NodeEnv) (staking : StakingParams) (rules : StakeRules)
    (block : CBlock) (pindexPrev : StakeIndex) :
    (env.checkProofOfStake staking rules block pindexPrev ≠ .undefinedAccess ∧
        ∀ txin txPrev hashBlock, MissingOutput env block txin txPrev hashBlock →
          ∃ strError, env.checkProofOfStake staking rules block pindexPrev = .rejected strError)
      ↔ ∀ txin txPrev hashBlock, MissingOutput env block txin txPrev hashBlock →
          ¬ OriginAccepted env staking block pindexPrev hashBlock := by
  constructor
  · rintro ⟨hdefined, -⟩ txin txPrev hashBlock hmissing haccepted
    apply hdefined
    rw [env.checkProofOfStake_undefined_iff]
    exact env.loads_of_originAccepted rules hmissing haccepted
  · intro hrefused
    have hdefined : env.checkProofOfStake staking rules block pindexPrev ≠ .undefinedAccess := by
      rw [ne_eq, env.checkProofOfStake_undefined_iff]
      grind [env.originAccepted_of_loads]
    refine ⟨hdefined, ?_⟩
    intro txin txPrev hashBlock hmissing
    exact env.rejected_of_missing hmissing (hrefused txin txPrev hashBlock hmissing)

/-- A node on the sample chain at height 299, whose index knows the coinstake of height 250. -/
def indexedNode : NodeEnv :=
  { plainNode 0 ⟨fun _ => none, 60299⟩ with
    chain := (List.range 300).map sampleBlock
    fTxIndex := true
    txIndex := fun hash => if hash = 20250 then some (sampleCoinstake 250, 60250) else none }

def sampleRules : StakeRules where
  hash := fun _ => 0
  oldStakeModifier := fun _ => 0
  stakeModifierV2 := fun _ => 0
  legacyStake := fun _ => none
  verifyStakeScript := fun _ _ => none

/-- A block of height 300 whose coinstake spends output 7 of that of height 250. -/
def missingOutputBlock : CBlock :=
  { hash := 60300
    hashPrevBlock := 60299
    nTime := 1601733150
    nBits := 0x1e0ffff0
    vtx := [sampleCoinbase 300,
      { hash := 77, vin := [.of 20250 7], vout := [⟨0, []⟩, ⟨6 * COIN, []⟩] }] }

/-- The coinstake of height 250 has two outputs; output 7 is beyond them. -/
theorem missing_output_accessed : missingOutputBlock.stakeTxIn.map CTxIn.prevout = some ⟨20250, 7⟩ ∧
      (indexedNode.getTransaction 20250).map (fun found => found.1.vout.length) = some 2 ∧
      indexedNode.checkProofOfStake .mainNet sampleRules missingOutputBlock ⟨60299, 299, sampleTime 299⟩
        = .undefinedAccess := by
  decide +kernel

end PwrbCore
