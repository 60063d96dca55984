/-
  Betting.BetPayouts — WHICH BETS A PAYOUT BLOCK HAS TO PAY (`CLottoBet::FromOpCode`, `GetBetPayouts` of
  `betting/bet.cpp`, and the payout section of `ConnectBlock`).

  Every 1500 blocks the recent chain is scanned twice over in one loop: for winning bets
  (`expectedPayouts`) and for payouts already made since the last draw
  (`completedPayouts`).  What was expected and not completed is due.  The two accumulators
  of that loop never look at each other, so they are two functions here; an exception that
  leaves `GetBetPayouts` is `none`.
-/
import PwrbCore.Betting.BlockPayouts
import PwrbCore.Betting.Draws

namespace PwrbCore

open List Option

/-! ## §1. Bet slips. -/

variable {k : Nat} {nTraverseHeight height : Int} {sources : ResultSources} {chain : List CBlock}

structure CLottoBet where
  nDate : Nat
  nNumber1 : Nat
  nNumber2 : Nat
  nNumber3 : Nat
  deriving DecidableEq, Repr

def BTX_FORMAT_VERSION : Int := 1

def plBetTxType : UInt8 := 1

/-- `ReadBTXFormatVersion`; the version byte is read as a (signed) `char`. -/
def readBTXFormatVersion (b0 b1 : UInt8) : Int :=
  if b0 ≠ 0x42 then -1
  else
    let v : Int := if b1 < 0x80 then b1.toNat else b1.toNat - 256
    if v < 1 ∨ 254 < v then -1 else v

/-- `FromChars` on two bytes. -/
def fromChars (a b : UInt8) : Nat := a.toNat + 256 * b.toNat

/-- `CLottoBet::FromOpCode`: thirteen bytes, little-endian fields. -/
def CLottoBet.fromOpCode (opCode : List UInt8) : Option CLottoBet :=
  match opCode with
  | [b0, b1, b2, b3, b4, b5, b6, b7, b8, b9, b10, b11, b12] =>
    if b2 ≠ plBetTxType then none
    else if readBTXFormatVersion b0 b1 ≠ BTX_FORMAT_VERSION then none
    else some
      { nDate := fromChars b3 b4 + 65536 * fromChars b5 b6
        nNumber1 := fromChars b7 b8
        nNumber2 := fromChars b9 b10
        nNumber3 := fromChars b11 b12 }
  | _ => none

/-- The payload of an output: what follows `OP_RETURN` in the printed script, read back from hex. -/
def betOpCode (scriptPubKey : CScript) : List UInt8 :=
  parseHex ((scriptToAsmStr scriptPubKey).drop 9)

/-! ## §2. Winning, and what is won. -/

/-- `n != stoi(resultNum1) && … && n != stoi(resultNum5)`, left to right: an early hit keeps the later numbers from
being parsed. -/
def notDrawn (n : Nat) : List (List Char) → Option Bool
  | [] => some true
  | resultNum :: nums =>
    match stoi resultNum with
    | none => none
    -- the cast to `unsigned int`
    | some drawn => if (n : Int) = drawn % 2 ^ 32 then some false else notDrawn n nums

/-- A pick of zero means "no pick" and cannot miss. -/
def pickMisses (n : Nat) (nums : List (List Char)) : Option Bool :=
  if n = 0 then some false else notDrawn n nums

/-- `isWinner` after all tests; `none` when parsing a drawn number throws. -/
def CLottoBet.isWinner (lb : CLottoBet) (result : DrawResult) (transactionTime cutoff : Int) :
    Option Bool := do
  let miss1 ← pickMisses lb.nNumber1 result.nums
  let miss2 ← pickMisses lb.nNumber2 result.nums
  let miss3 ← pickMisses lb.nNumber3 result.nums
  let samePick := (lb.nNumber1 = lb.nNumber2 ∧ lb.nNumber1 ≠ 0)
    ∨ (lb.nNumber1 = lb.nNumber3 ∧ lb.nNumber1 ≠ 0) ∨ (lb.nNumber2 = lb.nNumber3 ∧ lb.nNumber2 ≠ 0)
  let outOfRange := 69 < lb.nNumber1 ∨ 69 < lb.nNumber2 ∨ 69 < lb.nNumber3
  let noPick := lb.nNumber1 = 0 ∧ lb.nNumber2 = 0 ∧ lb.nNumber3 = 0
  let tooLate := cutoff < transactionTime
  let otherDraw := result.date ≠ natToStr lb.nDate
  return !(miss1 || miss2 || miss3 || decide samePick || decide outOfRange || decide noPick
    || decide tooLate || decide otherDraw)

/-- `betAmount * odds`, computed in `double`. -/
def timesOdds (betAmount odds : Int) : Int :=
  ((Binary64.ofInt betAmount).mul (Binary64.ofInt odds)).toInt

/-- What `GetBetPayouts` pays: the odds go by how many numbers were picked. -/
def CLottoBet.winnings (lb : CLottoBet) (betAmount : Int) : Int :=
  if 0 < lb.nNumber3 ∧ 0 < lb.nNumber2 ∧ 0 < lb.nNumber1 then timesOdds betAmount 3500
  else if (0 < lb.nNumber1 ∧ 0 < lb.nNumber2) ∨ (0 < lb.nNumber1 ∧ 0 < lb.nNumber3)
      ∨ (0 < lb.nNumber2 ∧ 0 < lb.nNumber3) then timesOdds betAmount 200
  else if 0 < lb.nNumber1 ∨ 0 < lb.nNumber2 ∨ 0 < lb.nNumber3 then timesOdds betAmount 12
  else 0

/-- One output of a block with time `transactionTime`: `some (some payout)` for a winning bet, `some none` for
anything else. -/
def betWinnings (params : ConsensusParams) (result : DrawResult) (latestDrawStartTime : Int)
    (transactionTime : Int) (txout : CTxOut) : Option (Option Int) :=
  if isOpReturnAsm txout.scriptPubKey = false then some none
  else if params.nMinBetPayoutRange * COIN ≤ txout.nValue ∧ txout.nValue ≤ params.nMaxBetPayoutRange * COIN then
    match CLottoBet.fromOpCode (betOpCode txout.scriptPubKey) with
    | none => some none
    | some lb =>
      (lb.isWinner result transactionTime (latestDrawStartTime - params.nBetPlaceTimeoutBlocks)).map
        fun (winner : Bool) =>
          let payout := lb.winnings txout.nValue
          if winner = true ∧ 0 < payout ∧ payout ≤ params.nMaxWinnerPayout * COIN then some payout
          else none
  else some none

/-- Where the winnings of a bet of `tx` go: the address of the output its first input spends, if that transaction is
found. -/
def BetEnv.payoutAddress (env : BetEnv) (tx : CTransaction) : CTxDestination :=
  match tx.vin with
  | [] => .noDestination
  | txin :: _ =>
    match env.getTransaction txin.prevout.hash with
    | none => .noDestination
    | some txPrev =>
      match txPrev.vout[txin.prevout.n]? with
      | none => .noDestination
      | some o => destinationOf env.hash160 o.scriptPubKey

/-! ## §3. What a winning bet is. -/

/-- One output on the chain, with its transaction and the time of its block. -/
structure BetSlip where
  time : Int
  tx : CTransaction
  txout : CTxOut
  deriving DecidableEq, Repr

variable {slip : BetSlip}

variable {miss : Bool} {lb : CLottoBet} {params : ConsensusParams}

/-- The pick `n` is the drawn number written `num`, compared as `unsigned`. -/
def Hits (n : Nat) (num : List Char) : Prop := ∃ drawn, stoi num = some drawn ∧ (n : Int) = drawn % 2 ^ 32

/-- **Readable**: the drawn numbers up to the first hit are numbers. -/
def PickReadable (n : Nat) (nums : List (List Char)) : Prop :=
  ∀ (before : List (List Char)) (num : List Char) (after : List (List Char)),
    nums = before ++ num :: after → (∀ m ∈ before, ¬ Hits n m) → (stoi num).isSome = true

variable {s : List Char} {n : Nat} {nums : List (List Char)} {result : DrawResult}

theorem stoi_range {value : Int} (h : stoi s = some value) : -2 ^ 31 ≤ value ∧ value < 2 ^ 31 := by
  unfold stoi at h
  dsimp only at h
  split_ifs at h <;> rw [some.injEq] at h <;> omega

theorem hits_iff (hn : n ≤ 69) (num : List Char) : Hits n num ↔ stoi num = some (n : Int) := by
  constructor
  · rintro ⟨drawn, hstoi, heq⟩
    have hrange := stoi_range hstoi
    -- a negative number is at least 2 ^ 31 after the cast
    have hdrawn : drawn = (n : Int) := by omega
    rw [hstoi, hdrawn]
  · intro h
    exact ⟨n, h, by omega⟩

theorem notDrawn_eq_some (h : notDrawn n nums = some miss) : miss = false ↔ ∃ num ∈ nums, Hits n num := by
  fun_induction notDrawn n nums with
  | case1 =>
    cases h
    simp
  | case2 => cases h
  | case3 num nums drawn hstoi hhit =>
    cases h
    exact iff_of_true rfl ⟨num, mem_cons_self, drawn, hstoi, hhit⟩
  | case4 num nums drawn hstoi hmiss ih => simp_all [Hits]

/-- A number that is no hit hands the reading over to the ones after it. -/
theorem pickReadable_cons {num : List Char} : PickReadable n (num :: nums) ↔
    (stoi num).isSome = true ∧ (¬ Hits n num → PickReadable n nums) := by
  constructor
  · intro h
    refine ⟨h [] num nums rfl (by simp), fun hmiss before m after heq hbefore => ?_⟩
    exact h (num :: before) m after (by rw [heq, cons_append]) (forall_mem_cons.mpr ⟨hmiss, hbefore⟩)
  · intro ⟨hread, hrest⟩ before m after heq hbefore
    cases before with
    | nil =>
      rw [nil_append, cons.injEq] at heq
      rw [← heq.1]
      exact hread
    | cons x before =>
      rw [cons_append, cons.injEq] at heq
      obtain ⟨hx, hbefore⟩ := forall_mem_cons.mp hbefore
      exact hrest (heq.1 ▸ hx) before m after heq.2 hbefore

/-- **The comparison throws** exactly at an unreadable number that it gets to. -/
theorem notDrawn_isSome_iff (n : Nat) (nums : List (List Char)) :
    (notDrawn n nums).isSome = true ↔ PickReadable n nums := by
  fun_induction notDrawn n nums with
  | case1 =>
    refine iff_of_true rfl ?_
    intro before num after heq
    exact absurd heq.symm (append_ne_nil_of_right_ne_nil _ (cons_ne_nil _ _))
  | case2 num nums hstoi => simp [pickReadable_cons, hstoi]
  | case3 num nums drawn hstoi hhit => simp [pickReadable_cons, Hits, hstoi, hhit]
  | case4 num nums drawn hstoi hmiss ih => simp_all [pickReadable_cons, Hits]

theorem pickMisses_isSome_iff (n : Nat) (nums : List (List Char)) :
    (pickMisses n nums).isSome = true ↔ (n ≠ 0 → PickReadable n nums) := by
  unfold pickMisses
  by_cases hzero : n = 0 <;> simp [hzero, notDrawn_isSome_iff]

theorem pickMisses_eq_some (h : pickMisses n nums = some miss) : miss = false ↔ (n ≠ 0 → ∃ num ∈ nums, Hits n num) := by
  unfold pickMisses at h
  split_ifs at h with hzero
  · cases h
    exact iff_of_true rfl fun hne => absurd hzero hne
  · simp [notDrawn_eq_some h, hzero]

/-- The three numbers of a bet; zero stands for no pick. -/
def CLottoBet.numbers (lb : CLottoBet) : List Nat := [lb.nNumber1, lb.nNumber2, lb.nNumber3]

def CLottoBet.picked (lb : CLottoBet) : List Nat := lb.numbers.filter fun n => decide (n ≠ 0)

theorem CLottoBet.mem_picked : n ∈ lb.picked ↔ n ∈ lb.numbers ∧ n ≠ 0 := by
  unfold picked
  rw [mem_filter, decide_eq_true_iff]

/-- **A bet that wins the draw**: one to three distinct numbers from 1 to 69, all drawn, and the date of the result.
-/
structure CLottoBet.Wins (lb : CLottoBet) (result : DrawResult) : Prop where
  count : 1 ≤ lb.picked.length ∧ lb.picked.length ≤ 3
  distinct : lb.picked.Nodup
  drawn : ∀ n ∈ lb.picked, 1 ≤ n ∧ n ≤ 69 ∧ ∃ num ∈ result.nums, stoi num = some (n : Int)
  date : result.date = natToStr lb.nDate

/-- The numbers of a bet that are compared, and the tests on them alone. -/
theorem CLottoBet.picked_spec (lb : CLottoBet) :
    (lb.picked ≠ [] ↔ ¬ (lb.nNumber1 = 0 ∧ lb.nNumber2 = 0 ∧ lb.nNumber3 = 0)) ∧
      (lb.picked.Nodup ↔ ¬ ((lb.nNumber1 = lb.nNumber2 ∧ lb.nNumber1 ≠ 0) ∨
        (lb.nNumber1 = lb.nNumber3 ∧ lb.nNumber1 ≠ 0) ∨ (lb.nNumber2 = lb.nNumber3 ∧ lb.nNumber2 ≠ 0))) := by
  unfold picked numbers
  grind

theorem CLottoBet.isWinner_isSome_iff (lb : CLottoBet) (result : DrawResult) (transactionTime cutoff : Int) :
    (lb.isWinner result transactionTime cutoff).isSome = true ↔ ∀ n ∈ lb.picked, PickReadable n result.nums := by
  have hsome : (lb.isWinner result transactionTime cutoff).isSome = true ↔
      (pickMisses lb.nNumber1 result.nums).isSome = true ∧ (pickMisses lb.nNumber2 result.nums).isSome = true ∧
        (pickMisses lb.nNumber3 result.nums).isSome = true := by
    unfold isWinner
    cases pickMisses lb.nNumber1 result.nums <;> cases pickMisses lb.nNumber2 result.nums <;>
      cases pickMisses lb.nNumber3 result.nums <;> simp
  simp [pickMisses_isSome_iff, mem_picked, numbers, hsome]

/-- **What `isWinner` says**, when nothing is thrown. -/
theorem CLottoBet.isWinner_eq_some {transactionTime cutoff : Int}
    {winner : Bool} (h : lb.isWinner result transactionTime cutoff = some winner) :
    winner = true ↔ lb.Wins result ∧ transactionTime ≤ cutoff := by
  unfold isWinner at h
  simp only [bind_eq_bind, bind_eq_some_iff, Option.pure_def, some.injEq] at h
  obtain ⟨miss1, h1, miss2, h2, miss3, h3, rfl⟩ := h
  have hhit1 := pickMisses_eq_some h1
  have hhit2 := pickMisses_eq_some h2
  have hhit3 := pickMisses_eq_some h3
  obtain ⟨hempty, hnodup⟩ := lb.picked_spec
  have hlength : lb.picked.length ≤ 3 := length_filter_le _ _
  -- the misses, taken together
  have hall : (miss1 = false ∧ miss2 = false ∧ miss3 = false) ↔ ∀ n ∈ lb.picked, ∃ num ∈ result.nums, Hits n num := by
    simp [mem_picked, numbers, hhit1, hhit2, hhit3]
  have hrange : ¬ (69 < lb.nNumber1 ∨ 69 < lb.nNumber2 ∨ 69 < lb.nNumber3) ↔ ∀ n ∈ lb.picked, n ≤ 69 := by
    simp only [mem_picked, numbers, mem_cons]
    grind
  have hsplit : (!(miss1 || miss2 || miss3
      || decide ((lb.nNumber1 = lb.nNumber2 ∧ lb.nNumber1 ≠ 0) ∨ (lb.nNumber1 = lb.nNumber3 ∧ lb.nNumber1 ≠ 0) ∨
        (lb.nNumber2 = lb.nNumber3 ∧ lb.nNumber2 ≠ 0))
      || decide (69 < lb.nNumber1 ∨ 69 < lb.nNumber2 ∨ 69 < lb.nNumber3)
      || decide (lb.nNumber1 = 0 ∧ lb.nNumber2 = 0 ∧ lb.nNumber3 = 0)
      || decide (cutoff < transactionTime) || decide (result.date ≠ natToStr lb.nDate))) = true ↔
      (miss1 = false ∧ miss2 = false ∧ miss3 = false) ∧ lb.picked.Nodup ∧ (∀ n ∈ lb.picked, n ≤ 69) ∧ lb.picked ≠ [] ∧
        transactionTime ≤ cutoff ∧ result.date = natToStr lb.nDate := by grind
  rw [hsplit, hall]
  constructor
  · rintro ⟨hdrawn, hdistinct, hsmall, hpick, htime, hdate⟩
    refine ⟨⟨⟨length_pos_of_ne_nil hpick, hlength⟩, hdistinct, ?_, hdate⟩, htime⟩
    intro n hn
    obtain ⟨num, hnum, hhit⟩ := hdrawn n hn
    exact ⟨Nat.pos_of_ne_zero (mem_picked.mp hn).2, hsmall n hn, num, hnum, (hits_iff (hsmall n hn) num).mp hhit⟩
  · rintro ⟨hwins, htime⟩
    refine ⟨?_, hwins.distinct, fun n hn => (hwins.drawn n hn).2.1, ne_nil_of_length_pos hwins.count.1,
      htime, hwins.date⟩
    intro n hn
    obtain ⟨-, hsmall, num, hnum, hstoi⟩ := hwins.drawn n hn
    exact ⟨num, hnum, (hits_iff hsmall num).mpr hstoi⟩

/-- A bet the scan looks into: an `OP_RETURN` output within the limits that decodes. -/
def BetSlip.Bets (slip : BetSlip) (params : ConsensusParams) (lb : CLottoBet) : Prop :=
  slip.txout.scriptPubKey.head? = some OP_RETURN ∧
    (params.nMinBetPayoutRange * COIN ≤ slip.txout.nValue ∧ slip.txout.nValue ≤ params.nMaxBetPayoutRange * COIN) ∧
    CLottoBet.fromOpCode (betOpCode slip.txout.scriptPubKey) = some lb

/-- An output that is no such bet is passed over; else `isWinner` decides. -/
theorem BetSlip.betWinnings_cases (slip : BetSlip) (params : ConsensusParams) (result : DrawResult)
    (latestDrawStartTime : Int) :
    ((∀ lb, ¬ slip.Bets params lb) ∧ betWinnings params result latestDrawStartTime slip.time slip.txout = some none) ∨
      ∃ lb, slip.Bets params lb ∧ betWinnings params result latestDrawStartTime slip.time slip.txout
        = (lb.isWinner result slip.time (latestDrawStartTime - params.nBetPlaceTimeoutBlocks)).map fun winner =>
            if winner = true ∧ 0 < lb.winnings slip.txout.nValue ∧
                lb.winnings slip.txout.nValue ≤ params.nMaxWinnerPayout * COIN then
              some (lb.winnings slip.txout.nValue) else none := by
  unfold betWinnings Bets
  rw [← isOpReturnAsm_iff]
  by_cases hasm : isOpReturnAsm slip.txout.scriptPubKey = false
  · simp_all
  · grind

/-! ## §4. The two scans. -/

/-- All outputs of a list of blocks in the order the nested loops visit them. -/
def betSlips (blocks : List CBlock) : List BetSlip :=
  blocks.flatMap fun block => block.vtx.flatMap fun tx => tx.vout.map fun txout => ⟨block.nTime, tx, txout⟩

section

variable (env : BetEnv) (result : DrawResult) (latestDrawStartTime : Int)

def BetEnv.expectedPayout (slip : BetSlip) : Option (Option CBetOut) :=
  (betWinnings env.params result latestDrawStartTime slip.time slip.txout).map fun won =>
    won.map fun payout =>
      { nValue := payout
        scriptPubKey := getScriptForDestination (env.payoutAddress slip.tx)
        nBetValue := slip.txout.nValue }

/-- `vExpectedPayouts`; an exception at one bet ends the scan. -/
def BetEnv.expectedPayouts (blocks : List CBlock) : Option (List CBetOut) :=
  ((betSlips blocks).mapM (env.expectedPayout result latestDrawStartTime)).map fun found =>
    found.filterMap id

/-- A last output that is worth exactly a masternode payment is not a bet payout. -/
def dropMasternodePayment (outputs : List CTxOut) : List CTxOut :=
  if outputs.getLast?.map CTxOut.nValue = some getMasternodePayment then outputs.dropLast else outputs

/-- What the block at height `nTraverseHeight` adds to `vCompletedPayouts`: the outputs of its coinstake beyond the
staking prefix, unless it is older than the draw. Without a second transaction the source is undefined. -/
def BetEnv.completedOf (env : BetEnv) (latestDrawStartTime nTraverseHeight : Int) (block : CBlock) : List CBetOut :=
  match block.vtx[1]? with
  | none => []
  | some cbtx =>
    if 1 < cbtx.vout.length ∧ latestDrawStartTime ≤ (block.nTime : Int) then
      (dropMasternodePayment (env.payoutOutputs cbtx nTraverseHeight)).map fun o => ⟨o, 0⟩
    else []

/-- `vCompletedPayouts` after the scan from height `nTraverseHeight` on. -/
def BetEnv.completedPayouts (env : BetEnv) (latestDrawStartTime : Int) :
    Int → List CBlock → List CBetOut
  | _, [] => []
  | nTraverseHeight, block :: blocks =>
    env.completedOf latestDrawStartTime nTraverseHeight block
      ++ env.completedPayouts latestDrawStartTime (nTraverseHeight + 1) blocks

/-! ## §5. Pending payouts. -/

/-- Some completed payout has the amount and the address of the expected one. -/
def BetEnv.betPaid (env : BetEnv) (vCompletedPayouts : List CBetOut) (expected : CBetOut) : Bool :=
  vCompletedPayouts.any fun c =>
    c.nValue == expected.nValue && env.dest c.toCTxOut == env.dest expected.toCTxOut

/-- What is expected and not completed; nothing if as many are completed. -/
def BetEnv.pendingPayouts (env : BetEnv) (vExpectedPayouts vCompletedPayouts : List CBetOut) : List CBetOut :=
  if vCompletedPayouts.length < vExpectedPayouts.length then
    vExpectedPayouts.filter fun e => !env.betPaid vCompletedPayouts e
  else []

/-- `height` is a payout height and the last draw is long enough ago. -/
def payoutGate (height tipTime : Int) : Prop :=
  (height ≤ 88500 ∧ height % 1500 = 0 ∧ lastdrawtime tipTime + 60 * 60 * 16 < tipTime)
    ∨ (88500 < height ∧ height % 1500 = 0 ∧ lastdrawtime tipTime + 60 * 60 * 18 < tipTime)

instance (height tipTime : Int) : Decidable (payoutGate height tipTime) :=
  inferInstanceAs (Decidable (_ ∨ _))

/-- The height the scan starts from; `none` where nothing is paid yet. -/
def traverseStart (params : ConsensusParams) (height : Int) : Option Int :=
  if params.height_last_PoW + 1 < height - params.nBetBlocksIndexTimespan then
    some (height - params.nBetBlocksIndexTimespan)
  else if height ≤ 1500 then none
  else some (params.height_last_PoW + 1)

/-- `GetBetPayouts(height)` on the active chain `chain` (block `i` at height `i`). Where the source only downloads a
results file it returns nothing. -/
def getBetPayouts (env : BetEnv) (sources : ResultSources) (chain : List CBlock) (height : Int) :
    Option (List CBetOut) :=
  match chain.getLast? with
  | none => some []
  | some tip =>
    if payoutGate height tip.nTime then
      match traverseStart env.params height with
      | none => some []
      | some nTraverseHeight => do
        let date ← latestDrawDate tip.nTime
        let result ← drawResult sources date
        let window := chain.drop nTraverseHeight.toNat
        let vExpectedPayouts ← env.expectedPayouts result (lastdrawtime tip.nTime) window
        return env.pendingPayouts vExpectedPayouts
          (env.completedPayouts (lastdrawtime tip.nTime) nTraverseHeight window)
    else some []

/-! ## §6. The payout section of `ConnectBlock`. -/

inductive PayoutVerdict where
  /-- accepted, with `nPayout` more to be minted -/
  | accepted (nPayout : Int)
  /-- "bad-cb-payout" -/
  | rejected
  /-- an exception left `GetBetPayouts` -/
  | thrown
  deriving DecidableEq, Repr

/-- The payout vector with the sources at hand and, if the block does not match it, with those after a download; on
testnet a mismatch is accepted. -/
def checkPayouts (env : BetEnv) (sources downloaded : ResultSources) (chain : List CBlock)
    (block : CBlock) (height : Int) : PayoutVerdict :=
  match getBetPayouts env sources chain height with
  | none => .thrown
  | some vExpectedLottoPayouts =>
    let payouts := getBlockPayouts env.params vExpectedLottoPayouts
    if isBlockPayoutsValid env payouts.2 block height = false ∧ payouts.2 ≠ [] then
      if env.params.network = .testnet then .accepted payouts.1
      else
        match getBetPayouts env downloaded chain height with
        | none => .thrown
        | some vExpectedLottoPayouts =>
          let payouts := getBlockPayouts env.params vExpectedLottoPayouts
          if isBlockPayoutsValid env payouts.2 block height = false ∧ payouts.2 ≠ [] then
            .rejected
          else .accepted payouts.1
    else .accepted payouts.1

/-! ## §7. What the scans find. -/

/-- The payout an output is worth at a scan: the amount, if it is a winning bet. -/
def BetSlip.wins (slip : BetSlip) (params : ConsensusParams) (result : DrawResult)
    (latestDrawStartTime : Int) : Option Int :=
  (betWinnings params result latestDrawStartTime slip.time slip.txout).join

theorem BetEnv.expectedPayout_join (slip : BetSlip) : (env.expectedPayout result latestDrawStartTime slip).join
      = (slip.wins env.params result latestDrawStartTime).map fun payout =>
          { nValue := payout
            scriptPubKey := getScriptForDestination (env.payoutAddress slip.tx)
            nBetValue := slip.txout.nValue } := by
  unfold expectedPayout BetSlip.wins
  cases betWinnings env.params result latestDrawStartTime slip.time slip.txout <;> rfl

end

theorem mapM_some_eq_filterMap {α β : Type} {f : α → Option (Option β)} {xs : List α}
    {ys : List (Option β)} (h : xs.mapM f = some ys) : ys.filterMap id = xs.filterMap fun x => (f x).join := by
  induction xs generalizing ys with
  | nil =>
    simp only [mapM_nil, Option.pure_def, some.injEq] at h
    subst h
    rfl
  | cons x xs ih =>
    rw [mapM_cons] at h
    simp only [bind_eq_bind, bind_eq_some_iff, Option.pure_def, some.injEq] at h
    obtain ⟨y, hy, ys', hys, rfl⟩ := h
    rw [filterMap_cons, filterMap_cons, ih hys, hy]
    rfl

variable {blocks : List CBlock} {env : BetEnv} {latestDrawStartTime : Int} {result : DrawResult} {block : CBlock}

/-- **The expected payouts**: the winning outputs of the blocks scanned, in order. -/
theorem BetEnv.expectedPayouts_eq_some {vExpectedPayouts : List CBetOut}
    (h : env.expectedPayouts result latestDrawStartTime blocks = some vExpectedPayouts) :
    vExpectedPayouts = (betSlips blocks).filterMap fun slip =>
      (slip.wins env.params result latestDrawStartTime).map fun payout =>
        { nValue := payout
          scriptPubKey := getScriptForDestination (env.payoutAddress slip.tx)
          nBetValue := slip.txout.nValue } := by
  unfold expectedPayouts at h
  rw [map_eq_some_iff] at h
  obtain ⟨found, hfound, rfl⟩ := h
  rw [mapM_some_eq_filterMap hfound]
  exact congrArg (fun f => (betSlips blocks).filterMap f)
    (funext fun slip => env.expectedPayout_join result latestDrawStartTime slip)

theorem betWinnings_of_not_opReturn {txout : CTxOut} (h : isOpReturnAsm txout.scriptPubKey = false)
    (params : ConsensusParams) (result : DrawResult) (latestDrawStartTime transactionTime : Int) :
    betWinnings params result latestDrawStartTime transactionTime txout = some none := by
  unfold betWinnings
  rw [if_pos h]

/-- The number of outputs of a block that print as `OP_RETURN`. -/
def opReturnCount (block : CBlock) : Nat :=
  (block.vtx.flatMap CTransaction.vout).countP fun o => isOpReturnAsm o.scriptPubKey

theorem betSlips_append (blocks1 blocks2 : List CBlock) :
    betSlips (blocks1 ++ blocks2) = betSlips blocks1 ++ betSlips blocks2 := by
  exact flatMap_append

theorem countP_betSlips_opReturn (blocks : List CBlock) :
    (betSlips blocks).countP (fun slip => isOpReturnAsm slip.txout.scriptPubKey) = (blocks.map opReturnCount).sum := by
  unfold betSlips opReturnCount
  simp only [countP_flatMap, countP_map, Function.comp_def]

/-- Outputs that are no winning bets add nothing to the expected payouts. -/
theorem BetEnv.mapM_expectedPayout_none (env : BetEnv) {slips : List BetSlip} (h : ∀ slip ∈ slips,
      betWinnings env.params result latestDrawStartTime slip.time slip.txout = some none) :
    slips.mapM (env.expectedPayout result latestDrawStartTime) = some (slips.map fun _ => none) := by
  induction slips with
  | nil => rfl
  | cons slip slips ih =>
    have hnone : env.expectedPayout result latestDrawStartTime slip = some none := by
      unfold expectedPayout
      rw [h slip mem_cons_self]
      rfl
    rw [mapM_cons, hnone, ih fun x hx => h x (mem_cons_of_mem _ hx)]
    rfl

theorem betWinnings_of_opReturnCount
    (h : ∀ block ∈ blocks, opReturnCount block = 0) (params : ConsensusParams) (result : DrawResult)
    (latestDrawStartTime : Int) : ∀ slip ∈ betSlips blocks,
      betWinnings params result latestDrawStartTime slip.time slip.txout = some none := by
  intro slip hslip
  apply betWinnings_of_not_opReturn
  unfold betSlips at hslip
  simp only [mem_flatMap, List.mem_map] at hslip
  obtain ⟨block, hblock, tx, htx, txout, htxout, rfl⟩ := hslip
  rw [← Bool.not_eq_true]
  exact countP_eq_zero.mp (h block hblock) txout (mem_flatMap.mpr ⟨tx, htx, htxout⟩)

theorem BetEnv.expectedPayouts_of_none (env : BetEnv) (h : ∀ slip ∈ betSlips blocks,
      betWinnings env.params result latestDrawStartTime slip.time slip.txout = some none) :
    env.expectedPayouts result latestDrawStartTime blocks = some [] := by
  unfold expectedPayouts
  rw [env.mapM_expectedPayout_none h]
  simp

theorem BetEnv.expectedPayouts_quiet (env : BetEnv) (h : ∀ block ∈ blocks, opReturnCount block = 0) :
    env.expectedPayouts result latestDrawStartTime blocks = some [] :=
  env.expectedPayouts_of_none (betWinnings_of_opReturnCount h _ _ _)

/-- The scan goes through the blocks one after the other. -/
theorem BetEnv.expectedPayouts_append (env : BetEnv) (result : DrawResult) (latestDrawStartTime : Int)
    (blocks ext : List CBlock) : env.expectedPayouts result latestDrawStartTime (blocks ++ ext)
      = (env.expectedPayouts result latestDrawStartTime blocks).bind fun expected =>
          (env.expectedPayouts result latestDrawStartTime ext).map (expected ++ ·) := by
  unfold expectedPayouts
  rw [betSlips_append, mapM_append]
  cases (betSlips blocks).mapM (env.expectedPayout result latestDrawStartTime) with
  | none => rfl
  | some found =>
    cases (betSlips ext).mapM (env.expectedPayout result latestDrawStartTime) with
    | none => rfl
    | some found' => simp

/-- If only one block has `OP_RETURN` outputs, it alone gives the expected payouts. -/
theorem BetEnv.expectedPayouts_single (env : BetEnv) (result : DrawResult) (latestDrawStartTime : Int)
    (hk : blocks[k]? = some block) (hother : ∀ j b, blocks[j]? = some b → j ≠ k → opReturnCount b = 0) :
    env.expectedPayouts result latestDrawStartTime blocks = env.expectedPayouts result latestDrawStartTime [block] := by
  obtain ⟨hlt, hget⟩ := List.getElem?_eq_some_iff.mp hk
  have hsplit : blocks = blocks.take k ++ ([block] ++ blocks.drop (k + 1)) := by
    rw [singleton_append, ← hget, getElem_cons_drop, take_append_drop]
  have hpre : ∀ b ∈ blocks.take k, opReturnCount b = 0 := by
    intro b hb
    obtain ⟨j, hj⟩ := getElem?_of_mem hb
    rw [getElem?_take] at hj
    split_ifs at hj with hjk
    exact hother j b hj (by omega)
  have hpost : ∀ b ∈ blocks.drop (k + 1), opReturnCount b = 0 := by
    intro b hb
    obtain ⟨j, hj⟩ := getElem?_of_mem hb
    rw [getElem?_drop] at hj
    exact hother _ b hj (by omega)
  rw [hsplit, expectedPayouts_append, expectedPayouts_append, env.expectedPayouts_quiet hpre,
    env.expectedPayouts_quiet hpost]
  cases env.expectedPayouts result latestDrawStartTime [block] <;> simp

/-- What the scan from height `nTraverseHeight` on counts as completed, block by block. -/
theorem BetEnv.mem_completedPayouts {paid : CBetOut} :
    paid ∈ env.completedPayouts latestDrawStartTime nTraverseHeight blocks ↔ ∃ (k : Nat) (block : CBlock),
      blocks[k]? = some block ∧ paid ∈ env.completedOf latestDrawStartTime (nTraverseHeight + k) block := by
  induction blocks generalizing nTraverseHeight with
  | nil => simp [completedPayouts]
  | cons b blocks ih =>
    rw [completedPayouts, mem_append, ← Nat.or_exists_add_one, ih]
    simp [add_assoc, add_comm (1 : Int)]

theorem BetEnv.completedPayouts_eq_nil (env : BetEnv) (h : ∀ (k : Nat) (block : CBlock), blocks[k]? = some block →
      env.completedOf latestDrawStartTime (nTraverseHeight + k) block = []) :
    env.completedPayouts latestDrawStartTime nTraverseHeight blocks = [] := by
  refine eq_nil_iff_forall_not_mem.mpr fun paid hpaid => ?_
  obtain ⟨k, block, hk, hin⟩ := mem_completedPayouts.mp hpaid
  rw [h k block hk] at hin
  cases hin

/-- **Inversion of `wins`.** -/
theorem BetSlip.wins_eq_some {payout : Int} (h : slip.wins params result latestDrawStartTime = some payout) :
    ∃ lb, slip.Bets params lb ∧ lb.Wins result ∧ slip.time ≤ latestDrawStartTime - params.nBetPlaceTimeoutBlocks ∧
      lb.winnings slip.txout.nValue = payout ∧ 0 < payout ∧ payout ≤ params.nMaxWinnerPayout * COIN := by
  unfold wins at h
  rw [join_eq_some_iff] at h
  obtain ⟨-, hnone⟩ | ⟨lb, hbets, hwon⟩ := slip.betWinnings_cases params result latestDrawStartTime
  · rw [hnone] at h
    cases h
  rw [h, eq_comm, map_eq_some_iff] at hwon
  obtain ⟨winner, hwinner, hpay⟩ := hwon
  split_ifs at hpay with hpaid
  cases hpay
  obtain ⟨hwins, htime⟩ := (CLottoBet.isWinner_eq_some hwinner).mp hpaid.1
  exact ⟨lb, hbets, hwins, htime, rfl, hpaid.2⟩

theorem mem_betSlips (h : slip ∈ betSlips blocks) :
    ∃ (k : Nat) (block : CBlock), blocks[k]? = some block ∧ slip.time = block.nTime ∧ slip.tx ∈ block.vtx := by
  unfold betSlips at h
  simp only [mem_flatMap, List.mem_map] at h
  obtain ⟨block, hblock, tx, htx, txout, -, rfl⟩ := h
  obtain ⟨k, hk⟩ := getElem?_of_mem hblock
  exact ⟨k, block, hk, rfl, htx⟩

theorem BetEnv.mem_completedOf {tx : CTransaction} {o : CTxOut} (htx : block.vtx[1]? = some tx)
    (hdraw : latestDrawStartTime ≤ block.nTime) (ho : o ∈ (env.payoutOutputs tx nTraverseHeight).dropLast) :
    (⟨o, 0⟩ : CBetOut) ∈ env.completedOf latestDrawStartTime nTraverseHeight block := by
  have hsize : 1 < tx.vout.length := by
    have hpos := length_pos_of_mem ho
    have hcount := env.length_payoutOutputs tx nTraverseHeight
    rw [length_dropLast] at hpos
    omega
  unfold completedOf
  rw [htx]
  dsimp only
  rw [if_pos ⟨hsize, hdraw⟩, List.mem_map]
  refine ⟨o, ?_, rfl⟩
  unfold dropMasternodePayment
  split_ifs
  · exact ho
  · exact dropLast_subset _ ho

/-- The draw that `GetBetPayouts` goes by at a payout height, and where its scan starts. -/
structure PayoutWindow (params : ConsensusParams) (sources : ResultSources) (chain : List CBlock)
    (height : Int) where
  tip : CBlock
  start : Int
  date : List Char
  result : DrawResult
  tip_eq : chain.getLast? = some tip
  gate : payoutGate height tip.nTime
  start_eq : traverseStart params height = some start
  date_eq : latestDrawDate tip.nTime = some date
  result_eq : drawResult sources date = some result

/-- What a scan at a payout height went by. -/
structure PayoutScan (env : BetEnv) (sources : ResultSources) (chain : List CBlock) (height : Int) extends
    PayoutWindow env.params sources chain height where
  expected : List CBetOut
  expected_eq : env.expectedPayouts result (lastdrawtime tip.nTime) (chain.drop start.toNat) = some expected

def PayoutScan.completed {env : BetEnv} {sources : ResultSources} {chain : List CBlock} {height : Int}
    (scan : PayoutScan env sources chain height) : List CBetOut :=
  env.completedPayouts (lastdrawtime scan.tip.nTime) scan.start (chain.drop scan.start.toNat)

/-- Blocks are scanned at `height`. -/
def Scans (params : ConsensusParams) (chain : List CBlock) (height : Int) : Prop :=
  (∃ tip, chain.getLast? = some tip ∧ payoutGate height tip.nTime) ∧ (traverseStart params height).isSome

theorem getBetPayouts_of_not_scans (h : ¬ Scans env.params chain height) :
    getBetPayouts env sources chain height = some [] := by
  unfold getBetPayouts
  split
  next => rfl
  next tip htip =>
    split_ifs with hgate
    · split
      next => rfl
      next start hstart => exact absurd ⟨⟨tip, htip, hgate⟩, by rw [hstart]; rfl⟩ h
    · rfl

/-- In its window `GetBetPayouts` makes the two scans. -/
theorem PayoutWindow.getBetPayouts_eq (w : PayoutWindow env.params sources chain height) :
    getBetPayouts env sources chain height
      = (env.expectedPayouts w.result (lastdrawtime w.tip.nTime) (chain.drop w.start.toNat)).map fun expected =>
        env.pendingPayouts expected
          (env.completedPayouts (lastdrawtime w.tip.nTime) w.start (chain.drop w.start.toNat)) := by
  unfold getBetPayouts
  rw [w.tip_eq]
  dsimp only
  rw [if_pos w.gate, w.start_eq]
  dsimp only
  rw [w.date_eq, bind_eq_bind, bind_some, w.result_eq, bind_eq_bind, bind_some, map_eq_bind]
  rfl

theorem PayoutScan.getBetPayouts_eq (scan : PayoutScan env sources chain height) :
    getBetPayouts env sources chain height = some (env.pendingPayouts scan.expected scan.completed) := by
  rw [scan.toPayoutWindow.getBetPayouts_eq, scan.expected_eq]
  rfl

/-- Blocks are scanned in a window, or an exception comes first. -/
theorem Scans.window (h : Scans env.params chain height) (sources : ResultSources) :
    getBetPayouts env sources chain height = none ∨ Nonempty (PayoutWindow env.params sources chain height) := by
  obtain ⟨⟨tip, htip, hgate⟩, hstart⟩ := h
  obtain ⟨start, hstart⟩ := isSome_iff_exists.mp hstart
  cases hdate : latestDrawDate tip.nTime with
  | none => simp [getBetPayouts, htip, hgate, hstart, hdate]
  | some date =>
    cases hresult : drawResult sources date with
    | none => simp [getBetPayouts, htip, hgate, hstart, hdate, hresult]
    | some result => exact .inr ⟨⟨tip, start, date, result, htip, hgate, hstart, hdate, hresult⟩⟩

/-- Where blocks are scanned, an answer comes from a scan. -/
theorem Scans.exists_scan (h : Scans env.params chain height) {due : List CBetOut}
    (hdue : getBetPayouts env sources chain height = some due) :
    ∃ scan : PayoutScan env sources chain height, due = env.pendingPayouts scan.expected scan.completed := by
  rcases h.window sources with hnone | ⟨⟨w⟩⟩
  · rw [hnone] at hdue
    cases hdue
  · rw [w.getBetPayouts_eq, map_eq_some_iff] at hdue
    obtain ⟨expected, hexpected, rfl⟩ := hdue
    exact ⟨⟨w, expected, hexpected⟩, rfl⟩

/-- **Inversion of `getBetPayouts`**: a non-empty vector is what some scan left pending. -/
theorem getBetPayouts_eq_some {due : List CBetOut} (h : getBetPayouts env sources chain height = some due)
    (hdue : due ≠ []) :
    ∃ scan : PayoutScan env sources chain height, due = env.pendingPayouts scan.expected scan.completed := by
  by_cases hscans : Scans env.params chain height
  · exact hscans.exists_scan h
  · rw [getBetPayouts_of_not_scans hscans] at h
    cases h
    exact absurd rfl hdue

/-- The sources whose vector decides: those at hand, unless the block does not match it. -/
def usedSources (env : BetEnv) (sources downloaded : ResultSources) (chain : List CBlock)
    (block : CBlock) (height : Int) : ResultSources :=
  match getBetPayouts env sources chain height with
  | none => sources
  | some v =>
    let payouts := getBlockPayouts env.params v
    if isBlockPayoutsValid env payouts.2 block height = false ∧ payouts.2 ≠ [] then downloaded
    else sources

/-- A block accepted off testnet matches the deciding vector. -/
theorem checkPayouts_accepted {downloaded : ResultSources} {nPayout : Int} (hnet : env.params.network ≠ .testnet)
    (h : checkPayouts env sources downloaded chain block height = .accepted nPayout) :
    ∃ v, getBetPayouts env (usedSources env sources downloaded chain block height) chain height = some v ∧
      isBlockPayoutsValid env (getBlockPayouts env.params v).2 block height = true ∧
      nPayout = (getBlockPayouts env.params v).1 := by
  have hvalid : ∀ v, ¬ (isBlockPayoutsValid env v block height = false ∧ v ≠ []) →
      isBlockPayoutsValid env v block height = true := by
    intro v hv
    by_cases hnil : v = []
    · subst hnil
      rfl
    · rw [← Bool.not_eq_false]
      exact fun hf => hv ⟨hf, hnil⟩
  unfold checkPayouts at h
  split at h
  next => cases h
  next v hv =>
    unfold usedSources
    grind

end PwrbCore
