/-
  Betting.ChainExtension — EVALUATING A PAYOUT HEIGHT AGAIN UNDER A LONGER CHAIN.

  `GetBetPayouts(h)` takes its clock from the tip of the active chain and scans up to that
  tip, not up to `h - 1`; `VerifyDB` at level 4 reconnects block `h` while the chain still
  ends at the old tip.

  Main result: `getBetPayouts_extension`.
-/
import PwrbCore.Betting.WinningBets

namespace PwrbCore

open List Option ConsensusParams

variable {latestDrawStartTime height : Int} {sources : ResultSources} {result : DrawResult}
  {ext chain : List CBlock} {tip tip' : CBlock} {env : BetEnv}

/-! ## §1. What an extension adds to the two scans. -/

/-- Every bet of the blocks can be compared with the drawn numbers. -/
def BetsReadable (env : BetEnv) (result : DrawResult) (blocks : List CBlock) : Prop :=
  ∀ slip ∈ betSlips blocks, ∀ lb, slip.Bets env.params lb → ∀ n ∈ lb.picked, PickReadable n result.nums

/-- A bet placed after the cut-off does not win, whatever its picks. -/
theorem BetSlip.betWinnings_of_late {slip : BetSlip} {params : ConsensusParams}
    (hread : ∀ lb, slip.Bets params lb → ∀ n ∈ lb.picked, PickReadable n result.nums)
    (hlate : latestDrawStartTime - params.nBetPlaceTimeoutBlocks < slip.time) :
    betWinnings params result latestDrawStartTime slip.time slip.txout = some none := by
  obtain ⟨-, hnone⟩ | ⟨lb, hbets, hwon⟩ := slip.betWinnings_cases params result latestDrawStartTime
  · exact hnone
  obtain ⟨winner, hwinner⟩ :=
    isSome_iff_exists.mp ((lb.isWinner_isSome_iff result _ _).mpr (hread lb hbets))
  rw [hwon, hwinner, map_some, if_neg]
  intro hpaid
  exact absurd ((CLottoBet.isWinner_eq_some hwinner).mp hpaid.1).2 (not_le.mpr hlate)

/-- Readable bets after the cut-off leave the expected payouts as they are. -/
theorem BetEnv.expectedPayouts_of_late (hread : BetsReadable env result ext)
    (hlate : ∀ slip ∈ betSlips ext, latestDrawStartTime - env.params.nBetPlaceTimeoutBlocks < slip.time) :
    env.expectedPayouts result latestDrawStartTime ext = some [] :=
  env.expectedPayouts_of_none fun slip hslip => slip.betWinnings_of_late (hread slip hslip) (hlate slip hslip)

/-- The completed payouts of a longer window are those of its two parts. -/
theorem BetEnv.completedPayouts_append (env : BetEnv) (latestDrawStartTime : Int)
    (nTraverseHeight : Int) (blocks ext : List CBlock) :
    env.completedPayouts latestDrawStartTime nTraverseHeight (blocks ++ ext)
      = env.completedPayouts latestDrawStartTime nTraverseHeight blocks
        ++ env.completedPayouts latestDrawStartTime (nTraverseHeight + blocks.length) ext := by
  induction blocks generalizing nTraverseHeight with
  | nil => simp [completedPayouts]
  | cons b blocks ih =>
    rw [cons_append, completedPayouts, completedPayouts, ih, append_assoc, List.length_cons,
      Nat.cast_succ, add_assoc nTraverseHeight, add_comm 1]

/-- Blocks above a payout height of a checked chain are younger than the last draw. -/
theorem late_of_extension (htimed : Timed .mainNet (chain ++ ext))
    (htip : chain.getLast? = some tip) (hheight : 3000 ≤ chain.length) {slip : BetSlip}
    (hslip : slip ∈ betSlips ext) : lastdrawtime tip.nTime < slip.time := by
  obtain ⟨k, block, hk, htime, -⟩ := mem_betSlips hslip
  have htipAt : (chain ++ ext)[chain.length - 1]? = some tip := by grind
  have hblockAt : (chain ++ ext)[chain.length + k]? = some block := by grind
  have hv2 : mainNet.height_start_TimeProtoV2 = 2100 := rfl
  have hlater := htimed.lt_of_lt (by decide) (by omega) (by omega) htipAt hblockAt
  have hlast := lastdrawtime_le tip.nTime
  omega

/-! ## §2. Pending payouts with more completed ones. -/

section Pending

variable {expected completed more : List CBetOut}

theorem BetEnv.betPaid_append (env : BetEnv) (completed more : List CBetOut) (e : CBetOut) :
    env.betPaid (completed ++ more) e = (env.betPaid completed e || env.betPaid more e) :=
  any_append

/-- Nothing is pending when the payouts outnumber the bets or each bet is paid. -/
theorem BetEnv.pendingPayouts_eq_nil : env.pendingPayouts expected completed = [] ↔
    expected.length ≤ completed.length ∨ ∀ e ∈ expected, env.betPaid completed e = true := by
  unfold pendingPayouts
  split_ifs with hcount
  · simp [not_le.mpr hcount]
  · exact iff_of_true rfl (.inl (not_lt.mp hcount))

/-- More completed payouts leave the pending ones alone if they do not outnumber the expected ones and none of them
pays a bet that was not paid before. -/
theorem BetEnv.pendingPayouts_append (hfewer : (completed ++ more).length < expected.length)
    (hunpaid : ∀ e ∈ expected, env.betPaid more e = true → env.betPaid completed e = true) :
    env.pendingPayouts expected (completed ++ more) = env.pendingPayouts expected completed := by
  have hcount : completed.length < expected.length := by
    rw [length_append] at hfewer
    omega
  unfold pendingPayouts
  rw [if_pos hfewer, if_pos hcount]
  refine filter_congr fun e he => ?_
  rw [betPaid_append]
  cases hmore : env.betPaid more e with
  | false => rw [Bool.or_false]
  | true => rw [hunpaid e he hmore, Bool.true_or]

/-- Where something is pending, nothing else leaves it alone. -/
theorem BetEnv.of_pendingPayouts_append (hdue : env.pendingPayouts expected completed ≠ [])
    (h : env.pendingPayouts expected (completed ++ more) = env.pendingPayouts expected completed) :
    (completed ++ more).length < expected.length ∧
      ∀ e ∈ expected, env.betPaid more e = true → env.betPaid completed e = true := by
  have hdue' := hdue
  rw [← h, Ne, pendingPayouts_eq_nil, not_or, not_le] at hdue'
  refine ⟨hdue'.1, fun e he hpaid => ?_⟩
  rw [Ne, pendingPayouts_eq_nil, not_or, not_le] at hdue
  -- a bet that is paid now is in neither vector
  unfold pendingPayouts at h
  rw [if_pos hdue'.1, if_pos hdue.1] at h
  by_contra hunpaid
  rw [Bool.not_eq_true] at hunpaid
  have hin : e ∈ expected.filter fun e => !env.betPaid completed e := by simp [he, hunpaid]
  rw [← h, mem_filter, betPaid_append, hpaid, Bool.or_true] at hin
  exact absurd hin.2 (by decide)

end Pending

/-! ## §3. Nothing due. -/

/-- **Nothing is due at `height`**: it is no payout height or the result is still waited for, or nothing is scanned
yet, or the scan finds at least as many payouts as winning bets or each of these paid. -/
def NothingDue (env : BetEnv) (sources : ResultSources) (chain : List CBlock) (height : Int) (tip : CBlock) : Prop :=
  payoutGate height tip.nTime → (traverseStart env.params height).isSome →
    ∃ scan : PayoutScan env sources chain height, scan.expected.length ≤ scan.completed.length ∨
      ∀ e ∈ scan.expected, env.betPaid scan.completed e = true

/-- The empty vector is the answer exactly where nothing is due. -/
theorem nothingDue_iff (htip : chain.getLast? = some tip) :
    NothingDue env sources chain height tip ↔ getBetPayouts env sources chain height = some [] := by
  constructor
  · intro hnothing
    by_cases hscans : Scans env.params chain height
    · obtain ⟨⟨_, htip', hgate⟩, hstart⟩ := hscans
      rw [htip] at htip'
      cases htip'
      obtain ⟨scan, hpaid⟩ := hnothing hgate hstart
      rw [scan.getBetPayouts_eq, BetEnv.pendingPayouts_eq_nil.mpr hpaid]
    · exact getBetPayouts_of_not_scans hscans
  · intro hnil hgate hstart
    obtain ⟨scan, hpending⟩ := Scans.exists_scan ⟨⟨tip, htip, hgate⟩, hstart⟩ hnil
    exact ⟨scan, BetEnv.pendingPayouts_eq_nil.mp hpending.symm⟩

/-! ## §4. Quiet extensions. -/

/-- What the blocks `ext` on top of `chain` complete of the draw that the scan of `chain` goes by. -/
def PayoutScan.completedBy (scan : PayoutScan env sources chain height) (ext : List CBlock) : List CBetOut :=
  env.completedPayouts (lastdrawtime scan.tip.nTime) chain.length ext

/-- **The extension `ext` of `chain` leaves a payout height alone**: both tips have the same last draw and are past
its waiting time, and for what the scan of `chain` finds, the bets of `ext` can be compared, the payouts with those
of `ext` stay fewer than the winning bets, and `ext` pays no bet that was not paid before. -/
structure QuietExtension (env : BetEnv) (sources : ResultSources) (chain ext : List CBlock)
    (tip tip' : CBlock) : Prop where
  same_draw : lastDrawDay tip'.nTime = lastDrawDay tip.nTime
  gate : payoutGate chain.length tip.nTime
  gate' : payoutGate chain.length tip'.nTime
  readable : ∀ scan : PayoutScan env sources chain chain.length, BetsReadable env scan.result ext
  fewer : ∀ scan : PayoutScan env sources chain chain.length,
    (scan.completed ++ scan.completedBy ext).length < scan.expected.length
  unpaid : ∀ scan : PayoutScan env sources chain chain.length, ∀ e ∈ scan.expected,
    env.betPaid (scan.completedBy ext) e = true → env.betPaid scan.completed e = true

/-- A window for another tip with the same draw. -/
def PayoutWindow.retip {params : ConsensusParams} (w : PayoutWindow params sources chain height) {chain' : List CBlock}
    (htip' : chain'.getLast? = some tip') (hdraw : lastDrawDay tip'.nTime = lastDrawDay w.tip.nTime)
    (hgate' : payoutGate height tip'.nTime) : PayoutWindow params sources chain' height where
  tip := tip'
  start := w.start
  date := w.date
  result := w.result
  tip_eq := htip'
  gate := hgate'
  start_eq := w.start_eq
  date_eq := by
    rw [← w.date_eq]
    unfold latestDrawDate lastdrawdate
    rw [hdraw]
  result_eq := w.result_eq

/-- **The longer scan of the same draw** is the shorter one with what the extension completes; it throws where the
extension has a bet that cannot be compared. -/
theorem getBetPayouts_append (hparams : env.params = .mainNet) (htimed : Timed .mainNet (chain ++ ext))
    (htip' : (chain ++ ext).getLast? = some tip') (scan : PayoutScan env sources chain chain.length)
    (hdraw : lastDrawDay tip'.nTime = lastDrawDay scan.tip.nTime) (hgate' : payoutGate chain.length tip'.nTime) :
    (BetsReadable env scan.result ext → getBetPayouts env sources (chain ++ ext) chain.length
        = some (env.pendingPayouts scan.expected (scan.completed ++ scan.completedBy ext))) ∧
      (¬ BetsReadable env scan.result ext → getBetPayouts env sources (chain ++ ext) chain.length = none) := by
  obtain ⟨hheight, hstart0, hle⟩ := scan.bounds hparams
  -- the window grows by the extension
  have hwindow : (chain ++ ext).drop scan.start.toNat = chain.drop scan.start.toNat ++ ext :=
    drop_append_of_le_length (by omega)
  have hend : scan.start + ((chain.drop scan.start.toNat).length : Int) = chain.length := by
    rw [length_drop]
    omega
  rw [(scan.retip htip' hdraw hgate').getBetPayouts_eq]
  dsimp only [PayoutWindow.retip]
  rw [lastdrawtime_inj.mpr hdraw, hwindow, env.expectedPayouts_append, scan.expected_eq, bind_some,
    env.completedPayouts_append, hend]
  constructor
  · intro hread
    rw [env.expectedPayouts_of_late hread fun slip hslip => ?_]
    · simp
      rfl
    have hlate := late_of_extension htimed scan.tip_eq (by omega) hslip
    have htimeout : env.params.nBetPlaceTimeoutBlocks = 6600 := by
      rw [hparams]
      rfl
    omega
  · intro hread
    have hthrow : env.expectedPayouts scan.result (lastdrawtime scan.tip.nTime) ext = none := by
      rw [← not_isSome_iff_eq_none, env.expectedPayouts_isSome_iff]
      exact hread
    rw [hthrow]
    rfl

/-- A longer scan of the same draw has the shorter one in it. -/
theorem PayoutScan.shorten (hparams : env.params = .mainNet) (htip : chain.getLast? = some tip)
    (hgate : payoutGate chain.length tip.nTime) (scan' : PayoutScan env sources (chain ++ ext) chain.length)
    (hdraw : lastDrawDay tip.nTime = lastDrawDay scan'.tip.nTime) :
    Nonempty (PayoutScan env sources chain chain.length) := by
  obtain ⟨-, hstart0, hle⟩ := scan'.bounds hparams
  have hexpected := scan'.expected_eq
  rw [drop_append_of_le_length (by omega), env.expectedPayouts_append, ← lastdrawtime_inj.mpr hdraw,
    bind_eq_some_iff] at hexpected
  obtain ⟨expected, hexpected, -⟩ := hexpected
  exact ⟨⟨scan'.retip htip hdraw hgate, expected, hexpected⟩⟩

section Same

variable (hparams : env.params = .mainNet) (htimed : Timed .mainNet (chain ++ ext))
  (htip : chain.getLast? = some tip) (htip' : (chain ++ ext).getLast? = some tip')

include hparams htimed htip htip'

/-- **Quiet extensions do not change the answer**, an exception included. -/
theorem getBetPayouts_append_of_quiet (hquiet : QuietExtension env sources chain ext tip tip') :
    getBetPayouts env sources (chain ++ ext) chain.length = getBetPayouts env sources chain chain.length := by
  by_cases hstart : (traverseStart env.params chain.length).isSome
  · by_cases hscan : Nonempty (PayoutScan env sources chain chain.length)
    · obtain ⟨scan⟩ := hscan
      have hdraw := hquiet.same_draw
      rw [← some.inj (scan.tip_eq.symm.trans htip)] at hdraw
      rw [(getBetPayouts_append hparams htimed htip' scan hdraw hquiet.gate').1 (hquiet.readable scan),
        scan.getBetPayouts_eq, BetEnv.pendingPayouts_append (hquiet.fewer scan) (hquiet.unpaid scan)]
    · -- the shorter scan throws, and so does the longer one
      have hold : getBetPayouts env sources chain chain.length = none := by
        refine eq_none_iff_forall_ne_some.mpr fun due hdue => hscan ?_
        obtain ⟨scan, -⟩ := Scans.exists_scan ⟨⟨tip, htip, hquiet.gate⟩, hstart⟩ hdue
        exact ⟨scan⟩
      rw [hold]
      refine eq_none_iff_forall_ne_some.mpr fun due hdue => hscan ?_
      obtain ⟨scan', -⟩ := Scans.exists_scan ⟨⟨tip', htip', hquiet.gate'⟩, hstart⟩ hdue
      refine scan'.shorten hparams htip hquiet.gate ?_
      rw [some.inj (scan'.tip_eq.symm.trans htip')]
      exact hquiet.same_draw.symm
  · rw [(nothingDue_iff htip').mp fun _ h => absurd h hstart, (nothingDue_iff htip).mp fun _ h => absurd h hstart]

/-- With one draw for both tips, nothing but a quiet extension keeps an answer that is not empty. -/
theorem quiet_of_getBetPayouts_append (hdraw : lastDrawDay tip'.nTime = lastDrawDay tip.nTime)
    (hdue : ¬ NothingDue env sources chain chain.length tip)
    (hdue' : ¬ NothingDue env sources (chain ++ ext) chain.length tip')
    (hsame : getBetPayouts env sources (chain ++ ext) chain.length = getBetPayouts env sources chain chain.length) :
    QuietExtension env sources chain ext tip tip' := by
  have hgate : payoutGate chain.length tip.nTime := by
    by_contra hgate
    exact hdue fun h => absurd h hgate
  have hgate' : payoutGate chain.length tip'.nTime := by
    by_contra hgate'
    exact hdue' fun h => absurd h hgate'
  rw [nothingDue_iff htip] at hdue
  have hall : ∀ scan : PayoutScan env sources chain chain.length, BetsReadable env scan.result ext ∧
      (scan.completed ++ scan.completedBy ext).length < scan.expected.length ∧
      ∀ e ∈ scan.expected, env.betPaid (scan.completedBy ext) e = true → env.betPaid scan.completed e = true := by
    intro scan
    rw [← some.inj (scan.tip_eq.symm.trans htip)] at hdraw
    obtain ⟨hreads, hthrows⟩ := getBetPayouts_append hparams htimed htip' scan hdraw hgate'
    rw [hsame, scan.getBetPayouts_eq] at hreads hthrows
    have hread : BetsReadable env scan.result ext := by
      by_contra hread
      cases hthrows hread
    refine ⟨hread, BetEnv.of_pendingPayouts_append ?_ (some.inj (hreads hread)).symm⟩
    rwa [scan.getBetPayouts_eq, some.injEq] at hdue
  exact ⟨hdraw, hgate, hgate', fun scan => (hall scan).1, fun scan => (hall scan).2.1, fun scan => (hall scan).2.2⟩

end Same

/-! ## §5. Paid payouts. -/

/-- **A paid payout is not due again**: once a block that pays the due vector is on the chain and until the next draw,
the vector is no longer the answer. -/
theorem getBetPayouts_append_paid (hparams : env.params = .mainNet)
    (sources : ResultSources) {rest : List CBlock} {block : CBlock} {tx : CTransaction}
    {due : List CBetOut} (hdue : due ≠ []) (htx : block.vtx[1]? = some tx)
    (hpays : env.PaysExpected (getBlockPayouts env.params due).2 tx chain.length)
    (htip' : (chain ++ block :: rest).getLast? = some tip') (hdraw : lastdrawtime tip'.nTime ≤ block.nTime) :
    getBetPayouts env sources (chain ++ block :: rest) chain.length ≠ some due := by
  intro hagain
  obtain ⟨scan, hpending⟩ := getBetPayouts_eq_some hagain hdue
  have htip : scan.tip = tip' := some.inj (scan.tip_eq.symm.trans htip')
  obtain ⟨-, hstart0, hle⟩ := scan.bounds hparams
  -- the first due payout and the output that pays it
  obtain ⟨e, due', rfl⟩ := exists_cons_of_ne_nil hdue
  unfold BetEnv.PaysExpected getBlockPayouts at hpays
  rw [if_neg hdue] at hpays
  rw [cons_append] at hpays
  obtain ⟨o, outs, hpay, hrest, houts⟩ := forall₂_cons_left_iff.mp hpays
  have houtsne : outs ≠ [] := by grind [hrest.length_eq]
  have hmem : o ∈ (env.payoutOutputs tx chain.length).dropLast := by
    rw [houts, dropLast_cons_of_ne_nil houtsne]
    exact mem_cons_self
  have hcompleted : (⟨o, 0⟩ : CBetOut) ∈ scan.completed := by
    have hwindow : ((chain ++ block :: rest).drop scan.start.toNat)[chain.length - scan.start.toNat]?
        = some block := by simp_all
    have hheight : scan.start + ((chain.length - scan.start.toNat : Nat) : Int) = chain.length := by omega
    rw [← hheight] at hmem
    rw [← htip] at hdraw
    exact BetEnv.mem_completedPayouts.mpr ⟨_, _, hwindow, BetEnv.mem_completedOf htx hdraw hmem⟩
  have hpaid : env.betPaid scan.completed e = true := by
    unfold BetEnv.betPaid
    rw [List.any_eq_true]
    refine ⟨⟨o, 0⟩, hcompleted, ?_⟩
    rw [Bool.and_eq_true, beq_iff_eq, beq_iff_eq]
    exact hpay
  -- so it cannot be pending
  have hin : e ∈ env.pendingPayouts scan.expected scan.completed := by
    rw [← hpending]
    exact mem_cons_self
  unfold BetEnv.pendingPayouts at hin
  split_ifs at hin
  · rw [mem_filter, hpaid] at hin
    exact absurd hin.2 (by decide)
  · cases hin

/-- **Evaluating a height again under a longer chain.** The answer is the same where nothing is due under either tip
and where the extension is quiet. It is the same nowhere else, unless another draw lies between the tips and
something is due for both of them. In particular it is another one once the block at that height paid what was due
and no draw took place since. -/
theorem getBetPayouts_extension (env : BetEnv) (hparams : env.params = .mainNet)
    (sources : ResultSources) (chain ext : List CBlock) (tip tip' : CBlock)
    (htimed : Timed .mainNet (chain ++ ext)) (htip : chain.getLast? = some tip)
    (htip' : (chain ++ ext).getLast? = some tip') :
    ((NothingDue env sources chain chain.length tip ∧ NothingDue env sources (chain ++ ext) chain.length tip') ∨
        QuietExtension env sources chain ext tip tip' →
      getBetPayouts env sources (chain ++ ext) chain.length = getBetPayouts env sources chain chain.length) ∧
    ((lastDrawDay tip'.nTime = lastDrawDay tip.nTime ∨ NothingDue env sources chain chain.length tip ∨
        NothingDue env sources (chain ++ ext) chain.length tip') →
      getBetPayouts env sources (chain ++ ext) chain.length = getBetPayouts env sources chain chain.length →
      (NothingDue env sources chain chain.length tip ∧ NothingDue env sources (chain ++ ext) chain.length tip') ∨
        QuietExtension env sources chain ext tip tip') ∧
    ∀ due, getBetPayouts env sources chain chain.length = some due → due ≠ [] →
      (∃ block rest tx, ext = block :: rest ∧ block.vtx[1]? = some tx ∧
        env.PaysExpected (getBlockPayouts env.params due).2 tx chain.length ∧
        lastdrawtime tip'.nTime ≤ block.nTime) →
      getBetPayouts env sources (chain ++ ext) chain.length ≠ getBetPayouts env sources chain chain.length := by
  refine ⟨?_, ?_, ?_⟩
  · rintro (⟨hnone, hnone'⟩ | hquiet)
    · rw [(nothingDue_iff htip).mp hnone, (nothingDue_iff htip').mp hnone']
    · exact getBetPayouts_append_of_quiet hparams htimed htip htip' hquiet
  · intro hcase hsame
    -- with one answer, nothing is due for both tips or for neither
    have hboth : NothingDue env sources chain chain.length tip ↔
        NothingDue env sources (chain ++ ext) chain.length tip' := by
      rw [nothingDue_iff htip, nothingDue_iff htip', hsame]
    by_cases hnone : NothingDue env sources chain chain.length tip
    · exact .inl ⟨hnone, hboth.mp hnone⟩
    · have hnone' := mt hboth.mpr hnone
      rcases hcase with hdraw | h | h
      · exact .inr (quiet_of_getBetPayouts_append hparams htimed htip htip' hdraw hnone hnone' hsame)
      · exact absurd h hnone
      · exact absurd h hnone'
  · rintro due hdue hne ⟨block, rest, tx, rfl, htx, hpays, hdraw⟩
    rw [hdue]
    exact getBetPayouts_append_paid hparams sources hne htx hpays htip' hdraw

theorem length_sampleChain : sampleChain.length = 3000 := by simp

/-- A block at height 3000 of the sample chain whose coinstake pays back the stake and nothing else. -/
def quietBlock : CBlock := { sampleBlock 3000 with vtx := [sampleCoinbase 3000, sampleCoinstake 3001] }

theorem completedOf_quietBlock (latestDrawStartTime : Int) :
    chainEnv.completedOf latestDrawStartTime 3000 quietBlock = [] := by
  have hnone : chainEnv.payoutOutputs (sampleCoinstake 3001) 3000 = [] := by
    rw [sample_payoutOutputs (by omega) (by omega) (by omega)]
    rfl
  unfold BetEnv.completedOf
  show (if _ then map _ (dropMasternodePayment (chainEnv.payoutOutputs (sampleCoinstake 3001) 3000)) else []) = []
  rw [hnone, ite_eq_right_iff]
  exact fun _ => rfl

theorem timed_quietChain : Timed .mainNet (sampleChain ++ [quietBlock]) := by
  intro i block hi
  have hle : i < 3001 := by simpa using (List.getElem?_eq_some_iff.mp hi).1
  obtain hlast | rfl : i < 3000 ∨ i = 3000 := by omega
  · rw [getElem?_append_left (by simpa), getElem?_map, getElem?_range hlast] at hi
    cases hi
    rw [take_append_of_le_length (by simp; omega), ← map_take, take_range, Nat.min_eq_left (by omega)]
    exact ⟨_, checkBlockTime_sample rfl⟩
  · rw [getElem?_append_right (by simp)] at hi
    cases mem_singleton.mp (mem_of_getElem? hi)
    rw [take_left' (by simp)]
    exact ⟨_, checkBlockTime_sample rfl⟩

/-- On any chain of that height where something is due, the block is a quiet extension. -/
theorem quietExtension_quietBlock {due : List CBetOut} (hlen : chain.length = 3000)
    (hdue : getBetPayouts chainEnv sources chain chain.length = some due) (hne : due ≠ []) :
    QuietExtension chainEnv sources chain [quietBlock] (sampleBlock 2999) quietBlock := by
  have hnone : ∀ scan : PayoutScan chainEnv sources chain chain.length, scan.completedBy [quietBlock] = [] := by
    intro scan
    have hheight : ((chain.length : Nat) : Int) = 3000 := by omega
    unfold PayoutScan.completedBy
    generalize lastdrawtime scan.tip.nTime = latestDrawStartTime
    rw [hheight, BetEnv.completedPayouts, BetEnv.completedPayouts, completedOf_quietBlock]
    rfl
  refine ⟨by decide, by rw [hlen]; decide, by rw [hlen]; decide, fun scan slip hslip lb hbets => ?_,
    fun scan => ?_, fun scan e _ hpaid => ?_⟩
  · have hno : ∀ slip ∈ betSlips [quietBlock], slip.txout.scriptPubKey.head? ≠ some OP_RETURN := by decide
    exact absurd hbets.1 (hno slip hslip)
  · -- something is due, so there are more winning bets than payouts
    rw [scan.getBetPayouts_eq, some.injEq] at hdue
    rw [← hdue, Ne, BetEnv.pendingPayouts_eq_nil, not_or, not_le] at hne
    rw [hnone, append_nil]
    exact hne.1
  · rw [hnone] at hpaid
    cases hpaid

/-- One bet is due at height 3000 of the sample chain, also with a block on top that pays no bet. -/
theorem quiet_extension_keeps_payout : getBetPayouts chainEnv octoberSpork sampleChain 3000 = some [sampleEntry] ∧
    getBetPayouts chainEnv octoberSpork (sampleChain ++ [quietBlock]) 3000 = some [sampleEntry] := by
  have hdue : getBetPayouts chainEnv octoberSpork sampleChain sampleChain.length = some [sampleEntry] := by
    rw [length_sampleChain]
    exact sample_getBetPayouts (by omega : 3000 ≤ 4500)
  have hquiet := quietExtension_quietBlock length_sampleChain hdue (cons_ne_nil _ _)
  have hsame := (getBetPayouts_extension chainEnv rfl _ _ [quietBlock] (sampleBlock 2999) quietBlock
    timed_quietChain (getLast?_chain (by omega)) getLast?_concat).1 (.inr hquiet)
  rw [hdue, length_sampleChain] at hsame
  rw [length_sampleChain] at hdue
  exact ⟨hdue, hsame⟩

/-- Block 3000 of the sample chain is due one payout on top of block 2999 and none once it is on the chain itself:
what it minted is not allowed again. -/
theorem payout_block_not_reaccepted : getBetPayouts chainEnv octoberSpork sampleChain 3000 = some [sampleEntry] ∧
    getBetPayouts chainEnv octoberSpork (sampleChain ++ [sampleBlock 3000]) 3000 ≠ some [sampleEntry] := by
  refine ⟨sample_getBetPayouts (by omega : 3000 ≤ 4500), ?_⟩
  have hpays : chainEnv.PaysExpected (getBlockPayouts chainEnv.params [sampleEntry]).2 (sampleCoinstake 3000)
      sampleChain.length := by
    rw [length_sampleChain]
    exact sample_paysExpected (.inl rfl)
  have hagain := getBetPayouts_append_paid (rfl : chainEnv.params = .mainNet) octoberSpork
    (cons_ne_nil sampleEntry []) (sampleBlock_vtx_one (by omega : 200 < 3000)) hpays getLast?_concat (by decide)
  rwa [length_sampleChain] at hagain

end PwrbCore
