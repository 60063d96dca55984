/-
  Validation.Commit — THE COMMIT PHASE OF `ConnectBlock`: the globals it writes, in the order it writes them.

  `connectBlock` gives the new state or a failure.  Here the function runs on the globals
  themselves (`nMoneySupply`, `mapZerocoinSupply`, `zerocoinDB`), so that what a failing call
  leaves behind can be read off.  A batch the database cannot write throws
  (`dbwrapper_private::HandleError`), so the one `return false` behind the first write is
  the failsafe of `UpdateZPWRBSupplyConnect`, which stops in the middle of its loop.

  Main results: `connectBlockInPlace_eq`, `connectBlockInPlace_atomic_iff`.
-/
import PwrbCore.Validation.Reorg

namespace PwrbCore

open Checked List NodeEnv ZerocoinSupply

/-! ## §1. The zerocoin database. -/

variable {supply' : ZerocoinSupply} {acc acc' : TxInputs} {view : CCoinsView}

/-- `zerocoinDB`: spent serials and hashes of minted coins, each with its transaction. -/
@[ext] structure ZerocoinDB where
  coinSpends : Nat → Option Uint256
  coinMints : Uint256 → Option Uint256

def ZerocoinDB.writeCoinSpendBatch (db : ZerocoinDB) (spendInfo : List (CoinSpend × Uint256)) : ZerocoinDB :=
  { db with
    coinSpends := spendInfo.foldl
      (fun spends s => Function.update spends s.1.coinSerialNumber (some s.2)) db.coinSpends }

/-- `WriteCoinMintBatch`, each coin by its `GetPubCoinHash`. -/
def ZerocoinDB.writeCoinMintBatch (db : ZerocoinDB) (mintInfo : List (Uint256 × Uint256)) : ZerocoinDB :=
  { db with
    coinMints := mintInfo.foldl (fun mints m => Function.update mints m.1 (some m.2)) db.coinMints }

def ZerocoinDB.record (db : ZerocoinDB) (spendInfo : List (CoinSpend × Uint256))
    (mintInfo : List (Uint256 × Uint256)) : ZerocoinDB :=
  (db.writeCoinSpendBatch spendInfo).writeCoinMintBatch mintInfo

/-! ## §2. The supply map, updated in place. -/

/-- The second loop of `UpdateZPWRBSupplyConnect`: the map it leaves, and how it ended. The failsafe looks after the
count was lowered. -/
def takeSpends : List (Option CoinDenomination) → ZerocoinSupply → ZerocoinSupply × Except SupplyError Unit
  | [], supply => (supply, .ok ())
  | none :: _, supply => (supply, .error .thrown)
  | some denom :: spends, supply =>
    if supply.add denom (-1) denom < 0 then (supply.add denom (-1), .error .negative)
    else takeSpends spends (supply.add denom (-1))

/-- The map behind the first loop: the block's mints are in. -/
def mintedSupply (params : ConsensusParams) (invalidOut : InvalidOut) (block : CBlock) (nHeight : Int)
    (supply : ZerocoinSupply) : ZerocoinSupply :=
  (supplyMints params invalidOut block nHeight).foldl (fun s d => s.add d 1) supply

section

variable (params : ConsensusParams) (coinSpend : CTxIn → Option CoinSpend) (invalidOut : InvalidOut)
  (block : CBlock) (nHeight : Int) (supply : ZerocoinSupply)

/-- `UpdateZPWRBSupplyConnect` on the global map. -/
def updateSupplyInPlace : ZerocoinSupply × Except SupplyError Unit :=
  if nHeight < params.height_start_ZC then (supply, .ok ())
  else
    match zerocoinSpendListFromBlock coinSpend invalidOut block.vtx with
    | none => (mintedSupply params invalidOut block nHeight supply, .error .thrown)
    | some spends => takeSpends spends (mintedSupply params invalidOut block nHeight supply)

/-- `taken` are the first spends, up to the one the supply cannot pay. -/
inductive Overdraws : ZerocoinSupply → List (Option CoinDenomination) → List CoinDenomination → Prop where
  | here {supply : ZerocoinSupply} {denom : CoinDenomination} {spends : List (Option CoinDenomination)} :
      supply denom < 1 → Overdraws supply (some denom :: spends) [denom]
  | later {supply : ZerocoinSupply} {denom : CoinDenomination} {spends : List (Option CoinDenomination)}
      {taken : List CoinDenomination} :
      1 ≤ supply denom → Overdraws (supply.add denom (-1)) spends taken →
      Overdraws supply (some denom :: spends) (denom :: taken)

theorem takeSpends_eq_foldlM (spends : List (Option CoinDenomination)) (supply : ZerocoinSupply) :
    (takeSpends spends supply).2.map (fun _ => (takeSpends spends supply).1) = spends.foldlM (fun s denom? => do
        let denom ← orStop denom? SupplyError.thrown
        s.take denom) supply := by
  induction spends generalizing supply with
  | nil => rfl
  | cons denom? spends ih =>
    cases denom? with
    | none => rfl
    | some denom =>
      rw [foldlM_cons, orStop_some_bind]
      unfold takeSpends ZerocoinSupply.take require
      by_cases hneg : supply.add denom (-1) denom < 0
      · rw [if_pos hneg, if_neg (by omega)]
        rfl
      · rw [if_neg hneg, if_pos (by omega)]
        exact ih _

theorem updateSupplyInPlace_eq : (updateSupplyInPlace params coinSpend invalidOut block nHeight supply).2.map
        (fun _ => (updateSupplyInPlace params coinSpend invalidOut block nHeight supply).1)
      = updateZPWRBSupplyConnect params coinSpend invalidOut block nHeight supply := by
  unfold updateSupplyInPlace updateZPWRBSupplyConnect
  by_cases hzc : nHeight < params.height_start_ZC
  · rw [if_pos hzc, if_pos hzc]
    rfl
  rw [if_neg hzc, if_neg hzc]
  cases zerocoinSpendListFromBlock coinSpend invalidOut block.vtx with
  | none => rfl
  | some spends => exact takeSpends_eq_foldlM spends _

end

variable {supply : ZerocoinSupply} {block : CBlock} {nHeight : Int} {tx : CTransaction}

/-- The failsafe fires exactly when the spends overdraw the supply; what was taken is gone from the map. -/
theorem takeSpends_negative_iff {spends : List (Option CoinDenomination)} :
    takeSpends spends supply = (supply', .error .negative) ↔
      ∃ taken, Overdraws supply spends taken ∧ supply' = fun d => supply d - taken.count d := by
  induction spends generalizing supply with
  | nil => exact iff_of_false nofun (by rintro ⟨_, ⟨⟩, -⟩)
  | cons denom? spends ih =>
    cases denom? with
    | none => exact iff_of_false nofun (by rintro ⟨_, ⟨⟩, -⟩)
    | some denom =>
      have hself : supply.add denom (-1) denom = supply denom - 1 := by
        rw [add_apply, if_pos rfl]
        omega
      have hcount : ∀ taken d,
          supply.add denom (-1) d - taken.count d = supply d - (denom :: taken).count d := by
        intro taken d
        rw [add_apply, count_cons]
        by_cases hd : d = denom
        · subst hd
          simp only [if_true, beq_self_eq_true]
          omega
        · grind
      have hone : supply.add denom (-1) = fun d => supply d - [denom].count d :=
        funext fun d => by simpa using hcount [] d
      unfold takeSpends
      rw [hself]
      by_cases hneg : supply denom - 1 < 0
      · rw [if_pos hneg]
        constructor
        · intro h
          exact ⟨[denom], .here (by omega), (Prod.mk.inj h).1.symm.trans hone⟩
        · rintro ⟨taken, h, rfl⟩
          cases h with
          | here => exact Prod.ext hone rfl
          | later hpos => omega
      · rw [if_neg hneg, ih]
        constructor
        · rintro ⟨taken, h, rfl⟩
          exact ⟨denom :: taken, .later (by omega) h, funext (hcount taken)⟩
        rintro ⟨taken, h, rfl⟩
        cases h with
        | here hlow => omega
        | @later _ _ _ taken _ h => exact ⟨taken, h, funext fun d => (hcount taken d).symm⟩

/-- Mints minus what was taken is nothing exactly when the lists agree up to order. -/
theorem minted_sub_taken_eq_iff {params : ConsensusParams} {invalidOut : InvalidOut} {taken : List CoinDenomination} :
    (fun d => mintedSupply params invalidOut block nHeight supply d - taken.count d) = supply ↔
      taken.Perm (supplyMints params invalidOut block nHeight) := by
  rw [perm_iff_count]
  constructor
  · intro h d
    have := congrFun h d
    unfold mintedSupply at this
    rw [foldl_add_apply] at this
    omega
  · intro h
    funext d
    unfold mintedSupply
    rw [foldl_add_apply, h d]
    omega

/-! ## §3. The spends and mints a block records. -/

/-- The spend an input is parsed to, if it is a zerocoin input. -/
def NodeEnv.spendOfTxIn (env : NodeEnv) (tx : CTransaction) (txin : CTxIn) : List CoinSpend :=
  if !txin.isZerocoinSpend && !txin.isZerocoinPublicSpend then []
  else
    match env.parseSpend tx txin with
    | .ok spend => [spend]
    | .error _ => []

/-- `vSpends`, collected over the transactions with zerocoin inputs. -/
def NodeEnv.blockSpends (env : NodeEnv) (vtx : List CTransaction) : List (CoinSpend × Uint256) :=
  vtx.flatMap fun tx =>
    if tx.hasZerocoinSpendInputs then (tx.vin.flatMap (env.spendOfTxIn tx)).map fun s => (s, tx.hash)
    else []

/-- The offset of the coin in a mint's script. -/
def SCRIPT_OFFSET : Nat := 6

/-- `vMints`: the hash of each minted coin, read off the script, and its transaction. -/
def blockMints (pubCoinHash : List UInt8 → Uint256) (vtx : List CTransaction) : List (Uint256 × Uint256) :=
  vtx.flatMap fun tx =>
    if tx.hasZerocoinMintOutputs then
      (tx.vout.filter CTxOut.isZerocoinMint).map fun out =>
        (pubCoinHash (out.scriptPubKey.drop SCRIPT_OFFSET), tx.hash)
    else []

variable {env : NodeEnv}

theorem NodeEnv.connectSpend_spends {txin : CTxIn} (h : env.connectSpend tx nHeight acc txin = .ok acc') :
    acc'.spends = acc.spends ++ env.spendOfTxIn tx txin := by
  unfold connectSpend at h
  unfold spendOfTxIn
  split_ifs at h ⊢ with hzc
  · cases h
    exact (append_nil _).symm
  simp only [bind_eq_ok] at h
  obtain ⟨-, -, spend, hspend, -, -, hacc⟩ := h
  cases hacc
  rw [hspend]

theorem NodeEnv.foldlM_connectSpend_spends {vin : List CTxIn}
    (h : vin.foldlM (env.connectSpend tx nHeight) acc = .ok acc') :
    acc'.spends = acc.spends ++ vin.flatMap (env.spendOfTxIn tx) := by
  induction vin generalizing acc with
  | nil =>
    rw [foldlM_nil_eq_ok] at h
    subst h
    exact (append_nil _).symm
  | cons txin vin ih => grind [foldlM_cons_eq_ok, env.connectSpend_spends]

theorem NodeEnv.txInputs_spends {nSigOps : Nat} {ins : TxInputs} (h : env.txInputs tx view nHeight nSigOps = .ok ins) :
    ins.spends = if tx.hasZerocoinSpendInputs then tx.vin.flatMap (env.spendOfTxIn tx) else [] := by
  unfold txInputs at h
  split_ifs at h ⊢ with hzc hcb
  · unfold connectSpends at h
    rw [require_bind_eq_ok] at h
    rw [env.foldlM_connectSpend_spends h.2]
    exact nil_append _
  · unfold connectInputs at h
    simp only [bind_eq_ok] at h
    obtain ⟨_, _, _, _, _, _, nFees, _, vChecks, _, hins⟩ := h
    cases hins
    rfl
  · cases h
    rfl

theorem NodeEnv.foldlM_connectTx_spends {vtx : List CTransaction} {acc acc' : ConnectAcc}
    (h : vtx.foldlM (env.connectTx block nHeight) acc = .ok acc') :
    acc'.vSpends = acc.vSpends ++ env.blockSpends vtx := by
  induction vtx generalizing acc with
  | nil =>
    rw [foldlM_nil_eq_ok] at h
    subst h
    exact (append_nil _).symm
  | cons tx vtx ih =>
    obtain ⟨mid, hmid, hrun⟩ := foldlM_cons_eq_ok.mp h
    obtain ⟨ok⟩ := env.connectTx_eq_ok hmid
    have hspends := env.txInputs_spends ok.inputs
    rw [ih hrun, ok.acc_eq]
    show (acc.vSpends ++ ok.ins.spends.map fun spend => (spend, tx.hash)) ++ env.blockSpends vtx = _
    unfold blockSpends
    rw [flatMap_cons, hspends, append_assoc]
    split_ifs <;> rfl

/-! ## §4. `ConnectBlock` on the globals. -/

/-- The globals the commit phase writes. -/
structure Globals where
  nMoneySupply : Int
  mapZerocoinSupply : ZerocoinSupply
  zerocoinDB : ZerocoinDB

/-- What the commit phase asks for: how writing the undo record failed, if it did, and the hash of a minted coin. -/
structure CommitEnv where
  undoFailure : Option ValidationError
  pubCoinHash : List UInt8 → Uint256

/-- `UpdateZPWRBSupplyConnect` on the node's parameters. -/
def NodeEnv.supplyInPlace (env : NodeEnv) (block : CBlock) (nHeight : Int) (supply : ZerocoinSupply) :
    ZerocoinSupply × Except SupplyError Unit :=
  updateSupplyInPlace env.params env.crypto.coinSpend env.crypto.invalidOut block nHeight supply

/-- The part of `ConnectBlock` behind the `fJustCheck` line. -/
def NodeEnv.commitInPlace (env : NodeEnv) (disk : CommitEnv) (block : CBlock) (nHeight : Int)
    (acc : ConnectAcc) (g : Globals) : Globals × Validated CCoinsView :=
  match disk.undoFailure with
  | some e => (g, .error e)
  | none =>
    let db := g.zerocoinDB.record acc.vSpends (blockMints disk.pubCoinHash block.vtx)
    let g := { g with zerocoinDB := db }
    match env.supplyInPlace block nHeight g.mapZerocoinSupply with
    | (supply, .error .negative) => ({ g with mapZerocoinSupply := supply }, .error (dos 100))
    | (supply, .error .thrown) => ({ g with mapZerocoinSupply := supply }, .error .thrown)
    | (supply, .ok ()) =>
      ({ g with
          mapZerocoinSupply := supply
          nMoneySupply := g.nMoneySupply - env.lockedValue nHeight
            + (acc.nValueOut - acc.nValueIn - acc.nValueBet) },
        .ok (acc.view.setBestBlock block.hash))

/-- Everything before the commit phase; `none` for the first block, which has none. -/
def NodeEnv.checkForCommit (env : NodeEnv) (block : CBlock) (nHeight : Int) (view : CCoinsView)
    (fAlreadyChecked : Bool) : Validated (Option ConnectAcc) := do
  env.recheckBlock block false fAlreadyChecked
  require (block.hashPrevBlock = view.bestBlock) .thrown
  if block.hash = env.params.hashGenesisBlock then return none
  else
    let acc ← env.connectTxs block nHeight view
    return some acc

/-- `ConnectBlock` with `fJustCheck = false`, on the globals and the caller's view. -/
def NodeEnv.connectBlockInPlace (env : NodeEnv) (disk : CommitEnv) (block : CBlock) (nHeight : Int)
    (view : CCoinsView) (fAlreadyChecked : Bool) (g : Globals) : Globals × Validated CCoinsView :=
  match env.checkForCommit block nHeight view fAlreadyChecked with
  | .error e => (g, .error e)
  | .ok none => (g, .ok (view.setBestBlock block.hash))
  | .ok (some acc) => env.commitInPlace disk block nHeight acc g

theorem NodeEnv.checkForCommit_eq_some {fAlreadyChecked : Bool} {acc : ConnectAcc}
    (h : env.checkForCommit block nHeight view fAlreadyChecked = .ok (some acc)) :
    block.hash ≠ env.params.hashGenesisBlock ∧ acc.vSpends = env.blockSpends block.vtx := by
  unfold checkForCommit at h
  simp only [bind_eq_ok] at h
  obtain ⟨-, -, -, -, h⟩ := h
  split_ifs at h with hgenesis
  · cases h
  refine ⟨hgenesis, ?_⟩
  obtain ⟨acc', hacc, hsome⟩ := bind_eq_ok.mp h
  cases hsome
  unfold connectTxs at hacc
  simp only [bind_eq_ok] at hacc
  obtain ⟨-, -, -, -, acc'', hloop, -, -, -, -, -, -, hacc⟩ := hacc
  cases hacc
  rw [env.foldlM_connectTx_spends hloop]
  exact nil_append _

theorem NodeEnv.connectBlock_eq_checkForCommit (env : NodeEnv) (block : CBlock) (nHeight : Int)
    (st : ChainState) (fAlreadyChecked : Bool) :
    env.connectBlock block nHeight st false fAlreadyChecked
      = (env.checkForCommit block nHeight st.view fAlreadyChecked >>= fun acc? =>
          match acc? with
          | none => .ok ⟨{ st with view := st.view.setBestBlock block.hash }, [], []⟩
          | some acc => do
            let supply ← env.connectSupply block nHeight st.mapZerocoinSupply
            return ⟨{ view := acc.view.setBestBlock block.hash
                      nMoneySupply := st.nMoneySupply - env.lockedValue nHeight
                        + (acc.nValueOut - acc.nValueIn - acc.nValueBet)
                      mapZerocoinSupply := supply }, acc.vtxundo.tail, acc.vSpends⟩) := by
  unfold connectBlock checkForCommit
  cases env.recheckBlock block false fAlreadyChecked with
  | error e => rfl
  | ok u =>
    unfold require
    by_cases hparent : block.hashPrevBlock = st.view.bestBlock
    · rw [if_pos hparent]
      by_cases hgenesis : block.hash = env.params.hashGenesisBlock
      · simp only [if_pos hgenesis]
        rfl
      · simp_all
    · rw [if_neg hparent]
      rfl

/-- **The run on the globals refines `connectBlock`**: with the undo record written it ends as `connectBlock` does and
leaves its state, with the spends and mints recorded. -/
theorem NodeEnv.connectBlockInPlace_eq (env : NodeEnv) (pubCoinHash : List UInt8 → Uint256) (block : CBlock)
    (nHeight : Int) (view : CCoinsView) (fAlreadyChecked : Bool) (g : Globals) :
    match env.connectBlock block nHeight ⟨view, g.nMoneySupply, g.mapZerocoinSupply⟩ false
      fAlreadyChecked with
    | .error e => (env.connectBlockInPlace ⟨none, pubCoinHash⟩ block nHeight view fAlreadyChecked g).2 = .error e
    | .ok r => ∃ db, env.connectBlockInPlace ⟨none, pubCoinHash⟩ block nHeight view fAlreadyChecked g
        = (⟨r.state.nMoneySupply, r.state.mapZerocoinSupply, db⟩, .ok r.state.view) ∧
        (block.hash ≠ env.params.hashGenesisBlock →
          db = g.zerocoinDB.record r.vSpends (blockMints pubCoinHash block.vtx)) := by
  rw [env.connectBlock_eq_checkForCommit]
  unfold connectBlockInPlace
  cases hcheck : env.checkForCommit block nHeight view fAlreadyChecked with
  | error e => rfl
  | ok acc? =>
    cases acc? with
    | none =>
      refine ⟨g.zerocoinDB, rfl, ?_⟩
      intro hne
      unfold checkForCommit at hcheck
      simp only [bind_eq_ok] at hcheck
      obtain ⟨_, _, _, _, hcheck⟩ := hcheck
      rw [if_neg hne, bind_eq_ok] at hcheck
      obtain ⟨acc, _, hnone⟩ := hcheck
      cases hnone
    | some acc =>
      have hsupply := updateSupplyInPlace_eq env.params env.crypto.coinSpend
        env.crypto.invalidOut block nHeight g.mapZerocoinSupply
      unfold connectSupply commitInPlace supplyInPlace
      rw [← hsupply]
      dsimp only
      rcases updateSupplyInPlace env.params env.crypto.coinSpend env.crypto.invalidOut block
        nHeight g.mapZerocoinSupply with ⟨supply, e | u⟩
      · cases e <;> rfl
      · exact ⟨_, rfl, fun _ => rfl⟩

/-! ## §5. Failing calls. -/

/-- The block passes every check in front of the commit phase. -/
def NodeEnv.PassesChecks (env : NodeEnv) (block : CBlock) (nHeight : Int) (view : CCoinsView)
    (fAlreadyChecked : Bool) : Prop :=
  ∃ acc, env.checkForCommit block nHeight view fAlreadyChecked = .ok (some acc)

/-- The spends of the block overdraw the supply; `taken` are those up to the one that does. -/
def NodeEnv.BlockOverdraws (env : NodeEnv) (block : CBlock) (nHeight : Int) (supply : ZerocoinSupply)
    (taken : List CoinDenomination) : Prop :=
  env.params.height_start_ZC ≤ nHeight ∧
    ∃ spends, zerocoinSpendListFromBlock env.crypto.coinSpend env.crypto.invalidOut block.vtx = some spends ∧
      Overdraws (mintedSupply env.params env.crypto.invalidOut block nHeight supply) spends taken

/-- The supply update returns false exactly when the block's spends overdraw. -/
theorem NodeEnv.supplyInPlace_negative_iff : env.supplyInPlace block nHeight supply = (supply', .error .negative) ↔
      ∃ taken, env.BlockOverdraws block nHeight supply taken ∧ supply' = fun d =>
        mintedSupply env.params env.crypto.invalidOut block nHeight supply d - taken.count d := by
  unfold supplyInPlace updateSupplyInPlace NodeEnv.BlockOverdraws
  by_cases hzc : nHeight < env.params.height_start_ZC
  · simp_all
  rw [if_neg hzc]
  cases zerocoinSpendListFromBlock env.crypto.coinSpend env.crypto.invalidOut block.vtx with
  | none =>
    simp
  | some spends =>
    rw [takeSpends_negative_iff]
    simp_all

/-- **Which failing calls leave the globals alone.**  A call that returns false leaves the two
supplies and the database as they were, unless the block passed all checks, its undo record was
written, and its spends overdraw the zerocoin supply: then the batches are in the database and
the map is changed, except for a database that already held the same records and a block whose
mints cancel the spends taken. -/
theorem connectBlockInPlace_atomic_iff (env : NodeEnv) (disk : CommitEnv) (block : CBlock)
    (nHeight : Int) (view : CCoinsView) (fAlreadyChecked : Bool) (g : Globals) :
    (∀ e, (env.connectBlockInPlace disk block nHeight view fAlreadyChecked g).2 = .error e →
        e ≠ .thrown → (env.connectBlockInPlace disk block nHeight view fAlreadyChecked g).1 = g) ↔
      ∀ taken, env.PassesChecks block nHeight view fAlreadyChecked → disk.undoFailure = none →
        env.BlockOverdraws block nHeight g.mapZerocoinSupply taken →
        g.zerocoinDB.record (env.blockSpends block.vtx) (blockMints disk.pubCoinHash block.vtx) = g.zerocoinDB ∧
          taken.Perm (supplyMints env.params env.crypto.invalidOut block nHeight) := by
  constructor
  · intro hatomic taken hpass hundo hover
    obtain ⟨acc, hcheck⟩ := hpass
    obtain ⟨-, hspends⟩ := env.checkForCommit_eq_some hcheck
    have hsupply := env.supplyInPlace_negative_iff.mpr ⟨taken, hover, rfl⟩
    have hrun : env.connectBlockInPlace disk block nHeight view fAlreadyChecked g
        = (⟨g.nMoneySupply, fun d => mintedSupply env.params env.crypto.invalidOut block nHeight
              g.mapZerocoinSupply d - taken.count d,
            g.zerocoinDB.record (env.blockSpends block.vtx) (blockMints disk.pubCoinHash block.vtx)⟩,
          .error (dos 100)) := by
      simp [connectBlockInPlace, commitInPlace, hcheck, hundo, hsupply, hspends]
    rw [hrun] at hatomic
    have hsame := hatomic _ rfl (by decide)
    have hdb := congrArg Globals.zerocoinDB hsame
    have hmap := congrArg Globals.mapZerocoinSupply hsame
    exact ⟨hdb, minted_sub_taken_eq_iff.mp hmap⟩
  · intro hcond e hfail hthrown
    unfold connectBlockInPlace at hfail ⊢
    cases hcheck : env.checkForCommit block nHeight view fAlreadyChecked with
    | error e => rfl
    | ok acc? =>
      cases acc? with
      | none => rfl
      | some acc =>
        obtain ⟨-, hspends⟩ := env.checkForCommit_eq_some hcheck
        rw [hcheck] at hfail
        unfold commitInPlace at hfail ⊢
        cases hundo : disk.undoFailure with
        | some e => rfl
        | none =>
          rw [hundo] at hfail
          dsimp only at hfail ⊢
          rcases hsupply : env.supplyInPlace block nHeight g.mapZerocoinSupply with
            ⟨supply, e' | u⟩
          · rw [hsupply] at hfail
            cases e' with
            | thrown =>
              cases hfail
              exact absurd rfl hthrown
            | negative =>
              obtain ⟨taken, hover, rfl⟩ := env.supplyInPlace_negative_iff.mp hsupply
              obtain ⟨hdb, hperm⟩ := hcond taken ⟨acc, hcheck⟩ hundo hover
              rw [hspends, hdb, minted_sub_taken_eq_iff.mpr hperm]
          · rw [hsupply] at hfail
            cases hfail

/-- A node at height 400 with zerocoins not in maintenance; every spend is a ten, its serial the byte behind the
opcode. -/
def zerocoinNode : NodeEnv :=
  { entryNode paymentEntry with
    crypto := { plainCrypto with
      coinSpend := fun txin => some ⟨some .ten, (txin.scriptSig.getD 1 0).toNat, 1, 0⟩
      contextualCheckSpend := fun _ _ _ => true }
    loc := { plainLocal with sporkValue := fun _ => 4070908800 } }

def zerocoinInput (serial : UInt8) : CTxIn :=
  { prevout := ⟨0, UINT32_MAX⟩, scriptSig := [OP_ZEROCOINSPEND, serial], nSequence := 10 }

def twoTensBlock : CBlock := stakedBlock [.of 7 1]
  [{ hash := 42, vin := [zerocoinInput 1, zerocoinInput 2], vout := [⟨20 * COIN, payTo 9⟩] }]

def oneTenGlobals : Globals :=
  ⟨0, fun d => if d = .ten then 1 else 0, ⟨fun _ => none, fun _ => none⟩⟩

def twoTensRun : Globals × Validated CCoinsView :=
  zerocoinNode.connectBlockInPlace ⟨none, fun _ => 0⟩ twoTensBlock 400 (oneEntryView paymentEntry)
    false oneTenGlobals

/-- **A failing call that changed everything**: the second ten is not in circulation, and the
call returns false with the count at minus one and both serials recorded. -/
theorem overdrawn_block_changes_globals : twoTensRun.2 = .error (dos 100) ∧
      oneTenGlobals.mapZerocoinSupply .ten = 1 ∧ twoTensRun.1.mapZerocoinSupply .ten = -1 ∧
      oneTenGlobals.zerocoinDB.coinSpends 1 = none ∧ twoTensRun.1.zerocoinDB.coinSpends 1 = some 42 ∧
      twoTensRun.1.zerocoinDB.coinSpends 2 = some 42 := by
  have hfail : twoTensRun.2.map (fun _ => ()) = .error (dos 100) := by decide +kernel
  refine ⟨?_, rfl, by decide +kernel, rfl, by decide +kernel, by decide +kernel⟩
  cases hrun : twoTensRun.2 with
  | ok view =>
    rw [hrun] at hfail
    cases hfail
  | error e =>
    rw [hrun] at hfail
    cases hfail
    rfl

end PwrbCore
