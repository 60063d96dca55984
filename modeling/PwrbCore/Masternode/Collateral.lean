/-
  Masternode.Collateral — WHAT A LISTED MASTERNODE OWNS.

  A broadcast is checked twice against its collateral: some output of the transaction it names
  is a collateral of its key (`IsInputAssociatedWithPubkey`), and the output it names can be
  spent and is worth 9.99 coins (the dry run).  Nothing says that the two are one output.
  They are when no other output of the transaction would pass (`SoleCollateral`), and then
  every listed masternode stands on ten coins of its key (`masternodes_backed`).
-/
import PwrbCore.Coins.Unspent
import PwrbCore.Masternode.Broadcast
import PwrbCore.Mempool.Index

namespace PwrbCore

open Checked List CCoinsView MasternodeEnv CMasternode CMasternodeMan

/-! ## §1. Inputs and keys. -/

variable {f : CMasternode → CMasternode} {man : CMasternodeMan} {env : MasternodeEnv} {vin : CTxIn}
  {mnb : CMasternodeBroadcast}

def CMasternode.holding (mn : CMasternode) : CTxIn × CPubKey := (mn.vin, mn.pubKeyCollateralAddress)

def CMasternodeMan.holdings (man : CMasternodeMan) : List (CTxIn × CPubKey) :=
  man.vMasternodes.map CMasternode.holding

theorem CMasternode.holding_checkInputs (env : MasternodeEnv) (mn : CMasternode) :
    (mn.checkInputs env).1.holding = mn.holding := by
  unfold checkInputs
  split_ifs
  · rfl
  · split <;> rfl

theorem CMasternode.holding_check (env : MasternodeEnv) (mn : CMasternode) (forceCheck : Bool) :
    (mn.check env forceCheck).1.holding = mn.holding := by
  unfold check
  split_ifs
  · rfl
  · rfl
  dsimp only
  split_ifs
  · rfl
  · rfl
  · rfl
  · rfl
  · exact holding_checkInputs env _

/-- A change that keeps input and key of the masternode it is made to. -/
theorem map_holding_updateFirst {prevout : COutPoint} {l : List CMasternode}
    (hf : ∀ mn, l.find? (fun mn => mn.vin.prevout == prevout) = some mn → (f mn).holding = mn.holding) :
    (updateFirst prevout f l).map CMasternode.holding = l.map CMasternode.holding := by
  induction l with
  | nil => rfl
  | cons mn rest ih =>
    unfold updateFirst
    by_cases h : mn.vin.prevout = prevout
    · simp_all
    · simp_all

namespace CMasternodeMan

theorem holdings_update
    (hf : ∀ mn, man.find vin = some mn → (f mn).holding = mn.holding) : (man.update vin f).holdings = man.holdings :=
  map_holding_updateFirst hf

section

variable (man : CMasternodeMan) (env : MasternodeEnv)

theorem holdings_check (vin : CTxIn) (forceCheck : Bool) : (man.check env vin forceCheck).1.holdings = man.holdings :=
  holdings_update fun mn _ => mn.holding_check env forceCheck

theorem holdings_storePing (ping : CMasternodePing)
    (mn : CMasternode) : (man.storePing env ping mn).1.holdings = man.holdings := by
  have hstore : ∀ seen, (({ man.update ping.vin fun mn => { mn with lastPing := ping } with
      mapSeenMasternodeBroadcast := seen } : CMasternodeMan).check env ping.vin true).1.holdings
      = man.holdings := by
    intro seen
    rw [holdings_check]
    exact holdings_update fun mn _ => rfl
  unfold storePing
  dsimp only
  split
  · exact hstore _
  · exact hstore _
  · exact hstore _

/-- **A ping moves no collateral.** -/
theorem holdings_checkAndUpdatePing (ping : CMasternodePing) (fRequireEnabled fCheckSigTimeOnly : Bool) :
    (man.checkAndUpdatePing env ping fRequireEnabled fCheckSigTimeOnly).1.holdings = man.holdings := by
  unfold checkAndUpdatePing
  by_cases hfuture : env.adjustedTime + 60 * 60 < ping.sigTime
  · rw [if_pos hfuture]
  rw [if_neg hfuture]
  by_cases hpast : ping.sigTime ≤ env.adjustedTime - 60 * 60
  · rw [if_pos hpast]
  rw [if_neg hpast]
  split
  · rfl
  -- only the last branch touches the list
  dsimp only
  split_ifs
  iterate 7
    · rfl
  exact holdings_storePing _ _ _ _

theorem holdings_processPing (ping : CMasternodePing) : (man.processPing env ping).holdings = man.holdings := by
  unfold processPing
  split_ifs
  · rfl
  dsimp only
  split_ifs
  · rfl
  · exact holdings_checkAndUpdatePing _ _ _ _ _

theorem holdings_updateFromNewBroadcast
    (hkey : ∀ mn, man.find mnb.vin = some mn → mn.pubKeyCollateralAddress = mnb.pubKeyCollateralAddress) :
    (man.updateFromNewBroadcast env mnb).1.holdings = man.holdings := by
  have hfields : ∀ f : CMasternode → CMasternode,
      (∀ mn, (f mn).vin = mn.vin ∧ (f mn).pubKeyCollateralAddress = mnb.pubKeyCollateralAddress) →
      (man.update mnb.vin f).holdings = man.holdings := by grind [holdings_update, CMasternode.holding]
  unfold updateFromNewBroadcast
  dsimp only
  generalize hman : man.update mnb.vin _ = man'
  have hping : (if mnb.lastPing.isDefault then (man', .accepted)
      else man'.checkAndUpdatePing env mnb.lastPing false false).1.holdings = man.holdings := by
    grind [holdings_checkAndUpdatePing]
  split
  · rw [← hping]
    exact holdings_update fun mn _ => rfl
  · exact hping
  · exact hping

theorem holdings_updateKnown (mnb : CMasternodeBroadcast) : (man.updateKnown env mnb).1.holdings = man.holdings := by
  unfold updateKnown
  split
  · rfl
  next mn hmn =>
    split_ifs with hold henabled hsame
    · rfl
    · rfl
    · have hupdate : (man.updateFromNewBroadcast env mnb).1.holdings = man.holdings := by
        simp [holdings_updateFromNewBroadcast, hmn, hsame]
      grind [holdings_check]
    · rfl

end

/-- **What an accepted `CheckAndUpdate` has checked**; the listed collateral stays. -/
theorem checkAndUpdate_eq {man' : CMasternodeMan} {r : Handled}
    (h : man.checkAndUpdate env mnb = (man', r)) : man'.holdings = man.holdings ∧
      (r = .accepted → mnb.vin.scriptSig = [] ∧ env.signer.checkSignature env.keyID mnb = true) := by
  have hstop : ∀ {r' : Handled}, r' ≠ .accepted → (man, r') = (man', r) → man'.holdings = man.holdings ∧
      (r = .accepted → mnb.vin.scriptSig = [] ∧ env.signer.checkSignature env.keyID mnb = true) := by
    intro r' hr' heq
    cases heq
    exact ⟨rfl, fun hr => absurd hr hr'⟩
  unfold checkAndUpdate at h
  by_cases hfuture : env.adjustedTime + 60 * 60 < mnb.sigTime
  · rw [if_pos hfuture] at h
    exact hstop (by decide) h
  rw [if_neg hfuture] at h
  split at h
  · exact hstop (by simp) h
  · exact hstop (by decide) h
  · grind [holdings_updateKnown]

end CMasternodeMan

/-! ## §2. The dry run. -/

theorem MasternodeEnv.getValueOut_dummyTx (env : MasternodeEnv) (vin : CTxIn) (key : CPubKey) :
    (env.dummyTx vin key).getValueOut = some dummyValue := by
  rfl

/-- **What the dry run finds**: the named output can be spent and is worth 9.99 coins. -/
theorem MasternodeEnv.dryRun_output {key : CPubKey} (hsig : vin.scriptSig = []) (h : env.dryRun vin key = .ok ()) :
    ∃ out, (env.pool.viewOver env.node.coinsTip).getOutputFor vin.prevout = some out ∧ dummyValue ≤ out.nValue := by
  have hz : (env.dummyTx vin key).hasZerocoinSpendInputs = false := by
    unfold CTransaction.hasZerocoinSpendInputs dummyTx CTxIn.isZerocoinSpend
      CTxIn.isZerocoinPublicSpend
    simp only [any_cons, hsig]
    simp [CScript.isZerocoinSpend, CScript.isZerocoinPublicSpend, CScript.startsWithOpcode]
  have hstake : (env.dummyTx vin key).isCoinStake = false := rfl
  unfold dryRun NodeEnv.acceptableInputs at h
  simp only [bind_eq_ok, require_eq_ok, checkIf_eq_ok] at h
  obtain ⟨_, -, _, hbase, _, -, _, -, _, hhave, _, -, _, -, _, -, _, -, hnow⟩ := h
  have hspends : spendsCoins (env.dummyTx vin key) = true := by
    unfold spendsCoins
    rw [hbase, hz]
    rfl
  obtain ⟨out, hout⟩ := (haveInputs_iff hspends).mp hhave vin mem_cons_self
  refine ⟨out, hout, ?_⟩
  -- the amounts are compared in `CheckInputs`
  have hchecked := hnow (by rw [hz]; rfl)
  unfold NodeEnv.checkInputsNow NodeEnv.checkInputs at hchecked
  simp only [bind_eq_ok] at hchecked
  obtain ⟨nSpendHeight, -, _, ⟨_, -, nValueIn, hvalues, _, hfee, -⟩, -⟩ := hchecked
  unfold checkFee at hfee
  rw [hstake, if_neg (by decide), env.getValueOut_dummyTx vin key] at hfee
  simp only [orStop_some_bind, bind_eq_ok, require_eq_ok] at hfee
  obtain ⟨_, hle, -⟩ := hfee
  obtain ⟨total, hinput, hend⟩ := foldlM_cons_eq_ok.mp hvalues
  have hlast : nValueIn = total := (foldlM_nil_eq_ok.mp hend).symm
  unfold checkTxInput at hinput
  simp only [bind_eq_ok, orStop_eq_ok] at hinput
  obtain ⟨coins, hcoins, _, -, out', hout', _, -, htotal⟩ := hinput
  have hsame : out' = out := by grind [getOutputFor]
  have hsum : total = 0 + out'.nValue := (Except.ok.inj htotal).symm
  rw [hlast, hsum, hsame] at hle
  omega

/-! ## §3. One broadcast. -/

def Collateral (txOf : Uint256 → CTransaction) (hash160 : CPubKey → Uint160) (key : CPubKey) (p : COutPoint) : Prop :=
  ∃ out, (txOf p.hash).vout[p.n]? = some out ∧ out.nValue = 10 * COIN ∧
    out.scriptPubKey = getScriptForDestination (.keyID (hash160 key))

/-- **No other output would pass**: if the transaction of a broadcast has a collateral of its key, each of its outputs
that can be spent and is worth 9.99 coins is one. -/
def MasternodeEnv.SoleCollateral (env : MasternodeEnv) (mnb : CMasternodeBroadcast) : Prop :=
  env.isInputAssociatedWithPubkey mnb.vin mnb.pubKeyCollateralAddress = true →
    ∀ n out, (env.pool.viewOver env.node.coinsTip).getOutputFor ⟨mnb.vin.prevout.hash, n⟩ = some out →
      dummyValue ≤ out.nValue → env.isCollateral mnb.pubKeyCollateralAddress out = true

namespace CMasternodeMan

def outpoints (man : CMasternodeMan) : List COutPoint := man.holdings.map fun h => h.1.prevout

theorem find_eq_none : man.find vin = none ↔ vin.prevout ∉ man.outpoints := by
  unfold find outpoints holdings
  rw [find?_eq_none]
  simp only [map_map, mem_map, not_exists, not_and]
  constructor
  · intro h mn hmn heq
    exact h mn hmn (beq_iff_eq.mpr heq)
  · intro h mn hmn heq
    exact h mn hmn (beq_iff_eq.mp heq)

theorem holdings_remove (man : CMasternodeMan) (vin : CTxIn) : (man.remove vin).holdings.Sublist man.holdings := by
  exact eraseP_sublist.map _

section

variable (man : CMasternodeMan) (env : MasternodeEnv) (mnb : CMasternodeBroadcast)

/-- **What `addNew` lists**: nothing, or the broadcast after a successful dry run, on a new outpoint. -/
theorem holdings_addNew : (man.addNew env mnb).1.holdings = man.holdings ∨
      (env.dryRun mnb.vin mnb.pubKeyCollateralAddress = .ok () ∧ mnb.vin.prevout ∉ man.outpoints ∧
        (man.addNew env mnb).1.holdings = man.holdings ++ [(mnb.vin, mnb.pubKeyCollateralAddress)]) := by
  unfold addNew
  by_cases hlock : env.lockMain = true
  · rw [hlock]
    rw [if_neg (by decide)]
    split
    · exact .inl rfl
    · exact .inl rfl
    · exact .inl rfl
    · next hrun =>
        by_cases hage : env.getInputAge mnb.vin < MASTERNODE_MIN_CONFIRMATIONS
        · rw [if_pos hage]
          exact .inl rfl
        rw [if_neg hage]
        split
        · exact .inl rfl
        · exact .inl rfl
        unfold add
        split_ifs with hadd
        · right
          rw [Bool.and_eq_true, Option.isNone_iff_eq_none] at hadd
          refine ⟨hrun, find_eq_none.mp hadd.2, ?_⟩
          unfold holdings
          rw [map_append]
          rfl
        · exact .inl rfl
  · rw [if_pos (by simpa using hlock)]
    exact .inl rfl

/-- **What `CheckInputsAndAdd` lists.** -/
theorem holdings_checkInputsAndAdd : (man.checkInputsAndAdd env mnb).1.holdings.Sublist man.holdings ∨
      ∃ kept : List (CTxIn × CPubKey), kept.Sublist man.holdings ∧ mnb.vin.prevout ∉ kept.map (fun h => h.1.prevout) ∧
        env.dryRun mnb.vin mnb.pubKeyCollateralAddress = .ok () ∧
        (man.checkInputsAndAdd env mnb).1.holdings = kept ++ [(mnb.vin, mnb.pubKeyCollateralAddress)] := by
  unfold checkInputsAndAdd
  split
  · exact .inl (.refl _)
  split
  · exact .inl (.refl _)
  · exact .inl (.refl _)
  split
  · rcases man.holdings_addNew env mnb with heq | ⟨hrun, hnew, heq⟩
    · rw [heq]
      exact .inl (.refl _)
    · exact .inr ⟨_, .refl _, hnew, hrun, heq⟩
  · next mn hmn =>
      split_ifs with henabled
      · exact .inl (.refl _)
      -- the old entry goes first
      have hsub := man.holdings_remove mn.vin
      rcases (man.remove mn.vin).holdings_addNew env mnb with heq | ⟨hrun, hnew, heq⟩
      · rw [heq]
        exact .inl hsub
      · exact .inr ⟨_, hsub, hnew, hrun, heq⟩

/-- **What a broadcast lists**: fewer masternodes, or one more that passed the checks. -/
theorem holdings_processBroadcast : (man.processBroadcast env mnb).1.holdings.Sublist man.holdings ∨
      ∃ kept : List (CTxIn × CPubKey), kept.Sublist man.holdings ∧ mnb.vin.prevout ∉ kept.map (fun h => h.1.prevout) ∧
        env.dryRun mnb.vin mnb.pubKeyCollateralAddress = .ok () ∧
        mnb.vin.scriptSig = [] ∧ env.signer.checkSignature env.keyID mnb = true ∧
        env.isInputAssociatedWithPubkey mnb.vin mnb.pubKeyCollateralAddress = true ∧
        (man.processBroadcast env mnb).1.holdings = kept ++ [(mnb.vin, mnb.pubKeyCollateralAddress)] := by
  unfold processBroadcast
  by_cases hoff : (env.fLiteMode || !env.blockchainSynced) = true
  · rw [if_pos hoff]
    exact .inl (.refl _)
  rw [if_neg hoff]
  dsimp only
  by_cases hseen : (man.mapSeenMasternodeBroadcast.get
      (env.signer.broadcastHash mnb.sigTime mnb.pubKeyCollateralAddress)).isSome = true
  · rw [if_pos hseen]
    exact .inl (.refl _)
  rw [if_neg hseen]
  generalize hman : ({ man with mapSeenMasternodeBroadcast := _ } : CMasternodeMan) = seen
  have hsame : seen.holdings = man.holdings := by
    rw [← hman]
    rfl
  cases hchecked : seen.checkAndUpdate env mnb with
  | mk man' r =>
    obtain ⟨hkept, hfacts⟩ := checkAndUpdate_eq hchecked
    rw [hsame] at hkept
    cases r with
    | accepted =>
      split_ifs with hassoc
      · grind [man'.holdings_checkInputsAndAdd]
      · left
        rw [← hkept]
    | rejected | thrown =>
      left
      rw [← hkept]

end

end CMasternodeMan

/-! ## §4. Runs of messages. -/

/-- A message, with the node as it is when the message comes. -/
inductive MasternodeMessage where
  | broadcast (env : MasternodeEnv) (mnb : CMasternodeBroadcast)
  | ping (env : MasternodeEnv) (ping : CMasternodePing)

def CMasternodeMan.handle (man : CMasternodeMan) : MasternodeMessage → CMasternodeMan
  | .broadcast env mnb => (man.processBroadcast env mnb).1
  | .ping env ping => man.processPing env ping

def masternodeRun (messages : List MasternodeMessage) : CMasternodeMan := messages.foldl CMasternodeMan.handle {}

/-- The node hashes keys with `hash160` and names transactions as `txOf` does. -/
def MasternodeMessage.Fits (txOf : Uint256 → CTransaction) (hash160 : CPubKey → Uint160) :
    MasternodeMessage → Prop
  | .broadcast env _ =>
    env.node.crypto.hash160 = hash160 ∧ env.node.Catalogued txOf ∧ env.pool.Catalogued txOf
  | .ping _ _ => True

def MasternodeMessage.SoleCollateral : MasternodeMessage → Prop
  | .broadcast env mnb => env.SoleCollateral mnb
  | .ping _ _ => True

/-- One of the messages is a broadcast of this input and key with a valid signature. -/
def SignedIn (messages : List MasternodeMessage) (vin : CTxIn) (key : CPubKey) : Prop :=
  ∃ env mnb, MasternodeMessage.broadcast env mnb ∈ messages ∧ mnb.vin = vin ∧
    mnb.pubKeyCollateralAddress = key ∧ env.signer.checkSignature env.keyID mnb = true

structure ListInv (txOf : Uint256 → CTransaction) (hash160 : CPubKey → Uint160)
    (messages : List MasternodeMessage) (holdings : List (CTxIn × CPubKey)) : Prop where
  backed : ∀ h ∈ holdings, Collateral txOf hash160 h.2 h.1.prevout ∧ SignedIn messages h.1 h.2
  distinct : (holdings.map fun h => h.1.prevout).Nodup

section runs

variable {txOf : Uint256 → CTransaction} {hash160 : CPubKey → Uint160} {messages : List MasternodeMessage}

theorem ListInv.sublist {holdings holdings' : List (CTxIn × CPubKey)}
    (h : ListInv txOf hash160 messages holdings) (hsub : holdings'.Sublist holdings) :
    ListInv txOf hash160 messages holdings' :=
  ⟨fun x hx => h.backed x (hsub.subset hx), h.distinct.sublist (hsub.map _)⟩

/-- The named output is the collateral, if no other output would pass. -/
theorem MasternodeEnv.collateral_of_sole
    (henv : env.node.Catalogued txOf) (hpool : env.pool.Catalogued txOf) (hsole : env.SoleCollateral mnb)
    (hassoc : env.isInputAssociatedWithPubkey mnb.vin mnb.pubKeyCollateralAddress = true)
    (hsig : mnb.vin.scriptSig = []) (hrun : env.dryRun mnb.vin mnb.pubKeyCollateralAddress = .ok ()) :
    Collateral txOf env.node.crypto.hash160 mnb.pubKeyCollateralAddress mnb.vin.prevout := by
  obtain ⟨out, hout, hvalue⟩ := dryRun_output hsig hrun
  have hcollateral := hsole hassoc mnb.vin.prevout.n out hout hvalue
  unfold isCollateral at hcollateral
  rw [Bool.and_eq_true, beq_iff_eq, beq_iff_eq] at hcollateral
  exact ⟨out, (henv.viewOver hpool hout).1, hcollateral⟩

/-- **One message.** -/
theorem ListInv.handle {message : MasternodeMessage}
    (h : ListInv txOf hash160 messages man.holdings) (hmem : message ∈ messages)
    (hfits : message.Fits txOf hash160) (hsole : message.SoleCollateral) :
    ListInv txOf hash160 messages (man.handle message).holdings := by
  cases message with
  | ping env ping =>
    unfold CMasternodeMan.handle
    rw [CMasternodeMan.holdings_processPing]
    exact h
  | broadcast env mnb =>
    obtain ⟨hhash, henv, hpool⟩ := hfits
    rcases man.holdings_processBroadcast env mnb with hsub | ⟨kept, hsub, hnew, hrun, hsig, hsigned, hassoc, heq⟩
    · exact h.sublist hsub
    have hkept := h.sublist hsub
    show ListInv txOf hash160 messages (man.processBroadcast env mnb).1.holdings
    rw [heq]
    refine ⟨?_, ?_⟩
    · intro x hx
      rcases mem_append.mp hx with hold | hadded
      · exact hkept.backed x hold
      · rw [mem_singleton.mp hadded, ← hhash]
        exact ⟨collateral_of_sole henv hpool hsole hassoc hsig hrun, env, mnb, hmem, rfl, rfl, hsigned⟩
    · rw [map_append, nodup_append]
      refine ⟨hkept.distinct, by simp, ?_⟩
      intro p hp q hq heq'
      have hq' : q = mnb.vin.prevout := by simpa using hq
      rw [heq', hq'] at hp
      exact hnew hp

theorem masternodeRun_inv (hfits : ∀ m ∈ messages, m.Fits txOf hash160) (hsole : ∀ m ∈ messages, m.SoleCollateral) :
    ListInv txOf hash160 messages (masternodeRun messages).holdings := by
  refine foldlRecOn (motive := fun man : CMasternodeMan => ListInv txOf hash160 messages man.holdings) messages _
    ⟨by simp [holdings], by simp [holdings]⟩ fun man hman message hmem => ?_
  exact hman.handle hmem (hfits message hmem) (hsole message hmem)

/-- **Every listed masternode stands on ten coins of its key**, in every run of messages each of
which names a transaction with no other output that would pass; so a key has at most as
many masternodes as ten-coin outputs. -/
theorem masternodes_backed (txOf : Uint256 → CTransaction) (hash160 : CPubKey → Uint160)
    (messages : List MasternodeMessage) (hfits : ∀ m ∈ messages, m.Fits txOf hash160)
    (hsole : ∀ m ∈ messages, m.SoleCollateral) : (∀ mn ∈ (masternodeRun messages).vMasternodes,
      Collateral txOf hash160 mn.pubKeyCollateralAddress mn.vin.prevout ∧
        SignedIn messages mn.vin mn.pubKeyCollateralAddress) ∧
    ∀ key (coins : List COutPoint), (∀ p, Collateral txOf hash160 key p → p ∈ coins) →
      ((masternodeRun messages).vMasternodes.filter fun mn => mn.pubKeyCollateralAddress == key).length
        ≤ coins.length := by
  have hinv := masternodeRun_inv hfits hsole
  have hbacked : ∀ mn ∈ (masternodeRun messages).vMasternodes,
      Collateral txOf hash160 mn.pubKeyCollateralAddress mn.vin.prevout ∧
        SignedIn messages mn.vin mn.pubKeyCollateralAddress :=
    fun mn hmn => hinv.backed mn.holding (mem_map_of_mem hmn)
  refine ⟨hbacked, ?_⟩
  intro key coins hcoins
  -- distinct outpoints, all among the coins of the key
  have hnodup : (((masternodeRun messages).vMasternodes.filter fun mn =>
      mn.pubKeyCollateralAddress == key).map fun mn => mn.vin.prevout).Nodup := by
    have hall : ((masternodeRun messages).vMasternodes.map fun mn => mn.vin.prevout).Nodup := by
      have hdistinct := hinv.distinct
      unfold holdings at hdistinct
      rw [map_map] at hdistinct
      exact hdistinct
    exact hall.sublist (filter_sublist.map _)
  have hsubset : (((masternodeRun messages).vMasternodes.filter fun mn =>
      mn.pubKeyCollateralAddress == key).map fun mn => mn.vin.prevout) ⊆ coins := by grind
  have hle := (hnodup.subperm hsubset).length_le
  rw [length_map] at hle
  exact hle

end runs

def firstByteID (key : CPubKey) : Uint160 := sampleKey (key.headD 0)

def collateralTx (out : CTxOut) : CTransaction :=
  { hash := 7
    vin := [.of 6 0]
    vout := [⟨10 * COIN, payTo 1⟩, out] }

def collateralTxOf (out : CTxOut) (hash : Uint256) : CTransaction := { collateralTx out with hash := hash }

/-- A signature is the id of its key; hashes are told apart by their first argument. -/
def sampleSigner : MessageSigner where
  pingHash := fun _ _ sigTime => BitVec.ofInt 256 sigTime
  broadcastHash := fun sigTime _ => BitVec.ofInt 256 sigTime
  signatureHash := fun _ _ sigTime _ _ _ => BitVec.ofInt 256 sigTime
  messageHash := fun _ => 0
  verifyHash := fun _ keyID vchSig => vchSig == keyID.1
  hexOf := fun _ => ""
  serviceToString := fun _ => ""
  keyIDToString := fun _ => ""
  txInToString := fun _ => ""
  txid := fun _ _ => 99

def masternodeEnv (out : CTxOut) : MasternodeEnv where
  node :=
    { plainNode 400 (oneEntryView { paymentEntry with vout := (collateralTx out).vout }) with
      crypto := { plainCrypto with hash160 := firstByteID }
      mapBlockIndex := fun hash => if hash = 900 then some 399 else if hash = 500 then some 201 else none
      fTxIndex := true
      txIndex := fun hash => if hash = 7 then some (collateralTx out, 500) else none }
  policy := plainPolicy
  pool := CTxMemPool.empty
  signer := sampleSigner
  time := 1602000000
  lockMain := true
  shutdownRequested := false
  fLiteMode := false
  blockchainSynced := true
  minProto := 80002
  fMasterNode := false
  activePrevout := ⟨0, 0⟩
  activePubKey := []

def collateralBroadcast (n : Nat) (sigTime : Int) : CMasternodeBroadcast where
  vin := .of 7 n
  addr := ⟨[10, 0, 0, 1], 12300⟩
  pubKeyCollateralAddress := [1]
  pubKeyMasternode := [3]
  vchSig := (sampleKey 1).1
  sigTime := sigTime
  protocolVersion := 80002
  lastPing := ⟨.of 7 n, 900, sigTime, [], 1⟩
  nMessVersion := 1

theorem masternodeEnv_fits (out : CTxOut) (mnb : CMasternodeBroadcast) :
    (MasternodeMessage.broadcast (masternodeEnv out) mnb).Fits (collateralTxOf out) firstByteID := by
  refine ⟨rfl, ⟨?_, ?_, ?_⟩, .empty _⟩
  · intro hash tx hashBlock h
    unfold masternodeEnv at h
    dsimp only at h
    split_ifs at h with hash7
    cases h
    rw [hash7]
    rfl
  · intro block hblock tx htx
    rw [eq_of_mem_replicate hblock] at htx
    cases htx
  · intro hash coins h n o ho _
    obtain ⟨-, rfl⟩ := oneEntryView_lookup h
    exact ho

/-- With five coins beside the collateral, only the collateral can be announced. -/
theorem fiveCoins_backed :
    ((masternodeRun [.broadcast (masternodeEnv ⟨5 * COIN, []⟩) (collateralBroadcast 0 1602000000)]).vMasternodes.map
      fun mn => (mn.vin.prevout, mn.pubKeyCollateralAddress)) = [(⟨7, 0⟩, [1])] ∧
    Collateral (collateralTxOf ⟨5 * COIN, []⟩) firstByteID [1] ⟨7, 0⟩ := by
  have hlisted : ∃ mn ∈ (masternodeRun [.broadcast (masternodeEnv ⟨5 * COIN, []⟩)
      (collateralBroadcast 0 1602000000)]).vMasternodes,
      mn.pubKeyCollateralAddress = [1] ∧ mn.vin.prevout = ⟨7, 0⟩ := by decide +kernel
  refine ⟨by decide +kernel, ?_⟩
  obtain ⟨mn, hmn, hkey, hprevout⟩ := hlisted
  rw [← hkey, ← hprevout]
  refine ((masternodes_backed _ firstByteID _ (forall_mem_singleton.mpr (masternodeEnv_fits _ _))
    (forall_mem_singleton.mpr ?_)).1 mn hmn).1
  intro _ n out hout hvalue
  obtain ⟨coins, hcoins, hget, -⟩ := unspent_eq_some.mp
    (getOutputFor_eq_some_iff.mp hout).1
  have hbase : (oneEntryView { paymentEntry with vout := (collateralTx ⟨5 * COIN, []⟩).vout }).lookup 7
      = some coins := hcoins
  have hentry := (oneEntryView_lookup hbase).2
  rw [hentry] at hget
  match n, hget with
  | 0, hget =>
    cases hget
    decide +kernel
  | 1, hget =>
    cases hget
    exact absurd hvalue (by decide)

/-- **A borrowed collateral**: with ten coins of another key beside its own, key 1 lists a second masternode. -/
theorem borrowed_collateral_listed :
    let out : CTxOut := ⟨10 * COIN, payTo 2⟩
    let messages : List MasternodeMessage :=
      [.broadcast (masternodeEnv out) (collateralBroadcast 0 1602000000),
        .broadcast (masternodeEnv out) (collateralBroadcast 1 1602000001)]
    (∀ m ∈ messages, m.Fits (collateralTxOf out) firstByteID) ∧
    ((masternodeRun messages).vMasternodes.map fun mn => (mn.vin.prevout, mn.pubKeyCollateralAddress))
      = [(⟨7, 0⟩, [1]), (⟨7, 1⟩, [1])] ∧
    ¬ Collateral (collateralTxOf out) firstByteID [1] ⟨7, 1⟩ := by
  intro out messages
  refine ⟨?_, by decide +kernel, ?_⟩
  · grind [masternodeEnv_fits]
  rintro ⟨o, hget, -, hscript⟩
  have ho : o = out := (Option.some.inj hget).symm
  rw [ho] at hscript
  exact absurd hscript (by decide)

end PwrbCore
