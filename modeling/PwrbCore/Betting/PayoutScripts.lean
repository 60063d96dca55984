/-
  Betting.PayoutScripts — WHERE THE WINNINGS OF A BET GO.

  `GetBetPayouts` looks up the transaction whose output the bet spends first, takes its
  address, and makes a script for that address.  Each of these steps fails silently, and
  what is left is the empty script.

  Main result: `payout_pays_bettor_iff`.

  The load-bearing part is in `PwrbCore.Script.Satisfaction`: the script made for the
  address asks for the key that was enough for the output itself, whatever its form.
-/
import PwrbCore.Betting.SinglePayment
import PwrbCore.Script.Satisfaction

namespace PwrbCore

open List Option BetEnv ScriptFlags

/-! ## §1. The output a bet spends first. -/

/-- The first input of `tx` spends `spent`, and the transaction found under that hash is that one. -/
def BetEnv.SpendsFirst (env : BetEnv) (tx : CTransaction) (spent : CTxOut) : Prop :=
  ∃ txin vin txPrev, tx.vin = txin :: vin ∧ txPrev.hash = txin.prevout.hash ∧
    txPrev.vout[txin.prevout.n]? = some spent ∧
    ∀ found, env.getTransaction txin.prevout.hash = some found → found = txPrev

/-- `GetTransaction` finds the transaction the first input spends from. -/
def BetEnv.findsPrevious (env : BetEnv) (tx : CTransaction) : Bool :=
  tx.vin.head?.any fun txin => (env.getTransaction txin.prevout.hash).isSome

/-- The payout address is that of the output, if its transaction is found. -/
theorem BetEnv.payoutAddress_eq {env : BetEnv} {tx : CTransaction} {spent : CTxOut} (h : env.SpendsFirst tx spent) :
    env.payoutAddress tx
      = if env.findsPrevious tx then destinationOf env.hash160 spent.scriptPubKey else .noDestination := by
  obtain ⟨txin, vin, txPrev, hvin, -, hout, hfound⟩ := h
  have hfinds : env.findsPrevious tx = (env.getTransaction txin.prevout.hash).isSome := by
    unfold findsPrevious
    rw [hvin]
    rfl
  unfold payoutAddress
  grind

/-! ## §2. Scripts for the address of an output. -/

/-- **`script` pays the owner of `spent`**: not empty, and whoever can satisfy it can satisfy `spent`. -/
def PaysOwner (crypto : ScriptCrypto) (hash160 : List UInt8 → Uint160) (flags : UInt32)
    (script spent : CScript) : Prop :=
  script ≠ [] ∧ ∀ signer : Signer, signer.CanSatisfy crypto hash160 flags script →
    signer.CanSatisfy crypto hash160 flags spent

theorem toUint160_eq_some {vch : List UInt8} {id : Uint160} (h : toUint160 vch = some id) : vch = id.1 := by
  unfold toUint160 at h
  split_ifs at h
  exact congrArg Subtype.val (some.inj h)

theorem getScriptForDestination_scriptHash {s : CScript} (h : s.isPayToScriptHash = true) {id : Uint160}
    (hid : (s.drop 2).take 20 = id.1) : getScriptForDestination (.scriptID id) = s := by
  unfold CScript.isPayToScriptHash at h
  simp only [Bool.and_eq_true, beq_iff_eq] at h
  obtain ⟨⟨⟨hlen, h0⟩, h1⟩, h22⟩ := h
  have hlast : s.drop 22 = [OP_EQUAL] := by
    grind [drop_eq_getElem_cons]
  match s with
  | [] => cases h0
  | [_] => cases h1
  | first :: second :: rest =>
    rw [show first = OP_HASH160 from some.inj h0, show second = 20 from some.inj h1]
    show [OP_HASH160] ++ CScript.pushData id.1 ++ [OP_EQUAL] = _
    rw [pushData_uint160, ← hid, ← hlast]
    show OP_HASH160 :: 20 :: (rest.take 20 ++ rest.drop 20) = OP_HASH160 :: 20 :: rest
    rw [take_append_drop]

section Owners

variable {crypto : ScriptCrypto} {hash160 : List UInt8 → Uint160} {flags : UInt32}

/-- **The script for the address of an output pays its owner.** -/
theorem paysOwner_of_extractDestination (hhash : ∀ vch, crypto.hash160 vch = (hash160 vch).1)
    (hflags : ConsensusFlags flags)
    {spent : CScript} {dest : CTxDestination} (h : extractDestination hash160 spent = some dest) :
    PaysOwner crypto hash160 flags (getScriptForDestination dest) spent := by
  have hkey : ∀ {id : Uint160} {signer : Signer},
    signer.CanSatisfy crypto hash160 flags (getScriptForDestination (.keyID id)) →
      ∃ vchPubKey, pubKeyValid vchPubKey = true ∧ hash160 vchPubKey = id ∧ signer.holds id = true := fun hsat =>
    (Signer.canSatisfy_pubKeyHash_iff hhash hflags _ (solver_keyID _)).mp hsat
  unfold extractDestination at h
  split at h
  next vch _ hsolver =>
    split_ifs at h with hvalid
    cases h
    refine ⟨cons_ne_nil _ _, fun signer hsat => ?_⟩
    obtain ⟨-, -, -, hholds⟩ := hkey hsat
    exact signer.canSatisfy_pubKey hflags hsolver hvalid hholds
  next vch sols hsolver =>
    rw [map_eq_some_iff] at h
    obtain ⟨id, hid, rfl⟩ := h
    refine ⟨cons_ne_nil _ _, fun signer hsat => ?_⟩
    -- the output may push the hash in another way, but its owner is the same
    obtain ⟨_, _, -, -, hsols, -⟩ := decodes_of_solver_pubKeyHash hsolver
    rw [cons.injEq] at hsols
    rw [toUint160_eq_some hid, hsols.2] at hsolver
    exact (signer.canSatisfy_pubKeyHash_iff hhash hflags hsolver).mpr (hkey hsat)
  next vch _ hsolver =>
    rw [map_eq_some_iff] at h
    obtain ⟨id, hid, rfl⟩ := h
    obtain ⟨hscript, hvch⟩ := isPayToScriptHash_of_solver hsolver
    have hsame : getScriptForDestination (.scriptID id) = spent :=
      getScriptForDestination_scriptHash hscript (hvch.symm.trans (toUint160_eq_some hid))
    exact ⟨cons_ne_nil _ _, fun signer hsat => hsame ▸ hsat⟩
  next staker owner _ hsolver =>
    rw [if_neg Bool.false_ne_true, map_eq_some_iff] at h
    obtain ⟨id, hid, rfl⟩ := h
    refine ⟨cons_ne_nil _ _, fun signer hsat => ?_⟩
    obtain ⟨vchPubKey, hvalid, hpub, hholds⟩ := hkey hsat
    rw [toUint160_eq_some hid] at hsolver
    exact signer.canSatisfy_coldStake hhash hflags hsolver hvalid hpub hholds
  next => cases h

end Owners

/-! ## §3. Expected payouts. -/

/-- **An expected payout pays the bettor exactly if the address of the output the bet spends first can be found.** -/
theorem payout_pays_bettor_iff (env : BetEnv) (crypto : ScriptCrypto) (flags : ScriptFlags)
    (hhash : ∀ vch, crypto.hash160 vch = (env.hash160 vch).1) {result : DrawResult}
    {latestDrawStartTime : Int} {slip : BetSlip}
    {entry : CBetOut} (hentry : env.expectedPayout result latestDrawStartTime slip = some (some entry)) {spent : CTxOut}
    (hspent : env.SpendsFirst slip.tx spent) :
    PaysOwner crypto env.hash160 flags.bits entry.scriptPubKey spent.scriptPubKey ↔
      env.findsPrevious slip.tx = true ∧ (extractDestination env.hash160 spent.scriptPubKey).isSome = true := by
  have hscript : entry.scriptPubKey = getScriptForDestination (env.payoutAddress slip.tx) := by
    grind [expectedPayout, map_eq_some_iff]
  rw [hscript, payoutAddress_eq hspent]
  cases hfinds : env.findsPrevious slip.tx with
  | false =>
    -- no transaction, no address, no script
    exact iff_of_false (fun hpays => hpays.1 rfl) fun hfound => Bool.false_ne_true hfound.1
  | true =>
    unfold destinationOf
    cases hdest : extractDestination env.hash160 spent.scriptPubKey with
    | none => exact iff_of_false (fun hpays => hpays.1 rfl) fun hfound => Bool.false_ne_true hfound.2
    | some dest => exact iff_of_true (paysOwner_of_extractDestination hhash flags.bits_consensus hdest) ⟨rfl, rfl⟩

def constantCrypto : ScriptCrypto where
  ripemd160 := id
  sha1 := id
  sha256 := id
  hash160 := fun vch => (sampleHash160 vch).1
  hash256 := id
  checkLowS := fun _ => true

def sampleSlip : BetSlip where
  time := sampleTime 2990
  tx := betTx
  txout := ⟨1 * COIN, OP_RETURN :: CScript.pushData [0x42, 1, 1, 0x2b, 0x3e, 0x34, 0x01, 5, 0, 0, 0, 0, 0]⟩

/-- It spends a pay-to-pubkey-hash output, and the payout goes there. -/
theorem sample_payout_pays_bettor :
    chainEnv.expectedPayout sampleResult 1601780340 sampleSlip = some (some sampleEntry) ∧
      (PaysOwner constantCrypto sampleHash160 (bits {}) sampleEntry.scriptPubKey
          (payTo 1) ↔ chainEnv.findsPrevious betTx = true ∧
          (extractDestination sampleHash160 (payTo 1)).isSome = true) :=
  ⟨by decide +kernel, payout_pays_bettor_iff chainEnv constantCrypto {} (fun _ => rfl)
    (show chainEnv.expectedPayout sampleResult 1601780340 sampleSlip = some (some sampleEntry) by
      decide +kernel)
    ⟨_, [], premineTx, rfl, rfl, rfl, fun found hfound => (some.inj hfound).symm⟩⟩

/-- A bare multisig script with one key, and the premine with it as first output. -/
def bareKey : ValType := 2 :: List.replicate 32 5

def bareMultisig : CScript := OP_1 :: CScript.pushData bareKey ++ [OP_1, OP_CHECKMULTISIG]

def multisigPremine : CTransaction := { premineTx with vout := ⟨10 * COIN, bareMultisig⟩ :: premineTx.vout.tail }

def multisigEnv : BetEnv := ⟨.mainNet, sampleHash160, fun hash => if hash = 7 then some multisigPremine else none⟩

def multisigBlock (i : Nat) : CBlock := if i = 1 then { sampleBlock 1 with vtx := [multisigPremine] } else sampleBlock i

def multisigChain : List CBlock := (List.range 3000).map multisigBlock

theorem multisigBlock_eq {i : Nat} (h : 200 < i) : multisigBlock i = sampleBlock i :=
  if_neg (by omega)

theorem multisig_stakeAmount {i : Nat} (hi : 0 < i) :
    multisigEnv.stakeAmount (sampleCoinstake i) = chainEnv.stakeAmount (sampleCoinstake i) := by
  obtain ⟨k, rfl⟩ : ∃ k, i = k + 1 := ⟨i - 1, by omega⟩
  rfl

/-- The winnings of the bet are due, to nobody in particular. -/
def unownedEntry : CBetOut := { nValue := 12 * COIN, scriptPubKey := [], nBetValue := 1 * COIN }

theorem multisig_getBetPayouts :
    getBetPayouts multisigEnv octoberSpork multisigChain 3000 = some [unownedEntry] := by
  have hquiet : ∀ j, 200 < j → j ≠ 2990 → opReturnCount (multisigBlock j) = 0 := by
    intro j hj hne
    rw [multisigBlock_eq hj, opReturnCount_sampleBlock, if_neg hne]
  have hbet : multisigEnv.expectedPayouts sampleResult 1601780340 [multisigBlock 2990] = some [unownedEntry] := by
    decide +kernel
  have hcompleted : multisigEnv.completedPayouts 1601780340 201 (((range 3000).map multisigBlock).drop 201) = [] := by
    apply window_completedPayouts
    intro j hj hlt
    rw [multisigBlock_eq hj, ← sample_completedOf hj (by omega) (by omega)]
    unfold completedOf payoutOutputs numStakingTx stakingTarget
    rw [sampleBlock_vtx_one hj]
    dsimp only
    rw [multisig_stakeAmount (by omega)]
  unfold multisigChain
  rw [oneBet_getBetPayouts rfl hquiet rfl hbet, hcompleted]
  decide +kernel

/-- The signer with every key, and the one with none. -/
def anySigner (all : Bool) : Signer := ⟨fun _ => all, fun _ => true, fun _ => true⟩

/-- **The winnings of a bet from a bare multisig output go to the empty script**, which anyone can satisfy. -/
theorem multisig_winnings_unowned :
    getBetPayouts multisigEnv octoberSpork multisigChain 3000 = some [unownedEntry] ∧
      multisigBlock 2990 ∈ multisigChain ∧ sampleSlip ∈ betSlips [multisigBlock 2990] ∧
      multisigEnv.expectedPayout sampleResult 1601780340 sampleSlip = some (some unownedEntry) ∧
      multisigEnv.SpendsFirst betTx ⟨10 * COIN, bareMultisig⟩ ∧
      (anySigner true).CanSatisfy constantCrypto sampleHash160 (bits {}) bareMultisig ∧
      (anySigner false).CanSatisfy constantCrypto sampleHash160 (bits {}) unownedEntry.scriptPubKey ∧
      ¬ PaysOwner constantCrypto sampleHash160 (bits {}) unownedEntry.scriptPubKey bareMultisig :=
  ⟨multisig_getBetPayouts, mem_map_of_mem (mem_range.mpr (by omega)), by decide +kernel, by decide +kernel,
    ⟨_, [], multisigPremine, rfl, rfl, rfl, fun found hfound => (some.inj hfound).symm⟩,
    ⟨OP_0 :: CScript.pushData wellFormedSig, by decide +kernel⟩,
    Signer.canSatisfy_nil _ _ (bits_consensus {}), fun hpays => hpays.1 rfl⟩

end PwrbCore
