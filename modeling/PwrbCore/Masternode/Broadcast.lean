/-
  Masternode.Broadcast — THE MASTERNODE LIST AND ITS MESSAGES (`masternode.cpp`, `masternodeman.cpp`).

  A broadcast announces a masternode by the outpoint of its collateral and a key; a ping
  keeps it alive.  Handlers are functions on `CMasternodeMan`, the list with the messages seen
  so far.  Relaying, `addrman`, the counters of `masternodeSync` and remote activation are
  left out: no handler reads them.
-/
import PwrbCore.Node.NetAddress
import PwrbCore.Mempool.Accept

namespace PwrbCore

/-! ## §1. Messages and signatures. -/

abbrev CPubKey := List UInt8

/-- `MessageVersion::MESS_VER_HASH`; every other version signs a string. -/
def MESS_VER_HASH : Int := 1

structure CMasternodePing where
  vin : CTxIn
  blockHash : Uint256
  sigTime : Int
  vchSig : List UInt8
  nMessVersion : Int
  deriving DecidableEq, Repr

/-- `lastPing == CMasternodePing()`: the comparison is on `vin` and `blockHash`. -/
def CMasternodePing.isDefault (ping : CMasternodePing) : Bool :=
  ping.vin == .of 0 UINT32_MAX && ping.blockHash == 0

/-- `CMasternodeBroadcast` as it is received. -/
structure CMasternodeBroadcast where
  vin : CTxIn
  addr : CService
  pubKeyCollateralAddress : CPubKey
  pubKeyMasternode : CPubKey
  vchSig : List UInt8
  sigTime : Int
  protocolVersion : Int
  lastPing : CMasternodePing
  nMessVersion : Int
  deriving DecidableEq, Repr

/-- Hashing, recovery of keys and the printing of what string messages are made of. -/
structure MessageSigner where
  /-- `CMasternodePing::GetHash`; the block hash is hashed in new messages only -/
  pingHash : CTxIn → Option Uint256 → Int → Uint256
  /-- `CMasternodeBroadcast::GetHash`: of `sigTime` and `pubKeyCollateralAddress` -/
  broadcastHash : Int → CPubKey → Uint256
  /-- `CMasternode::GetSignatureHash` -/
  signatureHash : Int → CService → Int → CPubKey → CPubKey → Int → Uint256
  /-- `CMessageSigner::GetMessageHash` -/
  messageHash : String → Uint256
  /-- `CHashSigner::VerifyHash`: the key recovered from the signature has the id -/
  verifyHash : Uint256 → Uint160 → List UInt8 → Bool
  hexOf : Uint256 → String
  serviceToString : CService → String
  keyIDToString : Uint160 → String
  txInToString : CTxIn → String
  /-- the id of a transaction put together from inputs and outputs -/
  txid : List CTxIn → List CTxOut → Uint256

namespace MessageSigner

section

variable (s : MessageSigner)

def verifyMessage (keyID : Uint160) (vchSig : List UInt8) (strMessage : String) : Bool :=
  s.verifyHash (s.messageHash strMessage) keyID vchSig

/-- `CMasternodePing::GetHash`. -/
def hashOfPing (ping : CMasternodePing) : Uint256 :=
  s.pingHash ping.vin (if ping.nMessVersion = MESS_VER_HASH then some ping.blockHash else none) ping.sigTime

/-- `CMasternodePing::GetStrMessage`. -/
def strMessageOfPing (ping : CMasternodePing) : String :=
  s.txInToString ping.vin ++ s.hexOf ping.blockHash ++ toString ping.sigTime

/-- `CSignedMessage::CheckSignature` of a ping. -/
def checkPingSignature (ping : CMasternodePing) (keyID : Uint160) : Bool :=
  if ping.nMessVersion = MESS_VER_HASH then s.verifyHash (s.hashOfPing ping) keyID ping.vchSig
  else s.verifyMessage keyID ping.vchSig (s.strMessageOfPing ping)

/-- `CMasternode::GetStrMessage`. -/
def strMessage (hash160 : CPubKey → Uint160) (mnb : CMasternodeBroadcast) : String :=
  s.serviceToString mnb.addr ++ toString mnb.sigTime ++ s.keyIDToString (hash160 mnb.pubKeyCollateralAddress)
    ++ s.keyIDToString (hash160 mnb.pubKeyMasternode) ++ toString mnb.protocolVersion

/-- `CMasternodeBroadcast::CheckSignature`. Neither form of the message has the outpoint. -/
def checkSignature (hash160 : CPubKey → Uint160) (mnb : CMasternodeBroadcast) : Bool :=
  let message :=
    if mnb.nMessVersion = MESS_VER_HASH then
      s.hexOf (s.signatureHash mnb.nMessVersion mnb.addr mnb.sigTime mnb.pubKeyCollateralAddress
        mnb.pubKeyMasternode mnb.protocolVersion)
    else s.strMessage hash160 mnb
  s.verifyMessage (hash160 mnb.pubKeyCollateralAddress) mnb.vchSig message

end

end MessageSigner

/-! ## §2. The node around the list. -/

structure MasternodeEnv where
  node : NodeEnv
  policy : RelayPolicy
  pool : CTxMemPool
  signer : MessageSigner
  /-- `GetTime()` -/
  time : Int
  /-- `TRY_LOCK(cs_main, …)` succeeds -/
  lockMain : Bool
  shutdownRequested : Bool
  fLiteMode : Bool
  /-- `masternodeSync.IsBlockchainSynced()` -/
  blockchainSynced : Bool
  /-- `GetMinMasternodePaymentsProto()` -/
  minProto : Int
  fMasterNode : Bool
  /-- `activeMasternode.vin.prevout` and `activeMasternode.pubKeyMasternode` -/
  activePrevout : COutPoint
  activePubKey : CPubKey

namespace MasternodeEnv

def adjustedTime (env : MasternodeEnv) : Int := env.node.loc.adjustedTime

def keyID (env : MasternodeEnv) (key : CPubKey) : Uint160 := env.node.crypto.hash160 key

/-- `GetScriptForDestination(pubKey.GetID())`. -/
def payee (env : MasternodeEnv) (key : CPubKey) : CScript := getScriptForDestination (.keyID (env.keyID key))

/-- `GetTransaction`, which looks in the pool first. -/
def getTransaction (env : MasternodeEnv) (hash : Uint256) : Option (CTransaction × Uint256) :=
  (env.node.withPool env.pool).getTransaction hash

end MasternodeEnv

/-- `9.99 * COIN`, a product of doubles. -/
def dummyValue : Int :=
  ((⟨5623870034678907, -49, by decide⟩ : Binary64).mul (Binary64.ofInt COIN)).toInt

/-- The transaction of the dry run: it spends the collateral to the bare key. -/
def MasternodeEnv.dummyTx (env : MasternodeEnv) (vin : CTxIn) (key : CPubKey) : CTransaction :=
  let vout := [⟨dummyValue, CScript.pushData key ++ [OP_CHECKSIG]⟩]
  { hash := env.signer.txid [vin] vout, vin := [vin], vout := vout }

/-- `AcceptableInputs(mempool, state, tx, false, NULL)` of the dry run. -/
def MasternodeEnv.dryRun (env : MasternodeEnv) (vin : CTxIn) (key : CPubKey) : Validated Unit :=
  env.node.acceptableInputs env.policy env.pool (env.dummyTx vin key) false false false

def MasternodeEnv.getInputAge (env : MasternodeEnv) (vin : CTxIn) : Int :=
  match (env.pool.viewOver env.node.coinsTip).accessCoins vin.prevout.hash with
  | some coins => if coins.nHeight < 0 then 0 else env.node.chainHeight + 1 - coins.nHeight
  | none => -1

/-! ## §3. Masternodes. -/

def MASTERNODE_MIN_CONFIRMATIONS : Int := 15
def MASTERNODE_MIN_MNP_SECONDS : Int := 10 * 60
def MASTERNODE_MIN_MNB_SECONDS : Int := 5 * 60
def MASTERNODE_EXPIRATION_SECONDS : Int := 120 * 60
def MASTERNODE_REMOVAL_SECONDS : Int := 130 * 60
def MASTERNODE_CHECK_SECONDS : Int := 5

/-- `CMasternode::state`, as far as anything is set to it. -/
inductive MasternodeState where
  | preEnabled
  | enabled
  | expired
  | remove
  | vinSpent
  deriving DecidableEq, Repr

structure CMasternode where
  vin : CTxIn
  addr : CService
  pubKeyCollateralAddress : CPubKey
  pubKeyMasternode : CPubKey
  vchSig : List UInt8
  sigTime : Int
  protocolVersion : Int
  lastPing : CMasternodePing
  nMessVersion : Int
  activeState : MasternodeState := .enabled
  lastTimeChecked : Int := 0
  deriving DecidableEq, Repr

/-- `CMasternode mn(mnb)`: a received broadcast has the state of a new masternode. -/
def CMasternodeBroadcast.toMasternode (mnb : CMasternodeBroadcast) : CMasternode where
  vin := mnb.vin
  addr := mnb.addr
  pubKeyCollateralAddress := mnb.pubKeyCollateralAddress
  pubKeyMasternode := mnb.pubKeyMasternode
  vchSig := mnb.vchSig
  sigTime := mnb.sigTime
  protocolVersion := mnb.protocolVersion
  lastPing := mnb.lastPing
  nMessVersion := mnb.nMessVersion

namespace CMasternode

def isEnabled (mn : CMasternode) : Bool := mn.activeState == .enabled

def isBroadcastedWithin (mn : CMasternode) (adjustedTime seconds : Int) : Bool :=
  decide (adjustedTime - mn.sigTime < seconds)

/-- `IsPingedWithin`; `-1` stands for now. -/
def isPingedWithin (mn : CMasternode) (adjustedTime seconds : Int) (now : Int := -1) : Bool :=
  let now := if now = -1 then adjustedTime else now
  if mn.lastPing.isDefault then false else decide (now - mn.lastPing.sigTime < seconds)

/-- The end of `Check`: is the collateral unspent? The flag marks an exception. -/
def checkInputs (env : MasternodeEnv) (mn : CMasternode) : CMasternode × Bool :=
  if !env.lockMain then (mn, false)
  else
    match env.dryRun mn.vin mn.pubKeyCollateralAddress with
    | .ok _ => ({ mn with activeState := .enabled }, false)
    | .error .thrown => (mn, true)
    | .error _ => ({ mn with activeState := .vinSpent }, false)

/-- `CMasternode::Check`. -/
def check (env : MasternodeEnv) (mn : CMasternode) (forceCheck : Bool) : CMasternode × Bool :=
  if env.shutdownRequested then (mn, false)
  else if !forceCheck && decide (env.time - mn.lastTimeChecked < MASTERNODE_CHECK_SECONDS) then (mn, false)
  else
    let mn := { mn with lastTimeChecked := env.time }
    if mn.activeState = .vinSpent then (mn, false)
    else if !mn.isPingedWithin env.adjustedTime MASTERNODE_REMOVAL_SECONDS then
      ({ mn with activeState := .remove }, false)
    else if !mn.isPingedWithin env.adjustedTime MASTERNODE_EXPIRATION_SECONDS then
      ({ mn with activeState := .expired }, false)
    else if mn.lastPing.sigTime - mn.sigTime < MASTERNODE_MIN_MNP_SECONDS then
      ({ mn with activeState := .preEnabled }, false)
    else mn.checkInputs env

end CMasternode

/-- The output is worth ten coins and pays the key. -/
def MasternodeEnv.isCollateral (env : MasternodeEnv) (key : CPubKey) (out : CTxOut) : Bool :=
  out.nValue == 10 * COIN && out.scriptPubKey == env.payee key

/-- `IsInputAssociatedWithPubkey`: some output is a collateral of the key. -/
def MasternodeEnv.isInputAssociatedWithPubkey (env : MasternodeEnv) (vin : CTxIn) (key : CPubKey) : Bool :=
  match env.getTransaction vin.prevout.hash with
  | some (txVin, _) => txVin.vout.any (env.isCollateral key)
  | none => false

/-! ## §4. The list. -/

/-- The list, and the messages seen. -/
structure CMasternodeMan where
  vMasternodes : List CMasternode := []
  mapSeenMasternodeBroadcast : StdMap Uint256 CMasternodeBroadcast := ∅
  mapSeenMasternodePing : StdMap Uint256 CMasternodePing := ∅

inductive Handled where
  | accepted
  | rejected (nDoS : Nat)
  | thrown
  deriving DecidableEq, Repr

def updateFirst (prevout : COutPoint) (f : CMasternode → CMasternode) : List CMasternode → List CMasternode
  | [] => []
  | mn :: rest => if mn.vin.prevout = prevout then f mn :: rest else mn :: updateFirst prevout f rest

namespace CMasternodeMan

def find (man : CMasternodeMan) (vin : CTxIn) : Option CMasternode :=
  man.vMasternodes.find? fun mn => mn.vin.prevout == vin.prevout

/-- `Remove(vin)`: the first masternode with exactly that input. -/
def remove (man : CMasternodeMan) (vin : CTxIn) : CMasternodeMan :=
  { man with vMasternodes := man.vMasternodes.eraseP fun mn => mn.vin == vin }

def add (man : CMasternodeMan) (mn : CMasternode) : CMasternodeMan :=
  if mn.isEnabled && (man.find mn.vin).isNone then { man with vMasternodes := man.vMasternodes ++ [mn] } else man

def update (man : CMasternodeMan) (vin : CTxIn) (f : CMasternode → CMasternode) : CMasternodeMan :=
  { man with vMasternodes := updateFirst vin.prevout f man.vMasternodes }

def check (man : CMasternodeMan) (env : MasternodeEnv) (vin : CTxIn) (forceCheck : Bool) :
    CMasternodeMan × Option (CMasternode × Bool) :=
  (man.update vin fun mn => (mn.check env forceCheck).1, (man.find vin).map fun mn => mn.check env forceCheck)

/-! ## §5. Pings. -/

section

variable (man : CMasternodeMan) (env : MasternodeEnv) (ping : CMasternodePing)

/-- A new, properly signed ping: stored in the masternode and the broadcast it came with; the masternode is checked.
-/
def storePing (mn : CMasternode) : CMasternodeMan × Handled :=
  let hash := env.signer.broadcastHash mn.sigTime mn.pubKeyCollateralAddress
  let seen :=
    match man.mapSeenMasternodeBroadcast.get hash with
    | some mnb => man.mapSeenMasternodeBroadcast.set hash { mnb with lastPing := ping }
    | none => man.mapSeenMasternodeBroadcast
  let man := { man.update ping.vin fun mn => { mn with lastPing := ping } with mapSeenMasternodeBroadcast := seen }
  let (man, checked) := man.check env ping.vin true
  match checked with
  | some (_, true) => (man, .thrown)
  | some (mn, false) => (man, if mn.isEnabled then .accepted else .rejected 0)
  | none => (man, .rejected 0)

/-- The block of a ping is in the active chain and at most 24 blocks deep. -/
def pingBlockFits (env : MasternodeEnv) (blockHash : Uint256) : Bool :=
  match env.node.mapBlockIndex blockHash with
  | none => false
  | some nHeight =>
    (env.node.chain.any fun block => block.hash == blockHash) && decide (env.node.chainHeight - nHeight ≤ 24)

/-- `CMasternodePing::CheckAndUpdate`. -/
def checkAndUpdatePing (fRequireEnabled fCheckSigTimeOnly : Bool) : CMasternodeMan × Handled :=
  if env.adjustedTime + 60 * 60 < ping.sigTime then (man, .rejected 1)
  else if ping.sigTime ≤ env.adjustedTime - 60 * 60 then (man, .rejected 1)
  else
    match man.find ping.vin with
    | none => (man, if fCheckSigTimeOnly then .accepted else .rejected 0)
    | some mn =>
      let isSignatureValid := env.signer.checkPingSignature ping (env.keyID mn.pubKeyMasternode)
      if fCheckSigTimeOnly then (man, if isSignatureValid then .accepted else .rejected 33)
      else if mn.protocolVersion < env.minProto then (man, .rejected 0)
      else if fRequireEnabled && !mn.isEnabled then (man, .rejected 0)
      else if mn.isPingedWithin env.adjustedTime (MASTERNODE_MIN_MNP_SECONDS - 60) ping.sigTime then
        (man, .rejected 0)
      else if !isSignatureValid then (man, .rejected 33)
      else if !pingBlockFits env ping.blockHash then (man, .rejected 0)
      else man.storePing env ping mn

/-- `ProcessMessage` of a ping. -/
def processPing : CMasternodeMan :=
  if env.fLiteMode || !env.blockchainSynced then man
  else
    let hash := env.signer.hashOfPing ping
    if (man.mapSeenMasternodePing.get hash).isSome then man
    else
      ({ man with mapSeenMasternodePing := man.mapSeenMasternodePing.set hash ping }.checkAndUpdatePing env ping
        true false).1

end

/-! ## §6. Broadcasts. -/

section

variable (man : CMasternodeMan) (env : MasternodeEnv) (mnb : CMasternodeBroadcast)

/-- The ping that comes with a broadcast is there and its time is right. -/
def lastPingFits : Handled :=
  if mnb.lastPing.isDefault then .rejected 0 else (man.checkAndUpdatePing env mnb.lastPing false true).2

/-- `CMasternode::UpdateFromNewBroadcast`, on `Find(mnb.vin)`, for a newer broadcast. -/
def updateFromNewBroadcast : CMasternodeMan × Handled :=
  let man := man.update mnb.vin fun mn =>
    { mn with
      pubKeyMasternode := mnb.pubKeyMasternode
      pubKeyCollateralAddress := mnb.pubKeyCollateralAddress
      sigTime := mnb.sigTime
      vchSig := mnb.vchSig
      protocolVersion := mnb.protocolVersion
      addr := mnb.addr
      lastTimeChecked := 0 }
  let (man, pinged) :=
    if mnb.lastPing.isDefault then (man, .accepted) else man.checkAndUpdatePing env mnb.lastPing false false
  match pinged with
  | .accepted =>
    let hash := env.signer.hashOfPing mnb.lastPing
    ({ man.update mnb.vin fun mn => { mn with lastPing := mnb.lastPing } with
        mapSeenMasternodePing := man.mapSeenMasternodePing.insertNew hash mnb.lastPing }, .accepted)
  | .rejected _ => (man, .accepted)
  | .thrown => (man, .thrown)

/-- The end of `CheckAndUpdate`: the list may know the masternode already. -/
def updateKnown : CMasternodeMan × Handled :=
  match man.find mnb.vin with
  | none => (man, .accepted)
  | some mn =>
    if mnb.sigTime ≤ mn.sigTime then (man, .rejected 0)
    else if !mn.isEnabled then (man, .accepted)
    else if mn.pubKeyCollateralAddress = mnb.pubKeyCollateralAddress
        ∧ mn.isBroadcastedWithin env.adjustedTime MASTERNODE_MIN_MNB_SECONDS = false then
      match man.updateFromNewBroadcast env mnb with
      | (man, .thrown) => (man, .thrown)
      | (man, _) =>
        let (man, checked) := man.check env mnb.vin false
        (man, if checked.any Prod.snd then .thrown else .accepted)
    else (man, .accepted)

/-- The port is the main net's exactly on the main net. -/
def portFits (env : MasternodeEnv) (addr : CService) : Bool :=
  if env.node.params.network = .main then addr.port == 12300 else addr.port != 12300

def MIN_PEER_MNANNOUNCE : Int := 70913

/-- `CMasternodeBroadcast::CheckAndUpdate`. -/
def checkAndUpdate : CMasternodeMan × Handled :=
  if env.adjustedTime + 60 * 60 < mnb.sigTime then (man, .rejected 1)
  else
    match man.lastPingFits env mnb with
    | .rejected nDoS => (man, .rejected nDoS)
    | .thrown => (man, .thrown)
    | .accepted =>
      if mnb.protocolVersion < env.minProto then (man, .rejected 0)
      else if (env.payee mnb.pubKeyCollateralAddress).length ≠ 25 then (man, .rejected 100)
      else if (env.payee mnb.pubKeyMasternode).length ≠ 25 then (man, .rejected 100)
      else if !mnb.vin.scriptSig.isEmpty then (man, .rejected 0)
      else if !env.signer.checkSignature env.keyID mnb then
        (man, .rejected (if mnb.protocolVersion < MIN_PEER_MNANNOUNCE then 0 else 100))
      else if !portFits env mnb.addr then (man, .rejected 0)
      else man.updateKnown env mnb

/-- The block that confirmed the collateral is not younger than the broadcast; `none` where the code reads past the
tip. -/
def sigTimeFits (env : MasternodeEnv) (mnb : CMasternodeBroadcast) : Option Bool :=
  let hashBlock := ((env.getTransaction mnb.vin.prevout.hash).map Prod.snd).getD 0
  match env.node.mapBlockIndex hashBlock with
  | none => some true
  | some nHeight =>
    (env.node.chain[(nHeight + MASTERNODE_MIN_CONFIRMATIONS - 1).toNat]?).map fun block =>
      decide ((block.nTime : Int) ≤ mnb.sigTime)

/-- `mapSeenMasternodeBroadcast.erase(GetHash())`: the broadcast may come again. -/
def forget : CMasternodeMan :=
  let hash := env.signer.broadcastHash mnb.sigTime mnb.pubKeyCollateralAddress
  { man with mapSeenMasternodeBroadcast := man.mapSeenMasternodeBroadcast.remove hash }

/-- `CheckInputsAndAdd` from the dry run on. -/
def addNew : CMasternodeMan × Handled :=
  if !env.lockMain then (man.forget env mnb, .rejected 0)
  else
    match env.dryRun mnb.vin mnb.pubKeyCollateralAddress with
    | .error (.invalid nDoS _ _) => (man, .rejected nDoS)
    | .error .thrown => (man, .thrown)
    | .error _ => (man, .rejected 0)
    | .ok _ =>
      if env.getInputAge mnb.vin < MASTERNODE_MIN_CONFIRMATIONS then (man.forget env mnb, .rejected 0)
      else
        match sigTimeFits env mnb with
        | none => (man, .thrown)
        | some false => (man, .rejected 0)
        | some true => (man.add mnb.toMasternode, .accepted)

/-- `CheckInputsAndAdd`: the ping, the collateral and its age, then the entry. -/
def checkInputsAndAdd : CMasternodeMan × Handled :=
  if env.fMasterNode ∧ mnb.vin.prevout = env.activePrevout ∧ mnb.pubKeyMasternode = env.activePubKey then
    (man, .accepted)
  else
    match man.lastPingFits env mnb with
    | .rejected nDoS => (man, .rejected nDoS)
    | .thrown => (man, .thrown)
    | .accepted =>
      match man.find mnb.vin with
      | none => man.addNew env mnb
      | some mn => if mn.isEnabled then (man, .accepted) else (man.remove mn.vin).addNew env mnb

/-- `ProcessMessage` of a broadcast, with the penalty for the sender. -/
def processBroadcast : CMasternodeMan × Handled :=
  if env.fLiteMode || !env.blockchainSynced then (man, .accepted)
  else
    let hash := env.signer.broadcastHash mnb.sigTime mnb.pubKeyCollateralAddress
    if (man.mapSeenMasternodeBroadcast.get hash).isSome then (man, .accepted)
    else
      let man := { man with mapSeenMasternodeBroadcast := man.mapSeenMasternodeBroadcast.set hash mnb }
      match man.checkAndUpdate env mnb with
      | (man, .accepted) =>
        if env.isInputAssociatedWithPubkey mnb.vin mnb.pubKeyCollateralAddress then man.checkInputsAndAdd env mnb
        else (man, .rejected 33)
      | failed => failed

end

end CMasternodeMan

end PwrbCore
