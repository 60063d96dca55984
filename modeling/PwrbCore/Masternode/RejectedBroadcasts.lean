/-
  Masternode.RejectedBroadcasts — WHAT A REJECTED BROADCAST LEAVES BEHIND.

  A broadcast counts as seen before it is checked, under a hash of its time and its
  collateral key only.  Anyone can send a bad broadcast with the hash of a good one.

  Main result: `rejected_broadcast_harmless_iff`.
-/
import PwrbCore.Masternode.Collateral

namespace PwrbCore

namespace CMasternodeMan

/-- A node that knows no masternode and has seen some broadcasts. -/
def fresh (seen : StdMap Uint256 CMasternodeBroadcast) : CMasternodeMan := { mapSeenMasternodeBroadcast := seen }

variable {env : MasternodeEnv} {mnb : CMasternodeBroadcast} (seen : StdMap Uint256 CMasternodeBroadcast)

/-! ## §1. The broadcasts seen do not matter to the checks. -/

theorem lastPingFits_fresh : (fresh seen).lastPingFits env mnb = (fresh ∅).lastPingFits env mnb := by
  unfold lastPingFits checkAndUpdatePing
  split_ifs <;> rfl

theorem checkAndUpdate_fresh :
    (fresh seen).checkAndUpdate env mnb = (fresh seen, ((fresh ∅).checkAndUpdate env mnb).2) := by
  unfold checkAndUpdate
  rw [lastPingFits_fresh]
  cases (fresh ∅).lastPingFits env mnb <;> dsimp only <;> split_ifs <;> rfl

/-- What can be told from the outside: list, pings and the answer. -/
def outcome (r : CMasternodeMan × Handled) : List CMasternode × StdMap Uint256 CMasternodePing × Handled :=
  (r.1.vMasternodes, r.1.mapSeenMasternodePing, r.2)

theorem addNew_fresh : outcome ((fresh seen).addNew env mnb) = outcome ((fresh ∅).addNew env mnb) := by
  unfold addNew
  cases hlock : env.lockMain with
  | false => rfl
  | true =>
    rw [Bool.not_true, if_neg Bool.false_ne_true, if_neg Bool.false_ne_true]
    split
    · rfl
    · rfl
    · rfl
    · split_ifs
      · rfl
      · split <;> rfl

theorem checkInputsAndAdd_fresh :
    outcome ((fresh seen).checkInputsAndAdd env mnb) = outcome ((fresh ∅).checkInputsAndAdd env mnb) := by
  unfold checkInputsAndAdd
  rw [lastPingFits_fresh]
  split
  · rfl
  · cases (fresh ∅).lastPingFits env mnb with
    | rejected nDoS | thrown => rfl
    | accepted => exact addNew_fresh seen

/-! ## §2. One broadcast after another. -/

variable {seen}

/-- The hash under which a broadcast is seen. -/
def seenHash (env : MasternodeEnv) (mnb : CMasternodeBroadcast) : Uint256 :=
  env.signer.broadcastHash mnb.sigTime mnb.pubKeyCollateralAddress

/-- **An unseen broadcast** counts as seen and goes through the checks. -/
theorem processBroadcast_eq (hon : (env.fLiteMode || !env.blockchainSynced) = false)
    (hnew : seen.get (seenHash env mnb) = none) : (fresh seen).processBroadcast env mnb =
      let man := fresh (seen.set (seenHash env mnb) mnb)
      match ((fresh ∅).checkAndUpdate env mnb).2 with
      | .accepted =>
        if env.isInputAssociatedWithPubkey mnb.vin mnb.pubKeyCollateralAddress then man.checkInputsAndAdd env mnb
        else (man, .rejected 33)
      | failed => (man, failed) := by
  have hunseen : ¬ (seen.get (seenHash env mnb)).isSome = true := by simp [hnew]
  unfold processBroadcast
  rw [hon]
  refine (if_neg hunseen).trans ?_
  erw [checkAndUpdate_fresh (seen.set (seenHash env mnb) mnb)]
  cases ((fresh ∅).checkAndUpdate env mnb).2 <;> rfl

theorem outcome_processBroadcast (hnew : seen.get (seenHash env mnb) = none) :
    outcome ((fresh seen).processBroadcast env mnb) = outcome ((fresh ∅).processBroadcast env mnb) := by
  cases hon : env.fLiteMode || !env.blockchainSynced with
  | true =>
    unfold processBroadcast
    rw [hon]
    rfl
  | false =>
    rw [processBroadcast_eq hon hnew, processBroadcast_eq hon rfl]
    cases ((fresh ∅).checkAndUpdate env mnb).2 with
    | rejected nDoS | thrown => rfl
    | accepted =>
      dsimp only
      split
      · rw [checkInputsAndAdd_fresh, checkInputsAndAdd_fresh (StdMap.set ∅ _ _)]
      · rfl

/-- `CheckAndUpdate` or `IsInputAssociatedWithPubkey` turns the broadcast away. -/
def Rejects (env : MasternodeEnv) (mnb : CMasternodeBroadcast) : Prop :=
  (env.fLiteMode || !env.blockchainSynced) = false ∧ ((∃ nDoS, ((fresh ∅).checkAndUpdate env mnb).2 = .rejected nDoS) ∨
      ((fresh ∅).checkAndUpdate env mnb).2 = .accepted ∧
        env.isInputAssociatedWithPubkey mnb.vin mnb.pubKeyCollateralAddress = false)

theorem Rejects.processBroadcast (h : Rejects env mnb) :
    ((fresh ∅).processBroadcast env mnb).1 = fresh (StdMap.set ∅ (seenHash env mnb) mnb) := by
  rw [processBroadcast_eq h.1 rfl]
  obtain ⟨nDoS, hanswer⟩ | ⟨hanswer, hkey⟩ := h.2
  · rw [hanswer]
  · rw [hanswer, hkey]
    rfl

/-- **Rejected broadcasts.**  Let a fresh node reject a first broadcast, and let a fresh node list the masternode of a
second one.  After the first the second is handled as if the first had not come exactly if their hashes differ. -/
theorem rejected_broadcast_harmless_iff (env env' : MasternodeEnv) (b1 b2 : CMasternodeBroadcast)
    (hrejected : Rejects env b1) (hlisted : b2.toMasternode ∈ ((fresh ∅).processBroadcast env' b2).1.vMasternodes) :
    outcome (((fresh ∅).processBroadcast env b1).1.processBroadcast env' b2)
      = outcome ((fresh ∅).processBroadcast env' b2) ↔
      seenHash env b1 ≠ seenHash env' b2 := by
  rw [hrejected.processBroadcast]
  constructor
  · -- a hash seen before ends the handling with an empty list
    intro hsame hhash
    have hseen : ((StdMap.set ∅ (seenHash env b1) b1).get (seenHash env' b2)).isSome = true := by
      rw [hhash, StdMap.get_set_self]
      rfl
    have hnil : ((fresh (StdMap.set ∅ (seenHash env b1) b1)).processBroadcast env' b2).1.vMasternodes = [] := by
      unfold processBroadcast
      split
      · rfl
      · exact congrArg (fun r : CMasternodeMan × Handled => r.1.vMasternodes) (if_pos hseen)
    have hlist : [] = ((fresh ∅).processBroadcast env' b2).1.vMasternodes := hnil.symm.trans (congrArg Prod.fst hsame)
    rw [← hlist] at hlisted
    cases hlisted
  · intro hne
    apply outcome_processBroadcast
    rw [StdMap.get_set_of_ne _ _ hne.symm]
    rfl

/-- A broadcast with the collateral key of a good one that no one has signed. -/
def forgedBroadcast (sigTime : Int) : CMasternodeBroadcast := { collateralBroadcast 0 sigTime with vchSig := [] }

theorem forged_broadcast_harmless :
    let env := masternodeEnv ⟨5 * COIN, []⟩
    let good := collateralBroadcast 0 1602000000
    outcome (((fresh ∅).processBroadcast env (forgedBroadcast 1602000001)).1.processBroadcast env good)
      = outcome ((fresh ∅).processBroadcast env good) :=
  (rejected_broadcast_harmless_iff _ _ (forgedBroadcast 1602000001) (collateralBroadcast 0 1602000000)
    ⟨rfl, .inl ⟨100, by decide +kernel⟩⟩ (by decide +kernel)).mpr (by decide +kernel)

/-- With the time of the good one it keeps the good one out. -/
theorem forged_broadcast_blocks :
    let env := masternodeEnv ⟨5 * COIN, []⟩
    let good := collateralBroadcast 0 1602000000
    Rejects env (forgedBroadcast 1602000000) ∧
      good.toMasternode ∈ ((fresh ∅).processBroadcast env good).1.vMasternodes ∧
      (((fresh ∅).processBroadcast env (forgedBroadcast 1602000000)).1.processBroadcast env good).1.vMasternodes
          = [] := by
  refine ⟨⟨rfl, .inl ⟨100, by decide +kernel⟩⟩, by decide +kernel, by decide +kernel⟩

end CMasternodeMan

end PwrbCore
