/-
  Validation.ContextualCheck — CHECKS OF A BLOCK AGAINST ITS HEIGHT (`IsFinalTx` of `consensus/tx_verify.cpp`,
  `ContextualCheckBlock` of `main.cpp`).

  Main result: `contextualCheckBlock_height`.
-/
import PwrbCore.Node.Env
import PwrbCore.Script.ScriptNum

namespace PwrbCore

open Checked

/-! ## §1. Lock times. -/

/-- `IsFinalTx`; a height or time of zero stands for the tip's height and the adjusted time. -/
def NodeEnv.isFinalTx (env : NodeEnv) (tx : CTransaction) (nBlockHeight nBlockTime : Int) : Bool :=
  if tx.nLockTime = 0 then true
  else
    let nBlockHeight := if nBlockHeight = 0 then env.chainHeight else nBlockHeight
    let nBlockTime := if nBlockTime = 0 then env.loc.adjustedTime else nBlockTime
    if (tx.nLockTime : Int) < (if tx.nLockTime < LOCKTIME_THRESHOLD then nBlockHeight else nBlockTime) then
      true
    else tx.vin.all CTxIn.isFinal

/-! ## §2. The block. -/

def CBlock.coinBaseScript (block : CBlock) : Option CScript :=
  match block.vtx with
  | tx :: _ => tx.vin.head?.map CTxIn.scriptSig
  | [] => none

/-- `ContextualCheckBlock` at height `nHeight`; only the first block has height zero. -/
def NodeEnv.contextualCheckBlock (env : NodeEnv) (block : CBlock) (nHeight : Nat) : Validated Unit := do
  require (∀ tx ∈ block.vtx, env.isFinalTx tx nHeight block.nTime = true) (dos 10 "bad-txns-nonfinal")
  checkIf (decide (0 < nHeight)) do
    let scriptSig ← orStop block.coinBaseScript .thrown
    require ((CScript.pushInt nHeight).isPrefixOf scriptSig = true) (dos 100 "bad-cb-height")

/-- **The coinbase carries the height.** -/
theorem NodeEnv.contextualCheckBlock_height {env env' : NodeEnv} {block block' : CBlock}
    {nHeight nHeight' : Nat} (h : env.contextualCheckBlock block nHeight = .ok ())
    (h' : env'.contextualCheckBlock block' nHeight' = .ok ()) (hpos : 0 < nHeight) (hpos' : 0 < nHeight')
    (hlt : nHeight < 2 ^ 32) (hlt' : nHeight' < 2 ^ 32)
    (hscript : block.coinBaseScript = block'.coinBaseScript) : nHeight = nHeight' := by
  have hbegins : ∀ {env : NodeEnv} {block : CBlock} {nHeight : Nat}, 0 < nHeight →
      env.contextualCheckBlock block nHeight = .ok () →
      ∃ scriptSig, block.coinBaseScript = some scriptSig ∧ CScript.pushInt nHeight <+: scriptSig := by
    intro env block nHeight hpos h
    obtain ⟨-, h⟩ := require_bind_eq_ok.mp h
    have hcoinbase := checkIf_eq_ok.mp h (decide_eq_true hpos)
    simp only [bind_eq_ok, orStop_eq_ok, require_eq_ok] at hcoinbase
    obtain ⟨scriptSig, hsig, hpre⟩ := hcoinbase
    exact ⟨scriptSig, hsig, List.isPrefixOf_iff_prefix.mp hpre⟩
  obtain ⟨s, hs, hpre⟩ := hbegins hpos h
  obtain ⟨s', hs', hpre'⟩ := hbegins hpos' h'
  rw [hscript, hs'] at hs
  cases hs
  exact CScript.pushInt_unique hpos hpos' hlt hlt' hpre hpre'

end PwrbCore
