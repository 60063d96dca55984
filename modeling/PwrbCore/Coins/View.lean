/-
  Coins.View — THE COINS VIEW seen through `CCoinsViewCache` (`coins.cpp`): `AccessCoins`,
  `ModifyCoins`, `HaveInputs`, `GetValueIn`, and `UpdateCoins` of `main.cpp`, which
  applies one transaction.

  A view is the map the top cache layer answers from, with the best-block pointer.  An
  entry that `ModifyCoins` leaves fully spent stays in the map; the cache may drop it, so
  everything below treats such an entry and a missing one alike (`lookup`).
-/
import PwrbCore.Coins.Coins

namespace PwrbCore

structure CCoinsView where
  coins : Uint256 → Option CCoins
  bestBlock : Uint256

namespace CCoinsView

section

variable (view : CCoinsView)

def accessCoins (txid : Uint256) : Option CCoins := view.coins txid

/-- The entry of `txid`, fully spent entries counting as absent. -/
def lookup (txid : Uint256) : Option CCoins :=
  (view.coins txid).filter fun c => !c.isPruned

/-- `ModifyCoins(txid)` edited by `f`: a missing entry starts empty, and the modifier's destructor cleans up. -/
def modifyCoins (txid : Uint256) (f : CCoins → CCoins) : CCoinsView :=
  { view with
    coins := fun t =>
      if t = txid then some (f ((view.coins txid).getD {})).cleanup else view.coins t }

def setBestBlock (hashBlock : Uint256) : CCoinsView :=
  { view with bestBlock := hashBlock }

/-- `GetOutputFor`; `none` where the source asserts. -/
def getOutputFor (prevout : COutPoint) : Option CTxOut :=
  match view.accessCoins prevout.hash with
  | none => none
  | some coins => if coins.isAvailable prevout.n then coins.vout[prevout.n]? else none

/-- `HaveInputs`; zerocoin spends have none to look for. -/
def haveInputs (tx : CTransaction) : Bool :=
  if !tx.isCoinBase && !tx.hasZerocoinSpendInputs then
    tx.vin.all fun i =>
      match view.accessCoins i.prevout.hash with
      | none => false
      | some coins => coins.isAvailable i.prevout.n
  else true

/-- `GetValueIn` of a transaction that has traditional inputs. -/
def getValueIn (tx : CTransaction) : Int :=
  if tx.isCoinBase then 0
  else if tx.hasZerocoinSpendInputs then
    -- `GetZerocoinSpent`: a spend carries its denomination in `nSequence`
    ((tx.vin.filter CTxIn.isZerocoinSpend).map fun i => (i.nSequence : Int) * COIN).sum
  else (tx.vin.map fun i => ((view.getOutputFor i.prevout).map CTxOut.nValue).getD 0).sum

/-- `ModifyCoins(prevout.hash)->Spend(prevout, undo)`; `none` where `UpdateCoins` asserts. -/
def spendInput (prevout : COutPoint) : Option (CCoinsView × CTxInUndo) :=
  match ((view.coins prevout.hash).getD {}).spend prevout.n with
  | none => none
  | some (coins, undo) => some (view.modifyCoins prevout.hash fun _ => coins, undo)

def spendInputs : List CTxIn → CCoinsView → Option (CCoinsView × List CTxInUndo)
  | [], view => some (view, [])
  | txin :: vin, view =>
    match view.spendInput txin.prevout with
    | none => none
    | some (view, undo) => (spendInputs vin view).map fun p => (p.1, undo :: p.2)

/-- `ModifyCoins(tx.GetHash())->FromTx(tx, nHeight)`. -/
def addOutputs (tx : CTransaction) (nHeight : Int) : CCoinsView :=
  view.modifyCoins tx.hash fun _ => CCoins.fromTx tx nHeight

/-- Transactions whose inputs are entries of the view. -/
def spendsCoins (tx : CTransaction) : Bool := !tx.isCoinBase && !tx.hasZerocoinSpendInputs

/-- `UpdateCoins`: the view after `tx` and its `CTxUndo`. -/
def updateCoins (tx : CTransaction) (view : CCoinsView) (nHeight : Int) : Option (CCoinsView × List CTxInUndo) :=
  if spendsCoins tx then
    (spendInputs tx.vin view).map fun p => (p.1.addOutputs tx nHeight, p.2)
  else some (view.addOutputs tx nHeight, [])

/-! ## Reading a modified view. -/

@[simp] theorem modifyCoins_coins_self (txid : Uint256) (f : CCoins → CCoins) :
    (view.modifyCoins txid f).coins txid = some (f ((view.coins txid).getD {})).cleanup := by
  simp [modifyCoins]

theorem modifyCoins_coins_of_ne {txid t : Uint256} (f : CCoins → CCoins)
    (h : t ≠ txid) : (view.modifyCoins txid f).coins t = view.coins t := by
  simp [modifyCoins, h]

/-- A lookup finds exactly the entries that are not fully spent. -/
theorem lookup_eq_some_iff (txid : Uint256) (c : CCoins) :
    view.lookup txid = some c ↔ view.coins txid = some c ∧ c.isPruned = false := by
  simp [lookup]

theorem lookup_eq_none_iff (txid : Uint256) :
    view.lookup txid = none ↔ ∀ c, view.coins txid = some c → c.isPruned = true := by
  simp [lookup]

end

end CCoinsView

end PwrbCore
