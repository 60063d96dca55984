/-
  Zerocoin.Supply — ZEROCOIN DENOMINATIONS AND THE SUPPLY MAP (`libzerocoin/Denominations.cpp`,
  `UpdateZPWRBSupplyConnect` and `UpdateZPWRBSupplyDisconnect` of `zpwrbchain.cpp`).

  A parsed spend keeps what validation reads of it: denomination, serial number, version
  and the hash of the outputs it signs.  Parsing itself is cryptographic and comes as the
  parameter `coinSpend`.
-/
import PwrbCore.Params
import PwrbCore.Validation.State

namespace PwrbCore

open Checked

/-! ## §1. Denominations and spends. -/

/-- `libzerocoin::CoinDenomination` without `ZQ_ERROR`, which is `none` below. -/
inductive CoinDenomination where
  | one | five | ten | fifty | oneHundred | fiveHundred | oneThousand | fiveThousand
  deriving DecidableEq, Repr

def CoinDenomination.toInt : CoinDenomination → Int
  | .one => 1
  | .five => 5
  | .ten => 10
  | .fifty => 50
  | .oneHundred => 100
  | .fiveHundred => 500
  | .oneThousand => 1000
  | .fiveThousand => 5000

def intToZerocoinDenomination (amount : Int) : Option CoinDenomination :=
  if amount = 1 then some .one
  else if amount = 5 then some .five
  else if amount = 10 then some .ten
  else if amount = 50 then some .fifty
  else if amount = 100 then some .oneHundred
  else if amount = 500 then some .fiveHundred
  else if amount = 1000 then some .oneThousand
  else if amount = 5000 then some .fiveThousand
  else none

/-- `AmountToZerocoinDenomination`: whole coins only. -/
def amountToZerocoinDenomination (amount : Int) : Option CoinDenomination :=
  if amount - COIN * amount.tdiv COIN = 0 then intToZerocoinDenomination (amount.tdiv COIN) else none

/-- `libzerocoin::CoinSpend` and `PublicCoinSpend`. -/
structure CoinSpend where
  denomination : Option CoinDenomination
  coinSerialNumber : Nat
  version : Nat
  txOutHash : Uint256
  deriving DecidableEq, Repr

/-- `getDenomination()` as a number; `ZQ_ERROR` is zero. -/
def CoinSpend.denominationInt (s : CoinSpend) : Int := (s.denomination.map CoinDenomination.toInt).getD 0

/-- `TxOutToPublicCoin` succeeds on the outputs whose amount is a denomination. -/
def txOutToPublicCoin (txout : CTxOut) : Option CoinDenomination :=
  amountToZerocoinDenomination txout.nValue

/-- The hard-coded lists `invalid_out::setInvalidOutPoints` and `setInvalidSerials`. -/
structure InvalidOut where
  outPoints : List COutPoint
  serials : List Nat

def validOutPoint (params : ConsensusParams) (invalidOut : InvalidOut) (out : COutPoint) (nHeight : Int) : Bool :=
  !(decide (params.height_start_InvalidUTXOsCheck ≤ nHeight) && invalidOut.outPoints.contains out)

def INT_MAX : Int := 2147483647

/-! ## §2. The mints and spends of a block. -/

/-- The outputs of one transaction in `BlockToZerocoinMintList`, from index `i` on: an invalid
outpoint or an output that is no public coin ends the list. -/
def mintOutputs (params : ConsensusParams) (invalidOut : InvalidOut) (txHash : Uint256) :
    Nat → List CTxOut → List CoinDenomination × Bool
  | _, [] => ([], true)
  | i, txout :: vout =>
    if !validOutPoint params invalidOut ⟨txHash, i⟩ INT_MAX then ([], true)
    else if !txout.isZerocoinMint then mintOutputs params invalidOut txHash (i + 1) vout
    else
      match txOutToPublicCoin txout with
      | none => ([], false)
      | some denom =>
        let rest := mintOutputs params invalidOut txHash (i + 1) vout
        (denom :: rest.1, rest.2)

/-- `BlockToZerocoinMintList` with `fFilterInvalid`: the list is used even when the function returns false. -/
def blockToZerocoinMintList (params : ConsensusParams) (invalidOut : InvalidOut) :
    List CTransaction → List CoinDenomination
  | [] => []
  | tx :: vtx =>
    if !tx.hasZerocoinMintOutputs then blockToZerocoinMintList params invalidOut vtx
    else if tx.vin.any fun txin => !validOutPoint params invalidOut txin.prevout INT_MAX then
      blockToZerocoinMintList params invalidOut vtx
    else
      match mintOutputs params invalidOut tx.hash 0 tx.vout with
      | (mints, true) => mints ++ blockToZerocoinMintList params invalidOut vtx
      | (mints, false) => mints

/-- One input in `ZerocoinSpendListFromBlock`: nothing, or the denomination of its `nSequence` (`none` for
`ZQ_ERROR`); the outer `none` is an exception of the parser. -/
def spendOfInput (coinSpend : CTxIn → Option CoinSpend) (invalidOut : InvalidOut) (txin : CTxIn) :
    Option (List (Option CoinDenomination)) :=
  if !txin.isZerocoinSpend && !txin.isZerocoinPublicSpend then some []
  else if txin.isZerocoinPublicSpend then some [intToZerocoinDenomination txin.nSequence]
  else
    match coinSpend txin with
    | none => none
    | some spend =>
      if invalidOut.serials.contains spend.coinSerialNumber then some []
      else some [intToZerocoinDenomination txin.nSequence]

/-- `ZerocoinSpendListFromBlock` with `fFilterInvalid`. -/
def zerocoinSpendListFromBlock (coinSpend : CTxIn → Option CoinSpend) (invalidOut : InvalidOut)
    (vtx : List CTransaction) : Option (List (Option CoinDenomination)) :=
  (((vtx.filter CTransaction.hasZerocoinSpendInputs).flatMap CTransaction.vin).mapM
    (spendOfInput coinSpend invalidOut)).map List.flatten

/-! ## §3. The supply map. -/

/-- `mapZerocoinSupply`. -/
abbrev ZerocoinSupply := CoinDenomination → Int

variable {supply supply' : ZerocoinSupply}

/-- `mapZerocoinSupply.at(denom) += n`. -/
def ZerocoinSupply.add (supply : ZerocoinSupply) (denom : CoinDenomination) (n : Int) : ZerocoinSupply :=
  fun d => if d = denom then supply d + n else supply d

/-- How a supply update fails: the failsafe, or an exception. -/
inductive SupplyError where
  | negative | thrown
  deriving DecidableEq, Repr

/-- `at(denom)--` with the failsafe behind it. -/
def ZerocoinSupply.take (supply : ZerocoinSupply) (denom : CoinDenomination) :
    Except SupplyError ZerocoinSupply := do
  require (0 ≤ supply.add denom (-1) denom) .negative
  return supply.add denom (-1)

/-- The mints that count at `nHeight`: none from the last accumulator checkpoint on. -/
def supplyMints (params : ConsensusParams) (invalidOut : InvalidOut) (block : CBlock) (nHeight : Int) :
    List CoinDenomination :=
  if nHeight < params.height_last_ZC_AccumCheckpoint then
    blockToZerocoinMintList params invalidOut block.vtx
  else []

section

variable (params : ConsensusParams) (coinSpend : CTxIn → Option CoinSpend) (invalidOut : InvalidOut)
  (block : CBlock) (nHeight : Int) (supply : ZerocoinSupply)

/-- `UpdateZPWRBSupplyConnect`.  The wrapped-serials correction is for height
`height_last_ZC_WrappedSerials + 1 = 0`, below `height_start_ZC` on every network. -/
def updateZPWRBSupplyConnect : Except SupplyError ZerocoinSupply :=
  if nHeight < params.height_start_ZC then .ok supply
  else do
    let minted := (supplyMints params invalidOut block nHeight).foldl (fun s d => s.add d 1) supply
    let spends ← orStop (zerocoinSpendListFromBlock coinSpend invalidOut block.vtx) SupplyError.thrown
    spends.foldlM (fun s denom? => do
      let denom ← orStop denom? SupplyError.thrown
      s.take denom) minted

def updateZPWRBSupplyDisconnect : Except SupplyError ZerocoinSupply :=
  if nHeight < params.height_start_ZC then .ok supply
  else do
    let spends ← orStop (zerocoinSpendListFromBlock coinSpend invalidOut block.vtx) SupplyError.thrown
    let respent ← spends.foldlM (fun s denom? => do
      let denom ← orStop denom? SupplyError.thrown
      return s.add denom 1) supply
    (supplyMints params invalidOut block nHeight).foldlM (fun s d => s.take d) respent

end

/-! ## §4. Disconnecting undoes connecting. -/

/-- No denomination has a negative count. -/
def ZerocoinSupply.Nonneg (supply : ZerocoinSupply) : Prop := ∀ d, 0 ≤ supply d

theorem ZerocoinSupply.add_apply (supply : ZerocoinSupply) (denom d : CoinDenomination) (n : Int) :
    supply.add denom n d = supply d + if d = denom then n else 0 := by
  unfold ZerocoinSupply.add
  split_ifs
  · rfl
  · rw [Int.add_zero]

theorem foldl_add_apply (denoms : List CoinDenomination) (supply : ZerocoinSupply) (d : CoinDenomination) :
    denoms.foldl (fun s d => s.add d 1) supply d = supply d + denoms.count d := by
  induction denoms generalizing supply with
  | nil => simp
  | cons a denoms ih =>
    rw [List.foldl_cons, ih, ZerocoinSupply.add_apply, List.count_cons]
    by_cases hd : d = a
    · subst hd
      simp only [if_true, beq_self_eq_true]
      omega
    · grind

theorem ZerocoinSupply.take_eq_ok {denom : CoinDenomination} :
    supply.take denom = .ok supply' ↔ 1 ≤ supply denom ∧ supply' = supply.add denom (-1) := by
  unfold ZerocoinSupply.take
  rw [require_bind_eq_ok, ZerocoinSupply.add_apply, if_pos rfl]
  constructor
  · rintro ⟨hpos, hok⟩
    cases hok
    exact ⟨by omega, rfl⟩
  · rintro ⟨hpos, rfl⟩
    exact ⟨by omega, rfl⟩

/-- Taking denominations out succeeds exactly when there are enough of each, and leaves the difference. -/
theorem foldlM_take_eq_ok {denoms : List CoinDenomination} (hnonneg : supply.Nonneg) :
    denoms.foldlM (fun s d => s.take d) supply = .ok supply' ↔
      (∀ d, (denoms.count d : Int) ≤ supply d) ∧ supply' = fun d => supply d - denoms.count d := by
  induction denoms generalizing supply with
  | nil =>
    rw [foldlM_nil_eq_ok]
    constructor
    · rintro rfl
      exact ⟨fun d => by simpa using hnonneg d, by simp⟩
    · rintro ⟨-, h⟩
      simpa using h.symm
  | cons a denoms ih =>
    have hcount : ∀ d, ((a :: denoms).count d : Int) = denoms.count d + if d = a then 1 else 0 := by grind
    have hmidpos : 1 ≤ supply a → (supply.add a (-1)).Nonneg := by
      intro hpos d
      have := hnonneg d
      rw [ZerocoinSupply.add_apply]
      split_ifs with hd
      · subst hd
        omega
      · omega
    rw [foldlM_cons_eq_ok]
    constructor
    · rintro ⟨mid, hmid, hrun⟩
      obtain ⟨hpos, rfl⟩ := ZerocoinSupply.take_eq_ok.mp hmid
      obtain ⟨henough, rfl⟩ := (ih (hmidpos hpos)).mp hrun
      refine ⟨fun d => ?_, funext fun d => ?_⟩
      · grind [ZerocoinSupply.add_apply]
      · rw [ZerocoinSupply.add_apply, hcount]
        split_ifs <;> omega
    · rintro ⟨henough, rfl⟩
      have hpos : 1 ≤ supply a := by grind
      refine ⟨supply.add a (-1), ZerocoinSupply.take_eq_ok.mpr ⟨hpos, rfl⟩, ?_⟩
      rw [ih (hmidpos hpos)]
      refine ⟨fun d => ?_, funext fun d => ?_⟩
      · grind [ZerocoinSupply.add_apply]
      · rw [ZerocoinSupply.add_apply, hcount]
        split_ifs <;> omega

/-- A loop over denominations that parse is a loop over the parsed ones. -/
theorem foldlM_orStop_eq_ok {f : ZerocoinSupply → CoinDenomination → Except SupplyError ZerocoinSupply}
    {denoms : List (Option CoinDenomination)} : denoms.foldlM (fun s denom? => do
        let denom ← orStop denom? SupplyError.thrown
        f s denom) supply = .ok supply'
      ↔ ∃ ds : List CoinDenomination, denoms = ds.map some ∧ ds.foldlM f supply = .ok supply' := by
  induction denoms generalizing supply with
  | nil =>
    constructor
    · intro h
      exact ⟨[], rfl, h⟩
    · simp_all
  | cons a denoms ih =>
    rw [foldlM_cons_eq_ok]
    simp only [bind_eq_ok, orStop_eq_ok]
    constructor
    · rintro ⟨mid, ⟨d, rfl, hd⟩, hrun⟩
      obtain ⟨ds, rfl, hds⟩ := ih.mp hrun
      exact ⟨d :: ds, rfl, foldlM_cons_eq_ok.mpr ⟨mid, hd, hds⟩⟩
    rintro ⟨ds, hds, hrun⟩
    cases ds with
    | nil => cases hds
    | cons d ds =>
      cases hds
      obtain ⟨mid, hd, hrest⟩ := foldlM_cons_eq_ok.mp hrun
      exact ⟨mid, ⟨d, rfl, hd⟩, ih.mpr ⟨ds, rfl, hrest⟩⟩

theorem foldlM_add_eq_foldl (denoms : List CoinDenomination) (supply : ZerocoinSupply) :
    denoms.foldlM (fun s d => (pure (s.add d 1) : Except SupplyError ZerocoinSupply)) supply
      = .ok (denoms.foldl (fun s d => s.add d 1) supply) := by
  induction denoms generalizing supply with
  | nil => rfl
  | cons a denoms ih => exact ih _

section Connected

variable {params : ConsensusParams} {coinSpend : CTxIn → Option CoinSpend} {invalidOut : InvalidOut}
  {block : CBlock} {nHeight : Int}

/-- What a connected block did to the supply: its mints came in, its spends, enough of them, went out. -/
theorem updateZPWRBSupplyConnect_eq_ok (hzc : params.height_start_ZC ≤ nHeight) (hnonneg : supply.Nonneg) :
    updateZPWRBSupplyConnect params coinSpend invalidOut block nHeight supply = .ok supply' ↔
      ∃ ds : List CoinDenomination, zerocoinSpendListFromBlock coinSpend invalidOut block.vtx = some (ds.map some) ∧
        (∀ d, (ds.count d : Int) ≤ supply d + (supplyMints params invalidOut block nHeight).count d) ∧
        supply' = fun d => supply d + (supplyMints params invalidOut block nHeight).count d - ds.count d := by
  have hminted : ((supplyMints params invalidOut block nHeight).foldl (fun s d => s.add d 1) supply)
      = fun d => supply d + (supplyMints params invalidOut block nHeight).count d :=
    funext fun d => foldl_add_apply _ _ d
  have hpos : ZerocoinSupply.Nonneg
      (fun d => supply d + (supplyMints params invalidOut block nHeight).count d) := by
    intro d
    have := hnonneg d
    show 0 ≤ supply d + _
    omega
  simp_all [updateZPWRBSupplyConnect, if_neg, bind_eq_ok, orStop_eq_ok, foldlM_orStop_eq_ok, foldlM_take_eq_ok]

section

variable (hnonneg : supply.Nonneg)
  (h : updateZPWRBSupplyConnect params coinSpend invalidOut block nHeight supply = .ok supply')

include hnonneg h

theorem ZerocoinSupply.Nonneg.connect : supply'.Nonneg := by
  by_cases hzc : nHeight < params.height_start_ZC
  · unfold updateZPWRBSupplyConnect at h
    rw [if_pos hzc] at h
    cases h
    exact hnonneg
  · obtain ⟨ds, -, henough, rfl⟩ := (updateZPWRBSupplyConnect_eq_ok (by omega) hnonneg).mp h
    intro d
    have := henough d
    show 0 ≤ supply d + _ - _
    omega

/-- **The supply map is restored**: disconnecting a connected block gives the counts before it. -/
theorem updateZPWRBSupplyDisconnect_connect :
    updateZPWRBSupplyDisconnect params coinSpend invalidOut block nHeight supply' = .ok supply := by
  by_cases hzc : nHeight < params.height_start_ZC
  · unfold updateZPWRBSupplyConnect at h
    rw [if_pos hzc] at h
    cases h
    exact if_pos hzc
  obtain ⟨ds, hspends, henough, rfl⟩ := (updateZPWRBSupplyConnect_eq_ok (by omega) hnonneg).mp h
  unfold updateZPWRBSupplyDisconnect
  rw [if_neg hzc, bind_eq_ok]
  refine ⟨_, orStop_eq_ok.mpr hspends, ?_⟩
  rw [bind_eq_ok]
  refine ⟨fun d => supply d + (supplyMints params invalidOut block nHeight).count d, ?_, ?_⟩
  · -- the spends come back
    rw [foldlM_orStop_eq_ok]
    refine ⟨ds, rfl, ?_⟩
    rw [foldlM_add_eq_foldl]
    congr 1
    funext d
    rw [foldl_add_apply]
    omega
  · -- the mints go
    rw [foldlM_take_eq_ok]
    · refine ⟨fun d => ?_, funext fun d => by omega⟩
      have := hnonneg d
      omega
    · intro d
      have := hnonneg d
      show 0 ≤ supply d + _
      omega

end

end Connected

end PwrbCore
