/-
  Node.AddrMan — THE ADDRESS MANAGER (`CAddrInfo`, `CAddrMan` of `addrman.h` and `addrman.cpp`).

  Known addresses have an id.  They are in the "new" table, in up to eight buckets, or in one
  slot of the "tried" table; `vRandom` holds all ids in random order.  An assertion that fails
  is `none`.  Bucket and position are hashes under a secret key: `BucketHash`, any functions
  of what the source hashes.  The random numbers and the clock are `AddrChoice`.  `nIdCount` is an
  `int` and comes round.
-/
import PwrbCore.Lib.SlotTable
import PwrbCore.Lib.StdMap
import PwrbCore.Node.NetAddress
import PwrbCore.Primitives.Transaction

namespace PwrbCore

/-! ## §1. Announced addresses. -/

/-- `CAddress`: a service as peers announce it. -/
structure CAddress extends CService where
  nServices : UInt64
  nTime : UInt32
  deriving DecidableEq, Repr

/-! ## §2. Entries. -/

structure CAddrInfo extends CAddress where
  source : CNetAddr
  nLastTry : Int := 0
  nLastCountAttempt : Int := 0
  nLastSuccess : Int := 0
  nAttempts : Int := 0
  nRefCount : Int := 0
  fInTried : Bool := false
  nRandomPos : Int := -1
  deriving DecidableEq, Repr

def ADDRMAN_NEW_BUCKETS_PER_ADDRESS : Int := 8
def ADDRMAN_HORIZON_DAYS : Int := 30
def ADDRMAN_RETRIES : Int := 3
def ADDRMAN_MAX_FAILURES : Int := 10
def ADDRMAN_MIN_FAIL_DAYS : Int := 7
def ADDRMAN_GETADDR_MAX_PCT : Nat := 23
def ADDRMAN_GETADDR_MAX : Nat := 2500

/-- `ADDRMAN_NEW_BUCKET_COUNT`, `ADDRMAN_TRIED_BUCKET_COUNT`, `ADDRMAN_BUCKET_SIZE`. -/
abbrev NewBucket := Fin 1024
abbrev TriedBucket := Fin 256
abbrev BucketPosition := Fin 64

/-- The hashes that choose bucket and position. -/
structure BucketHash where
  getTriedBucket : Uint256 → CService → TriedBucket
  getNewBucket : Uint256 → CService → CNetAddr → NewBucket
  getBucketPosition : Uint256 → (fNew : Bool) → (nBucket : Nat) → CService → BucketPosition

/-- `GetBucketPosition(nKey, true, bucket)`: the place in a new bucket. -/
def BucketHash.newPlace (hash : BucketHash) (nKey : Uint256) (addr : CService) (bucket : NewBucket) : BucketPosition :=
  hash.getBucketPosition nKey true bucket addr

/-- `GetBucketPosition(nKey, false, bucket)`. -/
def BucketHash.triedPlace (hash : BucketHash) (nKey : Uint256) (addr : CService) (bucket : TriedBucket) :
    BucketPosition :=
  hash.getBucketPosition nKey false bucket addr

/-- The random numbers and the answers of the clock during a call. -/
structure AddrChoice where
  random : Nat → Nat
  getAdjustedTime : Nat → Int

/-- `RandomInt(nMax)`: any number below `nMax`. -/
def AddrChoice.randomInt (c : AddrChoice) (k nMax : Nat) : Nat := c.random k % nMax

/-- `CAddrInfo()`, which `mapInfo[..]` makes where there is no entry. -/
def CAddrInfo.blank : CAddrInfo where
  ip := List.replicate 16 0
  port := 0
  nServices := 0
  nTime := 100000000
  source := ⟨List.replicate 16 0⟩

/-- `IsTerrible`: too old, from the future, or failed too often. -/
def CAddrInfo.isTerrible (info : CAddrInfo) (nNow : Int) : Bool :=
  if info.nLastTry ≠ 0 ∧ nNow - 60 ≤ info.nLastTry then false
  else if nNow + 10 * 60 < info.nTime.toNat then true
  else if info.nTime = 0 ∨ ADDRMAN_HORIZON_DAYS * 24 * 60 * 60 < nNow - info.nTime.toNat then true
  else if info.nLastSuccess = 0 ∧ ADDRMAN_RETRIES ≤ info.nAttempts then true
  else if ADDRMAN_MIN_FAIL_DAYS * 24 * 60 * 60 < nNow - info.nLastSuccess ∧
    ADDRMAN_MAX_FAILURES ≤ info.nAttempts then true
  else false

/-! ## §3. The tables. -/

/-- `CAddrMan`.  An empty slot holds -1. -/
structure CAddrMan where
  nIdCount : Int := 0
  mapInfo : StdMap Int CAddrInfo := ∅
  mapAddr : StdMap CNetAddr Int := ∅
  vRandom : List Int := []
  nTried : Int := 0
  vvTried : SlotTable TriedBucket BucketPosition Int := fun _ _ => -1
  nNew : Int := 0
  vvNew : SlotTable NewBucket BucketPosition Int := fun _ _ => -1
  nLastGood : Int := 1
  nKey : Uint256

namespace CAddrMan

/-- `Find`: the id and the entry of an address. -/
def find (st : CAddrMan) (addr : CNetAddr) : Option (Int × CAddrInfo) :=
  match st.mapAddr.get addr with
  | none => none
  | some nId => (st.mapInfo.get nId).map fun info => (nId, info)

def newInfo (st : CAddrMan) (addr : CAddress) (addrSource : CNetAddr) : CAddrInfo :=
  { toCAddress := addr, source := addrSource, nRandomPos := st.vRandom.length }

/-- `Create`, with the id of the new entry. -/
def create (st : CAddrMan) (addr : CAddress) (addrSource : CNetAddr) : Int × CAddrMan :=
  (st.nIdCount, { st with
      nIdCount := (st.nIdCount + 1).bmod (2 ^ 32)
      mapInfo := st.mapInfo.set st.nIdCount (st.newInfo addr addrSource)
      mapAddr := st.mapAddr.set addr.toCNetAddr st.nIdCount
      vRandom := st.vRandom ++ [st.nIdCount] })

def swapRandom (st : CAddrMan) (nRndPos1 nRndPos2 : Nat) : Option CAddrMan :=
  if nRndPos1 = nRndPos2 then some st
  else
    match st.vRandom[nRndPos1]?, st.vRandom[nRndPos2]? with
    | some nId1, some nId2 =>
      match st.mapInfo.get nId1, st.mapInfo.get nId2 with
      | some info1, some info2 =>
        some { st with
          mapInfo := (st.mapInfo.set nId1 { info1 with nRandomPos := nRndPos2 }).set nId2
            { info2 with nRandomPos := nRndPos1 }
          vRandom := (st.vRandom.set nRndPos1 nId2).set nRndPos2 nId1 }
      | _, _ => none
    | _, _ => none

/-- `Delete`.  As `unsigned int` a negative position, or the end of an empty vector, is out of range. -/
def delete (st : CAddrMan) (nId : Int) : Option CAddrMan :=
  match st.mapInfo.get nId with
  | none => none
  | some info =>
    if info.fInTried = true ∨ info.nRefCount ≠ 0 then none
    else if info.nRandomPos < 0 ∨ st.vRandom = [] then none
    else
      (st.swapRandom info.nRandomPos.toNat (st.vRandom.length - 1)).map fun st =>
        { st with
          vRandom := st.vRandom.dropLast
          mapAddr := st.mapAddr.remove info.toCNetAddr
          mapInfo := st.mapInfo.remove nId
          nNew := st.nNew - 1 }

/-- `ClearNew`.  An entry that `mapInfo` lacked would be made with no references. -/
def clearNew (st : CAddrMan) (nUBucket : NewBucket) (nUBucketPos : BucketPosition) : Option CAddrMan :=
  if st.vvNew nUBucket nUBucketPos = -1 then some st
  else
    match st.mapInfo.get (st.vvNew nUBucket nUBucketPos) with
    | none => none
    | some infoDelete =>
      if infoDelete.nRefCount ≤ 0 then none
      else
        let st' : CAddrMan :=
          { st with
            mapInfo := st.mapInfo.set (st.vvNew nUBucket nUBucketPos)
              { infoDelete with nRefCount := infoDelete.nRefCount - 1 }
            vvNew := st.vvNew.set nUBucket nUBucketPos (-1) }
        if infoDelete.nRefCount - 1 = 0 then st'.delete (st.vvNew nUBucket nUBucketPos) else some st'

variable (hash : BucketHash)

section

variable (st : CAddrMan)

/-- The first part of `MakeTried`: the entry is taken from all new buckets. -/
def leaveNew (info : CAddrInfo) (nId : Int) : CAddrMan :=
  let cleared := (List.finRange 1024).foldl (SlotTable.clearStep (hash.newPlace st.nKey info.toCService) nId (-1))
    (st.vvNew, info.nRefCount)
  { st with
    vvNew := cleared.1
    mapInfo := st.mapInfo.set nId { info with nRefCount := cleared.2 }
    nNew := st.nNew - 1 }

/-- The entry in a tried slot is taken from it. -/
def leaveTried (infoOld : CAddrInfo) (nIdEvict : Int) (nKBucket : TriedBucket) (nKBucketPos : BucketPosition) :
    CAddrMan :=
  { st with
    mapInfo := st.mapInfo.set nIdEvict { infoOld with fInTried := false }
    vvTried := st.vvTried.set nKBucket nKBucketPos (-1)
    nTried := st.nTried - 1 }

/-- It is entered into the new set again. -/
def returnNew (nIdEvict : Int) (nUBucket : NewBucket) (nUBucketPos : BucketPosition) : Option CAddrMan :=
  if st.vvNew nUBucket nUBucketPos ≠ -1 then none
  else
    (st.mapInfo.get nIdEvict).map fun infoOld =>
      { st with
        mapInfo := st.mapInfo.set nIdEvict { infoOld with nRefCount := 1 }
        vvNew := st.vvNew.set nUBucket nUBucketPos nIdEvict
        nNew := st.nNew + 1 }

/-- The second part: the entry that is in the way goes back to the new table. -/
def evictTried (nKBucket : TriedBucket) (nKBucketPos : BucketPosition) : Option CAddrMan :=
  let nIdEvict := st.vvTried nKBucket nKBucketPos
  if nIdEvict = -1 then some st
  else
    match st.mapInfo.get nIdEvict with
    | none => none
    | some infoOld =>
      let nUBucket := hash.getNewBucket st.nKey infoOld.toCService infoOld.source
      let nUBucketPos := hash.newPlace st.nKey infoOld.toCService nUBucket
      ((st.leaveTried infoOld nIdEvict nKBucket nKBucketPos).clearNew nUBucket nUBucketPos).bind fun st =>
        st.returnNew nIdEvict nUBucket nUBucketPos

def enterTried (nId : Int) (nKBucket : TriedBucket) (nKBucketPos : BucketPosition) : Option CAddrMan :=
  if st.vvTried nKBucket nKBucketPos ≠ -1 then none
  else
    (st.mapInfo.get nId).map fun info =>
      { st with
        vvTried := st.vvTried.set nKBucket nKBucketPos nId
        nTried := st.nTried + 1
        mapInfo := st.mapInfo.set nId { info with fInTried := true } }

/-- `MakeTried`: out of the new table, into the tried one, whose address there goes back. -/
def makeTried (info : CAddrInfo) (nId : Int) : Option CAddrMan :=
  let st₁ := st.leaveNew hash info nId
  match st₁.mapInfo.get nId with
  | none => none
  | some info₁ =>
    if info₁.nRefCount ≠ 0 then none
    else
      let nKBucket := hash.getTriedBucket st.nKey info.toCService
      let nKBucketPos := hash.triedPlace st.nKey info.toCService nKBucket
      (st₁.evictTried hash nKBucket nKBucketPos).bind fun st₂ => st₂.enterTried nId nKBucket nKBucketPos

/-! ## §4. Calls. -/

/-- `Good_`: a success moves the address to the tried table. -/
def good_ (c : AddrChoice) (addr : CService) (nTime : Int) : Option CAddrMan :=
  let st := { st with nLastGood := nTime }
  match st.find addr.toCNetAddr with
  | none => some st
  | some (nId, info) =>
    if info.toCService ≠ addr then some st
    else
      let info := { info with nLastSuccess := nTime, nLastTry := nTime, nAttempts := 0 }
      let st := { st with mapInfo := st.mapInfo.set nId info }
      if info.fInTried then some st
      else
        let nRnd : NewBucket := ⟨c.randomInt 0 1024, Nat.mod_lt _ (by decide)⟩
        if (List.finRange 1024).any fun n => st.vvNew (n + nRnd)
          (hash.newPlace st.nKey info.toCService (n + nRnd)) == nId then
          st.makeTried hash info nId
        else some st

/-- The end of `Add_`: the entry is put into the bucket for its source, or deleted if it is nowhere. `mapInfo[..]`
makes missing entries. -/
def placeNew (c : AddrChoice) (source : CNetAddr) (nId : Int) : Option CAddrMan :=
  match st.mapInfo.get nId with
  | none => none
  | some info =>
    let nUBucket := hash.getNewBucket st.nKey info.toCService source
    let nUBucketPos := hash.newPlace st.nKey info.toCService nUBucket
    let nIdOld := st.vvNew nUBucket nUBucketPos
    if nIdOld = nId then some st
    else
      let st := if nIdOld = -1 then st else { st with mapInfo := st.mapInfo.insertNew nIdOld .blank }
      let fInsert := nIdOld == -1 || (st.mapInfo.get nIdOld).any fun infoExisting =>
        infoExisting.isTerrible (c.getAdjustedTime 1) || (decide (1 < infoExisting.nRefCount) && info.nRefCount == 0)
      if fInsert then
        match st.clearNew nUBucket nUBucketPos with
        | none => none
        | some st =>
          (st.mapInfo.get nId).map fun info =>
            { st with
              mapInfo := st.mapInfo.set nId { info with nRefCount := info.nRefCount + 1 }
              vvNew := st.vvNew.set nUBucket nUBucketPos nId }
      else if info.nRefCount = 0 then st.delete nId
      else some st

/-- What `Add_` updates of an entry that it finds. -/
def refreshed (info : CAddrInfo) (nNow : Int) (addr : CAddress) (nTimePenalty : Int) : CAddrInfo :=
  let nUpdateInterval : Int := if nNow - addr.nTime.toNat < 24 * 60 * 60 then 60 * 60 else 24 * 60 * 60
  let nTime : UInt32 :=
    if addr.nTime ≠ 0 ∧ (info.nTime = 0 ∨ (info.nTime.toNat : Int)
      < addr.nTime.toNat - nUpdateInterval - nTimePenalty) then
      UInt32.ofInt (max 0 (addr.nTime.toNat - nTimePenalty))
    else info.nTime
  { info with nTime := nTime, nServices := info.nServices ||| addr.nServices }

def created (addr : CAddress) (source : CNetAddr) (nTimePenalty : Int) : CAddrMan :=
  let st' := (st.create addr source).2
  { st' with
    mapInfo := st'.mapInfo.set st.nIdCount
      { st.newInfo addr source with nTime := UInt32.ofInt (max 0 (addr.nTime.toNat - nTimePenalty)) }
    nNew := st'.nNew + 1 }

/-- `Add_`, with what it returns. -/
def add_ (c : AddrChoice) (addr : CAddress) (source : CNetAddr) (nTimePenalty : Int) : Option (Bool × CAddrMan) :=
  if addr.toCNetAddr.isRoutable = false then some (false, st)
  else
    match st.find addr.toCNetAddr with
    | some (nId, info) =>
      let info := refreshed info (c.getAdjustedTime 0) addr nTimePenalty
      let st := { st with mapInfo := st.mapInfo.set nId info }
      if addr.nTime = 0 ∨ (info.nTime ≠ 0 ∧ addr.nTime ≤ info.nTime) then some (false, st)
      else if info.fInTried then some (false, st)
      else if info.nRefCount = ADDRMAN_NEW_BUCKETS_PER_ADDRESS then some (false, st)
      else
        let nFactor : Nat := 2 ^ info.nRefCount.toNat
        if 1 < nFactor ∧ c.randomInt 0 nFactor ≠ 0 then some (false, st)
        else (st.placeNew hash c source nId).map fun st => (false, st)
    | none =>
      ((st.created addr source nTimePenalty).placeNew hash c source st.nIdCount).map fun st => (true, st)

def attempt_ (addr : CService) (fCountFailure : Bool) (nTime : Int) : CAddrMan :=
  match st.find addr.toCNetAddr with
  | none => st
  | some (nId, info) =>
    if info.toCService ≠ addr then st
    else
      let info := { info with nLastTry := nTime }
      let info :=
        if fCountFailure = true ∧ info.nLastCountAttempt < st.nLastGood then
          { info with nLastCountAttempt := nTime, nAttempts := info.nAttempts + 1 }
        else info
      { st with mapInfo := st.mapInfo.set nId info }

def connected_ (addr : CService) (nTime : Int) : CAddrMan :=
  match st.find addr.toCNetAddr with
  | none => st
  | some (nId, info) =>
    if info.toCService ≠ addr then st
    else if 20 * 60 < nTime - info.nTime.toNat then
      { st with mapInfo := st.mapInfo.set nId { info with nTime := UInt32.ofInt nTime } }
    else st

def setServices_ (addr : CService) (nServices : UInt64) : CAddrMan :=
  match st.find addr.toCNetAddr with
  | none => st
  | some (nId, info) =>
    if info.toCService ≠ addr then st
    else { st with mapInfo := st.mapInfo.set nId { info with nServices := nServices } }

/-- The loop of `GetAddr_` with `left` places of `vRandom` to go. -/
def getAddrLoop (c : AddrChoice) (nNodes : Nat) : (left : Nat) → CAddrMan → List CAddress →
    Option (List CAddress × CAddrMan)
  | 0, st, vAddr => some (vAddr, st)
  | left + 1, st, vAddr =>
    if nNodes ≤ vAddr.length then some (vAddr, st)
    else
      let n := st.vRandom.length - (left + 1)
      match st.swapRandom n (c.randomInt n (st.vRandom.length - n) + n) with
      | none => none
      | some st =>
        match st.vRandom[n]?.bind st.mapInfo.get with
        | none => none
        | some ai =>
          getAddrLoop c nNodes left st
            (if ai.isTerrible (c.getAdjustedTime n) then vAddr else vAddr ++ [ai.toCAddress])

def getAddr_ (c : AddrChoice) : Option (List CAddress × CAddrMan) :=
  getAddrLoop c (min (ADDRMAN_GETADDR_MAX_PCT * st.vRandom.length / 100) ADDRMAN_GETADDR_MAX) st.vRandom.length st []

/-! ## §5. The consistency check. -/

/-- `Check_`, first loop: one entry. `setTried` and `mapNew` collect the ids. -/
def checkInfo (acc : Finset Int × StdMap Int Int) (n : Int) (info : CAddrInfo) :
    Except Int (Finset Int × StdMap Int Int) :=
  if info.fInTried = true ∧ info.nLastSuccess = 0 then .error (-1)
  else if info.fInTried = true ∧ info.nRefCount ≠ 0 then .error (-2)
  else if info.fInTried = false ∧ (info.nRefCount < 0 ∨
    ADDRMAN_NEW_BUCKETS_PER_ADDRESS < info.nRefCount) then .error (-3)
  else if info.fInTried = false ∧ info.nRefCount = 0 then .error (-4)
  else if (st.mapAddr.get info.toCNetAddr).getD 0 ≠ n then .error (-5)
  else if info.nRandomPos < 0 ∨ st.vRandom.length ≤ info.nRandomPos ∨ st.vRandom[info.nRandomPos.toNat]? ≠ some n then
    .error (-14)
  else if info.nLastTry < 0 then .error (-6)
  else if info.nLastSuccess < 0 then .error (-8)
  else .ok (if info.fInTried then (insert n acc.1, acc.2) else (acc.1, acc.2.set n info.nRefCount))

/-- Second loop: one slot of the tried table. -/
def checkTried (setTried : Finset Int) (slot : TriedBucket × BucketPosition) : Except Int (Finset Int) :=
  let n := st.vvTried slot.1 slot.2
  let info := (st.mapInfo.get n).getD .blank
  if n = -1 then .ok setTried
  else if n ∉ setTried then .error (-11)
  else if hash.getTriedBucket st.nKey info.toCService ≠ slot.1 then .error (-17)
  else if hash.triedPlace st.nKey info.toCService slot.1 ≠ slot.2 then .error (-18)
  else .ok (setTried.erase n)

/-- Third loop: one slot of the new table. -/
def checkNew (mapNew : StdMap Int Int) (slot : NewBucket × BucketPosition) : Except Int (StdMap Int Int) :=
  let n := st.vvNew slot.1 slot.2
  let info := (st.mapInfo.get n).getD .blank
  if n = -1 then .ok mapNew
  else
    match mapNew.get n with
    | none => .error (-12)
    | some left =>
      if hash.newPlace st.nKey info.toCService slot.1 ≠ slot.2 then .error (-19)
      else .ok (if left - 1 = 0 then mapNew.remove n else mapNew.set n (left - 1))

/-- `Check_`: zero, or the number of the check that fails. -/
def check_ : Int :=
  if (st.vRandom.length : Int) ≠ st.nTried + st.nNew then -7
  else
    match st.mapInfo.entries.foldlM (fun acc e => st.checkInfo acc e.1 e.2) (∅, ∅) with
    | .error err => err
    | .ok (setTried, mapNew) =>
      if (setTried.card : Int) ≠ st.nTried then -9
      else if (mapNew.entries.length : Int) ≠ st.nNew then -10
      else
        match (List.finRange 256 ×ˢ List.finRange 64).foldlM (st.checkTried hash) setTried with
        | .error err => err
        | .ok setTried =>
          match (List.finRange 1024 ×ˢ List.finRange 64).foldlM (st.checkNew hash) mapNew with
          | .error err => err
          | .ok mapNew =>
            if setTried.card ≠ 0 then -13
            else if mapNew.entries.length ≠ 0 then -15
            else if st.nKey = 0 then -16
            else 0

end

end CAddrMan

inductive AddrCall where
  | add (addr : CAddress) (source : CNetAddr) (nTimePenalty : Int)
  | good (addr : CService) (nTime : Int)
  | attempt (addr : CService) (fCountFailure : Bool) (nTime : Int)
  | connected (addr : CService) (nTime : Int)
  | setServices (addr : CService) (nServices : UInt64)
  | getAddr

/-- A call; `none` if an assertion fails. -/
def CAddrMan.call (hash : BucketHash) (c : AddrChoice) (st : CAddrMan) : AddrCall → Option CAddrMan
  | .add addr source nTimePenalty => (st.add_ hash c addr source nTimePenalty).map Prod.snd
  | .good addr nTime => st.good_ hash c addr nTime
  | .attempt addr fCountFailure nTime => some (st.attempt_ addr fCountFailure nTime)
  | .connected addr nTime => some (st.connected_ addr nTime)
  | .setServices addr nServices => some (st.setServices_ addr nServices)
  | .getAddr => (st.getAddr_ c).map Prod.snd

end PwrbCore
