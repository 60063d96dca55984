/-
  Node.Sporks — SPORK MESSAGES (`ProcessSpork`, `UpdateSpork` and `LoadSporksFromDB` of `spork.cpp`).

  A message is checked for its time, the form of its signature and the signature, and
  replaces the active message of its spork if it was signed later.  The time, the tip
  and the keys a message is checked with are the node's at the moment (`SporkEnv`);
  penalties and relaying are left out.

  Main results: `sporks_converge`, `signed_apart_iff`, `restart_restores_iff`.
-/
import Mathlib.Data.Finset.Max
import PwrbCore.Lib.NewestWins
import PwrbCore.Primitives.Transaction
import PwrbCore.Script.Asm

namespace PwrbCore

open List

/-! ## §1. Messages. -/

/-- `MessageVersion`: the signature is of a text or of a hash. -/
inductive MessageVersion where
  | strMess
  | hash
  deriving DecidableEq, Repr

structure CSporkMessage where
  nSporkID : Int
  nValue : Int
  nTimeSigned : Int
  vchSig : List UInt8 := []
  nMessVersion : MessageVersion := .hash
  deriving DecidableEq, Repr

variable {spork : CSporkMessage} {S : List CSporkMessage}

/-- The ids of `sporkDefs`. -/
def sporkDefs : List Int :=
  [10001, 10002, 10004, 10007, 10008, 10012, 10013, 10014, 10015, 10017, 10018, 10019, 10020]

/-- What a message is checked with. -/
structure SporkEnv where
  fLiteMode : Bool := false
  /-- `chainActive.Height()`, if there is a tip -/
  nChainHeight : Option Int
  /-- `GetAdjustedTime()` -/
  adjustedTime : Int
  height_start_MessSignaturesV2 : Int := 2100
  nTime_EnforceNewSporkKey : Int := 1584552673
  nTime_RejectOldSporkKey : Int := 1569538800
  /-- `CheckSignature` with the spork key -/
  checkSignature : CSporkMessage → Bool
  /-- `CheckSignature` with the old spork key -/
  checkSignatureOld : CSporkMessage → Bool

namespace SporkEnv

section

variable (env : SporkEnv) (spork : CSporkMessage)

/-- The node follows sporks, has a chain, and knows the spork. -/
def looksAt : Bool :=
  !env.fLiteMode && env.nChainHeight.isSome && decide (spork.nSporkID ∈ sporkDefs)

/-- Not signed in the future, and not in a form that is no longer accepted. -/
def timely : Bool :=
  decide (spork.nTimeSigned ≤ env.adjustedTime + 2 * 60 * 60)
    && (decide (spork.nMessVersion = .hash)
      || !(env.nChainHeight.any fun nChainHeight => decide (env.height_start_MessSignaturesV2 ≤ nChainHeight - 600)))

/-- `fValidSig`: the old key signs old messages, for a while. -/
def validSig : Bool :=
  env.checkSignature spork
    || (!decide (env.nTime_EnforceNewSporkKey ≤ spork.nTimeSigned)
      && decide (env.adjustedTime < env.nTime_RejectOldSporkKey) && env.checkSignatureOld spork)

def passes : Bool :=
  env.looksAt spork && env.timely spork && env.validSig spork

end

end SporkEnv

/-! ## §2. `ProcessSpork`. -/

structure CSporkManager where
  mapSporks : StdMap Uint256 CSporkMessage := ∅
  mapSporksActive : StdMap Int CSporkMessage := ∅
  /-- `pSporkDB` -/
  sporkDB : StdMap Int CSporkMessage := ∅

variable {st : CSporkManager}

/-- The active message of the spork was signed at the same time or later. -/
def CSporkManager.moreRecent (st : CSporkManager) (spork : CSporkMessage) : Bool :=
  match st.mapSporksActive.get spork.nSporkID with
  | some active => decide (spork.nTimeSigned ≤ active.nTimeSigned)
  | none => false

/-- `ProcessSpork` of a spork message; `getHash` is `CSporkMessage::GetHash`. -/
def processSpork (getHash : CSporkMessage → Uint256) (env : SporkEnv) (st : CSporkManager) (spork : CSporkMessage) :
    CSporkManager :=
  if env.looksAt spork = false then st
  else if env.timely spork = false then st
  else if st.moreRecent spork then st
  else if env.validSig spork = false then st
  else
    { mapSporks := st.mapSporks.set (getHash spork) spork
      mapSporksActive := st.mapSporksActive.set spork.nSporkID spork
      sporkDB := st.sporkDB.set spork.nSporkID spork }

def processSporks (getHash : CSporkMessage → Uint256) (deliveries : List (SporkEnv × CSporkMessage))
    (st : CSporkManager) : CSporkManager :=
  deliveries.foldl (fun st d => processSpork getHash d.1 st d.2) st

/-! ## §3. What deliveries leave behind. -/

open NewestWins

variable {getHash : CSporkMessage → Uint256}

theorem processSpork_of_invalid {env : SporkEnv} (h : env.validSig spork = false)
    (st : CSporkManager) : processSpork getHash env st spork = st := by
  unfold processSpork
  split_ifs <;> rfl

/-- **One message**: the active sporks keep the newest of those that pass. -/
theorem processSpork_active (env : SporkEnv) (st : CSporkManager) (spork : CSporkMessage) :
    (processSpork getHash env st spork).mapSporksActive
      = if env.passes spork then offer CSporkMessage.nSporkID CSporkMessage.nTimeSigned 1 st.mapSporksActive spork
        else st.mapSporksActive := by
  unfold processSpork SporkEnv.passes
  cases env.looksAt spork with
  | false => rfl
  | true =>
    cases env.timely spork with
    | false => rfl
    | true =>
      cases env.validSig spork with
      | false =>
        show (if st.moreRecent spork = true then st else st).mapSporksActive = _
        rw [ite_self]
        rfl
      | true =>
        -- the comparison with the active message is that of the library
        show (if st.moreRecent spork = true then st else _).mapSporksActive = offer _ _ _ _ _
        unfold CSporkManager.moreRecent offer
        grind

def passing (deliveries : List (SporkEnv × CSporkMessage)) : List CSporkMessage :=
  (deliveries.filter fun d => d.1.passes d.2).map Prod.snd

/-- **A sequence of messages**: only those that pass count. -/
theorem processSporks_active (deliveries : List (SporkEnv × CSporkMessage)) (st : CSporkManager) :
    (processSporks getHash deliveries st).mapSporksActive
      = (passing deliveries).foldl (offer CSporkMessage.nSporkID CSporkMessage.nTimeSigned 1) st.mapSporksActive := by
  unfold processSporks passing
  rw [foldl_map, foldl_filter]
  exact (foldl_hom CSporkManager.mapSporksActive fun st d => (processSpork_active d.1 st d.2).symm).symm

/-- The messages that pass are those of the set, each delivered once or more. -/
def Delivers (S : List CSporkMessage) (deliveries : List (SporkEnv × CSporkMessage)) : Prop :=
  ∀ spork, spork ∈ passing deliveries ↔ spork ∈ S

def SignedLast (S : List CSporkMessage) (spork : CSporkMessage) : Prop :=
  spork ∈ S ∧ ∀ other ∈ S, other.nSporkID = spork.nSporkID → other.nTimeSigned ≤ spork.nTimeSigned

/-- The greatest time of each spork is attained by a single message. -/
def SingleLast (S : List CSporkMessage) : Prop :=
  ∀ spork other, SignedLast S spork → SignedLast S other → spork.nSporkID = other.nSporkID → spork = other

theorem exists_signedLast (h : spork ∈ S) : ∃ last, SignedLast S last ∧ last.nSporkID = spork.nSporkID := by
  obtain ⟨last, hlast, hmax⟩ := (S.filter fun x => decide (x.nSporkID = spork.nSporkID)).toFinset.exists_max_image
    CSporkMessage.nTimeSigned ⟨spork, by simp [h]⟩
  simp only [mem_toFinset, mem_filter, decide_eq_true_iff] at hlast hmax
  refine ⟨last, ⟨hlast.1, ?_⟩, hlast.2⟩
  intro other hother hid
  exact hmax other ⟨hother, hid.trans hlast.2⟩

theorem SingleLast.newest (h : SingleLast S) {last : CSporkMessage} (hlast : SignedLast S last) :
    Newest CSporkMessage.nSporkID CSporkMessage.nTimeSigned 1 S last where
  mem := hlast.1
  spaced := by
    intro other hother hid
    have hle := hlast.2 other hother hid
    by_cases heq : other.nTimeSigned = last.nTimeSigned
    · left
      refine h other last ⟨hother, ?_⟩ hlast hid
      intro x hx hxid
      rw [heq]
      exact hlast.2 x hx (hxid.trans hid)
    · right
      omega

/-- What is active after all messages of a set were delivered to a node without sporks. -/
theorem active_of_delivers (getHash : CSporkMessage → Uint256) {deliveries : List (SporkEnv × CSporkMessage)}
    (hd : Delivers S deliveries) (hempty : st.mapSporksActive = ∅) (hsingle : SingleLast S) :
    (∀ last, SignedLast S last → (processSporks getHash deliveries st).mapSporksActive.get last.nSporkID = some last) ∧
      ∀ id, (∀ spork ∈ S, spork.nSporkID ≠ id) →
          (processSporks getHash deliveries st).mapSporksActive.get id = none := by
  rw [processSporks_active, hempty]
  constructor
  · intro last hlast
    refine foldl_offer_of_newest (by omega) (hsingle.newest hlast) (fun y hy => (hd y).mp hy) ?_
      (.inl ((hd last).mpr hlast.1))
    intro y hy
    cases hy
  · intro id hid
    rw [foldl_offer_of_unused fun x hx => hid x ((hd x).mp hx)]
    rfl

/-- **Sporks converge.** Two nodes without active sporks to which the same valid messages are delivered, in any
orders, with repetitions and with invalid messages in between, end with the same active sporks: of each spork the
message signed last, if a single message has the greatest time. A message with an invalid signature changes neither
map nor the database. -/
theorem sporks_converge (getHash : CSporkMessage → Uint256) :
    (∀ (S : List CSporkMessage) (d₁ d₂ : List (SporkEnv × CSporkMessage)) (st₁ st₂ : CSporkManager),
      Delivers S d₁ → Delivers S d₂ → st₁.mapSporksActive = ∅ → st₂.mapSporksActive = ∅ → SingleLast S →
      (∀ id, (processSporks getHash d₁ st₁).mapSporksActive.get id
          = (processSporks getHash d₂ st₂).mapSporksActive.get id) ∧ ∀ last, SignedLast S last →
          (processSporks getHash d₁ st₁).mapSporksActive.get last.nSporkID = some last) ∧
      ∀ (env : SporkEnv) (st : CSporkManager) (spork : CSporkMessage), env.validSig spork = false →
        processSpork getHash env st spork = st := by
  refine ⟨?_, fun env st spork h => processSpork_of_invalid h st⟩
  intro S d₁ d₂ st₁ st₂ hd1 hd2 hempty1 hempty2 hsingle
  obtain ⟨hlast1, hnone1⟩ := active_of_delivers getHash hd1 hempty1 hsingle
  obtain ⟨hlast2, hnone2⟩ := active_of_delivers getHash hd2 hempty2 hsingle
  refine ⟨?_, hlast1⟩
  intro id
  by_cases hid : ∃ spork ∈ S, spork.nSporkID = id
  · grind [exists_signedLast]
  · simp_all

def sampleSporkEnv : SporkEnv where
  nChainHeight := some 5000
  adjustedTime := 100
  checkSignature spork := decide (spork.vchSig.length = 1)
  checkSignatureOld _ := false

def sampleSpork (nTimeSigned : Int) (vchSig : List UInt8) : CSporkMessage where
  nSporkID := 10019
  nValue := 201901010102030405 + nTimeSigned
  nTimeSigned := nTimeSigned
  vchSig := vchSig

/-- Two messages in both orders, once with a repetition and a forged one in between. -/
theorem two_orders_agree :
    (processSporks (fun _ => 0) [(sampleSporkEnv, sampleSpork 5 [1]), (sampleSporkEnv, sampleSpork 9 [1])] {}
        ).mapSporksActive.get 10019 = some (sampleSpork 9 [1]) ∧
      (processSporks (fun _ => 0) [(sampleSporkEnv, sampleSpork 5 [1]), (sampleSporkEnv, sampleSpork 9 [1])] {}
          ).mapSporksActive.get 10019
        = (processSporks (fun _ => 0) [(sampleSporkEnv, sampleSpork 9 [1]), (sampleSporkEnv, sampleSpork 20 []),
            (sampleSporkEnv, sampleSpork 5 [1]), (sampleSporkEnv, sampleSpork 5 [1])]
                {}).mapSporksActive.get 10019 := by
  have hd1 : Delivers [sampleSpork 5 [1], sampleSpork 9 [1]]
      [(sampleSporkEnv, sampleSpork 5 [1]), (sampleSporkEnv, sampleSpork 9 [1])] := fun spork => .rfl
  have hd2 : Delivers [sampleSpork 5 [1], sampleSpork 9 [1]]
      [(sampleSporkEnv, sampleSpork 9 [1]), (sampleSporkEnv, sampleSpork 20 []),
        (sampleSporkEnv, sampleSpork 5 [1]), (sampleSporkEnv, sampleSpork 5 [1])] := by
    intro spork
    show spork ∈ [sampleSpork 9 [1], sampleSpork 5 [1], sampleSpork 5 [1]] ↔ _
    simp only [mem_cons, not_mem_nil, or_false, or_self]
    exact or_comm
  have hlast : SignedLast [sampleSpork 5 [1], sampleSpork 9 [1]] (sampleSpork 9 [1]) := ⟨by decide, by decide⟩
  have hsingle : SingleLast [sampleSpork 5 [1], sampleSpork 9 [1]] := by
    have honly : ∀ x, SignedLast [sampleSpork 5 [1], sampleSpork 9 [1]] x → x = sampleSpork 9 [1] := by
      intro x hx
      rcases mem_cons.mp hx.1 with rfl | hmem
      · exact absurd (hx.2 (sampleSpork 9 [1]) (by decide) rfl) (by decide)
      · exact mem_singleton.mp hmem
    intro x y hx hy _
    rw [honly x hx, honly y hy]
  obtain ⟨hsame, hnewest⟩ := (sporks_converge (fun _ => 0)).1 _ _ _ {} {} hd1 hd2 rfl rfl hsingle
  exact ⟨hnewest _ hlast, hsame 10019⟩

/-! ## §4. What is signed. -/

namespace CSporkMessage

def getStrMessage (spork : CSporkMessage) : List Char :=
  intToStr spork.nSporkID ++ (intToStr spork.nValue ++ intToStr spork.nTimeSigned)

variable {H : Type} (hash : MessageVersion × Int × Int × Int → H)

/-- `GetSignatureHash`; `hash` is that of the fields written one after the other. -/
def getSignatureHash (spork : CSporkMessage) : H :=
  hash (spork.nMessVersion, spork.nSporkID, spork.nValue, spork.nTimeSigned)

/-- What the signature is of. -/
def signed (spork : CSporkMessage) : List Char ⊕ H :=
  if spork.nMessVersion = .hash then .inr (spork.getSignatureHash hash) else .inl spork.getStrMessage

end CSporkMessage

/-- Characters cross the boundary between two texts. -/
def Crosses (x y x' y' : List Char) : Prop := ∃ d, d ≠ [] ∧ (x' = x ++ d ∧ y = d ++ y' ∨ x = x' ++ d ∧ y' = d ++ y)

theorem append_eq_iff_crosses {x y x' y' : List Char} : x ++ y = x' ++ y' ↔ x = x' ∧ y = y' ∨ Crosses x y x' y' := by
  constructor
  · intro h
    by_cases hx : x = x'
    · exact .inl ⟨hx, append_cancel_left (hx ▸ h)⟩
    -- one of the two left texts is a proper part of the other
    right
    rcases append_eq_append_iff.mp h with ⟨d, hd⟩ | ⟨d, hd⟩
    · exact ⟨d, fun hnil => hx (by simp [hd.1, hnil]), .inl hd⟩
    · exact ⟨d, fun hnil => hx (by simp [hd.1, hnil]), .inr hd⟩
  · rintro (⟨rfl, rfl⟩ | ⟨d, -, ⟨rfl, rfl⟩ | ⟨rfl, rfl⟩⟩) <;> simp

/-- **Two messages are signed apart** in both versions unless digits cross from one number to the next: between value
and time of one spork, or between the id and what follows. -/
theorem signed_apart_iff {H : Type} {hash : MessageVersion × Int × Int × Int → H} (hinj : Function.Injective hash)
    {a b : CSporkMessage} (hne : (a.nSporkID, a.nValue, a.nTimeSigned) ≠ (b.nSporkID, b.nValue, b.nTimeSigned)) :
    (∀ nMessVersion, CSporkMessage.signed hash { a with nMessVersion }
      ≠ CSporkMessage.signed hash { b with nMessVersion }) ↔
      ¬ (a.nSporkID = b.nSporkID ∧
          Crosses (intToStr a.nValue) (intToStr a.nTimeSigned) (intToStr b.nValue) (intToStr b.nTimeSigned)) ∧
        ¬ Crosses (intToStr a.nSporkID) (intToStr a.nValue ++ intToStr a.nTimeSigned)
          (intToStr b.nSporkID) (intToStr b.nValue ++ intToStr b.nTimeSigned) := by
  have hhash : CSporkMessage.signed hash { a with nMessVersion := .hash }
      ≠ CSporkMessage.signed hash { b with nMessVersion := .hash } := by
    intro h
    exact hne (congrArg Prod.snd (hinj (Sum.inr.inj h)))
  have htext : a.getStrMessage = b.getStrMessage ↔ (a.nSporkID = b.nSporkID ∧
          Crosses (intToStr a.nValue) (intToStr a.nTimeSigned) (intToStr b.nValue) (intToStr b.nTimeSigned)) ∨
        Crosses (intToStr a.nSporkID) (intToStr a.nValue ++ intToStr a.nTimeSigned)
          (intToStr b.nSporkID) (intToStr b.nValue ++ intToStr b.nTimeSigned) := by
    unfold CSporkMessage.getStrMessage
    rw [append_eq_iff_crosses, append_eq_iff_crosses, intToStr_injective.eq_iff, intToStr_injective.eq_iff,
      intToStr_injective.eq_iff]
    refine or_congr (and_congr_right fun hid => or_iff_right ?_) .rfl
    intro hsame
    exact hne (by rw [hid, hsame.1, hsame.2])
  rw [← not_or, ← htext]
  constructor
  · intro h heq
    exact h .strMess (congrArg Sum.inl heq)
  intro h nMessVersion
  cases nMessVersion with
  | hash => exact hhash
  | strMess => exact fun heq => h (Sum.inl.inj heq)

/-- A draw result and another one whose last digit is the first of the time. -/
def shortResult : CSporkMessage := ⟨10019, 1, 23, [1], .strMess⟩

def longResult : CSporkMessage := ⟨10019, 12, 3, [1], .strMess⟩

theorem later_result_apart : shortResult.nTimeSigned ≠ 24 ∧
    ∀ nMessVersion, CSporkMessage.signed id { shortResult with nMessVersion }
    ≠ CSporkMessage.signed id { shortResult with nTimeSigned := 24, nMessVersion } := by
  have hnone : ∀ x y y', ¬ Crosses x y x y' := by
    rintro x y y' ⟨d, hd, ⟨hx, -⟩ | ⟨hx, -⟩⟩ <;> exact hd (self_eq_append_right.mp hx)
  exact ⟨by decide,
    (signed_apart_iff Function.injective_id (b := { shortResult with nTimeSigned := 24 }) (by decide)).mpr
    ⟨fun h => hnone _ _ _ h.2, hnone _ _ _⟩⟩

/-- **One signature for two results.** A node that takes the signature of the first result for that alone takes the
second with it. -/
theorem signature_carries_over :
    ∃ env : SporkEnv, (∀ spork, env.checkSignature spork = decide (spork.signed id = shortResult.signed id)) ∧
      shortResult.nValue ≠ longResult.nValue ∧ shortResult.vchSig = longResult.vchSig ∧
      env.passes shortResult = true ∧ env.passes longResult = true :=
  ⟨⟨false, some 2000, 100, 2100, 1584552673, 1569538800, fun spork => decide (spork.signed id = shortResult.signed id),
    fun _ => false⟩, fun _ => rfl, by decide, rfl, by decide, by decide⟩

/-! ## §5. Restarting. -/

namespace CSporkManager

variable (getHash : CSporkMessage → Uint256)

/-- `UpdateSpork`; `signature` is what `Sign` sets, if it succeeds. -/
def updateSpork (st : CSporkManager) (nSporkID nValue now : Int) (signature : Option (List UInt8 × MessageVersion)) :
    CSporkManager :=
  match signature with
  | none => st
  | some (vchSig, nMessVersion) =>
    let spork : CSporkMessage := ⟨nSporkID, nValue, now, vchSig, nMessVersion⟩
    { st with
      mapSporks := st.mapSporks.set (getHash spork) spork
      mapSporksActive := st.mapSporksActive.set nSporkID spork }

/-- The body of the loop in `LoadSporksFromDB`. -/
def loadSpork (st : CSporkManager) (sporkId : Int) : CSporkManager :=
  match st.sporkDB.get sporkId with
  | none => st
  | some spork =>
    { st with
      mapSporks := st.mapSporks.set (getHash spork) spork
      mapSporksActive := st.mapSporksActive.set spork.nSporkID spork }

/-- The memory is cleared, and `LoadSporksFromDB` runs. -/
def restart (st : CSporkManager) : CSporkManager := sporkDefs.foldl (loadSpork getHash) { sporkDB := st.sporkDB }

def Restores (st : CSporkManager) : Prop :=
  ∀ id, (st.restart getHash).mapSporksActive.get id = st.mapSporksActive.get id

def Keyed (st : CSporkManager) : Prop := ∀ id spork, st.sporkDB.get id = some spork → spork.nSporkID = id

variable {getHash}

theorem foldl_loadSpork (hkeyed : st.Keyed) (ids : List Int) :
    (ids.foldl (loadSpork getHash) { sporkDB := st.sporkDB }).sporkDB = st.sporkDB ∧
      ∀ id, (ids.foldl (loadSpork getHash) { sporkDB := st.sporkDB }).mapSporksActive.get id
        = if id ∈ ids then st.sporkDB.get id else none := by
  induction ids using reverseRecOn with
  | nil => exact ⟨rfl, fun _ => rfl⟩
  | append_singleton ids last ih =>
    rw [foldl_append, foldl_cons]
    generalize ids.foldl (loadSpork getHash) { sporkDB := st.sporkDB } = st' at ih ⊢
    obtain ⟨hdb, hactive⟩ := ih
    unfold loadSpork
    rw [hdb]
    cases hget : st.sporkDB.get last with
    | none =>
      refine ⟨hdb, fun id => ?_⟩
      show st'.mapSporksActive.get id = _
      rw [hactive]
      by_cases hid : id = last
      · simp [hid, hget]
      · simp [hid]
    | some spork =>
      refine ⟨rfl, fun id => ?_⟩
      show (st'.mapSporksActive.set spork.nSporkID spork).get id = _
      rw [hkeyed last spork hget, StdMap.get_set, hactive]
      by_cases hid : id = last
      · simp [hid, hget]
      · simp [hid]

/-- A restart leaves the entries of the database that are of known sporks. -/
theorem restart_eq (hkeyed : st.Keyed) : (st.restart getHash).sporkDB = st.sporkDB ∧
    ∀ id, (st.restart getHash).mapSporksActive.get id = if id ∈ sporkDefs then st.sporkDB.get id else none :=
  foldl_loadSpork hkeyed sporkDefs

theorem restores_iff (hkeyed : st.Keyed) :
    st.Restores getHash ↔ ∀ id, st.mapSporksActive.get id = if id ∈ sporkDefs then st.sporkDB.get id else none := by
  unfold Restores
  simp only [(restart_eq hkeyed).2]
  exact forall_congr' fun id => eq_comm

end CSporkManager

inductive SporkCall where
  | process (env : SporkEnv) (spork : CSporkMessage)
  | update (nSporkID nValue now : Int) (signature : Option (List UInt8 × MessageVersion))
  | restart

namespace SporkCall

open CSporkManager

def step (getHash : CSporkMessage → Uint256) (st : CSporkManager) : SporkCall → CSporkManager
  | process env spork => processSpork getHash env st spork
  | update nSporkID nValue now signature => st.updateSpork getHash nSporkID nValue now signature
  | restart => st.restart getHash

def run (getHash : CSporkMessage → Uint256) (calls : List SporkCall) : CSporkManager := calls.foldl (step getHash) {}

/-- No `UpdateSpork` that succeeds, unless with what the database has of a known spork. -/
def Recorded (st : CSporkManager) : SporkCall → Prop
  | update nSporkID nValue now (some (vchSig, nMessVersion)) =>
    nSporkID ∈ sporkDefs ∧ st.sporkDB.get nSporkID = some ⟨nSporkID, nValue, now, vchSig, nMessVersion⟩
  | _ => True

theorem processSpork_cases (env : SporkEnv) (st : CSporkManager) (spork : CSporkMessage) :
    processSpork getHash env st spork = st ∨ spork.nSporkID ∈ sporkDefs ∧ processSpork getHash env st spork =
      { mapSporks := st.mapSporks.set (getHash spork) spork
        mapSporksActive := st.mapSporksActive.set spork.nSporkID spork
        sporkDB := st.sporkDB.set spork.nSporkID spork } := by
  unfold processSpork
  split_ifs with hlooks
  case neg =>
    refine .inr ⟨?_, rfl⟩
    simp only [SporkEnv.looksAt, Bool.not_eq_false, Bool.and_eq_true, decide_eq_true_iff] at hlooks
    exact hlooks.2
  all_goals exact .inl rfl

theorem keyed_step (hkeyed : st.Keyed) (call : SporkCall) : (call.step getHash st).Keyed := by
  cases call with
  | process env spork =>
    show (processSpork getHash env st spork).Keyed
    rcases @processSpork_cases getHash env st spork with h | ⟨-, h⟩
    · rw [h]
      exact hkeyed
    rw [h]
    intro id found hfound
    rw [StdMap.get_set] at hfound
    split_ifs at hfound with hid
    · exact Option.some.inj hfound ▸ hid.symm
    · exact hkeyed id found hfound
  | update nSporkID nValue now signature =>
    cases signature <;> exact hkeyed
  | restart =>
    show (st.restart getHash).Keyed
    unfold Keyed
    rw [(restart_eq hkeyed).1]
    exact hkeyed

/-- **One call.** -/
theorem restores_step_iff (hkeyed : st.Keyed) (hst : st.Restores getHash) (call : SporkCall) :
    (call.step getHash st).Restores getHash ↔ call.Recorded st := by
  rw [restores_iff (keyed_step hkeyed call)]
  rw [restores_iff hkeyed] at hst
  cases call with
  | process env spork =>
    refine iff_of_true (fun id => ?_) trivial
    show (processSpork getHash env st spork).mapSporksActive.get id
      = if _ then (processSpork getHash env st spork).sporkDB.get id else _
    rcases @processSpork_cases getHash env st spork with h | ⟨hid, h⟩
    · rw [h]
      exact hst id
    simp only [h, StdMap.get_set]
    by_cases heq : id = spork.nSporkID
    · simp [heq, hid]
    · simp [heq, hst id]
  | update nSporkID nValue now signature =>
    cases signature with
    | none => exact iff_of_true hst trivial
    | some signature =>
      show (∀ id, (st.mapSporksActive.set nSporkID _).get id
        = if id ∈ sporkDefs then st.sporkDB.get id else none) ↔ _ ∧ _
      constructor
      · intro h
        have hid := h nSporkID
        rw [StdMap.get_set_self] at hid
        split_ifs at hid with hmem
        exact ⟨hmem, hid.symm⟩
      · rintro ⟨hmem, hget⟩ id
        rw [StdMap.get_set]
        by_cases heq : id = nSporkID
        · simp [heq, hmem, hget]
        · simp [heq, hst id]
  | restart =>
    refine iff_of_true (fun id => ?_) trivial
    show (st.restart getHash).mapSporksActive.get id = if _ then (st.restart getHash).sporkDB.get id else _
    rw [(restart_eq hkeyed).1, (restart_eq hkeyed).2]

/-- **A restart loses what was not recorded.**  Along every run, restarting restores the active sporks at each
point if and only if each `UpdateSpork` that succeeds repeats what the database has. -/
theorem restart_restores_iff (getHash : CSporkMessage → Uint256) (calls : List SporkCall) :
    (∀ done, done <+: calls → (run getHash done).Restores getHash) ↔
      ∀ done call, done ++ [call] <+: calls → call.Recorded (run getHash done) := by
  have hkeyed : ∀ done, (run getHash done).Keyed := by
    intro done
    exact foldlRecOn done _ (fun _ _ hget => by cases hget) fun _ h call _ => keyed_step h call
  have hsnoc : ∀ done call, run getHash (done ++ [call]) = call.step getHash (run getHash done) := by
    intro done call
    unfold run
    rw [foldl_append]
    rfl
  constructor
  · intro h done call hdone
    refine (restores_step_iff (hkeyed done) (h done (.trans ⟨_, rfl⟩ hdone)) call).mp ?_
    exact hsnoc done call ▸ h _ hdone
  intro h done
  induction done using reverseRecOn with
  | nil =>
    intro _
    exact (restores_iff (hkeyed [])).mpr fun id => by split_ifs <;> rfl
  | append_singleton done call ih =>
    intro hdone
    rw [hsnoc]
    exact (restores_step_iff (hkeyed done) (ih (.trans ⟨_, rfl⟩ hdone)) call).mpr (h done call hdone)

/-- An `UpdateSpork` on the node that has the key is gone after a restart. -/
theorem updated_spork_lost :
    (run (fun _ => 0) [.update 10019 202010030511223344 1601780400 (some ([1], .hash))]).mapSporksActive.get 10019
        = some ⟨10019, 202010030511223344, 1601780400, [1], .hash⟩ ∧
      ((run (fun _ => 0) [.update 10019 202010030511223344 1601780400 (some ([1], .hash))]).restart
        fun _ => 0).mapSporksActive.get 10019 = none :=
  ⟨by decide, by decide⟩

end SporkCall

end PwrbCore
