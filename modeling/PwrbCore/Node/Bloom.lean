/-
  Node.Bloom — THE FILTER OF A LIGHT CLIENT (`bloom.cpp`).

  `CBloomFilter` answers "maybe" or "no".  With `BLOOM_UPDATE_ALL` the node adds the outputs
  that match to the filter, so that the client hears of the transactions that spend them.
  The hash function is a parameter, and so is the serial read from a zerocoin spend.

  Main result: `tracked_spends_relevant`.
-/
import PwrbCore.Script.Standard
import PwrbCore.Serialize.Fields

namespace PwrbCore

open List

/-! ## §1. The filter. -/

variable {v : List UInt8} {n : Nat} {txout : CTxOut}

structure BloomEnv where
  MurmurHash3 : UInt32 → List UInt8 → UInt32
  parseSerial : List UInt8 → List UInt8

structure CBloomFilter where
  vData : List UInt8
  isFull : Bool := false
  isEmpty : Bool := false
  nHashFuncs : Nat
  nTweak : UInt32
  nFlags : UInt8

def BLOOM_UPDATE_ALL : UInt8 := 1
def BLOOM_UPDATE_P2PUBKEY_ONLY : UInt8 := 2
def BLOOM_UPDATE_MASK : UInt8 := 3

/-- `1 << (7 & nIndex)`. -/
def bitMask (nIndex : Nat) : UInt8 := 1 <<< UInt8.ofNat (nIndex % 8)

def setBit (vData : List UInt8) (nIndex : Nat) : List UInt8 := vData.modify (nIndex / 8) (· ||| bitMask nIndex)

def hasBit (vData : List UInt8) (nIndex : Nat) : Bool := vData.getD (nIndex / 8) 0 &&& bitMask nIndex != 0

/-- The data that `GetOp` parses from a script, up to the first instruction that does not parse. -/
def parsedData : Nat → CScript → List (List UInt8)
  | 0, _ => []
  | fuel + 1, pc =>
    match CScript.getOp pc with
    | none => []
    | some (_, data, pc) => data :: parsedData fuel pc

def CScript.parsedData (script : CScript) : List (List UInt8) := PwrbCore.parsedData script.length script

namespace CBloomFilter

variable (env : BloomEnv) (f : CBloomFilter)

def hash (nHashNum : Nat) (vDataToHash : List UInt8) : Nat :=
  (env.MurmurHash3 (UInt32.ofNat nHashNum * 0xFBA4C795 + f.nTweak) vDataToHash).toNat % (f.vData.length * 8)

def insert (vKey : List UInt8) : CBloomFilter :=
  if f.isFull then f
  else
    { f with
      vData := (range f.nHashFuncs).foldl (fun vData i => setBit vData (f.hash env i vKey)) f.vData
      isEmpty := false }

def contains (vKey : List UInt8) : Bool :=
  if f.isFull then true
  else if f.isEmpty then false
  else (range f.nHashFuncs).all fun i => hasBit f.vData (f.hash env i vKey)

/-- The scan of a script: `replaced` is what the zerocoin branches put in place of the data. -/
def scan (script : CScript) (replaced : Option (List UInt8)) : Bool :=
  script.parsedData.any fun data =>
    let data := replaced.getD data
    data.length != 0 && f.contains env data

/-- What a matching output `outpoint` does to the filter. -/
def update (outpoint : COutPoint) (scriptPubKey : CScript) : CBloomFilter :=
  if f.nFlags &&& BLOOM_UPDATE_MASK = BLOOM_UPDATE_ALL then f.insert env outpoint.serialize
  else if f.nFlags &&& BLOOM_UPDATE_MASK = BLOOM_UPDATE_P2PUBKEY_ONLY then
    match solver scriptPubKey with
    | some (.pubKey, _) | some (.multiSig, _) => f.insert env outpoint.serialize
    | _ => f
  else f

/-- The scan of an output looks at the commitment of a mint, whatever was parsed. -/
def scanScriptPubKey (txout : CTxOut) : Bool :=
  f.scan env txout.scriptPubKey (if txout.isZerocoinMint then some (txout.scriptPubKey.drop 6) else none)

/-- One turn of the loop over the outputs: `fFound` and the filter. -/
def scanOutput (hash : Uint256) (r : Bool × CBloomFilter) (output : CTxOut × Nat) : Bool × CBloomFilter :=
  if r.2.scanScriptPubKey env output.1 then (true, r.2.update env ⟨hash, output.2⟩ output.1.scriptPubKey) else r

def scanInput (txin : CTxIn) : Bool :=
  f.contains env txin.prevout.serialize ||
    f.scan env txin.scriptSig (if txin.isZerocoinSpend then some (env.parseSerial (txin.scriptSig.drop 44)) else none)

def isRelevantAndUpdate (tx : CTransaction) : Bool × CBloomFilter :=
  if f.isFull then (true, f)
  else if f.isEmpty then (false, f)
  else
    let (fFound, f) := tx.vout.zipIdx.foldl (scanOutput env tx.hash) (f.contains env tx.hash.serialize, f)
    (fFound || tx.vin.any (f.scanInput env), f)

/-- The filter after some transactions. -/
def process (txs : List CTransaction) : CBloomFilter := txs.foldl (fun f tx => (f.isRelevantAndUpdate env tx).2) f

/-! ## §2. A filter only grows. -/

/-- `f'` is `f` with more bits set. -/
structure Grows (f f' : CBloomFilter) : Prop where
  size : f'.vData.length = f.vData.length
  funcs : f'.nHashFuncs = f.nHashFuncs
  tweak : f'.nTweak = f.nTweak
  flags : f'.nFlags = f.nFlags
  full : f'.isFull = f.isFull
  empty : f.isEmpty = false → f'.isEmpty = false
  bits : ∀ n, hasBit f.vData n = true → hasBit f'.vData n = true

variable {f f' f'' : CBloomFilter} {vKey : List UInt8}

theorem Grows.refl : Grows f f := ⟨rfl, rfl, rfl, rfl, rfl, id, fun _ => id⟩

theorem Grows.trans (h : Grows f f') (h' : Grows f' f'') : Grows f f'' :=
  ⟨h'.size.trans h.size, h'.funcs.trans h.funcs, h'.tweak.trans h.tweak, h'.flags.trans h.flags,
    h'.full.trans h.full, fun he => h'.empty (h.empty he), fun n hn => h'.bits n (h.bits n hn)⟩

variable {env} in
theorem Grows.contains (h : Grows f f') (hin : f.contains env vKey = true) : f'.contains env vKey = true := by
  unfold CBloomFilter.contains at hin ⊢
  rw [h.full, h.funcs]
  by_cases hfull : f.isFull = true
  · rw [if_pos hfull]
  rw [if_neg hfull] at hin ⊢
  by_cases hempty : f.isEmpty = true
  · rw [if_pos hempty] at hin
    cases hin
  rw [if_neg hempty] at hin
  rw [h.empty (by simpa using hempty), if_neg (by decide)]
  rw [all_eq_true] at hin ⊢
  intro i hi
  have hhash : f'.hash env i vKey = f.hash env i vKey := by simp only [hash, h.size, h.tweak]
  rw [hhash]
  exact h.bits _ (hin i hi)

theorem or_and_mask (b c m : UInt8) : (b ||| c) &&& m = b &&& m ||| c &&& m := by
  apply UInt8.toBitVec_inj.1
  ext i
  simp [Bool.and_or_distrib_right]

theorem hasBit_setBit (m : Nat) (h : hasBit v n = true) : hasBit (setBit v m) n = true := by
  unfold hasBit setBit at *
  rw [getD_eq_getElem?_getD] at *
  rw [getElem?_modify]
  cases hv : v[n / 8]? with
  | none => simp [hv] at h
  | some b =>
    rw [hv] at h
    by_cases hm : m / 8 = n / 8
    · simp_all [or_and_mask, UInt8.or_eq_zero_iff]
    · simpa [hm] using h

theorem hasBit_setBit_self (h : n < v.length * 8) : hasBit (setBit v n) n = true := by
  have hmask : ∀ k < 8, (1 : UInt8) <<< UInt8.ofNat k ≠ 0 := by decide
  have hlt : n / 8 < v.length := by omega
  unfold hasBit setBit
  rw [getD_eq_getElem?_getD, getElem?_modify, getElem?_eq_getElem hlt]
  simp [or_and_mask, UInt8.or_eq_zero_iff, bitMask, hmask (n % 8) (Nat.mod_lt _ (by decide))]

/-- Setting bits one after the other keeps the size and the bits that were set, and sets each of them. -/
theorem foldl_setBit (index : Nat → Nat) (l : List Nat) (v : List UInt8) :
    (l.foldl (fun v i => setBit v (index i)) v).length = v.length ∧
      (∀ n, hasBit v n = true → hasBit (l.foldl (fun v i => setBit v (index i)) v) n = true) ∧
      ∀ i ∈ l, index i < v.length * 8 → hasBit (l.foldl (fun v i => setBit v (index i)) v) (index i) = true := by
  induction l generalizing v with
  | nil => exact ⟨rfl, fun _ => id, fun _ hi => by cases hi⟩
  | cons j l ih =>
    have hsize : (setBit v (index j)).length = v.length := length_modify ..
    obtain ⟨hlen, hkept, hset⟩ := ih (setBit v (index j))
    refine ⟨hlen.trans hsize, fun n hn => hkept n (hasBit_setBit _ hn), fun i hi hlt => ?_⟩
    cases mem_cons.1 hi with
    | inl heq => exact heq ▸ hkept _ (hasBit_setBit_self (heq ▸ hlt))
    | inr hmem => exact hset i hmem (hsize ▸ hlt)

theorem grows_insert (f : CBloomFilter) (vKey : List UInt8) : Grows f (f.insert env vKey) := by
  obtain ⟨hlen, hkept, -⟩ := foldl_setBit (f.hash env · vKey) (range f.nHashFuncs) f.vData
  unfold insert
  split
  · exact .refl
  · exact ⟨hlen, rfl, rfl, rfl, rfl, fun _ => rfl, hkept⟩

theorem contains_insert (h : 0 < f.vData.length) : (f.insert env vKey).contains env vKey = true := by
  by_cases hfull : f.isFull = true
  · simp only [insert, contains, if_pos hfull]
  obtain ⟨hlen, -, hset⟩ := foldl_setBit (f.hash env · vKey) (range f.nHashFuncs) f.vData
  simp only [insert, contains, if_neg hfull]
  rw [if_neg (by decide), all_eq_true]
  intro i hi
  -- the new array has the old size, so the key has the same indices in it
  rw [show hash env _ i vKey = f.hash env i vKey from congrArg (fun size => _ % (size * 8)) hlen]
  exact hset i hi (Nat.mod_lt _ (by omega))

theorem grows_scanOutput (hash : Uint256) (r : Bool × CBloomFilter) (output : CTxOut × Nat) :
    Grows r.2 (scanOutput env hash r output).2 := by
  unfold scanOutput
  split
  · show Grows r.2 (r.2.update env _ _)
    unfold update
    split_ifs
    · exact grows_insert ..
    · split
      · exact grows_insert ..
      · exact grows_insert ..
      · exact .refl
    · exact .refl
  · exact .refl

/-- **The run lemma**: a filter grows along a loop if it grows in each turn. -/
theorem grows_foldl {σ α : Type} (filter : σ → CBloomFilter) {step : σ → α → σ}
    (hstep : ∀ s a, Grows (filter s) (filter (step s a))) (l : List α) (s : σ) :
    Grows (filter s) (filter (l.foldl step s)) := by
  induction l generalizing s with
  | nil => exact .refl
  | cons a l ih => exact (hstep s a).trans (ih _)

theorem grows_isRelevantAndUpdate (f : CBloomFilter) (tx : CTransaction) :
    Grows f (f.isRelevantAndUpdate env tx).2 := by
  unfold isRelevantAndUpdate
  split_ifs
  · exact .refl
  · exact .refl
  · exact grows_foldl Prod.snd (grows_scanOutput env tx.hash) tx.vout.zipIdx (_, f)

theorem grows_process (f : CBloomFilter) (txs : List CTransaction) : Grows f (f.process env txs) :=
  grows_foldl id (grows_isRelevantAndUpdate env) txs f

/-! ## §3. Spends of matched outputs. -/

/-- The loop over the outputs leaves the outpoint of a matched one in the filter. -/
theorem contains_foldl_scanOutput {hash : Uint256} {l : List (CTxOut × Nat)} {r : Bool × CBloomFilter}
    (hall : r.2.nFlags &&& BLOOM_UPDATE_MASK = BLOOM_UPDATE_ALL) (h : 0 < r.2.vData.length)
    (hout : (txout, n) ∈ l) (hscan : ∀ f' : CBloomFilter, Grows r.2 f' → f'.scanScriptPubKey env txout = true) :
    (l.foldl (scanOutput env hash) r).2.contains env (COutPoint.serialize ⟨hash, n⟩) = true := by
  induction l generalizing r with
  | nil => cases hout
  | cons output l ih =>
    have hstep := grows_scanOutput env hash r output
    cases mem_cons.1 hout with
    | inl heq =>
      refine (grows_foldl Prod.snd (grows_scanOutput env hash) l _).contains ?_
      subst heq
      simp only [scanOutput, hscan r.2 .refl, if_true, update, if_pos hall]
      exact contains_insert env h
    | inr hmem =>
      exact ih (hstep.flags ▸ hall) (hstep.size ▸ h) hmem fun f' h' => hscan f' (hstep.trans h')

variable {env}

/-- **A funding transaction leaves a trace** in the filter: the outpoints of its matched outputs. -/
theorem contains_of_funding {funding : CTransaction} {data : List UInt8}
    (hall : f.nFlags &&& BLOOM_UPDATE_MASK = BLOOM_UPDATE_ALL) (h : 0 < f.vData.length)
    (hmint : funding.hasZerocoinMintOutputs = false) (hout : funding.vout[n]? = some txout)
    (hdata : data ∈ txout.scriptPubKey.parsedData) (hne : data ≠ []) (hin : f.contains env data = true) :
    (f.isRelevantAndUpdate env funding).2.contains env (COutPoint.serialize ⟨funding.hash, n⟩) = true := by
  have hfree : txout.isZerocoinMint = false := by simpa using any_eq_false.1 hmint txout (mem_of_getElem? hout)
  unfold isRelevantAndUpdate
  split_ifs with hfull hempty
  · simp [contains, hfull]
  · simp [contains, hfull, hempty] at hin
  · refine contains_foldl_scanOutput env (r := (_, f)) hall h (mk_mem_zipIdx_iff_getElem?.2 hout) fun f' hgrows => ?_
    rw [scanScriptPubKey, hfree]
    exact any_eq_true.2 ⟨data, hdata, by simp [hne, hgrows.contains hin]⟩

theorem relevant_of_spends {tx : CTransaction} {outpoint : COutPoint}
    (hin : f.contains env outpoint.serialize = true) (hspent : outpoint ∈ tx.prevouts) :
    (f.isRelevantAndUpdate env tx).1 = true := by
  obtain ⟨txin, htxin, rfl⟩ := mem_map.1 hspent
  unfold isRelevantAndUpdate
  split_ifs with hfull hempty
  · rfl
  · simp [contains, hfull, hempty] at hin
  · have hgrows := grows_foldl Prod.snd (grows_scanOutput env tx.hash) tx.vout.zipIdx
      (f.contains env tx.hash.serialize, f)
    refine Bool.or_eq_true_iff.2 (.inr (any_eq_true.2 ⟨txin, htxin, ?_⟩))
    exact Bool.or_eq_true_iff.2 (.inl (hgrows.contains hin))

/-- **No false negatives.**  What was inserted stays contained.  Whatever transactions come before, between and
after, one that spends an output is reported if a non-empty push of that output's script was contained in the filter
when the funding transaction, which mints nothing, came. -/
theorem tracked_spends_relevant (env : BloomEnv) (f : CBloomFilter)
    (hall : f.nFlags &&& BLOOM_UPDATE_MASK = BLOOM_UPDATE_ALL) (hsize : 0 < f.vData.length) :
    (∀ (vKey : List UInt8) (later : List (List UInt8)),
        (later.foldl (insert env) (f.insert env vKey)).contains env vKey = true) ∧
      ∀ (earlier between : List CTransaction) (funding spending : CTransaction) (n : Nat) (txout : CTxOut)
        (data : List UInt8), funding.hasZerocoinMintOutputs = false → funding.vout[n]? = some txout →
        data ∈ txout.scriptPubKey.parsedData → data ≠ [] → (f.process env earlier).contains env data = true →
        ⟨funding.hash, n⟩ ∈ spending.prevouts →
        ((f.process env (earlier ++ funding :: between)).isRelevantAndUpdate env spending).1 = true := by
  constructor
  · intro vKey later
    exact (grows_foldl id (grows_insert env) later _).contains (contains_insert env hsize)
  intro earlier between funding spending n txout data hmint hout hdata hne hin hspent
  have hbefore := grows_process env f earlier
  have htracked := contains_of_funding (hbefore.flags ▸ hall) (hbefore.size ▸ hsize) hmint hout hdata hne hin
  rw [process, foldl_append]
  exact relevant_of_spends ((grows_process env _ between).contains htracked) hspent

/-- A hash function that tells keys apart by their length. -/
def lengthHash : BloomEnv := ⟨fun _ data => .ofNat data.length, id⟩

/-- A filter in which exactly the keys of one byte are contained. -/
def oneByteFilter : CBloomFilter := { vData := [2, 0, 0, 0, 0], nHashFuncs := 1, nTweak := 0, nFlags := 1 }

def pushingTx : CTransaction := { hash := 5, vin := [], vout := [⟨COIN, [1, 7]⟩] }

theorem pushing_output_spent :
    (oneByteFilter.isRelevantAndUpdate lengthHash { hash := 6, vin := [⟨⟨5, 0⟩, [], 0⟩], vout := [] }).1 = false ∧
      ((oneByteFilter.process lengthHash [pushingTx]).isRelevantAndUpdate lengthHash
        { hash := 6, vin := [⟨⟨5, 0⟩, [], 0⟩], vout := [] }).1 = true := by
  refine ⟨by decide, ?_⟩
  exact (tracked_spends_relevant lengthHash oneByteFilter (by decide) (by decide)).2 []
    [] pushingTx _ 0 ⟨COIN, [1, 7]⟩ [7]
    (by decide) rfl (by decide) (by decide) (by decide) (by decide)

end CBloomFilter

end PwrbCore
