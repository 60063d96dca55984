/-
  Script.Satisfaction — WHO CAN SATISFY A SCRIPT.

  A `Signer` has some keys, named by their hashes as in `CKeyStore`; signatures of other
  keys are refused.  `CanSatisfy` says that some scriptSig of theirs passes `VerifyScript`.
  For the scripts with one owner this comes down to one key:

    * `canSatisfy_pubKeyHash_iff` — a pay-to-pubkey-hash script is satisfied exactly by whoever
      has a key with that hash.
    * `canSatisfy_pubKey`, `canSatisfy_coldStake` — whoever has the key can satisfy a
      pay-to-pubkey script, and the owner's key is enough for a delegation.
    * `canSatisfy_nil` — anyone can satisfy the empty script.

  The runs are followed turn by turn over the decoded instructions, so that the pushes may
  be encoded in any way.
-/
import PwrbCore.Script.Executed
import PwrbCore.Script.FlagSubset
import PwrbCore.Script.Templates

namespace PwrbCore

open Checked List CScript Except UInt8

/-! ## §1. Signers. -/

variable {hash160 : List UInt8 → Uint160} {st : EvalState} {vchPubKey b : ValType} {stack' items : List ValType}
  {sols : List (List UInt8)}

/-- Someone with some keys, and the other answers of their transaction to the interpreter. -/
structure Signer where
  holds : Uint160 → Bool
  lockTime : Int → Bool
  coldStake : CScript → Bool

/-- Well-formed signatures of the keys they have are good, for whatever script. -/
def Signer.checker (signer : Signer) (hash160 : List UInt8 → Uint160) : SignatureChecker where
  checkSig := fun vchSig vchPubKey _ =>
    pubKeyValid vchPubKey && isValidSignatureEncoding vchSig && signer.holds (hash160 vchPubKey)
  checkLockTime := signer.lockTime
  checkColdStake := signer.coldStake

/-- The signer can spend an output with this script. -/
def Signer.CanSatisfy (signer : Signer) (crypto : ScriptCrypto) (hash160 : List UInt8 → Uint160) (flags : UInt32)
    (scriptPubKey : CScript) : Prop :=
  ∃ scriptSig, verifyScript crypto flags (signer.checker hash160) scriptSig scriptPubKey = .ok ()

/-- No flag of policy alone is set. -/
structure ConsensusFlags (flags : UInt32) : Prop where
  minimalData : hasFlag flags SCRIPT_VERIFY_MINIMALDATA = false
  strictEnc : hasFlag flags SCRIPT_VERIFY_STRICTENC = false
  lowS : hasFlag flags SCRIPT_VERIFY_LOW_S = false
  sigPushOnly : hasFlag flags SCRIPT_VERIFY_SIGPUSHONLY = false

theorem ScriptFlags.bits_consensus (flags : ScriptFlags) : ConsensusFlags flags.bits := by
  obtain ⟨p2sh, dersig, lockTime⟩ := flags
  constructor <;> cases p2sh <;> cases dersig <;> cases lockTime <;> rfl

section Runs

variable {crypto : ScriptCrypto} {flags : UInt32} {checker : SignatureChecker} {script : CScript}

/-! ## §2. One turn of a run. -/

/-- The run from `pc` on ends well in state `fin`. -/
def Completes (crypto : ScriptCrypto) (flags : UInt32) (checker : SignatureChecker) (script pc : CScript)
    (st fin : EvalState) :
    Prop :=
  evalLoop crypto flags checker script pc.length (pc, st) = .ok fin

variable {fin : EvalState} {opcode : Opcode} {code pc rest : CScript} {vfExec : List Bool} {n : Int}
  {signer : Signer}

theorem completes_nil_iff : Completes crypto flags checker script [] st fin ↔ st = fin := by
  show ok st = .ok fin ↔ st = fin
  exact ⟨ok.inj, congrArg _⟩

/-- **One turn**: the limits hold, the instruction ends well, and so does the rest. -/
theorem completes_iff {pc rest vch : List UInt8} (hop : getOp pc = some (opcode, vch, rest)) :
    Completes crypto flags checker script pc st fin ↔
      vch.length ≤ MAX_SCRIPT_ELEMENT_SIZE ∧ (OP_16 < opcode → st.nOpCount + 1 ≤ 201) ∧
        isDisabledOpcode opcode = false ∧
        ∃ st', evalFetched crypto flags checker script rest opcode vch (st.counted opcode) = .ok st' ∧
          st'.stack.length + st'.altstack.length ≤ 1000 ∧ Completes crypto flags checker script rest st' fin := by
  have hless : rest.length < pc.length := getOp_rest_length hop
  obtain ⟨fuel, hfuel⟩ : ∃ fuel, pc.length = fuel + 1 := ⟨pc.length - 1, by omega⟩
  have hrest : ∀ st' : EvalState, evalLoop crypto flags checker script fuel (rest, st') =
      evalLoop crypto flags checker script rest.length (rest, st') := by
    intro st'
    have hle : (rest, st').1.length ≤ fuel := by
      show rest.length ≤ fuel
      omega
    exact evalLoop_fuel hle
  have hturn : Completes crypto flags checker script pc st fin ↔
      ∃ cfg, evalStep crypto flags checker script (pc, st) = .ok cfg ∧
          evalLoop crypto flags checker script fuel cfg = .ok fin := by
    grind [Completes, evalLoop, bind_eq_ok]
  rw [hturn]
  unfold evalStep
  simp only [bind_eq_ok, orStop_eq_ok, require_eq_ok, hop, Option.some.injEq]
  constructor
  · rintro ⟨cfg, ⟨fetched, hfetched, _, hlen, _, hcount, _, hdisabled, st', hst, _, hsize, hcfg⟩, hrun⟩
    subst hfetched
    cases hcfg
    exact ⟨hlen, hcount, hdisabled, st', hst, hsize, (hrest st').symm.trans hrun⟩
  · rintro ⟨hlen, hcount, hdisabled, st', hst, hsize, hrun⟩
    exact ⟨(rest, st'), ⟨_, rfl, (), hlen, (), hcount, (), hdisabled, st', hst, (), hsize, rfl⟩, (hrest st').trans hrun⟩

variable {stack : List ValType} {vch : ValType}

theorem evalScript_eq_ok_iff (hsize : script.length ≤ MAX_SCRIPT_SIZE) :
    evalScript crypto flags checker stack script = .ok stack' ↔
      ∃ fin, Completes crypto flags checker script script { stack := stack, pbegincodehash := script } fin ∧
        fin.vfExec = [] ∧ fin.stack = stack' := by
  unfold evalScript
  simp only [bind_eq_ok, require_eq_ok]
  constructor
  · rintro ⟨_, _, fin, hrun, _, hclosed, hstack⟩
    exact ⟨fin, hrun, hclosed, ok.inj hstack⟩
  · rintro ⟨fin, hrun, hclosed, hstack⟩
    exact ⟨(), hsize, fin, hrun, (), hclosed, congrArg _ hstack⟩

/-! ## §3. What the instructions of these scripts do. -/

def running (stack : List ValType) (vfExec : List Bool) (nOpCount : Int) (code : CScript) : EvalState :=
  { stack := stack, vfExec := vfExec, nOpCount := nOpCount, pbegincodehash := code }

theorem Completes.turn {vfExec' : List Bool} (hop : getOp pc = some (opcode, [], rest)) (hcount : n + 1 ≤ 201)
    (hdisabled : isDisabledOpcode opcode = false)
    (hst : evalFetched crypto flags checker script rest opcode [] ((running stack vfExec n code).counted opcode)
      = .ok (running stack' vfExec' (n + 1) code)) (hsize : Nat.ble stack'.length 1000 = true)
    (hrest : Completes crypto flags checker script rest (running stack' vfExec' (n + 1) code) fin) :
    Completes crypto flags checker script pc (running stack vfExec n code) fin :=
  (completes_iff hop).mpr ⟨Nat.zero_le _, fun _ => hcount, hdisabled, _, hst, Nat.le_of_ble_eq_true hsize, hrest⟩

theorem isDisabledOpcode_push (h : opcode ≤ OP_PUSHDATA4) : isDisabledOpcode opcode = false := by
  unfold isDisabledOpcode
  rw [contains_eq_mem, decide_eq_false_iff_not]
  intro hmem
  simp only [mem_cons, not_mem_nil, or_false] at hmem
  rcases hmem with rfl | rfl | rfl | rfl | rfl | rfl | rfl | rfl | rfl | rfl | rfl | rfl | rfl | rfl | rfl <;>
    exact absurd h (by decide)

theorem evalFetched_push (hpush : opcode ≤ OP_PUSHDATA4) (hflags : ConsensusFlags flags)
    (vch : ValType) (stack : List ValType) (hexec : vfExec.all id = true) (n : Int) :
    evalFetched crypto flags checker script rest opcode vch ((running stack vfExec n code).counted opcode)
      = .ok (running (vch :: stack) vfExec n code) := by
  have hcounted : (running stack vfExec n code).counted opcode = running stack vfExec n code := by
    unfold EvalState.counted
    rw [if_neg]
    exact fun hlt => absurd (UInt8.lt_of_lt_of_le hlt hpush) (by decide)
  rw [hcounted]
  unfold evalFetched
  rw [if_pos ⟨hexec, hpush⟩, hflags.minimalData]
  rfl

section

variable (hop : getOp pc = some (opcode, vch, rest)) (hpush : opcode ≤ OP_PUSHDATA4)
  (hlen : vch.length ≤ MAX_SCRIPT_ELEMENT_SIZE)

include hop hpush hlen

theorem Completes.push (hflags : ConsensusFlags flags) (hexec : vfExec.all id = true) (hsize : stack.length + 1 ≤ 1000)
    (hrest : Completes crypto flags checker script rest (running (vch :: stack) vfExec n code) fin) :
    Completes crypto flags checker script pc (running stack vfExec n code) fin := by
  refine (completes_iff hop).mpr ⟨hlen, fun hlt => ?_, isDisabledOpcode_push hpush, _,
    evalFetched_push hpush hflags vch stack hexec n, hsize, hrest⟩
  exact absurd (UInt8.lt_of_lt_of_le hlt hpush) (by decide)

theorem Completes.skip (hsize : stack.length ≤ 1000)
    (hrest : Completes crypto flags checker script rest (running stack [false] n code) fin) :
    Completes crypto flags checker script pc (running stack [false] n code) fin := by
  have hcounted : ¬ OP_16 < opcode := fun hlt => absurd (UInt8.lt_of_lt_of_le hlt hpush) (by decide)
  refine (completes_iff hop).mpr ⟨hlen, fun hlt => absurd hlt hcounted, isDisabledOpcode_push hpush,
    running stack [false] n code, ?_, hsize, hrest⟩
  unfold EvalState.counted evalFetched
  rw [if_neg hcounted, if_neg (fun h => Bool.false_ne_true h.1), if_neg]
  intro h
  rcases h with h | h
  · exact Bool.false_ne_true h
  · exact absurd (UInt8.le_trans h.1 hpush) (by decide)

end

/-! ## §4. ScriptSigs. -/

section

variable (hflags : ConsensusFlags flags)

include hflags

theorem completes_pushes (items : List ValType) (stack : List ValType)
    (hitems : ∀ b ∈ items, b.length < 76) (hsize : stack.length + items.length ≤ 1000) :
    Completes crypto flags checker script (items.flatMap pushData) (running stack [] 0 code)
      (running (items.reverse ++ stack) [] 0 code) := by
  induction items generalizing stack with
  | nil => exact completes_nil_iff.mpr rfl
  | cons b items ih =>
    have hb : b.length < 76 := hitems b mem_cons_self
    rw [length_cons] at hsize
    rw [reverse_cons, append_assoc]
    obtain ⟨push, hpush, hop⟩ := getOp_pushData (b := b) (by omega) (items.flatMap pushData)
    refine .push hop hpush ?_ hflags rfl (by omega) ?_
    · show b.length ≤ 520
      omega
    · exact ih (b :: stack) (fun b' hb' => hitems b' (mem_cons_of_mem _ hb')) (by rw [length_cons]; omega)

theorem evalScript_pushes (hitems : ∀ b ∈ items, b.length < 76)
    (hfew : items.length ≤ 10) : evalScript crypto flags checker [] (items.flatMap pushData) = .ok items.reverse := by
  have hbytes : ∀ l : List ValType, (∀ b ∈ l, b.length < 76) → (l.flatMap pushData).length ≤ 76 * l.length := by
    intro l
    induction l with
    | nil => intro _; exact Nat.le_refl 0
    | cons b l ih =>
      intro hl
      have hb : b.length < 76 := hl b mem_cons_self
      have hform : pushData b = .ofNat b.length :: b := if_pos hb
      grind
  have hsize := hbytes items hitems
  refine (evalScript_eq_ok_iff ?_).mpr ⟨_, completes_pushes hflags items [] hitems ?_, rfl, append_nil _⟩
  · show _ ≤ 10000
    omega
  · rw [length_nil]
    omega

theorem verifyScript_eq_ok_iff {scriptSig scriptPubKey : CScript} (hhash : scriptPubKey.isPayToScriptHash = false) :
    verifyScript crypto flags checker scriptSig scriptPubKey = .ok () ↔
      ∃ stackCopy stack, evalScript crypto flags checker [] scriptSig = .ok stackCopy ∧
        evalScript crypto flags checker stackCopy scriptPubKey = .ok stack ∧ requireTrue stack = .ok () := by
  unfold verifyScript
  rw [hflags.sigPushOnly, hhash]
  simp only [bind_eq_ok, checkIf]
  constructor
  · simp_all
  · simp_all

theorem Signer.canSatisfy_of_completes
    (hhash : script.isPayToScriptHash = false) (hsize : script.length ≤ MAX_SCRIPT_SIZE)
    (hitems : ∀ b ∈ items, b.length < 76) (hfew : items.length ≤ 10)
    (hrun : Completes crypto flags (signer.checker hash160) script script (running items.reverse [] 0 script)
      (running [[1]] [] n script)) : signer.CanSatisfy crypto hash160 flags script :=
  ⟨items.flatMap pushData, (verifyScript_eq_ok_iff hflags hhash).mpr
    ⟨items.reverse, [[1]], evalScript_pushes hflags hitems hfew,
      (evalScript_eq_ok_iff hsize).mpr ⟨_, hrun, rfl, rfl⟩, rfl⟩⟩

end

/-- **Anyone can satisfy the empty script.** -/
theorem Signer.canSatisfy_nil (signer : Signer) (hash160 : List UInt8 → Uint160) (hflags : ConsensusFlags flags) :
    signer.CanSatisfy crypto hash160 flags [] :=
  ⟨[OP_1], (verifyScript_eq_ok_iff hflags rfl).mpr ⟨[[1]], [[1]], rfl, rfl, rfl⟩⟩

/-! ## §5. Pay to pubkey hash. -/

def wellFormedSig : ValType := [0x30, 6, 2, 1, 1, 2, 1, 1, 1]

theorem length_le_of_pubKeyValid (h : pubKeyValid vch = true) : vch.length ≤ 65 := by
  unfold pubKeyValid at h
  grind

section

variable (hflags : ConsensusFlags flags)

include hflags

theorem checkSignatureEncoding_wellFormedSig : checkSignatureEncoding crypto flags wellFormedSig = .ok () := by
  unfold checkSignatureEncoding
  rw [hflags.lowS, hflags.strictEnc]
  cases hasFlag flags (SCRIPT_VERIFY_DERSIG ||| SCRIPT_VERIFY_LOW_S ||| SCRIPT_VERIFY_STRICTENC) <;> rfl

theorem evalCheckSig_signer
    (hvalid : pubKeyValid vchPubKey = true) (hholds : signer.holds (hash160 vchPubKey) = true)
    (n : Int) (code : CScript) :
    evalCheckSig crypto flags (signer.checker hash160) false (running [vchPubKey, wellFormedSig] [] n code)
      = .ok (running [[1]] [] n code) := by
  have hsig : ∀ scriptCode, (signer.checker hash160).checkSig wellFormedSig vchPubKey scriptCode = true := by
    intro scriptCode
    show (pubKeyValid vchPubKey && isValidSignatureEncoding wellFormedSig && signer.holds (hash160 vchPubKey)) = true
    rw [hvalid, hholds]
    decide
  unfold evalCheckSig checkPubKeyEncoding
  simp only [running, checkSignatureEncoding_wellFormedSig hflags, hflags.strictEnc, hsig]
  rfl

/-- What follows the key hashes in both kinds of script that name one. -/
theorem completes_checkKey (hvalid : pubKeyValid vchPubKey = true) (hholds : signer.holds (hash160 vchPubKey) = true)
    (hdec : Decodes pc [(OP_EQUALVERIFY, []), (OP_CHECKSIG, [])]) (x : ValType) (hn : n ≤ 100) :
    ∃ n', Completes crypto flags (signer.checker hash160) script pc (running [x, x, vchPubKey, wellFormedSig] [] n code)
      (running [[1]] [] n' code) := by
  obtain ⟨pc1, hop1, pc2, hop2, hnil⟩ := hdec
  have hequal : evalFetched crypto flags (signer.checker hash160) script pc1 OP_EQUALVERIFY []
      ((running [x, x, vchPubKey, wellFormedSig] [] n code).counted OP_EQUALVERIFY)
        = .ok (running [vchPubKey, wellFormedSig] [] (n + 1) code) := by
    show (require ((x == x) = true) ScriptError.equalVerify >>= fun _ =>
      .ok (running [vchPubKey, wellFormedSig] [] (n + 1) code)) = _
    rw [beq_self_eq_true]
    rfl
  refine ⟨n + 1 + 1, ?_⟩
  refine .turn hop1 (by omega) rfl hequal rfl ?_
  refine .turn hop2 (by omega) rfl (evalCheckSig_signer hflags hvalid hholds (n + 1 + 1) code) rfl ?_
  rw [hnil]
  exact completes_nil_iff.mpr rfl

abbrev keyHashInstrs (push : Opcode) (id : ValType) : List (Opcode × List UInt8) :=
  [(OP_DUP, []), (OP_HASH160, []), (push, id), (OP_EQUALVERIFY, []), (OP_CHECKSIG, [])]

theorem completes_keyHash
    (hvalid : pubKeyValid vchPubKey = true) (hholds : signer.holds (hash160 vchPubKey) = true) {push : Opcode}
    (hpush : push ≤ OP_PUSHDATA4) {id : ValType} (hlen : id.length = 20) (hkey : crypto.hash160 vchPubKey = id)
    (hdec : Decodes pc (keyHashInstrs push id)) :
    ∃ n, Completes crypto flags (signer.checker hash160) script pc (running [vchPubKey, wellFormedSig] [] 0 code)
      (running [[1]] [] n code) := by
  obtain ⟨pc1, hop1, pc2, hop2, pc3, hop3, hdec⟩ := hdec
  have hhash : evalFetched crypto flags (signer.checker hash160) script pc2 OP_HASH160 []
      ((running [vchPubKey, vchPubKey, wellFormedSig] [] (0 + 1) code).counted OP_HASH160)
        = .ok (running [id, vchPubKey, wellFormedSig] [] (0 + 1 + 1) code) := by
    rw [← hkey]
    rfl
  obtain ⟨n, hrest⟩ := completes_checkKey hflags hvalid hholds hdec id (show (0 + 1 + 1 : Int) ≤ 100 by omega)
  refine ⟨n, ?_⟩
  refine .turn hop1 (by omega) rfl rfl rfl ?_
  refine .turn hop2 (by omega) rfl hhash rfl ?_
  exact .push hop3 hpush (by rw [hlen]; decide) hflags rfl (by simp) hrest

/-- Read backwards: a run that ends with true met a good signature of a key with that hash. -/
theorem key_of_completes_keyHash {push : Opcode} (hpush : push ≤ OP_PUSHDATA4)
    {id : ValType} (hdec : Decodes pc (keyHashInstrs push id))
    (h : Completes crypto flags checker script pc (running stack [] 0 code) fin)
    (htrue : requireTrue fin.stack = .ok ()) :
    ∃ vchPubKey vchSig scriptCode, crypto.hash160 vchPubKey = id ∧
        checker.checkSig vchSig vchPubKey scriptCode = true := by
  obtain ⟨pc1, hop1, pc2, hop2, pc3, hop3, pc4, hop4, pc5, hop5, hnil⟩ := hdec
  cases stack with
  | nil =>
    obtain ⟨-, -, -, st, hdup, -, -⟩ := (completes_iff hop1).mp h
    cases hdup
  | cons vchPubKey stack =>
    obtain ⟨-, -, -, st1, hdup, -, h⟩ := (completes_iff hop1).mp h
    rw [← ok.inj hdup] at h
    obtain ⟨-, -, -, st2, hhash, -, h⟩ := (completes_iff hop2).mp h
    replace hhash : ok (running (crypto.hash160 vchPubKey :: vchPubKey :: stack) [] (0 + 1 + 1) code) = .ok st2 :=
      hhash
    rw [← ok.inj hhash] at h
    obtain ⟨-, -, -, st3, hid, -, h⟩ := (completes_iff hop3).mp h
    rw [evalFetched_push hpush hflags id _ rfl] at hid
    rw [← ok.inj hid] at h
    obtain ⟨-, -, -, st4, hequal, -, h⟩ := (completes_iff hop4).mp h
    obtain ⟨hkey, hst4⟩ := require_bind_eq_ok.mp hequal
    rw [← ok.inj hst4] at h
    obtain ⟨-, -, -, st5, hsig, -, h⟩ := (completes_iff hop5).mp h
    rw [hnil, completes_nil_iff] at h
    subst h
    replace hsig : evalCheckSig crypto flags checker false (running (vchPubKey :: stack) [] (0 + 1 + 1 + 1 + 1) code)
      = .ok st5 := hsig
    -- a signature is left below the key, and the result is on top at the end
    cases stack with
    | nil => cases hsig
    | cons vchSig stack =>
      unfold evalCheckSig at hsig
      simp only [running, bind_eq_ok, pushResult, Bool.false_eq_true, if_false, ok.injEq] at hsig
      obtain ⟨_, _, _, _, rfl⟩ := hsig
      refine ⟨vchPubKey, vchSig, findAndDelete code (pushData vchSig), beq_iff_eq.mp hkey, ?_⟩
      cases hgood : checker.checkSig vchSig vchPubKey (findAndDelete code (pushData vchSig)) with
      | true => rfl
      | false =>
        rw [hgood] at htrue
        cases htrue

/-! ## §6. Who satisfies the scripts with one owner. -/

theorem Signer.canSatisfy_pubKey (signer : Signer) {s vchPubKey : List UInt8}
    (h : solver s = some (.pubKey, vchPubKey :: sols)) (hvalid : pubKeyValid vchPubKey = true)
    (hholds : signer.holds (hash160 vchPubKey) = true) : signer.CanSatisfy crypto hash160 flags s := by
  obtain ⟨hnothash, hshort⟩ := length_le_of_solver h (by simp)
  have hsize : s.length ≤ MAX_SCRIPT_SIZE := hshort.trans (by decide)
  obtain ⟨push, vch, hpush, hlen, hsols, pc1, hop1, pc2, hop2, hnil⟩ := decodes_of_solver_pubKey h
  rw [cons.injEq] at hsols
  rw [← hsols.1] at hop1 hlen
  have hitems : ∀ b ∈ [wellFormedSig], b.length < 76 := by decide
  have hrun : Completes crypto flags (signer.checker hash160) s s (running [wellFormedSig] [] 0 s)
      (running [[1]] [] (0 + 1) s) := by
    refine .push hop1 hpush (hlen.trans (by decide)) hflags rfl (by simp) ?_
    refine .turn hop2 (by omega) rfl (evalCheckSig_signer hflags hvalid hholds (0 + 1) s) rfl ?_
    rw [hnil]
    exact completes_nil_iff.mpr rfl
  exact Signer.canSatisfy_of_completes hflags hnothash hsize hitems (by simp) hrun

end

section Owners

variable (hhash : ∀ vch, crypto.hash160 vch = (hash160 vch).1) (hflags : ConsensusFlags flags)

include hhash hflags

/-- **A pay-to-pubkey-hash script is satisfied by whoever has a key with that hash.** -/
theorem Signer.canSatisfy_pubKeyHash_iff (signer : Signer) {s : CScript} {id : Uint160}
    (h : solver s = some (.pubKeyHash, [id.1])) : signer.CanSatisfy crypto hash160 flags s ↔
      ∃ vchPubKey, pubKeyValid vchPubKey = true ∧ hash160 vchPubKey = id ∧ signer.holds id = true := by
  obtain ⟨hnothash, hshort⟩ := length_le_of_solver h (by simp)
  have hsize : s.length ≤ MAX_SCRIPT_SIZE := hshort.trans (by decide)
  obtain ⟨push, vch, hpush, hlen, hsols, hdec⟩ := decodes_of_solver_pubKeyHash h
  have hvch : id.1 = vch := singleton_inj.mp hsols
  subst hvch
  constructor
  · intro ⟨scriptSig, hverify⟩
    obtain ⟨stackCopy, stack, -, heval, htrue⟩ := (verifyScript_eq_ok_iff hflags hnothash).mp hverify
    obtain ⟨fin, hrun, -, rfl⟩ := (evalScript_eq_ok_iff hsize).mp heval
    obtain ⟨vchPubKey, vchSig, scriptCode, hkey, hsig⟩ := key_of_completes_keyHash hflags hpush hdec hrun htrue
    replace hsig : (pubKeyValid vchPubKey && isValidSignatureEncoding vchSig &&
      signer.holds (hash160 vchPubKey)) = true := hsig
    grind
  · intro ⟨vchPubKey, hvalid, hid, hholds⟩
    have hkey : crypto.hash160 vchPubKey = id.1 := (hhash vchPubKey).trans (congrArg _ hid)
    obtain ⟨n, hrun⟩ := completes_keyHash hflags hvalid (hid.symm ▸ hholds) hpush hlen hkey hdec
    have hkeylen := length_le_of_pubKeyValid hvalid
    have hitems : ∀ b ∈ [wellFormedSig, vchPubKey], b.length < 76 := by
      simp [wellFormedSig]
      omega
    exact Signer.canSatisfy_of_completes hflags hnothash hsize hitems (by simp) hrun

/-- The owner's key is enough: with an empty item between signature and key the staker's branch is skipped. -/
theorem Signer.canSatisfy_coldStake (signer : Signer) {s staker : List UInt8} {owner : Uint160}
    (h : solver s = some (.coldStake, staker :: owner.1 :: sols)) (hvalid : pubKeyValid vchPubKey = true)
    (hid : hash160 vchPubKey = owner) (hholds : signer.holds owner = true) :
        signer.CanSatisfy crypto hash160 flags s := by
  obtain ⟨hnothash, hshort⟩ := length_le_of_solver h (by simp)
  have hsize : s.length ≤ MAX_SCRIPT_SIZE := hshort.trans (by decide)
  obtain ⟨push1, staker', push2, owner', hpush1, hstaker, hpush2, howner, hsols, pc1, hop1, pc2,
    hop2, pc3, hop3, pc4, hop4, pc5,
    hop5, pc6, hop6, pc7, hop7, pc8, hop8, pc9, hop9, hdec⟩ := decodes_of_solver_coldStake h
  simp only [cons.injEq] at hsols
  rw [← hsols.2.1] at hop8 howner
  have hkeylen := length_le_of_pubKeyValid hvalid
  have hitems : ∀ b ∈ [wellFormedSig, [], vchPubKey], b.length < 76 := by
    simp [wellFormedSig]
    omega
  have hkey : crypto.hash160 vchPubKey = owner.1 := (hhash vchPubKey).trans (congrArg _ hid)
  have hhashed : evalFetched crypto flags (signer.checker hash160) s pc2 OP_HASH160 []
      ((running [vchPubKey, vchPubKey, [], wellFormedSig] [] (0 + 1) s).counted OP_HASH160)
        = .ok (running [owner.1, vchPubKey, [], wellFormedSig] [] (0 + 1 + 1) s) := by
    rw [← hkey]
    rfl
  obtain ⟨n, hrest⟩ := completes_checkKey hflags hvalid (hid.symm ▸ hholds) hdec owner.1
    (show (0 + 1 + 1 + 1 + 1 + 1 + 1 + 1 : Int) ≤ 100 by omega)
  have hrun : Completes crypto flags (signer.checker hash160) s s (running [vchPubKey, [], wellFormedSig] [] 0 s)
      (running [[1]] [] n s) := by
    -- the hash of the key goes below the empty item, which `OP_IF` takes
    refine .turn hop1 (by omega) rfl rfl rfl ?_
    refine .turn hop2 (by omega) rfl hhashed rfl ?_
    refine .turn hop3 (by omega) rfl rfl rfl ?_
    refine .turn hop4 (by omega) rfl rfl rfl ?_
    -- the staker's branch, where nothing is done
    refine .turn hop5 (by omega) rfl rfl rfl ?_
    refine .skip hop6 hpush1 (by rw [hstaker]; decide) (Nat.le_of_ble_eq_true rfl) ?_
    -- and the owner's
    refine .turn hop7 (by omega) rfl rfl rfl ?_
    refine .push hop8 hpush2 (by rw [howner]; decide) hflags rfl (Nat.le_of_ble_eq_true rfl) ?_
    exact .turn hop9 (by omega) rfl rfl rfl hrest
  exact Signer.canSatisfy_of_completes hflags hnothash hsize hitems (by simp) hrun

end Owners

end Runs

end PwrbCore
