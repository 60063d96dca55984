/-
  Coins.Cache — STACKS OF `CCoinsViewCache` (`coins.cpp`).

  A cache fetches entries from the view it is based on, hands them out for editing and writes
  them down when it is flushed.  The DIRTY and FRESH flags decide what is written and what
  can be dropped.  Only the top of a stack is used.  At the bottom is any view that gives back
  what is written to it.  Best-block pointers and the memory accounting are left out.

  Main result: `coinsStack_refines`.
-/
import PwrbCore.Coins.Coins
import PwrbCore.Lib.WriteBack

namespace PwrbCore

open WriteBack List StdMap CCoins

/-! ## §1. The caches. -/

variable {base : Uint256 → Option CCoins} {txid : Uint256} {edit : CCoins → CCoins}

/-- `CCoinsCacheEntry`: the coins and the flags DIRTY and FRESH. -/
abbrev CCoinsCacheEntry := Slot CCoins

abbrev CCoinsMap := Layer Uint256 CCoins

variable {cache : CCoinsMap} {below : List CCoinsMap}

/-- `CCoinsViewCache::GetCoins` by way of `FetchCoins`, down to the base view: the coins, and the filled caches. -/
def getCoins (base : Uint256 → Option CCoins) : List CCoinsMap → Uint256 → Option CCoins × List CCoinsMap
  | [], txid => (base txid, [])
  | cache :: below, txid =>
    match cache.get txid with
    | some entry => (some entry.val, cache :: below)
    | none =>
      match getCoins base below txid with
      | (none, below) => (none, cache :: below)
      | (some tmp, below) => (some tmp, cache.set txid { val := tmp, fresh := tmp.isPruned } :: below)

section

variable (base : Uint256 → Option CCoins) (cache : CCoinsMap) (below : List CCoinsMap) (txid : Uint256)

/-- The entry `ModifyCoins` hands out. -/
def modifiedEntry : CCoinsCacheEntry × List CCoinsMap :=
  match cache.get txid with
  | some entry => (entry, below)
  | none =>
    match getCoins base below txid with
    | (none, below) => ({ val := {}, fresh := true }, below)
    | (some coins, below) => ({ val := coins, fresh := coins.isPruned }, below)

/-- `ModifyCoins(txid)`, edited by `edit`, and the destructor of the modifier. -/
def modifyCoins (edit : CCoins → CCoins) : List CCoinsMap :=
  let (entry, below) := modifiedEntry base cache below txid
  let entry := { entry with val := (edit entry.val).cleanup, dirty := true }
  (if entry.fresh && entry.val.isPruned then cache.remove txid else cache.set txid entry) :: below

end

/-- One entry of `CCoinsViewCache::BatchWrite`; `none` where the assertion fails. -/
def batchWriteEntry (us : CCoinsMap) (txid : Uint256) (entry : CCoinsCacheEntry) : Option CCoinsMap :=
  if entry.dirty then
    match us.get txid with
    | none =>
      if entry.val.isPruned then some us
      else if entry.fresh then some (us.set txid { val := entry.val, dirty := true, fresh := true })
      else none
    | some itUs =>
      if itUs.fresh && entry.val.isPruned then some (us.remove txid)
      else some (us.set txid { itUs with val := entry.val, dirty := true })
  else some us

/-- `CCoinsViewCache::BatchWrite`. -/
def batchWrite (us mapCoins : CCoinsMap) : Option CCoinsMap :=
  mapCoins.entries.foldlM (fun us e => batchWriteEntry us e.1 e.2) us

/-- `CCoinsView`, the view below the caches, with its law: `BatchWrite` erases pruned entries and
gives the other dirty ones back as they were.  `CCoinsViewDB` does so while the versions are not
negative; `VARINT` loses the sign of the others. -/
structure BaseView where
  State : Type
  getCoins : State → Uint256 → Option CCoins
  batchWrite : State → CCoinsMap → State
  getCoins_batchWrite : ∀ base mapCoins txid, getCoins (batchWrite base mapCoins) txid
    = writeBase CCoins.isPruned mapCoins (getCoins base) txid

/-! ## §2. Stacks. -/

/-- Caches over a base view, the newest first. -/
structure CoinsStack (view : BaseView) where
  layers : List CCoinsMap
  base : view.State

variable {view : BaseView} {st : CoinsStack view}

/-- What the base view answers. -/
def CoinsStack.baseCoins (st : CoinsStack view) : Uint256 → Option CCoins := view.getCoins st.base

/-- What is done to a stack.  `discard` destroys the top cache. -/
inductive CacheOp where
  | getCoins (txid : Uint256)
  | accessCoins (txid : Uint256)
  | haveCoins (txid : Uint256)
  | modifyCoins (txid : Uint256) (edit : CCoins → CCoins)
  | push
  | flush
  | discard

/-- An answer; a fully pruned entry counts as absent. -/
inductive CacheAnswer where
  | coins (coins : Option CCoins)
  | have (b : Bool)
  | done
  deriving DecidableEq

namespace CoinsStack

/-- `Flush` of the top cache into the view below; `none` where an assertion fails. -/
def flush (st : CoinsStack view) : Option (CoinsStack view) :=
  match st.layers with
  | [] => some st
  | [cache] => some ⟨[∅], view.batchWrite st.base cache⟩
  | cache :: us :: below => (batchWrite us cache).map fun us => ⟨∅ :: us :: below, st.base⟩

def coinsAnswer (st : CoinsStack view) (txid : Uint256) : Option CCoins :=
  alive CCoins.isPruned (PwrbCore.getCoins st.baseCoins st.layers txid).1

/-- `HaveCoins`: it goes by the length of `vout`. -/
def haveAnswer (st : CoinsStack view) (txid : Uint256) : Bool :=
  match (PwrbCore.getCoins st.baseCoins st.layers txid).1 with
  | some coins => !coins.vout.isEmpty
  | none => false

def fetched (st : CoinsStack view) (txid : Uint256) : CoinsStack view :=
  { st with layers := (PwrbCore.getCoins st.baseCoins st.layers txid).2 }

def step (st : CoinsStack view) : CacheOp → Option (CoinsStack view × CacheAnswer)
  | .getCoins txid => some (st.fetched txid, .coins (st.coinsAnswer txid))
  | .accessCoins txid => some (st.fetched txid, .coins (st.coinsAnswer txid))
  | .haveCoins txid => some (st.fetched txid, .have (st.haveAnswer txid))
  | .modifyCoins txid edit =>
    match st.layers with
    | [] => some (st, .done)
    | cache :: below => some ({ st with layers := PwrbCore.modifyCoins st.baseCoins cache below txid edit }, .done)
  | .push => some ({ st with layers := ∅ :: st.layers }, .done)
  | .flush => st.flush.map fun st => (st, .done)
  | .discard => some ({ st with layers := st.layers.tail }, .done)

def run (st : CoinsStack view) : List CacheOp → Option (CoinsStack view × List CacheAnswer)
  | [] => some (st, [])
  | op :: ops => do
    let (st, answer) ← st.step op
    let (st, answers) ← st.run ops
    return (st, answer :: answers)

end CoinsStack

/-! ## §3. Fetching. -/

/-- No spent output at the end; what `Cleanup`, `FromTx` and `Unserialize` leave. -/
def CCoins.Trimmed (c : CCoins) : Prop := c.cleanup = c

theorem CCoins.trimmed_cleanup (c : CCoins) : c.cleanup.Trimmed := by
  unfold CCoins.Trimmed cleanup
  rw [rdropWhile_idempotent]

/-- For a trimmed entry an empty `vout` and being fully spent are the same. -/
theorem CCoins.Trimmed.isEmpty_eq {c : CCoins} (h : c.Trimmed) : c.vout.isEmpty = c.isPruned := by
  have hvout : c.vout.rdropWhile CTxOut.isNull = c.vout := congrArg vout h
  unfold isPruned
  cases hp : c.vout.all CTxOut.isNull with
  | true => simp_all
  | false => grind

/-- Every answer at every height of the stack is trimmed. -/
def AllTrimmed (base : Uint256 → Option CCoins) (layers : List CCoinsMap) : Prop :=
  ∀ m ∈ answers base layers, ∀ txid coins, m txid = some coins → coins.Trimmed

section fetching

variable {layers : List CCoinsMap}

theorem AllTrimmed.tail (h : AllTrimmed base (cache :: below)) : AllTrimmed base below :=
  fun m hm => h m (mem_cons_of_mem _ hm)

theorem AllTrimmed.cons (h : AllTrimmed base below)
    (htop : ∀ txid coins, peek base (cache :: below) txid = some coins → coins.Trimmed) :
    AllTrimmed base (cache :: below) := by
  intro m hm
  rcases mem_cons.mp hm with rfl | hm
  · exact htop
  · exact h m hm

theorem AllTrimmed.peek (h : AllTrimmed base layers) {coins : CCoins}
    (hpeek : peek base layers txid = some coins) : coins.Trimmed := by
  obtain ⟨rest, hrest⟩ := answers_eq_cons base layers
  exact h _ (by rw [hrest]; exact mem_cons_self) txid coins hpeek

/-- What fetching does to the caches: they answer as before and hold more. -/
structure Fetched (base : Uint256 → Option CCoins) (layers layers' : List CCoinsMap) (txid : Uint256) : Prop where
  same : answers base layers' = answers base layers
  sound : WriteBack.Sound CCoins.isPruned base layers → WriteBack.Sound CCoins.isPruned base layers'
  held : ∀ k, Held layers k → Held layers' k
  found : (peek base layers txid).isSome = true → Held layers' txid

theorem Fetched.cons_below {below' : List CCoinsMap} (h : Fetched base below below' txid) (cache : CCoinsMap) :
    answers base (cache :: below') = answers base (cache :: below) ∧
      (WriteBack.Sound isPruned base (cache :: below) → WriteBack.Sound isPruned base (cache :: below')) := by
  refine ⟨answers_cons h.same cache, fun hs => ?_⟩
  exact hs.congr_below (h.sound hs.2) (congrFun (peek_eq_of_answers h.same)) h.held

/-- **`GetCoins` answers what the stack holds**, and pulls it into every cache. -/
theorem getCoins_fetched (base : Uint256 → Option CCoins) (layers : List CCoinsMap) (txid : Uint256) :
    (getCoins base layers txid).1 = peek base layers txid ∧ Fetched base layers (getCoins base layers txid).2 txid := by
  induction layers with
  | nil =>
    exact ⟨rfl, rfl, fun hs => hs, fun k hk => hk, fun _ => trivial⟩
  | cons cache below ih =>
    obtain ⟨hanswer, hbelow⟩ := ih
    unfold getCoins
    cases hget : cache.get txid with
    | some entry =>
      refine ⟨(peek_of_get hget).symm, rfl, fun hs => hs, fun k hk => hk, fun _ => ?_⟩
      show (cache.get txid).isSome = true
      rw [hget]
      rfl
    | none =>
      rw [peek_of_get_none hget, ← hanswer]
      obtain ⟨hsame, hsound⟩ := hbelow.cons_below cache
      generalize getCoins base below txid = fetched at *
      obtain ⟨answer, below'⟩ := fetched
      cases answer with
      | none =>
        refine ⟨rfl, hsame, hsound, fun k hk => hk, fun hsome => ?_⟩
        rw [peek_of_get_none hget, ← hanswer] at hsome
        cases hsome
      | some tmp =>
        have htmp : peek base below' txid = some tmp := by
          rw [peek_eq_of_answers hbelow.same, ← hanswer]
        refine ⟨rfl, ?_, fun hs => ?_, fun k hk => ?_, fun _ => ?_⟩
        · -- the new entry is what the stack below answers
          rw [← hsame, answers, answers]
          congr 1
          funext k
          rw [peek_set]
          split_ifs with hk
          · rw [hk, peek_of_get_none hget, htmp]
          · rfl
        · refine (hsound hs).set ⟨?_, fun _ => hbelow.found (by rw [← hanswer]; rfl), fun _ => htmp⟩
          rw [htmp]
          exact @alive_eq_none_iff _ isPruned tmp
        · show ((cache.set txid _).get k).isSome = true
          rw [get_set]
          split_ifs
          · rfl
          · exact hk
        · show ((cache.set txid _).get txid).isSome = true
          rw [get_set_self]
          rfl

end fetching

/-! ## §4. Editing. -/

/-- The entry after an edit, whether it was kept or dropped. -/
def editedCoins (edit : CCoins → CCoins) (coins : Option CCoins) : CCoins := (edit (coins.getD {})).cleanup

section editing

/-- **The entry handed out** holds the coins of the stack; its flags are right once it is dirty. -/
theorem modifiedEntry_fits (h : WriteBack.Sound isPruned base (cache :: below)) (txid : Uint256) :
    (modifiedEntry base cache below txid).1.val = (peek base (cache :: below) txid).getD {} ∧
      (∀ coins, ({ (modifiedEntry base cache below txid).1 with val := coins, dirty := true } :
        CCoinsCacheEntry).Fits isPruned (peek base (modifiedEntry base cache below txid).2 txid)
          (Held (modifiedEntry base cache below txid).2 txid)) ∧
      answers base (cache :: (modifiedEntry base cache below txid).2) = answers base (cache :: below) ∧
      WriteBack.Sound isPruned base (cache :: (modifiedEntry base cache below txid).2) := by
  unfold modifiedEntry
  cases hget : cache.get txid with
  | some entry =>
    have hfits := h.1 txid entry hget
    rw [peek_of_get hget]
    exact ⟨rfl, fun coins => ⟨hfits.fresh, hfits.held, fun hc => (by cases hc)⟩, rfl, h⟩
  | none =>
    obtain ⟨hanswer, hfetched⟩ := getCoins_fetched base below txid
    obtain ⟨hsame, hsound⟩ := hfetched.cons_below cache
    rw [peek_of_get_none hget, ← hanswer]
    generalize getCoins base below txid = fetched at *
    obtain ⟨answer, below'⟩ := fetched
    have hpeek : peek base below' txid = answer := by rw [peek_eq_of_answers hfetched.same, ← hanswer]
    cases answer with
    | none =>
      refine ⟨rfl, fun coins => ⟨iff_of_true rfl ?_, fun hf => (by cases hf), fun hc => (by cases hc)⟩,
        hsame, hsound h⟩
      rw [hpeek]
      rfl
    | some tmp =>
      refine ⟨rfl, fun coins => ⟨?_, fun _ => hfetched.found ?_, fun hc => (by cases hc)⟩, hsame, hsound h⟩
      · rw [hpeek]
        exact @alive_eq_none_iff _ isPruned tmp
      · rw [← hanswer]
        rfl

/-- **`ModifyCoins`** changes one answer. -/
theorem modifyCoins_sound (h : WriteBack.Sound isPruned base (cache :: below)) (ht : AllTrimmed base (cache :: below))
    (txid : Uint256) (edit : CCoins → CCoins) :
    ∃ cache' below', modifyCoins base cache below txid edit = cache' :: below' ∧
      answers base below' = answers base below ∧
      WriteBack.Sound isPruned base (cache' :: below') ∧ AllTrimmed base (cache' :: below') ∧
      ∀ k, alive isPruned (peek base (cache' :: below') k) =
        if k = txid then alive isPruned (some (editedCoins edit (peek base (cache :: below) txid)))
        else alive isPruned (peek base (cache :: below) k) := by
  obtain ⟨hval, hfits, hsame, hsound⟩ := modifiedEntry_fits h txid
  unfold modifyCoins editedCoins
  rw [← hval]
  generalize modifiedEntry base cache below txid = modified at *
  obtain ⟨entry, below'⟩ := modified
  dsimp only at hfits hsame hsound ⊢
  obtain ⟨htop, hbelow⟩ := cons.inj hsame
  have htrimmed : AllTrimmed base (cache :: below') := by
    unfold AllTrimmed
    rw [hsame]
    exact ht
  have hnew := hfits (edit entry.val).cleanup
  cases hdrop : entry.fresh && (edit entry.val).cleanup.isPruned with
  | true =>
    -- nothing alive is below, so dropping the dead entry answers the same
    rw [Bool.and_eq_true] at hdrop
    rw [if_pos rfl]
    refine ⟨_, _, rfl, hbelow, hsound.remove txid, ?_, fun k => ?_⟩
    · refine htrimmed.tail.cons fun t c hc => ?_
      rw [peek_remove] at hc
      split_ifs at hc
      · exact htrimmed.tail.peek hc
      · exact htrimmed.peek hc
    · rw [peek_remove]
      split_ifs with hk
      · rw [hk, hnew.fresh.mp hdrop.1, alive_of_dead hdrop.2]
      · rw [htop]
  | false =>
    rw [if_neg (by decide)]
    refine ⟨_, _, rfl, hbelow, hsound.set hnew, htrimmed.tail.cons fun t c hc => ?_, fun k => ?_⟩
    · rw [peek_set] at hc
      split_ifs at hc
      · cases hc
        exact trimmed_cleanup _
      · exact htrimmed.peek hc
    · rw [peek_set]
      split_ifs with hk
      · rfl
      · rw [htop]

end editing

/-! ## §5. Flushing. -/

section flushing

variable {us : CCoinsMap}

/-- One entry written to a cache that holds it, or to which it is fresh. -/
theorem batchWriteEntry_merges (us : CCoinsMap) (txid : Uint256) (entry : CCoinsCacheEntry)
    (hok : us.get txid = none → entry.fresh = true) : ∃ us', batchWriteEntry us txid entry = some us' ∧
      ∀ k, us'.get k = if k = txid then mergeSlot isPruned (us.get txid) entry else us.get k := by
  have hkeep : ∀ k, us.get k = if k = txid then us.get txid else us.get k := by simp_all
  unfold batchWriteEntry mergeSlot
  cases hd : entry.dirty with
  | false => exact ⟨us, rfl, hkeep⟩
  | true =>
    simp only [if_true]
    cases hus : us.get txid with
    | none =>
      cases hp : entry.val.isPruned with
      | true =>
        rw [hus] at hkeep
        exact ⟨us, rfl, hkeep⟩
      | false =>
        rw [hok hus]
        exact ⟨_, rfl, fun k => get_set us txid k _⟩
    | some itUs =>
      dsimp only
      split_ifs
      · exact ⟨_, rfl, fun k => get_remove us txid k⟩
      · exact ⟨_, rfl, fun k => get_set us txid k _⟩

/-- **The assertion holds**: `BatchWrite` into a cache merges slot by slot. -/
theorem batchWrite_merged (h : WriteBack.Sound isPruned base (cache :: us :: below)) :
    ∃ us', batchWrite us cache = some us' ∧ Merged isPruned cache us us' := by
  obtain ⟨us', hrun, hget⟩ := foldlM_entries (f := batchWriteEntry) (g := mergeSlot isPruned)
    (P := fun itUs entry => itUs = none → entry.fresh = true) batchWriteEntry_merges cache us
    fun _ _ hentry hus => h.fresh_of_not_held hentry hus
  refine ⟨us', hrun, fun k => ?_⟩
  rw [hget k]
  cases cache.get k <;> rfl

end flushing

/-! ## §6. Plain maps. -/

/-- Plain maps, top first; the last stands for the database. Fully pruned entries are absent. -/
abbrev PlainStack := List (Uint256 → Option CCoins)

namespace PlainStack

def top (maps : PlainStack) (txid : Uint256) : Option CCoins := maps.headD (fun _ => none) txid

def edited (m : Uint256 → Option CCoins) (txid : Uint256) (edit : CCoins → CCoins) : Uint256 → Option CCoins :=
  fun t => if t = txid then alive CCoins.isPruned (some (editedCoins edit (m txid))) else m t

/-- One operation on the maps: a push copies the top map, a flush copies it down. -/
def step (maps : PlainStack) : CacheOp → PlainStack × CacheAnswer
  | .getCoins txid => (maps, .coins (maps.top txid))
  | .accessCoins txid => (maps, .coins (maps.top txid))
  | .haveCoins txid => (maps, .have (maps.top txid).isSome)
  | .modifyCoins txid edit =>
    match maps with
    | m :: m' :: rest => (edited m txid edit :: m' :: rest, .done)
    | maps => (maps, .done)
  | .push =>
    match maps with
    | m :: rest => (m :: m :: rest, .done)
    | [] => ([], .done)
  | .flush =>
    match maps with
    | m :: _ :: rest => (m :: m :: rest, .done)
    | maps => (maps, .done)
  | .discard =>
    match maps with
    | _ :: m' :: rest => (m' :: rest, .done)
    | maps => (maps, .done)

theorem step_flush (maps : PlainStack) : (maps.step .flush).2 = .done ∧ top (maps.step .flush).1 = maps.top := by
  rcases maps with _ | ⟨m, _ | ⟨m', maps⟩⟩ <;> exact ⟨rfl, rfl⟩

def run (maps : PlainStack) : List CacheOp → List CacheAnswer
  | [] => []
  | op :: ops => (maps.step op).2 :: run (maps.step op).1 ops

end PlainStack

/-- The edit makes of an entry without outputs what it makes of an empty one, up to `operator==`. -/
def CacheOp.Respects : CacheOp → Prop
  | .modifyCoins _ edit => ∀ c, c.vout = [] → (edit c).cleanup.eqv (edit {}).cleanup = true
  | _ => True

/-- The edit `Spend` makes. -/
def CCoins.spendEdit (n : Nat) (c : CCoins) : CCoins := ((c.spend n).map Prod.fst).getD c

/-- What `UpdateCoins` and `DisconnectBlock` do to entries: `FromTx`, `Spend`, `Clear`, and the restore of an input
with a height. -/
inductive NodeEdit : (CCoins → CCoins) → Prop
  | fromTx (tx : CTransaction) (nHeight : Int) : NodeEdit fun _ => CCoins.fromTx tx nHeight
  | spend (n : Nat) : NodeEdit (CCoins.spendEdit n)
  | clear : NodeEdit fun _ => {}
  | restoreInput (undo : CTxInUndo) (n : Nat) (hheight : undo.nHeight ≠ 0) :
      NodeEdit (CCoins.restoreInput undo n)

/-- **The node's edits** do not look into entries without outputs. -/
theorem NodeEdit.respects (h : NodeEdit edit) : (CacheOp.modifyCoins txid edit).Respects := by
  have hrefl : ∀ c : CCoins, c.eqv c = true := by
    simp [eqv]
  intro c hc
  cases h with
  | fromTx | clear => exact hrefl _
  | spend n =>
    -- there is nothing to spend in either entry
    have hspend : ∀ c : CCoins, c.vout = [] → c.spendEdit n = c := by
      intro c hc
      simp [spendEdit, CCoins.spend, hc]
    rw [hspend c hc, hspend {} rfl]
    simp [eqv, isPruned, cleanup, hc]
  | restoreInput undo n hheight => grind [CCoins.restoreInput]

theorem alive_of_eqv {a b : CCoins} (h : a.eqv b = true) : alive isPruned (some a) = alive isPruned (some b) := by
  unfold eqv at h
  rw [Bool.or_eq_true, Bool.and_eq_true, beq_iff_eq] at h
  rcases h with ⟨ha, hb⟩ | rfl
  · rw [alive_of_dead ha, alive_of_dead hb]
  · rfl

/-- A respectful edit of what the stack holds and of what the map says agree. -/
theorem editedCoins_alive (hedit : ∀ c, c.vout = [] → (edit c).cleanup.eqv (edit {}).cleanup = true) {o : Option CCoins}
    (htrimmed : ∀ c, o = some c → c.Trimmed) : alive isPruned (some (editedCoins edit o))
      = alive isPruned (some (editedCoins edit (alive isPruned o))) := by
  cases o with
  | none => rfl
  | some c =>
    cases hp : c.isPruned with
    | false => rw [alive_of_not_dead hp]
    | true =>
      -- the entry is empty, whatever else is left in it
      have hempty : c.vout = [] := by
        rw [← List.isEmpty_iff, (htrimmed c rfl).isEmpty_eq]
        exact hp
      rw [alive_of_dead hp]
      exact alive_of_eqv (hedit c hempty)

/-! ## §7. Runs. -/

structure CoinsStack.Inv (st : CoinsStack view) : Prop where
  sound : WriteBack.Sound CCoins.isPruned st.baseCoins st.layers
  trimmed : AllTrimmed st.baseCoins st.layers

namespace CoinsStack

/-- The answers of the stack as plain maps. -/
def shown (st : CoinsStack view) : PlainStack :=
  (answers st.baseCoins st.layers).map fun m txid => alive CCoins.isPruned (m txid)

theorem coinsAnswer_eq (st : CoinsStack view) (txid : Uint256) :
    st.coinsAnswer txid = alive isPruned (peek st.baseCoins st.layers txid) := by
  unfold coinsAnswer
  rw [(getCoins_fetched st.baseCoins st.layers txid).1]

theorem Inv.haveAnswer_eq (h : st.Inv) (txid : Uint256) :
    st.haveAnswer txid = (alive isPruned (peek st.baseCoins st.layers txid)).isSome := by
  unfold haveAnswer
  rw [(getCoins_fetched st.baseCoins st.layers txid).1]
  cases hpeek : peek st.baseCoins st.layers txid with
  | none => rfl
  | some c =>
    dsimp only
    rw [(h.trimmed.peek hpeek).isEmpty_eq]
    cases hp : c.isPruned with
    | true => rw [alive_of_dead hp]; rfl
    | false => rw [alive_of_not_dead hp]; rfl

theorem Inv.fetched (h : st.Inv) (txid : Uint256) : (st.fetched txid).Inv := by
  have hfetched := (getCoins_fetched st.baseCoins st.layers txid).2
  refine ⟨hfetched.sound h.sound, fun m hm => h.trimmed m ?_⟩
  rw [← hfetched.same]
  exact hm

theorem top_shown (st : CoinsStack view) (txid : Uint256) :
    PlainStack.top st.shown txid = alive isPruned (peek st.baseCoins st.layers txid) := by
  unfold shown
  obtain ⟨rest, hrest⟩ := answers_eq_cons st.baseCoins st.layers
  rw [hrest]
  rfl

/-- **A flush goes through and changes no answer**, at the top or below. -/
theorem Inv.flush (h : st.Inv) :
    ∃ st', st.flush = some st' ∧ st'.Inv ∧ (PlainStack.step st.shown .flush).1 = st'.shown := by
  obtain ⟨layers, base⟩ := st
  match layers with
  | [] => exact ⟨_, rfl, h, rfl⟩
  | [cache] =>
    have hwrite : ∀ k, alive isPruned (view.getCoins (view.batchWrite base cache) k)
        = alive isPruned (peek (view.getCoins base) [cache] k) := by
      intro k
      rw [view.getCoins_batchWrite]
      exact h.sound.write k
    -- what is written was trimmed
    have hnew : ∀ t c, view.getCoins (view.batchWrite base cache) t = some c → c.Trimmed := by
      intro t c hc
      rw [view.getCoins_batchWrite, writeBase] at hc
      cases hget : cache.get t with
      | none =>
        rw [hget] at hc
        exact h.trimmed.tail.peek hc
      | some entry =>
        rw [hget] at hc
        dsimp only at hc
        split_ifs at hc
        · cases hc
          exact h.trimmed.peek (peek_of_get hget)
        · exact h.trimmed.tail.peek hc
    refine ⟨_, rfl, ⟨.push trivial, .cons (fun m hm => ?_) hnew⟩, ?_⟩
    · rw [mem_singleton.mp hm]
      exact hnew
    · exact congrArg (fun m => [m, m]) (funext hwrite).symm
  | cache :: us :: below =>
    obtain ⟨us', hrun, hmerged⟩ := batchWrite_merged h.sound
    obtain ⟨hsound, hsame⟩ := h.sound.merge hmerged
    have htop : ∀ t c, peek (view.getCoins base) (us' :: below) t = some c → c.Trimmed := by
      intro t c hc
      cases hus : us'.get t with
      | none =>
        rw [peek_of_get_none hus] at hc
        exact h.trimmed.tail.tail.peek hc
      | some u =>
        rw [peek_of_get hus] at hc
        cases hc
        rw [hmerged t] at hus
        cases hget : cache.get t with
        | none =>
          rw [hget] at hus
          exact h.trimmed.tail.peek (peek_of_get hus)
        | some entry =>
          rw [hget] at hus
          rcases mergeSlot_val hus with hval | hold
          · rw [hval]
            exact h.trimmed.peek (peek_of_get hget)
          · exact h.trimmed.tail.peek (peek_of_get hold)
    refine ⟨⟨∅ :: us' :: below, base⟩, ?_, ⟨hsound.push, (h.trimmed.tail.tail.cons htop).cons htop⟩, ?_⟩
    · unfold CoinsStack.flush
      dsimp only
      rw [hrun]
      rfl
    · exact congrArg (fun m => m :: m :: (answers (view.getCoins base) below).map _) (funext hsame).symm

/-- **One operation** goes through, the invariant stays, and a respectful edit answers as the plain maps do. -/
theorem Inv.step (h : st.Inv) (op : CacheOp) : ∃ st' answer, st.step op = some (st', answer) ∧ st'.Inv ∧
      (op.Respects → PlainStack.step st.shown op = (st'.shown, answer)) := by
  have hquery : ∀ txid, (st.fetched txid).shown = st.shown := fun txid =>
    congrArg (List.map _) (getCoins_fetched st.baseCoins st.layers txid).2.same
  cases op with
  | getCoins txid | accessCoins txid =>
    refine ⟨_, _, rfl, h.fetched txid, fun _ => ?_⟩
    rw [hquery, coinsAnswer_eq, ← top_shown]
    rfl
  | haveCoins txid =>
    refine ⟨_, _, rfl, h.fetched txid, fun _ => ?_⟩
    rw [hquery, h.haveAnswer_eq, ← top_shown]
    rfl
  | modifyCoins txid edit =>
    obtain ⟨layers, base⟩ := st
    cases layers with
    | nil => exact ⟨_, _, rfl, h, fun _ => rfl⟩
    | cons cache below =>
      obtain ⟨cache', below', hrun, hbelow, hsound, htrimmed, hanswers⟩ :=
        modifyCoins_sound h.sound h.trimmed txid edit
      refine ⟨⟨cache' :: below', base⟩, .done, ?_, ⟨hsound, htrimmed⟩, fun hedit => ?_⟩
      · unfold step
        rw [← hrun]
      obtain ⟨rest, hrest⟩ := answers_eq_cons (view.getCoins base) below
      have hrest' : answers (view.getCoins base) below' = peek _ below :: rest := hbelow.trans hrest
      show PlainStack.step (map _ (_ :: answers (view.getCoins base) below)) _
        = (map _ (_ :: answers (view.getCoins base) below'), _)
      rw [hrest', hrest]
      refine congrArg (fun m => (m :: _, CacheAnswer.done)) (funext fun k => ?_)
      refine Eq.trans ?_ (hanswers k).symm
      show (if k = txid then _ else _) = _
      split_ifs
      · exact (editedCoins_alive hedit fun c hc => h.trimmed.peek hc).symm
      · rfl
  | push =>
    refine ⟨_, _, rfl, ⟨h.sound.push, h.trimmed.cons fun _ _ => h.trimmed.peek⟩, fun _ => ?_⟩
    obtain ⟨rest, hrest⟩ := answers_eq_cons st.baseCoins st.layers
    show PlainStack.step ((answers _ _).map _) _ = ((_ :: (answers st.baseCoins st.layers).map _), _)
    rw [hrest]
    rfl
  | flush =>
    obtain ⟨st', hflush, hinv, hshown⟩ := h.flush
    refine ⟨st', .done, ?_, hinv, fun _ => Prod.ext hshown (PlainStack.step_flush _).1⟩
    unfold CoinsStack.step
    rw [hflush]
    rfl
  | discard =>
    obtain ⟨layers, base⟩ := st
    cases layers with
    | nil => exact ⟨_, _, rfl, h, fun _ => rfl⟩
    | cons cache below =>
      refine ⟨_, _, rfl, ⟨h.sound.2, h.trimmed.tail⟩, fun _ => ?_⟩
      obtain ⟨rest, hrest⟩ := answers_eq_cons (view.getCoins base) below
      show PlainStack.step (map _ (_ :: answers (view.getCoins base) below)) _
        = (map _ (answers (view.getCoins base) below), _)
      rw [hrest]
      rfl

/-- **Every run.** -/
theorem Inv.run (h : st.Inv) (ops : List CacheOp) : ∃ st' answers, st.run ops = some (st', answers) ∧ st'.Inv ∧
      ((∀ op ∈ ops, op.Respects) → answers = PlainStack.run st.shown ops) := by
  induction ops generalizing st with
  | nil => exact ⟨st, [], rfl, h, fun _ => rfl⟩
  | cons op ops ih =>
    obtain ⟨st1, answer, hstep, hinv, hanswer⟩ := h.step op
    obtain ⟨st', answers, hrun, hinv', hanswers⟩ := ih hinv
    refine ⟨st', answer :: answers, ?_, hinv', fun hrespects => ?_⟩
    · grind [run]
    · rw [PlainStack.run, hanswer (hrespects op mem_cons_self),
        ← hanswers fun op' hop' => hrespects op' (mem_cons_of_mem _ hop')]

end CoinsStack

/-- **The caches refine plain maps.**  Over any base view with trimmed entries (`Unserialize` ends
in `Cleanup`) every run goes through: the assertion of `BatchWrite` never fires.  A flush changes no
answer.  If the edits do not look into empty entries, the answers are those of the plain maps. -/
theorem coinsStack_refines (view : BaseView) (base : view.State)
    (hbase : ∀ txid coins, view.getCoins base txid = some coins → coins.Trimmed)
    (ops : List CacheOp) :
    ∃ st answers, (⟨[], base⟩ : CoinsStack view).run ops = some (st, answers) ∧
      (∃ st', st.flush = some st' ∧ ∀ txid, st'.coinsAnswer txid = st.coinsAnswer txid ∧
        st'.haveAnswer txid = st.haveAnswer txid) ∧ ((∀ op ∈ ops, op.Respects) →
        answers = PlainStack.run [fun txid => alive CCoins.isPruned (view.getCoins base txid)] ops) := by
  have hstart : (⟨[], base⟩ : CoinsStack view).Inv := ⟨trivial, fun m hm => by rw [mem_singleton.mp hm]; exact hbase⟩
  obtain ⟨st, answers, hrun, hinv, hanswers⟩ := hstart.run ops
  refine ⟨st, answers, hrun, ?_, hanswers⟩
  obtain ⟨st', hflush, hinv', hshown⟩ := hinv.flush
  refine ⟨st', hflush, fun txid => ?_⟩
  rw [st'.coinsAnswer_eq, st.coinsAnswer_eq, hinv'.haveAnswer_eq, hinv.haveAnswer_eq, ← st.top_shown,
    ← (PlainStack.step_flush _).2, hshown, st'.top_shown]
  exact ⟨rfl, rfl⟩

/-- A base view that is a map itself. -/
def plainView : BaseView where
  State := Uint256 → Option CCoins
  getCoins base := base
  batchWrite base mapCoins := writeBase CCoins.isPruned mapCoins base
  getCoins_batchWrite _ _ _ := rfl

def oneOutput (txid : Uint256) : Option CCoins :=
  if txid = 7 then some { vout := [⟨40, []⟩], nHeight := 5, nVersion := 1 } else none

/-- The edit of `DisconnectBlock` for an undo record without a height. -/
def restoreWithoutHeight : CCoins → CCoins := CCoins.restoreInput { txout := ⟨40, []⟩ } 0

theorem oneOutput_refines : (∀ txid coins, oneOutput txid = some coins → coins.Trimmed) ∧
      ∃ st answers, (⟨[], oneOutput⟩ : CoinsStack plainView).run
          [.push, .modifyCoins 7 (CCoins.spendEdit 0), .flush, .haveCoins 7] = some (st, answers) ∧
        answers = PlainStack.run [fun txid => alive CCoins.isPruned (oneOutput txid)]
          [.push, .modifyCoins 7 (CCoins.spendEdit 0), .flush, .haveCoins 7] := by
  have hbase : ∀ txid coins, oneOutput txid = some coins → coins.Trimmed := by
    intro txid coins hget
    unfold oneOutput at hget
    split_ifs at hget
    cases hget
    exact rfl
  obtain ⟨st, answers, hrun, -, hanswers⟩ := coinsStack_refines plainView oneOutput hbase
    [.push, .modifyCoins 7 (spendEdit 0), .flush, .haveCoins 7]
  refine ⟨hbase, st, answers, hrun, hanswers ?_⟩
  simp only [forall_mem_cons]
  exact ⟨trivial, (NodeEdit.spend 0).respects, trivial, trivial, forall_mem_nil _⟩

/-- An output is spent and put back from a record without a height: the cache hands the spent entry out with its old
height, a plain map starts from an empty one. -/
theorem stale_height_answered : ((⟨[], oneOutput⟩ : CoinsStack plainView).run
        [.push, .modifyCoins 7 (CCoins.spendEdit 0), .modifyCoins 7 restoreWithoutHeight, .getCoins 7]).map
        (fun r => r.2.getLast?) = some (some (.coins (some { vout := [⟨40, []⟩], nHeight := 5, nVersion := 1 }))) ∧
    (PlainStack.run [fun txid => alive isPruned (oneOutput txid)]
        [.push, .modifyCoins 7 (spendEdit 0), .modifyCoins 7 restoreWithoutHeight, .getCoins 7]).getLast?
      = some (.coins (some { vout := [⟨40, []⟩] })) := by
  decide +kernel

end PwrbCore
