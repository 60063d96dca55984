/-
  Node.CheckQueue — THE QUEUE OF SCRIPT CHECKS (`CCheckQueue`, `CCheckQueueControl` of `checkqueue.h`).

  One master adds batches of checks and then joins the workers until all is done.  Threads
  take batches under the mutex, run them without it, and report in their next critical
  section.  A critical section is one step; between two of them every interleaving is possible,
  and a thread that waits may wake at any time.

  Main result: `wait_settles_checks`.
-/
import Mathlib.Data.Multiset.Bind
import Mathlib.Algebra.Order.BigOperators.Group.Multiset
import Mathlib.Algebra.Order.Ring.Nat

namespace PwrbCore

open UInt32 Nat

/-! ## §1. The queue and the critical sections of `Loop`. -/

variable {T : Type} {fMaster : Bool} {nBatchSize : UInt32} {added : List T}

/-- `CCheckQueue<T>`: what the mutex protects. The vector is a stack; `queue` has its back first. -/
structure CCheckQueue (T : Type) where
  queue : List T := []
  nIdle : Int := 0
  nTotal : Int := 0
  fAllOk : Bool := true
  nTodo : UInt32 := 0
  fQuit : Bool := false
  nBatchSize : UInt32

/-- Where a thread stands in `Loop`, with its local variables. -/
inductive LoopState (T : Type) where
  /-- before the first critical section -/
  | outside
  /-- in `cond.wait` -/
  | waiting
  /-- without the mutex: `vChecks` of the `nNow` checks of the batch are left -/
  | working (nNow : Nat) (vChecks : List T) (fOk : Bool)

variable {t : LoopState T}

/-- How a critical section ends: the thread goes on, or `Loop` returns. -/
inductive Outcome (T : Type) where
  | goOn (t : LoopState T)
  | done (fRet : Bool)

namespace CCheckQueue

def batch (q : CCheckQueue T) : Nat :=
  max 1 (min q.nBatchSize.toNat ((ofNat q.queue.length).toNat / (q.nTotal + q.nIdle + 1).toNat))

/-- One turn of `while (queue.empty())` and the rest, up to the release of the mutex. -/
def takeOrWait (fMaster : Bool) (q : CCheckQueue T) : CCheckQueue T × Outcome T :=
  if q.queue.isEmpty then
    if (fMaster || q.fQuit) && q.nTodo == 0 then
      ({ q with nTotal := q.nTotal - 1, fAllOk := fMaster || q.fAllOk }, .done q.fAllOk)
    else ({ q with nIdle := q.nIdle + 1 }, .goOn .waiting)
  else
    ({ q with queue := q.queue.drop q.batch }, .goOn (.working q.batch (q.queue.take q.batch) q.fAllOk))

/-- The start of a critical section: counting the thread in, coming out of `wait`, or the clean-up of the previous
batch. A thread with checks left does not come to the mutex. -/
def resume (q : CCheckQueue T) : LoopState T → Option (CCheckQueue T)
  | .outside => some { q with nTotal := q.nTotal + 1 }
  | .waiting => some { q with nIdle := q.nIdle - 1 }
  | .working nNow [] fOk =>
    some { q with fAllOk := q.fAllOk && fOk, nTodo := q.nTodo - ofNat nNow }
  | .working _ (_ :: _) _ => none

def add (q : CCheckQueue T) (vChecks : List T) : CCheckQueue T :=
  { q with queue := vChecks.reverse ++ q.queue, nTodo := q.nTodo + ofNat vChecks.length }

/-- `IsIdle`, which the constructor of `CCheckQueueControl` asserts. -/
def isIdle (q : CCheckQueue T) : Bool :=
  decide (q.nTotal = q.nIdle) && q.nTodo == 0 && q.fAllOk

end CCheckQueue

/-! ## §2. The master, the workers and their steps. -/

/-- A check of a batch was run, or passed over because a failure was known. -/
inductive CheckEvent (T : Type) where
  | ran (check : T) (fOk : Bool)
  | skipped (check : T)

variable {log : List (CheckEvent T)}

def CheckEvent.check {T : Type} : CheckEvent T → T
  | .ran c _ => c
  | .skipped c => c

/-- A call of `Wait` that returned: the checks added since the one before, their outcome (last first) and the answer.
-/
structure WaitRecord (T : Type) where
  added : List T
  log : List (CheckEvent T)
  fRet : Bool

/-- All threads. The master is outside `Loop` unless in `Wait`; `added` and `log` record what happened since `Wait`
last returned. -/
structure CheckSystem (T : Type) where
  q : CCheckQueue T
  master : LoopState T := .outside
  workers : Multiset (LoopState T)
  added : List T := []
  log : List (CheckEvent T) := []
  returns : List (WaitRecord T) := []

namespace CheckSystem

def start (nBatchSize : UInt32) (nWorkers : Nat) : CheckSystem T where
  q := { nBatchSize := nBatchSize }
  workers := Multiset.replicate nWorkers .outside

/-- The next check of the batch of a thread: `if (fOk) fOk = check()`. -/
def runCheck (check : T → Bool) : LoopState T → Option (LoopState T × CheckEvent T)
  | .working nNow (c :: vChecks) true => some (.working nNow vChecks (check c), .ran c (check c))
  | .working nNow (c :: vChecks) false => some (.working nNow vChecks false, .skipped c)
  | _ => none

/-- **The steps**: a check outside the mutex, or a critical section. The master calls `Add` and `Wait` in any order.
-/
inductive Step (check : T → Bool) : CheckSystem T → CheckSystem T → Prop
  | add (s : CheckSystem T) (vChecks : List T) (hmaster : s.master = .outside) :
      Step check s { s with q := s.q.add vChecks, added := s.added ++ vChecks }
  | masterRuns (s : CheckSystem T) {t' : LoopState T} {e : CheckEvent T}
      (hrun : runCheck check s.master = some (t', e)) :
      Step check s { s with master := t', log := e :: s.log }
  | masterGoesOn (s : CheckSystem T) {q₁ q' : CCheckQueue T} {t' : LoopState T}
      (hresume : s.q.resume s.master = some q₁)
      (htake : q₁.takeOrWait true = (q', .goOn t')) : Step check s { s with q := q', master := t' }
  | masterReturns (s : CheckSystem T) {q₁ q' : CCheckQueue T} {fRet : Bool} (hresume : s.q.resume s.master = some q₁)
      (htake : q₁.takeOrWait true = (q', .done fRet)) :
      Step check s { s with q := q', master := .outside, added := [], log := [],
                            returns := ⟨s.added, s.log, fRet⟩ :: s.returns }
  | workerRuns (s : CheckSystem T) {t t' : LoopState T} {others : Multiset (LoopState T)} {e : CheckEvent T}
      (hworkers : s.workers = t ::ₘ others) (hrun : runCheck check t = some (t', e)) :
      Step check s { s with workers := t' ::ₘ others, log := e :: s.log }
  | workerGoesOn (s : CheckSystem T) {q₁ q' : CCheckQueue T} {t t' : LoopState T} {others : Multiset (LoopState T)}
      (hworkers : s.workers = t ::ₘ others) (hresume : s.q.resume t = some q₁)
      (htake : q₁.takeOrWait false = (q', .goOn t')) : Step check s { s with q := q', workers := t' ::ₘ others }
  | workerReturns (s : CheckSystem T) {q₁ q' : CCheckQueue T} {t : LoopState T}
      {others : Multiset (LoopState T)} {fRet : Bool}
      (hworkers : s.workers = t ::ₘ others) (hresume : s.q.resume t = some q₁)
      (htake : q₁.takeOrWait false = (q', .done fRet)) : Step check s { s with q := q', workers := others }

/-- The states that some schedule and some calls of the master lead to. -/
def Reachable (check : T → Bool) (nBatchSize : UInt32) (nWorkers : Nat) : CheckSystem T → Prop :=
  Relation.ReflTransGen (Step check) (start nBatchSize nWorkers)

/-! ## §3. What is true between critical sections. -/

end CheckSystem

namespace LoopState

/-- One for a thread that `nTotal` counts. -/
def entered : LoopState T → Int
  | .outside => 0
  | _ => 1

/-- One for a thread that `nIdle` counts. -/
def idle : LoopState T → Int
  | .waiting => 1
  | _ => 0

/-- The checks of the batch, which `nTodo` counts until the thread reports. -/
def held : LoopState T → Nat
  | .working nNow _ _ => nNow
  | _ => 0

/-- The checks of the batch that are left. -/
def pending : LoopState T → Multiset T
  | .working _ vChecks _ => vChecks
  | _ => 0

/-- The thread knows of a failure that it has not reported, or was told of one. -/
def Failed : LoopState T → Prop
  | .working _ _ fOk => fOk = false
  | _ => False

attribute [simp] entered idle held pending

@[simp] theorem failed_outside : (outside : LoopState T).Failed ↔ False := .rfl
@[simp] theorem failed_waiting : (waiting : LoopState T).Failed ↔ False := .rfl
@[simp] theorem failed_working (nNow : Nat) (v : List T) (fOk : Bool) : (working nNow v fOk).Failed ↔
    fOk = false := .rfl

/-- A batch has at least one check and at most `nBatchSize`, unless that is zero. -/
def Sized (nBatchSize : UInt32) : LoopState T → Prop
  | .working nNow _ _ => 1 ≤ nNow ∧ nNow ≤ max 1 nBatchSize.toNat
  | _ => True

end LoopState

/-- Every check was passed over after one had failed. The log has the last event first. -/
def Justified {T : Type} : List (CheckEvent T) → Prop
  | [] => True
  | .ran _ _ :: log => Justified log
  | .skipped _ :: log => (∃ c, CheckEvent.ran c false ∈ log) ∧ Justified log

/-- **The state between critical sections**, with `inside` threads in one: the counters count the threads, `nTodo` the
checks queued or held, every check added is in the log, the queue or a batch, and `fAllOk` or a thread knows of each
failure. -/
structure Sound {T : Type} (check : T → Bool) (inside : Int) (q : CCheckQueue T) (threads : Multiset (LoopState T))
    (added : List T) (log : List (CheckEvent T)) : Prop where
  running : q.fQuit = false
  total : q.nTotal = (threads.map LoopState.entered).sum + inside
  idle : q.nIdle = (threads.map LoopState.idle).sum
  todo : q.nTodo = ofNat (q.queue.length + (threads.map LoopState.held).sum)
  below : q.queue.length + (threads.map LoopState.held).sum ≤ added.length
  sized : ∀ t ∈ threads, t.Sized q.nBatchSize
  accounted : (added : Multiset T)
    = (log.map CheckEvent.check : List T) + ((q.queue : Multiset T) + (threads.map LoopState.pending).sum)
  failed : (∃ c, CheckEvent.ran c false ∈ log) ↔ q.fAllOk = false ∨ ∃ t ∈ threads, t.Failed
  honest : ∀ c b, CheckEvent.ran c b ∈ log → b = check c
  justified : Justified log

open Multiset LoopState

namespace Sound

variable {check : T → Bool} {inside : Int} {q q₁ q' : CCheckQueue T} {t' : LoopState T}
  {threads others : Multiset (LoopState T)} {vChecks : List T}

/-! ## §4. The parts of a critical section. -/

theorem uint32_ofNat_add_sub (a n : Nat) : ofNat (a + n) - ofNat n = ofNat a := by
  rw [ofNat_add]
  exact UInt32.add_sub_cancel _ _

theorem resume (h : Sound check 0 q (t ::ₘ others) added log) (hresume : q.resume t = some q₁) :
    Sound check 1 q₁ others added log := by
  have htotal := h.total
  have hidle := h.idle
  have htodo := h.todo
  have hbelow := h.below
  have haccounted := h.accounted
  have hfailed := h.failed
  simp only [map_cons, sum_cons, mem_cons, exists_eq_or_imp] at htotal hidle htodo hbelow haccounted hfailed
  have hsized : ∀ t ∈ others, t.Sized q.nBatchSize := fun t ht => h.sized t (mem_cons_of_mem ht)
  cases t with
  | outside =>
    cases hresume
    simp only [entered, LoopState.idle, held, pending,
      failed_outside, zero_add, false_or] at htotal hidle htodo hbelow haccounted hfailed
    exact ⟨h.running, by dsimp only; omega, hidle, htodo, hbelow, hsized, haccounted, hfailed, h.honest, h.justified⟩
  | waiting =>
    cases hresume
    simp only [entered, LoopState.idle, held, pending,
      failed_waiting, zero_add, false_or] at htotal hidle htodo hbelow haccounted hfailed
    refine ⟨h.running, ?_, ?_, htodo, hbelow, hsized, haccounted, hfailed, h.honest, h.justified⟩ <;>
      dsimp only <;> omega
  | working nNow left fOk =>
    cases left with
    | cons c left => cases hresume
    | nil =>
      cases hresume
      simp only [entered, LoopState.idle, held,
        pending, failed_working, coe_nil, zero_add] at htotal hidle htodo hbelow haccounted hfailed
      refine ⟨h.running, by dsimp only; omega, hidle, ?_, ?_, hsized, haccounted, ?_, h.honest, h.justified⟩
      · -- the batch is taken off `nTodo`
        rw [htodo, show q.queue.length + (nNow + (others.map held).sum)
          = q.queue.length + (others.map held).sum + nNow by omega]
        exact uint32_ofNat_add_sub _ _
      · dsimp only
        omega
      · -- and its failure is put into `fAllOk`
        rw [hfailed]
        rw [Bool.and_eq_false_iff, or_assoc]

theorem batch_pos (q : CCheckQueue T) : 1 ≤ q.batch := le_max_left _ _

theorem batch_le_size (q : CCheckQueue T) : q.batch ≤ max 1 q.nBatchSize.toNat :=
  max_le_max (le_refl 1) (min_le_left _ _)

theorem batch_le_length (q : CCheckQueue T) (hne : q.queue ≠ []) : q.batch ≤ q.queue.length := by
  have hpos : 1 ≤ q.queue.length := List.length_pos_iff.mpr hne
  refine max_le hpos (le_trans (min_le_right _ _) (le_trans (div_le_self _ _) ?_))
  exact mod_le _ _

theorem goOn (h : Sound check 1 q others added log) (htake : q.takeOrWait fMaster = (q', .goOn t')) :
    Sound check 0 q' (t' ::ₘ others) added log := by
  unfold CCheckQueue.takeOrWait at htake
  by_cases hempty : q.queue.isEmpty
  · split_ifs at htake
    · cases htake
    · cases htake
      refine ⟨h.running, ?_, ?_, ?_, ?_, ?_, ?_, ?_, h.honest, h.justified⟩
      · have htotal := h.total
        simp only [map_cons, sum_cons, entered]
        omega
      · have hidle := h.idle
        simp only [map_cons, sum_cons, LoopState.idle]
        omega
      · simpa using h.todo
      · simpa using h.below
      · exact forall_mem_cons.mpr ⟨trivial, h.sized⟩
      · simpa using h.accounted
      · simpa using h.failed
  · rw [if_neg hempty] at htake
    cases htake
    have hlen := batch_le_length q (by simpa using hempty)
    refine ⟨h.running, ?_, ?_, ?_, ?_, ?_, ?_, ?_, h.honest, h.justified⟩
    · have htotal := h.total
      simp only [map_cons, sum_cons, entered]
      omega
    · simp [h.idle]
    · -- the batch moves from the queue into the hands of the thread
      have htodo := h.todo
      simp only [map_cons, sum_cons, held, List.length_drop]
      rw [htodo]
      congr 1
      omega
    · have hbelow := h.below
      simp only [map_cons, sum_cons, held, List.length_drop]
      omega
    · exact forall_mem_cons.mpr ⟨⟨batch_pos q, batch_le_size q⟩, h.sized⟩
    · have hsplit : (q.queue : Multiset T) = (q.queue.drop q.batch : List T) + (q.queue.take q.batch : List T) := by
        rw [add_comm, coe_add, List.take_append_drop]
      rw [h.accounted, hsplit]
      simp only [map_cons, sum_cons, pending, add_assoc]
    simp [h.failed]

theorem run (h : Sound check 0 q (t ::ₘ others) added log) {e : CheckEvent T}
    (hrun : CheckSystem.runCheck check t = some (t', e)) : Sound check 0 q (t' ::ₘ others) added (e :: log) := by
  have htotal := h.total
  have hidle := h.idle
  have htodo := h.todo
  have hbelow := h.below
  have hsized := forall_mem_cons.mp h.sized
  have haccounted := h.accounted
  have hfailed := h.failed
  simp only [map_cons, sum_cons, mem_cons, exists_eq_or_imp] at htotal hidle htodo hbelow haccounted hfailed
  match t, hrun with
  | .working nNow (c :: left) fOk, hrun =>
    have ht : t' = .working nNow left (fOk && check c) := by cases fOk <;> cases hrun <;> rfl
    have he : e.check = c := by cases fOk <;> cases hrun <;> rfl
    subst ht
    refine ⟨h.running, by simpa using htotal, by simpa using hidle, by simpa using htodo, by simpa using hbelow,
      forall_mem_cons.mpr ⟨hsized.1, hsized.2⟩, ?_, ?_, ?_, ?_⟩
    · -- the check moves from the batch into the log
      rw [haccounted, map_cons, sum_cons, List.map_cons, he, pending, pending, ← cons_coe,
        ← cons_coe, cons_add, cons_add, add_cons,
        add_cons]
    · cases fOk with
      | true =>
        -- a failure of this check is known to this thread
        cases hrun
        simp only [mem_cons, exists_eq_or_imp, failed_working] at hfailed ⊢
        constructor
        · grind
        · grind
      | false =>
        cases hrun
        simp_all
    · cases fOk <;> cases hrun <;> grind [h.honest]
    · cases fOk with
      | true =>
        cases hrun
        exact h.justified
      | false =>
        cases hrun
        exact ⟨hfailed.mpr (.inr (.inl rfl)), h.justified⟩

theorem add (h : Sound check 0 q threads added log) : Sound check 0 (q.add vChecks) threads (added ++ vChecks) log := by
  refine ⟨h.running, h.total, h.idle, ?_, ?_, h.sized, ?_, h.failed, h.honest, h.justified⟩
  · show q.nTodo + .ofNat vChecks.length = .ofNat ((vChecks.reverse ++ q.queue).length + _)
    rw [h.todo, ← ofNat_add, List.length_append, List.length_reverse]
    congr 1
    omega
  · have hbelow := h.below
    show (vChecks.reverse ++ q.queue).length + _ ≤ (added ++ vChecks).length
    rw [List.length_append, List.length_append, List.length_reverse]
    omega
  · show ((added ++ vChecks : List T) : Multiset T) = _ + (((vChecks.reverse ++ q.queue : List T) : Multiset T) + _)
    rw [← coe_add, ← coe_add, h.accounted, coe_reverse, add_assoc, add_comm _ (vChecks : Multiset T), add_assoc]

/-- While no failure is in a log, every check of it was run and passed. -/
theorem passed_of_justified (hjust : Justified log) (hnone : ¬ ∃ c, CheckEvent.ran c false ∈ log) :
    ∀ e ∈ log, e = .ran e.check true := by
  induction log with
  | nil =>
    intro e he
    cases he
  | cons e log ih =>
    have hrest : ¬ ∃ c, .ran c false ∈ log := fun ⟨c, hc⟩ => hnone ⟨c, List.mem_cons_of_mem e hc⟩
    cases e with
    | skipped c => exact absurd hjust.1 hrest
    | ran c b =>
      have hb : b = true := by
        by_contra hne
        exact hnone ⟨c, by rw [Bool.not_eq_true] at hne; rw [hne]; exact List.mem_cons_self⟩
      intro e he
      rcases List.mem_cons.mp he with rfl | he
      · rw [hb]
        rfl
      · exact ih hjust hrest e he

end Sound

/-- **What `Wait` owes the master**: each check was run, or passed over after a failure, and the answer is that all
pass. -/
structure WaitRecord.Correct {T : Type} (check : T → Bool) (r : WaitRecord T) : Prop where
  settled : (r.log.map CheckEvent.check).Perm r.added
  honest : ∀ c b, CheckEvent.ran c b ∈ r.log → b = check c
  justified : Justified r.log
  answer : r.fRet = true ↔ ∀ c ∈ r.added, check c = true

namespace Sound

variable {check : T → Bool} {q q' : CCheckQueue T} {others threads : Multiset (LoopState T)} {fRet : Bool}

theorem idle_of_held_eq_zero (hsized : ∀ t ∈ threads, t.Sized nBatchSize)
    (hheld : (threads.map held).sum = 0) : (threads.map entered).sum = (threads.map LoopState.idle).sum ∧
      (threads.map pending).sum = 0 ∧ ¬ ∃ t ∈ threads, t.Failed := by
  induction threads using Multiset.induction_on with
  | empty => simp
  | cons t others ih =>
    rw [map_cons, sum_cons, Nat.add_eq_zero_iff] at hheld
    obtain ⟨hothers, hpending, hfailed⟩ := ih (fun t ht => hsized t (mem_cons_of_mem ht)) hheld.2
    have ht := hsized t (mem_cons_self t others)
    cases t with
    | outside | waiting => simpa using ⟨hothers, hpending, by simpa using hfailed⟩
    | working nNow left fOk =>
      -- a batch is not empty
      have hpos : 1 ≤ nNow := ht.1
      have hzero : nNow = 0 := hheld.1
      omega

theorem done (h : Sound check 1 q others added log) (hheld : (others.map held).sum < 2 ^ 32)
    (htake : q.takeOrWait true = (q', .done fRet)) :
    WaitRecord.Correct check ⟨added, log, fRet⟩ ∧ Sound check 0 q' (.outside ::ₘ others) [] [] := by
  unfold CCheckQueue.takeOrWait at htake
  by_cases hempty : q.queue.isEmpty
  swap
  · rw [if_neg hempty] at htake
    cases htake
  rw [if_pos hempty] at htake
  by_cases hzero : ((true || q.fQuit) && q.nTodo == 0) = true
  swap
  · rw [if_neg hzero] at htake
    cases htake
  rw [if_pos hzero] at htake
  cases htake
  have hqueue : q.queue = [] := List.isEmpty_iff.mp hempty
  -- `nTodo` has not come round: nothing is held
  have hnone : (others.map held).sum = 0 := by
    have htodo := h.todo
    rw [hqueue, List.length_nil, zero_add] at htodo
    have hz : q.nTodo = 0 := by simpa using hzero
    have hnat : (ofNat (others.map held).sum).toNat = 0 := by
      rw [← htodo, hz]
      rfl
    rwa [toNat_ofNat', mod_eq_of_lt hheld] at hnat
  obtain ⟨hidle, hpending, hfailed⟩ := idle_of_held_eq_zero h.sized hnone
  have hlog : (log.map CheckEvent.check).Perm added := by
    grind [h.accounted, coe_nil, coe_eq_coe]
  refine ⟨⟨hlog, h.honest, h.justified, ?_⟩, ?_⟩
  · show q.fAllOk = true ↔ ∀ c ∈ added, check c = true
    constructor
    · grind [h.failed, passed_of_justified, h.justified, h.honest]
    intro hall
    by_contra hne
    obtain ⟨c, hc⟩ := h.failed.mpr (.inl (by simpa using hne))
    have hmem : c ∈ added := hlog.mem_iff.mp (List.mem_map.mpr ⟨_, hc, rfl⟩)
    have hcheck := h.honest c false hc
    rw [hall c hmem] at hcheck
    cases hcheck
  · refine ⟨h.running, ?_, ?_, ?_, ?_, ?_, ?_, ?_, ?_, trivial⟩
    · have htotal := h.total
      simp only [map_cons, sum_cons, entered]
      omega
    · simpa using h.idle
    · simpa using h.todo
    · simp [hqueue, hnone]
    · exact forall_mem_cons.mpr ⟨trivial, h.sized⟩
    · simp [hqueue, hpending]
    · simpa using hfailed
    · intro c b hmem
      cases hmem

theorem isIdle (h : Sound check 0 q threads [] log) : q.isIdle = true := by
  have hbelow := h.below
  rw [List.length_nil] at hbelow
  have hnone : (threads.map held).sum = 0 := by omega
  obtain ⟨hidle, hpending, hfailed⟩ := idle_of_held_eq_zero h.sized hnone
  have hlog : log = [] := by
    have haccounted := congrArg card h.accounted
    simp only [coe_nil, card_zero, card_add, coe_card, List.length_map] at haccounted
    exact List.length_eq_zero_iff.mp (by omega)
  have hok : q.fAllOk = true := by grind [h.failed]
  have htodo : q.nTodo = 0 := by
    rw [h.todo, show q.queue.length + (threads.map held).sum = 0 by omega]
    rfl
  have htotal : q.nTotal = q.nIdle := by
    rw [h.total, h.idle, hidle, add_zero]
  unfold CCheckQueue.isIdle
  rw [hok, htodo, htotal]
  simp

end Sound

/-! ## §5. Steps and runs. -/

namespace CheckSystem

variable {check : T → Bool} {nWorkers : Nat} {s s' : CheckSystem T}

/-- The state is sound, no worker has joined, and every `Wait` so far was correct. -/
structure Good (check : T → Bool) (nBatchSize : UInt32) (nWorkers : Nat) (s : CheckSystem T) : Prop where
  sound : Sound check 0 s.q (s.master ::ₘ s.workers) s.added s.log
  size : s.q.nBatchSize = nBatchSize
  workers : s.workers.card ≤ nWorkers
  returns : ∀ r ∈ s.returns, r.Correct check

/-- The workers hold no more than their number times the size of a batch. -/
theorem held_le {workers : Multiset (LoopState T)} (hsized : ∀ t ∈ workers, t.Sized nBatchSize) :
    (workers.map held).sum ≤ workers.card * max 1 nBatchSize.toNat := by
  have hle := sum_le_card_nsmul (workers.map held) (max 1 nBatchSize.toNat) (by
    intro n hn
    obtain ⟨t, ht, rfl⟩ := mem_map.mp hn
    have hs := hsized t ht
    cases t with
    | outside | waiting => exact zero_le _
    | working nNow left fOk => exact hs.2)
  rwa [card_map, nsmul_eq_mul] at hle

theorem resume_nBatchSize {q q₁ : CCheckQueue T} (hresume : q.resume t = some q₁) : q₁.nBatchSize = q.nBatchSize := by
  match t, hresume with
  | .outside, hresume | .waiting, hresume | .working _ [] _, hresume =>
    cases hresume
    rfl

theorem takeOrWait_nBatchSize (q : CCheckQueue T) (fMaster : Bool) :
    (q.takeOrWait fMaster).1.nBatchSize = q.nBatchSize := by
  unfold CCheckQueue.takeOrWait
  split_ifs <;> rfl

theorem section_nBatchSize {q q₁ q' : CCheckQueue T} {o : Outcome T}
    (hresume : q.resume t = some q₁) (htake : q₁.takeOrWait fMaster = (q', o)) : q'.nBatchSize = q.nBatchSize := by
  have hsame := takeOrWait_nBatchSize q₁ fMaster
  rw [htake] at hsame
  rw [← resume_nBatchSize hresume]
  exact hsame

/-- **One step.** -/
theorem Good.step (hsmall : nWorkers * max 1 nBatchSize.toNat < 2 ^ 32) (h : Good check nBatchSize nWorkers s)
    (hstep : Step check s s') : Good check nBatchSize nWorkers s' := by
  cases hstep with
  | add vChecks hmaster => exact ⟨h.sound.add, h.size, h.workers, h.returns⟩
  | masterRuns hrun => exact ⟨h.sound.run hrun, h.size, h.workers, h.returns⟩
  | masterGoesOn hresume htake =>
    exact ⟨(h.sound.resume hresume).goOn htake, (section_nBatchSize hresume htake).trans h.size, h.workers, h.returns⟩
  | @masterReturns q₁ q' fRet hresume htake =>
    have hinside := h.sound.resume hresume
    have hheld : (s.workers.map held).sum < 2 ^ 32 := by
      have hle := held_le hinside.sized
      rw [resume_nBatchSize hresume, h.size] at hle
      exact lt_of_le_of_lt (le_trans hle (mul_le_mul_right _ h.workers)) hsmall
    obtain ⟨hcorrect, hsound⟩ := hinside.done hheld htake
    refine ⟨hsound, (section_nBatchSize hresume htake).trans h.size, h.workers, ?_⟩
    exact List.forall_mem_cons.mpr ⟨hcorrect, h.returns⟩
  | @workerRuns t t' others e hworkers hrun =>
    have hsound := h.sound
    rw [hworkers, cons_swap] at hsound
    refine ⟨?_, h.size, ?_, h.returns⟩
    · have hrun' := hsound.run hrun
      rwa [cons_swap] at hrun'
    · grind [h.workers, card_cons]
  | @workerGoesOn q₁ q' t t' others hworkers hresume htake =>
    have hsound := h.sound
    rw [hworkers, cons_swap] at hsound
    refine ⟨?_, (section_nBatchSize hresume htake).trans h.size, ?_, h.returns⟩
    · have hnext := (hsound.resume hresume).goOn htake
      rwa [cons_swap] at hnext
    · grind [h.workers, card_cons]
  | @workerReturns q₁ q' t others fRet hworkers hresume htake =>
    -- nothing sets `fQuit`
    have hsound := h.sound
    rw [hworkers, cons_swap] at hsound
    have hrunning := (hsound.resume hresume).running
    unfold CCheckQueue.takeOrWait at htake
    rw [hrunning] at htake
    simp only [Bool.or_self, Bool.false_and, Bool.false_eq_true, if_false] at htake
    split_ifs at htake <;> cases htake

theorem Good.start (check : T → Bool) (nBatchSize : UInt32) (nWorkers : Nat) :
    Good check nBatchSize nWorkers (start nBatchSize nWorkers) := by
  have hin : ∀ t ∈ .outside ::ₘ .replicate nWorkers (.outside : LoopState T), t = .outside := by
    grind [eq_of_mem_replicate]
  refine ⟨⟨rfl, ?_, ?_, ?_, ?_, ?_, ?_, ?_, ?_, trivial⟩, rfl, ?_, ?_⟩
  · simp [CheckSystem.start]
  · simp [CheckSystem.start]
  · simp [CheckSystem.start]
  · simp [CheckSystem.start]
  · intro t ht
    rw [hin t ht]
    trivial
  · simp [CheckSystem.start]
  · constructor
    · rintro ⟨c, hc⟩
      cases hc
    · rintro (hfalse | ⟨t, ht, hfailed⟩)
      · cases hfalse
      · rw [hin t ht] at hfailed
        exact hfailed.elim
  · intro c b hmem
    cases hmem
  · exact le_of_eq (card_replicate _ _)
  · intro r hr
    cases hr

theorem Good.of_reachable (hsmall : nWorkers * max 1 nBatchSize.toNat < 2 ^ 32)
    (hreach : Reachable check nBatchSize nWorkers s) : Good check nBatchSize nWorkers s := by
  induction hreach with
  | refl => exact .start check nBatchSize nWorkers
  | tail _ hstep ih => exact ih.step hsmall hstep

end CheckSystem

open CheckSystem

/-- **`Wait`.** While the workers together cannot hold 2^32 checks: in every state that any calls of the master and
any schedule lead to, every call of `Wait` so far was correct, and from its return to the next `Add` the queue is
idle, so that the assertion of `CCheckQueueControl` holds. -/
theorem wait_settles_checks {T : Type} (check : T → Bool) (nBatchSize : UInt32) (nWorkers : Nat)
    (hsmall : nWorkers * max 1 nBatchSize.toNat < 2 ^ 32) (s : CheckSystem T)
    (hreach : Reachable check nBatchSize nWorkers s) :
    (∀ r ∈ s.returns, r.Correct check) ∧ (s.master = .outside → s.added = [] → s.q.isIdle = true) := by
  have hgood := Good.of_reachable hsmall hreach
  refine ⟨hgood.returns, ?_⟩
  intro _ hadded
  have hsound := hgood.sound
  rw [hadded] at hsound
  exact hsound.isIdle

/-- The queue of the program, batches of 128 and 15 workers (`MAX_SCRIPTCHECK_THREADS` with the master), after two
checks were added; one worker has come in or is about to. -/
def twoChecks (queue : List Bool) (nIdle nTotal : Int) (nTodo : UInt32) (master worker : LoopState Bool)
    (log : List (CheckEvent Bool)) : CheckSystem Bool where
  q := { queue := queue, nIdle := nIdle, nTotal := nTotal, nTodo := nTodo, nBatchSize := 128 }
  master := master
  workers := worker ::ₘ replicate 14 .outside
  added := [false, true]
  log := log

/-- A worker and the master take one check each, the worker waits, and `Wait` returns. -/
theorem wait_settles_scripts : ∃ s : CheckSystem Bool, Reachable id 128 15 s ∧
    (∃ r ∈ s.returns, r.added = [false, true] ∧ r.fRet = false ∧ r.Correct id) ∧ s.q.isIdle = true := by
  have hadd : Reachable id 128 15 (twoChecks [true, false] 0 0 2 .outside .outside []) :=
    .single (.add _ [false, true] rfl)
  have htake : Reachable id 128 15 (twoChecks [false] 0 1 2 .outside (.working 1 [true] true) []) :=
    hadd.tail (.workerGoesOn _ rfl rfl rfl)
  have hwait : Reachable id 128 15 (twoChecks [] 0 2 2 (.working 1 [false] true) (.working 1 [true] true) []) :=
    htake.tail (.masterGoesOn _ rfl rfl)
  have hpass : Reachable id 128 15
      (twoChecks [] 0 2 2 (.working 1 [false] true) (.working 1 [] true) [.ran true true]) :=
    hwait.tail (.workerRuns _ rfl rfl)
  have hidle : Reachable id 128 15 (twoChecks [] 1 2 1 (.working 1 [false] true) .waiting [.ran true true]) :=
    hpass.tail (.workerGoesOn _ rfl rfl rfl)
  have hfail : Reachable id 128 15
      (twoChecks [] 1 2 1 (.working 1 [] false) .waiting [.ran false false, .ran true true]) :=
    hidle.tail (.masterRuns _ rfl)
  have hreturn := hfail.tail (.masterReturns _ rfl rfl)
  have hsettled := wait_settles_checks id 128 15 (by decide) _ hreturn
  exact ⟨_, hreturn, ⟨_, List.mem_cons_self, rfl, rfl, hsettled.1 _ List.mem_cons_self⟩, hsettled.2 rfl rfl⟩

/-! ## §6. 2^32 checks in the hands of the workers. -/

section NTodoComesRound

/-- A worker with a batch of failing checks that it has not begun. -/
def holding (n : Nat) : LoopState Bool := .working n (List.replicate n false) true

def busy (queue : List Bool) (nTotal nTodo : Nat) (workers : Multiset (LoopState Bool)) (added : List Bool) :
    CheckSystem Bool where
  q := { queue := queue, nTotal := nTotal, nTodo := ofNat nTodo, nBatchSize := 128 }
  workers := workers
  added := added

theorem busy_add {queue queue' vChecks : List Bool} {nTodo nTodo' : Nat} (nTotal : Nat)
    (workers : Multiset (LoopState Bool))
    (added : List Bool) (hqueue : vChecks.reverse ++ queue = queue') (htodo : nTodo + vChecks.length = nTodo') :
    Step id (busy queue nTotal nTodo workers added) (busy queue' nTotal nTodo' workers (added ++ vChecks)) := by
  have hstep : Step id (busy queue nTotal nTodo workers added) _ :=
    .add (busy queue nTotal nTodo workers added) vChecks rfl
  unfold busy CCheckQueue.add at hstep
  rw [← ofNat_add, hqueue, htodo] at hstep
  exact hstep

/-- A worker comes in and takes the failing checks on top of the queue. -/
theorem busy_take {n : Nat} (rest : List Bool) (nTotal nTodo : Nat) (others : Multiset (LoopState Bool))
    (added : List Bool)
    (hpos : 0 < n) (hle : n ≤ 128) (hsmall : n + rest.length < 2 ^ 32) (hshare : n + rest.length = n * (nTotal + 2)) :
    Step id (busy (List.replicate n false ++ rest) nTotal nTodo (.outside ::ₘ others) added)
      (busy rest (nTotal + 1) nTodo (holding n ::ₘ others) added) := by
  have hlen : (.replicate n false ++ rest).length = n * (nTotal + 2) := by simp_all
  have hbatch : CCheckQueue.batch { (busy (.replicate n false ++ rest) nTotal nTodo others added).q with
      nTotal := (nTotal : Int) + 1 } = n := by
    show max 1 (min 128 ((ofNat (.replicate n false ++ rest).length).toNat / ((nTotal : Int) + 1 + 0 + 1).toNat)) = n
    rw [hlen, toNat_ofNat', mod_eq_of_lt (by omega), show ((nTotal : Int) + 1 + 0 + 1).toNat = nTotal + 2 by omega,
      Nat.mul_div_cancel _ (by omega)]
    omega
  have hne : (.replicate n false ++ rest).isEmpty = false := by grind
  refine .workerGoesOn _ rfl rfl ?_
  unfold busy at hbatch ⊢
  unfold CCheckQueue.takeOrWait
  rw [hne, hbatch, List.drop_left' List.length_replicate, List.take_left' List.length_replicate]
  rfl

/-- What the master adds for the next worker: failing checks over passing ones. -/
def share : List Bool := List.replicate 64 true ++ List.replicate 64 false

/-- 64 failing checks for the next worker, on as many for each that came and one more. -/
def stack (i : Nat) : List Bool := List.replicate 64 false ++ List.replicate (64 * (i + 1)) true

theorem fill_steps (i free k nTodo : Nat) (H : Multiset (LoopState Bool)) (added : List Bool)
    (hsmall : 64 * (i + k + 1) < 2 ^ 32) : ∃ added', (∀ b ∈ added, b ∈ added') ∧ Relation.ReflTransGen (Step id)
      (busy (stack i) i nTodo (replicate (free + k) .outside + H) added) (busy (stack (i + k)) (i + k) (nTodo + 128 * k)
        (replicate free .outside + (replicate k (holding 64) + H)) added') := by
  induction k generalizing free with
  | zero =>
    refine ⟨added, fun b hb => hb, ?_⟩
    rw [replicate_zero, zero_add]
    exact .refl
  | succ k ih =>
    obtain ⟨added', hmem, hrun⟩ := ih (free + 1) (by omega)
    rw [show free + 1 + k = free + (k + 1) by omega, replicate_succ, cons_add] at hrun
    have htake := busy_take (.replicate (64 * (i + k + 1)) true) (i + k) (nTodo + 128 * k)
      (.replicate free .outside + (.replicate k (holding 64) + H)) added' (n := 64) (by decide) (by decide)
      (by rw [List.length_replicate]; omega) (by rw [List.length_replicate]; omega)
    have hqueue : share.reverse ++ .replicate (64 * (i + k + 1)) true = stack (i + (k + 1)) := by
      unfold share stack
      rw [List.reverse_append, List.reverse_replicate, List.reverse_replicate, List.append_assoc,
        List.replicate_append_replicate, show 64 + 64 * (i + k + 1) = 64 * (i + (k + 1) + 1) by omega]
    have hworkers : holding 64 ::ₘ (.replicate free .outside + (.replicate k (holding 64) + H))
        = .replicate free .outside + (.replicate (k + 1) (holding 64) + H) := by simp_all
    rw [hworkers] at htake
    have htodo : nTodo + 128 * k + share.length = nTodo + 128 * (k + 1) := by
      rw [show share.length = 128 from rfl]
      omega
    exact ⟨added' ++ share, fun b hb => List.mem_append_left _ (hmem b hb),
      (hrun.tail htake).tail (busy_add _ _ _ hqueue htodo)⟩

theorem run_batch (s : CheckSystem Bool) (nNow n : Nat) (others : Multiset (LoopState Bool))
    (hworkers : s.workers = .working nNow (List.replicate n true) true ::ₘ others) :
    ∃ log', Relation.ReflTransGen (Step id) s { s with workers := .working nNow [] true ::ₘ others, log := log' } := by
  induction n generalizing s with
  | zero =>
    refine ⟨s.log, ?_⟩
    have heq : { s with workers := .working nNow [] true ::ₘ others, log := s.log } = s := by
      rw [← show s.workers = .working nNow [] true ::ₘ others from hworkers]
    rw [heq]
  | succ n ih =>
    have hstep : Step id s _ := .workerRuns s hworkers rfl
    obtain ⟨log', hrun⟩ := ih
      { s with workers := .working nNow (.replicate n true) true ::ₘ others, log := .ran true true :: s.log } rfl
    exact ⟨log', hrun.head hstep⟩

/-- One worker empties a queue of passing checks and then waits. -/
theorem drain_steps (m : Nat) (s : CheckSystem Bool) (t : LoopState Bool) (others : Multiset (LoopState Bool))
    (q₁ : CCheckQueue Bool) (hworkers : s.workers = t ::ₘ others) (hresume : s.q.resume t = some q₁)
    (hqueue : q₁.queue = List.replicate m true) (hok : q₁.fAllOk = true) (hquit : q₁.fQuit = false) :
    ∃ log', Relation.ReflTransGen (Step id) s { s with
        q := { q₁ with queue := [], nIdle := q₁.nIdle + 1, nTodo := q₁.nTodo - .ofNat m }
        workers := .waiting ::ₘ others, log := log' } := by
  induction m using Nat.strong_induction_on generalizing s t q₁ with
  | _ m ih =>
    rcases Nat.eq_zero_or_pos m with rfl | hpos
    · refine ⟨s.log, .single (.workerGoesOn s hworkers hresume ?_)⟩
      unfold CCheckQueue.takeOrWait
      rw [hqueue, hquit]
      simp
    -- a batch is taken and run; then less is left
    have hne : q₁.queue ≠ [] := by
      rw [hqueue]
      simp
      omega
    have hle : q₁.batch ≤ m := by
      have hlen := Sound.batch_le_length q₁ hne
      rwa [hqueue, List.length_replicate] at hlen
    have hbatch := Sound.batch_pos q₁
    have htake : q₁.takeOrWait false
        = ({ q₁ with queue := .replicate (m - q₁.batch) true },
            .goOn (.working q₁.batch (.replicate q₁.batch true) true)) := by
      simp_all [CCheckQueue.takeOrWait]
    have hstep : Step id s _ := .workerGoesOn s hworkers hresume htake
    obtain ⟨log1, hrun⟩ := run_batch
      { s with
        q := { q₁ with queue := .replicate (m - q₁.batch) true }
        workers := .working q₁.batch (.replicate q₁.batch true) true ::ₘ others } q₁.batch q₁.batch others rfl
    obtain ⟨log2, hrest⟩ := ih (m - q₁.batch) (by omega)
      { s with
        q := { q₁ with queue := .replicate (m - q₁.batch) true }
        workers := .working q₁.batch [] true ::ₘ others, log := log1 } (.working q₁.batch [] true)
      { q₁ with
        queue := .replicate (m - q₁.batch) true, fAllOk := q₁.fAllOk && true
        nTodo := q₁.nTodo - .ofNat q₁.batch } rfl rfl rfl (by rw [hok]; rfl) hquit
    refine ⟨log2, (Relation.ReflTransGen.head hstep hrun).trans ?_⟩
    have htodo : q₁.nTodo - .ofNat q₁.batch - .ofNat (m - q₁.batch) = q₁.nTodo - .ofNat m := by
      have hm : ofNat m = .ofNat q₁.batch + .ofNat (m - q₁.batch) := by
        rw [← ofNat_add, add_sub_of_le hle]
      rw [hm]
      grind
    rw [htodo, Bool.and_true] at hrest
    exact hrest

def firstShare : List Bool := List.replicate 128 true ++ List.replicate 128 false

def secondShare : List Bool := List.replicate 64 true ++ List.replicate 192 false

theorem prepare_steps (n : Nat) : Relation.ReflTransGen (Step id) (start 128 (n + 2))
    (busy (stack 2) 2 512 (replicate n .outside + (holding 128 ::ₘ {holding 128})) (firstShare ++ secondShare)) := by
  have hqueue1 : firstShare.reverse ++ [] = List.replicate 128 false ++ .replicate 128 true := by decide +kernel
  have hqueue2 : secondShare.reverse ++ .replicate 128 true = .replicate 128 false ++ stack 2 := by decide +kernel
  have hadd1 : Step id (busy [] 0 0 (.replicate (n + 2) .outside) []) _ :=
    busy_add 0 (.replicate (n + 2) .outside) [] hqueue1 (by decide +kernel : _ = 256)
  have htake1 := busy_take (n := 128) (.replicate 128 true) 0 256 (.replicate (n + 1) .outside) firstShare
    (by decide) (by decide) (by decide +kernel) (by decide +kernel)
  have hadd2 := busy_add 1 (holding 128 ::ₘ .replicate (n + 1) .outside) firstShare hqueue2
    (by decide +kernel : 256 + _ = 512)
  have htake2 := busy_take (n := 128) (stack 2) 1 512 (holding 128 ::ₘ .replicate n .outside)
    (firstShare ++ secondShare) (by decide) (by decide)
    (by decide +kernel) (by decide +kernel)
  have hworkers2 : holding 128 ::ₘ .replicate (n + 1) .outside
      = .outside ::ₘ (holding 128 ::ₘ .replicate n .outside) := by
    rw [replicate_succ, cons_swap]
  have hworkers3 : holding 128 ::ₘ (holding 128 ::ₘ .replicate n .outside)
      = .replicate n .outside + (holding 128 ::ₘ {holding 128}) := by
    rw [add_cons, ← cons_zero, add_cons, add_zero]
  rw [← hworkers2, hworkers3] at htake2
  exact .head hadd1 (.head htake1 (.head hadd2 (.single htake2)))

/-- The queue is emptied while 2^32 checks are held, and the master calls `Wait`. -/
theorem busy_returns (m nTotal : Nat) (others : Multiset (LoopState Bool)) (added : List Bool) :
    ∃ s, Relation.ReflTransGen (Step id) (busy (List.replicate m true) nTotal (2 ^ 32 + m)
      (.outside ::ₘ others) added) s ∧
      (∃ r ∈ s.returns, r.fRet = true ∧ r.added = added) ∧ s.q.nTotal = nTotal + 1 ∧ s.q.nIdle = 1 := by
  obtain ⟨log, hdrain⟩ := drain_steps m
    (busy (.replicate m true) nTotal (2 ^ 32 + m) (.outside ::ₘ others) added) .outside others
    { (busy (.replicate m true) nTotal (2 ^ 32 + m) (.outside ::ₘ others) added).q with nTotal := (nTotal : Int) + 1 }
    rfl rfl rfl rfl rfl
  have hzero : ofNat (2 ^ 32 + m) - .ofNat m = 0 := by
    rw [Sound.uint32_ofNat_add_sub]
    rfl
  unfold busy at hdrain
  rw [hzero] at hdrain
  refine ⟨_, hdrain.tail (.masterReturns _ rfl rfl), ⟨_, List.mem_cons_self, rfl, rfl⟩, ?_, rfl⟩
  show (nTotal : Int) + 1 + 1 - 1 = nTotal + 1
  omega

/-- **The counter comes round.**  When the workers hold 2^32 checks and the queue is empty, `Wait` returns. -/
theorem nTodo_comes_round (k : Nat) (hk : 64 * k + 320 = 2 ^ 32) : ∃ s : CheckSystem Bool, Reachable id 128 (k + 4) s ∧
      (∃ r ∈ s.returns, r.fRet = true ∧ false ∈ r.added) ∧ s.q.isIdle = false := by
  have hprepare := prepare_steps (k + 2)
  obtain ⟨added, hmem, hfill⟩ := fill_steps 2 2 k 512 (holding 128 ::ₘ {holding 128})
    (firstShare ++ secondShare) (by omega)
  rw [add_comm 2 k] at hfill
  have hfalse : false ∈ added := by
    grind [firstShare]
  generalize .replicate k (holding 64) + (holding 128 ::ₘ {holding 128}) = H at hfill
  -- one more worker takes 64 checks, and the last one what is left
  have htake := busy_take (n := 64) (.replicate (64 * (k + 3)) true) (k + 2) (512 + 128 * k) (.outside ::ₘ H) added
    (by decide) (by decide) (by rw [List.length_replicate]; omega) (by rw [List.length_replicate]; omega)
  have hworkers : .replicate 2 .outside + H = .outside ::ₘ (.outside ::ₘ H) := by simp_all
  rw [← hworkers, cons_swap, show 512 + 128 * k = 2 ^ 32 + 64 * (k + 3) by omega] at htake
  rw [show 512 + 128 * k = 2 ^ 32 + 64 * (k + 3) by omega] at hfill
  obtain ⟨s, hrun, ⟨r, hr, hret, hadded⟩, htotal, hidle⟩ :=
    busy_returns (64 * (k + 3)) (k + 2 + 1) (holding 64 ::ₘ H) added
  refine ⟨s, ((hprepare.trans hfill).tail htake).trans hrun, ⟨r, hr, hret, by rw [hadded]; exact hfalse⟩, ?_⟩
  have hne : s.q.nTotal ≠ s.q.nIdle := by
    omega
  unfold CCheckQueue.isIdle
  rw [decide_eq_false hne]
  rfl

/-- 67108863 workers with batches of up to 128: `Wait` returns `true` while 2^32 failing checks are in their hands,
and the queue is not idle. -/
theorem wait_returns_too_early : ∃ s : CheckSystem Bool, Reachable id 128 67108863 s ∧
      (∃ r ∈ s.returns, r.fRet = true ∧ false ∈ r.added) ∧ s.q.isIdle = false :=
  nTodo_comes_round 67108859 (by decide)

end NTodoComesRound

end PwrbCore
