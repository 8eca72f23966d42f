import CentrifugoNode.Metrics

/-!
# Shutdown

`Shutdown` takes the write lock of `n.mu`, returns nil if the flag `shutdown` is already set,
and otherwise sets it, closes `shutdownCh`, releases the lock and calls `hub.Shutdown`. The
loops `Run` starts read their interval under the read lock and then select on `shutdownCh`;
the bodies of two of them take the read lock again: `pubNode` holds it while it takes and
releases the read lock of `metricsMu`, and `cleanNodeInfo` while it reads its delay. The body
of the third, `updateMetricsOnce`, takes the write lock of `metricsMu` only. An `SState` is the
flag, the channel and the lock with every `Shutdown` call and every loop and where each is;
each statement that takes or releases a lock is a step of its own. Ghost fields record the call
that set the flag (`flipper`), the calls that applied `close` and those that called
`hub.Shutdown`.

* `shutdown_idempotent`: in every reachable state `close` has been applied at most once, and
  `hub.Shutdown` called at most once, both by the call that set the flag; every other call that
  has returned returned nil; once all of N ≥ 1 calls have returned, the channel was closed and
  the hub shut down exactly once; and the flag, once set, stays set.

The invariant `Inv` ties each call's phase to the ghost fields (`CallOk`); the write lock is
what excludes a second call reading the flag `false` before the first sets it.
-/

namespace CentrifugoNode

/-- Where one `Shutdown` call is. -/
inductive CallPhase
  /-- About to take the write lock of `n.mu`. -/
  | start
  /-- Holds the lock, about to read the flag. -/
  | locked
  /-- Holds the lock and read the flag `false`. -/
  | sawFalse
  /-- Holds the lock and set the flag. -/
  | flipped
  /-- Holds the lock and closed `shutdownCh`. -/
  | closed
  /-- Released the lock, about to call `hub.Shutdown`. -/
  | unlocked
  /-- Read the flag `true`, released the lock and returned nil. -/
  | returnedNil
  /-- Returned what `hub.Shutdown` returned. -/
  | returnedHub
  deriving DecidableEq, Repr

/-- The call holds the write lock. -/
def CallPhase.holdsLock : CallPhase → Bool
  | .locked | .sawFalse | .flipped | .closed => true
  | _ => false

/-- The call has returned. -/
def CallPhase.returned : CallPhase → Bool
  | .returnedNil | .returnedHub => true
  | _ => false

/-- The loops `Run` starts, in its order. -/
inductive Loop
  /-- `sendNodePingMsg`, whose body is `pubNode`. -/
  | sendNodePingMsg
  /-- `cleanNodeInfo`, whose body reads `NodeInfoMaxDelay` under the read lock and cleans the
  registry. -/
  | cleanNodeInfo
  /-- `updateMetrics`, whose body is `updateMetricsOnce`. -/
  | updateMetrics
  deriving DecidableEq, Repr

/-- Where one loop is. -/
inductive LoopPhase
  /-- At the top of the loop, about to take the read lock of `n.mu`. -/
  | top
  /-- Holds the read lock and reads its interval. -/
  | reading
  /-- In the select on `shutdownCh` and the timer. -/
  | selecting
  /-- The timer fired: at the start of the body. -/
  | working
  /-- `pubNode` holds the read lock of `n.mu` and builds the record. -/
  | pubLocked
  /-- `pubNode` holds the read locks of `n.mu` and of `metricsMu`: in `metricsOnce.Do`, with its
  calls of the hub. -/
  | pubMetrics
  /-- `pubNode` has released `metricsMu` and still holds the read lock of `n.mu`. -/
  | pubBuilt
  /-- `cleanNodeInfo` holds the read lock of `n.mu` and reads `NodeInfoMaxDelay`. -/
  | cleanLocked
  /-- `updateMetricsOnce` holds the write lock of `metricsMu`. -/
  | metricsLocked
  /-- Past the body's last lock: `pubNode` publishing, `cleanNodeInfo` cleaning the registry,
  `updateMetricsOnce` returning. -/
  | bodyDone
  /-- Saw `shutdownCh` closed and returned. -/
  | exited
  deriving DecidableEq, Repr

/-- The loop holds the read lock of `n.mu`. -/
def LoopPhase.holdsRead : LoopPhase → Bool
  | .reading | .pubLocked | .pubMetrics | .pubBuilt | .cleanLocked => true
  | _ => false

/-- One loop: which, and where it is. -/
structure LoopState where
  loop : Loop
  phase : LoopPhase
  deriving DecidableEq, Repr

/-- The flag, the channel, the holder of the write lock, and every call and loop by number. -/
structure SState where
  shutdown : Bool
  chClosed : Bool
  writer : Option Nat
  calls : List CallPhase
  loops : List LoopState
  flipper : Option Nat
  closers : List Nat
  hubShutdowns : List Nat

/-- One statement of a loop. -/
inductive LoopAct
  /-- Takes the read lock of `n.mu` at the top of the loop. -/
  | rlock
  /-- Releases it, having read the interval, and enters the select. -/
  | runlock
  /-- The timer fires. -/
  | fire
  /-- Receives from the closed `shutdownCh` and returns. -/
  | exit
  /-- `pubNode` takes the read lock of `n.mu`. -/
  | pubRlock
  /-- `pubNode` takes the read lock of `metricsMu`. -/
  | metricsRlock
  /-- `pubNode` releases the read lock of `metricsMu`. -/
  | metricsRunlock
  /-- `pubNode` releases the read lock of `n.mu`. -/
  | pubRunlock
  /-- `cleanNodeInfo` takes the read lock of `n.mu`. -/
  | cleanRlock
  /-- `cleanNodeInfo` releases it. -/
  | cleanRunlock
  /-- `updateMetricsOnce` takes the write lock of `metricsMu`. -/
  | metricsLock
  /-- `updateMetricsOnce` releases it. -/
  | metricsUnlock
  /-- The rest of the body runs and the loop goes back to its top. -/
  | again

/-- One step of one goroutine. -/
inductive SAct
  /-- A new call of `Shutdown`. -/
  | call
  /-- Call `k` takes the write lock. -/
  | lock (k : Nat)
  /-- Call `k` reads the flag; if it is set, it unlocks and returns nil. -/
  | read (k : Nat)
  /-- Call `k` sets the flag. -/
  | set (k : Nat)
  /-- Call `k` closes `shutdownCh`. -/
  | close (k : Nat)
  /-- Call `k` releases the write lock. -/
  | unlock (k : Nat)
  /-- Call `k` calls `hub.Shutdown` and returns. -/
  | hubShutdown (k : Nat)
  /-- Loop `l` runs its next statement. -/
  | loop (l : Nat) (a : LoopAct)

namespace SState

/-- The node after `New` and `Run`: the three loops at their top, no call yet. -/
def init : SState :=
  ⟨false, false, none, [],
    [⟨.sendNodePingMsg, .top⟩, ⟨.cleanNodeInfo, .top⟩, ⟨.updateMetrics, .top⟩], none, [], []⟩

/-- Call `k` moves from `p` to `q`, with the other effects `f` of the statement. -/
def callStep (s : SState) (k : Nat) (p q : CallPhase) (f : SState → SState) : Option SState :=
  if s.calls[k]? = some p then some { f s with calls := s.calls.set k q } else none

/-- Loop `l` moves from `p` to `q` when `guard` holds of it. -/
def loopStep (s : SState) (l : Nat) (p q : LoopPhase) (guard : Loop → Bool) : Option SState :=
  match s.loops[l]? with
  | some ⟨k, p'⟩ =>
    if p' = p ∧ guard k then some { s with loops := s.loops.set l ⟨k, q⟩ } else none
  | none => none

/-- Loop `l`'s next statement. A read lock waits for the lock's writer, a write lock for its
writer and every reader: the read lock of `n.mu` for a `Shutdown` call holding it, the read lock
of `metricsMu` for `updateMetricsOnce` holding it, and its write lock for that and for `pubNode`
in `metricsOnce.Do`. -/
def loopMove (s : SState) (l : Nat) : LoopAct → Option SState
  | .rlock => s.loopStep l .top .reading fun _ => s.writer = none
  | .runlock => s.loopStep l .reading .selecting fun _ => true
  | .fire => s.loopStep l .selecting .working fun _ => true
  | .exit => s.loopStep l .selecting .exited fun _ => s.chClosed
  | .pubRlock =>
    s.loopStep l .working .pubLocked fun k => k = .sendNodePingMsg ∧ s.writer = none
  | .metricsRlock =>
    s.loopStep l .pubLocked .pubMetrics fun _ => ∀ x ∈ s.loops, x.phase ≠ .metricsLocked
  | .metricsRunlock => s.loopStep l .pubMetrics .pubBuilt fun _ => true
  | .pubRunlock => s.loopStep l .pubBuilt .bodyDone fun _ => true
  | .cleanRlock =>
    s.loopStep l .working .cleanLocked fun k => k = .cleanNodeInfo ∧ s.writer = none
  | .cleanRunlock => s.loopStep l .cleanLocked .bodyDone fun _ => true
  | .metricsLock =>
    s.loopStep l .working .metricsLocked fun k =>
      k = .updateMetrics ∧ ∀ x ∈ s.loops, x.phase ≠ .pubMetrics ∧ x.phase ≠ .metricsLocked
  | .metricsUnlock => s.loopStep l .metricsLocked .bodyDone fun _ => true
  | .again => s.loopStep l .bodyDone .top fun _ => true

/-- One step; `none` when it is not enabled. The write lock of `n.mu` waits for the writer and
for every reader. -/
def step (s : SState) : SAct → Option SState
  | .call => some { s with calls := s.calls ++ [.start] }
  | .lock k =>
    if s.writer = none ∧ ∀ x ∈ s.loops, x.phase.holdsRead = false then
      s.callStep k .start .locked fun s => { s with writer := some k }
    else none
  | .read k =>
    if s.shutdown then s.callStep k .locked .returnedNil fun s => { s with writer := none }
    else s.callStep k .locked .sawFalse id
  | .set k => s.callStep k .sawFalse .flipped fun s => { s with shutdown := true, flipper := some k }
  | .close k =>
    s.callStep k .flipped .closed fun s => { s with chClosed := true, closers := s.closers ++ [k] }
  | .unlock k => s.callStep k .closed .unlocked fun s => { s with writer := none }
  | .hubShutdown k =>
    s.callStep k .unlocked .returnedHub fun s => { s with hubShutdowns := s.hubShutdowns ++ [k] }
  | .loop l a => s.loopMove l a

/-- The steps of a schedule, one after the other. -/
def run (s : SState) : List SAct → Option SState
  | [] => some s
  | a :: as => (s.step a).bind (run · as)

/-- The states a run from `init` reaches. -/
inductive Reachable : SState → Prop
  | init : Reachable init
  | step {s s' : SState} {a : SAct} : Reachable s → s.step a = some s' → Reachable s'

theorem Reachable.run {s s' : SState} {acts : List SAct} (hs : Reachable s)
    (h : s.run acts = some s') : Reachable s' := by
  induction acts generalizing s with
  | nil => cases h; exact hs
  | cons a as ih =>
    obtain ⟨t, ht, hrun⟩ := Option.bind_eq_some.1 h
    exact ih (hs.step ht) hrun

theorem callStep_eq_some {s s' : SState} {k : Nat} {p q : CallPhase} {f : SState → SState}
    (h : s.callStep k p q f = some s') :
    s.calls[k]? = some p ∧ s' = { f s with calls := s.calls.set k q } := by
  unfold callStep at h
  split_ifs at h with hp
  exact ⟨hp, (Option.some.inj h).symm⟩

theorem loopStep_eq_some {s s' : SState} {l : Nat} {p q : LoopPhase} {guard : Loop → Bool}
    (h : s.loopStep l p q guard = some s') :
    ∃ k, s.loops[l]? = some ⟨k, p⟩ ∧ guard k = true ∧
      s' = { s with loops := s.loops.set l ⟨k, q⟩ } := by
  unfold loopStep at h
  split at h
  · split_ifs at h with hg
    obtain ⟨rfl, hg⟩ := hg
    exact ⟨_, ‹_›, hg, (Option.some.inj h).symm⟩
  · cases h

/-- A loop's statement moves that loop and changes nothing else. -/
theorem loopMove_eq_some {s s' : SState} {l : Nat} {a : LoopAct} (h : s.loopMove l a = some s') :
    ∃ x : LoopState, s' = { s with loops := s.loops.set l x } := by
  cases a <;> obtain ⟨k, -, -, rfl⟩ := loopStep_eq_some h <;> exact ⟨_, rfl⟩

/-! ## The flag stays set -/

theorem step_shutdown {s s' : SState} {a : SAct} (h : s.step a = some s')
    (hs : s.shutdown = true) : s'.shutdown = true := by
  cases a <;> simp only [step] at h <;> (try split_ifs at h) <;>
    first
    | cases h; exact hs
    | obtain ⟨-, rfl⟩ := callStep_eq_some h; first | exact hs | rfl
    | obtain ⟨_, rfl⟩ := loopMove_eq_some h; exact hs

theorem run_shutdown {s s' : SState} {acts : List SAct} (h : s.run acts = some s')
    (hs : s.shutdown = true) : s'.shutdown = true := by
  induction acts generalizing s with
  | nil => cases h; exact hs
  | cons a as ih =>
    obtain ⟨t, ht, hrun⟩ := Option.bind_eq_some.1 h
    exact ih hrun (step_shutdown ht hs)

/-! ## The invariant -/

/-- What each phase of call `k` says about the flag's setter and the calls that closed the
channel and shut the hub down. -/
def CallOk (s : SState) (k : Nat) : CallPhase → Prop
  | .start | .locked => s.flipper ≠ some k
  | .sawFalse => s.flipper = none
  | .flipped => s.flipper = some k ∧ s.closers = [] ∧ s.hubShutdowns = []
  | .closed | .unlocked => s.flipper = some k ∧ s.closers = [k] ∧ s.hubShutdowns = []
  | .returnedNil => s.flipper ≠ some k ∧ s.flipper.isSome
  | .returnedHub => s.flipper = some k ∧ s.closers = [k] ∧ s.hubShutdowns = [k]

/-- The invariant of the reachable states. -/
structure Inv (s : SState) : Prop where
  flag : s.shutdown = s.flipper.isSome
  closed : s.chClosed = !s.closers.isEmpty
  unflipped : s.flipper = none → s.closers = [] ∧ s.hubShutdowns = []
  flipper_lt : ∀ f, s.flipper = some f → f < s.calls.length
  writer : ∀ k, s.writer = some k ↔ ∃ p, s.calls[k]? = some p ∧ p.holdsLock = true
  calls : ∀ k p, s.calls[k]? = some p → s.CallOk k p

theorem inv_init : init.Inv where
  flag := rfl
  closed := rfl
  unflipped _ := ⟨rfl, rfl⟩
  flipper_lt := by simp [init]
  writer := by simp [init]
  calls := by simp [init]

/-- A call other than the one that set the flag is yet to lock, holds the lock before reading
the flag, or returned nil. -/
theorem CallOk.passive {s : SState} {j k : Nat} {p : CallPhase} (h : s.CallOk j p)
    (hf : s.flipper = some k) (hjk : j ≠ k) : p = .start ∨ p = .locked ∨ p = .returnedNil := by
  cases p <;> simp_all [CallOk]

/-- No call but the lock holder `k` holds the lock. -/
theorem Inv.holder_unique {s : SState} (hi : s.Inv) {j k : Nat} {p q : CallPhase}
    (hj : s.calls[j]? = some p) (hp : p.holdsLock = true) (hk : s.calls[k]? = some q)
    (hq : q.holdsLock = true) : j = k :=
  Option.some.inj (((hi.writer j).2 ⟨p, hj, hp⟩).symm.trans ((hi.writer k).2 ⟨q, hk, hq⟩))

/-! ## Each step keeps the invariant -/

/-- The lock changes hands as the phases of call `k` say, and no other way. -/
theorem writer_set {s : SState} (hi : s.Inv) {k : Nat} {p q : CallPhase}
    (hk : s.calls[k]? = some p) {w : Option Nat}
    (hw : ∀ j, j ≠ k → (w = some j ↔ s.writer = some j))
    (hwk : w = some k ↔ q.holdsLock = true) :
    ∀ j, w = some j ↔ ∃ p', (s.calls.set k q)[j]? = some p' ∧ p'.holdsLock = true := by
  intro j
  rcases eq_or_ne k j with rfl | hkj
  · rw [List.getElem?_set_self (List.getElem?_eq_some_iff.1 hk).1, hwk]
    simp
  · rw [List.getElem?_set_ne hkj, hw j (Ne.symm hkj), hi.writer j]

/-- A move between two phases that both hold the lock, or both do not, leaves the lock where
it is. -/
theorem writer_keep {s : SState} (hi : s.Inv) {k : Nat} {p q : CallPhase}
    (hk : s.calls[k]? = some p) (hpq : p.holdsLock = q.holdsLock) :
    ∀ j, s.writer = some j ↔ ∃ p', (s.calls.set k q)[j]? = some p' ∧ p'.holdsLock = true :=
  writer_set hi hk (fun _ _ => Iff.rfl) (by rw [hi.writer k, ← hpq]; simp [hk])

theorem Inv.call {s : SState} (hi : s.Inv) :
    ({ s with calls := s.calls ++ [CallPhase.start] } : SState).Inv where
  flag := hi.flag
  closed := hi.closed
  unflipped := hi.unflipped
  flipper_lt f hf := by simpa using Nat.lt_succ_of_lt (hi.flipper_lt f hf)
  writer k := by
    rw [hi.writer k]
    refine ⟨fun ⟨p, hp, hh⟩ => ⟨p, ?_, hh⟩, fun ⟨p, hp, hh⟩ => ?_⟩
    · rw [List.getElem?_append_left (List.getElem?_eq_some_iff.1 hp).1, hp]
    · exact forall_getElem?_concat (P := fun j p => p.holdsLock = true →
        ∃ p', s.calls[j]? = some p' ∧ p'.holdsLock = true) (by simp [CallPhase.holdsLock])
        (fun j p hp hh => ⟨p, hp, hh⟩) k p hp hh
  calls := forall_getElem?_concat (fun h => Nat.lt_irrefl _ (hi.flipper_lt _ h)) hi.calls

theorem Inv.lock {s : SState} (hi : s.Inv) {k : Nat} (hk : s.calls[k]? = some .start)
    (hw : s.writer = none) :
    ({ s with writer := some k, calls := s.calls.set k .locked }).Inv where
  flag := hi.flag
  closed := hi.closed
  unflipped := hi.unflipped
  flipper_lt f hf := by simpa using hi.flipper_lt f hf
  writer := writer_set hi hk (fun j hj => by simp [hw, Ne.symm hj]) (by simp [CallPhase.holdsLock])
  calls := forall_getElem?_set (hi.calls k _ hk) fun j p _ hp => hi.calls j p hp

theorem Inv.readSet {s : SState} (hi : s.Inv) {k : Nat} (hk : s.calls[k]? = some .locked)
    (hs : s.shutdown = true) :
    ({ s with writer := none, calls := s.calls.set k .returnedNil }).Inv where
  flag := hi.flag
  closed := hi.closed
  unflipped := hi.unflipped
  flipper_lt f hf := by simpa using hi.flipper_lt f hf
  writer := by
    have hwk : s.writer = some k := (hi.writer k).2 ⟨_, hk, rfl⟩
    exact writer_set hi hk (fun j hj => by simp [hwk, Ne.symm hj]) (by simp [CallPhase.holdsLock])
  calls := forall_getElem?_set ⟨hi.calls k _ hk, hi.flag ▸ hs⟩ fun j p _ hp => hi.calls j p hp

theorem Inv.readUnset {s : SState} (hi : s.Inv) {k : Nat} (hk : s.calls[k]? = some .locked)
    (hs : s.shutdown = false) : ({ s with calls := s.calls.set k .sawFalse }).Inv where
  flag := hi.flag
  closed := hi.closed
  unflipped := hi.unflipped
  flipper_lt f hf := by simpa using hi.flipper_lt f hf
  writer := writer_keep hi hk rfl
  calls := forall_getElem?_set (Option.not_isSome_iff_eq_none.1 (by simp [← hi.flag, hs]))
    fun j p _ hp => hi.calls j p hp

theorem Inv.set {s : SState} (hi : s.Inv) {k : Nat} (hk : s.calls[k]? = some .sawFalse) :
    ({ s with shutdown := true, flipper := some k, calls := s.calls.set k .flipped }).Inv where
  flag := rfl
  closed := hi.closed
  unflipped h := by cases h
  flipper_lt f hf := by
    cases hf
    simpa using (List.getElem?_eq_some_iff.1 hk).1
  writer := writer_keep hi hk rfl
  calls := by
    have hnone : s.flipper = none := hi.calls k _ hk
    refine forall_getElem?_set ⟨rfl, hi.unflipped hnone⟩ fun j p hj hp => ?_
    have hok := hi.calls j p hp
    cases p <;> simp only [CallOk, hnone, reduceCtorEq, false_and, Option.isSome_none,
      Bool.false_eq_true, and_false] at hok ⊢
    · exact fun h => hj (Option.some.inj h).symm
    · exact fun h => hj (Option.some.inj h).symm
    · exact absurd (hi.holder_unique hp rfl hk rfl) hj

/-- The effects of the call that set the flag, after which it holds a later phase. -/
theorem Inv.flipperStep {s : SState} (hi : s.Inv) {k : Nat} {q : CallPhase}
    (hf : s.flipper = some k) {t : SState} (hflag : t.shutdown = s.shutdown)
    (hflip : t.flipper = s.flipper) (hcalls : t.calls = s.calls.set k q)
    (hclosed : t.chClosed = !t.closers.isEmpty)
    (hw : ∀ j, t.writer = some j ↔ ∃ p', (s.calls.set k q)[j]? = some p' ∧ p'.holdsLock = true)
    (hq : t.CallOk k q) : t.Inv where
  flag := hflag.trans (hflip ▸ hi.flag)
  closed := hclosed
  unflipped h := absurd (hflip.symm.trans h) (by simp [hf])
  flipper_lt f hf' := by rw [hcalls, List.length_set]; exact hi.flipper_lt f (hflip ▸ hf')
  writer := hcalls ▸ hw
  calls := by
    rw [hcalls]
    refine forall_getElem?_set hq fun j p' hj hp' => ?_
    have hok := hi.calls j p' hp'
    rcases hok.passive hf hj with rfl | rfl | rfl <;> simpa only [CallOk, hflip] using hok


theorem Inv.step {s s' : SState} (hi : s.Inv) {a : SAct} (h : s.step a = some s') : s'.Inv := by
  cases a with
  | call =>
    cases h
    exact hi.call
  | lock k =>
    simp only [SState.step] at h
    split at h
    · obtain ⟨hk, rfl⟩ := callStep_eq_some h
      exact hi.lock hk ‹_ ∧ _›.1
    · cases h
  | read k =>
    simp only [SState.step] at h
    cases hs : s.shutdown <;> simp only [hs, if_true, if_false, Bool.false_eq_true] at h <;>
      obtain ⟨hk, rfl⟩ := callStep_eq_some h
    · exact hi.readUnset hk hs
    · exact hi.readSet hk hs
  | set k =>
    simp only [SState.step] at h
    obtain ⟨hk, rfl⟩ := callStep_eq_some h
    exact hi.set hk
  | close k =>
    simp only [SState.step] at h
    obtain ⟨hk, rfl⟩ := callStep_eq_some h
    obtain ⟨hf, hc, hh⟩ : s.CallOk k .flipped := hi.calls k _ hk
    exact hi.flipperStep hf rfl rfl rfl (by simp) (writer_keep hi hk rfl) ⟨hf, by simp [hc], hh⟩
  | unlock k =>
    simp only [SState.step] at h
    obtain ⟨hk, rfl⟩ := callStep_eq_some h
    have hwk : s.writer = some k := (hi.writer k).2 ⟨_, hk, rfl⟩
    exact hi.flipperStep (hi.calls k _ hk).1 rfl rfl rfl hi.closed
      (writer_set hi hk (fun j hj => by simp [hwk, Ne.symm hj]) (by simp [CallPhase.holdsLock]))
      (hi.calls k _ hk)
  | hubShutdown k =>
    simp only [SState.step] at h
    obtain ⟨hk, rfl⟩ := callStep_eq_some h
    obtain ⟨hf, hc, hh⟩ : s.CallOk k .unlocked := hi.calls k _ hk
    exact hi.flipperStep hf rfl rfl rfl hi.closed (writer_keep hi hk rfl) ⟨hf, hc, by simp [hh]⟩
  | loop l b =>
    obtain ⟨_, rfl⟩ := loopMove_eq_some h
    exact ⟨hi.1, hi.2, hi.3, hi.4, hi.5, hi.6⟩

theorem Reachable.inv {s : SState} (hs : Reachable s) : s.Inv := by
  induction hs with
  | init => exact inv_init
  | step _ h ih => exact ih.step h

/-! ## Shutdown is idempotent -/

/-- The channel was closed and the hub shut down by the call that set the flag, at most once
each. -/
theorem Inv.touched {s : SState} (hi : s.Inv) :
    (s.closers = [] ∧ s.hubShutdowns = []) ∨ ∃ f, s.flipper = some f ∧ s.closers = [f] ∧
      (s.hubShutdowns = [] ∨ s.hubShutdowns = [f]) := by
  cases hf : s.flipper with
  | none => exact .inl (hi.unflipped hf)
  | some f =>
    obtain ⟨p, hp⟩ : ∃ p, s.calls[f]? = some p :=
      ⟨_, List.getElem?_eq_getElem (hi.flipper_lt f hf)⟩
    have hok := hi.calls f p hp
    cases p <;> simp only [CallOk, hf, ne_eq, not_true_eq_false, reduceCtorEq, true_and,
      false_and] at hok
    · exact .inl hok
    · exact .inr ⟨f, rfl, hok.1, .inl hok.2⟩
    · exact .inr ⟨f, rfl, hok.1, .inl hok.2⟩
    · exact .inr ⟨f, rfl, hok.1, .inr hok.2⟩

/-- What `Shutdown` promises, in a state of any run. -/
structure ShutdownOnce (s : SState) : Prop where
  /-- `close` has been applied at most once, so never to a closed channel, and the channel is
  closed iff it has. -/
  close_once : s.closers.length ≤ 1 ∧ (s.chClosed = true ↔ s.closers.length = 1)
  /-- `hub.Shutdown` has been called at most once. -/
  hub_once : s.hubShutdowns.length ≤ 1
  /-- Both only by the call that set the flag. -/
  by_flipper : ∀ k ∈ s.closers ++ s.hubShutdowns, s.flipper = some k
  /-- Every other call that has returned returned nil. -/
  others_nil : ∀ k p, s.calls[k]? = some p → p.returned → s.flipper ≠ some k → p = .returnedNil
  /-- Once each of N ≥ 1 calls has returned, the channel was closed and the hub shut down
  exactly once. -/
  completed : s.calls ≠ [] → (∀ p ∈ s.calls, p.returned) →
    s.closers.length = 1 ∧ s.hubShutdowns.length = 1 ∧ s.chClosed = true
  /-- Once set, the flag stays set. -/
  flag_stays : ∀ acts s', s.run acts = some s' → s.shutdown = true → s'.shutdown = true

theorem Inv.completed {s : SState} (hi : s.Inv) (hne : s.calls ≠ [])
    (hret : ∀ p ∈ s.calls, p.returned) :
    s.closers.length = 1 ∧ s.hubShutdowns.length = 1 ∧ s.chClosed = true := by
  obtain ⟨p0, hp0⟩ : ∃ p, s.calls[0]? = some p :=
    ⟨_, List.getElem?_eq_getElem (List.length_pos.2 hne)⟩
  obtain ⟨f, hf⟩ : ∃ f, s.flipper = some f := by
    have hok := hi.calls 0 p0 hp0
    have hr := hret p0 (List.getElem?_mem hp0)
    cases p0 <;> simp only [CallPhase.returned, reduceCtorEq] at hr
    · exact Option.isSome_iff_exists.1 hok.2
    · exact ⟨0, hok.1⟩
  obtain ⟨p, hp⟩ : ∃ p, s.calls[f]? = some p :=
    ⟨_, List.getElem?_eq_getElem (hi.flipper_lt f hf)⟩
  have hok := hi.calls f p hp
  have hr := hret p (List.getElem?_mem hp)
  cases p <;> simp only [CallPhase.returned, reduceCtorEq] at hr
  · exact absurd hf hok.1
  · obtain ⟨-, hc, hh⟩ := hok
    simp [hc, hh, hi.closed]

/-- **Shutdown is idempotent.** In every run of any number of `Shutdown` calls and the loops,
interleaved in any order under the locks of `n.mu`: `close` has been applied to `shutdownCh` at
most once, so never to a closed channel, and `hub.Shutdown` called at most once, both by the
call that set the flag; every other call that has returned returned nil; once all of N ≥ 1
calls have returned, the channel was closed and the hub shut down exactly once; and the flag,
once set, stays set. -/
theorem shutdown_idempotent {s : SState} (hs : Reachable s) : ShutdownOnce s := by
  have hi := hs.inv
  have hlen : s.closers.length ≤ 1 ∧ s.hubShutdowns.length ≤ 1 := by
    rcases hi.touched with ⟨hc, hh⟩ | ⟨f, -, hc, hh | hh⟩ <;> simp [hc, hh]
  refine ⟨⟨hlen.1, ?_⟩, hlen.2, fun k hk => ?_, fun k p hp hr hk => ?_, hi.completed,
    fun _ _ h hs => run_shutdown h hs⟩
  · rw [hi.closed]
    rcases hi.touched with ⟨hc, -⟩ | ⟨f, -, hc, -⟩ <;> simp [hc]
  · rcases hi.touched with ⟨hc, hh⟩ | ⟨f, hf, hc, hh | hh⟩ <;> simp_all
  · have hok := hi.calls k p hp
    cases p <;> simp only [CallPhase.returned, reduceCtorEq] at hr
    · rfl
    · exact absurd hok.1 hk

/-- Two calls race for the lock: the second reads the flag set and returns nil. -/
def twoCalls : List SAct :=
  [.call, .call, .lock 1, .read 1, .set 1, .close 1, .unlock 1, .lock 0, .read 0,
    .hubShutdown 1]

theorem shutdown_idempotent_twoCalls :
    ∃ s, init.run twoCalls = some s ∧ ShutdownOnce s := by
  obtain ⟨s, hs⟩ : ∃ s, init.run twoCalls = some s := ⟨_, rfl⟩
  exact ⟨s, hs, shutdown_idempotent (Reachable.run Reachable.init hs)⟩

end SState

end CentrifugoNode
