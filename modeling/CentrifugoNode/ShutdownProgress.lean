import CentrifugoNode.Shutdown
import Mathlib.Algebra.Order.BigOperators.Group.List
import Mathlib.Algebra.Order.Ring.Nat

/-!
# Shutdown always completes

`Shutdown` holds the write lock of `n.mu` from the read of the flag until the channel is closed.
The loops of `Run` hold the read lock while they read their interval, `pubNode` while it takes and
releases the read lock of `metricsMu`, and `cleanNodeInfo` while it reads its delay;
`updateMetricsOnce` holds the write lock of `metricsMu` and takes no lock of `n.mu`. So the only
goroutine that waits while it holds a lock is `pubNode`, holding the read lock of `n.mu` while
`updateMetricsOnce` holds `metricsMu`, and `updateMetricsOnce` waits for nothing while it holds
it: no interleaving of the steps of `Shutdown.lean` can leave the goroutines waiting on each
other.

* `shutdown_completes`: from every reachable state the calls already made and the loops can run
  on their own, with no new call: first every call returns, by steps that take no read lock of
  `n.mu` (so none waits behind a `Shutdown` waiting for the write lock, as a new reader does in
  Go); then, once there is a call, every loop sees the channel closed and exits, by steps of the
  loops alone. Six steps per call and eight per loop suffice.

The proof charges each goroutine at most the steps of its way out (`stepsLeft`). In a state of
the invariant where a call has not returned, one goroutine has a step enabled that lowers the
charge and takes no read lock (`Inv.calls_progress`); once every call has returned, a loop has
one (`Inv.loops_progress`). Induction on the charge gives each part of the schedule
(`exists_run_of_progress`).
-/

namespace CentrifugoNode

/-- The steps call `k` still takes to return, by the path that sets the flag. -/
def CallPhase.stepsLeft : CallPhase → Nat
  | .start => 6
  | .locked => 5
  | .sawFalse => 4
  | .flipped => 3
  | .closed => 2
  | .unlocked => 1
  | .returnedNil | .returnedHub => 0

/-- The steps a loop takes at most to exit once the channel is closed, its timer not firing; the
longest body, `pubNode`'s, takes five statements from its start back to the top. -/
def LoopPhase.stepsLeft : LoopPhase → Nat
  | .working => 8
  | .pubLocked => 7
  | .pubMetrics => 6
  | .pubBuilt | .cleanLocked | .metricsLocked => 5
  | .bodyDone => 4
  | .top => 3
  | .reading => 2
  | .selecting => 1
  | .exited => 0

theorem CallPhase.stepsLeft_le (p : CallPhase) : p.stepsLeft ≤ 6 := by
  cases p <;> decide

theorem LoopPhase.stepsLeft_le (q : LoopPhase) : q.stepsLeft ≤ 8 := by
  cases q <;> decide

/-- The statement takes the read lock of `n.mu`: a loop's read of its interval, `pubNode`'s or
`cleanNodeInfo`'s. -/
def LoopAct.readsConfig : LoopAct → Bool
  | .rlock | .pubRlock | .cleanRlock => true
  | _ => false

/-- The step takes the read lock of `n.mu`. -/
def SAct.readsConfig : SAct → Bool
  | .loop _ b => b.readsConfig
  | _ => false

/-- The step is a loop's. -/
def SAct.byLoop : SAct → Bool
  | .loop _ _ => true
  | _ => false

namespace SState

/-- What the goroutines of `s` are charged: at most the steps each still takes on its way out. -/
def stepsLeft (s : SState) : Nat :=
  (s.calls.map CallPhase.stepsLeft).sum + (s.loops.map (·.phase.stepsLeft)).sum

theorem stepsLeft_le (s : SState) : s.stepsLeft ≤ 6 * s.calls.length + 8 * s.loops.length := by
  have hc := List.sum_le_card_nsmul (s.calls.map CallPhase.stepsLeft) 6
    (List.forall_mem_map.2 fun p _ => p.stepsLeft_le)
  have hl := List.sum_le_card_nsmul (s.loops.map (·.phase.stepsLeft)) 8
    (List.forall_mem_map.2 fun q _ => q.phase.stepsLeft_le)
  simp only [List.length_map, Nat.nsmul_eq_mul] at hc hl
  unfold stepsLeft
  omega

/-- **Runs towards a goal.** If every state of `Good` outside `Goal` has a step of `Allowed` to a
state of `Good` of smaller charge, then from every state of `Good` a run of such steps reaches
`Goal`, its length and the charge left together at most the charge of the start. -/
theorem exists_run_of_progress {Good Goal : SState → Prop} {Allowed : SAct → Prop}
    (hprog : ∀ s, Good s → ¬ Goal s →
      ∃ a s', Allowed a ∧ s.step a = some s' ∧ Good s' ∧ s'.stepsLeft < s.stepsLeft)
    {s : SState} (hs : Good s) :
    ∃ acts s', s.run acts = some s' ∧ (∀ a ∈ acts, Allowed a) ∧
      acts.length + s'.stepsLeft ≤ s.stepsLeft ∧ Goal s' ∧ Good s' := by
  obtain ⟨n, hn⟩ : ∃ n, s.stepsLeft = n := ⟨_, rfl⟩
  induction n using Nat.strong_induction_on generalizing s with
  | _ n ih =>
  by_cases hd : Goal s
  · exact ⟨[], s, rfl, fun _ h => absurd h (List.not_mem_nil _), by simp, hd, hs⟩
  obtain ⟨a, t, ha, hst, ht, hlt⟩ := hprog s hs hd
  obtain ⟨acts, s', hrun, hall, hlen, hgoal, hgood⟩ := ih _ (hn ▸ hlt) ht rfl
  refine ⟨a :: acts, s', by simp only [run, hst, Option.some_bind, hrun],
    List.forall_mem_cons.2 ⟨ha, hall⟩, ?_, hgoal, hgood⟩
  rw [List.length_cons]
  omega

/-! ## Enabled steps -/

/-- An enabled statement of a loop towards its exit lowers the charge. -/
theorem loopStep_progress {s : SState} {l : Nat} {k : Loop} {p : LoopPhase}
    (hl : s.loops[l]? = some ⟨k, p⟩) {q : LoopPhase} {guard : Loop → Bool} (hg : guard k = true)
    (hq : q.stepsLeft < p.stepsLeft) :
    ∃ s', s.loopStep l p q guard = some s' ∧ s'.stepsLeft < s.stepsLeft := by
  refine ⟨{ s with loops := s.loops.set l ⟨k, q⟩ }, by simp [loopStep, hl, hg], ?_⟩
  have := sum_map_set_lt (f := fun x : LoopState => x.phase.stepsLeft) hl (q := ⟨k, q⟩) hq
  simp only [stepsLeft]
  omega

/-- A call's step towards returning lowers the charge, whatever else it changes but the
loops. -/
theorem stepsLeft_callSet {s : SState} {k : Nat} {p q : CallPhase} (hk : s.calls[k]? = some p)
    (hq : q.stepsLeft < p.stepsLeft) (t : SState) (hl : t.loops = s.loops) :
    ({ t with calls := s.calls.set k q } : SState).stepsLeft < s.stepsLeft := by
  have := sum_map_set_lt hk hq
  simp only [stepsLeft, hl]
  omega

/-- Every step but a new call keeps the number of calls. -/
theorem step_calls_length {s s' : SState} {a : SAct} (h : s.step a = some s') (ha : a ≠ .call) :
    s'.calls.length = s.calls.length := by
  cases a <;> simp only [step] at h <;> (try split_ifs at h) <;>
    first
    | exact absurd rfl ha
    | cases h
    | obtain ⟨-, rfl⟩ := callStep_eq_some h; exact List.length_set ..
    | obtain ⟨_, rfl⟩ := loopMove_eq_some h; rfl

theorem run_calls_length {s s' : SState} {acts : List SAct} (h : s.run acts = some s')
    (hacts : ∀ a ∈ acts, a ≠ .call) : s'.calls.length = s.calls.length := by
  induction acts generalizing s with
  | nil => cases h; rfl
  | cons a as ih =>
    obtain ⟨t, ht, hrun⟩ := Option.bind_eq_some.1 h
    rw [List.forall_mem_cons] at hacts
    exact (ih hrun hacts.2).trans (step_calls_length ht hacts.1)

/-! ## Progress -/

/-- The holder of the write lock can take its next step. -/
theorem holder_progress {s : SState} {k : Nat} {p : CallPhase} (hk : s.calls[k]? = some p)
    (hp : p.holdsLock = true) :
    ∃ a, a ≠ .call ∧ a.readsConfig = false ∧
      ∃ s', s.step a = some s' ∧ s'.stepsLeft < s.stepsLeft := by
  cases p with
  | locked =>
    cases hs : s.shutdown
    · exact ⟨.read k, nofun, rfl, _, (if_neg (ne_true_of_eq_false hs)).trans
        (if_pos hk), stepsLeft_callSet hk (by decide) _ rfl⟩
    · exact ⟨.read k, nofun, rfl, _, (if_pos hs).trans (if_pos hk),
        stepsLeft_callSet hk (by decide) _ rfl⟩
  | sawFalse =>
    exact ⟨.set k, nofun, rfl, _, if_pos hk, stepsLeft_callSet hk (by decide) _ rfl⟩
  | flipped =>
    exact ⟨.close k, nofun, rfl, _, if_pos hk, stepsLeft_callSet hk (by decide) _ rfl⟩
  | closed =>
    exact ⟨.unlock k, nofun, rfl, _, if_pos hk, stepsLeft_callSet hk (by decide) _ rfl⟩
  | start | unlocked | returnedNil | returnedHub => cases hp

/-- A loop holding the read lock of `n.mu` goes on without taking it again: it releases it, or
`pubNode` takes the read lock of `metricsMu` on its way, once `updateMetricsOnce` has released
the write lock. -/
theorem release_progress {s : SState} {l : Nat} {k : Loop} {p : LoopPhase}
    (hl : s.loops[l]? = some ⟨k, p⟩) (hx : p.holdsRead = true) :
    ∃ l' b, b.readsConfig = false ∧
      ∃ s', s.loopMove l' b = some s' ∧ s'.stepsLeft < s.stepsLeft := by
  cases p with
  | reading => exact ⟨l, .runlock, rfl, loopStep_progress hl rfl (by decide)⟩
  | pubLocked =>
    by_cases hw : ∃ y ∈ s.loops, y.phase = .metricsLocked
    · obtain ⟨⟨k', _⟩, hy, rfl⟩ := hw
      obtain ⟨l', hl'⟩ := List.getElem?_of_mem hy
      exact ⟨l', .metricsUnlock, rfl, loopStep_progress hl' rfl (by decide)⟩
    · push_neg at hw
      exact ⟨l, .metricsRlock, rfl, loopStep_progress hl (decide_eq_true hw) (by decide)⟩
  | pubMetrics => exact ⟨l, .metricsRunlock, rfl, loopStep_progress hl rfl (by decide)⟩
  | pubBuilt => exact ⟨l, .pubRunlock, rfl, loopStep_progress hl rfl (by decide)⟩
  | cleanLocked => exact ⟨l, .cleanRunlock, rfl, loopStep_progress hl rfl (by decide)⟩
  | top | selecting | working | metricsLocked | bodyDone | exited => cases hx

/-- **The calls go on.** In a state of the invariant where a call has not returned, one of the
goroutines already there has a step enabled that lowers the charge and takes no read lock of
`n.mu`: a loop holding the read lock goes on to release it; else the holder of the write lock
goes on; else a call waiting for the lock takes it, or one past the lock calls the hub. -/
theorem Inv.calls_progress {s : SState} (hi : s.Inv) (hret : ¬ ∀ p ∈ s.calls, p.returned) :
    ∃ a, a ≠ .call ∧ a.readsConfig = false ∧
      ∃ s', s.step a = some s' ∧ s'.stepsLeft < s.stepsLeft := by
  by_cases hr : ∃ x ∈ s.loops, x.phase.holdsRead
  · obtain ⟨⟨k, p⟩, hx, hxr⟩ := hr
    obtain ⟨l, hl⟩ := List.getElem?_of_mem hx
    obtain ⟨l', b, hb, h⟩ := release_progress hl hxr
    exact ⟨.loop l' b, nofun, hb, h⟩
  simp only [not_exists, not_and, Bool.not_eq_true] at hr
  cases hw : s.writer with
  | some k =>
    obtain ⟨p, hk, hp⟩ := (hi.writer k).1 hw
    exact holder_progress hk hp
  | none =>
  push_neg at hret
  obtain ⟨p, hp, hpr⟩ := hret
  obtain ⟨k, hk⟩ := List.getElem?_of_mem hp
  cases p with
  | start =>
    exact ⟨.lock k, nofun, rfl, _, (if_pos ⟨hw, hr⟩).trans (if_pos hk),
      stepsLeft_callSet hk (q := .locked) (by decide) _ rfl⟩
  | unlocked =>
    exact ⟨.hubShutdown k, nofun, rfl, _, if_pos hk, stepsLeft_callSet hk (by decide) _ rfl⟩
  | locked | sawFalse | flipped | closed => simpa [hw] using (hi.writer k).2 ⟨_, hk, rfl⟩
  | returnedNil | returnedHub => exact absurd rfl hpr

/-- Once every call has returned, none holds the write lock. -/
theorem Inv.writer_eq_none {s : SState} (hi : s.Inv) (hret : ∀ p ∈ s.calls, p.returned) :
    s.writer = none := by
  cases hw : s.writer with
  | none => rfl
  | some k =>
    obtain ⟨p, hk, hp⟩ := (hi.writer k).1 hw
    have := hret p (List.getElem?_mem hk)
    cases p <;> simp_all [CallPhase.holdsLock, CallPhase.returned]

/-- **The loops go on.** In a state of the invariant where every one of the calls, of which
there is one, has returned, the channel is closed and the write lock free, so a loop that has
not exited has a statement enabled that lowers the charge: `updateMetricsOnce` holding the write
lock of `metricsMu` releases it; else `pubNode` holding its read lock releases it; else any loop
goes on. -/
theorem Inv.loops_progress {s : SState} (hi : s.Inv) (hret : ∀ p ∈ s.calls, p.returned)
    (hne : s.calls ≠ []) (hex : ¬ ∀ x ∈ s.loops, x.phase = .exited) :
    ∃ l b, ∃ s', s.loopMove l b = some s' ∧ s'.stepsLeft < s.stepsLeft := by
  have hw := hi.writer_eq_none hret
  have hclosed := (hi.completed hne hret).2.2
  by_cases hm : ∃ x ∈ s.loops, x.phase = .metricsLocked
  · obtain ⟨⟨k, _⟩, hx, rfl⟩ := hm
    obtain ⟨l, hl⟩ := List.getElem?_of_mem hx
    exact ⟨l, .metricsUnlock, loopStep_progress hl rfl (by decide)⟩
  by_cases hd : ∃ x ∈ s.loops, x.phase = .pubMetrics
  · obtain ⟨⟨k, _⟩, hx, rfl⟩ := hd
    obtain ⟨l, hl⟩ := List.getElem?_of_mem hx
    exact ⟨l, .metricsRunlock, loopStep_progress hl rfl (by decide)⟩
  push_neg at hm hd hex
  obtain ⟨⟨k, p⟩, hx, hpe⟩ := hex
  obtain ⟨l, hl⟩ := List.getElem?_of_mem hx
  cases p with
  | top => exact ⟨l, .rlock, loopStep_progress hl (decide_eq_true hw) (by decide)⟩
  | reading => exact ⟨l, .runlock, loopStep_progress hl rfl (by decide)⟩
  | selecting => exact ⟨l, .exit, loopStep_progress hl hclosed (by decide)⟩
  | working =>
    cases k with
    | sendNodePingMsg =>
      exact ⟨l, .pubRlock, loopStep_progress hl (decide_eq_true ⟨rfl, hw⟩) (by decide)⟩
    | cleanNodeInfo =>
      exact ⟨l, .cleanRlock, loopStep_progress hl (decide_eq_true ⟨rfl, hw⟩) (by decide)⟩
    | updateMetrics =>
      exact ⟨l, .metricsLock, loopStep_progress hl
        (decide_eq_true ⟨rfl, fun y hy => ⟨hd y hy, hm y hy⟩⟩) (by decide)⟩
  | pubLocked => exact ⟨l, .metricsRlock, loopStep_progress hl (decide_eq_true hm) (by decide)⟩
  | pubBuilt => exact ⟨l, .pubRunlock, loopStep_progress hl rfl (by decide)⟩
  | cleanLocked => exact ⟨l, .cleanRunlock, loopStep_progress hl rfl (by decide)⟩
  | bodyDone => exact ⟨l, .again, loopStep_progress hl rfl (by decide)⟩
  | pubMetrics => exact absurd rfl (hd _ hx)
  | metricsLocked => exact absurd rfl (hm _ hx)
  | exited => exact absurd rfl hpe

/-! ## The schedule -/

/-- From every state of the invariant the calls return, by steps that make no new call and take
no read lock of `n.mu`. -/
theorem Inv.exists_run_returned {s : SState} (hi : s.Inv) :
    ∃ acts s', s.run acts = some s' ∧ (∀ a ∈ acts, a ≠ .call ∧ a.readsConfig = false) ∧
      acts.length + s'.stepsLeft ≤ s.stepsLeft ∧ (∀ p ∈ s'.calls, p.returned) ∧ s'.Inv :=
  exists_run_of_progress (fun _ ht hd => by
    obtain ⟨a, ha, hb, t', h, hlt⟩ := ht.calls_progress hd
    exact ⟨a, t', ⟨ha, hb⟩, h, ht.step h, hlt⟩) hi

/-- Once every one of the calls, of which there is one, has returned, the loops exit by their
own steps. -/
theorem Inv.exists_run_exited {s : SState} (hi : s.Inv) (hret : ∀ p ∈ s.calls, p.returned)
    (hne : s.calls ≠ []) :
    ∃ acts s', s.run acts = some s' ∧ (∀ a ∈ acts, a.byLoop) ∧ acts.length ≤ s.stepsLeft ∧
      s'.calls = s.calls ∧ ∀ x ∈ s'.loops, x.phase = .exited := by
  obtain ⟨acts, s', hrun, hall, hlen, hex, -, hcalls⟩ :=
    @exists_run_of_progress (fun t => t.Inv ∧ t.calls = s.calls)
      (fun t => ∀ x ∈ t.loops, x.phase = .exited) (fun a => a.byLoop) (fun t ⟨ht, hc⟩ hd => by
        obtain ⟨l, b, t', h, hlt⟩ := ht.loops_progress (hc ▸ hret) (hc ▸ hne) hd
        obtain ⟨_, rfl⟩ := loopMove_eq_some h
        exact ⟨.loop l b, _, rfl, h, ⟨ht.step (a := .loop l b) h, hc⟩, hlt⟩) s ⟨hi, rfl⟩
  exact ⟨acts, s', hrun, hall, by omega, hcalls, hex⟩

/-- From every state of the invariant the goroutines already there finish on their own: first
the calls return, by steps that take no read lock of `n.mu`; then, once there is a call, the
loops exit by their own steps; in at most as many steps as the state is charged. -/
theorem Inv.exists_run_done {s : SState} (hi : s.Inv) :
    ∃ acts₁ s₁ acts₂ s', s.run acts₁ = some s₁ ∧ s₁.run acts₂ = some s' ∧
      (∀ a ∈ acts₁, a ≠ .call ∧ a.readsConfig = false) ∧ (∀ a ∈ acts₂, a.byLoop) ∧
      acts₁.length + acts₂.length ≤ s.stepsLeft ∧ (∀ p ∈ s₁.calls, p.returned) ∧
      s'.calls = s₁.calls ∧ (s₁.calls ≠ [] → ∀ x ∈ s'.loops, x.phase = .exited) := by
  obtain ⟨acts₁, s₁, h₁, ha₁, hlen₁, hret, hi₁⟩ := hi.exists_run_returned
  by_cases hne : s₁.calls = []
  · exact ⟨acts₁, s₁, [], s₁, h₁, rfl, ha₁, nofun, by simp; omega, hret, rfl,
      fun h => absurd hne h⟩
  obtain ⟨acts₂, s', h₂, ha₂, hlen₂, hcalls, hex⟩ := hi₁.exists_run_exited hret hne
  exact ⟨acts₁, s₁, acts₂, s', h₁, h₂, ha₁, ha₂, by omega, hret, hcalls, fun _ => hex⟩

/-- **Shutdown cannot deadlock.** From every reachable state, whatever interleaving of calls and
loops led there, the `Shutdown` calls already made and the loops of `Run` can run on their own,
with no new call: first every call returns, by steps that take no read lock of `n.mu`, so that
none waits behind a call waiting for the write lock; then, once there is a call, every loop sees
`shutdownCh` closed and exits, by steps of the loops alone. Six steps per call and eight per
loop suffice. -/
theorem shutdown_completes {s : SState} (hs : Reachable s) :
    ∃ acts₁ s₁ acts₂ s', s.run acts₁ = some s₁ ∧ s₁.run acts₂ = some s' ∧
      (∀ a ∈ acts₁, a ≠ .call ∧ a.readsConfig = false) ∧ (∀ a ∈ acts₂, a.byLoop) ∧
      acts₁.length + acts₂.length ≤ 6 * s.calls.length + 8 * s.loops.length ∧
      s₁.calls.length = s.calls.length ∧ (∀ p ∈ s₁.calls, p.returned) ∧ s'.calls = s₁.calls ∧
      (s.calls ≠ [] → ∀ x ∈ s'.loops, x.phase = .exited) := by
  obtain ⟨acts₁, s₁, acts₂, s', h₁, h₂, ha₁, ha₂, hlen, hret, hcalls, hex⟩ :=
    hs.inv.exists_run_done
  have hlen₁ := run_calls_length h₁ fun a ha => (ha₁ a ha).1
  refine ⟨acts₁, s₁, acts₂, s', h₁, h₂, ha₁, ha₂, hlen.trans s.stepsLeft_le, hlen₁, hret, hcalls,
    fun hne => hex ?_⟩
  rw [← List.length_pos, hlen₁]
  exact List.length_pos.2 hne

/-- `pubNode` holds the read locks of `n.mu` and `metricsMu`, `cleanNodeInfo` reads its interval
under the read lock, and two calls wait for the write lock. -/
def readersHold : List SAct :=
  [.loop 0 .rlock, .loop 0 .runlock, .loop 0 .fire, .loop 0 .pubRlock, .loop 0 .metricsRlock,
    .loop 1 .rlock, .call, .call]

theorem shutdown_completes_readersHold :
    ∃ s, init.run readersHold = some s ∧ ∃ acts₁ s₁ acts₂ s', s.run acts₁ = some s₁ ∧
      s₁.run acts₂ = some s' ∧ (∀ a ∈ acts₁, a ≠ .call ∧ a.readsConfig = false) ∧
      (∀ a ∈ acts₂, a.byLoop) ∧
      acts₁.length + acts₂.length ≤ 6 * s.calls.length + 8 * s.loops.length ∧
      s₁.calls.length = s.calls.length ∧ (∀ p ∈ s₁.calls, p.returned) ∧ s'.calls = s₁.calls ∧
      (s.calls ≠ [] → ∀ x ∈ s'.loops, x.phase = .exited) := by
  obtain ⟨s, hs⟩ : ∃ s, init.run readersHold = some s := ⟨_, rfl⟩
  exact ⟨s, hs, shutdown_completes (Reachable.run Reachable.init hs)⟩

end SState

end CentrifugoNode
