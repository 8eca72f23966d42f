import CentrifugoNode.Metrics

/-!
# Counters: totals and interval values

`init` registers twenty counters, which the node's operations `Inc` as they run (`Publish`,
`HandleControl`, `HandlePublication`, `AddSubscription`, `Presence`, ...). `updateMetricsOnce`
calls `Counters.UpdateDelta` under the write lock of `metricsMu`, right before it rebuilds the
snapshot from `LoadIntervalValues` (`getSnapshotMetrics`); `Node` reports `LoadValues`
(`getRawMetrics`). The metrics registry is not among the sources: a counter is modelled from the
spec's two views of it, its total and its growth between the last two rotations.

A `CState` is the latch machine `MState` with the counters beside it. An increment is a step of
its own, at any time; the update step rotates the counters and hands their interval values to
`MState.updateMetricsOnce`. A ghost log records each increment with the epoch it fell in, and
`CInv` ties the registry and the snapshots to it.

* `snapshot_counters`: in every reachable state the snapshot of epoch `e + 1` carries, for every
  registered counter, the number of its increments in epoch `e`, and the first snapshot `0`; so
  does every node-info record that carries metrics, for the epoch it latched in; and
  `getRawMetrics` carries the number of all its increments. An increment is thus counted in the
  interval of exactly one snapshot, the one after the epoch it fell in, and in every total.
-/

namespace CentrifugoNode

/-- The counters `init` registers. -/
def counterNames : List String :=
  ["node_num_publication_sent", "node_num_join_sent", "node_num_leave_sent",
    "node_num_admin_msg_sent", "node_num_control_sent", "node_num_publication_received",
    "node_num_join_received", "node_num_leave_received", "node_num_admin_msg_received",
    "node_num_control_received", "node_num_add_client_conn", "node_num_remove_client_conn",
    "node_num_add_client_sub", "node_num_remove_client_sub", "node_num_presence",
    "node_num_add_presence", "node_num_remove_presence", "node_num_history",
    "node_num_remove_history", "node_num_last_message_id"]

theorem not_mem_gaugeNames {name : String} (h : name ∈ counterNames) : name ∉ gaugeNames := by
  revert name
  decide

/-! ## The registry -/

/-- Modelled from the spec: a registered counter, with its total, its total at the last
`UpdateDelta`, and the growth that call found, which `LoadIntervalValues` reads. -/
structure Counter where
  value : Nat
  last : Nat
  delta : Nat
  deriving DecidableEq, Repr

namespace Counter

/-- `metrics.NewCounter()`. -/
def zero : Counter := ⟨0, 0, 0⟩

/-- `Inc`. -/
def inc (c : Counter) : Counter := { c with value := c.value + 1 }

/-- `UpdateDelta`: the growth since the last call becomes the interval value. -/
def updateDelta (c : Counter) : Counter := ⟨c.value, c.value, c.value - c.last⟩

end Counter

/-- The registry's counters, by name. -/
abbrev Counters := String → Counter

namespace Counters

/-- The counters as `init` registers them. -/
def init : Counters := fun _ => .zero

/-- `Counters.Inc`. -/
def inc (cs : Counters) (name : String) : Counters := Function.update cs name (cs name).inc

/-- `Counters.UpdateDelta`, on every counter. -/
def updateDelta (cs : Counters) : Counters := fun name => (cs name).updateDelta

/-- `Counters.LoadValues`: the registered counters' totals. -/
def loadValues (cs : Counters) : MetricsMap := fun name =>
  if name ∈ counterNames then some (cs name).value else none

/-- `Counters.LoadIntervalValues`: the registered counters' interval values. -/
def loadIntervalValues (cs : Counters) : MetricsMap := fun name =>
  if name ∈ counterNames then some (cs name).delta else none

end Counters

/-- What `HDRHistograms.LoadValues` returns. No histogram is registered under a counter's name:
`init` registers none. -/
structure HistValues where
  values : MetricsMap
  not_counter : ∀ name ∈ counterNames, values name = none

/-- The map `getSnapshotMetrics` fills before the gauges: the counters' interval values, then the
histograms, a later entry overriding an earlier one. -/
def intervalValues (cs : Counters) (hists : HistValues) : MetricsMap :=
  fun name => (hists.values name).or (cs.loadIntervalValues name)

/-- `getRawMetrics`: the counters' totals, then the histograms, then the gauges. -/
def getRawMetrics (cs : Counters) (hists : HistValues) (gauges : MetricsMap) : MetricsMap :=
  fun name => (gauges name).or ((hists.values name).or (cs.loadValues name))

theorem latchGauges_of_not_mem {name : String} (h : name ∉ gaugeNames) (gauges : MetricsMap)
    (hub : HubCounts) (goroutines uptime : Int) :
    latchGauges gauges hub goroutines uptime name = gauges name := by
  simp only [gaugeNames, List.mem_cons, List.mem_singleton, not_or] at h
  simp [latchGauges, setGauge, Function.update_apply, h]

theorem memGauges_of_not_mem {name : String} (h : name ∉ gaugeNames) (gauges : MetricsMap)
    (mem : MemStats) (cpu : Option Int) : memGauges gauges mem cpu name = gauges name := by
  simp only [gaugeNames, List.mem_cons, List.mem_singleton, not_or] at h
  cases cpu <;> simp [memGauges, setGauge, Function.update_apply, h]

/-! ## The log of increments -/

/-- The increments of `name` in `log`. -/
def incsOf (log : List (String × Nat)) (name : String) : Nat :=
  log.countP fun p => p.1 = name

/-- The increments of `name` in `log` that fell in epoch `e`. -/
def incsIn (log : List (String × Nat)) (name : String) (e : Nat) : Nat :=
  log.countP fun p => p.1 = name ∧ p.2 = e

/-- The increments of `name` in `log` that fell before epoch `e`. -/
def incsBefore (log : List (String × Nat)) (name : String) (e : Nat) : Nat :=
  log.countP fun p => p.1 = name ∧ p.2 < e

/-- The interval value of `name` the snapshot of epoch `e` is due to carry: the increments of
the epoch before it, none for the first. -/
def intervalOf (log : List (String × Nat)) (name : String) : Nat → Nat
  | 0 => 0
  | e + 1 => incsIn log name e

theorem incsBefore_succ (log : List (String × Nat)) (name : String) (e : Nat) :
    incsBefore log name (e + 1) = incsBefore log name e + incsIn log name e := by
  induction log with
  | nil => rfl
  | cons p log ih =>
    simp only [incsBefore, incsIn, List.countP_cons] at ih ⊢
    rw [ih]
    by_cases h₁ : p.1 = name
    · rcases Nat.lt_trichotomy p.2 e with h | h | h
      · simp [h₁, h, Nat.lt_succ_of_lt h, Nat.ne_of_lt h]
        omega
      · simp [h₁, h]
        omega
      · simp [h₁, Nat.not_lt.2 h.le, Nat.not_lt.2 h, Nat.ne_of_gt h]
    · simp [h₁]

/-- When every increment fell in epoch `E` or before, all of them fell before `E + 1`. -/
theorem incsOf_eq_incsBefore {log : List (String × Nat)} {E : Nat} (h : ∀ p ∈ log, p.2 ≤ E)
    (name : String) : incsOf log name = incsBefore log name (E + 1) :=
  List.countP_congr fun p hp => by simp [Nat.lt_succ_of_le (h p hp)]

/-- An increment in epoch `E` leaves the counts of the epochs before it. -/
theorem incsIn_concat_of_lt (log : List (String × Nat)) {name name' : String} {E e : Nat}
    (h : e < E) : incsIn (log ++ [(name', E)]) name e = incsIn log name e := by
  simp [incsIn, List.countP_singleton, Nat.ne_of_gt h]

theorem incsBefore_concat (log : List (String × Nat)) (name name' : String) (E : Nat) :
    incsBefore (log ++ [(name', E)]) name E = incsBefore log name E := by
  simp [incsBefore, List.countP_singleton]

theorem incsOf_concat (log : List (String × Nat)) (name name' : String) (E : Nat) :
    incsOf (log ++ [(name', E)]) name = incsOf log name + if name' = name then 1 else 0 := by
  simp [incsOf, List.countP_singleton]

theorem intervalOf_concat_of_le (log : List (String × Nat)) {name name' : String} {E e : Nat}
    (h : e ≤ E) : intervalOf (log ++ [(name', E)]) name e = intervalOf log name e := by
  cases e with
  | zero => rfl
  | succ e => exact incsIn_concat_of_lt log (by omega)

/-! ## The latch machine with the counters -/

/-- The latch machine and the counters; `incs` is ghost: every increment so far, with the epoch
it fell in. -/
structure CState where
  m : MState
  counters : Counters
  incs : List (String × Nat)

/-- The action is `updateMetricsOnce`. -/
def MAct.isUpdate : MAct → Bool
  | .update _ _ _ => true
  | _ => false

/-- One step of one goroutine. -/
inductive CAct
  /-- An operation of the node increments the counter `name`. -/
  | inc (name : String)
  /-- A step of the latch machine other than `updateMetricsOnce`. -/
  | latch (a : MAct)
  /-- `updateMetricsOnce`, with what the histograms read then. -/
  | update (mem : MemStats) (cpu : Option Int) (hists : HistValues)

namespace CState

/-- `New`: the counters at zero, and the first snapshot built from their interval values. -/
def init (info : NodeInfo) (hists : HistValues) : CState :=
  ⟨MState.init info (intervalValues Counters.init hists), Counters.init, []⟩

/-- One step; `none` when it is not enabled. `Inc` on a name no counter is registered under
panics, which is no step. -/
def step (s : CState) : CAct → Option CState
  | .inc name =>
    if name ∈ counterNames then
      some { s with counters := s.counters.inc name, incs := s.incs ++ [(name, s.m.epoch)] }
    else none
  | .latch a => if a.isUpdate then none else (s.m.step a).map fun m => { s with m := m }
  | .update mem cpu hists =>
    let cs := s.counters.updateDelta
    (s.m.step (.update mem cpu (intervalValues cs hists))).map fun m =>
      { s with m := m, counters := cs }

/-- The steps of a schedule, one after the other. -/
def run (s : CState) : List CAct → Option CState
  | [] => some s
  | a :: as => (s.step a).bind (run · as)

/-- The states a run from `New` reaches. -/
inductive Reachable : CState → Prop
  | init (info : NodeInfo) (hists : HistValues) : Reachable (init info hists)
  | step {s s' : CState} {a : CAct} : Reachable s → s.step a = some s' → Reachable s'

theorem Reachable.run {s s' : CState} {acts : List CAct} (hs : Reachable s)
    (h : s.run acts = some s') : Reachable s' := by
  induction acts generalizing s with
  | nil => cases h; exact hs
  | cons a as ih =>
    obtain ⟨t, ht, hrun⟩ := Option.bind_eq_some.1 h
    exact ih (hs.step ht) hrun

/-- Every step runs the latch machine's own step, or leaves it. -/
theorem step_latch {s s' : CState} {a : CAct} (h : s.step a = some s') :
    s'.m = s.m ∨ ∃ b, s.m.step b = some s'.m := by
  cases a with
  | inc name =>
    simp only [step] at h
    split_ifs at h
    cases h
    exact .inl rfl
  | latch a =>
    simp only [step] at h
    split_ifs at h
    obtain ⟨m, hm, rfl⟩ := Option.map_eq_some'.1 h
    exact .inr ⟨a, hm⟩
  | update mem cpu hists =>
    obtain ⟨m, hm, rfl⟩ := Option.map_eq_some'.1 h
    exact .inr ⟨_, hm⟩

/-- **The counters' layer refines the latch machine**: its latch part is a reachable state of
`MState`. -/
theorem Reachable.latch {s : CState} (hs : Reachable s) : s.m.Reachable := by
  induction hs with
  | init info hists => exact .init info _
  | step _ h ih =>
    rcases step_latch h with he | ⟨b, hb⟩
    · exact he ▸ ih
    · exact ih.step hb

end CState

/-! ## The invariant -/

/-- A latch step other than `updateMetricsOnce` keeps the epoch, the snapshots and every counter
name's entry of the gauges. -/
theorem MState.step_frame {m m' : MState} {a : MAct} (h : m.step a = some m')
    (ha : a.isUpdate = false) : m'.epoch = m.epoch ∧
      m'.snapshots = m.snapshots ∧ ∀ name ∈ counterNames, m'.gauges name = m.gauges name := by
  cases a with
  | update mem cpu iv => cases ha
  | hub | rlock => cases h; exact ⟨rfl, rfl, fun _ _ => rfl⟩
  | latch i goroutines now =>
    simp only [MState.step] at h
    split at h
    · cases h
      split
      · exact ⟨rfl, rfl, fun _ _ => rfl⟩
      · exact ⟨rfl, rfl, fun name hn => latchGauges_of_not_mem (not_mem_gaugeNames hn) _ _ _ _⟩
    · cases h
  | copy i | runlock i =>
    simp only [MState.step] at h
    split at h <;> cases h
    exact ⟨rfl, rfl, fun _ _ => rfl⟩

namespace CState

/-- The registry and the snapshots against the log of increments. -/
structure CInv (s : CState) : Prop where
  latch : s.m.Inv
  epochs : ∀ p ∈ s.incs, p.2 ≤ s.m.epoch
  value : ∀ name, (s.counters name).value = incsOf s.incs name
  last : ∀ name, (s.counters name).last = incsBefore s.incs name s.m.epoch
  delta : ∀ name, (s.counters name).delta = intervalOf s.incs name s.m.epoch
  snapshots : ∀ e x, s.m.snapshots[e]? = some x →
    ∀ name ∈ counterNames, x name = some (intervalOf s.incs name e : Int)
  gauges : ∀ name ∈ counterNames, s.m.gauges name = none

/-- The snapshot built from rotated counters `cs` carries their interval values. -/
theorem snapshot_counter {cs : Counters} {hists : HistValues} {gauges : MetricsMap}
    {name : String} (hn : name ∈ counterNames) (hg : gauges name = none) :
    getSnapshotMetrics (intervalValues cs hists) gauges name = some ((cs name).delta : Int) := by
  simp [getSnapshotMetrics, intervalValues, Counters.loadIntervalValues, hg, hn,
    hists.not_counter name hn]

theorem cinv_init (info : NodeInfo) (hists : HistValues) : (init info hists).CInv where
  latch := MState.inv_init info _
  epochs := by simp [init]
  value _ := rfl
  last _ := rfl
  delta _ := rfl
  snapshots e x hx name hn := by
    obtain ⟨rfl, rfl⟩ : e = 0 ∧ getSnapshotMetrics _ _ = x := by
      simpa [init, MState.init, List.getElem?_cons] using hx
    exact snapshot_counter hn (by simp [MState.init, not_mem_gaugeNames hn])
  gauges name hn := by simp [init, MState.init, not_mem_gaugeNames hn]

theorem CInv.inc {s : CState} (hi : s.CInv) (name : String) :
    ({ s with counters := s.counters.inc name, incs := s.incs ++ [(name, s.m.epoch)] }).CInv where
  latch := hi.latch
  epochs p hp := by
    rcases List.mem_append.1 hp with hp | hp
    · exact hi.epochs p hp
    · simp only [List.mem_singleton] at hp
      simp [hp]
  value name' := by
    rw [incsOf_concat, ← hi.value name']
    by_cases h : name = name'
    · subst h
      simp [Counters.inc, Counter.inc]
    · simp [Counters.inc, Function.update_apply, Ne.symm h, h]
  last name' := by
    rw [incsBefore_concat, ← hi.last name']
    by_cases h : name' = name <;> simp [Counters.inc, Function.update_apply, Counter.inc, h]
  delta name' := by
    rw [intervalOf_concat_of_le _ le_rfl, ← hi.delta name']
    by_cases h : name' = name <;> simp [Counters.inc, Function.update_apply, Counter.inc, h]
  snapshots e x hx name' hn := by
    have he : e ≤ s.m.epoch := by
      have := (List.getElem?_eq_some_iff.1 hx).1
      rw [hi.latch.snapshots_length] at this
      omega
    rw [intervalOf_concat_of_le _ he]
    exact hi.snapshots e x hx name' hn
  gauges := hi.gauges

theorem CInv.latchStep {s : CState} (hi : s.CInv) {a : MAct} {m : MState}
    (h : s.m.step a = some m) (ha : a.isUpdate = false) : ({ s with m := m }).CInv := by
  obtain ⟨he, hsn, hg⟩ := MState.step_frame h ha
  exact ⟨hi.latch.step h, he ▸ hi.epochs, hi.value, he ▸ hi.last, he ▸ hi.delta,
    hsn ▸ hi.snapshots, fun name hn => (hg name hn).trans (hi.gauges name hn)⟩

theorem CInv.update {s : CState} (hi : s.CInv) {mem : MemStats} {cpu : Option Int}
    {hists : HistValues} {m : MState}
    (h : s.m.step (.update mem cpu (intervalValues s.counters.updateDelta hists)) = some m) :
    ({ s with m := m, counters := s.counters.updateDelta }).CInv := by
  simp only [MState.step] at h
  split_ifs at h
  cases h
  have hall : ∀ name, incsOf s.incs name = incsBefore s.incs name (s.m.epoch + 1) :=
    incsOf_eq_incsBefore hi.epochs
  have hdelta : ∀ name, (s.counters.updateDelta name).delta = incsIn s.incs name s.m.epoch :=
    fun name => by
      simp only [Counters.updateDelta, Counter.updateDelta, hi.value, hi.last, hall,
        incsBefore_succ]
      omega
  have hgauges : ∀ name ∈ counterNames, memGauges s.m.gauges mem cpu name = none :=
    fun name hn => (memGauges_of_not_mem (not_mem_gaugeNames hn) _ _ _).trans (hi.gauges name hn)
  refine ⟨hi.latch.updateMetricsOnce ‹_› mem cpu _, fun p hp => Nat.le_succ_of_le (hi.epochs p hp),
    hi.value, fun name => (hi.value name).trans (hall name), hdelta,
    forall_getElem?_concat (P := fun e (x : MetricsMap) => ∀ name ∈ counterNames,
      x name = some (intervalOf s.incs name e : Int)) (fun name hn => ?_) hi.snapshots, hgauges⟩
  rw [hi.latch.snapshots_length, snapshot_counter hn (hgauges name hn), hdelta]
  rfl

theorem CInv.step {s s' : CState} (hi : s.CInv) {a : CAct} (h : s.step a = some s') : s'.CInv := by
  cases a with
  | inc name =>
    simp only [CState.step] at h
    split_ifs at h
    cases h
    exact hi.inc name
  | latch a =>
    simp only [CState.step] at h
    split_ifs at h with hu
    obtain ⟨m, hm, rfl⟩ := Option.map_eq_some'.1 h
    exact hi.latchStep hm (Bool.eq_false_iff.2 hu)
  | update mem cpu hists =>
    obtain ⟨m, hm, rfl⟩ := Option.map_eq_some'.1 h
    exact hi.update hm

theorem Reachable.cinv {s : CState} (hs : Reachable s) : s.CInv := by
  induction hs with
  | init info hists => exact cinv_init info hists
  | step _ h ih => exact ih.step h

/-- **What the counters' snapshots and totals count.** In every reachable state, for every
registered counter: the snapshot of epoch `e + 1` carries the number of its increments in epoch
`e`, and the first snapshot `0`; every node-info record that carries metrics carries the value
of the snapshot of the epoch it latched in; and `getRawMetrics` (what `Node` reports) carries the
number of all its increments, whatever the histograms read. -/
theorem snapshot_counters {s : CState} (hs : Reachable s) {name : String}
    (hn : name ∈ counterNames) :
    (∀ e x, s.m.snapshots[e]? = some x → x name = some (intervalOf s.incs name e : Int)) ∧
      (∀ r ∈ s.m.records, ∀ x, r.node.metrics = some x →
        x name = some (intervalOf s.incs name r.epoch : Int)) ∧
      ∀ hists : HistValues,
        getRawMetrics s.counters hists s.m.gauges name = some (incsOf s.incs name : Int) := by
  have hi := hs.cinv
  refine ⟨fun e x hx => hi.snapshots e x hx name hn, fun r hr x hx => ?_, fun hists => ?_⟩
  · exact hi.snapshots _ x ((hi.latch.records r hr).2.2.2 x hx) name hn
  · simp [getRawMetrics, Counters.loadValues, hi.gauges name hn, hists.not_counter name hn, hn,
      hi.value]

/-- No histogram registered. -/
def noHists : HistValues := ⟨fun _ => none, fun _ _ => rfl⟩

/-- Two publications and a join in the first epoch; the update opens the second, whose first
ping carries the snapshot. -/
def countedPings : List CAct :=
  [.inc "node_num_publication_sent", .inc "node_num_join_sent",
    .inc "node_num_publication_sent", .update ⟨0, 0, 0, 0⟩ none noHists, .latch .rlock,
    .latch (.latch 0 1 0), .latch (.copy 0), .latch (.runlock 0),
    .inc "node_num_publication_sent"]

theorem snapshot_counters_countedPings :
    ∃ s, (init MState.exampleInfo noHists).run countedPings = some s ∧
      (∀ e x, s.m.snapshots[e]? = some x →
        x "node_num_publication_sent" = some (intervalOf s.incs "node_num_publication_sent" e : Int)) ∧
      (∀ r ∈ s.m.records, ∀ x, r.node.metrics = some x →
        x "node_num_publication_sent" =
          some (intervalOf s.incs "node_num_publication_sent" r.epoch : Int)) ∧
      ∀ hists : HistValues, getRawMetrics s.counters hists s.m.gauges "node_num_publication_sent" =
        some (incsOf s.incs "node_num_publication_sent" : Int) := by
  obtain ⟨s, hs⟩ : ∃ s, (init MState.exampleInfo noHists).run countedPings = some s := ⟨_, rfl⟩
  exact ⟨s, hs, snapshot_counters (Reachable.run (.init _ _) hs) (by decide)⟩

end CState

end CentrifugoNode
