import CentrifugoNode.Control
import Mathlib.Algebra.Order.Ring.Nat
import Mathlib.Data.List.Nodup
import Mathlib.Data.List.Perm.Subperm

/-!
# The metrics latch

`pubNode` copies the metrics snapshot into the node-info record it builds only when
`metricsOnce.Do` runs its function, and it calls `Do` under the read lock of `metricsMu`;
`updateMetricsOnce` rebuilds the snapshot and resets `metricsOnce` under the write lock. An
`MState` is the node's metrics together with every `pubNode` execution so far and where it is;
the write-locked part of `updateMetricsOnce` is one step, enabled when no execution holds the
read lock. Ghost fields number the snapshots (`epoch`, `snapshots`), log the latch steps
(`latches`) and keep the hub counts the last winning latch read (`lastCounts`).

* `metrics_once_latch`: in every reachable state a record carries metrics iff its execution was
  the first to latch in its epoch, and then they are its epoch's snapshot; at most one record of
  an epoch carries metrics, and once no execution holds the read lock the first to latch in an
  epoch has built one.
* `exists_run_first_built`: from every reachable state the executions in flight finish by their
  own steps, and then the first to latch in every epoch so far has built its record.
* `update_snapshot_counts`: the snapshot `updateMetricsOnce` builds carries the client and
  channel counts that the last winning latch read from the hub, whatever the hub holds when the
  snapshot is built; `update_snapshot_stale_after_run` is a run of `Run` where they differ.

The runs are those of any interleaving of these steps from `New`, so they include runs that
`Run` excludes, such as an update before `Run`'s own `pubNode`; the invariants hold of all.
-/

namespace CentrifugoNode

/-! ## The registry -/

/-- The gauges `init` registers; each reads `0` until it is set. -/
def gaugeNames : List String :=
  ["node_memory_sys", "node_memory_heap_sys", "node_memory_heap_alloc",
    "node_memory_stack_inuse", "node_cpu_usage", "node_num_goroutine", "node_num_clients",
    "node_num_unique_clients", "node_num_channels", "node_uptime_seconds"]

/-- `Gauges.Set` on a registered gauge. -/
def setGauge (gauges : MetricsMap) (name : String) (v : Int) : MetricsMap :=
  Function.update gauges name (some v)

theorem setGauge_apply_of_ne {gauges : MetricsMap} {name name' : String} (v : Int)
    (h : name' ≠ name) : setGauge gauges name v name' = gauges name' :=
  Function.update_noteq h _ _

@[simp]
theorem setGauge_apply_self (gauges : MetricsMap) (name : String) (v : Int) :
    setGauge gauges name v name = some v :=
  Function.update_same _ _ _

/-- `getSnapshotMetrics`: the counters' interval values and the histograms (`intervals`), then
the gauges, a later entry overriding an earlier one. -/
def getSnapshotMetrics (intervals gauges : MetricsMap) : MetricsMap :=
  fun name => (gauges name).or (intervals name)

/-- What the hub reports: `NumClients`, `NumUniqueClients` and `NumChannels`. -/
structure HubCounts where
  numClients : Nat
  numUniqueClients : Nat
  numChannels : Nat
  deriving DecidableEq, Repr

/-- The fields of `runtime.MemStats` that `updateMetricsOnce` reads. -/
structure MemStats where
  sys : Int
  heapSys : Int
  heapAlloc : Int
  stackInuse : Int
  deriving DecidableEq, Repr

/-- The gauges the function of `metricsOnce.Do` sets: the hub's counts, the goroutines and the
uptime. -/
def latchGauges (gauges : MetricsMap) (hub : HubCounts) (goroutines uptime : Int) : MetricsMap :=
  let g := setGauge gauges "node_num_clients" hub.numClients
  let g := setGauge g "node_num_unique_clients" hub.numUniqueClients
  let g := setGauge g "node_num_channels" hub.numChannels
  let g := setGauge g "node_num_goroutine" goroutines
  setGauge g "node_uptime_seconds" uptime

/-- The gauges `updateMetricsOnce` sets first; `cpu` is `none` when `cpuUsage` fails. -/
def memGauges (gauges : MetricsMap) (mem : MemStats) (cpu : Option Int) : MetricsMap :=
  let g := setGauge gauges "node_memory_sys" mem.sys
  let g := setGauge g "node_memory_heap_sys" mem.heapSys
  let g := setGauge g "node_memory_heap_alloc" mem.heapAlloc
  let g := setGauge g "node_memory_stack_inuse" mem.stackInuse
  match cpu with
  | some usage => setGauge g "node_cpu_usage" usage
  | none => g

/-- The gauges carrying the hub's counts. -/
def countGauges (gauges : MetricsMap) (hub : HubCounts) : Prop :=
  gauges "node_num_clients" = some hub.numClients ∧
    gauges "node_num_unique_clients" = some hub.numUniqueClients ∧
    gauges "node_num_channels" = some hub.numChannels

theorem countGauges_latchGauges (gauges : MetricsMap) (hub : HubCounts) (goroutines uptime : Int) :
    countGauges (latchGauges gauges hub goroutines uptime) hub := by
  simp [countGauges, latchGauges, setGauge, Function.update_apply]

theorem countGauges_memGauges {gauges : MetricsMap} {hub : HubCounts} (h : countGauges gauges hub)
    (mem : MemStats) (cpu : Option Int) : countGauges (memGauges gauges mem cpu) hub := by
  cases cpu <;> simpa [countGauges, memGauges, setGauge, Function.update_apply] using h

/-! ## Processes by number -/

/-- A property of every process survives moving process `i` to a phase that has it. -/
theorem forall_getElem?_set {α : Type} {P : Nat → α → Prop} {l : List α} {i : Nat} {q : α}
    (hq : P i q) (h : ∀ j p, j ≠ i → l[j]? = some p → P j p) :
    ∀ j p, (l.set i q)[j]? = some p → P j p := by
  intro j p hj
  rcases eq_or_ne i j with rfl | hij
  · have hlt : i < (l.set i q).length := (List.getElem?_eq_some_iff.1 hj).1
    rw [List.getElem?_set_self (by simpa using hlt)] at hj
    cases hj
    exact hq
  · rw [List.getElem?_set_ne hij] at hj
    exact h j p (Ne.symm hij) hj

/-- A property of every process survives starting a new one that has it. -/
theorem forall_getElem?_concat {α : Type} {P : Nat → α → Prop} {l : List α} {q : α}
    (hq : P l.length q) (h : ∀ j p, l[j]? = some p → P j p) :
    ∀ j p, (l ++ [q])[j]? = some p → P j p := by
  intro j p hj
  rcases Nat.lt_or_ge j l.length with hlt | hge
  · rw [List.getElem?_append_left hlt] at hj
    exact h j p hj
  · rw [List.getElem?_append_right hge] at hj
    obtain ⟨hlt, rfl⟩ := List.getElem?_eq_some_iff.1 hj
    obtain rfl : j = l.length := by simp at hlt; omega
    simpa using hq

/-- Setting one entry to one of smaller charge lowers the total charge. -/
theorem sum_map_set_lt {α : Type} {f : α → Nat} :
    ∀ {l : List α} {k : Nat} {p q : α}, l[k]? = some p → f q < f p →
      ((l.set k q).map f).sum < (l.map f).sum
  | a :: l, 0, p, q, hk, h => by
    obtain rfl : a = p := Option.some.inj (List.getElem?_cons_zero.symm.trans hk)
    simp only [List.set_cons_zero, List.map_cons, List.sum_cons]
    omega
  | a :: l, k + 1, p, q, hk, h => by
    have := sum_map_set_lt (List.getElem?_cons_succ.symm.trans hk) h
    simp only [List.set_cons_succ, List.map_cons, List.sum_cons]
    omega

/-! ## The state machine -/

/-- Where one `pubNode` execution is. -/
inductive PubPhase
  /-- It holds the read lock of `metricsMu` and has not reached `metricsOnce.Do`. -/
  | locked
  /-- It runs the function of `metricsOnce.Do`: the gauges are set, the snapshot not yet
  copied. -/
  | inDo
  /-- Past `metricsOnce.Do`, still holding the read lock, with the record's `Metrics`. -/
  | done (metrics : Option MetricsMap)
  /-- The read lock is released and the record built. -/
  | released

/-- The execution holds the read lock of `metricsMu`. -/
def PubPhase.holdsLock : PubPhase → Bool
  | .released => false
  | _ => true

/-- A node-info record `pubNode` built, with the execution that built it and the epoch it
latched in. -/
structure NodeRecord where
  pub : Nat
  epoch : Nat
  node : NodeInfo

/-- The node's metrics and every `pubNode` execution so far, by number. `info` holds the fields
`pubNode` copies into every record; `epoch`, `snapshots`, `latches` and `lastCounts` are ghost. -/
structure MState where
  info : NodeInfo
  hub : HubCounts
  gauges : MetricsMap
  snapshot : MetricsMap
  onceDone : Bool
  pubs : List PubPhase
  records : List NodeRecord
  epoch : Nat
  snapshots : List MetricsMap
  latches : List (Nat × Nat)
  lastCounts : HubCounts

/-- One step of one goroutine. -/
inductive MAct
  /-- The hub's counts change: a connection or a subscription comes or goes. -/
  | hub (counts : HubCounts)
  /-- A new execution of `pubNode` takes the read lock. -/
  | rlock
  /-- Execution `i` calls `metricsOnce.Do`, with `goroutines` goroutines at Unix time `now`. -/
  | latch (i : Nat) (goroutines now : Int)
  /-- Execution `i`, inside the function of `Do`, copies the snapshot. -/
  | copy (i : Nat)
  /-- Execution `i` releases the read lock and builds its record. -/
  | runlock (i : Nat)
  /-- `updateMetricsOnce`: its gauge writes, which touch other gauges than the latch's, and its
  write-locked part; `intervals` are the counters' interval values and the histograms. -/
  | update (mem : MemStats) (cpu : Option Int) (intervals : MetricsMap)

namespace MState

/-- `New`: every gauge at `0` and the first snapshot, nothing latched. -/
def init (info : NodeInfo) (intervals : MetricsMap) : MState :=
  let gauges : MetricsMap := fun name => if name ∈ gaugeNames then some 0 else none
  { info := info, hub := ⟨0, 0, 0⟩, gauges := gauges,
    snapshot := getSnapshotMetrics intervals gauges, onceDone := false, pubs := [], records := [],
    epoch := 0, snapshots := [getSnapshotMetrics intervals gauges], latches := [],
    lastCounts := ⟨0, 0, 0⟩ }

/-- `metricsOnce.Do` by execution `i` when the latch is already down: no function runs and the
record's `Metrics` stays nil. -/
def latchAgain (s : MState) (i : Nat) : MState :=
  { s with pubs := s.pubs.set i (.done none), latches := s.latches ++ [(i, s.epoch)] }

/-- `metricsOnce.Do` by execution `i` when it is the first in the epoch: the latch goes down and
its function sets the gauges from the hub, the goroutines and the uptime. -/
def latchFirst (s : MState) (i : Nat) (goroutines now : Int) : MState :=
  { s with
    onceDone := true, pubs := s.pubs.set i .inDo, latches := s.latches ++ [(i, s.epoch)],
    gauges := latchGauges s.gauges s.hub goroutines (now - s.info.startedAt),
    lastCounts := s.hub }

/-- The function of `Do` copies the snapshot into execution `i`'s record. -/
def copySnapshot (s : MState) (i : Nat) : MState :=
  { s with pubs := s.pubs.set i (.done (some s.snapshot)) }

/-- Execution `i` releases the read lock and builds its record with `Metrics` `m`. -/
def release (s : MState) (i : Nat) (m : Option MetricsMap) : MState :=
  { s with
    pubs := s.pubs.set i .released,
    records := s.records ++ [⟨i, s.epoch, { s.info with metrics := m }⟩] }

/-- `updateMetricsOnce`: the memory and cpu gauges, then under the write lock a new snapshot
and a fresh `metricsOnce`. -/
def updateMetricsOnce (s : MState) (mem : MemStats) (cpu : Option Int) (intervals : MetricsMap) :
    MState :=
  let gauges := memGauges s.gauges mem cpu
  { s with
    gauges := gauges, snapshot := getSnapshotMetrics intervals gauges, onceDone := false,
    epoch := s.epoch + 1, snapshots := s.snapshots ++ [getSnapshotMetrics intervals gauges] }

/-- One step; `none` when it is not enabled. A second `Do` returns at once where Go would wait
for the first to finish: its record is the same. -/
def step (s : MState) : MAct → Option MState
  | .hub counts => some { s with hub := counts }
  | .rlock => some { s with pubs := s.pubs ++ [.locked] }
  | .latch i goroutines now =>
    match s.pubs[i]? with
    | some .locked => some (if s.onceDone then s.latchAgain i else s.latchFirst i goroutines now)
    | _ => none
  | .copy i =>
    match s.pubs[i]? with
    | some .inDo => some (s.copySnapshot i)
    | _ => none
  | .runlock i =>
    match s.pubs[i]? with
    | some (.done m) => some (s.release i m)
    | _ => none
  | .update mem cpu intervals =>
    if s.pubs.all (!·.holdsLock) then some (s.updateMetricsOnce mem cpu intervals) else none

/-- The steps of a schedule, one after the other. -/
def run (s : MState) : List MAct → Option MState
  | [] => some s
  | a :: as => (s.step a).bind (run · as)

/-- The states a run from `New` reaches, in any interleaving: these include runs that `Run`
excludes, such as an update before `Run`'s own `pubNode`. -/
inductive Reachable : MState → Prop
  | init (info : NodeInfo) (intervals : MetricsMap) : Reachable (init info intervals)
  | step {s s' : MState} {a : MAct} : Reachable s → s.step a = some s' → Reachable s'

theorem Reachable.run {s s' : MState} {acts : List MAct} (hs : Reachable s)
    (h : s.run acts = some s') : Reachable s' := by
  induction acts generalizing s with
  | nil => cases h; exact hs
  | cons a as ih =>
    obtain ⟨t, ht, hrun⟩ := Option.bind_eq_some.1 h
    exact ih (hs.step ht) hrun

/-- No execution holds the read lock. -/
def Idle (s : MState) : Prop := s.pubs.all (!·.holdsLock) = true

end MState

/-! ## The latch log -/

/-- The execution whose latch step came first in epoch `e`. -/
def firstLatch (latches : List (Nat × Nat)) (e : Nat) : Option Nat :=
  (latches.find? (·.2 == e)).map (·.1)

theorem mem_of_firstLatch {l : List (Nat × Nat)} {e i : Nat} (h : firstLatch l e = some i) :
    (i, e) ∈ l := by
  obtain ⟨p, hp, rfl⟩ := Option.map_eq_some'.1 h
  have he : p.2 = e := by simpa using List.find?_some hp
  exact he ▸ List.mem_of_find?_eq_some hp

theorem firstLatch_isSome {l : List (Nat × Nat)} {i e : Nat} (h : (i, e) ∈ l) :
    (firstLatch l e).isSome := by
  cases hf : l.find? (·.2 == e) with
  | none => exact absurd h (by simpa using List.find?_eq_none.1 hf (i, e))
  | some p => simp [firstLatch, hf]

theorem firstLatch_append {l : List (Nat × Nat)} {e : Nat} (h : (firstLatch l e).isSome)
    (l' : List (Nat × Nat)) : firstLatch (l ++ l') e = firstLatch l e := by
  cases hf : l.find? (·.2 == e) with
  | none => simp [firstLatch, hf] at h
  | some p => simp [firstLatch, hf]

theorem firstLatch_append_ne {l : List (Nat × Nat)} {i e' e : Nat} (h : e' ≠ e) :
    firstLatch (l ++ [(i, e')]) e = firstLatch l e := by
  simp [firstLatch, h]

theorem firstLatch_append_of_none {l : List (Nat × Nat)} {i e : Nat} (h : firstLatch l e = none) :
    firstLatch (l ++ [(i, e)]) e = some i := by
  rw [firstLatch, Option.map_eq_none'] at h
  simp [firstLatch, h]

theorem firstLatch_eq_none {l : List (Nat × Nat)} {e : Nat} (h : ∀ p ∈ l, p.2 < e) :
    firstLatch l e = none := by
  simp only [firstLatch, Option.map_eq_none', List.find?_eq_none, beq_iff_eq]
  exact fun p hp => Nat.ne_of_lt (h p hp)

/-! ## The invariant -/

namespace MState

/-- What each phase of execution `i` says about the latch log and the records. -/
def PubOk (s : MState) (i : Nat) : PubPhase → Prop
  | .locked => ∀ e, (i, e) ∉ s.latches
  | .inDo => firstLatch s.latches s.epoch = some i
  | .done m => (i, s.epoch) ∈ s.latches ∧ (m.isSome ↔ firstLatch s.latches s.epoch = some i) ∧
      ∀ x, m = some x → x = s.snapshot
  | .released => ∃ r ∈ s.records, r.pub = i

/-- A record carries metrics iff its execution latched first in its epoch, and they are that
epoch's snapshot. -/
def RecordOk (s : MState) (r : NodeRecord) : Prop :=
  (r.pub, r.epoch) ∈ s.latches ∧ (s.pubs[r.pub]?).map PubPhase.holdsLock = some false ∧
    (r.node.metrics.isSome ↔ firstLatch s.latches r.epoch = some r.pub) ∧
    ∀ x, r.node.metrics = some x → s.snapshots[r.epoch]? = some x

/-- The invariant of the reachable states. -/
structure Inv (s : MState) : Prop where
  snapshots_length : s.snapshots.length = s.epoch + 1
  snapshot : s.snapshots[s.epoch]? = some s.snapshot
  latch_le : ∀ p ∈ s.latches, p.2 ≤ s.epoch
  latch_lt : ∀ p ∈ s.latches, p.1 < s.pubs.length
  latch_once : ∀ i e e', (i, e) ∈ s.latches → (i, e') ∈ s.latches → e = e'
  once : s.onceDone = (firstLatch s.latches s.epoch).isSome
  pubs : ∀ i p, s.pubs[i]? = some p → s.PubOk i p
  records : ∀ r ∈ s.records, s.RecordOk r
  records_nodup : (s.records.map (·.pub)).Nodup
  gauges : countGauges s.gauges s.lastCounts

theorem inv_init (info : NodeInfo) (intervals : MetricsMap) : (init info intervals).Inv where
  snapshots_length := rfl
  snapshot := rfl
  latch_le := by simp [init]
  latch_lt := by simp [init]
  latch_once := by simp [init]
  once := rfl
  pubs := by simp [init]
  records := by simp [init]
  records_nodup := List.nodup_nil
  gauges := by simp [init, countGauges, gaugeNames]

/-! ## Frames -/

/-- What an execution's phase says survives a step that keeps the epoch and the snapshot, only
appends to the latch log and the records, and appends no latch of the execution. -/
theorem PubOk.frame {s s' : MState} {j : Nat} {p : PubPhase} (h : s.PubOk j p)
    (he : s'.epoch = s.epoch) (hsnap : s'.snapshot = s.snapshot) (l : List (Nat × Nat))
    (hl : s'.latches = s.latches ++ l) (hj : ∀ e, (j, e) ∉ l)
    (hr : ∀ r ∈ s.records, r ∈ s'.records) : s'.PubOk j p := by
  cases p with
  | locked =>
    intro e he'
    rw [hl, List.mem_append] at he'
    exact he'.elim (h e) (hj e)
  | inDo =>
    have h : firstLatch s.latches s.epoch = some j := h
    show firstLatch _ _ = _
    rw [hl, he, firstLatch_append (by simp [h]) l, h]
  | done m =>
    obtain ⟨hmem, hiff, hx⟩ := h
    refine ⟨hl ▸ he ▸ List.mem_append_left l hmem, ?_, hsnap ▸ hx⟩
    rw [hl, he, firstLatch_append (firstLatch_isSome hmem) l]
    exact hiff
  | released =>
    obtain ⟨r, hr', rfl⟩ := h
    exact ⟨r, hr r hr', rfl⟩

/-- What a record says survives a step that only appends to the latch log and keeps the
record's execution and snapshot. -/
theorem RecordOk.frame {s s' : MState} {r : NodeRecord} (h : s.RecordOk r) (l : List (Nat × Nat))
    (hl : s'.latches = s.latches ++ l) (hp : s'.pubs[r.pub]? = s.pubs[r.pub]?)
    (hs : s'.snapshots[r.epoch]? = s.snapshots[r.epoch]?) : s'.RecordOk r := by
  obtain ⟨hmem, hpub, hiff, hx⟩ := h
  refine ⟨hl ▸ List.mem_append_left l hmem, hp ▸ hpub, ?_, hs ▸ hx⟩
  rw [hl, firstLatch_append (firstLatch_isSome hmem) l]
  exact hiff

theorem RecordOk.pub_lt {s : MState} {r : NodeRecord} (h : s.RecordOk r) :
    r.pub < s.pubs.length := by
  obtain ⟨p, hp, -⟩ := Option.map_eq_some'.1 h.2.1
  exact (List.getElem?_eq_some_iff.1 hp).1

/-- A record's execution has released the lock, so it is no execution that holds it. -/
theorem RecordOk.pub_ne {s : MState} {r : NodeRecord} (h : s.RecordOk r) {i : Nat} {q : PubPhase}
    (hi : s.pubs[i]? = some q) (hq : q.holdsLock = true) : r.pub ≠ i := by
  rintro rfl
  have := h.2.1
  rw [hi, Option.map_some', hq] at this
  cases this

theorem records_set {s t : MState} {i : Nat} {q q' : PubPhase} (hi : s.Inv)
    (hl : s.pubs[i]? = some q) (hq : q.holdsLock = true) (hpubs : t.pubs = s.pubs.set i q')
    (l : List (Nat × Nat)) (hlat : t.latches = s.latches ++ l) (hs : t.snapshots = s.snapshots) :
    ∀ r ∈ s.records, t.RecordOk r := fun r hr =>
  (hi.records r hr).frame l hlat
    (by rw [hpubs, List.getElem?_set_ne (Ne.symm ((hi.records r hr).pub_ne hl hq))]) (by rw [hs])

/-! ## Each step keeps the invariant -/

/-- The latch log after execution `i`, which holds the lock and has not latched, latches. -/
theorem Inv.latch_log {s : MState} (hi : s.Inv) {i : Nat} (hl : s.pubs[i]? = some .locked) :
    (∀ p ∈ s.latches ++ [(i, s.epoch)], p.2 ≤ s.epoch) ∧
      (∀ p ∈ s.latches ++ [(i, s.epoch)], p.1 < s.pubs.length) ∧
      ∀ j e e', (j, e) ∈ s.latches ++ [(i, s.epoch)] → (j, e') ∈ s.latches ++ [(i, s.epoch)] →
        e = e' := by
  have hnot : ∀ e, (i, e) ∉ s.latches := hi.pubs i _ hl
  have hlt : i < s.pubs.length := (List.getElem?_eq_some_iff.1 hl).1
  refine ⟨fun p hp => ?_, fun p hp => ?_, fun j e e' he he' => ?_⟩
  · rcases List.mem_append.1 hp with hp | hp
    · exact hi.latch_le p hp
    · simp_all
  · rcases List.mem_append.1 hp with hp | hp
    · exact hi.latch_lt p hp
    · simp_all
  · simp only [List.mem_append, List.mem_singleton, Prod.mk.injEq] at he he'
    rcases he with he | ⟨rfl, rfl⟩ <;> rcases he' with he' | ⟨h1, rfl⟩
    · exact hi.latch_once j e e' he he'
    · exact absurd (h1 ▸ he) (hnot e)
    · exact absurd he' (hnot e')
    · rfl

theorem Inv.latchAgain {s : MState} (hi : s.Inv) {i : Nat} (hl : s.pubs[i]? = some .locked)
    (ho : s.onceDone = true) : (s.latchAgain i).Inv := by
  have hnot : ∀ e, (i, e) ∉ s.latches := hi.pubs i _ hl
  obtain ⟨w, hw⟩ := Option.isSome_iff_exists.1 (hi.once ▸ ho)
  have hfirst : firstLatch (s.latches ++ [(i, s.epoch)]) s.epoch = some w :=
    (firstLatch_append (by simp [hw]) _).trans hw
  obtain ⟨hle, hlt, honce⟩ := hi.latch_log hl
  refine ⟨hi.snapshots_length, hi.snapshot, hle, by simpa [MState.latchAgain] using hlt, honce,
    by simp [MState.latchAgain, ho, hfirst], ?_, records_set (s := s) hi hl rfl rfl _ rfl rfl,
    hi.records_nodup, hi.gauges⟩
  refine forall_getElem?_set ⟨by simp [MState.latchAgain], ?_, by simp⟩ fun j p hj hp =>
    (hi.pubs j p hp).frame rfl rfl _ rfl (by simp [hj]) fun _ h => h
  simp only [MState.latchAgain, hfirst, Option.isSome_none, Bool.false_eq_true, false_iff,
    Option.some.injEq]
  rintro rfl
  exact hnot _ (mem_of_firstLatch hw)

theorem Inv.latchFirst {s : MState} (hi : s.Inv) {i : Nat} (hl : s.pubs[i]? = some .locked)
    (ho : s.onceDone = false) (goroutines now : Int) : (s.latchFirst i goroutines now).Inv := by
  have hnone : firstLatch s.latches s.epoch = none := by
    simpa [ho, eq_comm (a := false)] using hi.once
  obtain ⟨hle, hlt, honce⟩ := hi.latch_log hl
  refine ⟨hi.snapshots_length, hi.snapshot, hle, by simpa [MState.latchFirst] using hlt, honce,
    by simp [MState.latchFirst, firstLatch_append_of_none hnone], ?_,
    records_set (s := s) hi hl rfl rfl _ rfl rfl, hi.records_nodup, countGauges_latchGauges _ _ _ _⟩
  refine forall_getElem?_set (firstLatch_append_of_none hnone) fun j p hj hp =>
    (hi.pubs j p hp).frame rfl rfl _ rfl (by simp [hj]) fun _ h => h

theorem Inv.copySnapshot {s : MState} (hi : s.Inv) {i : Nat} (hl : s.pubs[i]? = some .inDo) :
    (s.copySnapshot i).Inv := by
  have hw : firstLatch s.latches s.epoch = some i := hi.pubs i _ hl
  refine ⟨hi.snapshots_length, hi.snapshot, hi.latch_le, by simpa [MState.copySnapshot] using
    hi.latch_lt, hi.latch_once, hi.once, ?_,
    records_set (s := s) hi hl rfl rfl [] (by simp [MState.copySnapshot]) rfl,
    hi.records_nodup, hi.gauges⟩
  exact forall_getElem?_set ⟨mem_of_firstLatch hw, by simp [MState.copySnapshot, hw],
    by simp [MState.copySnapshot]⟩ fun j p _ hp =>
      (hi.pubs j p hp).frame rfl rfl [] (by simp [MState.copySnapshot]) (by simp) fun _ h => h

theorem Inv.release {s : MState} (hi : s.Inv) {i : Nat} {m : Option MetricsMap}
    (hl : s.pubs[i]? = some (.done m)) : (s.release i m).Inv := by
  obtain ⟨hmem, hiff, hx⟩ : s.PubOk i (.done m) := hi.pubs i _ hl
  have hlt : i < s.pubs.length := (List.getElem?_eq_some_iff.1 hl).1
  have hnew : (s.release i m).RecordOk ⟨i, s.epoch, { s.info with metrics := m }⟩ :=
    ⟨hmem, by simp [MState.release, hlt, PubPhase.holdsLock], hiff, fun x h =>
      hi.snapshot.trans (congrArg some (hx x h).symm)⟩
  refine ⟨hi.snapshots_length, hi.snapshot, hi.latch_le, by simpa [MState.release] using
    hi.latch_lt, hi.latch_once, hi.once, ?_, ?_, ?_, hi.gauges⟩
  · exact forall_getElem?_set ⟨_, List.mem_append_right _ (List.mem_singleton_self _), rfl⟩
      fun j p _ hp => (hi.pubs j p hp).frame rfl rfl [] (by simp [MState.release]) (by simp)
        fun _ h => List.mem_append_left _ h
  · intro r hr
    rcases List.mem_append.1 hr with hr | hr
    · exact records_set (s := s) (t := s.release i m) hi hl rfl rfl [] (by simp [MState.release])
        rfl r hr
    · exact (List.mem_singleton.1 hr) ▸ hnew
  · simp only [MState.release, List.map_append, List.map_cons, List.map_nil]
    refine hi.records_nodup.append (List.nodup_singleton _) fun p hp hp' => ?_
    obtain ⟨r, hr, rfl⟩ := List.mem_map.1 hp
    exact (hi.records r hr).pub_ne hl rfl (List.mem_singleton.1 hp')

theorem Inv.updateMetricsOnce {s : MState} (hi : s.Inv) (hg : s.pubs.all (!·.holdsLock) = true)
    (mem : MemStats) (cpu : Option Int) (intervals : MetricsMap) :
    (s.updateMetricsOnce mem cpu intervals).Inv where
  snapshots_length := by simp [MState.updateMetricsOnce, hi.snapshots_length]
  snapshot := by
    simp only [MState.updateMetricsOnce, ← hi.snapshots_length]
    exact List.getElem?_concat_length _ _
  latch_le p hp := Nat.le_succ_of_le (hi.latch_le p hp)
  latch_lt := hi.latch_lt
  latch_once := hi.latch_once
  once := (congrArg Option.isSome (firstLatch_eq_none fun p hp =>
    Nat.lt_succ_of_le (hi.latch_le p hp))).symm
  pubs j p hp := by
    have hrel : p.holdsLock = false := by
      simpa using List.all_eq_true.1 hg p (List.getElem?_mem hp)
    cases p <;> simp only [PubPhase.holdsLock, reduceCtorEq] at hrel
    exact hi.pubs j _ hp
  records r hr := (hi.records r hr).frame [] (by simp [MState.updateMetricsOnce]) rfl
    (List.getElem?_append_left (hi.snapshots_length ▸
      Nat.lt_succ_of_le (hi.latch_le _ (hi.records r hr).1)))
  records_nodup := hi.records_nodup
  gauges := countGauges_memGauges hi.gauges mem cpu

theorem Inv.step {s s' : MState} (hi : s.Inv) {a : MAct} (h : s.step a = some s') : s'.Inv := by
  cases a with
  | hub c =>
    cases h
    exact ⟨hi.1, hi.2, hi.3, hi.4, hi.5, hi.6, hi.7, hi.8, hi.9, hi.10⟩
  | rlock =>
    cases h
    refine ⟨hi.1, hi.2, hi.3, fun p hp => ?_, hi.5, hi.6, fun j p hp => ?_, fun r hr => ?_, hi.9,
      hi.10⟩
    · simpa using Nat.lt_succ_of_lt (hi.latch_lt p hp)
    · exact forall_getElem?_concat (fun e he => Nat.lt_irrefl _ (hi.latch_lt _ he)) hi.pubs j p hp
    · exact (hi.records r hr).frame [] (by simp) (List.getElem?_append_left
        (hi.records r hr).pub_lt) rfl
  | latch i g now =>
    simp only [MState.step] at h
    split at h
    · rename_i hl
      cases h
      cases ho : s.onceDone
      · simpa [ho] using hi.latchFirst hl ho g now
      · simpa [ho] using hi.latchAgain hl ho
    · cases h
  | copy i =>
    simp only [MState.step] at h
    split at h
    · cases h
      exact hi.copySnapshot ‹_›
    · cases h
  | runlock i =>
    simp only [MState.step] at h
    split at h
    · cases h
      exact hi.release ‹_›
    · cases h
  | update mem cpu intervals =>
    simp only [MState.step] at h
    split at h
    · cases h
      exact hi.updateMetricsOnce ‹_› mem cpu intervals
    · cases h

theorem Reachable.inv {s : MState} (hs : Reachable s) : s.Inv := by
  induction hs with
  | init info intervals => exact inv_init info intervals
  | step _ h ih => exact ih.step h

/-! ## The latch -/

/-- What the latch promises of the records built so far. -/
structure OnceLatch (s : MState) : Prop where
  /-- A record carries metrics iff its execution was the first to latch in its epoch. -/
  metrics_iff : ∀ r ∈ s.records,
    r.node.metrics.isSome ↔ firstLatch s.latches r.epoch = some r.pub
  /-- The metrics a record carries are its epoch's snapshot. -/
  metrics_eq : ∀ r ∈ s.records, ∀ m, r.node.metrics = some m → s.snapshots[r.epoch]? = some m
  /-- At most one record of an epoch carries metrics. -/
  at_most_one : ∀ e, (s.records.filter fun r => r.epoch == e && r.node.metrics.isSome).length ≤ 1
  /-- Once no execution holds the read lock, the first to latch in an epoch has built a record
  with metrics. -/
  first_built : s.Idle → ∀ e i, firstLatch s.latches e = some i →
    ∃ r ∈ s.records, r.pub = i ∧ r.epoch = e ∧ r.node.metrics.isSome

theorem Inv.at_most_one {s : MState} (hi : s.Inv) (e : Nat) :
    (s.records.filter fun r => r.epoch == e && r.node.metrics.isSome).length ≤ 1 := by
  have hsub : (s.records.filter fun r => r.epoch == e && r.node.metrics.isSome).map (·.pub) ⊆
      (firstLatch s.latches e).toList := by
    intro i hi'
    obtain ⟨r, hr, rfl⟩ := List.mem_map.1 hi'
    obtain ⟨hrs, hre⟩ := List.mem_filter.1 hr
    obtain ⟨rfl, hm⟩ : r.epoch = e ∧ r.node.metrics.isSome := by simpa using hre
    simp [(hi.records r hrs).2.2.1.1 hm]
  have hlen := (List.subperm_of_subset
    (hi.records_nodup.sublist ((List.filter_sublist s.records).map _)) hsub).length_le
  rw [List.length_map] at hlen
  exact hlen.trans (by cases firstLatch s.latches e <;> simp)

theorem Inv.first_built {s : MState} (hi : s.Inv) (hidle : s.Idle) {e i : Nat}
    (hw : firstLatch s.latches e = some i) :
    ∃ r ∈ s.records, r.pub = i ∧ r.epoch = e ∧ r.node.metrics.isSome := by
  have hmem := mem_of_firstLatch hw
  obtain ⟨p, hp⟩ : ∃ p, s.pubs[i]? = some p :=
    ⟨_, List.getElem?_eq_getElem (hi.latch_lt _ hmem)⟩
  have hrel : p.holdsLock = false := by
    simpa using List.all_eq_true.1 hidle p (List.getElem?_mem hp)
  cases p <;> simp only [PubPhase.holdsLock, reduceCtorEq] at hrel
  obtain ⟨r, hr, rfl⟩ : s.PubOk i .released := hi.pubs _ _ hp
  have he : r.epoch = e := hi.latch_once _ _ _ (hi.records r hr).1 hmem
  exact ⟨r, hr, rfl, he, (hi.records r hr).2.2.1.2 (he ▸ hw)⟩

/-- **The metrics-once latch.** In every run of any number of `pubNode` and
`updateMetricsOnce` executions and hub changes, interleaved in any order under the read and
write locks of `metricsMu`: a record carries metrics iff its execution was the first to latch in
its epoch, and then they are that epoch's snapshot; at most one record of an epoch carries
metrics, and once no execution holds the read lock, the first to latch in an epoch has built
one. -/
theorem metrics_once_latch {s : MState} (hs : Reachable s) : OnceLatch s :=
  have hi := hs.inv
  ⟨fun r hr => (hi.records r hr).2.2.1, fun r hr => (hi.records r hr).2.2.2, hi.at_most_one,
    fun hidle _ _ hw => hi.first_built hidle hw⟩

/-- The node of the runs below. -/
def exampleInfo : NodeInfo := ⟨"A", "centrifugo", "1.0", 0, 60, none⟩

/-- Two pings: both take the read lock, both latch, the second to latch releases first. -/
def twoPings : List MAct :=
  [.rlock, .rlock, .latch 1 8 1, .latch 0 8 1, .runlock 0, .copy 1, .runlock 1]

theorem metrics_once_latch_twoPings :
    ∃ s, (init exampleInfo fun _ => none).run twoPings = some s ∧ OnceLatch s := by
  obtain ⟨s, hs⟩ : ∃ s, (init exampleInfo fun _ => none).run twoPings = some s := ⟨_, rfl⟩
  exact ⟨s, hs, metrics_once_latch ((Reachable.init _ _).run hs)⟩

/-! ## The executions in flight finish -/

/-- The steps an execution still takes to release the read lock. -/
def PubPhase.stepsLeft : PubPhase → Nat
  | .locked => 3
  | .inDo => 2
  | .done _ => 1
  | .released => 0

/-- The steps the executions in flight still take. -/
def pubsLeft (s : MState) : Nat := (s.pubs.map PubPhase.stepsLeft).sum

/-- Every step keeps the latch log, or appends to it. -/
theorem step_latches {s s' : MState} {a : MAct} (h : s.step a = some s') :
    ∃ l, s'.latches = s.latches ++ l := by
  cases a with
  | hub _ | rlock => cases h; exact ⟨[], (List.append_nil _).symm⟩
  | latch i g now =>
    simp only [step] at h
    split at h
    · cases h
      split_ifs <;> exact ⟨_, rfl⟩
    · cases h
  | copy i | runlock i | update mem cpu intervals =>
    simp only [step] at h
    split at h <;> cases h
    exact ⟨[], (List.append_nil _).symm⟩

theorem run_latches {s s' : MState} {acts : List MAct} (h : s.run acts = some s') :
    ∃ l, s'.latches = s.latches ++ l := by
  induction acts generalizing s with
  | nil => cases h; exact ⟨[], (List.append_nil _).symm⟩
  | cons a as ih =>
    obtain ⟨t, ht, hrun⟩ := Option.bind_eq_some.1 h
    obtain ⟨l, hl⟩ := step_latches ht
    obtain ⟨l', hl'⟩ := ih hrun
    exact ⟨l ++ l', by rw [hl', hl, List.append_assoc]⟩

/-- An execution holding the read lock has its next step enabled, and it lowers what is left:
its latch (at any time, with any number of goroutines), its copy or its release. -/
theorem pub_progress {s : MState} {i : Nat} {p : PubPhase} (hp : s.pubs[i]? = some p)
    (hl : p.holdsLock = true) :
    ∃ a s', (a = .latch i 0 0 ∨ a = .copy i ∨ a = .runlock i) ∧ s.step a = some s' ∧
      s'.pubsLeft < s.pubsLeft := by
  cases p with
  | locked =>
    cases ho : s.onceDone
    · exact ⟨_, s.latchFirst i 0 0, .inl rfl, by simp [step, hp, ho],
        sum_map_set_lt (f := PubPhase.stepsLeft) hp (q := .inDo) (by decide)⟩
    · exact ⟨_, s.latchAgain i, .inl rfl, by simp [step, hp, ho],
        sum_map_set_lt (f := PubPhase.stepsLeft) hp (q := .done none) (by decide)⟩
  | inDo =>
    exact ⟨_, s.copySnapshot i, .inr (.inl rfl), by simp [step, hp],
      sum_map_set_lt (f := PubPhase.stepsLeft) hp (q := .done (some s.snapshot)) Nat.one_lt_two⟩
  | done m =>
    exact ⟨_, s.release i m, .inr (.inr rfl), by simp [step, hp],
      sum_map_set_lt (f := PubPhase.stepsLeft) hp (q := .released) Nat.one_pos⟩
  | released => cases hl

/-- From every state the executions holding the read lock release it by their own steps, with
no new execution and no update. -/
theorem exists_run_idle (s : MState) :
    ∃ acts s', s.run acts = some s' ∧
      (∀ a ∈ acts, ∃ i, a = .latch i 0 0 ∨ a = .copy i ∨ a = .runlock i) ∧ s'.Idle := by
  obtain ⟨n, hn⟩ : ∃ n, s.pubsLeft = n := ⟨_, rfl⟩
  induction n using Nat.strong_induction_on generalizing s with
  | _ n ih =>
  by_cases hidle : s.Idle
  · exact ⟨[], s, rfl, fun _ h => absurd h (List.not_mem_nil _), hidle⟩
  obtain ⟨p, hpm, hl⟩ : ∃ p ∈ s.pubs, p.holdsLock = true := by
    simpa [Idle, List.all_eq_true] using hidle
  obtain ⟨i, hp⟩ := List.getElem?_of_mem hpm
  obtain ⟨a, t, ha, hst, hlt⟩ := pub_progress hp hl
  obtain ⟨acts, s', hrun, hall, hidle'⟩ := ih _ (hn ▸ hlt) t rfl
  exact ⟨a :: acts, s', by simp only [run, hst, Option.some_bind, hrun],
    List.forall_mem_cons.2 ⟨⟨i, ha⟩, hall⟩, hidle'⟩

/-- **The executions in flight finish.** From every reachable state the `pubNode` executions
holding the read lock go on by their own steps, with no new execution and no update, until
none holds it; then the first to latch in every epoch so far has built its record, with
metrics. -/
theorem exists_run_first_built {s : MState} (hs : Reachable s) :
    ∃ acts s', s.run acts = some s' ∧
      (∀ a ∈ acts, ∃ i, a = .latch i 0 0 ∨ a = .copy i ∨ a = .runlock i) ∧ s'.Idle ∧
      ∀ e i, firstLatch s.latches e = some i →
        ∃ r ∈ s'.records, r.pub = i ∧ r.epoch = e ∧ r.node.metrics.isSome := by
  obtain ⟨acts, s', hrun, hall, hidle⟩ := exists_run_idle s
  obtain ⟨l, hl⟩ := run_latches hrun
  refine ⟨acts, s', hrun, hall, hidle, fun e i hw => (hs.run hrun).inv.first_built hidle ?_⟩
  rw [hl, firstLatch_append (by simp [hw]), hw]

/-! ## The counts in the snapshot -/

/-- **The counts a snapshot carries** are those the last winning latch read from the hub (all
`0` before any), whatever the hub holds when `updateMetricsOnce` runs. -/
theorem update_snapshot_counts {s s' : MState} (hs : Reachable s) {mem : MemStats}
    {cpu : Option Int} {intervals : MetricsMap} (h : s.step (.update mem cpu intervals) = some s') :
    countGauges s'.snapshot s.lastCounts := by
  simp only [MState.step] at h
  split at h
  · cases h
    obtain ⟨h1, h2, h3⟩ := countGauges_memGauges hs.inv.gauges mem cpu
    simp [MState.updateMetricsOnce, countGauges, getSnapshotMetrics, h1, h2, h3]
  · cases h

/-- `Run`'s `pubNode` latches while no client is connected, then a client connects and
subscribes to a channel. -/
def runThenConnect : List MAct :=
  [.rlock, .latch 0 8 0, .copy 0, .runlock 0, .hub ⟨1, 1, 1⟩]

/-- The next ping's `pubNode`, the first to latch after the update. -/
def nextPing : List MAct :=
  [.rlock, .latch 1 8 60, .copy 1, .runlock 1]

/-- **The snapshot's counts are stale**, in a run that `Run` allows: when `updateMetricsOnce`
runs, after `runThenConnect`, the hub reports one client, one unique client and one channel,
and the snapshot it builds reports none; the next ping's record carries that snapshot. -/
theorem update_snapshot_stale_after_run :
    ∃ s s' s'', (init exampleInfo fun _ => none).run runThenConnect = some s ∧
      s.hub = ⟨1, 1, 1⟩ ∧ s.step (.update ⟨0, 0, 0, 0⟩ none fun _ => none) = some s' ∧
      countGauges s'.snapshot ⟨0, 0, 0⟩ ∧ s'.run nextPing = some s'' ∧
      (s''.records.getLast?).bind (·.node.metrics) = some s'.snapshot := by
  have hs : (init exampleInfo fun _ => none).run runThenConnect = some _ := rfl
  exact ⟨_, _, _, hs, rfl, rfl, update_snapshot_counts ((Reachable.init _ _).run hs) rfl, rfl, rfl⟩

end MState

end CentrifugoNode
