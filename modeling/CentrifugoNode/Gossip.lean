import CentrifugoNode.Cluster

/-!
# Node-info gossip over any interleaving

Every node publishes its record with `pubNode`, periodically and concurrently with the others,
and any node may run `Unsubscribe` or `Disconnect` at any time. The engine hands every control
command to every node, each in the order the commands were published, while the deliveries to
different nodes interleave in any way. A `ControlAct` is one admin call on one node or one
delivery; `Cluster.exec` runs a schedule of them and returns, with the cluster, the commands the
engine accepted in order: the run's log. The engine is reliable here; the spec's partitioned
node, which misses commands, is not modelled.

Every inbox is a suffix of the log, so what a node has handled is a prefix of it. A record in
the log carries the uid of the node that published it (`pubNode` takes the uid from the node),
and a node drops its own commands, so a node's view of another node `u` (`NodeState.getNode`)
is the last record of `u` in the prefix it has handled (`GossipInv`).

* `exec_registry_views`: once a run from a quiet cluster has left no command in flight, every
  node's view of every other node `u` is the last record of `u` in the run's log, or the view
  all nodes started with. The nodes other than `u` therefore agree on `u`, whatever the order of
  the deliveries, and no record is lost or applied out of order.
-/

namespace CentrifugoNode

/-! ## The registry's view of a node -/

/-- Modelled from the spec: the registry's `get`, the last record added for `uid`. -/
def NodeState.getNode (n : NodeState) (uid : String) : Option NodeInfo :=
  (n.nodes.filter (·.uid = uid)).getLast?

theorem getNode_addNode (n : NodeState) (info : NodeInfo) (u : String) :
    (n.addNode info).getNode u = if info.uid = u then some info else n.getNode u := by
  unfold NodeState.addNode NodeState.getNode
  split_ifs with h
  · simp [h]
  · rw [List.filter_append, List.filter_filter]
    simp only [List.filter_cons, List.filter_nil, h, decide_False, Bool.false_eq_true, if_false,
      List.append_nil]
    congr 2
    funext a
    by_cases ha : a.uid = u <;> simp [ha, Ne.symm h]

variable {P : Type} (k : ControlCodec P)

/-- The record a command carries to the registries: the params of a `"node"` command. -/
def Command.record (cmd : Command P) : Option NodeInfo :=
  if cmd.method = "node" then k.decodeNode cmd.params else none

/-- A view of node `u`, `v`, after the record `cmd` carries. -/
def Command.view (cmd : Command P) (u : String) (v : Option NodeInfo) : Option NodeInfo :=
  match cmd.record k with
  | some info => if info.uid = u then some info else v
  | none => v

/-- The view of `u` after the commands of `log` in order, from `v`: the last record of `u`
among them, or `v` when there is none. -/
def viewAfter (u : String) (log : List (Command P)) (v : Option NodeInfo) : Option NodeInfo :=
  log.foldl (fun v cmd => cmd.view k u v) v

theorem viewAfter_concat (u : String) (log : List (Command P)) (cmd : Command P)
    (v : Option NodeInfo) : viewAfter k u (log ++ [cmd]) v = cmd.view k u (viewAfter k u log v) :=
  List.foldl_concat _ _ _ _

/-- A command whose record is its sender's leaves the view of every other node. -/
theorem Command.view_of_ne {cmd : Command P}
    (hr : ∀ info, cmd.record k = some info → info.uid = cmd.uid) {u : String} (hu : u ≠ cmd.uid)
    (v : Option NodeInfo) : cmd.view k u v = v := by
  unfold Command.view
  split
  · rename_i info h
    rw [if_neg (by rw [hr info h]; exact Ne.symm hu)]
  · rfl

/-! ## What a node does to its registry -/

theorem uid_handleControl (cmd : Command P) (n : NodeState) :
    (handleControl k cmd n).1.uid = n.uid := by
  unfold handleControl
  split_ifs
  · rfl
  · split <;> (try split) <;> rfl

/-- A command from another node changes the view of `u` by the record it carries. -/
theorem getNode_handleControl (cmd : Command P) (n : NodeState) (h : cmd.uid ≠ n.uid)
    (u : String) : (handleControl k cmd n).1.getNode u = cmd.view k u (n.getNode u) := by
  unfold handleControl Command.view Command.record
  simp only [h, if_false]
  by_cases hm : cmd.method = "node"
  · simp only [hm, if_true]
    split <;> simp [nodeCmd, getNode_addNode, *]
  · simp only [hm, if_false]
    split
    · exact absurd ‹_› hm
    all_goals (try split) <;> rfl

/-- The admin calls of a node, with the outcome of the engine's `PublishControl`: `Unsubscribe`,
`Disconnect`, and `pubNode` with the `Metrics` its record got from `metricsOnce.Do`. -/
inductive AdminCall
  | unsubscribe (user ch : String) (publishFails : Bool)
  | disconnect (user : String) (reconnect publishFails : Bool)
  | pubNode (metrics : Option MetricsMap) (publishFails : Bool)

/-- The call, made on node `n`. -/
def AdminCall.run : AdminCall → NodeState → CallResult P
  | .unsubscribe user ch publishFails => CentrifugoNode.unsubscribe k user ch publishFails
  | .disconnect user reconnect publishFails =>
    CentrifugoNode.disconnect k user reconnect publishFails
  | .pubNode metrics publishFails => CentrifugoNode.pubNode k metrics publishFails

/-- What an admin call on `n` that left `r` keeps: the node's uid and its view of every other
node; and the command it hands the engine is the node's and carries only the node's record. -/
structure CallKeeps (n : NodeState) (r : CallResult P) : Prop where
  uid : r.node.uid = n.uid
  view : ∀ u ≠ n.uid, r.node.getNode u = n.getNode u
  published : ∀ cmd, r.published = some cmd →
    cmd.uid = n.uid ∧ ∀ info, cmd.record k = some info → info.uid = n.uid

/-- A call that keeps the uid and the registry and hands the engine no `"node"` command. -/
theorem CallKeeps.of_nodes {n n' : NodeState} (hu : n'.uid = n.uid) (hn : n'.nodes = n.nodes)
    {pub : Option (Command P)} (hc : ∀ cmd, pub = some cmd → cmd.uid = n.uid ∧ cmd.method ≠ "node")
    (e : Option NodeError) : CallKeeps k n ⟨n', pub, e⟩ where
  uid := hu
  view _ _ := by simp [NodeState.getNode, hn]
  published cmd h := ⟨(hc cmd h).1, by simp [Command.record, (hc cmd h).2]⟩

/-- **An admin call leaves the node's view of every other node**, and hands the engine only the
node's own record. -/
theorem AdminCall.keeps (hk : k.RoundTrip) (c : AdminCall) (n : NodeState) :
    CallKeeps k n (c.run k n) := by
  cases c with
  | unsubscribe user ch publishFails =>
    obtain ⟨⟨n', e⟩, hr⟩ : ∃ r, unsubscribeUser user ch n = r := ⟨_, rfl⟩
    have hn : n'.uid = n.uid ∧ n'.nodes = n.nodes := by
      obtain rfl : (unsubscribeUser user ch n).1 = n' := congrArg Prod.fst hr
      exact ⟨rfl, rfl⟩
    simp only [AdminCall.run, CentrifugoNode.unsubscribe, hr]
    cases e <;> split_ifs <;> (try split) <;> apply CallKeeps.of_nodes k <;>
      simp [pubUnsubscribe, hn]
  | disconnect user reconnect publishFails =>
    simp only [AdminCall.run, CentrifugoNode.disconnect]
    split_ifs <;> apply CallKeeps.of_nodes k <;> simp [pubDisconnect, disconnectUser]
  | pubNode metrics publishFails =>
    simp only [AdminCall.run, CentrifugoNode.pubNode]
    have hview : ∀ u ≠ n.uid, (nodeCmd (n.nodeInfo metrics) n).getNode u = n.getNode u :=
      fun u hu => by simp [nodeCmd, NodeState.nodeInfo, getNode_addNode, Ne.symm hu]
    split_ifs
    · exact ⟨rfl, hview, by simp⟩
    · refine ⟨rfl, hview, fun cmd h => ?_⟩
      cases h
      exact ⟨rfl, by simp [Command.record, hk.node, NodeState.nodeInfo]⟩

/-! ## Runs of the control plane -/

/-- One step of the control plane: an admin call on member `i`, or the engine handing member `i`
its oldest command. -/
inductive ControlAct
  | call (i : Nat) (c : AdminCall)
  | deliver (i : Nat)

namespace Cluster

/-- The command an admin call on member `i` hands the engine, if any. -/
def callLog (cl : Cluster P) (i : Nat) (c : AdminCall) : List (Command P) :=
  ((cl.members[i]?).bind fun m => (c.run k m.node).published).toList

/-- A schedule run step by step, with the commands the engine accepted, in order; `none` when a
step is not enabled. -/
def exec (cl : Cluster P) : List ControlAct → Option (Cluster P × List (Command P))
  | [] => some (cl, [])
  | .call i c :: acts =>
    (cl.call i (c.run k)).bind fun r =>
      (exec r.1 acts).map fun r' => (r'.1, cl.callLog k i c ++ r'.2)
  | .deliver i :: acts => (cl.deliver (controlHandler k) i).bind (exec · acts)

/-- Member `m` has handled the first `h` commands of `log` and has the others in its inbox, and
its view of every other node is the last record among those it handled, from `v₀`. -/
def HandledPrefix (log : List (Command P)) (v₀ : String → Option NodeInfo)
    (m : Member NodeState (Command P)) : Prop :=
  ∃ h ≤ log.length, m.inbox = log.drop h ∧
    ∀ u ≠ m.node.uid, m.node.getNode u = viewAfter k u (log.take h) (v₀ u)

/-- The invariant of the control plane: every record in the log is its sender's, and every
member has handled a prefix of the log. -/
structure GossipInv (log : List (Command P)) (v₀ : String → Option NodeInfo) (cl : Cluster P) :
    Prop where
  records : ∀ cmd ∈ log, ∀ info, cmd.record k = some info → info.uid = cmd.uid
  handled : ∀ m ∈ cl.members, HandledPrefix k log v₀ m

variable {k}

theorem HandledPrefix.publish {log : List (Command P)} {v₀ : String → Option NodeInfo}
    {m : Member NodeState (Command P)} (hm : HandledPrefix k log v₀ m) (cmd : Command P) :
    HandledPrefix k (log ++ [cmd]) v₀ { m with inbox := m.inbox ++ [cmd] } := by
  obtain ⟨h, hle, hin, hv⟩ := hm
  refine ⟨h, by simp; omega, by rw [hin, List.drop_append_of_le_length hle], fun u hu => ?_⟩
  rw [List.take_append_of_le_length hle]
  exact hv u hu

/-- Handling the oldest command of the inbox moves one command from the inbox to the handled
prefix. -/
theorem HandledPrefix.deliver {log : List (Command P)} {v₀ : String → Option NodeInfo}
    (hrec : ∀ cmd ∈ log, ∀ info, cmd.record k = some info → info.uid = cmd.uid)
    {n : NodeState} {cmd : Command P} {rest : List (Command P)}
    (hm : HandledPrefix k log v₀ ⟨n, cmd :: rest⟩) :
    HandledPrefix k log v₀ ⟨controlHandler k cmd n, rest⟩ := by
  obtain ⟨h, -, hin, hv⟩ := hm
  obtain ⟨hlt, htake, hdrop⟩ := Bus.take_drop_succ hin.symm
  have hmem : cmd ∈ log.drop h := by rw [← hin]; exact List.mem_cons_self cmd rest
  have hcmd := hrec cmd (List.mem_of_mem_drop hmem)
  refine ⟨h + 1, hlt, hdrop.symm, fun u hu => ?_⟩
  rw [controlHandler, uid_handleControl] at hu
  rw [htake, viewAfter_concat, controlHandler]
  by_cases hc : cmd.uid = n.uid
  · rw [handleControl_self k cmd n hc, Command.view_of_ne k hcmd (hc ▸ hu)]
    exact hv u hu
  · rw [getNode_handleControl k cmd n hc, hv u hu]

theorem GossipInv.deliver {log : List (Command P)} {v₀ : String → Option NodeInfo}
    {cl cl' : Cluster P} (hi : GossipInv k log v₀ cl) {i : Nat}
    (h : cl.deliver (controlHandler k) i = some cl') : GossipInv k log v₀ cl' := by
  unfold Bus.deliver at h
  split at h
  · rename_i n cmd rest hm
    cases h
    refine ⟨hi.records, fun m' hm' => ?_⟩
    rcases List.mem_or_eq_of_mem_set hm' with hm' | rfl
    · exact hi.handled m' hm'
    · exact (hi.handled _ (List.getElem?_mem hm)).deliver hi.records
  · cases h

theorem GossipInv.call (hk : k.RoundTrip) {log : List (Command P)}
    {v₀ : String → Option NodeInfo} {cl cl₁ : Cluster P} (hi : GossipInv k log v₀ cl) {i : Nat}
    {c : AdminCall} {e : Option NodeError} (h : cl.call i (c.run k) = some (cl₁, e)) :
    GossipInv k (log ++ cl.callLog k i c) v₀ cl₁ := by
  obtain ⟨m, hm, hr⟩ := Option.map_eq_some'.1 h
  have hkeep := c.keeps k hk m.node
  have hself : HandledPrefix k log v₀ { m with node := (c.run k m.node).node } := by
    obtain ⟨h, hle, hin, hv⟩ := hi.handled m (List.getElem?_mem hm)
    refine ⟨h, hle, hin, fun u hu => ?_⟩
    rw [hkeep.uid] at hu
    rw [hkeep.view u hu]
    exact hv u hu
  have hset : ∀ m' ∈ cl.members.set i { m with node := (c.run k m.node).node },
      HandledPrefix k log v₀ m' := fun m' hm' => by
    rcases List.mem_or_eq_of_mem_set hm' with hm' | rfl
    · exact hi.handled m' hm'
    · exact hself
  simp only [Prod.mk.injEq] at hr
  obtain ⟨rfl, -⟩ := hr
  simp only [callLog, hm, Option.some_bind]
  cases hp : (c.run k m.node).published with
  | none => exact ⟨by simpa using hi.records, by simpa using hset⟩
  | some cmd =>
    obtain ⟨huid, hrec⟩ := hkeep.published cmd hp
    refine ⟨fun cmd' hcmd' => ?_, fun m' hm' => ?_⟩
    · rcases List.mem_append.1 hcmd' with hcmd' | hcmd'
      · exact hi.records cmd' hcmd'
      · obtain rfl := List.mem_singleton.1 hcmd'
        exact fun info hinfo => (hrec info hinfo).trans huid.symm
    · simp only [Bus.publish, if_true, List.mem_map] at hm'
      obtain ⟨m'', hm'', rfl⟩ := hm'
      exact (hset m'' hm'').publish cmd

theorem GossipInv.exec (hk : k.RoundTrip) {log : List (Command P)}
    {v₀ : String → Option NodeInfo} {cl : Cluster P} (hi : GossipInv k log v₀ cl)
    {acts : List ControlAct} {cl' : Cluster P} {log' : List (Command P)}
    (h : cl.exec k acts = some (cl', log')) : GossipInv k (log ++ log') v₀ cl' := by
  induction acts generalizing cl log log' with
  | nil =>
    cases h
    simpa using hi
  | cons a acts ih =>
    cases a with
    | call i c =>
      obtain ⟨⟨cl₁, e⟩, hcall, hrest⟩ := Option.bind_eq_some.1 h
      obtain ⟨⟨cl₂, log₂⟩, hexec, hr⟩ := Option.map_eq_some'.1 hrest
      simp only [Prod.mk.injEq] at hr
      obtain ⟨rfl, rfl⟩ := hr
      simpa [callLog] using ih (hi.call hk hcall) hexec
    | deliver i =>
      obtain ⟨cl₁, hd, hrest⟩ := Option.bind_eq_some.1 h
      exact ih (hi.deliver hd) hrest

/-- **Registry gossip agrees**: once a run from a quiet cluster, in which every node had the
same view `v₀` of the others, has left no command in flight, every node's view of every other
node `u` is the last record of `u` in the run's log, or `v₀ u` when there is none; each record
in the log is its sender's. So the nodes other than `u` agree on `u`, in whatever order the
engine's deliveries interleaved. -/
theorem exec_registry_views (hk : k.RoundTrip) {cl : Cluster P} (hq : cl.Quiet)
    (v₀ : String → Option NodeInfo)
    (h₀ : ∀ m ∈ cl.members, ∀ u ≠ m.node.uid, m.node.getNode u = v₀ u) {acts : List ControlAct}
    {cl' : Cluster P} {log : List (Command P)} (h : cl.exec k acts = some (cl', log))
    (hdone : cl'.Quiet) :
    (∀ cmd ∈ log, ∀ info, cmd.record k = some info → info.uid = cmd.uid) ∧
      ∀ m ∈ cl'.members, ∀ u ≠ m.node.uid, m.node.getNode u = viewAfter k u log (v₀ u) := by
  have hi₀ : GossipInv k [] v₀ cl :=
    ⟨by simp, fun m hm => ⟨0, le_rfl, by simp [hq m hm], fun u hu => h₀ m hm u hu⟩⟩
  have hi := hi₀.exec hk h
  rw [List.nil_append] at hi
  refine ⟨hi.records, fun m hm u hu => ?_⟩
  obtain ⟨j, hle, hin, hv⟩ := hi.handled m hm
  have hj : j = log.length :=
    le_antisymm hle (List.drop_eq_nil_iff.1 (hin.symm.trans (hdone m hm)))
  rw [hv u hu, hj, List.take_length]

/-- `A` pings with metrics, `B` runs `Unsubscribe("u", "room")` and pings, `B` handles `A`'s
ping, `A` pings again without metrics; then `A` handles its four commands and `B` its three. -/
def gossipSchedule : List ControlAct :=
  [.call 0 (.pubNode (some fun _ => some 0) false),
    .call 1 (.unsubscribe "u" "room" false),
    .call 1 (.pubNode (some fun _ => some 0) false), .deliver 1,
    .call 0 (.pubNode none false),
    .deliver 0, .deliver 0, .deliver 0, .deliver 0, .deliver 1, .deliver 1, .deliver 1]

theorem exec_registry_views_pair :
    ∃ cl' log, pairCluster.exec wireCodec gossipSchedule = some (cl', log) ∧ cl'.Quiet ∧
      (∀ cmd ∈ log, ∀ info, cmd.record wireCodec = some info → info.uid = cmd.uid) ∧
      ∀ m ∈ cl'.members, ∀ u ≠ m.node.uid, m.node.getNode u = viewAfter wireCodec u log none := by
  refine ⟨_, _, rfl, by decide, ?_⟩
  exact @exec_registry_views WireParams wireCodec wireCodec_roundTrip pairCluster (by decide)
    (fun _ => none) (by simp [pairCluster, NodeState.getNode]) gossipSchedule _ _ rfl (by decide)

/-- Both nodes end with `A`'s second record, the one without metrics, and with `B`'s. -/
example : (pairCluster.exec wireCodec gossipSchedule).map (fun r => r.1.members.map fun m =>
      ((m.node.getNode "A").map (·.metrics.isSome), (m.node.getNode "B").map (·.metrics.isSome))) =
    some [(some false, some true), (some false, some true)] := by
  decide

end Cluster

end CentrifugoNode
