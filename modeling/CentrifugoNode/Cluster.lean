import CentrifugoNode.Control
import CentrifugoNode.Bus

/-!
# A cluster sharing one engine

The control plane of a cluster is a `Bus`: the engine hands each published control command to
every node, its sender included, and each node runs the commands it is handed through
`HandleControl`, in the order they were published.

* `unsubscribe_fanOut`: after a successful `Unsubscribe(u, ch)` and its fan-out, the origin has
  applied `unsubscribeUser(u, ch)` and every other node `unsubscribeUser(u, "")`.
* `disconnect_fanOut`: after a successful `Disconnect(u, r)` and its fan-out, no node but the
  origin has closed a connection.
* `pubNode_fanOut`: after a successful `pubNode` and its fan-out, every node has added the
  record the origin built to its registry.
-/

namespace CentrifugoNode

variable {P : Type} (k : ControlCodec P)

/-- The control plane of a cluster: its nodes, with the control commands in flight. -/
abbrev Cluster (P : Type) := Bus NodeState (Command P)

/-- What a node does with a control command the engine hands it: `HandleControl`, whose error
the engine only logs. -/
def controlHandler (cmd : Command P) (n : NodeState) : NodeState := (handleControl k cmd n).1

namespace Cluster

/-- An admin call on member `i`: its node runs the call, and the engine's `PublishControl` hands
the command it accepted to every member. -/
def call (cl : Cluster P) (i : Nat) (f : NodeState → CallResult P) :
    Option (Cluster P × Option NodeError) :=
  cl.members[i]?.map fun m =>
    let r := f m.node
    let cl' : Cluster P := ⟨cl.members.set i { m with node := r.node }⟩
    ((match r.published with
      | some cmd => cl'.publish cmd fun _ => true
      | none => cl'), r.err)

/-- The nodes of the cluster have distinct uids. -/
def UidsDistinct (cl : Cluster P) : Prop := (cl.members.map (·.node.uid)).Nodup

instance (cl : Cluster P) : Decidable cl.UidsDistinct :=
  inferInstanceAs (Decidable (List.Nodup _))

theorem UidsDistinct.uid_ne {cl : Cluster P} (hu : cl.UidsDistinct) {i j : Nat}
    {m m' : Member NodeState (Command P)}
    (hi : cl.members[i]? = some m) (hj : cl.members[j]? = some m') (hij : i ≠ j) :
    m.node.uid ≠ m'.node.uid := fun he =>
  hij (List.getElem?_inj (by simpa using (List.getElem?_eq_some_iff.1 hi).1) hu
    (by simp [List.getElem?_map, hi, hj, he]))

/-- The fan-out of an admin call on member `a` that handed the engine `cmd`: each member ends
as its node, the origin's after the call, with `HandleControl` applied. -/
theorem call_fanOut {cl : Cluster P} (hq : cl.Quiet) {a : Nat} {f : NodeState → CallResult P}
    {cl₁ : Cluster P} {err : Option NodeError} (hcall : cl.call a f = some (cl₁, err))
    {m : Member NodeState (Command P)} (hm : cl.members[a]? = some m) {cmd : Command P}
    (hpub : (f m.node).published = some cmd) {js : List Nat} {cl' : Cluster P}
    (h : cl₁.deliverAll (controlHandler k) js = some cl') (hdone : cl'.Quiet) (i : Nat) :
    (cl'.members[i]?).map (·.node) = (cl.members[i]?).map fun m' =>
      (handleControl k cmd (if i = a then (f m'.node).node else m'.node)).1 := by
  simp only [call, hm, Option.map_some', hpub, Option.some.injEq, Prod.mk.injEq] at hcall
  obtain ⟨rfl, -⟩ := hcall
  have hq₀ := Bus.quiet_set hq a (m := { m with node := (f m.node).node })
    (hq m (List.getElem?_mem hm))
  have := congrArg (·[i]?) (Bus.fanOut_handled (controlHandler k) _ hq₀ cmd _ js cl' h hdone)
  simp only [List.getElem?_map, Bus.handled, if_true] at this
  rw [this]
  by_cases hia : i = a
  · subst hia
    simp [List.getElem?_set_self (List.getElem?_eq_some_iff.1 hm).1, hm, controlHandler]
  · simp [List.getElem?_set_ne (Ne.symm hia), hia, controlHandler]

/-- The fan-out of an admin call, node by node: the origin ends as `self` says and every other
member as `other` says, given what `HandleControl` does with the command on each. -/
theorem call_fanOut_of {cl : Cluster P} (hq : cl.Quiet) {a : Nat} {f : NodeState → CallResult P}
    {cl₁ : Cluster P} {err : Option NodeError} (hcall : cl.call a f = some (cl₁, err))
    {m : Member NodeState (Command P)} (hm : cl.members[a]? = some m) {cmd : Command P}
    (hpub : (f m.node).published = some cmd) {js : List Nat} {cl' : Cluster P}
    (h : cl₁.deliverAll (controlHandler k) js = some cl') (hdone : cl'.Quiet)
    (self other : NodeState → NodeState)
    (hself : (handleControl k cmd (f m.node).node).1 = self m.node)
    (hother : ∀ j m', j ≠ a → cl.members[j]? = some m' →
      (handleControl k cmd m'.node).1 = other m'.node) (i : Nat) :
    (cl'.members[i]?).map (·.node) =
      (cl.members[i]?).map fun m' => if i = a then self m'.node else other m'.node := by
  rw [call_fanOut k hq hcall hm hpub h hdone i]
  cases hi : cl.members[i]? with
  | none => rfl
  | some m' =>
    by_cases hia : i = a
    · subst hia
      obtain rfl : m' = m := Option.some_inj.1 (hi.symm.trans hm)
      simp [hself]
    · simp [hia, hother i m' hia hi]

/-- Two nodes, each with a connection of user `u` on `room` and `news`, whose `Unsubscribe`
calls succeed. -/
def pairCluster : Cluster WireParams :=
  ⟨[⟨⟨"A", exampleConfig, "1.0", 0, [⟨"a1", "u", ["room", "news"]⟩], [], [], fun _ _ => false⟩,
      []⟩,
    ⟨⟨"B", exampleConfig, "1.0", 0, [⟨"b1", "u", ["room", "news"]⟩], [], [], fun _ _ => false⟩,
      []⟩]⟩

/-- **Cluster-wide unsubscribe**: once `Unsubscribe(u, ch)` on member `a` has returned nil and
its command has been handled by every member, in any order, the origin has applied
`unsubscribeUser(u, ch)` and every other node `unsubscribeUser(u, "")`. -/
theorem unsubscribe_fanOut (hk : k.RoundTrip) {cl : Cluster P} (hq : cl.Quiet)
    (hu : cl.UidsDistinct) {a : Nat} {user ch : String} {cl₁ : Cluster P}
    (hcall : cl.call a (unsubscribe k user ch false) = some (cl₁, none)) {js : List Nat}
    {cl' : Cluster P} (h : cl₁.deliverAll (controlHandler k) js = some cl') (hdone : cl'.Quiet)
    (i : Nat) :
    (cl'.members[i]?).map (·.node) =
      (cl.members[i]?).map fun m => (unsubscribeUser user (if i = a then ch else "") m.node).1 := by
  obtain ⟨m, hm, hr⟩ := Option.map_eq_some'.1 hcall
  have hok := unsubscribe_ok k (congrArg Prod.snd hr)
  rw [call_fanOut_of k hq hcall hm (by rw [hok]) h hdone (unsubscribeUser user ch · |>.1)
    (unsubscribeUser user "" · |>.1)
    (by simp [hok, handleControl_self, pubUnsubscribe, unsubscribeUser])
    (fun j m' hj hm' => congrArg Prod.fst
      (handleControl_pubUnsubscribe k hk (unsubscribeUser user ch m.node).1 _ user ch
        (hu.uid_ne hm hm' (Ne.symm hj)))) i]
  by_cases hia : i = a <;> simp [hia]

theorem unsubscribe_fanOut_pair :
    ∃ cl₁ cl', pairCluster.call 0 (unsubscribe wireCodec "u" "room" false) = some (cl₁, none) ∧
      cl₁.deliverAll (controlHandler wireCodec) [1, 0] = some cl' ∧ cl'.Quiet ∧
      (cl'.members[1]?).map (·.node) =
        (pairCluster.members[1]?).map fun m => (unsubscribeUser "u" "" m.node).1 := by
  refine ⟨_, _, rfl, rfl, by decide, ?_⟩
  simpa using @unsubscribe_fanOut WireParams wireCodec wireCodec_roundTrip pairCluster
    (by decide) (by decide) 0 "u" "room" _ rfl [1, 0] _ rfl (by decide) 1

/-- `Unsubscribe("u", "room")` on `A`: `B`'s connection of `u` loses `news` too, which
`unsubscribeUser("u", "room")` keeps. -/
theorem cluster_unsubscribe_drops_other_channels :
    ∃ cl₁ cl', pairCluster.call 0 (unsubscribe wireCodec "u" "room" false) = some (cl₁, none) ∧
      cl₁.deliverAll (controlHandler wireCodec) [1, 0] = some cl' ∧ cl'.Quiet ∧
      cl'.members.map (·.node.clients) = [[⟨"a1", "u", ["news"]⟩], [⟨"b1", "u", []⟩]] ∧
      ((pairCluster.members[1]?).map fun m => (unsubscribeUser "u" "room" m.node).1.clients) =
        some [⟨"b1", "u", ["news"]⟩] :=
  ⟨_, _, rfl, rfl, by decide, by decide, by decide⟩

/-- **Cluster-wide disconnect**: once `Disconnect(u, r)` on member `a` has returned nil and its
command has been handled by every member, in any order, the origin has made the `Close` calls of
`disconnectUser(u, r)` and no other node has made any, whatever the codec. -/
theorem disconnect_fanOut {cl : Cluster P} (hq : cl.Quiet) {a : Nat} {user : String} {r : Bool}
    {cl₁ : Cluster P} (hcall : cl.call a (disconnect k user r false) = some (cl₁, none))
    {js : List Nat} {cl' : Cluster P} (h : cl₁.deliverAll (controlHandler k) js = some cl')
    (hdone : cl'.Quiet) (i : Nat) :
    (cl'.members[i]?).map (·.node.closes) = (cl.members[i]?).map fun m =>
      if i = a then (disconnectUser user r m.node).closes else m.node.closes := by
  obtain ⟨m, hm, hr⟩ := Option.map_eq_some'.1 hcall
  have hok := disconnect_ok k (congrArg Prod.snd hr)
  have := congrArg (Option.map NodeState.closes) (call_fanOut_of k hq hcall hm (by rw [hok]) h hdone
    (disconnectUser user r)
    (fun n => (handleControl k (pubDisconnect k (disconnectUser user r m.node) user r) n).1)
    (by simp [hok, handleControl_self, pubDisconnect, disconnectUser])
    (fun _ _ _ _ => rfl) i)
  rw [Option.map_map, Option.map_map] at this
  rw [show (fun x : Member NodeState (Command P) => x.node.closes) =
    NodeState.closes ∘ Member.node from rfl, this]
  by_cases hia : i = a <;> simp [hia, Function.comp_def, hok, handleControl_pubDisconnect_closes]

theorem disconnect_fanOut_pair :
    ∃ cl₁ cl', pairCluster.call 0 (disconnect wireCodec "u" true false) = some (cl₁, none) ∧
      cl₁.deliverAll (controlHandler wireCodec) [0, 1] = some cl' ∧ cl'.Quiet ∧
      (cl'.members[1]?).map (·.node.closes) = (pairCluster.members[1]?).map (·.node.closes) := by
  refine ⟨_, _, rfl, rfl, by decide, ?_⟩
  simpa using @disconnect_fanOut WireParams wireCodec pairCluster (by decide) 0 "u" true _ rfl
    [0, 1] _ rfl (by decide) 1

/-- `Disconnect("u", true)` on `A`: `B` closes nothing, where `disconnectUser("u", true)` closes
`b1`, and its connection of `u` loses its channels instead. -/
theorem cluster_disconnect_closes_nothing_remotely :
    ∃ cl₁ cl', pairCluster.call 0 (disconnect wireCodec "u" true false) = some (cl₁, none) ∧
      cl₁.deliverAll (controlHandler wireCodec) [0, 1] = some cl' ∧ cl'.Quiet ∧
      cl'.members.map (·.node.closes) = [[("a1", ⟨"disconnect", true⟩)], []] ∧
      ((pairCluster.members[1]?).map fun m => (disconnectUser "u" true m.node).closes) =
        some [("b1", ⟨"disconnect", true⟩)] ∧
      cl'.members.map (·.node.clients) = [[⟨"a1", "u", ["room", "news"]⟩], [⟨"b1", "u", []⟩]] :=
  ⟨_, _, rfl, rfl, by decide, by decide, by decide, by decide⟩

/-- **Node-info gossip**: once `pubNode` on member `a` has returned nil and its command has been
handled by every member, in any order, every node, the origin included, has added to its
registry the record the origin built from its uid, config, version and start time. -/
theorem pubNode_fanOut (hk : k.RoundTrip) {cl : Cluster P} (hq : cl.Quiet) (hu : cl.UidsDistinct)
    {a : Nat} {metrics : Option MetricsMap} {cl₁ : Cluster P}
    (hcall : cl.call a (pubNode k metrics false) = some (cl₁, none)) {js : List Nat}
    {cl' : Cluster P} (h : cl₁.deliverAll (controlHandler k) js = some cl') (hdone : cl'.Quiet)
    {m : Member NodeState (Command P)} (hm : cl.members[a]? = some m) (i : Nat) :
    (cl'.members[i]?).map (·.node) =
      (cl.members[i]?).map fun m' => nodeCmd (m.node.nodeInfo metrics) m'.node := by
  rw [call_fanOut_of k hq hcall hm rfl h hdone (nodeCmd (m.node.nodeInfo metrics))
    (nodeCmd (m.node.nodeInfo metrics)) (congrArg Prod.fst (handleControl_self k _ _ rfl))
    (fun j m' hj hm' =>
      congrArg Prod.fst (handleControl_pubNode k hk _ m.node _
        (hu.uid_ne hm hm' (Ne.symm hj)))) i]
  simp only [ite_self]

theorem pubNode_fanOut_pair :
    ∃ cl₁ cl', pairCluster.call 0 (pubNode wireCodec none false) = some (cl₁, none) ∧
      cl₁.deliverAll (controlHandler wireCodec) [1, 0] = some cl' ∧ cl'.Quiet ∧
      (cl'.members[1]?).map (·.node) = (pairCluster.members[1]?).map fun m =>
        nodeCmd ⟨"A", "node", "1.0", 0, 60, none⟩ m.node := by
  refine ⟨_, _, rfl, rfl, by decide, ?_⟩
  exact @pubNode_fanOut WireParams wireCodec wireCodec_roundTrip pairCluster (by decide)
    (by decide) 0 none _ rfl [1, 0] _ rfl (by decide) _ rfl 1

end Cluster

end CentrifugoNode
