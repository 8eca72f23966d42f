import CentrifugoNode.Control
import CentrifugoNode.Subscription
import CentrifugoNode.Bus
import Mathlib.Data.Finset.Card

/-!
# Publications

`Publish` takes the caller's channel options or resolves the channel's, gives the publication a
uid when it has none and hands it to the engine; `PublishJoin` and `PublishLeave` do the same
without the uid. The engine hands the message back to nodes of the cluster (`Bus`), each of
which runs it through `HandleClientMessage`: it decodes the message by type and
`HandlePublication`, `HandleJoin` or `HandleLeave` broadcasts it to the channel's subscribers on
that node. The message codec, the hub's broadcast and the engine are not among the sources and
are modelled from the spec.

* `publish_eq_ok`: what `Publish` hands the engine.
* `handleBroadcast_eq_broadcast`: the fast path of the three handlers changes nothing.
* `publish_reaches_subscribers`: when every node's engine subscriptions match its hub, a
  publication reaches exactly the subscribers of its channel on every node, once, with a uid.
* `exec_delivers_in_order`: over any run of `Publish` calls on any nodes and deliveries in any
  order, every client ends with the publications of its channels that the engine accepted, each
  once, in the order of publication (`receivedAfter`).
-/

namespace CentrifugoNode

/-- `proto.Publication`: the fields the node reads and sets. -/
structure Publication where
  uid : String
  data : String
  deriving DecidableEq, Repr

/-- `proto.ClientInfo`, carried by a join or a leave. -/
structure ClientInfo where
  user : String
  client : String
  deriving DecidableEq, Repr

/-- What the hub hands a subscriber. -/
inductive Delivery
  | publication (p : Publication)
  | join (info : ClientInfo)
  | leave (info : ClientInfo)
  deriving DecidableEq, Repr

/-- `proto.MessageType`; `other` is any value the node does not handle. -/
inductive MessageType
  | publication
  | join
  | leave
  | other
  deriving DecidableEq, Repr

/-- `proto.Message`: what the engine hands a node, with its payload encoded. -/
structure Message (D : Type) where
  type : MessageType
  channel : String
  data : D

/-- Modelled from the spec: the message codec; a failed decode is `none`. -/
structure MessageCodec (D : Type) where
  encodePublication : Publication → D
  encodeJoin : ClientInfo → D
  encodeLeave : ClientInfo → D
  decodePublication : D → Option Publication
  decodeJoin : D → Option ClientInfo
  decodeLeave : D → Option ClientInfo

/-- Decoding inverts encoding, for each kind of payload. -/
structure MessageCodec.RoundTrip {D : Type} (k : MessageCodec D) : Prop where
  publication : ∀ x, k.decodePublication (k.encodePublication x) = some x
  join : ∀ x, k.decodeJoin (k.encodeJoin x) = some x
  leave : ∀ x, k.decodeLeave (k.encodeLeave x) = some x

/-- The codec of the concrete runs: a payload travels as itself. -/
def deliveryCodec : MessageCodec Delivery where
  encodePublication := .publication
  encodeJoin := .join
  encodeLeave := .leave
  decodePublication
    | .publication p => some p
    | _ => none
  decodeJoin
    | .join x => some x
    | _ => none
  decodeLeave
    | .leave x => some x
    | _ => none

theorem deliveryCodec_roundTrip : deliveryCodec.RoundTrip :=
  ⟨fun _ => rfl, fun _ => rfl, fun _ => rfl⟩

/-- A node as its publications see it: its configuration, its hub and engine subscriptions, and
what the hub has handed each client (by id), oldest first, with the channel. -/
structure DataNode where
  config : Config
  sub : SubState
  received : String → List (String × Delivery)

/-! ## The node's side -/

/-- Modelled from the spec: the hub's broadcast hands `d` to every subscriber of `ch`. -/
def broadcast (ch : String) (d : Delivery) (n : DataNode) : DataNode :=
  { n with received := fun c =>
      if c ∈ n.sub.hub.subs ch then n.received c ++ [(ch, d)] else n.received c }

/-- What `HandlePublication`, `HandleJoin` and `HandleLeave` share: nothing when the channel has
no subscriber on this node (`NumSubscribers`), a broadcast otherwise. -/
def handleBroadcast (ch : String) (d : Delivery) (n : DataNode) : DataNode :=
  if (n.sub.hub.subs ch).card > 0 then broadcast ch d n else n

/-- `HandlePublication`. -/
def handlePublication (ch : String) (p : Publication) : DataNode → DataNode :=
  handleBroadcast ch (.publication p)

/-- `HandleJoin`. -/
def handleJoin (ch : String) (join : ClientInfo) : DataNode → DataNode :=
  handleBroadcast ch (.join join)

/-- `HandleLeave`. -/
def handleLeave (ch : String) (leave : ClientInfo) : DataNode → DataNode :=
  handleBroadcast ch (.leave leave)

/-- **The fast path changes nothing**: a channel without subscribers gets no broadcast, which is
what a broadcast to its subscribers would do. -/
theorem handleBroadcast_eq_broadcast (ch : String) (d : Delivery) (n : DataNode) :
    handleBroadcast ch d n = broadcast ch d n := by
  unfold handleBroadcast
  split_ifs with h
  · rfl
  · have h0 : n.sub.hub.subs ch = ∅ := Finset.card_eq_zero.1 (by omega)
    simp [broadcast, h0]

variable {D : Type} (k : MessageCodec D)

/-- `HandleClientMessage`: decode the payload by the message's type and hand it to its handler,
whose error is dropped; a decoder's error is returned; other types are ignored. -/
def handleClientMessage (m : Message D) (n : DataNode) : DataNode × Option NodeError :=
  match m.type with
  | .publication =>
    match k.decodePublication m.data with
    | none => (n, some .decode)
    | some p => (handlePublication m.channel p n, none)
  | .join =>
    match k.decodeJoin m.data with
    | none => (n, some .decode)
    | some j => (handleJoin m.channel j n, none)
  | .leave =>
    match k.decodeLeave m.data with
    | none => (n, some .decode)
    | some l => (handleLeave m.channel l n, none)
  | .other => (n, none)

/-- Modelled from the spec: the message the engine hands back for what was published on `ch`. -/
def deliveryMessage (ch : String) : Delivery → Message D
  | .publication p => ⟨.publication, ch, k.encodePublication p⟩
  | .join info => ⟨.join, ch, k.encodeJoin info⟩
  | .leave info => ⟨.leave, ch, k.encodeLeave info⟩

/-- The message the engine hands back for a publication. -/
def publicationMessage (ch : String) (p : Publication) : Message D :=
  deliveryMessage k ch (.publication p)

/-- **A node handles what was published by broadcasting it** to the channel's subscribers. -/
theorem handleClientMessage_deliveryMessage (hk : k.RoundTrip) (ch : String) (d : Delivery)
    (n : DataNode) :
    handleClientMessage k (deliveryMessage k ch d) n = (broadcast ch d n, none) := by
  cases d <;> simp [handleClientMessage, deliveryMessage, hk.publication, hk.join, hk.leave,
    handlePublication, handleJoin, handleLeave, handleBroadcast_eq_broadcast]

theorem handleClientMessage_publication (hk : k.RoundTrip) (ch : String) (p : Publication)
    (n : DataNode) :
    handleClientMessage k (publicationMessage k ch p) n =
      (broadcast ch (.publication p) n, none) :=
  handleClientMessage_deliveryMessage k hk ch _ n

/-! ## Publishing -/

/-- What `Publish`, `PublishJoin` and `PublishLeave` share: the caller's options, or the
channel's; a channel no namespace matches is `NamespaceNotFound`. -/
def resolveOpts (c : Config) (ch : String) :
    Option ChannelOptions → Except NodeError ChannelOptions
  | some o => .ok o
  | none =>
    match channelOpts c ch with
    | none => .error .panic
    | some none => .error .namespaceNotFound
    | some (some o) => .ok o

/-- `Publish`: what it hands the engine's `Publish`, the publication with `nextUid` as its uid
when it has none. -/
def publish (c : Config) (ch : String) (pub : Publication) (opts : Option ChannelOptions)
    (nextUid : String) : Except NodeError (Publication × ChannelOptions) :=
  (resolveOpts c ch opts).map fun o =>
    (if pub.uid = "" then { pub with uid := nextUid } else pub, o)

/-- `PublishJoin`: what it hands the engine's `PublishJoin`. -/
def publishJoin (c : Config) (ch : String) (join : ClientInfo) (opts : Option ChannelOptions) :
    Except NodeError (ClientInfo × ChannelOptions) :=
  (resolveOpts c ch opts).map fun o => (join, o)

/-- `PublishLeave`: what it hands the engine's `PublishLeave`. -/
def publishLeave (c : Config) (ch : String) (leave : ClientInfo) (opts : Option ChannelOptions) :
    Except NodeError (ClientInfo × ChannelOptions) :=
  (resolveOpts c ch opts).map fun o => (leave, o)

/-- **What `Publish` hands the engine**: the publication's data, with the caller's uid or, when
it has none, the new one, and the caller's options or the channel's. -/
theorem publish_eq_ok {c : Config} {ch : String} {pub p : Publication}
    {opts : Option ChannelOptions} {nextUid : String} {o : ChannelOptions}
    (h : publish c ch pub opts nextUid = .ok (p, o)) :
    p.data = pub.data ∧ p.uid = (if pub.uid = "" then nextUid else pub.uid) ∧
      (opts = some o ∨ (opts = none ∧ channelOpts c ch = some (some o))) := by
  unfold publish at h
  cases hr : resolveOpts c ch opts with
  | error e => simp [hr, Except.map] at h
  | ok o' =>
    simp only [hr, Except.map, Except.ok.injEq, Prod.mk.injEq] at h
    obtain ⟨rfl, rfl⟩ := h
    refine ⟨by split_ifs <;> rfl, by split_ifs with hu <;> simp [hu], ?_⟩
    cases opts with
    | some o => exact .inl (by simpa [resolveOpts] using hr)
    | none =>
      refine .inr ⟨rfl, ?_⟩
      simp only [resolveOpts] at hr
      split at hr <;> simp_all

/-! ## The cluster -/

/-- The publications of a cluster: its nodes, with the messages the engine has still to hand
them. -/
abbrev DataCluster (D : Type) := Bus DataNode (Message D)

/-- What a node does with a message the engine hands it: `HandleClientMessage`, whose error the
engine only logs. -/
def messageHandler (m : Message D) (n : DataNode) : DataNode := (handleClientMessage k m n).1

/-- `Publish` on member `i`, with `sel` the nodes the engine hands the message to and
`engineFails` the outcome of the engine's `Publish`, whose error is returned as it is. -/
def DataCluster.publishCall (cl : DataCluster D) (i : Nat) (ch : String) (pub : Publication)
    (opts : Option ChannelOptions) (nextUid : String) (sel : DataNode → Bool)
    (engineFails : Bool) : Option (DataCluster D × Option NodeError) :=
  cl.members[i]?.map fun m =>
    match publish m.node.config ch pub opts nextUid with
    | .error e => (cl, some e)
    | .ok (p, _) =>
      if engineFails then (cl, some .engine) else (cl.publish (publicationMessage k ch p) sel, none)

/-- The engine of a cluster with a broker: it hands a message to the nodes subscribed to its
channel. -/
def subscribedTo (ch : String) (n : DataNode) : Bool := n.sub.engine.subscribed ch

theorem DataCluster.publishCall_ok {cl : DataCluster D} {a : Nat} {ch : String} {pub : Publication}
    {opts : Option ChannelOptions} {nextUid : String} {sel : DataNode → Bool} {cl₁ : DataCluster D}
    (h : cl.publishCall k a ch pub opts nextUid sel false = some (cl₁, none)) :
    ∃ m p o, cl.members[a]? = some m ∧ publish m.node.config ch pub opts nextUid = .ok (p, o) ∧
      cl₁ = cl.publish (publicationMessage k ch p) sel := by
  obtain ⟨m, hm, hr⟩ := Option.map_eq_some'.1 h
  cases hp : publish m.node.config ch pub opts nextUid with
  | error e => simp [hp] at hr
  | ok po =>
    simp only [hp, Bool.false_eq_true, if_false, Prod.mk.injEq] at hr
    exact ⟨m, po.1, po.2, hm, hp, hr.1.symm⟩

/-- **A publication reaches exactly the subscribers of its channel**: in a cluster where each
node's engine is subscribed to the channel exactly when its hub has a subscriber, and the engine
hands the message at least to the subscribed nodes, once `Publish` on member `a` has returned
nil and every node handed the message has handled it, in any order, every node has broadcast
the publication to its subscribers of the channel, and to nobody else. The publication has the
caller's data and uid, or the new uid. -/
theorem publish_reaches_subscribers (hk : k.RoundTrip) {cl : DataCluster D} (hq : cl.Quiet)
    {ch : String} (hpar : ∀ m ∈ cl.members, Parity m.node.sub ch) {sel : DataNode → Bool}
    (hsel : ∀ n, subscribedTo ch n = true → sel n = true) {a : Nat} {pub : Publication}
    {opts : Option ChannelOptions} {nextUid : String} {cl₁ : DataCluster D}
    (hcall : cl.publishCall k a ch pub opts nextUid sel false = some (cl₁, none)) {js : List Nat}
    {cl' : DataCluster D} (h : cl₁.deliverAll (messageHandler k) js = some cl')
    (hdone : cl'.Quiet) :
    ∃ p : Publication, p.data = pub.data ∧ p.uid = (if pub.uid = "" then nextUid else pub.uid) ∧
      cl'.members.map (·.node) = cl.members.map fun m => broadcast ch (.publication p) m.node := by
  obtain ⟨m, p, o, -, hp, rfl⟩ := DataCluster.publishCall_ok k hcall
  obtain ⟨hdata, huid, -⟩ := publish_eq_ok hp
  refine ⟨p, hdata, huid, ?_⟩
  rw [Bus.fanOut_handled (messageHandler k) cl hq _ sel js cl' h hdone]
  refine List.map_congr_left fun m hm => ?_
  unfold Bus.handled
  split_ifs with hs
  · exact congrArg Prod.fst (handleClientMessage_publication k hk ch p m.node)
  · have hsub : m.node.sub.hub.subs ch = ∅ := by
      by_contra hne
      exact hs (hsel _ ((hpar m hm).2 hne))
    rw [← handleBroadcast_eq_broadcast]
    simp [handleBroadcast, hsub]

/-- Node `A` with `a1` subscribed to `news`, its engine subscribed; node `B` with none. -/
def newsCluster : DataCluster Delivery :=
  ⟨[⟨⟨exampleConfig, ⟨⟨fun ch => if ch = "news" then {"a1"} else ∅⟩, ⟨fun ch => ch = "news"⟩⟩,
      fun _ => []⟩, []⟩,
    ⟨⟨exampleConfig, SubState.init, fun _ => []⟩, []⟩]⟩

theorem publish_reaches_subscribers_news :
    ∃ cl₁ cl', newsCluster.publishCall deliveryCodec 1 "news" ⟨"", "x"⟩ none "u1"
        (subscribedTo "news") false = some (cl₁, none) ∧
      cl₁.deliverAll (messageHandler deliveryCodec) [0] = some cl' ∧ cl'.Quiet ∧
      ∃ p : Publication, p.data = "x" ∧ p.uid = (if "" = "" then "u1" else "") ∧
        cl'.members.map (·.node) =
          newsCluster.members.map fun m => broadcast "news" (.publication p) m.node := by
  refine ⟨_, _, rfl, rfl, by decide, ?_⟩
  exact @publish_reaches_subscribers Delivery deliveryCodec deliveryCodec_roundTrip newsCluster
    (by decide) "news" (by decide) (subscribedTo "news") (fun _ h => h) 1 ⟨"", "x"⟩ none "u1" _
    rfl [0] _ rfl (by decide)

/-! ## Runs of publications -/

/-- The calls that hand the engine something to publish: `Publish`, with the uid `nuid.Next`
would give, `PublishJoin` and `PublishLeave`. -/
inductive PublishCall
  | publish (ch : String) (pub : Publication) (opts : Option ChannelOptions) (nextUid : String)
  | publishJoin (ch : String) (join : ClientInfo) (opts : Option ChannelOptions)
  | publishLeave (ch : String) (leave : ClientInfo) (opts : Option ChannelOptions)

/-- The call on a node with config `c`: the channel and what it hands the engine to publish on
it, or the error it returns. -/
def PublishCall.run (c : Config) : PublishCall → Except NodeError (String × Delivery)
  | .publish ch pub opts nextUid =>
    (CentrifugoNode.publish c ch pub opts nextUid).map fun r => (ch, .publication r.1)
  | .publishJoin ch join opts =>
    (CentrifugoNode.publishJoin c ch join opts).map fun r => (ch, .join r.1)
  | .publishLeave ch leave opts =>
    (CentrifugoNode.publishLeave c ch leave opts).map fun r => (ch, .leave r.1)

/-- One step of the data plane: a publish call on member `i`, with the outcome of the engine's
call, or the engine handing member `i` its oldest message. -/
inductive DataAct
  | call (i : Nat) (c : PublishCall) (engineFails : Bool)
  | deliver (i : Nat)

/-- A publish call on member `i`, with an engine that hands the message to the nodes subscribed
to its channel: the cluster after it, and what the engine accepted. -/
def DataCluster.callStep (cl : DataCluster D) (i : Nat) (c : PublishCall) (engineFails : Bool) :
    Option (DataCluster D × List (String × Delivery)) :=
  cl.members[i]?.map fun m =>
    match c.run m.node.config with
    | .error _ => (cl, [])
    | .ok (ch, d) =>
      if engineFails then (cl, [])
      else (cl.publish (deliveryMessage k ch d) (subscribedTo ch), [(ch, d)])

/-- A step of a run is the `Publish` of `publishCall`, with the engine that hands the message to
the nodes subscribed to its channel. -/
theorem DataCluster.callStep_publish (cl : DataCluster D) (i : Nat) (ch : String)
    (pub : Publication) (opts : Option ChannelOptions) (nextUid : String) (engineFails : Bool) :
    (cl.callStep k i (.publish ch pub opts nextUid) engineFails).map Prod.fst =
      (cl.publishCall k i ch pub opts nextUid (subscribedTo ch) engineFails).map Prod.fst := by
  simp only [callStep, publishCall, Option.map_map]
  congr 1
  funext m
  simp only [Function.comp, PublishCall.run]
  cases hp : publish m.node.config ch pub opts nextUid with
  | error e => simp [hp, Except.map]
  | ok po => by_cases he : engineFails <;> simp [hp, Except.map, he, publicationMessage]

/-- A schedule run step by step, with what the engine accepted, in order. -/
def DataCluster.exec (cl : DataCluster D) :
    List DataAct → Option (DataCluster D × List (String × Delivery))
  | [] => some (cl, [])
  | .call i c engineFails :: acts =>
    (cl.callStep k i c engineFails).bind fun r => (exec r.1 acts).map fun r' => (r'.1, r.2 ++ r'.2)
  | .deliver i :: acts => (cl.deliver (messageHandler k) i).bind (exec · acts)

theorem DataCluster.callStep_cases {cl cl₁ : DataCluster D} {i : Nat} {c : PublishCall}
    {engineFails : Bool} {l : List (String × Delivery)}
    (h : cl.callStep k i c engineFails = some (cl₁, l)) :
    (l = [] ∧ cl₁ = cl) ∨
      ∃ ch d, l = [(ch, d)] ∧ cl₁ = cl.publish (deliveryMessage k ch d) (subscribedTo ch) := by
  obtain ⟨m, -, hr⟩ := Option.map_eq_some'.1 h
  revert hr
  split
  · intro hr
    exact .inl ⟨(Prod.mk.inj hr).2.symm, (Prod.mk.inj hr).1.symm⟩
  · split_ifs <;> intro hr
    · exact .inl ⟨(Prod.mk.inj hr).2.symm, (Prod.mk.inj hr).1.symm⟩
    · exact .inr ⟨_, _, (Prod.mk.inj hr).2.symm, (Prod.mk.inj hr).1.symm⟩

theorem sub_messageHandler (m : Message D) (n : DataNode) :
    (messageHandler k m n).sub = n.sub := by
  unfold messageHandler handleClientMessage handlePublication handleJoin handleLeave
    handleBroadcast
  split <;> (try split) <;> (try split_ifs) <;> rfl

theorem sub_foldl_messageHandler (l : List (Message D)) (n : DataNode) :
    (l.foldl (fun n msg => messageHandler k msg n) n).sub = n.sub := by
  induction l generalizing n with
  | nil => rfl
  | cons msg l ih => exact (ih _).trans (sub_messageHandler k msg n)

theorem Bus.Progress.sub {n₀ : DataNode} {sent : List (Message D)}
    {m : Member DataNode (Message D)} (h : Bus.Progress (messageHandler k) n₀ sent m) :
    m.node.sub = n₀.sub := by
  obtain ⟨j, -, -, hn⟩ := h
  rw [hn, sub_foldl_messageHandler]

/-- Node `n` once its clients have received what was published in `log`, with the channels:
each client, after what it had, what was published on the channels it is subscribed to, in
order. -/
def receivedAfter (log : List (String × Delivery)) (n : DataNode) : DataNode :=
  { n with received := fun c => n.received c ++ log.filter fun e => c ∈ n.sub.hub.subs e.1 }

/-- Handling the messages of what was published, in order, broadcasts each to the subscribers
of its channel. -/
theorem foldl_messageHandler (hk : k.RoundTrip) (l : List (String × Delivery)) (n : DataNode) :
    (l.map fun e => deliveryMessage k e.1 e.2).foldl (fun n msg => messageHandler k msg n) n =
      receivedAfter l n := by
  induction l generalizing n with
  | nil => simp [receivedAfter]
  | cons e l ih =>
    rw [List.map_cons, List.foldl_cons, ih, messageHandler,
      handleClientMessage_deliveryMessage k hk]
    simp only [receivedAfter, broadcast, DataNode.mk.injEq, true_and]
    funext c
    by_cases hc : c ∈ n.sub.hub.subs e.1 <;> simp [hc]

/-- With its engine subscribed exactly where its hub has subscribers, a node's clients receive
nothing of what is published on channels its engine is not subscribed to. -/
theorem receivedAfter_filter_subscribed {n : DataNode} (hpar : ∀ ch, Parity n.sub ch)
    (log : List (String × Delivery)) :
    receivedAfter (log.filter fun e => subscribedTo e.1 n) n = receivedAfter log n := by
  simp only [receivedAfter, List.filter_filter, DataNode.mk.injEq, true_and]
  funext c
  congr 1
  refine List.filter_congr fun e _ => ?_
  by_cases hc : c ∈ n.sub.hub.subs e.1
  · simp [hc, subscribedTo, (hpar e.1).2 (Finset.ne_empty_of_mem hc)]
  · simp [hc]

/-- The messages the engine hands node `n` for what was published in `log`: those on the
channels its engine is subscribed to, in order. -/
def sentTo (n : DataNode) (log : List (String × Delivery)) : List (Message D) :=
  (log.filter fun e => subscribedTo e.1 n).map fun e => deliveryMessage k e.1 e.2

/-- Every member, against the member it started as, has handled in order a prefix of the
messages the engine handed it for what was published in `log`, and holds the others. -/
def DataInv (cl₀ : DataCluster D) (log : List (String × Delivery)) (cl : DataCluster D) : Prop :=
  List.Forall₂ (fun m₀ m => Bus.Progress (messageHandler k) m₀.node (sentTo k m₀.node log) m)
    cl₀.members cl.members

variable {k}

theorem DataInv.start {cl : DataCluster D} (hq : cl.Quiet) : DataInv k cl [] cl :=
  List.forall₂_same.2 fun m hm => Bus.Progress.start (hq m hm)

theorem DataInv.deliver {cl₀ cl cl' : DataCluster D} {log : List (String × Delivery)}
    (hi : DataInv k cl₀ log cl) {i : Nat} (h : cl.deliver (messageHandler k) i = some cl') :
    DataInv k cl₀ log cl' := by
  unfold Bus.deliver at h
  split at h
  · rename_i n msg rest hm
    cases h
    exact Bus.forall₂_set hi fun m₀ hm₀ => (Bus.forall₂_getElem? hi hm₀ hm).deliver
  · cases h

theorem DataInv.publish {cl₀ cl : DataCluster D} {log : List (String × Delivery)}
    (hi : DataInv k cl₀ log cl) (ch : String) (d : Delivery) :
    DataInv k cl₀ (log ++ [(ch, d)]) (cl.publish (deliveryMessage k ch d) (subscribedTo ch)) := by
  refine List.forall₂_map_right_iff.2 (hi.imp fun m₀ m hm => ?_)
  have hsub : subscribedTo ch m.node = subscribedTo ch m₀.node := by
    simp only [subscribedTo, hm.sub]
  simp only [sentTo, List.filter_append, List.filter_cons, List.filter_nil, hsub]
  split_ifs
  · simpa using hm.publish (deliveryMessage k ch d)
  · simpa using hm

theorem DataInv.exec {cl₀ cl : DataCluster D} {log : List (String × Delivery)}
    (hi : DataInv k cl₀ log cl) {acts : List DataAct} {cl' : DataCluster D}
    {log' : List (String × Delivery)} (h : cl.exec k acts = some (cl', log')) :
    DataInv k cl₀ (log ++ log') cl' := by
  induction acts generalizing cl log log' with
  | nil =>
    cases h
    simpa using hi
  | cons a acts ih =>
    cases a with
    | call i c engineFails =>
      obtain ⟨⟨cl₁, l⟩, hcall, hrest⟩ := Option.bind_eq_some.1 h
      obtain ⟨⟨cl₂, log₂⟩, hexec, hr⟩ := Option.map_eq_some'.1 hrest
      simp only [Prod.mk.injEq] at hr
      obtain ⟨rfl, rfl⟩ := hr
      rcases DataCluster.callStep_cases k hcall with ⟨rfl, rfl⟩ | ⟨ch, d, rfl, rfl⟩
      · simpa using ih hi hexec
      · simpa using ih (hi.publish ch d) hexec
    | deliver i =>
      obtain ⟨cl₁, hd, hrest⟩ := Option.bind_eq_some.1 h
      exact ih (hi.deliver hd) hrest

/-- **Every client receives what is published on its channels, once each, in publish order**:
in a cluster where each node's engine is subscribed to a channel exactly when its hub has a
subscriber, take any run of `Publish`, `PublishJoin` and `PublishLeave` calls on any nodes, some
failing, interleaved with the engine's deliveries in any order, with an engine that hands a
message to the nodes subscribed to its channel. Once no message is in flight, every client has
received, after what it had, what the engine accepted on the channels it is subscribed to, each
once and in the order it was published. -/
theorem exec_delivers_in_order (hk : k.RoundTrip) {cl : DataCluster D} (hq : cl.Quiet)
    (hpar : ∀ m ∈ cl.members, ∀ ch, Parity m.node.sub ch) {acts : List DataAct}
    {cl' : DataCluster D} {log : List (String × Delivery)}
    (h : cl.exec k acts = some (cl', log)) (hdone : cl'.Quiet) :
    cl'.members.map (·.node) = cl.members.map fun m => receivedAfter log m.node := by
  have hi : DataInv k cl log cl' := by simpa using (DataInv.start hq).exec h
  refine (List.forall₂_eq_eq_eq ▸ List.forall₂_map_left_iff.2 (List.forall₂_map_right_iff.2
    (Bus.forall₂_imp_mem hi fun m₀ hm₀ m hm hpr => ?_))).symm
  rw [hpr.done (hdone m hm), sentTo, foldl_messageHandler k hk,
    receivedAfter_filter_subscribed (hpar m₀ hm₀)]

/-- `B` publishes on `news` without a uid, `A` has `a1` join `news` and publishes on `room`,
which no engine is subscribed to; then the engine hands `A` its two messages. -/
def newsSchedule : List DataAct :=
  [.call 1 (.publish "news" ⟨"", "x"⟩ none "u1") false,
    .call 0 (.publishJoin "news" ⟨"u", "a1"⟩ none) false,
    .call 0 (.publish "room" ⟨"", "z"⟩ none "u3") false, .deliver 0, .deliver 0]

theorem exec_delivers_in_order_news :
    ∃ cl' log, newsCluster.exec deliveryCodec newsSchedule = some (cl', log) ∧ cl'.Quiet ∧
      cl'.members.map (·.node) = newsCluster.members.map fun m => receivedAfter log m.node := by
  refine ⟨_, _, rfl, by decide, ?_⟩
  have hpar : ∀ m ∈ newsCluster.members, ∀ ch, Parity m.node.sub ch := by
    intro m hm ch
    simp only [newsCluster, List.mem_cons, List.mem_singleton, List.not_mem_nil, or_false] at hm
    rcases hm with rfl | rfl <;> by_cases h : ch = "news" <;> simp [Parity, SubState.init, h]
  exact @exec_delivers_in_order Delivery deliveryCodec deliveryCodec_roundTrip newsCluster
    (by decide) hpar newsSchedule _ _ rfl (by decide)

/-- `a1` gets the publication on `news`, with the new uid, then the join. -/
example : (newsCluster.exec deliveryCodec newsSchedule).map
      (fun r => r.1.members.map fun m => m.node.received "a1") =
    some [[("news", .publication ⟨"u1", "x"⟩), ("news", .join ⟨"u", "a1"⟩)], []] := by
  decide

end CentrifugoNode
