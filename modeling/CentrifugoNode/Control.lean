import CentrifugoNode.Channel
import Mathlib.Data.List.Forall2

/-!
# The control plane of one node

The admin calls `Unsubscribe` and `Disconnect` act on the node's own connections
(`unsubscribeUser`, `disconnectUser`) and then publish a control command through the engine;
every node hands the commands it receives to `HandleControl`, which drops its own and dispatches
the others on their method. The command's params go through the control codec, which is not
among the sources: it is a parameter here, with `RoundTrip` saying that decoding inverts
encoding.

* `unsubscribeUser_of_ok`, `unsubscribeUser_eq_none_iff`: `unsubscribeUser` returns nil exactly
  when no `Unsubscribe` of the user's connections fails, and then every connection of the user
  has left the channel, or every channel when it is empty.
* `unsubscribeUser_narrows`: failing or not, `unsubscribeUser` only takes channels away from the
  user's connections.
* `handleControl_pubUnsubscribe`: a node receiving another's unsubscribe command unsubscribes
  the user from every channel: `pubUnsubscribe` leaves the channel out of the params.
* `handleControl_pubDisconnect_closes`: a node receiving another's disconnect command closes
  nothing, whatever the codec: `pubDisconnect` sends it under the method `"unsubscribe"`.
* `handleControl_pubNode`: a node receiving another's node-info command adds the record to its
  registry.
* `handleControl_self`: a node drops the commands it sent.
-/

namespace CentrifugoNode

/-- A metrics map (`map[string]int64`) by its lookups, `none` for a missing name. -/
abbrev MetricsMap := String → Option Int

/-- `control.Node`: what a node tells the others about itself; `metrics` is `none` for a nil map. -/
structure NodeInfo where
  uid : String
  name : String
  version : String
  startedAt : Int
  metricsUpdateInterval : Nat
  metrics : Option MetricsMap

/-- `control.Unsubscribe`. -/
structure UnsubscribeCmd where
  user : String
  channel : String
  deriving DecidableEq, Repr

/-- `control.Disconnect`. -/
structure DisconnectCmd where
  user : String
  deriving DecidableEq, Repr

/-- `control.Command`, with params of type `P`. -/
structure Command (P : Type) where
  uid : String
  method : String
  params : P

/-- The control encoder and decoder (not among the sources); a failed decode is `none`. -/
structure ControlCodec (P : Type) where
  encodeNode : NodeInfo → P
  encodeUnsubscribe : UnsubscribeCmd → P
  encodeDisconnect : DisconnectCmd → P
  decodeNode : P → Option NodeInfo
  decodeUnsubscribe : P → Option UnsubscribeCmd
  decodeDisconnect : P → Option DisconnectCmd

/-- Decoding inverts encoding, for each kind of params. -/
structure ControlCodec.RoundTrip {P : Type} (k : ControlCodec P) : Prop where
  node : ∀ x, k.decodeNode (k.encodeNode x) = some x
  unsubscribe : ∀ x, k.decodeUnsubscribe (k.encodeUnsubscribe x) = some x
  disconnect : ∀ x, k.decodeDisconnect (k.encodeDisconnect x) = some x

/-- Params as they travel, for the concrete runs: under `wireCodec` an `Unsubscribe` decoder
reads a `Disconnect` payload as the same user with an empty channel, and back. -/
inductive WireParams
  | node (x : NodeInfo)
  | unsubscribe (x : UnsubscribeCmd)
  | disconnect (x : DisconnectCmd)

/-- The codec of the concrete runs. -/
def wireCodec : ControlCodec WireParams where
  encodeNode := .node
  encodeUnsubscribe := .unsubscribe
  encodeDisconnect := .disconnect
  decodeNode
    | .node x => some x
    | _ => none
  decodeUnsubscribe
    | .unsubscribe x => some x
    | .disconnect x => some ⟨x.user, ""⟩
    | _ => none
  decodeDisconnect
    | .disconnect x => some x
    | .unsubscribe x => some ⟨x.user⟩
    | _ => none

theorem wireCodec_roundTrip : wireCodec.RoundTrip :=
  ⟨fun _ => rfl, fun _ => rfl, fun _ => rfl⟩

/-- The errors the node returns; `panic` stands for a runtime panic of the call, and `decode`,
`engine` and `client` for a decoder's, the engine's or a connection's error returned as it is. -/
inductive NodeError
  | badRequest
  | namespaceNotFound
  | internalServerError
  | panic
  | decode
  | engine
  | client
  deriving DecidableEq, Repr

/-- `proto.Disconnect`: the advice a connection is closed with. -/
structure DisconnectAdvice where
  reason : String
  reconnect : Bool
  deriving DecidableEq, Repr

/-- Modelled from the spec: a client connection, with its id, its user and its channels. -/
structure Client where
  uid : String
  user : String
  channels : List String
  deriving DecidableEq, Repr

/-- Modelled from the spec: `Client.Unsubscribe` takes the connection off the channel. -/
def Client.unsubscribe (c : Client) (ch : String) : Client :=
  { c with channels := c.channels.filter (· ≠ ch) }

/-- One node, as its control plane sees it: its uid, config, version and start time (Unix
seconds), the hub's connections, the `Close` calls made on them (connection id and advice), and
the registry of known nodes. The connection's code is not among the sources:
`unsubscribeFails c ch` says whether connection `c`'s `Unsubscribe(ch)` returns an error, which
leaves the connection as it was. -/
structure NodeState where
  uid : String
  config : Config
  version : String
  startedAt : Int
  clients : List Client
  closes : List (String × DisconnectAdvice)
  nodes : List NodeInfo
  unsubscribeFails : String → String → Bool

namespace NodeState

/-- `UserConnections` of the hub. -/
def userConnections (n : NodeState) (user : String) : List Client :=
  n.clients.filter (·.user = user)

/-- Modelled from the spec: the registry's `add`, an upsert by uid. -/
def addNode (info : NodeInfo) (n : NodeState) : NodeState :=
  { n with nodes := n.nodes.filter (·.uid ≠ info.uid) ++ [info] }

end NodeState

/-! ## Local effects -/

/-- The inner loop of `unsubscribeUser`: `c.Unsubscribe` on each channel in turn, until one
fails, which ends the loop; the flag says whether one did. -/
def unsubscribeChannels (fails : String → Bool) : Client → List String → Client × Bool
  | c, [] => (c, false)
  | c, ch :: chs => if fails ch then (c, true) else unsubscribeChannels fails (c.unsubscribe ch) chs

/-- The channels `unsubscribeUser` takes connection `c` off: `ch`, or every channel `c` has when
the loop reaches it if `ch` is empty. -/
def Client.leaving (ch : String) (c : Client) : List String :=
  if ch = "" then c.channels else [ch]

/-- The outer loop of `unsubscribeUser`, over the hub's connections in its order: each
connection of `user` leaves the channels `leaving ch`; the first failing `Unsubscribe` ends the
loop, and the flag says whether one did. -/
def unsubscribeClients (fails : String → String → Bool) (user ch : String) :
    List Client → List Client × Bool
  | [] => ([], false)
  | c :: cs =>
    if c.user = user then
      match unsubscribeChannels (fails c.uid) c (c.leaving ch) with
      | (c', true) => (c' :: cs, true)
      | (c', false) => let r := unsubscribeClients fails user ch cs; (c' :: r.1, r.2)
    else let r := unsubscribeClients fails user ch cs; (c :: r.1, r.2)

/-- `unsubscribeUser`: every connection of `user` leaves `ch`, or all its channels when `ch` is
empty; the first `Unsubscribe` that fails stops it, and its error is returned. -/
def unsubscribeUser (user ch : String) (n : NodeState) : NodeState × Option NodeError :=
  let r := unsubscribeClients n.unsubscribeFails user ch n.clients
  ({ n with clients := r.1 }, if r.2 then some .client else none)

/-- `disconnectUser`: a `Close` with advice `{"disconnect", reconnect}` for every connection of
`user`, each started in a goroutine of its own, whose outcome nobody reads; `closes` records the
calls started. -/
def disconnectUser (user : String) (reconnect : Bool) (n : NodeState) : NodeState :=
  let advice : DisconnectAdvice := ⟨"disconnect", reconnect⟩
  { n with closes := n.closes ++ (n.userConnections user).map fun c => (c.uid, advice) }

/-- `nodeCmd`. -/
def nodeCmd (info : NodeInfo) (n : NodeState) : NodeState := n.addNode info

/-- What a connection of the user is left with when none of its `Unsubscribe` calls fails:
no channel if `ch` is empty, every other channel if not. -/
def Client.leave (ch : String) (c : Client) : Client :=
  { c with channels := if ch = "" then [] else c.channels.filter (· ≠ ch) }

theorem unsubscribeChannels_of_ok {fails : String → Bool} (c : Client) (l : List String)
    (h : ∀ x ∈ l, fails x = false) :
    unsubscribeChannels fails c l = ({ c with channels := c.channels.filter (· ∉ l) }, false) := by
  induction l generalizing c with
  | nil => simp [unsubscribeChannels]
  | cons ch l ih =>
    simp only [List.forall_mem_cons] at h
    simp only [unsubscribeChannels, h.1, Bool.false_eq_true, if_false, ih _ h.2,
      Client.unsubscribe, List.filter_filter, List.mem_cons]
    congr 3
    funext x
    simp [Bool.and_comm]

theorem unsubscribeChannels_snd {fails : String → Bool} (c : Client) (l : List String) :
    (unsubscribeChannels fails c l).2 = false ↔ ∀ x ∈ l, fails x = false := by
  induction l generalizing c with
  | nil => simp [unsubscribeChannels]
  | cons ch l ih => cases hf : fails ch <;> simp [unsubscribeChannels, hf, ih]

/-- Where no `Unsubscribe` of the user's connections fails. -/
def UnsubscribeOk (fails : String → String → Bool) (user ch : String) (cs : List Client) : Prop :=
  ∀ c ∈ cs, c.user = user → ∀ x ∈ c.leaving ch, fails c.uid x = false

theorem unsubscribeClients_of_ok {fails : String → String → Bool} {user ch : String}
    (cs : List Client) (h : UnsubscribeOk fails user ch cs) :
    unsubscribeClients fails user ch cs =
      (cs.map fun c => if c.user = user then c.leave ch else c, false) := by
  induction cs with
  | nil => rfl
  | cons c cs ih =>
    simp only [UnsubscribeOk, List.forall_mem_cons] at h
    by_cases hc : c.user = user
    · rw [unsubscribeClients, if_pos hc, unsubscribeChannels_of_ok c _ (h.1 hc), ih h.2]
      by_cases hch : ch = "" <;> simp [hc, hch, Client.leave, Client.leaving]
    · simp [unsubscribeClients, hc, ih h.2]

theorem unsubscribeClients_snd {fails : String → String → Bool} {user ch : String}
    (cs : List Client) :
    (unsubscribeClients fails user ch cs).2 = false ↔ UnsubscribeOk fails user ch cs := by
  induction cs with
  | nil => simp [unsubscribeClients, UnsubscribeOk]
  | cons c cs ih =>
    simp only [UnsubscribeOk, List.forall_mem_cons] at ih ⊢
    by_cases hc : c.user = user
    · have := @unsubscribeChannels_snd (fails c.uid) c (c.leaving ch)
      rw [unsubscribeClients, if_pos hc]
      rcases hr : unsubscribeChannels (fails c.uid) c (c.leaving ch) with ⟨c', _ | _⟩ <;>
        simp_all
    · simp [unsubscribeClients, hc, ih]

/-- **Unsubscribing with no failing `Unsubscribe`**: every connection of the user leaves `ch`, or
every channel when `ch` is empty, and `unsubscribeUser` returns nil. -/
theorem unsubscribeUser_of_ok {user ch : String} {n : NodeState}
    (h : UnsubscribeOk n.unsubscribeFails user ch n.clients) :
    unsubscribeUser user ch n =
      ({ n with clients := n.clients.map fun c => if c.user = user then c.leave ch else c },
        none) := by
  rw [unsubscribeUser, unsubscribeClients_of_ok _ h]
  rfl

/-- **`unsubscribeUser` returns nil exactly when** no `Unsubscribe` of the user's connections
fails. -/
theorem unsubscribeUser_eq_none_iff {user ch : String} {n : NodeState} :
    (unsubscribeUser user ch n).2 = none ↔ UnsubscribeOk n.unsubscribeFails user ch n.clients := by
  rw [← unsubscribeClients_snd]
  simp [unsubscribeUser]

/-- A connection after `unsubscribeUser`, against the one before: same id and user, and a
sublist of its channels; unchanged if it belongs to another user. -/
def Client.Narrows (user : String) (c c' : Client) : Prop :=
  c'.uid = c.uid ∧ c'.user = c.user ∧ c'.channels.Sublist c.channels ∧ (c.user ≠ user → c' = c)

theorem Client.Narrows.refl (user : String) (c : Client) : c.Narrows user c :=
  ⟨rfl, rfl, List.Sublist.refl _, fun _ => rfl⟩

theorem narrows_unsubscribeChannels (fails : String → Bool) (user : String) (c : Client)
    (hc : c.user = user) (l : List String) : c.Narrows user (unsubscribeChannels fails c l).1 := by
  induction l generalizing c with
  | nil => exact .refl user c
  | cons ch l ih =>
    simp only [unsubscribeChannels]
    split_ifs
    · exact .refl user c
    · obtain ⟨hid, hu, hsub, -⟩ := ih (c.unsubscribe ch) hc
      exact ⟨hid, hu, hsub.trans (List.filter_sublist _), fun h => absurd hc h⟩

theorem narrows_unsubscribeClients (fails : String → String → Bool) (user ch : String)
    (cs : List Client) :
    List.Forall₂ (Client.Narrows user) cs (unsubscribeClients fails user ch cs).1 := by
  induction cs with
  | nil => exact .nil
  | cons c cs ih =>
    rw [unsubscribeClients]
    by_cases hu : c.user = user
    · have hc := narrows_unsubscribeChannels (fails c.uid) user c hu (c.leaving ch)
      rw [if_pos hu]
      rcases hr : unsubscribeChannels (fails c.uid) c (c.leaving ch) with ⟨c', _ | _⟩ <;>
        rw [hr] at hc
      · exact .cons hc ih
      · exact .cons hc (List.forall₂_same.2 fun c _ => .refl user c)
    · rw [if_neg hu]
      exact .cons (.refl user c) ih

/-- **Unsubscribing only narrows**, failing or not: every connection keeps its id, its user and
a sublist of its channels, and the connections of other users are left as they were. -/
theorem unsubscribeUser_narrows (user ch : String) (n : NodeState) :
    List.Forall₂ (Client.Narrows user) n.clients (unsubscribeUser user ch n).1.clients :=
  narrows_unsubscribeClients _ user ch n.clients

/-- `a1` leaves `room`, fails to leave `news`, and the loop stops before `a2`. -/
example : Prod.map NodeState.clients id (unsubscribeUser "u" "" ⟨"A", exampleConfig, "1.0", 0,
      [⟨"a1", "u", ["room", "news"]⟩, ⟨"a2", "u", ["room"]⟩], [], [],
      fun c ch => c = "a1" && ch = "news"⟩) =
    ([⟨"a1", "u", ["news"]⟩, ⟨"a2", "u", ["room"]⟩], some .client) := by
  decide

/-! ## Commands -/

variable {P : Type} (k : ControlCodec P)

/-- `pubUnsubscribe`: the source leaves the channel out of the params (a `TODO` there). -/
def pubUnsubscribe (n : NodeState) (user _ch : String) : Command P :=
  ⟨n.uid, "unsubscribe", k.encodeUnsubscribe ⟨user, ""⟩⟩

/-- `pubDisconnect`: `Disconnect` params, sent under the method `"unsubscribe"`. -/
def pubDisconnect (n : NodeState) (user : String) (_reconnect : Bool) : Command P :=
  ⟨n.uid, "unsubscribe", k.encodeDisconnect ⟨user⟩⟩

/-- `HandleControl`: drop this node's own commands, dispatch the others on their method. -/
def handleControl (cmd : Command P) (n : NodeState) : NodeState × Option NodeError :=
  if cmd.uid = n.uid then (n, none)
  else
    match cmd.method with
    | "node" =>
      match k.decodeNode cmd.params with
      | none => (n, some .badRequest)
      | some info => (nodeCmd info n, none)
    | "unsubscribe" =>
      match k.decodeUnsubscribe cmd.params with
      | none => (n, some .badRequest)
      | some u => unsubscribeUser u.user u.channel n
    | "disconnect" =>
      match k.decodeDisconnect cmd.params with
      | none => (n, some .badRequest)
      | some d => (disconnectUser d.user false n, none)
    | _ => (n, some .badRequest)

/-- What an admin call leaves: the node, the command the engine accepted, and the error. -/
structure CallResult (P : Type) where
  node : NodeState
  published : Option (Command P)
  err : Option NodeError

/-- `Unsubscribe`; `publishFails` is the outcome of the engine's `PublishControl`. -/
def unsubscribe (user ch : String) (publishFails : Bool) (n : NodeState) : CallResult P :=
  if user = "" then ⟨n, none, some .badRequest⟩
  else
    match (if ch ≠ "" then (channelOpts n.config ch).map Option.isSome else some true) with
    | none => ⟨n, none, some .panic⟩
    | some false => ⟨n, none, some .namespaceNotFound⟩
    | some true =>
      match unsubscribeUser user ch n with
      | (n, some _) => ⟨n, none, some .internalServerError⟩
      | (n, none) =>
        if publishFails then ⟨n, none, some .internalServerError⟩
        else ⟨n, some (pubUnsubscribe k n user ch), none⟩

/-- `Disconnect`; `publishFails` is the outcome of the engine's `PublishControl`. -/
def disconnect (user : String) (reconnect : Bool) (publishFails : Bool) (n : NodeState) :
    CallResult P :=
  if user = "" then ⟨n, none, some .badRequest⟩
  else
    let n := disconnectUser user reconnect n
    if publishFails then ⟨n, none, some .internalServerError⟩
    else ⟨n, some (pubDisconnect k n user reconnect), none⟩

theorem unsubscribe_ok {user ch : String} {n : NodeState}
    (h : (unsubscribe k user ch false n).err = none) :
    unsubscribe k user ch false n = ⟨(unsubscribeUser user ch n).1,
      some (pubUnsubscribe k (unsubscribeUser user ch n).1 user ch), none⟩ := by
  unfold unsubscribe at h ⊢
  by_cases hu : user = ""
  · simp [hu] at h
  · simp only [hu, if_false] at h ⊢
    rcases hr : unsubscribeUser user ch n with ⟨n', _ | e⟩ <;> rw [hr] at h <;> split at h <;>
      simp_all

theorem disconnect_ok {user : String} {reconnect : Bool} {n : NodeState}
    (h : (disconnect k user reconnect false n).err = none) :
    disconnect k user reconnect false n = ⟨disconnectUser user reconnect n,
      some (pubDisconnect k (disconnectUser user reconnect n) user reconnect), none⟩ := by
  unfold disconnect at h ⊢
  split_ifs at h ⊢
  rfl

/-- The record `pubNode` builds under the read lock: the node's uid, name, version and start
time, and the metrics interval in seconds, with the `Metrics` that `metricsOnce.Do` left in it
(`MState`). -/
def NodeState.nodeInfo (n : NodeState) (metrics : Option MetricsMap) : NodeInfo :=
  ⟨n.uid, n.config.name, n.version, n.startedAt, n.config.nodeMetricsInterval, metrics⟩

/-- `pubNode`, with the `Metrics` its record got from `metricsOnce.Do`: the node adds the record
to its own registry, then publishes it under the method `"node"`; `publishFails` is the outcome
of the engine's `PublishControl`, whose error is returned as it is. -/
def pubNode (metrics : Option MetricsMap) (publishFails : Bool) (n : NodeState) : CallResult P :=
  let node := n.nodeInfo metrics
  if publishFails then ⟨nodeCmd node n, none, some .engine⟩
  else ⟨nodeCmd node n, some ⟨n.uid, "node", k.encodeNode node⟩, none⟩

/-! ## What a command does on the receiving node -/

theorem handleControl_self (cmd : Command P) (n : NodeState) (h : cmd.uid = n.uid) :
    handleControl k cmd n = (n, none) := by
  simp [handleControl, h]

/-- **Another node's unsubscribe command unsubscribes the user from every channel.** -/
theorem handleControl_pubUnsubscribe (hk : k.RoundTrip) (a n : NodeState) (user ch : String)
    (hne : a.uid ≠ n.uid) :
    handleControl k (pubUnsubscribe k a user ch) n = unsubscribeUser user "" n := by
  simp [handleControl, pubUnsubscribe, hne, hk.unsubscribe]

/-- **Another node's record is added to the registry.** -/
theorem handleControl_pubNode (hk : k.RoundTrip) (info : NodeInfo) (a n : NodeState)
    (hne : a.uid ≠ n.uid) :
    handleControl k ⟨a.uid, "node", k.encodeNode info⟩ n = (nodeCmd info n, none) := by
  simp [handleControl, hne, hk.node]

/-- **Another node's disconnect command closes nothing**, whatever the codec: it arrives under
the method `"unsubscribe"`. -/
theorem handleControl_pubDisconnect_closes (a n : NodeState) (user : String) (reconnect : Bool) :
    (handleControl k (pubDisconnect k a user reconnect) n).1.closes = n.closes := by
  unfold handleControl pubDisconnect
  split_ifs
  · rfl
  · simp only
    split <;> rfl

end CentrifugoNode
