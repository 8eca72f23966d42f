import CentrifugoNode.GoStrings

/-!
# Channel names

The node reads three things out of a channel name, with the delimiters of its `Config`: the
namespace (`namespaceName`, which `ChannelOpts` looks up), the users a channel is restricted to
(`UserAllowed`) and the one client it is pinned to (`ClientAllowed`). Each is a `Contains` check
followed by an index into the slice that `SplitN` or `Split` returns. `New` installs any config,
so a delimiter may be empty, and then the slice may be empty too: the index panics, which is
`none` here.

* `namespaceName_eq_none_iff`, `userAllowed_eq_none_iff`, `clientAllowed_eq_none_iff`: each
  check panics exactly when its delimiter and the string it splits are both empty.
* `namespaceName_decode`: a namespace written before the boundary is the one read back, past
  the private prefix or not.
* `allowed_suffix_roundtrip`: a user list or a client id written after its boundary is the one
  the checks read back.
-/

namespace CentrifugoNode

open GoStrings

/-- Modelled from the spec: `channel.Options`, which the node only hands on to the engine. -/
structure ChannelOptions where
  presence : Bool
  joinLeave : Bool
  historySize : Nat
  historyLifetime : Nat
  deriving DecidableEq, Repr

/-- The node's `Config`, the fields the node reads (`config.go` is not among the sources).
`nodeMetricsInterval` is `NodeMetricsInterval` in whole seconds, so its `Seconds()` is exact;
`channelOpts` is its namespace lookup, `none` for `ok = false`. -/
structure Config where
  name : String
  nodeMetricsInterval : Nat
  privateChannelPrefix : String
  namespaceChannelBoundary : String
  userChannelBoundary : String
  userChannelSeparator : String
  clientChannelBoundary : String
  channelOpts : String → Option ChannelOptions

/-- A configuration with the usual delimiters and only the top-level namespace, for the
concrete runs below. -/
def exampleConfig : Config where
  name := "node"
  nodeMetricsInterval := 60
  privateChannelPrefix := "$"
  namespaceChannelBoundary := ":"
  userChannelBoundary := "#"
  userChannelSeparator := ","
  clientChannelBoundary := "&"
  channelOpts ns := if ns = "" then some ⟨false, false, 0, 0⟩ else none

variable (c : Config)

/-- `namespaceName`: the part of the channel before the first boundary, past the private prefix.
`none` is the panic of `parts[0]` when `SplitN` returns an empty slice. -/
def namespaceName (ch : String) : Option String :=
  let cTrim := trimPrefix ch c.privateChannelPrefix
  if contains cTrim c.namespaceChannelBoundary then
    let parts := splitN cTrim c.namespaceChannelBoundary 2
    parts[0]?
  else some ""

/-- `ChannelOpts`: the options of the channel's namespace; `none` when `namespaceName` panics. -/
def channelOpts (ch : String) : Option (Option ChannelOptions) :=
  (namespaceName c ch).map c.channelOpts

/-- `PrivateChannel`. -/
def privateChannel (ch : String) : Bool := hasPrefix ch c.privateChannelPrefix

/-- What `UserAllowed` and `ClientAllowed` share: a channel without `boundary` passes, otherwise
`test` decides on the last piece of `Split(ch, boundary)`. `none` is the panic of
`parts[len(parts)-1]` on an empty slice. -/
def suffixCheck (boundary : String) (test : String → Bool) (ch : String) : Option Bool :=
  if !contains ch boundary then some true
  else
    let parts := split ch boundary
    parts[parts.length - 1]?.map test

/-- `UserAllowed`: the last piece is a list of users joined by the separator. -/
def userAllowed (ch user : String) : Option Bool :=
  suffixCheck c.userChannelBoundary
    (fun last => (split last c.userChannelSeparator).any fun allowedUser => user == allowedUser) ch

/-- `ClientAllowed`: the last piece is one client id. -/
def clientAllowed (ch client : String) : Option Bool :=
  suffixCheck c.clientChannelBoundary (fun allowedClient => client == allowedClient) ch

/-! ## When the checks panic -/

theorem contains_empty (s : String) : contains s "" = true := by
  simp [contains]

theorem namespaceName_eq_none_iff (ch : String) :
    namespaceName c ch = none ↔
      c.namespaceChannelBoundary = "" ∧ trimPrefix ch c.privateChannelPrefix = "" := by
  unfold namespaceName
  by_cases hc : contains (trimPrefix ch c.privateChannelPrefix) c.namespaceChannelBoundary
  · simp [hc, ← List.head?_eq_getElem?, splitN_two_eq_nil_iff]
  · have hb : c.namespaceChannelBoundary ≠ "" := fun h => hc (h ▸ contains_empty _)
    simp [hc, hb]

theorem suffixCheck_eq_none_iff {boundary ch : String} {test : String → Bool} :
    suffixCheck boundary test ch = none ↔ boundary = "" ∧ ch = "" := by
  unfold suffixCheck
  by_cases hc : contains ch boundary
  · simp [hc, ← List.getLast?_eq_getElem?, split_eq_nil_iff]
  · have hb : boundary ≠ "" := fun h => hc (h ▸ contains_empty _)
    simp [hc, hb]

theorem userAllowed_eq_none_iff (ch user : String) :
    userAllowed c ch user = none ↔ c.userChannelBoundary = "" ∧ ch = "" :=
  suffixCheck_eq_none_iff

theorem clientAllowed_eq_none_iff (ch client : String) :
    clientAllowed c ch client = none ↔ c.clientChannelBoundary = "" ∧ ch = "" :=
  suffixCheck_eq_none_iff

/-- `exampleConfig` with its three boundaries emptied, which `New` installs unchecked. -/
def emptyBoundaryConfig : Config :=
  { exampleConfig with
    namespaceChannelBoundary := "", userChannelBoundary := "", clientChannelBoundary := "" }

/-- With empty boundaries the empty channel, and the channel that is just the private prefix,
make `namespaceName`, `UserAllowed` and `ClientAllowed` index an empty slice. -/
theorem empty_boundary_checks_panic :
    namespaceName emptyBoundaryConfig "" = none ∧ namespaceName emptyBoundaryConfig "$" = none ∧
      userAllowed emptyBoundaryConfig "" "42" = none ∧
      clientAllowed emptyBoundaryConfig "" "client" = none :=
  ⟨(namespaceName_eq_none_iff _ _).2 ⟨rfl, by decide⟩,
    (namespaceName_eq_none_iff _ _).2 ⟨rfl, by decide⟩,
    (userAllowed_eq_none_iff _ _ _).2 ⟨rfl, rfl⟩, (clientAllowed_eq_none_iff _ _ _).2 ⟨rfl, rfl⟩⟩

/-! ## Reading back what was written -/

theorem namespaceName_of_trimPrefix {ch ns s : String} (hb : c.namespaceChannelBoundary ≠ "")
    (htrim : trimPrefix ch c.privateChannelPrefix = ns ++ c.namespaceChannelBoundary ++ s)
    (hns : ∀ i < ns.length,
      ¬ c.namespaceChannelBoundary.data <+: (ns.data ++ c.namespaceChannelBoundary.data).drop i) :
    namespaceName c ch = some ns := by
  have hidx := indexOf_append_append (s := s.data) hns
  have hin : contains (ns ++ c.namespaceChannelBoundary ++ s) c.namespaceChannelBoundary := by
    simp [contains, hidx]
  simp only [namespaceName, htrim, hin, if_true, splitN, if_neg (data_ne_nil hb),
    String.data_append, List.append_assoc, Nat.reduceSub]
  rw [cutLoop_succ_of_indexOf hidx, List.take_left' rfl]
  rfl

theorem channelOpts_of_namespaceName {ch ns : String} (h : namespaceName c ch = some ns) :
    channelOpts c ch = some (c.channelOpts ns) := by
  simp [channelOpts, h]

/-- **The namespace written before the boundary is the one read back**, behind the private
prefix, or without it when the channel does not start with the prefix; a channel with no
boundary past the prefix has the empty namespace. `ChannelOpts` looks up that namespace. -/
theorem namespaceName_decode (hb : c.namespaceChannelBoundary ≠ "") (ns s : String)
    (hns : ∀ i < ns.length,
      ¬ c.namespaceChannelBoundary.data <+: (ns.data ++ c.namespaceChannelBoundary.data).drop i) :
    (namespaceName c (c.privateChannelPrefix ++ ns ++ c.namespaceChannelBoundary ++ s) = some ns ∧
      channelOpts c (c.privateChannelPrefix ++ ns ++ c.namespaceChannelBoundary ++ s) =
        some (c.channelOpts ns)) ∧
    ((c.privateChannelPrefix = "" ∨
        hasPrefix (ns ++ c.namespaceChannelBoundary ++ s) c.privateChannelPrefix = false) →
      namespaceName c (ns ++ c.namespaceChannelBoundary ++ s) = some ns ∧
      channelOpts c (ns ++ c.namespaceChannelBoundary ++ s) = some (c.channelOpts ns)) ∧
    (∀ ch, ¬ c.namespaceChannelBoundary.data <:+: (trimPrefix ch c.privateChannelPrefix).data →
      namespaceName c ch = some "" ∧ channelOpts c ch = some (c.channelOpts "")) := by
  have hp : namespaceName c (c.privateChannelPrefix ++ ns ++ c.namespaceChannelBoundary ++ s) =
      some ns :=
    namespaceName_of_trimPrefix c (s := s) hb (by simp [String.append_assoc]) hns
  refine ⟨⟨hp, channelOpts_of_namespaceName c hp⟩, fun hpre => ?_, fun ch hch => ?_⟩
  · have h : namespaceName c (ns ++ c.namespaceChannelBoundary ++ s) = some ns := by
      refine namespaceName_of_trimPrefix c (s := s) hb ?_ hns
      rcases hpre with h | h
      · rw [h, trimPrefix_empty]
      · exact trimPrefix_of_hasPrefix_eq_false h
    exact ⟨h, channelOpts_of_namespaceName c h⟩
  · have h : namespaceName c ch = some "" := by
      simp [namespaceName, (contains_iff.not).2 hch]
    exact ⟨h, channelOpts_of_namespaceName c h⟩

theorem namespaceName_decode_public :
    (exampleConfig.namespaceChannelBoundary ≠ "" ∧
      ∀ i < "public".length, ¬ exampleConfig.namespaceChannelBoundary.data <+:
        ("public".data ++ exampleConfig.namespaceChannelBoundary.data).drop i) ∧
    namespaceName exampleConfig ("$" ++ "public" ++ ":" ++ "chat") = some "public" :=
  have h1 : exampleConfig.namespaceChannelBoundary ≠ "" := by decide
  have h2 : ∀ i < "public".length, ¬ exampleConfig.namespaceChannelBoundary.data <+:
      ("public".data ++ exampleConfig.namespaceChannelBoundary.data).drop i := by decide
  ⟨⟨h1, h2⟩, (namespaceName_decode exampleConfig h1 "public" "chat" h2).1.1⟩

theorem suffixCheck_append {boundary base L : String} (test : String → Bool)
    (hb : boundary ≠ "") (hL : ¬ boundary.data <:+: L.data)
    (hbase : boundary.length = 1 ∨ ∀ x ∈ base.data, x ∉ boundary.data) :
    suffixCheck boundary test (base ++ boundary ++ L) = some (test L) := by
  have hin : contains (base ++ boundary ++ L) boundary = true :=
    contains_iff.2 ⟨base.data, L.data, by simp⟩
  simp only [suffixCheck, hin, Bool.not_true, Bool.false_eq_true, if_false,
    ← List.getLast?_eq_getElem?, getLast_split_append (data_ne_nil hb) hL hbase, Option.map_some']

/-- **The users and the client written after their boundaries are the ones the checks read
back**: with the list joined by the separator, `UserAllowed` admits exactly its members, and
`ClientAllowed` admits exactly the written client. -/
theorem allowed_suffix_roundtrip :
    (c.userChannelBoundary ≠ "" → c.userChannelSeparator ≠ "" →
      ∀ (base : String) (us : List String), us ≠ [] →
        (∀ u ∈ us, ∀ x ∈ u.data, x ∉ c.userChannelSeparator.data) →
        ¬ c.userChannelBoundary.data <:+: (join us c.userChannelSeparator).data →
        (c.userChannelBoundary.length = 1 ∨ ∀ x ∈ base.data, x ∉ c.userChannelBoundary.data) →
        ∀ u, userAllowed c (base ++ c.userChannelBoundary ++ join us c.userChannelSeparator) u =
          some (decide (u ∈ us))) ∧
    (c.clientChannelBoundary ≠ "" →
      ∀ base id : String, ¬ c.clientChannelBoundary.data <:+: id.data →
        (c.clientChannelBoundary.length = 1 ∨ ∀ x ∈ base.data, x ∉ c.clientChannelBoundary.data) →
        ∀ x, clientAllowed c (base ++ c.clientChannelBoundary ++ id) x = some (decide (x = id))) := by
  refine ⟨fun hb hs base us hus hchar hL hbase u => ?_, fun hb base id hid hbase x => ?_⟩
  · rw [userAllowed, suffixCheck_append _ hb hL hbase, split_join (data_ne_nil hs) hus hchar]
    rw [Option.some_inj, Bool.eq_iff_iff, decide_eq_true_iff]
    exact List.any_beq
  · rw [clientAllowed, suffixCheck_append _ hb hid hbase, Bool.beq_eq_decide_eq]

theorem allowed_suffix_roundtrip_dialog :
    userAllowed exampleConfig ("dialog" ++ "#" ++ join ["42", "43"] ",") "43" = some true ∧
      clientAllowed exampleConfig ("chat" ++ "&" ++ "c1") "c2" = some false :=
  ⟨(allowed_suffix_roundtrip exampleConfig).1 (by decide) (by decide) "dialog" ["42", "43"]
      (by decide) (by decide) (by decide) (by decide) "43",
    (allowed_suffix_roundtrip exampleConfig).2 (by decide) "chat" "c1" (by decide) (by decide) "c2"⟩

end CentrifugoNode
