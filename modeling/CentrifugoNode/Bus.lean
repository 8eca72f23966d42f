import Mathlib.Data.List.Forall2

/-!
# The engine as a bus

The nodes of a cluster share one engine. Publishing hands a message to the nodes the engine
selects, the sender possibly among them; each node takes its messages in the order they were
published, and the deliveries to different nodes interleave in any order. A `Member` is a node
with the messages the engine has still to hand it, and `handle` is what a node does with one.
The control plane (`Cluster`) and the publications (`Publish`) are buses of this kind.

* `fanOut_handled`: once a message published on a quiet bus has been handled by every member it
  was handed to, in whatever order, each member it was handed to is its node with `handle`
  applied, and every other member is unchanged.
* `Progress`: over a run of many messages, a member has handled a prefix of the messages handed
  to it, in order, and holds the rest (`Progress.publish`, `Progress.deliver`); once its inbox
  is empty its node is its first node with every message handed to it handled, in the order of
  publication (`Progress.done`).
-/

namespace CentrifugoNode

/-- A node of the cluster, with the messages the engine has still to hand it, oldest first. -/
structure Member (N M : Type) where
  node : N
  inbox : List M

/-- The members of a cluster sharing one engine. -/
structure Bus (N M : Type) where
  members : List (Member N M)

namespace Bus

variable {N M : Type}

/-- The engine hands `msg` to every member whose node `sel` selects. -/
def publish (b : Bus N M) (msg : M) (sel : N → Bool) : Bus N M :=
  ⟨b.members.map fun m => if sel m.node then { m with inbox := m.inbox ++ [msg] } else m⟩

/-- No message in flight. -/
def Quiet (b : Bus N M) : Prop := ∀ m ∈ b.members, m.inbox = []

instance (b : Bus N M) : Decidable b.Quiet :=
  decidable_of_iff (b.members.all (·.inbox.isEmpty)) (by simp [Quiet, List.isEmpty_iff])

theorem quiet_set {b : Bus N M} (hq : b.Quiet) (i : Nat) {m : Member N M} (hm : m.inbox = []) :
    Quiet ⟨b.members.set i m⟩ := fun x hx => by
  rcases List.mem_or_eq_of_mem_set hx with hx | rfl
  · exact hq x hx
  · exact hm

variable (handle : M → N → N)

/-- The engine hands member `i` its oldest message, which the node handles. -/
def deliver (b : Bus N M) (i : Nat) : Option (Bus N M) :=
  match b.members[i]? with
  | some ⟨n, msg :: rest⟩ => some ⟨b.members.set i ⟨handle msg n, rest⟩⟩
  | _ => none

/-- Deliveries to the members listed, one after the other. -/
def deliverAll (b : Bus N M) : List Nat → Option (Bus N M)
  | [] => some b
  | i :: is => (b.deliver handle i).bind (deliverAll · is)

/-! ## The fan-out of one message -/

/-- What a node is once it has handled `msg`, if `msg` was handed to it. -/
def handled (msg : M) (sel : N → Bool) (n : N) : N := if sel n then handle msg n else n

/-- Member `m` is node `n` waiting for `msg` if it was handed it, or has handled it. -/
def Awaits (msg : M) (sel : N → Bool) (n : N) (m : Member N M) : Prop :=
  (m.node = n ∧ m.inbox = if sel n then [msg] else []) ∨
    (sel n = true ∧ m.node = handle msg n ∧ m.inbox = [])

/-- Each member awaits or has handled `msg`, from the node of the same index in `base`. -/
def FanOut (msg : M) (sel : N → Bool) (base : List N) (b : Bus N M) : Prop :=
  b.members.length = base.length ∧
    ∀ (i : Nat) n m, base[i]? = some n → b.members[i]? = some m → Awaits handle msg sel n m

theorem fanOut_publish {b : Bus N M} (hq : b.Quiet) (msg : M) (sel : N → Bool) :
    FanOut handle msg sel (b.members.map (·.node)) (b.publish msg sel) := by
  refine ⟨by simp [publish], fun i n m hn hm => .inl ?_⟩
  simp only [publish, List.getElem?_map] at hn hm
  obtain ⟨m₀, hm₀, rfl⟩ := Option.map_eq_some'.1 hm
  obtain ⟨m₁, hm₁, rfl⟩ := Option.map_eq_some'.1 hn
  obtain rfl : m₀ = m₁ := Option.some_inj.1 (hm₀.symm.trans hm₁)
  have := hq m₀ (List.getElem?_mem hm₀)
  split_ifs <;> simp [this]

theorem fanOut_deliver {msg : M} {sel : N → Bool} {base : List N} {b b' : Bus N M} {i : Nat}
    (h : FanOut handle msg sel base b) (hd : b.deliver handle i = some b') :
    FanOut handle msg sel base b' := by
  unfold deliver at hd
  split at hd
  · rename_i n c rest hi
    cases hd
    refine ⟨by simp [h.1], fun j n' m hn hm => ?_⟩
    by_cases hij : i = j
    · subst hij
      rw [List.getElem?_set_self (List.getElem?_eq_some_iff.1 hi).1, Option.some_inj] at hm
      subst hm
      rcases h.2 i n' _ hn hi with ⟨rfl, hin⟩ | ⟨-, -, hin⟩
      · split_ifs at hin with hsel
        cases hin
        exact .inr ⟨hsel, rfl, rfl⟩
      · cases hin
    · rw [List.getElem?_set_ne hij] at hm
      exact h.2 j n' m hn hm
  · cases hd

theorem fanOut_deliverAll {msg : M} {sel : N → Bool} {base : List N} {b b' : Bus N M}
    {js : List Nat} (h : FanOut handle msg sel base b) (hd : b.deliverAll handle js = some b') :
    FanOut handle msg sel base b' := by
  induction js generalizing b with
  | nil => cases hd; exact h
  | cons j js ih =>
    obtain ⟨c, hc, hrest⟩ := Option.bind_eq_some.1 hd
    exact ih (fanOut_deliver handle h hc) hrest

theorem nodes_of_fanOut {msg : M} {sel : N → Bool} {base : List N} {b : Bus N M}
    (h : FanOut handle msg sel base b) (hq : b.Quiet) :
    b.members.map (·.node) = base.map (handled handle msg sel) := by
  refine List.ext_getElem? fun i => ?_
  simp only [List.getElem?_map]
  cases hm : b.members[i]? with
  | none =>
    have : base.length ≤ i := h.1 ▸ List.getElem?_eq_none_iff.1 hm
    simp [List.getElem?_eq_none_iff.2 this]
  | some m =>
    have hi : i < base.length := h.1 ▸ (List.getElem?_eq_some_iff.1 hm).1
    obtain ⟨n, hn⟩ : ∃ n, base[i]? = some n := ⟨base[i], List.getElem?_eq_getElem hi⟩
    rw [hn]
    have hin := hq m (List.getElem?_mem hm)
    rcases h.2 i n m hn hm with ⟨hnode, hin'⟩ | ⟨hsel, hnode, -⟩
    · rw [hin] at hin'
      split_ifs at hin' with hsel
      simp [hnode, handled, hsel]
    · simp [hnode, handled, hsel]

/-- **The fan-out of a message**: once a message published on a quiet bus has been handled by
every member it was handed to, in any order of deliveries, each member is its node with the
message handled if it was handed it, and unchanged if not. -/
theorem fanOut_handled (b : Bus N M) (hq : b.Quiet) (msg : M) (sel : N → Bool) (js : List Nat)
    (b' : Bus N M) (h : (b.publish msg sel).deliverAll handle js = some b') (hdone : b'.Quiet) :
    b'.members.map (·.node) = b.members.map fun m => handled handle msg sel m.node := by
  rw [nodes_of_fanOut handle (fanOut_deliverAll handle (fanOut_publish handle hq msg sel) h) hdone,
    List.map_map]
  rfl

/-! ## Runs of many messages -/

/-- The `h`-th message of a list whose suffix from `h` starts with `x`: taking one more takes
`x`, and dropping one more leaves the rest. -/
theorem take_drop_succ {α : Type} {l : List α} {h : Nat} {x : α} {rest : List α}
    (hd : l.drop h = x :: rest) :
    h < l.length ∧ l.take (h + 1) = l.take h ++ [x] ∧ l.drop (h + 1) = rest := by
  have hget : l[h]? = some x := by rw [← List.head?_drop, hd]; rfl
  refine ⟨(List.getElem?_eq_some_iff.1 hget).1, by rw [List.take_succ, hget]; rfl, ?_⟩
  rw [← List.tail_drop, hd]
  rfl

theorem forall₂_getElem? {α β : Type} {R : α → β → Prop} {l₀ : List α} {l : List β}
    (h : List.Forall₂ R l₀ l) {i : Nat} {a : α} {b : β} (ha : l₀[i]? = some a)
    (hb : l[i]? = some b) : R a b := by
  induction h generalizing i with
  | nil => cases ha
  | cons hab _ ih =>
    cases i with
    | zero =>
      simp only [List.getElem?_cons_zero, Option.some.injEq] at ha hb
      exact ha ▸ hb ▸ hab
    | succ i =>
      simp only [List.getElem?_cons_succ] at ha hb
      exact ih ha hb

theorem forall₂_imp_mem {α β : Type} {R S : α → β → Prop} {l : List α} {u : List β}
    (h : List.Forall₂ R l u) (H : ∀ a ∈ l, ∀ b ∈ u, R a b → S a b) : List.Forall₂ S l u := by
  induction h with
  | nil => exact .nil
  | cons hab _ ih =>
    exact .cons (H _ (List.mem_cons_self _ _) _ (List.mem_cons_self _ _) hab)
      (ih fun a ha b hb => H a (List.mem_cons_of_mem _ ha) b (List.mem_cons_of_mem _ hb))

theorem forall₂_set {α β : Type} {R : α → β → Prop} {l₀ : List α} {l : List β}
    (h : List.Forall₂ R l₀ l) {i : Nat} {x : β} (hx : ∀ a, l₀[i]? = some a → R a x) :
    List.Forall₂ R l₀ (l.set i x) := by
  induction h generalizing i with
  | nil => exact .nil
  | cons hab htl ih =>
    cases i with
    | zero => exact .cons (hx _ (List.getElem?_cons_zero ..)) htl
    | succ i => exact .cons hab (ih fun a ha => hx a (by simpa using ha))

/-- Member `m` is node `n₀` that has handled the first `h` of the messages `sent` handed to it,
in order, and holds the others in its inbox. -/
def Progress (n₀ : N) (sent : List M) (m : Member N M) : Prop :=
  ∃ h ≤ sent.length, m.inbox = sent.drop h ∧
    m.node = (sent.take h).foldl (fun n msg => handle msg n) n₀

variable {handle}

theorem Progress.start {m : Member N M} (hm : m.inbox = []) : Progress handle m.node [] m :=
  ⟨0, le_rfl, hm, rfl⟩

theorem Progress.publish {n₀ : N} {sent : List M} {m : Member N M}
    (hm : Progress handle n₀ sent m) (msg : M) :
    Progress handle n₀ (sent ++ [msg]) { m with inbox := m.inbox ++ [msg] } := by
  obtain ⟨h, hle, hin, hn⟩ := hm
  refine ⟨h, by simp; omega, by rw [hin, List.drop_append_of_le_length hle], ?_⟩
  rw [List.take_append_of_le_length hle]
  exact hn

theorem Progress.deliver {n₀ n : N} {sent : List M} {msg : M} {rest : List M}
    (hm : Progress handle n₀ sent ⟨n, msg :: rest⟩) :
    Progress handle n₀ sent ⟨handle msg n, rest⟩ := by
  obtain ⟨h, -, hin, hn⟩ := hm
  obtain ⟨hlt, htake, hdrop⟩ := take_drop_succ hin.symm
  refine ⟨h + 1, hlt, hdrop.symm, ?_⟩
  rw [htake, List.foldl_concat, ← hn]

theorem Progress.done {n₀ : N} {sent : List M} {m : Member N M} (hm : Progress handle n₀ sent m)
    (hq : m.inbox = []) : m.node = sent.foldl (fun n msg => handle msg n) n₀ := by
  obtain ⟨h, hle, hin, hn⟩ := hm
  have : h = sent.length := le_antisymm hle (List.drop_eq_nil_iff.1 (hin.symm.trans hq))
  rw [hn, this, List.take_length]

end Bus

end CentrifugoNode
