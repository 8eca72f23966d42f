import Mathlib.Data.Finset.Basic
import Mathlib.Logic.Function.Basic

/-!
# Subscription bookkeeping

`AddSubscription` and `RemoveSubscription` keep the engine subscribed to the channels this node
has local subscribers of. Each asks the hub first (`AddSub` reports the channel's first
subscriber, `RemoveSub` its last), and only then calls the engine. Neither undoes the hub's
change when the engine call fails.

* `FlagContract` is what the two calls rely on from the hub: the flag is set exactly on the
  transition between an empty and a non-empty subscriber set. `addSub_contract` and
  `removeSub_contract` show the hub model meets it.
* `subscriptionCall_parity`: a call that does not fail at the engine keeps every channel in
  `Parity`; `subscriptionCall_engine_error`: a call that does leaves the engine as it was and
  the hub changed, so its channel leaves `Parity`.
* `subscription_errors`: over a whole sequential run, parity holds after every call as long as no
  engine call fails.
-/

namespace CentrifugoNode

/-- The collaborators whose calls can return an error. -/
inductive Collaborator
  | hub
  | engine
  deriving DecidableEq, Repr

/-- Modelled from the spec: the hub's subscriber sets, channel to client ids (the hub is not
among the sources). -/
structure Hub where
  subs : String → Finset String

namespace Hub

/-- Modelled from the spec: `AddSub` registers the client and reports whether it is the
channel's first subscriber. -/
def addSub (h : Hub) (ch c : String) : Bool × Hub :=
  (decide (h.subs ch = ∅), ⟨Function.update h.subs ch (insert c (h.subs ch))⟩)

/-- Modelled from the spec: `RemoveSub` unregisters the client and reports whether the channel's
set became empty. -/
def removeSub (h : Hub) (ch c : String) : Bool × Hub :=
  (decide (h.subs ch ≠ ∅ ∧ (h.subs ch).erase c = ∅),
    ⟨Function.update h.subs ch ((h.subs ch).erase c)⟩)

end Hub

/-- Modelled from the spec: the engine's subscription status of each channel, `true` when its last
successful `Subscribe` or `Unsubscribe` of the channel was a `Subscribe`. -/
structure Engine where
  subscribed : String → Bool

/-- A successful `Subscribe` (`status = true`) or `Unsubscribe` (`status = false`). -/
def Engine.set (e : Engine) (ch : String) (status : Bool) : Engine :=
  ⟨Function.update e.subscribed ch status⟩

@[simp] theorem Engine.set_subscribed (e : Engine) (ch : String) (status : Bool) (ch' : String) :
    (e.set ch status).subscribed ch' = if ch' = ch then status else e.subscribed ch' := by
  simp [Engine.set, Function.update_apply]

/-- The hub and the engine, as the subscription calls see them. -/
structure SubState where
  hub : Hub
  engine : Engine

/-- No subscriber, no engine subscription. -/
def SubState.init : SubState := ⟨⟨fun _ => ∅⟩, ⟨fun _ => false⟩⟩

/-- The engine is subscribed to `ch` exactly when the hub has a subscriber of `ch`. -/
def Parity (s : SubState) (ch : String) : Prop :=
  s.engine.subscribed ch = true ↔ s.hub.subs ch ≠ ∅

instance (s : SubState) (ch : String) : Decidable (Parity s ch) :=
  inferInstanceAs (Decidable (_ ↔ _))

/-! ## The two calls -/

/-- What `AddSubscription` and `RemoveSubscription` share: the hub call, then, when it sets its
flag, the engine call that sets the channel's status to `status`. `fails` names the
collaborator whose call returns an error; the call returns that error as it is. Modelled from
the spec: a hub call that fails registers nothing. -/
def subscriptionCall (hubCall : Hub → String → String → Bool × Hub) (status : Bool)
    (ch c : String) (fails : Option Collaborator) (s : SubState) : SubState × Option Collaborator :=
  if fails = some .hub then (s, some .hub)
  else
    let r := hubCall s.hub ch c
    if r.1 then
      if fails = some .engine then ({ s with hub := r.2 }, some .engine)
      else ({ hub := r.2, engine := s.engine.set ch status }, none)
    else ({ s with hub := r.2 }, none)

/-- `AddSubscription`: `AddSub`, then `Subscribe` for the first subscriber. -/
def addSubscription (ch c : String) (fails : Option Collaborator) (s : SubState) :
    SubState × Option Collaborator :=
  subscriptionCall Hub.addSub true ch c fails s

/-- `RemoveSubscription`: `RemoveSub`, then `Unsubscribe` when the channel became empty. -/
def removeSubscription (ch c : String) (fails : Option Collaborator) (s : SubState) :
    SubState × Option Collaborator :=
  subscriptionCall Hub.removeSub false ch c fails s

/-! ## The hub's flag -/

/-- The hub's side of a subscription call: its flag is set exactly when the channel's subscriber
set goes from non-empty `!status` to non-empty `status`, and no other channel changes. -/
structure FlagContract (hubCall : Hub → String → String → Bool × Hub) (status : Bool) : Prop where
  flag_true : ∀ h ch c, (hubCall h ch c).1 = true →
    ((hubCall h ch c).2.subs ch ≠ ∅ ↔ status = true) ∧ (h.subs ch ≠ ∅ ↔ status = false)
  flag_false : ∀ h ch c, (hubCall h ch c).1 = false →
    ((hubCall h ch c).2.subs ch ≠ ∅ ↔ h.subs ch ≠ ∅)
  other : ∀ h ch c ch', ch' ≠ ch → (hubCall h ch c).2.subs ch' = h.subs ch'

theorem addSub_contract : FlagContract Hub.addSub true where
  flag_true h ch c hf := by simp_all [Hub.addSub]
  flag_false h ch c hf := by
    simp only [Hub.addSub, decide_eq_false_iff_not] at hf
    simp [Hub.addSub, hf]
  other h ch c ch' hne := by simp [Hub.addSub, hne]

theorem removeSub_contract : FlagContract Hub.removeSub false where
  flag_true h ch c hf := by simp_all [Hub.removeSub]
  flag_false h ch c hf := by
    simp only [Hub.removeSub, decide_eq_false_iff_not, not_and, not_not] at hf
    by_cases h0 : h.subs ch = ∅ <;> simp_all [Hub.removeSub]
  other h ch c ch' hne := by simp [Hub.removeSub, hne]

/-! ## Parity over one call -/

section Call

variable {hubCall : Hub → String → String → Bool × Hub} {status : Bool}
  (hc : FlagContract hubCall status) (ch c : String) (s : SubState)
include hc

/-- The hub's change alone: the channel keeps its parity when the flag is unset, and every other
channel keeps its parity. -/
theorem parity_hub_only {ch'} (hp : Parity s ch')
    (hf : ch' = ch → (hubCall s.hub ch c).1 = false) :
    Parity { s with hub := (hubCall s.hub ch c).2 } ch' := by
  by_cases h : ch' = ch
  · subst h
    simpa [Parity, hc.flag_false _ _ _ (hf rfl)] using hp
  · simpa [Parity, hc.other _ _ _ _ h] using hp

/-- **A call that does not fail at the engine keeps every channel in parity.** -/
theorem subscriptionCall_parity {fails : Option Collaborator} (hfails : fails ≠ some .engine)
    (hp : ∀ ch', Parity s ch') (ch' : String) :
    Parity (subscriptionCall hubCall status ch c fails s).1 ch' := by
  simp only [subscriptionCall]
  split_ifs with hh hflag
  · exact hp ch'
  · by_cases h : ch' = ch
    · subst h
      have := (hc.flag_true _ _ _ hflag).1
      simp only [Parity, Engine.set_subscribed, if_pos rfl]
      cases status <;> simp_all
    · simpa [Parity, hc.other _ _ _ _ h, h] using hp ch'
  · exact parity_hub_only hc ch c s (hp ch') fun _ => by simpa using hflag

/-- **A call that fails at the engine** returns the engine's error, leaves the engine as it was
and keeps the hub's change, so its channel, in parity before, is out of parity after. -/
theorem subscriptionCall_engine_error
    (he : (subscriptionCall hubCall status ch c (some .engine) s).2 = some .engine) :
    (subscriptionCall hubCall status ch c (some .engine) s).1 =
        { s with hub := (hubCall s.hub ch c).2 } ∧
      (Parity s ch → ¬ Parity (subscriptionCall hubCall status ch c (some .engine) s).1 ch) := by
  have hflag : (hubCall s.hub ch c).1 = true := by
    by_contra hf
    simp [subscriptionCall, hf] at he
  have hres : (subscriptionCall hubCall status ch c (some .engine) s).1 =
      { s with hub := (hubCall s.hub ch c).2 } := by
    simp [subscriptionCall, hflag]
  refine ⟨hres, fun hp hp' => ?_⟩
  rw [hres] at hp'
  have ⟨hnew, hold⟩ := hc.flag_true _ _ _ hflag
  simp only [Parity] at hp hp'
  cases status <;> simp_all

end Call

theorem subscriptionCall_snd_eq_engine {hubCall : Hub → String → String → Bool × Hub}
    {status : Bool} {ch c : String} {fails : Option Collaborator} {s : SubState}
    (h : (subscriptionCall hubCall status ch c fails s).2 = some .engine) :
    fails = some .engine := by
  simp only [subscriptionCall] at h
  split_ifs at h <;> simp_all

/-! ## Sequential runs -/

/-- The hub call of `AddSubscription` (`true`) or `RemoveSubscription` (`false`). -/
def hubCallOf : Bool → Hub → String → String → Bool × Hub
  | true => Hub.addSub
  | false => Hub.removeSub

theorem hubCallOf_contract : ∀ add : Bool, FlagContract (hubCallOf add) add
  | true => addSub_contract
  | false => removeSub_contract

/-- One call of a run: `AddSubscription` (`add`) or `RemoveSubscription` of `client` on `ch`,
with the collaborator whose call fails in it. -/
structure Call where
  add : Bool
  ch : String
  client : String
  fails : Option Collaborator
  deriving DecidableEq, Repr

/-- The call, made alone. -/
def Call.run (k : Call) (s : SubState) : SubState × Option Collaborator :=
  if k.add then addSubscription k.ch k.client k.fails s
  else removeSubscription k.ch k.client k.fails s

theorem Call.run_eq (k : Call) (s : SubState) :
    k.run s = subscriptionCall (hubCallOf k.add) k.add k.ch k.client k.fails s := by
  cases h : k.add <;> simp [Call.run, h, hubCallOf, addSubscription, removeSubscription]

/-- The calls of a sequential run, one after the other. -/
def runCalls (ks : List Call) (s : SubState) : SubState :=
  ks.foldl (fun s k => (k.run s).1) s

theorem runCalls_parity (ks : List Call) (s : SubState) (hp : ∀ ch, Parity s ch)
    (hk : ∀ k ∈ ks, k.fails ≠ some .engine) (ch : String) : Parity (runCalls ks s) ch := by
  induction ks generalizing s with
  | nil => exact hp ch
  | cons k ks ih =>
    refine ih (k.run s).1 (fun ch' => ?_) (fun k' hk' => hk k' (List.mem_cons_of_mem _ hk'))
    rw [Call.run_eq]
    exact subscriptionCall_parity (hubCallOf_contract k.add) _ _ _
      (hk k (List.mem_cons_self _ _)) hp ch'

/-- **Errors of the subscription calls.** A call whose hub call fails returns the hub's error
before any engine call, and the hub, modelled as registering nothing when its call fails, is as
it was: the call changes nothing. A call that returns the engine's error keeps the hub's change
and leaves the engine as it was, which takes its channel out of parity. Parity on every channel
holds after every call of a sequential run in which no engine call fails. -/
theorem subscription_errors :
    (∀ (k : Call) (s : SubState), k.fails = some .hub → k.run s = (s, some .hub)) ∧
    (∀ (k : Call) (s : SubState), (k.run s).2 = some .engine →
      (k.run s).1 = { s with hub := (hubCallOf k.add s.hub k.ch k.client).2 } ∧
        (Parity s k.ch → ¬ Parity (k.run s).1 k.ch)) ∧
    (∀ (ks : List Call) (s : SubState), (∀ ch, Parity s ch) →
      (∀ k ∈ ks, k.fails ≠ some .engine) → ∀ n ch, Parity (runCalls (ks.take n) s) ch) := by
  refine ⟨fun k s hk => ?_, fun k s he => ?_, fun ks s hp hk n =>
    runCalls_parity _ s hp fun k' hk' => hk k' (List.mem_of_mem_take hk')⟩
  · simp [Call.run_eq, subscriptionCall, hk]
  · rw [Call.run_eq] at he ⊢
    have hf := subscriptionCall_snd_eq_engine he
    rw [hf] at he ⊢
    exact subscriptionCall_engine_error (hubCallOf_contract k.add) _ _ _ he

/-- A first subscriber whose `Subscribe` fails: the error comes back, the hub keeps the client,
and the engine stays unsubscribed. -/
theorem failed_subscribe_keeps_subscriber :
    (addSubscription "news" "A" (some .engine) SubState.init).2 = some .engine ∧
      (addSubscription "news" "A" (some .engine) SubState.init).1.hub.subs "news" ≠
        SubState.init.hub.subs "news" ∧
      ¬ Parity (addSubscription "news" "A" (some .engine) SubState.init).1 "news" := by
  decide

end CentrifugoNode
