import CentrifugoNode.Subscription

/-!
# Subscription calls interleaved

Nothing serialises `AddSubscription` and `RemoveSubscription`: each is two atomic steps, its hub
call and then the engine call the hub's flag made due, and the steps of different calls
interleave freely. A `Flight` is the hub and the engine with the engine calls due on each
channel, in the order of the hub calls that made them due.

* `race_leaves_subscriber_without_engine`: one client's `RemoveSubscription` makes `Unsubscribe`
  due, another's `AddSubscription` makes `Subscribe` due after it, and the two engine calls land
  the other way round: every call has returned, the hub has a subscriber and the engine is not
  subscribed.
* `inOrder_parity`: when the engine calls on each channel are made in the order their hub calls
  made them due, every channel is in parity once every call has returned. The invariant is that
  the engine's status after the due calls (`settled`) matches the hub.
* `run_hub_then_engine`: a call made alone is its hub step followed at once by its engine call,
  so sequential runs are runs of this kind.
-/

namespace CentrifugoNode

/-- The subscription calls in flight: `due ch` lists the engine calls due on `ch`, `true` for
`Subscribe`, in the order of the hub calls that made them due. -/
structure Flight where
  sub : SubState
  due : String → List Bool

/-- A step of one call in flight. -/
inductive Act
  /-- The hub call of `AddSubscription` (`add`) or `RemoveSubscription` of client `c` on `ch`;
  the call returns here unless the hub's flag makes an engine call due. -/
  | hub (add : Bool) (ch c : String)
  /-- The `i`-th engine call due on `ch` is made, and its call returns. -/
  | engine (ch : String) (i : Nat)
  deriving DecidableEq, Repr

/-- The channel a step is on. -/
def Act.channel : Act → String
  | .hub _ ch _ => ch
  | .engine ch _ => ch

/-- The engine calls on each channel are made in the order their hub calls made them due. -/
def Act.InOrder : Act → Prop
  | .hub _ _ _ => True
  | .engine _ i => i = 0

namespace Flight

/-- Nothing in flight, no subscriber, no engine subscription: the node after `New`. -/
def init : Flight := ⟨SubState.init, fun _ => []⟩

/-- One step; `none` when no `i`-th engine call is due. -/
def step (s : Flight) : Act → Option Flight
  | .hub add ch c =>
    let r := hubCallOf add s.sub.hub ch c
    some { sub := { s.sub with hub := r.2 },
           due := if r.1 then Function.update s.due ch (s.due ch ++ [add]) else s.due }
  | .engine ch i =>
    (s.due ch)[i]?.map fun status =>
      { sub := { s.sub with engine := s.sub.engine.set ch status },
        due := Function.update s.due ch ((s.due ch).eraseIdx i) }

/-- The steps of a schedule, one after the other. -/
def run (s : Flight) : List Act → Option Flight
  | [] => some s
  | a :: as => (s.step a).bind (run · as)

/-- Every call has returned. -/
def Quiescent (s : Flight) : Prop := ∀ ch, s.due ch = []

/-- The engine's status on `ch` once the calls due there are made in order. -/
def settled (s : Flight) (ch : String) : Bool :=
  (s.due ch).getLast?.getD (s.sub.engine.subscribed ch)

/-- The engine will agree with the hub once the due calls are made in order. -/
def Inv (s : Flight) : Prop := ∀ ch, s.settled ch = true ↔ s.sub.hub.subs ch ≠ ∅

/-! ## Frame -/

theorem step_due_of_ne {s s' : Flight} {a : Act} (h : s.step a = some s') {ch : String}
    (hne : a.channel ≠ ch) : s'.due ch = s.due ch := by
  cases a with
  | hub add ch' c =>
    simp only [Act.channel] at hne
    cases h
    split_ifs <;> simp [Function.update_apply, Ne.symm hne]
  | engine ch' i =>
    simp only [Act.channel] at hne
    obtain ⟨status, -, rfl⟩ := Option.map_eq_some'.1 h
    simp [Function.update_apply, Ne.symm hne]

theorem run_due_of_ne {s s' : Flight} {acts : List Act} (h : s.run acts = some s') {ch : String}
    (hne : ∀ a ∈ acts, a.channel ≠ ch) : s'.due ch = s.due ch := by
  induction acts generalizing s with
  | nil => cases h; rfl
  | cons a as ih =>
    obtain ⟨t, ht, hrun⟩ := Option.bind_eq_some.1 h
    rw [ih hrun fun b hb => hne b (List.mem_cons_of_mem _ hb),
      step_due_of_ne ht (hne a (List.mem_cons_self _ _))]

/-! ## The race -/

/-- `A` subscribes and is alone; `A` unsubscribes and `B` subscribes, and the engine call of
`B`'s `AddSubscription` is made before that of `A`'s `RemoveSubscription`. -/
def raceSchedule : List Act :=
  [.hub true "news" "A", .engine "news" 0, .hub false "news" "A", .hub true "news" "B",
    .engine "news" 1, .engine "news" 0]

theorem race_leaves_subscriber_without_engine :
    ∃ s, init.run raceSchedule = some s ∧ s.Quiescent ∧
      s.sub.hub.subs "news" = {"B"} ∧ s.sub.engine.subscribed "news" = false := by
  obtain ⟨s, hs⟩ : ∃ s, init.run raceSchedule = some s := ⟨_, rfl⟩
  have hnews : (init.run raceSchedule).map
      (fun s => (s.due "news", s.sub.hub.subs "news", s.sub.engine.subscribed "news")) =
      some ([], {"B"}, false) := by
    decide
  simp only [hs, Option.map_some', Option.some.injEq, Prod.mk.injEq] at hnews
  refine ⟨s, hs, fun ch => ?_, hnews.2.1, hnews.2.2⟩
  by_cases h : ch = "news"
  · exact h ▸ hnews.1
  · exact run_due_of_ne hs (by simp [raceSchedule, Act.channel, Ne.symm h])

/-! ## In-order schedules -/

theorem inv_of_parity {s : SubState} (hp : ∀ ch, Parity s ch) : Inv ⟨s, fun _ => []⟩ :=
  fun ch => by simpa [settled, Parity] using hp ch

theorem parity_of_inv {s : Flight} (hi : s.Inv) (hq : s.Quiescent) (ch : String) :
    Parity s.sub ch := by
  simpa [Inv, settled, hq ch, Parity] using hi ch

/-- An in-order step keeps the engine's settled status in agreement with the hub. -/
theorem step_inv {s s' : Flight} {a : Act} (hi : s.Inv) (ha : a.InOrder)
    (h : s.step a = some s') : s'.Inv := by
  intro ch'
  cases a with
  | hub add ch c =>
    cases h
    have hc := hubCallOf_contract add
    by_cases hch : ch' = ch
    · subst hch
      by_cases hf : (hubCallOf add s.sub.hub ch' c).1 = true
      · simp [settled, hf, (hc.flag_true _ _ _ hf).1]
      · simp only [Bool.not_eq_true] at hf
        simpa [settled, hf, hc.flag_false _ _ _ hf] using hi ch'
    · have hdue : (if (hubCallOf add s.sub.hub ch c).1 = true then
          Function.update s.due ch (s.due ch ++ [add]) else s.due) ch' = s.due ch' := by
        split_ifs <;> simp [Function.update_apply, hch]
      simpa [settled, hdue, hc.other _ _ _ _ hch] using hi ch'
  | engine ch i =>
    simp only [Act.InOrder] at ha
    subst ha
    obtain ⟨status, hst, rfl⟩ := Option.map_eq_some'.1 h
    obtain ⟨rest, hrest⟩ : ∃ rest, s.due ch = status :: rest := by
      cases hd : s.due ch with
      | nil => simp [hd] at hst
      | cons b rest => simp_all
    by_cases hch : ch' = ch
    · subst hch
      simpa [settled, hrest, List.getLast?_cons] using hi ch'
    · simpa [settled, Function.update_apply, hch] using hi ch'

theorem run_inv {s s' : Flight} {acts : List Act} (hi : s.Inv) (ho : ∀ a ∈ acts, a.InOrder)
    (h : s.run acts = some s') : s'.Inv := by
  induction acts generalizing s with
  | nil => cases h; exact hi
  | cons a as ih =>
    obtain ⟨t, ht, hrun⟩ := Option.bind_eq_some.1 h
    exact ih (step_inv hi (ho a (List.mem_cons_self _ _)) ht)
      (fun b hb => ho b (List.mem_cons_of_mem _ hb)) hrun

/-- **Parity once every call has returned**, when the engine calls on each channel are made in
the order their hub calls made them due: from any node in parity with nothing in flight, and
for any number of calls by any clients. -/
theorem inOrder_parity (s : SubState) (hp : ∀ ch, Parity s ch) (acts : List Act)
    (ho : ∀ a ∈ acts, a.InOrder) (s' : Flight) (h : Flight.run ⟨s, fun _ => []⟩ acts = some s')
    (hq : s'.Quiescent) (ch : String) : Parity s'.sub ch :=
  parity_of_inv (run_inv (inv_of_parity hp) ho h) hq ch

/-- Three calls interleaved: `A`'s `AddSubscription` and `RemoveSubscription` and `B`'s
`AddSubscription` on `news` all pass the hub before the first of the three engine calls they made
due lands, and these land in order. -/
def inOrderSchedule : List Act :=
  [.hub true "news" "A", .hub false "news" "A", .hub true "news" "B", .engine "news" 0,
    .engine "news" 0, .engine "news" 0]

theorem inOrder_parity_news :
    ∃ s', init.run inOrderSchedule = some s' ∧ s'.Quiescent ∧ Parity s'.sub "news" := by
  obtain ⟨s', hs⟩ : ∃ s', init.run inOrderSchedule = some s' := ⟨_, rfl⟩
  have hnews : (init.run inOrderSchedule).map (·.due "news") = some [] := by
    decide
  rw [hs, Option.map_some', Option.some.injEq] at hnews
  have hq : s'.Quiescent := fun ch => by
    by_cases h : ch = "news"
    · exact h ▸ hnews
    · exact run_due_of_ne hs (by simp [inOrderSchedule, Act.channel, Ne.symm h])
  exact ⟨s', hs, hq, inOrder_parity SubState.init (fun ch => by simp [Parity, SubState.init]) _
    (by simp [inOrderSchedule, Act.InOrder]) s' hs hq "news"⟩

/-- **A call made alone** is its hub step followed at once by the engine call it made due: the
sequential calls of `runCalls` are in-order schedules. -/
theorem run_hub_then_engine (add : Bool) (ch c : String) (s : SubState) :
    Flight.run ⟨s, fun _ => []⟩
        (.hub add ch c :: if (hubCallOf add s.hub ch c).1 then [.engine ch 0] else []) =
      some ⟨(subscriptionCall (hubCallOf add) add ch c none s).1, fun _ => []⟩ := by
  by_cases hf : (hubCallOf add s.hub ch c).1 = true
  · simp [run, step, hf, subscriptionCall, Function.update_idem]
  · simp [run, step, hf, subscriptionCall]

end Flight

end CentrifugoNode
