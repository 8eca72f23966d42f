import Mathlib.Data.List.Infix
import Mathlib.Data.String.Basic

/-!
# The `strings` functions the node calls

The channel-name checks of the node (`namespaceName`, `UserAllowed`, `ClientAllowed`) are built
from Go's `strings.HasPrefix`, `TrimPrefix`, `Contains`, `SplitN` and `Split`. A Go string is a
sequence of characters here (valid UTF-8, where byte and character offsets cut the same slices),
and a search result of `-1` is `none`.

* `indexOf sep s` is the leftmost occurrence (`strings.Index`): `indexOf_append_of_head` finds
  it past a prefix in which `sep` does not start, `indexOf_eq_none_iff` says when there is none.
* `cutLoop` is the loop of `genSplit`, `explode` its case for an empty separator. `split` runs the
  loop for `count` rounds, which is the same as running it for as many rounds as `s` has
  characters (`split_eq_cutLoop`).
* `getLast_split_append` (the last piece after a separator) and `split_join` (splitting a joined
  list) are the two laws the allow-list checks rely on.
-/

namespace CentrifugoNode.GoStrings

/-! ## Searching -/

/-- The leftmost position at which `sep` occurs in `s` (`strings.Index`; `none` for `-1`). -/
def indexOf (sep : List Char) (s : List Char) : Option Nat :=
  if sep.isPrefixOf s then some 0
  else match s with
    | [] => none
    | _ :: cs => (indexOf sep cs).map (· + 1)

theorem indexOf_eq_zero {sep s : List Char} (h : sep <+: s) : indexOf sep s = some 0 := by
  unfold indexOf
  rw [if_pos (List.isPrefixOf_iff_prefix.2 h)]

theorem indexOf_cons_of_not_head {sep cs : List Char} {c : Char} (h : ¬ sep <+: c :: cs) :
    indexOf sep (c :: cs) = (indexOf sep cs).map (· + 1) := by
  conv_lhs => unfold indexOf
  rw [if_neg (mt List.isPrefixOf_iff_prefix.1 h)]

@[simp] theorem indexOf_nil_left (s : List Char) : indexOf [] s = some 0 :=
  indexOf_eq_zero List.nil_prefix

/-- **The search stops at the first occurrence**: none starts in `c`, one starts right after. -/
theorem indexOf_append_of_head {sep c t : List Char} (ht : sep <+: t)
    (hc : ∀ i < c.length, ¬ sep <+: (c ++ t).drop i) : indexOf sep (c ++ t) = some c.length := by
  induction c with
  | nil => exact indexOf_eq_zero ht
  | cons x c ih =>
    have h0 : ¬ sep <+: x :: (c ++ t) := hc 0 (by simp)
    rw [List.cons_append, indexOf_cons_of_not_head h0,
      ih fun i hi => hc (i + 1) (by simpa using hi)]
    rfl

theorem indexOf_eq_none_iff {sep s : List Char} : indexOf sep s = none ↔ ¬ sep <:+: s := by
  induction s with
  | nil => by_cases h : sep = [] <;> simp [indexOf, h]
  | cons c cs ih =>
    by_cases h : sep <+: c :: cs
    · simp [indexOf_eq_zero h, h.isInfix]
    · rw [indexOf_cons_of_not_head h, Option.map_eq_none', ih, List.infix_cons_iff]
      simp [h]

/-- What the search finds is an occurrence. -/
theorem prefix_drop_of_indexOf {sep s : List Char} {m : Nat} (h : indexOf sep s = some m) :
    sep <+: s.drop m := by
  induction s generalizing m with
  | nil => by_cases hs : sep = [] <;> simp_all [indexOf]
  | cons c cs ih =>
    by_cases hp : sep <+: c :: cs
    · rw [indexOf_eq_zero hp] at h
      cases h
      exact hp
    · rw [indexOf_cons_of_not_head hp] at h
      obtain ⟨m', hm', rfl⟩ := Option.map_eq_some'.1 h
      exact ih hm'

/-- No occurrence starts before what the search finds. -/
theorem indexOf_le {sep s : List Char} {m i : Nat} (h : indexOf sep s = some m)
    (hi : sep <+: s.drop i) : m ≤ i := by
  induction s generalizing m i with
  | nil =>
    unfold indexOf at h
    split at h
    · cases h
      exact Nat.zero_le _
    · cases h
  | cons c cs ih =>
    by_cases hp : sep <+: c :: cs
    · rw [indexOf_eq_zero hp] at h
      cases h
      exact Nat.zero_le _
    · rw [indexOf_cons_of_not_head hp] at h
      obtain ⟨m', hm', rfl⟩ := Option.map_eq_some'.1 h
      cases i with
      | zero => exact absurd hi hp
      | succ i => exact Nat.succ_le_succ (ih hm' hi)

theorem indexOf_isSome_iff {sep s : List Char} : (indexOf sep s).isSome ↔ sep <:+: s := by
  rw [← not_iff_not, Option.not_isSome_iff_eq_none, indexOf_eq_none_iff]

/-- A separator none of whose characters is in `c` starts nowhere inside `c`. -/
theorem not_prefix_drop_of_disjoint {sep c t : List Char} (hsep : sep ≠ [])
    (hc : ∀ x ∈ c, x ∉ sep) : ∀ i < c.length, ¬ sep <+: (c ++ t).drop i := by
  intro i hi hp
  obtain ⟨y, sep', rfl⟩ := List.exists_cons_of_ne_nil hsep
  rw [List.drop_eq_getElem_cons (by simp; omega), List.cons_prefix_cons,
    List.getElem_append_left hi] at hp
  exact hc _ (List.getElem_mem hi) (hp.1 ▸ List.mem_cons_self _ _)

/-- The written occurrence of `b` in `a ++ b ++ s` is the first, when `b` starts nowhere in `a`
within `a ++ b`. -/
theorem indexOf_append_append {a b s : List Char} (h : ∀ i < a.length, ¬ b <+: (a ++ b).drop i) :
    indexOf b (a ++ (b ++ s)) = some a.length := by
  refine indexOf_append_of_head (List.prefix_append _ _) fun i hi hp => h i hi ?_
  rw [← List.append_assoc, List.drop_append_of_le_length (by simp; omega)] at hp
  exact List.prefix_of_prefix_length_le hp (List.prefix_append _ _) (by simp; omega)

/-! ## Cutting -/

/-- The loop of `genSplit`: at most `n` cuts, each at the leftmost occurrence of `sep`, and the
rest as the last piece. -/
def cutLoop (sep : List Char) : Nat → List Char → List (List Char)
  | 0, s => [s]
  | n + 1, s =>
    match indexOf sep s with
    | none => [s]
    | some m => s.take m :: cutLoop sep n (s.drop (m + sep.length))

/-- The loop of `strings.Count` for a non-empty separator, for at most `n` rounds. -/
def countLoop (sep : List Char) : Nat → List Char → Nat
  | 0, _ => 0
  | n + 1, s =>
    match indexOf sep s with
    | none => 0
    | some m => countLoop sep n (s.drop (m + sep.length)) + 1

/-- `explode` of `genSplit`, for an empty separator: one piece per character, the last of the
`n` pieces taking the rest. -/
def explode : Nat → List Char → List (List Char)
  | 0, _ => []
  | _, [] => []
  | 1, s => [s]
  | n + 2, c :: cs => [c] :: explode (n + 1) cs

theorem cutLoop_ne_nil (sep : List Char) (n : Nat) (s : List Char) : cutLoop sep n s ≠ [] := by
  cases n with
  | zero => simp [cutLoop]
  | succ n => cases h : indexOf sep s <;> simp [cutLoop, h]

theorem cutLoop_of_not_occurs {sep s : List Char} (h : ¬ sep <:+: s) (n : Nat) :
    cutLoop sep n s = [s] := by
  cases n with
  | zero => rfl
  | succ n => simp [cutLoop, indexOf_eq_none_iff.2 h]

theorem cutLoop_succ_of_indexOf {sep s : List Char} {m : Nat} (h : indexOf sep s = some m)
    (n : Nat) : cutLoop sep (n + 1) s = s.take m :: cutLoop sep n (s.drop (m + sep.length)) := by
  simp [cutLoop, h]

/-- One round of the loop cuts off a first piece that holds no character of `sep`. -/
theorem cutLoop_succ_append {sep c L : List Char} (hsep : sep ≠ []) (hc : ∀ x ∈ c, x ∉ sep)
    (n : Nat) : cutLoop sep (n + 1) (c ++ (sep ++ L)) = c :: cutLoop sep n L := by
  have hidx : indexOf sep (c ++ (sep ++ L)) = some c.length :=
    indexOf_append_of_head (List.prefix_append _ _) (not_prefix_drop_of_disjoint hsep hc)
  have hdrop : (c ++ (sep ++ L)).drop (c.length + sep.length) = L := by
    rw [← List.append_assoc]
    exact List.drop_left' (by simp)
  rw [cutLoop_succ_of_indexOf hidx, List.take_left' rfl, hdrop]

theorem explode_eq_nil_iff {n : Nat} {s : List Char} : explode n s = [] ↔ n = 0 ∨ s = [] := by
  match n, s with
  | 0, _ => simp [explode]
  | n + 1, [] => simp [explode]
  | 1, _ :: _ => simp [explode]
  | n + 2, _ :: _ => simp [explode]

/-- `Count` rounds cut as much as any larger number of rounds: the loop of `Split` with
`Count + 1` pieces is the loop run to the end. -/
theorem cutLoop_countLoop (sep : List Char) (n : Nat) (s : List Char) :
    cutLoop sep (countLoop sep n s) s = cutLoop sep n s := by
  induction n generalizing s with
  | zero => rfl
  | succ n ih => cases h : indexOf sep s <;> simp [countLoop, cutLoop, h, ih]

/-! ## The `strings` functions -/

/-- `strings.HasPrefix`. -/
def hasPrefix (s pre : String) : Bool := pre.data.isPrefixOf s.data

/-- `strings.TrimPrefix`. -/
def trimPrefix (s pre : String) : String :=
  if hasPrefix s pre then ⟨s.data.drop pre.length⟩ else s

/-- `strings.Contains`. -/
def contains (s substr : String) : Bool := (indexOf substr.data s.data).isSome

/-- `strings.Count`: the character count plus one for an empty `sep`, otherwise the cuts that
successive `Index` calls find (each consumes a character, so `s.length` rounds find them all). -/
def count (s sep : String) : Nat :=
  if sep.data = [] then s.length + 1 else countLoop sep.data s.length s.data

/-- `strings.SplitN` for `n > 0`: `genSplit` with at most `n` pieces. -/
def splitN (s sep : String) (n : Nat) : List String :=
  (if sep.data = [] then explode n s.data else cutLoop sep.data (n - 1) s.data).map String.mk

/-- `strings.Split`: `genSplit` with `Count + 1` pieces. -/
def split (s sep : String) : List String :=
  (if sep.data = [] then explode s.length s.data
    else cutLoop sep.data (count s sep) s.data).map String.mk

/-- `strings.Join`. -/
def join : List String → String → String
  | [], _ => ""
  | [a], _ => a
  | a :: b :: as, sep => a ++ sep ++ join (b :: as) sep

theorem contains_iff {s substr : String} : contains s substr = true ↔ substr.data <:+: s.data :=
  indexOf_isSome_iff

theorem split_eq_cutLoop {s sep : String} (h : sep.data ≠ []) :
    split s sep = (cutLoop sep.data s.length s.data).map String.mk := by
  simp only [split, count, if_neg h, cutLoop_countLoop]

theorem split_empty_sep (s : String) : split s "" = (explode s.length s.data).map String.mk := by
  simp [split]

theorem split_eq_nil_iff {s sep : String} : split s sep = [] ↔ sep = "" ∧ s = "" := by
  by_cases h : sep.data = []
  · have hs : sep = "" := String.ext h
    subst hs
    simp only [split_empty_sep, List.map_eq_nil_iff, explode_eq_nil_iff, ← String.length_data,
      List.length_eq_zero, or_self, String.ext_iff, true_and]
  · simp [split_eq_cutLoop h, cutLoop_ne_nil, String.ext_iff, h]

theorem splitN_two_eq_nil_iff {s sep : String} : splitN s sep 2 = [] ↔ sep = "" ∧ s = "" := by
  by_cases h : sep.data = []
  · have hs : sep = "" := String.ext h
    subst hs
    simp [splitN, explode_eq_nil_iff, String.ext_iff]
  · simp [splitN, h, cutLoop_ne_nil, String.ext_iff]

theorem data_ne_nil {s : String} (h : s ≠ "") : s.data ≠ [] := fun h' => h (String.ext h')

@[simp] theorem trimPrefix_append (p x : String) : trimPrefix (p ++ x) p = x := by
  simp [trimPrefix, hasPrefix, ← String.length_data]

theorem trimPrefix_of_hasPrefix_eq_false {x p : String} (h : hasPrefix x p = false) :
    trimPrefix x p = x := by
  simp [trimPrefix, h]

@[simp] theorem trimPrefix_empty (x : String) : trimPrefix x "" = x := by
  simpa using trimPrefix_append "" x

theorem not_infix_of_disjoint {sep a : List Char} (hsep : sep ≠ []) (h : ∀ x ∈ a, x ∉ sep) :
    ¬ sep <:+: a := by
  intro hi
  obtain ⟨y, sep', rfl⟩ := List.exists_cons_of_ne_nil hsep
  exact h y (hi.subset (List.mem_cons_self _ _)) (List.mem_cons_self _ _)

/-! ## The last piece, and splitting a joined list -/

/-- Past the last occurrence of a one-character separator, the rest is the last piece. -/
theorem getLast_cutLoop_single {x : Char} {L : List Char} (hL : x ∉ L) (n : Nat) :
    ∀ c : List Char, c.length < n → (cutLoop [x] n (c ++ x :: L)).getLast? = some L := by
  induction n with
  | zero => intro c hc; omega
  | succ n ih =>
    intro c hc
    have hat : [x] <+: (c ++ x :: L).drop c.length := by rw [List.drop_left' rfl]; simp
    obtain ⟨m, hm⟩ := Option.isSome_iff_exists.1
      (indexOf_isSome_iff.2 (List.infix_iff_prefix_suffix.2 ⟨_, hat, List.drop_suffix _ _⟩))
    rw [cutLoop_succ_of_indexOf hm, List.getLast?_cons]
    rcases Nat.lt_or_eq_of_le (indexOf_le hm hat) with hlt | rfl
    · have hrest : (c ++ x :: L).drop (m + [x].length) = c.drop (m + 1) ++ x :: L :=
        List.drop_append_of_le_length (by simp; omega)
      rw [hrest, ih _ (by simp; omega)]
      rfl
    · have hnot : ¬ [x] <:+: L := fun h => hL (h.subset (List.mem_singleton_self x))
      simp [cutLoop_of_not_occurs hnot]

/-- **The last piece after a separator.** When `L` does not contain `b`, and either `b` is one
character or no character of `b` is in `c`, the last piece of `Split(c ++ b ++ L, b)` is `L`. -/
theorem getLast_split_append {c b L : String} (hb : b.data ≠ []) (hL : ¬ b.data <:+: L.data)
    (hcb : b.length = 1 ∨ ∀ x ∈ c.data, x ∉ b.data) :
    (split (c ++ b ++ L) b).getLast? = some L := by
  rw [split_eq_cutLoop hb, List.getLast?_map]
  rcases hcb with h1 | hdis
  · obtain ⟨x, hx⟩ := List.length_eq_one.1 h1
    have hxL : x ∉ L.data := fun h => by
      obtain ⟨s, t, hst⟩ := List.append_of_mem h
      exact hL (hx ▸ ⟨s, t, by simp [hst]⟩)
    have := getLast_cutLoop_single hxL (c ++ b ++ L).length c.data
      (by simp [← String.length_data, hx])
    simp only [String.data_append, hx, List.singleton_append, List.append_assoc] at this ⊢
    rw [this]
    rfl
  · obtain ⟨n, hn⟩ : ∃ n, (c ++ b ++ L).length = n + 1 := ⟨(c ++ b ++ L).length - 1, by
      have := List.length_pos.2 hb
      simp only [← String.length_data, String.data_append, List.length_append]
      omega⟩
    simp only [hn, String.data_append, List.append_assoc]
    rw [cutLoop_succ_append hb hdis, cutLoop_of_not_occurs hL, List.getLast?_cons]
    rfl

/-- The loop of `Split` on a joined list, with enough rounds, gives the list back. -/
theorem cutLoop_join {sep : String} (hsep : sep.data ≠ []) (us : List String) (hus : us ≠ [])
    (hchar : ∀ u ∈ us, ∀ x ∈ u.data, x ∉ sep.data) (n : Nat) (hn : (join us sep).length ≤ n) :
    cutLoop sep.data n (join us sep).data = us.map String.data := by
  induction us generalizing n with
  | nil => exact absurd rfl hus
  | cons a rest ih =>
    have ha : ∀ x ∈ a.data, x ∉ sep.data := hchar a (List.mem_cons_self _ _)
    cases rest with
    | nil => exact cutLoop_of_not_occurs (not_infix_of_disjoint hsep ha) n
    | cons b as =>
      set J := join (b :: as) sep
      have hlen : (join (a :: b :: as) sep).length =
          a.data.length + sep.data.length + J.data.length := by
        simp [join, J, ← String.length_data, Nat.add_assoc]
      have hpos := List.length_pos.2 hsep
      obtain ⟨n, rfl⟩ : ∃ n', n = n' + 1 := ⟨n - 1, by omega⟩
      simp only [join, String.data_append, List.append_assoc]
      rw [cutLoop_succ_append hsep ha,
        ih (List.cons_ne_nil _ _) (fun u hu => hchar u (List.mem_cons_of_mem _ hu)) n
          (by rw [← String.length_data]; omega)]
      rfl

/-- **Splitting a joined list gives the list back**, when no piece holds a character of `sep`. -/
theorem split_join {us : List String} {sep : String} (hsep : sep.data ≠ []) (hus : us ≠ [])
    (hchar : ∀ u ∈ us, ∀ x ∈ u.data, x ∉ sep.data) : split (join us sep) sep = us := by
  rw [split_eq_cutLoop hsep, cutLoop_join hsep us hus hchar _ le_rfl, List.map_map]
  exact List.map_id'' (fun _ => rfl) us

end CentrifugoNode.GoStrings
