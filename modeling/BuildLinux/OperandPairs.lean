/-
A list of operands that is rewritten pair by pair.

A visit to two positions first rewrites the operand at the first one by itself.
If the two operands can be joined, the result goes to the second position, and
something neutral to the first.  What one visit can do is said once, up to the
order of the list; every property of a whole pass follows from it.
-/

import Mathlib.Data.List.ProdSigma
import Mathlib.Data.List.Perm.Basic

namespace BuildLinux.OperandPairs

variable {operand : Type}

/-- How operands are rewritten; each rewriting counts what it did. -/
structure Rules (operand : Type) where
  inside : operand → operand × Nat
  join : operand → operand → Option operand
  neutral : operand

def visit (rules : Rules operand) (state : List operand × Nat) (pair : Nat × Nat) :
    List operand × Nat :=
  if pair.1 = pair.2 then state
  else
    match state.1[pair.1]?, state.1[pair.2]? with
    | some first, some second =>
        let inner := rules.inside first
        match rules.join inner.1 second with
        | some joined =>
            ((state.1.set pair.1 rules.neutral).set pair.2 joined, state.2 + inner.2 + 1)
        | none => (state.1.set pair.1 inner.1, state.2 + inner.2)
    | _, _ => state

/-- All pairs of positions, the second one faster than the first. -/
def positions (count : Nat) : List (Nat × Nat) := List.range count ×ˢ List.range count

def rewrite (rules : Rules operand) (operands : List operand) : List operand × Nat :=
  (positions operands.length).foldl (visit rules) (operands, 0)

/-! ### One visit -/

/-- Two positions of a list, apart from the rest. -/
theorem two_positions (operands : List operand) {first second : Nat} (distinct : first ≠ second)
    (firstIn : first < operands.length) (secondIn : second < operands.length) :
    ∃ rest, ∀ left right,
      ((operands.set first left).set second right).Perm (left :: right :: rest) := by
  obtain ⟨position, inside, moved⟩ : ∃ position, position < (operands.eraseIdx second).length ∧
      ∀ left, (operands.set first left).eraseIdx second =
        (operands.eraseIdx second).set position left := by
    rw [List.length_eraseIdx_of_lt secondIn]
    rcases Nat.lt_or_gt_of_ne distinct with before | after
    · exact ⟨first, by omega, fun left => List.eraseIdx_set_gt before⟩
    · exact ⟨first - 1, by omega, fun left => List.eraseIdx_set_lt after⟩
  refine ⟨(operands.eraseIdx second).eraseIdx position, fun left right => ?_⟩
  have atSecond : second < (operands.set first left).length := by
    rw [List.length_set]
    exact secondIn
  refine (List.set_perm_cons_eraseIdx atSecond right).trans ?_
  rw [moved]
  exact ((List.set_perm_cons_eraseIdx inside left).cons right).trans (List.Perm.swap left right _)

/-- What a visit to two operands leaves of them. -/
inductive Visited (rules : Rules operand) (first second : operand) :
    operand → operand → Nat → Prop where
  | joined {result : operand} (found : rules.join (rules.inside first).1 second = some result) :
      Visited rules first second rules.neutral result ((rules.inside first).2 + 1)
  | apart (none : rules.join (rules.inside first).1 second = none) :
      Visited rules first second (rules.inside first).1 second (rules.inside first).2

theorem visit_cases (rules : Rules operand) (state : List operand × Nat) (pair : Nat × Nat) :
    visit rules state pair = state ∨
      ∃ first second left right done rest, Visited rules first second left right done ∧
        state.1.Perm (first :: second :: rest) ∧
        (visit rules state pair).1.Perm (left :: right :: rest) ∧
        (visit rules state pair).2 = state.2 + done := by
  unfold visit
  split
  · exact Or.inl rfl
  next distinct =>
    split
    next first second atFirst atSecond =>
      obtain ⟨firstIn, rfl⟩ := List.getElem?_eq_some_iff.mp atFirst
      obtain ⟨secondIn, rfl⟩ := List.getElem?_eq_some_iff.mp atSecond
      obtain ⟨rest, placed⟩ := two_positions state.1 distinct firstIn secondIn
      have before := placed state.1[pair.1] state.1[pair.2]
      rw [List.set_getElem_self, List.set_getElem_self] at before
      have kept := placed (rules.inside state.1[pair.1]).1 state.1[pair.2]
      have unmoved : (state.1.set pair.1 (rules.inside state.1[pair.1]).1).set pair.2
          state.1[pair.2] = state.1.set pair.1 (rules.inside state.1[pair.1]).1 := by
        rw [List.set_comm _ _ distinct, List.set_getElem_self]
      rw [unmoved] at kept
      dsimp only
      split
      next joined found =>
        exact Or.inr ⟨_, _, _, _, _, rest, Visited.joined found, before, placed _ _,
          Nat.add_assoc _ _ _⟩
      next none =>
        exact Or.inr ⟨_, _, _, _, _, rest, Visited.apart none, before, kept, rfl⟩
    · exact Or.inl rfl

theorem visit_length (rules : Rules operand) (state : List operand × Nat) (pair : Nat × Nat) :
    (visit rules state pair).1.length = state.1.length := by
  rcases visit_cases rules state pair with same | ⟨_, _, _, _, _, rest, _, before, after, _⟩
  · rw [same]
  · rw [before.length_eq, after.length_eq]
    rfl

/-! ### A whole pass -/

/-- What every visit keeps, a pass keeps. -/
theorem rewrite_invariant (rules : Rules operand) (invariant : List operand × Nat → Prop)
    (step : ∀ state pair, invariant state → invariant (visit rules state pair))
    (operands : List operand) (start : invariant (operands, 0)) :
    invariant (rewrite rules operands) := by
  unfold rewrite
  generalize positions operands.length = pairs
  generalize (operands, 0) = state at start ⊢
  induction pairs generalizing state with
  | nil => exact start
  | cons pair rest ih => exact ih (visit rules state pair) (step state pair start)

theorem rewrite_length (rules : Rules operand) (operands : List operand) :
    (rewrite rules operands).1.length = operands.length :=
  rewrite_invariant rules (fun state => state.1.length = operands.length)
    (fun state pair same => (visit_length rules state pair).trans same) operands rfl

/-- The operands put together by an operation on their values. -/
def total {value : Type} (join : value → value → value) (unit : value) (of : operand → value)
    (operands : List operand) : value :=
  (operands.map of).foldr join unit

theorem total_append {value : Type} {join : value → value → value} {unit : value}
    {of : operand → value}
    (assoc : ∀ first second third, join (join first second) third =
      join first (join second third))
    (neutral : ∀ only, join unit only = only) (first second : List operand) :
    total join unit of (first ++ second) =
      join (total join unit of first) (total join unit of second) := by
  induction first with
  | nil => exact (neutral _).symm
  | cons head rest ih =>
      change join (of head) (total join unit of (rest ++ second)) =
        join (join (of head) (total join unit of rest)) _
      rw [ih, assoc]

theorem total_perm {value : Type} {join : value → value → value} [Std.Commutative join]
    [Std.Associative join] {unit : value} {of : operand → value} {first second : List operand}
    (same : first.Perm second) : total join unit of first = total join unit of second := by
  have leftCommutative : LeftCommutative join := ⟨fun first second third => by ac_rfl⟩
  exact (same.map of).foldr_eq unit

/-- A pass keeps what the operands amount to. -/
theorem rewrite_total (rules : Rules operand) {value : Type} {join : value → value → value}
    [Std.Commutative join] [associative : Std.Associative join] {unit : value} {of : operand → value}
    (visited : ∀ {first second left right done}, Visited rules first second left right done →
      join (of left) (of right) = join (of first) (of second)) (operands : List operand) :
    total join unit of (rewrite rules operands).1 = total join unit of operands := by
  refine rewrite_invariant rules
    (fun state => total join unit of state.1 = total join unit of operands) ?_ operands rfl
  intro state pair same
  rcases visit_cases rules state pair with
      unchanged | ⟨_, _, _, _, _, rest, result, before, after, _⟩
  · rw [unchanged]
    exact same
  · refine Eq.trans ?_ same
    rw [total_perm after, total_perm before]
    change join (of _) (join (of _) (total join unit of rest)) = join (of _) (join (of _) _)
    rw [← associative.assoc, ← associative.assoc, visited result]
    rfl

/-- A pass does not raise a weight that no visit raises. -/
theorem rewrite_weight (rules : Rules operand) {weight : operand → Nat}
    (visited : ∀ {first second left right done}, Visited rules first second left right done →
      weight left + weight right ≤ weight first + weight second) (operands : List operand) :
    total Nat.add 0 weight (rewrite rules operands).1 ≤ total Nat.add 0 weight operands := by
  have commutative : Std.Commutative Nat.add := ⟨Nat.add_comm⟩
  have associative : Std.Associative Nat.add := ⟨Nat.add_assoc⟩
  refine rewrite_invariant rules
    (fun state => total Nat.add 0 weight state.1 ≤ total Nat.add 0 weight operands) ?_ operands
    (Nat.le_refl _)
  intro state pair bounded
  rcases visit_cases rules state pair with
      unchanged | ⟨first, second, left, right, _, rest, result, before, after, _⟩
  · rw [unchanged]
    exact bounded
  · have step := visited result
    rw [total_perm before] at bounded
    rw [total_perm after]
    change weight first + (weight second + total Nat.add 0 weight rest) ≤ _ at bounded
    change weight left + (weight right + total Nat.add 0 weight rest) ≤ _
    omega

/-- A pass that did something leaves a mark that visits never remove. -/
theorem rewrite_marked (rules : Rules operand) (mark : operand → Prop)
    (neutral : mark rules.neutral)
    (worked : ∀ first, (rules.inside first).2 ≠ 0 → mark (rules.inside first).1)
    (rested : ∀ first, (rules.inside first).2 = 0 → (rules.inside first).1 = first)
    {operands : List operand} (done : (rewrite rules operands).2 ≠ 0) :
    ∃ operand ∈ (rewrite rules operands).1, mark operand := by
  refine rewrite_invariant rules
    (fun state => state.2 ≠ 0 → ∃ operand ∈ state.1, mark operand) ?_ operands
    (fun impossible => absurd rfl impossible) done
  intro state pair marked count
  rcases visit_cases rules state pair with
      unchanged | ⟨first, _, _, _, _, rest, result, before, after, counted⟩
  · rw [unchanged] at count ⊢
    exact marked count
  · cases result with
    | joined found => exact ⟨_, after.mem_iff.mpr List.mem_cons_self, neutral⟩
    | apart none =>
        by_cases idle : (rules.inside first).2 = 0
        · rw [counted, idle] at count
          obtain ⟨operand, member, found⟩ := marked count
          refine ⟨operand, after.mem_iff.mpr ?_, found⟩
          rw [rested first idle]
          exact before.mem_iff.mp member
        · exact ⟨_, after.mem_iff.mpr List.mem_cons_self, worked first idle⟩

/-- Rules that agree on the operands of a pass agree on the pass. -/
theorem rewrite_agree (rules again : Rules operand) (small : operand → Prop)
    (sameJoin : rules.join = again.join) (sameNeutral : rules.neutral = again.neutral)
    (sameInside : ∀ first, small first → rules.inside first = again.inside first)
    (visited : ∀ {first second left right done}, Visited rules first second left right done →
      small first → small second → small left ∧ small right)
    {operands : List operand} (start : ∀ operand ∈ operands, small operand) :
    rewrite rules operands = rewrite again operands := by
  unfold rewrite
  generalize positions operands.length = pairs
  generalize initial : (operands, 0) = state
  have within : ∀ operand ∈ state.1, small operand := by
    rw [← initial]
    exact start
  clear initial
  induction pairs generalizing state with
  | nil => rfl
  | cons pair rest ih =>
      have step : visit rules state pair = visit again state pair := by
        unfold visit
        rw [sameJoin, sameNeutral]
        split
        · rfl
        · split
          next first second atFirst atSecond =>
            rw [sameInside first (within first (List.mem_of_getElem? atFirst))]
          · rfl
      rw [List.foldl_cons, List.foldl_cons, ← step]
      apply ih
      intro operand member
      rcases visit_cases rules state pair with
        unchanged | ⟨_, _, _, _, _, others, result, before, after, _⟩
      · rw [unchanged] at member
        exact within operand member
      · have firstSmall := within _ (before.mem_iff.mpr List.mem_cons_self)
        have secondSmall := within _ (before.mem_iff.mpr (List.mem_cons_of_mem _ List.mem_cons_self))
        obtain ⟨leftSmall, rightSmall⟩ := visited result firstSmall secondSmall
        rcases List.mem_cons.mp (after.mem_iff.mp member) with rfl | others
        · exact leftSmall
        · rcases List.mem_cons.mp others with rfl | kept
          · exact rightSmall
          · exact within operand (before.mem_iff.mpr
              (List.mem_cons_of_mem _ (List.mem_cons_of_mem _ kept)))

/-! ### A pass without work -/

theorem visit_count (rules : Rules operand) (state : List operand × Nat) (pair : Nat × Nat) :
    state.2 ≤ (visit rules state pair).2 := by
  rcases visit_cases rules state pair with same | ⟨_, _, _, _, done, _, _, _, _, counted⟩
  · exact Nat.le_of_eq (congrArg Prod.snd same.symm)
  · omega

theorem foldl_count (rules : Rules operand) (pairs : List (Nat × Nat))
    (state : List operand × Nat) : state.2 ≤ (pairs.foldl (visit rules) state).2 := by
  induction pairs generalizing state with
  | nil => exact Nat.le_refl _
  | cons pair rest ih => exact Nat.le_trans (visit_count rules state pair) (ih _)

/-- Nothing can be done with two operands. -/
def Idle (rules : Rules operand) (first second : operand) : Prop :=
  (rules.inside first).2 = 0 ∧ rules.join first second = none

theorem visit_idle {rules : Rules operand}
    (rested : ∀ first, (rules.inside first).2 = 0 → (rules.inside first).1 = first)
    {state : List operand × Nat} {pair : Nat × Nat}
    (quiet : (visit rules state pair).2 = state.2) :
    visit rules state pair = state ∧ ∀ first second, pair.1 ≠ pair.2 →
      state.1[pair.1]? = some first → state.1[pair.2]? = some second → Idle rules first second := by
  unfold visit at quiet ⊢
  split
  next same => exact ⟨rfl, fun _ _ distinct => absurd same distinct⟩
  next distinct =>
    rw [if_neg distinct] at quiet
    split
    next first second atFirst atSecond =>
      rw [atFirst, atSecond] at quiet
      dsimp only at quiet ⊢
      cases found : rules.join (rules.inside first).1 second with
      | some joined =>
          rw [found] at quiet
          dsimp only at quiet
          omega
      | none =>
          rw [found] at quiet
          have idle : (rules.inside first).2 = 0 := by
            dsimp only at quiet
            omega
          rw [rested first idle] at found ⊢
          obtain ⟨firstIn, rfl⟩ := List.getElem?_eq_some_iff.mp atFirst
          refine ⟨?_, ?_⟩
          · dsimp only
            rw [List.set_getElem_self, idle]
            rfl
          · intro one other _ isFirst isSecond
            cases isFirst.symm.trans atFirst
            cases isSecond.symm.trans atSecond
            exact ⟨idle, found⟩
    next missing =>
      refine ⟨rfl, fun first second _ atFirst atSecond => ?_⟩
      exact absurd atSecond (missing first second atFirst)

/-- A pass that counts nothing changes nothing, and no two operands can be joined. -/
theorem rewrite_idle (rules : Rules operand)
    (rested : ∀ first, (rules.inside first).2 = 0 → (rules.inside first).1 = first)
    {operands : List operand} (quiet : (rewrite rules operands).2 = 0) :
    (rewrite rules operands).1 = operands ∧ ∀ first second : Nat, first ≠ second →
      ∀ one other, operands[first]? = some one → operands[second]? = some other →
        Idle rules one other := by
  have pass : ∀ pairs : List (Nat × Nat), (pairs.foldl (visit rules) (operands, 0)).2 = 0 →
      pairs.foldl (visit rules) (operands, 0) = (operands, 0) ∧ ∀ pair ∈ pairs, pair.1 ≠ pair.2 →
        ∀ one other, operands[pair.1]? = some one → operands[pair.2]? = some other →
          Idle rules one other := by
    intro pairs
    induction pairs with
    | nil => exact fun _ => ⟨rfl, nofun⟩
    | cons pair rest ih =>
        intro silent
        rw [List.foldl_cons] at silent ⊢
        have bounded := foldl_count rules rest (visit rules (operands, 0) pair)
        have still : (visit rules (operands, 0) pair).2 = 0 := by omega
        obtain ⟨unchanged, idle⟩ := visit_idle rested still
        rw [unchanged] at silent ⊢
        obtain ⟨same, others⟩ := ih silent
        refine ⟨same, fun next member distinct one other atFirst atSecond => ?_⟩
        rcases List.mem_cons.mp member with rfl | later
        · exact idle one other distinct atFirst atSecond
        · exact others next later distinct one other atFirst atSecond
  obtain ⟨same, idle⟩ := pass _ quiet
  refine ⟨congrArg Prod.fst same, fun first second distinct one other atFirst atSecond => ?_⟩
  have firstIn := (List.getElem?_eq_some_iff.mp atFirst).1
  have secondIn := (List.getElem?_eq_some_iff.mp atSecond).1
  exact idle (first, second)
    (List.mem_product.mpr ⟨List.mem_range.mpr firstIn, List.mem_range.mpr secondIn⟩)
    distinct one other atFirst atSecond

end BuildLinux.OperandPairs
