/-
Ledgers of the operations on resources, oldest operation first.

A ledger tells how often a resource was released, and whether one was used
after that.  A part of a ledger that only uses resources which no earlier part
released can be put behind it.  In a sound ledger no resource is released
twice either; what one more operation asks of it is said for each of them.  A
ledger is balanced when its releases are its acquisitions, each once.
-/

import Mathlib.Data.List.Basic
import Mathlib.Data.List.Count
import Mathlib.Data.List.Nodup

namespace BuildLinux.ResourceLedger

inductive Operation (resource : Type) where
  | acquire (item : resource)
  | use (item : resource)
  | release (item : resource)
  deriving DecidableEq, Repr

def Operation.item {resource : Type} : Operation resource → resource
  | .acquire item => item
  | .use item => item
  | .release item => item

variable {resource : Type}

/-- No resource is used behind its release. -/
def SafeUses (ledger : List (Operation resource)) : Prop :=
  ∀ before item after, ledger = before ++ .use item :: after → .release item ∉ before

theorem safe_nil : SafeUses ([] : List (Operation resource)) := by
  intro before item after split
  cases before with
  | nil => cases split
  | cons first rest => cases split

theorem safe_noReleases {ledger : List (Operation resource)}
    (none : ∀ item, .release item ∉ ledger) : SafeUses ledger := by
  intro before item after split released
  refine none item ?_
  rw [split]
  exact List.mem_append_left _ released

theorem safe_noUses {ledger : List (Operation resource)}
    (none : ∀ item, .use item ∉ ledger) : SafeUses ledger := by
  intro before item after split _
  refine none item ?_
  rw [split]
  exact List.mem_append_right _ List.mem_cons_self

theorem safe_append {first second : List (Operation resource)} (safe : SafeUses first)
    (later : SafeUses second) (unreleased : ∀ item, .use item ∈ second → .release item ∉ first) :
    SafeUses (first ++ second) := by
  intro before item after split released
  rcases List.append_eq_append_iff.mp split with ⟨middle, rfl, isSecond⟩ | ⟨middle, isFirst, isRest⟩
  · have used : .use item ∈ second := by
      rw [isSecond]
      exact List.mem_append_right _ List.mem_cons_self
    rcases List.mem_append.mp released with inFirst | inMiddle
    · exact unreleased item used inFirst
    · exact later middle item after isSecond inMiddle
  · cases middle with
    | nil =>
        rw [List.append_nil] at isFirst
        have used : .use item ∈ second := by
          rw [← List.nil_append second, ← isRest]
          exact List.mem_cons_self
        rw [← isFirst] at released
        exact unreleased item used released
    | cons operation others =>
        rw [List.cons_append] at isRest
        obtain ⟨rfl, _⟩ := List.cons.inj isRest
        exact safe before item others isFirst released

section Counting

variable [DecidableEq resource]

def releases (ledger : List (Operation resource)) (item : resource) : Nat :=
  ledger.count (.release item)

theorem releases_append (first second : List (Operation resource)) (item : resource) :
    releases (first ++ second) item = releases first item + releases second item :=
  List.count_append

theorem releases_zero {ledger : List (Operation resource)} {item : resource} :
    releases ledger item = 0 ↔ .release item ∉ ledger :=
  List.count_eq_zero

/-- No resource is used behind its release or released twice. -/
structure Sound (ledger : List (Operation resource)) : Prop where
  uses : SafeUses ledger
  once : ∀ item, releases ledger item ≤ 1

theorem sound_nil : Sound ([] : List (Operation resource)) :=
  ⟨safe_nil, fun _ => Nat.zero_le 1⟩

theorem Sound.before {first second : List (Operation resource)} (sound : Sound (first ++ second)) :
    Sound first := by
  constructor
  · intro before item after split
    refine sound.uses before item (after ++ second) ?_
    rw [split, List.append_assoc, List.cons_append]
  · intro item
    have total := sound.once item
    rw [releases_append] at total
    omega

theorem Sound.append_uses {ledger : List (Operation resource)} (sound : Sound ledger)
    {items : List resource} (unreleased : ∀ item ∈ items, .release item ∉ ledger) :
    Sound (ledger ++ items.map .use) := by
  have noReleases : ∀ item, .release item ∉ items.map Operation.use := by
    intro item member
    obtain ⟨other, _, same⟩ := List.mem_map.mp member
    cases same
  constructor
  · refine safe_append sound.uses (safe_noReleases noReleases) fun item used => ?_
    obtain ⟨other, member, same⟩ := List.mem_map.mp used
    cases same
    exact unreleased item member
  · intro item
    rw [releases_append, releases_zero.mpr (noReleases item), Nat.add_zero]
    exact sound.once item

theorem Sound.append_acquire {ledger : List (Operation resource)} (sound : Sound ledger)
    (item : resource) : Sound (ledger ++ [.acquire item]) := by
  have noReleases : ∀ other, .release other ∉ [Operation.acquire item] := by
    intro other member
    cases List.mem_singleton.mp member
  constructor
  · refine safe_append sound.uses (safe_noReleases noReleases) fun other used => ?_
    cases List.mem_singleton.mp used
  · intro other
    rw [releases_append, releases_zero.mpr (noReleases other), Nat.add_zero]
    exact sound.once other

theorem sound_append_release {ledger : List (Operation resource)} (item : resource) :
    Sound (ledger ++ [.release item]) ↔ Sound ledger ∧ .release item ∉ ledger := by
  constructor
  · intro sound
    refine ⟨sound.before, releases_zero.mp ?_⟩
    have twice := sound.once item
    have last : releases [Operation.release item] item = 1 := List.count_singleton_self
    rw [releases_append, last] at twice
    omega
  · rintro ⟨sound, unreleased⟩
    constructor
    · refine safe_append sound.uses (safe_noUses fun other member => ?_) fun other member => ?_
      · cases List.mem_singleton.mp member
      · cases List.mem_singleton.mp member
    · intro other
      rw [releases_append]
      by_cases same : other = item
      · rw [same, releases_zero.mpr unreleased, Nat.zero_add]
        exact List.count_le_length
      · have none : releases [Operation.release item] other = 0 := by
          refine releases_zero.mpr fun member => same ?_
          cases List.mem_singleton.mp member
          rfl
        rw [none, Nat.add_zero]
        exact sound.once other

/-! ### Balanced ledgers -/

/-- What was acquired is released exactly once, and nothing else is released. -/
structure Balanced (ledger : List (Operation resource)) : Prop where
  released : ∀ item, .acquire item ∈ ledger → releases ledger item = 1
  acquired : ∀ item, .release item ∈ ledger → .acquire item ∈ ledger

/-- A ledger that acquires before it releases. -/
def acquireThenRelease (acquired released : List resource) : List (Operation resource) :=
  acquired.map .acquire ++ released.map .release

variable {acquired released : List resource}

omit [DecidableEq resource] in
theorem acquire_mem {item : resource} :
    .acquire item ∈ acquireThenRelease acquired released ↔ item ∈ acquired := by
  unfold acquireThenRelease
  rw [List.mem_append, List.mem_map, List.mem_map]
  constructor
  · rintro (⟨other, member, same⟩ | ⟨other, _, same⟩)
    · cases same
      exact member
    · cases same
  · exact fun member => Or.inl ⟨item, member, rfl⟩

theorem releases_acquireThenRelease (item : resource) :
    releases (acquireThenRelease acquired released) item = released.count item := by
  have noRelease : Operation.release item ∉ acquired.map Operation.acquire := by
    intro member
    obtain ⟨other, _, same⟩ := List.mem_map.mp member
    cases same
  have isInjective : Function.Injective (@Operation.release resource) :=
    fun _ _ same => Operation.release.inj same
  unfold acquireThenRelease
  rw [releases_append, releases_zero.mpr noRelease, Nat.zero_add]
  exact List.count_map_of_injective _ _ isInjective item

theorem release_mem {item : resource} :
    .release item ∈ acquireThenRelease acquired released ↔ item ∈ released := by
  rw [← List.count_pos_iff, ← List.count_pos_iff (a := item)]
  exact iff_of_eq (congrArg (0 < ·) (releases_acquireThenRelease item))

theorem balanced_iff :
    Balanced (acquireThenRelease acquired released) ↔
      (∀ item ∈ acquired, released.count item = 1) ∧ ∀ item ∈ released, item ∈ acquired := by
  constructor
  · intro balanced
    refine ⟨fun item member => ?_, fun item member => ?_⟩
    · rw [← @releases_acquireThenRelease _ _ acquired]
      exact balanced.released item (acquire_mem.mpr member)
    · exact acquire_mem.mp (balanced.acquired item (release_mem.mpr member))
  · rintro ⟨once, known⟩
    refine ⟨fun item member => ?_, fun item member => ?_⟩
    · rw [releases_acquireThenRelease]
      exact once item (acquire_mem.mp member)
    · exact acquire_mem.mpr (known item (release_mem.mp member))

omit [DecidableEq resource] in
theorem acquireThenRelease_append (acquired released : List resource) :
    acquireThenRelease acquired [] ++ acquireThenRelease [] released =
      acquireThenRelease acquired released := by
  unfold acquireThenRelease
  rw [List.map_nil, List.append_nil, List.map_nil, List.nil_append]

/-- What is acquired first and released last does not matter to the rest. -/
theorem balanced_around {item : resource} (notAcquired : item ∉ acquired)
    (notReleased : item ∉ released) :
    Balanced (acquireThenRelease (item :: acquired) (released ++ [item])) ↔
      Balanced (acquireThenRelease acquired released) := by
  have counted : ∀ other ∈ acquired, (released ++ [item]).count other = released.count other := by
    intro other member
    have different : ¬(item == other) = true := by
      intro same
      rw [eq_of_beq same] at notAcquired
      exact notAcquired member
    rw [List.count_append, List.count_singleton, if_neg different, Nat.add_zero]
  rw [balanced_iff, balanced_iff]
  constructor
  · rintro ⟨once, known⟩
    refine ⟨fun other member => ?_, fun other member => ?_⟩
    · rw [← counted other member]
      exact once other (List.mem_cons_of_mem item member)
    · rcases List.mem_cons.mp (known other (List.mem_append_left _ member)) with same | rest
      · rw [same] at member
        exact absurd member notReleased
      · exact rest
  · rintro ⟨once, known⟩
    refine ⟨fun other member => ?_, fun other member => ?_⟩
    · rcases List.mem_cons.mp member with same | rest
      · rw [same, List.count_append, List.count_eq_zero_of_not_mem notReleased,
          List.count_singleton_self]
      · rw [counted other rest]
        exact once other rest
    · rcases List.mem_append.mp member with earlier | last
      · exact List.mem_cons_of_mem item (known other earlier)
      · rw [List.mem_singleton.mp last]
        exact List.mem_cons_self

theorem balanced_unreleased : Balanced (acquireThenRelease acquired []) ↔ acquired = [] := by
  rw [balanced_iff]
  constructor
  · rintro ⟨once, _⟩
    refine List.eq_nil_iff_forall_not_mem.mpr fun item member => ?_
    cases once item member
  · rintro rfl
    exact ⟨fun _ member => (nomatch member), fun _ member => (nomatch member)⟩

/-- Releasing in any order what was acquired, all of it different, balances. -/
theorem balanced_of_perm (distinct : acquired.Nodup) (same : released.Perm acquired) :
    Balanced (acquireThenRelease acquired released) :=
  balanced_iff.mpr ⟨fun item member => by
      rw [same.count_eq]
      exact List.nodup_iff_count_eq_one.mp distinct item member,
    fun _ member => same.mem_iff.mp member⟩

end Counting

/-! ### Live resources -/

def Live (ledger : List (Operation resource)) (item : resource) : Prop :=
  .acquire item ∈ ledger ∧ .release item ∉ ledger

theorem Live.append {first second : List (Operation resource)} {item : resource}
    (live : Live first item) (kept : .release item ∉ second) : Live (first ++ second) item := by
  refine ⟨List.mem_append_left second live.1, fun released => ?_⟩
  rcases List.mem_append.mp released with before | behind
  · exact live.2 before
  · exact kept behind

theorem live_acquired {ledger : List (Operation resource)} {item : resource}
    (unreleased : .release item ∉ ledger) : Live (ledger ++ [.acquire item]) item := by
  refine ⟨List.mem_append_right ledger List.mem_cons_self, fun released => ?_⟩
  rcases List.mem_append.mp released with before | last
  · exact unreleased before
  · cases List.mem_singleton.mp last

end BuildLinux.ResourceLedger
