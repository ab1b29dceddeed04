/-
smsc_phy_reset of the PHY driver patch for imx6ull, with its wait for the end
of the reset.

The reset bit of the BMCR is tested on the value that phy_read returned, also
when that value is an error code.  The timeout is counted down before each
read, so the loop can leave with the bit still set.
-/

import BuildLinux.BoundedPolling

namespace BuildLinux.Concrete.PhyReset

open BoundedPolling

/-! ### The driver -/

def EINVAL : Int := 22

def MII_BMCR : Nat := 0x00

def BMCR_RESET : BitVec 32 := 0x8000

def MII_LAN83C185_SPECIAL_MODES : Nat := 0x12

def MII_LAN83C185_MODE_MASK : BitVec 32 := 0xE0

def MII_LAN83C185_MODE_POWERDOWN : BitVec 32 := 0xC0

def MII_LAN83C185_MODE_ALL : BitVec 32 := 0xE0

/-- What the device tree, the GPIOs and the PHY answer. -/
structure Kernel (node : Type) where
  findNodeByPath : String → Option node
  readU32 : node → String → Option (BitVec 32)
  getNamedGpio : node → String → Int
  gpioIsValid : Int → Bool
  specialModes : Int
  bmcr : Nat → Int

inductive Action where
  | gpioDirectionOutput (gpio : Int) (value : Bool)
  | gpioSetValue (gpio : Int) (value : Bool)
  | msleep (msec : BitVec 32)
  | udelay (usec : Nat)
  | phyRead (register : Nat) (rc : Int)
  | phyWrite (register : Nat) (value : BitVec 32)
  deriving DecidableEq, Repr

structure Outcome where
  result : Int
  actions : List Action
  deriving DecidableEq, Repr

variable {node : Type}

def nodePath (addr : Int) : Option String :=
  if addr = 0 then some "/soc/aips-bus@02100000/ethernet@02188000"
  else if addr = 1 then some "/soc/aips-bus@02000000/ethernet@020b4000"
  else none

/-- `np` is not initialised for other addresses: `unset` is what it holds. -/
def findNode (kernel : Kernel node) (unset : node) (addr : Int) : Option node :=
  match nodePath addr with
  | some path => kernel.findNodeByPath path
  | none => some unset

def resetDuration (kernel : Kernel node) (np : node) : BitVec 32 :=
  match kernel.readU32 np "phy-reset-duration" with
  | some msec => if 1000 < msec.toInt then 1 else msec
  | none => 1

def pulseReset (phyReset : Int) (msec : BitVec 32) : List Action :=
  [.gpioDirectionOutput phyReset false, .gpioSetValue phyReset false, .msleep msec,
    .gpioSetValue phyReset true]

/-- The write that takes the PHY out of its power down mode. -/
def leavePowerDown (rc : Int) : List Action :=
  if BitVec.ofInt 32 rc &&& MII_LAN83C185_MODE_MASK = MII_LAN83C185_MODE_POWERDOWN then
    [.phyWrite MII_LAN83C185_SPECIAL_MODES (BitVec.ofInt 32 rc ||| MII_LAN83C185_MODE_ALL)]
  else []

/-- The loop from the test of `timeout` on, with the reads made before it. -/
def waitEndOfReset (bmcr : Nat → Int) : Nat → Nat → Outcome
  | 0, _ => ⟨-1, [.udelay 10]⟩
  | timeout + 1, made =>
      let rc := bmcr made
      let once : List Action := [.udelay 10, .phyRead MII_BMCR rc]
      if BitVec.ofInt 32 rc &&& BMCR_RESET ≠ 0 then
        let rest := waitEndOfReset bmcr timeout (made + 1)
        ⟨rest.result, once ++ rest.actions⟩
      else ⟨0, once⟩

def smscPhyReset (kernel : Kernel node) (unset : node) (addr : Int) : Outcome :=
  match findNode kernel unset addr with
  | none => ⟨-EINVAL, []⟩
  | some np =>
      let phyReset := kernel.getNamedGpio np "phy-reset-gpios"
      if kernel.gpioIsValid phyReset then
        let rc := kernel.specialModes
        let begun := pulseReset phyReset (resetDuration kernel np) ++
          [.phyRead MII_LAN83C185_SPECIAL_MODES rc]
        if rc < 0 then ⟨rc, begun⟩
        else
          let waited := waitEndOfReset kernel.bmcr 50000 0
          ⟨waited.result,
            begun ++ leavePowerDown rc ++ .phyWrite MII_BMCR BMCR_RESET :: waited.actions⟩
      else ⟨-EINVAL, []⟩

/-- The results of the reads of BMCR, in their order. -/
def bmcrReads (actions : List Action) : List Int :=
  actions.filterMap fun
    | .phyRead register rc => if register = MII_BMCR then some rc else none
    | _ => none

@[simp] theorem bmcrReads_append (earlier later : List Action) :
    bmcrReads (earlier ++ later) = bmcrReads earlier ++ bmcrReads later :=
  List.filterMap_append

/-! ### The reset bit of what a read returned -/

/-- What `phy_read` can return: a register of 16 bits or an error code. -/
def IsReadResult (rc : Int) : Prop := (0 ≤ rc ∧ rc < 65536) ∨ (-4095 ≤ rc ∧ rc ≤ -1)

/-- A successful read with the reset bit clear. -/
def ResetEnded (rc : Int) : Prop := 0 ≤ rc ∧ rc.toNat.testBit 15 = false

theorem bitTest_eq_zero_iff (value : BitVec 32) :
    value &&& BMCR_RESET = 0 ↔ value.toNat.testBit 15 = false := by
  have isPower : BMCR_RESET = BitVec.twoPow 32 15 := by decide
  rw [isPower, BitVec.and_twoPow, ← BitVec.testBit_toNat]
  split
  next isSet =>
      rw [isSet]
      decide
  next isClear => exact ⟨fun _ => Bool.eq_false_iff.mpr isClear, fun _ => rfl⟩

/-- Every error code has the reset bit set. -/
theorem error_has_resetBit {rc : Int} (above : -4095 ≤ rc) (below : rc ≤ -1) :
    (BitVec.ofInt 32 rc).toNat.testBit 15 = true := by
  rw [BitVec.toNat_ofInt, Nat.testBit_eq_decide_div_mod_eq, decide_eq_true_eq]
  omega

theorem leavesLoop_iff {rc : Int} (isResult : IsReadResult rc) :
    BitVec.ofInt 32 rc &&& BMCR_RESET = 0 ↔ ResetEnded rc := by
  rw [bitTest_eq_zero_iff]
  rcases isResult with ⟨nonneg, below⟩ | ⟨above, below⟩
  · have same : (BitVec.ofInt 32 rc).toNat = rc.toNat := by
      rw [BitVec.toNat_ofInt]
      omega
    rw [same]
    exact ⟨fun isClear => ⟨nonneg, isClear⟩, fun ended => ended.2⟩
  · rw [error_has_resetBit above below]
    constructor
    · intro impossible
      cases impossible
    · intro ended
      have nonneg := ended.1
      omega

/-! ### The loop as a polling -/

def leavesLoop (rc : Int) : Bool := BitVec.ofInt 32 rc &&& BMCR_RESET == 0

theorem waitEndOfReset_result (bmcr : Nat → Int) (timeout made : Nat) :
    (waitEndOfReset bmcr timeout made).result =
      if (poll leavesLoop bmcr timeout made).isSome then 0 else -1 := by
  induction timeout generalizing made with
  | zero => rfl
  | succ timeout ih =>
      unfold waitEndOfReset poll
      by_cases ended : BitVec.ofInt 32 (bmcr made) &&& BMCR_RESET = 0
      · have leaves : leavesLoop (bmcr made) = true := beq_iff_eq.mpr ended
        rw [if_pos leaves]
        simp only [ne_eq, ended, not_true_eq_false, if_false, Option.isSome_some, if_true]
      · have stays : ¬leavesLoop (bmcr made) = true := fun leaves => ended (beq_iff_eq.mp leaves)
        rw [if_neg stays, ← ih (made + 1)]
        simp only [ne_eq, ended, not_false_eq_true, if_true]

theorem waitEndOfReset_reads (bmcr : Nat → Int) (timeout made : Nat) :
    bmcrReads (waitEndOfReset bmcr timeout made).actions =
      taken leavesLoop bmcr timeout made := by
  induction timeout generalizing made with
  | zero => rfl
  | succ timeout ih =>
      unfold waitEndOfReset taken
      by_cases ended : BitVec.ofInt 32 (bmcr made) &&& BMCR_RESET = 0
      · have leaves : leavesLoop (bmcr made) = true := beq_iff_eq.mpr ended
        rw [if_pos leaves]
        simp only [ne_eq, ended, not_true_eq_false, if_false]
        rfl
      · have stays : ¬leavesLoop (bmcr made) = true := fun leaves => ended (beq_iff_eq.mp leaves)
        rw [if_neg stays, ← ih (made + 1)]
        simp only [ne_eq, ended, not_false_eq_true, if_true, bmcrReads_append]
        rfl

/-- Nothing before the loop reads BMCR. -/
theorem leavePowerDown_reads (rc : Int) : bmcrReads (leavePowerDown rc) = [] := by
  unfold leavePowerDown
  split <;> rfl

/-- With its node and its GPIO there, the reset comes to the loop. -/
theorem smscPhyReset_reaches {kernel : Kernel node} {unset np : node} {addr : Int}
    (found : findNode kernel unset addr = some np)
    (gpio : kernel.gpioIsValid (kernel.getNamedGpio np "phy-reset-gpios") = true)
    (firstRead : 0 ≤ kernel.specialModes) :
    (smscPhyReset kernel unset addr).result = (waitEndOfReset kernel.bmcr 50000 0).result ∧
      bmcrReads (smscPhyReset kernel unset addr).actions =
        taken leavesLoop kernel.bmcr 50000 0 := by
  have notNegative : ¬kernel.specialModes < 0 := by omega
  unfold smscPhyReset
  simp only [found, gpio, if_true, if_neg notNegative, bmcrReads_append, leavePowerDown_reads,
    List.append_nil]
  refine ⟨trivial, ?_⟩
  rw [← waitEndOfReset_reads]
  rfl

/-! ### The wait -/

/-- What the wait for the end of the reset is to do. -/
structure WaitsForReset (bmcr : Nat → Int) (outcome : Outcome) : Prop where
  bounded : (bmcrReads outcome.actions).length ≤ 50000
  succeeds : outcome.result = 0 ↔ ∃ index < 50000, ResetEnded (bmcr index)
  stops : ∀ index < 50000, ResetEnded (bmcr index) →
    (∀ earlier < index, ¬ResetEnded (bmcr earlier)) →
    bmcrReads outcome.actions = (List.range (index + 1)).map bmcr
  gives_up : outcome.result ≠ 0 → outcome.result = -1
  ends_on_success : outcome.result = 0 →
    ∃ last, (bmcrReads outcome.actions).getLast? = some last ∧ ResetEnded last

theorem leavesLoop_eq_true {rc : Int} (isResult : IsReadResult rc) :
    leavesLoop rc = true ↔ ResetEnded rc :=
  beq_iff_eq.trans (leavesLoop_iff isResult)

theorem leavesLoop_eq_false {rc : Int} (isResult : IsReadResult rc) :
    leavesLoop rc = false ↔ ¬ResetEnded rc := by
  rw [← leavesLoop_eq_true isResult, Bool.not_eq_true]

theorem poll_first {bmcr : Nat → Int} (results : ∀ index, IsReadResult (bmcr index))
    {index : Nat} (below : index < 50000) (ended : ResetEnded (bmcr index))
    (first : ∀ earlier < index, ¬ResetEnded (bmcr earlier)) :
    poll leavesLoop bmcr 50000 0 = some index :=
  (poll_eq_some_iff leavesLoop bmcr 50000 0 index).mpr
    ⟨Nat.zero_le _, by omega, (leavesLoop_eq_true (results index)).mpr ended,
      fun earlier _ before => (leavesLoop_eq_false (results earlier)).mpr (first earlier before)⟩

theorem taken_range {bmcr : Nat → Int} {index : Nat}
    (ends : poll leavesLoop bmcr 50000 0 = some index) :
    taken leavesLoop bmcr 50000 0 = (List.range (index + 1)).map bmcr := by
  rw [taken_of_accepted leavesLoop bmcr ends, Nat.sub_zero, List.range_eq_range']

/-- The addresses with a path are 0 and 1. -/
theorem reset_waits {kernel : Kernel node} {unset np : node} {addr : Int} {path : String}
    (isPath : nodePath addr = some path)
    (present : kernel.findNodeByPath path = some np)
    (gpio : kernel.gpioIsValid (kernel.getNamedGpio np "phy-reset-gpios") = true)
    (firstRead : 0 ≤ kernel.specialModes) (results : ∀ index, IsReadResult (kernel.bmcr index)) :
    WaitsForReset kernel.bmcr (smscPhyReset kernel unset addr) := by
  have found : findNode kernel unset addr = some np := by
    rw [findNode, isPath]
    exact present
  obtain ⟨sameResult, sameReads⟩ := smscPhyReset_reaches found gpio firstRead
  rw [waitEndOfReset_result] at sameResult
  have succeeds : (smscPhyReset kernel unset addr).result = 0 ↔
      (poll leavesLoop kernel.bmcr 50000 0).isSome = true := by
    rw [sameResult]
    split <;> simp_all
  constructor
  · rw [sameReads]
    exact taken_length_le leavesLoop kernel.bmcr 50000 0
  · rw [succeeds, poll_isSome_iff]
    constructor
    · rintro ⟨index, _, below, accepted⟩
      exact ⟨index, by omega, (leavesLoop_eq_true (results index)).mp accepted⟩
    · rintro ⟨index, below, ended⟩
      exact ⟨index, Nat.zero_le _, by omega, (leavesLoop_eq_true (results index)).mpr ended⟩
  · intro index below ended first
    rw [sameReads]
    exact taken_range (poll_first results below ended first)
  · intro failed
    rw [sameResult] at failed ⊢
    split at failed
    · exact absurd rfl failed
    · rename_i exhausted
      rw [if_neg exhausted]
  · intro succeeded
    obtain ⟨index, ends⟩ := Option.isSome_iff_exists.mp (succeeds.mp succeeded)
    have accepted := ((poll_eq_some_iff leavesLoop kernel.bmcr 50000 0 index).mp ends).2.2.1
    refine ⟨kernel.bmcr index, ?_, (leavesLoop_eq_true (results index)).mp accepted⟩
    rw [sameReads, taken_range ends, List.range_succ, List.map_append, List.map_singleton,
      List.getLast?_concat]

/-- A board whose PHY fails one read, is in reset at the next, and then comes up. -/
def slowBoard : Kernel Unit where
  findNodeByPath _ := some ()
  readU32 _ _ := some 26
  getNamedGpio _ _ := 5
  gpioIsValid gpio := decide (0 ≤ gpio)
  specialModes := 0xC1
  bmcr index := if index = 0 then -110 else if index = 1 then 0x8000 else 0x3000

theorem slowBoard_waits :
    WaitsForReset slowBoard.bmcr (smscPhyReset slowBoard () 1) ∧
      (smscPhyReset slowBoard () 1).result = 0 ∧
      bmcrReads (smscPhyReset slowBoard () 1).actions = [-110, 0x8000, 0x3000] := by
  refine ⟨reset_waits rfl rfl rfl (by decide) fun index => ?_, by decide +kernel,
    by decide +kernel⟩
  unfold slowBoard IsReadResult
  dsimp only
  split
  · exact Or.inr ⟨by decide, by decide⟩
  · split <;> exact Or.inl ⟨by decide, by decide⟩

end BuildLinux.Concrete.PhyReset
