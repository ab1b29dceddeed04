/-
Mjpeg2RgbConvert and Mjpeg2RgbConvertExit of driver/v4l2/video2lcd/convert/mjpeg2rgb.c:
what they allocate, use and free.

Decompressors and allocations get numbers, and a ledger keeps what happens to
them.  A libjpeg call that fails jumps to the error branch, where the local
`aucLineBuffer`, which is not volatile, may have its latest value or the NULL it
had before.  A line written through a NULL pointer ends the program.
-/

import BuildLinux.ResourceLedger

namespace BuildLinux.Concrete.MjpegConverter

open ResourceLedger

inductive Resource where
  | allocation (number : Nat)
  | decompressor (number : Nat)
  deriving DecidableEq, Repr

def Resource.number : Resource → Nat
  | .allocation number => number
  | .decompressor number => number

/-- The data pointer of the output, and what was done so far. -/
structure Converter where
  aucPixelDatas : Option Nat
  fresh : Nat
  ledger : List (Operation Resource)
  crashed : Bool

def initial : Converter where
  aucPixelDatas := none
  fresh := 0
  ledger := []
  crashed := false

inductive JpegCall where
  | createDecompress
  | memSrc
  | readHeader
  | startDecompress
  | readScanlines (line : Nat)
  | finishDecompress
  deriving DecidableEq, Repr

/-- What one conversion meets. -/
structure Outcome where
  fails : JpegCall → Bool
  /-- `malloc(iRowStride)` succeeds. -/
  lineBuffer : Bool
  /-- `malloc(iTotalBytes)` succeeds. -/
  pixelDatas : Bool
  outputWidth : Nat
  outputHeight : Nat
  /-- The error branch sees the latest value of `aucLineBuffer`. -/
  latest : Bool

def Converter.record (state : Converter) (operations : List (Operation Resource)) : Converter :=
  { state with ledger := state.ledger ++ operations }

def malloc (allocated : Bool) (state : Converter) : Option Nat × Converter :=
  if allocated then
    (some state.fresh,
      { state with
        fresh := state.fresh + 1
        ledger := state.ledger ++ [.acquire (.allocation state.fresh)] })
  else (none, state)

def free (pointer : Option Nat) (state : Converter) : Converter :=
  match pointer with
  | none => state
  | some number => state.record [.release (.allocation number)]

/-- Calls one after the other, up to the first that jumps. -/
def jpegCalls (outcome : Outcome) (tDInfo : Nat) : List JpegCall → Converter → Converter × Bool
  | [], state => (state, false)
  | call :: rest, state =>
      let used := state.record [.use (.decompressor tDInfo)]
      if outcome.fails call then (used, true) else jpegCalls outcome tDInfo rest used

/-- `CovertOneLine` stores something. -/
def StoresPixels (iBpp : Nat) (outcome : Outcome) : Prop :=
  0 < outcome.outputWidth ∧ (iBpp = 24 ∨ iBpp = 32 ∨ iBpp = 16)

instance (iBpp : Nat) (outcome : Outcome) : Decidable (StoresPixels iBpp outcome) :=
  inferInstanceAs (Decidable (_ ∧ _))

inductive LinesEnd where
  | done
  | jumped
  | crashed
  deriving DecidableEq, Repr

/-- `while (output_scanline < output_height)`, from a line on. -/
def readLines (iBpp : Nat) (outcome : Outcome) (tDInfo aucLineBuffer : Nat) :
    Nat → Nat → Converter → Converter × LinesEnd
  | 0, _, state => (state, .done)
  | remaining + 1, line, state =>
      let read := state.record
        [.use (.decompressor tDInfo), .use (.allocation aucLineBuffer)]
      if outcome.fails (.readScanlines line) then (read, .jumped)
      else if StoresPixels iBpp outcome then
        match state.aucPixelDatas with
        | none => (read, .crashed)
        | some pucDest =>
            readLines iBpp outcome tDInfo aucLineBuffer remaining (line + 1)
              (read.record [.use (.allocation pucDest)])
      else readLines iBpp outcome tDInfo aucLineBuffer remaining (line + 1) read

/-- The branch behind `setjmp`. -/
def errorBranch (outcome : Outcome) (tDInfo : Nat) (aucLineBuffer : Option Nat)
    (state : Converter) : Converter × Option Int :=
  let destroyed := state.record [.release (.decompressor tDInfo)]
  let freed := free (if outcome.latest then aucLineBuffer else none) destroyed
  (free state.aucPixelDatas freed, some (-1))

def mallocPixelDatas (outcome : Outcome) (state : Converter) : Converter :=
  match state.aucPixelDatas with
  | none =>
      let result := malloc outcome.pixelDatas state
      { result.2 with aucPixelDatas := result.1 }
  | some _ => state

/-- What follows the loop over the lines. -/
def finishConvert (outcome : Outcome) (tDInfo aucLineBuffer : Nat) (state : Converter) :
    Converter × Option Int :=
  match jpegCalls outcome tDInfo [.finishDecompress] (free (some aucLineBuffer) state) with
  | (failed, true) => errorBranch outcome tDInfo (some aucLineBuffer) failed
  | (finished, false) => (finished.record [.release (.decompressor tDInfo)], some 0)

/-- What follows the allocation of the line buffer; a call that does not return
has no result. -/
def convertLines (iBpp : Nat) (outcome : Outcome) (tDInfo aucLineBuffer : Nat)
    (state : Converter) : Converter × Option Int :=
  match readLines iBpp outcome tDInfo aucLineBuffer outcome.outputHeight 0
      (mallocPixelDatas outcome state) with
  | (broken, .crashed) => ({ broken with crashed := true }, none)
  | (failed, .jumped) => errorBranch outcome tDInfo (some aucLineBuffer) failed
  | (read, .done) => finishConvert outcome tDInfo aucLineBuffer read

def earlyCalls : List JpegCall := [.createDecompress, .memSrc, .readHeader, .startDecompress]

def mjpeg2RgbConvert (iBpp : Nat) (outcome : Outcome) (state : Converter) :
    Converter × Option Int :=
  let tDInfo := state.fresh
  let created : Converter :=
    { state with
      fresh := state.fresh + 1
      ledger := state.ledger ++ [.acquire (.decompressor tDInfo)] }
  match jpegCalls outcome tDInfo earlyCalls created with
  | (failed, true) => errorBranch outcome tDInfo none failed
  | (started, false) =>
      match malloc outcome.lineBuffer started with
      | (none, refused) => (refused, some (-1))
      | (some aucLineBuffer, allocated) =>
          convertLines iBpp outcome tDInfo aucLineBuffer allocated

def mjpeg2RgbConvertExit (state : Converter) : Converter × Option Int :=
  match state.aucPixelDatas with
  | none => (state, some 0)
  | some number => ({ free (some number) state with aucPixelDatas := none }, some 0)

inductive Action where
  | convert (outcome : Outcome)
  | convertExit

/-- Nothing happens in a program that crashed. -/
def step (iBpp : Nat) (state : Converter) (action : Action) : Converter :=
  if state.crashed then state
  else
    match action with
    | .convert outcome => (mjpeg2RgbConvert iBpp outcome state).1
    | .convertExit => (mjpeg2RgbConvertExit state).1

/-! ### Ownership -/

/-- The data pointer is NULL or live, nothing is freed twice or used behind
that, and, unless a crash kept the call from returning, every decompressor is
destroyed. -/
structure Owned (state : Converter) : Prop where
  pointer : ∀ number, state.aucPixelDatas = some number → Live state.ledger (.allocation number)
  sound : Sound state.ledger
  decompressors : state.crashed = false → ∀ number,
    .acquire (.decompressor number) ∈ state.ledger → .release (.decompressor number) ∈ state.ledger

/-- Owned in every state of a sequence of calls. -/
def AlwaysOwned (iBpp : Nat) : Converter → List Action → Prop
  | state, [] => Owned state
  | state, action :: rest => Owned state ∧ AlwaysOwned iBpp (step iBpp state action) rest

def FailsEarly (outcome : Outcome) : Prop := ∃ call ∈ earlyCalls, outcome.fails call = true

def LineFails (outcome : Outcome) : Prop :=
  ∃ line, line < outcome.outputHeight ∧ outcome.fails (.readScanlines line) = true

/-- When a conversion keeps the ownership of a data pointer.  An error strikes
while the pointer is NULL; the line buffer can be allocated; and no error at the
end sees the line buffer that was freed. -/
structure ConvertsSafely (iBpp : Nat) (outcome : Outcome) (pointer : Option Nat) : Prop where
  early : FailsEarly outcome → pointer = none
  lineBuffer : ¬FailsEarly outcome → outcome.lineBuffer = true
  late : ¬FailsEarly outcome → pointer ≠ none ∨ outcome.pixelDatas = true →
    ¬LineFails outcome ∧ outcome.fails .finishDecompress = false
  finish : ¬FailsEarly outcome → pointer = none → outcome.pixelDatas = false →
    ¬(0 < outcome.outputHeight ∧ StoresPixels iBpp outcome) → ¬LineFails outcome →
    outcome.fails .finishDecompress = true → outcome.latest = false

def StepSafe (iBpp : Nat) (state : Converter) : Action → Prop
  | .convert outcome => state.crashed = true ∨ ConvertsSafely iBpp outcome state.aucPixelDatas
  | .convertExit => True

def StepsSafe (iBpp : Nat) : Converter → List Action → Prop
  | _, [] => True
  | state, action :: rest =>
      StepSafe iBpp state action ∧ StepsSafe iBpp (step iBpp state action) rest

/-! ### Inside a call -/

def Numbered (state : Converter) : Prop :=
  ∀ operation ∈ state.ledger, operation.item.number < state.fresh

theorem Numbered.record {state : Converter} (numbered : Numbered state)
    {operations : List (Operation Resource)}
    (items : ∀ operation ∈ operations, operation.item.number < state.fresh) :
    Numbered (state.record operations) := by
  intro operation member
  rcases List.mem_append.mp member with before | behind
  · exact numbered operation before
  · exact items operation behind

theorem Numbered.live {state : Converter} (numbered : Numbered state) {item : Resource}
    (live : Live state.ledger item) : item.number < state.fresh :=
  numbered _ live.1

theorem Numbered.release {state : Converter} (numbered : Numbered state) {item : Resource}
    (live : Live state.ledger item) : Numbered (state.record [.release item]) := by
  refine numbered.record fun operation member => ?_
  rw [List.mem_singleton.mp member]
  exact numbered.live live

/-- What is acquired takes the next number. -/
theorem Numbered.acquire {state : Converter} (numbered : Numbered state) {item : Resource}
    (isFresh : item.number = state.fresh) :
    Numbered
      { state with
        fresh := state.fresh + 1
        ledger := state.ledger ++ [.acquire item] } := by
  intro operation member
  rcases List.mem_append.mp member with before | last
  · exact Nat.lt_succ_of_lt (numbered operation before)
  · rw [List.mem_singleton.mp last]
    exact Nat.lt_succ_of_le (Nat.le_of_eq isFresh)

/-- A decompressor stays destroyed where it is not created again. -/
theorem destroyed_append {ledger operations : List (Operation Resource)} {number : Nat}
    (noAcquire : .acquire (.decompressor number) ∉ operations)
    (destroyed : .acquire (.decompressor number) ∈ ledger →
      .release (.decompressor number) ∈ ledger)
    (acquired : .acquire (.decompressor number) ∈ ledger ++ operations) :
    .release (.decompressor number) ∈ ledger ++ operations := by
  rcases List.mem_append.mp acquired with before | behind
  · exact List.mem_append_left _ (destroyed before)
  · exact absurd behind noAcquire

structure InCall (state : Converter) (tDInfo : Nat) : Prop where
  pointer : ∀ number, state.aucPixelDatas = some number → Live state.ledger (.allocation number)
  sound : Sound state.ledger
  numbered : Numbered state
  decompressor : Live state.ledger (.decompressor tDInfo)
  others : ∀ number, number ≠ tDInfo → .acquire (.decompressor number) ∈ state.ledger →
    .release (.decompressor number) ∈ state.ledger
  running : state.crashed = false

/-- A live buffer that is not the output's. -/
structure LineBuffer (state : Converter) (aucLineBuffer : Nat) : Prop where
  live : Live state.ledger (.allocation aucLineBuffer)
  own : state.aucPixelDatas ≠ some aucLineBuffer

theorem not_release_uses (item : Resource) (items : List Resource) :
    Operation.release item ∉ items.map Operation.use := by
  intro member
  obtain ⟨other, _, same⟩ := List.mem_map.mp member
  cases same

theorem InCall.uses {state : Converter} {tDInfo : Nat} (inCall : InCall state tDInfo)
    {items : List Resource} (live : ∀ item ∈ items, Live state.ledger item) :
    InCall (state.record (items.map .use)) tDInfo where
  pointer := fun number isPointer => (inCall.pointer number isPointer).append (not_release_uses _ _)
  sound := inCall.sound.append_uses fun item member => (live item member).2
  numbered := by
    refine inCall.numbered.record fun operation member => ?_
    obtain ⟨item, used, rfl⟩ := List.mem_map.mp member
    exact inCall.numbered.live (live item used)
  decompressor := inCall.decompressor.append (not_release_uses _ _)
  others := fun number other => destroyed_append (by simp) (inCall.others number other)
  running := inCall.running

theorem LineBuffer.uses {state : Converter} {aucLineBuffer : Nat}
    (line : LineBuffer state aucLineBuffer) (items : List Resource) :
    LineBuffer (state.record (items.map .use)) aucLineBuffer :=
  ⟨line.live.append (not_release_uses _ _), line.own⟩

/-- A `malloc` that succeeds. -/
def Converter.allocated (state : Converter) : Converter := (malloc true state).2

theorem InCall.unreleased {state : Converter} {tDInfo : Nat} (inCall : InCall state tDInfo) :
    .release (.allocation state.fresh) ∉ state.ledger := by
  intro released
  exact Nat.lt_irrefl _ (inCall.numbered _ released)

theorem InCall.allocated {state : Converter} {tDInfo : Nat} (inCall : InCall state tDInfo) :
    InCall state.allocated tDInfo where
  pointer := fun number isPointer => (inCall.pointer number isPointer).append (by simp)
  sound := inCall.sound.append_acquire _
  numbered := inCall.numbered.acquire rfl
  decompressor := inCall.decompressor.append (by simp)
  others := fun number other => destroyed_append (by simp) (inCall.others number other)
  running := inCall.running

theorem InCall.lineBuffer {state : Converter} {tDInfo : Nat} (inCall : InCall state tDInfo) :
    LineBuffer state.allocated state.fresh := by
  refine ⟨live_acquired inCall.unreleased, fun isPointer => ?_⟩
  exact Nat.lt_irrefl _ (inCall.numbered.live (inCall.pointer state.fresh isPointer))

theorem InCall.mallocPixelDatas {state : Converter} {tDInfo aucLineBuffer : Nat}
    (inCall : InCall state tDInfo) (line : LineBuffer state aucLineBuffer) (outcome : Outcome) :
    InCall (mallocPixelDatas outcome state) tDInfo ∧
      LineBuffer (mallocPixelDatas outcome state) aucLineBuffer := by
  unfold MjpegConverter.mallocPixelDatas
  cases isPointer : state.aucPixelDatas with
  | some number => exact ⟨inCall, line⟩
  | none =>
      cases allocates : outcome.pixelDatas with
      | false =>
          have same : { state with aucPixelDatas := none } = state := by rw [← isPointer]
          exact ⟨same ▸ inCall, same ▸ line⟩
      | true =>
          have after := inCall.allocated
          refine ⟨⟨?_, after.sound, after.numbered, after.decompressor, after.others,
            after.running⟩, line.live.append (by simp), ?_⟩
          · intro number isFresh
            cases isFresh
            exact inCall.lineBuffer.live
          · intro isFresh
            cases isFresh
            exact Nat.lt_irrefl _ (inCall.numbered.live line.live)

theorem InCall.free {state : Converter} {tDInfo aucLineBuffer : Nat} (inCall : InCall state tDInfo)
    (line : LineBuffer state aucLineBuffer) : InCall (free (some aucLineBuffer) state) tDInfo where
  pointer := by
    intro number isPointer
    refine (inCall.pointer number isPointer).append fun released => line.own ?_
    cases List.mem_singleton.mp released
    exact isPointer
  sound := (sound_append_release _).mpr ⟨inCall.sound, line.live.2⟩
  numbered := inCall.numbered.release line.live
  decompressor := inCall.decompressor.append (by simp)
  others := fun number other => destroyed_append (by simp) (inCall.others number other)
  running := inCall.running

theorem record_record (state : Converter) (first second : List Resource) :
    (state.record (first.map .use)).record (second.map .use) =
      state.record ((first ++ second).map .use) := by
  unfold Converter.record
  rw [List.map_append, List.append_assoc]

theorem record_nil (state : Converter) : state = state.record (([] : List Resource).map .use) := by
  unfold Converter.record
  rw [List.map_nil, List.append_nil]

/-- The calls use the decompressor, and jump if one of them fails. -/
theorem jpegCalls_spec (outcome : Outcome) (tDInfo : Nat) (calls : List JpegCall)
    (state : Converter) :
    (∃ items : List Resource, (∀ item ∈ items, item = .decompressor tDInfo) ∧
      (jpegCalls outcome tDInfo calls state).1 = state.record (items.map .use)) ∧
    ((jpegCalls outcome tDInfo calls state).2 = true ↔
      ∃ call ∈ calls, outcome.fails call = true) := by
  induction calls generalizing state with
  | nil =>
      refine ⟨⟨[], (fun item member => nomatch member), record_nil state⟩, ?_⟩
      simp [jpegCalls]
  | cons call rest ih =>
      rw [jpegCalls]
      by_cases fails : outcome.fails call = true
      · rw [if_pos fails]
        refine ⟨⟨[.decompressor tDInfo], fun item => List.mem_singleton.mp, rfl⟩, ?_⟩
        exact iff_of_true rfl ⟨call, List.mem_cons_self, fails⟩
      · rw [if_neg fails]
        obtain ⟨⟨items, decompressors, later⟩, jumps⟩ :=
          ih (state.record [.use (.decompressor tDInfo)])
        refine ⟨⟨[.decompressor tDInfo] ++ items, ?_, ?_⟩, ?_⟩
        · exact List.forall_mem_append.mpr ⟨fun item => List.mem_singleton.mp, decompressors⟩
        · rw [← record_record]
          exact later
        · rw [jumps]
          simp [fails]

theorem InCall.jpegCalls {state : Converter} {tDInfo : Nat} (inCall : InCall state tDInfo)
    (outcome : Outcome) (calls : List JpegCall) :
    InCall (jpegCalls outcome tDInfo calls state).1 tDInfo := by
  obtain ⟨⟨items, decompressors, after⟩, _⟩ := jpegCalls_spec outcome tDInfo calls state
  rw [after]
  refine inCall.uses fun item member => ?_
  rw [decompressors item member]
  exact inCall.decompressor

/-- The loop uses the decompressor, the line buffer and the pixels. -/
theorem readLines_uses (iBpp : Nat) (outcome : Outcome) (tDInfo aucLineBuffer remaining line : Nat)
    (state : Converter) :
    ∃ items : List Resource, (∀ item ∈ items, item = .decompressor tDInfo ∨
        item = .allocation aucLineBuffer ∨
        ∃ number, state.aucPixelDatas = some number ∧ item = .allocation number) ∧
      (readLines iBpp outcome tDInfo aucLineBuffer remaining line state).1 =
        state.record (items.map .use) := by
  induction remaining generalizing line state with
  | zero => exact ⟨[], (fun item member => nomatch member), record_nil state⟩
  | succ remaining ih =>
      have reads : ∀ item ∈ [Resource.decompressor tDInfo, .allocation aucLineBuffer],
          item = .decompressor tDInfo ∨ item = .allocation aucLineBuffer ∨
            ∃ number, state.aucPixelDatas = some number ∧ item = .allocation number := by
        intro item member
        rcases List.mem_cons.mp member with isDecompressor | rest
        · exact Or.inl isDecompressor
        · exact Or.inr (Or.inl (List.mem_singleton.mp rest))
      rw [readLines]
      by_cases fails : outcome.fails (.readScanlines line) = true
      · rw [if_pos fails]
        exact ⟨_, reads, rfl⟩
      · rw [if_neg fails]
        by_cases stores : StoresPixels iBpp outcome
        · rw [if_pos stores]
          split
          · exact ⟨_, reads, rfl⟩
          · rename_i pucDest isPointer
            obtain ⟨items, used, later⟩ := ih (line + 1) ((state.record
              ([Resource.decompressor tDInfo, .allocation aucLineBuffer].map .use)).record
                ([Resource.allocation pucDest].map .use))
            refine ⟨[.decompressor tDInfo, .allocation aucLineBuffer] ++
                ([.allocation pucDest] ++ items),
              List.forall_mem_append.mpr ⟨reads, List.forall_mem_append.mpr ⟨?_, used⟩⟩,
              later.trans ?_⟩
            · intro item member
              exact Or.inr (Or.inr ⟨pucDest, isPointer, List.mem_singleton.mp member⟩)
            · rw [record_record, record_record]
        · rw [if_neg stores]
          obtain ⟨items, used, later⟩ := ih (line + 1) (state.record
            ([Resource.decompressor tDInfo, .allocation aucLineBuffer].map .use))
          rw [record_record] at later
          exact ⟨_, List.forall_mem_append.mpr ⟨reads, used⟩, later⟩

theorem InCall.readLines {state : Converter} {tDInfo aucLineBuffer : Nat}
    (inCall : InCall state tDInfo) (line : LineBuffer state aucLineBuffer) (iBpp : Nat)
    (outcome : Outcome) :
    let read := (readLines iBpp outcome tDInfo aucLineBuffer outcome.outputHeight 0 state).1
    InCall read tDInfo ∧ LineBuffer read aucLineBuffer ∧
      read.aucPixelDatas = state.aucPixelDatas := by
  obtain ⟨items, used, after⟩ :=
    readLines_uses iBpp outcome tDInfo aucLineBuffer outcome.outputHeight 0 state
  dsimp only
  rw [after]
  refine ⟨inCall.uses fun item member => ?_, line.uses items, rfl⟩
  rcases used item member with rfl | rfl | ⟨number, isPointer, rfl⟩
  · exact inCall.decompressor
  · exact line.live
  · exact inCall.pointer number isPointer

/-- While nothing is stored through a NULL pointer, the loop ends early only at
a line that fails. -/
theorem readLines_end {iBpp : Nat} {outcome : Outcome} (tDInfo aucLineBuffer : Nat)
    {remaining line : Nat} {state : Converter}
    (stored : state.aucPixelDatas = none → ¬StoresPixels iBpp outcome) :
    ((readLines iBpp outcome tDInfo aucLineBuffer remaining line state).2 = .jumped ∧
        ∃ index, index < remaining ∧ outcome.fails (.readScanlines (line + index)) = true) ∨
      ((readLines iBpp outcome tDInfo aucLineBuffer remaining line state).2 = .done ∧
        ∀ index, index < remaining → outcome.fails (.readScanlines (line + index)) = false) := by
  induction remaining generalizing line state with
  | zero => exact Or.inr ⟨rfl, fun index below => absurd below (Nat.not_lt_zero index)⟩
  | succ remaining ih =>
      rw [readLines]
      by_cases fails : outcome.fails (.readScanlines line) = true
      · rw [if_pos fails]
        exact Or.inl ⟨rfl, 0, Nat.succ_pos remaining, fails⟩
      · rw [if_neg fails]
        have later {next : Converter} (same : next.aucPixelDatas = state.aucPixelDatas) :
            ((readLines iBpp outcome tDInfo aucLineBuffer remaining (line + 1) next).2 = .jumped ∧
              ∃ index, index < remaining + 1 ∧
                outcome.fails (.readScanlines (line + index)) = true) ∨
            ((readLines iBpp outcome tDInfo aucLineBuffer remaining (line + 1) next).2 = .done ∧
              ∀ index, index < remaining + 1 →
                outcome.fails (.readScanlines (line + index)) = false) := by
          rcases @ih (line + 1) next (same ▸ stored) with
            ⟨jumped, index, below, failing⟩ | ⟨done, none⟩
          · refine Or.inl ⟨jumped, index + 1, Nat.succ_lt_succ below, ?_⟩
            rw [← failing, Nat.add_assoc, Nat.add_comm 1]
          · refine Or.inr ⟨done, fun index below => ?_⟩
            cases index with
            | zero => exact eq_false_of_ne_true fails
            | succ index =>
                rw [← none index (Nat.lt_of_succ_lt_succ below), Nat.add_assoc, Nat.add_comm 1]
        by_cases stores : StoresPixels iBpp outcome
        · rw [if_pos stores]
          split
          · rename_i isPointer
            exact absurd stores (stored isPointer)
          · exact later rfl
        · rw [if_neg stores]
          exact later rfl

/-! ### The ends of a call -/

def frees : Option Nat → List (Operation Resource)
  | none => []
  | some number => [.release (.allocation number)]

theorem mem_frees {pointer : Option Nat} {operation : Operation Resource} :
    operation ∈ frees pointer ↔
      ∃ number, pointer = some number ∧ operation = .release (.allocation number) := by
  cases pointer with
  | none => simp [frees]
  | some number => simp [frees]

theorem free_frees (pointer : Option Nat) (state : Converter) :
    free pointer state = state.record (frees pointer) := by
  cases pointer with
  | none => exact congrArg (fun ledger => { state with ledger := ledger }) (List.append_nil _).symm
  | some number => rfl

/-- The decompressor of a call is the last that is still to be destroyed. -/
theorem InCall.destroyed {state : Converter} {tDInfo : Nat} (inCall : InCall state tDInfo)
    {operations : List (Operation Resource)}
    (destroys : .release (.decompressor tDInfo) ∈ operations)
    (noAcquire : ∀ item, .acquire item ∉ operations) (number : Nat)
    (acquired : .acquire (.decompressor number) ∈ state.ledger ++ operations) :
    .release (.decompressor number) ∈ state.ledger ++ operations := by
  by_cases own : number = tDInfo
  · rw [own]
    exact List.mem_append_right _ destroys
  · exact destroyed_append (noAcquire _) (inCall.others number own) acquired

theorem sound_frees {ledger : List (Operation Resource)} (sound : Sound ledger)
    {pointer : Option Nat} :
    Sound (ledger ++ frees pointer) ↔
      ∀ number, pointer = some number → .release (.allocation number) ∉ ledger := by
  cases pointer with
  | none =>
      rw [frees, List.append_nil]
      exact iff_of_true sound nofun
  | some number =>
      rw [frees, sound_append_release]
      constructor
      · rintro ⟨_, unreleased⟩ other isOther
        cases isOther
        exact unreleased
      · exact fun unreleased => ⟨sound, unreleased number rfl⟩

theorem Numbered.frees {state : Converter} (numbered : Numbered state) {pointer : Option Nat}
    (number : ∀ allocation, pointer = some allocation → allocation < state.fresh) :
    Numbered (state.record (frees pointer)) := by
  refine numbered.record fun operation member => ?_
  obtain ⟨allocation, isPointer, rfl⟩ := mem_frees.mp member
  exact number allocation isPointer

/-- The error branch keeps the ownership exactly if there is nothing for it to free
but a live line buffer. -/
theorem errorBranch_owned {state : Converter} {tDInfo : Nat} (inCall : InCall state tDInfo)
    (outcome : Outcome) {aucLineBuffer : Option Nat}
    (number : ∀ line, aucLineBuffer = some line → line < state.fresh) :
    Numbered (errorBranch outcome tDInfo aucLineBuffer state).1 ∧
      (Owned (errorBranch outcome tDInfo aucLineBuffer state).1 ↔
        state.aucPixelDatas = none ∧ (outcome.latest = true → ∀ line, aucLineBuffer = some line →
          .release (.allocation line) ∉ state.ledger)) := by
  have seenNumber : ∀ line, (if outcome.latest then aucLineBuffer else none) = some line →
      line < state.fresh := by
    intro line isSeen
    split at isSeen
    · exact number line isSeen
    · cases isSeen
  have seenLine : (∀ line, (if outcome.latest then aucLineBuffer else none) = some line →
      .release (.allocation line) ∉ state.ledger) ↔ (outcome.latest = true → ∀ line,
        aucLineBuffer = some line → .release (.allocation line) ∉ state.ledger) := by
    cases outcome.latest with
    | false => simp
    | true => simp
  rw [← seenLine]
  unfold errorBranch
  generalize (if outcome.latest then aucLineBuffer else none) = seen at *
  dsimp only
  rw [free_frees, free_frees]
  change Numbered (((state.record _).record _).record (frees state.aucPixelDatas)) ∧
    (Owned (((state.record _).record _).record _) ↔ _)
  have destroyed : Sound (state.ledger ++ [.release (.decompressor tDInfo)]) :=
    (sound_append_release _).mpr ⟨inCall.sound, inCall.decompressor.2⟩
  refine ⟨((inCall.numbered.release inCall.decompressor).frees seenNumber).frees
    fun pointer isPointer => inCall.numbered.live (inCall.pointer pointer isPointer), ?_⟩
  constructor
  · intro owned
    constructor
    · cases isPointer : state.aucPixelDatas with
      | none => rfl
      | some pointer =>
          refine absurd ?_ (owned.pointer pointer isPointer).2
          exact List.mem_append_right _ (mem_frees.mpr ⟨pointer, isPointer, rfl⟩)
    · intro line isSeen released
      have freed : Sound ((state.ledger ++ [.release (.decompressor tDInfo)]) ++ frees seen) :=
        owned.sound.before
      exact (sound_frees destroyed).mp freed line isSeen (List.mem_append_left _ released)
  · rintro ⟨isNull, unreleased⟩
    have freed : Sound ((state.ledger ++ [.release (.decompressor tDInfo)]) ++ frees seen) :=
      (sound_frees destroyed).mpr fun line isSeen => by simpa using unreleased line isSeen
    rw [isNull]
    refine ⟨fun pointer isPointer => ?_, ?_, fun _ other acquired => ?_⟩
    · exact absurd (isNull.symm.trans isPointer) nofun
    · change Sound (_ ++ frees seen ++ [])
      rw [List.append_nil]
      exact freed
    · change _ ∈ state.ledger ++ [_] ++ frees seen ++ [] at acquired
      change _ ∈ state.ledger ++ [_] ++ frees seen ++ []
      rw [List.append_nil, List.append_assoc] at acquired ⊢
      refine inCall.destroyed (List.mem_append_left _ List.mem_cons_self) ?_ other acquired
      simp [mem_frees]

theorem finishConvert_owned {state : Converter} {tDInfo aucLineBuffer : Nat}
    (inCall : InCall state tDInfo) (line : LineBuffer state aucLineBuffer) (outcome : Outcome) :
    Numbered (finishConvert outcome tDInfo aucLineBuffer state).1 ∧
      (Owned (finishConvert outcome tDInfo aucLineBuffer state).1 ↔
        (outcome.fails .finishDecompress = true →
          state.aucPixelDatas = none ∧ outcome.latest = false)) := by
  have freed := inCall.free line
  have after := freed.jpegCalls outcome [.finishDecompress]
  obtain ⟨⟨items, _, same⟩, jumps⟩ := jpegCalls_spec outcome tDInfo [.finishDecompress]
    (free (some aucLineBuffer) state)
  simp only [List.mem_singleton, exists_eq_left] at jumps
  unfold finishConvert
  generalize jpegCalls outcome tDInfo [.finishDecompress] (free (some aucLineBuffer) state) =
    result at *
  obtain ⟨reached, jumped⟩ := result
  dsimp only at same jumps after
  cases jumped with
  | true =>
      have fails := jumps.mp rfl
      have numbered : aucLineBuffer < reached.fresh := by
        rw [same]
        exact inCall.numbered.live line.live
      have branch := errorBranch_owned after outcome
        fun other (isLine : some aucLineBuffer = some other) => Option.some.inj isLine ▸ numbered
      have isFreed : .release (.allocation aucLineBuffer) ∈ reached.ledger := by
        rw [same]
        exact List.mem_append_left _ (List.mem_append_right _ List.mem_cons_self)
      have pointer : reached.aucPixelDatas = state.aucPixelDatas := by
        rw [same]
        rfl
      refine ⟨branch.1, branch.2.trans ?_⟩
      rw [pointer, forall_prop_of_true fails]
      refine and_congr_right fun _ => ?_
      constructor
      · intro unreleased
        by_contra latest
        exact unreleased (eq_true_of_ne_false latest) aucLineBuffer rfl isFreed
      · intro notLatest latest
        rw [notLatest] at latest
        cases latest
  | false =>
      have passes : ¬outcome.fails .finishDecompress = true := fun fails => nomatch jumps.mpr fails
      refine ⟨after.numbered.release after.decompressor,
        iff_of_true ?_ fun fails => absurd fails passes⟩
      refine ⟨fun pointer isPointer => (after.pointer pointer isPointer).append (by simp),
        (sound_append_release _).mpr ⟨after.sound, after.decompressor.2⟩, fun _ => ?_⟩
      exact after.destroyed List.mem_cons_self (by simp)

theorem mallocPixelDatas_null (outcome : Outcome) (state : Converter) :
    (mallocPixelDatas outcome state).aucPixelDatas = none ↔
      state.aucPixelDatas = none ∧ outcome.pixelDatas = false := by
  unfold mallocPixelDatas
  split
  · rename_i isNull
    rw [and_iff_right isNull]
    unfold malloc
    cases outcome.pixelDatas with
    | false => exact iff_of_true rfl rfl
    | true => exact iff_of_false nofun nofun
  · rename_i number isPointer
    rw [isPointer]
    exact iff_of_false nofun fun both => nomatch both.1

/-- How the loop ends. -/
theorem readLines_ends (iBpp : Nat) (outcome : Outcome) (tDInfo aucLineBuffer : Nat)
    (state : Converter) :
    let ending := (readLines iBpp outcome tDInfo aucLineBuffer outcome.outputHeight 0 state).2
    (ending = .jumped ∧ LineFails outcome) ∨
      (ending = .done ∧ ¬LineFails outcome ∧ (state.aucPixelDatas = none →
        ¬(0 < outcome.outputHeight ∧ StoresPixels iBpp outcome))) ∨
      ending = .crashed ∧ state.aucPixelDatas = none ∧ 0 < outcome.outputHeight ∧
        StoresPixels iBpp outcome := by
  dsimp only
  by_cases stored : state.aucPixelDatas = none → ¬StoresPixels iBpp outcome
  · rcases readLines_end tDInfo aucLineBuffer stored with
      ⟨jumped, line, below, fails⟩ | ⟨done, passes⟩
    · rw [Nat.zero_add] at fails
      exact Or.inl ⟨jumped, line, below, fails⟩
    · refine Or.inr (Or.inl ⟨done, ?_, fun isNull both => stored isNull both.2⟩)
      rintro ⟨line, below, fails⟩
      have passesLine := passes line below
      rw [Nat.zero_add, fails] at passesLine
      cases passesLine
  · obtain ⟨isNull, stores⟩ := Classical.not_imp.mp stored
    rw [not_not] at stores
    cases height : outcome.outputHeight with
    | zero =>
        refine Or.inr (Or.inl ⟨rfl, ?_, fun _ both => Nat.lt_irrefl 0 both.1⟩)
        rintro ⟨line, below, _⟩
        rw [height] at below
        exact Nat.not_lt_zero line below
    | succ remaining =>
        rw [readLines]
        by_cases fails : outcome.fails (.readScanlines 0) = true
        · rw [if_pos fails]
          exact Or.inl ⟨rfl, 0, by omega, fails⟩
        · rw [if_neg fails, if_pos stores]
          refine Or.inr (Or.inr ⟨?_, isNull, Nat.succ_pos remaining, stores⟩)
          split
          · rfl
          · rename_i number isPointer
            exact absurd (isNull.symm.trans isPointer) nofun

theorem convertLines_owned {state : Converter} {tDInfo aucLineBuffer : Nat}
    (inCall : InCall state tDInfo) (line : LineBuffer state aucLineBuffer) (iBpp : Nat)
    (outcome : Outcome) :
    Numbered (convertLines iBpp outcome tDInfo aucLineBuffer state).1 ∧
      (Owned (convertLines iBpp outcome tDInfo aucLineBuffer state).1 ↔
        (state.aucPixelDatas ≠ none ∨ outcome.pixelDatas = true →
          ¬LineFails outcome ∧ outcome.fails .finishDecompress = false) ∧
        (state.aucPixelDatas = none → outcome.pixelDatas = false →
          ¬(0 < outcome.outputHeight ∧ StoresPixels iBpp outcome) → ¬LineFails outcome →
          outcome.fails .finishDecompress = true → outcome.latest = false)) := by
  obtain ⟨withPixels, own⟩ := inCall.mallocPixelDatas line outcome
  have isNull := mallocPixelDatas_null outcome state
  obtain ⟨inRead, inReadLine, pointer⟩ := withPixels.readLines own iBpp outcome
  have ends := readLines_ends iBpp outcome tDInfo aucLineBuffer (mallocPixelDatas outcome state)
  have nonNull : (mallocPixelDatas outcome state).aucPixelDatas ≠ none ↔
      state.aucPixelDatas ≠ none ∨ outcome.pixelDatas = true := by
    rw [Ne, isNull, Classical.not_and_iff_not_or_not, Bool.not_eq_false]
  rw [← nonNull, ← and_imp, ← isNull]
  unfold convertLines
  rw [← pointer] at ends ⊢
  generalize readLines iBpp outcome tDInfo aucLineBuffer outcome.outputHeight 0
    (mallocPixelDatas outcome state) = result at *
  obtain ⟨read, ending⟩ := result
  dsimp only at ends inRead inReadLine ⊢
  rcases ends with ⟨rfl, fails⟩ | ⟨rfl, passes, stored⟩ | ⟨rfl, null, some, stores⟩
  · obtain ⟨numbered, owned⟩ := errorBranch_owned inRead outcome
      fun other (isLine : some aucLineBuffer = some other) =>
        Option.some.inj isLine ▸ inRead.numbered.live inReadLine.live
    refine ⟨numbered, owned.trans ?_⟩
    constructor
    · rintro ⟨null, _⟩
      exact ⟨fun nonNull => absurd null nonNull, fun _ _ passes => absurd fails passes⟩
    · rintro ⟨kept, _⟩
      refine ⟨by_contra fun nonNull => (kept nonNull).1 fails, fun _ other isLine => ?_⟩
      cases isLine
      exact inReadLine.live.2
  · obtain ⟨numbered, owned⟩ := finishConvert_owned inRead inReadLine outcome
    refine ⟨numbered, owned.trans ?_⟩
    constructor
    · intro finish
      exact ⟨fun nonNull => ⟨passes, eq_false_of_ne_true fun fails => nonNull (finish fails).1⟩,
        fun _ _ _ fails => (finish fails).2⟩
    · rintro ⟨kept, last⟩ fails
      have null : read.aucPixelDatas = none := by
        by_contra nonNull
        exact absurd ((kept nonNull).2.symm.trans fails) nofun
      exact ⟨null, last null (stored null) passes fails⟩
  · refine ⟨inRead.numbered, iff_of_true ⟨inRead.pointer, inRead.sound, nofun⟩ ?_⟩
    exact ⟨fun nonNull => absurd null nonNull, fun _ none => absurd ⟨some, stores⟩ none⟩

theorem inCall_created {state : Converter} (owned : Owned state) (numbered : Numbered state)
    (running : state.crashed = false) :
    InCall
      { state with
        fresh := state.fresh + 1
        ledger := state.ledger ++ [.acquire (.decompressor state.fresh)] } state.fresh where
  pointer := fun number isPointer => (owned.pointer number isPointer).append (by simp)
  sound := owned.sound.append_acquire _
  numbered := numbered.acquire rfl
  decompressor := live_acquired fun released => Nat.lt_irrefl _ (numbered _ released)
  others := fun number other => destroyed_append (by simpa using other)
    (owned.decompressors running number)
  running := running

theorem convert_owned {state : Converter} (owned : Owned state) (numbered : Numbered state)
    (running : state.crashed = false) (iBpp : Nat) (outcome : Outcome) :
    Numbered (mjpeg2RgbConvert iBpp outcome state).1 ∧
      (Owned (mjpeg2RgbConvert iBpp outcome state).1 ↔
        ConvertsSafely iBpp outcome state.aucPixelDatas) := by
  have created := inCall_created owned numbered running
  have after := created.jpegCalls outcome earlyCalls
  obtain ⟨⟨items, _, same⟩, jumps⟩ := jpegCalls_spec outcome state.fresh earlyCalls
    { state with
      fresh := state.fresh + 1
      ledger := state.ledger ++ [.acquire (.decompressor state.fresh)] }
  change _ ↔ FailsEarly outcome at jumps
  unfold mjpeg2RgbConvert
  dsimp only
  generalize jpegCalls outcome state.fresh earlyCalls _ = result at *
  obtain ⟨reached, jumped⟩ := result
  dsimp only at same jumps after
  have pointer : reached.aucPixelDatas = state.aucPixelDatas := by
    rw [same]
    rfl
  cases jumped with
  | true =>
      have early := jumps.mp rfl
      obtain ⟨branchNumbered, branch⟩ := errorBranch_owned after outcome
        fun line (isLine : none = some line) => nomatch isLine
      refine ⟨branchNumbered, branch.trans ?_⟩
      rw [pointer]
      constructor
      · rintro ⟨null, _⟩
        exact ⟨fun _ => null, fun late => absurd early late, fun late => absurd early late,
          fun late => absurd early late⟩
      · exact fun safely => ⟨safely.early early, fun _ line isLine => nomatch isLine⟩
  | false =>
      have late : ¬FailsEarly outcome := fun early => nomatch jumps.mpr early
      cases allocates : outcome.lineBuffer with
      | false =>
          refine ⟨after.numbered, iff_of_false (fun leaked => ?_) fun safely => ?_⟩
          · exact after.decompressor.2 (leaked.decompressors after.running _ after.decompressor.1)
          · exact absurd ((safely.lineBuffer late).symm.trans allocates) nofun
      | true =>
          obtain ⟨linesNumbered, lines⟩ :=
            convertLines_owned after.allocated after.lineBuffer iBpp outcome
          refine ⟨linesNumbered, lines.trans ?_⟩
          change (reached.aucPixelDatas ≠ none ∨ _ → _) ∧ (reached.aucPixelDatas = none → _) ↔ _
          rw [pointer]
          constructor
          · rintro ⟨kept, last⟩
            exact ⟨fun early => absurd early late, fun _ => allocates, fun _ => kept,
              fun _ => last⟩
          · exact fun safely => ⟨safely.late late, safely.finish late⟩

theorem convertExit_owned {state : Converter} (owned : Owned state) (numbered : Numbered state) :
    Numbered (mjpeg2RgbConvertExit state).1 ∧ Owned (mjpeg2RgbConvertExit state).1 := by
  unfold mjpeg2RgbConvertExit
  split
  · exact ⟨numbered, owned⟩
  · rename_i number isPointer
    have live := owned.pointer number isPointer
    refine ⟨numbered.release live, nofun, (sound_append_release _).mpr ⟨owned.sound, live.2⟩, ?_⟩
    exact fun running other => destroyed_append (by simp) (owned.decompressors running other)

/-! ### Sequences of calls -/

theorem step_owned {state : Converter} (owned : Owned state) (numbered : Numbered state)
    (iBpp : Nat) (action : Action) :
    Numbered (step iBpp state action) ∧
      (Owned (step iBpp state action) ↔ StepSafe iBpp state action) := by
  unfold step
  by_cases crashed : state.crashed = true
  · rw [if_pos crashed]
    refine ⟨numbered, iff_of_true owned ?_⟩
    cases action with
    | convert outcome => exact Or.inl crashed
    | convertExit => trivial
  · rw [if_neg crashed]
    cases action with
    | convert outcome =>
        obtain ⟨after, converted⟩ :=
          convert_owned owned numbered (eq_false_of_ne_true crashed) iBpp outcome
        exact ⟨after, converted.trans (or_iff_right crashed).symm⟩
    | convertExit =>
        obtain ⟨after, exited⟩ := convertExit_owned owned numbered
        exact ⟨after, iff_of_true exited trivial⟩

theorem alwaysOwned_from {state : Converter} (owned : Owned state) (numbered : Numbered state)
    (iBpp : Nat) (actions : List Action) :
    AlwaysOwned iBpp state actions ↔ StepsSafe iBpp state actions := by
  induction actions generalizing state with
  | nil => exact iff_of_true owned trivial
  | cons action rest ih =>
      obtain ⟨after, preserved⟩ := step_owned owned numbered iBpp action
      rw [AlwaysOwned, StepsSafe, and_iff_right owned]
      constructor
      · intro always
        have next : Owned (step iBpp state action) := by
          cases rest with
          | nil => exact always
          | cons => exact always.1
        exact ⟨preserved.mp next, (ih next after).mp always⟩
      · rintro ⟨safe, later⟩
        exact (ih (preserved.mpr safe) after).mpr later

theorem initial_owned : Owned initial :=
  ⟨nofun, sound_nil, fun _ _ acquired => nomatch acquired⟩

/-- The buffers stay owned in exactly the sequences of calls whose steps are all safe. -/
theorem conversions_owned_iff (iBpp : Nat) (actions : List Action) :
    AlwaysOwned iBpp initial actions ↔ StepsSafe iBpp initial actions :=
  alwaysOwned_from initial_owned (fun _ member => nomatch member) iBpp actions

/-- A conversion of one line without an error, but for the given calls. -/
def oneLine (fails : JpegCall → Bool) : Outcome where
  fails := fails
  lineBuffer := true
  pixelDatas := true
  outputWidth := 1
  outputHeight := 1
  latest := true

/-- A frame with a broken header behind a good one: the pixels are freed and the
pointer stays, so that the exit frees them again. -/
theorem broken_frame_freed_twice :
    let actions := [.convert (oneLine fun _ => false),
      .convert (oneLine fun call => decide (call = .readHeader)), .convertExit]
    ¬AlwaysOwned 32 initial actions ∧
      releases ((actions.foldl (step 32) initial).ledger) (.allocation 2) = 2 := by
  refine ⟨?_, by decide⟩
  rintro ⟨_, _, broken, _⟩
  have live := broken.pointer 2 rfl
  exact live.2 (by decide)

end BuildLinux.Concrete.MjpegConverter
