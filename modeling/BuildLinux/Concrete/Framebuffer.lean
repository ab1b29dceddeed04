/-
The static members of CFramebuffer in driver/drm/testcamera/Framebuffer.cxx.

Eleven pointers lead into the mapped frames of the device or to blocks of the
heap; which of them are freed is told by the number of frames.  Every call of
the system and every malloc may fail.
-/

import BuildLinux.CStrings
import BuildLinux.TransitionSystem
import Mathlib.Data.List.Nodup
import Mathlib.Logic.Function.Basic

namespace BuildLinux.Concrete.Framebuffer

open CStrings TransitionSystem

/-- A null pointer, a frame of one of the mappings made so far, a block of the heap. -/
inductive Pointer where
  | null
  | frame (mapping index : Nat)
  | block (id : Nat)
  deriving DecidableEq, Repr

/-- What the device tells about itself; the pixels of a frame are at least one. -/
structure ScreenInfo where
  xres : Nat
  yres : Nat
  bits_per_pixel : Nat
  smem_len : Nat
  sized : 0 < xres * ((bits_per_pixel + 7) / 8) * yres

def ScreenInfo.memSize (info : ScreenInfo) : Nat :=
  info.xres * ((info.bits_per_pixel + 7) / 8) * info.yres

theorem ScreenInfo.width_pos (info : ScreenInfo) : 0 < info.xres :=
  Nat.pos_of_mul_pos_right (Nat.pos_of_mul_pos_right info.sized)

theorem ScreenInfo.height_pos (info : ScreenInfo) : 0 < info.yres :=
  Nat.pos_of_mul_pos_left info.sized

/-- The static members, the mappings and blocks made so far, every pointer that
was passed to free, and the frame that the display scans out. -/
structure CFramebuffer where
  m_nInstance : Int
  m_fd : Bool
  m_pMem : Option Nat
  m_pVirtualMem : Fin 11 → Pointer
  m_nMemSize : Nat
  smem_len : Nat
  m_nPhysicalMemNum : Nat
  m_nDispMemNo : Nat
  mappings : Nat
  allocated : Nat
  freed : List Pointer
  shown : Nat

/-- The true display buffer. -/
def CFramebuffer.displayBuffer (fb : CFramebuffer) : Pointer := fb.m_pVirtualMem 0

def untouched : CFramebuffer where
  m_nInstance := 0
  m_fd := false
  m_pMem := none
  m_pVirtualMem _ := .null
  m_nMemSize := 0
  smem_len := 0
  m_nPhysicalMemNum := 0
  m_nDispMemNo := 0
  mappings := 0
  allocated := 0
  freed := []
  shown := 0

/-! ### ExtendVirtualMem -/

/-- Which calls of malloc succeed, by the pointer they are for. -/
abbrev Mallocs := Fin 11 → Bool

def allocate (i : Fin 11) (fb : CFramebuffer) : CFramebuffer :=
  { fb with
    m_pVirtualMem := Function.update fb.m_pVirtualMem i (.block fb.allocated)
    allocated := fb.allocated + 1 }

def extendLoop (mallocs : Mallocs) : List (Fin 11) → CFramebuffer → CFramebuffer
  | [], fb => fb
  | i :: later, fb =>
      if fb.m_pVirtualMem i = .null then
        if mallocs i then extendLoop mallocs later (allocate i fb) else fb
      else extendLoop mallocs later fb

def extendVirtualMem (nVirtualMemNum : Int) (mallocs : Mallocs) (fb : CFramebuffer) :
    CFramebuffer :=
  if fb.m_fd = false then fb
  else extendLoop mallocs ((List.finRange 11).take (min nVirtualMemNum 10).toNat) fb

/-! ### Open and Close -/

/-- The answers to one call of `Open`. -/
structure OpenAnswers where
  opens : CString → Bool
  fscreeninfo : Bool
  vscreeninfo : Bool
  info : ScreenInfo
  mmap : Bool
  pan : Nat → Bool
  mallocs : Mallocs

def openDevice (opens : CString → Bool) (pDevName : CString) : Bool :=
  if opens pDevName then true
  else if pDevName = "/dev/fb0".toList then false
  else if opens "/dev/fb0".toList then true
  else if pDevName = "/dev/fb/0".toList then false
  else opens "/dev/fb/0".toList

/-- The probing of the frames from `i` on; ends at the first that fails. -/
def panLoop (pan : Nat → Bool) : Nat → Nat → CFramebuffer → CFramebuffer × Nat
  | 0, i, fb => (fb, i)
  | left + 1, i, fb =>
      if pan i then panLoop pan left (i + 1) { fb with m_nDispMemNo := i, shown := i }
      else (fb, i)

def mapDevice (pan : Nat → Bool) (fb : CFramebuffer) : CFramebuffer :=
  let probed := panLoop pan fb.m_nPhysicalMemNum 0
    { fb with m_pMem := some fb.mappings, mappings := fb.mappings + 1, m_nDispMemNo := 0 }
  { probed.1 with m_nPhysicalMemNum := if probed.2 = 0 then 1 else probed.2 }

/-- The display buffers; the number of frames is clipped to ten. -/
def setBuffers (mapping : Nat) (fb : CFramebuffer) : CFramebuffer :=
  { fb with
    m_fd := true
    m_nPhysicalMemNum := min fb.m_nPhysicalMemNum 10
    m_pVirtualMem := fun i : Fin 11 =>
      if i = 0 ∨ i < min fb.m_nPhysicalMemNum 10 then .frame mapping i else fb.m_pVirtualMem i }

/-- The reserved display buffer. -/
def reserve (mallocs : Mallocs) (fb : CFramebuffer) : CFramebuffer :=
  if fb.m_pVirtualMem 10 = .null then if mallocs 10 then allocate 10 fb else fb else fb

/-- The part of `Open` at the first instance, and whether there was no error. -/
def openFirst (pDevName : CString) (answers : OpenAnswers) (fb : CFramebuffer) :
    CFramebuffer × Bool :=
  let cleared := { fb with m_nPhysicalMemNum := 0 }
  if openDevice answers.opens pDevName = false then (cleared, false)
  else if answers.fscreeninfo = false then (cleared, false)
  else
    let fixed := { cleared with smem_len := answers.info.smem_len }
    if answers.vscreeninfo = false then (fixed, false)
    else
      let sized :=
        { fixed with
          m_nMemSize := answers.info.memSize
          m_nPhysicalMemNum := answers.info.smem_len / answers.info.memSize }
      if answers.mmap = false then ({ sized with m_pMem := none, m_nPhysicalMemNum := 0 }, false)
      else
        (reserve answers.mallocs (setBuffers sized.mappings (mapDevice answers.pan sized)), true)

/-- `Open`, and whether it returns 0. -/
def openBuffer (pDevName : Option CString) (answers : OpenAnswers) (fb : CFramebuffer) :
    CFramebuffer × Bool :=
  let counted := { fb with m_nInstance := fb.m_nInstance + 1 }
  if fb.m_nInstance = 0 then
    match openFirst (pDevName.getD "/dev/fb".toList) answers counted with
    | (failed, false) => (failed, false)
    | (opened, true) => (extendVirtualMem 3 answers.mallocs opened, true)
  else (extendVirtualMem 3 answers.mallocs counted, true)

/-- The pointers behind the frames, in the order in which `Close` frees them. -/
def toFree (fb : CFramebuffer) : List Pointer :=
  ((List.finRange 11).filter fun i : Fin 11 =>
    decide (i ≠ 0 ∧ fb.m_nPhysicalMemNum ≤ i ∧ fb.m_pVirtualMem i ≠ .null)).map fb.m_pVirtualMem

def closeLast (fb : CFramebuffer) : CFramebuffer :=
  { fb with
    m_pMem := none
    freed := fb.freed ++ toFree fb
    m_pVirtualMem := fun i => if i = 0 then fb.m_pVirtualMem 0 else .null
    m_fd := false }

def close (fb : CFramebuffer) : CFramebuffer :=
  let counted := { fb with m_nInstance := fb.m_nInstance - 1 }
  if counted.m_nInstance = 0 then closeLast counted else counted

/-! ### The pointers -/

/-- What the pointers lead to: frames in front, blocks or nothing behind them,
and every block in one place or freed once. -/
structure Sound (fb : CFramebuffer) : Prop where
  blocks : ∀ i b, fb.m_pVirtualMem i = .block b →
    i ≠ 0 ∧ fb.m_nPhysicalMemNum ≤ i ∧ b < fb.allocated ∧ .block b ∉ fb.freed
  distinct : ∀ i j b, fb.m_pVirtualMem i = .block b → fb.m_pVirtualMem j = .block b → i = j
  kept : ∀ b < fb.allocated, .block b ∈ fb.freed ∨ ∃ i, fb.m_pVirtualMem i = .block b
  released : ∀ pointer ∈ fb.freed, ∃ b < fb.allocated, pointer = .block b
  once : fb.freed.Nodup
  frames : ∀ i k j, fb.m_pVirtualMem i = .frame k j → i = 0 ∨ i < fb.m_nPhysicalMemNum
  mapped : fb.m_fd = true → ∃ k, fb.m_pMem = some k ∧
    ∀ i : Fin 11, i = 0 ∨ i < fb.m_nPhysicalMemNum → fb.m_pVirtualMem i = .frame k i
  closed : fb.m_fd = false → ∀ i, i ≠ 0 → fb.m_pVirtualMem i = .null
  counted : fb.m_fd = true → 0 < fb.m_nInstance

theorem untouched_sound : Sound untouched where
  blocks := nofun
  distinct := nofun
  kept := nofun
  released := nofun
  once := List.nodup_nil
  frames := nofun
  mapped := nofun
  closed _ _ _ := rfl
  counted := nofun

variable {fb : CFramebuffer}

theorem Sound.closed_blocks (sound : Sound fb) (closed : fb.m_fd = false) :
    ∀ i b, fb.m_pVirtualMem i ≠ .block b := by
  intro i b here
  have notFirst := (sound.blocks i b here).1
  rw [sound.closed closed i notFirst] at here
  cases here

/-- A closed framebuffer has freed every block. -/
theorem Sound.all_freed (sound : Sound fb) (closed : fb.m_fd = false) :
    ∀ b < fb.allocated, .block b ∈ fb.freed := by
  intro b old
  rcases sound.kept b old with freed | ⟨i, here⟩
  · exact freed
  · exact absurd here (sound.closed_blocks closed i b)

theorem allocate_here (i : Fin 11) (fb : CFramebuffer) :
    (allocate i fb).m_pVirtualMem i = .block fb.allocated := Function.update_self _ _ _

theorem allocate_others {i j : Fin 11} (other : j ≠ i) (fb : CFramebuffer) :
    (allocate i fb).m_pVirtualMem j = fb.m_pVirtualMem j := Function.update_of_ne other _ _

theorem allocate_sound (sound : Sound fb) (opened : fb.m_fd = true) {i : Fin 11}
    (free : fb.m_pVirtualMem i = .null) : Sound (allocate i fb) := by
  have behind : i ≠ 0 ∧ fb.m_nPhysicalMemNum ≤ i := by
    obtain ⟨k, _, front⟩ := sound.mapped opened
    by_contra inFront
    rw [not_and_or, not_not, Nat.not_le] at inFront
    have taken := front i inFront
    rw [free] at taken
    cases taken
  have fresh : .block fb.allocated ∉ fb.freed := by
    intro freed
    obtain ⟨b, old, same⟩ := sound.released _ freed
    cases same
    exact Nat.lt_irrefl _ old
  have others {j : Fin 11} (other : j ≠ i) := allocate_others other fb
  have here := allocate_here i fb
  constructor
  · intro j b held
    by_cases same : j = i
    · rw [same, here] at held
      cases held
      rw [same]
      exact ⟨behind.1, behind.2, Nat.lt_succ_self _, fresh⟩
    · rw [others same] at held
      obtain ⟨notFirst, late, old, unfreed⟩ := sound.blocks j b held
      exact ⟨notFirst, late, Nat.lt_succ_of_lt old, unfreed⟩
  · intro j l b first second
    by_cases same : j = i
    · by_cases same' : l = i
      · rw [same, same']
      · rw [same, here] at first
        cases first
        rw [others same'] at second
        exact absurd (sound.blocks l _ second).2.2.1 (Nat.lt_irrefl _)
    · rw [others same] at first
      by_cases same' : l = i
      · rw [same', here] at second
        cases second
        exact absurd (sound.blocks j _ first).2.2.1 (Nat.lt_irrefl _)
      · rw [others same'] at second
        exact sound.distinct j l b first second
  · intro b old
    rcases Nat.lt_succ_iff_lt_or_eq.mp old with old | rfl
    · rcases sound.kept b old with freed | ⟨j, held⟩
      · exact Or.inl freed
      · have other : j ≠ i := by
          rintro rfl
          rw [free] at held
          cases held
        exact Or.inr ⟨j, (others other).trans held⟩
    · exact Or.inr ⟨i, here⟩
  · intro pointer freed
    obtain ⟨b, old, same⟩ := sound.released pointer freed
    exact ⟨b, Nat.lt_succ_of_lt old, same⟩
  · exact sound.once
  · intro j k index held
    by_cases same : j = i
    · rw [same, here] at held
      cases held
    · rw [others same] at held
      exact sound.frames j k index held
  · intro _
    obtain ⟨k, isMapped, front⟩ := sound.mapped opened
    refine ⟨k, isMapped, fun j inFront => ?_⟩
    have other : j ≠ i := by
      rintro rfl
      rcases inFront with first | early
      · exact behind.1 first
      · exact absurd early (Nat.not_lt.mpr behind.2)
    rw [others other]
    exact front j inFront
  · intro closed
    rw [show (allocate i fb).m_fd = fb.m_fd from rfl, opened] at closed
    cases closed
  · exact fun _ => sound.counted opened

/-- The allocations only set pointers. -/
theorem extendLoop_members (mallocs : Mallocs) (indices : List (Fin 11)) (fb : CFramebuffer) :
    ∃ pointers count, extendLoop mallocs indices fb =
      { fb with m_pVirtualMem := pointers, allocated := count } := by
  induction indices generalizing fb with
  | nil => exact ⟨fb.m_pVirtualMem, fb.allocated, rfl⟩
  | cons i later ih =>
      unfold extendLoop
      split
      · split
        · exact ih (allocate i fb)
        · exact ⟨fb.m_pVirtualMem, fb.allocated, rfl⟩
      · exact ih fb

theorem extendVirtualMem_members (nVirtualMemNum : Int) (mallocs : Mallocs) (fb : CFramebuffer) :
    ∃ pointers count, extendVirtualMem nVirtualMemNum mallocs fb =
      { fb with m_pVirtualMem := pointers, allocated := count } := by
  unfold extendVirtualMem
  split
  · exact ⟨fb.m_pVirtualMem, fb.allocated, rfl⟩
  · exact extendLoop_members mallocs _ fb

theorem extendLoop_keeps (mallocs : Mallocs) (indices : List (Fin 11)) {fb : CFramebuffer}
    {i : Fin 11} (present : fb.m_pVirtualMem i ≠ .null) :
    (extendLoop mallocs indices fb).m_pVirtualMem i = fb.m_pVirtualMem i := by
  induction indices generalizing fb with
  | nil => rfl
  | cons j later ih =>
      unfold extendLoop
      split
      · next free =>
          have other : i ≠ j := by
            rintro rfl
            exact present free
          have still := allocate_others other fb
          split
          · rw [ih (by rw [still]; exact present), still]
          · rfl
      · exact ih present

/-- All requested buffers are there afterwards if malloc succeeds for the missing ones. -/
theorem extendLoop_present (mallocs : Mallocs) (indices : List (Fin 11)) (fb : CFramebuffer) :
    (∀ i ∈ indices, (extendLoop mallocs indices fb).m_pVirtualMem i ≠ .null) ↔
      ∀ i ∈ indices, fb.m_pVirtualMem i ≠ .null ∨ mallocs i = true := by
  induction indices generalizing fb with
  | nil => exact ⟨nofun, nofun⟩
  | cons i later ih =>
      rw [List.forall_mem_cons, List.forall_mem_cons]
      unfold extendLoop
      by_cases free : fb.m_pVirtualMem i = .null
      · rw [if_pos free]
        cases works : mallocs i with
        | true =>
            have fresh : (allocate i fb).m_pVirtualMem i ≠ .null := by
              rw [allocate_here]
              nofun
            have others : ∀ j : Fin 11,
                ((allocate i fb).m_pVirtualMem j ≠ .null ∨ mallocs j = true) ↔
                (fb.m_pVirtualMem j ≠ .null ∨ mallocs j = true) := by
              intro j
              by_cases same : j = i
              · rw [same, works]
                simp only [or_true]
              · rw [allocate_others same]
            rw [if_pos rfl, ih, extendLoop_keeps mallocs later fresh]
            simp only [others, fresh, ne_eq, not_false_eq_true, true_and, or_true]
        | false =>
            rw [if_neg Bool.false_ne_true]
            constructor
            · exact fun present => absurd free present.1
            · rintro ⟨missing | works, _⟩
              · exact absurd free missing
              · cases works
      · rw [if_neg free, ih, extendLoop_keeps mallocs later free]
        simp only [free, ne_eq, not_false_eq_true, true_and, true_or]

theorem extendVirtualMem_fd (nVirtualMemNum : Int) (mallocs : Mallocs) (fb : CFramebuffer) :
    (extendVirtualMem nVirtualMemNum mallocs fb).m_fd = fb.m_fd := by
  obtain ⟨pointers, count, extended⟩ := extendVirtualMem_members nVirtualMemNum mallocs fb
  rw [extended]

theorem extendVirtualMem_closed (nVirtualMemNum : Int) (mallocs : Mallocs)
    (closed : fb.m_fd = false) : extendVirtualMem nVirtualMemNum mallocs fb = fb :=
  if_pos closed

theorem reserve_members (mallocs : Mallocs) (fb : CFramebuffer) :
    ∃ pointers count, reserve mallocs fb =
      { fb with m_pVirtualMem := pointers, allocated := count } := by
  unfold reserve
  split
  · split
    · exact ⟨_, _, rfl⟩
    · exact ⟨fb.m_pVirtualMem, fb.allocated, rfl⟩
  · exact ⟨fb.m_pVirtualMem, fb.allocated, rfl⟩

theorem reserve_sound (mallocs : Mallocs) (sound : Sound fb) (opened : fb.m_fd = true) :
    Sound (reserve mallocs fb) := by
  unfold reserve
  split
  · next free =>
      split
      · exact allocate_sound sound opened free
      · exact sound
  · exact sound

theorem extendLoop_sound (mallocs : Mallocs) (indices : List (Fin 11)) (sound : Sound fb)
    (opened : fb.m_fd = true) : Sound (extendLoop mallocs indices fb) := by
  induction indices generalizing fb with
  | nil => exact sound
  | cons i later ih =>
      unfold extendLoop
      split
      · next free =>
          split
          · exact ih (allocate_sound sound opened free) opened
          · exact sound
      · exact ih sound opened

theorem extendVirtualMem_sound (nVirtualMemNum : Int) (mallocs : Mallocs) (sound : Sound fb) :
    Sound (extendVirtualMem nVirtualMemNum mallocs fb) := by
  unfold extendVirtualMem
  split
  · exact sound
  · next opened => exact extendLoop_sound mallocs _ sound (by simpa using opened)

/-- While the framebuffer is closed, only the pointers and the heap matter. -/
theorem closed_sound {after : CFramebuffer} (sound : Sound fb) (closed : fb.m_fd = false)
    (still : after.m_fd = false) (pointers : after.m_pVirtualMem = fb.m_pVirtualMem)
    (allocated : after.allocated = fb.allocated) (freed : after.freed = fb.freed) :
    Sound after := by
  have noBlocks := sound.closed_blocks closed
  rw [← pointers] at noBlocks
  constructor
  · intro i b here
    exact absurd here (noBlocks i b)
  · intro i j b here
    exact absurd here (noBlocks i b)
  · intro b old
    rw [allocated] at old
    rw [freed]
    exact Or.inl (sound.all_freed closed b old)
  · rw [freed, allocated]
    exact sound.released
  · rw [freed]
    exact sound.once
  · intro i k j here
    by_contra neither
    rw [pointers, sound.closed closed i fun first => neither (Or.inl first)] at here
    cases here
  · intro opened
    rw [still] at opened
    cases opened
  · intro _
    rw [pointers]
    exact sound.closed closed
  · intro opened
    rw [still] at opened
    cases opened

theorem setBuffers_sound {k : Nat} (sound : Sound fb) (closed : fb.m_fd = false)
    (isMapped : fb.m_pMem = some k) (instances : 0 < fb.m_nInstance) :
    Sound (setBuffers k fb) := by
  have front {i : Fin 11} (inFront : i = 0 ∨ i < (setBuffers k fb).m_nPhysicalMemNum) :
      (setBuffers k fb).m_pVirtualMem i = .frame k i := if_pos inFront
  have behind {i : Fin 11} (isBehind : ¬(i = 0 ∨ i < (setBuffers k fb).m_nPhysicalMemNum)) :
      (setBuffers k fb).m_pVirtualMem i = .null :=
    (if_neg isBehind).trans (sound.closed closed i fun first => isBehind (Or.inl first))
  have noBlocks (i : Fin 11) (b : Nat) : (setBuffers k fb).m_pVirtualMem i ≠ .block b := by
    by_cases inFront : i = 0 ∨ i < (setBuffers k fb).m_nPhysicalMemNum
    · rw [front inFront]
      nofun
    · rw [behind inFront]
      nofun
  constructor
  · intro i b here
    exact absurd here (noBlocks i b)
  · intro i j b here
    exact absurd here (noBlocks i b)
  · exact fun b old => Or.inl (sound.all_freed closed b old)
  · exact sound.released
  · exact sound.once
  · intro i l j here
    by_contra isBehind
    rw [behind isBehind] at here
    cases here
  · exact fun _ => ⟨k, isMapped, fun i inFront => front inFront⟩
  · nofun
  · exact fun _ => instances

/-- The probing only moves the display. -/
theorem panLoop_members (pan : Nat → Bool) (left i : Nat) (fb : CFramebuffer) :
    ∃ disp shown, (panLoop pan left i fb).1 = { fb with m_nDispMemNo := disp, shown := shown } := by
  induction left generalizing i fb with
  | zero => exact ⟨fb.m_nDispMemNo, fb.shown, rfl⟩
  | succ left ih =>
      unfold panLoop
      split
      · exact ih (i + 1) _
      · exact ⟨fb.m_nDispMemNo, fb.shown, rfl⟩

theorem mapDevice_members (pan : Nat → Bool) (fb : CFramebuffer) :
    ∃ disp shown num, mapDevice pan fb =
      { fb with
        m_pMem := some fb.mappings
        mappings := fb.mappings + 1
        m_nDispMemNo := disp
        shown := shown
        m_nPhysicalMemNum := num } := by
  obtain ⟨disp, shown, probed⟩ := panLoop_members pan fb.m_nPhysicalMemNum 0
    { fb with m_pMem := some fb.mappings, mappings := fb.mappings + 1, m_nDispMemNo := 0 }
  unfold mapDevice
  dsimp only
  rw [probed]
  exact ⟨disp, shown, _, rfl⟩

/-- Every call that `Open` cannot do without succeeds. -/
def OpenAnswers.works (answers : OpenAnswers) (pDevName : CString) : Bool :=
  openDevice answers.opens pDevName && answers.fscreeninfo && answers.vscreeninfo && answers.mmap

/-- The members before the frames are probed. -/
def measured (info : ScreenInfo) (fb : CFramebuffer) : CFramebuffer :=
  { fb with
    smem_len := info.smem_len
    m_nMemSize := info.memSize
    m_nPhysicalMemNum := info.smem_len / info.memSize }

theorem openFirst_works {pDevName : CString} {answers : OpenAnswers}
    (works : answers.works pDevName = true) (fb : CFramebuffer) :
    openFirst pDevName answers fb =
      (reserve answers.mallocs
        (setBuffers fb.mappings (mapDevice answers.pan (measured answers.info fb))), true) := by
  unfold OpenAnswers.works at works
  simp only [Bool.and_eq_true] at works
  obtain ⟨⟨⟨opens, fixed⟩, changing⟩, mapped⟩ := works
  unfold openFirst
  simp [opens, fixed, changing, mapped, measured]

/-- An error leaves the pointers and the heap as they are. -/
theorem openFirst_fails {pDevName : CString} {answers : OpenAnswers}
    (fails : answers.works pDevName = false) (fb : CFramebuffer) :
    ∃ members num size smem_len,
      openFirst pDevName answers fb =
        ({ fb with
            m_pMem := members
            m_nPhysicalMemNum := num
            m_nMemSize := size
            smem_len := smem_len }, false) := by
  unfold OpenAnswers.works at fails
  unfold openFirst
  dsimp only
  by_cases opens : openDevice answers.opens pDevName = false
  · exact ⟨fb.m_pMem, 0, fb.m_nMemSize, fb.smem_len, if_pos opens⟩
  · rw [if_neg opens]
    by_cases fixed : answers.fscreeninfo = false
    · exact ⟨fb.m_pMem, 0, fb.m_nMemSize, fb.smem_len, if_pos fixed⟩
    · rw [if_neg fixed]
      by_cases changing : answers.vscreeninfo = false
      · exact ⟨fb.m_pMem, 0, fb.m_nMemSize, answers.info.smem_len, if_pos changing⟩
      · rw [if_neg changing]
        by_cases maps : answers.mmap = false
        · exact ⟨none, 0, answers.info.memSize, answers.info.smem_len, if_pos maps⟩
        · rw [Bool.not_eq_false] at opens fixed changing maps
          rw [opens, fixed, changing, maps] at fails
          cases fails

theorem openBuffer_more (pDevName : Option CString) (answers : OpenAnswers)
    (more : fb.m_nInstance ≠ 0) :
    openBuffer pDevName answers fb =
      (extendVirtualMem 3 answers.mallocs { fb with m_nInstance := fb.m_nInstance + 1 }, true) :=
  if_neg more

/-- An opened device is that of the mapped and probed frames, with other pointers. -/
theorem openBuffer_works {pDevName : Option CString} {answers : OpenAnswers}
    (first : fb.m_nInstance = 0)
    (works : answers.works (pDevName.getD "/dev/fb".toList) = true) :
    ∃ pointers count, openBuffer pDevName answers fb =
      ({ setBuffers fb.mappings (mapDevice answers.pan (measured answers.info
            { fb with m_nInstance := fb.m_nInstance + 1 })) with
          m_pVirtualMem := pointers, allocated := count }, true) := by
  unfold openBuffer
  dsimp only
  rw [if_pos first, openFirst_works works]
  dsimp only
  obtain ⟨early, few, reserved⟩ := reserve_members answers.mallocs (setBuffers fb.mappings
    (mapDevice answers.pan (measured answers.info { fb with m_nInstance := fb.m_nInstance + 1 })))
  rw [reserved]
  obtain ⟨pointers, count, extended⟩ := extendVirtualMem_members 3 answers.mallocs
    { setBuffers fb.mappings (mapDevice answers.pan (measured answers.info
        { fb with m_nInstance := fb.m_nInstance + 1 })) with
      m_pVirtualMem := early, allocated := few }
  rw [extended]
  exact ⟨pointers, count, rfl⟩

theorem openBuffer_fails {pDevName : Option CString} {answers : OpenAnswers}
    (first : fb.m_nInstance = 0)
    (fails : answers.works (pDevName.getD "/dev/fb".toList) = false) :
    ∃ members num size smem_len, openBuffer pDevName answers fb =
      ({ fb with
          m_nInstance := fb.m_nInstance + 1
          m_pMem := members
          m_nPhysicalMemNum := num
          m_nMemSize := size
          smem_len := smem_len }, false) := by
  obtain ⟨members, num, size, smem_len, result⟩ :=
    openFirst_fails fails { fb with m_nInstance := fb.m_nInstance + 1 }
  unfold openBuffer
  dsimp only
  rw [if_pos first, result]
  exact ⟨members, num, size, smem_len, rfl⟩

theorem recount_sound {instances : Int} (sound : Sound fb)
    (counted : fb.m_fd = true → 0 < instances) :
    Sound { fb with m_nInstance := instances } :=
  ⟨sound.blocks, sound.distinct, sound.kept, sound.released, sound.once, sound.frames,
    sound.mapped, sound.closed, counted⟩

theorem Sound.uncounted (sound : Sound fb) (none : fb.m_nInstance ≤ 0) : fb.m_fd = false := by
  by_contra opened
  rw [Bool.not_eq_false] at opened
  have positive := sound.counted opened
  omega

theorem openFirst_sound (pDevName : CString) (answers : OpenAnswers) (sound : Sound fb)
    (closed : fb.m_fd = false) (instances : 0 < fb.m_nInstance) :
    Sound (openFirst pDevName answers fb).1 := by
  cases works : answers.works pDevName with
  | true =>
      obtain ⟨disp, shown, num, members⟩ :=
        mapDevice_members answers.pan (measured answers.info fb)
      rw [openFirst_works works, members]
      apply reserve_sound
      · apply setBuffers_sound
        · exact closed_sound sound closed closed rfl rfl rfl
        · exact closed
        · rfl
        · exact instances
      · rfl
  | false =>
      obtain ⟨members, num, size, smem_len, result⟩ := openFirst_fails works fb
      rw [result]
      exact closed_sound sound closed closed rfl rfl rfl

theorem openBuffer_sound (pDevName : Option CString) (answers : OpenAnswers) (sound : Sound fb) :
    Sound (openBuffer pDevName answers fb).1 := by
  unfold openBuffer
  dsimp only
  split
  · next first =>
      have closed := sound.uncounted (Int.le_of_eq first)
      have counted : Sound { fb with m_nInstance := fb.m_nInstance + 1 } :=
        recount_sound sound fun opened => by
          rw [closed] at opened
          cases opened
      have instances : 0 < fb.m_nInstance + 1 := by omega
      have result := openFirst_sound (pDevName.getD "/dev/fb".toList) answers counted closed
        instances
      split
      · next failed =>
          rw [failed] at result
          exact result
      · next opened =>
          rw [opened] at result
          exact extendVirtualMem_sound 3 answers.mallocs result
  · apply extendVirtualMem_sound
    apply recount_sound sound
    intro opened
    have positive := sound.counted opened
    omega

theorem mem_toFree {pointer : Pointer} : pointer ∈ toFree fb ↔
    ∃ i : Fin 11, (i ≠ 0 ∧ fb.m_nPhysicalMemNum ≤ i ∧ fb.m_pVirtualMem i ≠ .null) ∧
      fb.m_pVirtualMem i = pointer := by
  unfold toFree
  simp [List.mem_map, List.mem_filter]

/-- What `Close` frees are blocks that were not freed before. -/
theorem toFree_blocks (sound : Sound fb) {pointer : Pointer} (member : pointer ∈ toFree fb) :
    ∃ b < fb.allocated, pointer = .block b ∧ pointer ∉ fb.freed := by
  obtain ⟨i, ⟨notFirst, late, present⟩, here⟩ := mem_toFree.mp member
  cases pointer with
  | null => exact absurd here present
  | frame k j =>
      rcases sound.frames i k j here with first | early
      · exact absurd first notFirst
      · exact absurd late (Nat.not_le.mpr early)
  | block b =>
      obtain ⟨_, _, old, unfreed⟩ := sound.blocks i b here
      exact ⟨b, old, rfl, unfreed⟩

theorem toFree_nodup (sound : Sound fb) : (toFree fb).Nodup := by
  apply List.Nodup.map_on
  · intro i isLate j _ same
    have chosen : fb.m_pVirtualMem i ∈ toFree fb := List.mem_map_of_mem isLate
    obtain ⟨b, _, here, _⟩ := toFree_blocks sound chosen
    exact sound.distinct i j b here (same.symm.trans here)
  · exact (List.nodup_finRange 11).filter _

theorem closeLast_sound (sound : Sound fb) : Sound (closeLast fb) := by
  have noBlocks (i : Fin 11) (b : Nat) : (closeLast fb).m_pVirtualMem i ≠ .block b := by
    intro here
    by_cases first : i = 0
    · rw [first] at here
      exact (sound.blocks 0 b here).1 rfl
    · rw [show (closeLast fb).m_pVirtualMem i = .null from if_neg first] at here
      cases here
  constructor
  · intro i b here
    exact absurd here (noBlocks i b)
  · intro i j b here
    exact absurd here (noBlocks i b)
  · intro b old
    refine Or.inl (List.mem_append.mpr ?_)
    rcases sound.kept b old with freed | ⟨i, here⟩
    · exact Or.inl freed
    · obtain ⟨notFirst, late, _, _⟩ := sound.blocks i b here
      refine Or.inr (mem_toFree.mpr ⟨i, ⟨notFirst, late, ?_⟩, here⟩)
      rw [here]
      nofun
  · intro pointer freed
    rcases List.mem_append.mp freed with earlier | now
    · exact sound.released pointer earlier
    · obtain ⟨b, old, same, _⟩ := toFree_blocks sound now
      exact ⟨b, old, same⟩
  · apply List.nodup_append.mpr
    refine ⟨sound.once, toFree_nodup sound, ?_⟩
    rintro pointer earlier _ now rfl
    obtain ⟨_, _, _, unfreed⟩ := toFree_blocks sound now
    exact unfreed earlier
  · intro i k j here
    by_contra neither
    have notFirst : i ≠ 0 := fun first => neither (Or.inl first)
    rw [show (closeLast fb).m_pVirtualMem i = .null from if_neg notFirst] at here
    cases here
  · nofun
  · intro _ i notFirst
    exact if_neg notFirst
  · nofun

theorem close_sound (sound : Sound fb) : Sound (close fb) := by
  unfold close
  dsimp only
  split
  · apply recount_sound (closeLast_sound sound)
    nofun
  · next more =>
      apply recount_sound sound
      intro opened
      have positive := sound.counted opened
      omega

end BuildLinux.Concrete.Framebuffer
