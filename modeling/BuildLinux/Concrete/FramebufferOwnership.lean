/-
Who owns what the pointers of CFramebuffer lead to.

A ReOpen is a call of Close and one of Open, a construction an Open without a
name, a destruction a Close.  The calls of a sequence stand latest first.
-/

import BuildLinux.Concrete.Framebuffer

namespace BuildLinux.Concrete.FramebufferOwnership

open CStrings
open Framebuffer

inductive Call where
  | openBuffer (pDevName : Option CString) (answers : OpenAnswers)
  | close
  | extendVirtualMem (nVirtualMemNum : Int) (mallocs : Mallocs)

def perform : Call → CFramebuffer → CFramebuffer
  | .openBuffer pDevName answers, fb => (openBuffer pDevName answers fb).1
  | .close, fb => close fb
  | .extendVirtualMem nVirtualMemNum mallocs, fb => extendVirtualMem nVirtualMemNum mallocs fb

def after : List Call → CFramebuffer
  | [] => untouched
  | call :: earlier => perform call (after earlier)

/-! ### Ownership -/

/-- Blocks are freed, each once and all of them when no instance is left, when
no pointer is left either. -/
structure Owned (fb : CFramebuffer) : Prop where
  once : fb.freed.Nodup
  freed : fb.m_nInstance ≤ 0 → ∀ b < fb.allocated, .block b ∈ fb.freed
  blocks : ∀ pointer ∈ fb.freed, ∃ b, pointer = .block b
  cleared : fb.m_nInstance ≤ 0 → ∀ i, fb.m_pVirtualMem i = .null

/-- An `Open` that returns an error has counted no instance. -/
def Unwound (call : Call) (before : CFramebuffer) : Prop :=
  ∀ pDevName answers, call = .openBuffer pDevName answers →
    (openBuffer pDevName answers before).2 = false →
    (openBuffer pDevName answers before).1.m_nInstance = before.m_nInstance

def OwnedThroughout (history : List Call) : Prop :=
  ∀ call earlier, call :: earlier <:+ history →
    Owned (after (call :: earlier)) ∧ Unwound call (after earlier)

/-- The first instance is opened without an error, and the last one is closed
only if the device is not open. -/
def Harmless (fb : CFramebuffer) : Call → Prop
  | .openBuffer pDevName answers =>
      fb.m_nInstance = 0 → answers.works (pDevName.getD "/dev/fb".toList) = true
  | .close => fb.m_nInstance = 1 → fb.m_fd = false
  | .extendVirtualMem _ _ => True

def NeverLost (history : List Call) : Prop :=
  ∀ call earlier, call :: earlier <:+ history → Harmless (after earlier) call

/-! ### The calls -/

variable {fb : CFramebuffer}

theorem after_sound (history : List Call) : Sound (after history) := by
  induction history with
  | nil => exact untouched_sound
  | cons call earlier ih =>
      cases call with
      | openBuffer pDevName answers => exact openBuffer_sound pDevName answers ih
      | close => exact close_sound ih
      | extendVirtualMem nVirtualMemNum mallocs =>
          exact extendVirtualMem_sound nVirtualMemNum mallocs ih

/-- Whatever was called, blocks are freed once and nothing else is freed. -/
theorem Sound.owned (sound : Sound fb)
    (cleared : fb.m_nInstance ≤ 0 → ∀ i, fb.m_pVirtualMem i = .null) : Owned fb where
  once := sound.once
  freed none := sound.all_freed (sound.uncounted none)
  blocks pointer freed := by
    obtain ⟨b, _, same⟩ := sound.released pointer freed
    exact ⟨b, same⟩
  cleared := cleared

/-! ### Pointers that are left -/

theorem harmless_of_owned {call : Call} (sound : Sound fb) (owned : Owned (perform call fb))
    (unwound : Unwound call fb) : Harmless fb call := by
  cases call with
  | openBuffer pDevName answers =>
      intro first
      by_contra fails
      rw [Bool.not_eq_true] at fails
      obtain ⟨members, num, size, smem_len, result⟩ := openBuffer_fails first fails
      have uncounted := unwound pDevName answers rfl (congrArg Prod.snd result)
      rw [result] at uncounted
      dsimp only at uncounted
      omega
  | close =>
      intro last
      by_contra opened
      rw [Bool.not_eq_false] at opened
      obtain ⟨k, _, front⟩ := sound.mapped opened
      have none : fb.m_nInstance - 1 = 0 := by omega
      have closed : perform .close fb =
          closeLast { fb with m_nInstance := fb.m_nInstance - 1 } := if_pos none
      rw [closed] at owned
      have null := owned.cleared (Int.le_of_eq none) 0
      have left : fb.m_pVirtualMem 0 = .frame k 0 := front 0 (Or.inl rfl)
      have same : fb.m_pVirtualMem 0 = .null := null
      rw [left] at same
      cases same
  | extendVirtualMem nVirtualMemNum mallocs => trivial

/-- Without a call that loses one, a closed framebuffer has no pointer. -/
def Bare (fb : CFramebuffer) : Prop := fb.m_fd = false → ∀ i, fb.m_pVirtualMem i = .null

theorem extend_bare (nVirtualMemNum : Int) (mallocs : Mallocs) (bare : Bare fb) :
    Bare (extendVirtualMem nVirtualMemNum mallocs fb) := by
  intro closed
  rw [extendVirtualMem_fd] at closed
  rw [extendVirtualMem_closed nVirtualMemNum mallocs closed]
  exact bare closed

theorem closeLast_bare (none : ∀ i, fb.m_pVirtualMem i = .null) : Bare (closeLast fb) := by
  intro _ i
  by_cases first : i = 0
  · exact (if_pos first).trans (none 0)
  · exact if_neg first

theorem perform_bare {call : Call} (bare : Bare fb) (harmless : Harmless fb call) :
    Bare (perform call fb) := by
  cases call with
  | openBuffer pDevName answers =>
      change Bare (openBuffer pDevName answers fb).1
      by_cases first : fb.m_nInstance = 0
      · obtain ⟨pointers, count, result⟩ := openBuffer_works first (harmless first)
        rw [result]
        nofun
      · rw [openBuffer_more pDevName answers first]
        apply extend_bare
        exact bare
  | close =>
      change Bare (close fb)
      unfold close
      dsimp only
      by_cases last : fb.m_nInstance - 1 = 0
      · rw [if_pos last]
        apply closeLast_bare
        exact bare (harmless (by omega))
      · rw [if_neg last]
        exact bare
  | extendVirtualMem nVirtualMemNum mallocs => exact extend_bare nVirtualMemNum mallocs bare

theorem unwound_of_harmless {call : Call} (harmless : Harmless fb call) : Unwound call fb := by
  rintro pDevName answers rfl error
  by_cases first : fb.m_nInstance = 0
  · obtain ⟨pointers, count, result⟩ := openBuffer_works first (harmless first)
    rw [result] at error
    cases error
  · rw [openBuffer_more pDevName answers first] at error
    cases error

theorem NeverLost.earlier {call : Call} {earlier : List Call}
    (never : NeverLost (call :: earlier)) : NeverLost earlier :=
  fun other others isPart => never other others (isPart.trans (List.suffix_cons call earlier))

theorem after_bare {history : List Call} (never : NeverLost history) : Bare (after history) := by
  induction history with
  | nil => exact fun _ _ => rfl
  | cons call earlier ih =>
      exact perform_bare (ih never.earlier) (never call earlier List.suffix_rfl)

/-- Ownership is kept in exactly those sequences that never close the open
device for good and never meet an error. -/
theorem ownership_iff (history : List Call) : OwnedThroughout history ↔ NeverLost history := by
  constructor
  · intro throughout call earlier isPart
    obtain ⟨owned, unwound⟩ := throughout call earlier isPart
    exact harmless_of_owned (after_sound earlier) owned unwound
  · intro never call earlier isPart
    have part : NeverLost (call :: earlier) :=
      fun other others inner => never other others (inner.trans isPart)
    have sound := after_sound (call :: earlier)
    have bare := after_bare part
    exact ⟨Sound.owned sound fun none => bare (sound.uncounted none),
      unwound_of_harmless (part call earlier List.suffix_rfl)⟩

/-! ### A device with one frame -/

def onePixel : ScreenInfo where
  xres := 1
  yres := 1
  bits_per_pixel := 32
  smem_len := 4
  sized := by decide

/-- Every call succeeds if the device can be opened at all. -/
def answering (opens : Bool) : OpenAnswers where
  opens _ := opens
  fscreeninfo := true
  vscreeninfo := true
  info := onePixel
  mmap := true
  pan _ := true
  mallocs _ := true

/-- The first pointer outlives the mapping, and an error leaves an instance. -/
theorem pointer_and_instance_left :
    ¬OwnedThroughout [.close, .openBuffer none (answering true)] ∧
      ¬OwnedThroughout [.openBuffer none (answering false)] := by
  constructor
  · intro throughout
    obtain ⟨owned, _⟩ := throughout _ _ List.suffix_rfl
    have null := owned.cleared (by decide) 0
    revert null
    decide
  · intro throughout
    obtain ⟨_, unwound⟩ := throughout _ _ List.suffix_rfl
    have uncounted := unwound none (answering false) rfl (by decide)
    revert uncounted
    decide

end BuildLinux.Concrete.FramebufferOwnership
