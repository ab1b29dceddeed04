/-
The picture that InvalidateScreen puts on the display, in
driver/drm/testcamera/Framebuffer.cxx.

The display scans out the frame that the last successful FBIOPAN_DISPLAY set.
An access through a pointer that leads nowhere ends the program.
-/

import BuildLinux.Concrete.Framebuffer

namespace BuildLinux.Concrete.FramebufferPanning

open CStrings TransitionSystem
open Framebuffer

/-- A framebuffer of at least one frame of memory. -/
structure Screen where
  info : ScreenInfo
  room : info.memSize ≤ info.smem_len

/-- The members with what the frames of the device and the blocks hold. -/
structure Display (picture : Type) where
  fb : CFramebuffer
  frames : Nat → picture
  blocks : Nat → picture

variable {picture : Type}

/-! ### InvalidateScreen -/

def accessible (fb : CFramebuffer) : Pointer → Bool
  | .null => false
  | .frame k j => decide (fb.m_pMem = some k ∧ (j + 1) * fb.m_nMemSize ≤ fb.smem_len)
  | .block b => decide (b < fb.allocated ∧ .block b ∉ fb.freed)

def load (display : Display picture) (pointer : Pointer) : Option picture :=
  if accessible display.fb pointer then
    match pointer with
    | .null => none
    | .frame _ j => some (display.frames j)
    | .block b => some (display.blocks b)
  else none

def store (pointer : Pointer) (content : picture) (display : Display picture) :
    Option (Display picture) :=
  if accessible display.fb pointer then
    match pointer with
    | .null => none
    | .frame _ j => some { display with frames := Function.update display.frames j content }
    | .block b => some { display with blocks := Function.update display.blocks b content }
  else none

def memcpy (pDst pSrc : Pointer) (display : Display picture) : Option (Display picture) :=
  match load display pSrc with
  | none => none
  | some content => store pDst content display

/-- `(nMemMap >= 0 && nMemMap < 11) ? m_pVirtualMem[nMemMap] : NULL`. -/
def virtualMem (fb : CFramebuffer) (nMemMap : Int) : Pointer :=
  if inArray : 0 ≤ nMemMap ∧ nMemMap < 11 then
    fb.m_pVirtualMem ⟨nMemMap.toNat, by omega⟩
  else .null

/-- The copy into the frame on the display.  Without a mapping the destination
is null only if it is the first frame. -/
def copyToDisplay (nMemMap : Int) (display : Display picture) : Option (Display picture) :=
  let pSrc := virtualMem display.fb nMemMap
  match display.fb.m_pMem with
  | none =>
      if pSrc = .null ∨ display.fb.m_nDispMemNo * display.fb.m_nMemSize = 0 then some display
      else none
  | some k =>
      let pDst := Pointer.frame k display.fb.m_nDispMemNo
      if pSrc = .null ∨ pSrc = pDst then some display else memcpy pDst pSrc display

/-- `InvalidateScreen(NULL, nMemMap)`; `pan` tells whether the panning succeeds,
which it can on an open device only. -/
def invalidateScreen (nMemMap : Int) (pan : Bool) (display : Display picture) :
    Option (Display picture) :=
  if 0 ≤ nMemMap ∧ nMemMap < display.fb.m_nPhysicalMemNum then
    if nMemMap = display.fb.m_nDispMemNo then some display
    else if pan && display.fb.m_fd then
      some
        { display with
          fb := { display.fb with m_nDispMemNo := nMemMap.toNat, shown := nMemMap.toNat } }
    else copyToDisplay nMemMap display
  else copyToDisplay nMemMap display

/-! ### Sessions -/

/-- New blocks are cleared. -/
def withBlocks (blank : picture) (fb : CFramebuffer) (display : Display picture) :
    Display picture :=
  { display with
    fb := fb
    blocks := fun b => if b < display.fb.allocated then display.blocks b else blank }

/-- A new mapping is cleared. -/
def openDisplay (blank : picture) (pDevName : Option CString) (answers : OpenAnswers)
    (display : Display picture) : Display picture :=
  let fb := (openBuffer pDevName answers display.fb).1
  { withBlocks blank fb display with
    frames := if fb.mappings = display.fb.mappings then display.frames else fun _ => blank }

/-- The calls of a program, and its drawings, which change any picture. -/
inductive Action (picture : Type) where
  | openBuffer (pDevName : Option CString) (answers : OpenAnswers)
  | close
  | extendVirtualMem (nVirtualMemNum : Int) (mallocs : Mallocs)
  | draw (frames blocks : Nat → picture)
  | invalidateScreen (nMemMap : Int) (pan : Bool)

/-- A screen is invalidated by an instance, with a buffer that is there. -/
def displaySystem (screen : Screen) (blank : picture) :
    System (Display picture) (Action picture) where
  Initial display := display.fb = untouched
  Step before action after :=
    match action with
    | .openBuffer pDevName answers =>
        answers.info = screen.info ∧ after = openDisplay blank pDevName answers before
    | .close => after = { before with fb := close before.fb }
    | .extendVirtualMem nVirtualMemNum mallocs =>
        after = withBlocks blank (extendVirtualMem nVirtualMemNum mallocs before.fb) before
    | .draw frames blocks => after = { before with frames := frames, blocks := blocks }
    | .invalidateScreen nMemMap pan =>
        0 < before.fb.m_nInstance ∧ virtualMem before.fb nMemMap ≠ .null ∧
          invalidateScreen nMemMap pan before = some after

/-! ### The requested picture -/

/-- The member names the frame on the display, which lies in the mapping. -/
def Tracks (fb : CFramebuffer) : Prop :=
  fb.m_nDispMemNo = fb.shown ∧ (fb.shown + 1) * fb.m_nMemSize ≤ fb.smem_len

/-- The call returns with the picture of the buffer on the display. -/
def ShowsBuffer (nMemMap : Int) (pan : Bool) (display : Display picture) : Prop :=
  ∃ after, invalidateScreen nMemMap pan display = some after ∧ Tracks after.fb ∧
    load after (virtualMem after.fb nMemMap) = some (after.frames after.fb.shown)

/-- An open framebuffer tracks the display, and every call for a buffer that is
there shows it. -/
def Faithful (display : Display picture) : Prop :=
  (display.fb.m_fd = true → Tracks display.fb) ∧
    ∀ nMemMap pan, 0 < display.fb.m_nInstance → virtualMem display.fb nMemMap ≠ .null →
      ShowsBuffer nMemMap pan display

/-- The first instance finds frame 0 on the display or pans to it, or it fails
before any buffer was ever mapped. -/
def Allowed (_ : List (Action picture)) (before : Display picture) : Action picture → Prop
  | .openBuffer pDevName answers =>
      before.fb.m_nInstance = 0 →
        match answers.works (pDevName.getD "/dev/fb".toList) with
        | true => before.fb.shown = 0 ∨ answers.pan 0 = true
        | false => before.fb.displayBuffer = .null
  | _ => True

/-! ### Probing -/

/-- The loop ends where it began, or behind the frame that it left on the display. -/
theorem panLoop_end (pan : Nat → Bool) (left i : Nat) (fb : CFramebuffer) :
    i ≤ (panLoop pan left i fb).2 ∧ (panLoop pan left i fb).2 ≤ i + left ∧
      ((panLoop pan left i fb).2 = i ∧ (panLoop pan left i fb).1 = fb ∨
        (panLoop pan left i fb).1.m_nDispMemNo + 1 = (panLoop pan left i fb).2 ∧
          (panLoop pan left i fb).1.shown = (panLoop pan left i fb).1.m_nDispMemNo) := by
  induction left generalizing i fb with
  | zero => exact ⟨Nat.le_refl i, Nat.le_refl i, Or.inl ⟨rfl, rfl⟩⟩
  | succ left ih =>
      unfold panLoop
      split
      · obtain ⟨later, bound, result⟩ := ih (i + 1) { fb with m_nDispMemNo := i, shown := i }
        refine ⟨by omega, by omega, Or.inr ?_⟩
        rcases result with ⟨ends, same⟩ | panned
        · rw [ends, same]
          exact ⟨rfl, rfl⟩
        · exact panned
      · exact ⟨Nat.le_refl i, Nat.le_add_right i (left + 1), Or.inl ⟨rfl, rfl⟩⟩

theorem panLoop_first {pan : Nat → Bool} (works : pan 0 = true) {left : Nat} (present : 0 < left)
    (fb : CFramebuffer) : 0 < (panLoop pan left 0 fb).2 := by
  obtain ⟨others, rfl⟩ := Nat.exists_eq_add_of_lt present
  rw [Nat.zero_add]
  unfold panLoop
  rw [if_pos works]
  exact (panLoop_end pan others 1 _).1

/-- What an open framebuffer keeps: the frames in front lie in the mapping, and
one of the mapping is on the display. -/
structure Shows (fb : CFramebuffer) : Prop where
  tracks : Tracks fb
  front : ∀ i < fb.m_nPhysicalMemNum, (i + 1) * fb.m_nMemSize ≤ fb.smem_len
  present : 0 < fb.m_nPhysicalMemNum
  few : fb.m_nPhysicalMemNum ≤ 10

/-- The frame that is taken for displayed is one of the frames that are counted. -/
theorem mapDevice_frames (pan : Nat → Bool) (fb : CFramebuffer) :
    (mapDevice pan fb).m_nDispMemNo < (mapDevice pan fb).m_nPhysicalMemNum ∧
      (mapDevice pan fb).m_nPhysicalMemNum ≤ max 1 fb.m_nPhysicalMemNum := by
  let start := { fb with
    m_pMem := some fb.mappings, mappings := fb.mappings + 1, m_nDispMemNo := 0 }
  obtain ⟨_, bound, ends⟩ := panLoop_end pan fb.m_nPhysicalMemNum 0 start
  have counted : (mapDevice pan fb).m_nPhysicalMemNum =
      if (panLoop pan fb.m_nPhysicalMemNum 0 start).2 = 0 then 1
      else (panLoop pan fb.m_nPhysicalMemNum 0 start).2 := rfl
  have displayed : (mapDevice pan fb).m_nDispMemNo =
      (panLoop pan fb.m_nPhysicalMemNum 0 start).1.m_nDispMemNo := rfl
  rw [Nat.zero_add] at bound
  rw [counted, displayed]
  rcases ends with ⟨none, same⟩ | ⟨last, _⟩
  · rw [none, same, if_pos rfl]
    exact ⟨Nat.one_pos, Nat.le_max_left 1 _⟩
  · rw [if_neg (by omega)]
    exact ⟨by omega, by omega⟩

/-- The probing ends on the frame that was on the display before, or on the last
one that could be panned to. -/
theorem mapDevice_shown {fb : CFramebuffer} {pan : Nat → Bool} (whole : 0 < fb.m_nPhysicalMemNum)
    (first : fb.shown = 0 ∨ pan 0 = true) :
    (mapDevice pan fb).m_nDispMemNo = (mapDevice pan fb).shown := by
  let start := { fb with
    m_pMem := some fb.mappings, mappings := fb.mappings + 1, m_nDispMemNo := 0 }
  change (panLoop pan fb.m_nPhysicalMemNum 0 start).1.m_nDispMemNo =
    (panLoop pan fb.m_nPhysicalMemNum 0 start).1.shown
  obtain ⟨_, _, ⟨none, same⟩ | ⟨_, same⟩⟩ := panLoop_end pan fb.m_nPhysicalMemNum 0 start
  · rw [same]
    rcases first with atFirst | works
    · exact atFirst.symm
    · have panned := panLoop_first works whole start
      omega
  · exact same.symm

theorem mapDevice_shows {fb : CFramebuffer} {pan : Nat → Bool} (k : Nat)
    (whole : 0 < fb.m_nPhysicalMemNum)
    (room : fb.m_nPhysicalMemNum * fb.m_nMemSize ≤ fb.smem_len)
    (first : fb.shown = 0 ∨ pan 0 = true) : Shows (setBuffers k (mapDevice pan fb)) := by
  have inside {num : Nat} (bound : num ≤ fb.m_nPhysicalMemNum) :
      num * fb.m_nMemSize ≤ fb.smem_len :=
    Nat.le_trans (Nat.mul_le_mul_right _ bound) room
  obtain ⟨displayed, bound⟩ := mapDevice_frames pan fb
  have shown := mapDevice_shown whole first
  obtain ⟨disp, now, num, members⟩ := mapDevice_members pan fb
  have size : (mapDevice pan fb).m_nMemSize = fb.m_nMemSize := by rw [members]
  have length : (mapDevice pan fb).smem_len = fb.smem_len := by rw [members]
  rw [Nat.max_eq_right whole] at bound
  constructor
  · change (mapDevice pan fb).m_nDispMemNo = (mapDevice pan fb).shown ∧
      ((mapDevice pan fb).shown + 1) * (mapDevice pan fb).m_nMemSize ≤
        (mapDevice pan fb).smem_len
    rw [size, length]
    exact ⟨shown, inside (by omega)⟩
  · intro i early
    change i < min (mapDevice pan fb).m_nPhysicalMemNum 10 at early
    change (i + 1) * (mapDevice pan fb).m_nMemSize ≤ (mapDevice pan fb).smem_len
    rw [size, length]
    exact inside (by omega)
  · change 0 < min (mapDevice pan fb).m_nPhysicalMemNum 10
    omega
  · exact Nat.min_le_right _ 10

theorem opened_shows (screen : Screen) {pan : Nat → Bool} (k : Nat) {fb : CFramebuffer}
    (first : fb.shown = 0 ∨ pan 0 = true) :
    Shows (setBuffers k (mapDevice pan (measured screen.info fb))) := by
  apply mapDevice_shows
  · exact Nat.div_pos screen.room screen.info.sized
  · exact Nat.div_mul_le_self _ _
  · exact first

/-! ### Runs -/

/-- An open framebuffer shows one of its frames; an instance without a device
has no buffer. -/
structure Tracked (fb : CFramebuffer) : Prop where
  opened : fb.m_fd = true → Shows fb
  bare : fb.m_fd = false → 0 < fb.m_nInstance → ∀ i, fb.m_pVirtualMem i = .null

variable {fb : CFramebuffer}

theorem extend_tracked (nVirtualMemNum : Int) (mallocs : Mallocs) (tracked : Tracked fb) :
    Tracked (extendVirtualMem nVirtualMemNum mallocs fb) := by
  cases opened : fb.m_fd with
  | false =>
      rw [extendVirtualMem_closed nVirtualMemNum mallocs opened]
      exact tracked
  | true =>
      obtain ⟨pointers, count, extended⟩ := extendVirtualMem_members nVirtualMemNum mallocs fb
      have keeps := tracked.opened opened
      rw [extended]
      constructor
      · exact fun _ => ⟨keeps.tracks, keeps.front, keeps.present, keeps.few⟩
      · intro closed
        rw [opened] at closed
        cases closed

theorem recount_tracked {instances : Int} (tracked : Tracked fb)
    (counted : fb.m_fd = false → 0 < instances → 0 < fb.m_nInstance) :
    Tracked { fb with m_nInstance := instances } := by
  constructor
  · intro opened
    have keeps := tracked.opened opened
    exact ⟨keeps.tracks, keeps.front, keeps.present, keeps.few⟩
  · exact fun closed some => tracked.bare closed (counted closed some)

theorem openBuffer_tracked (screen : Screen) {pDevName : Option CString} {answers : OpenAnswers}
    (sound : Sound fb) (tracked : Tracked fb) (ofScreen : answers.info = screen.info)
    (allowed : fb.m_nInstance = 0 →
      match answers.works (pDevName.getD "/dev/fb".toList) with
      | true => fb.shown = 0 ∨ answers.pan 0 = true
      | false => fb.displayBuffer = .null) :
    Tracked (openBuffer pDevName answers fb).1 := by
  by_cases first : fb.m_nInstance = 0
  · have condition := allowed first
    cases works : answers.works (pDevName.getD "/dev/fb".toList) with
    | true =>
        rw [works] at condition
        obtain ⟨pointers, count, result⟩ := openBuffer_works first works
        rw [result, ofScreen]
        have keeps : Shows (setBuffers fb.mappings (mapDevice answers.pan (measured screen.info
            { fb with m_nInstance := fb.m_nInstance + 1 }))) :=
          opened_shows screen fb.mappings condition
        exact ⟨fun _ => ⟨keeps.tracks, keeps.front, keeps.present, keeps.few⟩, nofun⟩
    | false =>
        rw [works] at condition
        obtain ⟨members, num, size, smem_len, result⟩ := openBuffer_fails first works
        have closed := sound.uncounted (Int.le_of_eq first)
        rw [result]
        constructor
        · intro opened
          rw [closed] at opened
          cases opened
        · intro _ _ i
          by_cases isFirst : i = 0
          · rw [isFirst]
            exact condition
          · exact sound.closed closed i isFirst
  · rw [openBuffer_more pDevName answers first]
    apply extend_tracked
    apply recount_tracked tracked
    omega

theorem close_tracked (tracked : Tracked fb) : Tracked (close fb) := by
  unfold close
  dsimp only
  split
  · next last =>
      refine ⟨nofun, fun _ some => ?_⟩
      change 0 < fb.m_nInstance - 1 at some
      omega
  · apply recount_tracked tracked
    omega

theorem store_fb {pointer : Pointer} {content : picture} {display after : Display picture}
    (stored : store pointer content display = some after) : after.fb = display.fb := by
  unfold store at stored
  obtain ⟨_, stored⟩ := Option.ite_none_right_eq_some.mp stored
  cases pointer with
  | null => cases stored
  | frame k j =>
      cases stored
      rfl
  | block b =>
      cases stored
      rfl

theorem copyToDisplay_fb {nMemMap : Int} {display after : Display picture}
    (copied : copyToDisplay nMemMap display = some after) : after.fb = display.fb := by
  unfold copyToDisplay at copied
  dsimp only at copied
  cases mapping : display.fb.m_pMem with
  | none =>
      rw [mapping] at copied
      obtain ⟨_, copied⟩ := Option.ite_none_right_eq_some.mp copied
      cases copied
      rfl
  | some k =>
      rw [mapping] at copied
      dsimp only at copied
      split at copied
      · cases copied
        rfl
      · unfold memcpy at copied
        cases loaded : load display (virtualMem display.fb nMemMap) with
        | none =>
            rw [loaded] at copied
            cases copied
        | some content =>
            rw [loaded] at copied
            exact store_fb copied

/-- A call leaves the members, or moves the display to one of the front frames. -/
theorem invalidateScreen_fb {nMemMap : Int} {pan : Bool} {display after : Display picture}
    (returned : invalidateScreen nMemMap pan display = some after) :
    after.fb = display.fb ∨
      (nMemMap.toNat < display.fb.m_nPhysicalMemNum ∧ display.fb.m_fd = true ∧
        after.fb =
          { display.fb with m_nDispMemNo := nMemMap.toNat, shown := nMemMap.toNat }) := by
  unfold invalidateScreen at returned
  split at returned
  · next front =>
      split at returned
      · cases returned
        exact Or.inl rfl
      · split at returned
        · next panned =>
            cases returned
            exact Or.inr ⟨by omega, ((Bool.and_eq_true _ _).mp panned).2, rfl⟩
        · exact Or.inl (copyToDisplay_fb returned)
  · exact Or.inl (copyToDisplay_fb returned)

theorem panned_tracked {i : Nat} (tracked : Tracked fb) (opened : fb.m_fd = true)
    (front : i < fb.m_nPhysicalMemNum) :
    Tracked { fb with m_nDispMemNo := i, shown := i } := by
  have keeps := tracked.opened opened
  constructor
  · exact fun _ => ⟨⟨rfl, keeps.front i front⟩, keeps.front, keeps.present, keeps.few⟩
  · intro closed
    rw [opened] at closed
    cases closed

theorem panned_sound {i : Nat} (sound : Sound fb) :
    Sound { fb with m_nDispMemNo := i, shown := i } :=
  ⟨sound.blocks, sound.distinct, sound.kept, sound.released, sound.once, sound.frames,
    sound.mapped, sound.closed, sound.counted⟩

theorem step_tracked {screen : Screen} {blank : picture} {history : List (Action picture)}
    {before after : Display picture} {action : Action picture}
    (known : Sound before.fb ∧ Tracked before.fb) (allowed : Allowed history before action)
    (step : (displaySystem screen blank).Step before action after) :
    Sound after.fb ∧ Tracked after.fb := by
  obtain ⟨sound, tracked⟩ := known
  cases action with
  | openBuffer pDevName answers =>
      obtain ⟨ofScreen, rfl⟩ := step
      exact ⟨openBuffer_sound pDevName answers sound,
        openBuffer_tracked screen sound tracked ofScreen allowed⟩
  | close =>
      cases step
      exact ⟨close_sound sound, close_tracked tracked⟩
  | extendVirtualMem nVirtualMemNum mallocs =>
      cases step
      exact ⟨extendVirtualMem_sound nVirtualMemNum mallocs sound,
        extend_tracked nVirtualMemNum mallocs tracked⟩
  | draw frames blocks =>
      cases step
      exact ⟨sound, tracked⟩
  | invalidateScreen nMemMap pan =>
      obtain ⟨_, _, returned⟩ := step
      rcases invalidateScreen_fb returned with same | ⟨front, opened, moved⟩
      · rw [same]
        exact ⟨sound, tracked⟩
      · rw [moved]
        exact ⟨panned_sound sound, panned_tracked tracked opened front⟩

theorem runs_tracked {screen : Screen} {blank : picture} {history : List (Action picture)}
    {display : Display picture}
    (run : RunsWhere (displaySystem screen blank) Allowed history display) :
    Sound display.fb ∧ Tracked display.fb := by
  apply run.invariant fun _ display => Sound display.fb ∧ Tracked display.fb
  · intro initial starts
    rw [show initial.fb = untouched from starts]
    exact ⟨untouched_sound, nofun, nofun⟩
  · intro history before action after known allowed step
    exact step_tracked known allowed step

/-! ### The frames of an open framebuffer -/

/-- An open framebuffer has the sizes of its screen, and its frames and the one
that it takes for displayed are frames that the device may have. -/
structure Framed (info : ScreenInfo) (fb : CFramebuffer) : Prop where
  size : fb.m_nMemSize = info.memSize
  length : fb.smem_len = info.smem_len
  present : 0 < fb.m_nPhysicalMemNum
  few : fb.m_nPhysicalMemNum ≤ max 1 (info.smem_len / info.memSize)
  displayed : fb.m_nDispMemNo < max 1 (info.smem_len / info.memSize)

theorem openBuffer_framed {pDevName : Option CString} {answers : OpenAnswers}
    (first : fb.m_nInstance = 0)
    (works : answers.works (pDevName.getD "/dev/fb".toList) = true) :
    Framed answers.info (openBuffer pDevName answers fb).1 := by
  obtain ⟨pointers, count, result⟩ := openBuffer_works first works
  rw [result]
  let sized := measured answers.info { fb with m_nInstance := fb.m_nInstance + 1 }
  obtain ⟨disp, shown, num, mapped⟩ := mapDevice_members answers.pan sized
  obtain ⟨displayed, bound⟩ := mapDevice_frames answers.pan sized
  have number : sized.m_nPhysicalMemNum = answers.info.smem_len / answers.info.memSize := rfl
  rw [number] at bound
  refine ⟨?_, ?_, ?_, ?_, ?_⟩
  · change (mapDevice answers.pan sized).m_nMemSize = _
    rw [mapped]
    rfl
  · change (mapDevice answers.pan sized).smem_len = _
    rw [mapped]
    rfl
  · change 0 < min (mapDevice answers.pan sized).m_nPhysicalMemNum 10
    omega
  · change min (mapDevice answers.pan sized).m_nPhysicalMemNum 10 ≤ _
    omega
  · change (mapDevice answers.pan sized).m_nDispMemNo < _
    omega

theorem Framed.recount {info : ScreenInfo} (framed : Framed info fb) (instances : Int) :
    Framed info { fb with m_nInstance := instances } :=
  ⟨framed.size, framed.length, framed.present, framed.few, framed.displayed⟩

theorem Framed.extend {info : ScreenInfo} (framed : Framed info fb) (nVirtualMemNum : Int)
    (mallocs : Mallocs) : Framed info (extendVirtualMem nVirtualMemNum mallocs fb) := by
  obtain ⟨pointers, count, extended⟩ := extendVirtualMem_members nVirtualMemNum mallocs fb
  rw [extended]
  exact ⟨framed.size, framed.length, framed.present, framed.few, framed.displayed⟩

theorem step_framed {screen : Screen} {blank : picture} {before after : Display picture}
    {action : Action picture} (sound : Sound before.fb)
    (known : before.fb.m_fd = true → Framed screen.info before.fb)
    (step : (displaySystem screen blank).Step before action after) :
    Sound after.fb ∧ (after.fb.m_fd = true → Framed screen.info after.fb) := by
  cases action with
  | openBuffer pDevName answers =>
      obtain ⟨ofScreen, rfl⟩ := step
      refine ⟨openBuffer_sound pDevName answers sound, fun opened => ?_⟩
      change (openBuffer pDevName answers before.fb).1.m_fd = true at opened
      change Framed screen.info (openBuffer pDevName answers before.fb).1
      by_cases first : before.fb.m_nInstance = 0
      · cases works : answers.works (pDevName.getD "/dev/fb".toList) with
        | true =>
            rw [← ofScreen]
            exact openBuffer_framed first works
        | false =>
            obtain ⟨members, num, size, smem_len, result⟩ := openBuffer_fails first works
            rw [result, show before.fb.m_fd = false from
              sound.uncounted (Int.le_of_eq first)] at opened
            cases opened
      · rw [openBuffer_more pDevName answers first] at opened ⊢
        dsimp only at opened ⊢
        rw [extendVirtualMem_fd] at opened
        exact ((known opened).recount _).extend 3 answers.mallocs
  | close =>
      cases step
      refine ⟨close_sound sound, fun opened => ?_⟩
      change (close before.fb).m_fd = true at opened
      change Framed screen.info (close before.fb)
      unfold close at opened ⊢
      dsimp only at opened ⊢
      split at opened
      · cases opened
      · next others =>
          rw [if_neg others]
          exact (known opened).recount _
  | extendVirtualMem nVirtualMemNum mallocs =>
      cases step
      refine ⟨extendVirtualMem_sound nVirtualMemNum mallocs sound, fun opened => ?_⟩
      change (extendVirtualMem nVirtualMemNum mallocs before.fb).m_fd = true at opened
      rw [extendVirtualMem_fd] at opened
      exact (known opened).extend nVirtualMemNum mallocs
  | draw frames blocks =>
      cases step
      exact ⟨sound, known⟩
  | invalidateScreen nMemMap pan =>
      obtain ⟨_, _, returned⟩ := step
      rcases invalidateScreen_fb returned with same | ⟨front, isOpen, moved⟩
      · rw [same]
        exact ⟨sound, known⟩
      · have framed := known isOpen
        rw [moved]
        exact ⟨panned_sound sound, fun _ => ⟨framed.size, framed.length, framed.present,
          framed.few, Nat.lt_of_lt_of_le front framed.few⟩⟩

/-- Along every run an open framebuffer stays within the frames of its screen. -/
theorem runs_framed {screen : Screen} {blank : picture} {history : List (Action picture)}
    {display : Display picture} (run : Runs (displaySystem screen blank) history display) :
    Sound display.fb ∧ (display.fb.m_fd = true → Framed screen.info display.fb) := by
  apply run.invariant fun _ display =>
    Sound display.fb ∧ (display.fb.m_fd = true → Framed screen.info display.fb)
  · intro initial starts
    rw [show initial.fb = untouched from starts]
    exact ⟨untouched_sound, nofun⟩
  · intro history before action after _ known step
    exact step_framed known.1 known.2 step

/-- The frames that the device may have lie in its memory. -/
theorem Framed.inside {screen : Screen} {fb : CFramebuffer} (framed : Framed screen.info fb)
    {i : Nat} (early : i < max 1 (screen.info.smem_len / screen.info.memSize)) :
    (i + 1) * fb.m_nMemSize ≤ fb.smem_len := by
  rw [framed.size, framed.length]
  have sized : 0 < screen.info.memSize := screen.info.sized
  have whole : 1 ≤ screen.info.smem_len / screen.info.memSize :=
    (Nat.one_le_div_iff sized).mpr screen.room
  exact (Nat.le_div_iff_mul_le sized).mp (by omega)

/-! ### One call -/

variable {display : Display picture}

theorem virtualMem_eq {nMemMap : Int} (present : virtualMem display.fb nMemMap ≠ .null) :
    ∃ i : Fin 11, nMemMap = i ∧ virtualMem display.fb nMemMap = display.fb.m_pVirtualMem i := by
  unfold virtualMem at present ⊢
  split at present
  · next inArray =>
      rw [dif_pos inArray]
      exact ⟨⟨nMemMap.toNat, by omega⟩, by dsimp only; omega, rfl⟩
  · exact absurd rfl present

theorem load_frame {k j : Nat} (isMapped : display.fb.m_pMem = some k)
    (inside : (j + 1) * display.fb.m_nMemSize ≤ display.fb.smem_len) :
    load display (.frame k j) = some (display.frames j) :=
  if_pos (decide_eq_true ⟨isMapped, inside⟩)

theorem load_block {b : Nat} (old : b < display.fb.allocated)
    (unfreed : .block b ∉ display.fb.freed) :
    load display (.block b) = some (display.blocks b) :=
  if_pos (decide_eq_true ⟨old, unfreed⟩)

def onDisplay (content : picture) (display : Display picture) : Display picture :=
  { display with frames := Function.update display.frames display.fb.m_nDispMemNo content }

theorem load_onDisplay (content : picture) {pointer : Pointer}
    (apart : ∀ l, pointer ≠ .frame l display.fb.m_nDispMemNo) :
    load (onDisplay content display) pointer = load display pointer := by
  cases pointer with
  | null => rfl
  | frame l j =>
      have different : j ≠ display.fb.m_nDispMemNo := by
        rintro rfl
        exact apart l rfl
      have still : (onDisplay content display).frames j = display.frames j :=
        Function.update_of_ne different _ _
      unfold load
      dsimp only
      rw [still]
      rfl
  | block b => rfl

/-- A buffer that is there can be accessed. -/
theorem buffer_accessible {screen : Screen} {nMemMap : Int} (sound : Sound display.fb)
    (framed : Framed screen.info display.fb) (opened : display.fb.m_fd = true)
    (present : virtualMem display.fb nMemMap ≠ .null) :
    accessible display.fb (virtualMem display.fb nMemMap) = true := by
  obtain ⟨i, _, buffer⟩ := virtualMem_eq present
  obtain ⟨k, isMapped, front⟩ := sound.mapped opened
  rw [buffer] at present ⊢
  cases pointer : display.fb.m_pVirtualMem i with
  | null => exact absurd pointer present
  | frame l j =>
      have inFront := sound.frames i l j pointer
      obtain ⟨rfl, rfl⟩ := Pointer.frame.inj ((front i inFront).symm.trans pointer)
      have early : (i : Nat) < max 1 (screen.info.smem_len / screen.info.memSize) := by
        have few := framed.few
        rcases inFront with rfl | early
        · exact Nat.lt_of_lt_of_le Nat.one_pos (Nat.le_max_left _ _)
        · omega
      exact decide_eq_true ⟨isMapped, framed.inside early⟩
  | block b =>
      obtain ⟨_, _, old, unfreed⟩ := sound.blocks i b pointer
      exact decide_eq_true ⟨old, unfreed⟩

/-- The frame on the display takes the picture of another buffer. -/
theorem copy_shows {nMemMap : Int} {k : Nat} {content : picture}
    (isMapped : display.fb.m_pMem = some k)
    (inside : (display.fb.m_nDispMemNo + 1) * display.fb.m_nMemSize ≤ display.fb.smem_len)
    (loaded : load display (virtualMem display.fb nMemMap) = some content)
    (apart : ∀ l, virtualMem display.fb nMemMap ≠ .frame l display.fb.m_nDispMemNo) :
    copyToDisplay nMemMap display = some (onDisplay content display) ∧
      load (onDisplay content display) (virtualMem display.fb nMemMap) =
        some ((onDisplay content display).frames display.fb.m_nDispMemNo) := by
  have present : virtualMem display.fb nMemMap ≠ .null := by
    intro null
    rw [null] at loaded
    cases loaded
  constructor
  · unfold copyToDisplay
    dsimp only
    rw [isMapped]
    dsimp only
    rw [if_neg (not_or.mpr ⟨present, apart k⟩)]
    unfold memcpy
    rw [loaded]
    exact if_pos (decide_eq_true ⟨isMapped, inside⟩)
  · have shown : (onDisplay content display).frames display.fb.m_nDispMemNo = content :=
      Function.update_self _ _ _
    rw [load_onDisplay content apart, loaded, shown]

/-- A buffer that is a frame is panned to, or copied if that fails. -/
theorem front_shows {nMemMap : Int} {i k : Nat} (pan : Bool) (keeps : Shows display.fb)
    (isMapped : display.fb.m_pMem = some k) (isIndex : nMemMap = i)
    (early : i < display.fb.m_nPhysicalMemNum)
    (isFrame : virtualMem display.fb nMemMap = .frame k i) :
    ShowsBuffer nMemMap pan display := by
  obtain ⟨same, inside⟩ := keeps.tracks
  have index : nMemMap.toNat = i := by omega
  have loaded : load display (virtualMem display.fb nMemMap) = some (display.frames i) := by
    rw [isFrame]
    exact load_frame isMapped (keeps.front i early)
  unfold ShowsBuffer invalidateScreen
  rw [if_pos (by omega)]
  by_cases shown : nMemMap = display.fb.m_nDispMemNo
  · have here : i = display.fb.shown := by omega
    refine ⟨display, if_pos shown, keeps.tracks, ?_⟩
    rw [loaded, here]
  · rw [if_neg shown]
    by_cases panned : (pan && display.fb.m_fd) = true
    · rw [if_pos panned, index]
      refine ⟨_, rfl, ⟨rfl, keeps.front i early⟩, ?_⟩
      exact loaded
    · have apart (l : Nat) :
          virtualMem display.fb nMemMap ≠ .frame l display.fb.m_nDispMemNo := by
        rw [isFrame]
        intro equal
        have atDisplay := (Pointer.frame.inj equal).2
        omega
      rw [← same] at inside
      obtain ⟨copied, reloaded⟩ := copy_shows isMapped inside loaded apart
      rw [if_neg panned]
      refine ⟨_, copied, keeps.tracks, reloaded.trans ?_⟩
      exact congrArg (fun index => some ((onDisplay _ display).frames index)) same

/-- A buffer of the heap is copied. -/
theorem block_shows {nMemMap : Int} {b k : Nat} (pan : Bool) (keeps : Shows display.fb)
    (isMapped : display.fb.m_pMem = some k)
    (late : ¬(0 ≤ nMemMap ∧ nMemMap < display.fb.m_nPhysicalMemNum))
    (isBlock : virtualMem display.fb nMemMap = .block b) (old : b < display.fb.allocated)
    (unfreed : .block b ∉ display.fb.freed) :
    ShowsBuffer nMemMap pan display := by
  obtain ⟨same, inside⟩ := keeps.tracks
  have loaded : load display (virtualMem display.fb nMemMap) = some (display.blocks b) := by
    rw [isBlock]
    exact load_block old unfreed
  have apart (l : Nat) : virtualMem display.fb nMemMap ≠ .frame l display.fb.m_nDispMemNo := by
    rw [isBlock]
    nofun
  rw [← same] at inside
  obtain ⟨copied, reloaded⟩ := copy_shows isMapped inside loaded apart
  unfold ShowsBuffer invalidateScreen
  rw [if_neg late]
  refine ⟨_, copied, keeps.tracks, reloaded.trans ?_⟩
  exact congrArg (fun index => some ((onDisplay _ display).frames index)) same

theorem call_shows {nMemMap : Int} (pan : Bool) (sound : Sound display.fb)
    (opened : display.fb.m_fd = true) (keeps : Shows display.fb)
    (present : virtualMem display.fb nMemMap ≠ .null) :
    ShowsBuffer nMemMap pan display := by
  obtain ⟨i, isIndex, buffer⟩ := virtualMem_eq present
  obtain ⟨k, isMapped, front⟩ := sound.mapped opened
  by_cases early : (i : Nat) < display.fb.m_nPhysicalMemNum
  · exact front_shows pan keeps isMapped isIndex early (buffer.trans (front i (Or.inr early)))
  · cases pointer : display.fb.m_pVirtualMem i with
    | null => exact absurd (buffer.trans pointer) present
    | frame l j =>
        have somePresent := keeps.present
        rcases sound.frames i l j pointer with first | front
        · rw [first] at early
          exact absurd somePresent early
        · exact absurd front early
    | block b =>
        obtain ⟨_, _, old, unfreed⟩ := sound.blocks i b pointer
        exact block_shows pan keeps isMapped (by omega) (buffer.trans pointer) old unfreed

/-- As long as the first instances find the display where they leave it, every
call puts the picture of its buffer on the display. -/
theorem display_faithful {screen : Screen} {blank : picture} {history : List (Action picture)}
    (run : RunsWhere (displaySystem screen blank) Allowed history display) : Faithful display := by
  obtain ⟨sound, tracked⟩ := runs_tracked run
  constructor
  · exact fun opened => (tracked.opened opened).tracks
  · intro nMemMap pan instances present
    cases opened : display.fb.m_fd with
    | true => exact call_shows pan sound opened (tracked.opened opened) present
    | false =>
        obtain ⟨i, _, buffer⟩ := virtualMem_eq present
        rw [buffer, tracked.bare opened instances i] at present
        exact absurd rfl present

/-! ### A screen with two frames -/

def twoFrames : Screen where
  info := { xres := 1, yres := 1, bits_per_pixel := 32, smem_len := 8, sized := Nat.succ_pos 3 }
  room := Nat.le_add_right 4 4

/-- Every call succeeds, except perhaps the panning. -/
def panning (pans : Bool) : OpenAnswers where
  opens _ := true
  fscreeninfo := true
  vscreeninfo := true
  info := twoFrames.info
  mmap := true
  pan _ := pans
  mallocs _ := true

def dark : Display Nat where
  fb := untouched
  frames _ := 0
  blocks _ := 0

/-- One instance; the buffers drawn; the third buffer, of the heap, requested. -/
def drawn : Display Nat :=
  { openDisplay 0 none (panning true) dark with frames := fun i => i, blocks := fun b => 10 + b }

theorem drawn_faithful : Faithful drawn := by
  have begun : RunsWhere (displaySystem twoFrames 0) Allowed [] dark := RunsWhere.start rfl
  have opened : RunsWhere (displaySystem twoFrames 0) Allowed [.openBuffer none (panning true)]
      (openDisplay 0 none (panning true) dark) :=
    RunsWhere.next begun (fun _ => Or.inl rfl) ⟨rfl, rfl⟩
  have run : RunsWhere (displaySystem twoFrames 0) Allowed
      [.draw (fun i => i) (fun b => 10 + b), .openBuffer none (panning true)] drawn :=
    RunsWhere.next opened trivial rfl
  exact display_faithful run

/-- Opened for the second time: no panning succeeds, and the display keeps the
frame of the first time. -/
def reopened : Display Nat :=
  let first := openDisplay 0 none (panning true) dark
  openDisplay 0 none (panning false) { first with fb := close first.fb }

theorem frame_left :
    ¬∀ (history : List (Action Nat)) (display : Display Nat),
      Runs (displaySystem twoFrames 0) history display → Faithful display := by
  intro faithful
  have begun : Runs (displaySystem twoFrames 0) [] dark := Runs.start rfl
  have opened : Runs (displaySystem twoFrames 0) [.openBuffer none (panning true)]
      (openDisplay 0 none (panning true) dark) := Runs.next begun ⟨rfl, rfl⟩
  have closed : Runs (displaySystem twoFrames 0) [.close, .openBuffer none (panning true)]
      { openDisplay 0 none (panning true) dark with
        fb := close (openDisplay 0 none (panning true) dark).fb } := Runs.next opened rfl
  have run : Runs (displaySystem twoFrames 0)
      [.openBuffer none (panning false), .close, .openBuffer none (panning true)] reopened :=
    Runs.next closed ⟨rfl, rfl⟩
  have tracked := (faithful _ reopened run).1 (by decide)
  revert tracked
  unfold Tracks
  decide

end BuildLinux.Concrete.FramebufferPanning
