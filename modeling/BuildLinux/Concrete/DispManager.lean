/-
AllocVideoMem, GetDispResolution and GetVideoBufForDisplay of
driver/v4l2/video2lcd/display/disp_manager.c, with the selected display and every
allocation that may fail.

The pool of the other operations has forgotten the pictures in the buffers and
the display; its AllocVideoMem is a view of the one here.  A product that is no
`int`, a NULL pointer that is read and a cache that is allocated with fewer bytes
than its structure has leave a function without a result.  A negative size that
is only passed on does not.
-/

import BuildLinux.Concrete.DisplayPipeline
import BuildLinux.Concrete.PixelConvert
import BuildLinux.Concrete.VideoMemPool

namespace BuildLinux.Concrete.DispManager

open DisplayPipeline (IsInt)
open PixelConvert (Depth)

/-- `T_DispOpr`, less its functions. -/
structure DispOpr where
  iXres : Int
  iYres : Int
  iBpp : Int
  iLineWidth : Int
  pucDispMem : Nat
  deriving DecidableEq, Repr

/-- `T_VideoBuf` with its `T_PixelDatas`; the format is one of two or 0. -/
structure VideoBuf where
  iPixelFormat : Option Depth
  iWidth : Int
  iHeight : Int
  iBpp : Int
  iLineBytes : Int
  iTotalBytes : Int
  aucPixelDatas : Nat
  deriving DecidableEq, Repr

def getVideoBufForDisplay (g_ptDefaultDispOpr : Option DispOpr) : Option VideoBuf :=
  g_ptDefaultDispOpr.bind fun opr =>
    if IsInt (opr.iLineWidth * opr.iYres) then
      some
        { iPixelFormat :=
            if opr.iBpp = 16 then some .rgb565 else if opr.iBpp = 32 then some .rgb32 else none
          iWidth := opr.iXres
          iHeight := opr.iYres
          iBpp := opr.iBpp
          iLineBytes := opr.iLineWidth
          iTotalBytes := opr.iLineWidth * opr.iYres
          aucPixelDatas := opr.pucDispMem }
    else none

/-- Where the pixels of a buffer are: at an address of the device, or in the
bytes allocated behind the structure. -/
inductive PixelMemory where
  | device (pucDispMem : Nat)
  | behind (size : Nat)
  deriving DecidableEq, Repr

/-- The numbers of `T_PixelDatas`. -/
structure PixelDatas where
  iWidth : Int
  iHeight : Int
  iBpp : Int
  iLineBytes : Int
  iTotalBytes : Int
  deriving DecidableEq, Repr

structure VideoMem extends VideoMemPool.VideoMem where
  tPixelDatas : PixelDatas
  aucPixelDatas : PixelMemory

/-- The list from `g_ptVideoMemHead` on. -/
abbrev MemList := List VideoMem

structure Resolution where
  iXres : Int
  iYres : Int
  iBpp : Int
  deriving DecidableEq, Repr

/-- The return value and what the three pointers hold afterwards. -/
def getDispResolution (g_ptDefaultDispOpr : Option DispOpr) (before : Resolution) :
    Int × Resolution :=
  match g_ptDefaultDispOpr with
  | some opr => (0, { iXres := opr.iXres, iYres := opr.iYres, iBpp := opr.iBpp })
  | none => (-1, before)

def Resolution.iVMSize (resolution : Resolution) : Int :=
  (resolution.iXres * resolution.iYres * resolution.iBpp).tdiv 8

def Resolution.iLineBytes (resolution : Resolution) : Int :=
  (resolution.iXres * resolution.iBpp).tdiv 8

/-- The products of the two sizes can be formed. -/
structure Resolution.SizesDefined (resolution : Resolution) : Prop where
  pixels : IsInt (resolution.iXres * resolution.iYres)
  bits : IsInt (resolution.iXres * resolution.iYres * resolution.iBpp)
  lineBits : IsInt (resolution.iXres * resolution.iBpp)

instance (resolution : Resolution) : Decidable resolution.SizesDefined :=
  decidable_of_iff (IsInt (resolution.iXres * resolution.iYres) ∧
      IsInt (resolution.iXres * resolution.iYres * resolution.iBpp) ∧
      IsInt (resolution.iXres * resolution.iBpp))
    ⟨fun ⟨pixels, bits, lineBits⟩ => ⟨pixels, bits, lineBits⟩,
      fun defined => ⟨defined.pixels, defined.bits, defined.lineBits⟩⟩

def Resolution.pixelDatas (resolution : Resolution) : PixelDatas where
  iWidth := resolution.iXres
  iHeight := resolution.iYres
  iBpp := resolution.iBpp
  iLineBytes := resolution.iLineBytes
  iTotalBytes := resolution.iVMSize

def deviceMem (resolution : Resolution) (pucDispMem : Nat) (iNum : Int) (ptNew : Nat) :
    VideoMem where
  toVideoMem := { VideoMemPool.deviceMem iNum with address := ptNew }
  tPixelDatas := resolution.pixelDatas
  aucPixelDatas := .device pucDispMem

def cacheMem (resolution : Resolution) (ptNew : Nat) : VideoMem where
  toVideoMem := VideoMemPool.cacheMem ptNew
  tPixelDatas := resolution.pixelDatas
  aucPixelDatas := .behind resolution.iVMSize.toNat

/-- The loop over `count` more cache buffers; `mallocs` gives what each call returns. -/
def allocLoop (mallocs : Nat → Option Nat) (resolution : Resolution) :
    Nat → Nat → MemList → Option (Int × MemList)
  | 0, _, list => some (0, list)
  | count + 1, call, list =>
      match mallocs call with
      | none => some (-1, list)
      | some ptNew =>
          -- `sizeof(T_VideoMem) + iVMSize` bytes have to hold the structure.
          if 0 ≤ resolution.iVMSize then
            allocLoop mallocs resolution count (call + 1) (cacheMem resolution ptNew :: list)
          else none

def allocVideoMem (mallocs : Nat → Option Nat) (g_ptDefaultDispOpr : Option DispOpr) (iNum : Int)
    (g_ptVideoMemHead : MemList) : Option (Int × MemList) :=
  let resolution :=
    (getDispResolution g_ptDefaultDispOpr { iXres := 0, iYres := 0, iBpp := 0 }).2
  if resolution.SizesDefined then
    match mallocs 0 with
    | none => some (-1, g_ptVideoMemHead)
    | some ptNew =>
        match g_ptDefaultDispOpr with
        | none => none
        | some opr =>
            allocLoop mallocs resolution iNum.toNat 1
              (deviceMem resolution opr.pucDispMem iNum ptNew :: g_ptVideoMemHead)
  else none

/-! ### All or nothing -/

def DispOpr.resolution (opr : DispOpr) : Resolution where
  iXres := opr.iXres
  iYres := opr.iYres
  iBpp := opr.iBpp

/-- A buffer of the display's size. -/
structure HasSize (opr : DispOpr) (mem : VideoMem) : Prop where
  iWidth : mem.tPixelDatas.iWidth = opr.iXres
  iHeight : mem.tPixelDatas.iHeight = opr.iYres
  iBpp : mem.tPixelDatas.iBpp = opr.iBpp
  iLineBytes : mem.tPixelDatas.iLineBytes = (opr.iXres * opr.iBpp).tdiv 8
  iTotalBytes : mem.tPixelDatas.iTotalBytes = (opr.iXres * opr.iYres * opr.iBpp).tdiv 8

structure IsCache (opr : DispOpr) (mem : VideoMem) : Prop where
  size : HasSize opr mem
  own : ∃ bytes : Nat, mem.aucPixelDatas = .behind bytes ∧ (bytes : Int) =
    mem.tPixelDatas.iTotalBytes
  cache : mem.bDevFrameBuffer = false
  free : mem.eVideoMemState = .free

structure IsDevice (opr : DispOpr) (mem : VideoMem) : Prop where
  size : HasSize opr mem
  memory : mem.aucPixelDatas = .device opr.pucDispMem
  device : mem.bDevFrameBuffer = true

/-- The cache buffers and the entry of the device, in front of the list. -/
def Added (opr : DispOpr) (iNum : Nat) (before after : MemList) : Prop :=
  ∃ caches device, after = caches ++ device :: before ∧ caches.length = iNum ∧
    (∀ mem ∈ caches, IsCache opr mem) ∧ IsDevice opr device

/-- It returns, with everything added or with nothing done. -/
def AllOrNothing (g_ptDefaultDispOpr : Option DispOpr) (iNum : Nat) (before : MemList)
    (result : Option (Int × MemList)) : Prop :=
  result = some (-1, before) ∨ ∃ opr after, g_ptDefaultDispOpr = some opr ∧
    result = some (0, after) ∧ Added opr iNum before after

/-- A selected display whose caches have no negative number of bytes, if there are any. -/
def CanHold (g_ptDefaultDispOpr : Option DispOpr) (iNum : Nat) : Prop :=
  ∃ opr, g_ptDefaultDispOpr = some opr ∧
    (0 < iNum → -8 < opr.iXres * opr.iYres * opr.iBpp)

/-- The display's sizes are `int`s, and nothing can be allocated at all, or everything can
and there is a display to allocate it for. -/
structure AllocSafe (mallocs : Nat → Option Nat) (g_ptDefaultDispOpr : Option DispOpr)
    (iNum : Nat) : Prop where
  sizes : ∀ opr, g_ptDefaultDispOpr = some opr → opr.resolution.SizesDefined
  calls : mallocs 0 = none ∨
    CanHold g_ptDefaultDispOpr iNum ∧ ∀ call, call ≤ iNum → mallocs call ≠ none

/-! ### The sizes of the entries -/

theorem tdiv_eight_nonneg_iff (bits : Int) : 0 ≤ bits.tdiv 8 ↔ -8 < bits := by
  rw [Int.tdiv_eq_ediv, Int.sign_eq_one_of_pos (by decide)]
  split
  · rename_i exactly
    omega
  · rename_i rounded
    omega

theorem hasSize {opr : DispOpr} {mem : VideoMem}
    (size : mem.tPixelDatas = opr.resolution.pixelDatas) : HasSize opr mem := by
  constructor
  · rw [size]
    rfl
  · rw [size]
    rfl
  · rw [size]
    rfl
  · rw [size]
    rfl
  · rw [size]
    rfl

theorem cacheMem_isCache {opr : DispOpr} (room : 0 ≤ opr.resolution.iVMSize) (ptNew : Nat) :
    IsCache opr (cacheMem opr.resolution ptNew) where
  size := hasSize rfl
  own := ⟨_, rfl, Int.toNat_of_nonneg room⟩
  cache := rfl
  free := rfl

/-! ### The loop over the caches -/

/-- Whatever the loop returns, it has only put caches in front of the list. -/
theorem allocLoop_added {mallocs : Nat → Option Nat} {opr : DispOpr} {count call : Nat}
    {list after : MemList} {code : Int}
    (returned : allocLoop mallocs opr.resolution count call list = some (code, after)) :
    ∃ caches, after = caches ++ list ∧ (∀ mem ∈ caches, IsCache opr mem) ∧
      (code = 0 → caches.length = count) := by
  induction count generalizing call list with
  | zero =>
      obtain ⟨rfl, rfl⟩ := Prod.mk.inj (Option.some.inj returned)
      exact ⟨[], rfl, List.forall_mem_nil _, fun _ => rfl⟩
  | succ count ih =>
      rw [allocLoop] at returned
      cases allocates : mallocs call with
      | none =>
          rw [allocates] at returned
          obtain ⟨rfl, rfl⟩ := Prod.mk.inj (Option.some.inj returned)
          exact ⟨[], rfl, List.forall_mem_nil _, fun impossible => absurd impossible (by decide)⟩
      | some ptNew =>
          rw [allocates] at returned
          obtain ⟨room, returned⟩ := Option.ite_none_right_eq_some.mp returned
          obtain ⟨caches, added, areCaches, length⟩ := ih returned
          refine ⟨caches ++ [cacheMem opr.resolution ptNew], ?_, ?_, fun succeeded => ?_⟩
          · rw [added, List.append_assoc, List.singleton_append]
          · refine List.forall_mem_append.mpr ⟨areCaches, fun mem member => ?_⟩
            rw [List.mem_singleton.mp member]
            exact cacheMem_isCache room ptNew
          · rw [List.length_append, length succeeded, List.length_singleton]

theorem allocLoop_succeeds_iff (mallocs : Nat → Option Nat) (resolution : Resolution)
    (count call : Nat) (list : MemList) :
    (∃ after, allocLoop mallocs resolution count call list = some (0, after)) ↔
      (0 < count → 0 ≤ resolution.iVMSize) ∧
        ∀ index, index < count → mallocs (call + index) ≠ none := by
  induction count generalizing call list with
  | zero =>
      refine iff_of_true ⟨list, rfl⟩ ⟨fun impossible => absurd impossible (by decide), ?_⟩
      exact fun index below => absurd below (Nat.not_lt_zero index)
  | succ count ih =>
      rw [allocLoop]
      cases allocates : mallocs call with
      | none =>
          refine iff_of_false ?_ fun all => all.2 0 (Nat.succ_pos count) allocates
          rintro ⟨after, failed⟩
          have codes : (-1 : Int) = 0 := congrArg Prod.fst (Option.some.inj failed)
          exact absurd codes (by decide)
      | some ptNew =>
          dsimp only
          have next (index : Nat) : call + (index + 1) = call + 1 + index := by omega
          by_cases room : 0 ≤ resolution.iVMSize
          · rw [if_pos room, ih (call + 1)]
            constructor
            · rintro ⟨_, all⟩
              refine ⟨fun _ => room, fun index below => ?_⟩
              cases index with
              | zero =>
                  rw [Nat.add_zero, allocates]
                  exact Option.some_ne_none ptNew
              | succ index =>
                  rw [next]
                  exact all index (Nat.lt_of_succ_lt_succ below)
            · rintro ⟨_, all⟩
              refine ⟨fun _ => room, fun index below => ?_⟩
              rw [← next]
              exact all (index + 1) (Nat.succ_lt_succ below)
          · rw [if_neg room]
            refine iff_of_false ?_ fun both => room (both.1 (Nat.succ_pos count))
            rintro ⟨after, impossible⟩
            cases impossible

theorem not_allOrNothing_undefined {g_ptDefaultDispOpr : Option DispOpr} {iNum : Nat}
    {before : MemList} : ¬AllOrNothing g_ptDefaultDispOpr iNum before none := by
  rintro (nothing | ⟨opr, after, _, all, _⟩)
  · cases nothing
  · cases all

theorem getDispResolution_selected (opr : DispOpr) (before : Resolution) :
    getDispResolution (some opr) before = (0, opr.resolution) := rfl

/-- Behind the entry of the device, the loop has to succeed. -/
theorem allOrNothing_loop_iff (mallocs : Nat → Option Nat) (opr : DispOpr) (iNum ptNew : Nat)
    (before : MemList) :
    AllOrNothing (some opr) iNum before (allocLoop mallocs opr.resolution iNum 1
        (deviceMem opr.resolution opr.pucDispMem iNum ptNew :: before)) ↔
      ∃ after, allocLoop mallocs opr.resolution iNum 1
        (deviceMem opr.resolution opr.pucDispMem iNum ptNew :: before) = some (0, after) := by
  constructor
  · rintro (nothing | ⟨other, after, _, all, _⟩)
    · obtain ⟨caches, added, _⟩ := allocLoop_added nothing
      have lengths := congrArg List.length added
      rw [List.length_append, List.length_cons] at lengths
      omega
    · exact ⟨after, all⟩
  · rintro ⟨after, succeeded⟩
    obtain ⟨caches, added, areCaches, length⟩ := allocLoop_added succeeded
    exact Or.inr ⟨opr, after, rfl, succeeded, caches, _, added, length rfl, areCaches,
      hasSize rfl, rfl, rfl⟩

/-- With a display, everything is added exactly if all the allocations succeed. -/
theorem allocVideoMem_selected (mallocs : Nat → Option Nat) (opr : DispOpr) (iNum : Nat)
    (before : MemList) (defined : opr.resolution.SizesDefined) :
    AllOrNothing (some opr) iNum before (allocVideoMem mallocs (some opr) iNum before) ↔
      mallocs 0 = none ∨
        CanHold (some opr) iNum ∧ ∀ call, call ≤ iNum → mallocs call ≠ none := by
  have holds : CanHold (some opr) iNum ↔ (0 < iNum → 0 ≤ opr.resolution.iVMSize) := by
    rw [Resolution.iVMSize, tdiv_eight_nonneg_iff]
    constructor
    · rintro ⟨other, same, room⟩
      rw [Option.some.inj same]
      exact room
    · exact fun room => ⟨opr, rfl, room⟩
  unfold allocVideoMem
  rw [getDispResolution_selected, if_pos defined]
  cases allocates : mallocs 0 with
  | none => exact iff_of_true (Or.inl rfl) (Or.inl rfl)
  | some ptNew =>
      rw [or_iff_right (Option.some_ne_none ptNew)]
      dsimp only
      rw [Int.toNat_natCast, allOrNothing_loop_iff, allocLoop_succeeds_iff, holds]
      refine and_congr_right fun _ => ?_
      constructor
      · intro all call inCalls
        cases call with
        | zero =>
            rw [allocates]
            exact Option.some_ne_none ptNew
        | succ index =>
            rw [Nat.add_comm]
            exact all index inCalls
      · exact fun all index below => all (1 + index) (by omega)

/-- All or nothing is added exactly where the allocations allow it. -/
theorem allocVideoMem_safe_iff (mallocs : Nat → Option Nat) (g_ptDefaultDispOpr : Option DispOpr)
    (iNum : Nat) (before : MemList) :
    AllOrNothing g_ptDefaultDispOpr iNum before
        (allocVideoMem mallocs g_ptDefaultDispOpr iNum before) ↔
      AllocSafe mallocs g_ptDefaultDispOpr iNum := by
  cases g_ptDefaultDispOpr with
  | none =>
      unfold allocVideoMem
      rw [if_pos (by decide)]
      cases allocates : mallocs 0 with
      | none =>
          refine iff_of_true (Or.inl rfl) ⟨fun opr impossible => ?_, Or.inl allocates⟩
          cases impossible
      | some ptNew =>
          refine iff_of_false not_allOrNothing_undefined fun safe => ?_
          rcases safe.calls with refused | ⟨⟨opr, impossible, _⟩, _⟩
          · exact absurd (allocates.symm.trans refused) (Option.some_ne_none ptNew)
          · cases impossible
  | some opr =>
      by_cases defined : opr.resolution.SizesDefined
      · rw [allocVideoMem_selected mallocs opr iNum before defined]
        constructor
        · exact fun calls => ⟨fun other same => Option.some.inj same ▸ defined, calls⟩
        · exact fun safe => safe.calls
      · unfold allocVideoMem
        rw [getDispResolution_selected, if_neg defined]
        exact iff_of_false not_allOrNothing_undefined fun safe => defined (safe.sizes opr rfl)

/-- A display of 2 by 2 pixels. -/
def smallDisplay : DispOpr where
  iXres := 2
  iYres := 2
  iBpp := 16
  iLineWidth := 4
  pucDispMem := 4096

/-- The second allocation fails, and the entry of the device stays in the list;
without a display the first that succeeds leads to a NULL pointer. -/
theorem second_allocation_kept :
    (allocVideoMem (fun call => if call = 0 then some 64 else none) (some smallDisplay) 1 []).map
        (fun result => (result.1, result.2.length)) = some (-1, 1) ∧
      ¬AllOrNothing (some smallDisplay) 1 []
        (allocVideoMem (fun call => if call = 0 then some 64 else none) (some smallDisplay) 1 []) ∧
      allocVideoMem (fun _ => some 64) none 0 [] = none ∧
      ¬AllOrNothing none 0 [] (allocVideoMem (fun _ => some 64) none 0 []) := by
  refine ⟨by decide, ?_, rfl, not_allOrNothing_undefined⟩
  rintro (nothing | ⟨other, after, _, all, _⟩)
  · have lengths : some 1 = some 0 :=
      congrArg (Option.map fun result : Int × MemList => result.2.length) nothing
    exact absurd lengths (by decide)
  · have codes : some (-1 : Int) = some 0 := congrArg (Option.map Prod.fst) all
    exact absurd codes (by decide)

/-! ### The pool -/

theorem allocLoop_view (succeeds : Nat → Bool) {resolution : Resolution}
    (room : 0 ≤ resolution.iVMSize) (count call : Nat) (list : MemList) :
    (allocLoop (fun call => if succeeds call then some call else none) resolution count call
        list).map (Prod.map id (List.map VideoMem.toVideoMem)) =
      some (VideoMemPool.allocLoop succeeds count call (list.map VideoMem.toVideoMem)) := by
  induction count generalizing call list with
  | zero => rfl
  | succ count ih =>
      rw [allocLoop, VideoMemPool.allocLoop]
      cases succeeds call with
      | false => rfl
      | true =>
          simp only [if_true, if_pos room]
          exact ih (call + 1) _

/-- Without the pictures, and with the number of its call as the address of an
allocation, the list is that of the pool. -/
theorem allocVideoMem_view (succeeds : Nat → Bool) (opr : DispOpr) (iNum : Int)
    (defined : opr.resolution.SizesDefined) (room : 0 ≤ opr.resolution.iVMSize) :
    (allocVideoMem (fun call => if succeeds call then some call else none) (some opr) iNum []).map
        (Prod.map id (List.map VideoMem.toVideoMem)) =
      some (VideoMemPool.allocVideoMem succeeds iNum) := by
  unfold allocVideoMem VideoMemPool.allocVideoMem
  rw [getDispResolution_selected, if_pos defined]
  dsimp only
  cases succeeds 0 with
  | false => rfl
  | true => exact allocLoop_view succeeds room iNum.toNat 1 _

end BuildLinux.Concrete.DispManager
