/-
The two picture buffers of driver/v4l2/video2lcd/main.c over a run of its loop.

The converted picture and the zoomed picture each have one buffer, allocated by
the first picture that needs it and used again for every later one, while the
sizes are computed anew for each frame.  Here a run of the loop is the list of
what is written where, together with the size of the allocation.  A run that
computes a size which is no `int` has no such list.
-/

import BuildLinux.Concrete.PixelConvert
import BuildLinux.Concrete.DisplayPipeline

namespace BuildLinux.Concrete.FrameBuffers

open ByteStores PixelConvert DisplayPipeline

structure Extent where
  offset : Nat
  count : Nat
  deriving DecidableEq, Repr

def storeExtent (store : Store) : Extent where
  offset := store.offset
  count := store.bytes.length

/-- A picture to be put into a buffer, and the stores that put it there. -/
structure BufferUse where
  picture : PictureSize
  extents : List Extent

structure BufferWrite extends BufferUse where
  allocated : Nat

/-- Every store of a picture meets an allocation of its `iTotalBytes`. -/
def BufferWrite.WithinAllocation (write : BufferWrite) : Prop :=
  ∀ extent ∈ write.extents,
    write.picture.iTotalBytes ≤ write.allocated ∧ extent.offset + extent.count ≤ write.allocated

/-- `if (!aucPixelDatas) aucPixelDatas = malloc(iTotalBytes)`. -/
def allocatedSize (aucPixelDatas : Option Nat) (picture : PictureSize) : Nat :=
  aucPixelDatas.getD picture.iTotalBytes

/-! ### Frames of the camera -/

/-- How far libjpeg gets with a frame before it calls `MyErrorExit`. -/
inductive Decoding where
  | complete
  | headerError
  | errorAfter (scanlines : Nat)
  deriving DecidableEq, Repr

structure Capture extends CameraFrame where
  decoding : Decoding

def Capture.outcome (capture : Capture) : Decoding :=
  match capture.datas with
  | .jpeg _ => capture.decoding
  | .yuyv _ => .complete
  | .rgb565 _ => .complete

/-- `iPixelFormatOfVideo != iPixelFormatOfDisp`. -/
def Capture.needsConvert (capture : Capture) (depth : Depth) : Bool :=
  match capture.datas, depth with
  | .rgb565 _, .rgb565 => false
  | _, _ => true

def Capture.scanlineStores (capture : Capture) (depth : Depth) (count : Nat) : List Store :=
  match capture.datas with
  | .jpeg scanlines =>
      mjpegScanlines scanlines capture.iWidth depth.iBpp (min count capture.iHeight) 0 0
  | .yuyv _ => []
  | .rgb565 _ => []

def Capture.convertedSize (capture : Capture) (depth : Depth) : PictureSize :=
  PictureSize.sized capture.iWidth capture.iHeight depth.iBpp

/-- `iWidth * iBpp` and `iLineBytes * iHeight` are values of an `int`. -/
def SizesDefined (picture : PictureSize) : Prop :=
  picture.iWidth * picture.iBpp < 2 ^ 31 ∧ picture.iTotalBytes < 2 ^ 31

instance (picture : PictureSize) : Decidable (SizesDefined picture) :=
  inferInstanceAs (Decidable (_ ∧ _))

structure Lcd where
  iLcdWidth : Nat
  iLcdHeigt : Nat
  depth : Depth

/-! ### One turn of the loop -/

structure Buffers where
  tConvertBuf : Option Nat
  tZoomBuf : Option Nat

/-- `Convert` on one frame: its return value, the buffer and the writes. -/
def convertFrame (tables : ColorTables) (depth : Depth) (tConvertBuf : Option Nat)
    (capture : Capture) : Option (Int × Option Nat × List BufferWrite) :=
  let picture := capture.convertedSize depth
  let allocated := allocatedSize tConvertBuf picture
  match capture.outcome with
  | .headerError => some (-1, none, [])
  | .errorAfter scanlines =>
      if SizesDefined picture then
        some (-1, none, [{ picture := picture
                           extents := (capture.scanlineStores depth scanlines).map storeExtent
                           allocated := allocated }])
      else none
  | .complete =>
      (convert tables capture.toCameraFrame depth).map fun stores =>
        (0, some allocated,
          [{ picture := picture
             extents := stores.map storeExtent
             allocated := allocated }])

/-- The conversion step of the loop: none when the camera delivers the display's format. -/
def convertStep (tables : ColorTables) (depth : Depth) (tConvertBuf : Option Nat)
    (capture : Capture) : Option (Int × Option Nat × List BufferWrite) :=
  if capture.needsConvert depth then convertFrame tables depth tConvertBuf capture
  else some (0, tConvertBuf, [])

def zoomExtents (zoom : PictureSize) (dwPixelBytes : Nat) : List Extent :=
  (List.range zoom.iHeight).flatMap fun y =>
    (List.range zoom.iWidth).map fun x =>
      { offset := y * zoom.iLineBytes + x * dwPixelBytes, count := dwPixelBytes }

def zoomedSize (arithmetic : Ratios) (lcd : Lcd) (capture : Capture) : PictureSize :=
  let target :=
    zoomSize arithmetic capture.iWidth capture.iHeight lcd.iLcdWidth lcd.iLcdHeigt
  PictureSize.sized target.1 target.2 lcd.depth.iBpp

/-- `iLcdWidth * k` and the sizes of the zoomed picture are values of an `int`. -/
def ZoomDefined (arithmetic : Ratios) (lcd : Lcd) (capture : Capture) : Prop :=
  arithmetic.times lcd.iLcdWidth (arithmetic.divide capture.iHeight capture.iWidth) < 2 ^ 31 ∧
    SizesDefined (zoomedSize arithmetic lcd capture)

instance (arithmetic : Ratios) (lcd : Lcd) (capture : Capture) :
    Decidable (ZoomDefined arithmetic lcd capture) :=
  inferInstanceAs (Decidable (_ ∧ _))

/-- The zoom step: the current picture has the size of the frame and the display's bpp. -/
def zoomFrame (arithmetic : Ratios) (lcd : Lcd) (tZoomBuf : Option Nat) (capture : Capture) :
    Option (Option Nat × List BufferWrite) :=
  if ZoomNeeded capture.iWidth capture.iHeight lcd.iLcdWidth lcd.iLcdHeigt then
    if ZoomDefined arithmetic lcd capture then
      let picture := zoomedSize arithmetic lcd capture
      let allocated := allocatedSize tZoomBuf picture
      some (some allocated,
        [{ picture := picture
           extents := zoomExtents picture (lcd.depth.iBpp / 8)
           allocated := allocated }])
    else none
  else some (tZoomBuf, [])

def mainLoop (arithmetic : Ratios) (tables : ColorTables) (lcd : Lcd) :
    Buffers → List Capture → Option (List BufferWrite)
  | _, [] => some []
  | buffers, capture :: rest =>
      (convertStep tables lcd.depth buffers.tConvertBuf capture).bind fun converted =>
        if converted.1 ≠ 0 then some converted.2.2
        else
          (zoomFrame arithmetic lcd buffers.tZoomBuf capture).bind fun zoomed =>
            (mainLoop arithmetic tables lcd
              { tConvertBuf := converted.2.1, tZoomBuf := zoomed.1 } rest).map fun later =>
                converted.2.2 ++ zoomed.2 ++ later

/-- `memset` to zero before the loop. -/
def cleared : Buffers where
  tConvertBuf := none
  tZoomBuf := none

/-! ### What a run asks of each buffer -/

/-- The loop ends with this frame. -/
def Capture.stops (capture : Capture) (depth : Depth) : Bool :=
  capture.needsConvert depth && decide (capture.outcome ≠ .complete)

def ConvertDefined (depth : Depth) (capture : Capture) : Prop :=
  capture.needsConvert depth = true → capture.outcome ≠ .headerError →
    SizesDefined (capture.convertedSize depth)

/-- Every size that the run computes is an `int`. -/
def RunDefined (arithmetic : Ratios) (lcd : Lcd) : List Capture → Prop
  | [] => True
  | capture :: rest => ConvertDefined lcd.depth capture ∧
      (capture.stops lcd.depth = false →
        (ZoomNeeded capture.iWidth capture.iHeight lcd.iLcdWidth lcd.iLcdHeigt →
          ZoomDefined arithmetic lcd capture) ∧ RunDefined arithmetic lcd rest)

def convertUses (tables : ColorTables) (depth : Depth) : List Capture → List BufferUse
  | [] => []
  | capture :: rest =>
      if capture.needsConvert depth then
        match capture.outcome with
        | .headerError => []
        | .errorAfter scanlines =>
            [{ picture := capture.convertedSize depth
               extents := (capture.scanlineStores depth scanlines).map storeExtent }]
        | .complete =>
            { picture := capture.convertedSize depth
              extents := (convertStores tables capture.toCameraFrame depth).map storeExtent } ::
              convertUses tables depth rest
      else convertUses tables depth rest

def zoomUses (arithmetic : Ratios) (lcd : Lcd) : List Capture → List BufferUse
  | [] => []
  | capture :: rest =>
      if capture.stops lcd.depth then []
      else if ZoomNeeded capture.iWidth capture.iHeight lcd.iLcdWidth lcd.iLcdHeigt then
        { picture := zoomedSize arithmetic lcd capture
          extents := zoomExtents (zoomedSize arithmetic lcd capture) (lcd.depth.iBpp / 8) } ::
          zoomUses arithmetic lcd rest
      else zoomUses arithmetic lcd rest

/-- No picture of which anything is stored takes more bytes than the first one. -/
def FirstIsLargest (uses : List BufferUse) : Prop :=
  match uses with
  | [] => True
  | first :: later => ∀ use ∈ later, use.extents ≠ [] →
      use.picture.iTotalBytes ≤ first.picture.iTotalBytes

def BufferUse.Sound (use : BufferUse) : Prop :=
  ∀ extent ∈ use.extents, extent.offset + extent.count ≤ use.picture.iTotalBytes

/-- A buffer allocated for the first picture and used for all. -/
def fill : Option Nat → List BufferUse → List BufferWrite
  | _, [] => []
  | aucPixelDatas, use :: rest =>
      { toBufferUse := use, allocated := allocatedSize aucPixelDatas use.picture } ::
        fill (some (allocatedSize aucPixelDatas use.picture)) rest

theorem fill_allocated {size : Nat} {uses : List BufferUse} {write : BufferWrite} :
    write ∈ fill (some size) uses ↔
      ∃ use ∈ uses, write = { toBufferUse := use, allocated := size } := by
  induction uses with
  | nil =>
      constructor
      · exact fun member => nomatch member
      · rintro ⟨use, member, _⟩
        cases member
  | cons use rest ih =>
      change write ∈ { toBufferUse := use, allocated := size } :: fill (some size) rest ↔ _
      rw [List.mem_cons, ih]
      constructor
      · rintro (isFirst | ⟨other, member, isWrite⟩)
        · exact ⟨use, List.mem_cons_self, isFirst⟩
        · exact ⟨other, List.mem_cons_of_mem use member, isWrite⟩
      · rintro ⟨other, member, isWrite⟩
        rcases List.mem_cons.mp member with isFirst | later
        · rw [isFirst] at isWrite
          exact Or.inl isWrite
        · exact Or.inr ⟨other, later, isWrite⟩

theorem fill_within {uses : List BufferUse} (sound : ∀ use ∈ uses, use.Sound) :
    (∀ write ∈ fill none uses, write.WithinAllocation) ↔ FirstIsLargest uses := by
  cases uses with
  | nil => exact ⟨fun _ => trivial, fun _ write member => nomatch member⟩
  | cons first later =>
      have split : fill none (first :: later) =
          { toBufferUse := first, allocated := first.picture.iTotalBytes } ::
            fill (some first.picture.iTotalBytes) later := rfl
      rw [split]
      constructor
      · intro within use member stored
        obtain ⟨extent, others, extents⟩ := List.exists_cons_of_ne_nil stored
        have written := within _ (List.mem_cons_of_mem _ (fill_allocated.mpr ⟨use, member, rfl⟩))
        have inExtents : extent ∈ use.extents := by
          rw [extents]
          exact List.mem_cons_self
        exact (written extent inExtents).1
      · intro largest write member extent inExtents
        rcases List.mem_cons.mp member with isFirst | inLater
        · rw [isFirst] at inExtents ⊢
          exact ⟨Nat.le_refl _, sound first List.mem_cons_self extent inExtents⟩
        · obtain ⟨use, isUse, isWrite⟩ := fill_allocated.mp inLater
          rw [isWrite] at inExtents ⊢
          have fits := largest use isUse (List.ne_nil_of_mem inExtents)
          have bounded := sound use (List.mem_cons_of_mem first isUse) extent inExtents
          exact ⟨fits, bounded.trans fits⟩

/-! ### The writes of a run -/

theorem zoomFrame_writes (arithmetic : Ratios) (lcd : Lcd) (tZoomBuf : Option Nat)
    (capture : Capture)
    (defined : ZoomNeeded capture.iWidth capture.iHeight lcd.iLcdWidth lcd.iLcdHeigt →
      ZoomDefined arithmetic lcd capture) :
    ∃ next written, zoomFrame arithmetic lcd tZoomBuf capture = some (next, written) ∧
      ∀ later write, write ∈ written ∨ write ∈ fill next later ↔
        write ∈ fill tZoomBuf
          (if ZoomNeeded capture.iWidth capture.iHeight lcd.iLcdWidth lcd.iLcdHeigt then
            { picture := zoomedSize arithmetic lcd capture
              extents := zoomExtents (zoomedSize arithmetic lcd capture) (lcd.depth.iBpp / 8) } ::
              later
          else later) := by
  unfold zoomFrame
  by_cases zoomed : ZoomNeeded capture.iWidth capture.iHeight lcd.iLcdWidth lcd.iLcdHeigt
  · rw [if_pos zoomed, if_pos (defined zoomed)]
    refine ⟨_, _, rfl, fun later write => ?_⟩
    rw [if_pos zoomed]
    exact List.mem_append.symm
  · rw [if_neg zoomed]
    refine ⟨_, _, rfl, fun later write => ?_⟩
    rw [if_neg zoomed]
    exact or_iff_right List.not_mem_nil

/-- What one frame does to the conversion buffer, by its fate. -/
theorem convertStep_cases (tables : ColorTables) {depth : Depth} (tConvertBuf : Option Nat)
    {capture : Capture} (defined : ConvertDefined depth capture) (rest : List Capture) :
    (∃ next written, convertStep tables depth tConvertBuf capture = some (0, next, written) ∧
      capture.stops depth = false ∧
      ∀ write, write ∈ fill tConvertBuf (convertUses tables depth (capture :: rest)) ↔
        write ∈ written ∨ write ∈ fill next (convertUses tables depth rest)) ∨
    (∃ next written, convertStep tables depth tConvertBuf capture = some (-1, next, written) ∧
      capture.stops depth = true ∧
      fill tConvertBuf (convertUses tables depth (capture :: rest)) = written) := by
  unfold ConvertDefined at defined
  rw [convertStep, convertUses, convertFrame, Capture.stops]
  cases converts : capture.needsConvert depth with
  | false =>
      exact Or.inl ⟨tConvertBuf, [], rfl, rfl, fun write => (or_iff_right List.not_mem_nil).symm⟩
  | true =>
      cases outcome : capture.outcome with
      | headerError => exact Or.inr ⟨_, _, rfl, rfl, rfl⟩
      | errorAfter scanlines =>
          have sizes := defined converts (by rw [outcome]; exact Decoding.noConfusion)
          rw [if_pos rfl, if_pos rfl]
          dsimp only
          rw [if_pos sizes]
          exact Or.inr ⟨_, _, rfl, rfl, rfl⟩
      | complete =>
          have sizes := defined converts (by rw [outcome]; exact Decoding.noConfusion)
          have stores : convert tables capture.toCameraFrame depth =
              some (convertStores tables capture.toCameraFrame depth) := if_pos sizes
          rw [if_pos rfl, if_pos rfl]
          dsimp only
          rw [stores]
          refine Or.inl ⟨_, _, rfl, rfl, fun write => ?_⟩
          exact List.mem_cons.trans (or_congr_left List.mem_singleton.symm)

theorem convertStep_undefined (tables : ColorTables) {depth : Depth} (tConvertBuf : Option Nat)
    {capture : Capture} (undefinedSizes : ¬ConvertDefined depth capture) :
    convertStep tables depth tConvertBuf capture = none := by
  unfold ConvertDefined at undefinedSizes
  obtain ⟨converts, begun⟩ := Classical.not_imp.mp undefinedSizes
  obtain ⟨noError, sizes⟩ := Classical.not_imp.mp begun
  rw [convertStep, if_pos converts, convertFrame]
  cases outcome : capture.outcome with
  | headerError => exact absurd outcome noError
  | errorAfter scanlines => exact if_neg sizes
  | complete =>
      have unconverted : convert tables capture.toCameraFrame depth = none := if_neg sizes
      dsimp only
      rw [unconverted]
      rfl

/-- Each buffer is filled as if the other one were not there. -/
theorem mainLoop_writes (arithmetic : Ratios) (tables : ColorTables) (lcd : Lcd)
    (buffers : Buffers) {captures : List Capture} (defined : RunDefined arithmetic lcd captures) :
    ∃ writes, mainLoop arithmetic tables lcd buffers captures = some writes ∧
      ∀ write, write ∈ writes ↔
        write ∈ fill buffers.tConvertBuf (convertUses tables lcd.depth captures) ∨
          write ∈ fill buffers.tZoomBuf (zoomUses arithmetic lcd captures) := by
  induction captures generalizing buffers with
  | nil => exact ⟨[], rfl, fun write => (or_self_iff (a := write ∈ [])).symm⟩
  | cons capture rest ih =>
      obtain ⟨converts, goesOn⟩ := defined
      rcases convertStep_cases tables buffers.tConvertBuf converts rest with
        ⟨next, written, step, continues, uses⟩ | ⟨next, written, step, stops, uses⟩
      · obtain ⟨zooms, later⟩ := goesOn continues
        obtain ⟨zoomNext, zoomWritten, zoomed, zoomedUses⟩ :=
          zoomFrame_writes arithmetic lcd buffers.tZoomBuf capture zooms
        obtain ⟨others, isRest, restWrites⟩ :=
          ih { tConvertBuf := next, tZoomBuf := zoomNext } later
        refine ⟨written ++ zoomWritten ++ others, ?_, fun write => ?_⟩
        · rw [mainLoop, step, Option.bind_some, if_neg (not_not_intro rfl), zoomed,
            Option.bind_some, isRest]
          rfl
        · rw [zoomUses, continues, uses]
          change _ ↔ _ ∨ write ∈ fill buffers.tZoomBuf (if ZoomNeeded _ _ _ _ then _ else _)
          rw [← zoomedUses, List.mem_append, List.mem_append, restWrites]
          exact or_or_or_comm
      · refine ⟨written, ?_, fun write => ?_⟩
        · rw [mainLoop, step]
          rfl
        · rw [zoomUses, stops, uses]
          exact (or_iff_left List.not_mem_nil).symm

theorem mainLoop_defined {arithmetic : Ratios} {tables : ColorTables} {lcd : Lcd}
    {buffers : Buffers} {captures : List Capture} {writes : List BufferWrite}
    (run : mainLoop arithmetic tables lcd buffers captures = some writes) :
    RunDefined arithmetic lcd captures := by
  induction captures generalizing buffers writes with
  | nil => trivial
  | cons capture rest ih =>
      obtain ⟨converted, step, goesOn⟩ := Option.bind_eq_some_iff.mp run
      have defined : ConvertDefined lcd.depth capture := by
        by_contra undefinedSizes
        rw [convertStep_undefined tables buffers.tConvertBuf undefinedSizes] at step
        cases step
      refine ⟨defined, fun continues => ?_⟩
      rcases convertStep_cases tables buffers.tConvertBuf defined rest with
        ⟨next, written, result, _, _⟩ | ⟨_, _, _, stops, _⟩
      · cases step.symm.trans result
        rw [if_neg (not_not_intro rfl)] at goesOn
        obtain ⟨zoomed, zooms, later⟩ := Option.bind_eq_some_iff.mp goesOn
        obtain ⟨others, isRest, _⟩ := Option.map_eq_some_iff.mp later
        refine ⟨fun needed => ?_, ih isRest⟩
        rw [zoomFrame, if_pos needed] at zooms
        exact (Option.ite_none_right_eq_some.mp zooms).1
      · exact absurd (stops.symm.trans continues) (by decide)

/-! ### Stores stay inside their picture -/

theorem storeExtents_sound {picture : PictureSize} {stores : List Store}
    (within : ∀ store ∈ stores, store.finish ≤ picture.iTotalBytes) :
    BufferUse.Sound { picture := picture, extents := stores.map storeExtent } := by
  intro extent member
  obtain ⟨store, inStores, isExtent⟩ := List.mem_map.mp member
  rw [← isExtent]
  exact within store inStores

theorem scanlineStores_within (capture : Capture) (depth : Depth) (count : Nat) :
    ∀ store ∈ capture.scanlineStores depth count,
      store.finish ≤ (capture.convertedSize depth).iTotalBytes := by
  intro store member
  change store.finish ≤ capture.toCameraFrame.totalBytes depth
  rw [totalBytes_pixels]
  unfold Capture.scanlineStores at member
  cases datas : capture.datas with
  | yuyv bytes =>
      rw [datas] at member
      cases member
  | rgb565 bytes =>
      rw [datas] at member
      cases member
  | jpeg scanlines =>
      rw [datas] at member
      have drawn := mjpegScanlines_draws scanlines capture.iWidth depth
        (min count capture.iHeight) 0
      rw [Nat.zero_mul, Nat.zero_mul] at drawn
      refine (drawn.within store member).trans ?_
      have lines := Nat.mul_le_mul_right capture.iWidth (Nat.min_le_right count capture.iHeight)
      exact Nat.mul_le_mul_right depth.pixelBytes lines

theorem zoomExtents_sound (iWidth iHeight : Nat) (depth : Depth) :
    BufferUse.Sound
      { picture := PictureSize.sized iWidth iHeight depth.iBpp
        extents := zoomExtents (PictureSize.sized iWidth iHeight depth.iBpp) (depth.iBpp / 8) } := by
  intro extent member
  obtain ⟨y, inRows, inLine⟩ := List.mem_flatMap.mp member
  obtain ⟨x, inColumns, isExtent⟩ := List.mem_map.mp inLine
  have whole : 8 ∣ depth.iBpp := by
    cases depth with
    | rgb565 => exact ⟨2, rfl⟩
    | rgb32 => exact ⟨4, rfl⟩
  have line := pixel_inLine (List.mem_range.mp inColumns) (depth.iBpp / 8)
  have lines := pixel_inLine (List.mem_range.mp inRows) (iWidth * depth.iBpp / 8)
  rw [← isExtent]
  change y * (iWidth * depth.iBpp / 8) + x * (depth.iBpp / 8) + depth.iBpp / 8 ≤
    iWidth * depth.iBpp / 8 * iHeight
  change _ ≤ iWidth * _ at line
  change _ ≤ iHeight * _ at lines
  rw [← lineBytes_whole whole iWidth] at line
  rw [Nat.mul_comm _ iHeight]
  omega

theorem convertUses_sound (tables : ColorTables) (depth : Depth) (captures : List Capture) :
    ∀ use ∈ convertUses tables depth captures, use.Sound := by
  induction captures with
  | nil => exact fun use member => nomatch member
  | cons capture rest ih =>
      intro use member
      rw [convertUses] at member
      split at member
      · split at member
        · cases member
        · rw [List.mem_singleton.mp member]
          exact storeExtents_sound (scanlineStores_within capture depth _)
        · rcases List.mem_cons.mp member with isFirst | later
          · rw [isFirst]
            exact storeExtents_sound (convertStores_within tables capture.toCameraFrame depth)
          · exact ih use later
      · exact ih use member

theorem zoomUses_sound (arithmetic : Ratios) (lcd : Lcd) (captures : List Capture) :
    ∀ use ∈ zoomUses arithmetic lcd captures, use.Sound := by
  induction captures with
  | nil => exact fun use member => nomatch member
  | cons capture rest ih =>
      intro use member
      rw [zoomUses] at member
      split at member
      · cases member
      · split at member
        · rcases List.mem_cons.mp member with isFirst | later
          · rw [isFirst]
            exact zoomExtents_sound _ _ lcd.depth
          · exact ih use later
        · exact ih use member

/-- Every write of a run meets its allocation exactly when the sizes are `int`s and, of either
kind, no picture takes more bytes than the first one. -/
theorem writes_fit_iff (arithmetic : Ratios) (tables : ColorTables) (lcd : Lcd)
    (captures : List Capture) :
    (∃ writes, mainLoop arithmetic tables lcd cleared captures = some writes ∧
        ∀ write ∈ writes, write.WithinAllocation) ↔
      RunDefined arithmetic lcd captures ∧
        FirstIsLargest (convertUses tables lcd.depth captures) ∧
        FirstIsLargest (zoomUses arithmetic lcd captures) := by
  rw [← fill_within (convertUses_sound tables lcd.depth captures),
    ← fill_within (zoomUses_sound arithmetic lcd captures)]
  constructor
  · rintro ⟨writes, run, within⟩
    have defined := mainLoop_defined run
    obtain ⟨others, isOthers, isWrite⟩ := mainLoop_writes arithmetic tables lcd cleared defined
    cases run.symm.trans isOthers
    exact ⟨defined, fun write member => within write ((isWrite write).mpr (Or.inl member)),
      fun write member => within write ((isWrite write).mpr (Or.inr member))⟩
  · rintro ⟨defined, converted, zoomed⟩
    obtain ⟨writes, run, isWrite⟩ := mainLoop_writes arithmetic tables lcd cleared defined
    refine ⟨writes, run, fun write member => ?_⟩
    rcases (isWrite write).mp member with inConverted | inZoomed
    · exact converted write inConverted
    · exact zoomed write inZoomed

def blackJpeg (iWidth iHeight : Nat) : Capture where
  iWidth := iWidth
  iHeight := iHeight
  datas := .jpeg fun _ _ => 0
  decoding := .complete

def smallLcd : Lcd where
  iLcdWidth := 4
  iLcdHeigt := 4
  depth := .rgb565

theorem larger_frame_overflows :
    ¬∀ (arithmetic : Ratios) (tables : ColorTables) (lcd : Lcd) (captures : List Capture),
      ∀ writes, mainLoop arithmetic tables lcd cleared captures = some writes →
        ∀ write ∈ writes, write.WithinAllocation := by
  intro every
  have within := every exactRatios plainTables smallLcd [blackJpeg 1 1, blackJpeg 2 2] _ rfl
    { picture := PictureSize.sized 2 2 16
      extents := [⟨0, 2⟩, ⟨2, 2⟩, ⟨4, 2⟩, ⟨6, 2⟩]
      allocated := 2 }
    (List.mem_cons_of_mem _ List.mem_cons_self) ⟨6, 2⟩ (by decide)
  exact absurd within.2 (by decide)

/-- The byte count of a black frame of 32768 rows and columns at 32 bpp is no `int`. -/
example : ¬RunDefined exactRatios { smallLcd with depth := .rgb32 } [blackJpeg 32768 32768] :=
  fun defined => absurd (defined.1 rfl Decoding.noConfusion) (by decide)

end BuildLinux.Concrete.FrameBuffers
