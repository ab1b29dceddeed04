/-
The V4L2 devices of driver/v4l2/video2lcd/video/v4l2.c.

Initialisation, the two pairs of frame operations and the operations table that
all devices share.  What the driver answers is a parameter of each call; the
driver keeps the indices of the queued buffers.  A call that returns -1 from the
initialisation gives no device.
-/

import Mathlib.Logic.Function.Basic
import Mathlib.Data.List.Nodup

namespace BuildLinux.Concrete.V4l2Device

/-- Where a pointer of the program leads. -/
inductive Pointer where
  | null
  | mapped (index : Nat)
  | heap (block : Nat)
  | operations
  deriving DecidableEq, Repr

inductive FrameMethod where
  | streaming
  | readWrite
  deriving DecidableEq, Repr

/-- The members of `T_VideoOpr` that are ever changed. -/
structure VideoOpr where
  GetFrame : FrameMethod
  PutFrame : FrameMethod
  deriving DecidableEq, Repr

/-- `g_tV4l2VideoOpr` as it is initialised. -/
def tV4l2VideoOpr : VideoOpr where
  GetFrame := .streaming
  PutFrame := .streaming

def nbBuffer : Nat := 32

/-- The cells from `pucVideBuf[0]` on: `NB_BUFFER` of the array, then `ptOPr`, then what
lies behind the structure.  C gives no meaning to a write there, which takes a driver that
grants more than 33 buffers; the cells keep such writes apart from the rest. -/
structure VideoDevice where
  iPixelFormat : Nat
  iWidth : Nat
  iHeight : Nat
  iVideoBufCnt : Nat
  iVideoBufMaxLen : Nat
  iVideoBufCurIndex : Nat
  pucVideBuf : Nat → Pointer

def VideoDevice.ptOPr (device : VideoDevice) : Pointer := device.pucVideBuf nbBuffer

structure PixelDatas where
  iWidth : Nat
  iHeight : Nat
  iBpp : Nat
  iLineBytes : Nat
  iTotalBytes : Nat
  aucPixelDatas : Pointer
  deriving DecidableEq, Repr

structure VideoBuf where
  tPixelDatas : PixelDatas
  iPixelFormat : Nat
  deriving DecidableEq, Repr

/-- The driver's side of one open device. -/
structure Driver where
  granted : Nat
  queued : List Nat
  deriving DecidableEq, Repr

/-- `VIDIOC_QBUF`, which refuses an index that is not a buffer or is queued. -/
def Driver.qbuf (driver : Driver) (accepts : Bool) (index : Nat) : Option Driver :=
  if accepts && decide (index < driver.granted) && decide (index ∉ driver.queued) then
    some { driver with queued := driver.queued ++ [index] }
  else none

def Driver.dqbuf (driver : Driver) (index : Nat) : Driver :=
  { driver with queued := driver.queued.erase index }

/-! ### V4l2InitDevice -/

def pixFmtYuyv : Nat := 0x56595559

def pixFmtMjpeg : Nat := 0x47504a4d

def pixFmtRgb565 : Nat := 0x50424752

def isSupportThisFormat (iPixelFormat : Nat) : Bool :=
  [pixFmtYuyv, pixFmtMjpeg, pixFmtRgb565].contains iPixelFormat

structure Capabilities where
  videoCapture : Bool
  streaming : Bool
  readWrite : Bool
  deriving DecidableEq, Repr

/-- What `open`, the ioctls and the allocations of one initialisation answer;
`formats` are those that `VIDIOC_ENUM_FMT` lists. -/
structure Answers where
  opened : Bool
  querycap : Option Capabilities
  formats : List Nat
  setFormat : Option (Nat × Nat)
  reqbufs : Option Nat
  querybuf : Nat → Option Nat
  mmap : Nat → Bool
  qbuf : Nat → Bool
  malloc : Pointer

/-- The loop that maps `count` buffers from `i` on. -/
def mapBuffers (answers : Answers) : Nat → Nat → VideoDevice → Option VideoDevice
  | 0, _, device => some device
  | count + 1, i, device =>
      match answers.querybuf i with
      | none => none
      | some length =>
          if answers.mmap i then
            mapBuffers answers count (i + 1)
              { device with
                iVideoBufMaxLen := length
                pucVideBuf := Function.update device.pucVideBuf i (.mapped i) }
          else none

/-- The loop that queues `count` buffers from `i` on. -/
def queueBuffers (answers : Answers) : Nat → Nat → Driver → Option Driver
  | 0, _, driver => some driver
  | count + 1, i, driver =>
      match driver.qbuf (answers.qbuf i) i with
      | none => none
      | some queued => queueBuffers answers count (i + 1) queued

structure Initialised where
  device : VideoDevice
  driver : Driver
  table : VideoOpr

/-- The part of the initialisation behind `VIDIOC_REQBUFS`. -/
def setUpBuffers (answers : Answers) (capabilities : Capabilities) (count : Nat)
    (device : VideoDevice) (table : VideoOpr) : Option Initialised :=
  let requested : VideoDevice := { device with iVideoBufCnt := count }
  let idle : Driver := { granted := count, queued := [] }
  if capabilities.streaming then
    match mapBuffers answers count 0 requested with
    | none => none
    | some mapped =>
        match queueBuffers answers count 0 idle with
        | none => none
        | some driver => some ⟨mapped, driver, table⟩
  else if capabilities.readWrite then
    some
      { device :=
          { requested with
            iVideoBufCnt := 1
            iVideoBufMaxLen := requested.iWidth * requested.iHeight * 4
            pucVideBuf := Function.update requested.pucVideBuf 0 answers.malloc }
        driver := idle
        table := { GetFrame := .readWrite, PutFrame := .readWrite } }
  else some ⟨requested, idle, table⟩

/-- `ptVideoDevice->ptOPr = &g_tV4l2VideoOpr`. -/
def VideoDevice.withOperations (device : VideoDevice) : VideoDevice :=
  { device with pucVideBuf := Function.update device.pucVideBuf nbBuffer .operations }

/-- The first listed format that is supported; without one the device keeps
whatever its field held. -/
def chosenFormat (answers : Answers) (device : VideoDevice) : Nat :=
  (answers.formats.find? isSupportThisFormat).getD device.iPixelFormat

def v4l2InitDevice (answers : Answers) (device : VideoDevice) (table : VideoOpr) :
    Option Initialised :=
  if !answers.opened then none
  else
    match answers.querycap with
    | none => none
    | some capabilities =>
        if !capabilities.videoCapture then none
        else if chosenFormat answers device = 0 then none
        else
          match answers.setFormat with
          | none => none
          | some (width, height) =>
              match answers.reqbufs with
              | none => none
              | some count =>
                  let formatted : VideoDevice :=
                    { device with
                      iPixelFormat := chosenFormat answers device
                      iWidth := width
                      iHeight := height }
                  (setUpBuffers answers capabilities count formatted table).map fun result =>
                    { result with device := result.device.withOperations }

/-! ### Frame operations -/

def pixelDepth (iPixelFormat : Nat) : Nat :=
  if iPixelFormat = pixFmtYuyv then 16
  else if iPixelFormat = pixFmtMjpeg then 0
  else if iPixelFormat = pixFmtRgb565 then 16
  else 0

/-- The video buffer that describes a frame of the device. -/
def frameBuf (device : VideoDevice) (iTotalBytes : Nat) (aucPixelDatas : Pointer) : VideoBuf where
  iPixelFormat := device.iPixelFormat
  tPixelDatas :=
    { iWidth := device.iWidth
      iHeight := device.iHeight
      iBpp := pixelDepth device.iPixelFormat
      iLineBytes := device.iWidth * pixelDepth device.iPixelFormat / 8
      iTotalBytes := iTotalBytes
      aucPixelDatas := aucPixelDatas }

/-- What `poll`, `VIDIOC_DQBUF` and `read` answer: the index and the used bytes
of a dequeued buffer, the bytes that were read. -/
structure FrameAnswer where
  poll : Bool
  dqbuf : Option (Nat × Nat)
  read : Option Nat
  deriving DecidableEq, Repr

structure FrameResult where
  iError : Int
  device : VideoDevice
  driver : Driver
  buf : VideoBuf

def v4l2GetFrameForStreaming (answer : FrameAnswer) (device : VideoDevice) (driver : Driver)
    (buf : VideoBuf) : FrameResult :=
  if !answer.poll then ⟨-1, device, driver, buf⟩
  else
    match answer.dqbuf with
    | none => ⟨-1, device, driver, buf⟩
    | some (index, bytesused) =>
        { iError := 0
          device := { device with iVideoBufCurIndex := index }
          driver := driver.dqbuf index
          buf := frameBuf device bytesused (device.pucVideBuf index) }

def v4l2GetFrameForReadWrite (answer : FrameAnswer) (device : VideoDevice) (driver : Driver)
    (buf : VideoBuf) : FrameResult :=
  match answer.read with
  | none => ⟨-1, device, driver, buf⟩
  | some 0 => ⟨-1, device, driver, buf⟩
  | some (count + 1) => ⟨0, device, driver, frameBuf device (count + 1) (device.pucVideBuf 0)⟩

def v4l2PutFrameForStreaming (accepts : Bool) (device : VideoDevice) (driver : Driver) :
    Int × Driver :=
  match driver.qbuf accepts device.iVideoBufCurIndex with
  | none => (-1, driver)
  | some queued => (0, queued)

def v4l2PutFrameForReadWrite (driver : Driver) : Int × Driver := (0, driver)

/-- The operations that a device's pointer leads to. -/
def operationsOf (table : VideoOpr) (device : VideoDevice) : Option VideoOpr :=
  if device.ptOPr = .operations then some table else none

def callGetFrame (method : FrameMethod) (answer : FrameAnswer) (device : VideoDevice)
    (driver : Driver) (buf : VideoBuf) : FrameResult :=
  match method with
  | .streaming => v4l2GetFrameForStreaming answer device driver buf
  | .readWrite => v4l2GetFrameForReadWrite answer device driver buf

def callPutFrame (method : FrameMethod) (accepts : Bool) (device : VideoDevice)
    (driver : Driver) : Int × Driver :=
  match method with
  | .streaming => v4l2PutFrameForStreaming accepts device driver
  | .readWrite => v4l2PutFrameForReadWrite driver

/-- How a device with these capabilities is set up. -/
def setUpMethod (capabilities : Capabilities) : Option FrameMethod :=
  if capabilities.streaming then some .streaming
  else if capabilities.readWrite then some .readWrite
  else none

def noPicture : VideoBuf where
  tPixelDatas :=
    { iWidth := 0
      iHeight := 0
      iBpp := 0
      iLineBytes := 0
      iTotalBytes := 0
      aucPixelDatas := .null }
  iPixelFormat := 0

def blankDevice : VideoDevice where
  iPixelFormat := 0
  iWidth := 0
  iHeight := 0
  iVideoBufCnt := 0
  iVideoBufMaxLen := 0
  iVideoBufCurIndex := 0
  pucVideBuf _ := .null

/-- What a camera with these capabilities answers; it grants two buffers. -/
def camera (streaming readWrite : Bool) : Answers where
  opened := true
  querycap := some { videoCapture := true, streaming := streaming, readWrite := readWrite }
  formats := [pixFmtYuyv]
  setFormat := some (640, 480)
  reqbufs := some 2
  querybuf _ := some 614400
  mmap _ := true
  qbuf _ := true
  malloc := .heap 0

/-! ### What the calls leave -/

theorem withOperations_ptOPr (device : VideoDevice) :
    device.withOperations.ptOPr = .operations := by
  simp [VideoDevice.ptOPr, VideoDevice.withOperations]

/-- The device with the chosen format and the size that the driver grants. -/
def VideoDevice.formatted (device : VideoDevice) (answers : Answers) (size : Nat × Nat) :
    VideoDevice :=
  { device with
    iPixelFormat := chosenFormat answers device
    iWidth := size.1
    iHeight := size.2 }

/-- A successful initialisation is one that got past every check and set up its buffers. -/
theorem v4l2InitDevice_some_iff {answers : Answers} {device : VideoDevice} {table : VideoOpr}
    {result : Initialised} :
    v4l2InitDevice answers device table = some result ↔
      answers.opened = true ∧ ∃ capabilities size count inner,
        answers.querycap = some capabilities ∧ capabilities.videoCapture = true ∧
        chosenFormat answers device ≠ 0 ∧ answers.setFormat = some size ∧
        answers.reqbufs = some count ∧
        setUpBuffers answers capabilities count (device.formatted answers size) table =
          some inner ∧
        result = { inner with device := inner.device.withOperations } := by
  constructor
  · intro initialised
    unfold v4l2InitDevice at initialised
    obtain ⟨opened, initialised⟩ := Option.ite_none_left_eq_some.mp initialised
    cases isCap : answers.querycap with
    | none =>
        rw [isCap] at initialised
        cases initialised
    | some capabilities =>
        rw [isCap] at initialised
        dsimp only at initialised
        obtain ⟨capture, initialised⟩ := Option.ite_none_left_eq_some.mp initialised
        obtain ⟨chosen, initialised⟩ := Option.ite_none_left_eq_some.mp initialised
        cases isFormat : answers.setFormat with
        | none =>
            rw [isFormat] at initialised
            cases initialised
        | some size =>
            rw [isFormat] at initialised
            cases isCount : answers.reqbufs with
            | none =>
                rw [isCount] at initialised
                cases initialised
            | some count =>
                rw [isCount] at initialised
                obtain ⟨inner, isInner, isResult⟩ := Option.map_eq_some_iff.mp initialised
                exact ⟨by simpa using opened, capabilities, size, count, inner, rfl,
                  by simpa using capture, chosen, rfl, rfl, isInner, isResult.symm⟩
  · rintro ⟨opened, capabilities, size, count, inner, isCap, capture, chosen, isFormat, isCount,
      isInner, rfl⟩
    unfold v4l2InitDevice
    rw [opened, isCap]
    dsimp only
    rw [capture, isFormat, isCount, if_neg (by decide), if_neg (by decide), if_neg chosen]
    exact Option.map_eq_some_iff.mpr ⟨inner, isInner, rfl⟩

/-- Which pair the table holds behind an initialisation: it is only ever
replaced, by the pair for reading and writing. -/
theorem setUpBuffers_table {answers : Answers} {capabilities : Capabilities} {count : Nat}
    {device : VideoDevice} {table : VideoOpr} {result : Initialised}
    (isSetUp : setUpBuffers answers capabilities count device table = some result) :
    result.table = if setUpMethod capabilities = some .readWrite then
      { GetFrame := .readWrite, PutFrame := .readWrite } else table := by
  unfold setUpBuffers at isSetUp
  cases hasStreaming : capabilities.streaming with
  | true =>
      have method : setUpMethod capabilities = some .streaming := by
        simp [setUpMethod, hasStreaming]
      rw [hasStreaming, if_pos rfl] at isSetUp
      rw [method, if_neg (by decide)]
      split at isSetUp
      · cases isSetUp
      · split at isSetUp
        · cases isSetUp
        · cases isSetUp
          rfl
  | false =>
      rw [hasStreaming, if_neg Bool.false_ne_true] at isSetUp
      cases hasReadWrite : capabilities.readWrite with
      | true =>
          have method : setUpMethod capabilities = some .readWrite := by
            simp [setUpMethod, hasStreaming, hasReadWrite]
          rw [hasReadWrite, if_pos rfl] at isSetUp
          cases isSetUp
          rw [method, if_pos rfl]
      | false =>
          have method : setUpMethod capabilities = none := by
            simp [setUpMethod, hasStreaming, hasReadWrite]
          rw [hasReadWrite, if_neg Bool.false_ne_true] at isSetUp
          cases isSetUp
          rw [method, if_neg (by decide)]

theorem mapBuffers_cells {answers : Answers} {count i : Nat} {device mapped : VideoDevice}
    (done : mapBuffers answers count i device = some mapped) (cell : Nat) :
    mapped.pucVideBuf cell =
      if i ≤ cell ∧ cell < i + count then .mapped cell else device.pucVideBuf cell := by
  induction count generalizing i device with
  | zero =>
      cases done
      rw [if_neg (by omega)]
  | succ count ih =>
      unfold mapBuffers at done
      cases queried : answers.querybuf i with
      | none =>
          rw [queried] at done
          cases done
      | some length =>
          rw [queried] at done
          obtain ⟨_, done⟩ := Option.ite_none_right_eq_some.mp done
          rw [ih done]
          dsimp only
          by_cases isFirst : cell = i
          · subst isFirst
            rw [if_neg (by omega), if_pos (by omega), Function.update_self]
          · rw [Function.update_of_ne isFirst]
            by_cases inside : i + 1 ≤ cell ∧ cell < i + 1 + count
            · rw [if_pos inside, if_pos (by omega)]
            · rw [if_neg inside, if_neg (by omega)]

theorem qbuf_some {driver after : Driver} {accepts : Bool} {index : Nat}
    (queued : driver.qbuf accepts index = some after) :
    index < driver.granted ∧ index ∉ driver.queued ∧
      after = { driver with queued := driver.queued ++ [index] } := by
  obtain ⟨allowed, result⟩ := Option.ite_none_right_eq_some.mp queued
  obtain ⟨inRange, fresh⟩ := Bool.and_eq_true_iff.mp allowed
  exact ⟨of_decide_eq_true (Bool.and_eq_true_iff.mp inRange).2, of_decide_eq_true fresh,
    (Option.some.inj result).symm⟩

theorem queueBuffers_queued {answers : Answers} {count i : Nat} {driver after : Driver}
    (done : queueBuffers answers count i driver = some after) :
    after.granted = driver.granted ∧ after.queued = driver.queued ++ List.range' i count := by
  induction count generalizing i driver with
  | zero =>
      cases done
      simp
  | succ count ih =>
      unfold queueBuffers at done
      cases queued : driver.qbuf (answers.qbuf i) i with
      | none =>
          rw [queued] at done
          cases done
      | some next =>
          rw [queued] at done
          obtain ⟨_, _, isNext⟩ := qbuf_some queued
          obtain ⟨granted, isQueued⟩ := ih done
          rw [isNext] at granted isQueued
          refine ⟨granted, ?_⟩
          rw [isQueued, List.range'_succ, List.append_assoc]
          rfl

/-- What a streaming device starts with: every buffer mapped and queued once. -/
theorem v4l2InitDevice_streaming {answers : Answers} {device : VideoDevice} {table : VideoOpr}
    {result : Initialised} (initialised : v4l2InitDevice answers device table = some result)
    (streaming : answers.querycap.bind setUpMethod = some .streaming) :
    result.table = table ∧ result.device.ptOPr = .operations ∧
      answers.reqbufs = some result.driver.granted ∧
      result.driver.queued = List.range result.driver.granted ∧
      ∀ cell < result.driver.granted, cell ≠ nbBuffer →
        result.device.pucVideBuf cell = .mapped cell := by
  obtain ⟨_, capabilities, size, count, inner, isCap, _, _, _, isCount, isInner, isResult⟩ :=
    v4l2InitDevice_some_iff.mp initialised
  rw [isCap] at streaming
  change setUpMethod capabilities = some .streaming at streaming
  have innerTable := setUpBuffers_table isInner
  rw [streaming, if_neg (by decide)] at innerTable
  have hasStreaming : capabilities.streaming = true := by
    by_contra notStreaming
    rw [setUpMethod, if_neg notStreaming] at streaming
    split at streaming
    · cases streaming
    · cases streaming
  unfold setUpBuffers at isInner
  rw [hasStreaming, if_pos rfl] at isInner
  cases mapping : mapBuffers answers count 0
      { device.formatted answers size with iVideoBufCnt := count } with
  | none =>
      rw [mapping] at isInner
      cases isInner
  | some mapped =>
      rw [mapping] at isInner
      cases queueing : queueBuffers answers count 0 { granted := count, queued := [] } with
      | none =>
          rw [queueing] at isInner
          cases isInner
      | some driver =>
          rw [queueing] at isInner
          cases isInner
          obtain ⟨granted, queued⟩ := queueBuffers_queued queueing
          rw [isResult]
          refine ⟨innerTable, withOperations_ptOPr mapped, ?_, ?_, ?_⟩
          · rw [isCount, granted]
          · rw [queued, granted, List.nil_append, List.range_eq_range']
          · intro cell inRange notOperations
            rw [granted] at inRange
            change cell < count at inRange
            have cells := mapBuffers_cells mapping cell
            rw [if_pos (by omega)] at cells
            exact (Function.update_of_ne notOperations _ _).trans cells

/-- Getting a frame leaves the cells of the device as they are. -/
theorem callGetFrame_cells (method : FrameMethod) (answer : FrameAnswer) (device : VideoDevice)
    (driver : Driver) (buf : VideoBuf) :
    (callGetFrame method answer device driver buf).device.pucVideBuf = device.pucVideBuf := by
  cases method with
  | streaming =>
      unfold callGetFrame v4l2GetFrameForStreaming
      dsimp only
      split
      · rfl
      · split <;> rfl
  | readWrite =>
      unfold callGetFrame v4l2GetFrameForReadWrite
      dsimp only
      split <;> rfl

end BuildLinux.Concrete.V4l2Device
