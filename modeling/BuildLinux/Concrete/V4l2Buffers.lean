/-
The loan of the driver's buffers in the loop of driver/v4l2/video2lcd/main.c.

A frame is dequeued, converted, zoomed and merged, and its buffer queued again.
The index lies in the device, the pointer to the pixels in the video buffer.
Each call may fail and end the loop, and the driver picks the frame.
-/

import BuildLinux.Concrete.V4l2Device
import BuildLinux.TransitionSystem
import Mathlib.Data.List.Perm.Basic

namespace BuildLinux.Concrete.V4l2Buffers

open TransitionSystem V4l2Device

/-- The picture that `ptVideoBufCur` points to. -/
inductive Current where
  | video
  | convert
  | zoom
  deriving DecidableEq, Repr

/-- The call that comes next. -/
inductive Place where
  | getFrame
  | convert
  | zoom (current : Current)
  | merge (current : Current)
  | putFrame
  | returned
  deriving DecidableEq, Repr

structure MainLoop where
  device : VideoDevice
  driver : Driver
  table : VideoOpr
  tVideoBuf : VideoBuf
  tConvertBuf : VideoBuf
  tZoomBuf : VideoBuf
  place : Place

def MainLoop.picture (loop : MainLoop) : Current → VideoBuf
  | .video => loop.tVideoBuf
  | .convert => loop.tConvertBuf
  | .zoom => loop.tZoomBuf

def MainLoop.pixels (loop : MainLoop) (current : Current) : Pointer :=
  (loop.picture current).tPixelDatas.aucPixelDatas

/-- The formats and the display of one call of the program. -/
structure Display where
  iPixelFormatOfVideo : Nat
  iPixelFormatOfDisp : Nat
  iLcdWidth : Nat
  iLcdHeigt : Nat

def Display.tooLarge (display : Display) (picture : PixelDatas) : Bool :=
  decide (picture.iWidth > display.iLcdWidth) || decide (picture.iHeight > display.iLcdHeigt)

/-- Where the loop goes on behind a frame it got. -/
def Display.afterFrame (display : Display) : Place :=
  if display.iPixelFormatOfVideo ≠ display.iPixelFormatOfDisp then .convert else .zoom .video

/-- A buffer that the program allocated for its own pictures. -/
def Own (buf : VideoBuf) : Prop :=
  ∀ index, buf.tPixelDatas.aucPixelDatas ≠ .mapped index

/-- A frame that was obtained or not, a picture that was read, a buffer given back. -/
inductive Action where
  | getFrame (index : Option Nat)
  | convert (source : Pointer) (done : Bool)
  | zoom (source : Option Pointer)
  | merge (source : Pointer)
  | putFrame (index : Nat) (done : Bool)
  deriving DecidableEq, Repr

def Action.reads : Action → Option Pointer
  | .getFrame _ => none
  | .convert source _ => some source
  | .zoom source => source
  | .merge source => some source
  | .putFrame _ _ => none

inductive Step (display : Display) : MainLoop → Action → MainLoop → Prop where
  | getFrame {loop : MainLoop} (atGet : loop.place = .getFrame) {opr : VideoOpr}
      (reached : operationsOf loop.table loop.device = some opr) (answer : FrameAnswer)
      (fromQueue : ∀ index bytesused, answer.dqbuf = some (index, bytesused) →
        index ∈ loop.driver.queued) {result : FrameResult}
      (called : callGetFrame opr.GetFrame answer loop.device loop.driver loop.tVideoBuf =
        result) (obtained : result.iError = 0) :
      Step display loop (.getFrame (some result.device.iVideoBufCurIndex))
        { loop with
          device := result.device
          driver := result.driver
          tVideoBuf := result.buf
          place := display.afterFrame }
  | getFrameFails {loop : MainLoop} (atGet : loop.place = .getFrame) {opr : VideoOpr}
      (reached : operationsOf loop.table loop.device = some opr) (answer : FrameAnswer)
      {result : FrameResult}
      (called : callGetFrame opr.GetFrame answer loop.device loop.driver loop.tVideoBuf =
        result) (failed : result.iError ≠ 0) :
      Step display loop (.getFrame none)
        { loop with
          device := result.device
          driver := result.driver
          tVideoBuf := result.buf
          place := .returned }
  | convert {loop : MainLoop} (atConvert : loop.place = .convert) {converted : VideoBuf}
      (own : Own converted) :
      Step display loop (.convert (loop.pixels .video) true)
        { loop with tConvertBuf := converted, place := .zoom .convert }
  | convertFails {loop : MainLoop} (atConvert : loop.place = .convert) {converted : VideoBuf}
      (own : Own converted) :
      Step display loop (.convert (loop.pixels .video) false)
        { loop with tConvertBuf := converted, place := .returned }
  | zoom {loop : MainLoop} {current : Current} (atZoom : loop.place = .zoom current)
      (tooLarge : display.tooLarge (loop.picture current).tPixelDatas = true)
      {zoomed : VideoBuf} (own : Own zoomed) :
      Step display loop (.zoom (some (loop.pixels current)))
        { loop with tZoomBuf := zoomed, place := .merge .zoom }
  | fits {loop : MainLoop} {current : Current} (atZoom : loop.place = .zoom current)
      (small : display.tooLarge (loop.picture current).tPixelDatas = false) :
      Step display loop (.zoom none) { loop with place := .merge current }
  | merge {loop : MainLoop} {current : Current} (atMerge : loop.place = .merge current) :
      Step display loop (.merge (loop.pixels current)) { loop with place := .putFrame }
  | putFrame {loop : MainLoop} (atPut : loop.place = .putFrame) {opr : VideoOpr}
      (reached : operationsOf loop.table loop.device = some opr) (accepts : Bool)
      {iError : Int} {after : Driver}
      (called : callPutFrame opr.PutFrame accepts loop.device loop.driver = (iError, after)) :
      Step display loop (.putFrame loop.device.iVideoBufCurIndex (decide (iError = 0)))
        { loop with
          driver := after
          place := if iError = 0 then .getFrame else .returned }

/-- The loop of main behind the initialisation of its device. -/
def startLoop (result : Initialised) (display : Display) : MainLoop where
  device := result.device
  driver := result.driver
  table := result.table
  tVideoBuf := noPicture
  tConvertBuf := { noPicture with iPixelFormat := display.iPixelFormatOfDisp }
  tZoomBuf := noPicture
  place := .getFrame

def mainSystem (result : Initialised) (display : Display) : System MainLoop Action where
  Initial loop := loop = startLoop result display
  Step := Step display

/-- The index of the frame last obtained, until its buffer is given back. -/
def onLoan : List Action → Option Nat
  | [] => none
  | .getFrame (some index) :: _ => some index
  | .getFrame none :: earlier => onLoan earlier
  | .convert _ _ :: earlier => onLoan earlier
  | .zoom _ :: earlier => onLoan earlier
  | .merge _ :: earlier => onLoan earlier
  | .putFrame _ true :: _ => none
  | .putFrame _ false :: earlier => onLoan earlier

/-! ### What a call to the streaming pair does -/

theorem getFrameForStreaming_obtained {answer : FrameAnswer} {device : VideoDevice}
    {driver : Driver} {buf : VideoBuf}
    (obtained : (v4l2GetFrameForStreaming answer device driver buf).iError = 0) :
    ∃ index bytesused, answer.dqbuf = some (index, bytesused) ∧
      v4l2GetFrameForStreaming answer device driver buf =
        { iError := 0
          device := { device with iVideoBufCurIndex := index }
          driver := driver.dqbuf index
          buf := frameBuf device bytesused (device.pucVideBuf index) } := by
  unfold v4l2GetFrameForStreaming at obtained ⊢
  cases polled : answer.poll with
  | false =>
      rw [polled] at obtained
      cases obtained
  | true =>
      rw [polled] at obtained
      cases dequeued : answer.dqbuf with
      | none =>
          rw [dequeued] at obtained
          cases obtained
      | some frame => exact ⟨frame.1, frame.2, rfl, rfl⟩

theorem getFrameForStreaming_failed {answer : FrameAnswer} {device : VideoDevice}
    {driver : Driver} {buf : VideoBuf}
    (failed : (v4l2GetFrameForStreaming answer device driver buf).iError ≠ 0) :
    v4l2GetFrameForStreaming answer device driver buf = ⟨-1, device, driver, buf⟩ := by
  unfold v4l2GetFrameForStreaming at failed ⊢
  cases polled : answer.poll with
  | false => rfl
  | true =>
      rw [polled] at failed
      cases dequeued : answer.dqbuf with
      | none => rfl
      | some frame =>
          rw [dequeued] at failed
          exact absurd rfl failed

/-! ### The account of the buffers -/

/-- The frame on loan is the device's current one, and so are its pixels. -/
def Lends (history : List Action) (loop : MainLoop) : Prop :=
  onLoan history = some loop.device.iVideoBufCurIndex ∧
    loop.pixels .video = loop.device.pucVideBuf loop.device.iVideoBufCurIndex

def AtPlace (history : List Action) (loop : MainLoop) : Prop :=
  match loop.place with
  | .getFrame => onLoan history = none
  | .returned => True
  | .convert | .zoom _ | .merge _ | .putFrame => Lends history loop

structure Accounted (count : Nat) (history : List Action) (loop : MainLoop) : Prop where
  table : loop.table = tV4l2VideoOpr
  operations : loop.device.ptOPr = .operations
  granted : loop.driver.granted = count
  loaned : ((onLoan history).toList ++ loop.driver.queued).Perm (List.range count)
  cells : ∀ cell < count, ∀ index, loop.device.pucVideBuf cell = .mapped index → index = cell
  convert : Own loop.tConvertBuf
  zoom : Own loop.tZoomBuf
  place : AtPlace history loop

theorem startLoop_accounted {answers : Answers} {device : VideoDevice} {result : Initialised}
    (initialised : v4l2InitDevice answers device tV4l2VideoOpr = some result)
    (streaming : answers.querycap.bind setUpMethod = some .streaming) (display : Display) :
    Accounted result.driver.granted [] (startLoop result display) := by
  obtain ⟨table, operations, _, queued, cells⟩ := v4l2InitDevice_streaming initialised streaming
  constructor
  · exact table
  · exact operations
  · rfl
  · change ([] ++ result.driver.queued).Perm _
    rw [queued, List.nil_append]
  · intro cell inRange index isMapped
    change result.device.pucVideBuf cell = .mapped index at isMapped
    by_cases isOperations : cell = nbBuffer
    · rw [isOperations] at isMapped
      exact absurd (operations.symm.trans isMapped) (fun same => nomatch same)
    · rw [cells cell inRange isOperations] at isMapped
      exact (Pointer.mapped.inj isMapped).symm
  · exact fun index same => nomatch same
  · exact fun index same => nomatch same
  · rfl

theorem Accounted.reaches {count : Nat} {history : List Action} {loop : MainLoop}
    (accounted : Accounted count history loop) {opr : VideoOpr}
    (reached : operationsOf loop.table loop.device = some opr) : opr = tV4l2VideoOpr := by
  rw [operationsOf, if_pos accounted.operations, accounted.table] at reached
  exact (Option.some.inj reached).symm

theorem Accounted.onLoan_lt {count : Nat} {history : List Action} {loop : MainLoop}
    (accounted : Accounted count history loop) {index : Nat} (isLent : onLoan history = some index) :
    index < count := by
  have loaned := accounted.loaned
  rw [isLent] at loaned
  exact List.mem_range.mp (loaned.mem_iff.mp List.mem_cons_self)

/-- The frame's own pixels are those of the buffer on loan. -/
theorem Accounted.source {count : Nat} {history : List Action} {loop : MainLoop}
    (accounted : Accounted count history loop) (lends : Lends history loop) (current : Current)
    {index : Nat} (isMapped : loop.pixels current = .mapped index) :
    onLoan history = some index := by
  cases current with
  | video =>
      rw [lends.2] at isMapped
      rw [accounted.cells _ (accounted.onLoan_lt lends.1) index isMapped]
      exact lends.1
  | convert => exact absurd isMapped (accounted.convert index)
  | zoom => exact absurd isMapped (accounted.zoom index)

theorem getFrame_accounted {count : Nat} {history : List Action} {loop : MainLoop}
    (accounted : Accounted count history loop) (display : Display)
    (atGet : loop.place = .getFrame) (answer : FrameAnswer)
    (fromQueue : ∀ index bytesused, answer.dqbuf = some (index, bytesused) →
      index ∈ loop.driver.queued) {result : FrameResult}
    (called : v4l2GetFrameForStreaming answer loop.device loop.driver loop.tVideoBuf = result)
    (obtained : result.iError = 0) :
    Accounted count (.getFrame (some result.device.iVideoBufCurIndex) :: history)
      { loop with
        device := result.device
        driver := result.driver
        tVideoBuf := result.buf
        place := display.afterFrame } := by
  rw [← called] at obtained
  obtain ⟨index, bytesused, dequeued, isResult⟩ := getFrameForStreaming_obtained obtained
  rw [← called, isResult]
  have inQueue := fromQueue index bytesused dequeued
  have noLoan : onLoan history = none := by
    have place := accounted.place
    rw [AtPlace, atGet] at place
    exact place
  constructor
  · exact accounted.table
  · exact accounted.operations
  · exact accounted.granted
  · have loaned := accounted.loaned
    rw [noLoan] at loaned
    exact (List.perm_cons_erase inQueue).symm.trans loaned
  · exact accounted.cells
  · exact accounted.convert
  · exact accounted.zoom
  · have lends : Lends (.getFrame (some index) :: history)
        { loop with
          device := { loop.device with iVideoBufCurIndex := index }
          driver := loop.driver.dqbuf index
          tVideoBuf := frameBuf loop.device bytesused (loop.device.pucVideBuf index)
          place := display.afterFrame } := ⟨rfl, rfl⟩
    by_cases differ : display.iPixelFormatOfVideo ≠ display.iPixelFormatOfDisp
    · simp only [AtPlace, Display.afterFrame, if_pos differ]
      exact lends
    · simp only [AtPlace, Display.afterFrame, if_neg differ]
      exact lends

theorem putFrame_accounted {count : Nat} {history : List Action} {loop : MainLoop}
    (accounted : Accounted count history loop) (lends : Lends history loop) (accepts : Bool)
    {iError : Int} {after : Driver}
    (called : v4l2PutFrameForStreaming accepts loop.device loop.driver = (iError, after)) :
    Accounted count (.putFrame loop.device.iVideoBufCurIndex (decide (iError = 0)) :: history)
      { loop with
        driver := after
        place := if iError = 0 then .getFrame else .returned } := by
  unfold v4l2PutFrameForStreaming at called
  have loaned := accounted.loaned
  cases queueing : loop.driver.qbuf accepts loop.device.iVideoBufCurIndex with
  | none =>
      rw [queueing] at called
      cases called
      exact ⟨accounted.table, accounted.operations, accounted.granted, loaned, accounted.cells,
        accounted.convert, accounted.zoom, trivial⟩
  | some queued =>
      rw [queueing] at called
      cases called
      obtain ⟨_, _, isQueued⟩ := qbuf_some queueing
      rw [isQueued]
      constructor
      · exact accounted.table
      · exact accounted.operations
      · exact accounted.granted
      · rw [lends.1] at loaned
        exact (List.perm_append_singleton _ _).trans loaned
      · exact accounted.cells
      · exact accounted.convert
      · exact accounted.zoom
      · rfl

theorem Accounted.lends {count : Nat} {history : List Action} {loop : MainLoop}
    (accounted : Accounted count history loop) (notGet : loop.place ≠ .getFrame)
    (notReturned : loop.place ≠ .returned) : Lends history loop := by
  have place := accounted.place
  rw [AtPlace] at place
  cases isPlace : loop.place with
  | getFrame => exact absurd isPlace notGet
  | returned => exact absurd isPlace notReturned
  | convert =>
      rw [isPlace] at place
      exact place
  | zoom current =>
      rw [isPlace] at place
      exact place
  | merge current =>
      rw [isPlace] at place
      exact place
  | putFrame =>
      rw [isPlace] at place
      exact place

theorem step_accounted {count : Nat} {history : List Action} {display : Display}
    {before after : MainLoop} {act : Action} (accounted : Accounted count history before)
    (step : Step display before act after) : Accounted count (act :: history) after := by
  have lends := accounted.lends
  cases step with
  | getFrame atGet reached answer fromQueue called obtained =>
      rw [accounted.reaches reached] at called
      exact getFrame_accounted accounted display atGet answer fromQueue called obtained
  | getFrameFails atGet reached answer called failed =>
      rw [accounted.reaches reached] at called
      change v4l2GetFrameForStreaming answer before.device before.driver before.tVideoBuf = _
        at called
      rw [← called] at failed ⊢
      rw [getFrameForStreaming_failed failed]
      exact ⟨accounted.table, accounted.operations, accounted.granted, accounted.loaned,
        accounted.cells, accounted.convert, accounted.zoom, trivial⟩
  | convert atConvert own =>
      rw [atConvert] at lends
      exact ⟨accounted.table, accounted.operations, accounted.granted, accounted.loaned,
        accounted.cells, own, accounted.zoom, lends (by decide) (by decide)⟩
  | convertFails atConvert own =>
      exact ⟨accounted.table, accounted.operations, accounted.granted, accounted.loaned,
        accounted.cells, own, accounted.zoom, trivial⟩
  | zoom atZoom tooLarge own =>
      rw [atZoom] at lends
      exact ⟨accounted.table, accounted.operations, accounted.granted, accounted.loaned,
        accounted.cells, accounted.convert, own,
        lends (fun same => nomatch same) (fun same => nomatch same)⟩
  | fits atZoom small =>
      rw [atZoom] at lends
      exact ⟨accounted.table, accounted.operations, accounted.granted, accounted.loaned,
        accounted.cells, accounted.convert, accounted.zoom,
        lends (fun same => nomatch same) (fun same => nomatch same)⟩
  | merge atMerge =>
      rw [atMerge] at lends
      exact ⟨accounted.table, accounted.operations, accounted.granted, accounted.loaned,
        accounted.cells, accounted.convert, accounted.zoom,
        lends (fun same => nomatch same) (fun same => nomatch same)⟩
  | putFrame atPut reached accepts called =>
      rw [atPut] at lends
      rw [accounted.reaches reached] at called
      exact putFrame_accounted accounted (lends (by decide) (by decide)) accepts called

/-- What a step gives back or reads is the buffer on loan. -/
theorem step_lent {count : Nat} {history : List Action} {display : Display}
    {before after : MainLoop} {act : Action} (accounted : Accounted count history before)
    (step : Step display before act after) :
    (∀ index done, act = .putFrame index done → onLoan history = some index) ∧
      ∀ index, act.reads = some (.mapped index) → onLoan history = some index := by
  have lends := accounted.lends
  cases step with
  | getFrame atGet reached answer fromQueue called obtained =>
      exact ⟨(fun _ _ same => nomatch same), fun _ same => nomatch same⟩
  | getFrameFails atGet reached answer called failed =>
      exact ⟨(fun _ _ same => nomatch same), fun _ same => nomatch same⟩
  | convert atConvert own =>
      rw [atConvert] at lends
      refine ⟨(fun _ _ same => nomatch same), fun index isMapped => ?_⟩
      exact accounted.source (lends (by decide) (by decide)) .video (Option.some.inj isMapped)
  | convertFails atConvert own =>
      rw [atConvert] at lends
      refine ⟨(fun _ _ same => nomatch same), fun index isMapped => ?_⟩
      exact accounted.source (lends (by decide) (by decide)) .video (Option.some.inj isMapped)
  | zoom atZoom tooLarge own =>
      rw [atZoom] at lends
      refine ⟨(fun _ _ same => nomatch same), fun index isMapped => ?_⟩
      exact accounted.source (lends (fun same => nomatch same) (fun same => nomatch same)) _
        (Option.some.inj isMapped)
  | fits atZoom small =>
      exact ⟨(fun _ _ same => nomatch same), fun _ same => nomatch same⟩
  | merge atMerge =>
      rw [atMerge] at lends
      refine ⟨(fun _ _ same => nomatch same), fun index isMapped => ?_⟩
      exact accounted.source (lends (fun same => nomatch same) (fun same => nomatch same)) _
        (Option.some.inj isMapped)
  | putFrame atPut reached accepts called =>
      rw [atPut] at lends
      refine ⟨fun index done same => ?_, fun _ same => nomatch same⟩
      injection same with isIndex
      rw [← isIndex]
      exact (lends (by decide) (by decide)).1

theorem runs_accounted {answers : Answers} {device : VideoDevice} {result : Initialised}
    (initialised : v4l2InitDevice answers device tV4l2VideoOpr = some result)
    (streaming : answers.querycap.bind setUpMethod = some .streaming) {display : Display}
    {history : List Action} {loop : MainLoop} (run : Runs (mainSystem result display) history loop) :
    Accounted result.driver.granted history loop := by
  apply run.invariant (Accounted result.driver.granted)
  · intro initial isInitial
    rw [isInitial]
    exact startLoop_accounted initialised streaming display
  · intro history before act after _ accounted step
    exact step_accounted accounted step

/-- In every state of the loop the queued buffers and the one on loan are all
buffers, each once; what is given back or read is the one on loan. -/
theorem buffers_accounted {answers : Answers} {device : VideoDevice} {result : Initialised}
    (initialised : v4l2InitDevice answers device tV4l2VideoOpr = some result)
    (streaming : answers.querycap.bind setUpMethod = some .streaming) {display : Display}
    {history : List Action} {loop : MainLoop} (run : Runs (mainSystem result display) history loop) :
    answers.reqbufs = some loop.driver.granted ∧
      ((onLoan history).toList ++ loop.driver.queued).Perm (List.range loop.driver.granted) ∧
      loop.driver.queued.Nodup ∧
      ∀ later act earlier, history = later ++ act :: earlier →
        (∀ index done, act = .putFrame index done → onLoan earlier = some index) ∧
        ∀ index, act.reads = some (.mapped index) → onLoan earlier = some index := by
  have accounted := runs_accounted initialised streaming run
  have isCount := (v4l2InitDevice_streaming initialised streaming).2.2.1
  rw [accounted.granted]
  refine ⟨isCount, accounted.loaned, ?_, ?_⟩
  · have distinct := accounted.loaned.nodup_iff.mpr List.nodup_range
    exact (List.nodup_append.mp distinct).2.1
  · intro later act earlier split
    rw [split] at run
    obtain ⟨middle, part⟩ := run.earlierPart
    cases part with
    | next before step => exact step_lent (runs_accounted initialised streaming before) step

theorem second_buffer_lent :
    ∃ (result : Initialised) (display : Display) (history : List Action) (loop : MainLoop),
      v4l2InitDevice (camera true false) blankDevice tV4l2VideoOpr = some result ∧
        Runs (mainSystem result display) history loop ∧
        ((onLoan history).toList ++ loop.driver.queued).Perm (List.range loop.driver.granted) ∧
        onLoan history = some 1 ∧ loop.driver.queued = [0] := by
  let answer : FrameAnswer := { poll := true, dqbuf := some (1, 614400), read := none }
  let display : Display :=
    { iPixelFormatOfVideo := pixFmtYuyv
      iPixelFormatOfDisp := pixFmtRgb565
      iLcdWidth := 480
      iLcdHeigt := 272 }
  obtain ⟨result, initialised, isDriver, isTable, isOperations⟩ :
      ∃ result, v4l2InitDevice (camera true false) blankDevice tV4l2VideoOpr = some result ∧
        result.driver = { granted := 2, queued := [0, 1] } ∧ result.table = tV4l2VideoOpr ∧
        result.device.ptOPr = .operations := ⟨_, rfl, rfl, rfl, rfl⟩
  have begun : Runs (mainSystem result display) [] (startLoop result display) := Runs.start rfl
  have reached : operationsOf result.table result.device = some tV4l2VideoOpr := by
    rw [operationsOf, if_pos isOperations, isTable]
  have fromQueue : ∀ index bytesused, answer.dqbuf = some (index, bytesused) →
      index ∈ result.driver.queued := by
    intro index bytesused dequeued
    cases dequeued
    rw [isDriver]
    decide
  have run := Runs.next begun (Step.getFrame rfl reached answer fromQueue rfl rfl)
  have account := buffers_accounted initialised rfl run
  refine ⟨result, display, _, _, initialised, run, account.2.1, rfl, ?_⟩
  change result.driver.queued.erase 1 = [0]
  rw [isDriver]
  rfl

end BuildLinux.Concrete.V4l2Buffers
