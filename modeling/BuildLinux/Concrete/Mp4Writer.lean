/-
The MP4 writer of package/ffmpeg/video_save.c.

The encoder is any coder that obeys the send and receive contract on the pts of
the frames.  Each call of the writer sends one frame and, if the encoder took
it, writes every packet that comes back; the close sends a NULL frame and
writes the trailer.
-/

import BuildLinux.SendReceive
import Mathlib.Data.List.Induction

namespace BuildLinux.Concrete.Mp4Writer

open SendReceive

structure AVRational where
  num : Int
  den : Int
  deriving DecidableEq, Repr

/-- `av_rescale_q`: to the nearest, halfway cases away from zero. -/
def avRescaleQ (value : Int) (source target : AVRational) : Int :=
  let b := source.num * target.den
  let c := target.num * source.den
  if 0 ≤ value then (value * b + c / 2) / c else -((-value * b + c / 2) / c)

structure Packet where
  pts : Int
  stream_index : Int
  deriving DecidableEq, Repr

inductive FileEntry where
  | header
  | packet (packet : Packet)
  | trailer
  deriving DecidableEq, Repr

structure AVStream where
  index : Int
  time_base : AVRational
  duration : Int
  deriving DecidableEq, Repr

structure CodecContext (state : Type) where
  encoder : state
  time_base : AVRational

/-- `MP4WriterRealtime`; `fmt_ctx` is what has been written to the file. -/
structure MP4WriterRealtime (state : Type) where
  codec_ctx : CodecContext state
  fmt_ctx : List FileEntry
  stream : AVStream
  width : Int
  height : Int
  fps : Int
  pts : Int

/-- The calls of the initialisation that can fail, and the time base that the
muxer puts in the place of the one asked for. -/
structure Setup where
  findEncoder : Bool
  openCodec : Bool
  allocOutput : Bool
  openFile : Bool
  streamTimeBase : AVRational → AVRational

variable {state : Type} (encoder : Coder state Int)

def mp4WriterRealtimeInit (setup : Setup) (width height fps : Int) :
    Int × Option (MP4WriterRealtime state) :=
  if !setup.findEncoder then (-1, none)
  else if !setup.openCodec then (-1, none)
  else if !setup.allocOutput then (-1, none)
  else if !setup.openFile then (-1, none)
  else
    (0, some
      { codec_ctx := { encoder := encoder.opened, time_base := ⟨1, fps⟩ }
        fmt_ctx := [.header]
        stream := { index := 0, time_base := setup.streamTimeBase ⟨1, fps⟩, duration := 0 }
        width := width
        height := height
        fps := fps
        pts := 0 })

def packetOf (source target : AVRational) (index : Int) (pts : Int) : Packet where
  pts := avRescaleQ pts source target
  stream_index := index

def MP4WriterRealtime.packetOf (w : MP4WriterRealtime state) (pts : Int) : Packet :=
  Mp4Writer.packetOf w.codec_ctx.time_base w.stream.time_base w.stream.index pts

def MP4WriterRealtime.write (w : MP4WriterRealtime state) (entries : List FileEntry) (pts : Int) :
    List FileEntry :=
  entries ++ [.packet (w.packetOf pts)]

/-- One frame; none where `w->pts++` would exceed `INT_MAX`, which C leaves undefined. -/
def mp4WriterRealtimeWriteFrame (w : MP4WriterRealtime state) :
    Option (Int × MP4WriterRealtime state) :=
  if w.pts = 2147483647 then none
  else
    let sent := encoder.send w.codec_ctx.encoder w.pts
    if sent.2 then
      let drained := drainInto encoder w.write sent.1 w.fmt_ctx
      some (0,
        { w with
          pts := w.pts + 1
          codec_ctx := { w.codec_ctx with encoder := drained.1 }
          fmt_ctx := drained.2 })
    else
      some (-1,
        { w with
          pts := w.pts + 1
          codec_ctx := { w.codec_ctx with encoder := sent.1 } })

def mp4WriterRealtimeClose (w : MP4WriterRealtime state) : Int × MP4WriterRealtime state :=
  (0,
    { w with
      codec_ctx := { w.codec_ctx with encoder := encoder.flush w.codec_ctx.encoder }
      stream := { w.stream with duration := w.pts }
      fmt_ctx := w.fmt_ctx ++ [.trailer] })

/-- What the calls return, first call first, and the writer after them. -/
def writeFrames (w : MP4WriterRealtime state) : Nat → Option (List Int × MP4WriterRealtime state)
  | 0 => some ([], w)
  | count + 1 =>
      match writeFrames w count with
      | none => none
      | some (codes, before) =>
          match mp4WriterRealtimeWriteFrame encoder before with
          | none => none
          | some (code, after) => some (codes ++ [code], after)

/-! ### What the file should hold -/

/-- The pts of the frames whose calls returned zero. -/
def acceptedPts (codes : List Int) : List Int :=
  (codes.zipIdx.filter fun call => call.1 == 0).map fun call => (call.2 : Int)

def asPacket : FileEntry → Option Packet
  | .packet packet => some packet
  | _ => none

def packetsBeforeTrailer (entries : List FileEntry) : List Packet :=
  (entries.takeWhile fun entry => !(entry == .trailer)).filterMap asPacket

/-- One packet for each accepted frame, in increasing order of their pts. -/
def LosesNoFrame (codes : List Int) (closed : MP4WriterRealtime state) : Prop :=
  (acceptedPts codes).Pairwise (· < ·) ∧
    packetsBeforeTrailer closed.fmt_ctx = (acceptedPts codes).map closed.packetOf

theorem acceptedPts_snoc (codes : List Int) (code : Int) :
    acceptedPts (codes ++ [code]) =
      acceptedPts codes ++ if code = 0 then [(codes.length : Int)] else [] := by
  unfold acceptedPts
  rw [List.zipIdx_append, List.filter_append, List.map_append]
  by_cases accepted : code = 0
  · rw [if_pos accepted, accepted, Nat.zero_add]
    rfl
  · rw [if_neg accepted]
    change _ ++ List.map _ (List.filter _ [(code, 0 + codes.length)]) = _
    rw [List.filter_cons_of_neg (by simpa using accepted)]
    rfl

theorem acceptedPts_below (codes : List Int) :
    ∀ pts ∈ acceptedPts codes, pts < codes.length := by
  induction codes using List.reverseRecOn with
  | nil => nofun
  | append_singleton codes code ih =>
      intro pts member
      rw [List.length_append, List.length_singleton]
      rw [acceptedPts_snoc] at member
      rcases List.mem_append.mp member with earlier | isLast
      · have below := ih pts earlier
        omega
      · by_cases accepted : code = 0
        · rw [if_pos accepted] at isLast
          rw [List.mem_singleton.mp isLast]
          omega
        · rw [if_neg accepted] at isLast
          cases isLast

theorem acceptedPts_increasing (codes : List Int) : (acceptedPts codes).Pairwise (· < ·) := by
  induction codes using List.reverseRecOn with
  | nil => exact List.Pairwise.nil
  | append_singleton codes code ih =>
      rw [acceptedPts_snoc, List.pairwise_append]
      refine ⟨ih, ?_, ?_⟩
      · by_cases accepted : code = 0
        · rw [if_pos accepted]
          exact List.pairwise_singleton _ _
        · rw [if_neg accepted]
          exact List.Pairwise.nil
      · intro earlier member later isLast
        by_cases accepted : code = 0
        · rw [if_pos accepted] at isLast
          rw [List.mem_singleton.mp isLast]
          exact acceptedPts_below codes earlier member
        · rw [if_neg accepted] at isLast
          cases isLast

/-! ### Frames sent, held and written -/

/-- The entries of a file that holds the packets of the given pts. -/
def recorded (w : MP4WriterRealtime state) (pts : List Int) : List FileEntry :=
  .header :: pts.map fun each => .packet (w.packetOf each)

theorem foldl_write (w : MP4WriterRealtime state) (entries : List FileEntry) (pts : List Int) :
    pts.foldl w.write entries = entries ++ pts.map fun each => .packet (w.packetOf each) := by
  induction pts generalizing entries with
  | nil => exact (List.append_nil entries).symm
  | cons first rest ih =>
      rw [List.foldl_cons, ih, List.map_cons]
      exact List.append_assoc entries _ _

theorem packets_recorded (w : MP4WriterRealtime state) (pts : List Int) :
    packetsBeforeTrailer (recorded w pts ++ [.trailer]) = pts.map w.packetOf := by
  have before : ∀ rest : List Int, packetsBeforeTrailer
      ((rest.map fun each => .packet (w.packetOf each)) ++ [.trailer]) = rest.map w.packetOf := by
    intro rest
    induction rest with
    | nil => rfl
    | cons first others ih => exact congrArg (w.packetOf first :: ·) ih
  exact before pts

/-- What was accepted is in the file or still held by the encoder. -/
structure Accounted (start : MP4WriterRealtime state) (codes : List Int)
    (w : MP4WriterRealtime state) (written : List Int) : Prop where
  calls : w.pts = codes.length
  sameClock : w.packetOf = start.packetOf
  file : w.fmt_ctx = recorded start written
  accepted : acceptedPts codes = written ++ encoder.held w.codec_ctx.encoder

theorem init_accounted {setup : Setup} {width height fps : Int} {w : MP4WriterRealtime state}
    (started : mp4WriterRealtimeInit encoder setup width height fps = (0, some w)) :
    Accounted encoder w [] w [] := by
  unfold mp4WriterRealtimeInit at started
  split at started
  · cases started
  · split at started
    · cases started
    · split at started
      · cases started
      · split at started
        · cases started
        · cases started
          exact
            { calls := rfl
              sameClock := rfl
              file := rfl
              accepted := (encoder.opened_held).symm }

/-- One call: the frame is rejected, or accepted and a first part of what the
encoder then holds goes to the file. -/
theorem writeFrame_cases {before after : MP4WriterRealtime state} {code : Int}
    (ordered : (encoder.held before.codec_ctx.encoder ++ [before.pts]).Pairwise (· < ·))
    (called : mp4WriterRealtimeWriteFrame encoder before = some (code, after)) :
    before.pts ≠ 2147483647 ∧ after.pts = before.pts + 1 ∧ after.packetOf = before.packetOf ∧
      ((code = -1 ∧ after.fmt_ctx = before.fmt_ctx ∧
          encoder.held after.codec_ctx.encoder = encoder.held before.codec_ctx.encoder) ∨
        code = 0 ∧ ∃ items,
          encoder.held before.codec_ctx.encoder ++ [before.pts] =
            items ++ encoder.held after.codec_ctx.encoder ∧
          after.fmt_ctx =
            before.fmt_ctx ++ items.map fun each => .packet (before.packetOf each)) := by
  unfold mp4WriterRealtimeWriteFrame at called
  obtain ⟨defined, result⟩ := Option.ite_none_left_eq_some.mp called
  by_cases accepted : (encoder.send before.codec_ctx.encoder before.pts).2 = true
  · have holds := encoder.send_accepted _ _ accepted
    rw [← holds] at ordered
    obtain ⟨items, split, handled, _⟩ :=
      drainInto_spec encoder before.write _ before.fmt_ctx ordered
    rw [foldl_write] at handled
    rw [if_pos accepted] at result
    cases result
    exact ⟨defined, rfl, rfl, Or.inr ⟨rfl, items, holds.symm.trans split, handled⟩⟩
  · have holds := encoder.send_rejected _ _ (Bool.eq_false_iff.mpr accepted)
    rw [if_neg accepted] at result
    cases result
    exact ⟨defined, rfl, rfl, Or.inl ⟨rfl, rfl, holds⟩⟩

theorem writeFrame_accounted {start before after : MP4WriterRealtime state} {codes : List Int}
    {code : Int} {written : List Int} (accounted : Accounted encoder start codes before written)
    (called : mp4WriterRealtimeWriteFrame encoder before = some (code, after)) :
    ∃ written, Accounted encoder start (codes ++ [code]) after written := by
  obtain ⟨calls, sameClock, file, accepted⟩ := accounted
  have next := acceptedPts_increasing (codes ++ [0])
  rw [acceptedPts_snoc, if_pos rfl, accepted, List.append_assoc, ← calls] at next
  obtain ⟨_, counted, clock, outcome⟩ :=
    writeFrame_cases encoder (List.pairwise_append.mp next).2.1 called
  have length : after.pts = ((codes ++ [code]).length : Nat) := by
    rw [counted, calls, List.length_append]
    rfl
  rcases outcome with ⟨rejected, sameFile, sameHeld⟩ | ⟨isZero, items, split, wrote⟩
  · refine ⟨written, length, clock.trans sameClock, sameFile.trans file, ?_⟩
    rw [acceptedPts_snoc, rejected, if_neg (by decide), List.append_nil, accepted, sameHeld]
  · refine ⟨written ++ items, length, clock.trans sameClock, ?_, ?_⟩
    · rw [wrote, file, sameClock]
      unfold recorded
      rw [List.map_append, List.cons_append]
    · rw [acceptedPts_snoc, if_pos isZero, accepted, ← calls, List.append_assoc, split,
        List.append_assoc]

theorem writeFrames_succ {start before : MP4WriterRealtime state} {codes : List Int} {count : Nat}
    (earlier : writeFrames encoder start count = some (codes, before)) :
    writeFrames encoder start (count + 1) =
      (mp4WriterRealtimeWriteFrame encoder before).map fun call => (codes ++ [call.1], call.2) := by
  rw [writeFrames, earlier]
  cases called : mp4WriterRealtimeWriteFrame encoder before with
  | none =>
      change (match mp4WriterRealtimeWriteFrame encoder before with
        | none => none
        | some (code, after) => some (codes ++ [code], after)) = none
      rw [called]
  | some call =>
      change (match mp4WriterRealtimeWriteFrame encoder before with
        | none => none
        | some (code, after) => some (codes ++ [code], after)) = some (codes ++ [call.1], call.2)
      rw [called]

theorem writeFrames_accounted {start w : MP4WriterRealtime state} {codes : List Int}
    (begins : Accounted encoder start [] start []) {count : Nat}
    (run : writeFrames encoder start count = some (codes, w)) :
    codes.length = count ∧ ∃ written, Accounted encoder start codes w written := by
  induction count generalizing codes w with
  | zero =>
      cases run
      exact ⟨rfl, [], begins⟩
  | succ count ih =>
      unfold writeFrames at run
      split at run
      · cases run
      · next codes before earlier =>
          split at run
          · cases run
          · next code after called =>
              cases run
              obtain ⟨length, written, accounted⟩ := ih earlier
              refine ⟨?_, writeFrame_accounted encoder accounted called⟩
              rw [List.length_append, length]
              rfl

theorem writeFrame_defined {before : MP4WriterRealtime state} (below : before.pts ≠ 2147483647) :
    ∃ result, mp4WriterRealtimeWriteFrame encoder before = some result := by
  unfold mp4WriterRealtimeWriteFrame
  rw [if_neg below]
  by_cases accepted : (encoder.send before.codec_ctx.encoder before.pts).2 = true
  · rw [if_pos accepted]
    exact ⟨_, rfl⟩
  · rw [if_neg accepted]
    exact ⟨_, rfl⟩

theorem writeFrames_defined {start : MP4WriterRealtime state}
    (begins : Accounted encoder start [] start []) (count : Nat) :
    (∃ result, writeFrames encoder start count = some result) ↔ count < 2147483648 := by
  induction count with
  | zero => exact ⟨fun _ => by decide, fun _ => ⟨_, rfl⟩⟩
  | succ count ih =>
      cases earlier : writeFrames encoder start count with
      | none =>
          have late : ¬count < 2147483648 := by
            intro early
            obtain ⟨result, isResult⟩ := ih.mpr early
            cases earlier.symm.trans isResult
          constructor
          · rintro ⟨result, isResult⟩
            unfold writeFrames at isResult
            rw [earlier] at isResult
            cases isResult
          · intro early
            exact absurd (Nat.lt_of_succ_lt early) late
      | some result =>
          obtain ⟨codes, before⟩ := result
          have early := ih.mp ⟨_, earlier⟩
          obtain ⟨length, written, accounted⟩ := writeFrames_accounted encoder begins earlier
          have calls := accounted.calls
          by_cases last : before.pts = 2147483647
          · have overflows : mp4WriterRealtimeWriteFrame encoder before = none := if_pos last
            constructor
            · rintro ⟨result, isResult⟩
              rw [writeFrames_succ encoder earlier, overflows] at isResult
              cases isResult
            · intro early
              omega
          · obtain ⟨call, called⟩ := writeFrame_defined encoder last
            refine ⟨fun _ => by omega, fun _ => ⟨(codes ++ [call.1], call.2), ?_⟩⟩
            rw [writeFrames_succ encoder earlier, called]
            rfl

/-! ### The close -/

theorem close_written {start w : MP4WriterRealtime state} {codes : List Int} {written : List Int}
    (accounted : Accounted encoder start codes w written) :
    packetsBeforeTrailer (mp4WriterRealtimeClose encoder w).2.fmt_ctx =
      written.map start.packetOf := by
  change packetsBeforeTrailer (w.fmt_ctx ++ [.trailer]) = _
  rw [accounted.file]
  exact packets_recorded start written

/-- Receiving packets after the NULL frame would write every frame that is missing. -/
theorem drain_after_null {start w : MP4WriterRealtime state} {codes : List Int} {written : List Int}
    (accounted : Accounted encoder start codes w written) :
    (drainInto encoder w.write (encoder.flush w.codec_ctx.encoder) w.fmt_ctx).2 =
      recorded start (acceptedPts codes) := by
  have increasing := acceptedPts_increasing codes
  rw [accounted.accepted] at increasing
  rw [drainInto_flush encoder w.write _ _ (List.pairwise_append.mp increasing).2.1, foldl_write,
    accounted.file, accounted.sameClock, accounted.accepted]
  unfold recorded
  rw [List.map_append, List.cons_append]

/-- No frame is lost exactly if the encoder holds none when the writer is closed. -/
theorem no_frame_lost_iff {setup : Setup} {width height fps : Int}
    {start : MP4WriterRealtime state}
    (started : mp4WriterRealtimeInit encoder setup width height fps = (0, some start))
    (count : Nat) :
    (∃ codes before, writeFrames encoder start count = some (codes, before) ∧
        LosesNoFrame codes (mp4WriterRealtimeClose encoder before).2) ↔
      count < 2147483648 ∧ ∀ codes before, writeFrames encoder start count = some (codes, before) →
        encoder.held before.codec_ctx.encoder = [] := by
  have begins := init_accounted encoder started
  have defined := writeFrames_defined encoder begins count
  constructor
  · rintro ⟨codes, before, run, _, complete⟩
    refine ⟨defined.mp ⟨_, run⟩, fun otherCodes other otherRun => ?_⟩
    cases run.symm.trans otherRun
    obtain ⟨_, written, accounted⟩ := writeFrames_accounted encoder begins run
    rw [close_written encoder accounted] at complete
    have lengths := congrArg List.length complete
    rw [List.length_map, List.length_map, accounted.accepted, List.length_append] at lengths
    exact List.length_eq_zero_iff.mp (Nat.left_eq_add.mp lengths)
  · rintro ⟨early, empty⟩
    obtain ⟨⟨codes, before⟩, run⟩ := defined.mpr early
    refine ⟨codes, before, run, acceptedPts_increasing codes, ?_⟩
    obtain ⟨_, written, accounted⟩ := writeFrames_accounted encoder begins run
    have clock : (mp4WriterRealtimeClose encoder before).2.packetOf = start.packetOf :=
      accounted.sameClock
    rw [close_written encoder accounted, clock, accounted.accepted, empty codes before run,
      List.append_nil]

/-- An encoder that returns each frame at once, or one that looks ahead over any number of frames
and returns nothing before the flush. -/
def coder (ahead : Bool) : Coder (List Int × Bool) Int where
  opened := ([], false)
  send before pts := if before.2 then (before, false) else ((before.1 ++ [pts], false), true)
  flush before := (before.1, true)
  receive before :=
    if (before.2 || !ahead) = true then
      match before.1.min? with
      | none => (before, none)
      | some least => ((before.1.erase least, before.2), some least)
    else (before, none)
  held before := before.1
  flushed before := before.2 = true
  opened_held := rfl
  send_accepted before pts accepted := by
    by_cases ended : before.2 = true
    · rw [if_pos ended] at accepted
      cases accepted
    · rw [if_neg ended]
  send_rejected before pts rejected := by
    by_cases ended : before.2 = true
    · rw [if_pos ended]
    · rw [if_neg ended] at rejected
      cases rejected
  flush_held before := rfl
  flush_flushed before := rfl
  receive_none before stopped := by
    by_cases ended : (before.2 || !ahead) = true
    · rw [if_pos ended] at stopped ⊢
      cases least : before.1.min? with
      | none => rfl
      | some least =>
          rw [least] at stopped
          cases stopped
    · rw [if_neg ended]
  receive_some before least received := by
    by_cases ended : (before.2 || !ahead) = true
    · rw [if_pos ended] at received ⊢
      cases found : before.1.min? with
      | none =>
          rw [found] at received
          cases received
      | some other =>
          rw [found] at received
          cases received
          obtain ⟨member, below⟩ := List.min?_eq_some_iff.mp found
          obtain ⟨front, back, _, holds, rest⟩ := List.exists_erase_eq member
          have isLeast := fun other inHeld => Int.not_lt.mpr (below other inHeld)
          exact ⟨isLeast, front, back, holds, rest⟩
    · rw [if_neg ended] at received
      cases received
  receive_flushed before ended := by
    rw [if_pos (Bool.or_eq_true_iff.mpr (Or.inl ended))]
    cases least : before.1.min? with
    | none => exact ended
    | some least => exact ended
  flushed_none before ended stopped := by
    rw [if_pos (Bool.or_eq_true_iff.mpr (Or.inl ended))] at stopped
    cases least : before.1.min? with
    | none => exact List.min?_eq_none_iff.mp least
    | some least =>
        rw [least] at stopped
        cases stopped

def lookahead : Coder (List Int × Bool) Int := coder true

def immediate : Coder (List Int × Bool) Int := coder false

def allSucceed : Setup where
  findEncoder := true
  openCodec := true
  allocOutput := true
  openFile := true
  streamTimeBase _ := ⟨1, 12800⟩

def startedWriter : MP4WriterRealtime (List Int × Bool) where
  codec_ctx := { encoder := ([], false), time_base := ⟨1, 25⟩ }
  fmt_ctx := [.header]
  stream := { index := 0, time_base := ⟨1, 12800⟩, duration := 0 }
  width := 360
  height := 240
  fps := 25
  pts := 0

def oneFrame : MP4WriterRealtime (List Int × Bool) :=
  { startedWriter with
    codec_ctx := { encoder := ([0], false), time_base := ⟨1, 25⟩ }
    pts := 1 }

theorem started_writer {ahead : Bool} :
    mp4WriterRealtimeInit (coder ahead) allSucceed 360 240 25 = (0, some startedWriter) := rfl

theorem one_frame_written {encoder : Coder (List Int × Bool) Int} {sent left : List Int × Bool}
    {entries : List FileEntry} (accepted : encoder.send ([], false) 0 = (sent, true))
    (drained : drainInto encoder startedWriter.write sent [.header] = (left, entries)) :
    writeFrames encoder startedWriter 1 = some ([0],
      { startedWriter with
        codec_ctx := { encoder := left, time_base := ⟨1, 25⟩ }
        fmt_ctx := entries
        pts := 1 }) := by
  have written : mp4WriterRealtimeWriteFrame encoder startedWriter = some (0,
      { startedWriter with
        codec_ctx := { encoder := left, time_base := ⟨1, 25⟩ }
        fmt_ctx := entries
        pts := 1 }) := by
    unfold mp4WriterRealtimeWriteFrame
    rw [if_neg (show startedWriter.pts ≠ 2147483647 by decide)]
    have sends : encoder.send startedWriter.codec_ctx.encoder startedWriter.pts = (sent, true) :=
      accepted
    have drains : drainInto encoder startedWriter.write sent startedWriter.fmt_ctx =
        (left, entries) := drained
    dsimp only
    rw [sends, if_pos rfl, drains]
    rfl
  have noFrame : writeFrames encoder startedWriter 0 = some ([], startedWriter) := rfl
  rw [writeFrames_succ encoder noFrame, written]
  rfl

theorem one_frame : writeFrames lookahead startedWriter 1 = some ([0], oneFrame) :=
  one_frame_written rfl (drainInto_none lookahead startedWriter.write rfl [.header])

theorem one_frame_returned : writeFrames immediate startedWriter 1 = some ([0],
    { startedWriter with
      fmt_ctx := [.header, .packet (startedWriter.packetOf 0)]
      pts := 1 }) := by
  have received : immediate.receive ([0], false) = (([], false), some 0) := rfl
  have drained : drainInto immediate startedWriter.write ([0], false) [.header] =
      (([], false), [.header, .packet (startedWriter.packetOf 0)]) := by
    rw [drainInto_some immediate startedWriter.write received]
    exact drainInto_none immediate startedWriter.write rfl _
  exact one_frame_written rfl drained

/-- The encoder that returns a frame at once loses none, the one that looks ahead does. -/
theorem lookahead_closes :
    (∃ codes before, writeFrames immediate startedWriter 1 = some (codes, before) ∧
        LosesNoFrame codes (mp4WriterRealtimeClose immediate before).2) ∧
      ¬∃ codes before, writeFrames lookahead startedWriter 1 = some (codes, before) ∧
        LosesNoFrame codes (mp4WriterRealtimeClose lookahead before).2 := by
  constructor
  · refine (no_frame_lost_iff immediate started_writer 1).mpr ⟨by decide, ?_⟩
    intro codes before run
    cases one_frame_returned.symm.trans run
    rfl
  · intro kept
    obtain ⟨_, empty⟩ := (no_frame_lost_iff lookahead started_writer 1).mp kept
    exact absurd (empty [0] oneFrame one_frame) (List.cons_ne_nil _ _)

/-- The one frame was accepted, and the closed file has no packet. -/
theorem single_frame_lost :
    mp4WriterRealtimeInit lookahead allSucceed 360 240 25 = (0, some startedWriter) ∧
      writeFrames lookahead startedWriter 1 = some ([0], oneFrame) ∧
      packetsBeforeTrailer (mp4WriterRealtimeClose lookahead oneFrame).2.fmt_ctx = [] ∧
      ¬LosesNoFrame [0] (mp4WriterRealtimeClose lookahead oneFrame).2 := by
  refine ⟨started_writer, one_frame, rfl, ?_⟩
  rintro ⟨_, complete⟩
  cases complete

end BuildLinux.Concrete.Mp4Writer
