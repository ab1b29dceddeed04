/-
The wire format of package/udp/udp_protocol.h and the two receive paths that
overlay its packed header on a reused 1024-byte buffer.

A received datagram overwrites a prefix of the buffer; what lies behind it stays
from earlier datagrams, or is uninitialised.  Multi-byte fields are kept as the
bytes they occupy in memory, in network order, since both programs copy them
without conversion.
-/

import Mathlib.Data.List.Basic

namespace BuildLinux.Concrete.UdpProtocol

abbrev Byte := BitVec 8

def protoHeader1 : Byte := 0xAA#8
def protoHeader2 : Byte := 0x55#8

def msgHeartbeat : Byte := 0x01#8
def msgCmd : Byte := 0x10#8
def msgCmdAck : Byte := 0x11#8

def devId : BitVec 32 := 0x12345678#32

/-- A 16-bit field as it lies in memory, most significant byte first. -/
structure Net16 where
  high : Byte
  low : Byte
  deriving DecidableEq

structure Net32 where
  byte0 : Byte
  byte1 : Byte
  byte2 : Byte
  byte3 : Byte
  deriving DecidableEq

def htons (value : BitVec 16) : Net16 :=
  { high := value.extractLsb' 8 8, low := value.extractLsb' 0 8 }

def ntohs (field : Net16) : Nat :=
  field.high.toNat * 256 + field.low.toNat

def htonl (value : BitVec 32) : Net32 :=
  { byte0 := value.extractLsb' 24 8
    byte1 := value.extractLsb' 16 8
    byte2 := value.extractLsb' 8 8
    byte3 := value.extractLsb' 0 8 }

structure UdpHeader where
  header1 : Byte
  header2 : Byte
  version : Byte
  msgType : Byte
  devId : Net32
  seq : Net16
  length : Net16
  deriving DecidableEq

/-- `sizeof(udp_header_t)`. -/
def headerSize : Nat := 12

def UdpHeader.bytes (hdr : UdpHeader) : List Byte :=
  [hdr.header1, hdr.header2, hdr.version, hdr.msgType,
    hdr.devId.byte0, hdr.devId.byte1, hdr.devId.byte2, hdr.devId.byte3,
    hdr.seq.high, hdr.seq.low, hdr.length.high, hdr.length.low]

/-- No datagram considered here is longer than the receive buffers. -/
structure Datagram where
  bytes : List Byte
  bounded : bytes.length ≤ 1024
  deriving DecidableEq

/-- `uint8_t buf[1024]`. -/
abbrev Buffer := Fin 1024 → Byte

def recvfrom (buf : Buffer) (datagram : Datagram) : Buffer :=
  fun index => datagram.bytes[index.val]?.getD (buf index)

/-- `(udp_header_t*)buf`. -/
def overlay (buf : Buffer) : UdpHeader :=
  { header1 := buf 0
    header2 := buf 1
    version := buf 2
    msgType := buf 3
    devId := { byte0 := buf 4, byte1 := buf 5, byte2 := buf 6, byte3 := buf 7 }
    seq := { high := buf 8, low := buf 9 }
    length := { high := buf 10, low := buf 11 } }

/-- Where the bytes that a receiver tests lie in the buffer. -/
def header1At : Fin 1024 := 0

def header2At : Fin 1024 := 1

def msgTypeAt : Fin 1024 := 3

def frame (hdr : UdpHeader) (payload : Option Byte) : Datagram :=
  { bytes := hdr.bytes ++ payload.toList
    bounded := by cases payload <;> simp [UdpHeader.bytes] }

/-! ### What the two programs send -/

def heartbeat (seq : BitVec 16) : Datagram :=
  frame
    { header1 := protoHeader1
      header2 := protoHeader2
      version := 1
      msgType := msgHeartbeat
      devId := htonl devId
      seq := htons seq
      length := htons 0 } none

def command (device : Net32) : Datagram :=
  frame
    { header1 := protoHeader1
      header2 := protoHeader2
      version := 1
      msgType := msgCmd
      devId := device
      seq := htons 1
      length := htons 1 } (some 0x01#8)

def acknowledgement (seq : Net16) : Datagram :=
  frame
    { header1 := protoHeader1
      header2 := protoHeader2
      version := 1
      msgType := msgCmdAck
      devId := htonl devId
      seq := seq
      length := htons 1 } (some 0x00#8)

/-! ### The two receive paths -/

/-- One round of the server loop: the buffer afterwards and the reply, if any. -/
def serverReceive (buf : Buffer) (datagram : Datagram) : Buffer × Option Datagram :=
  let received := recvfrom buf datagram
  if datagram.bytes.length = 0 then (received, none)
  else
    let hdr := overlay received
    if hdr.header1 ≠ protoHeader1 ∨ hdr.header2 ≠ protoHeader2 then (received, none)
    else if hdr.msgType = msgHeartbeat then (received, some (command hdr.devId))
    else (received, none)

/-- The receive part of the client loop.  It tests the message type only. -/
def clientReceive (buf : Buffer) (datagram : Datagram) : Buffer × Option Datagram :=
  let received := recvfrom buf datagram
  if datagram.bytes.length = 0 then (received, none)
  else
    let rx := overlay received
    if rx.msgType = msgCmd then (received, some (acknowledgement rx.seq))
    else (received, none)

/-! ### Complete headers -/

def Datagram.header? (datagram : Datagram) : Option UdpHeader :=
  match datagram.bytes with
  | b0 :: b1 :: b2 :: b3 :: b4 :: b5 :: b6 :: b7 :: b8 :: b9 :: b10 :: b11 :: _ =>
      some
        { header1 := b0
          header2 := b1
          version := b2
          msgType := b3
          devId := { byte0 := b4, byte1 := b5, byte2 := b6, byte3 := b7 }
          seq := { high := b8, low := b9 }
          length := { high := b10, low := b11 } }
  | _ => none

@[simp] theorem heartbeat_header? (seq : BitVec 16) : (heartbeat seq).header? = some
    { header1 := protoHeader1, header2 := protoHeader2, version := 1, msgType := msgHeartbeat,
      devId := htonl devId, seq := htons seq, length := htons 0 } := rfl

@[simp] theorem command_header? (device : Net32) : (command device).header? = some
    { header1 := protoHeader1, header2 := protoHeader2, version := 1, msgType := msgCmd,
      devId := device, seq := htons 1, length := htons 1 } := rfl

@[simp] theorem acknowledgement_header? (seq : Net16) : (acknowledgement seq).header? = some
    { header1 := protoHeader1, header2 := protoHeader2, version := 1, msgType := msgCmdAck,
      devId := htonl devId, seq := seq, length := htons 1 } := rfl

/-- A complete header is read back whole, whatever the buffer held before. -/
theorem overlay_recvfrom (buf : Buffer) (datagram : Datagram) (hdr : UdpHeader)
    (complete : datagram.header? = some hdr) : overlay (recvfrom buf datagram) = hdr := by
  rcases datagram with ⟨bytes, bounded⟩
  unfold Datagram.header? at complete
  split at complete
  · rename_i same
    change bytes = _ at same
    subst same
    exact Option.some.inj complete
  · cases complete

theorem header?_nonempty (datagram : Datagram) (hdr : UdpHeader)
    (complete : datagram.header? = some hdr) : datagram.bytes.length ≠ 0 := by
  intro empty
  have noBytes : datagram.bytes = [] := List.eq_nil_of_length_eq_zero empty
  unfold Datagram.header? at complete
  rw [noBytes] at complete
  cases complete

theorem serverReceive_complete (buf : Buffer) (datagram : Datagram) (hdr : UdpHeader)
    (complete : datagram.header? = some hdr) :
    (serverReceive buf datagram).2 =
      if (hdr.header1 = protoHeader1 ∧ hdr.header2 = protoHeader2) ∧
        hdr.msgType = msgHeartbeat then some (command hdr.devId) else none := by
  simp only [serverReceive, if_neg (header?_nonempty datagram hdr complete),
    overlay_recvfrom buf datagram hdr complete]
  by_cases marked : hdr.header1 = protoHeader1 ∧ hdr.header2 = protoHeader2
  · have accepted : ¬(hdr.header1 ≠ protoHeader1 ∨ hdr.header2 ≠ protoHeader2) := by
      rintro (wrong | wrong)
      · exact wrong marked.1
      · exact wrong marked.2
    rw [if_neg accepted]
    by_cases isHeartbeat : hdr.msgType = msgHeartbeat
    · rw [if_pos isHeartbeat, if_pos ⟨marked, isHeartbeat⟩]
    · rw [if_neg isHeartbeat, if_neg (fun both => isHeartbeat both.2)]
  · have rejected : hdr.header1 ≠ protoHeader1 ∨ hdr.header2 ≠ protoHeader2 :=
      Classical.not_and_iff_not_or_not.mp marked
    rw [if_pos rejected, if_neg (fun both => marked both.1)]

theorem clientReceive_complete (buf : Buffer) (datagram : Datagram) (hdr : UdpHeader)
    (complete : datagram.header? = some hdr) :
    (clientReceive buf datagram).2 =
      if hdr.msgType = msgCmd then some (acknowledgement hdr.seq) else none := by
  simp only [clientReceive, if_neg (header?_nonempty datagram hdr complete),
    overlay_recvfrom buf datagram hdr complete]
  split <;> rfl

end BuildLinux.Concrete.UdpProtocol
