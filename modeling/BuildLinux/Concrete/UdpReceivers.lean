/-
What a receiver of package/udp answers after an arbitrary receive history.

The buffer survives from one datagram to the next and the received length is
compared with zero only, so a short datagram is read together with stale bytes.
The exact class of datagrams on which an endpoint's reply depends on the
datagram alone, and is given to complete frames only, is determined here.
-/

import BuildLinux.Concrete.UdpProtocol

namespace BuildLinux.Concrete.UdpReceivers

open UdpProtocol

inductive Endpoint where
  | server
  | client
  deriving DecidableEq

def Endpoint.receive : Endpoint → Buffer → Datagram → Buffer × Option Datagram
  | .server => serverReceive
  | .client => clientReceive

def bufferAfter (endpoint : Endpoint) (initial : Buffer) (history : List Datagram) : Buffer :=
  history.foldl (fun buf datagram => (endpoint.receive buf datagram).1) initial

def replyAfter (endpoint : Endpoint) (initial : Buffer) (history : List Datagram)
    (datagram : Datagram) : Option Datagram :=
  (endpoint.receive (bufferAfter endpoint initial history) datagram).2

def ForgetsHistory (endpoint : Endpoint) (datagram : Datagram) : Prop :=
  ∀ (left right : Buffer) (leftHistory rightHistory : List Datagram),
    replyAfter endpoint left leftHistory datagram =
      replyAfter endpoint right rightHistory datagram

/-- Begins with AA 55, carries the payload it announces, and one byte at least
when it is a command. -/
def WellFormed (datagram : Datagram) : Prop :=
  ∃ hdr, datagram.header? = some hdr ∧
    hdr.header1 = protoHeader1 ∧ hdr.header2 = protoHeader2 ∧
    headerSize + ntohs hdr.length ≤ datagram.bytes.length ∧
    (hdr.msgType = msgCmd → headerSize + 1 ≤ datagram.bytes.length)

def AnswersFramesOnly (endpoint : Endpoint) (datagram : Datagram) : Prop :=
  ∀ (initial : Buffer) (history : List Datagram) (reply : Datagram),
    replyAfter endpoint initial history datagram = some reply → WellFormed datagram

/-- The buffer positions an endpoint tests, with the values it wants there. -/
def Endpoint.tests : Endpoint → List (Fin 1024 × Byte)
  | .server =>
      [(header1At, protoHeader1), (header2At, protoHeader2), (msgTypeAt, msgHeartbeat)]
  | .client => [(msgTypeAt, msgCmd)]

/-- Some tested byte is inside the datagram and has another value. -/
def Refused (endpoint : Endpoint) (datagram : Datagram) : Prop :=
  ∃ test ∈ endpoint.tests, ∃ byte,
    datagram.bytes[test.1.val]? = some byte ∧ byte ≠ test.2

theorem receive_some_iff (endpoint : Endpoint) (buf : Buffer) (datagram : Datagram) :
    (∃ reply, (endpoint.receive buf datagram).2 = some reply) ↔
      datagram.bytes.length ≠ 0 ∧
        ∀ test ∈ endpoint.tests, recvfrom buf datagram test.1 = test.2 := by
  cases endpoint with
  | server =>
      simp only [Endpoint.receive, Endpoint.tests, serverReceive, overlay, header1At, header2At,
        msgTypeAt, List.mem_cons, List.not_mem_nil, or_false, forall_eq_or_imp, forall_eq]
      by_cases empty : datagram.bytes.length = 0
      · simp [empty]
      · by_cases first : recvfrom buf datagram 0 = protoHeader1 <;>
          by_cases second : recvfrom buf datagram 1 = protoHeader2 <;>
          by_cases kind : recvfrom buf datagram 3 = msgHeartbeat <;>
          simp [empty, first, second, kind]
  | client =>
      simp only [Endpoint.receive, Endpoint.tests, clientReceive, overlay, msgTypeAt,
        List.mem_cons, List.not_mem_nil, or_false, forall_eq]
      by_cases empty : datagram.bytes.length = 0
      · simp [empty]
      · by_cases kind : recvfrom buf datagram 3 = msgCmd <;> simp [empty, kind]

theorem refused_silent (endpoint : Endpoint) (buf : Buffer) (datagram : Datagram)
    (refused : Refused endpoint datagram) : (endpoint.receive buf datagram).2 = none := by
  obtain ⟨test, member, byte, present, different⟩ := refused
  cases answer : (endpoint.receive buf datagram).2 with
  | none => rfl
  | some reply =>
      have passed := ((receive_some_iff endpoint buf datagram).mp ⟨reply, answer⟩).2 test member
      rw [recvfrom, present, Option.getD_some] at passed
      exact False.elim (different passed)

theorem empty_silent (endpoint : Endpoint) (buf : Buffer) (datagram : Datagram)
    (empty : datagram.bytes = []) : (endpoint.receive buf datagram).2 = none := by
  cases answer : (endpoint.receive buf datagram).2 with
  | none => rfl
  | some reply =>
      have nonempty := ((receive_some_iff endpoint buf datagram).mp ⟨reply, answer⟩).1
      rw [empty] at nonempty
      exact False.elim (nonempty rfl)

theorem complete_forgets (endpoint : Endpoint) (datagram : Datagram) (hdr : UdpHeader)
    (complete : datagram.header? = some hdr) : ForgetsHistory endpoint datagram := by
  intro left right leftHistory rightHistory
  unfold replyAfter
  cases endpoint with
  | server =>
      simp only [Endpoint.receive, serverReceive_complete _ datagram hdr complete]
  | client =>
      simp only [Endpoint.receive, clientReceive_complete _ datagram hdr complete]

/-- A stale buffer that supplies every tested byte the datagram lacks. -/
def expected (endpoint : Endpoint) : Buffer :=
  fun index => ((endpoint.tests.find? (fun test => test.1 = index)).map Prod.snd).getD 0

theorem expected_tests (endpoint : Endpoint) :
    ∀ test ∈ endpoint.tests, expected endpoint test.1 = test.2 := by
  have each : (endpoint.tests.all fun test => expected endpoint test.1 == test.2) = true := by
    cases endpoint with
    | server => decide
    | client => decide
  intro test member
  exact beq_iff_eq.mp (List.all_eq_true.mp each test member)

theorem answered_of_not_refused (endpoint : Endpoint) (datagram : Datagram)
    (nonempty : datagram.bytes ≠ []) (accepted : ¬Refused endpoint datagram) :
    ∃ reply, replyAfter endpoint (expected endpoint) [] datagram = some reply := by
  apply (receive_some_iff endpoint (expected endpoint) datagram).mpr
  constructor
  · exact fun empty => nonempty (List.eq_nil_of_length_eq_zero empty)
  · intro test member
    cases present : datagram.bytes[test.1.val]? with
    | none =>
        rw [recvfrom, present, Option.getD_none]
        exact expected_tests endpoint test member
    | some byte =>
        rw [recvfrom, present, Option.getD_some]
        by_contra different
        exact accepted ⟨test, member, byte, present, different⟩

/-- An endpoint answers a datagram from its own bytes, and only as a complete
frame, exactly when the datagram is empty, or is a complete frame, or itself
contains a byte that the endpoint's tests reject. -/
theorem reply_sound_iff (endpoint : Endpoint) (datagram : Datagram) :
    (ForgetsHistory endpoint datagram ∧ AnswersFramesOnly endpoint datagram) ↔
      (datagram.bytes = [] ∨ WellFormed datagram ∨ Refused endpoint datagram) := by
  constructor
  · rintro ⟨_forgets, framesOnly⟩
    by_cases empty : datagram.bytes = []
    · exact Or.inl empty
    · by_cases refused : Refused endpoint datagram
      · exact Or.inr (Or.inr refused)
      · obtain ⟨reply, answered⟩ := answered_of_not_refused endpoint datagram empty refused
        exact Or.inr (Or.inl (framesOnly (expected endpoint) [] reply answered))
  · have silentSound (silent : ∀ buf, (endpoint.receive buf datagram).2 = none) :
        ForgetsHistory endpoint datagram ∧ AnswersFramesOnly endpoint datagram := by
      constructor
      · intro left right leftHistory rightHistory
        unfold replyAfter
        rw [silent, silent]
      · intro initial history reply answered
        unfold replyAfter at answered
        rw [silent] at answered
        cases answered
    rintro (empty | wellFormed | refused)
    · exact silentSound (fun buf => empty_silent endpoint buf datagram empty)
    · have frameShape := wellFormed
      obtain ⟨hdr, complete, _⟩ := frameShape
      exact ⟨complete_forgets endpoint datagram hdr complete,
        fun _initial _history _reply _answered => wellFormed⟩
    · exact silentSound (fun buf => refused_silent endpoint buf datagram refused)

def shortHeartbeat : Datagram :=
  { bytes := [protoHeader1, protoHeader2, 1, msgHeartbeat], bounded := by decide }

def unmarkedCommand : Datagram :=
  { bytes := [0, 0, 0, msgCmd], bounded := by decide }

/-- The server echoes four stale bytes, and the client acknowledges a datagram
that is no frame at all. -/
theorem reply_unsound :
    ¬ForgetsHistory .server shortHeartbeat ∧ ¬AnswersFramesOnly .client unmarkedCommand := by
  constructor
  · intro forgets
    have same := forgets (fun _ => 0) (fun _ => 1) [] []
    revert same
    decide
  · intro framesOnly
    obtain ⟨hdr, complete, _⟩ := framesOnly (fun _ => 0) [] (acknowledgement ⟨0, 0⟩) (by decide)
    cases complete

end BuildLinux.Concrete.UdpReceivers
