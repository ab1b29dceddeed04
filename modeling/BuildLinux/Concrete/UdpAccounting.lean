/-
Accounting and causality over all runs of the UDP client and server.

Each program is a responder that owes at most one reply.  Only complete frames
are ever in flight, so a reply is decided by the header of the datagram it
answers.  Commands are then balanced against heartbeats delivered and
acknowledgements against commands delivered, and the channel facts bound
deliveries by sends.
-/

import BuildLinux.Responder
import BuildLinux.Concrete.UdpSystem

namespace BuildLinux.Concrete.UdpAccounting

open UdpProtocol UdpSystem
open TransitionSystem (System Runs TakesPart)
open DatagramChannel (channel)
open Responder (responder)

def isKind (kind : Byte) (datagram : Datagram) : Bool :=
  datagram.header?.map UdpHeader.msgType == some kind

abbrev isHeartbeat : Datagram → Bool := isKind msgHeartbeat
abbrev isCmd : Datagram → Bool := isKind msgCmd
abbrev isAck : Datagram → Bool := isKind msgCmdAck

def devIdOf (datagram : Datagram) : Option Net32 :=
  datagram.header?.map UdpHeader.devId

def seqOf (datagram : Datagram) : Option Net16 :=
  datagram.header?.map UdpHeader.seq

def sentToServer (history : List Event) : List Datagram :=
  DatagramChannel.sent (history.filterMap Event.toServer)

def sentToClient (history : List Event) : List Datagram :=
  DatagramChannel.sent (history.filterMap Event.toClient)

def deliveredToServer (history : List Event) : List Datagram :=
  DatagramChannel.delivered (history.filterMap Event.toServer)

def deliveredToClient (history : List Event) : List Datagram :=
  DatagramChannel.delivered (history.filterMap Event.toClient)

def heartbeatsSent (history : List Event) : List Datagram :=
  history.filterMap fun event => match event with
    | .heartbeat sent => some sent
    | _ => none

def acksSent (history : List Event) : List Datagram :=
  history.filterMap fun event => match event with
    | .ack sent => some sent
    | _ => none

def cmdsSent (history : List Event) : List Datagram :=
  history.filterMap fun event => match event with
    | .cmd sent => some sent
    | _ => none

def isDuplication : Event → Bool
  | .duplicateToServer _ => true
  | .duplicateToClient _ => true
  | _ => false

/-! ### Each program is a responder -/

def atClient : Event → Option (Responder.Action Datagram Datagram)
  | .clientReceives datagram => some (.receive datagram)
  | .ack sent => some (.give sent)
  | _ => none

def atServer : Event → Option (Responder.Action Datagram Datagram)
  | .serverReceives datagram => some (.receive datagram)
  | .cmd sent => some (.give sent)
  | _ => none

def ClientAnswers (datagram : Datagram) (answer : Option Datagram) : Prop :=
  ∃ buf, (clientReceive buf datagram).2 = answer

def ServerAnswers (datagram : Datagram) (answer : Option Datagram) : Prop :=
  ∃ buf, (serverReceive buf datagram).2 = answer

def owedByClient (client : Client) : Option Datagram :=
  match client.point with
  | .reply ack => some ack
  | _ => none

theorem client_responds {client after : Client} {event : Event}
    (step : client.next event = some after) :
    TakesPart (responder ClientAnswers) (owedByClient client) (atClient event)
      (owedByClient after) := by
  cases event with
  | heartbeat sent =>
      obtain ⟨ready, moved⟩ := Option.ite_none_right_eq_some.mp step
      cases moved
      change (none : Option Datagram) = owedByClient client
      rw [owedByClient, ready.1]
  | timeout =>
      obtain ⟨selecting, moved⟩ := Option.ite_none_right_eq_some.mp step
      cases moved
      change (none : Option Datagram) = owedByClient client
      rw [owedByClient, selecting]
  | clientReceives datagram =>
      obtain ⟨selecting, received⟩ := Option.ite_none_right_eq_some.mp step
      have free : owedByClient client = none := by
        rw [owedByClient, selecting]
      rw [free]
      apply Responder.Step.receive
      refine ⟨client.buf, ?_⟩
      split at received
      · rename_i buf ack answered
        cases received
        rw [answered]
        rfl
      · rename_i buf answered
        cases received
        rw [answered]
        rfl
  | ack sent =>
      obtain ⟨ready, moved⟩ := Option.ite_none_right_eq_some.mp step
      cases moved
      have owes : owedByClient client = some sent := by
        rw [owedByClient, ready]
      rw [owes]
      exact Responder.Step.give sent
  | serverReceives _ | cmd _ | loseToServer _ | loseToClient _ | duplicateToServer _
  | duplicateToClient _ =>
      have same : client = after := Option.some.inj step
      exact congrArg owedByClient same.symm

theorem server_responds {server after : Server} {event : Event}
    (step : server.next event = some after) :
    TakesPart (responder ServerAnswers) server.reply (atServer event) after.reply := by
  cases event with
  | serverReceives datagram =>
      obtain ⟨idle, received⟩ := Option.ite_none_right_eq_some.mp step
      rw [idle]
      apply Responder.Step.receive
      exact ⟨server.buf, congrArg Server.reply (Option.some.inj received)⟩
  | cmd sent =>
      obtain ⟨ready, moved⟩ := Option.ite_none_right_eq_some.mp step
      cases moved
      rw [ready]
      exact Responder.Step.give sent
  | heartbeat _ | timeout | clientReceives _ | ack _ | loseToServer _ | loseToClient _
  | duplicateToServer _ | duplicateToClient _ =>
      have same : server = after := Option.some.inj step
      exact congrArg Server.reply same.symm

variable {history : List Event} {state : State}

theorem clientRun (run : Runs udp history state) :
    Runs (responder ClientAnswers) (history.filterMap atClient) (owedByClient state.client) :=
  run.project (fun state => owedByClient state.client) atClient
    (fun initial starts => by
      change owedByClient initial.client = none
      rw [owedByClient, (Started.client starts).2])
    (fun _ _ _ _ _ step => client_responds (Step.client step))

theorem serverRun (run : Runs udp history state) :
    Runs (responder ServerAnswers) (history.filterMap atServer) state.server.reply :=
  run.project (fun state => state.server.reply) atServer
    (fun _ starts => Started.server starts)
    (fun _ _ _ _ _ step => server_responds (Step.server step))

theorem client_received (history : List Event) :
    Responder.received (history.filterMap atClient) = deliveredToClient history := by
  simp only [Responder.received, deliveredToClient, DatagramChannel.delivered,
    List.filterMap_filterMap]
  congr 1
  funext event
  cases event <;> rfl

theorem server_received (history : List Event) :
    Responder.received (history.filterMap atServer) = deliveredToServer history := by
  simp only [Responder.received, deliveredToServer, DatagramChannel.delivered,
    List.filterMap_filterMap]
  congr 1
  funext event
  cases event <;> rfl

theorem client_given (history : List Event) :
    Responder.given (history.filterMap atClient) = acksSent history := by
  simp only [Responder.given, acksSent, List.filterMap_filterMap]
  congr 1
  funext event
  cases event <;> rfl

theorem server_given (history : List Event) :
    Responder.given (history.filterMap atServer) = cmdsSent history := by
  simp only [Responder.given, cmdsSent, List.filterMap_filterMap]
  congr 1
  funext event
  cases event <;> rfl

/-! ### Only complete frames are in flight -/

theorem clientAnswers_some {datagram reply : Datagram}
    (answered : ClientAnswers datagram (some reply)) : ∃ seq, reply = acknowledgement seq := by
  obtain ⟨buf, answered⟩ := answered
  simp only [clientReceive] at answered
  split at answered
  · cases answered
  · split at answered
    · exact ⟨_, (Option.some.inj answered).symm⟩
    · cases answered

theorem serverAnswers_some {datagram reply : Datagram}
    (answered : ServerAnswers datagram (some reply)) : ∃ device, reply = command device := by
  obtain ⟨buf, answered⟩ := answered
  simp only [serverReceive] at answered
  split at answered
  · cases answered
  · split at answered
    · cases answered
    · split at answered
      · exact ⟨_, (Option.some.inj answered).symm⟩
      · cases answered

theorem heartbeatsSent_genuine (run : Runs udp history state) :
    ∀ datagram ∈ heartbeatsSent history, ∃ seq, datagram = heartbeat seq := by
  refine run.invariant
    (fun history _state => ∀ datagram ∈ heartbeatsSent history, ∃ seq, datagram = heartbeat seq)
    ?_ ?_
  · intro state _starts datagram member
    cases member
  · intro history before event after _earlier genuine step datagram member
    cases event with
    | heartbeat sent =>
        obtain ⟨ready, _moved⟩ := Option.ite_none_right_eq_some.mp (Step.client step)
        rcases List.mem_cons.mp member with new | old
        · exact ⟨before.client.seq, new.trans ready.2⟩
        · exact genuine datagram old
    | timeout | clientReceives _ | ack _ | serverReceives _ | cmd _ | loseToServer _
    | loseToClient _ | duplicateToServer _ | duplicateToClient _ => exact genuine datagram member

theorem acksSent_genuine (run : Runs udp history state) :
    ∀ datagram ∈ acksSent history, ∃ seq, datagram = acknowledgement seq := by
  intro datagram member
  rw [← client_given] at member
  obtain ⟨cause, answered⟩ := Responder.given_answers (clientRun run) datagram member
  exact clientAnswers_some answered

theorem cmdsSent_genuine (run : Runs udp history state) :
    ∀ datagram ∈ cmdsSent history, ∃ device, datagram = command device := by
  intro datagram member
  rw [← server_given] at member
  obtain ⟨cause, answered⟩ := Responder.given_answers (serverRun run) datagram member
  exact serverAnswers_some answered

theorem mem_sentToServer (history : List Event) (datagram : Datagram) :
    datagram ∈ sentToServer history ↔
      datagram ∈ heartbeatsSent history ∨ datagram ∈ acksSent history := by
  induction history with
  | nil => simp [sentToServer, heartbeatsSent, acksSent, DatagramChannel.sent]
  | cons event rest ih =>
      cases event with
      | heartbeat sent =>
          change datagram ∈ sent :: sentToServer rest ↔
            datagram ∈ sent :: heartbeatsSent rest ∨ datagram ∈ acksSent rest
          rw [List.mem_cons, List.mem_cons, ih, or_assoc]
      | ack sent =>
          change datagram ∈ sent :: sentToServer rest ↔
            datagram ∈ heartbeatsSent rest ∨ datagram ∈ sent :: acksSent rest
          rw [List.mem_cons, List.mem_cons, ih, or_left_comm]
      | timeout | clientReceives _ | serverReceives _ | cmd _ | loseToServer _
      | loseToClient _ | duplicateToServer _ | duplicateToClient _ => exact ih

theorem sentToServer_length (history : List Event) :
    (sentToServer history).length =
      (heartbeatsSent history).length + (acksSent history).length := by
  induction history with
  | nil => rfl
  | cons event rest ih =>
      cases event with
      | heartbeat sent =>
          change (sentToServer rest).length + 1 = (heartbeatsSent rest).length + 1 + _
          rw [ih]
          exact Nat.add_right_comm _ _ _
      | ack sent =>
          change (sentToServer rest).length + 1 = _ + ((acksSent rest).length + 1)
          rw [ih, Nat.add_assoc]
          rfl
      | timeout | clientReceives _ | serverReceives _ | cmd _ | loseToServer _
      | loseToClient _ | duplicateToServer _ | duplicateToClient _ => exact ih

theorem sentToClient_eq (history : List Event) : sentToClient history = cmdsSent history := by
  simp only [sentToClient, DatagramChannel.sent, cmdsSent, List.filterMap_filterMap]
  congr 1
  funext event
  cases event <;> rfl

/-- A datagram delivered to the server is a heartbeat or an acknowledgement. -/
theorem deliveredToServer_genuine (run : Runs udp history state) :
    ∀ datagram ∈ deliveredToServer history,
      (∃ seq, datagram = heartbeat seq) ∨ ∃ seq, datagram = acknowledgement seq := by
  intro datagram member
  have wasSent := DatagramChannel.delivered_sent (channelToServer run) datagram member
  rcases (mem_sentToServer history datagram).mp wasSent with beat | ack
  · exact Or.inl (heartbeatsSent_genuine run datagram beat)
  · exact Or.inr (acksSent_genuine run datagram ack)

theorem deliveredToClient_genuine (run : Runs udp history state) :
    ∀ datagram ∈ deliveredToClient history, ∃ device, datagram = command device := by
  intro datagram member
  have wasSent : datagram ∈ sentToClient history :=
    DatagramChannel.delivered_sent (channelToClient run) datagram member
  rw [sentToClient_eq] at wasSent
  exact cmdsSent_genuine run datagram wasSent

/-! ### Answers to complete frames -/

theorem server_answers_heartbeat {seq : BitVec 16} {answer : Option Datagram}
    (answered : ServerAnswers (heartbeat seq) answer) : answer = some (command (htonl devId)) := by
  obtain ⟨buf, answered⟩ := answered
  rw [← answered, serverReceive_complete buf _ _ (heartbeat_header? seq)]
  rfl

theorem server_ignores_ack {seq : Net16} {answer : Option Datagram}
    (answered : ServerAnswers (acknowledgement seq) answer) : answer = none := by
  obtain ⟨buf, answered⟩ := answered
  rw [← answered, serverReceive_complete buf _ _ (acknowledgement_header? seq)]
  rfl

theorem client_answers_command {device : Net32} {answer : Option Datagram}
    (answered : ClientAnswers (command device) answer) :
    answer = some (acknowledgement (htons 1)) := by
  obtain ⟨buf, answered⟩ := answered
  rw [← answered, clientReceive_complete buf _ _ (command_header? device)]
  rfl

/-! ### The balance of both programs -/

theorem cmds_balance (run : Runs udp history state) :
    (cmdsSent history).length + state.server.reply.toList.length =
      (deliveredToServer history).countP isHeartbeat := by
  have exact : ∀ datagram ∈ Responder.received (history.filterMap atServer), ∀ answer,
      ServerAnswers datagram answer → answer.isSome = isHeartbeat datagram := by
    intro datagram member answer answered
    rw [server_received] at member
    rcases deliveredToServer_genuine run datagram member with ⟨seq, rfl⟩ | ⟨seq, rfl⟩
    · rw [server_answers_heartbeat answered]
      rfl
    · rw [server_ignores_ack answered]
      rfl
  have balanced := Responder.balance (serverRun run) isHeartbeat exact
  rw [server_given, server_received] at balanced
  exact balanced

theorem acks_balance (run : Runs udp history state) :
    (acksSent history).length + (owedByClient state.client).toList.length =
      (deliveredToClient history).countP isCmd := by
  have exact : ∀ datagram ∈ Responder.received (history.filterMap atClient), ∀ answer,
      ClientAnswers datagram answer → answer.isSome = isCmd datagram := by
    intro datagram member answer answered
    rw [client_received] at member
    obtain ⟨device, rfl⟩ := deliveredToClient_genuine run datagram member
    rw [client_answers_command answered]
    rfl
  have balanced := Responder.balance (clientRun run) isCmd exact
  rw [client_given, client_received] at balanced
  exact balanced

theorem heartbeats_counted (history : List Event)
    (acks : ∀ datagram ∈ acksSent history, isHeartbeat datagram = false) :
    (sentToServer history).countP isHeartbeat ≤ (heartbeatsSent history).length := by
  induction history with
  | nil => exact Nat.le_refl 0
  | cons event rest ih =>
      cases event with
      | heartbeat sent =>
          change (sent :: sentToServer rest).countP isHeartbeat ≤ (heartbeatsSent rest).length + 1
          have tail := ih acks
          rw [List.countP_cons]
          split <;> omega
      | ack sent =>
          change (sent :: sentToServer rest).countP isHeartbeat ≤ (heartbeatsSent rest).length
          rw [List.countP_cons, acks sent List.mem_cons_self]
          exact ih (fun datagram member => acks datagram (List.mem_cons_of_mem sent member))
      | timeout | clientReceives _ | serverReceives _ | cmd _ | loseToServer _
      | loseToClient _ | duplicateToServer _ | duplicateToClient _ => exact ih acks

theorem single_toServer (history : List Event)
    (single : ∀ event ∈ history, isDuplication event = false) :
    ∀ act ∈ history.filterMap Event.toServer, act.isDuplicate = false := by
  intro act member
  obtain ⟨event, inHistory, acts⟩ := List.mem_filterMap.mp member
  have once := single event inHistory
  cases event <;> cases acts <;> first | rfl | cases once

theorem single_toClient (history : List Event)
    (single : ∀ event ∈ history, isDuplication event = false) :
    ∀ act ∈ history.filterMap Event.toClient, act.isDuplicate = false := by
  intro act member
  obtain ⟨event, inHistory, acts⟩ := List.mem_filterMap.mp member
  have once := single event inHistory
  cases event <;> cases acts <;> first | rfl | cases once

/-! ### The protocol's accounts -/

/-- The accounts of a run, with its history latest first. -/
structure Accounted (history : List Event) (state : State) : Prop where
  cmds : (cmdsSent history).length ≤ (deliveredToServer history).countP isHeartbeat
  acks : (acksSent history).length ≤ (deliveredToClient history).countP isCmd
  cmdKinds : ∀ sent ∈ cmdsSent history, isCmd sent = true
  ackKinds : ∀ sent ∈ acksSent history, isAck sent = true
  cmdCause : ∀ later earlier sent, history = later ++ .cmd sent :: earlier →
    ∃ beat ∈ deliveredToServer earlier, isHeartbeat beat = true ∧ devIdOf beat = devIdOf sent
  ackCause : ∀ later earlier sent, history = later ++ .ack sent :: earlier →
    ∃ cmd ∈ deliveredToClient earlier, isCmd cmd = true ∧ seqOf cmd = seqOf sent
  ackUnanswered : ∀ ack after, isAck ack = true →
    Step state (.serverReceives ack) after → after.server.reply = none
  total : (∀ event ∈ history, isDuplication event = false) →
    (sentToServer history).length + (sentToClient history).length ≤
      3 * (heartbeatsSent history).length

theorem cmd_caused {later earlier : List Event} {sent : Datagram}
    (run : Runs udp (later ++ .cmd sent :: earlier) state) :
    ∃ beat ∈ deliveredToServer earlier, isHeartbeat beat = true ∧ devIdOf beat = devIdOf sent := by
  obtain ⟨middle, sending⟩ := run.earlierPart
  cases sending with
  | next before step =>
      have responded := serverRun (Runs.next before step)
      obtain ⟨beat, member, answered⟩ := Responder.given_caused [] responded
      rw [server_received] at member
      refine ⟨beat, member, ?_⟩
      rcases deliveredToServer_genuine before beat member with ⟨seq, rfl⟩ | ⟨seq, rfl⟩
      · have answer := Option.some.inj (server_answers_heartbeat answered)
        rw [answer]
        exact ⟨rfl, rfl⟩
      · cases server_ignores_ack answered

theorem ack_caused {later earlier : List Event} {sent : Datagram}
    (run : Runs udp (later ++ .ack sent :: earlier) state) :
    ∃ cmd ∈ deliveredToClient earlier, isCmd cmd = true ∧ seqOf cmd = seqOf sent := by
  obtain ⟨middle, sending⟩ := run.earlierPart
  cases sending with
  | next before step =>
      have responded := clientRun (Runs.next before step)
      obtain ⟨cmd, member, answered⟩ := Responder.given_caused [] responded
      rw [client_received] at member
      refine ⟨cmd, member, ?_⟩
      obtain ⟨device, rfl⟩ := deliveredToClient_genuine before cmd member
      have answer := Option.some.inj (client_answers_command answered)
      rw [answer]
      exact ⟨rfl, rfl⟩

theorem ack_unanswered (run : Runs udp history state) {ack : Datagram} {after : State}
    (isAcknowledgement : isAck ack = true) (step : Step state (.serverReceives ack) after) :
    after.server.reply = none := by
  have delivered : ack ∈ deliveredToServer (.serverReceives ack :: history) := List.mem_cons_self
  have responds := server_responds step.server
  rcases deliveredToServer_genuine (Runs.next run step) ack delivered with ⟨seq, rfl⟩ | ⟨seq, rfl⟩
  · cases isAcknowledgement
  · change Responder.Step ServerAnswers state.server.reply (.receive _) after.server.reply
      at responds
    generalize state.server.reply = before at responds
    generalize after.server.reply = owed at responds
    cases responds with
    | receive answered => exact server_ignores_ack answered

theorem total_bounded (run : Runs udp history state)
    (single : ∀ event ∈ history, isDuplication event = false) :
    (sentToServer history).length + (sentToClient history).length ≤
      3 * (heartbeatsSent history).length := by
  have beats : (deliveredToServer history).countP isHeartbeat ≤ (heartbeatsSent history).length :=
    Nat.le_trans
      (DatagramChannel.countP_delivered_le (channelToServer run)
        (single_toServer history single) isHeartbeat)
      (heartbeats_counted history (by
        intro datagram member
        obtain ⟨seq, rfl⟩ := acksSent_genuine run datagram member
        rfl))
  have cmds : (deliveredToClient history).countP isCmd ≤ (cmdsSent history).length := by
    have channelBound := DatagramChannel.countP_delivered_le (channelToClient run)
      (single_toClient history single) isCmd
    change (deliveredToClient history).countP isCmd ≤ (sentToClient history).countP isCmd
      at channelBound
    rw [sentToClient_eq] at channelBound
    exact Nat.le_trans channelBound List.countP_le_length
  have cmdBalance := cmds_balance run
  have ackBalance := acks_balance run
  rw [sentToServer_length, sentToClient_eq]
  omega

/-- The accounts hold after every run, in every interleaving with the network. -/
theorem udp_accounted (run : Runs udp history state) : Accounted history state := by
  have cmdBalance := cmds_balance run
  have ackBalance := acks_balance run
  constructor
  · omega
  · omega
  · intro sent member
    obtain ⟨device, rfl⟩ := cmdsSent_genuine run sent member
    rfl
  · intro sent member
    obtain ⟨seq, rfl⟩ := acksSent_genuine run sent member
    rfl
  · intro later earlier sent split
    subst split
    exact cmd_caused run
  · intro later earlier sent split
    subst split
    exact ack_caused run
  · intro ack after isAcknowledgement step
    exact ack_unanswered run isAcknowledgement step
  · exact total_bounded run

/-- One whole exchange: heartbeat, command, acknowledgement. -/
def exchange : List Event :=
  [.ack (acknowledgement (htons 1)), .clientReceives (command (htonl devId)),
    .cmd (command (htonl devId)), .serverReceives (heartbeat 0), .heartbeat (heartbeat 0)]

theorem exchange_runs (clientBuf serverBuf : Buffer) : ∃ state, Runs udp exchange state := by
  let started : State :=
    { client := { seq := 0, buf := clientBuf, point := .heartbeat }
      server := { buf := serverBuf, reply := none }
      toServer := 0
      toClient := 0 }
  let beaten : State :=
    { started with
      client := { seq := 1, buf := clientBuf, point := .select }
      toServer := heartbeat 0 ::ₘ 0 }
  let asked : State :=
    { beaten with
      server := { buf := recvfrom serverBuf (heartbeat 0), reply := some (command (htonl devId)) }
      toServer := 0 }
  let commanded : State :=
    { asked with
      server := { asked.server with reply := none }
      toClient := command (htonl devId) ::ₘ 0 }
  let answering : State :=
    { commanded with
      client :=
        { seq := 1
          buf := recvfrom clientBuf (command (htonl devId))
          point := .reply (acknowledgement (htons 1)) }
      toClient := 0 }
  let acknowledged : State :=
    { answering with
      client := { answering.client with point := .heartbeat }
      toServer := acknowledgement (htons 1) ::ₘ 0 }
  have start : Runs udp [] started := Runs.start ⟨⟨rfl, rfl⟩, rfl, rfl, rfl⟩
  have beat : Step started (.heartbeat (heartbeat 0)) beaten :=
    ⟨Client.next_heartbeat _ rfl, rfl, .send _ _, rfl⟩
  have ask : Step beaten (.serverReceives (heartbeat 0)) asked :=
    ⟨rfl, Server.next_receive _ _ rfl, .deliver (heartbeat 0) 0, rfl⟩
  have cmd : Step asked (.cmd (command (htonl devId))) commanded :=
    ⟨rfl, Server.next_cmd _ _ rfl, rfl, .send _ _⟩
  have answer : Step commanded (.clientReceives (command (htonl devId))) answering :=
    ⟨Client.next_receive _ _ _ rfl rfl, rfl, rfl, .deliver (command (htonl devId)) 0⟩
  have ack : Step answering (.ack (acknowledgement (htons 1))) acknowledged :=
    ⟨Client.next_ack _ _ rfl, rfl, .send _ _, rfl⟩
  exact ⟨acknowledged, ((((start.next beat).next ask).next cmd).next answer).next ack⟩

theorem udp_accounted_exchange :
    ∃ state, Runs udp exchange state ∧ Accounted exchange state := by
  obtain ⟨state, run⟩ := exchange_runs (fun _ => 0) (fun _ => 0)
  exact ⟨state, run, udp_accounted run⟩

end BuildLinux.Concrete.UdpAccounting
