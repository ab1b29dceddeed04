/-
The client loop and the server loop of package/udp over an unreliable network.

The two programs and the two directions of the network are composed over shared
events.  Receiving and sending are separate steps of each program, so that any
network action and any step of the peer may fall between them.  A history lists
the events of a run, latest first.
-/

import BuildLinux.DatagramChannel
import BuildLinux.Concrete.UdpProtocol

namespace BuildLinux.Concrete.UdpSystem

open UdpProtocol
open TransitionSystem (System Runs TakesPart)
open DatagramChannel (Action channel)

/-- Where the client loop stands: about to send its heartbeat, inside `select`,
or about to send the acknowledgement it has built. -/
inductive ClientPoint where
  | heartbeat
  | select
  | reply (ack : Datagram)
  deriving DecidableEq

structure Client where
  seq : BitVec 16
  buf : Buffer
  point : ClientPoint

structure Server where
  buf : Buffer
  reply : Option Datagram

inductive Event where
  | heartbeat (sent : Datagram)
  | timeout
  | clientReceives (datagram : Datagram)
  | ack (sent : Datagram)
  | serverReceives (datagram : Datagram)
  | cmd (sent : Datagram)
  | loseToServer (datagram : Datagram)
  | loseToClient (datagram : Datagram)
  | duplicateToServer (datagram : Datagram)
  | duplicateToClient (datagram : Datagram)
  deriving DecidableEq

/-- One step of the client at an event; `none` where it cannot take part. -/
def Client.next (client : Client) : Event → Option Client
  | .heartbeat sent =>
      if client.point = .heartbeat ∧ sent = UdpProtocol.heartbeat client.seq then
        some { client with seq := client.seq + 1, point := .select }
      else none
  | .timeout =>
      if client.point = .select then some { client with point := .heartbeat } else none
  | .clientReceives datagram =>
      if client.point = .select then
        match clientReceive client.buf datagram with
        | (buf, some ack) => some { client with buf := buf, point := .reply ack }
        | (buf, none) => some { client with buf := buf, point := .heartbeat }
      else none
  | .ack sent =>
      if client.point = .reply sent then some { client with point := .heartbeat } else none
  | _ => some client

def Server.next (server : Server) : Event → Option Server
  | .serverReceives datagram =>
      if server.reply = none then
        match serverReceive server.buf datagram with
        | (buf, reply) => some { buf := buf, reply := reply }
      else none
  | .cmd sent =>
      if server.reply = some sent then some { server with reply := none } else none
  | _ => some server

theorem Client.next_heartbeat (client : Client) (ready : client.point = .heartbeat) :
    client.next (.heartbeat (UdpProtocol.heartbeat client.seq)) =
      some { client with seq := client.seq + 1, point := .select } :=
  if_pos ⟨ready, rfl⟩

theorem Client.next_receive (client : Client) (datagram ack : Datagram)
    (selecting : client.point = .select)
    (answered : clientReceive client.buf datagram = (recvfrom client.buf datagram, some ack)) :
    client.next (.clientReceives datagram) =
      some { client with buf := recvfrom client.buf datagram, point := .reply ack } := by
  simp only [Client.next, if_pos selecting, answered]

theorem Client.next_ack (client : Client) (ack : Datagram) (owes : client.point = .reply ack) :
    client.next (.ack ack) = some { client with point := .heartbeat } :=
  if_pos owes

theorem Server.next_receive (server : Server) (datagram : Datagram) (idle : server.reply = none) :
    server.next (.serverReceives datagram) =
      some
        { buf := (serverReceive server.buf datagram).1
          reply := (serverReceive server.buf datagram).2 } :=
  if_pos idle

theorem Server.next_cmd (server : Server) (cmd : Datagram) (owes : server.reply = some cmd) :
    server.next (.cmd cmd) = some { server with reply := none } :=
  if_pos owes

def Event.toServer : Event → Option (Action Datagram)
  | .heartbeat sent => some (.send sent)
  | .ack sent => some (.send sent)
  | .serverReceives datagram => some (.deliver datagram)
  | .loseToServer datagram => some (.lose datagram)
  | .duplicateToServer datagram => some (.duplicate datagram)
  | _ => none

def Event.toClient : Event → Option (Action Datagram)
  | .cmd sent => some (.send sent)
  | .clientReceives datagram => some (.deliver datagram)
  | .loseToClient datagram => some (.lose datagram)
  | .duplicateToClient datagram => some (.duplicate datagram)
  | _ => none

structure State where
  client : Client
  server : Server
  toServer : Multiset Datagram
  toClient : Multiset Datagram

/-- Both programs and both directions of the network move together. -/
structure Step (before : State) (event : Event) (after : State) : Prop where
  client : before.client.next event = some after.client
  server : before.server.next event = some after.server
  toServer : TakesPart (channel Datagram) before.toServer event.toServer after.toServer
  toClient : TakesPart (channel Datagram) before.toClient event.toClient after.toClient

structure Started (state : State) : Prop where
  client : state.client.seq = 0 ∧ state.client.point = .heartbeat
  server : state.server.reply = none
  toServer : state.toServer = 0
  toClient : state.toClient = 0

def udp : System State Event :=
  { Initial := Started
    Step := Step }

/-! ### Each direction is an unreliable channel -/

theorem channelToServer {history : List Event} {state : State} (run : Runs udp history state) :
    Runs (channel Datagram) (history.filterMap Event.toServer) state.toServer :=
  run.project State.toServer Event.toServer (fun _ starts => Started.toServer starts)
    (fun _ _ _ _ _ step => Step.toServer step)

theorem channelToClient {history : List Event} {state : State} (run : Runs udp history state) :
    Runs (channel Datagram) (history.filterMap Event.toClient) state.toClient :=
  run.project State.toClient Event.toClient (fun _ starts => Started.toClient starts)
    (fun _ _ _ _ _ step => Step.toClient step)

end BuildLinux.Concrete.UdpSystem
