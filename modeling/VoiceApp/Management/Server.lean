import VoiceApp.Base.LabelledRun
import VoiceApp.Base.Table
import VoiceApp.Management.Handler

/-! # The management server as a transition system

The accept loop and one task per connection share the users map, the broadcast channel
and the event channel. A task moves by one operation at a time, in any interleaving. The
two channels are kept as the list of everything ever sent into them; a receiver is a
position in that list.
-/
namespace VoiceApp.Management
open Protocol Server

/-- Where the task of a connection is. -/
inductive Phase
  | spawned
  | connected
  | select (packetBuffer : Bytes)
  | running (o : Op) (k : o.Res → HandlerM Outcome)
  | returned (e : Exit)
  | ended
  | panicked

/-- Where a task is that has this much of a `select!` branch left to do. -/
def Phase.ofProgram : HandlerM Outcome → Phase
  | .ret (.proceed packetBuffer) => .select packetBuffer
  | .ret (.exit e) => .returned e
  | .op o k => .running o k

/-- The task of one connection: `user` is its copy of the record made at the accept,
`cursor` its position in the broadcast channel, and `received` and `written` are all the
bytes that its socket has carried either way. -/
structure Connection where
  user : User
  address : SocketAddr
  phase : Phase
  cursor : ℕ
  received : Bytes
  written : Bytes

structure ManagementServer where
  users : Table SocketAddr User
  nextUserId : UInt64
  broadcasts : List BroadcastMessage
  events : List Event
  connections : Table UInt64 Connection

inductive Label
  | accept (address : SocketAddr) (token : UInt64)
  | connect (id : UInt64)
  | subscribe (id : UInt64)
  | read (id : UInt64) (r : ReadResult)
  | recv (id : UInt64) (r : RecvResult)
  | exec (id : UInt64) (o : Op) (r : o.Res)
  | panic (id : UInt64)
  | disconnect (id : UInt64)

/-- What an operation puts into the broadcast channel. -/
def Op.sent : Op → List BroadcastMessage
  | .broadcast m => [m]
  | _ => []

def ReadResult.bytes : ReadResult → Bytes
  | .ok bytes => bytes
  | .error => []

namespace ManagementServer

def new : ManagementServer := ⟨∅,1,[],[],∅⟩

/-- The record that `register_new_user` creates with a random token. -/
def newUser (s : ManagementServer) (token : UInt64) : User := ⟨s.nextUserId,none,false,false,token⟩

def registerNewUser (s : ManagementServer) (address : SocketAddr) (token : UInt64) :
    ManagementServer :=
  { s with
    users := s.users.insert address (s.newUser token)
    nextUserId := s.nextUserId + 1 }

/-- One turn of the accept loop. -/
def accept (s : ManagementServer) (address : SocketAddr) (token : UInt64) : ManagementServer :=
  { s.registerNewUser address token with
    connections := s.connections.insert s.nextUserId
      ⟨s.newUser token,address,.spawned,0,[],[]⟩ }

def setConnection (s : ManagementServer) (id : UInt64) (c : Connection) : ManagementServer :=
  { s with connections := s.connections.insert id c }

def sendEvent (s : ManagementServer) (e : Event) : ManagementServer :=
  { s with events := s.events ++ [e] }

/-- What an operation does to the state that the tasks share. -/
def perform (s : ManagementServer) : Op → ManagementServer
  | .getMut address update => { s with users := s.users.modify address update }
  | .remove address => { s with users := s.users.erase address }
  | .broadcast message => { s with broadcasts := s.broadcasts ++ [message] }
  | .send event => s.sendEvent event
  | _ => s

theorem setConnection_lookup (s : ManagementServer) (id id' : UInt64) (c : Connection) :
    (s.setConnection id c).connections.lookup id' =
      if id' = id then some c else s.connections.lookup id' := Table.lookup_insert_eq _ _ _ _

theorem setConnection_own (s : ManagementServer) (id : UInt64) (c : Connection) :
    (s.setConnection id c).connections.lookup id = some c := Finmap.lookup_insert _

theorem setConnection_twice (s : ManagementServer) (id : UInt64) (c c' : Connection) :
    (s.setConnection id c).setConnection id c' = s.setConnection id c' := by
  rw [setConnection,setConnection,Finmap.insert_insert]
  rfl

theorem accept_connections (s : ManagementServer) (address : SocketAddr) (token id : UInt64) :
    (s.accept address token).connections.lookup id =
      if id = s.nextUserId then some ⟨s.newUser token,address,.spawned,0,[],[]⟩
      else s.connections.lookup id := Table.lookup_insert_eq _ _ _ _

theorem accept_users (s : ManagementServer) (address : SocketAddr) (token : UInt64)
    (a : SocketAddr) : (s.accept address token).users.lookup a =
      if a = address then some (s.newUser token) else s.users.lookup a := Table.lookup_insert_eq _ _ _ _

@[simp] theorem perform_connections (s : ManagementServer) (o : Op) :
    (s.perform o).connections = s.connections := by
  cases o <;> rfl

@[simp] theorem perform_nextUserId (s : ManagementServer) (o : Op) :
    (s.perform o).nextUserId = s.nextUserId := by
  cases o <;> rfl

theorem perform_broadcasts (s : ManagementServer) (o : Op) :
    (s.perform o).broadcasts = s.broadcasts ++ o.sent := by
  cases o with
  | broadcast m => rfl
  | _ => exact (List.append_nil s.broadcasts).symm

/-- Records keep their ids, and none appears. -/
theorem perform_ids {s : ManagementServer} {o : Op} {a : SocketAddr} {u : User}
    (hids : ∀ a update, o = .getMut a update → ∀ u, (update u).id = u.id)
    (hu : (s.perform o).users.lookup a = some u) : ∃ u', s.users.lookup a = some u' ∧ u'.id = u.id := by
  cases o with
  | getMut a' update =>
    simp only [ManagementServer.perform,Table.lookup_modify] at hu
    split at hu
    · rename_i ha
      obtain ⟨u',hu',rfl⟩ := Option.map_eq_some_iff.mp hu
      exact ⟨u',ha ▸ hu',(hids a' update rfl u').symm⟩
    · exact ⟨u,hu,rfl⟩
  | remove a' =>
    simp only [ManagementServer.perform,Table.lookup_erase_eq] at hu
    split at hu
    · cases hu
    · exact ⟨u,hu,rfl⟩
  | _ => exact ⟨u,hu,rfl⟩

/-- The possible answers. An iteration may visit the records in any order; it visits all
that are there from its start to its end, and others if they are there when visited. -/
def Answers (s : ManagementServer) : (o : Op) → o.Res → Prop
  | .getMut address update,r => r = (s.users.lookup address).map update
  | .get address,r => r = s.users.lookup address
  | .keys,r => r.Nodup ∧ ∀ address user, s.users.lookup address = some user → address ∈ r
  | .read address,r => r = s.users.lookup address
  | .remove address,r => r = s.users.lookup address
  | .encode packet,r => packet.encode = some r
  | .write _,_ => True
  | .broadcast _,_ => True
  | .send _,_ => True
  | .now,_ => True

end ManagementServer

/-- What an operation puts on the socket: a write that fails may have written a part. -/
def Op.Writes : (o : Op) → o.Res → Bytes → Prop
  | .write data,written,b => if written then b = data else b <+: data
  | _,_,b => b = []

open ManagementServer in
/-- One step of the accept loop or of one task. User ids come from a 64-bit counter, which
is taken not to wrap around. A broadcast can be received while the channel still holds
it; a receiver that has fallen further behind is told so once. -/
inductive Step : ManagementServer → Label → ManagementServer → Prop
  | accept {s address token} (hid : s.nextUserId.toNat + 1 < 2 ^ 64) :
      Step s (.accept address token) (s.accept address token)
  | connect {s id c} (hc : s.connections.lookup id = some c) (hp : c.phase = .spawned) :
      Step s (.connect id)
        ((s.setConnection id { c with phase := .connected }).sendEvent
          (.userConnected c.user.id c.user.token))
  | subscribe {s id c} (hc : s.connections.lookup id = some c) (hp : c.phase = .connected) :
      Step s (.subscribe id)
        (s.setConnection id { c with phase := .select [], cursor := s.broadcasts.length })
  | read {s id c packetBuffer r} (hc : s.connections.lookup id = some c)
      (hp : c.phase = .select packetBuffer) (hlen : r.bytes.length ≤ packetBufferSize) :
      Step s (.read id r) (s.setConnection id { c with
        phase := .ofProgram (handleRead c.address packetBuffer r)
        received := c.received ++ r.bytes })
  | recv {s id c packetBuffer m} (hc : s.connections.lookup id = some c)
      (hp : c.phase = .select packetBuffer) (hm : s.broadcasts[c.cursor]? = some m)
      (hring : s.broadcasts.length ≤ c.cursor + broadcastChannelCapacity) :
      Step s (.recv id (.ok m)) (s.setConnection id { c with
        phase := .ofProgram (handleRecv c.address packetBuffer (.ok m))
        cursor := c.cursor + 1 })
  | lagged {s id c packetBuffer} (hc : s.connections.lookup id = some c)
      (hp : c.phase = .select packetBuffer)
      (hring : c.cursor + broadcastChannelCapacity < s.broadcasts.length) :
      Step s (.recv id .lagged) (s.setConnection id { c with
        phase := .ofProgram (handleRecv c.address packetBuffer .lagged)
        cursor := s.broadcasts.length - broadcastChannelCapacity })
  | closed {s id c packetBuffer} (hc : s.connections.lookup id = some c)
      (hp : c.phase = .select packetBuffer) :
      Step s (.recv id .closed) (s.setConnection id { c with
        phase := .ofProgram (handleRecv c.address packetBuffer .closed) })
  | exec {s id c o k r b} (hc : s.connections.lookup id = some c) (hp : c.phase = .running o k)
      (hr : s.Answers o r) (hb : o.Writes r b) :
      Step s (.exec id o r) ((s.perform o).setConnection id { c with
        phase := .ofProgram (k r)
        written := c.written ++ b })
  | panic {s id c packet k} (hc : s.connections.lookup id = some c)
      (hp : c.phase = .running (.encode packet) k) (hnone : packet.encode = none) :
      Step s (.panic id) (s.setConnection id { c with phase := .panicked })
  | disconnect {s id c e} (hc : s.connections.lookup id = some c) (hp : c.phase = .returned e) :
      Step s (.disconnect id)
        ((s.setConnection id { c with phase := .ended }).sendEvent (.userDisconnected c.user.id))

abbrev Trace := List Label

end VoiceApp.Management
