import FleetingDns.BruteForce
import FleetingDns.SshAuthentication

namespace FleetingDns

open ExpiringStore

def viewerIdleTeardown : ℕ := 60 * second

def tunnelLiveTtl : ℕ := 45

structure SlotActivity where
  (active lastEvent : ℕ)
  deriving DecidableEq

namespace SlotActivity

def new (now : ℕ) : SlotActivity := ⟨0, now⟩

section

variable (activity : SlotActivity) (now : ℕ)

def connectionOpened : SlotActivity := ⟨activity.active + 1, now⟩

def connectionClosed : SlotActivity := ⟨activity.active - 1, now⟩

def idleFor : ℕ := now - activity.lastEvent

end

end SlotActivity

def shouldTeardownIdle (policy : TeardownPolicy) (activeConnections idleFor threshold : ℕ) : Bool :=
  policy == .viewerIdle && activeConnections == 0 && threshold ≤ idleFor

inductive Job where
  | accept (boundAs tunnel : Option String) (activity : SlotActivity)
  | heartbeat (tunnelId : String)
  | reaper (acceptTask : ℕ) (policy : TeardownPolicy)
  deriving DecidableEq

/-- A spawned task; `session` and `port` are those of the `tcpip_forward` call that spawned it. -/
structure Task where
  (session port : ℕ)
  job : Job
  running : Bool
  deriving DecidableEq

structure SshSession where
  peerAddr : SocketAddr
  clientCertificateSerial : Option String
  forwardListeners : AList (fun _ : ℕ => List ℕ)
  connected : Bool

structure Hub where
  tasks : List Task
  sessions : List SshSession
  edgeTunnelsOpen : ℤ

def Job.isAccept : Job → Bool
  | accept _ _ _ => true
  | _ => false

def Job.listensFor (tunnelId : String) : Job → Bool
  | accept _ tunnel _ => tunnel == some tunnelId
  | _ => false

def Task.listening (task : Task) : Bool := task.running && task.job.isAccept

namespace Hub

def empty : Hub := ⟨[], [], 0⟩

def bound (hub : Hub) (port : ℕ) : Bool := hub.tasks.any fun task => task.listening && task.port == port

def spawned (hub : Hub) (now sid port : ℕ) (boundAs : Option String) (policy : TeardownPolicy)
    (liveTunnelId : Option String) : List Task :=
  let acceptTask := hub.tasks.length
  [⟨sid, port, .accept boundAs liveTunnelId (.new now), true⟩]
    ++ liveTunnelId.toList.map (fun tunnelId => ⟨sid, port, .heartbeat tunnelId, true⟩)
    ++ if policy = .viewerIdle then [⟨sid, port, .reaper acceptTask policy, true⟩] else []

def openSlot (hub : Hub) (now sid port : ℕ) (policy : TeardownPolicy) (liveTunnelId : Option String) : Option Hub :=
  match hub.sessions[sid]? with
  | none => none
  | some session =>
    let tasks := hub.spawned now sid port session.clientCertificateSerial policy liveTunnelId
    let handles := List.range' hub.tasks.length tasks.length
    some ⟨hub.tasks ++ tasks,
      hub.sessions.set sid { session with forwardListeners := session.forwardListeners.insert port handles },
      hub.edgeTunnelsOpen + 1⟩

def abort (tasks : List Task) (handles : List ℕ) : List Task :=
  tasks.mapIdx fun i task => if i ∈ handles then { task with running := false } else task

def closeSlot (hub : Hub) (sid port : ℕ) : Option Hub :=
  match hub.sessions[sid]? with
  | none => none
  | some session =>
    match session.forwardListeners.lookup port with
    | none => none
    | some handles => some ⟨abort hub.tasks handles,
        hub.sessions.set sid { session with forwardListeners := session.forwardListeners.erase port },
        hub.edgeTunnelsOpen - 1⟩

def cancelTcpipForward (hub : Hub) (sid port : ℕ) : Hub × Bool :=
  match hub.closeSlot sid (port % 65536) with
  | some hub' => (hub', true)
  | none => (hub, false)

def setSession (hub : Hub) (sid : ℕ) (f : SshSession → SshSession) : Hub :=
  { hub with sessions := hub.sessions.modify sid f }

def ports (hub : Hub) (sid : ℕ) : List ℕ := (hub.sessions[sid]?.map fun session => session.forwardListeners.keys).getD []

def closeAll (hub : Hub) (sid : ℕ) : List ℕ → Hub
  | [] => hub
  | port :: ports => ((hub.closeSlot sid port).getD hub).closeAll sid ports

def dropSession (hub : Hub) (sid : ℕ) : Hub :=
  (hub.closeAll sid (hub.ports sid)).setSession sid fun session => { session with connected := false }

def activityOf (hub : Hub) (task : ℕ) : Option SlotActivity :=
  match hub.tasks[task]? with
  | some ⟨_, _, .accept _ _ activity, _⟩ => some activity
  | _ => none

def reaped (hub : Hub) (now task : ℕ) : Option (List ℕ) :=
  match hub.tasks[task]? with
  | some ⟨_, _, .reaper acceptTask policy, true⟩ =>
    match hub.activityOf acceptTask with
    | some activity =>
      if shouldTeardownIdle policy activity.active (activity.idleFor now) viewerIdleTeardown then some [acceptTask, task]
      else some []
    | none => none
  | _ => none

def reaperPoll (hub : Hub) (now task : ℕ) : Option Hub :=
  (hub.reaped now task).map fun handles => { hub with tasks := abort hub.tasks handles }

def setActivity (hub : Hub) (task : ℕ) (f : SlotActivity → SlotActivity) : Hub :=
  { hub with tasks := hub.tasks.modify task fun t => { t with job := match t.job with
      | .accept boundAs tunnel activity => .accept boundAs tunnel (f activity)
      | job => job } }

def heartbeatOf (hub : Hub) (task : ℕ) : Option String :=
  match hub.tasks[task]? with
  | some ⟨_, _, .heartbeat tunnelId, true⟩ => some tunnelId
  | _ => none

end Hub

end FleetingDns
