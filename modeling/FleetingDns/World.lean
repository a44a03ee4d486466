import FleetingDns.Library.GuardedRuns
import FleetingDns.EdgeRouter
import FleetingDns.HubTasks
import FleetingDns.SlotForwarding
import FleetingDns.TunnelHandlers

namespace FleetingDns

open CommandPrograms ExpiringStore ThreadPool

structure Config where
  api : ApiConfig
  hub : HubConfig

inductive Call where
  | createTunnel (user : GitHubUser) (request : CreateTunnelRequest)
  | deleteTunnel (user : GitHubUser) (tunnelId : String)
  | createTunnelSession (user : GitHubUser) (tunnelId : String)
  | authPublickey (sid : ℕ) (peer : SocketAddr) (serial : Option String) (user publicKey : String)
  | tcpipForward (sid : ℕ) (serial : Option String) (port : ℕ)
  | route (sni : Option String)

inductive Done where
  | created (r : Except ApiError CreateTunnelResponse)
  | deleted (r : Except ApiError Bool)
  | granted (r : Except ApiError SessionGrantResponse)
  | authenticated (auth : Auth) (serial : Option String)
  | forwarded (r : Except String Bool) (port : ℕ)
  | routed (r : RouterOutcome)
  | cancelled

def Call.session : Call → Option ℕ
  | .authPublickey sid _ _ _ _ | .tcpipForward sid _ _ => some sid
  | _ => none

def Call.program (config : Config) : Call → Program Done
  | .createTunnel user request => do return .created (← (FleetingDns.createTunnel config.api user request).run)
  | .deleteTunnel user tunnelId => do return .deleted (← (FleetingDns.deleteTunnel user tunnelId).run)
  | .createTunnelSession user tunnelId => do return .granted (← (FleetingDns.createTunnelSession user tunnelId).run)
  | .authPublickey _ peer serial user publicKey => do
    let (auth, serial) ← FleetingDns.authPublickey config.hub peer serial user publicKey
    return .authenticated auth serial
  | .tcpipForward _ serial port => do
    let (r, port) ← FleetingDns.tcpipForward config.hub serial port
    return .forwarded r port
  | .route sni => do return .routed (← EdgeRouter.handleRouterConnection sni)

structure Shared where
  now : ℕ
  store : Store Key Value
  usedIds : List String
  bruteForceProtection : BruteForceProtection
  hub : Hub

inductive Choice where
  | plain
  | redis (o : Outcome Key)
  | uuid (id : String)
  | port (n : ℕ)
  | indices (l : List ℕ)
  | quota (r : Except ApiError Bool)
  | limited (b : Bool)
  | certificate (r : Except String CertificatePem)
  | keypair (r : Except String SshKeyPair)
  | bind (r : BindReply)
  | head (r : Except String (List LossyText.Octet))
  | dial (r : Except DialError Unit)
  | replay (r : Except String Unit)

namespace Shared

def bind (s : Shared) (call : Call) (port : ℕ) (policy : TeardownPolicy) (liveTunnelId : Option String) :
    BindReply → Option (Shared × BindReply)
  | .bound boundPort =>
    match call with
    | .tcpipForward sid _ _ =>
      -- the OS picks the port only when asked for port 0, and one listener owns a port
      if (port ≠ 0 → boundPort = port) ∧ s.hub.bound boundPort = false then
        (s.hub.openSlot s.now sid boundPort policy liveTunnelId).map fun hub => ({ s with hub := hub }, .bound boundPort)
      else none
    | _ => none
  | reply => some (s, reply)

def dial (s : Shared) (tunnelInfo : TunnelInfo) : Except DialError Unit → Option (Shared × Except DialError Unit)
  | .ok () => if s.hub.bound tunnelInfo.slot then some (s, .ok ()) else none
  | reply => some (s, reply)

def recordAttempt (config : HubConfig) (s : Shared) (attempt : AuthAttempt) : Shared × Option Unit :=
  match s.bruteForceProtection.recordAttempt s.now attempt config.maxAuthAttempts config.authLockoutDuration with
  | some bfp => ({ s with bruteForceProtection := bfp }, some ())
  | none => (s, none)

def perform (config : Config) (s : Shared) (call : Call) : (c : Cmd) → Choice → Option (Shared × c.Reply)
  | .redis c, .redis o => (ExpiringStore.perform s.now s.store c o).map fun r => ({ s with store := r.1 }, r.2)
  | .utcNow, .plain => some (s, s.now)
  | .newUuid, .uuid id => if id ∈ s.usedIds then none else some ({ s with usedIds := id :: s.usedIds }, id)
  | .genPort, .port n => if h : 10000 ≤ n ∧ n < 65535 then some (s, ⟨n, h⟩) else none
  | .genIndices count range, .indices l =>
    if h : ∀ i : Fin count, l.getD i 0 < range then some (s, fun i => ⟨l.getD i 0, h i⟩) else none
  | .canCreateTunnel _, .quota r => some (s, r)
  | .rateLimited _, .limited b => some (s, b)
  | .generateCertificate _, .certificate r => some (s, r)
  | .recordIssuance _, .plain => some (s, ())
  | .generateEd25519Keypair, .keypair r => some (s, r)
  | .isLockedOut peer, .plain =>
    some (s, s.bruteForceProtection.isLockedOut s.now peer config.hub.authLockoutDuration)
  | .recordAttempt peer success serial reason, .plain =>
    some (s.recordAttempt config.hub ⟨s.now, peer, success, serial, reason⟩)
  | .bindSlot port policy liveTunnelId, .bind r => s.bind call port policy liveTunnelId r
  | .readRequestHead, .head r => some (s, r)
  | .dialSlot tunnelInfo, .dial r => s.dial tunnelInfo r
  | .replay _, .replay r => some (s, r)
  | _, _ => none

def complete : Call → Done → Shared → Shared
  | .authPublickey sid _ _ _ _, .authenticated _ serial, s =>
    { s with hub := s.hub.setSession sid fun session => { session with clientCertificateSerial := serial } }
  | _, _, s => s

end Shared

abbrev Ev := Event Shared Cmd Cmd.Reply
abbrev CallThread := Thread Shared Call Cmd Cmd.Reply Done

structure World where
  shared : Shared
  threads : List CallThread

inductive Action where
  | tick (d : ℕ)
  | lapse (key : Key)
  | arrive (call : Call)
  | exec (tid : ℕ) (o : Choice)
  | cancel (tid : ℕ)
  | sshConnect (peer : SocketAddr)
  | sshEnd (sid : ℕ)
  | cancelTcpipForward (sid port : ℕ)
  | heartbeat (task : ℕ) (o : Outcome Key)
  | reaperPoll (task : ℕ)
  | viewerOpened (task : ℕ)
  | viewerClosed (task : ℕ)

namespace World

def init (now : ℕ) : World := ⟨⟨now, ∅, [], .empty, .empty⟩, []⟩

def idle (w : World) (sid : ℕ) : Bool :=
  (w.shared.hub.sessions[sid]?.any fun session => session.connected)
    && w.threads.all fun th => th.prog.next.isNone || th.call.session != some sid

def admits (w : World) : Call → Bool
  | .authPublickey sid peer serial _ _ => w.idle sid && (w.shared.hub.sessions[sid]?.any fun session =>
      session.peerAddr = peer && session.clientCertificateSerial = serial)
  | .tcpipForward sid serial _ => w.idle sid && (w.shared.hub.sessions[sid]?.any fun session =>
      session.clientCertificateSerial = serial)
  | _ => true

def withHub (w : World) (hub : Hub) : World := { w with shared := { w.shared with hub := hub } }

def withStore (w : World) (store : Store Key Value) : World := { w with shared := { w.shared with store := store } }

def markTunnelLive (w : World) (tunnelId : String) (o : Outcome Key) : Option World :=
  (ExpiringStore.perform w.shared.now w.shared.store (.setEx (.tunnelLive tunnelId) (.text "1") tunnelLiveTtl) o).map
    fun r => w.withStore r.1

def step (config : Config) (w : World) : Action → Option World
  | .tick d => some { w with shared := { w.shared with now := w.shared.now + d } }
  | .lapse key => (ExpiringStore.lapse w.shared.now w.shared.store key).map w.withStore
  | .arrive call =>
    if w.admits call then some { w with threads := w.threads ++ [⟨call, [], call.program config⟩] } else none
  | .exec tid o => (exec (Shared.perform config) Shared.complete w.shared w.threads tid o).map
      fun r => ⟨r.1, r.2⟩
  | .cancel tid => w.threads[tid]?.map fun th => { w with threads := w.threads.set tid (th.stop .cancelled) }
  | .sshConnect peer =>
    some (w.withHub { w.shared.hub with sessions := w.shared.hub.sessions ++ [⟨peer, none, ∅, true⟩] })
  | .sshEnd sid => if w.idle sid then some (w.withHub (w.shared.hub.dropSession sid)) else none
  | .cancelTcpipForward sid port =>
    if w.idle sid then some (w.withHub (w.shared.hub.cancelTcpipForward sid port).1) else none
  | .heartbeat task o => (w.shared.hub.heartbeatOf task).bind fun tunnelId => w.markTunnelLive tunnelId o
  | .reaperPoll task => (w.shared.hub.reaperPoll w.shared.now task).map w.withHub
  | .viewerOpened task =>
    if (w.shared.hub.tasks[task]?.any Task.listening) then
      some (w.withHub (w.shared.hub.setActivity task fun activity => activity.connectionOpened w.shared.now))
    else none
  | .viewerClosed task =>
    if ((w.shared.hub.activityOf task).any fun activity => 0 < activity.active) then
      some (w.withHub (w.shared.hub.setActivity task fun activity => activity.connectionClosed w.shared.now))
    else none

end World

namespace Schedule

def deployment : Config :=
  ⟨⟨1800, 7200, ⟨1800 * second, 7200 * second, 10⟩, "127.0.0.1"⟩, ⟨some "session", true, false, 3, 300 * second, id⟩⟩

def start : World := World.init (1700000000 * second)

open GuardedRuns in
lemma started (as : List Action) (p : World → Bool) (h : (runs (World.step deployment) Free start as).any p = true) :
    ∃ w, Reach (World.step deployment) Free start w ∧ p w = true := reach_of_check _ _ _ as p h

def alice : GitHubUser := ⟨"1", "alice"⟩

def bob : GitHubUser := ⟨"2", "bob"⟩

def request (ttl : ℕ) (subdomain : String) : CreateTunnelRequest := ⟨3000, some ttl, some subdomain, none, none, none⟩

def create (tid port : ℕ) (id publicKey : String) : List Action :=
  [.exec tid (.quota (.ok true)), .exec tid (.redis .ok), .exec tid (.limited false),
    .exec tid (.certificate (.ok ⟨"cert", "key", "01"⟩)), .exec tid .plain, .exec tid .plain, .exec tid (.redis .ok),
    .exec tid .plain, .exec tid .plain, .exec tid (.port port), .exec tid (.redis .ok), .exec tid .plain,
    .exec tid (.uuid id), .exec tid .plain, .exec tid (.redis .ok), .exec tid (.redis .ok), .exec tid (.redis .ok),
    .exec tid (.redis .ok), .exec tid (.redis .ok), .exec tid (.keypair (.ok ⟨"private", publicKey, publicKey⟩)),
    .exec tid .plain, .exec tid (.redis .ok)]

def laptop : SocketAddr := ⟨"203.0.113.7", 50000⟩

def authenticate (tid : ℕ) : List Action :=
  [.exec tid .plain, .exec tid (.redis .ok), .exec tid .plain, .exec tid .plain]

def forward (tid port : ℕ) : List Action :=
  [.exec tid (.redis .ok), .exec tid (.redis .ok), .exec tid (.redis .ok), .exec tid (.bind (.bound port))]

def serve (request : CreateTunnelRequest) (port : ℕ) (id publicKey : String) : List Action :=
  [.arrive (.createTunnel alice request)] ++ create 0 port id publicKey
    ++ [.sshConnect laptop, .arrive (.authPublickey 0 laptop none ("tunnel-" ++ id) publicKey)] ++ authenticate 1
    ++ [.arrive (.tcpipForward 0 (some id) port)] ++ forward 2 port

end Schedule

end FleetingDns
