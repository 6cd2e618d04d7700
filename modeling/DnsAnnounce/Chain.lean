import DnsAnnounce.Embed
import DnsAnnounce.ResolvconfBackend
import DnsAnnounce.ResolvedBackend
import DnsAnnounce.StaticRestore

namespace DnsAnnounce.Chain

open DnsAnnounce.Utf8 DnsAnnounce.Effect DnsAnnounce.Embed DnsAnnounce.Runs DnsAnnounce.FileSystem
open DnsAnnounce.Route DnsAnnounce.ResolvedBackend DnsAnnounce.ResolvconfBackend
open DnsAnnounce.StaticBackend hiding Reusing set reset route

inductive HostCall
  | bus (c : BusCall)
  | proc (c : ProcCall)
  | fs (c : FsCall)

def HostResp : HostCall → Type
  | .bus c => BusResp c
  | .proc c => ProcResp c
  | .fs c => FsResp c

abbrev HostProg (α : Type) := Prog HostCall HostResp α

inductive Backend
  | SystemdResolved (b : SystemdResolved)
  | Resolvconf (b : Resolvconf)
  | StaticResolvConf (b : StaticResolvConf)

def Backend.name : Backend → Text
  | .SystemdResolved _ => "systemd-resolved".toList
  | .Resolvconf _ => "resolvconf".toList
  | .StaticResolvConf _ => "static-resolv-conf".toList

inductive Error
  | SystemdResolved (e : ResolvedBackend.Error)
  | Resolvconf (e : ResolvconfBackend.Error)
  | StaticResolvConf (e : ErrorKind)
  deriving DecidableEq

structure LinuxDnsRoute where
  backend : Backend

def LinuxDnsRoute.backendName (self : LinuxDnsRoute) : Text := self.backend.name

def busCalls : Inclusion BusCall BusResp HostCall HostResp := ⟨.bus, fun _ r => r⟩

def procCalls : Inclusion ProcCall ProcResp HostCall HostResp := ⟨.proc, fun _ r => r⟩

def fsCalls : Inclusion FsCall FsResp HostCall HostResp := ⟨.fs, fun _ r => r⟩

def resolvedRoute (b : SystemdResolved) : LinuxDnsRoute := ⟨.SystemdResolved b⟩

def resolvconfRoute (b : Resolvconf) : LinuxDnsRoute := ⟨.Resolvconf b⟩

def staticRoute (b : StaticResolvConf) : LinuxDnsRoute := ⟨.StaticResolvConf b⟩

def set (interface : Text) (config : DnsRouteConfig) : Method HostCall HostResp LinuxDnsRoute Error Unit :=
  fun self => match self.backend with
    | .SystemdResolved b =>
      within busCalls resolvedRoute .SystemdResolved (ResolvedBackend.set interface config) b
    | .Resolvconf b =>
      within procCalls resolvconfRoute .Resolvconf (ResolvconfBackend.set interface config) b
    | .StaticResolvConf b =>
      within fsCalls staticRoute .StaticResolvConf (StaticBackend.set interface config) b

def reset : Method HostCall HostResp LinuxDnsRoute Error Unit :=
  fun self => match self.backend with
    | .SystemdResolved b => within busCalls resolvedRoute .SystemdResolved ResolvedBackend.reset b
    | .Resolvconf b => within procCalls resolvconfRoute .Resolvconf ResolvconfBackend.reset b
    | .StaticResolvConf b => within fsCalls staticRoute .StaticResolvConf StaticBackend.reset b

def route : DnsRoute HostCall HostResp LinuxDnsRoute Error := ⟨set, reset⟩

section Probe

/-- What `probe()` looks at, other than the file it may take over. -/
structure Surroundings where
  overrideVar : Option Text
  readLink : PathBuf → Option PathBuf
  systemBus : Except Text Unit
  environment : Environment

variable (s : Surroundings)

def probeNamed (name owner : Text) : HostProg (Option Backend) :=
  if name = "systemd-resolved".toList then
    .ret ((ResolvedBackend.probe s.readLink s.systemBus).toOption.map .SystemdResolved)
  else if name = "resolvconf".toList then
    .ret ((ResolvconfBackend.probe s.environment owner).toOption.map .Resolvconf)
  else if name = "static-resolv-conf".toList then
    (embed fsCalls (StaticBackend.new owner)).bind fun b => .ret (some (.StaticResolvConf b))
  else .ret none

/-- The first of the backends, in the order of their priority, that is usable. -/
def autoDetect (owner : Text) : HostProg LinuxDnsRoute :=
  match ResolvedBackend.probe s.readLink s.systemBus with
  | .ok b => .ret ⟨.SystemdResolved b⟩
  | .error _ => match ResolvconfBackend.probe s.environment owner with
    | .ok b => .ret ⟨.Resolvconf b⟩
    | .error _ => (embed fsCalls (StaticBackend.new owner)).bind fun b => .ret ⟨.StaticResolvConf b⟩

def probe (owner : Text) : HostProg LinuxDnsRoute :=
  match s.overrideVar with
  | none => autoDetect s owner
  | some name => (probeNamed s name owner).bind fun
    | some backend => .ret ⟨backend⟩
    | none => autoDetect s owner

end Probe

/-- A host: what each backend acts on. -/
structure Machine (L P F : Type) where
  links : L
  processes : P
  files : F

variable {L P F : Type}

def hostHandler (hb : Handler BusCall BusResp L) (hp : Handler ProcCall ProcResp P)
    (hf : Handler FsCall FsResp F) : Handler HostCall HostResp (Machine L P F)
  | .bus c, m => ((hb c m.links).1, { m with links := (hb c m.links).2 })
  | .proc c, m => ((hp c m.processes).1, { m with processes := (hp c m.processes).2 })
  | .fs c, m => ((hf c m.files).1, { m with files := (hf c m.files).2 })

def linksPart : Part L (Machine L P F) where
  get m := m.links
  put m links := { m with links := links }
  get_put _ _ := rfl
  put_put _ _ _ := rfl
  put_get _ := rfl

def processesPart : Part P (Machine L P F) where
  get m := m.processes
  put m processes := { m with processes := processes }
  get_put _ _ := rfl
  put_put _ _ _ := rfl
  put_get _ := rfl

def filesPart : Part F (Machine L P F) where
  get m := m.files
  put m files := { m with files := files }
  get_put _ _ := rfl
  put_put _ _ _ := rfl
  put_get _ := rfl

section Delegation

variable (hb : Handler BusCall BusResp L) (hp : Handler ProcCall ProcResp P) (hf : Handler FsCall FsResp F)

theorem hosts_bus : Hosts busCalls linksPart hb (hostHandler hb hp hf) := ⟨fun _ _ => rfl, fun _ _ => rfl⟩

theorem hosts_proc : Hosts procCalls processesPart hp (hostHandler hb hp hf) :=
  ⟨fun _ _ => rfl, fun _ _ => rfl⟩

theorem hosts_fs : Hosts fsCalls filesPart hf (hostHandler hb hp hf) := ⟨fun _ _ => rfl, fun _ _ => rfl⟩

variable {Call Self ε S T : Type} {Resp : Call → Type}

section

variable {host : Handler HostCall HostResp T} {inner : DnsRoute Call Resp Self ε} {h : Handler Call Resp S}
  {i : Inclusion Call Resp HostCall HostResp} {p : Part S T} {wrap : Self → LinuxDnsRoute}
  {wrapError : ε → Error} {b : Self} {r : Request}

theorem exec_serve (hh : Hosts i p h host)
    (hserve : serve route r (wrap b) = within i wrap wrapError (serve inner r) b) (m : T) :
    exec host (serve route r (wrap b)) m =
      (((outcome inner h r (b, p.get m)).mapError wrapError, wrap (after inner h (b, p.get m) r).1),
        p.put m (after inner h (b, p.get m) r).2) := by
  rw [hserve, exec_within wrap wrapError hh]
  rfl

theorem after_serve (hh : Hosts i p h host)
    (hserve : serve route r (wrap b) = within i wrap wrapError (serve inner r) b) (m : T) :
    after route host (wrap b, m) r =
      (wrap (after inner h (b, p.get m) r).1, p.put m (after inner h (b, p.get m) r).2) :=
  congrArg (fun x : (Except Error Unit × LinuxDnsRoute) × T => (x.1.2, x.2)) (exec_serve hh hserve m)

theorem outcome_serve (hh : Hosts i p h host)
    (hserve : serve route r (wrap b) = within i wrap wrapError (serve inner r) b) (m : T) :
    outcome route host r (wrap b, m) = (outcome inner h r (b, p.get m)).mapError wrapError :=
  congrArg (fun x : (Except Error Unit × LinuxDnsRoute) × T => x.1.1) (exec_serve hh hserve m)

end

theorem serve_resolved (r : Request) (b : SystemdResolved) : serve route r (resolvedRoute b) =
    within busCalls resolvedRoute .SystemdResolved (serve ResolvedBackend.route r) b := by
  cases r <;> rfl

theorem serve_resolvconf (r : Request) (b : Resolvconf) : serve route r (resolvconfRoute b) =
    within procCalls resolvconfRoute .Resolvconf (serve ResolvconfBackend.route r) b := by
  cases r <;> rfl

theorem serve_static (r : Request) (b : StaticResolvConf) : serve route r (staticRoute b) =
    within fsCalls staticRoute .StaticResolvConf (serve StaticBackend.route r) b := by
  cases r <;> rfl

section

variable (m : Machine L P F)

theorem after_resolved (b : SystemdResolved) (r : Request) :
    after route (hostHandler hb hp hf) (resolvedRoute b, m) r =
      (resolvedRoute (after ResolvedBackend.route hb (b, m.links) r).1,
        { m with links := (after ResolvedBackend.route hb (b, m.links) r).2 }) :=
  after_serve (hosts_bus hb hp hf) (serve_resolved r b) m

theorem after_resolvconf (b : Resolvconf) (r : Request) :
    after route (hostHandler hb hp hf) (resolvconfRoute b, m) r =
      (resolvconfRoute (after ResolvconfBackend.route hp (b, m.processes) r).1,
        { m with processes := (after ResolvconfBackend.route hp (b, m.processes) r).2 }) :=
  after_serve (hosts_proc hb hp hf) (serve_resolvconf r b) m

theorem after_static (b : StaticResolvConf) (r : Request) :
    after route (hostHandler hb hp hf) (staticRoute b, m) r =
      (staticRoute (after StaticBackend.route hf (b, m.files) r).1,
        { m with files := (after StaticBackend.route hf (b, m.files) r).2 }) :=
  after_serve (hosts_fs hb hp hf) (serve_static r b) m

theorem outcome_resolved (b : SystemdResolved) (r : Request) :
    outcome route (hostHandler hb hp hf) r (resolvedRoute b, m) =
      (outcome ResolvedBackend.route hb r (b, m.links)).mapError .SystemdResolved :=
  outcome_serve (hosts_bus hb hp hf) (serve_resolved r b) m

theorem outcome_resolvconf (b : Resolvconf) (r : Request) :
    outcome route (hostHandler hb hp hf) r (resolvconfRoute b, m) =
      (outcome ResolvconfBackend.route hp r (b, m.processes)).mapError .Resolvconf :=
  outcome_serve (hosts_proc hb hp hf) (serve_resolvconf r b) m

theorem outcome_static (b : StaticResolvConf) (r : Request) :
    outcome route (hostHandler hb hp hf) r (staticRoute b, m) =
      (outcome StaticBackend.route hf r (b, m.files)).mapError .StaticResolvConf :=
  outcome_serve (hosts_fs hb hp hf) (serve_static r b) m

end

end Delegation

end DnsAnnounce.Chain
