import DnsAnnounce.Interleave
import DnsAnnounce.Recovery

namespace DnsAnnounce.OwnCalls

open DnsAnnounce.Utf8 DnsAnnounce.Effect DnsAnnounce.Embed DnsAnnounce.Interleave DnsAnnounce.FileSystem
open DnsAnnounce.Route DnsAnnounce.Chain DnsAnnounce.ChainProbe DnsAnnounce.ChainRuns DnsAnnounce.Recovery
open DnsAnnounce.ResolvedBackend (Net ObjectPath BusCall BusResp)
open DnsAnnounce.ResolvedLinks (linkOf noFaults)

section Links

def OnLinks (L : ObjectPath → Prop) : BusCall → Prop
  | .setDns link _ | .setDomains link _ => L link
  | _ => True

def busSays (net : Net) : (c : BusCall) → BusResp c → Prop
  | .readToString path, r => ∀ text, r = Except.ok text → net.files path = .ok text
  | .getLink idx, r => ∀ link, r = Except.ok link → net.link idx = .ok link
  | .managerProxy, _ | .linkProxy _, _ | .setDns _ _, _ | .setDomains _ _, _ => True

/-- The link that a `reset()` would clear is one of these. -/
def ActiveIn (net : Net) (L : ObjectPath → Prop) (self : ResolvedBackend.SystemdResolved) : Prop :=
  ∀ idx link, self.activeLink = some idx → net.link idx = .ok link → L link

variable {net : Net} {L : ObjectPath → Prop} {self : ResolvedBackend.SystemdResolved}

theorem abides_ifindex (interface : Text) : Abides (OnLinks L) (busSays net)
    (fun x => x.2 = self ∧ ∀ idx, x.1 = .ok idx → ResolvedBackend.indexOf net noFaults interface = .ok idx)
    (ResolvedBackend.ifindex ResolvedBackend.sysClassNet interface self) := by
  refine ⟨trivial, fun r hr => ?_⟩
  cases r with
  | error e => exact ⟨rfl, nofun⟩
  | ok text =>
    have hindex : ResolvedBackend.indexOf net noFaults interface = ResolvedBackend.parseIfindex
        (ResolvedBackend.ifindexFile ResolvedBackend.sysClassNet interface) (.ok text) :=
      congrArg (ResolvedBackend.parseIfindex _) (hr text rfl)
    rw [hindex]
    change Abides _ _ _ (Method.propagate (ResolvedBackend.parseIfindex _ (.ok text)) self)
    cases ResolvedBackend.parseIfindex _ (.ok text) with
    | error e => exact ⟨rfl, nofun⟩
    | ok idx => exact ⟨rfl, fun _ h => h⟩

theorem abides_linkProxy (idx : Int) : Abides (OnLinks L) (busSays net)
    (fun x => x.2 = self ∧ ∀ link, x.1 = .ok link → net.link idx = .ok link)
    (ResolvedBackend.linkProxy idx self) := by
  refine ⟨trivial, fun manager _ => ?_⟩
  cases manager with
  | error e => exact ⟨rfl, nofun⟩
  | ok _ =>
    refine ⟨trivial, fun path hpath => ?_⟩
    cases path with
    | error e => exact ⟨rfl, nofun⟩
    | ok path =>
      refine ⟨trivial, fun proxy _ => ?_⟩
      cases proxy with
      | error e => exact ⟨rfl, nofun⟩
      | ok _ => exact ⟨rfl, fun link h => Except.ok.inj h ▸ hpath path rfl⟩

theorem abides_resolved (hself : ActiveIn net L self) {r : Request} (hr : Within net L (.request r)) :
    Abides (OnLinks L) (busSays net) (fun x => ActiveIn net L x.2)
      (serve ResolvedBackend.route r self) := by
  cases r with
  | set interface config =>
    refine (abides_ifindex interface).next (fun idx self' h => ?_) fun e self' h => h.1 ▸ hself
    obtain ⟨rfl, hidx⟩ := h
    refine (abides_linkProxy idx).next (fun link self' h => ?_) fun e self' h => h.1 ▸ hself
    obtain ⟨rfl, hlink⟩ := h
    have hl := hlink link rfl
    have hL := hr link (ResolvedLinks.linkOf_eq_some.mpr ⟨idx, hidx idx rfl, hl⟩)
    refine ⟨hL, fun dns _ => ?_⟩
    cases dns with
    | error e => exact hself
    | ok _ =>
      refine ⟨hL, fun domains _ => ?_⟩
      cases domains with
      | error e => exact hself
      | ok _ =>
        intro idx' link' h hl'
        obtain rfl := Option.some.inj h
        exact Except.ok.inj (hl.symm.trans hl') ▸ hL
  | reset =>
    obtain ⟨active⟩ := self
    cases active with
    | none => exact nofun
    | some idx =>
      have hattempt : Abides (OnLinks L) (busSays net)
          (fun x => x.2 = ⟨none⟩ ∧ ∀ link, x.1 = .ok (.ok link) → net.link idx = .ok link)
          (Method.attempt (ResolvedBackend.linkProxy idx) ⟨none⟩ :
            Prog BusCall BusResp (Except ResolvedBackend.Error _ × _)) :=
        (abides_linkProxy idx).bind fun x hx => ⟨hx.1, fun link h => hx.2 link (Except.ok.inj h)⟩
      refine hattempt.next (fun found self' h => ?_) fun e self' h => h.1 ▸ nofun
      obtain ⟨rfl, hlink⟩ := h
      rcases found with (_ | _) | link
      · exact nofun
      · exact nofun
      · have hL := hself idx link rfl (hlink link rfl)
        refine ⟨hL, fun dns _ => ?_⟩
        cases dns with
        | error e => exact nofun
        | ok _ =>
          refine ⟨hL, fun domains _ => ?_⟩
          cases domains <;> exact nofun

end Links

section Records

open DnsAnnounce.ResolvconfBackend (ProcCall Resolvconf addArgs deleteArgs)

def OwnArgs (name : Text) (args : List Text) : Prop := args = addArgs name ∨ args = deleteArgs name

def OwnCommand (name : Text) : ProcCall → Prop
  | .spawn _ args => OwnArgs name args
  | _ => True

def SameRecord (b self : Resolvconf) : Prop := self.registrationName = b.registrationName

variable {b self : Resolvconf}

theorem minds_run (h : SameRecord b self) {args : List Text} (hargs : OwnArgs b.registrationName args)
    (input : Text) :
    Minds (OwnCommand b.registrationName) (SameRecord b) (ResolvconfBackend.run args input self) := by
  refine .this (.bind (.lift ⟨hargs, fun _ => trivial⟩ h) fun spawned self h => ?_)
  refine .bind (.propagate _ h) fun _ self h => ?_
  refine .bind (.lift ⟨trivial, fun _ => trivial⟩ h) fun written self h => ?_
  refine .bind (.propagate _ h) fun _ self h => ?_
  refine .bind (.lift ⟨trivial, fun _ => trivial⟩ h) fun waited self h => ?_
  refine .bind (.propagate _ h) fun output self h => ?_
  rw [Method.ite_apply]
  split_ifs <;> exact h

theorem minds_resolvconf (h : SameRecord b self) (r : Request) :
    Minds (OwnCommand b.registrationName) (SameRecord b) (serve ResolvconfBackend.route r self) := by
  cases r with
  | set interface config => exact .this (.bind (minds_run h (.inl (congrArg addArgs h)) _) fun _ _ h => h)
  | reset =>
    refine .this ?_
    rw [Method.ite_apply]
    split_ifs
    · exact h
    · exact .bind h fun _ self' h' => minds_run h' (.inr (congrArg deleteArgs h)) []

end Records

section Programs

open DnsAnnounce.StaticRetry (OnOwn SameFiles minds_serve)
open DnsAnnounce.StaticBackend (withPath opened)
open DnsAnnounce.StaticRestore (resolvConf)

/-- The calls that are about an application's own: its links, its record, its two files. -/
inductive Own (L : ObjectPath → Prop) : Backend → HostCall → Prop
  | bus (b : ResolvedBackend.SystemdResolved) (c : BusCall) : OnLinks L c →
    Own L (.SystemdResolved b) (.bus c)
  | proc (b : ResolvconfBackend.Resolvconf) (c : ResolvconfBackend.ProcCall) :
    OwnCommand b.registrationName c → Own L (.Resolvconf b) (.proc c)
  | fs (b : StaticBackend.StaticResolvConf) (c : FsCall) : OnOwn b c → Own L (.StaticResolvConf b) (.fs c)

def hostSays (net : Net) : (c : HostCall) → HostResp c → Prop
  | .bus c, r => busSays net c r
  | .proc _, _ | .fs _, _ => True

/-- The instances that an application goes through on a host where `b` was picked. -/
inductive Fits (net : Net) (L : ObjectPath → Prop) : Backend → LinuxDnsRoute → Prop
  | systemdResolved (b self : ResolvedBackend.SystemdResolved) : ActiveIn net L self →
    Fits net L (.SystemdResolved b) (resolvedRoute self)
  | resolvconf (b self : ResolvconfBackend.Resolvconf) : SameRecord b self →
    Fits net L (.Resolvconf b) (resolvconfRoute self)
  | staticResolvConf (b self : StaticBackend.StaticResolvConf) : SameFiles b self →
    Fits net L (.StaticResolvConf b) (staticRoute self)

variable {net : Net} {L : ObjectPath → Prop} {b : Backend} {self : LinuxDnsRoute}

theorem abides_request (h : Fits net L b self) {r : Request}
    (hr : ∀ r', b = .SystemdResolved r' → Within net L (.request r)) :
    Abides (Own L b) (hostSays net) (fun x => Fits net L b x.2) (serve Chain.route r self) := by
  cases h with
  | systemdResolved b self hself =>
    rw [serve_resolved]
    exact (abides_resolved hself (hr b rfl)).within (fun c hc => .bus b c hc) (fun c r hr => hr)
      fun self hself => .systemdResolved b self hself
  | resolvconf b self hself =>
    rw [serve_resolvconf]
    have hminds : Abides _ (fun _ _ => True) _ _ := .of_minds (minds_resolvconf hself r)
    exact hminds.within (fun c hc => .proc b c hc) (fun _ _ _ => trivial)
      fun self hself => .resolvconf b self hself
  | staticResolvConf b self hself =>
    rw [serve_static]
    have hminds : Abides _ (fun _ _ => True) _ _ := .of_minds (minds_serve hself r)
    exact hminds.within (fun c hc => .fs b c hc) (fun _ _ _ => trivial)
      fun self hself => .staticResolvConf b self hself

def opening (owner : Text) : HostProg LinuxDnsRoute :=
  (embed fsCalls (StaticBackend.new owner)).bind fun b => .ret ⟨.StaticResolvConf b⟩

theorem autoDetect_cases (s : Surroundings) (owner : Text) :
    (∃ b, autoDetect s owner = .ret ⟨b⟩) ∨ autoDetect s owner = opening owner := by
  rw [autoDetect]
  cases ResolvedBackend.probe s.readLink s.systemBus with
  | ok b => exact .inl ⟨_, rfl⟩
  | error e =>
    cases ResolvconfBackend.probe s.environment owner with
    | ok b => exact .inl ⟨_, rfl⟩
    | error e => exact .inr rfl

theorem probe_cases (s : Surroundings) (owner : Text) :
    (∃ b, Chain.probe s owner = .ret ⟨b⟩) ∨ Chain.probe s owner = opening owner := by
  rw [Chain.probe]
  cases s.overrideVar with
  | none => exact autoDetect_cases s owner
  | some name =>
    dsimp only
    rw [Chain.probeNamed]
    split_ifs
    · cases ResolvedBackend.probe s.readLink s.systemBus with
      | ok b => exact .inl ⟨_, rfl⟩
      | error e => exact autoDetect_cases s owner
    · cases ResolvconfBackend.probe s.environment owner with
      | ok b => exact .inl ⟨_, rfl⟩
      | error e => exact autoDetect_cases s owner
    · exact .inr (Prog.bind_assoc _ _ _)
    · exact autoDetect_cases s owner

theorem abides_withPath {b : StaticBackend.StaticResolvConf} {owner : Text} {path : PathBuf}
    (howner : b.owner = owner) (hpath : b.path = path) :
    Abides (OnOwn b) (fun _ _ => True) (SameFiles b) (withPath owner path) := by
  have hbackup : b.backupPath = StaticBackend.backupPathFor path := by rw [b.backupPath_eq, hpath]
  have hsame (active : Bool) : SameFiles b ⟨owner, path, StaticBackend.backupPathFor path, active, rfl⟩ :=
    ⟨hpath.symm, hbackup.symm, howner.symm⟩
  have hcurrent : Abides (OnOwn b) (fun _ _ => True) (fun _ => True) (StaticBackend.currentOwner path) :=
    .of_confined (StaticRetry.confined_currentOwner hpath.symm)
  refine hcurrent.bind fun current _ => ?_
  split_ifs
  · exact ⟨.inr hbackup.symm, fun _ _ => hsame _⟩
  · exact hsame false

theorem abides_opening {b : StaticBackend.StaticResolvConf} {owner : Text} (howner : b.owner = owner)
    (hpath : b.path = resolvConf) : Abides (Own L (.StaticResolvConf b)) (hostSays net)
      (Fits net L (.StaticResolvConf b)) (opening owner) :=
  ((abides_withPath howner hpath).embed (fun c hc => .fs b c hc) fun _ _ _ => trivial).bind
    fun self hself => .staticResolvConf b self hself

theorem fits_fresh {s : Surroundings} {owner : Text} {files : Fs} (h : Fresh s owner files b) :
    Fits net L b ⟨b⟩ := by
  cases h with
  | systemdResolved => exact .systemdResolved ⟨none⟩ ⟨none⟩ nofun
  | resolvconf binary => exact .resolvconf _ _ rfl
  | staticResolvConf => exact .staticResolvConf _ _ ⟨rfl, rfl, rfl⟩

variable {s : Surroundings} {owner : Text} {m : World}

theorem abides_probe : Abides (Own L (started s owner net m).1.backend) (hostSays net)
    (Fits net L (started s owner net m).1.backend) (Chain.probe s owner) := by
  have hfresh := fresh_started s owner net m
  obtain ⟨b, hb⟩ | hopening := probe_cases s owner
  · rw [started, hb] at hfresh ⊢
    exact fits_fresh hfresh
  · have hbackend : (started s owner net m).1.backend =
        .StaticResolvConf (opened owner resolvConf m.files) := by
      rw [started, hopening, opening, exec_bind, host, exec_new]
      rfl
    rw [hbackend, hopening]
    exact abides_opening (by rw [StaticBackend.opened_eq]) (by rw [StaticBackend.opened_eq])

def life (s : Surroundings) (owner : Text) :
    List Event → LinuxDnsRoute → HostProg (List (Except Error Unit))
  | [], _ => .ret []
  | .request r :: events, self => (serve Chain.route r self).bind fun x =>
    (life s owner events x.2).bind fun reports => .ret (x.1 :: reports)
  | .restart :: events, _ => (Chain.probe s owner).bind (life s owner events)

theorem abides_life {events : List Event} (hwithin : ∀ r,
      (started s owner net m).1.backend = .SystemdResolved r → ∀ e ∈ events, Within net L e)
    {self : LinuxDnsRoute} (h : Fits net L (started s owner net m).1.backend self) :
    Abides (Own L (started s owner net m).1.backend) (hostSays net) (fun _ => True)
      (life s owner events self) := by
  induction events generalizing self with
  | nil => trivial
  | cons e events ih =>
    have htail : ∀ r, (started s owner net m).1.backend = .SystemdResolved r →
        ∀ e ∈ events, Within net L e := fun r hr e he => hwithin r hr e (List.mem_cons_of_mem _ he)
    cases e with
    | request r =>
      refine (abides_request h fun r' hr => hwithin r' hr _ List.mem_cons_self).bind fun x hx => ?_
      exact (ih htail hx).bind fun _ _ => trivial
    | restart => exact abides_probe.bind fun self h => ih htail h

end Programs

end DnsAnnounce.OwnCalls
