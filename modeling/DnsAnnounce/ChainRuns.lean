import DnsAnnounce.ChainProbe
import DnsAnnounce.ResolvconfRecords
import DnsAnnounce.ResolvedLinks

namespace DnsAnnounce.ChainRuns

open DnsAnnounce.Utf8 DnsAnnounce.Address DnsAnnounce.Effect DnsAnnounce.Embed DnsAnnounce.Runs
open DnsAnnounce.FileSystem DnsAnnounce.Route DnsAnnounce.StaticRestore DnsAnnounce.Chain DnsAnnounce.ChainProbe
open DnsAnnounce.ResolvconfBackend (Host procHandler)
open DnsAnnounce.ResolvedBackend (Net Links ObjectPath busHandler blank pushed)
open DnsAnnounce.ResolvedLinks (linkOf)
open DnsAnnounce.StaticBackend (OneLine opened render)

abbrev World := Machine Links Host Fs

def host (net : Net) : Handler HostCall HostResp World := hostHandler (busHandler net) procHandler fsHandler

/-- The application's calls, and its starts: each of them probes anew. -/
inductive Event
  | request (r : Request)
  | restart

def step (s : Surroundings) (owner : Text) (net : Net) (st : LinuxDnsRoute × World) :
    Event → LinuxDnsRoute × World
  | .request r => after Chain.route (host net) st r
  | .restart => exec (host net) (Chain.probe s owner) st.2

def started (s : Surroundings) (owner : Text) (net : Net) (m : World) : LinuxDnsRoute × World :=
  exec (host net) (Chain.probe s owner) m

/-- The override that is in place, and whether a `reset()` would undo it. -/
structure Intent where
  inPlace : Option DnsRouteConfig
  known : Bool
  deriving DecidableEq

def Intent.start : Intent := ⟨none, false⟩

/-- What the application's calls ask for: a backend that leaves no record of the
override for the next process does not know of it after a restart. -/
def intend (remembers : Bool) (i : Intent) : Event → Intent
  | .request (.set _ config) => ⟨some config, true⟩
  | .request .reset => if i.known then .start else i
  | .restart => ⟨i.inPlace, remembers && i.inPlace.isSome⟩

/-- Only the marked file outlives the process that wrote it. -/
def remembers : Backend → Bool
  | .StaticResolvConf _ => true
  | _ => false

/-- A host with this configuration in place, and nothing else changed. -/
def inPlace (link : ObjectPath) (m : World) (config : DnsRouteConfig) : Backend → World
  | .SystemdResolved _ => { m with links := Function.update m.links link (pushed config) }
  | .Resolvconf b =>
    let servers := config.servers.map IpAddr.display
    { m with processes := .idle (Function.update m.processes.records b.registrationName (some servers)) }
  | .StaticResolvConf b =>
    let original := (m.files b.path).getD []
    let written := encode (render b.owner config original)
    { m with files := put (put m.files b.backupPath (some original)) b.path (some written) }

def overridden (link : ObjectPath) (m : World) (b : Backend) (config : Option DnsRouteConfig) : World :=
  config.elim m fun config => inPlace link m config b

/-- The host holds nothing of this application's, and it has a way to tell. -/
inductive Clean (link : ObjectPath) (m : World) : Backend → Prop
  | systemdResolved (b : ResolvedBackend.SystemdResolved) : m.links link = blank →
    Clean link m (.SystemdResolved b)
  | resolvconf (b : ResolvconfBackend.Resolvconf) : m.processes = .idle m.processes.records →
    m.processes.records b.registrationName = none → Clean link m (.Resolvconf b)
  | staticResolvConf (b : StaticBackend.StaticResolvConf) : OneLine b.owner → m.files b.path ≠ some [] →
    m.files b.backupPath = none → Clean link m (.StaticResolvConf b)

/-- A `set()` is about the link; only systemd-resolved asks for the interface. -/
inductive Targets (net : Net) (link : ObjectPath) : Backend → Event → Prop
  | link (b : Backend) (interface : Text) (config : DnsRouteConfig) : linkOf net interface = some link →
    Targets net link b (.request (.set interface config))
  | anywhere (b : Backend) (e : Event) : (∀ r, b ≠ .SystemdResolved r) → Targets net link b e
  | reset (b : Backend) : Targets net link b (.request .reset)
  | restart (b : Backend) : Targets net link b .restart

/-- What becomes of the picked backend `b` while it carries out an intent. -/
def instanceFor (net : Net) (link : ObjectPath) (i : Intent) : Backend → Backend → Prop
  | .SystemdResolved _, b => ∃ active, b = .SystemdResolved ⟨active⟩ ∧ active.isSome = i.known ∧
      ∀ idx, active = some idx → net.link idx = .ok link
  | .Resolvconf b, b' => b' = .Resolvconf { b with active := i.known }
  | .StaticResolvConf b, b' => b' = .StaticResolvConf { b with active := i.known } ∧
      i.known = i.inPlace.isSome

structure CarriesOut (net : Net) (link : ObjectPath) (m : World) (b : Backend)
    (st : LinuxDnsRoute × World) (i : Intent) : Prop where
  world : st.2 = overridden link m b i.inPlace
  backend : instanceFor net link i b st.1.backend

section Steps

variable {s : Surroundings} {owner : Text} {net : Net} {link : ObjectPath} {m : World} {i : Intent}

section Resolved

variable {b : ResolvedBackend.SystemdResolved}

theorem Targets.linkOf {interface : Text} {config : DnsRouteConfig}
    (h : Targets net link (.SystemdResolved b) (.request (.set interface config))) :
    ResolvedLinks.linkOf net interface = some link := by
  cases h with
  | link _ _ hlinkOf => exact hlinkOf
  | anywhere _ hnot => exact absurd rfl (hnot b)

theorem links_overridden (hblank : m.links link = blank) (config : Option DnsRouteConfig) :
    overridden link m (.SystemdResolved b) config =
      { m with links := Function.update m.links link (config.elim blank pushed) } := by
  cases config with
  | none =>
    change m = { m with links := Function.update m.links link blank }
    rw [← hblank, Function.update_eq_self]
  | some config => rfl

theorem resolved_request (hclean : Clean link m (.SystemdResolved b)) {st : LinuxDnsRoute × World}
    (h : CarriesOut net link m (.SystemdResolved b) st i) {r : Request}
    (ht : Targets net link (.SystemdResolved b) (.request r)) :
    CarriesOut net link m (.SystemdResolved b) (after Chain.route (host net) st r)
      (intend false i (.request r)) := by
  obtain ⟨_, hblank⟩ := hclean
  obtain ⟨⟨backend⟩, world⟩ := st
  obtain ⟨hworld, active, hbackend, hknown, hlink⟩ := h
  obtain rfl : world = _ := hworld
  obtain rfl : backend = _ := hbackend
  rw [show (⟨.SystemdResolved ⟨active⟩⟩ : LinuxDnsRoute) = resolvedRoute ⟨active⟩ from rfl, host, after_resolved,
    links_overridden hblank]
  cases r with
  | set interface config =>
    obtain ⟨idx, hidx, hl⟩ := ResolvedLinks.linkOf_eq_some.mp ht.linkOf
    rw [ResolvedLinks.after_set hidx hl, Function.update_idem]
    refine ⟨rfl, some idx, rfl, rfl, fun idx' h => ?_⟩
    rwa [← Option.some.inj h]
  | reset =>
    cases active with
    | none =>
      rw [ResolvedLinks.after_reset_inactive, ← links_overridden hblank]
      have hi : intend false i (.request .reset) = i := if_neg (by rw [← hknown]; decide)
      rw [hi]
      exact ⟨rfl, none, rfl, hknown, hlink⟩
    | some idx =>
      rw [ResolvedLinks.after_reset (hlink idx rfl), Function.update_idem]
      have hi : intend false i (.request .reset) = .start := if_pos hknown.symm
      rw [hi]
      exact ⟨(links_overridden hblank none).symm, none, rfl, rfl, nofun⟩

end Resolved

section Resolvconf

variable {b : ResolvconfBackend.Resolvconf}

def serversOf (config : DnsRouteConfig) : List Text := config.servers.map IpAddr.display

theorem processes_overridden (hclean : Clean link m (.Resolvconf b)) (config : Option DnsRouteConfig) :
    let records := Function.update m.processes.records b.registrationName (config.map serversOf)
    overridden link m (.Resolvconf b) config = { m with processes := .idle records } := by
  obtain - | ⟨_, hidle, hnone⟩ := hclean
  cases config with
  | none =>
    rw [Option.map_none, ← hnone, Function.update_eq_self]
    change m = { m with processes := .idle m.processes.records }
    rw [← hidle]
  | some config => rfl

theorem resolvconf_request (hclean : Clean link m (.Resolvconf b)) {st : LinuxDnsRoute × World}
    (h : CarriesOut net link m (.Resolvconf b) st i) (r : Request) :
    CarriesOut net link m (.Resolvconf b) (after Chain.route (host net) st r)
      (intend false i (.request r)) := by
  obtain ⟨⟨backend⟩, world⟩ := st
  obtain ⟨hworld, hbackend⟩ := h
  obtain rfl : world = _ := hworld
  obtain rfl : backend = _ := hbackend
  have hnone := processes_overridden hclean none
  rw [show (⟨.Resolvconf { b with active := i.known }⟩ : LinuxDnsRoute) =
    resolvconfRoute { b with active := i.known } from rfl, host, after_resolvconf, processes_overridden hclean]
  dsimp only
  cases r with
  | set interface config =>
    rw [ResolvconfRecords.after_set, Function.update_idem]
    exact ⟨rfl, rfl⟩
  | reset =>
    cases hknown : i.known with
    | false =>
      rw [ResolvconfRecords.after_reset_inactive _ (by rfl), ← processes_overridden hclean]
      have hi : intend false i (.request .reset) = i := if_neg (by rw [hknown]; decide)
      rw [hi]
      exact ⟨rfl, by rw [instanceFor, hknown]; rfl⟩
    | true =>
      rw [ResolvconfRecords.after_reset_active _ (by rfl), Function.update_idem]
      have hi : intend false i (.request .reset) = .start := if_pos hknown
      rw [hi]
      exact ⟨hnone.symm, rfl⟩

end Resolvconf

section Static

variable {b : StaticBackend.StaticResolvConf}

def filesWith (b : StaticBackend.StaticResolvConf) (fs : Fs) (config : Option DnsRouteConfig) : Fs :=
  config.elim fs fun config => StaticBackend.afterSet b config fs

theorem files_overridden (hbackup : m.files b.backupPath = none) (config : Option DnsRouteConfig) :
    overridden link m (.StaticResolvConf b) config = { m with files := filesWith b m.files config } := by
  have hr : ¬ StaticBackend.Reusing b m.files := fun hr => by simpa [hbackup] using hr.2
  cases config with
  | none => rfl
  | some config =>
    rw [filesWith, Option.elim_some, StaticBackend.afterSet, StaticBackend.originalOf_takeover hr]
    rfl

theorem afterSet_filesWith (hone : OneLine b.owner) (config : Option DnsRouteConfig) (next : DnsRouteConfig)
    (fs : Fs) : StaticBackend.afterSet b next (filesWith b fs config) = StaticBackend.afterSet b next fs := by
  cases config with
  | none => rfl
  | some config => exact StaticBackend.afterSet_afterSet hone config next fs

theorem afterReset_afterSet (hone : OneLine b.owner) (hcontent : m.files b.path ≠ some [])
    (hbackup : m.files b.backupPath = none) (hactive : b.active = true) (config : DnsRouteConfig) :
    StaticBackend.afterReset b (StaticBackend.afterSet b config m.files) = m.files := by
  have hr : ¬ StaticBackend.Reusing b m.files := fun hr => by simpa [hbackup] using hr.2
  have howner : StaticBackend.ownerIn (StaticBackend.afterSet b config m.files b.path) = some b.owner := by
    rw [StaticBackend.afterSet_path]
    exact (StaticBackend.ownerIn_render ..).mpr hone
  rw [StaticBackend.afterReset_restores hactive howner (StaticBackend.afterSet_backupPath ..),
    StaticBackend.originalOf_takeover hr]
  funext p
  by_cases hb : p = b.backupPath
  · rw [hb, put_self, hbackup]
  · rw [put_other _ hb]
    by_cases hp : p = b.path
    · rw [hp, put_self]
      cases hfile : m.files b.path with
      | none => rfl
      | some content => exact if_neg fun he => hcontent (hfile.trans (congrArg some he))
    · rw [put_other _ hp, StaticBackend.afterSet, put_other _ hp, put_other _ hb]

theorem static_request (hclean : Clean link m (.StaticResolvConf b)) {st : LinuxDnsRoute × World}
    (h : CarriesOut net link m (.StaticResolvConf b) st i) (r : Request) :
    CarriesOut net link m (.StaticResolvConf b) (after Chain.route (host net) st r)
      (intend true i (.request r)) := by
  obtain - | - | ⟨_, hone, hcontent, hbackup⟩ := hclean
  obtain ⟨⟨backend⟩, world⟩ := st
  obtain ⟨hworld, hbackend, hknown⟩ := h
  obtain rfl : world = _ := hworld
  obtain rfl : backend = _ := hbackend
  rw [show (⟨.StaticResolvConf { b with active := i.known }⟩ : LinuxDnsRoute) =
    staticRoute { b with active := i.known } from rfl, host, after_static, files_overridden hbackup]
  dsimp only
  cases r with
  | set interface next =>
    rw [StaticBackend.after_set]
    have hset := afterSet_filesWith hone i.inPlace next m.files
    refine ⟨?_, rfl, rfl⟩
    change _ = overridden link m (.StaticResolvConf b) (some next)
    rw [files_overridden hbackup]
    exact congrArg (fun files => ({ m with files := files } : World)) hset
  | reset =>
    rw [StaticBackend.after_reset]
    cases hplace : i.inPlace with
    | none =>
      rw [hplace] at hknown
      have hi : intend true i (.request .reset) = i := if_neg (by rw [hknown]; decide)
      rw [hi, StaticBackend.afterReset_inactive hknown]
      refine ⟨?_, ?_⟩
      · rw [hplace]
        rfl
      · rw [instanceFor, hplace, hknown]
        exact ⟨rfl, rfl⟩
    | some config =>
      rw [hplace] at hknown
      have hi : intend true i (.request .reset) = .start := if_pos hknown
      have hreset := afterReset_afterSet (b := { b with active := i.known }) hone hcontent hbackup hknown config
      rw [hi]
      exact ⟨congrArg (fun files => ({ m with files := files } : World)) hreset, rfl, rfl⟩

end Static

section Restart

/-- The picked backend as a later process of the same application gets it, if this is
what it makes of the file. -/
def reopened (again : StaticBackend.StaticResolvConf) : Backend → Backend
  | .SystemdResolved _ => .SystemdResolved ⟨none⟩
  | .Resolvconf b => .Resolvconf { b with active := false }
  | .StaticResolvConf _ => .StaticResolvConf again

section

variable {again : StaticBackend.StaticResolvConf}

theorem reopened_resolved {b : ResolvedBackend.SystemdResolved}
    (h : ResolvedBackend.probe s.readLink s.systemBus = .ok b) :
    reopened again (.SystemdResolved b) = .SystemdResolved b := by
  obtain ⟨-, rfl⟩ := resolved_probe_ok.mp h
  rfl

theorem reopened_resolvconf {b : ResolvconfBackend.Resolvconf}
    (h : ResolvconfBackend.probe s.environment owner = .ok b) :
    reopened again (.Resolvconf b) = .Resolvconf b := by
  obtain ⟨binary, -, -, rfl⟩ := resolvconf_probe_ok.mp h
  rfl

variable {L P F : Type} (hb : Handler ResolvedBackend.BusCall ResolvedBackend.BusResp L)
  (hp : Handler ResolvconfBackend.ProcCall ResolvconfBackend.ProcResp P) {hf : Handler FsCall FsResp F}
  (hreads : ∀ c fs, c.Reads → (hf c fs).2 = fs) (m' : Machine L P F)

include hreads

theorem autoDetect_again : (exec (hostHandler hb hp hf) (autoDetect s owner) m').1 =
    ⟨reopened (exec hf (StaticBackend.withPath owner resolvConf) m'.files).1
      (exec (host net) (autoDetect s owner) m).1.backend⟩ := by
  rw [autoDetect]
  cases hresolved : ResolvedBackend.probe s.readLink s.systemBus with
  | ok b => exact congrArg LinuxDnsRoute.mk (reopened_resolved hresolved).symm
  | error e =>
    cases hresolvconf : ResolvconfBackend.probe s.environment owner with
    | ok b => exact congrArg LinuxDnsRoute.mk (reopened_resolvconf hresolvconf).symm
    | error e =>
      dsimp only
      rw [exec_bind, exec_bind, host, exec_new, exec_newWith owner hb hp hreads]
      rfl

theorem probeNamed_again (name : Text) : (exec (hostHandler hb hp hf) (Chain.probeNamed s name owner) m').1 =
    (exec (host net) (Chain.probeNamed s name owner) m).1.map
      (reopened (exec hf (StaticBackend.withPath owner resolvConf) m'.files).1) := by
  rw [Chain.probeNamed]
  split_ifs
  · cases hresolved : ResolvedBackend.probe s.readLink s.systemBus with
    | ok b => exact congrArg some (reopened_resolved hresolved).symm
    | error e => rfl
  · cases hresolvconf : ResolvconfBackend.probe s.environment owner with
    | ok b => exact congrArg some (reopened_resolvconf hresolvconf).symm
    | error e => rfl
  · rw [exec_bind, exec_bind, host, exec_new, exec_newWith owner hb hp hreads]
    rfl
  · rfl

theorem probe_again : exec (hostHandler hb hp hf) (Chain.probe s owner) m' =
    (⟨reopened (exec hf (StaticBackend.withPath owner resolvConf) m'.files).1
      (exec (host net) (Chain.probe s owner) m).1.backend⟩, m') := by
  have hleft := (confined_probe s owner).unchanged (host_of_looks hb hp hreads) m'
  refine Prod.ext ?_ hleft
  rw [Chain.probe]
  cases s.overrideVar with
  | none => exact autoDetect_again hb hp hreads m'
  | some name =>
    have hstays := (confined_probeNamed s owner name).unchanged (host_of_looks hb hp hreads) m'
    have hstays' : (exec (host net) (Chain.probeNamed s name owner) m).2 = m :=
      (confined_probeNamed s owner name).unchanged
        (host_of_looks (busHandler net) procHandler fsHandler_of_reads) m
    dsimp only
    rw [exec_bind, exec_bind, hstays, hstays', probeNamed_again (m := m) hb hp hreads m']
    cases (exec (host net) (Chain.probeNamed s name owner) m).1 with
    | none => exact autoDetect_again hb hp hreads m'
    | some backend => rfl

end

theorem opened_overridden {b : StaticBackend.StaticResolvConf}
    (hclean : Clean link m (.StaticResolvConf b)) (hpath : b.path = resolvConf) (howner : b.owner = owner)
    (config : Option DnsRouteConfig) :
    opened owner resolvConf (overridden link m (.StaticResolvConf b) config).files =
      { b with active := config.isSome } := by
  obtain - | - | ⟨_, hone, -, hbackup⟩ := hclean
  rw [files_overridden hbackup, StaticBackend.opened_eq]
  subst howner
  obtain ⟨owner, path, backupPath, active, rfl⟩ := b
  obtain rfl : path = resolvConf := hpath
  congr 1
  cases config with
  | none =>
    rw [filesWith, Option.elim_none, hbackup]
    simp
  | some config =>
    let b : StaticBackend.StaticResolvConf := ⟨owner, resolvConf, _, active, rfl⟩
    have hbacked := StaticBackend.afterSet_backupPath b config m.files
    refine decide_eq_true ⟨?_, Option.isSome_iff_exists.mpr ⟨_, hbacked⟩⟩
    change StaticBackend.ownerIn (StaticBackend.afterSet b config m.files b.path) = _
    rw [StaticBackend.afterSet_path]
    exact (StaticBackend.ownerIn_render ..).mpr hone

theorem restart_carries {b : Backend} (hfresh : Fresh s owner m.files b) (hclean : Clean link m b)
    {st : LinuxDnsRoute × World} (h : CarriesOut net link m b st i) :
    CarriesOut net link m b (⟨reopened (opened owner resolvConf st.2.files) b⟩, st.2)
      (intend (remembers b) i .restart) := by
  refine ⟨h.world, ?_⟩
  cases hfresh with
  | systemdResolved => exact ⟨none, rfl, rfl, nofun⟩
  | resolvconf binary => rfl
  | staticResolvConf =>
    refine ⟨?_, Bool.true_and _⟩
    have hopened := StaticBackend.opened_eq owner resolvConf m.files
    dsimp only [reopened]
    rw [h.world, opened_overridden hclean (by rw [hopened]) (by rw [hopened])]
    rfl

end Restart

theorem left_started (s : Surroundings) (owner : Text) (net : Net) (m : World) :
    (started s owner net m).2 = m :=
  (confined_probe s owner).unchanged (host_of_looks (busHandler net) procHandler fsHandler_of_reads) m

theorem fresh_started (s : Surroundings) (owner : Text) (net : Net) (m : World) :
    Fresh s owner m.files (started s owner net m).1.backend :=
  (chosen_probe s owner (busHandler net) procHandler m).fresh

theorem carries_started (hclean : Clean link m (started s owner net m).1.backend) :
    CarriesOut net link m (started s owner net m).1.backend (started s owner net m) .start := by
  have hfresh := fresh_started s owner net m
  refine ⟨left_started s owner net m, ?_⟩
  generalize (started s owner net m).1.backend = b at hfresh hclean
  cases hfresh with
  | systemdResolved => exact ⟨none, rfl, rfl, nofun⟩
  | resolvconf binary => rfl
  | staticResolvConf =>
    have hopened := StaticBackend.opened_eq owner resolvConf m.files
    have hfiles := opened_overridden hclean (by rw [hopened]) (by rw [hopened]) none
    exact ⟨congrArg Backend.StaticResolvConf hfiles, rfl⟩

theorem carries_step (hclean : Clean link m (started s owner net m).1.backend) {st : LinuxDnsRoute × World}
    (h : CarriesOut net link m (started s owner net m).1.backend st i) {e : Event}
    (ht : Targets net link (started s owner net m).1.backend e) :
    CarriesOut net link m (started s owner net m).1.backend (step s owner net st e)
      (intend (remembers (started s owner net m).1.backend) i e) := by
  have hfresh := fresh_started s owner net m
  cases e with
  | request r =>
    generalize (started s owner net m).1.backend = b at hclean h ht
    cases b with
    | SystemdResolved b => exact resolved_request hclean h ht
    | Resolvconf b => exact resolvconf_request hclean h r
    | StaticResolvConf b => exact static_request hclean h r
  | restart =>
    have hprobe : exec (host net) (Chain.probe s owner) st.2 =
        (⟨reopened (opened owner resolvConf st.2.files) (started s owner net m).1.backend⟩, st.2) :=
      probe_again (busHandler net) procHandler fsHandler_of_reads st.2
    rw [step, hprobe]
    exact restart_carries hfresh hclean h

theorem carries_run (hclean : Clean link m (started s owner net m).1.backend) {events : List Event}
    (ht : ∀ e ∈ events, Targets net link (started s owner net m).1.backend e) :
    CarriesOut net link m (started s owner net m).1.backend
      (run (step s owner net) (started s owner net m) events)
      (run (intend (remembers (started s owner net m).1.backend)) .start events) := by
  refine run_simulates (R := CarriesOut net link m (started s owner net m).1.backend)
    (G := fun _ e => Targets net link (started s owner net m).1.backend e) ?_ (carries_started hclean)
    (along_of_mem _ ht _)
  intro st i e h ht
  exact carries_step hclean h ht

end Steps

section Results

variable (s : Surroundings) (owner : Text) (net : Net) (link : ObjectPath) (m : World)

/-- Whichever backend `probe()` picks, the host carries after every run, restarts
included, what the calls ask for, and is otherwise as it was found. -/
theorem run_carries_out (hclean : Clean link m (started s owner net m).1.backend) (events : List Event)
    (ht : ∀ e ∈ events, Targets net link (started s owner net m).1.backend e) :
    (run (step s owner net) (started s owner net m) events).2 =
      overridden link m (started s owner net m).1.backend
        (run (intend (remembers (started s owner net m).1.backend)) .start events).inPlace :=
  (carries_run hclean ht).world

def plainWorld : World := ⟨fun _ => blank, .idle fun _ => none, diskWith nameservers⟩

def withEnvironment (env : ResolvconfBackend.Environment) : Surroundings :=
  ⟨none, fun _ => none, .error "No such file or directory".toList, env⟩

def openresolvHost : Surroundings := withEnvironment ResolvconfRecords.openresolv

theorem probe_openresolv (owner : Text) : ResolvconfBackend.probe ResolvconfRecords.openresolv owner =
    .ok (ResolvconfRecords.instanceOf owner) := by
  have hpath : ResolvconfBackend.findInPath ResolvconfRecords.openresolv "resolvconf".toList =
      some "/sbin/resolvconf".toList := by decide +kernel
  rw [ResolvconfBackend.probe, ResolvconfBackend.probeNamed, hpath]
  dsimp only
  rw [if_neg (by decide +kernel), if_neg (by decide +kernel)]
  rfl

theorem started_openresolv (owner : Text) (net : Net) (m : World) : started openresolvHost owner net m =
    (⟨.Resolvconf (ResolvconfRecords.instanceOf owner)⟩, m) := by
  obtain ⟨e, hresolved⟩ : ∃ e,
      ResolvedBackend.probe openresolvHost.readLink openresolvHost.systemBus = .error e := ⟨_, rfl⟩
  have hauto : autoDetect openresolvHost owner = .ret ⟨.Resolvconf (ResolvconfRecords.instanceOf owner)⟩ := by
    rw [autoDetect, hresolved]
    dsimp only
    rw [show openresolvHost.environment = ResolvconfRecords.openresolv from rfl, probe_openresolv]
  rw [started, Chain.probe, show openresolvHost.overrideVar = none from rfl]
  dsimp only
  rw [hauto, exec_ret]

/-- The record stays: the second process does not know of it. -/
theorem record_outlives_process :
    let events := [Event.request (.set "wg0".toList vpnConfig), .restart, .request .reset]
    (run (step openresolvHost "vpn".toList ResolvedLinks.twoLinks)
      (started openresolvHost "vpn".toList ResolvedLinks.twoLinks plainWorld) events).2.processes.records
        "tun-vpn".toList = some ["10.0.0.1".toList] := by
  intro events
  have hstarted := started_openresolv "vpn".toList ResolvedLinks.twoLinks plainWorld
  have hbackend := congrArg (fun st : LinuxDnsRoute × World => st.1.backend) hstarted
  rw [run_carries_out openresolvHost "vpn".toList ResolvedLinks.twoLinks [] plainWorld
    (by rw [hbackend]; exact .resolvconf _ rfl rfl) events
    (by rw [hbackend]; exact fun e _ => .anywhere _ _ nofun)]
  rw [hbackend]
  decide +kernel

def Undone (events : List Event) : Prop :=
  (run (step s owner net) (started s owner net m) (events ++ [.request .reset])).2 = m

def HasServers : Event → Prop
  | .request (.set _ config) => config.servers ≠ []
  | _ => True

variable {s owner net link m}

theorem overridden_ne {b : Backend} (hclean : Clean link m b) {config : DnsRouteConfig}
    (hservers : config.servers ≠ []) : overridden link m b (some config) ≠ m := by
  intro h
  cases hclean with
  | systemdResolved b hblank =>
    have hlinks := congrFun (congrArg Machine.links h) link
    change Function.update m.links link (pushed config) link = m.links link at hlinks
    rw [Function.update_self, hblank] at hlinks
    exact hservers (List.map_eq_nil_iff.mp (congrArg ResolvedBackend.LinkState.dns hlinks))
  | resolvconf b hidle hnone =>
    have hrecords := congrFun (congrArg (fun w : World => w.processes.records) h) b.registrationName
    change Function.update m.processes.records b.registrationName _ b.registrationName =
      m.processes.records b.registrationName at hrecords
    rw [Function.update_self, hnone] at hrecords
    contradiction
  | staticResolvConf b hone hcontent hbackup =>
    have hfiles := congrFun (congrArg Machine.files h) b.backupPath
    have hne := StaticBackend.path_ne_backupPath b
    change put (put m.files b.backupPath _) b.path _ b.backupPath = m.files b.backupPath at hfiles
    rw [put_other _ hne.symm, put_self, hbackup] at hfiles
    contradiction

def Knows (i : Intent) : Prop := i.known = i.inPlace.isSome

theorem knows_intend {i : Intent} (h : Knows i) {remembers : Bool} {e : Event}
    (he : remembers = true ∨ e ≠ .restart) : Knows (intend remembers i e) := by
  obtain ⟨config, known⟩ := i
  obtain rfl : known = config.isSome := h
  cases e with
  | request r =>
    cases r with
    | set interface config => rfl
    | reset => cases config <;> rfl
  | restart =>
    obtain rfl | he := he
    · exact Bool.true_and _
    · exact absurd rfl he

theorem knows_run {remembers : Bool} {events : List Event}
    (he : ∀ e ∈ events, remembers = true ∨ e ≠ .restart) {i : Intent} (h : Knows i) :
    Knows (run (intend remembers) i events) := by
  induction events generalizing i with
  | nil => exact h
  | cons e events ih =>
    exact ih (fun d hd => he d (List.mem_cons_of_mem e hd)) (knows_intend h (he e List.mem_cons_self))

/-- What an intent holds in every run: what is known is in place, and it has servers. -/
structure Sound (i : Intent) : Prop where
  known : i.known = true → i.inPlace.isSome = true
  servers : ∀ config, i.inPlace = some config → config.servers ≠ []

theorem sound_intend {i : Intent} (h : Sound i) (remembers : Bool) {e : Event} (he : HasServers e) :
    Sound (intend remembers i e) := by
  cases e with
  | request r =>
    cases r with
    | set interface config => exact ⟨fun _ => rfl, fun c hc => Option.some.inj hc ▸ he⟩
    | reset =>
      rw [intend]
      split_ifs
      · exact ⟨nofun, nofun⟩
      · exact h
  | restart => exact ⟨fun hk => (Bool.and_eq_true_iff.mp hk).2, h.servers⟩

theorem sound_run (remembers : Bool) {events : List Event} (he : ∀ e ∈ events, HasServers e) :
    Sound (run (intend remembers) .start events) := by
  have hstart : Sound .start := ⟨nofun, nofun⟩
  generalize Intent.start = i at hstart
  induction events generalizing i with
  | nil => exact hstart
  | cons e events ih =>
    exact ih (fun d hd => he d (List.mem_cons_of_mem e hd)) _
      (sound_intend hstart remembers (he e List.mem_cons_self))

variable (s owner net link m)

/-- A `reset()` takes the host back to how it was found exactly if no restart came
between it and the override, or the backend remembers its own. -/
theorem reset_undoes_iff (hclean : Clean link m (started s owner net m).1.backend) (events : List Event)
    (ht : ∀ e ∈ events, Targets net link (started s owner net m).1.backend e)
    (hservers : ∀ e ∈ events, HasServers e) :
    (Undone s owner net m events ↔
      Knows (run (intend (remembers (started s owner net m).1.backend)) .start events)) ∧
    (remembers (started s owner net m).1.backend = true ∨ .restart ∉ events → Undone s owner net m events) := by
  have htargets : ∀ e ∈ events ++ [.request .reset], Targets net link (started s owner net m).1.backend e :=
    List.forall_mem_append.mpr ⟨ht, List.forall_mem_singleton.mpr (.reset _)⟩
  have hrun := (carries_run hclean htargets).world
  have hsound := sound_run (remembers (started s owner net m).1.backend) hservers
  rw [run_append (intend (remembers (started s owner net m).1.backend)), run_cons, run_nil] at hrun
  have hiff : Undone s owner net m events ↔
      Knows (run (intend (remembers (started s owner net m).1.backend)) .start events) := by
    rw [Undone, hrun, Knows, intend]
    generalize run (intend (remembers (started s owner net m).1.backend)) .start events = i at hsound
    cases hknown : i.known with
    | true => exact iff_of_true rfl (hsound.known hknown).symm
    | false =>
      cases hplace : i.inPlace with
      | none => exact iff_of_true (by rw [if_neg Bool.false_ne_true, hplace]; rfl) rfl
      | some config =>
        rw [if_neg Bool.false_ne_true, hplace]
        exact iff_of_false (overridden_ne hclean (hsound.servers config hplace)) Bool.false_ne_true
  refine ⟨hiff, fun h => hiff.mpr (knows_run (fun e he => ?_) rfl)⟩
  exact h.imp_right fun hnot heq => hnot (heq ▸ he)

def bareHost : Surroundings := withEnvironment ⟨none, fun _ => false, fun _ => none, fun _ => none⟩

theorem started_bare (net : Net) (m : World) : started bareHost "vpn".toList net m =
    (⟨.StaticResolvConf (opened "vpn".toList resolvConf m.files)⟩, m) := by
  rw [started, Chain.probe, show bareHost.overrideVar = none from rfl]
  dsimp only
  rw [autoDetect, show ResolvedBackend.probe bareHost.readLink bareHost.systemBus = .error _ from rfl,
    show ResolvconfBackend.probe bareHost.environment "vpn".toList = .error _ from rfl]
  dsimp only
  rw [exec_bind, host, exec_new]
  rfl

theorem backend_bare (net : Net) (m : World) : (started bareHost "vpn".toList net m).1.backend =
    .StaticResolvConf (opened "vpn".toList resolvConf m.files) :=
  congrArg (fun st : LinuxDnsRoute × World => st.1.backend) (started_bare net m)

theorem clean_bare (net : Net) :
    Clean [] plainWorld (started bareHost "vpn".toList net plainWorld).1.backend := by
  rw [backend_bare, StaticBackend.opened_eq]
  exact .staticResolvConf _ (by decide +kernel) (by decide +kernel) (by decide +kernel)

theorem targets_bare (net : Net) (m : World) (e : Event) :
    Targets net [] (started bareHost "vpn".toList net m).1.backend e := by
  rw [backend_bare]
  exact .anywhere _ _ nofun

theorem marked_file_is_remembered :
    Undone bareHost "vpn".toList ResolvedLinks.twoLinks plainWorld
      [.request (.set "wg0".toList vpnConfig), .restart] := by
  have hremembers :
      remembers (started bareHost "vpn".toList ResolvedLinks.twoLinks plainWorld).1.backend = true := by
    rw [backend_bare]
    rfl
  refine (reset_undoes_iff bareHost "vpn".toList ResolvedLinks.twoLinks [] plainWorld (clean_bare _) _
    (fun e _ => targets_bare _ _ e) ?_).2 (.inl hremembers)
  refine List.forall_mem_cons.mpr ⟨?_, List.forall_mem_singleton.mpr trivial⟩
  exact List.cons_ne_nil _ _

end Results

end DnsAnnounce.ChainRuns
