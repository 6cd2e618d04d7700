import DnsAnnounce.OwnCalls

namespace DnsAnnounce.Tenants

open DnsAnnounce.Utf8 DnsAnnounce.Effect DnsAnnounce.Embed DnsAnnounce.Interleave DnsAnnounce.Runs
open DnsAnnounce.FileSystem DnsAnnounce.Route DnsAnnounce.Chain DnsAnnounce.ChainProbe DnsAnnounce.ChainRuns
open DnsAnnounce.Recovery DnsAnnounce.OwnCalls
open DnsAnnounce.ResolvedBackend (Net Links LinkState ObjectPath BusCall BusFault bus left)

section Parts

open DnsAnnounce.ResolvconfBackend (ProcCall ProcFault Host Records os addArgs deleteArgs resolvconf)
open DnsAnnounce.StaticFaults (disk)
open DnsAnnounce.StaticRetry (target)

variable {L : ObjectPath → Prop}

theorem update_alike {links links' : Links} (h : ∀ q, L q → links q = links' q) (link : ObjectPath)
    (f : LinkState → LinkState) {q : ObjectPath} (hq : L q) :
    Function.update links link (f (links link)) q = Function.update links' link (f (links' link)) q := by
  by_cases he : q = link
  · subst he
    rw [Function.update_self, Function.update_self, h q hq]
  · rw [Function.update_of_ne he, Function.update_of_ne he, h q hq]

theorem left_alike (f : Option BusFault) {links links' done done' : Links}
    (h : ∀ q, L q → links q = links' q) (hdone : ∀ q, L q → done q = done' q) (q : ObjectPath) (hq : L q) :
    left f links done q = left f links' done' q := by
  cases f with
  | none => exact hdone q hq
  | some f =>
    rw [left, left]
    split_ifs
    · exact hdone q hq
    · exact h q hq

theorem bus_alike (net : Net) (plan : BusCall → Option BusFault) (c : BusCall) {links links' : Links}
    (h : ∀ q, L q → links q = links' q) :
    (bus net plan c links).1 = (bus net plan c links').1 ∧
      ∀ q, L q → (bus net plan c links).2 q = (bus net plan c links').2 q := by
  cases c with
  | setDns link addresses =>
    have hbus (links : Links) : bus net plan (.setDns link addresses) links = _ :=
      ResolvedBackend.exec_setDns links link addresses
    rw [hbus, hbus]
    exact ⟨rfl, left_alike _ h fun q => update_alike h link fun state => { state with dns := addresses }⟩
  | setDomains link domains =>
    have hbus (links : Links) : bus net plan (.setDomains link domains) links = _ :=
      ResolvedBackend.exec_setDomains links link domains
    rw [hbus, hbus]
    exact ⟨rfl, left_alike _ h fun q => update_alike h link fun state => { state with domains := domains }⟩
  | _ =>
    rw [bus, faulty, faulty]
    cases plan _ <;> exact ⟨rfl, h⟩

theorem bus_truthful (net : Net) (plan : BusCall → Option BusFault) (c : BusCall) (links : Links) :
    busSays net c (bus net plan c links).1 := by
  rw [bus, faulty]
  cases plan c with
  | none =>
    cases c with
    | readToString | getLink => exact fun _ h => h
    | _ => trivial
  | some f =>
    cases c with
    | readToString | getLink =>
      intro told h
      cases h
    | _ => trivial

theorem left_other (f : Option BusFault) {links done : Links} {q : ObjectPath} (h : done q = links q) :
    left f links done q = links q := by
  cases f with
  | none => exact h
  | some f =>
    rw [left]
    split_ifs
    · exact h
    · rfl

theorem bus_other {c : BusCall} (hc : OnLinks L c) (net : Net) (plan : BusCall → Option BusFault)
    (links : Links) {q : ObjectPath} (hq : ¬ L q) : (bus net plan c links).2 q = links q := by
  have hne {link : ObjectPath} (hl : L link) : q ≠ link := fun he => hq (he ▸ hl)
  cases c with
  | setDns link addresses =>
    have hbus : bus net plan (.setDns link addresses) links = _ :=
      ResolvedBackend.exec_setDns links link addresses
    rw [hbus]
    exact left_other _ (Function.update_of_ne (hne hc) _ _)
  | setDomains link domains =>
    have hbus : bus net plan (.setDomains link domains) links = _ :=
      ResolvedBackend.exec_setDomains links link domains
    rw [hbus]
    exact left_other _ (Function.update_of_ne (hne hc) _ _)
  | _ =>
    rw [bus, faulty]
    cases plan _ <;> rfl

def OwnChild (name : Text) (host : Host) : Prop := ∀ child ∈ host.child, OwnArgs name child.1

theorem ownChild_idle (name : Text) (records : Records) : OwnChild name (.idle records) :=
  fun child h => absurd h (Option.not_mem_none child)

theorem resolvconf_own {name : Text} {args : List Text} (h : OwnArgs name args) (stdin : Bytes) :
    ∃ servers, ∀ records, resolvconf args stdin records = Function.update records name servers := by
  obtain rfl | rfl := h
  · exact ⟨_, ResolvconfBackend.resolvconf_add name stdin⟩
  · exact ⟨_, ResolvconfBackend.resolvconf_delete name stdin⟩

/-- Two applications' view of the one record, and of their child. -/
structure SameRun (name : Text) (host host' : Host) : Prop where
  child : host.child = host'.child
  own : OwnChild name host'
  record : host.records name = host'.records name

theorem SameRun.own_left {name : Text} {host host' : Host} (h : SameRun name host host') :
    OwnChild name host := by
  rw [OwnChild, h.child]
  exact h.own

theorem SameRun.idle {name : Text} {host host' : Host} (h : SameRun name host host') :
    SameRun name (.idle host.records) (.idle host'.records) := ⟨rfl, ownChild_idle _ _, h.record⟩

theorem SameRun.complete {name : Text} {host host' : Host} (h : SameRun name host host') (rest : Bytes) :
    SameRun name (host.complete rest) (host'.complete rest) := by
  have hown := h.own
  rw [Host.complete, Host.complete, h.child]
  rw [OwnChild] at hown
  cases hc : host'.child with
  | none => exact h
  | some child =>
    obtain ⟨servers, hrecords⟩ := resolvconf_own (hown child hc) (child.2 ++ rest)
    dsimp only
    rw [hrecords, hrecords]
    refine ⟨rfl, ownChild_idle _ _, ?_⟩
    dsimp only [Host.idle]
    rw [Function.update_self, Function.update_self]

theorem complete_other {name q : Text} {host : Host} (h : OwnChild name host) (hq : q ≠ name)
    (rest : Bytes) : (host.complete rest).records q = host.records q := by
  rw [Host.complete]
  rw [OwnChild] at h
  cases hc : host.child with
  | none => rfl
  | some child =>
    obtain ⟨servers, hrecords⟩ := resolvconf_own (h child hc) (child.2 ++ rest)
    dsimp only
    rw [hrecords]
    exact Function.update_of_ne hq _ _

theorem os_alike (plan : ProcCall → Option ProcFault) {c : ProcCall} {name : Text} (hc : OwnCommand name c)
    {host host' : Host} (h : SameRun name host host') :
    (os plan c host).1 = (os plan c host').1 ∧ SameRun name (os plan c host).2 (os plan c host').2 := by
  rw [os, faulty, faulty]
  cases plan c with
  | none =>
    cases c with
    | spawn binary args => exact ⟨rfl, rfl, fun child hchild => Option.some.inj hchild ▸ hc, h.record⟩
    | writeAll data =>
      refine ⟨rfl, congrArg (Option.map _) h.child, fun child hchild => ?_, h.record⟩
      obtain ⟨before, hbefore, rfl⟩ := Option.map_eq_some_iff.mp hchild
      exact h.own before hbefore
    | waitWithOutput => exact ⟨rfl, h.complete []⟩
  | some f =>
    cases c with
    | spawn binary args => exact ⟨rfl, h⟩
    | writeAll data =>
      refine ⟨rfl, ?_⟩
      dsimp only [ResolvconfBackend.procFail]
      cases f.ran with
      | none => exact h.idle
      | some j => exact h.complete _
    | waitWithOutput =>
      refine ⟨rfl, ?_⟩
      dsimp only [ResolvconfBackend.procFail]
      cases f.ran with
      | none => exact h.idle
      | some j => exact h.complete []

theorem os_other (plan : ProcCall → Option ProcFault) (c : ProcCall) {name q : Text} (hq : q ≠ name)
    {host : Host} (h : OwnChild name host) : (os plan c host).2.records q = host.records q := by
  rw [os, faulty]
  cases plan c with
  | none =>
    cases c with
    | spawn | writeAll => rfl
    | waitWithOutput => exact complete_other h hq []
  | some f =>
    cases c with
    | spawn => rfl
    | writeAll data =>
      dsimp only [ResolvconfBackend.procFail]
      cases f.ran with
      | none => rfl
      | some j => exact complete_other h hq _
    | waitWithOutput =>
      dsimp only [ResolvconfBackend.procFail]
      cases f.ran with
      | none => rfl
      | some j => exact complete_other h hq []

theorem disk_alike (plan : FsCall → Option FsFault) (c : FsCall) {fs fs' : Fs}
    (h : fs (target c) = fs' (target c)) :
    (disk plan c fs).1 = (disk plan c fs').1 ∧
      (disk plan c fs).2 (target c) = (disk plan c fs').2 (target c) := by
  rw [disk, faulty, faulty]
  cases plan c with
  | none =>
    cases c with
    | readToString path => exact ⟨congrArg readTextResult h, h⟩
    | read path => exact ⟨congrArg readResult h, h⟩
    | pathExists path => exact ⟨congrArg Option.isSome h, h⟩
    | write path contents => exact ⟨rfl, (put_self ..).trans (put_self ..).symm⟩
    | removeFile path =>
      have hremove (fs : Fs) : fsHandler (.removeFile path) fs = _ := exec_removeFile fs path
      rw [hremove, hremove]
      dsimp only [target] at h ⊢
      rw [h]
      exact ⟨rfl, (put_self ..).trans (put_self ..).symm⟩
  | some f =>
    cases c with
    | write path contents =>
      refine ⟨rfl, ?_⟩
      dsimp only [fsFail]
      cases f.written with
      | none => exact h
      | some j => exact (put_self ..).trans (put_self ..).symm
    | _ => exact ⟨rfl, h⟩

theorem disk_alike_at (plan : FsCall → Option FsFault) (c : FsCall) {fs fs' : Fs}
    (h : fs (target c) = fs' (target c)) {p : PathBuf} (hp : fs p = fs' p) :
    (disk plan c fs).2 p = (disk plan c fs').2 p := by
  by_cases ht : p = target c
  · rw [ht]
    exact (disk_alike plan c h).2
  · rw [StaticRetry.disk_other plan c fs ht, StaticRetry.disk_other plan c fs' ht, hp]

end Parts

section Sharing

open DnsAnnounce.ResolvconfBackend (Host Records)

/-- A host with several applications, each with the child that it may be waiting for. -/
structure Shared (ι : Type) where
  links : Links
  records : Records
  children : ι → Option (List Text × Bytes)
  files : Fs

variable {ι : Type} [DecidableEq ι]

def hostOf (i : ι) : Part World (Shared ι) where
  get s := ⟨s.links, ⟨s.records, s.children i⟩, s.files⟩
  put s w := ⟨w.links, w.processes.records, Function.update s.children i w.processes.child, w.files⟩
  get_put s w := by
    dsimp only
    rw [Function.update_self]
  put_put s w w' := by
    dsimp only
    rw [Function.update_idem]
  put_get s := by
    dsimp only
    rw [Function.update_eq_self]

/-- One call's turn: what fails in it, and what systemd-resolved or `resolvconf(8)`
make of the files that are theirs, such as the `resolv.conf` they generate. -/
structure Turn (theirs : PathBuf → Prop) where
  plan : Plan
  rewrite : Fs → Fs
  frame : ∀ fs p, ¬ theirs p → rewrite fs p = fs p

variable {theirs : PathBuf → Prop}

def Turn.publish (t : Turn theirs) : HostCall → Shared ι → Shared ι
  | .fs _, s => s
  | .bus _, s | .proc _, s => { s with files := t.rewrite s.files }

def onHost (net : Net) (i : ι) (t : Turn theirs) : Handler HostCall HostResp (Shared ι) :=
  fun c s => ((failing net t.plan c ((hostOf i).get s)).1,
    t.publish c ((hostOf i).put s (failing net t.plan c ((hostOf i).get s)).2))

/-- What is an application's own is the same on both hosts. -/
inductive Alike (L : ObjectPath → Prop) : Backend → World → World → Prop
  | systemdResolved (b : ResolvedBackend.SystemdResolved) (w w' : World) :
    (∀ link, L link → w.links link = w'.links link) → Alike L (.SystemdResolved b) w w'
  | resolvconf (b : ResolvconfBackend.Resolvconf) (w w' : World) :
    SameRun b.registrationName w.processes w'.processes → Alike L (.Resolvconf b) w w'
  | staticResolvConf (b : StaticBackend.StaticResolvConf) (w w' : World) :
    w.files b.path = w'.files b.path → w.files b.backupPath = w'.files b.backupPath →
    Alike L (.StaticResolvConf b) w w'

/-- Two applications have nothing in common that both would change, and no service
that one of them uses writes the other's files. -/
def Apart (theirs : PathBuf → Prop) (L L' : ObjectPath → Prop) : Backend → Backend → Prop
  | .SystemdResolved _, .SystemdResolved _ => ∀ link, L link → ¬ L' link
  | .Resolvconf b, .Resolvconf b' => b.registrationName ≠ b'.registrationName
  | .StaticResolvConf _, .StaticResolvConf _ => False
  | .StaticResolvConf b, _ | _, .StaticResolvConf b => ¬ theirs b.path ∧ ¬ theirs b.backupPath
  | .SystemdResolved _, .Resolvconf _ | .Resolvconf _, .SystemdResolved _ => True

variable {net : Net} {L L' : ObjectPath → Prop} {b b' : Backend} {plan : Plan} {t : Turn theirs} {c : HostCall}

theorem failing_alike (hc : Own L b c) {w w' : World} (h : Alike L b w w') :
    (failing net plan c w).1 = (failing net plan c w').1 ∧
      Alike L b (failing net plan c w).2 (failing net plan c w').2 := by
  cases hc with
  | bus b c hc =>
    obtain ⟨_, _, _, hlinks⟩ := h
    obtain ⟨hanswer, hafter⟩ := bus_alike net plan.bus c hlinks
    exact ⟨hanswer, .systemdResolved b _ _ hafter⟩
  | proc b c hc =>
    obtain - | ⟨_, _, _, hrun⟩ := h
    obtain ⟨hanswer, hafter⟩ := os_alike plan.proc hc hrun
    exact ⟨hanswer, .resolvconf b _ _ hafter⟩
  | fs b c hc =>
    obtain - | - | ⟨_, _, _, hpath, hbackup⟩ := h
    have htarget : w.files (StaticRetry.target c) = w'.files (StaticRetry.target c) := by
      obtain hp | hp := hc
      · rw [hp, hpath]
      · rw [hp, hbackup]
    exact ⟨(disk_alike plan.fs c htarget).1, .staticResolvConf b _ _ (disk_alike_at plan.fs c htarget hpath)
      (disk_alike_at plan.fs c htarget hbackup)⟩

theorem publish_alike (hc : Own L b c) {i : ι} {s : Shared ι} {w : World}
    (h : Alike L b ((hostOf i).get s) w) : Alike L b ((hostOf i).get (t.publish c s)) w := by
  cases hc with
  | bus b c hc =>
    obtain ⟨_, _, _, hlinks⟩ := h
    exact .systemdResolved b _ _ hlinks
  | proc b c hc =>
    obtain - | ⟨_, _, _, hrun⟩ := h
    exact .resolvconf b _ _ hrun
  | fs b c hc => exact h

theorem children_onHost {i j : ι} (hne : i ≠ j) (c : HostCall) (s : Shared ι) :
    (onHost net i t c s).2.children j = s.children j := by
  cases c <;> exact Function.update_of_ne hne.symm ..

theorem others_alike {i j : ι} (hne : i ≠ j) (hapart : Apart theirs L L' b b') (hc : Own L b c)
    {s : Shared ι} {w u : World} (hi : Alike L b ((hostOf i).get s) w) (hj : Alike L' b' ((hostOf j).get s) u) :
    Alike L' b' ((hostOf j).get (onHost net i t c s).2) u := by
  cases hc with
  | bus b c hc =>
    cases hj with
    | systemdResolved b' _ _ hlinks =>
      refine .systemdResolved b' _ _ fun q hq => ?_
      exact (bus_other hc net t.plan.bus s.links fun hl => hapart q hl hq).trans (hlinks q hq)
    | resolvconf b' _ _ hrun =>
      exact .resolvconf b' _ _ ⟨(children_onHost hne (.bus c) s).trans hrun.child, hrun.own, hrun.record⟩
    | staticResolvConf b' _ _ hpath hbackup =>
      exact .staticResolvConf b' _ _ ((t.frame _ _ hapart.1).trans hpath) ((t.frame _ _ hapart.2).trans hbackup)
  | proc b c hc =>
    obtain - | ⟨_, _, _, hown⟩ := hi
    cases hj with
    | systemdResolved b' _ _ hlinks => exact .systemdResolved b' _ _ hlinks
    | resolvconf b' _ _ hrun =>
      have hrecord := os_other t.plan.proc c (Ne.symm hapart) hown.own_left
      exact .resolvconf b' _ _
        ⟨(children_onHost hne (.proc c) s).trans hrun.child, hrun.own, hrecord.trans hrun.record⟩
    | staticResolvConf b' _ _ hpath hbackup =>
      exact .staticResolvConf b' _ _ ((t.frame _ _ hapart.1).trans hpath) ((t.frame _ _ hapart.2).trans hbackup)
  | fs b c hc =>
    cases hj with
    | systemdResolved b' _ _ hlinks => exact .systemdResolved b' _ _ hlinks
    | resolvconf b' _ _ hrun =>
      exact .resolvconf b' _ _ ⟨(children_onHost hne (.fs c) s).trans hrun.child, hrun.own, hrun.record⟩
    | staticResolvConf b' _ _ hpath hbackup => exact hapart.elim

theorem failing_truthful (hc : Own L b c) (w : World) : hostSays net c (failing net plan c w).1 := by
  cases hc with
  | bus b c hc => exact bus_truthful net plan.bus c w.links
  | proc b c hc => trivial
  | fs b c hc => trivial

end Sharing

section Results

variable {ι : Type} [DecidableEq ι] {theirs : PathBuf → Prop}

structure Tenant where
  surroundings : Surroundings
  owner : Text
  events : List Event

def Tenant.main (t : Tenant) : HostProg (List (Except Error Unit)) :=
  (Chain.probe t.surroundings t.owner).bind (life t.surroundings t.owner t.events)

def Tenant.backend (net : Net) (m : World) (t : Tenant) : Backend :=
  (started t.surroundings t.owner net m).1.backend

/-- The configuration that the application's calls and starts leave in place. -/
def Tenant.inPlace (net : Net) (m : World) (t : Tenant) : Option DnsRouteConfig :=
  (run (intend (remembers (t.backend net m))) .start t.events).inPlace

/-- No call of the application fails, it finds the host clean, and it gets to its end. -/
structure Unfailing (net : Net) (link : ObjectPath) (m : World) (t : Tenant) (turns : List (Turn theirs)) :
    Prop where
  clean : Clean link m (t.backend net m)
  targets : ∀ e ∈ t.events, Targets net link (t.backend net m) e
  calm : ∀ turn ∈ turns, turn.plan = calm
  enough : (calls (host net) t.main m).length ≤ turns.length

def share (m : World) : Shared ι := ⟨m.links, m.processes.records, fun _ => none, m.files⟩

def together (net : Net) (tenants : ι → Tenant) (m : World) (turns : List (ι × Turn theirs)) :
    System ι HostCall HostResp (Shared ι) (List (Except Error Unit)) :=
  run (turn (onHost net)) ⟨fun i => (tenants i).main, share m⟩ turns

/-- The applications keep to what is their own, and share none of it. -/
structure Coexist (theirs : PathBuf → Prop) (net : Net) (L : ι → ObjectPath → Prop) (m : World)
    (tenants : ι → Tenant) : Prop where
  idle : m.processes = .idle m.processes.records
  apart : ∀ i j, i ≠ j → Apart theirs (L i) (L j) ((tenants i).backend net m) ((tenants j).backend net m)
  within : ∀ i r, (tenants i).backend net m = .SystemdResolved r →
    ∀ e ∈ (tenants i).events, Within net (L i) e

/-- Nothing but what is some application's own or the services' differs. -/
structure Elsewhere (theirs : PathBuf → Prop) (L : ι → ObjectPath → Prop) (b : ι → Backend)
    (s s' : Shared ι) : Prop where
  links : ∀ q, (∀ i r, b i = .SystemdResolved r → ¬ L i q) → s'.links q = s.links q
  records : ∀ name, (∀ i r, b i = .Resolvconf r → name ≠ r.registrationName) →
    s'.records name = s.records name
  files : ∀ p, ¬ theirs p → (∀ i r, b i = .StaticResolvConf r → p ≠ r.path ∧ p ≠ r.backupPath) →
    s'.files p = s.files p

variable {net : Net} {tenants : ι → Tenant} {L : ι → ObjectPath → Prop} {m : World}

theorem Coexist.separate (h : Coexist theirs net L m tenants) :
    Separate (onHost net) (fun _ (t : Turn theirs) => failing net t.plan)
      (fun i => Own (L i) ((tenants i).backend net m))
      (hostSays net) (fun i s w => Alike (L i) ((tenants i).backend net m) ((hostOf i).get s) w) where
  truthful i t c w hc := failing_truthful hc w
  answers i t c s w hc h := (failing_alike hc h).1
  does i t c s w hc h := by
    refine publish_alike hc ?_
    rw [(hostOf i).get_put]
    exact (failing_alike hc h).2
  others i j t c s w u hne hc hi hj := others_alike hne (h.apart i j hne) hc hi hj

theorem elsewhere_call {b : ι → Backend} {i : ι} {t : Turn theirs} {c : HostCall} {s : Shared ι} {w : World}
    (hc : Own (L i) (b i) c) (h : Alike (L i) (b i) ((hostOf i).get s) w) :
    Elsewhere theirs L b s (onHost net i t c s).2 := by
  generalize hb : b i = picked at hc h
  cases hc with
  | bus r c hc =>
    refine ⟨fun q hq => ?_, fun _ _ => rfl, fun p hp _ => t.frame s.files p hp⟩
    exact bus_other hc net t.plan.bus s.links (hq i r hb)
  | proc r c hc =>
    obtain - | ⟨_, _, _, hrun⟩ := h
    refine ⟨fun _ _ => rfl, fun name hname => ?_, fun p hp _ => t.frame s.files p hp⟩
    exact os_other t.plan.proc c (hname i r hb) hrun.own_left
  | fs r c hc =>
    refine ⟨fun _ _ => rfl, fun _ _ => rfl, fun p _ hp => StaticRetry.disk_other t.plan.fs c s.files ?_⟩
    obtain ⟨hpath, hbackup⟩ := hp i r hb
    obtain ht | ht := hc
    · rwa [ht]
    · rwa [ht]

theorem get_share (hidle : m.processes = .idle m.processes.records) (i : ι) :
    (hostOf i).get (share m) = m := by
  change ({ m with processes := .idle m.processes.records } : World) = m
  rw [← hidle]

theorem Coexist.start (h : Coexist theirs net L m tenants) :
    Alongside (fun i => Own (L i) ((tenants i).backend net m)) (hostSays net)
      (fun i s w => Alike (L i) ((tenants i).backend net m) ((hostOf i).get s) w) (fun _ => True)
      ⟨fun i => (tenants i).main, share m⟩ (fun i => ((tenants i).main, m)) where
  progs i := rfl
  abides i := abides_probe.bind fun self hself => abides_life (h.within i) hself
  alike i := by
    rw [get_share h.idle]
    cases (tenants i).backend net m with
    | SystemdResolved b => exact .systemdResolved b m m fun _ _ => rfl
    | Resolvconf b =>
      refine .resolvconf b m m ⟨rfl, ?_, rfl⟩
      rw [h.idle]
      exact ownChild_idle _ _
    | StaticResolvConf b => exact .staticResolvConf b m m rfl rfl

theorem Coexist.elsewhere (h : Coexist theirs net L m tenants) (turns : List (ι × Turn theirs)) :
    Elsewhere theirs L (fun i => (tenants i).backend net m) (share m) (together net tenants m turns).shared := by
  refine ⟨fun q hq => ?_, fun name hname => ?_, fun p hp hown => ?_⟩
  · refine turns_keep (fun s => s.links q) h.separate (fun i t c s w hc ha => ?_) h.start turns
    exact (elsewhere_call hc ha).links q hq
  · refine turns_keep (fun s => s.records name) h.separate (fun i t c s w hc ha => ?_) h.start turns
    exact (elsewhere_call hc ha).records name hname
  · refine turns_keep (fun s => s.files p) h.separate (fun i t c s w hc ha => ?_) h.start turns
    exact (elsewhere_call hc ha).files p hp hown

/-- Whatever the applications do and whatever fails, and in whatever order their calls
on the host come: each of them gets the answers that it would get on a host of its
own and leaves of its own what it would leave there, and all else stays as it was. -/
theorem isolated (h : Coexist theirs net L m tenants) (turns : List (ι × Turn theirs)) :
    (∀ i, let own := alone (fun t => failing net t.plan) ((tenants i).main, m) (turnsOf i turns)
      (together net tenants m turns).progs i = own.1 ∧
        Alike (L i) ((tenants i).backend net m) ((hostOf i).get (together net tenants m turns).shared) own.2) ∧
    Elsewhere theirs L (fun i => (tenants i).backend net m) (share m) (together net tenants m turns).shared := by
  have hrun := alongside_run h.separate h.start turns
  exact ⟨fun i => ⟨hrun.progs i, hrun.alike i⟩, h.elsewhere turns⟩

section Served

variable {s : Surroundings} {owner : Text} {link : ObjectPath}

theorem request_ok {L : ObjectPath → Prop} {b : Backend} {st : LinuxDnsRoute × World}
    (h : Reached net L m b st) {r : Request} (ht : Targets net link b (.request r)) :
    outcome Chain.route (host net) r st = .ok () := by
  cases r with
  | set interface config => exact calm_set_ok h ht
  | reset => exact calm_reset_ok h

def answered : List Event → List (Except Error Unit)
  | [] => []
  | .request _ :: events => .ok () :: answered events
  | .restart :: events => answered events

theorem exec_life {events : List Event}
    (ht : ∀ e ∈ events, Targets net link (started s owner net m).1.backend e) {st : LinuxDnsRoute × World}
    (h : Reached net (fun _ => True) m (started s owner net m).1.backend st) :
    exec (host net) (life s owner events st.1) st.2 =
      (answered events, (run (step s owner net) st events).2) := by
  induction events generalizing st with
  | nil => rfl
  | cons e events ih =>
    have htail : ∀ d ∈ events, Targets net link (started s owner net m).1.backend d :=
      fun d hd => ht d (List.mem_cons_of_mem e hd)
    have hwithin : Within net (fun _ => True) e := by
      cases e with
      | restart => trivial
      | request r => cases r with
        | set => exact fun _ _ => trivial
        | reset => trivial
    have hrest := ih htail (attempt_reached (t := ⟨calm, e⟩) h fun _ _ => hwithin)
    cases e with
    | request r =>
      have hok : (exec (host net) (serve Chain.route r st.1) st.2).1.1 = .ok () :=
        request_ok h (ht (.request r) List.mem_cons_self)
      have hlife : exec (host net) (life s owner events (after Chain.route (host net) st r).1)
          (after Chain.route (host net) st r).2 = _ := hrest
      rw [after] at hlife
      rw [life, exec_bind, exec_bind, exec_ret, hok, hlife]
      rfl
    | restart =>
      rw [life, exec_bind]
      exact hrest

end Served

theorem Unfailing.alone {link : ObjectPath} {t : Tenant} {turns : List (Turn theirs)}
    (h : Unfailing net link m t turns) (hidle : m.processes = .idle m.processes.records) :
    Interleave.alone (fun turn => failing net turn.plan) (t.main, m) turns =
      (.ret (answered t.events), overridden link m (t.backend net m) (t.inPlace net m)) := by
  have hstarted : exec (host net) (Chain.probe t.surroundings t.owner) m =
    started t.surroundings t.owner net m := rfl
  have hlife := exec_life h.targets (reached_started fun _ _ => hidle)
  have hworld := (carries_run h.clean h.targets).world
  rw [alone_eq_exec (fun turn hturn => congrArg (failing net) (h.calm turn hturn)) h.enough, failing_calm,
    Tenant.main, exec_bind, hstarted, hlife, hworld]
  rfl

theorem Unfailing.alike {i : ι} {link : ObjectPath} {turns : List (ι × Turn theirs)}
    (hi : Unfailing net link m (tenants i) (turnsOf i turns)) (h : Coexist theirs net L m tenants) :
    Alike (L i) ((tenants i).backend net m) ((hostOf i).get (together net tenants m turns).shared)
      (overridden link m ((tenants i).backend net m) ((tenants i).inPlace net m)) := by
  have halike := (alongside_run h.separate h.start turns).alike i
  rwa [hi.alone h.idle] at halike

/-- An application none of whose calls fails gets `Ok` for each of them, and has in the
end what it asked for, whatever the others do and whatever fails of theirs. -/
theorem served (h : Coexist theirs net L m tenants) (turns : List (ι × Turn theirs)) (i : ι) (link : ObjectPath)
    (hi : Unfailing net link m (tenants i) (turnsOf i turns)) :
    (together net tenants m turns).progs i = .ret (answered (tenants i).events) ∧
      Alike (L i) ((tenants i).backend net m) ((hostOf i).get (together net tenants m turns).shared)
        (overridden link m ((tenants i).backend net m) ((tenants i).inPlace net m)) := by
  have hprog := (alongside_run h.separate h.start turns).progs i
  rw [hi.alone h.idle] at hprog
  exact ⟨hprog, hi.alike h⟩

section Sample

open DnsAnnounce.ResolvconfRecords (tunnels)
open DnsAnnounce.StaticRestore (resolvConf)

def labConfig : DnsRouteConfig := ⟨[.V4 ⟨[10, 1, 0, 1], rfl⟩], ["lab.example".toList]⟩

def sideBySide : Bool → Tenant
  | true => ⟨openresolvHost, "vpn-a".toList, [.request (.set "wg0".toList vpnConfig)]⟩
  | false => ⟨openresolvHost, "vpn-b".toList, [.request (.set "wg1".toList labConfig)]⟩

abbrev sideBySideTunnels : Bool → ResolvconfBackend.Resolvconf := tunnels "vpn-a".toList "vpn-b".toList

theorem backend_sideBySide (net : Net) (m : World) (i : Bool) :
    (sideBySide i).backend net m = .Resolvconf (sideBySideTunnels i) := by
  cases i
  · exact congrArg (fun st : LinuxDnsRoute × World => st.1.backend) (started_openresolv "vpn-b".toList net m)
  · exact congrArg (fun st : LinuxDnsRoute × World => st.1.backend) (started_openresolv "vpn-a".toList net m)

theorem coexist_sideBySide (net : Net) (m : World) (hidle : m.processes = .idle m.processes.records) :
    Coexist (· = resolvConf) net (fun _ q => q = []) m sideBySide where
  idle := hidle
  apart i j hne := by
    have hnames : ∀ i j, i ≠ j →
        (sideBySideTunnels i).registrationName ≠ (sideBySideTunnels j).registrationName := by decide +kernel
    rw [backend_sideBySide, backend_sideBySide]
    exact hnames i j hne
  within i r h := by
    rw [backend_sideBySide] at h
    exact nomatch h

def regenerating (plan : Plan) : Turn (· = resolvConf) where
  plan := plan
  rewrite fs := put fs resolvConf (some (encode "nameserver 10.0.0.1\n".toList))
  frame _ _ h := put_other _ h _

def mixed : List (Bool × Turn (· = resolvConf)) :=
  [(true, regenerating calm), (false, regenerating calm), (true, regenerating calm),
    (false, regenerating unwritable), (false, regenerating unwritable), (true, regenerating calm)]

theorem neighbour_undisturbed :
    (together ResolvedLinks.twoLinks sideBySide plainWorld mixed).progs true =
        (alone (fun t => failing ResolvedLinks.twoLinks t.plan) ((sideBySide true).main, plainWorld)
          [regenerating calm, regenerating calm, regenerating calm]).1 ∧
      (together ResolvedLinks.twoLinks sideBySide plainWorld mixed).shared.records "eth0".toList = none := by
  obtain ⟨hown, helse⟩ := isolated (coexist_sideBySide ResolvedLinks.twoLinks plainWorld rfl) mixed
  have hnames : ∀ i, "eth0".toList ≠ (sideBySideTunnels i).registrationName := by decide +kernel
  refine ⟨(hown true).1, helse.records "eth0".toList fun i r h => ?_⟩
  rw [backend_sideBySide] at h
  rw [← Backend.Resolvconf.inj h]
  exact hnames i

theorem inPlace_true (net : Net) (m : World) : (sideBySide true).inPlace net m = some vpnConfig := by
  rw [Tenant.inPlace, backend_sideBySide]
  rfl

theorem neighbour_served :
    (together ResolvedLinks.twoLinks sideBySide plainWorld mixed).progs true = .ret [.ok ()] ∧
      (together ResolvedLinks.twoLinks sideBySide plainWorld mixed).shared.records "tun-vpn-a".toList =
        some ["10.0.0.1".toList] := by
  have hbackend := backend_sideBySide ResolvedLinks.twoLinks plainWorld true
  have hname : (sideBySideTunnels true).registrationName = "tun-vpn-a".toList := by decide +kernel
  have hunfailing : Unfailing ResolvedLinks.twoLinks [] plainWorld (sideBySide true) (turnsOf true mixed) := by
    refine ⟨?_, ?_, by simp [mixed, turnsOf, regenerating], by decide +kernel⟩
    · rw [hbackend]
      exact .resolvconf _ rfl rfl
    · rw [hbackend]
      exact fun e _ => .anywhere _ e nofun
  obtain ⟨hprog, halike⟩ :=
    served (coexist_sideBySide ResolvedLinks.twoLinks plainWorld rfl) mixed true [] hunfailing
  refine ⟨hprog, ?_⟩
  rw [hbackend, inPlace_true] at halike
  generalize together ResolvedLinks.twoLinks sideBySide plainWorld mixed = st at halike ⊢
  obtain - | ⟨_, _, _, hrun⟩ := halike
  have hrecord := hrun.record
  rw [← hname]
  exact hrecord.trans (by decide +kernel)

end Sample

end Results

end DnsAnnounce.Tenants
