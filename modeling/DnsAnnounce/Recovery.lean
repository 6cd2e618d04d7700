import DnsAnnounce.ChainRuns
import DnsAnnounce.SetFaults
import DnsAnnounce.StaticRetry

namespace DnsAnnounce.Recovery

open DnsAnnounce.Utf8 DnsAnnounce.Address DnsAnnounce.Effect DnsAnnounce.Runs DnsAnnounce.FileSystem
open DnsAnnounce.Route DnsAnnounce.Chain DnsAnnounce.ChainProbe DnsAnnounce.ChainRuns DnsAnnounce.StaticRetry
open DnsAnnounce.ResolvedBackend (Net Links ObjectPath BusCall BusFault bus blank pushed push proxyOf indexOf
  told)
open DnsAnnounce.ResolvedLinks (linkOf noFaults)
open DnsAnnounce.ResolvconfBackend (ProcCall ProcFault os commanded addArgs inputFor)
open DnsAnnounce.StaticFaults (disk)
open DnsAnnounce.StaticBackend (OneLine ownerIn opened withPath)
open DnsAnnounce.StaticRestore (resolvConf)

/-- What fails of the calls on the host, and how. -/
structure Plan where
  bus : BusCall → Option BusFault
  proc : ProcCall → Option ProcFault
  fs : FsCall → Option FsFault

def failing (net : Net) (plan : Plan) : Handler HostCall HostResp World :=
  hostHandler (bus net plan.bus) (os plan.proc) (disk plan.fs)

def calm : Plan := ⟨fun _ => none, fun _ => none, fun _ => none⟩

/-- An application's call or start, and what fails in it. -/
structure Trial where
  plan : Plan
  event : Event

def attempt (s : Surroundings) (owner : Text) (net : Net) (st : LinuxDnsRoute × World) (t : Trial) :
    LinuxDnsRoute × World :=
  match t.event with
  | .request r => after Chain.route (failing net t.plan) st r
  | .restart => exec (failing net t.plan) (Chain.probe s owner) st.2

/-- An instance of the picked backend `b` and the host, in which nothing differs from
`m` but what that backend is there to change: the links in `L`, one record, two files. -/
inductive Reached (net : Net) (L : ObjectPath → Prop) (m : World) : Backend → LinuxDnsRoute × World → Prop
  | systemdResolved (b : ResolvedBackend.SystemdResolved) (active : Option Int) (links : Links) :
    (∀ idx link, active = some idx → net.link idx = .ok link → L link) →
    (∀ link, ¬ L link → links link = m.links link) →
    Reached net L m (.SystemdResolved b) (resolvedRoute ⟨active⟩, { m with links := links })
  | resolvconf (b : ResolvconfBackend.Resolvconf) (active : Bool) (servers : Option (List Text)) :
    Reached net L m (.Resolvconf b) (resolvconfRoute { b with active := active }, { m with
      processes := .idle (Function.update m.processes.records b.registrationName servers) })
  | staticResolvConf (b : StaticBackend.StaticResolvConf) (active : Bool) (files : Fs) :
    (∀ p, p ≠ b.path → p ≠ b.backupPath → files p = m.files p) →
    Reached net L m (.StaticResolvConf b) (staticRoute { b with active := active }, { m with files := files })

def Within (net : Net) (L : ObjectPath → Prop) : Event → Prop
  | .request (.set interface _) => ∀ link, linkOf net interface = some link → L link
  | _ => True

section Resolved

variable {net : Net} {plan : BusCall → Option BusFault} {link : ObjectPath}

theorem indexOf_noFaults {interface : Text} {idx : Int} (h : indexOf net plan interface = .ok idx) :
    indexOf net noFaults interface = .ok idx := by
  rw [indexOf] at h ⊢
  cases hp : plan (.readToString (ResolvedBackend.ifindexFile ResolvedBackend.sysClassNet interface)) with
  | none =>
    rw [hp] at h
    exact h
  | some f =>
    rw [hp] at h
    cases h

theorem link_of_proxyOf {idx : Int} (h : proxyOf net plan idx = .ok link) : net.link idx = .ok link := by
  rw [proxyOf] at h
  cases hm : plan .managerProxy with
  | some f =>
    rw [hm] at h
    cases h
  | none =>
    rw [hm] at h
    cases hg : plan (.getLink idx) with
    | some f =>
      rw [hg] at h
      cases h
    | none =>
      rw [hg] at h
      cases hl : net.link idx with
      | error e =>
        rw [hl] at h
        cases h
      | ok found =>
        rw [hl] at h
        cases hb : plan (.linkProxy found) with
        | some f =>
          simp [told, hb] at h
        | none => simpa [told, hb] using h

theorem push_other {q : ObjectPath} (h : q ≠ link) (state : ResolvedBackend.LinkState) (links : Links) :
    (push plan link state links).2 q = links q := by
  have hleft (f : Option BusFault) {ls done : Links} (hd : done q = ls q) :
      ResolvedBackend.left f ls done q = ls q := by
    cases f with
    | none => exact hd
    | some f =>
      rw [ResolvedBackend.left]
      split_ifs
      · exact hd
      · rfl
  have hdns := hleft (plan (.setDns link state.dns))
    (Function.update_of_ne h ({ links link with dns := state.dns } : ResolvedBackend.LinkState) links)
  rw [push]
  dsimp only
  split
  · exact hdns
  · exact (hleft _ (Function.update_of_ne h _ _)).trans hdns

theorem update_of_eq_off {links found : Links} (h : ∀ q, ¬ q = link → links q = found q)
    (state : ResolvedBackend.LinkState) :
    Function.update links link state = Function.update found link state := by
  funext q
  by_cases hq : q = link
  · rw [hq, Function.update_self, Function.update_self]
  · rw [Function.update_of_ne hq, Function.update_of_ne hq, h q hq]

theorem resolved_set_ok {self : ResolvedBackend.SystemdResolved} {links : Links} {interface : Text}
    {config : DnsRouteConfig} (hok : outcome ResolvedBackend.route (bus net plan) (.set interface config)
      (self, links) = .ok ()) :
    ∃ idx link, linkOf net interface = some link ∧ net.link idx = .ok link ∧
      after ResolvedBackend.route (bus net plan) (self, links) (.set interface config) =
        (⟨some idx⟩, Function.update links link (pushed config)) := by
  have hset := ResolvedBackend.exec_set net plan links self interface config
  dsimp only [outcome, after, serve, ResolvedBackend.route] at hok ⊢
  rw [hset] at hok ⊢
  cases hi : indexOf net plan interface with
  | error e => simp [hi] at hok
  | ok idx =>
    cases hp : proxyOf net plan idx with
    | error e => simp [hi, hp] at hok
    | ok link =>
      have hl := link_of_proxyOf hp
      cases hpushed : push plan link (pushed config) links with
      | mk result links' =>
        cases result with
        | error e => simp [hi, hp, hpushed] at hok
        | ok _ =>
          have hlinks := ResetFaults.push_ok (congrArg Prod.fst hpushed)
          rw [hpushed] at hlinks
          obtain rfl := hlinks
          refine ⟨idx, link, ResolvedLinks.linkOf_eq_some.mpr ⟨idx, indexOf_noFaults hi, hl⟩, hl, ?_⟩
          simp only [hp, hpushed]

end Resolved

section Resolvconf

variable {plan : ProcCall → Option ProcFault} {self : ResolvconfBackend.Resolvconf}
  {records : ResolvconfBackend.Records}

theorem resolvconf_set_ok {interface : Text} {config : DnsRouteConfig}
    (hok : outcome ResolvconfBackend.route (os plan) (.set interface config) (self, .idle records) = .ok ()) :
    after ResolvconfBackend.route (os plan) (self, .idle records) (.set interface config) =
      ({ self with active := true },
        .idle (Function.update records self.registrationName (some (serversOf config)))) := by
  have hset := ResolvconfBackend.exec_set plan interface config self records
  dsimp only [outcome, after, serve, ResolvconfBackend.route] at hok ⊢
  rw [hset] at hok ⊢
  cases hc : commanded plan self.binary (addArgs self.registrationName) (inputFor config) records with
  | mk result records' =>
    cases result with
    | error e => simp [hc] at hok
    | ok _ =>
      have hrecords := ResetFaults.commanded_ok (congrArg Prod.fst hc)
      rw [hc, ResolvconfBackend.resolvconf_add, ResolvconfBackend.parseNameservers_inputFor] at hrecords
      obtain rfl := hrecords
      rfl

end Resolvconf

section Static

variable {plan : FsCall → Option FsFault} {b : StaticBackend.StaticResolvConf} {found files : Fs}

theorem static_set_ok {active : Bool} (h : Kept { b with active := active } found files) (hone : OneLine b.owner)
    (hmark : ownerIn (found b.path) ≠ some b.owner) (hg : Gentle b.path b.backupPath plan)
    (hother : ∀ p, p ≠ b.path → p ≠ b.backupPath → files p = found p) {interface : Text} {config : DnsRouteConfig}
    (hok : outcome StaticBackend.route (disk plan) (.set interface config)
      ({ b with active := active }, files) = .ok ()) :
    after StaticBackend.route (disk plan) ({ b with active := active }, files) (.set interface config) =
      ({ b with active := true }, put (put found b.backupPath (some (originalIn b found))) b.path
        (some (written b found config))) := by
  obtain ⟨r, active', fs', hset, -, hdone⟩ := h.set hone hmark hg interface config
  have hafter : after StaticBackend.route (disk plan) ({ b with active := active }, files)
      (.set interface config) = ({ b with active := active' }, fs') := congrArg (fun x => (x.1.2, x.2)) hset
  have hr : outcome StaticBackend.route (disk plan) (.set interface config)
      ({ b with active := active }, files) = r := congrArg (fun x => x.1.1) hset
  obtain ⟨rfl, hpath, hbacked⟩ := hdone (hr.symm.trans hok)
  have hframe (p : PathBuf) (hp : p ≠ b.path) (hb : p ≠ b.backupPath) : fs' p = found p := by
    have hsame : SameFiles b { b with active := active } := ⟨rfl, rfl, rfl⟩
    have hleft := other_files plan hp hb hsame (.set interface config) files
    rw [hafter] at hleft
    exact hleft.trans (hother p hp hb)
  rw [hafter]
  refine Prod.ext rfl (funext fun p => ?_)
  dsimp only
  by_cases hp : p = b.path
  · rw [hp, put_self]
    exact hpath
  · rw [put_other _ hp]
    by_cases hb : p = b.backupPath
    · rw [hb, put_self]
      exact hbacked
    · rw [put_other _ hb, hframe p hp hb]

end Static

section Steps

variable {s : Surroundings} {owner : Text} {net : Net} {L : ObjectPath → Prop} {m : World} {plan : Plan}

theorem links_reached (b : ResolvedBackend.SystemdResolved) {active : Option Int} {links : Links}
    (hactive : ∀ idx link, active = some idx → net.link idx = .ok link → L link)
    (hother : ∀ link, ¬ L link → links link = m.links link) {r : Request} (hr : Within net L (.request r)) :
    Reached net L m (.SystemdResolved b) (after Chain.route (failing net plan)
      (resolvedRoute ⟨active⟩, { m with links := links }) r) := by
  have hpush (link : ObjectPath) (hlink : L link) (state : ResolvedBackend.LinkState) (q : ObjectPath)
      (hq : ¬ L q) : (push plan.bus link state links).2 q = m.links q :=
    (push_other (fun h : q = link => hq (h.symm ▸ hlink)) state links).trans (hother q hq)
  rw [failing, after_resolved]
  cases r with
  | set interface config =>
    have hset := ResolvedBackend.exec_set net plan.bus links ⟨active⟩ interface config
    dsimp only [after, serve, ResolvedBackend.route]
    rw [hset]
    cases hi : indexOf net plan.bus interface with
    | error e => exact .systemdResolved b active links hactive hother
    | ok idx =>
      cases hp : proxyOf net plan.bus idx with
      | error e =>
        simp only [hp]
        exact .systemdResolved b active links hactive hother
      | ok link =>
        have hlink : L link := hr link
          (ResolvedLinks.linkOf_eq_some.mpr ⟨idx, indexOf_noFaults hi, link_of_proxyOf hp⟩)
        have hlinks := hpush link hlink (pushed config)
        simp only [hp]
        cases hpushed : push plan.bus link (pushed config) links with
        | mk result links' =>
          rw [hpushed] at hlinks
          cases result with
          | error e => exact .systemdResolved b active links' hactive hlinks
          | ok _ =>
            refine .systemdResolved b (some idx) links' (fun idx' link' h hl => ?_) hlinks
            obtain rfl := Option.some.inj h
            rw [link_of_proxyOf hp] at hl
            exact Except.ok.inj hl ▸ hlink
  | reset =>
    have hreset := ResolvedBackend.exec_reset net plan.bus links ⟨active⟩
    dsimp only [after, serve, ResolvedBackend.route]
    rw [hreset]
    cases active with
    | none => exact .systemdResolved b none links hactive hother
    | some idx =>
      dsimp only
      cases hp : proxyOf net plan.bus idx with
      | error e => exact .systemdResolved b none links nofun hother
      | ok link =>
        exact .systemdResolved b none _ nofun (hpush link (hactive idx link rfl (link_of_proxyOf hp)) blank)

variable (m plan) in
theorem records_commanded (b : ResolvconfBackend.Resolvconf) (servers : Option (List Text)) {args : List Text}
    (hargs : args = addArgs b.registrationName ∨ args = ResolvconfBackend.deleteArgs b.registrationName)
    (input : Text) :
    ∃ servers', (commanded plan.proc b.binary args input
      (Function.update m.processes.records b.registrationName servers)).2 =
        Function.update m.processes.records b.registrationName servers' := by
  obtain ⟨-, hsame⟩ | ⟨-, stdin, hran⟩ := SetFaults.commanded_records plan.proc b.binary args input
    (Function.update m.processes.records b.registrationName servers)
  · exact ⟨servers, hsame⟩
  · rw [hran]
    obtain rfl | rfl := hargs
    · exact ⟨_, by rw [ResolvconfBackend.resolvconf_add, Function.update_idem]⟩
    · exact ⟨none, by rw [ResolvconfBackend.resolvconf_delete, Function.update_idem]⟩

theorem records_reached (b : ResolvconfBackend.Resolvconf) (active : Bool) (servers : Option (List Text))
    (r : Request) :
    Reached net L m (.Resolvconf b) (after Chain.route (failing net plan)
      (resolvconfRoute { b with active := active }, { m with
        processes := .idle (Function.update m.processes.records b.registrationName servers) }) r) := by
  rw [failing, after_resolvconf]
  cases r with
  | set interface config =>
    have hset := ResolvconfBackend.exec_set plan.proc interface config { b with active := active }
      (Function.update m.processes.records b.registrationName servers)
    obtain ⟨servers', hrecords⟩ := records_commanded m plan b servers (.inl rfl) (inputFor config)
    dsimp only [after, serve, ResolvconfBackend.route]
    rw [hset]
    dsimp only
    cases hc : commanded plan.proc b.binary (addArgs b.registrationName) (inputFor config)
      (Function.update m.processes.records b.registrationName servers) with
    | mk result records =>
      rw [hc] at hrecords
      obtain rfl := hrecords
      cases result with
      | error e => exact .resolvconf b active servers'
      | ok _ => exact .resolvconf b true servers'
  | reset =>
    have hreset := ResolvconfBackend.exec_reset plan.proc { b with active := active }
      (Function.update m.processes.records b.registrationName servers)
    obtain ⟨servers', hrecords⟩ := records_commanded m plan b servers (.inr rfl) []
    dsimp only [after, serve, ResolvconfBackend.route]
    rw [hreset]
    dsimp only
    rw [hrecords]
    split_ifs
    · exact .resolvconf b active servers
    · exact .resolvconf b false servers'

theorem files_reached (b : StaticBackend.StaticResolvConf) (active : Bool) {files : Fs}
    (hother : ∀ p, p ≠ b.path → p ≠ b.backupPath → files p = m.files p) (r : Request) :
    Reached net L m (.StaticResolvConf b) (after Chain.route (failing net plan)
      (staticRoute { b with active := active }, { m with files := files }) r) := by
  rw [failing, after_static]
  have hsame : SameFiles b { b with active := active } := ⟨rfl, rfl, rfl⟩
  rw [(same_files plan.fs hsame r files).eq]
  exact .staticResolvConf b _ _ fun p hp hb => (other_files plan.fs hp hb hsame r files).trans (hother p hp hb)

theorem reached_started (hidle : ∀ r, (started s owner net m).1.backend = .Resolvconf r →
    m.processes = .idle m.processes.records) :
    Reached net L m (started s owner net m).1.backend (started s owner net m) := by
  have hfresh := fresh_started s owner net m
  have hstart : started s owner net m = (⟨(started s owner net m).1.backend⟩, m) :=
    Prod.ext rfl (left_started s owner net m)
  rw [hstart]
  dsimp only
  generalize (started s owner net m).1.backend = b at hfresh hidle
  cases hfresh with
  | systemdResolved => exact .systemdResolved ⟨none⟩ none m.links nofun fun _ _ => rfl
  | resolvconf binary =>
    let b : ResolvconfBackend.Resolvconf := ⟨binary, ResolvconfBackend.registrationName owner, false⟩
    have h : Reached net L m (.Resolvconf b) _ := .resolvconf b false (m.processes.records b.registrationName)
    rw [Function.update_eq_self, ← hidle b rfl] at h
    exact h
  | staticResolvConf => exact .staticResolvConf _ _ m.files fun _ _ _ => rfl

theorem exec_probe (st : LinuxDnsRoute × World) : exec (failing net plan) (Chain.probe s owner) st.2 =
    (⟨reopened (exec (disk plan.fs) (withPath owner resolvConf) st.2.files).1
      (started s owner net m).1.backend⟩, st.2) :=
  probe_again (bus net plan.bus) (os plan.proc) (disk_of_reads plan.fs) st.2

theorem withPath_opened (files : Fs) : withPath owner resolvConf =
    withPath (opened owner resolvConf files).owner (opened owner resolvConf files).path := by
  rw [StaticBackend.opened_eq]

theorem restart_reached {b : Backend} (hfresh : Fresh s owner m.files b) {st : LinuxDnsRoute × World}
    (h : Reached net L m b st) : Reached net L m b
      (⟨reopened (exec (disk plan.fs) (withPath owner resolvConf) st.2.files).1 b⟩, st.2) := by
  cases h with
  | systemdResolved b active links hactive hother => exact .systemdResolved b none links nofun hother
  | resolvconf b active servers => exact .resolvconf b false servers
  | staticResolvConf b active files hother =>
    cases hfresh with
    | staticResolvConf =>
      rw [withPath_opened m.files, disk_withPath]
      exact .staticResolvConf _ _ files hother

theorem attempt_reached {st : LinuxDnsRoute × World} (h : Reached net L m (started s owner net m).1.backend st)
    {t : Trial} (ht : ∀ r, (started s owner net m).1.backend = .SystemdResolved r → Within net L t.event) :
    Reached net L m (started s owner net m).1.backend (attempt s owner net st t) := by
  have hfresh := fresh_started s owner net m
  obtain ⟨plan, event⟩ := t
  cases event with
  | restart =>
    rw [attempt, exec_probe (m := m)]
    exact restart_reached hfresh h
  | request r =>
    rw [attempt]
    dsimp only
    generalize (started s owner net m).1.backend = b at h ht
    cases h with
    | systemdResolved b active links hactive hother => exact links_reached b hactive hother (ht b rfl)
    | resolvconf b active servers => exact records_reached b active servers r
    | staticResolvConf b active files hother => exact files_reached b active hother r

/-- The failures after which a retry can help: those of the file must leave it whole. -/
inductive Bearable : Backend → Plan → Prop
  | staticResolvConf (b : StaticBackend.StaticResolvConf) (plan : Plan) :
    Gentle b.path b.backupPath plan.fs → Bearable (.StaticResolvConf b) plan
  | other (b : Backend) (plan : Plan) : (∀ r, b ≠ .StaticResolvConf r) → Bearable b plan

/-- The file that is found is not this application's own. -/
def Unmarked (m : World) (b : Backend) : Prop :=
  ∀ r, b = .StaticResolvConf r → ownerIn (m.files r.path) ≠ some r.owner

def Intact (m : World) (st : LinuxDnsRoute × World) : Prop :=
  ∀ self, st.1.backend = .StaticResolvConf self → Kept self m.files st.2.files

theorem intact_started (hunmarked : Unmarked m (started s owner net m).1.backend) :
    Intact m (started s owner net m) := by
  have hfresh := fresh_started s owner net m
  intro self hself
  rw [hself] at hfresh hunmarked
  rw [left_started]
  cases hfresh with
  | staticResolvConf =>
    have hmark := hunmarked _ rfl
    refine .asFound ?_ rfl
    rw [StaticBackend.opened_eq] at hmark ⊢
    exact decide_eq_false fun h => hmark h.1

theorem attempt_intact {link : ObjectPath} (hclean : Clean link m (started s owner net m).1.backend)
    (hunmarked : Unmarked m (started s owner net m).1.backend) {st : LinuxDnsRoute × World}
    (h : Reached net L m (started s owner net m).1.backend st) (hi : Intact m st) {t : Trial}
    (ht : Bearable (started s owner net m).1.backend t.plan) : Intact m (attempt s owner net st t) := by
  have hfresh := fresh_started s owner net m
  obtain ⟨plan, event⟩ := t
  cases event with
  | restart =>
    rw [attempt, exec_probe (m := m)]
    generalize (started s owner net m).1.backend = b at *
    cases h with
    | systemdResolved => nofun
    | resolvconf => nofun
    | staticResolvConf b active files hother =>
      cases hfresh with
      | staticResolvConf =>
        have hkept := hi _ rfl
        obtain ⟨_, _, hg⟩ | ⟨_, _, hnot⟩ := ht
        · rw [withPath_opened m.files]
          rintro self ⟨⟩
          exact hkept.withPath (hunmarked (opened owner resolvConf m.files) rfl) hg
        · exact absurd rfl (hnot _)
  | request r =>
    rw [attempt]
    dsimp only
    generalize (started s owner net m).1.backend = b at *
    cases h with
    | systemdResolved b active links hactive hother =>
      rw [failing, after_resolved]
      nofun
    | resolvconf b active servers =>
      rw [failing, after_resolvconf]
      nofun
    | staticResolvConf b active files hother =>
      obtain - | - | ⟨_, hone, hcontent, -⟩ := hclean
      have hkept := hi _ rfl
      obtain ⟨_, _, hg⟩ | ⟨_, _, hnot⟩ := ht
      · rw [failing, after_static]
        rintro self ⟨⟩
        exact hkept.after hone (hunmarked b rfl) hcontent hg r
      · exact absurd rfl (hnot b)

/-- Whatever failed before, a `set()` that returns `Ok` leaves the host with its
configuration and with nothing else changed. -/
theorem carries_of_ok {link : ObjectPath} {b : Backend} (hclean : Clean link m b) (hunmarked : Unmarked m b)
    {st : LinuxDnsRoute × World} (h : Reached net (· = link) m b st) (hi : Intact m st)
    (hplan : Bearable b plan) {interface : Text} {config : DnsRouteConfig}
    (ht : Targets net link b (.request (.set interface config)))
    (hok : outcome Chain.route (failing net plan) (.set interface config) st = .ok ()) :
    CarriesOut net link m b (after Chain.route (failing net plan) st (.set interface config))
      ⟨some config, true⟩ := by
  cases h with
  | systemdResolved b active links hactive hother =>
    rw [failing, outcome_resolved] at hok
    rw [failing, after_resolved]
    obtain ⟨idx, found, hfound, hl, hset⟩ := resolved_set_ok (ResetFaults.mapError_ok hok)
    obtain rfl : found = link := Option.some.inj (hfound.symm.trans ht.linkOf)
    rw [hset]
    refine ⟨?_, some idx, rfl, rfl, fun idx' h => Option.some.inj h ▸ hl⟩
    dsimp only
    rw [update_of_eq_off hother]
    rfl
  | resolvconf b active servers =>
    rw [failing, outcome_resolvconf] at hok
    rw [failing, after_resolvconf, resolvconf_set_ok (ResetFaults.mapError_ok hok), Function.update_idem]
    exact ⟨rfl, rfl⟩
  | staticResolvConf b active files hother =>
    obtain - | - | ⟨_, hone, hcontent, hbackup⟩ := hclean
    have hkept := hi _ rfl
    obtain ⟨_, _, hg⟩ | ⟨_, _, hnot⟩ := hplan
    · rw [failing, outcome_static] at hok
      rw [failing, after_static,
        static_set_ok hkept hone (hunmarked b rfl) hg hother (ResetFaults.mapError_ok hok)]
      exact ⟨rfl, rfl, rfl⟩
    · exact absurd rfl (hnot b)

theorem failing_calm (net : Net) : failing net calm = host net := rfl

theorem calm_set_ok {link : ObjectPath} {b : Backend} {st : LinuxDnsRoute × World} (h : Reached net L m b st)
    {interface : Text} {config : DnsRouteConfig} (ht : Targets net link b (.request (.set interface config))) :
    outcome Chain.route (failing net calm) (.set interface config) st = .ok () := by
  rw [failing_calm, host]
  cases h with
  | systemdResolved b active links =>
    obtain ⟨idx, hi, hl⟩ := ResolvedLinks.linkOf_eq_some.mp ht.linkOf
    have hset := ResolvedBackend.exec_set net noFaults links ⟨active⟩ interface config
    simp only [hi, ResolvedLinks.proxyOf_noFaults hl, ResolvedLinks.push_noFaults] at hset
    rw [outcome_resolved]
    exact congrArg (fun x : (Except ResolvedBackend.Error Unit × _) × Links =>
      x.1.1.mapError Error.SystemdResolved) hset
  | resolvconf b active servers =>
    have hset := ResolvconfBackend.exec_set (fun _ => none) interface config { b with active := active }
      (Function.update m.processes.records b.registrationName servers)
    rw [ResolvconfRecords.commanded_noFaults] at hset
    rw [outcome_resolvconf]
    exact congrArg (fun x : (Except ResolvconfBackend.Error Unit × _) × ResolvconfBackend.Host =>
      x.1.1.mapError Error.Resolvconf) hset
  | staticResolvConf b active files =>
    have hset := StaticBackend.exec_set { b with active := active } interface config files
    rw [outcome_static]
    exact congrArg (fun x : (Except ErrorKind Unit × _) × Fs => x.1.1.mapError Error.StaticResolvConf) hset

theorem calm_reset_ok {b : Backend} {st : LinuxDnsRoute × World} (h : Reached net L m b st) :
    outcome Chain.route (failing net calm) .reset st = .ok () := by
  rw [failing_calm, host]
  cases h with
  | systemdResolved b active links =>
    have hreset := ResolvedBackend.exec_reset net noFaults links ⟨active⟩
    have hok : outcome ResolvedBackend.route (ResolvedBackend.busHandler net) .reset (⟨active⟩, links) =
        .ok () := by
      refine (congrArg (fun x => x.1.1) hreset).trans ?_
      cases active with
      | none => rfl
      | some idx =>
        dsimp only
        cases ResolvedBackend.proxyOf net noFaults idx with
        | error e => rfl
        | ok link =>
          dsimp only
          rw [ResolvedLinks.push_noFaults]
          rfl
    rw [outcome_resolved, hok]
    rfl
  | resolvconf b active servers =>
    have hreset := ResolvconfBackend.exec_reset (fun _ => none) { b with active := active }
      (Function.update m.processes.records b.registrationName servers)
    rw [ResolvconfRecords.commanded_noFaults] at hreset
    rw [outcome_resolvconf]
    refine (congrArg (fun x : (Except ResolvconfBackend.Error Unit × _) × ResolvconfBackend.Host =>
      x.1.1.mapError Error.Resolvconf) hreset).trans ?_
    split_ifs <;> rfl
  | staticResolvConf b active files =>
    have hreset := StaticBackend.exec_reset { b with active := active } files
    rw [outcome_static]
    exact congrArg (fun x : (Except ErrorKind Unit × _) × Fs => x.1.1.mapError Error.StaticResolvConf) hreset

theorem reached_run {link : ObjectPath} (hclean : Clean link m (started s owner net m).1.backend)
    (hunmarked : Unmarked m (started s owner net m).1.backend) {trials : List Trial}
    (hplans : ∀ t ∈ trials, Bearable (started s owner net m).1.backend t.plan)
    (ht : ∀ t ∈ trials, Targets net link (started s owner net m).1.backend t.event) :
    Reached net (· = link) m (started s owner net m).1.backend
        (run (attempt s owner net) (started s owner net m) trials) ∧
      Intact m (run (attempt s owner net) (started s owner net m) trials) := by
  have hidle : ∀ r, (started s owner net m).1.backend = .Resolvconf r →
      m.processes = .idle m.processes.records := by
    intro r hr
    rw [hr] at hclean
    cases hclean with
    | resolvconf _ hidle => exact hidle
  refine run_invariant_of_mem (attempt s owner net)
    (I := fun st => Reached net (· = link) m (started s owner net m).1.backend st ∧ Intact m st)
    (P := fun t : Trial => Bearable (started s owner net m).1.backend t.plan ∧
      Targets net link (started s owner net m).1.backend t.event) ?_
    ⟨reached_started hidle, intact_started hunmarked⟩ fun t hmem => ⟨hplans t hmem, ht t hmem⟩
  rintro st ⟨plan, event⟩ ⟨hplan, htarget⟩ ⟨h, hi⟩
  refine ⟨attempt_reached h fun r hr => ?_, attempt_intact hclean hunmarked h hi hplan⟩
  rw [hr] at htarget
  cases htarget with
  | link interface config hlinkOf =>
    intro found hfound
    exact Option.some.inj (hfound.symm.trans hlinkOf)
  | anywhere _ hnot => exact absurd rfl (hnot r)
  | reset | restart => trivial

end Steps

section Results

variable (s : Surroundings) (owner : Text) (net : Net) (m : World)

/-- Whatever fails, and however often, an application changes nothing on its host but
the links that it was told to configure, or its own record, or its own two files. -/
theorem only_own_changes (hidle : m.processes = .idle m.processes.records) (L : ObjectPath → Prop)
    (trials : List Trial) (hwithin : ∀ t ∈ trials, Within net L t.event) :
    Reached net L m (started s owner net m).1.backend
      (run (attempt s owner net) (started s owner net m) trials) :=
  run_invariant_of_mem (attempt s owner net) (I := Reached net L m (started s owner net m).1.backend)
    (fun _ _ ht h => attempt_reached h fun _ _ => ht) (reached_started fun _ _ => hidle) hwithin

def unwritable : Plan where
  bus _ := none
  proc
    | .waitWithOutput => some ⟨.Other, some [], some 0⟩
    | _ => none
  fs
    | .write _ _ => some ⟨none⟩
    | _ => none

theorem other_records_stay :
    (run (attempt openresolvHost "vpn".toList ResolvedLinks.twoLinks)
      (started openresolvHost "vpn".toList ResolvedLinks.twoLinks plainWorld)
      [⟨unwritable, .request (.set "wg0".toList vpnConfig)⟩, ⟨calm, .restart⟩]).2.processes.records
        "eth0".toList = none := by
  have h := only_own_changes openresolvHost "vpn".toList ResolvedLinks.twoLinks plainWorld rfl (fun _ => True)
    [⟨unwritable, .request (.set "wg0".toList vpnConfig)⟩, ⟨calm, .restart⟩]
    (List.forall_mem_cons.mpr ⟨fun _ _ => trivial, List.forall_mem_singleton.mpr trivial⟩)
  rw [congrArg (fun st : LinuxDnsRoute × World => st.1.backend)
    (started_openresolv "vpn".toList ResolvedLinks.twoLinks plainWorld)] at h
  generalize run _ _ _ = st at h ⊢
  cases h with
  | resolvconf b active servers =>
    have hne : "eth0".toList ≠ (ResolvconfRecords.instanceOf "vpn".toList).registrationName := by decide +kernel
    exact Function.update_of_ne hne servers plainWorld.processes.records

variable (link : ObjectPath)

/-- Trying again is enough. Whatever has failed, a `set()` in which nothing fails
returns `Ok`, and one that returns `Ok` leaves the host as if nothing had ever
failed: what follows is what `intend` says, down to a `reset()` that undoes it all. -/
theorem retry_recovers (hclean : Clean link m (started s owner net m).1.backend)
    (hunmarked : Unmarked m (started s owner net m).1.backend) (trials : List Trial)
    (hplans : ∀ t ∈ trials, Bearable (started s owner net m).1.backend t.plan)
    (ht : ∀ t ∈ trials, Targets net link (started s owner net m).1.backend t.event)
    (interface : Text) (config : DnsRouteConfig)
    (htarget : Targets net link (started s owner net m).1.backend (.request (.set interface config))) :
    outcome Chain.route (failing net calm) (.set interface config)
        (run (attempt s owner net) (started s owner net m) trials) = .ok () ∧
    ∀ plan, Bearable (started s owner net m).1.backend plan →
      outcome Chain.route (failing net plan) (.set interface config)
        (run (attempt s owner net) (started s owner net m) trials) = .ok () →
      ∀ more, (∀ e ∈ more, Targets net link (started s owner net m).1.backend e) →
        (run (step s owner net) (attempt s owner net (run (attempt s owner net) (started s owner net m) trials)
          ⟨plan, .request (.set interface config)⟩) more).2 =
          overridden link m (started s owner net m).1.backend
            (run (intend (remembers (started s owner net m).1.backend)) ⟨some config, true⟩ more).inPlace := by
  obtain ⟨h, hi⟩ := reached_run hclean hunmarked hplans ht
  refine ⟨calm_set_ok h htarget, fun plan hplan hok more hmore => ?_⟩
  have hcarries := carries_of_ok hclean hunmarked h hi hplan htarget hok
  refine CarriesOut.world (run_simulates (R := CarriesOut net link m (started s owner net m).1.backend)
    (G := fun _ e => Targets net link (started s owner net m).1.backend e) ?_ hcarries
    (along_of_mem _ hmore _))
  intro st i e h ht
  exact carries_step hclean h ht

section Sample

theorem unmarked_bare (net : Net) :
    Unmarked plainWorld (started bareHost "vpn".toList net plainWorld).1.backend := by
  rw [backend_bare, StaticBackend.opened_eq]
  intro r hr
  obtain rfl := Backend.StaticResolvConf.inj hr
  decide +kernel

theorem bearable_bare (net : Net) {plan : Plan}
    (hg : Gentle resolvConf (StaticBackend.backupPathFor resolvConf) plan.fs) :
    Bearable (started bareHost "vpn".toList net plainWorld).1.backend plan := by
  rw [backend_bare, StaticBackend.opened_eq]
  exact .staticResolvConf _ plan hg

theorem gentle_unwritable (path backupPath : PathBuf) : Gentle path backupPath unwritable.fs where
  marker := rfl
  backup := rfl
  whole contents f hf := by
    obtain rfl := Option.some.inj hf
    rfl

theorem gentle_calm (path backupPath : PathBuf) : Gentle path backupPath calm.fs := ⟨rfl, rfl, nofun⟩

theorem bare_retry : (run (step bareHost "vpn".toList ResolvedLinks.twoLinks)
    (attempt bareHost "vpn".toList ResolvedLinks.twoLinks
      (run (attempt bareHost "vpn".toList ResolvedLinks.twoLinks)
        (started bareHost "vpn".toList ResolvedLinks.twoLinks plainWorld)
        [⟨unwritable, .request (.set "wg0".toList vpnConfig)⟩, ⟨calm, .restart⟩])
      ⟨calm, .request (.set "wg0".toList vpnConfig)⟩) [.request .reset]).2 = plainWorld := by
  have hplans : ∀ t ∈ [(⟨unwritable, .request (.set "wg0".toList vpnConfig)⟩ : Trial), ⟨calm, .restart⟩],
      Bearable (started bareHost "vpn".toList ResolvedLinks.twoLinks plainWorld).1.backend t.plan :=
    List.forall_mem_cons.mpr ⟨bearable_bare _ (gentle_unwritable _ _),
      List.forall_mem_singleton.mpr (bearable_bare _ (gentle_calm _ _))⟩
  obtain ⟨hok, hrecovers⟩ := retry_recovers bareHost "vpn".toList ResolvedLinks.twoLinks plainWorld []
    (clean_bare _) (unmarked_bare _) _ hplans (fun t _ => targets_bare _ _ t.event) "wg0".toList vpnConfig
    (targets_bare _ _ _)
  refine (hrecovers calm (bearable_bare _ (gentle_calm _ _)) hok [.request .reset]
    fun e _ => targets_bare _ _ e).trans ?_
  generalize (started bareHost "vpn".toList ResolvedLinks.twoLinks plainWorld).1.backend = b
  rfl

end Sample

end Results

end DnsAnnounce.Recovery
