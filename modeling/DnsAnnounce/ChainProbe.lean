import DnsAnnounce.Chain

namespace DnsAnnounce.ChainProbe

open DnsAnnounce.Utf8 DnsAnnounce.Effect DnsAnnounce.Embed DnsAnnounce.FileSystem DnsAnnounce.Route
open DnsAnnounce.ResolvconfBackend DnsAnnounce.StaticBackend DnsAnnounce.StaticRestore DnsAnnounce.Chain

/-- `systemd-resolved` is what the host's lookups go through, and it can be reached. -/
structure InCharge (s : Surroundings) : Prop where
  link : ∃ target, s.readLink resolvConf = some target ∧ "systemd/resolve/".toList <:+: target ∧
    "resolv.conf".toList <:+ target
  bus : s.systemBus = .ok ()

/-- The first directory of the path that has such a file. -/
structure FoundOnPath (env : Environment) (name : Text) (binary : PathBuf) : Prop where
  file : env.isFile binary = true
  first : ∃ pathVar pre dir post, env.pathVar = some pathVar ∧
    pathVar.splitOnP (· = ':') = pre ++ dir :: post ∧ binary = join dir name ∧
    ∀ d ∈ pre, env.isFile (join d name) = false

/-- The command is no shim of systemd-resolved, and it keeps every nameserver. -/
structure Merges (env : Environment) (binary : PathBuf) : Prop where
  genuine : ∀ target, env.canonicalize binary = some target → fileName target ≠ some "resolvectl".toList
  keeps : ∀ updater, env.readToString libcUpdater = some updater → truncateKnob <:+: updater →
    truncationEnabled ((env.readToString resolvconfDefaults).getD []) = false

variable (s : Surroundings) (owner : Text) (files : Fs)

inductive Usable : Text → Prop
  | systemdResolved : InCharge s → Usable "systemd-resolved".toList
  | resolvconf (binary : PathBuf) : FoundOnPath s.environment "resolvconf".toList binary →
    Merges s.environment binary → Usable "resolvconf".toList
  | staticResolvConf : Usable "static-resolv-conf".toList

/-- A usable backend as it is before its first request. -/
inductive Fresh : Backend → Prop
  | systemdResolved : InCharge s → Fresh (.SystemdResolved ⟨none⟩)
  | resolvconf (binary : PathBuf) : FoundOnPath s.environment "resolvconf".toList binary →
    Merges s.environment binary → Fresh (.Resolvconf ⟨binary, registrationName owner, false⟩)
  | staticResolvConf : Fresh (.StaticResolvConf (opened owner resolvConf files))

def priority : List Text := ["systemd-resolved".toList, "resolvconf".toList, "static-resolv-conf".toList]

/-- `b` is the first of these backends that is usable. -/
structure Chosen (names : List Text) (b : Backend) : Prop where
  fresh : Fresh s owner files b
  first : ∃ pre post, names = pre ++ b.name :: post ∧ ∀ name ∈ pre, ¬ Usable s name

section Backends

theorem resolvConfPointsAtResolved_iff (readLink : PathBuf → Option PathBuf) (path : PathBuf) :
    ResolvedBackend.resolvConfPointsAtResolved readLink path = true ↔
      ∃ target, readLink path = some target ∧ "systemd/resolve/".toList <:+: target ∧
        "resolv.conf".toList <:+ target := by
  rw [ResolvedBackend.resolvConfPointsAtResolved]
  cases readLink path with
  | none => simp
  | some target =>
    dsimp only
    rw [Bool.and_eq_true, decide_eq_true_eq, decide_eq_true_eq]
    exact ⟨fun h => ⟨target, rfl, h⟩, fun ⟨t, ht, h⟩ => Option.some.inj ht ▸ h⟩

variable {s}

theorem resolved_probe_ok {b : ResolvedBackend.SystemdResolved} :
    ResolvedBackend.probe s.readLink s.systemBus = .ok b ↔ InCharge s ∧ b = ⟨none⟩ := by
  have hlink := resolvConfPointsAtResolved_iff s.readLink resolvConf
  rw [ResolvedBackend.probe, ResolvedBackend.probeWithResolvConf]
  change (if !ResolvedBackend.resolvConfPointsAtResolved s.readLink resolvConf then _ else _) = _ ↔ _
  cases hpoints : ResolvedBackend.resolvConfPointsAtResolved s.readLink resolvConf with
  | false =>
    rw [hpoints] at hlink
    exact iff_of_false (by simp) fun h => Bool.noConfusion (hlink.mpr h.1.link)
  | true =>
    have htarget := hlink.mp hpoints
    cases hbus : s.systemBus with
    | error e =>
      refine iff_of_false (by simp [Except.mapError, Except.map]) fun h => ?_
      have hok := h.1.bus
      rw [hbus] at hok
      contradiction
    | ok _ =>
      simp only [Except.mapError, Except.map, Bool.not_true, Bool.false_eq_true, if_false, Except.ok.injEq]
      exact ⟨fun h => ⟨⟨htarget, hbus⟩, h.symm⟩, fun h => h.2.symm⟩

variable {env : Environment}

theorem findInPath_eq_some {name : Text} {binary : PathBuf} :
    findInPath env name = some binary ↔ FoundOnPath env name binary := by
  rw [findInPath, Option.bind_eq_bind, Option.bind_eq_some_iff]
  constructor
  · rintro ⟨pathVar, hpath, hfind⟩
    obtain ⟨hfile, as, bs, happend, hnone⟩ := List.find?_eq_some_iff_append.mp hfind
    obtain ⟨pre, rest, hsplit, rfl, hrest⟩ := List.map_eq_append_iff.mp happend
    obtain ⟨dir, post, rfl, hbinary, -⟩ := List.map_eq_cons_iff.mp hrest
    refine ⟨hfile, pathVar, pre, dir, post, hpath, hsplit, hbinary.symm, fun d hd => ?_⟩
    exact (Bool.not_eq_true' _).mp (hnone _ (List.mem_map_of_mem hd))
  · rintro ⟨hfile, pathVar, pre, dir, post, hpath, hsplit, rfl, hnone⟩
    refine ⟨pathVar, hpath, List.find?_eq_some_iff_append.mpr ⟨hfile, pre.map fun d => join d name,
      post.map fun d => join d name, ?_, fun c hc => ?_⟩⟩
    · rw [hsplit, List.map_append, List.map_cons]
    · obtain ⟨d, hd, rfl⟩ := List.mem_map.mp hc
      rw [hnone d hd]
      rfl

theorem pointsAtResolvectl_iff {binary : PathBuf} : pointsAtResolvectl env binary = true ↔
    ∃ target, env.canonicalize binary = some target ∧ fileName target = some "resolvectl".toList := by
  rw [pointsAtResolvectl, decide_eq_true_eq, Option.bind_eq_some_iff]

theorem truncatesAt_iff : truncatesAt env libcUpdater resolvconfDefaults = true ↔
    ∃ updater, env.readToString libcUpdater = some updater ∧ truncateKnob <:+: updater ∧
      truncationEnabled ((env.readToString resolvconfDefaults).getD []) = true := by
  rw [truncatesAt]
  cases env.readToString libcUpdater with
  | none => simp
  | some updater =>
    dsimp only
    rw [Bool.and_eq_true, decide_eq_true_eq]
    exact ⟨fun h => ⟨updater, rfl, h⟩, fun ⟨u, hu, h⟩ => Option.some.inj hu ▸ h⟩

theorem merges_iff {binary : PathBuf} : Merges env binary ↔
    pointsAtResolvectl env binary = false ∧ truncatesAt env libcUpdater resolvconfDefaults = false := by
  rw [← Bool.not_eq_true, ← Bool.not_eq_true, pointsAtResolvectl_iff, truncatesAt_iff]
  constructor
  · intro h
    refine ⟨fun ⟨target, ht, hname⟩ => h.genuine target ht hname, fun ⟨updater, hu, hknob, hon⟩ => ?_⟩
    rw [h.keeps updater hu hknob] at hon
    contradiction
  · rintro ⟨hshim, htruncates⟩
    refine ⟨fun target ht hname => hshim ⟨target, ht, hname⟩, fun updater hu hknob => ?_⟩
    rw [← Bool.not_eq_true]
    exact fun hon => htruncates ⟨updater, hu, hknob, hon⟩

theorem resolvconf_probe_ok {owner : Text} {b : Resolvconf} :
    ResolvconfBackend.probe env owner = .ok b ↔ ∃ binary, FoundOnPath env "resolvconf".toList binary ∧
      Merges env binary ∧ b = ⟨binary, registrationName owner, false⟩ := by
  simp only [← findInPath_eq_some, merges_iff]
  rw [ResolvconfBackend.probe, ResolvconfBackend.probeNamed]
  cases findInPath env "resolvconf".toList with
  | none => simp
  | some binary =>
    simp only [Option.some.injEq, exists_eq_left', and_assoc]
    split_ifs with hshim htruncates
    · exact iff_of_false not_false fun h => Bool.noConfusion (hshim.symm.trans h.1)
    · exact iff_of_false not_false fun h => Bool.noConfusion (htruncates.symm.trans h.2.1)
    · rw [Except.ok.injEq, eq_comm]
      exact ⟨fun h => ⟨Bool.eq_false_iff.mpr hshim, Bool.eq_false_iff.mpr htruncates, h⟩, fun h => h.2.2⟩

end Backends

section Choice

variable {s owner files}

theorem Fresh.usable {b : Backend} (h : Fresh s owner files b) : Usable s b.name := by
  cases h with
  | systemdResolved hcharge => exact .systemdResolved hcharge
  | resolvconf binary hfound hmerges => exact .resolvconf binary hfound hmerges
  | staticResolvConf => exact .staticResolvConf

theorem Chosen.here {b : Backend} {names : List Text} (h : Fresh s owner files b) :
    Chosen s owner files (b.name :: names) b :=
  ⟨h, [], names, rfl, List.forall_mem_nil _⟩

theorem Chosen.later {b : Backend} {name : Text} {names : List Text} (hname : ¬ Usable s name)
    (h : Chosen s owner files names b) : Chosen s owner files (name :: names) b := by
  obtain ⟨pre, post, rfl, hpre⟩ := h.first
  exact ⟨h.fresh, name :: pre, post, rfl, List.forall_mem_cons.mpr ⟨hname, hpre⟩⟩

theorem not_usable_resolved {e : ResolvedBackend.Error}
    (h : ResolvedBackend.probe s.readLink s.systemBus = .error e) : ¬ Usable s "systemd-resolved".toList := by
  intro hu
  generalize hname : "systemd-resolved".toList = name at hu
  cases hu with
  | systemdResolved hcharge =>
    rw [resolved_probe_ok.mpr ⟨hcharge, rfl⟩] at h
    contradiction
  | resolvconf => exact absurd hname (by decide)
  | staticResolvConf => exact absurd hname (by decide)

theorem not_usable_resolvconf {e : ResolvconfBackend.Error}
    (h : ResolvconfBackend.probe s.environment owner = .error e) : ¬ Usable s "resolvconf".toList := by
  intro hu
  generalize hname : "resolvconf".toList = name at hu
  cases hu with
  | systemdResolved => exact absurd hname (by decide)
  | resolvconf binary hfound hmerges =>
    rw [resolvconf_probe_ok.mpr ⟨binary, hfound, hmerges, rfl⟩] at h
    contradiction
  | staticResolvConf => exact absurd hname (by decide)

theorem fresh_resolved {b : ResolvedBackend.SystemdResolved}
    (h : ResolvedBackend.probe s.readLink s.systemBus = .ok b) : Fresh s owner files (.SystemdResolved b) := by
  obtain ⟨hcharge, rfl⟩ := resolved_probe_ok.mp h
  exact .systemdResolved hcharge

theorem fresh_resolvconf {b : Resolvconf} (h : ResolvconfBackend.probe s.environment owner = .ok b) :
    Fresh s owner files (.Resolvconf b) := by
  obtain ⟨binary, hfound, hmerges, rfl⟩ := resolvconf_probe_ok.mp h
  exact .resolvconf binary hfound hmerges

end Choice

def Looks (c : HostCall) : Prop := ∃ r : FsCall, r.Reads ∧ c = .fs r

section Reading

theorem confined_withPath (owner : Text) (path : PathBuf) : Confined FsCall.Reads (withPath owner path) := by
  have hcurrent : Confined FsCall.Reads (currentOwner path) :=
    ⟨trivial, fun r => by cases r <;> exact trivial⟩
  refine hcurrent.bind fun current => ?_
  split_ifs
  · exact ⟨trivial, fun _ => trivial⟩
  · trivial

theorem fsHandler_of_reads (c : FsCall) (fs : Fs) (h : c.Reads) : (fsHandler c fs).2 = fs := by
  cases c with
  | readToString | read | pathExists => rfl
  | write | removeFile => exact h.elim

theorem confined_new (owner : Text) : Confined Looks (embed fsCalls (StaticBackend.new owner)) :=
  (confined_withPath owner resolvConf).embed fun c hc => ⟨c, hc, rfl⟩

theorem confined_autoDetect : Confined Looks (autoDetect s owner) := by
  rw [autoDetect]
  cases ResolvedBackend.probe s.readLink s.systemBus with
  | ok b => trivial
  | error e =>
    cases ResolvconfBackend.probe s.environment owner with
    | ok b => trivial
    | error e => exact (confined_new owner).bind fun _ => trivial

theorem confined_probeNamed (name : Text) : Confined Looks (Chain.probeNamed s name owner) := by
  rw [Chain.probeNamed]
  split_ifs
  · trivial
  · trivial
  · exact (confined_new owner).bind fun _ => trivial
  · trivial

theorem confined_probe : Confined Looks (Chain.probe s owner) := by
  rw [Chain.probe]
  cases s.overrideVar with
  | none => exact confined_autoDetect s owner
  | some name =>
    refine (confined_probeNamed s owner name).bind fun found => ?_
    cases found with
    | none => exact confined_autoDetect s owner
    | some backend => trivial

end Reading

section Result

variable {L P : Type} (hb : Handler ResolvedBackend.BusCall ResolvedBackend.BusResp L)
  (hp : Handler ProcCall ProcResp P)
  (m : Machine L P Fs)

theorem exec_newWith {F : Type} {hf : Handler FsCall FsResp F} (hreads : ∀ c fs, c.Reads → (hf c fs).2 = fs)
    (m : Machine L P F) : exec (hostHandler hb hp hf) (embed fsCalls (StaticBackend.new owner)) m =
      ((exec hf (withPath owner resolvConf) m.files).1, m) := by
  rw [exec_embed (hosts_fs hb hp hf), StaticBackend.new]
  change ((exec hf (withPath owner resolvConf) m.files).1,
    filesPart.put m (exec hf (withPath owner resolvConf) m.files).2) = _
  rw [(confined_withPath owner resolvConf).unchanged hreads]
  rfl

theorem exec_new : exec (hostHandler hb hp fsHandler) (embed fsCalls (StaticBackend.new owner)) m =
    (opened owner resolvConf m.files, m) := exec_newWith owner hb hp fsHandler_of_reads m

theorem chosen_autoDetect : Chosen s owner m.files priority
    (exec (hostHandler hb hp fsHandler) (autoDetect s owner) m).1.backend := by
  rw [autoDetect]
  cases hresolved : ResolvedBackend.probe s.readLink s.systemBus with
  | ok b => exact .here (fresh_resolved hresolved)
  | error e =>
    refine .later (not_usable_resolved hresolved) ?_
    cases hresolvconf : ResolvconfBackend.probe s.environment owner with
    | ok b => exact .here (fresh_resolvconf hresolvconf)
    | error e =>
      refine .later (not_usable_resolvconf hresolvconf) ?_
      dsimp only
      rw [exec_bind, exec_new]
      exact .here .staticResolvConf

theorem exec_probeNamed (name : Text) :
    (∃ b, (exec (hostHandler hb hp fsHandler) (Chain.probeNamed s name owner) m).1 = some b ∧ b.name = name ∧
        Fresh s owner m.files b) ∨
      (exec (hostHandler hb hp fsHandler) (Chain.probeNamed s name owner) m).1 = none ∧ ¬ Usable s name := by
  rw [Chain.probeNamed]
  split_ifs with hname hname hname
  · subst hname
    cases hresolved : ResolvedBackend.probe s.readLink s.systemBus with
    | ok b => exact .inl ⟨.SystemdResolved b, rfl, rfl, fresh_resolved hresolved⟩
    | error e => exact .inr ⟨rfl, not_usable_resolved hresolved⟩
  · subst hname
    cases hresolvconf : ResolvconfBackend.probe s.environment owner with
    | ok b => exact .inl ⟨.Resolvconf b, rfl, rfl, fresh_resolvconf hresolvconf⟩
    | error e => exact .inr ⟨rfl, not_usable_resolvconf hresolvconf⟩
  · rw [exec_bind, exec_new]
    exact .inl ⟨.StaticResolvConf (opened owner resolvConf m.files), rfl, hname.symm, .staticResolvConf⟩
  · refine .inr ⟨rfl, fun h => ?_⟩
    cases h <;> contradiction

theorem host_of_looks {F : Type} {hf : Handler FsCall FsResp F} (hreads : ∀ c fs, c.Reads → (hf c fs).2 = fs)
    (c : HostCall) (m : Machine L P F) (h : Looks c) : (hostHandler hb hp hf c m).2 = m := by
  obtain ⟨r, hr, rfl⟩ := h
  change { m with files := (hf r m.files).2 } = m
  rw [hreads r m.files hr]

theorem chosen_probe : Chosen s owner m.files (s.overrideVar.toList ++ priority)
    (exec (hostHandler hb hp fsHandler) (Chain.probe s owner) m).1.backend := by
  have hauto := chosen_autoDetect s owner hb hp m
  rw [Chain.probe]
  cases s.overrideVar with
  | none => exact hauto
  | some name =>
    dsimp only
    rw [exec_bind, (confined_probeNamed s owner name).unchanged (host_of_looks hb hp fsHandler_of_reads)]
    obtain ⟨b, hfound, rfl, hfresh⟩ | ⟨hnone, hname⟩ := exec_probeNamed s owner hb hp m name
    · rw [hfound]
      exact .here hfresh
    · rw [hnone]
      exact .later hname hauto

end Result

end DnsAnnounce.ChainProbe
