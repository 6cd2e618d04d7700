import DnsAnnounce.Faults
import DnsAnnounce.ResolvconfRecords
import DnsAnnounce.ResolvedLinks
import DnsAnnounce.StaticFaults
import DnsAnnounce.StaticRestore

namespace DnsAnnounce.ResetFaults

open DnsAnnounce.Utf8 DnsAnnounce.Effect DnsAnnounce.Runs DnsAnnounce.FileSystem DnsAnnounce.Route
open DnsAnnounce.Faults

section Resolvconf

open DnsAnnounce.ResolvconfBackend

def RecordKept (st : Resolvconf × Host) : Prop :=
  (st.2.records st.1.registrationName).isSome = true

instance : DecidablePred RecordKept := fun st =>
  inferInstanceAs (Decidable ((st.2.records st.1.registrationName).isSome = true))

/-- An earlier `reset()` cleared `active` and did not get the record deleted. -/
def OverlooksRecord (st : Resolvconf × Host) (_plan : ProcCall → Option ProcFault) : Prop :=
  st.1.active = false ∧ RecordKept st

instance (st : Resolvconf × Host) (plan : ProcCall → Option ProcFault) :
    Decidable (OverlooksRecord st plan) := inferInstanceAs (Decidable (_ = _ ∧ RecordKept st))

theorem commanded_ok {plan : ProcCall → Option ProcFault} {binary : PathBuf} {args : List Text}
    {input : Text} {records : Records} (h : (commanded plan binary args input records).1 = .ok ()) :
    (commanded plan binary args input records).2 = resolvconf args (encode input) records := by
  unfold commanded at h ⊢
  split at h
  · cases h
  · split at h
    · cases h
    · split at h
      · split at h <;> cases h
      · rfl

theorem honest_resolvconf (self : Resolvconf) (records : Records) (seen : Bool)
    (e : Event ProcCall ProcFault) :
    Honest Faults.resolvconf RecordKept ((self, .idle records), seen) e ↔
      Heeds OverlooksRecord ((self, .idle records), seen) e := by
  cases e with
  | set => exact Iff.rfl
  | reset plan =>
    refine forall_congr' fun _ => ?_
    have h := exec_reset plan self records
    have ho : Faults.resolvconf.outcomeUnder plan (self, .idle records) .reset =
      (exec (os plan) (reset self) (.idle records)).1.1 := rfl
    have ha : Faults.resolvconf.afterUnder plan (self, .idle records) .reset =
      ((exec (os plan) (reset self) (.idle records)).1.2,
        (exec (os plan) (reset self) (.idle records)).2) := rfl
    rw [ho, ha, h]
    by_cases hact : self.active = false
    · rw [if_pos hact]
      simp [OverlooksRecord, hact]
    · rw [if_neg hact]
      refine iff_of_true (fun hok => ?_) (fun hc => hact hc.1)
      dsimp only at hok
      simp [RecordKept, Host.idle, commanded_ok hok, resolvconf_delete]

theorem idle_step {w : Watched Resolvconf Host} (h : w.1.2 = .idle w.1.2.records)
    (e : Event ProcCall ProcFault) :
    (step Faults.resolvconf w e).1.2 = .idle (step Faults.resolvconf w e).1.2.records := by
  obtain ⟨⟨self, host⟩, seen⟩ := w
  obtain ⟨records, hhost⟩ : ∃ records, host = .idle records := ⟨_, h⟩
  subst hhost
  cases e with
  | set interface config =>
    change (after route procHandler (self, .idle records) (.set interface config)).2 =
      .idle (after route procHandler (self, .idle records) (.set interface config)).2.records
    rw [ResolvconfRecords.after_set]
    rfl
  | reset plan =>
    have hr := exec_reset plan self records
    change (exec (os plan) (reset self) (.idle records)).2 =
      .idle (exec (os plan) (reset self) (.idle records)).2.records
    rw [hr]
    split_ifs <;> rfl

theorem resolvconf_honest_iff (self : Resolvconf) (records : Records)
    (events : List (Event ProcCall ProcFault)) :
    Along (step Faults.resolvconf) (Honest Faults.resolvconf RecordKept)
        ((self, .idle records), false) events ↔
      Along (step Faults.resolvconf) (Heeds OverlooksRecord) ((self, .idle records), false) events := by
  refine along_congr (step Faults.resolvconf)
    (I := fun w : Watched Resolvconf Host => w.1.2 = .idle w.1.2.records) (V := fun _ => True)
    ?_ ?_ rfl (fun _ _ => trivial)
  · rintro ⟨⟨self, host⟩, seen⟩ e - (h : host = .idle host.records)
    rw [h]
    exact honest_resolvconf self _ seen e
  · exact fun w e _ h _ => idle_step h e

end Resolvconf

section Resolved

open DnsAnnounce.Address DnsAnnounce.ResolvedBackend DnsAnnounce.ResolvedLinks

variable {net : Net} {link : ObjectPath}

def LinkCarries (link : ObjectPath) (st : SystemdResolved × Links) : Prop := st.2 link ≠ blank

/-- One of the three calls that look the link up fails. -/
def LookupFails (plan : BusCall → Option BusFault) (idx : Int) (link : ObjectPath) : Prop :=
  (plan .managerProxy).isSome = true ∨ (plan (.getLink idx)).isSome = true ∨
    (plan (.linkProxy link)).isSome = true

/-- The link is forgotten already, or looking it up fails and passes for the link
being gone. -/
def OverlooksLink (link : ObjectPath) (st : SystemdResolved × Links)
    (plan : BusCall → Option BusFault) : Prop :=
  LinkCarries link st ∧ ∀ idx ∈ st.1.activeLink, LookupFails plan idx link

instance (link : ObjectPath) : DecidablePred (LinkCarries link) := fun st =>
  inferInstanceAs (Decidable (st.2 link ≠ blank))

instance (plan : BusCall → Option BusFault) (idx : Int) (link : ObjectPath) :
    Decidable (LookupFails plan idx link) := inferInstanceAs (Decidable (_ ∨ _ ∨ _))

instance (link : ObjectPath) (st : SystemdResolved × Links) (plan : BusCall → Option BusFault) :
    Decidable (OverlooksLink link st plan) :=
  inferInstanceAs (Decidable (LinkCarries link st ∧ ∀ idx ∈ st.1.activeLink, LookupFails plan idx link))

theorem proxyOf_cases (plan : BusCall → Option BusFault) {idx : Int} (hl : net.link idx = .ok link) :
    LookupFails plan idx link ∧ (∃ e, proxyOf net plan idx = .error e) ∨
      ¬ LookupFails plan idx link ∧ proxyOf net plan idx = .ok link := by
  unfold LookupFails proxyOf
  rw [hl]
  cases plan .managerProxy with
  | some f => exact .inl ⟨.inl rfl, f.error, rfl⟩
  | none => cases plan (.getLink idx) with
    | some f => exact .inl ⟨.inr (.inl rfl), f.error, rfl⟩
    | none =>
      cases hp : plan (.linkProxy link) with
      | some f => exact .inl ⟨.inr (.inr rfl), f.error, by simp [told, hp]⟩
      | none => exact .inr ⟨by simp, by simp [told, hp]⟩

theorem mapError_ok {ε ε' α : Type} {f : ε → ε'} {r : Except ε α} {a : α}
    (h : r.mapError f = .ok a) : r = .ok a := by
  cases r with
  | error e => cases h
  | ok b => exact congrArg Except.ok (Except.ok.inj h)

theorem push_ok {plan : BusCall → Option BusFault} {state : LinkState} {links : Links}
    (h : (push plan link state links).1 = .ok ()) :
    (push plan link state links).2 = Function.update links link state := by
  unfold push at h ⊢
  cases hd : plan (.setDns link state.dns) with
  | some f => simp [hd, told] at h
  | none =>
    cases hm : plan (.setDomains link state.domains) with
    | some f => simp [hd, hm, told] at h
    | none => simp [told, left]

theorem honest_resolved {w : Watched SystemdResolved Links}
    (h : ∀ idx, w.1.1.activeLink = some idx → net.link idx = .ok link) (e : Event BusCall BusFault) :
    Honest (resolved net) (LinkCarries link) w e ↔ Heeds (OverlooksLink link) w e := by
  obtain ⟨⟨self, links⟩, seen⟩ := w
  cases e with
  | set => exact Iff.rfl
  | reset plan =>
    refine forall_congr' fun _ => ?_
    have hr := exec_reset net plan links self
    have ho : (resolved net).outcomeUnder plan (self, links) .reset =
      (exec (bus net plan) (reset self) links).1.1 := rfl
    have ha : (resolved net).afterUnder plan (self, links) .reset =
      ((exec (bus net plan) (reset self) links).1.2,
        (exec (bus net plan) (reset self) links).2) := rfl
    rw [ho, ha, hr]
    cases hact : self.activeLink with
    | none => simp [OverlooksLink, hact]
    | some idx =>
      obtain ⟨hf, e, he⟩ | ⟨hf, hp⟩ := proxyOf_cases plan (h idx hact)
      · simp [OverlooksLink, LinkCarries, hact, he, hf]
      · simp only [hp]
        refine iff_of_true (fun hok => ?_) (fun hc => hf (hc.2 idx hact))
        rw [LinkCarries, push_ok (mapError_ok hok), Function.update_self]
        exact not_not_intro rfl

theorem watched_step {w : Watched SystemdResolved Links} {interface : Text}
    (hlink : linkOf net interface = some link)
    (h : ∀ idx, w.1.1.activeLink = some idx → net.link idx = .ok link) {e : Event BusCall BusFault}
    (he : e.OnInterface interface) :
    ∀ idx, (step (resolved net) w e).1.1.activeLink = some idx → net.link idx = .ok link := by
  obtain ⟨⟨self, links⟩, seen⟩ := w
  obtain ⟨active, hi, hl⟩ := linkOf_eq_some.mp hlink
  intro idx hidx
  cases e with
  | set i config =>
    obtain rfl : i = interface := he
    have ha : (step (resolved net) ((self, links), seen) (.set i config)).1 =
      after route (busHandler net) (self, links) (.set i config) := rfl
    rw [ha, after_set hi hl] at hidx
    rwa [← Option.some.inj hidx]
  | reset plan =>
    have hr : (step (resolved net) ((self, links), seen) (.reset plan)).1.1 =
      (exec (bus net plan) (reset self) links).1.2 := rfl
    rw [hr, exec_reset] at hidx
    cases hact : self.activeLink with
    | none =>
      rw [hact] at hidx
      exact h idx hidx
    | some old =>
      rw [hact] at hidx
      cases hp : proxyOf net plan old <;> simp [hp] at hidx

theorem resolved_honest_iff (net : Net) (interface : Text) (link : ObjectPath)
    (hlink : linkOf net interface = some link) (links : Links) (events : List (Event BusCall BusFault))
    (hone : ∀ e ∈ events, e.OnInterface interface) :
    Along (step (resolved net)) (Honest (resolved net) (LinkCarries link))
        ((⟨none⟩, links), false) events ↔
      Along (step (resolved net)) (Heeds (OverlooksLink link)) ((⟨none⟩, links), false) events := by
  refine along_congr (step (resolved net))
    (I := fun w : Watched SystemdResolved Links =>
      ∀ idx, w.1.1.activeLink = some idx → net.link idx = .ok link)
    (fun _ e _ h => honest_resolved h e) (fun _ _ he h _ => watched_step hlink h he) ?_ hone
  intro idx h
  cases h

end Resolved

section Static

open DnsAnnounce.StaticBackend DnsAnnounce.StaticFaults

variable {self : StaticResolvConf} {fs : Fs}

def Begins (owner : Text) (content : Bytes) : Prop := encode (markerLine owner) <+: content

def MarkerKept (st : StaticResolvConf × Fs) : Prop :=
  Begins st.1.owner ((st.2 st.1.path).getD [])

instance : DecidablePred MarkerKept := fun st =>
  inferInstanceAs (Decidable (encode (markerLine st.1.owner) <+: (st.2 st.1.path).getD []))

/-- The marker is there, and an earlier `reset()` failed, or this one cannot read
the file, or cannot recognise its owner, or cannot see the backup. -/
def OverlooksMarker (st : StaticResolvConf × Fs) (plan : FsCall → Option FsFault) : Prop :=
  MarkerKept st ∧ (st.1.active = false ∨ (plan (.readToString st.1.path)).isSome = true ∨
    ¬ OneLine st.1.owner ∨ (plan (.pathExists st.1.backupPath)).isSome = true)

instance (st : StaticResolvConf × Fs) (plan : FsCall → Option FsFault) :
    Decidable (OverlooksMarker st plan) := inferInstanceAs (Decidable (MarkerKept st ∧ (_ ∨ _ ∨ _ ∨ _)))

/-- What holds as long as no `reset()` overlooked the marker: what counts as the
original is not an override, and an active instance has its backup. -/
structure Sound (conf : StaticResolvConf) (fs : Fs) (seen : Bool) : Prop where
  original : OneLine conf.owner → ¬ Begins conf.owner (originalOf conf fs)
  active : OneLine conf.owner → conf.active = true → Reusing conf fs
  foreign : ¬ OneLine conf.owner → ownerIn (fs conf.path) ≠ some conf.owner
  unseen : seen = false → conf.active = false

theorem not_begins_take {owner : Text} {content : Bytes} (h : ¬ Begins owner content) (j : Nat) :
    ¬ Begins owner (content.take j) := fun hb => h (hb.trans (List.take_prefix j content))

theorem removeBackup_spec (self : StaticResolvConf) (fs : Fs) (plan : FsCall → Option FsFault) :
    let fs' := (exec (disk plan) (removeFile self.backupPath) fs).2
    fs' self.path = fs self.path ∧
      (fs' self.backupPath = fs self.backupPath ∨ fs' self.backupPath = none) := by
  rw [disk_removeFile]
  cases plan (.removeFile self.backupPath) with
  | none =>
    rw [exec_removeFile]
    exact ⟨put_other _ (path_ne_backupPath self) none, .inr (put_self ..)⟩
  | some f => exact ⟨rfl, .inl rfl⟩

theorem seenOwner_eq_some {plan : FsCall → Option FsFault} {path : PathBuf} {owner : Text} :
    seenOwner plan path fs = some owner ↔
      plan (.readToString path) = none ∧ ownerIn (fs path) = some owner := by
  rw [seenOwner]
  cases plan (.readToString path) <;> simp

/-- What `reset()` can do in a sound state: nothing, leave the file alone, or
restore it from its backup. -/
theorem reset_cases {seen : Bool} (h : Sound self fs seen) (plan : FsCall → Option FsFault) :
    (self.active = false ∧ exec (disk plan) (reset self) fs = ((.ok (), self), fs)) ∨
      (self.active = true ∧
        ((plan (.readToString self.path)).isSome = true ∨ ¬ OneLine self.owner ∨
          (plan (.pathExists self.backupPath)).isSome = true) ∧
        ∃ fs', exec (disk plan) (reset self) fs = ((.ok (), { self with active := false }), fs') ∧
          fs' self.path = fs self.path ∧
          (fs' self.backupPath = fs self.backupPath ∨ fs' self.backupPath = none)) ∨
      (self.active = true ∧ plan (.readToString self.path) = none ∧ OneLine self.owner ∧
        plan (.pathExists self.backupPath) = none ∧
        ∃ backup r fs', fs self.backupPath = some backup ∧ ¬ Begins self.owner backup ∧
          ownerIn (fs self.path) = some self.owner ∧
          exec (disk plan) (reset self) fs = ((r, { self with active := false }), fs') ∧
          Restoring self backup fs r fs') := by
  by_cases ha : self.active = false
  · exact .inl ⟨ha, reset_inactive ha⟩
  rw [Bool.not_eq_false] at ha
  refine .inr ?_
  by_cases ho : seenOwner plan self.path fs = some self.owner
  · obtain ⟨hread, howner⟩ := seenOwner_eq_some.mp ho
    have hone : OneLine self.owner := by
      by_contra hone
      exact h.foreign hone howner
    have hreuse : Reusing self fs := h.active hone ha
    obtain ⟨backup, hb⟩ := Option.isSome_iff_exists.mp hreuse.2
    obtain ⟨content, hp⟩ := exists_of_ownerIn howner
    have horig := h.original hone
    rw [originalOf_reusing howner hb] at horig
    cases he : plan (.pathExists self.backupPath) with
    | some f =>
      have hseen : seenExists plan self.backupPath fs = false := by rw [seenExists, he]
      exact .inl ⟨ha, .inr (.inr rfl), fs, reset_noBackup ha ho hseen, rfl, .inl rfl⟩
    | none =>
      have hseen : seenExists plan self.backupPath fs = true := by rw [seenExists, he, hb]; rfl
      obtain ⟨r, fs', hexec, hrest⟩ := reset_restoring ha ho hseen hb (by rw [hp]; rfl)
      exact .inr ⟨ha, hread, hone, rfl, backup, r, fs', hb, horig, howner, hexec, hrest⟩
  · obtain ⟨hpath, hbackup⟩ := removeBackup_spec self fs plan
    refine .inl ⟨ha, ?_, _, reset_skips ha ho, hpath, hbackup⟩
    cases hr : plan (.readToString self.path) with
    | some f => exact .inl rfl
    | none =>
      refine .inr (.inl fun hone => ho (seenOwner_eq_some.mpr ⟨hr, ?_⟩))
      exact (h.active hone ha).1

theorem getD_restoredFile (backup : Bytes) : (restoredFile backup).getD [] = backup := by
  rw [restoredFile]
  split_ifs with he
  · exact he.symm
  · rfl

theorem honest_static {seen : Bool} (h : Sound self fs seen) (e : Event FsCall FsFault) :
    Honest static MarkerKept ((self, fs), seen) e ↔ Heeds OverlooksMarker ((self, fs), seen) e := by
  cases e with
  | set => exact Iff.rfl
  | reset plan =>
    refine forall_congr' fun _ => ?_
    have ho : static.outcomeUnder plan (self, fs) .reset =
      (exec (disk plan) (reset self) fs).1.1 := rfl
    have ha : static.afterUnder plan (self, fs) .reset =
      ((exec (disk plan) (reset self) fs).1.2, (exec (disk plan) (reset self) fs).2) := rfl
    rw [ho, ha]
    obtain ⟨hact, hexec⟩ | ⟨hact, hcause, fs', hexec, hpath, -⟩ |
      ⟨hact, hread, hone, hex, backup, r, fs', hb, hbegins, howner, hexec, hrest⟩ := reset_cases h plan
    · simp [hexec, OverlooksMarker, hact]
    · have hw : OverlooksMarker (self, fs) plan ↔ MarkerKept (self, fs) :=
        and_iff_left (.inr hcause)
      rw [hexec, hw]
      simp [MarkerKept, hpath]
    · refine iff_of_true (fun hok => ?_) ?_
      · rw [hexec] at hok ⊢
        change ¬ Begins self.owner ((fs' self.path).getD [])
        obtain ⟨-, hp, -⟩ | ⟨rfl, -⟩ := hrest
        · rw [hp, getD_restoredFile]
          exact hbegins
        · cases hok
      · simp [OverlooksMarker, hact, hread, hone, hex]

theorem sound_set {seen : Bool} (h : Sound self fs seen) (config : DnsRouteConfig) :
    Sound { self with active := true } (afterSet self config fs) true := by
  have hp := afterSet_path self config fs
  have hb := afterSet_backupPath self config fs
  have ho := ownerIn_render self.owner config (originalOf self fs)
  rw [← hp] at ho
  refine ⟨fun hone => ?_, fun hone _ => ⟨ho.mpr hone, by rw [hb]; rfl⟩,
    fun hone hc => hone (ho.mp hc), nofun⟩
  have horig : originalOf { self with active := true } (afterSet self config fs) =
    originalOf self fs := originalOf_reusing (ho.mpr hone) hb
  rw [horig]
  exact h.original hone

theorem not_begins_originalOf (hr : Reusing self fs → ¬ Begins self.owner ((fs self.backupPath).getD []))
    (hn : ¬ Reusing self fs → ¬ Begins self.owner ((fs self.path).getD [])) :
    ¬ Begins self.owner (originalOf self fs) := by
  rw [originalOf]
  split_ifs with h
  · exact hr h
  · exact hn h

theorem not_begins_restoring {backup : Bytes} {r : Except ErrorKind Unit} {fs' : Fs}
    (hr : Restoring self backup fs r fs') (hb : ¬ Begins self.owner backup)
    (ho : ownerIn (fs self.path) = some self.owner) :
    ¬ Begins self.owner (originalOf self fs') := by
  refine not_begins_originalOf (fun hreuse => ?_) (fun hreuse => ?_)
  · obtain ⟨-, -, hnone⟩ | ⟨-, hsome, -⟩ := hr
    · rw [hnone]
      exact absurd hreuse.2 (by rw [hnone]; decide)
    · rwa [hsome]
  · obtain ⟨-, hp, -⟩ | ⟨-, hsome, hp | hp | ⟨j, hp⟩⟩ := hr
    · rwa [hp, getD_restoredFile]
    · exact absurd ⟨by rw [hp, ho], by rw [hsome]; rfl⟩ hreuse
    · rwa [hp, getD_restoredFile]
    · rw [hp]
      exact not_begins_take hb j

theorem sound_reset {seen : Bool} (h : Sound self fs seen) {plan : FsCall → Option FsFault}
    (hg : Heeds OverlooksMarker ((self, fs), seen) (.reset plan)) :
    Sound (exec (disk plan) (reset self) fs).1.2 (exec (disk plan) (reset self) fs).2 seen := by
  obtain ⟨hact, hexec⟩ | ⟨hact, hcause, fs', hexec, hpath, hbackup⟩ |
    ⟨hact, -, hone, -, backup, r, fs', hb, hbegins, howner, hexec, hrest⟩ := reset_cases h plan
  · rw [hexec]
    exact h
  · rw [hexec]
    have hseen : seen = true := by
      by_contra hs
      rw [h.unseen (by simpa using hs)] at hact
      cases hact
    have hkept : ¬ Begins self.owner ((fs self.path).getD []) :=
      fun hm => hg hseen ⟨hm, .inr hcause⟩
    refine ⟨fun hone => ?_, fun _ hactive => absurd hactive Bool.false_ne_true, fun hone => ?_,
      fun _ => rfl⟩
    · have hf : ¬ Begins self.owner (originalOf self fs') := by
        refine not_begins_originalOf (fun hreuse => ?_) (fun _ => by rwa [hpath])
        have hsame : fs' self.backupPath = fs self.backupPath := hbackup.resolve_right fun hnone => by
          simpa [hnone] using hreuse.2
        have hold : Reusing self fs := by rwa [Reusing, hpath, hsame] at hreuse
        have horig := h.original hone
        rw [originalOf, if_pos hold] at horig
        rwa [hsame]
      exact hf
    · change ownerIn (fs' self.path) ≠ some self.owner
      rw [hpath]
      exact h.foreign hone
  · rw [hexec]
    have hf := not_begins_restoring hrest hbegins howner
    exact ⟨fun _ => hf, fun _ hactive => absurd hactive Bool.false_ne_true, fun hn => absurd hone hn,
      fun _ => rfl⟩

def Unmarked (owner : Text) (content : Option Bytes) : Prop :=
  ownerIn content ≠ some owner ∧ ¬ Begins owner (content.getD [])

instance (owner : Text) (content : Option Bytes) : Decidable (Unmarked owner content) :=
  inferInstanceAs (Decidable (_ ∧ ¬ encode (markerLine owner) <+: content.getD []))

theorem sound_start (ha : self.active = false) (h : Unmarked self.owner (fs self.path)) :
    Sound self fs false := by
  refine ⟨fun _ => ?_, fun _ hact => ?_, fun _ => h.1, fun _ => ha⟩
  · exact not_begins_originalOf (fun hr => absurd hr.1 h.1) (fun _ => h.2)
  · rw [ha] at hact
    cases hact

theorem static_honest_iff (self : StaticResolvConf) (ha : self.active = false) (fs : Fs)
    (hfs : Unmarked self.owner (fs self.path)) (events : List (Event FsCall FsFault)) :
    Along (step static) (Honest static MarkerKept) ((self, fs), false) events ↔
      Along (step static) (Heeds OverlooksMarker) ((self, fs), false) events := by
  refine along_congr (step static)
    (I := fun w : Watched StaticResolvConf Fs => Sound w.1.1 w.1.2 w.2) (V := fun _ => True)
    ?_ ?_ (sound_start ha hfs) (fun _ _ => trivial)
  · rintro ⟨⟨self, fs⟩, seen⟩ e - h
    exact honest_static h e
  · rintro ⟨⟨self, fs⟩, seen⟩ e - h hg
    cases e with
    | set interface config =>
      have hs : step static ((self, fs), seen) (.set interface config) =
          (({ self with active := true }, afterSet self config fs), true) := by
        change (after route fsHandler (self, fs) (.set interface config),
          seen || (exec fsHandler (StaticBackend.set interface config self) fs).1.1.isOk) = _
        rw [after_set, exec_set]
        exact congrArg (_, ·) (Bool.or_true seen)
      rw [hs]
      exact sound_set h config
    | reset plan => exact sound_reset h hg

end Static

/-- For each backend: along every run, a `reset()` that returns `Ok` has undone
the `set()` before it, exactly if no `reset()` is called where it overlooks what
is in place. -/
theorem reset_honest_iff (record : ResolvconfBackend.Resolvconf) (records : ResolvconfBackend.Records)
    (net : ResolvedBackend.Net) (interface : Text) (link : ResolvedBackend.ObjectPath)
    (links : ResolvedBackend.Links) (file : StaticBackend.StaticResolvConf) (fs : Fs) :
    (∀ events, Along (step Faults.resolvconf) (Honest Faults.resolvconf RecordKept)
        ((record, .idle records), false) events ↔
      Along (step Faults.resolvconf) (Heeds OverlooksRecord) ((record, .idle records), false) events) ∧
    (ResolvedLinks.linkOf net interface = some link →
      ∀ events, (∀ e ∈ events, e.OnInterface interface) →
        (Along (step (resolved net)) (Honest (resolved net) (LinkCarries link))
            ((⟨none⟩, links), false) events ↔
          Along (step (resolved net)) (Heeds (OverlooksLink link))
            ((⟨none⟩, links), false) events)) ∧
    (file.active = false → Unmarked file.owner (fs file.path) → ∀ events,
      (Along (step static) (Honest static MarkerKept) ((file, fs), false) events ↔
        Along (step static) (Heeds OverlooksMarker) ((file, fs), false) events)) :=
  ⟨resolvconf_honest_iff record records,
    fun hlink => resolved_honest_iff net interface link hlink links,
    fun ha hfs => static_honest_iff file ha fs hfs⟩

section Sample

open DnsAnnounce.ResolvconfRecords DnsAnnounce.ResolvedLinks DnsAnnounce.StaticRestore

def vpn : StaticBackend.StaticResolvConf :=
  StaticBackend.opened "vpn".toList resolvConf (diskWith nameservers)

def commandFails (c : ResolvconfBackend.ProcCall) : Option ResolvconfBackend.ProcFault :=
  if c = .waitWithOutput then some ⟨.Other, some [], none⟩ else none

def managerTimesOut (c : ResolvedBackend.BusCall) : Option ResolvedBackend.BusFault :=
  if c = .managerProxy then some ⟨"timed out".toList, false⟩ else none

def setDnsTimesOut (c : ResolvedBackend.BusCall) : Option ResolvedBackend.BusFault :=
  if c = .setDns "/org/freedesktop/resolve1/link/_33".toList [] then
    some ⟨"timed out".toList, false⟩ else none

def fileUnreadable (c : FsCall) : Option FsFault :=
  if c = .readToString resolvConf then some ⟨none⟩ else none

def backupUnreadable (c : FsCall) : Option FsFault :=
  if c = .read (StaticBackend.backupPathFor resolvConf) then some ⟨none⟩ else none

def undoneThenFails {Call Fault : Type} (plan : Call → Option Fault) : List (Event Call Fault) :=
  [.set "wg0".toList vpnConfig, .reset fun _ => none, .set "wg0".toList vpnConfig, .reset plan]

theorem failing_resets_are_honest :
    Along (step Faults.resolvconf) (Honest Faults.resolvconf RecordKept)
        ((instanceOf "vpn".toList, .idle fun _ => none), false)
        (undoneThenFails commandFails) ∧
      Along (step (resolved twoLinks))
        (Honest (resolved twoLinks) (LinkCarries "/org/freedesktop/resolve1/link/_33".toList))
        ((⟨none⟩, fun _ => ResolvedBackend.blank), false)
        (undoneThenFails setDnsTimesOut) ∧
      Along (step static) (Honest static MarkerKept)
        ((vpn, diskWith nameservers), false)
        (undoneThenFails backupUnreadable) := by
  have h := reset_honest_iff (instanceOf "vpn".toList) (fun _ => none) twoLinks "wg0".toList
    "/org/freedesktop/resolve1/link/_33".toList (fun _ => ResolvedBackend.blank) vpn
    (diskWith nameservers)
  exact ⟨(h.1 _).mpr (by decide +kernel),
    (h.2.1 (by decide +kernel) _ (by decide +kernel)).mpr (by decide +kernel),
    (h.2.2 (by decide +kernel) (by decide +kernel) _).mpr (by decide +kernel)⟩

/-- Each backend has cleared its own note of the override when the undo fails:
`resolvconf` when `reset()` is retried, `resolved` and the file at once. -/
theorem resets_report_success :
    ¬ Along (step Faults.resolvconf) (Honest Faults.resolvconf RecordKept)
        ((instanceOf "vpn".toList, .idle fun _ => none), false)
        [.set "wg0".toList vpnConfig, .reset commandFails, .reset fun _ => none] ∧
      ¬ Along (step (resolved twoLinks))
        (Honest (resolved twoLinks) (LinkCarries "/org/freedesktop/resolve1/link/_33".toList))
        ((⟨none⟩, fun _ => ResolvedBackend.blank), false)
        [.set "wg0".toList vpnConfig, .reset managerTimesOut] ∧
      ¬ Along (step static) (Honest static MarkerKept) ((vpn, diskWith nameservers), false)
        [.set "wg0".toList vpnConfig, .reset fileUnreadable] :=
  ⟨by decide +kernel, by decide +kernel, by decide +kernel⟩

end Sample

end DnsAnnounce.ResetFaults
