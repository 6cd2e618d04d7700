import DnsAnnounce.StaticBackup

namespace DnsAnnounce.StaticCrash

open DnsAnnounce.Utf8 DnsAnnounce.Address DnsAnnounce.Effect DnsAnnounce.Runs DnsAnnounce.FileSystem
open DnsAnnounce.Route DnsAnnounce.StaticBackend DnsAnnounce.StaticRestore DnsAnnounce.StaticBackup

variable {owner : Text} {path : PathBuf} {content : Bytes}

/-- What the file holds after a fresh instance has been started on the disk `t`
and has made one `set()` and one `reset()`. -/
def recovered (owner : Text) (path : PathBuf) (t : Fs) (interface : Text)
    (config : DnsRouteConfig) : Option Bytes :=
  filesAfter (opened owner path t) t [.set interface config, .reset] path

def Recovers (owner : Text) (path : PathBuf) (content : Bytes) (t : Fs) : Prop :=
  ∀ interface config, recovered owner path t interface config = some content

/-- What a request writes over the file, when `content` is the original. -/
def overwriting (owner : Text) (content : Bytes) : Request → Bytes
  | .set _ config => encode (render owner config content)
  | .reset => content

/-- Bytes that a later instance takes for its own override or for the original. -/
def TakesUp (owner : Text) (content x : Bytes) : Prop :=
  x = content ∨ ownerIn (some x) = some owner

instance (owner : Text) (content x : Bytes) : Decidable (TakesUp owner content x) :=
  inferInstanceAs (Decidable (_ ∨ _))

/-- What the single calls of a request do: they keep the original safe, and the
file itself is only written when its backup is complete. -/
def Careful (owner : Text) (path : PathBuf) (content : Bytes) (r : Request) :
    FsCall → Fs → Fs → Prop
  | .write p bytes, fs, fs' => Safe owner path content fs' ∧
      (p = path ∧ bytes = overwriting owner content r ∧ fs (backupPathFor path) = some content ∨
        p = backupPathFor path ∧ Safe owner path content fs ∧ ¬ Marked owner path fs)
  | _, fs, fs' => Safe owner path content fs ∧ Safe owner path content fs'

theorem Careful.safe {r : Request} {c : FsCall} {fs fs' : Fs}
    (h : Careful owner path content r c fs fs') : Safe owner path content fs' := by
  cases c with
  | write => exact h.1
  | readToString | read | pathExists | removeFile => exact h.2

theorem careful_reads {r : Request} {fs : Fs} (h : Safe owner path content fs) (c : FsCall)
    (hc : c.Reads) : Careful owner path content r c fs fs := by
  cases c with
  | readToString | read | pathExists => exact ⟨h, h⟩
  | write | removeFile => cases hc

section Requests

variable {self : StaticResolvConf} {fs : Fs}

theorem careful_set (hone : OneLine self.owner) (h : Safe self.owner self.path content fs)
    (interface : Text) (config : DnsRouteConfig) :
    Steps fsHandler (Careful self.owner self.path content (.set interface config))
      (StaticBackend.set interface config self) fs := by
  have horig := originalOf_safe h
  refine steps_set (careful_reads h) (fun hr => ?_) interface config ?_
  · have hm := not_marked_of_not_reusing h hr
    exact ⟨safe_putBackup h hm _, .inr ⟨self.backupPath_eq, h, hm⟩⟩
  · refine ⟨safe_afterSet hone h config, .inl ⟨rfl, ?_, ?_⟩⟩
    · rw [horig, overwriting]
    · rw [← self.backupPath_eq, put_self, horig]

theorem careful_reset (h : Safe self.owner self.path content fs) :
    Steps fsHandler (Careful self.owner self.path content .reset) (reset self) fs := by
  refine steps_reset (careful_reads h) (fun hm => ⟨h, safe_putBackup h hm none⟩)
    (fun backup hm hbk => ?_)
  have hb := h.backup hm
  obtain rfl : backup = content := by
    rw [← self.backupPath_eq, hbk] at hb
    exact Option.some.inj hb
  obtain ⟨hs, hm'⟩ := safe_restored h
  refine ⟨?_, hs, safe_putBackup hs hm' none⟩
  rw [restore]
  split_ifs
  · exact ⟨h, hs⟩
  · exact ⟨hs, .inl ⟨rfl, rfl, hb⟩⟩

theorem careful_serve (hone : OneLine self.owner) (h : Safe self.owner self.path content fs)
    (r : Request) :
    Steps fsHandler (Careful self.owner self.path content r) (serve route r self) fs := by
  cases r with
  | set interface config => exact careful_set hone h interface config
  | reset => exact careful_reset h

theorem safe_after (hone : OneLine self.owner) (h : Safe self.owner self.path content fs)
    (r : Request) : Safe self.owner self.path content (after route fsHandler (self, fs) r).2 :=
  (careful_serve hone h r).exec (fun _ _ _ hc => hc.safe) h

theorem dies_serve (hone : OneLine self.owner) (h : Safe self.owner self.path content fs)
    {r : Request} {point : Option (FsCall × Nat)} {t : Fs}
    (hd : Dies fsHandler tear (serve route r self) fs point t) :
    (Safe self.owner self.path content t ∧
        ∀ bytes j, point ≠ some (.write self.path bytes, j)) ∨
      ∃ j, point = some (.write self.path (overwriting self.owner content r), j) ∧
        t self.path = some ((overwriting self.owner content r).take j) ∧
        t self.backupPath = some content := by
  have hne := path_ne_backupPath self
  obtain ⟨rfl, rfl | ⟨c, s', hc⟩⟩ | ⟨c, j, s', rfl, rfl, hc⟩ := hd.cases (careful_serve hone h r)
  · exact .inl ⟨h, nofun⟩
  · exact .inl ⟨hc.safe, nofun⟩
  · cases c with
    | write p bytes =>
      obtain ⟨-, ⟨rfl, rfl, hb⟩ | ⟨rfl, hs, hm⟩⟩ := hc
      · refine .inr ⟨j, rfl, put_self .., ?_⟩
        rw [tear, put_other _ hne.symm, self.backupPath_eq, hb]
      · rw [← self.backupPath_eq]
        refine .inl ⟨safe_putBackup hs hm _, fun bytes' j' he => ?_⟩
        simp only [Option.some.injEq, Prod.mk.injEq, FsCall.write.injEq] at he
        exact hne he.1.1.symm
    | readToString | read | pathExists | removeFile => exact .inl ⟨hc.1, by simp⟩

end Requests

theorem set_reset_path (self : StaticResolvConf) (fs : Fs) (interface : Text)
    (config : DnsRouteConfig) : filesAfter self fs [.set interface config, .reset] self.path =
      if OneLine self.owner then if originalOf self fs = [] then none else some (originalOf self fs)
      else some (encode (render self.owner config (originalOf self fs))) := by
  rw [filesAfter, run_cons, after_set, run_cons, after_reset, run_nil]
  let taken : StaticResolvConf := { self with active := true }
  have hne : taken.path ≠ taken.backupPath := path_ne_backupPath self
  have ha : taken.active = true := rfl
  have hp := afterSet_path self config fs
  have ho := ownerIn_render self.owner config (originalOf self fs)
  rw [← hp] at ho
  change afterReset taken (afterSet self config fs) taken.path = _
  split_ifs with hone he
  · rw [afterReset_restores ha (ho.mpr hone) (afterSet_backupPath self config fs),
      put_other _ hne, put_self, if_pos he]
  · rw [afterReset_restores ha (ho.mpr hone) (afterSet_backupPath self config fs),
      put_other _ hne, put_self, if_neg he]
  · rw [afterReset_foreign ha (fun hm => hone (ho.mp hm)), put_other _ hne]
    exact hp

theorem recovered_eq (owner : Text) (path : PathBuf) (t : Fs) (interface : Text)
    (config : DnsRouteConfig) : recovered owner path t interface config =
      if OneLine owner then
        if originalOf (opened owner path t) t = [] then none
        else some (originalOf (opened owner path t) t)
      else some (encode (render owner config (originalOf (opened owner path t) t))) := by
  have h : ∀ self : StaticResolvConf, self.owner = owner → self.path = path →
      filesAfter self t [.set interface config, .reset] path =
        if OneLine owner then if originalOf self t = [] then none else some (originalOf self t)
        else some (encode (render owner config (originalOf self t))) := by
    rintro self rfl rfl
    exact set_reset_path self t interface config
  exact h _ (by rw [opened_eq]) (by rw [opened_eq])

theorem render_servers_ne (owner : Text) (original : Bytes) (server : IpAddr) :
    render owner ⟨[], []⟩ original ≠ render owner ⟨[server], []⟩ original := by
  have h₀ : render owner ⟨[], []⟩ original = markerLine owner := by
    simp only [render, List.flatMap_nil, List.append_nil, ne_eq, not_true_eq_false, if_false]
  have h₁ : render owner ⟨[server], []⟩ original =
      markerLine owner ++ nameserverLine server.display := by
    simp only [render, List.flatMap_nil, List.flatMap_cons, List.append_nil, ne_eq,
      not_true_eq_false, if_false]
  rw [h₀, h₁, ne_eq, List.self_eq_append_right]
  exact List.append_ne_nil_of_right_ne_nil _ (List.cons_ne_nil _ _)

theorem recovers_iff (hne : content ≠ []) (t : Fs) : Recovers owner path content t ↔
    OneLine owner ∧ originalOf (opened owner path t) t = content := by
  constructor
  · intro h
    have hone : OneLine owner := by
      by_contra hone
      let server : IpAddr := .V4 ⟨[127, 0, 0, 1], rfl⟩
      have h₀ := h [] ⟨[], []⟩
      have h₁ := h [] ⟨[server], []⟩
      rw [recovered_eq, if_neg hone] at h₀ h₁
      exact encode_injective.ne (render_servers_ne owner _ server) (Option.some.inj (h₀.trans h₁.symm))
    have hr := h [] ⟨[], []⟩
    rw [recovered_eq, if_pos hone] at hr
    split_ifs at hr
    exact ⟨hone, Option.some.inj hr⟩
  · rintro ⟨hone, ho⟩ interface config
    rw [recovered_eq, if_pos hone, ho, if_neg hne]

theorem originalOf_opened_safe {t : Fs} (h : Safe owner path content t) :
    originalOf (opened owner path t) t = content := by
  rw [opened_eq]
  exact originalOf_safe h

theorem originalOf_opened_torn {t : Fs} {x : Bytes} (hx : t path = some x)
    (hb : t (backupPathFor path) = some content) :
    originalOf (opened owner path t) t = content ↔ TakesUp owner content x := by
  rw [opened_eq]
  by_cases hm : ownerIn (some x) = some owner
  · rw [← hx] at hm
    rw [originalOf_reusing hm hb]
    exact iff_of_true rfl (.inr (by rw [← hx]; exact hm))
  · rw [originalOf_takeover fun hr => hm (by rw [← hx]; exact hr.1)]
    simp [TakesUp, hx, hm]

/-- An instance can be brought back to the original after its process died
exactly if its owner is one line and the file itself was not torn into bytes
that are neither the original nor recognisably an override. -/
theorem crash_recovers_iff (owner : Text) (path : PathBuf) (content : Bytes) (hne : content ≠ [])
    (hm : ownerIn (some content) ≠ some owner) (fs : Fs) (hp : fs path = some content)
    (done : List Request) (dying : Request) (point : Option (FsCall × Nat)) (t : Fs)
    (hd : Dies fsHandler tear
      (serve route dying (run (after route fsHandler) (opened owner path fs, fs) done).1)
      (run (after route fsHandler) (opened owner path fs, fs) done).2 point t) :
    Recovers owner path content t ↔ OneLine owner ∧
      ∀ j, point = some (.write path (overwriting owner content dying), j) →
        TakesUp owner content ((overwriting owner content dying).take j) := by
  rw [recovers_iff hne, and_congr_right_iff]
  intro hone
  have hsafe : Safe owner path content fs :=
    ⟨fun hc => absurd (by rwa [Marked, hp] at hc) hm, fun _ => by rw [hp]; rfl, hm⟩
  have hrun := run_invariant (after route fsHandler)
    (I := fun st => (st.1.owner = owner ∧ st.1.path = path) ∧ Safe owner path content st.2)
    (fun st r h => by
      obtain ⟨⟨rfl, rfl⟩, h⟩ := h
      refine ⟨?_, safe_after hone h r⟩
      cases r with
      | set => rw [after_set]; exact ⟨rfl, rfl⟩
      | reset => rw [after_reset]; exact ⟨rfl, rfl⟩)
    (s := (opened owner path fs, fs)) ⟨by rw [opened_eq]; exact ⟨rfl, rfl⟩, hsafe⟩ done
  generalize run (after route fsHandler) (opened owner path fs, fs) done = st at hd hrun
  obtain ⟨self, fs'⟩ := st
  obtain ⟨⟨rfl, rfl⟩, hs⟩ := hrun
  obtain ⟨ht, hpoint⟩ | ⟨j, rfl, hx, hb⟩ := dies_serve hone hs hd
  · exact iff_of_true (originalOf_opened_safe ht) fun j hj => absurd hj (hpoint _ j)
  · rw [originalOf_opened_torn hx (by rw [← self.backupPath_eq]; exact hb)]
    constructor
    · rintro h j' hj
      simp only [Option.some.injEq, Prod.mk.injEq, true_and] at hj
      rwa [← hj]
    · exact fun h => h j rfl

def halfWritten (self : StaticResolvConf) (config : DnsRouteConfig) (j : Nat) (fs : Fs) : Fs :=
  put (put fs self.backupPath (some (originalOf self fs))) self.path
    (some ((encode (render self.owner config (originalOf self fs))).take j))

theorem set_dies_overwriting (self : StaticResolvConf) (fs : Fs) (interface : Text)
    (config : DnsRouteConfig) (j : Nat) :
    Dies fsHandler tear (serve route (.set interface config) self) fs
      (some (.write self.path (encode (render self.owner config (originalOf self fs))), j))
      (halfWritten self config j fs) := by
  apply Dies.bind
  rw [exec_reusingBackup]
  apply Dies.bind
  rw [exec_originalContent]
  exact .inr (.inl ⟨j, rfl, rfl⟩)

/-- An override whose marker line was written is taken up again. -/
theorem half_written_override_recovers :
    Recovers "vpn".toList resolvConf (encode nameservers)
      (halfWritten (opened "vpn".toList resolvConf (diskWith nameservers)) vpnConfig
        (encode (markerLine "vpn".toList)).length (diskWith nameservers)) := by
  generalize hfs : diskWith nameservers = fs
  generalize hj : (encode (markerLine "vpn".toList)).length = j
  have hp : fs resolvConf = some (encode nameservers) := by
    rw [← hfs]
    decide +kernel
  have hd := set_dies_overwriting (opened "vpn".toList resolvConf fs) fs "wg0".toList vpnConfig j
  refine (crash_recovers_iff "vpn".toList resolvConf (encode nameservers) (by decide +kernel)
    (by decide +kernel) fs hp [] (.set "wg0".toList vpnConfig) _ _ hd).mpr
    ⟨by decide +kernel, fun i hi => ?_⟩
  obtain rfl := (Prod.mk.inj (Option.some.inj hi)).2
  rw [← hj]
  decide +kernel

/-- Death between the truncation and the first byte: the next instance backs up
the empty file over the complete backup. -/
theorem truncated_file_lost :
    let fs := diskWith nameservers
    let self := opened "vpn".toList resolvConf fs
    OneLine "vpn".toList ∧ ownerIn (fs resolvConf) = none ∧
      ∃ t point, Dies fsHandler tear (serve route (.set "wg0".toList vpnConfig) self) fs point t ∧
        ¬ Recovers "vpn".toList resolvConf (encode nameservers) t := by
  intro fs self
  have hlost : recovered "vpn".toList resolvConf (halfWritten self vpnConfig 0 fs) "wg0".toList
      vpnConfig ≠ some (encode nameservers) := by
    decide +kernel
  exact ⟨by decide +kernel, by decide +kernel, _, _, set_dies_overwriting self fs _ _ 0,
    fun h => hlost (h _ _)⟩

end DnsAnnounce.StaticCrash
