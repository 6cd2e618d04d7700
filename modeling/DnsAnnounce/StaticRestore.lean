import DnsAnnounce.StaticBackend

namespace DnsAnnounce.StaticRestore

open DnsAnnounce.Utf8 DnsAnnounce.Address DnsAnnounce.Effect DnsAnnounce.Runs
open DnsAnnounce.FileSystem DnsAnnounce.Route DnsAnnounce.StaticBackend

/-- The two files while `config` overrides the content `base`. -/
def OnDisk (path : PathBuf) (owner : Text) (base : Option Bytes) (fs : Fs) :
    Option DnsRouteConfig → Prop
  | none => fs path = base ∧ fs (backupPathFor path) = none
  | some config => fs path = some (encode (render owner config (base.getD []))) ∧
      fs (backupPathFor path) = some (base.getD [])

/-- An instance and the disk that carry out `config`, or no override at all. -/
def Represents (base : Option Bytes) (st : StaticResolvConf × Fs)
    (config : Option DnsRouteConfig) : Prop :=
  st.1.active = config.isSome ∧ OnDisk st.1.path st.1.owner base st.2 config

variable {base : Option Bytes} {self : StaticResolvConf} {fs : Fs}

def filesAfter (self : StaticResolvConf) (fs : Fs) (rs : List Request) : Fs :=
  (run (after route fsHandler) (self, fs) rs).2

theorem originalOf_onDisk (hone : OneLine self.owner) {config : Option DnsRouteConfig}
    (h : OnDisk self.path self.owner base fs config) : originalOf self fs = base.getD [] := by
  cases config with
  | none =>
    obtain ⟨hp, hb⟩ := h
    rw [← self.backupPath_eq] at hb
    have hr : ¬ Reusing self fs := fun hr => by simpa [hb] using hr.2
    rw [originalOf_takeover hr, hp]
  | some config =>
    obtain ⟨hp, hb⟩ := h
    rw [← self.backupPath_eq] at hb
    exact originalOf_reusing (by rw [hp]; exact (ownerIn_render ..).mpr hone) hb

theorem represents_set (hone : OneLine self.owner) {config : Option DnsRouteConfig}
    (h : OnDisk self.path self.owner base fs config) (interface : Text) (next : DnsRouteConfig) :
    Represents base (after route fsHandler (self, fs) (.set interface next)) (some next) := by
  rw [after_set]
  refine ⟨rfl, ?_, ?_⟩
  · change afterSet self next fs self.path = _
    rw [afterSet_path, originalOf_onDisk hone h]
  · change afterSet self next fs (backupPathFor self.path) = _
    rw [← self.backupPath_eq, afterSet_backupPath, originalOf_onDisk hone h]

theorem afterReset_onDisk (hone : OneLine self.owner) (ha : self.active = true)
    {config : DnsRouteConfig} (h : OnDisk self.path self.owner base fs (some config)) :
    OnDisk self.path self.owner (if base.getD [] = [] then none else base) (afterReset self fs) none := by
  have hne := path_ne_backupPath self
  obtain ⟨hp, hb⟩ := h
  have ho := (ownerIn_render self.owner config (base.getD [])).mpr hone
  rw [← hp] at ho
  rw [← self.backupPath_eq] at hb
  rw [afterReset_restores ha ho hb]
  refine ⟨?_, ?_⟩
  · rw [put_other _ hne, put_self]
    cases base <;> simp
  · rw [← self.backupPath_eq, put_self]

theorem represents_reset (hone : OneLine self.owner) (hbase : base ≠ some [])
    {config : Option DnsRouteConfig} (h : Represents base (self, fs) config) :
    Represents base (after route fsHandler (self, fs) .reset) none := by
  rw [after_reset]
  refine ⟨rfl, ?_⟩
  cases config with
  | none =>
    have ha : self.active = false := h.1
    rw [afterReset_inactive ha]
    exact h.2
  | some config =>
    have hd := afterReset_onDisk hone h.1 h.2
    have hb : (if base.getD [] = [] then none else base) = base := by
      cases base with
      | none => rfl
      | some b => exact if_neg fun he => hbase (congrArg some he)
    rwa [hb] at hd

/-- A run of `set()` calls does what its last call alone would have done. -/
theorem run_sets (hone : OneLine self.owner) (fs : Fs) (sets : List (Text × DnsRouteConfig))
    (last : Text × DnsRouteConfig) :
    run (after route fsHandler) (self, fs) ((sets ++ [last]).map (fun c => Request.set c.1 c.2)) =
      after route fsHandler (self, fs) (.set last.1 last.2) := by
  let step := fun (st : StaticResolvConf × Fs) (c : Text × DnsRouteConfig) =>
    after route fsHandler st (.set c.1 c.2)
  have hmap : run (after route fsHandler) (self, fs)
      ((sets ++ [last]).map (fun c => Request.set c.1 c.2)) = run step (self, fs) (sets ++ [last]) :=
    List.foldl_map
  have hstep : ∀ (st : StaticResolvConf × Fs) c, OneLine st.1.owner → OneLine (step st c).1.owner := by
    rintro ⟨self, fs⟩ ⟨interface, config⟩ hone
    rw [show step (self, fs) (interface, config) = _ from after_set self fs interface config]
    exact hone
  have habsorb : ∀ (st : StaticResolvConf × Fs) c d, OneLine st.1.owner →
      step (step st c) d = step st d := by
    rintro ⟨self, fs⟩ ⟨interface, config⟩ ⟨interface', next⟩ hone
    rw [show step (self, fs) (interface, config) = _ from after_set self fs interface config,
      show step (self, fs) (interface', next) = _ from after_set self fs interface' next]
    exact (after_set _ _ _ _).trans (congrArg (Prod.mk _) (afterSet_afterSet hone config next fs))
  rw [hmap]
  exact run_concat_of_absorbs step (I := fun st => OneLine st.1.owner) hstep habsorb hone sets last

theorem run_sets_represents (hone : OneLine self.owner) (hb : fs self.backupPath = none)
    (sets : List (Text × DnsRouteConfig)) (last : Text × DnsRouteConfig) :
    let st := run (after route fsHandler) (self, fs)
      ((sets ++ [last]).map (fun c => Request.set c.1 c.2))
    st.1.path = self.path ∧ st.1.owner = self.owner ∧
      Represents (fs self.path) st (some last.2) := by
  have hd : OnDisk self.path self.owner (fs self.path) fs none :=
    ⟨rfl, by rw [← self.backupPath_eq, hb]⟩
  rw [run_sets hone fs sets last]
  exact ⟨by rw [after_set], by rw [after_set], represents_set hone hd last.1 last.2⟩

def setsThenReset (sets : List (Text × DnsRouteConfig)) : List Request :=
  sets.map (fun c => .set c.1 c.2) ++ [.reset]

theorem filesAfter_setsThenReset (hone : OneLine self.owner) (hb : fs self.backupPath = none)
    {sets : List (Text × DnsRouteConfig)} (hne : sets ≠ []) :
    filesAfter self fs (setsThenReset sets) self.path =
        (if (fs self.path).getD [] = [] then none else fs self.path) ∧
      filesAfter self fs (setsThenReset sets) self.backupPath = none := by
  obtain ⟨init, last, rfl⟩ := List.eq_nil_or_concat' sets |>.resolve_left hne
  obtain ⟨hp, ho, hr⟩ := run_sets_represents hone hb init last
  rw [filesAfter, setsThenReset, run_append]
  generalize run (after route fsHandler) (self, fs)
    ((init ++ [last]).map (fun c => Request.set c.1 c.2)) = st at hp ho hr
  obtain ⟨st, fs'⟩ := st
  have hd := afterReset_onDisk (by rw [ho]; exact hone) hr.1 hr.2
  rw [hp] at hd
  simp only [run_cons, run_nil, after_reset, self.backupPath_eq]
  exact hd

/-- `set()` calls and a `reset()` leave no trace, except on an empty file. -/
theorem set_reset_restores_iff (self : StaticResolvConf) (hone : OneLine self.owner) (fs : Fs)
    (hb : fs self.backupPath = none) (sets : List (Text × DnsRouteConfig)) (hne : sets ≠ []) :
    (filesAfter self fs (setsThenReset sets) self.path = fs self.path ∧
      filesAfter self fs (setsThenReset sets) self.backupPath = none) ↔
        fs self.path ≠ some [] := by
  obtain ⟨hp, hbk⟩ := filesAfter_setsThenReset hone hb hne
  rw [hp, and_iff_left hbk]
  cases hc : fs self.path with
  | none => simp
  | some b => by_cases he : b = [] <;> simp [he]

def resolvConf : PathBuf := "/etc/resolv.conf".toList

def nameservers : Text := "nameserver 9.9.9.9\n".toList

def diskWith (content : Text) : Fs := put (fun _ => none) resolvConf (some (encode content))

theorem nameserver_file_restored :
    let fs := diskWith nameservers
    let self := opened "vpn".toList resolvConf fs
    let sets := [("wg0".toList, vpnConfig)]
    filesAfter self fs (setsThenReset sets) self.path = fs self.path ∧
      filesAfter self fs (setsThenReset sets) self.backupPath = none :=
  (set_reset_restores_iff _ (by decide +kernel) _ (by decide +kernel) _ (by simp)).mpr
    (by decide +kernel)

/-- An empty file is taken for no file at all: `reset()` removes it. -/
theorem empty_file_removed :
    let fs := diskWith []
    let self := opened "vpn".toList resolvConf fs
    let sets := [("wg0".toList, vpnConfig)]
    OneLine self.owner ∧ fs self.backupPath = none ∧
      ¬ (filesAfter self fs (setsThenReset sets) self.path = fs self.path ∧
        filesAfter self fs (setsThenReset sets) self.backupPath = none) := by
  decide +kernel

end DnsAnnounce.StaticRestore
