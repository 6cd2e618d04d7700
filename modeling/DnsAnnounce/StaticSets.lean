import DnsAnnounce.Nameservers
import DnsAnnounce.StaticRestore

namespace DnsAnnounce.StaticSets

open DnsAnnounce.Utf8 DnsAnnounce.Address DnsAnnounce.Effect DnsAnnounce.Runs DnsAnnounce.FileSystem
open DnsAnnounce.Route DnsAnnounce.StaticBackend DnsAnnounce.Nameservers DnsAnnounce.StaticRestore

section Marker

/-- Whose file the code takes `path` for. -/
def recorded (path : PathBuf) (fs : Fs) : Option Text := (exec fsHandler (currentOwner path) fs).1

def writeOverride (owner : Text) (config : DnsRouteConfig) (original : Bytes) (path : PathBuf) (fs : Fs) : Fs :=
  (exec fsHandler (write path (encode (render owner config original))) fs).2

/-- What is written in an owner's name is its own and no other's: another
`set()` keeps the backup, and `reset()` puts the original back. -/
structure ReadsBack (owner : Text) (config : DnsRouteConfig) (original : Bytes) : Prop where
  own : ∀ path fs, recorded path (writeOverride owner config original path fs) = some owner
  foreign : ∀ other, other ≠ owner →
    ∀ path fs, recorded path (writeOverride owner config original path fs) ≠ some other
  reuses : ∀ (self : StaticResolvConf) fs interface next, self.owner = owner →
    OnDisk self.path owner (some original) fs (some config) →
    (after route fsHandler (self, fs) (.set interface next)).2 self.backupPath = some original
  restores : ∀ (self : StaticResolvConf) fs, self.owner = owner → self.active = true →
    OnDisk self.path owner (some original) fs (some config) →
    (after route fsHandler (self, fs) .reset).2 self.path = if original = [] then none else some original

theorem recorded_writeOverride (owner : Text) (config : DnsRouteConfig) (original : Bytes) (path : PathBuf)
    (fs : Fs) : recorded path (writeOverride owner config original path fs) =
      ownerIn (some (encode (render owner config original))) := by
  have hwritten : writeOverride owner config original path fs path =
      some (encode (render owner config original)) := put_self ..
  rw [recorded, exec_currentOwner, hwritten]

/-- The marker is read back exactly if the owner is one line. -/
theorem readsBack_iff (owner : Text) (config : DnsRouteConfig) (original : Bytes) :
    ReadsBack owner config original ↔ OneLine owner := by
  constructor
  · intro h
    have hown := h.own [] (fun _ => none)
    rwa [recorded_writeOverride, ownerIn_render] at hown
  · intro hone
    have hown := (ownerIn_render owner config original).mpr hone
    refine ⟨fun path fs => ?_, fun other hother path fs => ?_, ?_, ?_⟩
    · rw [recorded_writeOverride, hown]
    · rw [recorded_writeOverride, hown]
      exact fun heq => hother (Option.some.inj heq).symm
    · rintro self fs interface next rfl hdisk
      rw [after_set]
      change afterSet self next fs self.backupPath = _
      rw [afterSet_backupPath, originalOf_onDisk hone hdisk]
      rfl
    · rintro self fs rfl ha hdisk
      obtain ⟨hpath, -⟩ := afterReset_onDisk hone ha hdisk
      rw [after_reset]
      exact hpath

/-- A marker of two lines names an owner that did not write it. -/
theorem broken_marker_names_another :
    recorded resolvConf (writeOverride "a\nb".toList vpnConfig [] resolvConf (fun _ => none)) =
      some "a".toList ∧
    ¬ ReadsBack "a\nb".toList vpnConfig [] := by
  have hread : recorded resolvConf (writeOverride "a\nb".toList vpnConfig [] resolvConf (fun _ => none)) =
      some "a".toList := by
    rw [recorded_writeOverride]
    decide +kernel
  exact ⟨hread, fun h => h.foreign "a".toList (by decide) resolvConf (fun _ => none) hread⟩

end Marker

section Sets

def setCalls (sets : List (Text × DnsRouteConfig)) : List Request := sets.map fun c => .set c.1 c.2

/-- The last `set()` wins: a run of them leaves what it alone would have left,
the original in the backup, and in the file nameservers that are its own and,
for conditional forwarding, the original's. -/
theorem last_set_wins (self : StaticResolvConf) (hone : OneLine self.owner) (fs : Fs)
    (hstart : ¬ Reusing self fs) (sets : List (Text × DnsRouteConfig)) (last : Text × DnsRouteConfig) :
    run (after route fsHandler) (self, fs) (setCalls (sets ++ [last])) =
      after route fsHandler (self, fs) (.set last.1 last.2) ∧
    filesAfter self fs (setCalls (sets ++ [last])) self.backupPath = some ((fs self.path).getD []) ∧
    ∃ written, filesAfter self fs (setCalls (sets ++ [last])) self.path = some written ∧
      parseNameservers written = last.2.servers.map IpAddr.display ++
        if last.2.routingDomains ≠ [] then parseNameservers ((fs self.path).getD []) else [] := by
  have hrun := run_sets hone fs sets last
  have hfiles : filesAfter self fs (setCalls (sets ++ [last])) = afterSet self last.2 fs := by
    rw [filesAfter, setCalls, hrun, after_set]
  have horiginal := originalOf_takeover hstart
  rw [hfiles, afterSet_backupPath, afterSet_path, horiginal]
  refine ⟨hrun, rfl, _, rfl, ?_⟩
  rw [parseNameservers_render, ownerNameservers_eq_nil hone.1, List.nil_append]

def fullConfig : DnsRouteConfig := ⟨[.V4 ⟨[10, 0, 0, 2], rfl⟩], []⟩

theorem second_set_wins :
    let fs := diskWith nameservers
    let self := opened "vpn".toList resolvConf fs
    parseNameservers ((filesAfter self fs (setCalls [("wg0".toList, fullConfig),
      ("wg0".toList, vpnConfig)])
      self.path).getD []) = ["10.0.0.1".toList, "9.9.9.9".toList] := by
  intro fs self
  obtain ⟨-, -, written, hwritten, hread⟩ := last_set_wins self (by decide +kernel) fs (by decide +kernel)
    [("wg0".toList, fullConfig)] ("wg0".toList, vpnConfig)
  rw [List.singleton_append] at hwritten
  rw [hwritten, Option.getD_some, hread]
  decide +kernel

end Sets

end DnsAnnounce.StaticSets
