import DnsAnnounce.StaticRestore
import Mathlib.Logic.Relation

namespace DnsAnnounce.StaticBackup

open DnsAnnounce.Utf8 DnsAnnounce.Address DnsAnnounce.Effect
open DnsAnnounce.FileSystem DnsAnnounce.Route DnsAnnounce.StaticBackend DnsAnnounce.StaticRestore

section Calls

variable {R : FsCall → Fs → Fs → Prop} {self : StaticResolvConf} {fs : Fs}

@[simp] theorem steps_currentOwner (path : PathBuf) :
    Steps fsHandler R (currentOwner path) fs ↔ R (.readToString path) fs fs := by
  rw [currentOwner, steps_bind, steps_readToString, exec_readToString]
  cases readTextResult (fs path) <;> exact and_iff_left trivial

theorem steps_reusingBackup (h : ∀ c, c.Reads → R c fs fs) :
    Steps fsHandler R (reusingBackup self) fs := by
  have hr := h (.readToString self.path) trivial
  have he := h (.pathExists self.backupPath) trivial
  rw [reusingBackup]
  by_cases ho : ownerIn (fs self.path) = some self.owner <;> simp [ho, hr, he]

theorem steps_originalContent (h : ∀ c, c.Reads → R c fs fs)
    (hb : ¬ Reusing self fs → R (.write self.backupPath (originalOf self fs)) fs
      (put fs self.backupPath (some (originalOf self fs)))) :
    Steps fsHandler R (originalContent (decide (Reusing self fs)) self) fs := by
  rw [originalContent]
  by_cases hr : Reusing self fs
  · have hread := h (.read self.backupPath) trivial
    obtain ⟨b, hb⟩ := Option.isSome_iff_exists.mp hr.2
    simp [hr, hb, readResult, hread]
  · have hread := h (.read self.path) trivial
    have hw := hb hr
    rw [originalOf_takeover hr] at hw
    cases hp : fs self.path with
    | none => simpa [hr, hp, readResult, hread] using hw
    | some c => simpa [hr, hp, readResult, hread] using hw

theorem steps_set (h : ∀ c, c.Reads → R c fs fs)
    (hb : ¬ Reusing self fs → R (.write self.backupPath (originalOf self fs)) fs
      (put fs self.backupPath (some (originalOf self fs))))
    (interface : Text) (config : DnsRouteConfig)
    (hw : R (.write self.path (encode (render self.owner config (originalOf self fs))))
      (put fs self.backupPath (some (originalOf self fs))) (afterSet self config fs)) :
    Steps fsHandler R (StaticBackend.set interface config self) fs := by
  have h1 : Steps fsHandler R (reusingBackup self) fs := steps_reusingBackup h
  have h2 := steps_originalContent h hb
  rw [afterSet] at hw
  simp [StaticBackend.set, exec_reusingBackup, exec_originalContent, h1, h2, hw]

def restore (path : PathBuf) (backup : Bytes) : FsCall :=
  if backup = [] then .removeFile path else .write path backup

def restored (fs : Fs) (path : PathBuf) (backup : Bytes) : Fs :=
  put fs path (if backup = [] then none else some backup)

theorem steps_reset (h : ∀ c, c.Reads → R c fs fs)
    (hforeign : ownerIn (fs self.path) ≠ some self.owner →
      R (.removeFile self.backupPath) fs (put fs self.backupPath none))
    (hrestore : ∀ backup, ownerIn (fs self.path) = some self.owner →
      fs self.backupPath = some backup →
      R (restore self.path backup) fs (restored fs self.path backup) ∧
        R (.removeFile self.backupPath) (restored fs self.path backup)
          (put (restored fs self.path backup) self.backupPath none)) :
    Steps fsHandler R (reset self) fs := by
  have hne := path_ne_backupPath self
  have howner := h (.readToString self.path) trivial
  have hexists := h (.pathExists self.backupPath) trivial
  have hread := h (.read self.backupPath) trivial
  rw [reset]
  by_cases ha : self.active = false
  · simp [ha]
  · by_cases ho : ownerIn (fs self.path) = some self.owner
    · obtain ⟨c, hp⟩ := exists_of_ownerIn ho
      cases hb : fs self.backupPath with
      | none =>
        rw [hp] at ho
        simp [ha, ho, hp, hb, howner, hexists]
      | some b =>
        have hr := hrestore b ho hb
        rw [hp] at ho
        unfold restore restored at hr
        by_cases he : b = []
        · subst he
          simpa [ha, ho, hp, hb, howner, hexists, hread, readResult, exec_removeFile,
            put_other _ hne.symm] using hr
        · simpa [ha, ho, hp, hb, he, howner, hexists, hread, readResult, exec_removeFile,
            put_other _ hne.symm] using hr
    · simpa [ha, ho, howner, exec_removeFile] using hforeign ho

end Calls

variable (owner : Text) (path : PathBuf)

def Marked (fs : Fs) : Prop := ownerIn (fs path) = some owner

instance (fs : Fs) : Decidable (Marked owner path fs) := inferInstanceAs (Decidable (_ = _))

/-- The system: the files, the instances of `owner` that are idle, the call one
of them is in the middle of, and the bytes the file had when it last did not
carry the marker. -/
structure World where
  files : Fs
  idle : List StaticResolvConf
  running : Option (Request × FsProg (Except ErrorKind Unit × StaticResolvConf))
  lastUnmarked : Bytes

/-- The history value after the files have become `fs`. -/
def observe (fs : Fs) (last : Bytes) : Bytes := if Marked owner path fs then last else (fs path).getD []

inductive Step : World → World → Prop
  | create (w : World) (hidle : w.running = none) :
      Step w { w with idle := opened owner path w.files :: w.idle }
  | start (w : World) (hidle : w.running = none) (pre post : List StaticResolvConf)
      (self : StaticResolvConf) (hself : w.idle = pre ++ self :: post) (r : Request) :
      Step w { w with idle := pre ++ post, running := some (r, serve route r self) }
  | call (w : World) (r : Request) (c : FsCall)
      (next : FsResp c → FsProg (Except ErrorKind Unit × StaticResolvConf))
      (hrun : w.running = some (r, .call c next)) :
      Step w { w with
        files := (fsHandler c w.files).2
        running := some (r, next (fsHandler c w.files).1)
        lastUnmarked := observe owner path (fsHandler c w.files).2 w.lastUnmarked }
  | finish (w : World) (r : Request) (res : Except ErrorKind Unit) (self : StaticResolvConf)
      (hrun : w.running = some (r, .ret (res, self))) :
      Step w { w with idle := self :: w.idle, running := none }
  | die (w : World) : Step w { w with running := none }
  | foreign (w : World) (hidle : w.running = none) (content : Option Bytes)
      (hm : ownerIn content ≠ some owner) :
      Step w { w with files := put w.files path content, lastUnmarked := content.getD [] }

/-- No instance yet, and a file without the marker. There may be a stale backup. -/
def Initial (w : World) : Prop :=
  w.idle = [] ∧ w.running = none ∧ ¬ Marked owner path w.files ∧
    w.lastUnmarked = (w.files path).getD []

/-- A marked file has its backup, and what was unmarked last is unmarked. -/
structure Safe (last : Bytes) (fs : Fs) : Prop where
  backup : Marked owner path fs → fs (backupPathFor path) = some last
  content : ¬ Marked owner path fs → (fs path).getD [] = last
  original : ownerIn (some last) ≠ some owner

/-- What every single file-system call of a running request does. -/
def Keeps (r : Request) (last : Bytes) (fs fs' : Fs) : Prop :=
  Safe owner path last fs' ∧ (r = .reset → ¬ Marked owner path fs → fs' path = fs path)

variable {owner path}

theorem ownerIn_getD {content : Option Bytes} (h : ownerIn content ≠ some owner) :
    ownerIn (some (content.getD [])) ≠ some owner := by
  cases content with
  | none => simp
  | some b => exact h

section Preserved

variable {last : Bytes} {fs : Fs} {self : StaticResolvConf}

theorem originalOf_safe (h : Safe self.owner self.path last fs) : originalOf self fs = last := by
  by_cases hm : Marked self.owner self.path fs
  · exact originalOf_reusing hm (by rw [self.backupPath_eq]; exact h.backup hm)
  · rw [originalOf_takeover fun hr => hm hr.1]
    exact h.content hm

theorem not_marked_of_not_reusing (h : Safe self.owner self.path last fs) (hr : ¬ Reusing self fs) :
    ¬ Marked self.owner self.path fs := by
  intro hm
  have hb := h.backup hm
  rw [← self.backupPath_eq] at hb
  exact hr ⟨hm, by rw [hb]; rfl⟩

theorem safe_putBackup (h : Safe self.owner self.path last fs)
    (hm : ¬ Marked self.owner self.path fs) (backup : Option Bytes) :
    Safe self.owner self.path last (put fs self.backupPath backup) := by
  have hp := put_other fs (path_ne_backupPath self) backup
  have hm' : ¬ Marked self.owner self.path (put fs self.backupPath backup) := by rwa [Marked, hp]
  exact ⟨fun hc => absurd hc hm', fun _ => by rw [hp]; exact h.content hm, h.original⟩

theorem safe_afterSet (hone : OneLine self.owner) (h : Safe self.owner self.path last fs)
    (config : DnsRouteConfig) : Safe self.owner self.path last (afterSet self config fs) := by
  have hmark : Marked self.owner self.path (afterSet self config fs) := by
    rw [Marked, afterSet_path]
    exact (ownerIn_render ..).mpr hone
  refine ⟨fun _ => ?_, fun hm => absurd hmark hm, h.original⟩
  rw [← self.backupPath_eq, afterSet_backupPath, originalOf_safe h]

theorem safe_restored (h : Safe self.owner self.path last fs) :
    Safe self.owner self.path last (restored fs self.path last) ∧
      ¬ Marked self.owner self.path (restored fs self.path last) := by
  have hr : restored fs self.path last self.path = if last = [] then none else some last :=
    put_self ..
  have hm : ¬ Marked self.owner self.path (restored fs self.path last) := by
    rw [Marked, hr]
    split_ifs
    · nofun
    · exact h.original
  refine ⟨⟨fun hc => absurd hc hm, fun _ => ?_, h.original⟩, hm⟩
  rw [hr]
  split_ifs with he
  · exact he.symm
  · rfl

theorem keeps_set (hone : OneLine self.owner) (h : Safe self.owner self.path last fs)
    (interface : Text) (config : DnsRouteConfig) :
    Steps fsHandler (fun _ => Keeps self.owner self.path (.set interface config) last)
      (StaticBackend.set interface config self) fs := by
  refine steps_set (fun _ _ => ⟨h, nofun⟩) (fun hr => ⟨?_, nofun⟩) interface config
    ⟨safe_afterSet hone h config, nofun⟩
  exact safe_putBackup h (not_marked_of_not_reusing h hr) _

theorem keeps_reset (h : Safe self.owner self.path last fs) :
    Steps fsHandler (fun _ => Keeps self.owner self.path .reset last) (reset self) fs := by
  have hp : ∀ fs, put fs self.backupPath none self.path = fs self.path :=
    fun fs => put_other fs (path_ne_backupPath self) none
  refine steps_reset (fun _ _ => ⟨h, fun _ _ => rfl⟩) (fun hm => ?_) (fun backup hm hbk => ?_)
  · exact ⟨safe_putBackup h hm none, fun _ _ => hp fs⟩
  · obtain rfl : backup = last := by
      have hl := h.backup hm
      rw [← self.backupPath_eq, hbk] at hl
      exact Option.some.inj hl
    obtain ⟨hs, hm'⟩ := safe_restored h
    exact ⟨⟨hs, fun _ hn => absurd hm hn⟩, ⟨safe_putBackup hs hm' none, fun _ _ => hp _⟩⟩

end Preserved

def Ours (owner : Text) (path : PathBuf) (self : StaticResolvConf) : Prop :=
  self.owner = owner ∧ self.path = path

structure Inv (owner : Text) (path : PathBuf) (w : World) : Prop where
  safe : Safe owner path w.lastUnmarked w.files
  idle : ∀ self ∈ w.idle, Ours owner path self
  running : ∀ r p, w.running = some (r, p) →
    Steps fsHandler (fun _ => Keeps owner path r w.lastUnmarked) p w.files ∧
      Ours owner path (exec fsHandler p w.files).1.2

theorem inv_initial {w : World} (h : Initial owner path w) : Inv owner path w := by
  obtain ⟨hidle, hrun, hm, hlast⟩ := h
  refine ⟨⟨fun hc => absurd hc hm, fun _ => hlast.symm, ?_⟩, ?_, ?_⟩
  · rw [hlast]
    exact ownerIn_getD hm
  · rw [hidle]
    nofun
  · rw [hrun]
    nofun

theorem observe_of_safe {last : Bytes} {fs : Fs} (h : Safe owner path last fs) :
    observe owner path fs last = last := by
  rw [observe]
  split_ifs with hm
  · rfl
  · exact h.content hm

theorem inv_step (hone : OneLine owner) {w w' : World} (h : Inv owner path w)
    (hs : Step owner path w w') : Inv owner path w' := by
  cases hs with
  | create hidle =>
    refine ⟨h.safe, fun self hm => ?_, h.running⟩
    obtain rfl | hm := List.mem_cons.mp hm
    · rw [opened_eq]
      exact ⟨rfl, rfl⟩
    · exact h.idle self hm
  | start hidle pre post self hself r =>
    have hours : Ours owner path self := h.idle self (by simp [hself])
    refine ⟨h.safe, fun s hm => h.idle s ?_, ?_⟩
    · rcases List.mem_append.mp hm with hm | hm <;> simp [hself, hm]
    · intro r' p hp
      obtain ⟨rfl, rfl⟩ : r = r' ∧ serve route r self = p := by simpa using hp
      obtain ⟨rfl, rfl⟩ := hours
      cases r with
      | set interface config =>
        refine ⟨keeps_set hone h.safe interface config, ?_⟩
        change Ours _ _ (exec fsHandler (StaticBackend.set interface config self) w.files).1.2
        rw [exec_set]
        exact ⟨rfl, rfl⟩
      | reset =>
        refine ⟨keeps_reset h.safe, ?_⟩
        change Ours _ _ (exec fsHandler (reset self) w.files).1.2
        rw [exec_reset]
        exact ⟨rfl, rfl⟩
  | call r c next hrun =>
    obtain ⟨⟨hkeep, hrest⟩, hours⟩ := h.running _ _ hrun
    have hobs := observe_of_safe hkeep.1
    refine ⟨?_, h.idle, ?_⟩
    · rw [hobs]
      exact hkeep.1
    · intro r' p hp
      obtain ⟨rfl, rfl⟩ : r = r' ∧ next (fsHandler c w.files).1 = p := by simpa using hp
      dsimp only
      rw [hobs]
      exact ⟨hrest, hours⟩
  | finish r res self hrun =>
    refine ⟨h.safe, fun s hm => ?_, nofun⟩
    obtain rfl | hm := List.mem_cons.mp hm
    · exact (h.running _ _ hrun).2
    · exact h.idle s hm
  | die => exact ⟨h.safe, h.idle, nofun⟩
  | foreign hidle content hm =>
    have hm' : ¬ Marked owner path (put w.files path content) := by rwa [Marked, put_self]
    refine ⟨⟨fun hc => absurd hc hm', fun _ => ?_, ownerIn_getD hm⟩, h.idle, fun r p hp => ?_⟩
    · exact congrArg (·.getD []) (put_self w.files path content)
    · rw [hidle] at hp
      cases hp

theorem inv_run (hone : OneLine owner) {w₀ w : World} (h₀ : Initial owner path w₀)
    (hrun : Relation.ReflTransGen (Step owner path) w₀ w) : Inv owner path w := by
  induction hrun with
  | refl => exact inv_initial h₀
  | tail _ hs ih => exact inv_step hone ih hs

variable (owner path) in
theorem reaches_result (w : World) {r : Request}
    {p : FsProg (Except ErrorKind Unit × StaticResolvConf)} (hrun : w.running = some (r, p)) :
    ∃ w', Relation.ReflTransGen (Step owner path) w w' ∧ w'.files = (exec fsHandler p w.files).2 ∧
      w'.idle = w.idle ∧ w'.running = some (r, .ret (exec fsHandler p w.files).1) := by
  induction p generalizing w with
  | ret a => exact ⟨w, .refl, rfl, rfl, hrun⟩
  | call c next ih =>
    obtain ⟨w', hw', hfiles, hidle, hres⟩ := ih (fsHandler c w.files).1
      { w with
        files := (fsHandler c w.files).2
        running := some (r, next (fsHandler c w.files).1)
        lastUnmarked := observe owner path (fsHandler c w.files).2 w.lastUnmarked } rfl
    exact ⟨w', .head (.call w r c next hrun) hw', hfiles, hidle, hres⟩

variable (owner path) in
theorem reaches_after (w : World) (hidle : w.running = none) (pre post : List StaticResolvConf)
    (self : StaticResolvConf) (hself : w.idle = pre ++ self :: post) (r : Request) :
    ∃ w', Relation.ReflTransGen (Step owner path) w w' ∧
      w'.files = (after route fsHandler (self, w.files) r).2 ∧
      w'.idle = (after route fsHandler (self, w.files) r).1 :: (pre ++ post) ∧
      w'.running = none := by
  obtain ⟨w', hw', hfiles, hids, hres⟩ := reaches_result owner path
    { w with idle := pre ++ post, running := some (r, serve route r self) } rfl
  exact ⟨_, .tail (.head (.start w hidle pre post self hself r) hw') (.finish w' r _ _ hres),
    hfiles, congrArg (_ :: ·) hids, rfl⟩

/-- In every run of instances of one owner, foreign writers and crashes, a marked
file has its original in the backup, and no `reset()` touches an unmarked one. -/
theorem backup_invariant (owner : Text) (hone : OneLine owner) (path : PathBuf) (w₀ w : World)
    (h₀ : Initial owner path w₀) (hrun : Relation.ReflTransGen (Step owner path) w₀ w) :
    (Marked owner path w.files → w.files (backupPathFor path) = some w.lastUnmarked) ∧
      (∀ w' p, w.running = some (.reset, p) → Step owner path w w' →
        ¬ Marked owner path w.files → w'.files path = w.files path) ∧
      ∀ self ∈ w.idle, ¬ Marked owner path w.files →
        (exec fsHandler (reset self) w.files).2 path = w.files path := by
  have h := inv_run hone h₀ hrun
  refine ⟨h.safe.backup, fun w' p hp hs hm => ?_, fun self hself hm => ?_⟩
  · cases hs with
    | create | start | finish | die => rfl
    | call r c next hrun =>
      obtain ⟨rfl, rfl⟩ : r = .reset ∧ Prog.call c next = p := by simpa [hrun] using hp
      exact (h.running _ _ hrun).1.1.2 rfl hm
    | foreign hidle =>
      rw [hidle] at hp
      cases hp
  · obtain ⟨rfl, rfl⟩ := h.idle self hself
    rw [exec_reset]
    by_cases ha : self.active = false
    · rw [afterReset_inactive ha]
    · rw [afterReset_foreign (by simpa using ha) hm]
      exact put_other _ (path_ne_backupPath self) none

def freshWorld (fs : Fs) (path : PathBuf) : World := ⟨fs, [], none, (fs path).getD []⟩

theorem takeover_backs_up :
    let w₀ := freshWorld (diskWith nameservers) resolvConf
    ∃ w, Relation.ReflTransGen (Step "vpn".toList resolvConf) w₀ w ∧
      Marked "vpn".toList resolvConf w.files ∧
      w.files (backupPathFor resolvConf) = some w.lastUnmarked := by
  intro w₀
  have h₀ : Initial "vpn".toList resolvConf w₀ := ⟨rfl, rfl, by decide +kernel, rfl⟩
  obtain ⟨w, hset, hfiles, -⟩ := reaches_after "vpn".toList resolvConf
    { w₀ with idle := [opened "vpn".toList resolvConf w₀.files] } rfl [] [] _ rfl
    (.set "wg0".toList vpnConfig)
  have hrun := hset.head (.create w₀ rfl)
  have hm : Marked "vpn".toList resolvConf w.files := by
    rw [hfiles]
    decide +kernel
  exact ⟨w, hrun, hm, (backup_invariant _ (by decide +kernel) _ _ _ h₀ hrun).1 hm⟩

end DnsAnnounce.StaticBackup
