import DnsAnnounce.StaticBackend

namespace DnsAnnounce.StaticFaults

open DnsAnnounce.Utf8 DnsAnnounce.Address DnsAnnounce.Effect DnsAnnounce.FileSystem
open DnsAnnounce.Route DnsAnnounce.StaticBackend

/-- The file system when the calls that the plan picks fail. -/
abbrev disk (plan : FsCall → Option FsFault) : Handler FsCall FsResp Fs :=
  faulty fsHandler fsFail plan

variable (plan : FsCall → Option FsFault)

def seenOwner (path : PathBuf) (fs : Fs) : Option Text :=
  match plan (.readToString path) with
  | none => ownerIn (fs path)
  | some _ => none

def seenExists (path : PathBuf) (fs : Fs) : Bool :=
  match plan (.pathExists path) with
  | none => (fs path).isSome
  | some _ => false

/-- What a failing write leaves of the file. -/
def torn (f : FsFault) (path : PathBuf) (contents : Bytes) (fs : Fs) : Fs :=
  match f.written with
  | none => fs
  | some j => put fs path (some (contents.take j))

variable {plan} (fs : Fs) (path : PathBuf)

@[simp] theorem disk_currentOwner :
    exec (disk plan) (currentOwner path) fs = (seenOwner plan path fs, fs) := by
  have hr : exec (disk plan) (readToString path) fs =
      (match plan (.readToString path) with
        | none => readTextResult (fs path)
        | some _ => .error .Other, fs) := by
    change faulty fsHandler fsFail plan (.readToString path) fs = _
    rw [faulty]
    cases plan (.readToString path) <;> rfl
  rw [currentOwner, exec_bind, hr, seenOwner, ownerIn]
  cases plan (.readToString path) with
  | some f => rfl
  | none => cases readTextResult (fs path) <;> rfl

@[simp] theorem disk_pathExists :
    exec (disk plan) (pathExists path) fs = (seenExists plan path fs, fs) := by
  change faulty fsHandler fsFail plan (.pathExists path) fs = _
  unfold faulty seenExists
  cases plan (.pathExists path) <;> rfl

theorem disk_read : exec (disk plan) (read path) fs =
    (match plan (.read path) with
      | none => readResult (fs path)
      | some _ => .error .Other, fs) := by
  change faulty fsHandler fsFail plan (.read path) fs = _
  rw [faulty]
  cases plan (.read path) <;> rfl

theorem disk_write (contents : Bytes) : exec (disk plan) (write path contents) fs =
    match plan (.write path contents) with
    | none => (.ok (), put fs path (some contents))
    | some f => (.error .Other, torn f path contents fs) := by
  change faulty fsHandler fsFail plan (.write path contents) fs = _
  rw [faulty]
  cases plan (.write path contents) <;> rfl

theorem disk_removeFile : exec (disk plan) (removeFile path) fs =
    match plan (.removeFile path) with
    | none => exec fsHandler (removeFile path) fs
    | some _ => (.error .Other, fs) := by
  change faulty fsHandler fsFail plan (.removeFile path) fs = _
  rw [faulty]
  cases plan (.removeFile path) <;> rfl

theorem torn_self (f : FsFault) (contents : Bytes) :
    torn f path contents fs path = fs path ∨
      ∃ j, torn f path contents fs path = some (contents.take j) := by
  rw [torn]
  cases f.written with
  | none => exact .inl rfl
  | some j => exact .inr ⟨j, put_self ..⟩

theorem torn_other (f : FsFault) {p : PathBuf} (h : p ≠ path) (contents : Bytes) :
    torn f path contents fs p = fs p := by
  rw [torn]
  cases f.written with
  | none => rfl
  | some j => exact put_other _ h _

variable {fs} {self : StaticResolvConf}

theorem reset_inactive (ha : self.active = false) :
    exec (disk plan) (reset self) fs = ((.ok (), self), fs) := by
  simp [reset, ha]

theorem reset_skips (ha : self.active = true)
    (ho : seenOwner plan self.path fs ≠ some self.owner) :
    exec (disk plan) (reset self) fs =
      ((.ok (), { self with active := false }),
        (exec (disk plan) (removeFile self.backupPath) fs).2) := by
  simp [reset, ha, ho]

theorem reset_noBackup (ha : self.active = true) (ho : seenOwner plan self.path fs = some self.owner)
    (he : seenExists plan self.backupPath fs = false) :
    exec (disk plan) (reset self) fs = ((.ok (), { self with active := false }), fs) := by
  simp [reset, ha, ho, he]

def restoredFile (backup : Bytes) : Option Bytes := if backup = [] then none else some backup

/-- The disk of a `reset()` that began to restore: either it got through, or the
backup is still there and the file is what it was, torn, or restored. -/
def Restoring (self : StaticResolvConf) (backup : Bytes) (fs : Fs) (r : Except ErrorKind Unit)
    (fs' : Fs) : Prop :=
  r = .ok () ∧ fs' self.path = restoredFile backup ∧ fs' self.backupPath = none ∨
    r = .error .Other ∧ fs' self.backupPath = some backup ∧
      (fs' self.path = fs self.path ∨ fs' self.path = restoredFile backup ∨
        ∃ j, fs' self.path = some (backup.take j))

theorem reset_restoring (ha : self.active = true) (ho : seenOwner plan self.path fs = some self.owner)
    (he : seenExists plan self.backupPath fs = true) {backup : Bytes}
    (hb : fs self.backupPath = some backup) (hp : (fs self.path).isSome = true) :
    ∃ r fs', exec (disk plan) (reset self) fs = ((r, { self with active := false }), fs') ∧
      Restoring self backup fs r fs' := by
  have hne := path_ne_backupPath self
  rw [reset]
  cases hr : plan (.read self.backupPath) with
  | some f =>
    refine ⟨.error .Other, fs, ?_, .inr ⟨rfl, hb, .inl rfl⟩⟩
    simp [ha, ho, he, disk_read, hr]
  | none =>
    by_cases hx : backup = []
    · subst hx
      cases hd : plan (.removeFile self.path) with
      | some f =>
        refine ⟨.error .Other, fs, ?_, .inr ⟨rfl, hb, .inl rfl⟩⟩
        simp [ha, ho, he, disk_read, hr, hb, readResult, disk_removeFile, hd]
      | none =>
        have hrest : put fs self.path none self.path = restoredFile [] := put_self ..
        obtain ⟨c, hc⟩ := Option.isSome_iff_exists.mp hp
        cases hdb : plan (.removeFile self.backupPath) with
        | some f =>
          refine ⟨.error .Other, put fs self.path none, ?_, .inr ⟨rfl, ?_, .inr (.inl hrest)⟩⟩
          · simp [ha, ho, he, disk_read, hr, hb, hc, readResult, disk_removeFile, hd, hdb,
              exec_removeFile]
          · rw [put_other _ hne.symm, hb]
        | none =>
          refine ⟨.ok (), put (put fs self.path none) self.backupPath none, ?_,
            .inl ⟨rfl, ?_, put_self ..⟩⟩
          · simp [ha, ho, he, disk_read, hr, hb, hc, readResult, disk_removeFile, hd, hdb,
              exec_removeFile, put_other _ hne.symm]
          · rw [put_other _ hne, hrest]
    · cases hw : plan (.write self.path backup) with
      | some f =>
        refine ⟨.error .Other, torn f self.path backup fs, ?_, .inr ⟨rfl, ?_, ?_⟩⟩
        · simp [ha, ho, he, disk_read, hr, hb, hx, readResult, disk_write, hw]
        · rw [torn_other _ _ f hne.symm, hb]
        · exact (torn_self ..).imp_right .inr
      | none =>
        have hrest : put fs self.path (some backup) self.path = restoredFile backup := by
          rw [put_self, restoredFile, if_neg hx]
        cases hdb : plan (.removeFile self.backupPath) with
        | some f =>
          refine ⟨.error .Other, put fs self.path (some backup), ?_, .inr ⟨rfl, ?_, .inr (.inl hrest)⟩⟩
          · simp [ha, ho, he, disk_read, hr, hb, hx, readResult, disk_write, hw, disk_removeFile, hdb]
          · rw [put_other _ hne.symm, hb]
        | none =>
          refine ⟨.ok (), put (put fs self.path (some backup)) self.backupPath none, ?_,
            .inl ⟨rfl, ?_, put_self ..⟩⟩
          · simp [ha, ho, he, disk_read, hr, hb, hx, readResult, disk_write, hw, disk_removeFile,
              hdb, exec_removeFile, put_other _ hne.symm]
          · rw [put_other _ hne, hrest]

/-- A `set()` that does not see its marker reads the file, backs it up and writes
its own, and stops at the first of these that fails. -/
theorem set_takeover (ho : seenOwner plan self.path fs ≠ some self.owner) (interface : Text)
    (config : DnsRouteConfig) :
    let original := (fs self.path).getD []
    let text := encode (render self.owner config original)
    exec (disk plan) (StaticBackend.set interface config self) fs =
      match plan (.read self.path) with
      | some _ => ((.error .Other, self), fs)
      | none => match plan (.write self.backupPath original) with
        | some f => ((.error .Other, self), torn f self.backupPath original fs)
        | none => match plan (.write self.path text) with
          | some f => ((.error .Other, self),
              torn f self.path text (put fs self.backupPath (some original)))
          | none => ((.ok (), { self with active := true }),
              put (put fs self.backupPath (some original)) self.path (some text)) := by
  intro original text
  have hnew : exec (disk plan) (reusingBackup self) fs = ((.ok false, self), fs) := by
    simp [reusingBackup, ho]
  have horig : exec (disk plan) (originalContent false self) fs =
      match plan (.read self.path) with
      | some _ => ((.error .Other, self), fs)
      | none => match plan (.write self.backupPath original) with
        | some f => ((.error .Other, self), torn f self.backupPath original fs)
        | none => ((.ok original, self), put fs self.backupPath (some original)) := by
    rw [originalContent]
    cases hr : plan (.read self.path) with
    | some f => simp [disk_read, hr]
    | none =>
      cases hp : fs self.path with
      | none =>
        have ho : original = [] := by simp only [original, hp, Option.getD_none]
        rw [ho]
        cases hw : plan (.write self.backupPath []) <;>
          simp [disk_read, disk_write, hr, hp, hw, readResult]
      | some c =>
        have ho : original = c := by simp only [original, hp, Option.getD_some]
        rw [ho]
        cases hw : plan (.write self.backupPath c) <;>
          simp [disk_read, disk_write, hr, hp, hw, readResult]
  rw [StaticBackend.set]
  cases hr : plan (.read self.path) with
  | some f => simp [hnew, horig, hr]
  | none =>
    cases hb : plan (.write self.backupPath original) with
    | some f => simp [hnew, horig, hr, hb]
    | none =>
      cases hw : plan (.write self.path text) <;> simp [hnew, horig, hr, hb, disk_write, hw, text]

end DnsAnnounce.StaticFaults
