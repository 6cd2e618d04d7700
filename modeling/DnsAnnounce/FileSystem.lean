import DnsAnnounce.Effect
import DnsAnnounce.Utf8
import Mathlib.Logic.Function.Basic

namespace DnsAnnounce.FileSystem

open DnsAnnounce.Utf8 DnsAnnounce.Effect

abbrev PathBuf := Text

def join (base p : PathBuf) : PathBuf :=
  if p.head? = some '/' then p
  else if base.getLast?.getD '/' = '/' then base ++ p
  else base ++ '/' :: p

/-- Regular files only: a path holds its content or nothing. -/
abbrev Fs := PathBuf → Option Bytes

/-- `io::ErrorKind`, as far as it is told apart. -/
inductive ErrorKind
  | NotFound
  | InvalidData
  | Other
  deriving DecidableEq

inductive FsCall
  | readToString (path : PathBuf)
  | read (path : PathBuf)
  | pathExists (path : PathBuf)
  | write (path : PathBuf) (contents : Bytes)
  | removeFile (path : PathBuf)
  deriving DecidableEq

def FsCall.Reads : FsCall → Prop
  | .readToString _ | .read _ | .pathExists _ => True
  | .write _ _ | .removeFile _ => False

def FsResp : FsCall → Type
  | .readToString _ => Except ErrorKind Text
  | .read _ => Except ErrorKind Bytes
  | .pathExists _ => Bool
  | .write _ _ | .removeFile _ => Except ErrorKind Unit

abbrev FsProg (α : Type) := Prog FsCall FsResp α

def readToString (path : PathBuf) : FsProg (Except ErrorKind Text) := .perform (FsCall.readToString path)

def read (path : PathBuf) : FsProg (Except ErrorKind Bytes) := .perform (FsCall.read path)

def pathExists (path : PathBuf) : FsProg Bool := .perform (FsCall.pathExists path)

def write (path : PathBuf) (contents : Bytes) : FsProg (Except ErrorKind Unit) :=
  .perform (FsCall.write path contents)

def removeFile (path : PathBuf) : FsProg (Except ErrorKind Unit) := .perform (FsCall.removeFile path)

def put (fs : Fs) (path : PathBuf) (content : Option Bytes) : Fs := Function.update fs path content

def readResult (content : Option Bytes) : Except ErrorKind Bytes :=
  match content with
  | none => .error .NotFound
  | some bytes => .ok bytes

def readTextResult (content : Option Bytes) : Except ErrorKind Text :=
  match content with
  | none => .error .NotFound
  | some bytes => match decode bytes with
    | none => .error .InvalidData
    | some text => .ok text

def fsHandler : Handler FsCall FsResp Fs
  | .readToString path, fs => (readTextResult (fs path), fs)
  | .read path, fs => (readResult (fs path), fs)
  | .pathExists path, fs => ((fs path).isSome, fs)
  | .write path contents, fs => (.ok (), put fs path (some contents))
  | .removeFile path, fs => match fs path with
    | none => (.error .NotFound, fs)
    | some _ => (.ok (), put fs path none)

/-- A write that stopped half-way: the file has been created or truncated and
holds the first `j` bytes. No other call leaves anything half done. -/
def tear : FsCall → Nat → Fs → Fs
  | .write path contents, j, fs => put fs path (some (contents.take j))
  | _, _, fs => fs

/-- An I/O error. A failing write may have got as far as `written` says. -/
structure FsFault where
  written : Option Nat

def fsFail : (c : FsCall) → FsFault → Fs → FsResp c × Fs
  | .readToString _, _, fs => (.error .Other, fs)
  | .read _, _, fs => (.error .Other, fs)
  | .pathExists _, _, fs => (false, fs)
  | .write path contents, f, fs =>
    (.error .Other, match f.written with
      | none => fs
      | some j => tear (.write path contents) j fs)
  | .removeFile _, _, fs => (.error .Other, fs)

@[simp] theorem put_self (fs : Fs) (path : PathBuf) (content : Option Bytes) :
    put fs path content path = content := Function.update_self ..

theorem put_other (fs : Fs) {path p : PathBuf} (h : p ≠ path) (content : Option Bytes) :
    put fs path content p = fs p := Function.update_of_ne h ..

@[simp] theorem put_put (fs : Fs) (path : PathBuf) (a b : Option Bytes) :
    put (put fs path a) path b = put fs path b := Function.update_idem ..

@[simp] theorem put_get (fs : Fs) (path : PathBuf) : put fs path (fs path) = fs :=
  Function.update_eq_self ..

section Calls

variable (fs : Fs) (path : PathBuf) (contents : Bytes)

@[simp] theorem exec_readToString :
    exec fsHandler (readToString path) fs = (readTextResult (fs path), fs) := rfl

@[simp] theorem exec_read : exec fsHandler (read path) fs = (readResult (fs path), fs) := rfl

@[simp] theorem exec_pathExists :
    exec fsHandler (pathExists path) fs = ((fs path).isSome, fs) := rfl

@[simp] theorem exec_write :
    exec fsHandler (write path contents) fs = (.ok (), put fs path (some contents)) := rfl

theorem exec_removeFile :
    exec fsHandler (removeFile path) fs =
      ((match fs path with
        | none => .error .NotFound
        | some _ => .ok ()), put fs path none) := by
  change fsHandler (.removeFile path) fs = _
  cases h : fs path with
  | none =>
    have hp : put fs path none = fs := by rw [← h, put_get]
    simp only [fsHandler, h, hp]
    rfl
  | some b =>
    simp only [fsHandler, h]
    rfl

variable (R : FsCall → Fs → Fs → Prop)

@[simp] theorem steps_readToString :
    Steps fsHandler R (readToString path) fs ↔ R (.readToString path) fs fs := steps_perform ..

@[simp] theorem steps_read : Steps fsHandler R (read path) fs ↔ R (.read path) fs fs :=
  steps_perform ..

@[simp] theorem steps_pathExists :
    Steps fsHandler R (pathExists path) fs ↔ R (.pathExists path) fs fs := steps_perform ..

@[simp] theorem steps_write : Steps fsHandler R (write path contents) fs ↔
    R (.write path contents) fs (put fs path (some contents)) := steps_perform ..

@[simp] theorem steps_removeFile : Steps fsHandler R (removeFile path) fs ↔
    R (.removeFile path) fs (put fs path none) := by
  have h : (fsHandler (.removeFile path) fs).2 = put fs path none :=
    congrArg Prod.snd (exec_removeFile fs path)
  change R (.removeFile path) fs (fsHandler (.removeFile path) fs).2 ∧ True ↔ _
  rw [h, and_true]

end Calls

end DnsAnnounce.FileSystem
