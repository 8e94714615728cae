import Mathlib.Algebra.GroupWithZero.Nat
import Mathlib.Logic.Function.Basic
import Serctl.Lib.Prog

/-!
# The helper's files

The part of a directory that one native upload works on: the target entry, the private
partial file and the resume sidecar, with the operations that the transfer helper performs on
them and on its wire.

Every operation may fail with any message.  A failed write may have stored part of its bytes,
and a failed sync or sidecar replacement may have taken effect.  A crash keeps the directory
entries and the replaced sidecar, and of the partial file at least the bytes that were synced.
Other parties may put an entry where the target is missing; they leave the helper's private
files alone.
-/

namespace Serctl.Xfer

open Lib List

/-- What tells files apart. -/
structure FileIdentity where
  device : Nat
  inode : Nat
  deriving DecidableEq, Repr

/-- A file: its bytes, what a crash leaves of them, and what an open for private use checks. -/
structure File where
  data : List UInt8
  /-- How many leading bytes no crash can lose. -/
  synced : Nat
  /-- Nothing was changed since the last sync, so that a crash changes nothing either. -/
  clean : Bool
  isFile : Bool
  ownerOnly : Bool
  ownUser : Bool
  synced_le : synced ≤ data.length
  deriving DecidableEq, Repr

/-- What is known about a file. -/
structure Metadata where
  isFile : Bool
  ownerOnly : Bool
  ownUser : Bool
  identity : FileIdentity
  len : Nat
  deriving DecidableEq, Repr

/-- How far an upload has come. -/
inductive ResumeSidecarState where
  | receiving
  | committed
  deriving DecidableEq, Repr

/-- What is stored about an upload. -/
structure ResumeSidecar where
  schema : Nat
  transferId : String
  size : Nat
  sha256 : String
  resumeTokenHash : String
  durableOffset : Nat
  identity : FileIdentity
  state : ResumeSidecarState
  deriving DecidableEq, Repr

/-- What the sidecar file holds: the bytes of an interrupted first write do not parse. -/
inductive SidecarContent where
  | torn
  | sealed (record : ResumeSidecar)
  deriving DecidableEq, Repr

/-! ## The wire -/

/-- A piece of a file. -/
structure DataFrame where
  transferId : List UInt8
  offset : Nat
  payload : List UInt8
  deriving DecidableEq, Repr

/-- The control messages of an upload; `other` is any message that has no place in it. -/
inductive Control where
  | ready (chunk window durableOffset : Nat)
  | ack (confirmedOffset durableOffset receiverWindow : Nat)
  | commit
  | cancel
  | completed (size : Nat) (sha256 : String)
  | other
  deriving DecidableEq, Repr

/-- What a client sends. -/
inductive Frame where
  | data (frame : DataFrame)
  | control (control : Control)
  deriving DecidableEq, Repr

/-- What passes over the connection. -/
inductive WireEvent where
  | sent (control : Control)
  | received (frame : Frame)
  deriving DecidableEq, Repr

/-! ## The world -/

/-- The names that an upload uses. -/
inductive PathName where
  | target
  | part
  | sidecar
  deriving DecidableEq, Repr

/-- The directory and the wire.  `wire` lists the events newest first. -/
structure World where
  files : FileIdentity → File
  target : Option FileIdentity
  part : Option FileIdentity
  sidecar : Option (FileIdentity × SidecarContent)
  /-- The target entry was linked by a run. -/
  linked : Bool
  wire : List WireEvent

namespace World

/-- What a name stands for. -/
def entry (w : World) : PathName → Option FileIdentity
  | .target => w.target
  | .part => w.part
  | .sidecar => w.sidecar.map Prod.fst

/-- An identity that no entry has. -/
def Unused (w : World) (i : FileIdentity) : Prop :=
  w.target ≠ some i ∧ w.part ≠ some i ∧ w.sidecar.map Prod.fst ≠ some i

instance (w : World) (i : FileIdentity) : Decidable (w.Unused i) :=
  inferInstanceAs (Decidable (_ ∧ _ ∧ _))

/-- The world with another file. -/
def setFile (w : World) (i : FileIdentity) (f : File) : World :=
  { w with files := Function.update w.files i f }

/-- Something passes over the connection. -/
def log (w : World) (e : WireEvent) : World := { w with wire := e :: w.wire }

/-- What is known about a file. -/
def metadata (w : World) (i : FileIdentity) : Metadata :=
  let f := w.files i
  ⟨f.isFile, f.ownerOnly, f.ownUser, i, f.data.length⟩

section

variable (w : World) (i : FileIdentity) (f : File)

@[simp] theorem setFile_target : (w.setFile i f).target = w.target := rfl

@[simp] theorem setFile_part : (w.setFile i f).part = w.part := rfl

@[simp] theorem setFile_files_self : (w.setFile i f).files i = f := by
  simp [setFile]

end

theorem setFile_files_of_ne (w : World) {i j : FileIdentity} (f : File) (h : j ≠ i) :
    (w.setFile i f).files j = w.files j := by
  simp [setFile, h]

end World

namespace File

/-- A file that the helper has just created. -/
def created : File := ⟨[], 0, false, true, true, true, Nat.le_refl 0⟩

/-- Store bytes at a position; what was synced from there on no longer is. -/
def writeAt (f : File) (pos : Nat) (bytes : List UInt8) : File :=
  { f with
    data := f.data.take pos ++ List.replicate (pos - f.data.length) 0 ++ bytes ++
      f.data.drop (pos + bytes.length)
    synced := min f.synced pos
    clean := false
    synced_le := by
      simp only [List.length_append, List.length_take, List.length_replicate]
      omega }

/-- The file cut or filled up. -/
def setLen (f : File) (n : Nat) : File :=
  { f with
    data := f.data.take n ++ List.replicate (n - f.data.length) 0
    synced := min f.synced n
    clean := false
    synced_le := by
      simp only [List.length_append, List.length_take, List.length_replicate]
      omega }

/-- All bytes are durable. -/
def sync (f : File) : File :=
  { f with synced := f.data.length, clean := true, synced_le := Nat.le_refl _ }

/-- What a crash may leave: an unchanged file, or, of a file with unsynced changes, anything
    that still starts with the synced bytes. -/
def Survives (f g : File) : Prop :=
  (f.clean = true ∧ g = f) ∨
    (f.clean = false ∧ f.data.take f.synced <+: g.data ∧ f.synced ≤ g.synced)

instance (f g : File) : Decidable (f.Survives g) :=
  inferInstanceAs (Decidable (_ ∨ _))

/-- Writing at the end of a file appends. -/
theorem writeAt_length_data (f : File) (bytes : List UInt8) :
    (f.writeAt f.data.length bytes).data = f.data ++ bytes := by
  have hdrop : f.data.drop (f.data.length + bytes.length) = [] :=
    drop_eq_nil_of_le (Nat.le_add_right _ _)
  simp only [writeAt, take_length, Nat.sub_self, replicate_zero, append_nil, hdrop]

theorem writeAt_length_synced (f : File) (bytes : List UInt8) :
    (f.writeAt f.data.length bytes).synced = f.synced :=
  Nat.min_eq_left f.synced_le

/-- Cutting a file keeps its first bytes. -/
theorem setLen_take (f : File) {d n : Nat} (hn : d ≤ n) (hd : d ≤ f.data.length) :
    (f.setLen n).data.take d = f.data.take d := by
  have hlen : d ≤ (f.data.take n).length := by
    rw [length_take]
    omega
  rw [setLen, take_append_of_le_length hlen, take_take, Nat.min_eq_left hn]

end File

/-! ## Operations -/

/-- What an upload asks for. -/
inductive Op where
  /-- Take the exclusive transfer lock. -/
  | acquireGuard
  | ensureStillBound
  | ensureOriginalParentBound
  /-- Open the pinned parent directory and check who may change its entries. -/
  | openPinnedParent
  | entryExists (path : PathName)
  | openEntry (path : PathName)
  | createNew (path : PathName)
  | unlink (path : PathName)
  | syncParent
  | fstat (file : FileIdentity)
  /-- Read up to `len` bytes from the start of a file. -/
  | read (file : FileIdentity) (len : Nat)
  | seek (file : FileIdentity) (pos : Nat)
  | writeAt (file : FileIdentity) (pos : Nat) (bytes : List UInt8)
  | setLen (file : FileIdentity) (len : Nat)
  | syncFile (file : FileIdentity)
  | readSidecar
  | writeSidecar (record : ResumeSidecar)
  /-- Put a new sidecar in the place of the old one, atomically. -/
  | replaceSidecar (record : ResumeSidecar)
  /-- Link an open file to the target name; an existing entry is never replaced. -/
  | linkTarget (file : FileIdentity)
  | send (control : Control)
  | recv
  /-- Wait without end. -/
  | hang
  deriving DecidableEq, Repr

/-- The value of each operation; `acquireGuard` tells whether the lock was free. -/
@[reducible] def Val : Op → Type
  | .acquireGuard => Bool
  | .entryExists _ => Bool
  | .openEntry _ | .createNew _ => FileIdentity
  | .fstat _ => Metadata
  | .read _ _ => List UInt8
  | .readSidecar => SidecarContent
  | .recv => Option Frame
  | .hang => Empty
  | _ => Unit

/-- An operation answers with its value or with a message. -/
abbrev Ans (op : Op) : Type := Except String (Val op)

/-- What is open in a step: the faults, the identities that are allocated, the client's
    frames, the entries of other parties, and what a crash leaves of the partial file. -/
inductive Choice where
  | ok
  | fail (message : String)
  | busy
  | late (message : String)
  | short (stored : Nat) (message : String)
  | alloc (identity : FileIdentity)
  | lateAlloc (identity : FileIdentity) (message : String)
  | frame (frame : Option Frame)
  | foreign (identity : FileIdentity) (file : File)
  | keep (file : File)
  deriving DecidableEq, Repr

/-- An operation that succeeds with `a` and `w'`, or fails and changes nothing. -/
def settle {α : Type} (w : World) (a : α) (w' : World) : Choice → Option (Except String α × World)
  | .ok => some (.ok a, w')
  | .fail message => some (.error message, w)
  | _ => none

/-- An operation that can only fail. -/
def refuse {α : Type} (w : World) : Choice → Option (Except String α × World)
  | .fail message => some (.error message, w)
  | _ => none

/-- **What each operation does.** -/
def exec (w : World) : (op : Op) → Choice → Option (Ans op × World)
  | .acquireGuard, .busy => some (.ok false, w)
  | .acquireGuard, c => settle w true w c
  | .ensureStillBound, c => settle w () w c
  | .ensureOriginalParentBound, c => settle w () w c
  | .openPinnedParent, c => settle w () w c
  | .syncParent, c => settle w () w c
  | .entryExists path, c => settle w (w.entry path).isSome w c
  | .openEntry path, c =>
    match w.entry path with
    | some i => settle w i w c
    | none => refuse w c
  | .fstat i, c => settle w (w.metadata i) w c
  | .read i len, c => settle w ((w.files i).data.take len) w c
  | .seek _ _, c => settle w () w c
  | .createNew .part, .alloc i =>
    if w.part = none ∧ w.Unused i then
      some (.ok i, { w.setFile i File.created with part := some i })
    else none
  | .createNew .sidecar, .alloc i =>
    if w.sidecar = none ∧ w.Unused i then
      some (.ok i, { w.setFile i File.created with sidecar := some (i, .torn) })
    else none
  | .createNew _, c => refuse w c
  | .unlink .part, c =>
    match w.part with
    | some _ => settle w () { w with part := none } c
    | none => refuse w c
  | .unlink .sidecar, c =>
    match w.sidecar with
    | some _ => settle w () { w with sidecar := none } c
    | none => refuse w c
  | .unlink .target, c => refuse w c
  | .writeAt i pos bytes, .ok => some (.ok (), w.setFile i ((w.files i).writeAt pos bytes))
  | .writeAt i pos bytes, .short stored message =>
    some (.error message, w.setFile i ((w.files i).writeAt pos (bytes.take stored)))
  | .writeAt _ _ _, c => refuse w c
  | .setLen i len, c => settle w () (w.setFile i ((w.files i).setLen len)) c
  | .syncFile i, .late message => some (.error message, w.setFile i (w.files i).sync)
  | .syncFile i, c => settle w () (w.setFile i (w.files i).sync) c
  | .readSidecar, c =>
    match w.sidecar with
    | some (_, content) => settle w content w c
    | none => refuse w c
  | .writeSidecar record, c =>
    match w.sidecar with
    | some (i, _) => settle w () { w with sidecar := some (i, .sealed record) } c
    | none => refuse w c
  | .replaceSidecar record, .alloc i =>
    if w.Unused i then
      some (.ok (), { w.setFile i File.created with sidecar := some (i, .sealed record) })
    else none
  | .replaceSidecar record, .lateAlloc i message =>
    if w.Unused i then
      some (.error message, { w.setFile i File.created with sidecar := some (i, .sealed record) })
    else none
  | .replaceSidecar _, c => refuse w c
  | .linkTarget i, .ok =>
    if w.target = none then some (.ok (), { w with target := some i, linked := true }) else none
  | .linkTarget _, c => refuse w c
  | .send control, .late message => some (.error message, w.log (.sent control))
  | .send control, c => settle w () (w.log (.sent control)) c
  | .recv, .frame none => some (.ok none, w)
  | .recv, .frame (some f) => some (.ok (some f), w.log (.received f))
  | .recv, c => refuse w c
  | .hang, _ => none

/-! ### What each operation can do -/

/-- The operations that leave the world as it is. -/
def Op.isQuiet : Op → Bool
  | .acquireGuard | .ensureStillBound | .ensureOriginalParentBound | .openPinnedParent
  | .entryExists _ | .openEntry _ | .syncParent | .fstat _ | .read _ _ | .seek _ _
  | .readSidecar | .hang => true
  | _ => false

section Inversion

variable {w w' : World} {c : Choice}

-- every lemma below evaluates `exec` at one operation
attribute [local simp] exec

theorem settle_eq_some {α : Type} {b : Except String α} {v : α} {w1 : World}
    (h : settle w v w1 c = some (b, w')) :
    (b = .ok v ∧ w' = w1) ∨ ((∃ m, b = .error m) ∧ w' = w) := by
  cases c <;> simp only [settle, Option.some.injEq, Prod.mk.injEq, reduceCtorEq] at h
  · exact .inl ⟨h.1.symm, h.2.symm⟩
  · exact .inr ⟨⟨_, h.1.symm⟩, h.2.symm⟩

theorem refuse_eq_some {α : Type} {b : Except String α} (h : refuse w c = some (b, w')) :
    (∃ m, b = .error m) ∧ w' = w := by
  cases c <;> simp only [refuse, Option.some.injEq, Prod.mk.injEq, reduceCtorEq] at h
  exact ⟨⟨_, h.1.symm⟩, h.2.symm⟩

theorem exec_quiet {op : Op} {a : Ans op} (hq : op.isQuiet = true)
    (h : exec w op c = some (a, w')) : w' = w := by
  cases op <;> simp only [Op.isQuiet, Bool.false_eq_true] at hq
  case acquireGuard =>
    cases c <;> simp [exec, settle] at h <;> exact h.2.symm
  case hang => simp [exec] at h
  case openEntry path =>
    simp only [exec] at h
    split at h
    · rcases settle_eq_some h with ⟨-, rfl⟩ | ⟨-, rfl⟩ <;> rfl
    · exact (refuse_eq_some h).2
  case readSidecar =>
    simp only [exec] at h
    split at h
    · rcases settle_eq_some h with ⟨-, rfl⟩ | ⟨-, rfl⟩ <;> rfl
    · exact (refuse_eq_some h).2
  all_goals
    simp only [exec] at h
    rcases settle_eq_some h with ⟨-, rfl⟩ | ⟨-, rfl⟩ <;> rfl

/-- An answer that is an error came with no change. -/
def Refused {α : Type} (w : World) (a : Except String α) (w' : World) : Prop :=
  (∃ m, a = .error m) ∧ w' = w

theorem exec_entryExists {path : PathName} {b : Bool}
    (h : exec w (.entryExists path) c = some (.ok b, w')) : b = (w.entry path).isSome := by
  rcases settle_eq_some h with ⟨hb, -⟩ | ⟨⟨m, hm⟩, -⟩
  · exact Except.ok.inj hb
  · cases hm

variable {i : FileIdentity}

theorem exec_openEntry {path : PathName}
    (h : exec w (.openEntry path) c = some (.ok i, w')) : w.entry path = some i := by
  simp only [exec] at h
  split at h
  · rename_i j hj
    rcases settle_eq_some h with ⟨hi, -⟩ | ⟨⟨m, hm⟩, -⟩
    · rw [hj, Except.ok.inj hi]
    · cases hm
  · obtain ⟨⟨m, hm⟩, -⟩ := refuse_eq_some h
    cases hm

theorem exec_fstat {metadata : Metadata}
    (h : exec w (.fstat i) c = some (.ok metadata, w')) : metadata = w.metadata i := by
  rcases settle_eq_some h with ⟨hm, -⟩ | ⟨⟨m, hm⟩, -⟩
  · exact Except.ok.inj hm
  · cases hm

theorem exec_read {len : Nat} {bytes : List UInt8}
    (h : exec w (.read i len) c = some (.ok bytes, w')) : bytes = (w.files i).data.take len := by
  rcases settle_eq_some h with ⟨hb, -⟩ | ⟨⟨m, hm⟩, -⟩
  · exact Except.ok.inj hb
  · cases hm

theorem exec_readSidecar {content : SidecarContent}
    (h : exec w .readSidecar c = some (.ok content, w')) :
    ∃ i, w.sidecar = some (i, content) := by
  simp only [exec] at h
  split at h
  · rename_i i content' hi
    rcases settle_eq_some h with ⟨hc, -⟩ | ⟨⟨m, hm⟩, -⟩
    · exact ⟨i, by rw [hi, Except.ok.inj hc]⟩
    · cases hm
  · obtain ⟨⟨m, hm⟩, -⟩ := refuse_eq_some h
    cases hm

theorem exec_createNew_part {a : Ans (.createNew .part)}
    (h : exec w (.createNew .part) c = some (a, w')) :
    (∃ i, a = .ok i ∧ w.part = none ∧ w.Unused i ∧
      w' = { w.setFile i File.created with part := some i }) ∨ Refused w a w' := by
  cases c
  case alloc i =>
    simp only [exec] at h
    split at h
    · rename_i hcond
      cases h
      exact .inl ⟨i, rfl, hcond.1, hcond.2, rfl⟩
    · cases h
  all_goals
    simp only [exec] at h
    exact .inr (refuse_eq_some h)

theorem exec_createNew_sidecar {a : Ans (.createNew .sidecar)}
    (h : exec w (.createNew .sidecar) c = some (a, w')) :
    (∃ i, a = .ok i ∧ w.sidecar = none ∧ w.Unused i ∧
      w' = { w.setFile i File.created with sidecar := some (i, .torn) }) ∨ Refused w a w' := by
  cases c
  case alloc i =>
    simp only [exec] at h
    split at h
    · rename_i hcond
      cases h
      exact .inl ⟨i, rfl, hcond.1, hcond.2, rfl⟩
    · cases h
  all_goals
    simp only [exec] at h
    exact .inr (refuse_eq_some h)

theorem exec_unlink_part {a : Ans (.unlink .part)}
    (h : exec w (.unlink .part) c = some (a, w')) :
    (a = .ok () ∧ w' = { w with part := none }) ∨ Refused w a w' := by
  simp only [exec] at h
  split at h
  · exact settle_eq_some h
  · exact .inr (refuse_eq_some h)

theorem exec_unlink_sidecar {a : Ans (.unlink .sidecar)}
    (h : exec w (.unlink .sidecar) c = some (a, w')) :
    (a = .ok () ∧ w' = { w with sidecar := none }) ∨ Refused w a w' := by
  simp only [exec] at h
  split at h
  · exact settle_eq_some h
  · exact .inr (refuse_eq_some h)

theorem exec_writeAt {pos : Nat} {bytes : List UInt8}
    {a : Ans (.writeAt i pos bytes)} (h : exec w (.writeAt i pos bytes) c = some (a, w')) :
    (a = .ok () ∧ w' = w.setFile i ((w.files i).writeAt pos bytes)) ∨
      (∃ m n, a = .error m ∧ w' = w.setFile i ((w.files i).writeAt pos (bytes.take n))) ∨
      Refused w a w' := by
  cases c
  case ok =>
    cases h
    exact .inl ⟨rfl, rfl⟩
  case short n m =>
    cases h
    exact .inr (.inl ⟨m, n, rfl, rfl⟩)
  all_goals
    simp only [exec] at h
    exact .inr (.inr (refuse_eq_some h))

theorem exec_setLen {len : Nat} {a : Ans (.setLen i len)}
    (h : exec w (.setLen i len) c = some (a, w')) :
    (a = .ok () ∧ w' = w.setFile i ((w.files i).setLen len)) ∨ Refused w a w' :=
  settle_eq_some h

theorem exec_syncFile {a : Ans (.syncFile i)} (h : exec w (.syncFile i) c = some (a, w')) :
    (w' = w.setFile i (w.files i).sync) ∨ Refused w a w' := by
  cases c
  case late m =>
    cases h
    exact .inl rfl
  all_goals
    simp only [exec] at h
    rcases settle_eq_some h with ⟨-, hw⟩ | hr
    · exact .inl hw
    · exact .inr hr

theorem exec_writeSidecar {record : ResumeSidecar} {a : Ans (.writeSidecar record)}
    (h : exec w (.writeSidecar record) c = some (a, w')) :
    (∃ i content, w.sidecar = some (i, content) ∧ a = .ok () ∧
      w' = { w with sidecar := some (i, .sealed record) }) ∨ Refused w a w' := by
  simp only [exec] at h
  split at h
  · rename_i i content hi
    rcases settle_eq_some h with ⟨ha, hw⟩ | hr
    · exact .inl ⟨i, content, hi, ha, hw⟩
    · exact .inr hr
  · exact .inr (refuse_eq_some h)

theorem exec_replaceSidecar {record : ResumeSidecar} {a : Ans (.replaceSidecar record)}
    (h : exec w (.replaceSidecar record) c = some (a, w')) :
    (∃ i, w.Unused i ∧
      w' = { w.setFile i File.created with sidecar := some (i, .sealed record) }) ∨
      Refused w a w' := by
  cases c
  case alloc i =>
    simp only [exec] at h
    split at h
    · cases h
      exact .inl ⟨i, by assumption, rfl⟩
    · cases h
  case lateAlloc i m =>
    simp only [exec] at h
    split at h
    · cases h
      exact .inl ⟨i, by assumption, rfl⟩
    · cases h
  all_goals
    simp only [exec] at h
    exact .inr (refuse_eq_some h)

theorem exec_linkTarget {a : Ans (.linkTarget i)} (h : exec w (.linkTarget i) c = some (a, w')) :
    (a = .ok () ∧ w.target = none ∧ w' = { w with target := some i, linked := true }) ∨
      Refused w a w' := by
  cases c
  case ok =>
    simp only [exec] at h
    split at h
    · cases h
      exact .inl ⟨rfl, by assumption, rfl⟩
    · cases h
  all_goals
    simp only [exec] at h
    exact .inr (refuse_eq_some h)

theorem exec_send {control : Control} {a : Ans (.send control)}
    (h : exec w (.send control) c = some (a, w')) :
    w' = w.log (.sent control) ∨ Refused w a w' := by
  cases c
  case late m =>
    cases h
    exact .inl rfl
  all_goals
    simp only [exec] at h
    rcases settle_eq_some h with ⟨-, hw⟩ | hr
    · exact .inl hw
    · exact .inr hr

theorem exec_recv {a : Ans .recv} (h : exec w .recv c = some (a, w')) :
    (∃ f, a = .ok (some f) ∧ w' = w.log (.received f)) ∨ (a = .ok none ∧ w' = w) ∨
      Refused w a w' := by
  cases c
  case frame f =>
    cases f with
    | none =>
      cases h
      exact .inr (.inl ⟨rfl, rfl⟩)
    | some f =>
      cases h
      exact .inl ⟨f, rfl, rfl⟩
  all_goals
    simp only [exec] at h
    exact .inr (.inr (refuse_eq_some h))

end Inversion

/-- Other parties may create an entry at the target name while there is none. -/
def interfere (w : World) : Choice → Option World
  | .foreign i file =>
    if w.target = none ∧ w.Unused i then some { w.setFile i file with target := some i }
    else none
  | _ => none

/-- A crash leaves of the partial file what its syncs have secured. -/
def afterCrash (w : World) : Choice → Option World
  | .ok => if w.part = none then some w else none
  | .keep file =>
    match w.part with
    | some i => if (w.files i).Survives file then some (w.setFile i file) else none
    | none => none
  | _ => none

/-- What the operations, the other parties and a crash do. -/
def xferSystem : System World Op Ans Choice where
  exec := exec
  env := interfere
  crash := afterCrash

end Serctl.Xfer
