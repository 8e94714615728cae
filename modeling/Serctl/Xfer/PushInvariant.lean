import Serctl.Lib.Pool
import Serctl.Xfer.Push

/-!
# Invariants of an upload

What holds of the helper's files at every point of every sequence of runs for one upload, and
why each operation of a run keeps it.

`Intact` is about the target: an entry that a run has linked is the declared file, and a file
that the target and the partial name share has no unsynced change.  `Durable` is about resumable
uploads: what the sidecar records as durable is a synced prefix of the file, and that prefix is
what the client has sent.
-/

namespace Serctl.Xfer

open Lib List World

/-! ## The wire -/

/-- The bytes that the client has sent in order, by the events so far (newest first).  The
    helper's `ready` tells the client where to go on; a data frame counts if it belongs to the
    transfer and starts where the bytes so far end. -/
def sourceBytes (idBytes : List UInt8) : List WireEvent → List UInt8
  | [] => []
  | .sent (.ready _ _ durable) :: wire => (sourceBytes idBytes wire).take durable
  | .received (.data f) :: wire =>
    if f.transferId = idBytes ∧ f.offset = (sourceBytes idBytes wire).length then
      sourceBytes idBytes wire ++ f.payload
    else sourceBytes idBytes wire
  | _ :: wire => sourceBytes idBytes wire

/-- The offsets of the newest `ready` or acknowledgement. -/
def lastOffsets : List WireEvent → Option (Nat × Nat)
  | [] => none
  | .sent (.ready _ _ durable) :: _ => some (durable, durable)
  | .sent (.ack confirmed durable _) :: _ => some (confirmed, durable)
  | _ :: wire => lastOffsets wire

/-- `confirmed` and `durable` are in range and not below the newest offsets on the wire. -/
def AckFits (size : Nat) (wire : List WireEvent) (confirmed durable : Nat) : Prop :=
  durable ≤ confirmed ∧ confirmed ≤ size ∧
    ∀ confirmed' durable', lastOffsets wire = some (confirmed', durable') →
      confirmed' ≤ confirmed ∧ durable' ≤ durable

/-- Every acknowledgement on the wire is in range and, within its run, not below the one before
    it. -/
def AcksOrdered (size : Nat) : List WireEvent → Prop
  | [] => True
  | .sent (.ack confirmed durable _) :: wire =>
    AcksOrdered size wire ∧ AckFits size wire confirmed durable
  | _ :: wire => AcksOrdered size wire

/-- The durable offset that an event tells the client. -/
def WireEvent.announced : WireEvent → Option Nat
  | .sent (.ready _ _ durable) => some durable
  | .sent (.ack _ durable _) => some durable
  | _ => none

/-- The durable offsets that the client was told, newest first and over all runs. -/
def announcements (wire : List WireEvent) : List Nat := wire.filterMap WireEvent.announced

/-- A frame that arrives does not change what was sent before it. -/
theorem take_sourceBytes_received {idBytes : List UInt8} {wire : List WireEvent} {f : Frame}
    {d : Nat} (hd : d ≤ (sourceBytes idBytes wire).length) :
    (sourceBytes idBytes (.received f :: wire)).take d = (sourceBytes idBytes wire).take d := by
  cases f with
  | control c => rfl
  | data f =>
    simp only [sourceBytes]
    split
    · exact take_append_of_le_length hd
    · rfl

/-! ## The invariants -/

/-- A file with the declared size and digest. -/
def Verified (env : HelperEnv) (u : Upload) (f : File) : Prop :=
  f.data.length = u.size ∧ env.digest f.data = u.expectedSha256

/-- The target as the runs leave it. -/
structure Intact (env : HelperEnv) (u : Upload) (w : World) : Prop where
  linked : w.linked = true → ∃ i, w.target = some i ∧ Verified env u (w.files i)
  /-- A file that has both names is not being written. -/
  settled : ∀ i, w.target = some i → w.part = some i → (w.files i).clean = true

/-- The file that a sidecar record is about: it has the partial name or, once committed, the
    target name.  A record whose file is gone is about an empty file. -/
def World.recordedFile (w : World) (r : ResumeSidecar) : File :=
  if w.part = some r.identity ∨ w.target = some r.identity then w.files r.identity
  else File.created

/-- The offset that the sidecar records; without a record it is zero. -/
def World.recordedOffset (w : World) : Nat :=
  match w.sidecar with
  | some (_, .sealed r) => r.durableOffset
  | _ => 0

/-- The sidecar holds a record with this offset. -/
def HasRecord (w : World) (durable : Nat) : Prop :=
  ∃ j r, w.sidecar = some (j, .sealed r) ∧ r.durableOffset = durable

theorem recordedOffset_of_sealed {w : World} {j : FileIdentity} {r : ResumeSidecar}
    (h : w.sidecar = some (j, .sealed r)) : w.recordedOffset = r.durableOffset := by
  rw [recordedOffset, h]

theorem HasRecord.recordedOffset {w : World} {durable : Nat} (h : HasRecord w durable) :
    w.recordedOffset = durable := by
  obtain ⟨j, r, hj, hr⟩ := h
  rw [recordedOffset_of_sealed hj, hr]

theorem recordedOffset_eq_zero {w : World}
    (h : ∀ j r, w.sidecar = some (j, .sealed r) → r.durableOffset = 0) : w.recordedOffset = 0 := by
  unfold recordedOffset
  split
  · rename_i hj
    exact h _ _ hj
  · rfl

/-- What a sidecar record promises. -/
structure Recorded (u : Upload) (w : World) (r : ResumeSidecar) : Prop where
  le_size : r.durableOffset ≤ u.size
  le_synced : r.durableOffset ≤ (w.recordedFile r).synced
  isPrefix : (w.recordedFile r).data.take r.durableOffset =
    (sourceBytes u.transferIdBytes w.wire).take r.durableOffset

/-- The sidecar and the wire of a resumable upload. -/
structure Durable (u : Upload) (w : World) : Prop where
  recorded : ∀ j r, w.sidecar = some (j, .sealed r) → Recorded u w r
  /-- The record is about the partial file, as long as there is one. -/
  bound : ∀ j r i, w.sidecar = some (j, .sealed r) → w.part = some i → r.identity = i
  acks : AcksOrdered u.size w.wire
  /-- No run takes back what the client was told before. -/
  announced : ∀ d ∈ announcements w.wire, d ≤ w.recordedOffset
  ordered : (announcements w.wire).Pairwise (· ≥ ·)

variable {r : ResumeSidecar} {i : FileIdentity} {w' : World}

/-- The client has sent at least what is recorded as durable. -/
theorem Recorded.le_source {u : Upload} {w : World} (h : Recorded u w r) :
    r.durableOffset ≤ (sourceBytes u.transferIdBytes w.wire).length := by
  have hlen : ((w.recordedFile r).data.take r.durableOffset).length = r.durableOffset := by
    rw [length_take]
    exact Nat.min_eq_left (h.le_synced.trans (w.recordedFile r).synced_le)
  rw [h.isPrefix, length_take] at hlen
  omega

/-- A record of nothing promises nothing. -/
theorem Recorded.of_zero {u : Upload} {w : World} (h : r.durableOffset = 0) : Recorded u w r := by
  refine ⟨?_, ?_, ?_⟩
  · rw [h]; exact Nat.zero_le _
  · rw [h]; exact Nat.zero_le _
  · rw [h, take_zero, take_zero]

/-- A record keeps its promise in a world where its file has kept the durable prefix and the
    client's bytes have. -/
theorem Recorded.transfer {u : Upload} {w w' : World} (h : Recorded u w r)
    (hsynced : r.durableOffset ≤ (w'.recordedFile r).synced)
    (hdata : (w'.recordedFile r).data.take r.durableOffset =
      (w.recordedFile r).data.take r.durableOffset)
    (hwire : (sourceBytes u.transferIdBytes w'.wire).take r.durableOffset =
      (sourceBytes u.transferIdBytes w.wire).take r.durableOffset) : Recorded u w' r :=
  ⟨h.le_size, hsynced, by rw [hdata, hwire, h.isPrefix]⟩

theorem recordedFile_setFile (w : World) (r : ResumeSidecar) (i : FileIdentity) (f : File) :
    (w.setFile i f).recordedFile r = w.recordedFile r ∨
      (r.identity = i ∧ (w.part = some i ∨ w.target = some i) ∧
        w.recordedFile r = w.files i ∧ (w.setFile i f).recordedFile r = f) := by
  by_cases hi : r.identity = i
  · subst hi
    by_cases hnamed : w.part = some r.identity ∨ w.target = some r.identity
    · exact .inr ⟨rfl, hnamed, if_pos hnamed,
        (if_pos hnamed).trans (w.setFile_files_self _ _)⟩
    · exact .inl ((if_neg hnamed).trans (if_neg hnamed).symm)
  · left
    simp only [recordedFile, setFile_part, setFile_target,
      setFile_files_of_ne w f hi]

/-- A record survives a change of a file that keeps the durable prefix. -/
theorem Recorded.setFile {u : Upload} {w : World} (h : Recorded u w r) {f : File}
    (hf : r.identity = i → r.durableOffset ≤ (w.files i).synced → r.durableOffset ≤ f.synced ∧
      f.data.take r.durableOffset = (w.files i).data.take r.durableOffset) :
    Recorded u (w.setFile i f) r := by
  rcases recordedFile_setFile w r i f with hsame | ⟨hi, -, hold, hnew⟩
  · exact h.transfer (hsame ▸ h.le_synced) (by rw [hsame]) rfl
  · obtain ⟨hsynced, hdata⟩ := hf hi (hold ▸ h.le_synced)
    exact h.transfer (by rw [hnew]; exact hsynced) (by rw [hnew, hold, hdata]) rfl

/-- A file that no entry names is not recorded. -/
theorem Recorded.setFile_unused {u : Upload} {w : World}
    (h : Recorded u w r) (hi : w.Unused i) (f : File) :
    Recorded u (w.setFile i f) r := by
  rcases recordedFile_setFile w r i f with hsame | ⟨-, hpart | htarget, -⟩
  · exact h.transfer (hsame ▸ h.le_synced) (by rw [hsame]) rfl
  · exact absurd hpart hi.2.1
  · exact absurd htarget hi.1

namespace Durable

variable {u : Upload} {w : World}

section

variable (h : Durable u w)

include h

/-- Appending to a file, cutting it above what is recorded and syncing it keep the records. -/
theorem setFile {f : File} (hf : ∀ j r, w.sidecar = some (j, .sealed r) → r.identity = i →
      r.durableOffset ≤ (w.files i).synced → r.durableOffset ≤ f.synced ∧
        f.data.take r.durableOffset = (w.files i).data.take r.durableOffset) :
    Durable u (w.setFile i f) where
  recorded j r hr := (h.recorded j r hr).setFile (hf j r hr)
  bound := h.bound
  acks := h.acks
  announced := h.announced
  ordered := h.ordered

theorem append (i : FileIdentity) (bytes : List UInt8) :
    Durable u (w.setFile i ((w.files i).writeAt (w.files i).data.length bytes)) := by
  refine h.setFile fun _ r _ _ hsynced => ?_
  rw [File.writeAt_length_data, File.writeAt_length_synced]
  exact ⟨hsynced, take_append_of_le_length (hsynced.trans (w.files i).synced_le)⟩

theorem cut (i : FileIdentity) {n : Nat}
    (hn : ∀ j r, w.sidecar = some (j, .sealed r) → r.durableOffset ≤ n) :
    Durable u (w.setFile i ((w.files i).setLen n)) := by
  refine h.setFile fun j r hr _ hsynced => ?_
  refine ⟨Nat.le_min.mpr ⟨hsynced, hn j r hr⟩, ?_⟩
  exact (w.files i).setLen_take (hn j r hr) (hsynced.trans (w.files i).synced_le)

theorem sync (i : FileIdentity) : Durable u (w.setFile i (w.files i).sync) :=
  h.setFile fun _ _ _ _ hsynced => ⟨hsynced.trans (w.files i).synced_le, rfl⟩

/-- Where no sidecar holds a record, only the wire matters: no more than zero was told. -/
theorem of_no_record (hnone : ∀ j r, w'.sidecar ≠ some (j, .sealed r)) (hwire : w'.wire = w.wire)
    (hzero : ∀ j r, w.sidecar = some (j, .sealed r) → r.durableOffset = 0) :
    Durable u w' where
  recorded j r hr := absurd hr (hnone j r)
  bound j r _ hr := absurd hr (hnone j r)
  acks := hwire ▸ h.acks
  announced d hd := by
    rw [hwire] at hd
    have hle := h.announced d hd
    rw [recordedOffset_eq_zero hzero] at hle
    exact hle.trans (Nat.zero_le _)
  ordered := hwire ▸ h.ordered

/-- A new record in the sidecar, with no smaller offset. -/
theorem record (hw' : w'.sidecar = some (i, .sealed r)) (hwire : w'.wire = w.wire)
    (hrecorded : Recorded u w' r) (hbound : ∀ k, w'.part = some k → r.identity = k)
    (hgrows : w.recordedOffset ≤ r.durableOffset) :
    Durable u w' where
  recorded j r' hr' := by
    rw [hw'] at hr'
    cases hr'
    exact hrecorded
  bound j r' k hr' hk := by
    rw [hw'] at hr'
    cases hr'
    exact hbound k hk
  acks := hwire ▸ h.acks
  announced d hd := by
    rw [hwire] at hd
    rw [recordedOffset_of_sealed hw']
    exact (h.announced d hd).trans hgrows
  ordered := hwire ▸ h.ordered

/-- A record that differs from the one in place in its state only promises the same. -/
theorem restate {j : FileIdentity} {r r' : ResumeSidecar}
    (hj : w.sidecar = some (j, .sealed r)) (hdurable : r'.durableOffset = r.durableOffset)
    (hidentity : r'.identity = r.identity) :
    Recorded u w r' ∧ (∀ k, w.part = some k → r'.identity = k) ∧
      w.recordedOffset ≤ r'.durableOffset := by
  have hrec := h.recorded j r hj
  have hfile : w.recordedFile r' = w.recordedFile r := by
    rw [recordedFile, recordedFile, hidentity]
  refine ⟨⟨?_, ?_, ?_⟩, fun k hk => ?_, ?_⟩
  · rw [hdurable]
    exact hrec.le_size
  · rw [hdurable, hfile]
    exact hrec.le_synced
  · rw [hdurable, hfile]
    exact hrec.isPrefix
  · rw [hidentity]
    exact h.bound j r k hj hk
  · rw [recordedOffset_of_sealed hj, hdurable]

/-- The recorded offset may be told: it is not below what was told before. -/
theorem announce {durable : Nat} (hrecord : HasRecord w durable) :
    (∀ d ∈ durable :: announcements w.wire, d ≤ w.recordedOffset) ∧
      (durable :: announcements w.wire).Pairwise (· ≥ ·) := by
  have hle : ∀ d ∈ announcements w.wire, d ≤ durable := hrecord.recordedOffset ▸ h.announced
  exact ⟨forall_mem_cons.mpr ⟨hrecord.recordedOffset.ge, h.announced⟩,
    pairwise_cons.mpr ⟨hle, h.ordered⟩⟩

/-- The client's bytes start anew from what is recorded. -/
theorem log_ready {chunk window durable : Nat} (hrecord : HasRecord w durable) :
    Durable u (w.log (.sent (.ready chunk window durable))) where
  recorded j r hr := by
    refine (h.recorded j r hr).transfer (h.recorded j r hr).le_synced rfl ?_
    change ((sourceBytes _ w.wire).take durable).take r.durableOffset = _
    have hoffset : r.durableOffset = durable :=
      (recordedOffset_of_sealed hr).symm.trans hrecord.recordedOffset
    rw [take_take, Nat.min_eq_left hoffset.le]
  bound := h.bound
  acks := h.acks
  announced := (h.announce hrecord).1
  ordered := (h.announce hrecord).2

theorem log_ack {confirmed durable window : Nat} (hrecord : HasRecord w durable)
    (hfits : AckFits u.size w.wire confirmed durable) :
    Durable u (w.log (.sent (.ack confirmed durable window))) where
  recorded j r hr :=
    (h.recorded j r hr).transfer (h.recorded j r hr).le_synced rfl rfl
  bound := h.bound
  acks := ⟨h.acks, hfits⟩
  announced := (h.announce hrecord).1
  ordered := (h.announce hrecord).2

theorem log_completed {size : Nat} {sha256 : String} :
    Durable u (w.log (.sent (.completed size sha256))) where
  recorded j r hr :=
    (h.recorded j r hr).transfer (h.recorded j r hr).le_synced rfl rfl
  bound := h.bound
  acks := h.acks
  announced := h.announced
  ordered := h.ordered

theorem log_received (f : Frame) : Durable u (w.log (.received f)) where
  recorded j r hr :=
    (h.recorded j r hr).transfer (h.recorded j r hr).le_synced rfl
      (take_sourceBytes_received (h.recorded j r hr).le_source)
  bound := h.bound
  acks := h.acks
  announced := h.announced
  ordered := h.ordered

/-- The partial name may go if the target name keeps the recorded file, or if nothing is
    recorded. -/
theorem unlink
    (hkeep : ∀ j r, w.sidecar = some (j, .sealed r) → r.durableOffset = 0 ∨ w.target = w.part) :
    Durable u { w with part := none } where
  recorded j r hr := by
    rcases hkeep j r hr with hzero | htarget
    · exact .of_zero hzero
    · have hsame : recordedFile { w with part := none } r = w.recordedFile r := by
        simp only [recordedFile, htarget, or_self, reduceCtorEq, false_or]
      have hrec := h.recorded j r hr
      exact hrec.transfer (hsame ▸ hrec.le_synced) (by rw [hsame]) rfl
  bound j r i _ hi := by cases hi
  acks := h.acks
  announced := h.announced
  ordered := h.ordered

/-- Linking the partial file to the target name moves no record. -/
theorem link (hpart : w.part = some i) (htarget : w.target = none) :
    Durable u { w with target := some i, linked := true } where
  recorded j r hr := by
    have hsame : recordedFile { w with target := some i, linked := true } r =
        w.recordedFile r := by
      simp only [recordedFile, hpart, htarget, or_self, reduceCtorEq, or_false]
    have hrec := h.recorded j r hr
    exact hrec.transfer (hsame ▸ hrec.le_synced) (by rw [hsame]) rfl
  bound := h.bound
  acks := h.acks
  announced := h.announced
  ordered := h.ordered

end

end Durable

namespace Intact

variable {env : HelperEnv} {u : Upload} {w : World}

/-- A file that the target does not name may change. -/
theorem setFile (h : Intact env u w) (f : File) (hi : w.target ≠ some i) :
    Intact env u (w.setFile i f) where
  linked hl := by
    obtain ⟨t, ht, hv⟩ := h.linked hl
    have hne : t ≠ i := fun he => hi (he ▸ ht)
    refine ⟨t, ht, ?_⟩
    rw [setFile_files_of_ne w f hne]
    exact hv
  settled t ht hp := by
    have hne : t ≠ i := fun he => hi (he ▸ ht)
    rw [setFile_files_of_ne w f hne]
    exact h.settled t ht hp

/-- Any file may be synced. -/
theorem sync (h : Intact env u w) (i : FileIdentity) :
    Intact env u (w.setFile i (w.files i).sync) where
  linked hl := by
    obtain ⟨t, ht, hv⟩ := h.linked hl
    refine ⟨t, ht, ?_⟩
    by_cases hti : t = i
    · subst hti
      rw [setFile_files_self]
      exact hv
    · rw [setFile_files_of_ne w _ hti]
      exact hv
  settled t ht hp := by
    by_cases hti : t = i
    · subst hti
      rw [setFile_files_self]
      rfl
    · rw [setFile_files_of_ne w _ hti]
      exact h.settled t ht hp

/-- The invariant does not look at the sidecar or the wire. -/
theorem of_eq (h : Intact env u w) (hfiles : w'.files = w.files)
    (htarget : w'.target = w.target) (hpart : w'.part = w.part ∨ w'.part = none)
    (hlinked : w'.linked = w.linked) : Intact env u w' where
  linked hl := by
    rw [htarget, hfiles]
    exact h.linked (hlinked ▸ hl)
  settled t ht hp := by
    rw [hfiles]
    rw [htarget] at ht
    rcases hpart with hsame | hnone
    · exact h.settled t ht (hsame ▸ hp)
    · rw [hnone] at hp
      cases hp

/-- A verified file without unsynced changes may be linked to the target name. -/
theorem link (hv : Verified env u (w.files i)) (hclean : (w.files i).clean = true) :
    Intact env u { w with target := some i, linked := true } where
  linked _ := ⟨i, rfl, hv⟩
  settled t ht _ := by
    cases ht
    exact hclean

end Intact

/-! ## The contract of a run -/

/-- What other parties may do: put an entry where the target is missing. -/
def Interfered (w w' : World) : Prop :=
  w' = w ∨ (w.target = none ∧ ∃ i f, w.Unused i ∧ w' = { w.setFile i f with target := some i })

theorem interfered_trans {w1 w2 w3 : World} (h1 : Interfered w1 w2) (h2 : Interfered w2 w3) :
    Interfered w1 w3 := by
  rcases h1 with rfl | ⟨hnone, i, f, hi, rfl⟩
  · exact h2
  · rcases h2 with rfl | ⟨hnone2, -⟩
    · exact .inr ⟨hnone, i, f, hi, rfl⟩
    · cases hnone2

/-- A target entry stays, and its bytes stay. -/
def TargetKept (w w' : World) : Prop :=
  ∀ i, w.target = some i → w'.target = some i ∧ (w'.files i).data = (w.files i).data

theorem TargetKept.refl (w : World) : TargetKept w w := fun _ h => ⟨h, rfl⟩

theorem TargetKept.trans {w1 w2 w3 : World} (h1 : TargetKept w1 w2) (h2 : TargetKept w2 w3) :
    TargetKept w1 w3 := by
  intro i hi
  obtain ⟨ht, hd⟩ := h1 i hi
  obtain ⟨ht', hd'⟩ := h2 i ht
  exact ⟨ht', hd'.trans hd⟩

theorem TargetKept.of_eq {w w' : World} (hfiles : w'.files = w.files)
    (htarget : w'.target = w.target) : TargetKept w w' :=
  fun i hi => ⟨htarget ▸ hi, by rw [hfiles]⟩

theorem TargetKept.setFile {w w' : World} {f : File}
    (hi : w.target ≠ some i) (hfiles : w'.files = (w.setFile i f).files)
    (htarget : w'.target = w.target) : TargetKept w w' := by
  intro t ht
  have hne : t ≠ i := fun he => hi (he ▸ ht)
  refine ⟨htarget ▸ ht, ?_⟩
  rw [hfiles, setFile_files_of_ne w f hne]

theorem TargetKept.sync (w : World) (i : FileIdentity) :
    TargetKept w (w.setFile i (w.files i).sync) := by
  intro t ht
  refine ⟨ht, ?_⟩
  by_cases hti : t = i
  · subst hti
    rw [setFile_files_self]
    rfl
  · rw [setFile_files_of_ne w _ hti]

/-- Where the messages of a run may be sent.  Completion is reported only for a verified
    target; in a resumable session every offset that is announced is recorded. -/
def SendOk (env : HelperEnv) (u : Upload) (resumable : Prop) (w : World) : Control → Prop
  | .completed size sha256 => size = u.size ∧ sha256 = u.expectedSha256 ∧
      ∃ i, w.target = some i ∧ Verified env u (w.files i)
  | .ready _ _ durable => resumable → HasRecord w durable
  | .ack confirmed durable _ => resumable →
      HasRecord w durable ∧ AckFits u.size w.wire confirmed durable
  | _ => True

theorem interfered_refl (w : World) : Interfered w w := .inl rfl

/-- The terms on which the runs for one upload operate.  `resumable` says that every run of the
    session asks for resumption. -/
def pushContract (env : HelperEnv) (u : Upload) (resumable : Prop) : Contract World Op where
  inv w := Intact env u w ∧ (resumable → Durable u w)
  rely := Interfered
  guar := TargetKept
  ok w
    | .send control => SendOk env u resumable w control
    | _ => True
  rely_refl := interfered_refl
  rely_trans := interfered_trans

/-- The contract of a run. -/
abbrev PushParams.contract (env : HelperEnv) (p : PushParams) (resumable : Prop) :
    Contract World Op :=
  pushContract env p.toUpload resumable

/-- What every step of an upload keeps. -/
abbrev Upload.Inv (env : HelperEnv) (u : Upload) (resumable : Prop) : World → Prop :=
  (pushContract env u resumable).inv

variable {env : HelperEnv} {u : Upload} {resumable : Prop}

/-- An entry put in the place of the missing target breaks nothing: its identity is unused. -/
theorem inv_interfered {w w' : World} (h : Interfered w w')
    (hinv : (pushContract env u resumable).inv w) : (pushContract env u resumable).inv w' := by
  rcases h with rfl | ⟨hnone, i, f, hi, rfl⟩
  · exact hinv
  · obtain ⟨hintact, hdurable⟩ := hinv
    refine ⟨⟨?_, ?_⟩, fun hr => ⟨?_, (hdurable hr).bound, (hdurable hr).acks,
      (hdurable hr).announced, (hdurable hr).ordered⟩⟩
    · intro hl
      obtain ⟨t, ht, -⟩ := hintact.linked hl
      rw [hnone] at ht
      cases ht
    · intro t ht hp
      cases ht
      exact absurd hp hi.2.1
    · intro j r hr'
      have hrec := (hdurable hr).recorded j r hr'
      by_cases hpart : w.part = some r.identity
      · -- the recorded file is the partial one, which the new entry does not touch
        have hne : r.identity ≠ i := fun he => hi.2.1 (he ▸ hpart)
        have hold : w.recordedFile r = w.files r.identity := if_pos (.inl hpart)
        have hnew : recordedFile { w.setFile i f with target := some i } r =
            w.files r.identity :=
          (if_pos (.inl hpart)).trans (setFile_files_of_ne w f hne)
        exact hrec.transfer (by rw [hnew, ← hold]; exact hrec.le_synced) (by rw [hnew, hold]) rfl
      · -- there is no recorded file, so nothing is recorded
        have hgone : w.recordedFile r = File.created := by
          refine if_neg ?_
          rw [hnone]
          simp [hpart]
        have hzero : r.durableOffset = 0 := by
          have hle := hrec.le_synced
          rw [hgone] at hle
          exact Nat.le_zero.mp hle
        exact .of_zero hzero

theorem interfered_of_env {w w' : World} {c : Choice} (h : xferSystem.env w c = some w') :
    Interfered w w' := by
  cases c with
  | foreign i f =>
    simp only [xferSystem, interfere] at h
    split at h
    · rename_i hcond
      cases h
      exact .inr ⟨hcond.1, i, f, hcond.2, rfl⟩
    · cases h
  | _ => cases h

/-- A crash loses no synced byte, so it breaks no record; and a file that already has the
    target name is clean, so the target keeps its bytes. -/
theorem inv_afterCrash {w w' : World} {c : Choice} (h : xferSystem.crash w c = some w')
    (hinv : (pushContract env u resumable).inv w) :
    (pushContract env u resumable).inv w' ∧ TargetKept w w' := by
  cases c with
  | ok =>
    simp only [xferSystem, afterCrash] at h
    split at h
    · cases h
      exact ⟨hinv, .refl w⟩
    · cases h
  | keep f =>
    simp only [xferSystem, afterCrash] at h
    split at h
    · rename_i i hi
      split at h
      · rename_i hsurvives
        cases h
        rcases hsurvives with ⟨-, hsame⟩ | ⟨hdirty, hkept, hsynced⟩
        · have hid : w.setFile i f = w := by
            rw [hsame]
            simp only [setFile, Function.update_eq_self]
          rw [hid]
          exact ⟨hinv, .refl w⟩
        · have hne : w.target ≠ some i := by
            intro ht
            rw [hinv.1.settled i ht hi] at hdirty
            cases hdirty
          refine ⟨⟨hinv.1.setFile f hne, fun hr => ?_⟩, .setFile hne rfl rfl⟩
          refine (hinv.2 hr).setFile fun j r _ _ hle => ⟨hle.trans hsynced, ?_⟩
          -- both files start with the synced bytes, which cover what is recorded
          obtain ⟨rest, hrest⟩ := hkept
          have hlen : r.durableOffset ≤ ((w.files i).data.take (w.files i).synced).length := by
            rw [length_take, Nat.min_eq_left (w.files i).synced_le]
            exact hle
          rw [← hrest, take_append_of_le_length hlen, take_take, Nat.min_eq_left hle]
      · cases h
    · cases h
  | _ => cases h

end Serctl.Xfer
