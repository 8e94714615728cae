import Serctl.Xfer.PushStages

/-!
# Receiving and committing

From `ready` on a run receives data frames into its partial file, records the durable offset
window by window, and acknowledges.  When the client commits, the file is synced, hashed on disk
and linked to the target name.

The loop is verified with one assertion, `Streaming`: the file holds what the client has sent in
order, and the sidecar records the run's durable offset.  An error leaves the body where `Failed`
holds, which is what the cleanup needs.
-/

namespace Serctl.Xfer

open Lib Lib.Act List

variable {env : HelperEnv} {p : PushParams} {resumable : Prop}

/-! ## Errors -/

/-- The run holds the partial file `i`, and nothing beyond `durable` is recorded of it. -/
structure Holding (resumable : Prop) (i : FileIdentity) (durable : Nat) (w : World) : Prop where
  part : w.part = some i
  apart : w.target ≠ some i
  record : resumable → ∀ j r, w.sidecar = some (j, .sealed r) → r.durableOffset ≤ durable

theorem stable_holding {i : FileIdentity} {durable : Nat} :
    Stable (Holding resumable i durable) := by
  intro w w' hw h
  have hstable := stable_held (i := i) fun _ sidecar _ =>
    resumable → ∀ j r, sidecar = some (j, .sealed r) → r.durableOffset ≤ durable
  obtain ⟨hpart, hapart, hrecord⟩ := hstable w w' hw ⟨h.part, h.apart, h.record⟩
  exact ⟨hpart, hapart, hrecord⟩

theorem Opened.holding {u : Upload} {i : FileIdentity} {durable : Nat} {w : World}
    (h : Opened u resumable i durable w) : Holding resumable i durable w := by
  refine ⟨h.part, h.apart, fun hr j r hj => ?_⟩
  obtain ⟨j', hj'⟩ := h.record hr
  rw [hj'] at hj
  cases hj
  exact Nat.le_refl durable

/-- What an error of the body leaves: the committed file, or the partial file with its record,
    or an error that says that the outcome is unknown. -/
def Failed (resumable : Prop) (e : Error) (l : Locals) (w : World) : Prop :=
  ∀ i, l.ownedIdentity = some i →
    (l.commitApplied = true → w.target = some i) ∧
    (l.commitApplied = false →
      e.is .commitOutcomeUnknown = true ∨ Holding resumable i l.durable w)

/-- The run owns the file `i` and has not committed it. -/
structure Owner (i : FileIdentity) (l : Locals) : Prop where
  ownedIdentity : l.ownedIdentity = some i
  commitApplied : l.commitApplied = false

theorem Unowned.failed {e : Error} {l : Locals} {w : World} (h : Unowned e l w) :
    Failed resumable e l w := by
  intro i hi
  rw [h] at hi
  cases hi

theorem Holding.failed {i : FileIdentity} {l : Locals} {w : World} {durable : Nat}
    (h : Holding resumable i durable w) (hl : Owner i l)
    (hle : resumable → durable ≤ l.durable) (e : Error) : Failed resumable e l w := by
  intro j hj
  rw [hl.ownedIdentity] at hj
  cases hj
  refine ⟨fun hc => ?_, fun _ => .inr ⟨h.part, h.apart, fun hr k r hk => ?_⟩⟩
  · rw [hl.commitApplied] at hc
    cases hc
  · exact (h.record hr k r hk).trans (hle hr)

theorem failed_of_target {e : Error} {i : FileIdentity} {l : Locals} {w : World}
    (hi : l.ownedIdentity = some i) (hl : l.commitApplied = true) (ht : w.target = some i) :
    Failed resumable e l w := by
  intro j hj
  rw [hi] at hj
  cases hj
  refine ⟨fun _ => ht, fun hc => ?_⟩
  rw [hl] at hc
  cases hc

/-! ## The loop invariant -/

/-- The run has stored `confirmed` bytes in the file `i`, of which `durable` are recorded;
    `pending` has arrived and is not stored yet. -/
structure Streaming (u : Upload) (resumable : Prop) (i : FileIdentity) (confirmed durable : Nat)
    (pending : List UInt8) (w : World) : Prop where
  part : w.part = some i
  apart : w.target ≠ some i
  stored : resumable → (w.files i).data.length = confirmed
  source : resumable → sourceBytes u.transferIdBytes w.wire = (w.files i).data ++ pending
  record : resumable → ∃ j, w.sidecar = some (j, .sealed (.new u durable i .receiving))
  fits : resumable → AckFits u.size w.wire confirmed durable

namespace Streaming

variable {u : Upload} {i : FileIdentity} {confirmed durable : Nat} {pending : List UInt8}
  {w : World}

theorem stable : Stable (Streaming u resumable i confirmed durable pending) := by
  intro w w' hw h
  have hstable := stable_held (i := i) fun file sidecar wire =>
    (resumable → file.data.length = confirmed) ∧
    (resumable → sourceBytes u.transferIdBytes wire = file.data ++ pending) ∧
    (resumable → ∃ j, sidecar = some (j, .sealed (.new u durable i .receiving))) ∧
    (resumable → AckFits u.size wire confirmed durable)
  obtain ⟨hpart, hapart, hstored, hsource, hrecord, hfits⟩ :=
    hstable w w' hw ⟨h.part, h.apart, h.stored, h.source, h.record, h.fits⟩
  exact ⟨hpart, hapart, hstored, hsource, hrecord, hfits⟩

/-- The file that is streamed into changes only by the run itself. -/
theorem stable_and (F : File → Prop) :
    Stable fun w => Streaming u resumable i confirmed durable pending w ∧ F (w.files i) := by
  intro w w' hw h
  have hstable := stable_held (i := i) fun file _ _ => F file
  exact ⟨stable w w' hw h.1, (hstable w w' hw ⟨h.1.part, h.1.apart, h.2⟩).2.2⟩

theorem holding (h : Streaming u resumable i confirmed durable pending w) :
    Holding resumable i durable w := by
  refine ⟨h.part, h.apart, fun hr j r hj => ?_⟩
  obtain ⟨j', hj'⟩ := h.record hr
  rw [hj'] at hj
  cases hj
  exact Nat.le_refl durable

theorem hasRecord (h : Streaming u resumable i confirmed durable pending w) (hr : resumable) :
    HasRecord w durable := by
  obtain ⟨j, hj⟩ := h.record hr
  exact ⟨j, _, hj, rfl⟩

/-- After `ready` the client goes on where the recorded bytes end. -/
theorem of_opened (h : Opened u resumable i durable w) {chunk window : Nat}
    (hinv : u.Inv env resumable (w.log (.sent (.ready chunk window durable)))) :
    Streaming u resumable i durable durable [] (w.log (.sent (.ready chunk window durable))) := by
  refine ⟨h.part, h.apart, h.stored, fun hr => ?_, h.record, fun hr => ?_⟩
  · obtain ⟨j, hj⟩ := h.record hr
    have hrecorded := ((hinv.2 hr).recorded j _ hj).isPrefix
    have hfile : (w.log (.sent (.ready chunk window durable))).recordedFile
        (.new u durable i .receiving) = w.files i := if_pos (.inl h.part)
    have hall : (w.files i).data.take durable = (w.files i).data :=
      take_of_length_le (Nat.le_of_eq (h.stored hr))
    have hsource : sourceBytes u.transferIdBytes
        (w.log (.sent (.ready chunk window durable))).wire =
        (sourceBytes u.transferIdBytes w.wire).take durable := rfl
    have hoffset : (ResumeSidecar.new u durable i .receiving).durableOffset = durable := rfl
    rw [hfile, hsource, hoffset, take_take, Nat.min_self] at hrecorded
    rw [hsource, append_nil]
    exact hrecorded.symm.trans hall
  · obtain ⟨j, hj⟩ := h.record hr
    refine ⟨le_rfl, ((hinv.2 hr).recorded j _ hj).le_size, ?_⟩
    intro confirmed' durable' hlast
    cases hlast
    exact ⟨le_rfl, le_rfl⟩

/-- A frame that starts where the stored bytes end carries the client's next bytes. -/
theorem received (h : Streaming u resumable i confirmed durable [] w) {f : DataFrame}
    (hid : f.transferId = u.transferIdBytes) (hoffset : f.offset = confirmed) :
    Streaming u resumable i confirmed durable f.payload (w.log (.received (.data f))) := by
  refine ⟨h.part, h.apart, h.stored, fun hr => ?_, h.record, h.fits⟩
  have hsource : sourceBytes u.transferIdBytes w.wire = (w.files i).data := by
    rw [h.source hr, append_nil]
  have hlen : f.offset = (sourceBytes u.transferIdBytes w.wire).length := by
    rw [hsource, h.stored hr, hoffset]
  change (if f.transferId = u.transferIdBytes ∧
      f.offset = (sourceBytes u.transferIdBytes w.wire).length then
    sourceBytes u.transferIdBytes w.wire ++ f.payload
    else sourceBytes u.transferIdBytes w.wire) = (w.files i).data ++ f.payload
  rw [if_pos ⟨hid, hlen⟩, hsource]

/-- The pending bytes are written behind the stored ones. -/
theorem written (h : Streaming u resumable i confirmed durable pending w)
    (hsize : confirmed + pending.length ≤ u.size) :
    Streaming u resumable i (confirmed + pending.length) durable []
      (w.setFile i ((w.files i).writeAt confirmed pending)) := by
  refine ⟨h.part, h.apart, fun hr => ?_, fun hr => ?_, h.record, fun hr => ?_⟩
  · rw [World.setFile_files_self, ← h.stored hr, File.writeAt_length_data, length_append]
  · rw [World.setFile_files_self, ← h.stored hr, File.writeAt_length_data, append_nil]
    exact h.source hr
  · obtain ⟨hle, -, hlast⟩ := h.fits hr
    refine ⟨hle.trans (Nat.le_add_right _ _), hsize, fun confirmed' durable' hlast' => ?_⟩
    obtain ⟨hconfirmed, hdurable⟩ := hlast confirmed' durable' hlast'
    exact ⟨hconfirmed.trans (Nat.le_add_right _ _), hdurable⟩

theorem synced (h : Streaming u resumable i confirmed durable pending w) :
    Streaming u resumable i confirmed durable pending (w.setFile i (w.files i).sync) := by
  refine ⟨h.part, h.apart, fun hr => ?_, fun hr => ?_, h.record, h.fits⟩
  · rw [World.setFile_files_self]
    exact h.stored hr
  · rw [World.setFile_files_self]
    exact h.source hr

section

variable (h : Streaming u resumable i confirmed durable [] w)

include h

/-- All stored bytes may be recorded once they are synced. -/
theorem recorded (hr : resumable)
    (hsynced : (w.files i).synced = (w.files i).data.length) (state : ResumeSidecarState) :
    Recorded u w (.new u confirmed i state) := by
  have hfile : w.recordedFile (.new u confirmed i state) = w.files i := if_pos (.inl h.part)
  refine ⟨(h.fits hr).2.1, ?_, ?_⟩
  · rw [hfile, hsynced, h.stored hr]
    exact Nat.le_refl confirmed
  · rw [hfile, h.source hr, append_nil]

/-- The new record takes the place of the old one. -/
theorem replaced {j : FileIdentity} (hj : w.Unused j) :
    Streaming u resumable i confirmed confirmed []
      { w.setFile j File.created with
        sidecar := some (j, .sealed (.new u confirmed i .receiving)) } := by
  have hne : i ≠ j := fun he => hj.2.1 (he ▸ h.part)
  have hfile : (w.setFile j File.created).files i = w.files i :=
    World.setFile_files_of_ne w File.created hne
  refine ⟨h.part, h.apart, fun hr => ?_, fun hr => ?_, fun _ => ⟨j, rfl⟩, fun hr => ?_⟩
  · change ((w.setFile j File.created).files i).data.length = confirmed
    rw [hfile, h.stored hr]
  · change sourceBytes u.transferIdBytes w.wire = ((w.setFile j File.created).files i).data ++ []
    rw [hfile, h.source hr]
  · obtain ⟨hle, hsize, hlast⟩ := h.fits hr
    refine ⟨le_rfl, hsize, fun confirmed' durable' hlast' => ?_⟩
    obtain ⟨hconfirmed, hdurable⟩ := hlast confirmed' durable' hlast'
    exact ⟨hconfirmed, hdurable.trans hle⟩

theorem acked (window : Nat) :
    Streaming u resumable i confirmed durable []
      (w.log (.sent (.ack confirmed durable window))) := by
  refine ⟨h.part, h.apart, h.stored, h.source, h.record, fun hr => ?_⟩
  refine ⟨(h.fits hr).1, (h.fits hr).2.1, fun confirmed' durable' hlast => ?_⟩
  cases hlast
  exact ⟨le_rfl, le_rfl⟩

end

end Streaming

/-! ## Receiving -/

section Receiving

variable {i : FileIdentity} {confirmed : Nat} {l : Locals} {w : World}

/-- The file is synced before the record that says so. -/
theorem wp_recordDurable {Q : Unit → Locals → World → Prop}
    (hinv : p.Inv env resumable w)
    (hw : Streaming p.toUpload resumable i confirmed l.durable [] w) (hl : Owner i l)
    (hQ : ∀ w', p.Inv env resumable w' →
      Streaming p.toUpload resumable i confirmed confirmed [] w' → (w'.files i).clean = true →
      Q () { l with durable := confirmed } w') :
    wp xferSystem (p.contract env resumable) (recordDurable env p i confirmed) Q
      (Failed resumable) l w := by
  have hP : Stable (Streaming p.toUpload resumable i confirmed l.durable []) := Streaming.stable
  have hfail : ∀ (e : Error) w', e.marks = [] →
      Streaming p.toUpload resumable i confirmed l.durable [] w' → Failed resumable e l w' :=
    fun e w' _ hw' => hw'.holding.failed hl (fun _ => le_rfl) e
  rw [recordDurable]
  refine calm_ensureStillBound.step hP hinv hw hfail ?_
  intro _ w1 _ hw1 _
  rw [wp_bind]
  refine wp_syncFile hP hw1 ?_ (fun m w' hw' => ⟨hfail _ w' rfl hw', hfail _ _ rfl hw'.synced⟩)
  intro w2 hw2 hinv2
  -- until the record is replaced the file stays as it was synced
  have hP2 : Stable fun w => Streaming p.toUpload resumable i confirmed l.durable [] w ∧
      (w.files i).clean = true ∧ (w.files i).synced = (w.files i).data.length :=
    Streaming.stable_and fun f => f.clean = true ∧ f.synced = f.data.length
  have hw2' : (fun w => Streaming p.toUpload resumable i confirmed l.durable [] w ∧
      (w.files i).clean = true ∧ (w.files i).synced = (w.files i).data.length)
        (w2.setFile i (w2.files i).sync) := by
    refine ⟨hw2.synced, ?_, ?_⟩
    · rw [World.setFile_files_self]
      rfl
    · rw [World.setFile_files_self]
      rfl
  have hl2 : Owner i { l with durable := confirmed } := ⟨hl.ownedIdentity, hl.commitApplied⟩
  have hfail2 : ∀ (e : Error) w', e.marks = [] →
      (Streaming p.toUpload resumable i confirmed l.durable [] w' ∧
        (w'.files i).clean = true ∧ (w'.files i).synced = (w'.files i).data.length) →
      Failed resumable e { l with durable := confirmed } w' :=
    fun e w' _ hw' => hw'.1.holding.failed hl2 (fun hr => (hw'.1.fits hr).1) e
  rw [wp_bind, wp_vars, wp_bind, wp_assign]
  refine calm_ensureStillBound.step hP2 hinv2 hw2' hfail2 ?_
  intro _ w3 hinv3 hw3 _
  refine wp_replaceVerified hP2 hinv3 hw3 ?_ ?_ ?_
  · intro hr w' _ hw' hsealed
    refine ⟨hw'.1.recorded hr hw'.2.2 .receiving, fun k hk => ?_, ?_⟩
    · rw [hw'.1.part] at hk
      exact Option.some.inj hk
    · obtain ⟨j, hj⟩ := hsealed
      rw [recordedOffset_of_sealed hj]
      exact (hw'.1.fits hr).1
  · intro w' j hw' hj _ hinv'
    refine hQ _ hinv' (hw'.1.replaced hj) ?_
    have hne : i ≠ j := fun he => hj.2.1 (he ▸ hw'.1.part)
    change ((w'.setFile j File.created).files i).clean = true
    rw [World.setFile_files_of_ne w' File.created hne]
    exact hw'.2.1
  · intro e w' he hw'
    refine ⟨hfail2 e w' he hw', fun j hj => ?_⟩
    exact (hw'.1.replaced hj).holding.failed hl2 (fun _ => le_rfl) e

/-- **One data frame**: it is stored and acknowledged, or the run fails holding its file. -/
theorem wp_receiveData {data : DataFrame}
    (hinv : p.Inv env resumable (w.log (.received (.data data))))
    (hw : Streaming p.toUpload resumable i confirmed l.durable [] w) (hl : Owner i l) :
    wp xferSystem (p.contract env resumable) (receiveData env p i confirmed data)
      (fun next l' w' => Streaming p.toUpload resumable i next l'.durable [] w' ∧ Owner i l')
      (Failed resumable) l (w.log (.received (.data data))) := by
  have hheld : Holding resumable i l.durable (w.log (.received (.data data))) :=
    ⟨hw.part, hw.apart, hw.holding.record⟩
  have hfail0 : ∀ e, Failed resumable e l (w.log (.received (.data data))) :=
    hheld.failed hl fun _ => le_rfl
  rw [receiveData]
  refine wp_ensure_bind (hfail0 _) fun hid => ?_
  refine wp_ensure_bind (hfail0 _) fun hoffset => ?_
  refine wp_ensure_bind (hfail0 _) fun _ => ?_
  refine wp_ensure_bind (hfail0 _) fun _ => ?_
  refine wp_ensure_bind (hfail0 _) fun hsize => ?_
  -- the frame is in its place, so its payload is what the client sends next
  have hpending := hw.received hid hoffset
  have hfail : ∀ (e : Error) w', e.marks = [] →
      Streaming p.toUpload resumable i confirmed l.durable data.payload w' →
      Failed resumable e l w' :=
    fun e w' _ hw' => hw'.holding.failed hl (fun _ => le_rfl) e
  refine calm_ensureStillBound.step Streaming.stable hinv hpending hfail ?_
  intro _ w1 _ hw1 _
  rw [wp_bind]
  refine wp_writeAt Streaming.stable hw1 (fun _ h => h.apart) (fun hr _ h => (h.stored hr).symm)
    ?_ ?_
  · intro w2 hw2 hinv2
    have hwritten := hw2.written hsize
    -- the acknowledgement, whether or not the window was recorded
    have hack : ∀ l' w', Owner i l' →
        Streaming p.toUpload resumable i (confirmed + data.payload.length) l'.durable [] w' →
        wp xferSystem (p.contract env resumable) (do
          let after ← vars
          io (.send (.ack (confirmed + data.payload.length) after.durable p.window))
          return confirmed + data.payload.length)
          (fun next l'' w'' =>
            Streaming p.toUpload resumable i next l''.durable [] w'' ∧ Owner i l'')
          (Failed resumable) l' w' := by
      intro l' w' hl' hw'
      rw [wp_bind, wp_vars, wp_bind]
      refine wp_send Streaming.stable hw' ?_ ?_ ?_ ?_
      · exact fun w'' _ hw'' hr => ⟨hw''.hasRecord hr, hw''.fits hr⟩
      · exact fun w'' hinv'' hw'' hr => (hinv''.2 hr).log_ack (hw''.hasRecord hr) (hw''.fits hr)
      · exact fun w'' hw'' _ => ⟨hw''.acked p.window, hl'⟩
      · intro m w'' hw''
        exact ⟨hw''.holding.failed hl' (fun _ => le_rfl) _,
          (hw''.acked p.window).holding.failed hl' (fun _ => le_rfl) _⟩
    rw [wp_bind, wp_vars, wp_bind, wp_onlyIf]
    refine ⟨fun _ => wp_recordDurable hinv2 hwritten hl ?_, fun _ => hack l _ hl hwritten⟩
    intro w3 _ hw3 _
    exact hack _ w3 ⟨hl.ownedIdentity, hl.commitApplied⟩ hw3
  · intro m w' bytes' hw'
    have hheld' : Holding resumable i l.durable
        (w'.setFile i ((w'.files i).writeAt confirmed bytes')) :=
      ⟨hw'.part, hw'.apart, hw'.holding.record⟩
    exact ⟨hfail _ w' rfl hw', hheld'.failed hl (fun _ => le_rfl) _⟩

theorem wp_hang {Q : Empty → Locals → World → Prop} {E : Error → Locals → World → Prop} :
    wp xferSystem (p.contract env resumable) (io .hang) Q E l w := by
  rw [wp_io]
  intro w1 _ _
  refine ⟨trivial, fun c a w2 h => ?_⟩
  cases c <;> cases h

/-- **All data frames**: the loop ends with the file holding what the client has sent in
    order. -/
theorem wp_receiveLoop (fuel : Nat) : ∀ {confirmed : Nat} {hashed : List UInt8} {l : Locals}
    {w : World}, Streaming p.toUpload resumable i confirmed l.durable [] w → Owner i l →
    wp xferSystem (p.contract env resumable)
      (receiveLoop env p i fuel confirmed hashed)
      (fun r l' w' => Streaming p.toUpload resumable i r.1 l'.durable [] w' ∧ Owner i l')
      (Failed resumable) l w := by
  induction fuel with
  | zero =>
    intro confirmed hashed l w hw hl
    rw [receiveLoop, wp_bind]
    exact wp_hang
  | succ fuel ih =>
    intro confirmed hashed l w hw hl
    have hfail : ∀ (e : Error) w', Streaming p.toUpload resumable i confirmed l.durable [] w' →
        Failed resumable e l w' ∧ ∀ frame, Failed resumable e l (w'.log (.received frame)) := by
      intro e w' hw'
      have hheld : ∀ frame, Holding resumable i l.durable (w'.log (.received frame)) :=
        fun _ => ⟨hw'.part, hw'.apart, hw'.holding.record⟩
      exact ⟨hw'.holding.failed hl (fun _ => le_rfl) e,
        fun frame => (hheld frame).failed hl (fun _ => le_rfl) e⟩
    rw [receiveLoop, wp_bind]
    refine wp_recv Streaming.stable hw (fun _ w' hw' => (hfail _ w' hw').1) ?_
      (fun w' hw' => (hfail _ w' hw').1)
    intro w' frame hw' hinv'
    cases frame with
    | data data =>
      rw [wp_bind]
      refine wp_mono (wp_receiveData hinv' hw' hl) ?_ (fun _ _ _ h => h)
      intro next l' w'' hnext
      exact ih hnext.1 hnext.2
    | control control =>
      cases control with
      | commit =>
        exact ⟨⟨hw'.part, hw'.apart, hw'.stored, hw'.source, hw'.record, hw'.fits⟩, hl⟩
      | _ => exact (hfail _ w' hw').2 _

end Receiving

/-! ## Committing -/

section Committing

variable {i : FileIdentity} {l : Locals} {w : World}

/-- The file is complete, synced and verified on disk. -/
def Complete (env : HelperEnv) (u : Upload) (resumable : Prop) (i : FileIdentity) (w : World) :
    Prop :=
  Streaming u resumable i u.size u.size [] w ∧
    (w.files i).clean = true ∧ Verified env u (w.files i)

theorem stable_complete : Stable (Complete env p.toUpload resumable i) :=
  Streaming.stable_and fun f => f.clean = true ∧ Verified env p.toUpload f

theorem Complete.landed (h : Complete env p.toUpload resumable i w) :
    Landed env p.toUpload resumable i { w with target := some i, linked := true } := by
  refine ⟨rfl, h.2.2, fun hr => ?_⟩
  obtain ⟨j, hj⟩ := h.1.record hr
  exact ⟨j, _, hj, rfl⟩

variable {S : System World Op Ans Choice}

theorem calm_prepareNoReplaceCommit {C : Contract World Op}
    [Hosts S C] (file identity : FileIdentity) (size : Nat) :
    Calm S C (prepareNoReplaceCommit file identity size) Nothing := by
  refine (calm_io rfl fun _ => rfl).andThen fun _ => ?_
  refine (calm_validateOwnedFileIdentity file identity size).andThen fun _ => ?_
  refine (calm_fstat file _ fun _ => rfl).andThen fun probe => ?_
  exact (Calm.ensure _ _).imp fun _ _ _ => trivial

theorem calm_openCommittedTarget {C : Contract World Op}
    [Hosts S C] (identity : FileIdentity) (size : Nat) :
    Calm S C (openCommittedTarget identity size) Nothing := by
  refine (calm_io rfl fun _ => rfl).andThen fun target => ?_
  refine (calm_validateOwnedFileIdentity target identity size).andThen fun _ => ?_
  exact (Calm.pure target).imp fun _ _ _ => trivial

variable {Q : Unit → Locals → World → Prop}

/-- **The commit**: the target is linked or, if the link itself failed, the run still holds its
    file; any other error says that the outcome is unknown. -/
theorem wp_commitOnce (hw : Complete env p.toUpload resumable i w) (hl : Owner i l)
    (hdurable : l.durable = p.size)
    (hQ : ∀ w', p.Inv env resumable w' → Landed env p.toUpload resumable i w' → Q () l w') :
    wp xferSystem (p.contract env resumable) (commitOnce i i p.size) Q
      (Failed resumable) l w := by
  have hS : Stable (Landed env p.toUpload resumable i) := stable_landed
  rw [commitOnce, wp_bind, wp_attempt, noReplaceCommit, wp_bind]
  refine wp_linkTarget stable_complete hw ?_ ?_ ?_
  · intro m w' hw'
    exact hw'.1.holding.failed hl (fun _ => Nat.le_of_eq hdurable.symm) _
  · exact fun w' hw' => ⟨hw'.1.part, hw'.2.2, hw'.2.1⟩
  · intro w1 hw1 hinv1
    -- after the link every error is a plain one, and is reported as an unknown outcome
    have hfail : ∀ (e : Error) w', e.marks = [] → Landed env p.toUpload resumable i w' →
        wp xferSystem (p.contract env resumable)
          (if e.is .commitNotApplied then fail e else fail (.commitOutcomeUnknown e)) Q
          (Failed resumable) l w' := by
      intro e w' he _
      have hnot : e.is .commitNotApplied = false := by
        simp [Failure.is, he]
      rw [hnot]
      intro j hj
      rw [hl.ownedIdentity] at hj
      cases hj
      refine ⟨fun hc => ?_, fun _ => .inl rfl⟩
      rw [hl.commitApplied] at hc
      cases hc
    refine (calm_openCommittedTarget i p.size).step hS hinv1 hw1.landed hfail ?_
    intro first w2 hinv2 hw2 _
    refine (calm_syncParent.context _).step hS hinv2 hw2 hfail ?_
    intro _ w3 hinv3 hw3 _
    refine (calm_openCommittedTarget i p.size).step hS hinv3 hw3 hfail ?_
    intro second w4 hinv4 hw4 _
    refine (calm_fstat first _ fun _ => rfl).step hS hinv4 hw4 hfail ?_
    intro _ w5 hinv5 hw5 _
    refine (calm_fstat second _ fun _ => rfl).step hS hinv5 hw5 hfail ?_
    intro _ w6 hinv6 hw6 _
    exact Calm.ensure _ _ _ hS l w6 _ _ hinv6 hw6 (fun _ w' hinv' hw' _ => hQ w' hinv' hw') hfail

section

variable (hinv : p.Inv env resumable w) (hw : Landed env p.toUpload resumable i w)

include hinv hw

theorem wp_persistReceipt (hown : l.ownedIdentity = some i)
    (hc : l.commitApplied = true) (hdurable : l.durable = p.size)
    (hQ : ∀ w', p.Inv env resumable w' → Landed env p.toUpload resumable i w' → Q () l w') :
    wp xferSystem (p.contract env resumable) (persistReceipt env p i) Q
      (Failed resumable) l w := by
  have hS : Stable (Landed env p.toUpload resumable i) := stable_landed
  have hfail : ∀ (e : Error) w', e.marks = [] → Landed env p.toUpload resumable i w' →
      Failed resumable e l w' := fun e w' _ hw' => failed_of_target hown hc hw'.target
  rw [persistReceipt]
  refine calm_ensureStillBound.step hS hinv hw hfail ?_
  intro _ w1 hinv1 hw1 _
  rw [wp_bind, wp_vars, orCleanupIncomplete, wp_mapError]
  refine wp_replaceVerified hS hinv1 hw1 ?_ ?_ ?_
  · -- only the state of the record changes
    intro hr w' hinv' _ hsealed
    obtain ⟨j, hj⟩ := hsealed
    exact (hinv'.2 hr).restate hj rfl rfl
  · exact fun w' j hw' hj _ hinv' => hQ _ hinv'
      (Landed.replaced hw'.target hw'.verified hj fun _ => hdurable)
  · exact fun e w' _ hw' => ⟨failed_of_target hown hc hw'.target,
      fun j _ => failed_of_target hown hc hw'.target⟩

theorem wp_dropSidecar (hown : l.ownedIdentity = some i)
    (hc : l.commitApplied = true) (hnot : ¬resumable)
    (hQ : ∀ w', p.Inv env resumable w' → Landed env p.toUpload resumable i w' → Q () l w') :
    wp xferSystem (p.contract env resumable) (dropSidecar env p i) Q
      (Failed resumable) l w := by
  have hS : Stable (Landed env p.toUpload resumable i) := stable_landed
  rw [dropSidecar]
  refine calm_ensureStillBound.step hS hinv hw
    (fun _ _ _ hw' => failed_of_target hown hc hw'.target) ?_
  intro _ w1 hinv1 hw1 _
  rw [orCleanupIncomplete, wp_mapError]
  refine wp_removeOwnedSidecar hS hS hnot hinv1 hw1 ?_ hQ ?_
  · exact fun w' hw' => hw'.of_eq rfl rfl fun hr => absurd hr hnot
  · intro e w' _ hw'
    rcases hw' with hw' | hw' <;> exact failed_of_target hown hc hw'.target

/-- After the commit the partial name goes, and completion is reported of the linked target. -/
theorem wp_reportCommitted (hl : Owner i l) (hdurable : l.durable = p.size)
    (hresume : resumable → p.resume = true) :
    wp xferSystem (p.contract env resumable)
      (reportCommitted env p i p.expectedSha256) (fun _ _ _ => True) (Failed resumable) l w := by
  have hS : Stable (Landed env p.toUpload resumable i) := stable_landed
  have hown := hl.ownedIdentity
  have hfail : ∀ (e : Error) w', e.marks = [] → Landed env p.toUpload resumable i w' →
      Failed resumable e { l with commitApplied := true } w' :=
    fun _ _ _ hw' => failed_of_target hown rfl hw'.target
  rw [reportCommitted, wp_bind, wp_assign]
  refine calm_ensureStillBound.step hS hinv hw hfail ?_
  intro _ w1 hinv1 hw1 _
  refine calm_ensureOriginalParentBound.step hS hinv1 hw1 hfail ?_
  intro _ w2 hinv2 hw2 _
  -- the sidecar: a receipt for a resumable upload, nothing for another one
  have hsend : ∀ w', p.Inv env resumable w' → Landed env p.toUpload resumable i w' →
      wp xferSystem (p.contract env resumable) (do
        assign fun l => { l with owned := false }
        ensureStillBound
        ensureOriginalParentBound
        io (.send (.completed p.size p.expectedSha256))) (fun _ _ _ => True)
        (Failed resumable) { l with commitApplied := true } w' := by
    intro w' hinv' hw'
    rw [wp_bind, wp_assign]
    refine calm_ensureStillBound.step hS hinv' hw'
      (fun _ _ _ h => failed_of_target hown rfl h.target) ?_
    intro _ w3 hinv3 hw3 _
    refine calm_ensureOriginalParentBound.step hS hinv3 hw3
      (fun _ _ _ h => failed_of_target hown rfl h.target) ?_
    intro _ w4 _ hw4 _
    exact hw4.sendCompleted fun _ _ ht => failed_of_target hown rfl ht
  have hremove : ∀ w', p.Inv env resumable w' → Landed env p.toUpload resumable i w' →
      wp xferSystem (p.contract env resumable) (do
        ensureStillBound
        orCleanupIncomplete ("committed partial " ++ env.display .part ++ ": ")
          (removeOwnedPartial env i)
        onlyIf (p.resume = false) (dropSidecar env p i)
        assign fun l => { l with owned := false }
        ensureStillBound
        ensureOriginalParentBound
        io (.send (.completed p.size p.expectedSha256))) (fun _ _ _ => True)
        (Failed resumable) { l with commitApplied := true } w' := by
    intro w' hinv' hw'
    refine calm_ensureStillBound.step hS hinv' hw' hfail ?_
    intro _ w3 hinv3 hw3 _
    rw [wp_bind, orCleanupIncomplete, wp_mapError]
    refine wp_removeOwnedPartial hS hS hinv3 hw3 ?_ ?_ ?_ ?_
    · exact fun _ w'' _ h _ _ _ _ => .inr h.target
    · exact fun w'' h => h.of_eq rfl rfl h.record
    · intro w'' hinv'' hw''
      rw [wp_bind, wp_onlyIf]
      refine ⟨fun hp => ?_, fun _ => hsend w'' hinv'' hw''⟩
      have hnot : ¬resumable := by
        intro hr
        rw [hresume hr] at hp
        cases hp
      exact wp_dropSidecar hinv'' hw'' hown rfl hnot hsend
    · intro e w'' _ hw''
      rcases hw'' with hw'' | hw'' <;> exact failed_of_target hown rfl hw''.target
  rw [wp_bind, wp_onlyIf]
  exact ⟨fun _ => wp_persistReceipt hinv2 hw2 hown rfl hdurable hremove,
    fun _ => hremove w2 hinv2 hw2⟩

end

/-- **The end of the body**: a complete file is verified on disk and committed, and completion is
    reported only then. -/
theorem wp_commitUpload {confirmed : Nat} {hashed : List UInt8}
    (hinv : p.Inv env resumable w)
    (hw : Streaming p.toUpload resumable i confirmed l.durable [] w) (hl : Owner i l)
    (hresume : resumable → p.resume = true) :
    wp xferSystem (p.contract env resumable)
      (commitUpload env p i confirmed hashed) (fun _ _ _ => True) (Failed resumable) l w := by
  have hfail0 : ∀ e, Failed resumable e l w := hw.holding.failed hl fun _ => le_rfl
  rw [commitUpload]
  refine wp_ensure_bind (hfail0 _) fun hsize => ?_
  subst hsize
  refine wp_ensure_bind (hfail0 _) fun _ => ?_
  rw [wp_bind]
  refine wp_recordDurable hinv hw hl ?_
  intro w1 hinv1 hw1 hclean
  have hl1 : Owner i { l with durable := p.size } := ⟨hl.ownedIdentity, hl.commitApplied⟩
  have hP : Stable fun w => Streaming p.toUpload resumable i p.size p.size [] w ∧
      (w.files i).clean = true := Streaming.stable_and fun f => f.clean = true
  have hfail : ∀ (e : Error) w', e.marks = [] →
      (Streaming p.toUpload resumable i p.size p.size [] w' ∧ (w'.files i).clean = true) →
      Failed resumable e { l with durable := p.size } w' :=
    fun e w' _ hw' => hw'.1.holding.failed hl1 (fun _ => le_rfl) e
  refine (calm_validateOwnedFileIdentity i i p.size).step hP hinv1 ⟨hw1, hclean⟩ hfail ?_
  intro _ w2 hinv2 hw2 _
  refine (calm_hashFileExact i p.size).step hP hinv2 hw2 hfail ?_
  intro actualSha256 w3 hinv3 hw3 hhash
  obtain ⟨hlength, hactual⟩ := hhash
  subst hactual
  refine wp_ensure_bind (hfail _ w3 rfl hw3) fun hdigest => ?_
  -- from here on the partial file is complete
  have hcomplete : Complete env p.toUpload resumable i w3 := ⟨hw3.1, hw3.2, hlength, hdigest⟩
  have hfailC : ∀ (e : Error) w', e.marks = [] → Complete env p.toUpload resumable i w' →
      Failed resumable e { l with durable := p.size } w' :=
    fun e w' _ hw' => hw'.1.holding.failed hl1 (fun _ => le_rfl) e
  refine (calm_validateOwnedFileIdentity i i p.size).step stable_complete hinv3 hcomplete hfailC ?_
  intro _ w4 hinv4 hw4 _
  refine calm_ensureStillBound.step stable_complete hinv4 hw4 hfailC ?_
  intro _ w5 hinv5 hw5 _
  refine calm_ensureOriginalParentBound.step stable_complete hinv5 hw5 hfailC ?_
  intro _ w6 hinv6 hw6 _
  refine (calm_prepareNoReplaceCommit i i p.size).step stable_complete hinv6 hw6 hfailC ?_
  intro _ w7 _ hw7 _
  rw [wp_bind]
  refine wp_commitOnce hw7 hl1 rfl ?_
  intro w8 hinv8 hw8
  rw [hdigest]
  exact wp_reportCommitted hinv8 hw8 hl1 rfl hresume

end Committing

end Serctl.Xfer
