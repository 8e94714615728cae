import Serctl.Xfer.PushFrame
import Serctl.Xfer.PushSafety

/-!
# How the end of an upload is reported

A run that ends with an error reports it to the client under one of four codes.  The codes for a
plain failure and for a busy transfer promise that this run has not created the target.  A run
whose link took effect ends with completion or with one of the other two codes; if the linked
entry could not be verified, the synced partial file and its sidecar stay as evidence.

Nothing is asked of the files at the beginning of the run, and any number of its operations may
fail.
-/

namespace Serctl.Xfer

open Lib Lib.Act

/-! ## Reports -/

/-- The codes under which `serve` reports that a run has ended with an error. -/
inductive ErrorCode where
  /-- The target may or may not have been created. -/
  | outcomeUnknown
  /-- Files of the run may be left. -/
  | cleanupIncomplete
  /-- Another run holds the lock of the transfer. -/
  | transferBusy
  | transferFailed
  deriving DecidableEq, Repr

/-- The code of an error: the first of its types that has one. -/
def errorCode (e : Error) : ErrorCode :=
  if e.is .commitOutcomeUnknown then .outcomeUnknown
  else if e.is .cleanupIncomplete then .cleanupIncomplete
  else if e.is .transferBusy then .transferBusy
  else .transferFailed

/-- The report admits that something may be left: the target, or files of the run. -/
def Admits (e : Error) : Prop :=
  errorCode e = .outcomeUnknown ∨ errorCode e = .cleanupIncomplete

variable {e : Error}

theorem admits_iff :
    Admits e ↔ e.is .commitOutcomeUnknown = true ∨ e.is .cleanupIncomplete = true := by
  unfold Admits errorCode
  cases e.is .commitOutcomeUnknown <;> cases e.is .cleanupIncomplete <;>
    cases e.is .transferBusy <;> simp

theorem Admits.context (message : String) :
    Admits (e.contextCleanupIncomplete message) :=
  admits_iff.mpr (.inr (by simp [Failure.is, Error.contextCleanupIncomplete]))

theorem admits_commitOutcomeUnknown (e : Error) : Admits (.commitOutcomeUnknown e) :=
  admits_iff.mpr (.inl rfl)

theorem admits_cleanupIncomplete (message : String) : Admits (.cleanupIncomplete message) :=
  admits_iff.mpr (.inr rfl)

/-- After a known commit every error admits it. -/
theorem exists_normalized (e : Error) :
    ∃ e', normalizePostCommitResult (.error e) true = .error e' ∧ Admits e' := by
  by_cases hc : e.is .cleanupIncomplete = true
  · exact ⟨e, by simp [normalizePostCommitResult, hc], admits_iff.mpr (.inr hc)⟩
  · exact ⟨.commitOutcomeUnknown e, by simp [normalizePostCommitResult, hc],
      admits_commitOutcomeUnknown e⟩

/-! ## A run and its local variables -/

/-- One run, with its result and what its local variables were when the body had ended. -/
def tracedPush (env : HelperEnv) (r : PushRequest) (fuel : Nat) :
    Io Unit (Except Error Unit × Locals) := do
  let start ← attempt do
    let p ← orElseFail id (pushParams env r)
    let free : Bool ← io .acquireGuard
    require (free = true) .transferBusy
    return p
  match start with
  | .error e => return (.error e, {})
  | .ok p =>
    let ended ← within {} (pushBody env p fuel)
    let result ← attempt (finishPush env p ended.1 ended.2)
    return (result, ended.2)

/-- **The traced run is the run**: it issues the same operations and has the same result. -/
theorem servePush_eq_traced (env : HelperEnv) (r : PushRequest) (fuel : Nat) :
    servePush env r fuel = (do
      let traced ← tracedPush env r fuel
      orElseFail id traced.1) := by
  have hserved : ∀ p : PushParams,
      (do let ended ← within {} (pushBody env p fuel)
          finishPush env p ended.1 ended.2 : Io Unit Unit) =
      (do let ended ← within {} (pushBody env p fuel)
          let result ← attempt (finishPush env p ended.1 ended.2)
          return (result, ended.2)) >>= fun traced => orElseFail id traced.1 := by
    intro p
    rw [Act.bind_assoc]
    congr 1
    funext ended
    rw [Act.bind_assoc]
    exact (Act.attempt_bind_orElseFail _).symm
  funext s
  rw [servePush, tracedPush]
  cases pushParams env r with
  | error e => rfl
  | ok p =>
    -- both issue the lock operation first and go on with its answer
    change Prog.ask Op.acquireGuard _ = Prog.ask Op.acquireGuard _
    congr 1
    funext answer
    cases answer with
    | error m => rfl
    | ok free =>
      cases free with
      | false => rfl
      | true => exact congrFun (hserved p) s

/-! ## Where the body of a run can stop -/

section Body

variable {S : System World Op Ans Choice} [hosts : Hosts S anyTerms] {env : HelperEnv}
  {p : PushParams} {σ : Type} {l : Locals} {s : σ} {w : World}

/-- The synced file and the sidecar that records all of it as received. -/
structure Synced (u : Upload) (i : FileIdentity) (w : World) : Prop where
  part : w.part = some i
  clean : (w.files i).clean = true
  receipt : ∃ j, w.sidecar = some (j, .sealed (.new u u.size i .receiving))

/-- What is left for a later run to recognise the commit by. -/
structure Evidence (env : HelperEnv) (u : Upload) (i : FileIdentity) (w : World) : Prop extends
    Synced u i w where
  verified : Verified env u (w.files i)

variable {i : FileIdentity}

/-- The partial file is out of the reach of the other parties. -/
theorem stable_partFile (F : File → Prop) :
    Stable fun w => w.part = some i ∧ F (w.files i) := by
  intro w w' hw h
  rcases hw with rfl | ⟨-, k, f, hk, rfl⟩
  · exact h
  · have hne : i ≠ k := fun he => hk.2.1 (he ▸ h.1)
    refine ⟨h.1, ?_⟩
    change F ((w.setFile k f).files i)
    rw [World.setFile_files_of_ne w f hne]
    exact h.2

theorem stable_synced {u : Upload} : Stable (Synced u i) := by
  intro w w' hw h
  obtain ⟨hpart, hclean⟩ := stable_partFile (fun f => f.clean = true) w w' hw ⟨h.part, h.clean⟩
  exact ⟨hpart, hclean, stable_hasSealed _ w w' hw h.receipt⟩

theorem stable_evidence {u : Upload} : Stable (Evidence env u i) := by
  intro w w' hw h
  obtain ⟨-, hverified⟩ := stable_partFile (Verified env u) w w' hw ⟨h.part, h.verified⟩
  exact ⟨stable_synced w w' hw h.toSynced, hverified⟩

variable {file : FileIdentity}

/-- The file is synced before the sidecar records it. -/
theorem wp_recordDurable_synced (hw : w.part = some file) :
    wp S anyTerms (recordDurable env p file p.size)
      (fun _ _ w' => Synced p.toUpload file w') (fun _ _ _ => True) l w := by
  have hclean : Stable fun w => w.part = some file ∧ (w.files file).clean = true :=
    stable_partFile fun f => f.clean = true
  rw [recordDurable]
  refine calm_ensureStillBound.step (stable_part _) trivial hw (fun _ _ _ _ => trivial) ?_
  intro _ w1 _ hw1 _
  rw [wp_bind]
  refine wp_anyTerms (stable_part _) hw1 fun w' c a w2 hw' _ hexec => ⟨?_, fun _ _ => trivial⟩
  rintro _ rfl
  rcases exec_syncFile hexec with rfl | ⟨⟨m, hm⟩, -⟩
  · have hw2 : (w'.setFile file (w'.files file).sync).part = some file ∧
        ((w'.setFile file (w'.files file).sync).files file).clean = true := by
      refine ⟨hw', ?_⟩
      rw [World.setFile_files_self]
      rfl
    rw [wp_bind, wp_vars, wp_bind, wp_assign]
    refine calm_ensureStillBound.step hclean trivial hw2 (fun _ _ _ _ => trivial) ?_
    intro _ w3 _ hw3 _
    rw [replaceVerifiedResumeSidecar]
    refine calm_readResumeSidecar.step hclean trivial hw3 (fun _ _ _ _ => trivial) ?_
    intro current w4 _ hw4 _
    refine (calm_validate current file).step hclean trivial hw4 (fun _ _ _ _ => trivial) ?_
    intro _ w5 _ hw5 _
    refine wp_ensure_bind trivial fun _ => ?_
    refine wp_anyTerms hclean hw5 fun w6 c a w7 hw6 _ hexec => ⟨?_, fun _ _ => trivial⟩
    rintro _ rfl
    rcases exec_replaceSidecar hexec with ⟨j, hj, rfl⟩ | ⟨⟨m, hm⟩, -⟩
    · -- the new sidecar file is not the partial one
      have hne : file ≠ j := fun he => hj.2.1 (he ▸ hw6.1)
      refine ⟨hw6.1, ?_, j, rfl⟩
      change ((w6.setFile j File.created).files file).clean = true
      rw [World.setFile_files_of_ne w6 _ hne]
      exact hw6.2
    · cases hm
  · cases hm

/-- **The commit.**  If it fails, the target was not linked, or the error says that the outcome
    is unknown and the evidence is there. -/
theorem wp_commitOnce_evidence (hw : Evidence env p.toUpload file w ∧ w.linked = false) :
    wp S anyTerms (commitOnce file file p.size) (fun _ l' _ => l' = l)
      (fun e l' w' => l' = l ∧ (w'.linked = false ∨
        (e.is .commitOutcomeUnknown = true ∧ Evidence env p.toUpload file w'))) l w := by
  have hP : Stable fun w => Evidence env p.toUpload file w ∧ w.linked = false :=
    stable_evidence.and (stable_linked false)
  have hS : Stable (Evidence env p.toUpload file) := stable_evidence
  rw [commitOnce, wp_bind, wp_attempt, noReplaceCommit, wp_bind]
  refine wp_anyTerms hP hw fun w1 c a w2 hw1 _ hexec => ?_
  rcases exec_linkTarget hexec with ⟨rfl, -, rfl⟩ | ⟨⟨m, rfl⟩, rfl⟩
  · refine ⟨fun _ _ => ?_, fun m hm => (by cases hm)⟩
    have hlinked : Evidence env p.toUpload file { w1 with target := some file, linked := true } :=
      ⟨⟨hw1.1.part, hw1.1.clean, hw1.1.receipt⟩, hw1.1.verified⟩
    -- after the link every error is a plain one, and is reported as an unknown outcome
    have hfail : ∀ (e : Error) w', e.marks = [] → Evidence env p.toUpload file w' →
        wp S anyTerms
          (if e.is .commitNotApplied then fail e else fail (.commitOutcomeUnknown e))
          (fun (_ : Unit) l' _ => l' = l)
          (fun e l' w' => l' = l ∧ (w'.linked = false ∨
            (e.is .commitOutcomeUnknown = true ∧ Evidence env p.toUpload file w'))) l w' := by
      intro e w' he hw'
      have hnot : e.is .commitNotApplied = false := by
        simp [Failure.is, he]
      rw [hnot]
      exact ⟨rfl, .inr ⟨rfl, hw'⟩⟩
    refine (calm_openCommittedTarget file p.size).step hS trivial hlinked hfail ?_
    intro first w3 _ hw3 _
    refine (calm_syncParent.context _).step hS trivial hw3 hfail ?_
    intro _ w4 _ hw4 _
    refine (calm_openCommittedTarget file p.size).step hS trivial hw4 hfail ?_
    intro second w5 _ hw5 _
    refine (calm_fstat first _ fun _ => rfl).step hS trivial hw5 hfail ?_
    intro _ w6 _ hw6 _
    refine (calm_fstat second _ fun _ => rfl).step hS trivial hw6 hfail ?_
    intro _ w7 _ hw7 _
    exact Calm.ensure _ _ _ hS l w7 _ _ trivial hw7 (fun _ _ _ _ _ => rfl) hfail
  · refine ⟨fun _ hv => (by cases hv), fun m' hm' => ?_⟩
    cases hm'
    exact ⟨rfl, .inl hw1.2⟩

variable {E : Error → σ → World → Prop} {Q : Unit → σ → World → Prop}

/-- Removing an owned file, with what its removal makes known. -/
theorem wp_removeOwnedPrivateFile_after {path : PathName} {kind : String} {P P2 : World → Prop}
    (hP : Stable P) (hP2 : Stable P2) (hw : P w)
    (hafter : ∀ w' c w'', P w' → exec w' (.unlink path) c = some (.ok (), w'') → P2 w'')
    (hQ : ∀ w', P2 w' → Q () s w') (hE : ∀ e w', E e s w') :
    wp S anyTerms (removeOwnedPrivateFile env path i kind) Q E s w := by
  rw [removeOwnedPrivateFile]
  refine (calm_openExistingPrivate path).step hP trivial hw (fun e w' _ _ => hE e w') ?_
  intro file w1 _ hw1 _
  refine (calm_fstat file _ fun _ => rfl).step hP trivial hw1 (fun e w' _ _ => hE e w') ?_
  intro metadata w2 _ hw2 _
  refine wp_ensure_bind (hE _ _) fun _ => ?_
  rw [wp_bind]
  refine wp_anyTerms hP hw2 fun w' c a w3 hw' _ hexec => ⟨?_, fun _ _ => hE _ _⟩
  rintro _ rfl
  exact calm_syncParent.context _ P2 hP2 s w3 Q E trivial (hafter w' c w3 hw' hexec)
    (fun _ w'' _ hw'' _ => hQ w'' hw'') (fun e w'' _ _ => hE e w'')

theorem wp_removeOwnedSidecar_after {P P2 : World → Prop}
    (hP : Stable P) (hP2 : Stable P2) (hw : P w)
    (hafter : ∀ w', P w' → P2 { w' with sidecar := none })
    (hQ : ∀ w', P2 w' → Q () s w') (hE : ∀ e w', E e s w') :
    wp S anyTerms (removeOwnedSidecar env p i) Q E s w := by
  rw [removeOwnedSidecar]
  refine calm_readResumeSidecar.step hP trivial hw (fun e w' _ _ => hE e w') ?_
  intro state w1 _ hw1 _
  refine (calm_validate state i).step hP trivial hw1 (fun e w' _ _ => hE e w') ?_
  intro _ w2 _ hw2 _
  rw [wp_bind]
  refine wp_anyTerms hP hw2 fun w' c a w3 hw' _ hexec => ⟨?_, fun _ _ => hE _ _⟩
  rintro _ rfl
  rcases exec_unlink_sidecar hexec with ⟨-, rfl⟩ | ⟨⟨m, hm⟩, -⟩
  · exact calm_syncParent.context _ P2 hP2 s _ Q E trivial (hafter w' hw')
      (fun _ w'' _ hw'' _ => hQ w'' hw'') (fun e w'' _ _ => hE e w'')
  · cases hm

/-- The last thing sent is the report of completion. -/
def Completed (p : PushParams) (w : World) : Prop :=
  w.wire.head? = some (.sent (.completed p.size p.expectedSha256))

/-- The body of a run has ended well. -/
structure Finished (p : PushParams) (l : Locals) (w : World) : Prop where
  commitApplied : l.commitApplied = true
  completed : Completed p w
  /-- A run that does not resume leaves no files of its own. -/
  cleared : p.resume = false → w.part = none ∧ w.sidecar = none

/-- The body of a run has stopped with an error: after a known commit, without a link, or with
    the evidence of a commit whose outcome is unknown. -/
def Stopped (env : HelperEnv) (u : Upload) (e : Error) (l : Locals) (w : World) : Prop :=
  l.commitApplied = true ∨ (l.commitApplied = false ∧ (w.linked = false ∨
    (e.is .commitOutcomeUnknown = true ∧ ∃ i, Evidence env u i w)))

theorem keeps_true (op : Op) : op.Keeps fun _ => True := fun _ _ _ _ _ _ => trivial

/-- **After the commit** the run knows it, whatever fails. -/
theorem wp_reportCommitted_finished :
    wp S anyTerms (reportCommitted env p file p.expectedSha256)
      (fun _ => Finished p) (fun _ l' _ => l'.commitApplied = true) l w := by
  have hE : ∀ (e : Error) (l' : Locals) (w' : World), l'.commitApplied = true →
      l'.commitApplied = true := fun _ _ _ h => h
  have hcleared : Stable fun w => w.part = none ∧ (p.resume = false → w.sidecar = none) := by
    refine (stable_part none).and fun w w' hw h hresume => ?_
    exact stable_sidecar none w w' hw (h hresume)
  -- the report itself, once the files of the run are gone
  have hreport : ∀ (l : Locals) (w : World), l.commitApplied = true →
      w.part = none ∧ (p.resume = false → w.sidecar = none) →
      wp S anyTerms (do
        assign fun l => { l with owned := false }
        ensureStillBound
        ensureOriginalParentBound
        io (.send (.completed p.size p.expectedSha256)))
        (fun _ => Finished p) (fun _ l' _ => l'.commitApplied = true) l w := by
    intro l w hl hw
    rw [wp_bind, wp_assign]
    refine calm_ensureStillBound.step hcleared trivial hw (fun _ _ _ _ => hl) ?_
    intro _ w1 _ hw1 _
    refine calm_ensureOriginalParentBound.step hcleared trivial hw1 (fun _ _ _ _ => hl) ?_
    intro _ w2 _ hw2 _
    refine wp_anyTerms hcleared hw2 fun w' c a w3 hw' _ hexec => ⟨?_, fun _ _ => hl⟩
    rintro _ rfl
    rcases exec_send hexec with rfl | ⟨⟨m, hm⟩, -⟩
    · exact ⟨hl, rfl, fun hresume => ⟨hw'.1, hw'.2 hresume⟩⟩
    · cases hm
  rw [reportCommitted, wp_bind, wp_assign]
  generalize hknown : ({ l with commitApplied := true } : Locals) = l0
  have hl0 : l0.commitApplied = true := hknown ▸ rfl
  refine tame_next tame_ensureStillBound hl0 hE ?_
  intro _ l1 w1 hl1
  refine tame_next tame_ensureOriginalParentBound hl1 hE ?_
  intro _ l2 w2 hl2
  refine tame_next (tame_onlyIf (tame_persistReceipt file)) hl2 hE ?_
  intro _ l3 w3 hl3
  refine tame_next tame_ensureStillBound hl3 hE ?_
  intro _ l4 w4 hl4
  rw [wp_bind, orCleanupIncomplete, wp_mapError, removeOwnedPartial]
  refine wp_removeOwnedPrivateFile_after (stable_const True) (stable_part none) trivial ?_ ?_
    (fun _ _ => hl4)
  · intro w' c w'' _ hexec
    rcases exec_unlink_part hexec with ⟨-, rfl⟩ | ⟨⟨m, hm⟩, -⟩
    · rfl
    · cases hm
  · intro w5 hw5
    rw [wp_bind, wp_onlyIf]
    refine ⟨fun _ => ?_, fun hresume => hreport l4 w5 hl4 ⟨hw5, fun h => absurd h hresume⟩⟩
    rw [dropSidecar]
    refine calm_ensureStillBound.step (stable_part none) trivial hw5 (fun _ _ _ _ => hl4) ?_
    intro _ w6 _ hw6 _
    rw [orCleanupIncomplete, wp_mapError]
    refine wp_removeOwnedSidecar_after (stable_part none) hcleared hw6 ?_ ?_ (fun _ _ => hl4)
    · exact fun w' hw' => ⟨hw', fun _ => rfl⟩
    · exact fun w' hw' => hreport l4 w' hl4 hw'

theorem ignoresDurable_commitApplied (b : Bool) :
    IgnoresDurable fun l => l.commitApplied = b :=
  fun _ _ h => h

theorem wp_commitUpload_stopped {confirmed : Nat} {hashed : List UInt8}
    (hl : l.commitApplied = false) (hw : w.part = some file ∧ w.linked = false) :
    wp S anyTerms (commitUpload env p file confirmed hashed) (fun _ => Finished p)
      (Stopped env p.toUpload) l w := by
  have hP : Stable fun w => w.part = some file ∧ w.linked = false :=
    (stable_part _).and (stable_linked false)
  have hS : Stable fun w => Synced p.toUpload file w ∧ w.linked = false :=
    stable_synced.and (stable_linked false)
  have hV : Stable fun w => Evidence env p.toUpload file w ∧ w.linked = false :=
    stable_evidence.and (stable_linked false)
  have hstop : ∀ (e : Error) (l' : Locals) (w' : World), l'.commitApplied = false →
      w'.linked = false → Stopped env p.toUpload e l' w' :=
      fun _ _ _ hl' hw' => .inr ⟨hl', .inl hw'⟩
  rw [commitUpload]
  refine wp_ensure_bind (hstop _ _ _ hl hw.2) fun _ => ?_
  refine wp_ensure_bind (hstop _ _ _ hl hw.2) fun _ => ?_
  rw [wp_bind]
  have htame : Tame Inner (fun l => l.commitApplied = false) (recordDurable env p file p.size) :=
    tame_recordDurable (ignoresDurable_commitApplied false) file p.size
  have hrecord := tame_wp (S := S) htame hP
    (fun op hop => (hop.keeps_part _).and (hop.noLink.keeps_linked false)) hl hw
    (fun _ _ _ hl' hw' => And.intro hl' hw') (fun _ _ _ hl' hw' => And.intro hl' hw')
  refine wp_mono (wp_and hrecord (wp_recordDurable_synced hw.1)) ?_
    fun e l' w' h => hstop e l' w' h.1.1 h.1.2.2
  -- all bytes are durable, and their digest is checked
  rintro _ l1 w1 ⟨⟨hl1, -, hlinked⟩, hsynced⟩
  have hE : ∀ (e : Error) w', e.marks = [] → Synced p.toUpload file w' ∧ w'.linked = false →
      Stopped env p.toUpload e l1 w' := fun e w' _ hw' => hstop e l1 w' hl1 hw'.2
  have hE' : ∀ (e : Error) w', e.marks = [] →
      Evidence env p.toUpload file w' ∧ w'.linked = false → Stopped env p.toUpload e l1 w' :=
    fun e w' _ hw' => hstop e l1 w' hl1 hw'.2
  refine (calm_validateOwnedFileIdentity file file p.size).step hS trivial ⟨hsynced, hlinked⟩ hE ?_
  intro _ w2 _ hw2 _
  refine (calm_hashFileExact file p.size).step hS trivial hw2 hE ?_
  rintro actual w3 _ hw3 ⟨hsize, hactual⟩
  refine wp_ensure_bind (hstop _ _ _ hl1 hw3.2) fun hdigest => ?_
  subst hdigest
  have hevidence : Evidence env p.toUpload file w3 := ⟨hw3.1, hsize, hactual.symm⟩
  refine (calm_validateOwnedFileIdentity file file p.size).step hV trivial ⟨hevidence, hw3.2⟩ hE' ?_
  intro _ w4 _ hw4 _
  refine calm_ensureStillBound.step hV trivial hw4 hE' ?_
  intro _ w5 _ hw5 _
  refine calm_ensureOriginalParentBound.step hV trivial hw5 hE' ?_
  intro _ w6 _ hw6 _
  refine (calm_prepareNoReplaceCommit file file p.size).step hV trivial hw6 hE' ?_
  intro _ w7 _ hw7 _
  -- only now the target is linked
  rw [wp_bind]
  refine wp_mono (wp_commitOnce_evidence hw7) ?_ ?_
  · intro _ l' w' _
    exact wp_mono wp_reportCommitted_finished (fun _ _ _ h => h) fun _ _ _ h => .inl h
  · rintro e l' w' ⟨rfl, hw' | ⟨hunknown, hw'⟩⟩
    · exact hstop e l' w' hl1 hw'
    · exact .inr ⟨hl1, .inr ⟨hunknown, file, hw'⟩⟩

/-- The report of a commit that was found done. -/
theorem wp_reportRecovered_finished (hl : l.commitApplied = true) (hresume : p.resume = true) :
    wp S anyTerms (reportRecovered p) (fun _ => Finished p) (fun _ l' _ => l'.commitApplied = true)
      l w := by
  have hE : ∀ (e : Error) (l' : Locals) (w' : World), l'.commitApplied = true →
      l'.commitApplied = true := fun _ _ _ h => h
  have hconfirm : ∀ frame : Option Frame,
      Tame Inner (fun l => l.commitApplied = true) (awaitCommitConfirmation frame) := by
    intro frame
    unfold awaitCommitConfirmation
    split
    · exact tame_pure ()
    · exact tame_fail _
    · exact tame_fail _
    · exact tame_fail _
  rw [reportRecovered]
  refine tame_next (tame_inner rfl rfl) hl hE ?_
  intro _ l1 w1 hl1
  refine tame_next (tame_inner rfl rfl) hl1 hE ?_
  intro frame l2 w2 hl2
  refine tame_next (hconfirm frame) hl2 hE ?_
  intro _ l3 w3 hl3
  refine tame_next tame_ensureStillBound hl3 hE ?_
  intro _ l4 w4 hl4
  refine tame_next tame_ensureOriginalParentBound hl4 hE ?_
  intro _ l5 w5 hl5
  refine wp_anyTerms (stable_const True) trivial fun w' c a w6 _ _ hexec => ⟨?_, fun _ _ => hl5⟩
  rintro _ rfl
  rcases exec_send hexec with rfl | ⟨⟨m, hm⟩, -⟩
  · refine ⟨hl5, rfl, fun h => ?_⟩
    rw [hresume] at h
    cases h
  · cases hm

/-- **Recovery**: an error before the target is recognised comes without a link, and an error
    after it comes with the knowledge of the commit. -/
theorem wp_recoverCommitted_stopped (hl : l.commitApplied = false) (hw : w.linked = false) :
    wp S anyTerms (recoverCommitted env p) (fun _ => Finished p) (Stopped env p.toUpload) l w := by
  have hL : Stable fun w => w.linked = false := stable_linked false
  have hlook : ∀ (e : Error) w', e.marks = [] → w'.linked = false →
      Stopped env p.toUpload e l w' := fun _ _ _ hw' => .inr ⟨hl, .inl hw'⟩
  have hknown : ∀ (e : Error) (l' : Locals) (w' : World), l'.commitApplied = true →
      Stopped env p.toUpload e l' w' := fun _ _ _ h => .inl h
  rw [recoverCommitted]
  refine wp_ensure_bind (hlook _ _ rfl hw) fun hresume => ?_
  refine (calm_readResumeSidecar.context _).step hL trivial hw hlook ?_
  intro state w1 _ hw1 _
  refine (calm_openExistingPrivate .target).step hL trivial hw1 hlook ?_
  intro targetFile w2 _ hw2 _
  refine (calm_fstat targetFile _ fun _ => rfl).step hL trivial hw2 hlook ?_
  intro metadata w3 _ hw3 _
  refine (calm_validate state metadata.identity).step hL trivial hw3 hlook ?_
  intro _ w4 _ hw4 _
  refine wp_ensure_bind (hlook _ _ rfl hw4) fun _ => ?_
  refine (calm_hashFileExact targetFile p.size).step hL trivial hw4 hlook ?_
  intro digest w5 _ hw5 _
  refine wp_ensure_bind (hlook _ _ rfl hw5) fun _ => ?_
  -- the target is recognised
  rw [wp_bind, wp_assign]
  generalize hcommit : ({ l with commitApplied := true } : Locals) = l0
  have hl0 : l0.commitApplied = true := hcommit ▸ rfl
  refine tame_next tame_ensureStillBound hl0 hknown ?_
  intro _ l1 w6 hl1
  refine tame_next tame_ensureOriginalParentBound hl1 hknown ?_
  intro _ l2 w7 hl2
  refine tame_next (tame_syncParent.mapError _) hl2 hknown ?_
  intro _ l3 w8 hl3
  refine tame_next tame_ensureStillBound hl3 hknown ?_
  intro _ l4 w9 hl4
  refine tame_next ((tame_replaceVerifiedResumeSidecar _ _ _ _).mapError _) hl4 hknown ?_
  intro _ l5 w10 hl5
  refine tame_next (tame_inner rfl rfl) hl5 hknown ?_
  intro _ l6 w11 hl6
  refine tame_next (tame_onlyIf (tame_removeRecoveredPartial _)) hl6 hknown ?_
  intro _ l7 w12 hl7
  exact wp_mono (wp_reportRecovered_finished hl7 hresume) (fun _ _ _ h => h) fun _ _ _ h => .inl h

/-- A file that was opened has the partial name. -/
theorem wp_openPartial_part :
    wp S anyTerms (openPartial env p) (fun opened _ w' => w'.part = some opened.1)
      (fun _ _ _ => True) l w := by
  have hT : Stable fun _ => True := stable_const True
  have hresumed : ∀ w, wp S anyTerms (resumePartial env p)
      (fun opened _ w' => w'.part = some opened.1) (fun _ _ _ => True) l w := by
    intro w
    rw [resumePartial]
    refine calm_readResumeSidecar.step hT trivial trivial (fun _ _ _ _ => trivial) ?_
    intro state w1 _ _ _
    refine (calm_openExistingPrivate .part).step hT trivial trivial (fun _ _ _ _ => trivial) ?_
    intro file w2 _ _ hfile
    have hP : Stable fun w => w.part = some file := stable_part _
    refine (calm_fstat file _ fun _ => rfl).step hP trivial hfile (fun _ _ _ _ => trivial) ?_
    intro metadata w3 _ hw3 _
    refine (calm_validate state metadata.identity).step hP trivial hw3 (fun _ _ _ _ => trivial) ?_
    intro _ w4 _ hw4 _
    refine wp_ensure_bind trivial fun _ => ?_
    rw [wp_bind, wp_assign]
    refine wp_ensure_bind trivial fun _ => ?_
    refine tame_step (tame_onlyIf (tame_cutToDurable file _)) hP
      (fun op hop => hop.keeps_part _) (K := fun _ => True) trivial hw4
      (fun _ _ _ _ _ => trivial) ?_
    intro _ l1 w5 _ hw5
    refine calm_hashDurablePrefix file _ _ hP l1 w5 _ _ trivial hw5 ?_ (fun _ _ _ _ => trivial)
    intro opened w' _ hw' hopened
    rw [hopened]
    exact hw'
  have hcreated : ∀ w, wp S anyTerms (createPartial env p)
      (fun opened _ w' => w'.part = some opened.1) (fun _ _ _ => True) l w := by
    intro w
    rw [createPartial]
    refine calm_ensureStillBound.step hT trivial trivial (fun _ _ _ _ => trivial) ?_
    intro _ w1 _ _ _
    rw [wp_bind]
    refine wp_anyTerms hT trivial fun w' c a w2 _ _ hexec => ⟨?_, fun _ _ => trivial⟩
    rintro file rfl
    rcases exec_createNew_part hexec with ⟨i, hi, -, -, rfl⟩ | ⟨⟨m, hm⟩, -⟩
    · cases hi
      rw [wp_bind, wp_assign]
      have hP : Stable fun w => w.part = some file := stable_part _
      refine (calm_fstat file _ fun _ => rfl).step hP trivial rfl (fun _ _ _ _ => trivial) ?_
      intro metadata w3 _ hw3 _
      refine calm_ensureStillBound.step hP trivial hw3 (fun _ _ _ _ => trivial) ?_
      intro _ w4 _ hw4 _
      rw [wp_bind, wp_attempt]
      refine tame_wp (tame_createResumeSidecar _) hP (fun op hop => hop.keeps_part _)
        (K := fun _ => True) trivial hw4 ?_ (fun _ _ _ _ hw' => hw')
      intro e l' w' _ _
      -- the sidecar was not created, and the run fails whatever comes of the partial file
      rw [wp_bind, wp_attempt]
      have hcleanup : Tame NoLink (fun _ : Locals => True) (do
          ensureStillBound
          removeOwnedPartial env metadata.identity) :=
        (tame_noLink rfl).bind fun _ => tame_removeOwnedPartial _
      exact tame_wp hcleanup hT (fun op _ => keeps_true op) trivial trivial
        (fun _ _ _ _ _ => trivial) (fun _ _ _ _ _ => trivial)
    · cases hm
  rw [openPartial]
  cases p.resume with
  | true =>
    refine (calm_pathEntryExists .sidecar).step hT trivial trivial (fun _ _ _ _ => trivial) ?_
    intro continuing w1 _ _ _
    cases continuing with
    | true => exact hresumed w1
    | false => exact hcreated w1
  | false => exact hcreated w

/-- **The body of a run**, from a state in which this run has not linked anything. -/
theorem wp_pushBody_stopped (fuel : Nat) (hw : w.linked = false) :
    wp S anyTerms (pushBody env p fuel) (fun _ => Finished p) (Stopped env p.toUpload) {} w := by
  have hL : Stable fun w => w.linked = false := stable_linked false
  have hstop : ∀ (e : Error) (l' : Locals) (w' : World), l'.commitApplied = false →
      w'.linked = false → Stopped env p.toUpload e l' w' :=
      fun _ _ _ hl' hw' => .inr ⟨hl', .inl hw'⟩
  rw [pushBody]
  refine (calm_pathEntryExists .target).step hL trivial hw (fun e w' _ h => hstop e _ w' rfl h) ?_
  intro targetExists w1 _ hw1 _
  cases targetExists with
  | true => exact wp_recoverCommitted_stopped rfl hw1
  | false =>
    simp only [Bool.false_eq_true, if_false]
    rw [wp_bind]
    have htame : Tame NoLink (fun l => l.commitApplied = false) (openPartial env p) :=
      tame_openPartial (ignoresDurable_commitApplied false) fun _ h => h
    have hopen := tame_wp (S := S) (s := {}) htame hL (fun op hop => hop.keeps_linked false) rfl hw1
      (fun _ _ _ hl' hw' => And.intro hl' hw') (fun _ _ _ hl' hw' => And.intro hl' hw')
    refine wp_mono (wp_and hopen wp_openPartial_part) ?_ fun e l' w' h => hstop e l' w' h.1.1 h.1.2
    rintro opened l1 w2 ⟨⟨hl1, hlinked⟩, hpart⟩
    have hP : Stable fun w => w.part = some opened.1 ∧ w.linked = false :=
      (stable_part _).and (stable_linked false)
    have hkeep : ∀ op, Inner op → op.Keeps fun w => w.part = some opened.1 ∧ w.linked = false :=
      fun op hop => (hop.keeps_part _).and (hop.noLink.keeps_linked false)
    have hE : ∀ (e : Error) (l' : Locals) (w' : World), l'.commitApplied = false →
        w'.part = some opened.1 ∧ w'.linked = false → Stopped env p.toUpload e l' w' :=
      fun e l' w' hl' hw' => hstop e l' w' hl' hw'.2
    rw [wp_bind, wp_assign, wp_bind, wp_vars]
    generalize howner : ({ l1 with owned := true, ownedIdentity := some opened.1 } : Locals) = l2
    have hl2 : l2.commitApplied = false := howner ▸ hl1
    refine tame_step (tame_inner rfl rfl) hP hkeep hl2 ⟨hpart, hlinked⟩ hE ?_
    intro _ l3 w3 hl3 hw3
    refine tame_step (tame_receiveLoop (ignoresDurable_commitApplied false) opened.1 fuel _ _) hP
      hkeep hl3 hw3 hE ?_
    intro received l4 w4 hl4 hw4
    exact wp_commitUpload_stopped hl4 hw4

end Body

/-! ## What the end of a run reports -/

section End

variable {S : System World Op Ans Choice} [hosts : Hosts S anyTerms] {env : HelperEnv}
  {p : PushParams} {l : Locals} {w : World}

/-- The result of a run accounts for what the run has done to the target. -/
structure Accounted (env : HelperEnv) (u : Upload) (result : Except Error Unit) (l : Locals)
    (w : World) : Prop where
  plain : ∀ e, result = .error e → Admits e ∨ (l.commitApplied = false ∧ w.linked = false)
  completed : result = .ok () →
    w.wire.head? = some (.sent (.completed u.size u.expectedSha256))
  evidence : w.linked = true → l.commitApplied = false → ∃ i, Evidence env u i w

variable {u : Upload}

theorem stable_accounted {result : Except Error Unit} :
    Stable (Accounted env u result l) := by
  intro w w' hw h
  have hlinked : w'.linked = w.linked := stable_linked _ w w' hw rfl
  have hwire : w'.wire = w.wire := stable_wire _ w w' hw rfl
  refine ⟨fun e he => ?_, fun hok => ?_, fun hl hc => ?_⟩
  · rw [hlinked]
    exact h.plain e he
  · rw [hwire]
    exact h.completed hok
  · obtain ⟨i, hi⟩ := h.evidence (hlinked ▸ hl) hc
    exact ⟨i, stable_evidence w w' hw hi⟩

/-- An error that admits something accounts for a known commit. -/
theorem Accounted.of_admits (he : Admits e)
    (hl : l.commitApplied = true) : Accounted env u (.error e) l w where
  plain e' he' := .inl (Except.error.inj he' ▸ he)
  completed := nofun
  evidence _ h := by
    rw [hl] at h
    cases h

/-- Any error accounts for a run that has not linked the target. -/
theorem Accounted.of_not_linked (e : Error) (hl : l.commitApplied = false)
    (hw : w.linked = false) : Accounted env u (.error e) l w where
  plain _ _ := .inr ⟨hl, hw⟩
  completed := nofun
  evidence h := by
    rw [hw] at h
    cases h

/-- The cleanup hands over its result, and keeps what operations other than the link keep. -/
theorem wp_cleanupOwned {P : World → Prop} {Q : Except Error Unit → Unit → World → Prop}
    {E : Error → Unit → World → Prop} (hP : Stable P) (hkeep : ∀ op, NoLink op → op.Keeps P)
    (hw : P w) (hQ : ∀ cleanup w', P w' → Q cleanup () w') :
    wp S anyTerms (cleanupOwned env p l) Q E () w := by
  rw [cleanupOwned]
  split
  · rename_i i _
    have hcleanup : Tame NoLink (fun _ : Unit => True) (do
        ensureStillBound
        cleanupFailedUpload env p i l.durable l.commitApplied) :=
      (tame_noLink rfl).bind fun _ => tame_cleanupFailedUpload _ _ _
    rw [wp_attempt]
    exact tame_wp hcleanup hP hkeep trivial hw (fun _ _ w' _ hw' => hQ _ w' hw')
      (fun _ _ w' _ hw' => hQ _ w' hw')
  · exact hQ _ w hw

/-- **The end of a run** accounts for where its body has stopped. -/
theorem wp_finishPush_accounted {result : Except Error Unit}
    (hok : result = .ok () → Finished p l w)
    (herror : ∀ e, result = .error e → Stopped env p.toUpload e l w) :
    wp S anyTerms (finishPush env p result l)
      (fun _ _ w' => Accounted env p.toUpload (.ok ()) l w')
      (fun e _ w' => Accounted env p.toUpload (.error e) l w') () w := by
  rw [finishPush]
  cases result with
  | ok _ =>
    have hfinished := hok rfl
    refine ⟨fun _ he => (by cases he), fun _ => hfinished.completed, fun _ h => ?_⟩
    rw [hfinished.commitApplied] at h
    cases h
  | error e =>
    rcases herror e rfl with hl | ⟨hl, hstopped⟩
    · -- after a known commit every error admits it, and the cleanup adds to that only
      obtain ⟨e', he', hadmits⟩ := exists_normalized e
      rw [hl, he']
      simp only
      split
      · rw [wp_bind]
        refine wp_cleanupOwned (stable_const True) (fun op _ => keeps_true op) trivial ?_
        intro cleanup w' _
        cases cleanup with
        | ok _ => exact .of_admits hadmits hl
        | error _ => exact .of_admits (.context _) hl
      · exact .of_admits hadmits hl
    · have hplain : normalizePostCommitResult (.error e) false = .error e := rfl
      rw [hl, hplain]
      simp only
      rcases hstopped with hw | ⟨hunknown, hevidence⟩
      · split
        · rw [wp_bind]
          refine wp_cleanupOwned (stable_linked false) (fun op hop => hop.keeps_linked false) hw ?_
          intro cleanup w' hw'
          cases cleanup with
          | ok _ => exact .of_not_linked e hl hw'
          | error _ => exact .of_not_linked _ hl hw'
        · exact .of_not_linked e hl hw
      · -- the evidence is not cleaned up
        have hkept : preservesEvidence (.error e) false = true := by
          simp [preservesEvidence, hunknown]
        rw [hkept]
        simp only [Bool.not_true, Bool.and_false, Bool.false_eq_true, if_false]
        refine ⟨fun e' he' => .inl ?_, fun hok => (by cases hok), fun _ _ => hevidence⟩
        exact Except.error.inj he' ▸ admits_iff.mpr (.inl hunknown)

theorem wp_tracedPush {r : PushRequest} (fuel : Nat) (hw : w.linked = false) :
    wp S anyTerms (tracedPush env r fuel)
      (fun t _ w' => Accounted env (r.upload env) t.1 t.2 w') (fun _ _ _ => False) () w := by
  have hL : Stable fun w => w.linked = false := stable_linked false
  rw [tracedPush, wp_bind, wp_attempt, wp_bind, wp_orElseFail]
  refine ⟨fun p hp => ?_, fun e _ => .of_not_linked _ rfl hw⟩
  obtain ⟨hupload, -⟩ := upload_of_pushParams hp
  refine (calm_io rfl fun _ => rfl).step hL trivial hw (fun e w' _ hw' => .of_not_linked e rfl hw')
    ?_
  intro free w1 _ hw1 _
  rw [wp_bind, wp_require]
  refine ⟨fun _ => ?_, fun _ => .of_not_linked _ rfl hw1⟩
  rw [wp_pure, wp_bind, wp_within]
  have hfinish : ∀ (result : Except Error Unit) (l : Locals) (w' : World),
      (result = .ok () → Finished p l w') →
      (∀ e, result = .error e → Stopped env p.toUpload e l w') →
      wp S anyTerms (do
        let result ← attempt (finishPush env p result l)
        return (result, l))
        (fun t _ w' => Accounted env (r.upload env) t.1 t.2 w') (fun (_ : Error) _ _ => False)
        () w' := by
    intro result l w' hok herror
    rw [← hupload, wp_bind, wp_attempt]
    exact wp_finishPush_accounted hok herror
  refine wp_mono (wp_pushBody_stopped fuel hw1) ?_ ?_
  · exact fun _ l w' hdone => hfinish _ l w' (fun _ => hdone) nofun
  · intro e l w' hstopped
    refine hfinish _ l w' nofun fun e' he' => ?_
    cases he'
    exact hstopped

end End

/-! ## Every run -/

/-- **The report of a run and the target.**  A run of `servePush` is a traced run whose result is
    returned.  In every traced run for an upload, with other parties and with any operations
    failing, `linked` being about this run:

    - the code is that of a plain failure or of a busy transfer only if the run has neither linked
      the target nor recognised it as its own;
    - a run that has linked the target ends with the report of completion, or with the code for an
      incomplete cleanup or for an unknown outcome;
    - if the linked entry was not verified, the partial file is still there, complete and synced,
      and so is the sidecar that records all of it as received. -/
theorem push_report_matches_target (env : HelperEnv) (r : PushRequest) (fuel : Nat) (w₀ : World)
    {ms : List (Pool.Move Unit Empty Choice)}
    {cfg : Pool.Config Unit World Op Ans (Except Error (Except Error Unit × Locals) × Unit)}
    (hrun : (Pool.solo xferSystem).run
      (Pool.running (tracedPush env r fuel ()) { w₀ with linked := false }) ms = some cfg)
    {result : Except Error Unit} {l : Locals}
    (hend : cfg.threads () = some (.ret (.ok (result, l), ()))) :
    (servePush env r fuel = do
      let traced ← tracedPush env r fuel
      orElseFail id traced.1) ∧
    (∀ e, result = .error e →
      errorCode e = .transferFailed ∨ errorCode e = .transferBusy →
      cfg.world.linked = false ∧ l.commitApplied = false) ∧
    (cfg.world.linked = true →
      (result = .ok () ∧
        cfg.world.wire.head? = some (.sent (.completed r.size r.expectedSha256))) ∨
      ∃ e, result = .error e ∧
        (errorCode e = .cleanupIncomplete ∨ errorCode e = .outcomeUnknown)) ∧
    (cfg.world.linked = true → l.commitApplied = false →
      ∃ i j, cfg.world.part = some i ∧
        (cfg.world.files i).data.length = r.size ∧
        env.digest (cfg.world.files i).data = r.expectedSha256 ∧
        (cfg.world.files i).clean = true ∧
        cfg.world.sidecar = some (j, .sealed (.new (r.upload env) r.size i .receiving))) := by
  rw [← System.restrict_true xferSystem] at hrun
  have htraced : wp (xferSystem.restrict fun _ _ _ => true) anyTerms (tracedPush env r fuel)
      (fun t _ => Accounted env (r.upload env) t.1 t.2) (fun _ _ _ => False) ()
      { w₀ with linked := false } := wp_tracedPush fuel rfl
  -- all three parts follow from what is accounted for
  have haccounted : Accounted env (r.upload env) result l cfg.world :=
    (post_of_run (Q := fun t => Accounted env (r.upload env) t.1 t.2) (fun _ => stable_accounted)
      (fun _ => stable_const False) htraced hrun hend).1 _ rfl
  refine ⟨servePush_eq_traced env r fuel, ?_, ?_, ?_⟩
  · intro e he hcode
    rcases haccounted.plain e he with hadmits | ⟨hl, hw⟩
    · rcases hadmits with h | h <;> rw [h] at hcode <;> simp at hcode
    · exact ⟨hw, hl⟩
  · intro hlinked
    cases result with
    | ok _ => exact .inl ⟨rfl, haccounted.completed rfl⟩
    | error e =>
      rcases haccounted.plain e rfl with hadmits | ⟨-, hw⟩
      · exact .inr ⟨e, rfl, hadmits.symm⟩
      · rw [hlinked] at hw
        cases hw
  · intro hlinked hl
    obtain ⟨i, hi⟩ := haccounted.evidence hlinked hl
    obtain ⟨j, hj⟩ := hi.receipt
    exact ⟨i, j, hi.part, hi.verified.1, hi.verified.2, hi.clean, hj⟩

/-- The choices of a run whose link takes effect, after which the target cannot be opened. -/
def hiUnverified : List Choice :=
  hiReceived ++ [.ok, .frame (some (.control .commit))] ++ List.replicate 6 .ok ++
    [.alloc ⟨1, 4⟩] ++ List.replicate 10 .ok ++ [.fail "Input/output error"]

/-- The code of a run that has ended with an error, and whether it knew of a commit. -/
def failedWith : Except Error (Except Error Unit × Locals) × Unit → Option (ErrorCode × Bool)
  | (.ok (.error e, l), _) => some (errorCode e, l.commitApplied)
  | _ => none

theorem eq_of_failedWith {t : Except Error (Except Error Unit × Locals) × Unit}
    {code : ErrorCode} {known : Bool} (h : failedWith t = some (code, known)) :
    ∃ e l, t = (.ok (.error e, l), ()) ∧ errorCode e = code ∧ l.commitApplied = known := by
  obtain ⟨_ | ⟨e | _, l⟩, _⟩ := t
  · cases h
  · cases h
    exact ⟨e, l, rfl, rfl, rfl⟩
  · cases h

theorem hi_unverified_evidence :
    ∃ cfg e l i j, (Pool.solo xferSystem).run
        (Pool.running (tracedPush hiEnv hiRequest 2 ()) { emptyWorld with linked := false })
        (hiUnverified.map (.step ())) = some cfg ∧
      cfg.threads () = some (.ret (.ok (.error e, l), ())) ∧
      errorCode e = .outcomeUnknown ∧ cfg.world.part = some i ∧
      (cfg.world.files i).clean = true ∧
      cfg.world.sidecar = some (j, .sealed (.new (hiRequest.upload hiEnv) 2 i .receiving)) := by
  have hrun : ((Pool.solo xferSystem).run
      (Pool.running (tracedPush hiEnv hiRequest 2 ()) { emptyWorld with linked := false })
      (hiUnverified.map (.step ()))).map (fun cfg =>
        ((cfg.returned ()).bind failedWith, cfg.world.linked)) =
      some (some (.outcomeUnknown, false), true) := by
    rfl
  obtain ⟨cfg, hcfg, hended⟩ := Option.map_eq_some_iff.mp hrun
  obtain ⟨hfailed, hlinked⟩ := Prod.mk.inj hended
  obtain ⟨t, ht, hcode⟩ := Option.bind_eq_some_iff.mp hfailed
  obtain ⟨e, l, rfl, hunknown, hl⟩ := eq_of_failedWith hcode
  have hend := Pool.Config.threads_of_returned ht
  have hreport := push_report_matches_target hiEnv hiRequest 2 emptyWorld hcfg hend
  obtain ⟨i, j, hpart, -, -, hclean, hsidecar⟩ := hreport.2.2.2 hlinked hl
  exact ⟨cfg, e, l, i, j, hcfg, hend, hunknown, hpart, hclean, hsidecar⟩

end Serctl.Xfer
