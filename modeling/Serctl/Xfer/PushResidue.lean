import Serctl.Xfer.PushOutcome

/-!
# What a failed upload leaves behind

A run that does not resume creates a partial file and a sidecar, and removes both when it fails.
Its error admits what it could not remove, with three exceptions.  The run keeps a file for its
own once it has read the file's identity, and for the partial file once the sidecar is written;
a failure between the creation of a file and that point is reported as a plain one, and the file
stays.
-/

namespace Serctl.Xfer

open Lib Lib.Act

/-- The names of the partial file and of the sidecar are what they were before the run. -/
def Untouched (w₀ w : World) : Prop := w.part = w₀.part ∧ w.sidecar = w₀.sidecar

instance (w₀ w : World) : Decidable (Untouched w₀ w) := inferInstanceAs (Decidable (_ ∧ _))

theorem stable_untouched {w₀ : World} : Stable (Untouched w₀) :=
  (stable_part _).and (stable_sidecar _)

/-- The steps between the creation of a file and its registration: the identity of the new
    partial file is read and the guard is checked, before there is a new sidecar; the identity of
    the new sidecar is read, before it holds a record. -/
def unregistered (w₀ w : World) : Op → Bool
  | .ensureStillBound => w₀.part.isNone && w.part.isSome && w.sidecar == w₀.sidecar
  | .fstat i =>
    (w₀.part.isNone && w.part == some i && w.sidecar == w₀.sidecar) ||
      (w₀.sidecar.isNone && w.sidecar == some (i, .torn))
  | _ => false

/-- The operation fails. -/
def Choice.isFail : Choice → Bool
  | .fail _ => true
  | _ => false

/-- No step before a created file is registered fails. -/
def registered (w₀ w : World) (op : Op) (c : Choice) : Bool :=
  !(unregistered w₀ w op && c.isFail)

section Left

variable {w₀ : World} {env : HelperEnv} {p : PushParams} {σ : Type} {l : Locals} {s : σ}
  {w : World}

/-- A step that may not fail here. -/
theorem wp_registered {op : Op} {f : String → Error} {P : World → Prop} {v : World → Val op}
    {Q : Val op → σ → World → Prop} {E : Error → σ → World → Prop}
    (hop : ∀ w c, exec w op c = settle w (v w) w c) (hP : Stable P) (hw : P w)
    (hnew : ∀ w', P w' → unregistered w₀ w' op = true) (hQ : ∀ w', P w' → Q (v w') s w') :
    wp (xferSystem.restrict (registered w₀)) anyTerms (io op f) Q E s w := by
  refine wp_anyTerms hP hw fun w' c a w'' hw' hrestricted hexec => ?_
  have hpermitted := (System.restrict_exec.mp hrestricted).1
  rw [hop] at hexec
  cases c with
  | ok =>
    cases hexec
    refine ⟨fun a ha => ?_, nofun⟩
    cases ha
    exact hQ _ hw'
  | fail m => simp [registered, hnew w' hw', Choice.isFail] at hpermitted
  | _ => cases hexec

/-- The partial file is new, and there is no new sidecar. -/
structure NewPart (w₀ : World) (i : FileIdentity) (w : World) : Prop where
  part : w.part = some i
  absent : w₀.part = none
  sidecar : w.sidecar = w₀.sidecar

theorem stable_newPart {i : FileIdentity} : Stable (NewPart w₀ i) := by
  intro w w' hw h
  exact ⟨stable_part _ w w' hw h.part, h.absent, stable_sidecar _ w w' hw h.sidecar⟩

/-- The sidecar is created with its first record or not at all, unless the error admits that it
    was left. -/
theorem wp_createResumeSidecar_left {i : FileIdentity} {record : ResumeSidecar}
    (hw : NewPart w₀ i w) :
    wp (xferSystem.restrict (registered w₀)) anyTerms (createResumeSidecar env record)
      (fun _ _ _ => w₀.sidecar = none) (fun e _ w' => NewPart w₀ i w' ∨ Admits e) s w := by
  rw [createResumeSidecar, wp_bind]
  refine wp_anyTerms stable_newPart hw fun w1 c a w2 hw1 _ hexec => ?_
  rcases exec_createNew_sidecar hexec with ⟨j, rfl, hnone, -, rfl⟩ | ⟨⟨m, rfl⟩, rfl⟩
  · refine ⟨fun file hfile => ?_, fun m hm => (by cases hm)⟩
    cases hfile
    have habsent : w₀.sidecar = none := hw1.sidecar ▸ hnone
    have hT : Stable fun w => w.part = some i ∧ w.sidecar = some (j, .torn) :=
      (stable_part _).and (stable_sidecar _)
    have hP : Stable fun w => w.part = some i := stable_part _
    rw [wp_bind]
    refine wp_registered (fun _ _ => rfl) hT ⟨hw1.part, rfl⟩ ?_ ?_
    · intro w' hw'
      simp [unregistered, habsent, hw'.2]
    intro w3 hw3
    have hpersist : Tame Inner (fun _ : σ => True) (do
        io (.writeSidecar record) fun m => (Failure.msg m).context "write initial resume sidecar"
        io (.syncFile j) fun m => (Failure.msg m).context "sync initial resume sidecar"
        mapError (fun e => e.context "sync initial resume sidecar parent") syncParent) :=
      (tame_inner rfl rfl).bind fun _ => (tame_inner rfl rfl).bind fun _ =>
        tame_syncParent.mapError _
    rw [wp_bind, wp_attempt]
    refine tame_wp hpersist hP (fun op hop => hop.keeps_part _) trivial hw3.1 ?_
      (fun _ _ _ _ _ => habsent)
    intro e s' w' _ hw'
    rw [wp_bind, wp_attempt]
    refine wp_removeOwnedPrivateFile_after hP ((stable_part (some i)).and (stable_sidecar none)) hw'
      ?_ ?_ ?_
    · intro w4 c w5 hw4 hunlink
      rcases exec_unlink_sidecar hunlink with ⟨-, rfl⟩ | ⟨⟨m, hm⟩, -⟩
      · exact ⟨hw4, rfl⟩
      · cases hm
    · exact fun w'' hw'' => .inl ⟨hw''.1, hw1.absent, hw''.2.trans habsent.symm⟩
    · exact fun e' w'' => .inr (admits_cleanupIncomplete _)
  · exact ⟨fun _ hv => (by cases hv), fun m' _ => .inl hw1⟩

theorem wp_createPartial_left (hw : Untouched w₀ w) :
    wp (xferSystem.restrict (registered w₀)) anyTerms (createPartial env p)
      (fun _ _ _ => w₀.part = none ∧ w₀.sidecar = none)
      (fun e _ w' => Untouched w₀ w' ∨ Admits e) l w := by
  rw [createPartial]
  refine calm_ensureStillBound.step stable_untouched trivial hw (fun _ _ _ h => .inl h) ?_
  intro _ w1 _ hw1 _
  rw [wp_bind]
  refine wp_anyTerms stable_untouched hw1 fun w2 c a w3 hw2 _ hexec => ?_
  rcases exec_createNew_part hexec with ⟨i, rfl, hnone, -, rfl⟩ | ⟨⟨m, rfl⟩, rfl⟩
  · refine ⟨fun file hfile => ?_, fun m hm => (by cases hm)⟩
    cases hfile
    have hnew : NewPart w₀ i { w2.setFile i File.created with part := some i } :=
      ⟨rfl, hw2.1 ▸ hnone, hw2.2⟩
    rw [wp_bind, wp_assign, wp_bind]
    refine wp_registered (fun _ _ => rfl) stable_newPart hnew ?_ ?_
    · intro w' hw'
      simp [unregistered, hw'.part, hw'.absent, hw'.sidecar]
    intro w4 hw4
    rw [wp_bind]
    refine wp_registered (v := fun _ => ()) (fun _ _ => rfl) stable_newPart hw4 ?_ ?_
    · intro w' hw'
      simp [unregistered, hw'.part, hw'.absent, hw'.sidecar]
    intro w5 hw5
    rw [wp_bind, wp_attempt]
    refine wp_mono (wp_createResumeSidecar_left hw5) (fun _ _ _ h => ⟨hw5.absent, h⟩) ?_
    intro e l' w6 hleft
    -- the sidecar failed: the partial file goes too, or the error says that it has not
    have hE : ∀ (e' : Error) (w' : World),
        wp (xferSystem.restrict (registered w₀)) anyTerms
          (fail (reconcileInitialSidecarFailure e (.error e') "partial") :
            Io Locals (FileIdentity × List UInt8))
          (fun _ _ _ => w₀.part = none ∧ w₀.sidecar = none)
          (fun e _ w' => Untouched w₀ w' ∨ Admits e) l' w' :=
      fun e' w' => .inr (admits_cleanupIncomplete _)
    have hP : Stable fun w => NewPart w₀ i w ∨ Admits e := fun w w' hw h =>
      h.imp (stable_newPart w w' hw) id
    have hP2 : Stable fun w => Untouched w₀ w ∨ Admits e := fun w w' hw h =>
      h.imp (stable_untouched w w' hw) id
    rw [wp_bind, wp_attempt]
    refine calm_ensureStillBound.step hP trivial hleft (fun e' w' _ _ => hE e' w') ?_
    intro _ w7 _ hw7 _
    rw [removeOwnedPartial]
    refine wp_removeOwnedPrivateFile_after hP hP2 hw7 ?_ (fun _ h => h) hE
    intro w' c w'' hw' hunlink
    rcases exec_unlink_part hunlink with ⟨-, rfl⟩ | ⟨⟨m, hm⟩, -⟩
    · exact hw'.imp (fun h => ⟨h.absent.symm, h.sidecar⟩) id
    · cases hm
  · exact ⟨fun _ hv => (by cases hv), fun m' _ => .inl hw2⟩

/-! ## The rest of the run -/

/-- The run has a file of its own. -/
def Owns (l : Locals) : Prop := l.owned = true ∧ l.ownedIdentity.isSome = true

theorem ignoresDurable_owns : IgnoresDurable Owns := fun _ _ h => h

theorem tame_commitOnce {K : Locals → Prop} (file : FileIdentity) (size : Nat) :
    Tame (fun _ => True) K (commitOnce file file size) := by
  have htarget : Tame (fun _ => True) K (openCommittedTarget file size) :=
    (tame_io trivial).bind fun _ =>
      ((tame_validateOwnedFileIdentity _ _ _).mono fun _ _ => trivial).bind fun _ => tame_pure _
  have hcommit : Tame (fun _ => True) K (noReplaceCommit file file size) :=
    (tame_io trivial).bind fun _ => htarget.bind fun _ =>
      ((tame_io trivial : Tame _ K syncParent).mapError _).bind fun _ => htarget.bind fun _ =>
      (tame_io trivial).bind fun _ => (tame_io trivial).bind fun _ => tame_ensure _ _
  refine hcommit.attempt.bind ?_
  rintro (e | _)
  · change Tame _ K (if e.is .commitNotApplied then fail e else fail (.commitOutcomeUnknown e))
    split
    · exact tame_fail _
    · exact tame_fail _
  · exact tame_pure ()

variable {S : System World Op Ans Choice}

theorem wp_commitUpload_owns [Hosts S anyTerms]
    {file : FileIdentity} {confirmed : Nat} {hashed : List UInt8} (hl : Owns l) :
    wp S anyTerms (commitUpload env p file confirmed hashed) (fun _ => Finished p)
      (fun _ l' _ => l'.commitApplied = true ∨ Owns l') l w := by
  have hE : ∀ (e : Error) (l' : Locals) (w' : World), Owns l' →
      l'.commitApplied = true ∨ Owns l' := fun _ _ _ h => .inr h
  rw [commitUpload]
  refine wp_ensure_bind (.inr hl) fun _ => wp_ensure_bind (.inr hl) fun _ => ?_
  refine tame_next (tame_recordDurable ignoresDurable_owns file p.size) hl hE ?_
  intro _ l1 w1 hl1
  refine tame_next (tame_validateOwnedFileIdentity file file p.size) hl1 hE ?_
  intro _ l2 w2 hl2
  refine tame_next (tame_hashFileExact file p.size) hl2 hE ?_
  intro actual l3 w3 hl3
  refine wp_ensure_bind (.inr hl3) fun hdigest => ?_
  subst hdigest
  refine tame_next (tame_validateOwnedFileIdentity file file p.size) hl3 hE ?_
  intro _ l4 w4 hl4
  refine tame_next tame_ensureStillBound hl4 hE ?_
  intro _ l5 w5 hl5
  refine tame_next tame_ensureOriginalParentBound hl5 hE ?_
  intro _ l6 w6 hl6
  refine (calm_prepareNoReplaceCommit file file p.size).step (stable_const True) trivial trivial
    (fun _ _ _ _ => .inr hl6) ?_
  intro _ w7 _ _ _
  refine tame_next (tame_commitOnce file p.size) hl6 hE ?_
  intro _ l7 w8 _
  exact wp_mono wp_reportCommitted_finished (fun _ _ _ h => h) fun _ _ _ h => .inl h

/-- What the body of a failed run leaves: nothing, files that it owns, or what its error or a
    known commit will admit. -/
inductive Left (w₀ : World) (e : Error) (l : Locals) (w : World) : Prop where
  | admitted (h : Admits e)
  | committed (h : l.commitApplied = true)
  | untouched (h : Untouched w₀ w) (howner : l.ownedIdentity = none)
  | owned (hpart : w₀.part = none) (hsidecar : w₀.sidecar = none) (h : Owns l)

theorem wp_pushBody_left (hresume : p.resume = false) (fuel : Nat) (hw : Untouched w₀ w) :
    wp (xferSystem.restrict (registered w₀)) anyTerms (pushBody env p fuel)
      (fun _ l' w' => Finished p l' w' ∧ w₀.part = none ∧ w₀.sidecar = none) (Left w₀) {} w := by
  rw [pushBody]
  refine (calm_pathEntryExists .target).step stable_untouched trivial hw
    (fun _ _ _ h => .untouched h rfl) ?_
  intro targetExists w1 _ hw1 _
  cases targetExists with
  | true =>
    -- a run that does not resume never takes up a target
    rw [if_pos rfl, recoverCommitted]
    refine wp_ensure_bind (.untouched hw1 rfl) fun h => ?_
    rw [hresume] at h
    cases h
  | false =>
    simp only [Bool.false_eq_true, if_false]
    have hcreate : openPartial env p = createPartial env p := by
      rw [openPartial, hresume]
      rfl
    have htame : Tame NoLink (fun l => l.ownedIdentity = none) (createPartial env p) :=
      tame_createPartial fun _ h => h
    rw [hcreate, wp_bind]
    have hopen := tame_wp (S := xferSystem.restrict (registered w₀)) (s := {}) (w := w1) htame
      (stable_const True) (fun op _ => keeps_true op) rfl trivial (fun _ _ _ hl' _ => hl')
      (fun _ _ _ hl' _ => hl')
    refine wp_mono (wp_and hopen (wp_createPartial_left hw1)) ?_ ?_
    · rintro opened l1 w2 ⟨-, hpart, hsidecar⟩
      have hE : ∀ (e : Error) (l' : Locals) (w' : World), Owns l' → Left w₀ e l' w' :=
        fun _ _ _ hl' => .owned hpart hsidecar hl'
      rw [wp_bind, wp_assign, wp_bind, wp_vars]
      generalize howner : ({ l1 with owned := true, ownedIdentity := some opened.1 } : Locals) = l2
      have hl2 : Owns l2 := howner ▸ ⟨rfl, rfl⟩
      refine tame_next (tame_inner rfl rfl) hl2 hE ?_
      intro _ l3 w3 hl3
      refine tame_next (tame_receiveLoop ignoresDurable_owns opened.1 fuel _ _) hl3 hE ?_
      intro received l4 w4 hl4
      refine wp_mono (wp_commitUpload_owns hl4) (fun _ _ _ h => ⟨h, hpart, hsidecar⟩) ?_
      rintro e l' w' (h | h)
      · exact .committed h
      · exact .owned hpart hsidecar h
    · rintro e l' w' ⟨hl', hleft | hadmits⟩
      · exact .untouched hleft hl'
      · exact .admitted hadmits

/-- The cleanup of a run that does not resume succeeds only if both files are gone. -/
theorem wp_cleanupFailedUpload_removed [Hosts S anyTerms]
    (hresume : p.resume = false) (i : FileIdentity) (durable : Nat) (committed : Bool) :
    wp S anyTerms (cleanupFailedUpload env p i durable committed)
      (fun _ _ w' => w'.part = none ∧ w'.sidecar = none) (fun _ _ _ => True) () w := by
  have hclear : ∀ (removed : Except Error Unit) (w' : World),
      (removed = .ok () → w'.part = none) →
      wp S anyTerms (do
        let cleared ← attempt (clearSidecar env p i)
        orElseFail id (joinFailures removed cleared))
        (fun _ _ w' => w'.part = none ∧ w'.sidecar = none) (fun _ _ _ => True) () w' := by
    intro removed w' hremoved
    have hP : Stable fun w => removed = .ok () → w.part = none := fun w w' hw h hr =>
      stable_part none w w' hw (h hr)
    rw [wp_bind, wp_attempt, clearSidecar, hresume]
    refine wp_removeOwnedSidecar_after hP (hP.and (stable_sidecar none)) hremoved
      (fun w' hw' => ⟨hw', rfl⟩) ?_ ?_
    · intro w'' hw''
      rw [wp_orElseFail]
      refine ⟨fun _ hjoin => ?_, fun _ _ => trivial⟩
      cases removed with
      | ok _ => exact ⟨hw''.1 rfl, hw''.2⟩
      | error e => cases hjoin
    · intro e w''
      rw [wp_orElseFail]
      refine ⟨fun _ hjoin => ?_, fun _ _ => trivial⟩
      cases removed <;> cases hjoin
  rw [cleanupFailedUpload, hresume]
  simp only [Bool.not_false, Bool.or_true, if_true]
  rw [wp_bind, wp_attempt, removeOwnedPartial]
  refine wp_removeOwnedPrivateFile_after (stable_const True) (stable_part none) trivial ?_
    (fun w' hw' => hclear _ w' fun _ => hw') (fun e w' => hclear _ w' fun hok => by cases hok)
  intro w' c w'' _ hunlink
  rcases exec_unlink_part hunlink with ⟨-, rfl⟩ | ⟨⟨m, hm⟩, -⟩
  · rfl
  · cases hm

/-- **The end of a failed run** leaves nothing, or its error admits it. -/
theorem wp_finishPush_left [Hosts S anyTerms] {e : Error}
    (hresume : p.resume = false) (hleft : Left w₀ e l w) :
    wp S anyTerms (finishPush env p (.error e) l) (fun _ _ _ => False)
      (fun e' _ w' => Admits e' ∨ Untouched w₀ w') () w := by
  have hT : Stable fun _ => True := stable_const True
  -- an error that admits something goes on doing so
  have hadmitted : ∀ (e' : Error) (report : Except Error Unit → Io Unit Unit), Admits e' →
      (∀ cleanup w', wp S anyTerms (report cleanup) (fun _ _ _ => False)
        (fun e' _ w' => Admits e' ∨ Untouched w₀ w') () w') →
      wp S anyTerms (if l.owned && !preservesEvidence (.error e) l.commitApplied then
          cleanupOwned env p l >>= report
        else fail e') (fun _ _ _ => False)
        (fun e' _ w' => Admits e' ∨ Untouched w₀ w') () w := by
    intro e' report he' hreport
    split
    · rw [wp_bind]
      exact wp_cleanupOwned hT (fun op _ => keeps_true op) trivial fun cleanup w' _ =>
        hreport cleanup w'
    · exact .inl he'
  rw [finishPush]
  cases hl : l.commitApplied with
  | true =>
    obtain ⟨e', he', hadmits⟩ := exists_normalized e
    rw [he']
    rw [hl] at hadmitted
    apply hadmitted e' _ hadmits
    intro cleanup w'
    cases cleanup with
    | ok _ => exact .inl hadmits
    | error _ => exact .inl (.context _)
  | false =>
    have hplain : normalizePostCommitResult (.error e) false = .error e := rfl
    rw [hplain]
    simp only
    cases hleft with
    | admitted h =>
      rw [hl] at hadmitted
      apply hadmitted e _ h
      intro cleanup w'
      cases cleanup with
      | ok _ => exact .inl h
      | error _ => exact .inl (.context _)
    | committed h =>
      rw [hl] at h
      cases h
    | untouched h howner =>
      split
      · rw [cleanupOwned, howner]
        exact .inr h
      · exact .inr h
    | owned hpart hsidecar howns =>
      obtain ⟨i, hi⟩ := Option.isSome_iff_exists.mp howns.2
      rw [howns.1]
      by_cases hkept : e.is .commitOutcomeUnknown = true
      · have hpreserved : preservesEvidence (.error e) false = true := by
          simp [preservesEvidence, hkept]
        rw [hpreserved]
        exact .inl (admits_iff.mpr (.inl hkept))
      · have hremoved : preservesEvidence (.error e) false = false := by
          simp [preservesEvidence, hkept]
        rw [hremoved]
        simp only [Bool.not_false, Bool.and_true, if_true]
        rw [wp_bind, cleanupOwned, hi, wp_attempt]
        refine calm_ensureStillBound.step hT trivial trivial (fun _ _ _ _ => .inl (.context _)) ?_
        intro _ w1 _ _ _
        refine wp_mono (wp_cleanupFailedUpload_removed hresume i _ _) ?_
          fun _ _ _ _ => .inl (.context _)
        intro _ _ w' h
        exact .inr ⟨h.1.trans hpart.symm, h.2.trans hsidecar.symm⟩

theorem wp_servePush_left {r : PushRequest} (hresume : r.resume = false) (fuel : Nat)
    (hw : Untouched w₀ w) :
    wp (xferSystem.restrict (registered w₀)) anyTerms (servePush env r fuel)
      (fun _ _ w' => Untouched w₀ w') (fun e _ w' => Admits e ∨ Untouched w₀ w') () w := by
  rw [servePush, wp_bind, wp_orElseFail]
  refine ⟨fun p hp => ?_, fun _ _ => .inr hw⟩
  have hp' : p.resume = false := (upload_of_pushParams hp).2.trans hresume
  refine (calm_io rfl fun _ => rfl).step stable_untouched trivial hw (fun _ _ _ h => .inr h) ?_
  intro free w1 _ hw1 _
  rw [wp_bind, wp_require]
  refine ⟨fun _ => ?_, fun _ => .inr hw1⟩
  rw [wp_bind, wp_within]
  refine wp_mono (wp_pushBody_left hp' fuel hw1) ?_ ?_
  · rintro _ l w' ⟨hfinished, hpart, hsidecar⟩
    obtain ⟨hnone, hnone'⟩ := hfinished.cleared hp'
    exact ⟨hnone.trans hpart.symm, hnone'.trans hsidecar.symm⟩
  · intro e l w' hleft
    exact wp_mono (wp_finishPush_left hp' hleft) (fun _ _ _ h => h.elim) fun _ _ _ h => h

end Left

/-! ## Every run -/

/-- **What a run without resumption leaves.**  In every run in which no step fails between the
    creation of a file and its registration, whatever else fails: after a plain failure the names
    of the partial file and of the sidecar are what they were before the run; and if they are not,
    the run has ended with the code for an incomplete cleanup or for an unknown outcome. -/
theorem registered_run_admits_residue (env : HelperEnv) (r : PushRequest) (fuel : Nat)
    (hresume : r.resume = false) (w₀ : World) {ms : List (Pool.Move Unit Empty Choice)}
    {cfg : Pool.Config Unit World Op Ans (Except Error Unit × Unit)}
    (hrun : (Pool.solo (xferSystem.restrict (registered w₀))).run
      (Pool.running (servePush env r fuel ()) w₀) ms = some cfg)
    {result : Except Error Unit} (hend : cfg.threads () = some (.ret (result, ()))) :
    (∀ e, result = .error e → errorCode e = .transferFailed → Untouched w₀ cfg.world) ∧
    (¬Untouched w₀ cfg.world → ∃ e, result = .error e ∧
      (errorCode e = .cleanupIncomplete ∨ errorCode e = .outcomeUnknown)) := by
  have hstable : ∀ e : Error, Stable fun w => Admits e ∨ Untouched w₀ w := fun e w w' hw h =>
    h.imp id (stable_untouched w w' hw)
  obtain ⟨hok, herror⟩ := post_of_run (fun _ => stable_untouched) hstable
    (wp_servePush_left hresume fuel ⟨rfl, rfl⟩) hrun hend
  refine ⟨?_, ?_⟩
  · intro e he hcode
    rcases herror e he with (h | h) | h
    · rw [h] at hcode
      cases hcode
    · rw [h] at hcode
      cases hcode
    · exact h
  · intro hleft
    cases result with
    | ok _ => exact absurd (hok _ rfl) hleft
    | error e => exact ⟨e, rfl, ((herror e rfl).resolve_right hleft).symm⟩

/-- The upload of `hi` without resumption. -/
def hiOnce : PushRequest := { hiRequest with resume := false }

/-- The choices up to the creation of the partial file. -/
def hiPart : List Choice := [.ok, .ok, .ok, .alloc ⟨1, 1⟩]

/-- The choices up to the creation of the sidecar. -/
def hiSidecar : List Choice := hiPart ++ [.ok, .ok, .alloc ⟨1, 2⟩]

/-- The sidecar cannot be written; then both files are removed. -/
def hiUnwritten : List Choice :=
  hiSidecar ++ [.ok, .fail "No space left on device"] ++ List.replicate 11 .ok

/-- The identity of the new partial file is not read, the guard check after it fails, or the
    identity of the new sidecar is not read. -/
def hiUnregistered : List (List Choice) :=
  [hiPart ++ [.fail "Input/output error"],
    hiPart ++ [.ok, .fail "native transfer guard changed"],
    hiSidecar ++ [.fail "Input/output error"] ++ List.replicate 6 .ok]

/-- How a run from an empty directory has ended: the code of its error, and whether the private
    names are what they were. -/
def hiEnded (cfg : Pool.Config Unit World Op Ans (Except Error Unit × Unit)) :
    Option ErrorCode × Bool :=
  ((cfg.returned ()).bind fun
    | (.error e, _) => some (errorCode e)
    | (.ok _, _) => none, Untouched emptyWorld cfg.world)

theorem threads_of_hiEnded {cfg : Pool.Config Unit World Op Ans (Except Error Unit × Unit)}
    {code : ErrorCode} {b : Bool} (h : hiEnded cfg = (some code, b)) :
    ∃ e, cfg.threads () = some (.ret (.error e, ())) ∧ errorCode e = code ∧
      decide (Untouched emptyWorld cfg.world) = b := by
  obtain ⟨hcode, hleft⟩ := Prod.mk.inj h
  obtain ⟨⟨result, _⟩, hr, hresult⟩ := Option.bind_eq_some_iff.mp hcode
  cases result with
  | ok _ => cases hresult
  | error e =>
    exact ⟨e, Pool.Config.threads_of_returned hr, Option.some.inj hresult, hleft⟩

theorem hi_unwritten_leaves_nothing :
    ∃ cfg e, (Pool.solo (xferSystem.restrict (registered emptyWorld))).run
        (Pool.running (servePush hiEnv hiOnce 2 ()) emptyWorld) (hiUnwritten.map (.step ())) =
          some cfg ∧
      cfg.threads () = some (.ret (.error e, ())) ∧ errorCode e = .transferFailed ∧
      Untouched emptyWorld cfg.world := by
  have hrun : ((Pool.solo (xferSystem.restrict (registered emptyWorld))).run
      (Pool.running (servePush hiEnv hiOnce 2 ()) emptyWorld) (hiUnwritten.map (.step ()))).map
        (fun cfg => (hiEnded cfg).1) = some (some .transferFailed) := by
    rfl
  obtain ⟨cfg, hcfg, hended⟩ := Option.map_eq_some_iff.mp hrun
  obtain ⟨e, hend, hcode, -⟩ := threads_of_hiEnded (Prod.ext hended rfl)
  have hleft := registered_run_admits_residue hiEnv hiOnce 2 rfl emptyWorld hcfg hend
  exact ⟨cfg, e, hcfg, hend, hcode, hleft.1 e rfl hcode⟩

/-- **The exceptions.**  One step fails, the run ends with the code of a plain failure, and a
    file that it has created stays. -/
theorem unregistered_file_left :
    hiUnregistered.Forall fun choices => choices.countP Choice.isFail = 1 ∧
      ∃ cfg e, (Pool.solo xferSystem).run
          (Pool.running (servePush hiEnv hiOnce 2 ()) emptyWorld) (choices.map (.step ())) =
            some cfg ∧
        cfg.threads () = some (.ret (.error e, ())) ∧ errorCode e = .transferFailed ∧
        ¬Untouched emptyWorld cfg.world := by
  have hruns : ∀ choices ∈ hiUnregistered, choices.countP Choice.isFail = 1 ∧
      ((Pool.solo xferSystem).run (Pool.running (servePush hiEnv hiOnce 2 ()) emptyWorld)
        (choices.map (.step ()))).map hiEnded = some (some .transferFailed, false) := by
    decide
  apply List.forall_iff_forall_mem.mpr
  intro choices hmem
  obtain ⟨hone, hrun⟩ := hruns choices hmem
  obtain ⟨cfg, hcfg, hended⟩ := Option.map_eq_some_iff.mp hrun
  obtain ⟨e, hend, hcode, hleft⟩ := threads_of_hiEnded hended
  exact ⟨hone, cfg, e, hcfg, hend, hcode, of_decide_eq_false hleft⟩

end Serctl.Xfer
