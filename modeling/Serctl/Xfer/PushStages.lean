import Serctl.Xfer.PushRules

/-!
# How a run starts

A run first looks for the target.  If it is there, the run recovers an upload that was committed
before; if not, it opens the partial file, continuing one or creating it.  Both stages keep the
contract of a run.
-/

namespace Serctl.Xfer

open Lib Lib.Act List

variable {env : HelperEnv} {p : PushParams} {resumable : Prop} {σ : Type}

/-! ## Shared functions -/

variable {durable : Nat}

section Shared

variable {P P2 : World → Prop} {Q : Unit → σ → World → Prop} {E : Error → σ → World → Prop}
  {s : σ} {w : World}

/-- Removing the partial name: only a file with the expected identity is removed. -/
theorem wp_removeOwnedPartial {i : FileIdentity} (hP : Stable P) (hP2 : Stable P2)
    (hinv : p.Inv env resumable w) (hw : P w)
    (hkeep : resumable → ∀ w', p.Inv env resumable w' → P w' → w'.part = some i →
      ∀ j r, w'.sidecar = some (j, .sealed r) → r.durableOffset = 0 ∨ w'.target = some i)
    (hafter : ∀ w', P w' → P2 { w' with part := none })
    (hQ : ∀ w', p.Inv env resumable w' → P2 w' → Q () s w')
    (hE : ∀ e w', e.marks = [] → P w' ∨ P2 w' → E e s w') :
    wp xferSystem (p.contract env resumable) (removeOwnedPartial env i) Q E s w := by
  have hfail : ∀ e w', e.marks = [] → P w' → E e s w' := fun e w' he hp => hE e w' he (.inl hp)
  rw [removeOwnedPartial, removeOwnedPrivateFile, wp_bind]
  refine calm_openExistingPrivate .part P hP s w _ E hinv hw ?_ hfail
  intro file w1 hinv1 hw1 hfile
  have hP1 := hP.and (stable_entry .part file)
  rw [wp_bind]
  refine calm_fstat file _ (fun _ => rfl) _ hP1 s w1 _ E hinv1 ⟨hw1, hfile⟩ ?_
    (fun e w' he hp => hfail e w' he hp.1)
  rintro metadata w2 hinv2 hw2 rfl
  rw [wp_bind, ensure, wp_require]
  refine ⟨fun (hi : file = i) => ?_, fun _ => hfail _ w2 rfl hw2.1⟩
  subst hi
  rw [wp_bind]
  refine wp_unlinkPart hP1 hw2 (fun m w' hp => hfail _ w' rfl hp.1) ?_ ?_
  · intro hr w' hinv' hp j r hj
    have hpart : w'.part = some file := hp.2
    rw [hpart]
    exact hkeep hr w' hinv' hp.1 hpart j r hj
  · intro w' hp hinv'
    exact calm_syncParent.context _ P2 hP2 s _ Q E hinv' (hafter w' hp.1)
      (fun _ w'' hinv'' hp' _ => hQ w'' hinv'' hp') (fun e w'' he hp' => hE e w'' he (.inr hp'))

/-- A verified update of the sidecar. -/
theorem wp_replaceVerified {i : FileIdentity} {state : ResumeSidecarState}
    {next : ResumeSidecar} (hP : Stable P) (hinv : p.Inv env resumable w) (hw : P w)
    (hrecord : resumable → ∀ w', p.Inv env resumable w' → P w' →
      (∃ j, w'.sidecar = some (j, .sealed (.new p.toUpload durable i state))) →
      Recorded p.toUpload w' next ∧ (∀ k, w'.part = some k → next.identity = k) ∧
        w'.recordedOffset ≤ next.durableOffset)
    (hQ : ∀ w' j, P w' → w'.Unused j → durable ≤ p.size → p.Inv env resumable
        { w'.setFile j File.created with sidecar := some (j, .sealed next) } →
      Q () s { w'.setFile j File.created with sidecar := some (j, .sealed next) })
    (hE : ∀ e w', e.marks = [] → P w' → E e s w' ∧ ∀ j, w'.Unused j →
      E e s { w'.setFile j File.created with sidecar := some (j, .sealed next) }) :
    wp xferSystem (p.contract env resumable)
      (replaceVerifiedResumeSidecar env p i durable state next) Q E s w := by
  have hfail : ∀ e w', e.marks = [] → P w' → E e s w' := fun e w' he hp => (hE e w' he hp).1
  rw [replaceVerifiedResumeSidecar, wp_bind]
  refine calm_readResumeSidecar P hP s w _ E hinv hw ?_ hfail
  intro current w1 hinv1 hw1 hcurrent
  have hP1 := hP.and (stable_hasSealed current)
  rw [wp_bind]
  refine calm_validate current i _ hP1 s w1 _ E hinv1 ⟨hw1, hcurrent⟩ ?_
    (fun e w' he hp => hfail e w' he hp.1)
  rintro - w2 hinv2 hw2 ⟨hnew, hsize⟩
  rw [wp_bind, ensure, wp_require]
  refine ⟨?_, fun _ => hfail _ w2 rfl hw2.1⟩
  rintro ⟨rfl, rfl⟩
  refine wp_replaceSidecar hP1 hw2 ?_ ?_ ?_
  · intro hr w' hinv' hp
    exact hrecord hr w' hinv' hp.1 (hnew ▸ hp.2)
  · exact fun w' j hp hj hinv' => hQ w' j hp.1 hj hsize hinv'
  · exact fun m w' hp => hE _ w' rfl hp.1

/-- Removing the sidecar, which no resumable session does. -/
theorem wp_removeOwnedSidecar {i : FileIdentity} (hP : Stable P) (hP2 : Stable P2)
    (hnot : ¬resumable) (hinv : p.Inv env resumable w) (hw : P w)
    (hafter : ∀ w', P w' → P2 { w' with sidecar := none })
    (hQ : ∀ w', p.Inv env resumable w' → P2 w' → Q () s w')
    (hE : ∀ e w', e.marks = [] → P w' ∨ P2 w' → E e s w') :
    wp xferSystem (p.contract env resumable) (removeOwnedSidecar env p i) Q E s w := by
  have hfail : ∀ e w', e.marks = [] → P w' → E e s w' := fun e w' he hp => hE e w' he (.inl hp)
  rw [removeOwnedSidecar, wp_bind]
  refine calm_readResumeSidecar P hP s w _ E hinv hw ?_ hfail
  intro state w1 hinv1 hw1 _
  rw [wp_bind]
  refine calm_validate state i P hP s w1 _ E hinv1 hw1 ?_ hfail
  intro _ w2 _ hw2 _
  rw [wp_bind]
  refine wp_unlinkSidecar hP hw2 (fun m w' hp => hfail _ w' rfl hp) (fun hr => absurd hr hnot) ?_
  intro w' hp hinv'
  exact calm_syncParent.context _ P2 hP2 s _ Q E hinv' (hafter w' hp)
    (fun _ w'' hinv'' hp' _ => hQ w'' hinv'' hp') (fun e w'' he hp' => hE e w'' he (.inr hp'))

end Shared

/-! ## Recovery of a committed upload -/

/-- The target is the declared file, and the sidecar says so as far as the session needs it. -/
structure Landed (env : HelperEnv) (u : Upload) (resumable : Prop) (t : FileIdentity) (w : World) :
    Prop where
  target : w.target = some t
  verified : Verified env u (w.files t)
  record : resumable → HasRecord w u.size

variable {t : FileIdentity} {u : Upload}

theorem stable_landed : Stable (Landed env u resumable t) :=
  stable_of_target fun _ h => h.target

theorem Landed.of_eq {w w' : World}
    (h : Landed env u resumable t w) (hfile : w'.files t = w.files t)
    (htarget : w'.target = w.target) (hrecord : resumable → HasRecord w' u.size) :
    Landed env u resumable t w' :=
  ⟨htarget.trans h.target, by rw [hfile]; exact h.verified, hrecord⟩

/-- Replacing the sidecar touches an unused file only. -/
theorem Landed.replaced {j : FileIdentity} {w : World} {r : ResumeSidecar}
    (ht : w.target = some t) (hv : Verified env u (w.files t)) (hj : w.Unused j)
    (hr : resumable → r.durableOffset = u.size) :
    Landed env u resumable t
      { w.setFile j File.created with sidecar := some (j, .sealed r) } := by
  have hne : t ≠ j := fun he => hj.1 (he ▸ ht)
  refine ⟨ht, ?_, fun hres => ⟨j, r, rfl, hr hres⟩⟩
  change Verified env u ((w.setFile j File.created).files t)
  rw [World.setFile_files_of_ne w File.created hne]
  exact hv

/-- Completion may be reported of a landed upload. -/
theorem Landed.sendCompleted {l : Locals} {w : World}
    {E : Error → Locals → World → Prop} (hw : Landed env p.toUpload resumable t w)
    (hE : ∀ m w', w'.target = some t → E (.msg m) l w') :
    wp xferSystem (p.contract env resumable)
      (io (.send (.completed p.size p.expectedSha256))) (fun _ _ _ => True) E l w := by
  refine wp_send stable_landed hw ?_ ?_ (fun _ _ _ => trivial) ?_
  · exact fun w' _ h => ⟨rfl, rfl, t, h.target, h.verified⟩
  · exact fun w' hinv _ hr => (hinv.2 hr).log_completed
  · exact fun m w' h => ⟨hE m w' h.target, hE m _ h.target⟩

/-- The run owns nothing that its cleanup would have to remove. -/
def Unowned (_ : Error) (l : Locals) (_ : World) : Prop := l.ownedIdentity = none

theorem wp_reportRecovered {l : Locals} {w : World}
    (hw : Landed env p.toUpload resumable t w) (hl : l.ownedIdentity = none) :
    wp xferSystem (p.contract env resumable) (reportRecovered p)
      (fun _ _ _ => True) Unowned l w := by
  have hS : Stable (Landed env p.toUpload resumable t) := stable_landed
  have hfail : ∀ (e : Error) (w' : World), e.marks = [] →
      Landed env p.toUpload resumable t w' → Unowned e l w' := fun _ _ _ _ => hl
  rw [reportRecovered, wp_bind]
  refine wp_send hS hw (fun w' _ h hr => h.record hr) ?_ ?_ (fun _ _ _ => ⟨hl, hl⟩)
  · exact fun w' hinv h hr => (hinv.2 hr).log_ready (h.record hr)
  intro w1 h1 hinv1
  rw [wp_bind]
  have h1' : Landed env p.toUpload resumable t (w1.log (.sent (.ready p.chunk p.window p.size))) :=
    h1.of_eq rfl rfl h1.record
  refine wp_recv hS h1' (fun _ _ _ => hl) ?_ (fun _ _ => hl)
  intro w2 frame h2 hinv2
  have h2' : Landed env p.toUpload resumable t (w2.log (.received frame)) :=
    h2.of_eq rfl rfl h2.record
  rw [wp_bind]
  unfold awaitCommitConfirmation
  split
  · rw [wp_pure]
    refine calm_ensureStillBound.step hS hinv2 h2' hfail fun _ w3 hinv3 h3 _ => ?_
    refine calm_ensureOriginalParentBound.step hS hinv3 h3 hfail fun _ w4 _ h4 _ => ?_
    exact h4.sendCompleted fun _ _ _ => hl
  all_goals exact hl

/-- The recovery branch only reads the target; it replaces the receipt by one that is about the
    same file, and it removes the partial name only if it names the target's file. -/
theorem wp_recoverCommitted {l : Locals} {w : World}
    (hinv : p.Inv env resumable w) (ht : w.target = some t)
    (hl : l.ownedIdentity = none) :
    wp xferSystem (p.contract env resumable) (recoverCommitted env p)
      (fun _ _ _ => True) Unowned l w := by
  have hP : Stable fun w => w.target = some t := stable_of_target fun _ h => h
  have hfail : ∀ (e : Error) (w' : World), e.marks = [] → w'.target = some t →
      Unowned e l w' := fun _ _ _ _ => hl
  rw [recoverCommitted]
  refine wp_ensure_bind hl fun _ => ?_
  refine (calm_readResumeSidecar.context _).step hP hinv ht hfail ?_
  intro state w1 hinv1 ht1 _
  refine (calm_openExistingPrivate .target).step hP hinv1 ht1 hfail ?_
  intro file w2 hinv2 ht2 hfile
  obtain rfl : file = t := Option.some.inj (hfile.symm.trans ht2)
  refine (calm_fstat file _ fun _ => rfl).step hP hinv2 ht2 hfail ?_
  rintro _ w3 hinv3 ht3 rfl
  refine (calm_validate state file).step hP hinv3 ht3 hfail ?_
  rintro - w4 hinv4 ht4 ⟨hstate, -⟩
  refine wp_ensure_bind hl fun hdurable => ?_
  refine (calm_hashFileExact file p.size).step hP hinv4 ht4 hfail ?_
  rintro digest w5 hinv5 ht5 ⟨hsize, rfl⟩
  refine wp_ensure_bind hl fun hdigest => ?_
  -- from here on the target is known to be the declared file
  have hP' : Stable fun w => w.target = some file ∧ Verified env p.toUpload (w.files file) :=
    stable_of_target fun _ h => h.1
  have hfail' : ∀ (e : Error) (w' : World), e.marks = [] →
      w'.target = some file ∧ Verified env p.toUpload (w'.files file) →
      Unowned e { l with commitApplied := true } w' := fun _ _ _ _ => hl
  rw [wp_bind, wp_assign]
  refine calm_ensureStillBound.step hP' hinv5 ⟨ht5, hsize, hdigest⟩ hfail' ?_
  intro _ w6 hinv6 h6 _
  refine calm_ensureOriginalParentBound.step hP' hinv6 h6 hfail' ?_
  intro _ w7 hinv7 h7 _
  refine (calm_syncParent.context _).step hP' hinv7 h7 hfail' ?_
  intro _ w8 hinv8 h8 _
  refine calm_ensureStillBound.step hP' hinv8 h8 hfail' ?_
  intro _ w9 hinv9 h9 _
  rw [wp_bind, orCleanupIncomplete, wp_mapError]
  refine wp_replaceVerified hP' hinv9 h9 ?_ ?_ (fun _ _ _ _ => ⟨hl, fun _ _ => hl⟩)
  · -- the committed receipt has the offset and the file of the one it replaces
    rintro hr w' hinv' - ⟨j, hj⟩
    have hidentity : state.identity = file := congrArg ResumeSidecar.identity hstate
    exact (hinv'.2 hr).restate hj rfl hidentity
  · intro w' j hw' hj _ hinv'
    have hS : Stable (Landed env p.toUpload resumable file) := stable_landed
    have hfailS : ∀ (e : Error) (w' : World), e.marks = [] →
        Landed env p.toUpload resumable file w' → Unowned e { l with commitApplied := true } w' :=
      fun _ _ _ _ => hl
    refine (calm_pathEntryExists .part).step hS hinv'
      (.replaced hw'.1 hw'.2 hj fun _ => hdurable) hfailS fun partialExists w1 hinv1 h1 _ => ?_
    rw [wp_bind, wp_onlyIf]
    refine ⟨fun _ => ?_, fun _ => wp_reportRecovered h1 hl⟩
    rw [removeRecoveredPartial]
    refine calm_ensureStillBound.step hS hinv1 h1 hfailS fun _ w2 hinv2 h2 _ => ?_
    rw [orCleanupIncomplete, wp_mapError]
    refine wp_removeOwnedPartial hS hS hinv2 h2 ?_ ?_ ?_ (fun _ _ _ _ => hl)
    · exact fun _ w' _ h' _ j r _ => .inr h'.target
    · exact fun w' h' => h'.of_eq rfl rfl h'.record
    · exact fun w' _ h' => wp_reportRecovered h' hl

/-! ## Opening the partial file -/

/-- The run may write to the file `i`, and `durable` of its bytes are recorded. -/
structure Opened (u : Upload) (resumable : Prop) (i : FileIdentity) (durable : Nat) (w : World) :
    Prop where
  part : w.part = some i
  apart : w.target ≠ some i
  stored : resumable → (w.files i).data.length = durable
  record : resumable → ∃ j, w.sidecar = some (j, .sealed (.new u durable i .receiving))

variable {i : FileIdentity}

theorem Opened.hasRecord {w : World} (h : Opened u resumable i durable w) (hr : resumable) :
    HasRecord w durable := by
  obtain ⟨j, hj⟩ := h.record hr
  exact ⟨j, _, hj, rfl⟩

/-- What a run knows of the file that it holds cannot be broken by others. -/
theorem stable_held (F : File → Option (FileIdentity × SidecarContent) → List WireEvent → Prop) :
    Stable fun w => w.part = some i ∧ w.target ≠ some i ∧ F (w.files i) w.sidecar w.wire := by
  intro w w' hw h
  obtain ⟨hpart, htarget, hF⟩ := h
  rcases hw with rfl | ⟨-, j, f, hj, rfl⟩
  · exact ⟨hpart, htarget, hF⟩
  · have hne : i ≠ j := fun he => hj.2.1 (he ▸ hpart)
    refine ⟨hpart, fun he => hne (Option.some.inj he).symm, ?_⟩
    change F ((w.setFile j f).files i) w.sidecar w.wire
    rw [World.setFile_files_of_ne w f hne]
    exact hF

theorem File.setLen_length (f : File) (n : Nat) : (f.setLen n).data.length = n := by
  simp only [File.setLen, length_append, length_take, length_replicate]
  omega

/-- The run owns nothing yet, and nothing is committed. -/
structure Starting (l : Locals) : Prop where
  ownedIdentity : l.ownedIdentity = none
  commitApplied : l.commitApplied = false

section Opening

variable {l : Locals} {w : World}

theorem stable_opened :
    Stable (Opened p.toUpload resumable i durable) := by
  intro w w' hw h
  have hstable := stable_held (i := i) fun file sidecar _ =>
    (resumable → file.data.length = durable) ∧
      (resumable → ∃ j, sidecar = some (j, .sealed (.new p.toUpload durable i .receiving)))
  obtain ⟨hpart, hapart, hstored, hrecord⟩ :=
    hstable w w' hw ⟨h.part, h.apart, h.stored, h.record⟩
  exact ⟨hpart, hapart, hstored, hrecord⟩

theorem calm_hashDurablePrefix {S : System World Op Ans Choice} {C : Contract World Op} [Hosts S C]
    (file : FileIdentity) (durable : Nat) :
    Calm S C (hashDurablePrefix file durable) fun r _ => r.1 = file := by
  refine (calm_io rfl fun _ => rfl).andThen fun _ => (calm_io rfl fun _ => rfl).andThen fun _ => ?_
  refine (Calm.ensure _ _).andThen fun _ => (calm_io rfl fun _ => rfl).andThen fun _ => ?_
  refine (Calm.pure _).imp fun r _ hr => ?_
  rw [hr]

section

variable {Q : Unit → Locals → World → Prop}

/-- The cut leaves the record and what it promises. -/
theorem wp_cutToDurable {file : FileIdentity}
    (hinv : p.Inv env resumable w) (hw : w.part = some file ∧ w.target ≠ some file ∧
      ∃ j, w.sidecar = some (j, .sealed (.new p.toUpload durable file .receiving)))
    (hown : l.ownedIdentity = none)
    (hQ : ∀ w', p.Inv env resumable w' → Opened p.toUpload resumable file durable w' → Q () l w') :
    wp xferSystem (p.contract env resumable) (cutToDurable file durable) Q
      Unowned l w := by
  have hP : Stable fun w => w.part = some file ∧ w.target ≠ some file ∧
      ∃ j, w.sidecar = some (j, .sealed (.new p.toUpload durable file .receiving)) :=
    stable_held fun _ sidecar _ =>
      ∃ j, sidecar = some (j, .sealed (.new p.toUpload durable file .receiving))
  rw [cutToDurable]
  refine calm_ensureStillBound.step hP hinv hw (fun _ _ _ _ => hown) ?_
  intro _ w1 hinv1 hw1 _
  rw [wp_bind]
  refine wp_setLen hP hw1 (fun _ _ _ => hown) (fun _ h => h.2.1) ?_ ?_
  · intro _ w' _ hw' j r hj
    obtain ⟨j', hj'⟩ := hw'.2.2
    rw [hj'] at hj
    cases hj
    exact Nat.le_refl durable
  · intro w' hw' hinv'
    have hopened : Opened p.toUpload resumable file durable
        (w'.setFile file ((w'.files file).setLen durable)) := by
      refine ⟨hw'.1, hw'.2.1, fun _ => ?_, fun _ => hw'.2.2⟩
      rw [World.setFile_files_self]
      exact (w'.files file).setLen_length durable
    refine wp_syncFile stable_opened hopened ?_ (fun _ _ _ => ⟨hown, hown⟩)
    intro w'' hw'' hinv''
    refine hQ _ hinv'' ⟨hw''.part, hw''.apart, fun hr => ?_, hw''.record⟩
    rw [World.setFile_files_self]
    exact hw''.stored hr

/-- A continued partial file is cut to what is recorded. -/
theorem wp_resumePartial (hinv : p.Inv env resumable w) (hw : Apart w) (hl : Starting l) :
    wp xferSystem (p.contract env resumable) (resumePartial env p)
      (fun r l' w' => Opened p.toUpload resumable r.1 l'.durable w' ∧ Starting l')
      Unowned l w := by
  have hown : l.ownedIdentity = none := hl.ownedIdentity
  rw [resumePartial]
  refine calm_readResumeSidecar.step stable_apart hinv hw (fun _ _ _ _ => hown) ?_
  intro state w1 hinv1 hw1 hstate
  have hP1 := stable_apart.and (stable_hasSealed state)
  refine (calm_openExistingPrivate .part).step hP1 hinv1 ⟨hw1, hstate⟩ (fun _ _ _ _ => hown) ?_
  intro file w2 hinv2 hw2 hfile
  -- from here on the run looks at the file under the partial name and at its record
  have hP2 : Stable fun w => w.part = some file ∧ w.target ≠ some file ∧
      ∃ j, w.sidecar = some (j, .sealed state) := stable_held fun _ sidecar _ =>
        ∃ j, sidecar = some (j, .sealed state)
  have hw2' : w2.part = some file ∧ w2.target ≠ some file ∧
      ∃ j, w2.sidecar = some (j, .sealed state) := ⟨hfile, hw2.1 file hfile, hw2.2⟩
  refine (calm_fstat file _ fun _ => rfl).step hP2 hinv2 hw2' (fun _ _ _ _ => hown) ?_
  intro metadata w3 hinv3 hw3 hmetadata
  subst hmetadata
  -- the length that was seen stays, because only this run writes to the file
  have hP3 : Stable fun w => w.part = some file ∧ w.target ≠ some file ∧
      (w.files file).data.length = (w3.files file).data.length ∧
        ∃ j, w.sidecar = some (j, .sealed state) :=
    stable_held fun content sidecar _ => content.data.length = (w3.files file).data.length ∧
      ∃ j, sidecar = some (j, .sealed state)
  have hw3' := And.intro hw3.1 (And.intro hw3.2.1
    (And.intro (Eq.refl (w3.files file).data.length) hw3.2.2))
  refine (calm_validate state file).step hP3 hinv3 hw3' (fun _ _ _ _ => hown) ?_
  intro _ w4 hinv4 hw4 hvalid
  obtain ⟨hpart, htarget, hlength, hsealed⟩ := hw4
  refine wp_ensure_bind hown fun hreceiving => ?_
  have hrecord : state = .new p.toUpload state.durableOffset file .receiving := by
    rw [← hreceiving]
    exact hvalid.1
  rw [hrecord] at hsealed
  rw [wp_bind, wp_assign]
  refine wp_ensure_bind hown fun hlen => ?_
  have hrest : ∀ w', p.Inv env resumable w' →
      Opened p.toUpload resumable file state.durableOffset w' →
      wp xferSystem (p.contract env resumable)
        (hashDurablePrefix file state.durableOffset)
        (fun r l' w' => Opened p.toUpload resumable r.1 l'.durable w' ∧ Starting l')
        Unowned { l with durable := state.durableOffset } w' := by
    intro w' hinv' hw'
    refine calm_hashDurablePrefix file state.durableOffset _ stable_opened _ w' _ _ hinv' hw' ?_
      (fun _ _ _ _ => hown)
    intro r w'' _ hw'' hr
    rw [hr]
    exact ⟨hw'', hown, hl.commitApplied⟩
  rw [wp_bind, wp_onlyIf]
  refine ⟨fun _ => wp_cutToDurable hinv4 ⟨hpart, htarget, hsealed⟩ hown hrest, fun heq => ?_⟩
  refine hrest w4 hinv4 ⟨hpart, htarget, fun _ => hlength.trans (not_not.mp heq), fun _ => hsealed⟩

/-- The partial file is empty, and nothing is recorded of it. -/
structure Fresh (resumable : Prop) (i : FileIdentity) (w : World) : Prop where
  part : w.part = some i
  apart : w.target ≠ some i
  empty : resumable → (w.files i).data.length = 0
  zero : resumable → ∀ j r, w.sidecar = some (j, .sealed r) → r.durableOffset = 0

theorem stable_fresh : Stable (Fresh resumable i) := by
  intro w w' hw h
  have hstable := stable_held (i := i) fun file sidecar _ =>
    (resumable → file.data.length = 0) ∧
      (resumable → ∀ j r, sidecar = some (j, .sealed r) → r.durableOffset = 0)
  obtain ⟨hpart, hapart, hempty, hzero⟩ := hstable w w' hw ⟨h.part, h.apart, h.empty, h.zero⟩
  exact ⟨hpart, hapart, hempty, hzero⟩

theorem Opened.fresh (h : Opened p.toUpload resumable i 0 w) :
    Fresh resumable i w := by
  refine ⟨h.part, h.apart, h.stored, fun hr j r hj => ?_⟩
  obtain ⟨j', hj'⟩ := h.record hr
  rw [hj'] at hj
  cases hj
  rfl

/-- A failed first write of the sidecar is taken back. -/
theorem wp_removeSidecarFile {k : FileIdentity} {kind : String} {E : Error → Locals → World → Prop}
    (hinv : p.Inv env resumable w) (hw : Fresh resumable i w)
    (hQ : ∀ w', Fresh resumable i w' → Q () l w')
    (hE : ∀ e w', Fresh resumable i w' → E e l w') :
    wp xferSystem (p.contract env resumable)
      (removeOwnedPrivateFile env .sidecar k kind) Q E l w := by
  have hfail : ∀ (e : Error) w', e.marks = [] → Fresh resumable i w' → E e l w' :=
    fun e w' _ => hE e w'
  rw [removeOwnedPrivateFile]
  refine (calm_openExistingPrivate .sidecar).step stable_fresh hinv hw hfail ?_
  intro file w1 hinv1 hw1 _
  refine (calm_fstat file _ fun _ => rfl).step stable_fresh hinv1 hw1 hfail ?_
  intro metadata w2 hinv2 hw2 _
  refine wp_ensure_bind (hE _ _ hw2) fun _ => ?_
  rw [wp_bind]
  refine wp_unlinkSidecar stable_fresh hw2 (fun _ w' hw' => hE _ w' hw')
    (fun hr _ hw' => hw'.zero hr) ?_
  intro w' hw' hinv'
  have hgone : Fresh resumable i { w' with sidecar := none } :=
    ⟨hw'.part, hw'.apart, hw'.empty, fun _ j r hj => by cases hj⟩
  exact calm_syncParent.context _ _ stable_fresh l _ Q E hinv' hgone
    (fun _ w'' _ hw'' _ => hQ w'' hw'') hfail

theorem wp_createResumeSidecar {E : Error → Locals → World → Prop} (hw : Fresh resumable i w)
    (hQ : ∀ w', Opened p.toUpload resumable i 0 w' → Q () l w')
    (hE : ∀ e w', Fresh resumable i w' → E e l w') :
    wp xferSystem (p.contract env resumable)
      (createResumeSidecar env (.new p.toUpload 0 i .receiving)) Q E l w := by
  rw [createResumeSidecar, wp_bind]
  refine wp_createSidecar stable_fresh hw (fun _ w' hw' => hE _ w' hw') ?_
  intro w1 k hw1 hk hinv1
  have hne : i ≠ k := fun he => hk.2.1 (he ▸ hw1.part)
  have hfresh : Fresh resumable i { w1.setFile k File.created with
      sidecar := some (k, .torn) } := by
    refine ⟨hw1.part, hw1.apart, fun hr => ?_, fun _ j r hj => by cases hj⟩
    change ((w1.setFile k File.created).files i).data.length = 0
    rw [World.setFile_files_of_ne w1 File.created hne]
    exact hw1.empty hr
  refine (calm_fstat k _ fun _ => rfl).step stable_fresh hinv1 hfresh (fun e w' _ => hE e w') ?_
  intro metadata w2 hinv2 hw2 hmetadata
  subst hmetadata
  rw [wp_bind, wp_attempt]
  -- whatever fails from here on, the sidecar is removed again
  have htake : ∀ (e : Error) w', p.Inv env resumable w' → Fresh resumable i w' →
      wp xferSystem (p.contract env resumable) (do
        let cleanup ← attempt (removeOwnedPrivateFile env .sidecar k "resume sidecar")
        fail (reconcileInitialSidecarFailure e cleanup "resume sidecar")) Q E l w' := by
    intro e w' hinv' hw'
    rw [wp_bind, wp_attempt]
    exact wp_removeSidecarFile hinv' hw' (fun w'' hw'' => hE _ w'' hw'')
      (fun _ w'' hw'' => hE _ w'' hw'')
  refine wp_of_inv hinv2 ?_
  rw [wp_bind]
  refine wp_writeSidecar stable_fresh hw2 (fun m w' hw' hinv' => htake _ w' hinv' hw') rfl ?_
    (fun hr _ hw' => recordedOffset_eq_zero (hw'.zero hr)) ?_
  · intro w' hw' k' hk'
    rw [hw'.part] at hk'
    exact Option.some.inj hk'
  intro w3 j hw3 hinv3
  have hopened : Opened p.toUpload resumable i 0
      { w3 with sidecar := some (j, .sealed (.new p.toUpload 0 i .receiving)) } :=
    ⟨hw3.part, hw3.apart, hw3.empty, fun _ => ⟨j, rfl⟩⟩
  have hsynced : ∀ w', Opened p.toUpload resumable i 0 w' →
      Opened p.toUpload resumable i 0 (w'.setFile k (w'.files k).sync) := by
    intro w' hw'
    refine ⟨hw'.part, hw'.apart, fun hr => ?_, hw'.record⟩
    rw [World.setFile_files_of_ne w' _ hne]
    exact hw'.stored hr
  rw [wp_bind]
  refine wp_syncFile stable_opened hopened ?_ ?_
  · intro w4 hw4 hinv4
    exact calm_syncParent.context _ _ stable_opened l _ _ _ hinv4 (hsynced w4 hw4)
      (fun _ w' _ hw' _ _ => hQ w' hw') (fun e w' _ hw' hinv' => htake _ w' hinv' hw'.fresh)
  · exact fun m w' hw' => ⟨fun hinv' => htake _ w' hinv' hw'.fresh,
      fun hinv' => htake _ _ hinv' (hsynced w' hw').fresh⟩

end

/-- A new partial file starts with a record of nothing. -/
theorem wp_createPartial (hinv : p.Inv env resumable w)
    (hsidecar : resumable → w.sidecar = none) (hl : Starting l) (hzero : l.durable = 0) :
    wp xferSystem (p.contract env resumable) (createPartial env p)
      (fun r l' w' => Opened p.toUpload resumable r.1 l'.durable w' ∧ Starting l')
      Unowned l w := by
  have hown : l.ownedIdentity = none := hl.ownedIdentity
  have hP : Stable fun w => resumable → w.sidecar = none :=
    fun w w' hw h hr => stable_sidecar none w w' hw (h hr)
  rw [createPartial]
  refine calm_ensureStillBound.step hP hinv hsidecar (fun _ _ _ _ => hown) ?_
  intro _ w1 _ hw1 _
  rw [wp_bind]
  refine wp_createPart hP hw1 (fun _ _ _ => hown) (fun hr w' hw' => hw' hr) ?_
  intro w2 i hw2 hi hinv2
  have hfresh : Fresh resumable i { w2.setFile i File.created with part := some i } := by
    refine ⟨rfl, hi.1, fun _ => ?_, fun hr j r hj => ?_⟩
    · change ((w2.setFile i File.created).files i).data.length = 0
      rw [World.setFile_files_self]
      rfl
    · change w2.sidecar = _ at hj
      rw [hw2 hr] at hj
      cases hj
  rw [wp_bind, wp_assign]
  refine (calm_fstat i _ fun _ => rfl).step stable_fresh hinv2 hfresh (fun _ _ _ _ => hown) ?_
  intro metadata w3 hinv3 hw3 hmetadata
  subst hmetadata
  refine calm_ensureStillBound.step stable_fresh hinv3 hw3 (fun _ _ _ _ => hown) ?_
  intro _ w4 hinv4 hw4 _
  rw [wp_bind, wp_attempt]
  refine wp_of_inv hinv4 (wp_createResumeSidecar hw4 ?_ ?_)
  · intro w' hw' _
    refine ⟨?_, hown, hl.commitApplied⟩
    change Opened p.toUpload resumable i l.durable w'
    rw [hzero]
    exact hw'
  · intro e w' hw' hinv'
    rw [wp_bind, wp_attempt]
    refine calm_ensureStillBound.step stable_fresh hinv' hw' (fun _ _ _ _ => hown) ?_
    intro _ w5 hinv5 hw5 _
    refine wp_removeOwnedPartial stable_fresh (stable_const True) hinv5 hw5 ?_ (fun _ _ => trivial)
      (fun _ _ _ => hown) (fun _ _ _ _ => hown)
    exact fun hr w'' _ hw'' _ j r hj => .inl (hw''.zero hr j r hj)

theorem wp_openPartial (hinv : p.Inv env resumable w) (hw : Apart w)
    (hresume : resumable → p.resume = true) (hl : Starting l) (hzero : l.durable = 0) :
    wp xferSystem (p.contract env resumable) (openPartial env p)
      (fun r l' w' => Opened p.toUpload resumable r.1 l'.durable w' ∧ Starting l')
      Unowned l w := by
  have hown : l.ownedIdentity = none := hl.ownedIdentity
  rw [openPartial]
  cases hp : p.resume with
  | true =>
    simp only [if_true]
    refine (calm_pathEntryExists .sidecar).step stable_apart hinv hw (fun _ _ _ _ => hown) ?_
    intro continuing w1 hinv1 hw1 hcontinuing
    cases continuing with
    | true => exact wp_resumePartial hinv1 hw1 hl
    | false =>
      have hnone : w1.sidecar = none := by
        simpa [World.entry] using hcontinuing
      exact wp_createPartial hinv1 (fun _ => hnone) hl hzero
  | false =>
    have hnot : resumable → w.sidecar = none := by
      intro hr
      rw [hresume hr] at hp
      cases hp
    exact wp_createPartial hinv hnot hl hzero

end Opening

end Serctl.Xfer
