import Serctl.Xfer.PushRules

/-!
# What the stages of an upload leave alone

Most stages of a run cannot link the target, and most cannot touch the name of the partial file.
Both are read off the operations that a stage issues, so they hold whatever the operations
answer and whatever the other parties do.
-/

namespace Serctl.Xfer

open Lib Lib.Act

/-! ## Operations -/

/-- The operation that changes the target. -/
@[simp] def Op.isLink : Op → Bool
  | .linkTarget _ => true
  | _ => false

/-- The operation creates or removes the name of the partial file. -/
@[simp] def Op.namesPart : Op → Bool
  | .createNew .part | .unlink .part => true
  | _ => false

/-- Anything but the link to the target name. -/
def NoLink (op : Op) : Prop := op.isLink = false

/-- The operations that change neither the target entry nor the partial name. -/
def Inner (op : Op) : Prop := op.isLink = false ∧ op.namesPart = false

theorem Inner.noLink {op : Op} (h : Inner op) : NoLink op := h.1

/-- An operation keeps an assertion. -/
def Op.Keeps (op : Op) (P : World → Prop) : Prop :=
  ∀ w c a w', exec w op c = some (a, w') → P w → P w'

section Exec

variable {w w' : World} {c : Choice} {op : Op} {a : Ans op}

/-- The entries and the flag are changed by few operations. -/
theorem exec_names (h : exec w op c = some (a, w')) :
    (op.isLink = false → w'.linked = w.linked) ∧ (op.namesPart = false → w'.part = w.part) := by
  by_cases hq : op.isQuiet = true
  · rw [exec_quiet hq h]
    exact ⟨fun _ => rfl, fun _ => rfl⟩
  -- each of the others changes one name or one file
  · cases op with
    | createNew path =>
      cases path with
      | target =>
        rw [(refuse_eq_some h).2]
        exact ⟨fun _ => rfl, fun _ => rfl⟩
      | part =>
        rcases exec_createNew_part h with ⟨i, -, -, -, rfl⟩ | ⟨-, rfl⟩
        · exact ⟨fun _ => rfl, nofun⟩
        · exact ⟨fun _ => rfl, nofun⟩
      | sidecar =>
        rcases exec_createNew_sidecar h with ⟨i, -, -, -, rfl⟩ | ⟨-, rfl⟩
        · exact ⟨fun _ => rfl, fun _ => rfl⟩
        · exact ⟨fun _ => rfl, fun _ => rfl⟩
    | unlink path =>
      cases path with
      | target =>
        rw [(refuse_eq_some h).2]
        exact ⟨fun _ => rfl, fun _ => rfl⟩
      | part =>
        rcases exec_unlink_part h with ⟨-, rfl⟩ | ⟨-, rfl⟩
        · exact ⟨fun _ => rfl, nofun⟩
        · exact ⟨fun _ => rfl, nofun⟩
      | sidecar =>
        rcases exec_unlink_sidecar h with ⟨-, rfl⟩ | ⟨-, rfl⟩
        · exact ⟨fun _ => rfl, fun _ => rfl⟩
        · exact ⟨fun _ => rfl, fun _ => rfl⟩
    | writeAt i pos bytes =>
      rcases exec_writeAt h with ⟨-, rfl⟩ | ⟨_, _, -, rfl⟩ | ⟨-, rfl⟩
      all_goals exact ⟨fun _ => rfl, fun _ => rfl⟩
    | setLen i len =>
      rcases exec_setLen h with ⟨-, rfl⟩ | ⟨-, rfl⟩
      all_goals exact ⟨fun _ => rfl, fun _ => rfl⟩
    | syncFile i =>
      rcases exec_syncFile h with rfl | ⟨-, rfl⟩
      all_goals exact ⟨fun _ => rfl, fun _ => rfl⟩
    | writeSidecar record =>
      rcases exec_writeSidecar h with ⟨_, _, -, -, rfl⟩ | ⟨-, rfl⟩
      all_goals exact ⟨fun _ => rfl, fun _ => rfl⟩
    | replaceSidecar record =>
      rcases exec_replaceSidecar h with ⟨_, -, rfl⟩ | ⟨-, rfl⟩
      all_goals exact ⟨fun _ => rfl, fun _ => rfl⟩
    | linkTarget i =>
      rcases exec_linkTarget h with ⟨-, -, rfl⟩ | ⟨-, rfl⟩
      all_goals exact ⟨nofun, fun _ => rfl⟩
    | send control =>
      rcases exec_send h with rfl | ⟨-, rfl⟩
      all_goals exact ⟨fun _ => rfl, fun _ => rfl⟩
    | recv =>
      rcases exec_recv h with ⟨_, -, rfl⟩ | ⟨-, rfl⟩ | ⟨-, rfl⟩
      all_goals exact ⟨fun _ => rfl, fun _ => rfl⟩
    | _ => exact absurd rfl hq

end Exec

/-- Only a link links. -/
theorem NoLink.keeps_linked {op : Op} (h : NoLink op) (b : Bool) :
    op.Keeps fun w => w.linked = b :=
  fun _ _ _ _ hexec hb => ((exec_names hexec).1 h).trans hb

/-- The partial name stays. -/
theorem Inner.keeps_part {op : Op} (h : Inner op) (i : Option FileIdentity) :
    op.Keeps fun w => w.part = i :=
  fun _ _ _ _ hexec hi => ((exec_names hexec).2 h.2).trans hi

/-! ## The operations of the stages -/

variable (identity : FileIdentity)

section Stages

variable {env : HelperEnv} {p : PushParams} {σ : Type} {K : σ → Prop} {f : String → Error}

/-- One operation. -/
theorem tame_io {A : Op → Prop} {op : Op} (hop : A op) :
    Tame A K (io op f) :=
  (tame_call hop).bind fun _ => tame_orElseFail f _

/-- An operation of a stage that has neither name in it. -/
theorem tame_inner {op : Op} (hlink : op.isLink = false)
    (hpart : op.namesPart = false) : Tame Inner K (io op f) :=
  tame_io ⟨hlink, hpart⟩

theorem tame_noLink {op : Op} (hlink : op.isLink = false) :
    Tame NoLink K (io op f) :=
  tame_io hlink

theorem tame_ensure {A : Op → Prop} (c : Prop) [Decidable c] (message : String) :
    Tame A K (ensure c message) :=
  tame_require c _

theorem tame_ensureStillBound : Tame Inner K ensureStillBound := tame_inner rfl rfl

theorem tame_ensureOriginalParentBound : Tame Inner K ensureOriginalParentBound :=
  tame_inner rfl rfl

theorem tame_syncParent : Tame Inner K syncParent := tame_inner rfl rfl

theorem tame_openExistingPrivate (path : PathName) :
    Tame Inner K (openExistingPrivate env path) :=
  (tame_inner rfl rfl).bind fun file => (tame_inner rfl rfl).bind fun _ =>
    (tame_ensure _ _).bind fun _ => (tame_ensure _ _).bind fun _ =>
    (tame_ensure _ _).bind fun _ => tame_pure file

theorem tame_hashFileExact (file : FileIdentity) (size : Nat) :
    Tame Inner K (hashFileExact env file size) :=
  (tame_inner rfl rfl).bind fun _ => (tame_inner rfl rfl).bind fun _ =>
    (tame_ensure _ _).bind fun _ => (tame_ensure _ _).bind fun _ => tame_pure _

theorem tame_validateOwnedFileIdentity (file identity : FileIdentity) (size : Nat) :
    Tame Inner K (validateOwnedFileIdentity file identity size) :=
  (tame_inner rfl rfl).bind fun _ => (tame_ensure _ _).bind fun _ =>
    (tame_ensure _ _).bind fun _ => (tame_ensure _ _).bind fun _ =>
    (tame_ensure _ _).bind fun _ => tame_ensure _ _

/-- Removal unlinks one name. -/
theorem tame_removeOwnedPrivateFile {A : Op → Prop} (hA : ∀ op, Inner op → A op)
    {path : PathName} (hunlink : A (.unlink path)) (identity : FileIdentity) (kind : String) :
    Tame A K (removeOwnedPrivateFile env path identity kind) :=
  ((tame_openExistingPrivate path).mono hA).bind fun _ =>
    ((tame_inner rfl rfl).mono hA).bind fun _ => (tame_ensure _ _).bind fun _ =>
    (tame_io hunlink).bind fun _ => (tame_syncParent.mono hA).mapError _

theorem tame_removeOwnedPartial :
    Tame NoLink K (removeOwnedPartial env identity) :=
  tame_removeOwnedPrivateFile (fun _ h => h.noLink) rfl identity _

theorem tame_readResumeSidecar : Tame Inner K (readResumeSidecar env) := by
  refine (tame_openExistingPrivate .sidecar).bind fun _ => (tame_inner rfl rfl).bind ?_
  rintro (_ | record)
  · exact tame_fail _
  · exact tame_pure record

theorem tame_createResumeSidecar (record : ResumeSidecar) :
    Tame Inner K (createResumeSidecar env record) := by
  refine (tame_inner rfl rfl).bind fun file => (tame_inner rfl rfl).bind fun metadata => ?_
  refine (Tame.attempt ?_).bind ?_
  · exact (tame_inner rfl rfl).bind fun _ => (tame_inner rfl rfl).bind fun _ =>
      tame_syncParent.mapError _
  · rintro (e | _)
    · have hremove : Tame Inner K
          (removeOwnedPrivateFile env .sidecar metadata.identity "resume sidecar") :=
        tame_removeOwnedPrivateFile (fun _ h => h) ⟨rfl, rfl⟩ _ _
      exact hremove.attempt.bind fun _ => tame_fail _
    · exact tame_pure ()

theorem tame_replaceVerifiedResumeSidecar (durable : Nat)
    (state : ResumeSidecarState) (next : ResumeSidecar) :
    Tame Inner K (replaceVerifiedResumeSidecar env p identity durable state next) :=
  tame_readResumeSidecar.bind fun _ => (tame_orElseFail _ _).bind fun _ =>
    (tame_ensure _ _).bind fun _ => tame_inner rfl rfl

theorem tame_removeOwnedSidecar :
    Tame Inner K (removeOwnedSidecar env p identity) :=
  tame_readResumeSidecar.bind fun _ => (tame_orElseFail _ _).bind fun _ =>
    (tame_inner rfl rfl).bind fun _ => tame_syncParent.mapError _

end Stages

section Locals

variable {env : HelperEnv} {p : PushParams} {K : Locals → Prop}

theorem tame_cutToDurable (file : FileIdentity) (durable : Nat) :
    Tame Inner K (cutToDurable file durable) :=
  tame_ensureStillBound.bind fun _ => (tame_inner rfl rfl).bind fun _ => tame_inner rfl rfl

theorem tame_hashDurablePrefix (file : FileIdentity) (durable : Nat) :
    Tame Inner K (hashDurablePrefix file durable) :=
  (tame_inner rfl rfl).bind fun _ => (tame_inner rfl rfl).bind fun _ =>
    (tame_ensure _ _).bind fun _ => (tame_inner rfl rfl).bind fun _ => tame_pure _

/-- What is asked of the local variables does not depend on the durable offset. -/
def IgnoresDurable (K : Locals → Prop) : Prop := ∀ l n, K l → K { l with durable := n }

theorem tame_resumePartial (hK : IgnoresDurable K) : Tame Inner K (resumePartial env p) :=
  tame_readResumeSidecar.bind fun _ => (tame_openExistingPrivate .part).bind fun _ =>
    (tame_inner rfl rfl).bind fun _ => (tame_orElseFail _ _).bind fun _ =>
    (tame_ensure _ _).bind fun _ => (tame_assign fun l => hK l _).bind fun _ =>
    (tame_ensure _ _).bind fun _ => (tame_onlyIf (tame_cutToDurable _ _)).bind fun _ =>
    tame_hashDurablePrefix _ _

theorem tame_createPartial (howned : ∀ l, K l → K { l with owned := true }) :
    Tame NoLink K (createPartial env p) := by
  have inner : ∀ op, Inner op → NoLink op := fun _ h => h.noLink
  refine (tame_ensureStillBound.mono inner).bind fun _ => (tame_noLink rfl).bind fun file => ?_
  refine (tame_assign howned).bind fun _ => (tame_noLink rfl).bind fun metadata => ?_
  refine (tame_ensureStillBound.mono inner).bind fun _ => ?_
  refine ((tame_createResumeSidecar _).mono inner).attempt.bind ?_
  rintro (e | _)
  · have hcleanup : Tame NoLink K (do
        ensureStillBound
        removeOwnedPartial env metadata.identity) :=
      (tame_ensureStillBound.mono inner).bind fun _ => tame_removeOwnedPartial _
    exact hcleanup.attempt.bind fun _ => tame_fail _
  · exact tame_pure _

/-- Opening does not link. -/
theorem tame_openPartial (hK : IgnoresDurable K)
    (howned : ∀ l, K l → K { l with owned := true }) : Tame NoLink K (openPartial env p) := by
  have hstart : ∀ continuing : Bool, Tame NoLink K
      (if continuing then resumePartial env p else createPartial env p) := by
    intro continuing
    split
    · exact (tame_resumePartial hK).mono fun _ h => h.noLink
    · exact tame_createPartial howned
  rw [openPartial]
  split
  · exact (tame_noLink rfl).bind hstart
  · exact (tame_pure false).bind hstart

theorem tame_removeRecoveredPartial :
    Tame NoLink K (removeRecoveredPartial env identity) :=
  (tame_noLink rfl).bind fun _ => (tame_removeOwnedPartial identity).mapError _

theorem tame_persistReceipt (file : FileIdentity) : Tame Inner K (persistReceipt env p file) :=
  tame_ensureStillBound.bind fun _ => tame_vars.bind fun _ =>
    (tame_replaceVerifiedResumeSidecar _ _ _ _).mapError _

section

variable (hK : IgnoresDurable K) (file : FileIdentity)

include hK

theorem tame_recordDurable (next : Nat) : Tame Inner K (recordDurable env p file next) :=
  tame_ensureStillBound.bind fun _ => (tame_inner rfl rfl).bind fun _ =>
    tame_vars.bind fun _ => (tame_assign fun l => hK l _).bind fun _ =>
    tame_ensureStillBound.bind fun _ => tame_replaceVerifiedResumeSidecar _ _ _ _

theorem tame_receiveData (confirmed : Nat)
    (data : DataFrame) : Tame Inner K (receiveData env p file confirmed data) :=
  (tame_ensure _ _).bind fun _ => (tame_ensure _ _).bind fun _ =>
    (tame_ensure _ _).bind fun _ => (tame_ensure _ _).bind fun _ =>
    (tame_ensure _ _).bind fun _ => tame_ensureStillBound.bind fun _ =>
    (tame_inner rfl rfl).bind fun _ => tame_vars.bind fun _ =>
    (tame_onlyIf (tame_recordDurable hK file _)).bind fun _ => tame_vars.bind fun _ =>
    (tame_inner rfl rfl).bind fun _ => tame_pure _

/-- The loop neither links nor unlinks. -/
theorem tame_receiveLoop (fuel : Nat) :
    ∀ confirmed hashed, Tame Inner K (receiveLoop env p file fuel confirmed hashed) := by
  induction fuel with
  | zero => exact fun _ _ => (tame_inner rfl rfl).bind fun never => nomatch (never : Empty)
  | succ fuel ih =>
    intro confirmed hashed
    refine (tame_inner rfl rfl).bind fun (frame : Option Frame) => ?_
    match frame with
    | some (.data data) =>
      exact (tame_receiveData hK file confirmed data).bind fun next => ih next _
    | some (.control .commit) => exact tame_pure _
    | some (.control .cancel) => exact tame_fail _
    | some (.control (.ready _ _ _)) => exact tame_fail _
    | some (.control (.ack _ _ _)) => exact tame_fail _
    | some (.control (.completed _ _)) => exact tame_fail _
    | some (.control .other) => exact tame_fail _
    | none => exact tame_fail _

end

end Locals

/-- Whatever the cleanup does, it does not link the target. -/
theorem tame_cleanupFailedUpload {env : HelperEnv} {p : PushParams} {K : Unit → Prop}
    (durable : Nat) (committed : Bool) :
    Tame NoLink K (cleanupFailedUpload env p identity durable committed) := by
  have inner : ∀ op, Inner op → NoLink op := fun _ h => h.noLink
  have hclear : Tame NoLink K (clearSidecar env p identity) := by
    rw [clearSidecar]
    split
    · exact tame_pure ()
    · exact (tame_removeOwnedSidecar identity).mono inner
  rw [cleanupFailedUpload]
  split
  · exact (tame_removeOwnedPartial identity).attempt.bind fun _ =>
      hclear.attempt.bind fun _ => tame_orElseFail _ _
  · exact (((tame_openExistingPrivate .part).mono inner).mapError _).bind fun _ =>
      (tame_noLink rfl).bind fun _ => (tame_ensure _ _).bind fun _ =>
      (tame_noLink rfl).bind fun _ => tame_noLink rfl

/-! ## Runs on no terms

What a run reports is about every run, whatever the files were when it began. -/

/-- A contract that asks for nothing. -/
def anyTerms : Contract World Op where
  inv _ := True
  rely := Interfered
  guar _ _ := True
  ok _ _ := True
  rely_refl := interfered_refl
  rely_trans := interfered_trans

instance (permitted : World → Op → Choice → Bool) :
    Hosts (xferSystem.restrict permitted) anyTerms where
  exec h := (System.restrict_exec.mp h).2
  rely h := h
  quiet _ _ := ⟨trivial, trivial⟩

instance : Hosts xferSystem anyTerms :=
  inferInstanceAs (Hosts (xferSystem.restrict fun _ _ _ => true) anyTerms)

section AnyTerms

variable {S : System World Op Ans Choice} [hosts : Hosts S anyTerms] {σ α β : Type} {s : σ}
  {w : World} {P : World → Prop} {E : Error → σ → World → Prop}

/-- One operation, with what was known before it. -/
theorem wp_anyTerms {op : Op} {f : String → Error} {Q : Val op → σ → World → Prop}
    (hP : Stable P) (hw : P w)
    (h : ∀ w' c a w'', P w' → S.exec w' op c = some (a, w'') →
      exec w' op c = some (a, w'') →
      (∀ v, a = .ok v → Q v s w'') ∧ ∀ m, a = .error m → E (f m) s w'') :
    wp S anyTerms (io op f) Q E s w := by
  rw [wp_io]
  intro w1 hw1 _
  refine ⟨trivial, fun c a w2 hexec => ⟨trivial, trivial, ?_⟩⟩
  exact h w1 c a w2 (hP w w1 (hosts.rely hw1) hw) hexec (hosts.exec hexec)

variable {A : Op → Prop} {K : σ → Prop} {x : Io σ α}

/-- A stage keeps what its operations keep. -/
theorem tame_wp {Q : α → σ → World → Prop} (hx : Tame A K x) (hP : Stable P)
    (hA : ∀ op, A op → op.Keeps P) (hs : K s) (hw : P w)
    (hE : ∀ e s' w', K s' → P w' → E e s' w') (hQ : ∀ a s' w', K s' → P w' → Q a s' w') :
    wp S anyTerms x Q E s w := by
  have hkept : wp S anyTerms x (fun _ s' w' => K s' ∧ P w') (fun _ s' w' => K s' ∧ P w') s w := by
    refine hx.wp (fun w w' h => hP w w' h) ?_ hs hw
    intro op hop w' _ hw'
    exact ⟨trivial, fun c a w'' h =>
      ⟨trivial, trivial, hA op hop w' c a w'' (hosts.exec h) hw'⟩⟩
  exact wp_mono hkept (fun a s' w' h => hQ a s' w' h.1 h.2) fun e s' w' h => hE e s' w' h.1 h.2

variable {Q : β → σ → World → Prop}

/-- A stage at the head of a program. -/
theorem tame_step {f : α → Io σ β} (hx : Tame A K x)
    (hP : Stable P) (hA : ∀ op, A op → op.Keeps P) (hs : K s) (hw : P w)
    (hE : ∀ e s' w', K s' → P w' → E e s' w')
    (hf : ∀ a s' w', K s' → P w' → wp S anyTerms (f a) Q E s' w') :
    wp S anyTerms (x >>= f) Q E s w := by
  rw [wp_bind]
  exact tame_wp hx hP hA hs hw hE hf

/-- A stage of which only the local variables matter. -/
theorem tame_next {f : α → Io σ β} (hx : Tame A K x) (hs : K s) (hE : ∀ e s' w', K s' → E e s' w')
    (hf : ∀ a s' w', K s' → wp S anyTerms (f a) Q E s' w') :
    wp S anyTerms (x >>= f) Q E s w :=
  tame_step (P := fun _ => True) hx (stable_const True) (fun _ _ _ _ _ _ _ _ => trivial) hs trivial
    (fun e s' w' h _ => hE e s' w' h) fun a s' w' h _ => hf a s' w' h

/-- **Every run** of a program: where it has returned, its postcondition holds. -/
theorem post_of_run {permitted : World → Op → Choice → Bool} {x : Io Unit α}
    {Q : α → World → Prop} {E : Error → World → Prop} (hQ : ∀ a, Stable (Q a))
    (hE : ∀ e, Stable (E e))
    (hx : wp (xferSystem.restrict permitted) anyTerms x (fun a _ => Q a) (fun e _ => E e) () w)
    {ms : List (Pool.Move Unit Empty Choice)}
    {cfg : Pool.Config Unit World Op Ans (Except Error α × Unit)}
    (hrun : (Pool.solo (xferSystem.restrict permitted)).run (Pool.running (x ()) w) ms = some cfg)
    {result : Except Error α} (hend : cfg.threads () = some (.ret (result, ()))) :
    (∀ a, result = .ok a → Q a cfg.world) ∧ ∀ e, result = .error e → E e cfg.world := by
  have hsound : (Pool.solo (xferSystem.restrict permitted)).Sound anyTerms.inv (fun _ => anyTerms)
      (fun _ (r : Except Error α × Unit) w' =>
        (∀ a, r.1 = .ok a → Q a w') ∧ ∀ e, r.1 = .error e → E e w') := by
    refine Pool.solo_sound ?_ (fun _ _ _ h _ => ⟨trivial, interfered_of_env h⟩)
      fun _ _ _ _ _ => trivial
    intro r w w' hrely h
    exact ⟨fun a ha => hQ a w w' hrely (h.1 a ha), fun e he => hE e w w' hrely (h.2 e he)⟩
  refine (Pool.solo_good hsound trivial (Safe.mono ?_ hx) hrun).post_of_ret hend
  rintro ⟨_ | _, _⟩ w' h
  · exact ⟨nofun, fun _ he => Except.error.inj he ▸ h⟩
  · exact ⟨fun _ ha => Except.ok.inj ha ▸ h, nofun⟩

end AnyTerms

/-- Other parties do not link for the run. -/
theorem stable_linked (b : Bool) : Stable fun w => w.linked = b := by
  intro w w' hw h
  rcases hw with rfl | ⟨-, i, f, -, rfl⟩
  · exact h
  · exact h

/-- Other parties leave the partial name alone. -/
theorem stable_part (i : Option FileIdentity) : Stable fun w => w.part = i := by
  intro w w' hw h
  rcases hw with rfl | ⟨-, j, f, -, rfl⟩
  · exact h
  · exact h

theorem stable_wire (wire : List WireEvent) : Stable fun w => w.wire = wire := by
  intro w w' hw h
  rcases hw with rfl | ⟨-, j, f, -, rfl⟩
  · exact h
  · exact h

theorem Op.Keeps.and {op : Op} {P P' : World → Prop} (h : op.Keeps P) (h' : op.Keeps P') :
    op.Keeps fun w => P w ∧ P' w :=
  fun w c a w' hexec hw => ⟨h w c a w' hexec hw.1, h' w c a w' hexec hw.2⟩

end Serctl.Xfer
