import Serctl.Xfer.PushInvariant

/-!
# Rules for the helper's operations

The proof rules that the stages of an upload are verified with.  Most of what a run does only
looks at the world; `Calm` says so of a whole function and names what its result tells about
the world.  The operations that change something have one rule each.
-/

namespace Serctl.Xfer

open Lib Lib.Act

variable {env : HelperEnv} {u : Upload} {resumable : Prop} {σ α β : Type}

/-- Other parties cannot break the assertion. -/
def Stable (P : World → Prop) : Prop := ∀ w w', Interfered w w' → P w → P w'

theorem Stable.and {P P' : World → Prop} (h : Stable P) (h' : Stable P') :
    Stable fun w => P w ∧ P' w :=
  fun w w' hw hp => ⟨h w w' hw hp.1, h' w w' hw hp.2⟩

theorem stable_const (p : Prop) : Stable fun _ => p := fun _ _ _ h => h

/-- Where the target exists, there is no interference. -/
theorem eq_of_interfered {w w' : World} {t : FileIdentity} (h : Interfered w w')
    (ht : w.target = some t) : w' = w := by
  rcases h with rfl | ⟨hnone, -⟩
  · rfl
  · rw [hnone] at ht
    cases ht

theorem stable_of_target {P : World → Prop} {t : FileIdentity}
    (h : ∀ w, P w → w.target = some t) : Stable P :=
  fun w _ hw hp => (eq_of_interfered hw (h w hp)).symm ▸ hp

/-- The partial file is not the target. -/
def Apart (w : World) : Prop := ∀ i, w.part = some i → w.target ≠ some i

theorem stable_apart : Stable Apart := by
  intro w w' hw h
  rcases hw with rfl | ⟨-, i, f, hi, rfl⟩
  · exact h
  · intro j hj hji
    cases hji
    exact hi.2.1 hj

variable {op : Op}

section Looking

variable {S : System World Op Ans Choice} {C : Contract World Op}

theorem wp_io {f : String → Error} {Q : Val op → σ → World → Prop}
    {E : Error → σ → World → Prop} {s : σ} {w : World} :
    wp S C (io op f) Q E s w ↔
      ∀ w1, C.rely w w1 → C.inv w1 → C.ok w1 op ∧
        ∀ c a w2, S.exec w1 op c = some (a, w2) → C.inv w2 ∧ C.guar w1 w2 ∧
          (∀ v, a = .ok v → Q v s w2) ∧ (∀ m, a = .error m → E (f m) s w2) := by
  simp only [io, wp_bind, wp_call, wp_orElseFail]

/-- The helper's programs can run in the system on these terms: an operation goes as it does in
    `xferSystem`, other parties do no more than they do there, and an operation that changes
    nothing asks for nothing. -/
class Hosts (S : System World Op Ans Choice) (C : Contract World Op) : Prop where
  exec : ∀ {w op c r}, S.exec w op c = some r → Xfer.exec w op c = some r
  rely : ∀ {w w'}, C.rely w w' → Interfered w w'
  quiet : ∀ {w op}, op.isQuiet = true → C.inv w → C.ok w op ∧ C.guar w w

instance : Hosts xferSystem (pushContract env u resumable) where
  exec h := h
  rely h := h
  quiet {w op} hq _ := by
    have hok : (pushContract env u resumable).ok w op := by
      cases op <;> trivial
    exact ⟨hok, .refl w⟩

/-! ## Functions that only look -/

/-- The function changes nothing, its value satisfies `V`, and its errors are plain ones. -/
def Calm (S : System World Op Ans Choice) (C : Contract World Op) (x : Io σ α)
    (V : α → World → Prop) : Prop :=
  ∀ (P : World → Prop), Stable P → ∀ (s : σ) (w : World) (Q : α → σ → World → Prop)
    (E : Error → σ → World → Prop), C.inv w → P w →
    (∀ a w', C.inv w' → P w' → V a w' → Q a s w') →
    (∀ e w', e.marks = [] → P w' → E e s w') → wp S C x Q E s w

namespace Calm

variable {V : α → World → Prop} {x : Io σ α}

theorem imp {V' : α → World → Prop} (h : Calm S C x V)
    (hV : ∀ a w, V a w → V' a w) : Calm S C x V' := by
  intro P hstable s w Q E hinv hP hQ hE
  exact h P hstable s w Q E hinv hP
    (fun a w' hinv' hp hv => hQ a w' hinv' hp (hV a w' hv)) hE

theorem pure (a : α) : Calm (σ := σ) S C (Pure.pure a) fun b _ => b = a :=
  fun _ _ _ w _ _ hinv hP hQ _ => hQ a w hinv hP rfl

theorem fail (e : Error) (he : e.marks = []) (V : α → World → Prop) :
    Calm (σ := σ) S C (Act.fail e) V :=
  fun _ _ _ w _ _ _ hP _ hE => hE e w he hP

theorem ensure (c : Prop) [Decidable c] (message : String) :
    Calm (σ := σ) S C (Xfer.ensure c message) fun _ _ => c := by
  intro P _ s w Q E hinv hP hQ hE
  rw [Xfer.ensure, wp_require]
  exact ⟨fun hc => hQ () w hinv hP hc, fun _ => hE _ w rfl hP⟩

theorem orElseFail {r : Except Error α} (hr : ∀ e, r = .error e → e.marks = []) :
    Calm (σ := σ) S C (Act.orElseFail id r) fun a _ => r = .ok a := by
  intro P _ s w Q E hinv hP hQ hE
  rw [wp_orElseFail]
  exact ⟨fun a ha => hQ a w hinv hP ha, fun e he => hE e w (hr e he) hP⟩

theorem context (h : Calm S C x V)
    (message : String) : Calm S C (mapError (fun e => e.context message) x) V := by
  intro P hstable s w Q E hinv hP hQ hE
  rw [wp_mapError]
  exact h P hstable s w Q _ hinv hP hQ fun e w' he hp => hE (e.context message) w' he hp

section

variable {f : α → Io σ β} {V' : β → World → Prop}

/-- A look followed by another, where what the first has seen cannot be broken. -/
theorem bind (hx : Calm S C x V) (hstable : ∀ a, Stable (V a))
    (hf : ∀ a, Calm S C (f a) fun b w => V a w → V' b w) :
    Calm S C (x >>= f) V' := by
  intro P hP s w Q E hinv hw hQ hE
  rw [wp_bind]
  refine hx P hP s w _ E hinv hw ?_ hE
  intro a w' hinv' hw' hv
  refine hf a (fun w => P w ∧ V a w) (hP.and (hstable a)) s w' Q E hinv' ⟨hw', hv⟩ ?_ ?_
  · exact fun b w'' hinv'' hp hv' => hQ b w'' hinv'' hp.1 (hv' hp.2)
  · exact fun e w'' hm hp => hE e w'' hm hp.1

/-- A look at the head of a program. -/
theorem step {P : World → Prop}
    {Q : β → σ → World → Prop} {E : Error → σ → World → Prop} {s : σ} {w : World}
    (hx : Calm S C x V) (hP : Stable P)
    (hinv : C.inv w) (hw : P w)
    (hE : ∀ e w', e.marks = [] → P w' → E e s w')
    (hf : ∀ a w', C.inv w' → P w' → V a w' →
      wp S C (f a) Q E s w') :
    wp S C (x >>= f) Q E s w := by
  rw [wp_bind]
  exact hx P hP s w _ E hinv hw hf hE

/-- A look whose result does not matter for what is learned. -/
theorem andThen (hx : Calm S C x V) (hf : ∀ a, Calm S C (f a) V') : Calm S C (x >>= f) V' := by
  intro P hP s w Q E hinv hw hQ hE
  rw [wp_bind]
  exact hx P hP s w _ E hinv hw
    (fun a w' hinv' hw' _ => hf a P hP s w' Q E hinv' hw' hQ hE) hE

end

end Calm

/-- A check at the head of a program. -/
theorem wp_ensure_bind {c : Prop} [Decidable c] {message : String} {f : Unit → Io σ β}
    {Q : β → σ → World → Prop} {E : Error → σ → World → Prop} {s : σ} {w : World}
    (hE : E (.msg message) s w)
    (hf : c → wp S C (f ()) Q E s w) :
    wp S C (ensure c message >>= f) Q E s w := by
  rw [wp_bind, ensure, wp_require]
  exact ⟨hf, fun _ => hE⟩

/-- Nothing is learned. -/
def Nothing {α : Type} (_ : α) (_ : World) : Prop := True

variable [hosts : Hosts S C]

theorem calm_io {f : String → Error} (hq : op.isQuiet = true) (hf : ∀ m, (f m).marks = []) :
    Calm (σ := σ) S C (io op f) fun v w => ∃ c, exec w op c = some (.ok v, w) := by
  intro P hstable s w Q E _ hP hQ hE
  rw [wp_io]
  intro w1 hw1 hinv
  have hP1 := hstable w w1 (hosts.rely hw1) hP
  refine ⟨(hosts.quiet hq hinv).1, ?_⟩
  intro c a w2 hexec
  have hexec' := hosts.exec hexec
  obtain rfl := exec_quiet hq hexec'
  refine ⟨hinv, (hosts.quiet hq hinv).2, ?_, ?_⟩
  · rintro v rfl
    exact hQ v _ hinv hP1 ⟨c, hexec'⟩
  · rintro m rfl
    exact hE _ _ (hf m) hP1

theorem calm_ensureStillBound :
    Calm (σ := σ) S C ensureStillBound Nothing :=
  (calm_io rfl fun _ => rfl).imp fun _ _ _ => trivial

theorem calm_ensureOriginalParentBound :
    Calm (σ := σ) S C ensureOriginalParentBound Nothing :=
  (calm_io rfl fun _ => rfl).imp fun _ _ _ => trivial

theorem calm_syncParent : Calm (σ := σ) S C syncParent Nothing :=
  (calm_io rfl fun _ => rfl).imp fun _ _ _ => trivial

theorem calm_pathEntryExists (path : PathName) :
    Calm (σ := σ) S C (pathEntryExists env path) fun b w =>
      b = (w.entry path).isSome :=
  (calm_io rfl fun _ => rfl).imp fun _ _ ⟨_, h⟩ => exec_entryExists h

theorem calm_fstat (i : FileIdentity) (f : String → Error) (hf : ∀ m, (f m).marks = []) :
    Calm (σ := σ) S C (io (.fstat i) f) fun (metadata : Metadata) w =>
      metadata = w.metadata i :=
  (calm_io rfl hf).imp fun _ _ ⟨_, h⟩ => exec_fstat h

theorem stable_entry (path : PathName) (i : FileIdentity) :
    Stable fun w => w.entry path = some i := by
  intro w w' hw h
  rcases hw with rfl | ⟨hnone, j, f, hj, rfl⟩
  · exact h
  · cases path with
    | target =>
      simp only [World.entry] at h
      rw [hnone] at h
      cases h
    | part => exact h
    | sidecar => exact h

/-- An open for private use yields the identity of the entry. -/
theorem calm_openExistingPrivate (path : PathName) :
    Calm (σ := σ) S C (openExistingPrivate env path) fun i w =>
      w.entry path = some i := by
  have hopen : Calm (σ := σ) S C
      (io (.openEntry path) fun m =>
        (Failure.msg m).context ("open owned native transfer file " ++ env.display path))
      fun (i : FileIdentity) w => w.entry path = some i :=
    (calm_io rfl fun _ => rfl).imp fun _ _ ⟨_, h⟩ => exec_openEntry h
  refine hopen.bind (stable_entry path) fun i => ?_
  refine (calm_fstat i _ fun _ => rfl).andThen fun metadata => ?_
  refine (Calm.ensure _ _).andThen fun _ => (Calm.ensure _ _).andThen fun _ =>
    (Calm.ensure _ _).andThen fun _ => (Calm.pure i).imp ?_
  rintro _ w rfl hentry
  exact hentry

/-- A file that hashes exactly has the size asked for, and the digest is that of its bytes. -/
theorem calm_hashFileExact (i : FileIdentity) (size : Nat) :
    Calm (σ := σ) S C (hashFileExact env i size) fun digest w =>
      (w.files i).data.length = size ∧ digest = env.digest (w.files i).data := by
  refine (calm_io rfl fun _ => rfl).andThen fun _ => ?_
  intro P hP s w Q E hinv hw hQ hE
  rw [wp_bind]
  refine calm_io rfl (fun _ => rfl) P hP s w _ E hinv hw ?_ hE
  rintro bytes w' hinv' hw' ⟨c, hread⟩
  obtain rfl := exec_read hread
  simp only [wp_bind, ensure, wp_require, wp_pure]
  refine ⟨fun hle => ⟨fun hge => hQ _ w' hinv' hw' ?_, fun _ => hE _ w' rfl hw'⟩,
    fun _ => hE _ w' rfl hw'⟩
  -- the probe byte was not there, so what was read is the whole file
  rw [List.length_take] at hle hge
  have hall : (w'.files i).data.take (size + 1) = (w'.files i).data :=
    List.take_of_length_le (by omega)
  rw [hall]
  exact ⟨by omega, rfl⟩

theorem calm_validateOwnedFileIdentity (i identity : FileIdentity) (size : Nat) :
    Calm (σ := σ) S C (validateOwnedFileIdentity i identity size) Nothing := by
  refine (calm_fstat i _ fun _ => rfl).andThen fun metadata => ?_
  refine (Calm.ensure _ _).andThen fun _ => (Calm.ensure _ _).andThen fun _ =>
    (Calm.ensure _ _).andThen fun _ => (Calm.ensure _ _).andThen fun _ =>
    (Calm.ensure _ _).imp fun _ _ _ => trivial

theorem stable_sidecar (content : Option (FileIdentity × SidecarContent)) :
    Stable fun w => w.sidecar = content := by
  intro w w' hw h
  rcases hw with rfl | ⟨-, i, f, -, rfl⟩
  · exact h
  · exact h

theorem stable_hasSealed (r : ResumeSidecar) :
    Stable fun w => ∃ j, w.sidecar = some (j, .sealed r) :=
  fun w w' hw ⟨j, hj⟩ => ⟨j, stable_sidecar _ w w' hw hj⟩

/-- A sidecar that parses is a complete record. -/
theorem calm_readResumeSidecar :
    Calm (σ := σ) S C (readResumeSidecar env) fun r w =>
      ∃ j, w.sidecar = some (j, .sealed r) := by
  refine (calm_openExistingPrivate .sidecar).andThen fun _ => ?_
  have hread : Calm (σ := σ) S C (io .readSidecar)
      fun (content : SidecarContent) w => ∃ j, w.sidecar = some (j, content) :=
    (calm_io rfl fun _ => rfl).imp fun _ _ ⟨_, h⟩ => exec_readSidecar h
  refine hread.bind (fun content w w' hw ⟨j, hj⟩ => ⟨j, stable_sidecar _ w w' hw hj⟩) ?_
  intro content
  cases content with
  | torn => exact Calm.fail _ rfl _
  | sealed r =>
    refine (Calm.pure r).imp ?_
    rintro _ w rfl hj
    exact hj

/-! ### Validated records -/

theorem ResumeSidecar.marks_of_validate {r : ResumeSidecar} {i : FileIdentity} {e : Error}
    (h : r.validate u i = .error e) : e.marks = [] := by
  unfold ResumeSidecar.validate at h
  repeat' split at h
  all_goals first | cases h; rfl | cases h

/-- A validated record says what the upload says, about the given file. -/
theorem ResumeSidecar.eq_of_validate {r : ResumeSidecar} {i : FileIdentity}
    (h : r.validate u i = .ok ()) :
    r = .new u r.durableOffset i r.state ∧ r.durableOffset ≤ u.size := by
  unfold ResumeSidecar.validate at h
  repeat' split at h
  all_goals cases h
  rename_i hschema hid hsize hsha htoken hdurable hidentity _
  obtain ⟨_, _, _, _, _, _, _, _⟩ := r
  simp only [ne_eq, not_not, not_lt] at hschema hid hsize hsha htoken hdurable hidentity
  subst hschema hid hsize hsha htoken hidentity
  exact ⟨rfl, hdurable⟩

omit hosts in
theorem calm_validate (r : ResumeSidecar) (i : FileIdentity) :
    Calm (σ := σ) S C (orElseFail id (r.validate u i)) fun _ _ =>
      r = .new u r.durableOffset i r.state ∧ r.durableOffset ≤ u.size :=
  (Calm.orElseFail fun _ he => ResumeSidecar.marks_of_validate he).imp
    fun _ _ h => ResumeSidecar.eq_of_validate h

end Looking

/-! ## Operations that change something

Each rule is used with an assertion `P` that other parties cannot break.  It asks for what the
operation needs where it is issued, and gives the invariant where it has been done. -/

section Changes

variable {P : World → Prop} {f : String → Error} {E : Error → σ → World → Prop} {s : σ}
  {w : World} (hP : Stable P) (hw : P w)

include hP hw

/-- The common part of the rules: the operation changes the world, or it is refused. -/
private theorem wp_change {Q : Val op → σ → World → Prop}
    (hok : ∀ w', u.Inv env resumable w' → P w' → (pushContract env u resumable).ok w' op)
    (hexec : ∀ w' c a w'', u.Inv env resumable w' → P w' →
      exec w' op c = some (a, w'') → Refused w' a w'' ∨
        (u.Inv env resumable w'' ∧ TargetKept w' w'' ∧ (u.Inv env resumable w'' →
            (∀ v, a = .ok v → Q v s w'') ∧ ∀ m, a = .error m → E (f m) s w'')))
    (hE : ∀ m w', P w' → E (f m) s w') :
    wp xferSystem (pushContract env u resumable) (io op f) Q E s w := by
  rw [wp_io]
  intro w1 hw1 hinv
  have hP1 := hP w w1 hw1 hw
  refine ⟨hok w1 hinv hP1, fun c a w2 h => ?_⟩
  rcases hexec w1 c a w2 hinv hP1 h with ⟨⟨m, rfl⟩, rfl⟩ | ⟨hinv', hkept, hdone⟩
  · refine ⟨hinv, .refl _, fun v hv => (by cases hv), fun m' hm' => ?_⟩
    cases hm'
    exact hE m w2 hP1
  · exact ⟨hinv', hkept, hdone hinv'⟩

variable {Q : Unit → σ → World → Prop} {i : FileIdentity}

theorem wp_syncFile (hQ : ∀ w', P w' → u.Inv env resumable (w'.setFile i (w'.files i).sync) →
      Q () s (w'.setFile i (w'.files i).sync))
    (hE : ∀ m w', P w' → E (f m) s w' ∧ E (f m) s (w'.setFile i (w'.files i).sync)) :
    wp xferSystem (pushContract env u resumable) (io (.syncFile i) f) Q E s w := by
  refine wp_change hP hw (fun _ _ _ => trivial) ?_ (fun m w' hw' => (hE m w' hw').1)
  intro w' c a w'' hinv hw' h
  rcases exec_syncFile h with rfl | hr
  · refine .inr ⟨⟨hinv.1.sync i, fun hr => (hinv.2 hr).sync i⟩, .sync w' i, fun hinv' => ?_⟩
    exact ⟨fun _ _ => hQ w' hw' hinv', fun m _ => (hE m w' hw').2⟩
  · exact .inl hr

/-- Writing at the end of the partial file; a failed write may have stored some of the bytes. -/
theorem wp_writeAt {pos : Nat} {bytes : List UInt8}
    (htarget : ∀ w', P w' → w'.target ≠ some i)
    (hpos : resumable → ∀ w', P w' → pos = (w'.files i).data.length)
    (hQ : ∀ w', P w' → u.Inv env resumable (w'.setFile i ((w'.files i).writeAt pos bytes)) →
      Q () s (w'.setFile i ((w'.files i).writeAt pos bytes)))
    (hE : ∀ m w' bytes', P w' → E (f m) s w' ∧
      E (f m) s (w'.setFile i ((w'.files i).writeAt pos bytes'))) :
    wp xferSystem (pushContract env u resumable) (io (.writeAt i pos bytes) f) Q E s w := by
  have hkeep : ∀ w' bytes', u.Inv env resumable w' → P w' →
      u.Inv env resumable (w'.setFile i ((w'.files i).writeAt pos bytes')) := by
    intro w' bytes' hinv hw'
    refine ⟨hinv.1.setFile _ (htarget w' hw'), fun hr => ?_⟩
    rw [hpos hr w' hw']
    exact (hinv.2 hr).append i bytes'
  refine wp_change hP hw (fun _ _ _ => trivial) ?_ (fun m w' hw' => (hE m w' [] hw').1)
  intro w' c a w'' hinv hw' h
  have hkept : ∀ bytes', TargetKept w' (w'.setFile i ((w'.files i).writeAt pos bytes')) :=
    fun _ => .setFile (htarget w' hw') rfl rfl
  rcases exec_writeAt h with ⟨rfl, rfl⟩ | ⟨m, n, rfl, rfl⟩ | hr
  · refine .inr ⟨hkeep w' bytes hinv hw', hkept bytes, fun hinv' => ?_⟩
    exact ⟨fun _ _ => hQ w' hw' hinv', fun _ hm => by cases hm⟩
  · refine .inr ⟨hkeep w' _ hinv hw', hkept _, fun _ => ⟨fun _ hv => (by cases hv), ?_⟩⟩
    exact fun m' _ => (hE m' w' (bytes.take n) hw').2
  · exact .inl hr

/-- A new record takes the place of the old one if it is about the same file and promises no
    more than what is there; a failed replacement may have taken place. -/
theorem wp_replaceSidecar {record : ResumeSidecar}
    (hrecord : resumable → ∀ w', u.Inv env resumable w' → P w' →
      Recorded u w' record ∧ (∀ k, w'.part = some k → record.identity = k) ∧
        w'.recordedOffset ≤ record.durableOffset)
    (hQ : ∀ w' i, P w' → w'.Unused i → u.Inv env resumable
        { w'.setFile i File.created with sidecar := some (i, .sealed record) } →
      Q () s { w'.setFile i File.created with sidecar := some (i, .sealed record) })
    (hE : ∀ m w', P w' → E (f m) s w' ∧ ∀ i, w'.Unused i →
      E (f m) s { w'.setFile i File.created with sidecar := some (i, .sealed record) }) :
    wp xferSystem (pushContract env u resumable) (io (.replaceSidecar record) f) Q E s w := by
  refine wp_change hP hw (fun _ _ _ => trivial) ?_ (fun m w' hw' => (hE m w' hw').1)
  intro w' c a w'' hinv hw' h
  rcases exec_replaceSidecar h with ⟨i, hi, rfl⟩ | hr
  · have hintact := hinv.1.setFile File.created hi.1
    refine .inr ⟨⟨hintact.of_eq rfl rfl (.inl rfl) rfl, fun hr => ?_⟩, .setFile hi.1 rfl rfl,
      fun hinv' => ⟨fun _ _ => hQ w' i hw' hi hinv', fun m _ => (hE m w' hw').2 i hi⟩⟩
    obtain ⟨hrec, hbound, hgrows⟩ := hrecord hr w' hinv hw'
    -- the new sidecar file has an unused identity, so the recorded file is what it was
    have hrec' := hrec.setFile_unused hi File.created
    exact (hinv.2 hr).record rfl rfl (hrec'.transfer hrec'.le_synced rfl rfl) hbound hgrows
  · exact .inl hr

/-- A message is sent where it may be sent; a failed send may have been delivered. -/
theorem wp_send {control : Control}
    (hok : ∀ w', u.Inv env resumable w' → P w' → SendOk env u resumable w' control)
    (hinv' : ∀ w', u.Inv env resumable w' → P w' → resumable → Durable u (w'.log (.sent control)))
    (hQ : ∀ w', P w' → u.Inv env resumable (w'.log (.sent control)) →
      Q () s (w'.log (.sent control)))
    (hE : ∀ m w', P w' → E (f m) s w' ∧ E (f m) s (w'.log (.sent control))) :
    wp xferSystem (pushContract env u resumable) (io (.send control) f) Q E s w := by
  refine wp_change hP hw hok ?_ (fun m w' hw' => (hE m w' hw').1)
  intro w' c a w'' hinv hw' h
  rcases exec_send h with rfl | hr
  · refine .inr ⟨⟨hinv.1.of_eq rfl rfl (.inl rfl) rfl, hinv' w' hinv hw'⟩, .of_eq rfl rfl, ?_⟩
    exact fun hdone => ⟨fun _ _ => hQ w' hw' hdone, fun m _ => (hE m w' hw').2⟩
  · exact .inl hr

variable (hE : ∀ m w', P w' → E (f m) s w')

include hE

/-- An operation that is done only if it says so. -/
private theorem wp_done {Q : Val op → σ → World → Prop}
    (hok : ∀ w', (pushContract env u resumable).ok w' op)
    (hexec : ∀ w' c a w'', u.Inv env resumable w' → P w' →
      exec w' op c = some (a, w'') → Refused w' a w'' ∨ ∃ v, a = .ok v ∧
        u.Inv env resumable w'' ∧ TargetKept w' w'' ∧ (u.Inv env resumable w'' → Q v s w'')) :
    wp xferSystem (pushContract env u resumable) (io op f) Q E s w := by
  refine wp_change hP hw (fun w' _ _ => hok w') (fun w' c a w'' hinv hw' h => ?_) hE
  rcases hexec w' c a w'' hinv hw' h with hr | ⟨v, rfl, hinv', hkept, hQ⟩
  · exact .inl hr
  · refine .inr ⟨hinv', hkept, fun hinv'' => ⟨?_, fun _ hm => by cases hm⟩⟩
    rintro _ ⟨rfl⟩
    exact hQ hinv''

theorem wp_setLen {n : Nat} (htarget : ∀ w', P w' → w'.target ≠ some i)
    (hrecord : resumable → ∀ w', u.Inv env resumable w' → P w' →
      ∀ j r, w'.sidecar = some (j, .sealed r) → r.durableOffset ≤ n)
    (hQ : ∀ w', P w' → u.Inv env resumable (w'.setFile i ((w'.files i).setLen n)) →
      Q () s (w'.setFile i ((w'.files i).setLen n))) :
    wp xferSystem (pushContract env u resumable) (io (.setLen i n) f) Q E s w := by
  refine wp_done hP hw hE (fun _ => trivial) fun w' c a w'' hinv hw' h => ?_
  rcases exec_setLen h with ⟨rfl, rfl⟩ | hr
  · refine .inr ⟨(), rfl, ⟨hinv.1.setFile _ (htarget w' hw'), fun hr => ?_⟩,
      .setFile (htarget w' hw') rfl rfl, hQ w' hw'⟩
    exact (hinv.2 hr).cut i (hrecord hr w' hinv hw')
  · exact .inl hr

/-- The partial name goes; a record that promises anything needs the target name then. -/
theorem wp_unlinkPart (hkeep : resumable → ∀ w', u.Inv env resumable w' → P w' →
      ∀ j r, w'.sidecar = some (j, .sealed r) → r.durableOffset = 0 ∨ w'.target = w'.part)
    (hQ : ∀ w', P w' → u.Inv env resumable { w' with part := none } →
      Q () s { w' with part := none }) :
    wp xferSystem (pushContract env u resumable) (io (.unlink .part) f) Q E s w := by
  refine wp_done hP hw hE (fun _ => trivial) fun w' c a w'' hinv hw' h => ?_
  rcases exec_unlink_part h with ⟨rfl, rfl⟩ | hr
  · refine .inr ⟨(), rfl, ⟨hinv.1.of_eq rfl rfl (.inr rfl) rfl, fun hr => ?_⟩, .of_eq rfl rfl,
      hQ w' hw'⟩
    exact (hinv.2 hr).unlink (hkeep hr w' hinv hw')
  · exact .inl hr

/-- The sidecar goes; in a resumable session only one that records nothing. -/
theorem wp_unlinkSidecar
    (hzero : resumable → ∀ w', P w' → ∀ j r, w'.sidecar = some (j, .sealed r) →
      r.durableOffset = 0)
    (hQ : ∀ w', P w' → u.Inv env resumable { w' with sidecar := none } →
      Q () s { w' with sidecar := none }) :
    wp xferSystem (pushContract env u resumable) (io (.unlink .sidecar) f) Q E s w := by
  refine wp_done hP hw hE (fun _ => trivial) fun w' c a w'' hinv hw' h => ?_
  rcases exec_unlink_sidecar h with ⟨rfl, rfl⟩ | hr
  · refine .inr ⟨(), rfl, ⟨hinv.1.of_eq rfl rfl (.inl rfl) rfl, fun hr => ?_⟩, .of_eq rfl rfl,
      hQ w' hw'⟩
    exact (hinv.2 hr).of_no_record (fun _ _ h => by cases h) rfl (hzero hr w' hw')
  · exact .inl hr

/-- The partial file is created under an unused identity. -/
theorem wp_createPart {Q : FileIdentity → σ → World → Prop}
    (hrecord : resumable → ∀ w', P w' → w'.sidecar = none)
    (hQ : ∀ w' i, P w' → w'.Unused i →
      u.Inv env resumable { w'.setFile i File.created with part := some i } →
      Q i s { w'.setFile i File.created with part := some i }) :
    wp xferSystem (pushContract env u resumable) (io (.createNew .part) f) Q E s w := by
  refine wp_done hP hw hE (fun _ => trivial) fun w' c a w'' hinv hw' h => ?_
  rcases exec_createNew_part h with ⟨i, rfl, -, hi, rfl⟩ | hr
  · have hintact := hinv.1.setFile File.created hi.1
    refine .inr ⟨i, rfl, ⟨⟨hintact.linked, ?_⟩, fun hr => ?_⟩, .setFile hi.1 rfl rfl,
      hQ w' i hw' hi⟩
    · intro t ht hp
      cases hp
      exact absurd ht hi.1
    · have hnone : ∀ j r, w'.sidecar ≠ some (j, .sealed r) := by
        intro j r
        rw [hrecord hr w' hw']
        exact nofun
      exact (hinv.2 hr).of_no_record hnone rfl fun j r hj => absurd hj (hnone j r)
  · exact .inl hr

/-- The sidecar file is created empty. -/
theorem wp_createSidecar {Q : FileIdentity → σ → World → Prop}
    (hQ : ∀ w' i, P w' → w'.Unused i → u.Inv env resumable
        { w'.setFile i File.created with sidecar := some (i, .torn) } →
      Q i s { w'.setFile i File.created with sidecar := some (i, .torn) }) :
    wp xferSystem (pushContract env u resumable) (io (.createNew .sidecar) f) Q E s w := by
  refine wp_done hP hw hE (fun _ => trivial) fun w' c a w'' hinv hw' h => ?_
  rcases exec_createNew_sidecar h with ⟨i, rfl, hnone, hi, rfl⟩ | hr
  · have hintact := hinv.1.setFile File.created hi.1
    refine .inr ⟨i, rfl, ⟨hintact.of_eq rfl rfl (.inl rfl) rfl, fun hr => ?_⟩,
      .setFile hi.1 rfl rfl, hQ w' i hw' hi⟩
    exact (hinv.2 hr).of_no_record (fun _ _ hj => by cases hj) rfl fun j r hj => by
      rw [hnone] at hj
      cases hj
  · exact .inl hr

/-- The first record promises nothing, and it is about the partial file. -/
theorem wp_writeSidecar {record : ResumeSidecar} (hzero : record.durableOffset = 0)
    (hpart : ∀ w', P w' → ∀ k, w'.part = some k → record.identity = k)
    (hbefore : resumable → ∀ w', P w' → w'.recordedOffset = 0)
    (hQ : ∀ w' i, P w' → u.Inv env resumable { w' with sidecar := some (i, .sealed record) } →
      Q () s { w' with sidecar := some (i, .sealed record) }) :
    wp xferSystem (pushContract env u resumable) (io (.writeSidecar record) f) Q E s w := by
  refine wp_done hP hw hE (fun _ => trivial) fun w' c a w'' hinv hw' h => ?_
  rcases exec_writeSidecar h with ⟨i, _, -, rfl, rfl⟩ | hr
  · refine .inr ⟨(), rfl, ⟨hinv.1.of_eq rfl rfl (.inl rfl) rfl, fun hr => ?_⟩, .of_eq rfl rfl,
      hQ w' i hw'⟩
    exact (hinv.2 hr).record rfl rfl (.of_zero hzero) (hpart w' hw')
      ((hbefore hr w' hw').trans_le (Nat.zero_le _))
  · exact .inl hr

/-- The verified and synced partial file is linked to the target name. -/
theorem wp_linkTarget
    (hpart : ∀ w', P w' → w'.part = some i ∧ Verified env u (w'.files i) ∧
      (w'.files i).clean = true)
    (hQ : ∀ w', P w' → u.Inv env resumable { w' with target := some i, linked := true } →
      Q () s { w' with target := some i, linked := true }) :
    wp xferSystem (pushContract env u resumable) (io (.linkTarget i) f) Q E s w := by
  refine wp_done hP hw hE (fun _ => trivial) fun w' c a w'' hinv hw' h => ?_
  obtain ⟨hi, hv, hclean⟩ := hpart w' hw'
  rcases exec_linkTarget h with ⟨rfl, hnone, rfl⟩ | hr
  · refine .inr ⟨(), rfl, ⟨.link hv hclean, fun hr => (hinv.2 hr).link hi hnone⟩, ?_, hQ w' hw'⟩
    intro t ht
    rw [hnone] at ht
    cases ht
  · exact .inl hr

theorem wp_recv {Q : Option Frame → σ → World → Prop}
    (hQ : ∀ w' frame, P w' → u.Inv env resumable (w'.log (.received frame)) →
      Q (some frame) s (w'.log (.received frame)))
    (hnone : ∀ w', P w' → Q none s w') :
    wp xferSystem (pushContract env u resumable) (io .recv f) Q E s w := by
  refine wp_done hP hw hE (fun _ => trivial) fun w' c a w'' hinv hw' h => ?_
  rcases exec_recv h with ⟨frame, rfl, rfl⟩ | ⟨rfl, rfl⟩ | hr
  · refine .inr ⟨some frame, rfl, ⟨hinv.1.of_eq rfl rfl (.inl rfl) rfl, fun hr => ?_⟩,
      .of_eq rfl rfl, hQ w' frame hw'⟩
    exact (hinv.2 hr).log_received frame
  · exact .inr ⟨none, rfl, hinv, .refl _, fun _ => hnone _ hw'⟩
  · exact .inl hr

end Changes

end Serctl.Xfer
