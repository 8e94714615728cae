import Serctl.Xfer.PushStream

/-!
# Safety of uploads

Any number of runs of the helper for one upload, one at a time, with any client frames, a fault
at any operation, and a crash between any two operations.
-/

namespace Serctl.Xfer

open Lib Lib.Act Option List

variable {env : HelperEnv} {p : PushParams} {resumable : Prop}

/-! ## One run -/

section Run

variable {i : FileIdentity} {w : World}

section

variable (hinv : p.Inv env resumable w)

include hinv

theorem wp_clearSidecar (hresume : resumable → p.resume = true) :
    wp xferSystem (p.contract env resumable) (clearSidecar env p i)
      (fun _ _ _ => True) (fun _ _ _ => True) () w := by
  rw [clearSidecar]
  split
  · trivial
  · rename_i hp
    exact wp_removeOwnedSidecar (stable_const True) (stable_const True) (mt hresume hp) hinv trivial
      (fun _ _ => trivial) (fun _ _ _ => trivial) (fun _ _ _ _ => trivial)

/-- **The cleanup** removes the partial name of a committed file only, and cuts a file that it
    keeps only behind what is recorded. -/
theorem wp_cleanupFailedUpload {durable : Nat} {committed : Bool}
    (hcommitted : committed = true → w.target = some i)
    (hheld : committed = false → Holding resumable i durable w)
    (hresume : resumable → p.resume = true) :
    wp xferSystem (p.contract env resumable)
      (cleanupFailedUpload env p i durable committed) (fun _ _ _ => True) (fun _ _ _ => True) ()
      w := by
  rw [cleanupFailedUpload]
  cases hremove : committed || !p.resume with
  | true =>
    -- in a resumable session this branch is taken after a commit only
    have hkept : resumable → w.target = some i := by
      intro hr
      rw [hresume hr, Bool.not_true, Bool.or_false] at hremove
      exact hcommitted hremove
    have hP : Stable fun w => resumable → w.target = some i :=
      fun w w' hw h hr => (eq_of_interfered hw (h hr)) ▸ h hr
    have hclear : ∀ (removed : Except Error Unit) w', p.Inv env resumable w' →
        wp xferSystem (p.contract env resumable) (do
          let cleared ← attempt (clearSidecar env p i)
          orElseFail id (joinFailures removed cleared))
          (fun _ _ _ => True) (fun (_ : Error) _ _ => True) () w' := by
      intro removed w' hinv'
      rw [wp_bind, wp_attempt]
      refine wp_mono (wp_clearSidecar hinv' hresume) (fun _ _ _ _ => ?_) (fun _ _ _ _ => ?_)
      · rw [wp_orElseFail]
        exact ⟨fun _ _ => trivial, fun _ _ => trivial⟩
      · rw [wp_orElseFail]
        exact ⟨fun _ _ => trivial, fun _ _ => trivial⟩
    rw [if_pos rfl, wp_bind, wp_attempt]
    refine wp_of_inv hinv (wp_removeOwnedPartial hP hP hinv hkept ?_ (fun _ h => h) ?_ ?_)
    · exact fun hr w' _ hw' _ _ _ _ => .inr (hw' hr)
    · exact fun w' _ _ hinv' => hclear _ w' hinv'
    · exact fun e w' _ _ hinv' => hclear _ w' hinv'
  | false =>
    have hlive : committed = false := (Bool.or_eq_false_iff.mp hremove).1
    have hP : Stable (Holding resumable i durable) := stable_holding
    rw [if_neg Bool.false_ne_true, wp_bind, wp_mapError]
    refine calm_openExistingPrivate .part _ hP () w _ _ hinv (hheld hlive) ?_
      (fun _ _ _ _ => trivial)
    intro file w1 hinv1 hw1 _
    refine (calm_fstat file _ fun _ => rfl).step hP hinv1 hw1 (fun _ _ _ _ => trivial) ?_
    intro metadata w2 _ hw2 hmetadata
    subst hmetadata
    refine wp_ensure_bind trivial fun hidentity => ?_
    have hfile : file = i := hidentity
    subst hfile
    rw [wp_bind]
    refine wp_setLen hP hw2 (fun _ _ _ => trivial) (fun _ h => h.apart)
      (fun hr w' _ hw' => hw'.record hr) ?_
    exact fun _ _ _ => wp_syncFile (stable_const True) trivial (fun _ _ _ => trivial)
      (fun _ _ _ => ⟨trivial, trivial⟩)

theorem wp_pushBody (hresume : resumable → p.resume = true) (fuel : Nat) :
    wp xferSystem (p.contract env resumable) (pushBody env p fuel)
      (fun _ _ _ => True) (Failed resumable) {} w := by
  have hstart : Starting ({} : Locals) := ⟨rfl, rfl⟩
  have hfail : ∀ (e : Error) (w' : World), e.marks = [] → True → Failed resumable e {} w' :=
    fun _ _ _ _ => Unowned.failed rfl
  rw [pushBody]
  refine (calm_pathEntryExists .target).step (stable_const True) hinv trivial hfail ?_
  intro targetExists w1 hinv1 _ htarget
  cases targetExists with
  | true =>
    -- an earlier run may have linked the target
    obtain ⟨t, ht⟩ := isSome_iff_exists.mp htarget.symm
    exact wp_mono (wp_recoverCommitted hinv1 ht rfl) (fun _ _ _ h => h) fun _ _ _ h => h.failed
  | false =>
    have hnone : w1.target = none := isNone_iff_eq_none.mp (isSome_eq_false_iff.mp htarget.symm)
    have hapart : Apart w1 := by
      intro i _
      rw [hnone]
      exact nofun
    simp only [Bool.false_eq_true, if_false]
    rw [wp_bind]
    refine wp_of_inv hinv1 (wp_mono (wp_openPartial hinv1 hapart hresume hstart rfl) ?_
      fun _ _ _ h _ => h.failed)
    intro opened l w2 hopened hinv2
    obtain ⟨hopened, hstarting⟩ := hopened
    have hl : Owner opened.1 { l with owned := true, ownedIdentity := some opened.1 } :=
      ⟨rfl, hstarting.commitApplied⟩
    rw [wp_bind, wp_assign, wp_bind, wp_vars, wp_bind]
    refine wp_of_inv hinv2 (wp_send stable_opened hopened ?_ ?_ ?_ ?_)
    · exact fun w' _ hw' hr => hw'.hasRecord hr
    · exact fun w' hinv' hw' hr => (hinv'.2 hr).log_ready (hw'.hasRecord hr)
    · intro w3 hw3 hinv3 _
      rw [wp_bind]
      have hstream : Streaming p.toUpload resumable opened.1 l.durable
          { l with owned := true, ownedIdentity := some opened.1 }.durable []
          (w3.log (.sent (.ready p.chunk p.window l.durable))) := .of_opened hw3 hinv3
      refine wp_of_inv hinv3 (wp_mono (wp_receiveLoop fuel hstream hl) ?_ fun _ _ _ h _ => h)
      intro received l' w4 hreceived hinv4
      exact wp_commitUpload hinv4 hreceived.1 hreceived.2 hresume
    · intro m w' hw'
      have hlogged : Opened p.toUpload resumable opened.1 l.durable
          (w'.log (.sent (.ready p.chunk p.window l.durable))) :=
        ⟨hw'.part, hw'.apart, hw'.stored, hw'.record⟩
      exact ⟨fun _ => hw'.holding.failed hl (fun _ => le_rfl) _,
        fun _ => hlogged.holding.failed hl (fun _ => le_rfl) _⟩

/-- The end of a run, after a body that left what `Failed` says. -/
theorem wp_finishPush {result : Except Error Unit} {l : Locals}
    (hfailed : ∀ e, result = .error e → Failed resumable e l w)
    (hresume : resumable → p.resume = true) :
    wp xferSystem (p.contract env resumable) (finishPush env p result l)
      (fun _ _ _ => True) (fun _ _ _ => True) () w := by
  rw [finishPush]
  cases result with
  | ok a => trivial
  | error e =>
    split
    · trivial
    · split
      · rename_i hclean
        have hkept : preservesEvidence (.error e) l.commitApplied = false := by
          simpa using (Bool.and_eq_true_iff.mp hclean).2
        rw [wp_bind, cleanupOwned]
        split
        · rename_i i hi
          obtain ⟨hcommitted, hheld⟩ := hfailed e rfl i hi
          -- an error of unknown outcome leads to no cleanup unless the commit is known
          have hheld' : l.commitApplied = false → Holding resumable i l.durable w := by
            intro hc
            rcases hheld hc with hunknown | hholding
            · simp [preservesEvidence, hc, hunknown] at hkept
            · exact hholding
          have hP : Stable fun w => (l.commitApplied = true → w.target = some i) ∧
              (l.commitApplied = false → Holding resumable i l.durable w) := by
            intro w w' hw h
            refine ⟨fun hc => ?_, fun hc => stable_holding w w' hw (h.2 hc)⟩
            exact stable_entry .target i w w' hw (h.1 hc)
          rw [wp_attempt]
          refine calm_ensureStillBound.step hP hinv ⟨hcommitted, hheld'⟩ (fun _ _ _ _ => trivial) ?_
          intro _ w1 hinv1 hw1 _
          exact wp_mono (wp_cleanupFailedUpload hinv1 hw1.1 hw1.2 hresume)
            (fun _ _ _ _ => trivial) (fun _ _ _ _ => trivial)
        · trivial
      · trivial

end

/-- **One run** keeps the contract, whatever its request asks for beyond the upload. -/
theorem wp_servePush {u : Upload} {r : PushRequest}
    (hr : ∀ p, pushParams env r = .ok p → p.toUpload = u ∧ (resumable → p.resume = true))
    (hinv : u.Inv env resumable w) (fuel : Nat) :
    wp xferSystem (pushContract env u resumable) (servePush env r fuel)
      (fun _ _ _ => True) (fun _ _ _ => True) () w := by
  rw [servePush, wp_bind, wp_orElseFail]
  refine ⟨fun p hp => ?_, fun _ _ => trivial⟩
  obtain ⟨rfl, hresume⟩ := hr p hp
  refine (calm_io rfl fun _ => rfl).step (stable_const True) hinv trivial
    (fun _ _ _ _ => trivial) ?_
  intro free w1 hinv1 _ _
  rw [wp_bind, wp_require]
  refine ⟨fun _ => ?_, fun _ => trivial⟩
  rw [wp_bind, wp_within]
  refine wp_of_inv hinv1 (wp_mono (wp_pushBody hinv1 hresume fuel) ?_ ?_)
  · intro _ l w' _ hinv'
    exact wp_finishPush hinv' nofun hresume
  · intro e l w' hfailed hinv'
    refine wp_finishPush hinv' ?_ hresume
    intro e' he'
    cases he'
    exact hfailed

end Run

/-! ## Any number of runs -/

/-- The upload that a request asks for. -/
def PushRequest.upload (env : HelperEnv) (r : PushRequest) : Upload :=
  ⟨r.transferId, (Text.hexDecode r.transferId).getD [], r.size, r.expectedSha256,
    env.digest ((Text.hexDecode r.resumeToken).getD [])⟩

/-- The request is for the same transfer id, target, size, digest and resume token. -/
def PushRequest.SameIntent (base r : PushRequest) : Prop :=
  r.transferId = base.transferId ∧ r.target = base.target ∧ r.size = base.size ∧
    r.expectedSha256 = base.expectedSha256 ∧ r.resumeToken = base.resumeToken

instance (base r : PushRequest) : Decidable (base.SameIntent r) :=
  inferInstanceAs (Decidable (_ ∧ _))

theorem PushRequest.upload_eq_of_sameIntent {base r : PushRequest} (h : base.SameIntent r) :
    r.upload env = base.upload env := by
  obtain ⟨hid, -, hsize, hsha, htoken⟩ := h
  rw [PushRequest.upload, PushRequest.upload, hid, hsize, hsha, htoken]

theorem upload_of_pushParams {r : PushRequest} (h : pushParams env r = .ok p) :
    p.toUpload = r.upload env ∧ p.resume = r.resume := by
  unfold pushParams at h
  split at h
  · cases h
  · split at h
    · cases h
    · split at h
      · cases h
      · split at h
        · cases h
        · cases h
        · rename_i idBytes tokenBytes hid htoken
          split at h
          · cases h
          · cases h
            simp [PushRequest.upload, hid, htoken]

/-- The runs for one upload.  The transfer lock is exclusive, so there is one name to run under;
    a run that finds the lock taken is a run that ends at once.  With `resumeOnly` every request
    asks for resumption. -/
def pushPool (env : HelperEnv) (base : PushRequest) (resumeOnly : Bool) :
    Pool Unit (PushRequest × Nat) World Op Ans Choice (Except Error Unit × Unit) where
  sys := xferSystem
  launch _ := fun (r, fuel) _ =>
    if base.SameIntent r ∧ (resumeOnly = true → r.resume = true) then
      some (servePush env r fuel ())
    else none

theorem pushPool_sound (env : HelperEnv) (base : PushRequest) (resumeOnly : Bool) :
    (pushPool env base resumeOnly).Sound
      (pushContract env (base.upload env) (resumeOnly = true)).inv
      (fun _ => pushContract env (base.upload env) (resumeOnly = true)) (fun _ _ _ => True) where
  inv_iff _ _ := Iff.rfl
  stable _ _ _ _ _ _ := trivial
  apart i j _ _ hij := absurd (Subsingleton.elim i j) hij
  env w c w' h hinv := ⟨inv_interfered (interfered_of_env h) hinv, fun _ => interfered_of_env h⟩
  crash w c w' h hinv := (inv_afterCrash h hinv).1
  launch _ := fun (r, fuel) w prog hprog hinv => by
    simp only [pushPool] at hprog
    split at hprog
    · rename_i hsame
      cases hprog
      refine Safe.mono (fun _ _ _ => trivial) (wp_servePush ?_ hinv fuel)
      intro p hp
      obtain ⟨hupload, hresume⟩ := upload_of_pushParams hp
      refine ⟨hupload.trans (PushRequest.upload_eq_of_sameIntent hsame.1), fun hr => ?_⟩
      rw [hresume]
      exact hsame.2 hr
    · cases hprog

theorem interfered_targetKept {w w' : World} (h : Interfered w w') : TargetKept w w' := by
  intro i hi
  rw [eq_of_interfered h hi]
  exact ⟨hi, rfl⟩

/-- **The target.**  In every state of any number of runs for one upload: an entry at the target
    name is never replaced or modified afterwards; a target that a run has linked has the declared
    size and digest; and completion is about to be reported only where such a target exists. -/
theorem push_runs_keep_target (env : HelperEnv) (base : PushRequest) {w₀ : World}
    (hapart : ∀ i, w₀.part = some i → w₀.target ≠ some i) (hlinked : w₀.linked = false)
    {ms₁ ms₂ : List (Pool.Move Unit (PushRequest × Nat) Choice)}
    {cfg₁ cfg₂ : Pool.Config Unit World Op Ans (Except Error Unit × Unit)}
    (h₁ : (pushPool env base false).run (Pool.idle w₀) ms₁ = some cfg₁)
    (h₂ : (pushPool env base false).run cfg₁ ms₂ = some cfg₂) :
    (∀ i, cfg₁.world.target = some i → cfg₂.world.target = some i ∧
      (cfg₂.world.files i).data = (cfg₁.world.files i).data) ∧
    (cfg₂.world.linked = true → ∃ i, cfg₂.world.target = some i ∧
      (cfg₂.world.files i).data.length = base.size ∧
      env.digest (cfg₂.world.files i).data = base.expectedSha256) ∧
    (∀ prog size sha256, cfg₂.threads () = some prog →
      prog.next = some (.send (.completed size sha256)) →
      size = base.size ∧ sha256 = base.expectedSha256 ∧
      ∃ i, cfg₂.world.target = some i ∧ (cfg₂.world.files i).data.length = base.size ∧
        env.digest (cfg₂.world.files i).data = base.expectedSha256) := by
  have hs := pushPool_sound env base false
  have hinv0 : (pushContract env (base.upload env) (false = true)).inv w₀ := by
    refine ⟨⟨fun hl => ?_, fun i ht hp => absurd ht (hapart i hp)⟩, nofun⟩
    rw [hlinked] at hl
    cases hl
  have hgood1 := hs.run_good h₁ (Pool.good_idle hinv0)
  have hgood2 := hs.run_good h₂ hgood1
  refine ⟨?_, ?_, ?_⟩
  · -- operations, other parties and crashes all leave an existing target alone
    exact hs.run_rel TargetKept.refl TargetKept.trans (fun _ _ _ h => h)
      (fun _ _ _ h _ => interfered_targetKept (interfered_of_env h))
      (fun _ _ _ h hinv => (inv_afterCrash h hinv).2) h₂ hgood1
  · intro hl
    obtain ⟨i, ht, hsize, hdigest⟩ := hgood2.1.1.linked hl
    exact ⟨i, ht, hsize, hdigest⟩
  · intro prog size sha256 hprog hnext
    obtain ⟨hsize, hsha, i, ht, hlength, hdigest⟩ := hs.ok_of_next hgood2 hprog hnext
    exact ⟨hsize, hsha, i, ht, hlength, hdigest⟩

/-! A session on an empty directory: the two bytes of `hi` are uploaded.  The helper sees two
hashes, that of the file and that of the resume token. -/

def hiSha256 : String := "8f434346648f6b96df89dda901c5176b10a6d83961dd3c1ac88b59b2dc327aa4"

def zeroTokenSha256 : String := "66687aadf862bd776c8fc18b8e9f8e20089714856ee233b3902a591d0d5f2925"

/-- A host that knows two digests. -/
def hiEnv : HelperEnv where
  sha256 bytes :=
    if bytes = [0x68, 0x69] then (Text.hexDecode hiSha256).getD []
    else if bytes = replicate 32 0 then (Text.hexDecode zeroTokenSha256).getD []
    else []
  display
    | .target => "/srv/hi"
    | .part => "/srv/.hi.part"
    | .sidecar => "/srv/.hi.part.resume"

/-- An upload of two bytes. -/
def hiRequest : PushRequest where
  transferId := "000102030405060708090a0b0c0d0e0f"
  target := "/srv/hi"
  size := 2
  expectedSha256 := hiSha256
  resumeToken := "0000000000000000000000000000000000000000000000000000000000000000"
  resume := true
  chunk := 2
  window := 2

/-- No files. -/
def emptyWorld : World := ⟨fun _ => File.created, none, none, none, false, []⟩

/-- The two bytes. -/
def hiFrame : DataFrame := ⟨[0, 1, 2, 3, 4, 5, 6, 7, 8, 9, 10, 11, 12, 13, 14, 15], 0, [0x68, 0x69]⟩

/-- The choices of a run up to the acknowledgement of the data frame. -/
def hiReceived : List Choice :=
  replicate 4 .ok ++ [.alloc ⟨1, 1⟩, .ok, .ok, .alloc ⟨1, 2⟩] ++ replicate 5 .ok ++
    [.frame (some (.data hiFrame))] ++ replicate 8 .ok ++ [.alloc ⟨1, 3⟩]

/-- The choices from the acknowledgement to the report of completion. -/
def hiCommitted : List Choice :=
  [.ok, .frame (some (.control .commit))] ++ replicate 6 .ok ++ [.alloc ⟨1, 4⟩] ++
    replicate 23 .ok ++ [.alloc ⟨1, 5⟩] ++ replicate 8 .ok

/-- A run for this upload. -/
def hiMoves (choices : List Choice) : List (Pool.Move Unit (PushRequest × Nat) Choice) :=
  .start () (hiRequest, 2) :: choices.map (.step ())

theorem hi_upload_keeps_target :
    ∃ cfg, (pushPool hiEnv hiRequest false).run (Pool.idle emptyWorld)
        (hiMoves (hiReceived ++ hiCommitted)) = some cfg ∧
      (∃ prog, cfg.threads () = some prog ∧
        prog.next = some (.send (.completed 2 hiSha256))) ∧
      ∃ i, cfg.world.target = some i ∧ (cfg.world.files i).data.length = 2 ∧
        hiEnv.digest (cfg.world.files i).data = hiSha256 := by
  have hrun : ((pushPool hiEnv hiRequest false).run (Pool.idle emptyWorld)
      (hiMoves (hiReceived ++ hiCommitted))).map (fun cfg => (cfg.threads ()).bind Prog.next) =
      some (some (.send (.completed 2 hiSha256))) := by
    rfl
  obtain ⟨cfg, hcfg, hnext⟩ := map_eq_some_iff.mp hrun
  obtain ⟨prog, hprog, hsend⟩ := bind_eq_some_iff.mp hnext
  have hstart : (pushPool hiEnv hiRequest false).run (Pool.idle emptyWorld) [] =
      some (Pool.idle emptyWorld) := rfl
  have hsafe := push_runs_keep_target hiEnv hiRequest (fun _ h => by cases h) rfl hstart hcfg
  exact ⟨cfg, hcfg, ⟨prog, hprog, hsend⟩, (hsafe.2.2 prog 2 hiSha256 hprog hsend).2.2⟩

/-- **Resumable uploads.**  In every state of any number of resumable runs for one upload:

    - what the sidecar records as durable is within the declared size, is synced in the partial
      file, and is the prefix of that length of what the client has sent in order;
    - every acknowledgement on the wire is in range and, within its run, not below the one before
      it;
    - the durable offsets that the client was told, by acknowledgements and at the start of each
      run, never fall over all the runs, and none is above what is recorded now;
    - an offset is about to be acknowledged, or to be announced to a resuming client, as durable
      only where it is recorded. -/
theorem resumable_runs_record_true_prefix (env : HelperEnv) (base : PushRequest) {w₀ : World}
    (hapart : ∀ i, w₀.part = some i → w₀.target ≠ some i) (hlinked : w₀.linked = false)
    (hsidecar : w₀.sidecar = none) (hwire : w₀.wire = [])
    {ms : List (Pool.Move Unit (PushRequest × Nat) Choice)}
    {cfg : Pool.Config Unit World Op Ans (Except Error Unit × Unit)}
    (h : (pushPool env base true).run (Pool.idle w₀) ms = some cfg) :
    (∀ j r, cfg.world.sidecar = some (j, .sealed r) →
      Recorded (base.upload env) cfg.world r ∧
      ∀ i, cfg.world.part = some i → cfg.world.recordedFile r = cfg.world.files i) ∧
    AcksOrdered base.size cfg.world.wire ∧
    (announcements cfg.world.wire).Pairwise (· ≥ ·) ∧
    (∀ d ∈ announcements cfg.world.wire, d ≤ cfg.world.recordedOffset) ∧
    (∀ prog confirmed durable window, cfg.threads () = some prog →
      prog.next = some (.send (.ack confirmed durable window)) →
      HasRecord cfg.world durable ∧ AckFits base.size cfg.world.wire confirmed durable) ∧
    (∀ prog chunk window durable, cfg.threads () = some prog →
      prog.next = some (.send (.ready chunk window durable)) → HasRecord cfg.world durable) := by
  have hs := pushPool_sound env base true
  -- nothing is recorded yet
  have hinv0 : (pushContract env (base.upload env) (true = true)).inv w₀ := by
    refine ⟨⟨fun hl => ?_, fun i ht hp => absurd ht (hapart i hp)⟩, fun _ => ⟨?_, ?_, ?_, ?_, ?_⟩⟩
    · rw [hlinked] at hl
      cases hl
    · intro j r hj
      rw [hsidecar] at hj
      cases hj
    · intro j r i hj
      rw [hsidecar] at hj
      cases hj
    · rw [hwire]
      trivial
    · rw [hwire]
      exact nofun
    · rw [hwire]
      exact .nil
  have hgood := hs.run_good h (Pool.good_idle hinv0)
  have hdurable := hgood.1.2 rfl
  refine ⟨?_, hdurable.acks, hdurable.ordered, hdurable.announced, ?_, ?_⟩
  · intro j r hj
    refine ⟨hdurable.recorded j r hj, fun i hi => ?_⟩
    have hidentity := hdurable.bound j r i hj hi
    subst hidentity
    exact if_pos (.inl hi)
  · intro prog confirmed durable window hprog hnext
    exact hs.ok_of_next hgood hprog hnext rfl
  · intro prog chunk window durable hprog hnext
    exact hs.ok_of_next hgood hprog hnext rfl

theorem hi_upload_records_true_prefix :
    ∃ cfg, (pushPool hiEnv hiRequest true).run (Pool.idle emptyWorld) (hiMoves hiReceived) =
        some cfg ∧
      (∃ prog, cfg.threads () = some prog ∧ prog.next = some (.send (.ack 2 2 2))) ∧
      HasRecord cfg.world 2 ∧ AckFits 2 cfg.world.wire 2 2 := by
  have hrun : ((pushPool hiEnv hiRequest true).run (Pool.idle emptyWorld)
      (hiMoves hiReceived)).map (fun cfg => (cfg.threads ()).bind Prog.next) =
      some (some (.send (.ack 2 2 2))) := by
    rfl
  obtain ⟨cfg, hcfg, hnext⟩ := map_eq_some_iff.mp hrun
  obtain ⟨prog, hprog, hsend⟩ := bind_eq_some_iff.mp hnext
  have hsafe := resumable_runs_record_true_prefix hiEnv hiRequest (fun _ h => by cases h) rfl rfl
    rfl hcfg
  exact ⟨cfg, hcfg, ⟨prog, hprog, hsend⟩, hsafe.2.2.2.2.1 prog 2 2 2 hprog hsend⟩

/-! Across runs the confirmed offset may fall.  The window below is longer than the file, so that
nothing is synced when the first run acknowledges both bytes; its client goes away, and the second
run starts from the durable offset. -/

/-- The offset that an acknowledgement confirms. -/
def WireEvent.confirmed : WireEvent → Option Nat
  | .sent (.ack confirmed _ _) => some confirmed
  | _ => none

def wideRequest : PushRequest := { hiRequest with window := 4 }

/-- The choices of a run whose client goes away after both bytes. -/
def hiLeft : List Choice :=
  replicate 4 .ok ++ [.alloc ⟨1, 1⟩, .ok, .ok, .alloc ⟨1, 2⟩] ++ replicate 5 .ok ++
    [.frame (some (.data hiFrame))] ++ replicate 3 .ok ++ [.frame none] ++ replicate 6 .ok

/-- The choices of a run that continues and receives the first byte only. -/
def hiContinued : List Choice :=
  replicate 13 .ok ++ [.frame (some (.data { hiFrame with payload := [0x68] }))] ++
    replicate 3 .ok

def wideMoves (choices : List Choice) : List (Pool.Move Unit (PushRequest × Nat) Choice) :=
  .start () (wideRequest, 2) :: choices.map (.step ())

theorem continued_run_confirms_less :
    ∃ cfg, (pushPool hiEnv wideRequest true).run (Pool.idle emptyWorld)
        (wideMoves hiLeft ++ .finish () :: wideMoves hiContinued) = some cfg ∧
      cfg.world.wire.filterMap WireEvent.confirmed = [1, 2] ∧
      ¬(cfg.world.wire.filterMap WireEvent.confirmed).Pairwise (· ≥ ·) := by
  have hrun : ((pushPool hiEnv wideRequest true).run (Pool.idle emptyWorld)
      (wideMoves hiLeft ++ .finish () :: wideMoves hiContinued)).map
        (fun cfg => cfg.world.wire.filterMap WireEvent.confirmed) = some [1, 2] := by
    decide +kernel
  obtain ⟨cfg, hcfg, hconfirmed⟩ := map_eq_some_iff.mp hrun
  refine ⟨cfg, hcfg, hconfirmed, ?_⟩
  rw [hconfirmed]
  decide

end Serctl.Xfer
