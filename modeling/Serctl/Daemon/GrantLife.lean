import Serctl.Daemon.GrantMemory

/-!
# The life of an issued grant

Sequences of calls of the registry of grants.  What is answered about an issued grant does not
depend on which calls came in between: it goes from live through exhausted and expired to unknown,
each at its time.
-/

namespace Serctl.Daemon

open Lib Lib.Guard Ipc List

/-! ## Sequences of calls -/

/-- A call of the registry, with the time it reads. -/
inductive GrantCall where
  | insert (index : Nat) (grant : OperationGrant) (entry : ProfilePoolEntry) (now : Nat)
  | lookup (grantId : Bytes 16) (now : Nat)
  | markTerminalIfSame (grantId : Bytes 16) (expected : GrantRecord) (kind : GrantTerminalKind)
      (now : Nat)
  | pruneExpired (now : Nat)
  deriving DecidableEq, Repr

/-- The time of a call. -/
def GrantCall.now : GrantCall → Nat
  | .insert _ _ _ now | .lookup _ now | .markTerminalIfSame _ _ _ now | .pruneExpired now => now

/-- What a call returns. -/
inductive GrantReply where
  | issued (record : GrantRecord)
  | refused (e : Error)
  | answered (answer : GrantLookup)
  | done
  deriving DecidableEq, Repr

variable {calls : List GrantCall} {since : Nat}

namespace GrantRegistryState

/-- One call.  An insertion that is refused has brought the registry up to date. -/
def call (st : GrantRegistryState) : GrantCall → GrantReply × GrantRegistryState
  | .insert index grant entry now =>
    match st.insert index grant entry now with
    | .ok (record, st') => (.issued record, st')
    | .error e => (.refused e, st.pruneLocked now)
  | .lookup grantId now => (.answered (st.lookup grantId now).1, (st.lookup grantId now).2)
  | .markTerminalIfSame grantId expected kind now =>
    (.done, st.markTerminalIfSame grantId expected kind now)
  | .pruneExpired now => (.done, st.pruneLocked now)

/-- The registry after a sequence of calls. -/
def after (st : GrantRegistryState) (calls : List GrantCall) : GrantRegistryState :=
  calls.foldl (fun st c => (st.call c).2) st

/-- The calls with their replies. -/
def history (st : GrantRegistryState) : List GrantCall → List (GrantCall × GrantReply)
  | [] => []
  | c :: calls => (c, (st.call c).1) :: (st.call c).2.history calls

/-- A split of the history is a split of the calls. -/
theorem history_split {st : GrantRegistryState}
    {front back : List (GrantCall × GrantReply)} (h : st.history calls = front ++ back) :
    ∃ first rest, calls = first ++ rest ∧ st.history first = front ∧
      (st.after first).history rest = back := by
  induction front generalizing st calls with
  | nil => exact ⟨[], calls, rfl, rfl, h⟩
  | cons step front ih =>
    cases calls with
    | nil => cases h
    | cons c calls =>
      simp only [history, cons_append, List.cons.injEq] at h
      obtain ⟨first, rest, rfl, hfront, hback⟩ := ih h.2
      refine ⟨c :: first, rest, rfl, ?_, hback⟩
      simp only [history, hfront, h.1]

theorem map_fst_history (st : GrantRegistryState) (calls : List GrantCall) :
    (st.history calls).map Prod.fst = calls := by
  induction calls generalizing st with
  | nil => rfl
  | cons c calls ih => simp [history, ih]

end GrantRegistryState

/-! ## One call -/

namespace GrantRegistryState

variable {st : GrantRegistryState}

/-- **Every call keeps the shape of the registry.** -/
theorem tidy_call (htidy : st.Tidy) (c : GrantCall) : (st.call c).2.Tidy := by
  cases c with
  | insert index grant entry now =>
    simp only [call]
    split
    · rename_i hinsert
      exact tidy_insert htidy hinsert
    · exact htidy.pruneLocked now
  | lookup grantId now => exact htidy.pruneLocked now
  | markTerminalIfSame grantId expected kind now =>
    exact tidy_markTerminalIfSame htidy grantId expected kind
  | pruneExpired now => exact htidy.pruneLocked now

theorem tidy_after (htidy : st.Tidy) (calls : List GrantCall) : (st.after calls).Tidy := by
  induction calls generalizing st with
  | nil => exact htidy
  | cons c calls ih => exact ih (tidy_call htidy c)

theorem tidy_empty : ({} : GrantRegistryState).Tidy := ⟨nofun, Nat.zero_le _⟩

variable {c : GrantCall}

/-- An id is issued where nothing is held about it. -/
theorem issued_call (htidy : st.Tidy) {r : GrantRecord} (hissued : (st.call c).1 = .issued r) :
    (st.memory r.grant.grantId).prune c.now = .nothing ∧
      (st.call c).2.memory r.grant.grantId = .live r := by
  cases c with
  | insert index grant entry now =>
    cases hinsert : st.insert index grant entry now with
    | error e =>
      simp only [call, hinsert] at hissued
      cases hissued
    | ok result =>
      obtain ⟨record, st'⟩ := result
      simp only [call, hinsert, GrantReply.issued.injEq] at hissued ⊢
      subst hissued
      obtain ⟨-, hnothing, hgrant, -⟩ := insert_cases hinsert
      rw [← hgrant] at hnothing
      refine ⟨?_, by rw [memory_insert htidy hinsert, if_pos rfl]⟩
      rw [← memory_pruneLocked htidy]
      exact hnothing
  | lookup key now => cases hissued
  | markTerminalIfSame key expected kind now => cases hissued
  | pruneExpired now => cases hissued

/-- A call that does not issue an id brings what is held about it up to date, or to its end. -/
theorem memory_call (htidy : st.Tidy) {grantId : Bytes 16}
    (hother : ∀ r, (st.call c).1 = .issued r → r.grant.grantId ≠ grantId) :
    (st.call c).2.memory grantId = (st.memory grantId).prune c.now ∨
      ∃ kind, (st.call c).2.memory grantId = ((st.memory grantId).prune c.now).finish kind := by
  cases c with
  | insert index grant entry now =>
    left
    cases hinsert : st.insert index grant entry now with
    | error e =>
      simp only [call, hinsert]
      exact memory_pruneLocked htidy grantId
    | ok result =>
      obtain ⟨r, st'⟩ := result
      simp only [call, hinsert, GrantReply.issued.injEq, forall_eq'] at hother ⊢
      rw [memory_insert htidy hinsert, if_neg hother.symm]
      rfl
  | lookup key now => exact .inl (memory_pruneLocked htidy grantId)
  | markTerminalIfSame key expected kind now =>
    exact (memory_markTerminalIfSame htidy grantId key expected kind).imp_right fun h => ⟨kind, h⟩
  | pruneExpired now => exact .inl (memory_pruneLocked htidy grantId)

/-- **One call in the life of a grant**: it goes on being remembered, and no lookup goes back. -/
theorem remembers_call (htidy : st.Tidy) {r : GrantRecord}
    (hheld : GrantMemory.Remembers r since (st.memory r.grant.grantId)) (hclock : since ≤ c.now)
    (hother : ∀ r', (st.call c).1 = .issued r' → r'.grant.grantId ≠ r.grant.grantId) :
    GrantMemory.Remembers r c.now ((st.call c).2.memory r.grant.grantId) ∧
      ((st.memory r.grant.grantId).answerAt since).stage ≤
        (((st.call c).2.memory r.grant.grantId).answerAt c.now).stage := by
  have hpruned := hheld.prune hclock
  have hlater : ((st.memory r.grant.grantId).answerAt since).stage ≤
      (((st.memory r.grant.grantId).prune c.now).answerAt c.now).stage := by
    rw [GrantMemory.answerAt_prune le_rfl]
    exact GrantMemory.stage_answerAt_mono hclock
  rcases memory_call htidy hother with h | ⟨kind, h⟩
  · rw [h]
    exact ⟨hpruned, hlater⟩
  · rw [h]
    exact ⟨hpruned.finish kind, hlater.trans (GrantMemory.stage_answerAt_finish _ kind _)⟩

end GrantRegistryState

/-! ## Whole sequences of calls -/

open GrantRegistryState

/-- What is answered about an id until it is issued again, with the times. -/
def answersOf (grantId : Bytes 16) : List (GrantCall × GrantReply) → List (Nat × GrantLookup)
  | [] => []
  | (c, reply) :: steps =>
    match reply with
    | .issued r => if r.grant.grantId = grantId then [] else answersOf grantId steps
    | .answered answer =>
      if c = .lookup grantId c.now then (c.now, answer) :: answersOf grantId steps
      else answersOf grantId steps
    | _ => answersOf grantId steps

/-- The answers about an issued grant are true of it and never go back behind a stage. -/
def Orderly (r : GrantRecord) (stage : Nat) (answers : List (Nat × GrantLookup)) : Prop :=
  (∀ said ∈ answers, Timely r said.1 said.2 ∧ stage ≤ said.2.stage) ∧
    (answers.map fun said => said.2.stage).Pairwise (· ≤ ·)

variable {r : GrantRecord} {answers : List (Nat × GrantLookup)}

theorem Orderly.weaken {low high : Nat}
    (h : Orderly r high answers) (hle : low ≤ high) : Orderly r low answers :=
  ⟨fun said hmem => ⟨(h.1 said hmem).1, hle.trans (h.1 said hmem).2⟩, h.2⟩

theorem Orderly.cons {now : Nat} {answer : GrantLookup} (htimely : Timely r now answer)
    (h : Orderly r answer.stage answers) : Orderly r answer.stage ((now, answer) :: answers) := by
  refine ⟨?_, ?_⟩
  · intro said hmem
    rcases mem_cons.mp hmem with rfl | hrest
    · exact ⟨htimely, le_rfl⟩
    · exact h.1 said hrest
  · rw [map_cons, pairwise_cons]
    refine ⟨fun stage hmem => ?_, h.2⟩
    obtain ⟨said, hsaid, rfl⟩ := mem_map.mp hmem
    exact (h.1 said hsaid).2

section

variable {st : GrantRegistryState} (htidy : st.Tidy)
    (hheld : GrantMemory.Remembers r since (st.memory r.grant.grantId))
    (hclock : (since :: calls.map GrantCall.now).Pairwise (· ≤ ·))

include htidy hheld hclock

/-- **The answers about a grant**, over every sequence of calls that follows its issue. -/
theorem orderly_history :
    Orderly r ((st.memory r.grant.grantId).answerAt since).stage
      (answersOf r.grant.grantId (st.history calls)) := by
  induction calls generalizing st since with
  | nil => exact ⟨nofun, List.Pairwise.nil⟩
  | cons c calls ih =>
    rw [map_cons, pairwise_cons] at hclock
    have hnow : since ≤ c.now := hclock.1 _ (mem_cons_self ..)
    simp only [history, answersOf]
    -- what the rest of the calls says, unless this one issues the id again
    have hrest (hother : ∀ r', (st.call c).1 = .issued r' →
        r'.grant.grantId ≠ r.grant.grantId) :=
      ih (tidy_call htidy c) (remembers_call htidy hheld hnow hother).1 hclock.2
    split
    · rename_i r' hreply
      split
      · exact ⟨nofun, List.Pairwise.nil⟩
      · rename_i hid
        have hother : ∀ r'', (st.call c).1 = .issued r'' →
            r''.grant.grantId ≠ r.grant.grantId := by
          intro r'' hissued
          rw [hreply] at hissued
          cases hissued
          exact hid
        exact (hrest hother).weaken (remembers_call htidy hheld hnow hother).2
    · rename_i answer hreply
      have hother : ∀ r', (st.call c).1 = .issued r' → r'.grant.grantId ≠ r.grant.grantId := by
        intro r' hissued
        rw [hreply] at hissued
        cases hissued
      split
      · rename_i hlookup
        -- the answer is what is held now, and what is held stays so by a lookup
        have hanswer : answer = (st.memory r.grant.grantId).answerAt c.now := by
          rw [hlookup] at hreply
          cases hreply
          exact lookup_eq_answerAt htidy _
        have hafter : ((st.call c).2.memory r.grant.grantId).answerAt c.now = answer := by
          have hkept : (st.call c).2.memory r.grant.grantId =
              (st.memory r.grant.grantId).prune c.now := by
            rw [hlookup]
            exact memory_pruneLocked htidy _
          rw [hkept, GrantMemory.answerAt_prune le_rfl, hanswer]
        have hlater := (remembers_call htidy hheld hnow hother).2
        rw [hafter] at hlater
        have horderly := hrest hother
        rw [hafter] at horderly
        refine (Orderly.cons ?_ horderly).weaken hlater
        rw [hanswer]
        exact hheld.timely hnow
      · exact (hrest hother).weaken (remembers_call htidy hheld hnow hother).2
    · rename_i hissued hanswered
      have hother : ∀ r', (st.call c).1 = .issued r' → r'.grant.grantId ≠ r.grant.grantId :=
        fun r' hreply => absurd hreply (hissued r')
      exact (hrest hother).weaken (remembers_call htidy hheld hnow hother).2

/-- An id is issued again only once the grant is forgotten. -/
theorem reissued_history {c : GrantCall}
    {r' : GrantRecord} (hmem : (c, GrantReply.issued r') ∈ st.history calls)
    (hid : r'.grant.grantId = r.grant.grantId) : r.forgetAt ≤ c.now := by
  induction calls generalizing st since with
  | nil => cases hmem
  | cons first calls ih =>
    rw [map_cons, pairwise_cons] at hclock
    have hnow : since ≤ first.now := hclock.1 _ (mem_cons_self ..)
    by_cases hagain : ∃ r'', (st.call first).1 = .issued r'' ∧
        r''.grant.grantId = r.grant.grantId
    · -- this call issues the id, and every later one is no earlier
      obtain ⟨r'', hissued, hsame⟩ := hagain
      have hforgot : r.forgetAt ≤ first.now := by
        have hpruned := hheld.prune hnow
        rw [← hsame, (issued_call htidy hissued).1] at hpruned
        cases hpruned with
        | nothing hforgot => exact hforgot
      rw [history, mem_cons] at hmem
      rcases hmem with heq | hlater
      · rw [(Prod.mk.inj heq).1]
        exact hforgot
      · have hcall : c ∈ calls := by
          rw [← map_fst_history (st.call first).2 calls]
          exact mem_map.mpr ⟨_, hlater, rfl⟩
        exact hforgot.trans ((pairwise_cons.mp hclock.2).1 _ (mem_map_of_mem hcall))
    · have hother : ∀ r'', (st.call first).1 = .issued r'' →
          r''.grant.grantId ≠ r.grant.grantId := fun r'' h hsame => hagain ⟨r'', h, hsame⟩
      rw [history, mem_cons] at hmem
      rcases hmem with heq | hlater
      · rw [Prod.mk.injEq] at heq
        exact absurd hid (hother r' heq.2.symm)
      · exact ih (tidy_call htidy first) (remembers_call htidy hheld hnow hother).1 hclock.2 hlater

end

/-- A grant is forgotten no earlier than 60 seconds after its expiry, if the clock can tell that
    time. -/
theorem GrantRecord.of_forgetAt_le {now : Nat} (h : r.forgetAt ≤ now) :
    r.expiresAt ≤ now ∧ (r.EndRepresentable → r.expiresAt + 60 * 1000 ≤ now) :=
  ⟨r.expiresAt_le_forgetAt.trans h, fun hend => hend.forgetAt ▸ h⟩

/-- **The life of every issued grant**, over every sequence of calls with times that do not go
    back: the tables are disjoint and within 1024 ids, an id is issued only where none of them
    holds it, and the answers about an issued grant go from live through exhausted and expired to
    unknown, each at its time.  It is unknown only from 60 seconds after its expiry, as long as the
    clock can tell that time. -/
theorem grant_only_moves_forward (calls : List GrantCall)
    (hclock : (calls.map GrantCall.now).Pairwise (· ≤ ·)) :
    ((({} : GrantRegistryState).after calls).live.entries.map Prod.fst ++
        (({} : GrantRegistryState).after calls).tombstones.entries.map Prod.fst).Nodup ∧
      (({} : GrantRegistryState).after calls).live.size +
        (({} : GrantRegistryState).after calls).tombstones.size ≤ 1024 ∧
      (∀ first c rest r, calls = first ++ c :: rest →
        ((({} : GrantRegistryState).after first).call c).1 = .issued r →
        ((({} : GrantRegistryState).after first).pruneLocked c.now).live.find
            r.grant.grantId = none ∧
          ((({} : GrantRegistryState).after first).pruneLocked c.now).tombstones.find
            r.grant.grantId = none) ∧
      ∀ front c r back, ({} : GrantRegistryState).history calls = front ++ (c, .issued r) :: back →
        ((answersOf r.grant.grantId back).map fun said => said.2.stage).Pairwise (· ≤ ·) ∧
        (∀ said ∈ answersOf r.grant.grantId back,
          (∀ r', said.2 = .live r' → r' = r ∧ said.1 < r.expiresAt) ∧
          (said.2 = .exhausted → said.1 < r.expiresAt) ∧
          (said.2 = .unknown → r.expiresAt ≤ said.1 ∧
            (r.EndRepresentable → r.expiresAt + 60 * 1000 ≤ said.1))) ∧
        ∀ c' r', (c', GrantReply.issued r') ∈ back → r'.grant.grantId = r.grant.grantId →
          r.expiresAt ≤ c'.now ∧ (r.EndRepresentable → r.expiresAt + 60 * 1000 ≤ c'.now) := by
  have htidy := tidy_after tidy_empty calls
  refine ⟨htidy.nodup, htidy.bounded, ?_, ?_⟩
  · intro first c rest r _ hissued
    have hfirst := tidy_after tidy_empty first
    rw [← memory_eq_nothing, memory_pruneLocked hfirst]
    exact (issued_call hfirst hissued).1
  · intro front c r back hhistory
    obtain ⟨first, rest, rfl, -, hrest⟩ := history_split hhistory
    cases rest with
    | nil => cases hrest
    | cons c' rest =>
      have hfirst := tidy_after tidy_empty first
      simp only [history, List.cons.injEq, Prod.mk.injEq] at hrest
      obtain ⟨⟨rfl, hissued⟩, rfl⟩ := hrest
      rw [map_append, map_cons, pairwise_append] at hclock
      -- from this call on the registry remembers the grant
      have hheld : GrantMemory.Remembers r c'.now
          (((({} : GrantRegistryState).after first).call c').2.memory r.grant.grantId) := by
        rw [(issued_call hfirst hissued).2]
        exact .live
      have horderly := orderly_history (tidy_call hfirst c') hheld hclock.2.1
      refine ⟨horderly.2, ?_, ?_⟩
      · intro said hsaid
        have htimely := (horderly.1 said hsaid).1
        exact ⟨htimely.live, htimely.exhausted, fun h =>
          GrantRecord.of_forgetAt_le (htimely.unknown h)⟩
      · intro again r' hmem hid
        exact GrantRecord.of_forgetAt_le
          (reissued_history (tidy_call hfirst c') hheld hclock.2.1 hmem hid)

/-! ### A grant for one minute -/

/-- An unlocked profile. -/
def minuteEntry : ProfilePoolEntry where
  index := 0
  identity := ⟨.fill 16 1, 1, Audit.one_pos⟩
  profile := "edge"
  callKey := .fill 32 2
  expiresAt := 1800500

/-- A grant for a minute. -/
def minuteGrant : OperationGrant where
  grantId := .fill 16 64
  profileName := "edge"
  profileId := minuteEntry.identity.profileId
  profileGeneration := 1
  operations := ["ssh.exec"]
  budget := 1
  issuedUnixMs := 1700000000000
  expiresUnixMs := 1700000060000
  holderKey := .fill 32 3

/-- The record of the grant, where it is issued at a time. -/
def minuteRecord (now : Nat) : GrantRecord :=
  ⟨0, minuteGrant, minuteEntry, now + 60000, rfl, rfl, rfl⟩

/-- It is issued, used up, looked at over two minutes, and issued again. -/
def minuteCalls : List GrantCall :=
  [.insert 0 minuteGrant minuteEntry 5, .lookup minuteGrant.grantId 5,
    .markTerminalIfSame minuteGrant.grantId (minuteRecord 5) .exhausted 1000,
    .lookup minuteGrant.grantId 60004, .lookup minuteGrant.grantId 60005,
    .lookup minuteGrant.grantId 120004, .lookup minuteGrant.grantId 120005,
    .insert 1 minuteGrant minuteEntry 120005]

/-- What is answered about it, and when. -/
def minuteAnswers : List (Nat × GrantLookup) :=
  [(5, .live (minuteRecord 5)), (60004, .exhausted), (60005, .expired), (120004, .expired),
    (120005, .unknown)]

theorem minute_grant_moves_forward :
    (minuteCalls.map GrantCall.now).Pairwise (· ≤ ·) ∧
      answersOf minuteGrant.grantId ((({} : GrantRegistryState).history minuteCalls).tail) =
        minuteAnswers ∧
      (minuteAnswers.map fun said => said.2.stage).Pairwise (· ≤ ·) := by
  have hclock : (minuteCalls.map GrantCall.now).Pairwise (· ≤ ·) := by decide
  have hanswers : answersOf minuteGrant.grantId
      ((({} : GrantRegistryState).history minuteCalls).tail) = minuteAnswers := by
    rfl
  have hissued : ({} : GrantRegistryState).history minuteCalls =
      [] ++ (.insert 0 minuteGrant minuteEntry 5, .issued (minuteRecord 5)) ::
        (({} : GrantRegistryState).history minuteCalls).tail := by
    rfl
  refine ⟨hclock, hanswers, ?_⟩
  rw [← hanswers]
  exact ((grant_only_moves_forward minuteCalls hclock).2.2.2 _ _ _ _ hissued).1

end Serctl.Daemon
