import Serctl.Remote.Helper

/-!
# Rules for the helper

The terms on which the main thread runs beside the relay, and what the parts of its program do
under them.  Most operations are calm: they leave the store alone and put nothing in the queue.
The rule for the loop of a job is left with what the calm steps keep, and with the three steps that
are not calm: a chunk of output, a heartbeat, and giving up.

All rules are about a system in which operations go only as permitted, so that runs without faults
need no rules of their own.
-/

namespace Serctl.Remote.Helper

open Lib Lib.Guard List Option Lib.Act
open HelperSessionValidator (numbered numbered_concat)

/-! ## The relay -/

namespace Sink

/-- The frames that may still be written. -/
def pending (sink : Sink) : List Frame :=
  if sink.relaying then (sink.inFlight.toList ++ sink.queue).map (·.frame) else []

/-- The frames that were written, and after them those that may still be. -/
def frames (sink : Sink) : List Frame := sink.written.map (·.frame) ++ sink.pending

/-- The frames are numbered in the order in which they were written, and a thread that is running
    has the next number. -/
structure Counted (sink : Sink) : Prop where
  written : sink.written = numbered 0 (sink.written.map (·.frame))
  sequence : sink.sequence.toNat ≤ sink.written.length
  next : sink.relaying = true → sink.sequence.toNat = sink.written.length

/-- Frames go out in the order in which they were queued, or not at all. -/
structure Relayed (sink sink' : Sink) : Prop where
  frames : sink'.frames <+: sink.frames
  relaying : sink'.relaying = true → sink.relaying = true ∧ sink'.frames = sink.frames
  off : sink.relaying = false → sink' = sink
  counted : sink.Counted → sink'.Counted

theorem Relayed.refl (sink : Sink) : Relayed sink sink :=
  ⟨prefix_refl _, fun h => ⟨h, rfl⟩, fun _ => rfl, id⟩

theorem Relayed.trans {a b c : Sink} (h : Relayed a b) (h' : Relayed b c) : Relayed a c := by
  refine ⟨h'.frames.trans h.frames, fun hc => ?_, fun ha => ?_, fun ha => h'.counted (h.counted ha)⟩
  · obtain ⟨hb, hframes⟩ := h'.relaying hc
    obtain ⟨ha, hframes'⟩ := h.relaying hb
    exact ⟨ha, hframes.trans hframes'⟩
  · obtain rfl := h.off ha
    exact h'.off ha

/-- A thread that has ended has written a part of what it was to write. -/
theorem relayed_stop {sink stopped : Sink} (hon : sink.relaying = true)
    (hstopped : stopped.relaying = false) (h : stopped.written.map (·.frame) <+: sink.frames)
    (hcounted : sink.Counted → stopped.Counted) : Relayed sink stopped := by
  refine ⟨?_, fun hrelaying => ?_, fun hoff => by simp [hon] at hoff, hcounted⟩
  · simpa [frames, pending, hstopped] using h
  · rw [hstopped] at hrelaying
    cases hrelaying

variable {sink sink' : Sink}

/-- What is neither written nor a number does not matter for the count. -/
theorem Counted.of_eq (h : sink.Counted) (hwritten : sink'.written = sink.written)
    (hsequence : sink'.sequence = sink.sequence) (hrelaying : sink'.relaying = true →
      sink.relaying = true) : sink'.Counted := by
  refine ⟨?_, ?_, fun hon => ?_⟩
  · rw [hwritten]
    exact h.written
  · rw [hwritten, hsequence]
    exact h.sequence
  · rw [hwritten, hsequence]
    exact h.next (hrelaying hon)

/-- The next frame gets the next number. -/
theorem Counted.written_concat (h : sink.Counted) (hon : sink.relaying = true) (frame : Frame) :
    sink.written ++ [⟨sink.sequence, frame⟩] =
      numbered 0 (map Envelope.frame (sink.written ++ [⟨sink.sequence, frame⟩])) := by
  have hnumber : sink.sequence = UInt64.ofNat (0 + (sink.written.map (·.frame)).length) := by
    rw [Nat.zero_add, length_map, ← h.next hon, UInt64.ofNat_toNat]
  rw [map_append, map_singleton, numbered_concat, ← h.written, hnumber]

/-- The relay takes a command. -/
theorem relayed_take (h : sink.take = some sink') : Relayed sink sink' := by
  unfold take at h
  split at h
  · rename_i command queue hrelaying hflight hqueue
    cases h
    refine ⟨?_, fun _ => ⟨hrelaying, ?_⟩, fun hoff => ?_, fun h => h.of_eq rfl rfl id⟩
    · simp [frames, pending, hrelaying, hflight, hqueue]
    · simp [frames, pending, hrelaying, hflight, hqueue]
    · simp [hrelaying] at hoff
  · cases h

section

variable (sink : Sink) (command : OutputCommand) (succeeded : Bool)

@[simp] theorem acknowledge_written :
    (sink.acknowledge command succeeded).written = sink.written := by
  unfold acknowledge
  split <;> rfl

@[simp] theorem acknowledge_pending :
    (sink.acknowledge command succeeded).pending = sink.pending := by
  unfold acknowledge
  split <;> rfl

@[simp] theorem acknowledge_relaying :
    (sink.acknowledge command succeeded).relaying = sink.relaying := by
  unfold acknowledge
  split <;> rfl

@[simp] theorem acknowledge_sequence :
    (sink.acknowledge command succeeded).sequence = sink.sequence := by
  unfold acknowledge
  split <;> rfl

end

/-- What can become of the frame in flight. -/
theorem write_cases {result : WriteResult}
    (h : sink.write result = some sink') : ∃ command, sink.relaying = true ∧
      sink.inFlight = some command ∧
      ((sink.sequence.toNat ≠ 2 ^ 64 - 1 ∧ sink'.relaying = true ∧
          sink'.sequence = sink.sequence + 1 ∧
          sink'.written = sink.written ++ [⟨sink.sequence, command.frame⟩] ∧
          sink'.pending = sink.queue.map (·.frame)) ∨
        (sink'.relaying = false ∧ sink'.sequence = sink.sequence ∧ (sink'.written = sink.written ∨
          sink'.written = sink.written ++ [⟨sink.sequence, command.frame⟩]))) := by
  unfold write at h
  split at h
  case h_2 => cases h
  case h_1 command hrelaying hflight =>
    refine ⟨command, hrelaying, hflight, ?_⟩
    dsimp only at h
    split at h
    · split_ifs at h with hlast
      · cases h
        exact .inr ⟨rfl, rfl, .inr rfl⟩
      · cases h
        refine .inl ⟨hlast, by simp [record, hrelaying], by simp [record], by simp [record], ?_⟩
        rw [acknowledge_pending]
        simp [pending, record, hrelaying]
    · cases h
      exact .inr ⟨rfl, by simp [stop, record], .inr (by simp [stop, record])⟩
    · cases h
      exact .inr ⟨rfl, by simp [stop], .inl (by simp [stop])⟩

/-- The relay writes a frame, or stops. -/
theorem relayed_write {result : WriteResult}
    (h : sink.write result = some sink') : Relayed sink sink' := by
  obtain ⟨command, hrelaying, hflight, hcases⟩ := write_cases h
  have hframes : sink.frames =
      sink.written.map (·.frame) ++ (command.frame :: sink.queue.map (·.frame)) := by
    simp [frames, pending, hrelaying, hflight]
  have hlength : ∀ envelope, (sink.written ++ [envelope]).length = sink.written.length + 1 :=
    fun _ => length_append
  rcases hcases with ⟨hlast, hon, hnext, hwritten, hpending⟩ |
    ⟨hoff, hsequence, hwritten | hwritten⟩
  · have hsame : sink'.frames = sink.frames := by
      rw [hframes]
      simp [frames, hwritten, hpending]
    refine ⟨hsame ▸ prefix_refl _, fun _ => ⟨hrelaying, hsame⟩,
      fun hoff => by simp [hrelaying] at hoff, fun h => ?_⟩
    have hcount : sink'.sequence.toNat = sink'.written.length := by
      rw [hwritten, hlength, ← h.next hrelaying, hnext, UInt64.toNat_add, UInt64.toNat_one]
      have hbound := sink.sequence.toNat_lt
      omega
    refine ⟨?_, hcount.le, fun _ => hcount⟩
    rw [hwritten]
    exact h.written_concat hrelaying _
  · refine relayed_stop hrelaying hoff ?_ fun h => h.of_eq hwritten hsequence
      fun hon => by simp [hoff] at hon
    rw [hwritten, hframes]
    exact prefix_append _ _
  · refine relayed_stop hrelaying hoff ?_ fun h => ⟨?_, ?_, fun hon => by simp [hoff] at hon⟩
    · rw [hwritten, hframes]
      simp
    · rw [hwritten]
      exact h.written_concat hrelaying _
    · rw [hwritten, hlength, hsequence]
      exact Nat.le_succ_of_le h.sequence

end Sink

variable {c : Choice}

/-- The relay changes the queue and nothing else. -/
theorem relayed_of_relay {w w' : World} (h : relay w c = some w') :
    ∃ sink, w' = { w with sink := sink } ∧ w.sink.Relayed sink := by
  unfold relay at h
  split at h
  · obtain ⟨sink, hsink, rfl⟩ := map_eq_some_iff.mp h
    exact ⟨sink, rfl, Sink.relayed_take hsink⟩
  · obtain ⟨sink, hsink, rfl⟩ := map_eq_some_iff.mp h
    exact ⟨sink, rfl, Sink.relayed_write hsink⟩
  · cases h

/-! ## The contract -/

/-- The main thread runs beside the relay, and keeps an invariant. -/
def terms (I : World → Prop) : Contract World Op where
  inv := I
  rely w w' := ∃ sink, w' = { w with sink := sink } ∧ w.sink.Relayed sink
  guar _ _ := True
  ok _ _ := True
  rely_refl w := ⟨w.sink, rfl, Sink.Relayed.refl _⟩
  rely_trans := by
    rintro w _ _ ⟨sink, rfl, hsink⟩ ⟨sink', rfl, hsink'⟩
    exact ⟨sink', rfl, hsink.trans hsink'⟩

section Rules

variable {permitted : World → Op → Choice → Bool} {I : World → Prop} {σ α : Type}

/-- A part of the main thread, with postconditions for a value and for an error. -/
def Runs (permitted : World → Op → Choice → Bool) (I : World → Prop) (x : Main σ α)
    (Q : α → σ → World → Prop) (E : HelperError → σ → World → Prop) (s : σ) (w : World) : Prop :=
  wp (system.restrict permitted) (terms I) x Q E s w

/-- The call reports a failure. -/
def failed : (op : Op) → Ans op → Bool
  | .startThread _, .error _ => true
  | .unixMs, none => true
  | .store _, .error _ => true
  | .spawn _, .error _ => true
  | .tryWait, .error _ => true
  | _, _ => false

/-- Some call that is permitted reports a failure. -/
def Trouble (permitted : World → Op → Choice → Bool) : Prop :=
  ∃ w op c a w', permitted w op c = true ∧ exec w op c = some (a, w') ∧ failed op a = true

/-! ## Calm operations -/

/-- Calls that write nothing and say nothing. -/
def IsCalm : Op → Prop
  | .startThread _ | .trySend _ | .store _ | .spawn _ => False
  | _ => True

/-- The frame was read from some bytes. -/
def Decoded (frame : Frame) : Prop := ∃ bytes n, decodeExact bytes = .ok ⟨n, frame⟩

/-- More frames have arrived. -/
def Arrived (before after : List Frame) : Prop :=
  ∃ new, after = before ++ new ∧ ∀ frame ∈ new, Decoded frame

theorem Arrived.refl (frames : List Frame) : Arrived frames frames :=
  ⟨[], (append_nil _).symm, by simp⟩

theorem Arrived.trans {a b c : List Frame} (h : Arrived a b) (h' : Arrived b c) : Arrived a c := by
  obtain ⟨new, rfl, hnew⟩ := h
  obtain ⟨new', rfl, hnew'⟩ := h'
  refine ⟨new ++ new', append_assoc _ _ _, fun frame hframe => ?_⟩
  exact (mem_append.mp hframe).elim (hnew frame) (hnew' frame)

/-- No receipt is stored and nothing is put in the queue. -/
structure Mild (w w' : World) : Prop where
  receipts : w'.receipts = w.receipts
  spawned : w'.spawned = w.spawned
  instant : w.instant ≤ w'.instant
  readings : w.readings <+: w'.readings
  sink : w.sink.Relayed w'.sink
  received : Arrived w.received w'.received

/-- The journals are left alone as well. -/
structure Quiet (w w' : World) : Prop extends Mild w w' where
  journals : w'.journals = w.journals

theorem Mild.trans {a b c : World} (h : Mild a b) (h' : Mild b c) : Mild a c :=
  ⟨h'.receipts.trans h.receipts, h'.spawned.trans h.spawned, h.instant.trans h'.instant,
    h.readings.trans h'.readings, h.sink.trans h'.sink, h.received.trans h'.received⟩

/-- A change to nothing that counts. -/
theorem quiet_of_eq {w w' : World} (hreceipts : w'.receipts = w.receipts)
    (hspawned : w'.spawned = w.spawned) (hinstant : w'.instant = w.instant)
    (hreadings : w'.readings = w.readings) (hsink : w'.sink = w.sink)
    (hreceived : w'.received = w.received) (hjournals : w'.journals = w.journals) : Quiet w w' where
  receipts := hreceipts
  spawned := hspawned
  instant := hinstant.symm.le
  readings := hreadings ▸ prefix_refl _
  sink := hsink ▸ Sink.Relayed.refl _
  received := hreceived ▸ Arrived.refl _
  journals := hjournals

theorem Quiet.refl (w : World) : Quiet w w := quiet_of_eq rfl rfl rfl rfl rfl rfl rfl

theorem Quiet.trans {a b c : World} (h : Quiet a b) (h' : Quiet b c) : Quiet a c :=
  ⟨h.toMild.trans h'.toMild, h'.journals.trans h.journals⟩

theorem quiet_of_rely {w w' : World} (h : (terms I).rely w w') : Quiet w w' := by
  obtain ⟨sink, rfl, hsink⟩ := h
  exact { Quiet.refl w with sink := hsink }

/-- A frame that is handed on was decoded. -/
theorem quiet_deliver (w : World) (validator : ControllerSessionValidator)
    {read : Except ProtocolError (Option Envelope)}
    (hread : ∀ envelope, read = .ok (some envelope) → Decoded envelope.frame) :
    Quiet w (w.deliver validator read).2 := by
  refine { Quiet.refl w with received := ⟨(readInput validator read).1.frames, rfl, ?_⟩ }
  intro frame hframe
  unfold readInput at hframe
  split at hframe
  · rename_i envelope
    split at hframe
    · rw [InputEvent.frames, mem_singleton] at hframe
      rw [hframe]
      exact hread envelope rfl
    · cases hframe
  · cases hframe
  · cases hframe

/-- The controller says something. -/
theorem quiet_nextInput {w w' : World} {validator : ControllerSessionValidator}
    {event : InputEvent} (h : w.nextInput validator c = some (event, w')) : Quiet w w' := by
  unfold World.nextInput at h
  split at h <;> simp only [Option.some.injEq, reduceCtorEq] at h
  all_goals rw [show w' = (event, w').2 from rfl, ← h]
  · rename_i bytes
    refine quiet_deliver w validator fun envelope henvelope => ⟨bytes, envelope.sequence, ?_⟩
    cases hdecode : decodeExact bytes <;> rw [hdecode] at henvelope <;> cases henvelope
    rfl
  · exact quiet_deliver w validator fun _ h => by cases h
  · exact quiet_deliver w validator fun _ h => by cases h

/-- The child says something. -/
theorem quiet_childEvent {w w' : World} {event : ChildEvent} (h : w.childEvent event = some w') :
    Quiet w w' := by
  have hstream : ∀ kind, Quiet w (w.setStream false kind) := by
    intro kind
    cases kind <;> exact quiet_of_eq rfl rfl rfl rfl rfl rfl rfl
  unfold World.childEvent at h
  split at h <;> split_ifs at h <;> cases h
  · exact Quiet.refl w
  · exact hstream _
  · exact hstream _

/-- **What the calm operations do.** -/
theorem exec_quiet {w w' : World} {op : Op} {a : Ans op} (hop : IsCalm op)
    (h : exec w op c = some (a, w')) : Quiet w w' := by
  cases op with
  | startThread _ | trySend _ | store _ | spawn _ => exact hop.elim
  | unixMs =>
    cases c <;> simp only [exec, reduceCtorEq] at h
    cases h
    exact { Quiet.refl w with readings := prefix_append _ _ }
  | instantNow =>
    cases c <;> simp only [exec, reduceCtorEq] at h
    split_ifs at h with hle
    cases h
    exact { Quiet.refl w with instant := hle }
  | receiveInput =>
    simp only [exec] at h
    split at h
    · cases h
      exact Quiet.refl w
    · obtain ⟨⟨event, w1⟩, hnext, heq⟩ := map_eq_some_iff.mp h
      cases heq
      exact quiet_nextInput hnext
  | tryReceiveInput =>
    simp only [exec] at h
    split at h
    · cases h
      exact Quiet.refl w
    · cases h
      exact Quiet.refl w
    · obtain ⟨⟨event, w1⟩, hnext, heq⟩ := map_eq_some_iff.mp h
      cases heq
      exact quiet_nextInput hnext
  | tryReceiveChild =>
    cases c <;> simp only [exec, reduceCtorEq] at h
    · cases h
      exact Quiet.refl w
    · obtain ⟨w1, hevent, heq⟩ := map_eq_some_iff.mp h
      cases heq
      exact quiet_childEvent hevent
  | awaitAcknowledgement =>
    cases c <;> simp only [exec, Option.some.injEq, Prod.mk.injEq, reduceCtorEq] at h
    · obtain ⟨_, -, heq⟩ := map_eq_some_iff.mp h
      cases heq
      exact Quiet.refl w
    · obtain ⟨-, rfl⟩ := h
      exact Quiet.refl w
  | loadReceipt jobId =>
    cases c <;> simp only [exec, reduceCtorEq] at h
    · split at h <;> cases h <;> exact Quiet.refl w
    · cases h
      exact Quiet.refl w
  | procStatus | host | loadJournal _ | kill | tryWait =>
    cases c <;> simp only [exec, Option.some.injEq, Prod.mk.injEq, reduceCtorEq] at h
    all_goals
      obtain ⟨-, rfl⟩ := h
      exact Quiet.refl w

/-- The invariant is kept by the calm operations. -/
def KeptCalm (I : World → Prop) : Prop :=
  ∀ w op c a w', IsCalm op → exec w op c = some (a, w') → I w → I w'

theorem keptCalm_true : KeptCalm fun _ => True := fun _ _ _ _ _ _ _ _ => trivial

variable {Q : α → σ → World → Prop} {E : HelperError → σ → World → Prop} {s : σ} {w : World}

theorem Runs.mono {Q' : α → σ → World → Prop} {E' : HelperError → σ → World → Prop}
    {x : Main σ α} (h : Runs permitted I x Q E s w) (hQ : ∀ a s' w', Q a s' w' → Q' a s' w')
    (hE : ∀ e s' w', E e s' w' → E' e s' w') : Runs permitted I x Q' E' s w :=
  wp_mono h hQ hE

/-- One part after the other. -/
theorem runs_bind {β : Type} {x : Main σ β} {f : β → Main σ α}
    (h : Runs permitted I x (fun b s' w' => Runs permitted I (f b) Q E s' w') E s w) :
    Runs permitted I (x >>= f) Q E s w :=
  (wp_bind x f).mpr h

/-- One operation, after whatever the relay has done. -/
theorem runs_call {op : Op} {Q : Ans op → σ → World → Prop}
    (h : ∀ w1, (terms I).rely w w1 → I w1 → ∀ c a w2, permitted w1 op c = true →
      exec w1 op c = some (a, w2) → I w2 ∧ Q a s w2) :
    Runs permitted I (call op) Q E s w := by
  refine (wp_call op).mpr fun w1 hrely hinv => ⟨trivial, fun c a w2 hexec => ?_⟩
  obtain ⟨hpermitted, hexec⟩ := System.restrict_exec.mp hexec
  obtain ⟨hinv2, hpost⟩ := h w1 hrely hinv c a w2 hpermitted hexec
  exact ⟨hinv2, trivial, hpost⟩

theorem runs_pure {a : α} (h : Q a s w) : Runs permitted I (pure a) Q E s w := h

theorem runs_fail {e : HelperError} (h : E e s w) : Runs permitted I (fail e) Q E s w := h

theorem runs_vars {Q : σ → σ → World → Prop} (h : Q s s w) : Runs permitted I vars Q E s w := h

theorem runs_assign {Q : Unit → σ → World → Prop} {f : σ → σ} (h : Q () (f s) w) :
    Runs permitted I (assign f) Q E s w := h

theorem runs_onlyIf {Q : Unit → σ → World → Prop} {c : Prop} [Decidable c] {x : Main σ Unit}
    (h : c → Runs permitted I x Q E s w) (h' : ¬c → Q () s w) :
    Runs permitted I (onlyIf c x) Q E s w :=
  (wp_onlyIf c x).mpr ⟨h, h'⟩

/-- A result, or an early return. -/
theorem runs_orElseFail {ε : Type} {f : ε → HelperError} {r : Except ε α}
    (h : ∀ a, r = .ok a → Q a s w) (h' : ∀ e, r = .error e → E (f e) s w) :
    Runs permitted I (orElseFail f r) Q E s w :=
  (wp_orElseFail f r).mpr ⟨h, h'⟩

/-- A calm operation. -/
theorem runs_calm {op : Op} {Q : Ans op → σ → World → Prop} (hI : KeptCalm I) (hop : IsCalm op)
    (h : ∀ w1 c a w2, Quiet w w1 → permitted w1 op c = true → exec w1 op c = some (a, w2) →
      Quiet w w2 → Q a s w2) :
    Runs permitted I (call op) Q E s w := by
  refine runs_call fun w1 hrely hinv c a w2 hpermitted hexec => ⟨?_, ?_⟩
  · exact hI w1 op c a w2 hop hexec hinv
  · have hquiet := quiet_of_rely hrely
    exact h w1 c a w2 hquiet hpermitted hexec (hquiet.trans (exec_quiet hop hexec))

/-- The world after a reading of the wall clock. -/
def World.read (w : World) (t : UInt64) : World := { w with readings := w.readings ++ [t] }

theorem quiet_read (w : World) (t : UInt64) : Quiet w (w.read t) :=
  { Quiet.refl w with readings := prefix_append _ _ }

/-- A reading of the wall clock. -/
theorem runs_unixMs {Q : UInt64 → σ → World → Prop} (hI : KeptCalm I)
    (h : ∀ w1 t, Quiet w w1 → permitted w1 .unixMs (.clock (some t)) = true →
      Q t s (w1.read t))
    (h' : ∀ w1 e, Quiet w w1 → Trouble permitted → E e s w1) :
    Runs permitted I Main.unixMs Q E s w := by
  refine runs_bind (runs_calm hI trivial fun w1 c a w2 hquiet hpermitted hexec hquiet2 => ?_)
  have hfailed : a = none → Trouble permitted := fun ha =>
    ⟨w1, .unixMs, c, a, w2, hpermitted, hexec, by rw [ha]; rfl⟩
  cases c <;> simp only [exec, reduceCtorEq] at hexec
  cases hexec
  refine runs_orElseFail (fun t ht => ?_) (fun e he => ?_)
  · obtain rfl := orContext_eq_ok.mp ht
    exact h w1 t hquiet hpermitted
  · refine h' _ _ hquiet2 (hfailed ?_)
    cases a with
    | none => rfl
    | some t => cases he

/-- A reading of the monotonic clock. -/
theorem runs_instantNow {Q : Nat → σ → World → Prop} (hI : KeptCalm I)
    (h : ∀ w1, Quiet w w1 → Q w1.instant s w1) :
    Runs permitted I (call Op.instantNow) Q E s w := by
  refine runs_calm hI trivial fun w1 c a w2 _ _ hexec hquiet => ?_
  cases c <;> simp only [exec, reduceCtorEq] at hexec
  split_ifs at hexec
  cases hexec
  exact h _ hquiet

theorem runs_tryWait {Q : Option (Option Int32) → σ → World → Prop} {context : String}
    (hI : KeptCalm I) (h : ∀ w1 status, Quiet w w1 → Q status s w1)
    (h' : ∀ w1 e, Quiet w w1 → Trouble permitted → E e s w1) :
    Runs permitted I (Main.tryWait context) Q E s w := by
  refine runs_bind (runs_calm hI trivial fun w1 c a w2 _ hpermitted hexec hquiet => ?_)
  refine runs_orElseFail (fun status _ => h w2 status hquiet) (fun e he => ?_)
  exact h' w2 _ hquiet ⟨w1, .tryWait, c, a, w2, hpermitted, hexec, by rw [he]; rfl⟩

/-! ## The store and the queue -/

/-- A call that may fail. -/
theorem runs_succeed {context : String → String} {call : Main σ (Except String Unit)}
    {Q : Unit → σ → World → Prop}
    (h : Runs permitted I call (fun r s' w' => (r = .ok () → Q () s' w') ∧
      ∀ e m, r = .error m → E e s' w') E s w) :
    Runs permitted I (Main.succeed context call) Q E s w := by
  refine runs_bind (h.mono (fun r s' w' hr => ?_) fun _ _ _ he => he)
  exact runs_orElseFail (fun _ hok => hr.1 hok) (fun m hm => hr.2 _ m hm)

/-- A call that writes: it has taken effect, or it has failed and may have taken effect. -/
theorem runs_store {Q : Unit → σ → World → Prop} {call : StoreCall}
    (hI : ∀ w1, Quiet w w1 → call.possible w1 = true → I w1 → I (w1.store call))
    (hok : ∀ w1, Quiet w w1 → call.possible w1 = true → Q () s (w1.store call))
    (herror : ∀ w1 w2 e, Quiet w w1 → w2 = w1 ∨ call.possible w1 = true ∧ w2 = w1.store call →
      Trouble permitted → E e s w2) :
    Runs permitted I (Main.store call) Q E s w := by
  refine runs_succeed (runs_call fun w1 hrely hinv c a w2 hpermitted hexec => ?_)
  have hquiet := quiet_of_rely hrely
  have htrouble : ∀ m, a = .error m → Trouble permitted := fun m hm =>
    ⟨w1, .store call, c, a, w2, hpermitted, hexec, by rw [hm]; rfl⟩
  rcases exec_store hexec with ⟨rfl, hpossible, rfl⟩ | ⟨⟨m, rfl⟩, hafter⟩
  · exact ⟨hI w1 hquiet hpossible hinv, fun _ => hok w1 hquiet hpossible,
      fun _ _ hm => by cases hm⟩
  · refine ⟨?_, fun hm => (by cases hm), fun e m hm => herror w1 w2 e hquiet hafter (htrouble m hm)⟩
    rcases hafter with rfl | ⟨hpossible, rfl⟩
    · exact hinv
    · exact hI w1 hquiet hpossible hinv

/-- The world after a command was offered to the queue. -/
def World.offered (w : World) (command : OutputCommand) : World :=
  { w with sink := (w.sink.trySend command).2 }

/-- A frame is offered. -/
theorem runs_trySend {Q : Bool → σ → World → Prop} {command : OutputCommand}
    (hI : ∀ w1, Quiet w w1 → I w1 → I (w1.offered command))
    (h : ∀ w1, Quiet w w1 → Q (w1.sink.trySend command).1 s (w1.offered command)) :
    Runs permitted I (call (Op.trySend command)) Q E s w := by
  refine runs_call fun w1 hrely hinv c a w2 _ hexec => ?_
  have hquiet := quiet_of_rely hrely
  cases c <;> simp only [exec, reduceCtorEq] at hexec
  cases hexec
  exact ⟨hI w1 hquiet hinv, h w1 hquiet⟩

/-- The receipt and the exit are offered one after the other. -/
theorem runs_tryFinal {Q : Bool → σ → World → Prop} {receipt exit : Frame} (hI : KeptCalm I)
    (hreceipt : ∀ w1, Quiet w w1 → I w1 → I (w1.offered ⟨receipt, false⟩))
    (hexit : ∀ w1 w2, Quiet w w1 → (w1.sink.trySend ⟨receipt, false⟩).1 = true →
      Quiet (w1.offered ⟨receipt, false⟩) w2 → I w2 → I (w2.offered ⟨exit, true⟩))
    (hQ : ∀ sent w', w'.journals = w.journals → w'.receipts = w.receipts → Q sent s w') :
    Runs permitted I (Main.tryFinal receipt exit) Q E s w := by
  refine runs_bind (runs_trySend hreceipt fun w1 hw1 => ?_)
  cases hsent : (w1.sink.trySend ⟨receipt, false⟩).1 with
  | false => exact runs_pure (hQ false _ hw1.journals hw1.receipts)
  | true =>
    refine runs_bind (runs_trySend (fun w2 => hexit w1 w2 hw1 hsent) fun w2 hw2 => ?_)
    have hjournals : w2.journals = w.journals := hw2.journals.trans hw1.journals
    have hreceipts : w2.receipts = w.receipts := hw2.receipts.trans hw1.receipts
    cases (w2.sink.trySend ⟨exit, true⟩).1 with
    | false => exact runs_pure (hQ false _ hjournals hreceipts)
    | true =>
      refine runs_calm hI trivial fun _ _ sent w3 _ _ _ hw3 => ?_
      exact hQ sent w3 (hw3.journals.trans hjournals) (hw3.receipts.trans hreceipts)

/-- A frame is offered while the relay is available. -/
theorem runs_relayFrame {v : JobVars} {Q : Unit → JobVars → World → Prop}
    {E : HelperError → JobVars → World → Prop} {frame : Frame}
    (hI : v.relayAvailable = true → ∀ w1, Quiet w w1 → I w1 → I (w1.offered ⟨frame, false⟩))
    (hoff : v.relayAvailable = false → Q () v w)
    (hon : v.relayAvailable = true → ∀ w1, Quiet w w1 →
      Q () { v with relayAvailable := (w1.sink.trySend ⟨frame, false⟩).1 }
        (w1.offered ⟨frame, false⟩)) :
    Runs permitted I (relayFrame frame) Q E v w := by
  refine runs_bind (runs_vars (runs_onlyIf (fun havailable => ?_) fun h => ?_))
  · refine runs_bind (runs_trySend (hI havailable) fun w1 hquiet => ?_)
    have hpost := hon havailable w1 hquiet
    cases hsent : (w1.sink.trySend ⟨frame, false⟩).1 with
    | true =>
      rw [hsent, ← havailable] at hpost
      exact runs_onlyIf (fun h => by cases h) fun _ => hpost
    | false =>
      rw [hsent] at hpost
      exact runs_onlyIf (fun _ => runs_assign hpost) fun h => absurd rfl h
  · exact hoff (Bool.not_eq_true _ ▸ h)

/-- A thread is started, or not. -/
theorem runs_startThread {Q : Unit → σ → World → Prop} {thread : Thread}
    {context : String → String} (hI : ∀ w1, Quiet w w1 → I w1 → I (w1.startThread thread))
    (hok : ∀ w1, Quiet w w1 → Q () s (w1.startThread thread))
    (herror : ∀ w1 e, Quiet w w1 → Trouble permitted → E e s w1) :
    Runs permitted I (Main.startThread thread context) Q E s w := by
  refine runs_succeed (runs_call fun w1 hrely hinv c a w2 hpermitted hexec => ?_)
  have hquiet := quiet_of_rely hrely
  have htrouble : ∀ m, a = .error m → Trouble permitted := fun m hm =>
    ⟨w1, .startThread thread, c, a, w2, hpermitted, hexec, by rw [hm]; rfl⟩
  cases c <;> simp only [exec, reduceCtorEq] at hexec
  · cases hexec
    exact ⟨hI w1 hquiet hinv, fun _ => hok w1 hquiet, fun _ _ hm => by cases hm⟩
  · cases hexec
    exact ⟨hinv, fun hm => (by cases hm), fun e m hm => herror w1 e hquiet (htrouble m hm)⟩

/-- A child that is not started has not been spawned. -/
theorem runs_spawn {Q : Unit → σ → World → Prop} {command : Command}
    (hI : ∀ w1, Quiet w w1 → I w1 → I { w1 with spawned := true })
    (hok : ∀ w1, Quiet w w1 → Q () s { w1 with spawned := true })
    (herror : ∀ w1 e, Quiet w w1 → E e s w1) :
    Runs permitted I (Main.spawn command) Q E s w := by
  refine runs_succeed (runs_call fun w1 hrely hinv c a w2 _ hexec => ?_)
  have hquiet := quiet_of_rely hrely
  cases c <;> simp only [exec, reduceCtorEq] at hexec
  · cases hexec
    exact ⟨hI w1 hquiet hinv, fun _ => hok w1 hquiet, fun _ _ hm => by cases hm⟩
  · cases hexec
    exact ⟨hinv, fun hm => (by cases hm), fun e _ _ => herror w1 e hquiet⟩

/-! ## A job -/

/-- What a checked job has taken over from its request. -/
structure PreparedFor (start : StartFrame) (prepared : PreparedJob) : Prop where
  identity : prepared.identity = identityOf start
  deadlines : prepared.deadlines = deadlinesOf start

variable {prepared : PreparedJob}

theorem PreparedFor.jobId {start : StartFrame}
    (h : PreparedFor start prepared) : prepared.identity.jobId = start.jobId := by
  rw [h.identity]
  rfl

/-- The record is one of the job. -/
structure Describes (start : StartFrame) (prepared : PreparedJob) (record : JobRecord) :
    Prop where
  identity : record.identity = prepared.identity
  deadlines : record.deadlines = prepared.deadlines
  runAsUid : record.runAsUid = start.runAsUid
  maxOutputBytes : record.maxOutputBytes = start.maxOutputBytes

/-- What is known about the record of a job that has just been submitted. -/
structure Submitted (start : StartFrame) (prepared : PreparedJob) (record : JobRecord) :
    Prop extends Describes start prepared record where
  stage : record.stage = .running
  heartbeatOrdinal : record.heartbeatOrdinal = 0
  elapsedMs : record.elapsedMs = 0
  stdoutBytes : record.stdoutBytes = 0
  stderrBytes : record.stderrBytes = 0
  validIdentity : prepared.identity.validate = .ok ()
  ordered : prepared.deadlines.ordered
  validUid : start.runAsUid ≠ 0
  validOutput : 0 < start.maxOutputBytes

/-- A new journal is about the request. -/
theorem describes_of_submitted {start : StartFrame} {now : UInt64} {submitted : JobRecord}
    (h : JobRecord.submitted prepared.identity prepared.deadlines start.runAsUid
      start.maxOutputBytes now = .ok submitted) : Describes start prepared submitted := by
  simp only [JobRecord.submitted, bind_eq_ok, pure_eq_ok] at h
  obtain ⟨_, _, _, _, _, _, _, _, rfl⟩ := h
  exact ⟨rfl, rfl, rfl, rfl⟩

theorem submitted_of_markRunning {start : StartFrame} {now now' : UInt64}
    {submitted running : JobRecord}
    (hsubmitted : JobRecord.submitted prepared.identity prepared.deadlines start.runAsUid
      start.maxOutputBytes now = .ok submitted)
    (hrunning : submitted.markRunning now' = .ok running) : Submitted start prepared running := by
  simp only [JobRecord.submitted, JobDeadlines.validateAt, bind_eq_ok, rejectIf_eq_ok, pure_eq_ok,
    not_not] at hsubmitted
  obtain ⟨_, hidentity, _, ⟨_, _, _, hrelay, _, hretention, _⟩, _, huid, _, houtput, rfl⟩ :=
    hsubmitted
  simp only [JobRecord.markRunning, bind_eq_ok, rejectIf_eq_ok, pure_eq_ok, not_not] at hrunning
  obtain ⟨_, _, _, _, _, _, rfl⟩ := hrunning
  exact ⟨⟨rfl, rfl, rfl, rfl⟩, rfl, rfl, rfl, rfl, rfl, hidentity, ⟨hrelay, hretention⟩, huid,
    houtput⟩

theorem mild_setJournal (w : World) (record : JobRecord) : Mild w (w.setJournal record) :=
  ⟨rfl, rfl, le_rfl, prefix_refl _, Sink.Relayed.refl _, Arrived.refl _⟩

/-- The journal is created and then says running. -/
theorem runs_submitJob {start : StartFrame} {Q : JobRecord → σ → World → Prop} (hI : KeptCalm I)
    (hjournal : ∀ w1 record, Describes start prepared record → I w1 → I (w1.setJournal record))
    (hok : ∀ w1 record, Mild w w1 → Submitted start prepared record →
      w1.journals prepared.identity.jobId = some record → Q record s w1)
    (herror : ∀ w1 e, Mild w w1 → E e s w1) :
    Runs permitted I (submitJob start prepared) Q E s w := by
  refine runs_bind (runs_unixMs hI (fun w1 t hw1 _ => ?_) fun w1 e hw1 _ =>
    herror w1 e hw1.toMild)
  have hmild1 : Mild w (w1.read t) := (hw1.trans (quiet_read w1 t)).toMild
  refine runs_bind (runs_orElseFail (fun submitted hsubmitted => ?_) fun _ _ => herror _ _ hmild1)
  have hmild : ∀ {w2 w3 : World} {record : JobRecord}, Mild w w2 → Quiet w2 w3 →
      Mild w (w3.setJournal record) := fun h h' => (h.trans h'.toMild).trans (mild_setJournal _ _)
  -- the journal may have been written even where the call has failed
  have herrors : ∀ {w2 : World} (record : JobRecord) (call : StoreCall),
      (∀ w3 : World, w3.store call = w3.setJournal record) → Mild w w2 → ∀ w3 w4 e, Quiet w2 w3 →
      w4 = w3 ∨ call.possible w3 = true ∧ w4 = w3.store call → Trouble permitted → E e s w4 := by
    intro w2 record call hcall h w3 w4 e h' hafter _
    rcases hafter with rfl | ⟨-, rfl⟩
    · exact herror _ e (h.trans h'.toMild)
    · rw [hcall]
      exact herror _ e (hmild h h')
  refine runs_bind (runs_store
    (fun w2 _ _ => hjournal w2 submitted (describes_of_submitted hsubmitted)) (fun w2 hw2 _ => ?_)
    (herrors submitted _ (fun _ => rfl) hmild1))
  refine runs_bind (runs_unixMs hI (fun w3 t' hw3 _ => ?_) fun w3 e hw3 _ =>
    herror w3 e ((hmild hmild1 hw2).trans hw3.toMild))
  have hmild3 : Mild w (w3.read t') :=
    (hmild hmild1 hw2).trans (hw3.trans (quiet_read w3 t')).toMild
  refine runs_bind (runs_orElseFail (fun running hrunning => ?_) fun _ _ => herror _ _ hmild3)
  have hrecord := submitted_of_markRunning hsubmitted hrunning
  refine runs_bind (runs_store (fun w4 _ _ => hjournal w4 running hrecord.toDescribes)
    (fun w4 hw4 _ => ?_) (herrors running _ (fun _ => rfl) hmild3))
  refine runs_pure (hok _ running (hmild hmild3 hw4) hrecord ?_)
  rw [← hrecord.identity]
  exact Function.update_self _ _ _

/-- The calm steps of a job leave alone what it has sent, journaled and hashed. -/
structure Calm (v : JobVars) (w : World) (v' : JobVars) (w' : World) : Prop where
  world : Quiet w w'
  journal : v'.journal = v.journal
  started : v'.started = v.started
  heartbeatOrdinal : v'.heartbeatOrdinal = v.heartbeatOrdinal
  stdoutOffset : v'.stdoutOffset = v.stdoutOffset
  stderrOffset : v'.stderrOffset = v.stderrOffset
  relayAvailable : v'.relayAvailable = true → v.relayAvailable = true

theorem Calm.of_quiet {v : JobVars} {w w' : World} (h : Quiet w w') : Calm v w v w' :=
  ⟨h, rfl, rfl, rfl, rfl, rfl, id⟩

theorem calm_loseRelay (v : JobVars) (w : World) : Calm v w { v with relayAvailable := false } w :=
  ⟨Quiet.refl w, rfl, rfl, rfl, rfl, rfl, by simp⟩

theorem calm_terminate (v : JobVars) (w : World) (termination : Option Termination) :
    Calm v w { v with termination := termination } w :=
  ⟨Quiet.refl w, rfl, rfl, rfl, rfl, rfl, id⟩

section Loop

variable {J : JobVars → World → Prop} {E : HelperError → JobVars → World → Prop}
  {start : StartFrame} {v : JobVars} {w : World}

/-- A step of a job that keeps `J`, and fails as `E` says. -/
def KeepsJob (permitted : World → Op → Choice → Bool) (I : World → Prop)
    (J : JobVars → World → Prop) (E : HelperError → JobVars → World → Prop) (x : Job) : Prop :=
  ∀ v w, J v w → Runs permitted I x (fun _ => J) E v w

/-- What has to be known about the assertions that the steps of a job keep. -/
structure LoopTerms (permitted : World → Op → Choice → Bool) (I : World → Prop)
    (J : JobVars → World → Prop) (E : HelperError → JobVars → World → Prop) : Prop where
  inv : KeptCalm I
  calm : ∀ v w v' w', Calm v w v' w' → J v w → J v' w'
  bound : ∀ v w, E .bound v w
  trouble : Trouble permitted → ∀ e v w, E e v w

variable (hterms : LoopTerms permitted I J E)

include hterms

theorem LoopTerms.quiet {w' : World} (h : Quiet w w') (hJ : J v w) : J v w' :=
  hterms.calm v w v w' (Calm.of_quiet h) hJ

theorem keeps_loseRelay : KeepsJob permitted I J E loseRelay :=
  fun v w hJ => runs_assign (hterms.calm _ _ _ _ (calm_loseRelay v w) hJ)

theorem keeps_terminate (termination : Termination) :
    KeepsJob permitted I J E (terminate termination) :=
  fun v w hJ => runs_assign (hterms.calm _ _ _ _ (calm_terminate v w _) hJ)

omit hterms in
theorem KeepsJob.bind {x y : Job} (hx : KeepsJob permitted I J E x)
    (hy : KeepsJob permitted I J E y) : KeepsJob permitted I J E (x >>= fun _ => y) :=
  fun v w hJ => runs_bind ((hx v w hJ).mono (fun _ v' w' hJ' => hy v' w' hJ') fun _ _ _ h => h)

omit hterms in
theorem KeepsJob.onlyIf {c : Prop} [Decidable c] {x : Job} (hx : KeepsJob permitted I J E x) :
    KeepsJob permitted I J E (onlyIf c x) :=
  fun v w hJ => runs_onlyIf (fun _ => hx v w hJ) (fun _ => hJ)

/-- The step for the deadlines. -/
theorem keeps_checkDeadlines : KeepsJob permitted I J E (checkDeadlines start) := by
  intro v w hJ
  refine runs_bind (runs_unixMs hterms.inv (fun w1 t hquiet _ => ?_) fun w1 e _ htrouble => ?_)
  · exact (KeepsJob.onlyIf (keeps_loseRelay hterms)).bind
      (KeepsJob.onlyIf (keeps_terminate hterms .deadline)) v _
      (hterms.quiet (hquiet.trans (quiet_read w1 t)) hJ)
  · exact hterms.trouble htrouble e v w1

/-- The step for the controller. -/
theorem keeps_drainInput : ∀ rounds, KeepsJob permitted I J E (drainInput start rounds) := by
  intro rounds
  induction rounds with
  | zero => exact fun v w _ => runs_fail (hterms.bound v w)
  | succ rounds ih =>
    intro v w hJ
    refine runs_bind (runs_calm hterms.inv trivial fun w1 c received w2 _ _ _ hquiet => ?_)
    have hJ2 : J v w2 := hterms.quiet hquiet hJ
    cases received with
    | event event =>
      cases event with
      | frame envelope => exact (keeps_terminate hterms _).bind ih v w2 hJ2
      | error error => exact (keeps_loseRelay hterms).bind ih v w2 hJ2
      | closed => exact keeps_loseRelay hterms v w2 hJ2
    | empty => exact runs_pure hJ2
    | disconnected => exact keeps_loseRelay hterms v w2 hJ2

/-- An assignment to what the calm steps may change. -/
theorem keeps_setStatus (status : Option (Option Int32)) :
    KeepsJob permitted I J E (assign fun v => { v with status := status }) :=
  fun v w hJ => runs_assign
    (hterms.calm v w _ w ⟨Quiet.refl w, rfl, rfl, rfl, rfl, rfl, id⟩ hJ)

theorem keeps_tryWait {context : String} :
    KeepsJob permitted I J E (do
      let status ← Main.tryWait context
      assign fun v => { v with status := status }) := by
  intro v w hJ
  refine runs_bind (runs_tryWait hterms.inv (fun w1 status hquiet => ?_) fun w1 e _ ht => ?_)
  · exact keeps_setStatus hterms status v w1 (hterms.quiet hquiet hJ)
  · exact hterms.trouble ht e v w1

/-- The step that kills. -/
theorem keeps_killChild : KeepsJob permitted I J E killChild := by
  intro v w hJ
  refine runs_bind (runs_vars (runs_onlyIf (fun _ => ?_) fun _ => hJ))
  refine runs_bind (runs_calm hterms.inv trivial fun w1 c killed w2 _ _ _ hquiet => ?_)
  have hJ2 : J v w2 := hterms.quiet hquiet hJ
  cases killed with
  | true =>
    refine runs_bind (runs_instantNow hterms.inv fun w3 hquiet3 => runs_assign ?_)
    exact hterms.calm v w2 _ w3 ⟨hquiet3, rfl, rfl, rfl, rfl, rfl, id⟩ hJ2
  | false => exact keeps_tryWait hterms v w2 hJ2

/-- The step that gives up. -/
theorem keeps_boundWait (hgiveUp : KeepsJob permitted I J E giveUp) :
    KeepsJob permitted I J E boundWait := by
  intro v w hJ
  refine runs_bind (runs_vars ?_)
  cases v.killStarted with
  | some killedAt =>
    refine runs_bind (runs_instantNow hterms.inv fun w1 hquiet => ?_)
    exact hgiveUp.onlyIf v w1 (hterms.quiet hquiet hJ)
  | none => exact runs_pure hJ

theorem keeps_pollStatus : KeepsJob permitted I J E pollStatus :=
  fun v w hJ => runs_bind (runs_vars ((keeps_tryWait hterms).onlyIf v w hJ))

/-- The step for heartbeats. -/
theorem keeps_heartbeat (hbeat : KeepsJob permitted I J E (beat start)) :
    KeepsJob permitted I J E (heartbeat start) := by
  intro v w hJ
  refine runs_bind (runs_vars (runs_bind (runs_instantNow hterms.inv fun w1 hquiet => ?_)))
  exact hbeat.onlyIf v w1 (hterms.quiet hquiet hJ)

section

variable (hchunk : ∀ kind data, 0 < data.length → data.length ≤ outputReadBytes →
  KeepsJob permitted I J E (takeChunk start kind data))

include hchunk

/-- One event of the child. -/
theorem keeps_takeChildEvent
    {w1 w2 : World} {event : ChildEvent} (hevent : w1.childEvent event = some w2) :
    KeepsJob permitted I J E (takeChildEvent start event) := by
  intro v w hJ
  cases event with
  | chunk kind data =>
    simp only [World.childEvent] at hevent
    split_ifs at hevent with hopen
    exact hchunk kind data hopen.2.1 hopen.2.2 v w hJ
  | closed kind =>
    have hset : ∀ v', Calm v w v' w → Runs permitted I (assign fun _ => v')
        (fun _ => J) E v w := fun v' hcalm => runs_assign (hterms.calm v w v' w hcalm hJ)
    cases kind with
    | stdout => exact hset _ ⟨Quiet.refl w, rfl, rfl, rfl, rfl, rfl, id⟩
    | stderr => exact hset _ ⟨Quiet.refl w, rfl, rfl, rfl, rfl, rfl, id⟩
  | readFailed kind => exact keeps_terminate hterms _ v w hJ

/-- The step for the child. -/
theorem keeps_drainChild :
    ∀ rounds, KeepsJob permitted I J E (drainChild start rounds) := by
  intro rounds
  induction rounds with
  | zero => exact fun v w _ => runs_fail (hterms.bound v w)
  | succ rounds ih =>
    intro v w hJ
    refine runs_bind (runs_calm hterms.inv trivial fun w1 c received w2 _ _ hexec hquiet => ?_)
    have hJ2 : J v w2 := hterms.quiet hquiet hJ
    cases received with
    | none => exact runs_pure hJ2
    | some event =>
      -- an event is one that a stream can have sent
      have hevent : w1.childEvent event = some w2 := by
        cases c <;> simp only [exec, Option.some.injEq, Prod.mk.injEq, reduceCtorEq, false_and]
          at hexec
        obtain ⟨w3, hchild, heq⟩ := map_eq_some_iff.mp hexec
        cases heq
        exact hchild
      exact (keeps_takeChildEvent hterms hchunk hevent).bind ih v w2 hJ2

end

/-- **The rule for the loop of a job**: what the calm steps keep holds at the end of the loop, if
    a chunk of output, a heartbeat and giving up keep it as well. -/
theorem runs_jobLoop (hgiveUp : KeepsJob permitted I J E giveUp)
    (hchunk : ∀ kind data, 0 < data.length → data.length ≤ outputReadBytes →
      KeepsJob permitted I J E (takeChunk start kind data))
    (hbeat : KeepsJob permitted I J E (beat start)) (rounds : Nat) :
    ∀ left, KeepsJob permitted I J E (jobLoop start rounds left) := by
  intro left
  induction left with
  | zero => exact fun v w _ => runs_fail (hterms.bound v w)
  | succ left ih =>
    have hround : KeepsJob permitted I J E (jobRound start rounds) :=
      (keeps_checkDeadlines hterms).bind <| (keeps_drainInput hterms rounds).bind <|
        (keeps_killChild hterms).bind <| (keeps_boundWait hterms hgiveUp).bind <|
        (keeps_drainChild hterms hchunk rounds).bind <| (keeps_pollStatus hterms).bind <|
        keeps_heartbeat hterms hbeat
    refine hround.bind fun v w hJ => ?_
    exact runs_bind (runs_vars (ih.onlyIf v w hJ))

end Loop

/-- **The rule for a job**: what is kept by the steps of the loop has to hold where the loop begins,
    and suffice for what comes after it. -/
theorem runs_runJob {J : JobVars → World → Prop} {start : StartFrame}
    {Q : World → Prop} {E : HelperError → World → Prop}
    (hterms : LoopTerms permitted I J fun e _ => E e)
    (hjournal : ∀ w1 record, Describes start prepared record → I w1 → I (w1.setJournal record))
    (hspawn : ∀ w1, I w1 → I { w1 with spawned := true })
    (hstream : ∀ w1 kind, I w1 → I (w1.setStream true kind))
    (hsubmit : ∀ w1 e, Mild w w1 → E e w1)
    (hinitial : ∀ w1 record, w1.receipts = w.receipts → w.sink.Relayed w1.sink →
      Arrived w.received w1.received → w1.journals prepared.identity.jobId = some record →
      Submitted start prepared record → J (JobVars.initial record w1.instant) w1)
    (hgiveUp : KeepsJob permitted I J (fun e _ => E e) giveUp)
    (hchunk : ∀ kind data, 0 < data.length → data.length ≤ outputReadBytes →
      KeepsJob permitted I J (fun e _ => E e) (takeChunk start kind data))
    (hbeat : KeepsJob permitted I J (fun e _ => E e) (beat start))
    (hfinish : ∀ v w1 record, Submitted start prepared record → J v w1 →
      Runs permitted I (finishJob start prepared) (fun _ _ => Q) (fun e _ => E e) v w1)
    (rounds : Nat) (s : σ) :
    Runs permitted I (runJob rounds start prepared) (fun _ _ => Q) (fun e _ => E e) s w := by
  refine runs_bind (runs_bind (runs_submitJob hterms.inv hjournal
    (fun w1 record hw1 hrecord hat => ?_) hsubmit))
  refine runs_bind (runs_spawn (fun w2 _ => hspawn w2) (fun w2 hw2 => ?_) fun w2 e hw2 =>
    hsubmit w2 e (hw1.trans hw2.toMild))
  refine runs_bind (runs_startThread (fun w3 _ => hstream w3 .stdout) (fun w3 hw3 => ?_)
    fun w3 e _ htrouble => hterms.trouble htrouble e (JobVars.initial record 0) w3)
  refine runs_bind (runs_startThread (fun w4 _ => hstream w4 .stderr) (fun w4 hw4 => ?_)
    fun w4 e _ htrouble => hterms.trouble htrouble e (JobVars.initial record 0) w4)
  refine runs_bind (runs_instantNow hterms.inv fun w5 hw5 => runs_pure ?_)
  -- nothing so far has touched what the loop starts from
  have hinit : J (JobVars.initial record w5.instant) w5 := by
    refine hinitial w5 record ?_ ?_ ?_ ?_ hrecord
    · exact hw5.receipts.trans (hw4.receipts.trans (hw3.receipts.trans (hw2.receipts.trans
        hw1.receipts)))
    · exact hw1.sink.trans (hw2.sink.trans (hw3.sink.trans (hw4.sink.trans hw5.sink)))
    · exact hw1.received.trans (hw2.received.trans (hw3.received.trans (hw4.received.trans
        hw5.received)))
    · exact (congrFun (hw5.journals.trans (hw4.journals.trans (hw3.journals.trans hw2.journals)))
        _).trans hat
  refine runs_bind ((wp_within _ _).mpr ?_)
  have hloop := runs_jobLoop hterms hgiveUp hchunk hbeat rounds rounds _ w5 hinit
  refine runs_bind (hloop.mono (fun _ v' w' hJ => ?_) fun e _ w' he => ?_)
  · refine (hfinish v' w' record hrecord hJ).mono (fun _ _ w'' hQ => ?_) fun e _ w'' he => ?_
    · exact runs_orElseFail (fun _ _ => hQ) fun e he => by cases he
    · refine runs_orElseFail (fun _ hok => by cases hok) fun e' he' => ?_
      cases he'
      exact he
  · refine runs_orElseFail (fun _ hok => by cases hok) fun e' he' => ?_
    cases he'
    exact he

/-- **Every state of every run** satisfies the invariant, and where the main thread has returned,
    its
    postconditions hold. -/
theorem good_of_runs {x : Main Unit Unit} {Q : World → Prop} {E : HelperError → World → Prop}
    (hrelay : ∀ w c w', relay w c = some w' → I w → I w')
    (hQ : ∀ w w', Quiet w w' → Q w → Q w') (hE : ∀ e w w', Quiet w w' → E e w → E e w')
    (hw : I w) (hx : Runs permitted I x (fun _ _ => Q) (fun e _ => E e) () w)
    {ms : List (Pool.Move Unit Empty Choice)}
    {cfg : Pool.Config Unit World Op Ans (Except HelperError Unit × Unit)}
    (hrun : (Pool.solo (system.restrict permitted)).run (Pool.running (x ()) w) ms = some cfg) :
    I cfg.world ∧ ∀ result, cfg.threads () = some (.ret (result, ())) →
      (result = .ok () → Q cfg.world) ∧ ∀ e, result = .error e → E e cfg.world := by
  have hsound : (Pool.solo (system.restrict permitted)).Sound (terms I).inv (fun _ => terms I)
      (fun _ (r : Except HelperError Unit × Unit) w' => match r with
        | (.ok _, _) => Q w'
        | (.error e, _) => E e w') := by
    refine Pool.solo_sound ?_ ?_ fun _ _ _ hcrash => absurd hcrash (some_ne_none _).symm
    · rintro ⟨e | _, _⟩ w w' hrely hpost
      · exact hE e w w' (quiet_of_rely hrely) hpost
      · exact hQ w w' (quiet_of_rely hrely) hpost
    · intro w c w' h hinv
      exact ⟨hrelay w c w' h hinv, relayed_of_relay h⟩
  have hsafe : Safe (system.restrict permitted) (terms I) (fun r w' => match r with
      | (.ok _, _) => Q w'
      | (.error e, _) => E e w') (x ()) w := by
    refine Safe.mono ?_ hx
    rintro ⟨_ | _, _⟩ w' h <;> exact h
  have hgood := Pool.solo_good hsound hw hsafe hrun
  refine ⟨hgood.1, fun result hresult => ?_⟩
  have hpost := hgood.post_of_ret hresult
  cases result with
  | ok _ => exact ⟨fun _ => hpost, fun e he => by cases he⟩
  | error e' =>
    refine ⟨fun h => (by cases h), fun e he => ?_⟩
    cases he
    exact hpost

end Rules

end Serctl.Remote.Helper
