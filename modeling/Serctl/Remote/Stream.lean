import Serctl.Lib.Source
import Serctl.Remote.Codec

/-!
# Streams of frames

The helper and the controller read frames off a stream as they come in.  The reader looks at the
header before it makes room for a payload, and hands the whole frame to the decoder in the end.

What the reader consumes is decisive: it returns a frame exactly where the decoder accepts these
bytes, for every source and every failure of it.
-/

namespace Serctl.Remote

open Lib List Lib.Guard Lib.Source
open Lib.Input (check bind_of_ok bind_of_error)

/-! ## The reader -/

/-- A failure of the stream as an error of the protocol. -/
def io {α : Type} (x : Input ReadFailure Source α) : Input ProtocolError Source α :=
  fun s => ((x s).1.mapError fun e => .io e.message, (x s).2)

/-- The length of the payload that a header announces. -/
def announced (header : List UInt8) : Nat :=
  (UInt32.ofNat (Bytes.ofBytes (slice header 16 20))).toNat

/-- The checks on a header; returns the length of the payload. -/
def checkHeader (header : List UInt8) : Except ProtocolError Nat := do
  Guard.rejectIf (slice header 0 4 ≠ magic.val) .badMagic
  let version := UInt16.ofNat (Bytes.ofBytes (slice header 4 6))
  Guard.rejectIf (version ≠ protocolVersion) (.unsupportedVersion version)
  let kind ← FrameKind.tryFrom (header.getD 6 0)
  let flags := header.getD 7 0
  Guard.rejectIf (flags ≠ 0) (.reservedFlags flags)
  validatePayloadSize kind (announced header)
  return announced header

/-- The end of the stream is looked for at the first byte only. -/
def readFrameFrom : Input ProtocolError Source (Option Envelope) := do
  let first ← io (read 1)
  if first = [] then return none
  else do
    let rest ← io (readExact (headerBytes - 1))
    let payloadLen ← check (checkHeader (first ++ rest))
    let payload ← io (readExact payloadLen)
    let envelope ← check (decodeExact (first ++ rest ++ payload))
    return some envelope

/-- Read again and again. -/
def readFramesFrom : Nat → Input ProtocolError Source (List (Option Envelope))
  | 0 => return []
  | n + 1 => do
    let frame ← readFrameFrom
    let frames ← readFramesFrom n
    return frame :: frames

/-! ## Headers -/

/-- The longest payload of a kind. -/
def payloadLimit : FrameKind → Nat
  | .hello => 16
  | .start => maxFramePayload
  | .stdout | .stderr => 24 + maxOutputChunk
  | .heartbeat => 48
  | .cancel => 18 + maxCancelReasonBytes
  | .exit => 29
  | .receipt => 20 + maxReceiptBytes
  | .error => 24 + maxErrorCodeBytes + maxErrorMessageBytes
  | .queryReceipt => 136

theorem payloadLimit_le (kind : FrameKind) : payloadLimit kind ≤ maxFramePayload := by
  cases kind <;> decide

variable {kind : FrameKind}

theorem validatePayloadSize_eq_ok {size : Nat} :
    validatePayloadSize kind size = .ok () ↔ size ≤ payloadLimit kind := by
  have hlimit := payloadLimit_le kind
  have hkind : validatePayloadSize kind size = (do
      rejectIf (size > maxFramePayload) (.frameTooLarge size)
      rejectIf (size > payloadLimit kind) (.kindPayloadTooLarge kind size)) := by
    cases kind <;> rfl
  rw [hkind]
  simp only [bind_eq_ok, rejectIf_eq_ok]
  constructor
  · rintro ⟨_, -, h⟩
    omega
  · intro h
    exact ⟨(), by omega, by omega⟩

variable {b : List UInt8}

theorem slice_append_left {a : List UInt8} {start stop : Nat} (h : stop ≤ a.length) :
    slice (a ++ b) start stop = slice a start stop := by
  unfold slice
  by_cases hstart : start ≤ a.length
  · rw [drop_append_of_le_length hstart, take_append_of_le_length]
    rw [length_drop]
    omega
  · rw [show stop - start = 0 by omega, take_zero, take_zero]

variable {e : Envelope}

/-- What the decoder accepts has a header that passes the checks and announces what follows. -/
theorem checkHeader_of_decodeExact {header payload : List UInt8}
    (hlength : header.length = headerBytes) (h : decodeExact (header ++ payload) = .ok e) :
    checkHeader header = .ok payload.length := by
  have hslice : ∀ start stop, stop ≤ 20 →
      slice (header ++ payload) start stop = slice header start stop := by
    intro start stop hstop
    exact slice_append_left (by rw [hlength]; exact hstop)
  have hget : ∀ i, i < 20 → (header ++ payload).getD i 0 = header.getD i 0 := by
    intro i hi
    rw [getD_eq_getElem?_getD, getD_eq_getElem?_getD,
      getElem?_append_left (by rw [hlength]; exact hi)]
  simp only [decodeExact, bind_eq_ok, rejectIf_eq_ok, pure_eq_ok, not_not,
    hslice 0 4 (by decide), hslice 4 6 (by decide), hslice 16 20 (by decide), hget 6 (by decide),
    hget 7 (by decide), length_append, hlength] at h
  obtain ⟨_, -, _, hmagic, _, hversion, kind, hkind, _, hflags, _, hsize, _, -, _, htotal, -⟩ := h
  have hannounced : announced header = payload.length := by
    unfold announced
    omega
  simp only [checkHeader, bind_eq_ok, rejectIf_eq_ok, pure_eq_ok, not_not]
  exact ⟨(), hmagic, (), hversion, kind, hkind, (), hflags, (), hsize, hannounced⟩

/-- The decoder wants a whole header. -/
theorem length_of_decodeExact (h : decodeExact b = .ok e) :
    headerBytes ≤ b.length := by
  simp only [decodeExact, bind_eq_ok, rejectIf_eq_ok] at h
  obtain ⟨_, hlong, -⟩ := h
  omega

/-- What the decoder accepts is as long as its header announces. -/
theorem announced_of_decodeExact (h : decodeExact b = .ok e) :
    b.length = headerBytes + announced b := by
  have hlong := length_of_decodeExact h
  have hheader : (b.take headerBytes).length = headerBytes := length_take_of_le hlong
  have h' := h
  rw [← take_append_drop headerBytes b] at h'
  have hchecked := checkHeader_of_decodeExact hheader h'
  simp only [checkHeader, bind_eq_ok, pure_eq_ok] at hchecked
  obtain ⟨_, -, _, -, _, -, _, -, _, -, hannounced⟩ := hchecked
  have hslice : announced b = announced (b.take headerBytes) := by
    unfold announced
    conv_lhs => rw [← take_append_drop headerBytes b]
    rw [slice_append_left (by rw [hheader]; decide)]
  rw [hslice, hannounced, length_drop]
  omega

/-- A header that announces more than its kind allows is refused. -/
theorem checkHeader_oversized {header : List UInt8}
    (hkind : FrameKind.tryFrom (header.getD 6 0) = .ok kind)
    (hlimit : payloadLimit kind < announced header) : ∃ e, checkHeader header = .error e := by
  cases hchecked : checkHeader header with
  | error e => exact ⟨e, rfl⟩
  | ok n =>
    simp only [checkHeader, bind_eq_ok, hkind, Except.ok.injEq] at hchecked
    obtain ⟨_, -, _, -, _, rfl, _, -, _, hsize, -⟩ := hchecked
    have := validatePayloadSize_eq_ok.mp hsize
    omega

/-! ## What is consumed -/

section Steps

variable {α β : Type} {x : Input ReadFailure Source α} {f : α → Input ProtocolError Source β}
  {s s' : Source}

theorem io_bind_ok {a : α} (h : x s = (.ok a, s')) : (io x >>= f) s = f a s' := by
  have hio : io x s = (.ok a, s') := by rw [io, h]; rfl
  rw [bind_of_ok (a := a) (by rw [hio]), hio]

theorem io_bind_error {e : ReadFailure} (h : x s = (.error e, s')) :
    (io x >>= f) s = (.error (.io e.message), s') := by
  have hio : io x s = (.error (.io e.message), s') := by rw [io, h]; rfl
  rw [bind_of_error (e := .io e.message) (by rw [hio]), hio]

end Steps

/-- What is read behind the first byte. -/
def readBehind (first : List UInt8) : Input ProtocolError Source (Option Envelope) := do
  let rest ← io (readExact (headerBytes - 1))
  let payloadLen ← check (checkHeader (first ++ rest))
  let payload ← io (readExact payloadLen)
  let envelope ← check (decodeExact (first ++ rest ++ payload))
  return some envelope

/-- What is read behind the header. -/
def readPayload (header : List UInt8) : Input ProtocolError Source (Option Envelope) := do
  let payloadLen ← check (checkHeader header)
  let payload ← io (readExact payloadLen)
  let envelope ← check (decodeExact (header ++ payload))
  return some envelope

/-- The result stands and falls with the bytes that were consumed behind those at hand. -/
structure Decides (front : List UInt8) (s : Source)
    (run : Except ProtocolError (Option Envelope) × Source) : Prop where
  consumes : ∃ got, got ++ bytes run.2 = bytes s ∧
    ∀ e, run.1 = .ok (some e) ↔ decodeExact (front ++ got) = .ok e
  not_ended : run.1 ≠ .ok none

/-- An error where the decoder would not accept what was consumed either. -/
theorem decides_error {front got : List UInt8} {s s' : Source} {e : ProtocolError}
    (hgot : got ++ bytes s' = bytes s)
    (hno : ∀ envelope, decodeExact (front ++ got) ≠ .ok envelope) :
    Decides front s (.error e, s') where
  consumes := ⟨got, hgot, fun envelope => ⟨nofun, fun h => absurd h (hno envelope)⟩⟩
  not_ended := nofun

theorem decides_readPayload {header : List UInt8} (hlength : header.length = headerBytes)
    (s : Source) : Decides header s (readPayload header s) := by
  unfold readPayload
  cases hchecked : checkHeader header with
  | error e =>
    -- the decoder would refuse the header as well
    rw [bind_of_error (e := e) rfl]
    have hnothing : [] ++ bytes s = bytes s := rfl
    apply decides_error hnothing
    intro envelope hdecode
    rw [checkHeader_of_decodeExact hlength hdecode] at hchecked
    cases hchecked
  | ok payloadLen =>
    rw [bind_of_ok (a := payloadLen) rfl]
    cases hread : readExact payloadLen s with
    | mk r s' =>
      cases r with
      | error e =>
        -- the payload is shorter than announced
        obtain ⟨lost, hlost, hbytes⟩ := readExact_error hread
        rw [show (check (.ok payloadLen) s : _ × Source).2 = s from rfl, io_bind_error hread]
        apply decides_error hbytes
        intro envelope hdecode
        rw [checkHeader_of_decodeExact hlength hdecode, Except.ok.injEq] at hchecked
        omega
      | ok payload =>
        obtain ⟨-, hbytes⟩ := readExact_ok hread
        rw [show (check (.ok payloadLen) s : _ × Source).2 = s from rfl, io_bind_ok hread]
        cases hdecode : decodeExact (header ++ payload) with
        | error e =>
          rw [bind_of_error (e := e) rfl]
          apply decides_error hbytes
          intro envelope henvelope
          rw [henvelope] at hdecode
          cases hdecode
        | ok envelope =>
          rw [bind_of_ok (a := envelope) rfl]
          refine ⟨⟨payload, hbytes, fun e => ?_⟩, nofun⟩
          rw [hdecode]
          show Except.ok (some envelope) = Except.ok (some e) ↔ Except.ok envelope = Except.ok e
          simp

theorem decides_readBehind (first : UInt8) (s : Source) :
    Decides [first] s (readBehind [first] s) := by
  cases hread : readExact (headerBytes - 1) s with
  | mk r s' =>
    cases r with
    | error e =>
      -- the header is not complete
      obtain ⟨lost, hlost, hbytes⟩ := readExact_error hread
      rw [readBehind, io_bind_error hread]
      apply decides_error hbytes
      intro envelope hdecode
      have hlong := length_of_decodeExact hdecode
      rw [length_append, length_singleton] at hlong
      omega
    | ok rest =>
      obtain ⟨hlength, hbytes⟩ := readExact_ok hread
      have hrun : readBehind [first] s = readPayload ([first] ++ rest) s' := io_bind_ok hread
      rw [hrun]
      have hheader : ([first] ++ rest).length = headerBytes := by
        rw [length_append, length_singleton, hlength]
        rfl
      obtain ⟨⟨got, hgot, hiff⟩, hended⟩ := decides_readPayload hheader s'
      refine ⟨⟨rest ++ got, ?_, ?_⟩, hended⟩
      · rw [append_assoc, hgot, hbytes]
      · intro e
        rw [← append_assoc]
        exact hiff e

/-- **What is consumed decides.**  For every source, the reader returns a frame exactly if the
    decoder accepts the bytes that it has consumed, and it finds the end only where nothing is
    left. -/
theorem readFrameFrom_consumes (s : Source) : (∃ got, got ++ bytes (readFrameFrom s).2 = bytes s ∧
      ∀ e, (readFrameFrom s).1 = .ok (some e) ↔ decodeExact got = .ok e) ∧
    ((readFrameFrom s).1 = .ok none → bytes s = []) := by
  have hempty : ∀ envelope, decodeExact [] ≠ .ok envelope := by
    intro envelope hdecode
    have hlong := length_of_decodeExact hdecode
    exact absurd hlong (by decide)
  cases hread : read 1 s with
  | mk r s' =>
    cases r with
    | error e =>
      have hrun : readFrameFrom s = (.error (.io e.message), s') := io_bind_error hread
      rw [hrun]
      refine ⟨⟨[], read_error hread, fun envelope => ?_⟩, nofun⟩
      exact ⟨nofun, fun h => absurd h (hempty envelope)⟩
    | ok got =>
      have hbytes := read_ok hread
      rcases read_one_ok hread with ⟨rfl, hend⟩ | ⟨first, rfl⟩
      · have hrun : readFrameFrom s = (.ok none, s') := io_bind_ok hread
        rw [hrun]
        refine ⟨⟨[], hbytes, fun envelope => ?_⟩, fun _ => hend⟩
        exact ⟨nofun, fun h => absurd h (hempty envelope)⟩
      · have hrun : readFrameFrom s = readBehind [first] s' := io_bind_ok hread
        rw [hrun]
        obtain ⟨⟨got, hgot, hiff⟩, hended⟩ := decides_readBehind first s'
        exact ⟨⟨[first] ++ got, by rw [append_assoc, hgot, hbytes], hiff⟩, fun h => absurd h hended⟩

/-- A stream that ends before the header is complete, or before the announced payload is, gives an
    error. -/
theorem readFrameFrom_cut {s : Source} (hsome : bytes s ≠ [])
    (hshort : (bytes s).length < headerBytes ∨
      (bytes s).length < headerBytes + announced (bytes s)) :
    ∃ e, (readFrameFrom s).1 = .error e := by
  obtain ⟨⟨got, hgot, hiff⟩, hended⟩ := readFrameFrom_consumes s
  cases hrun : (readFrameFrom s).1 with
  | error e => exact ⟨e, rfl⟩
  | ok frame =>
    cases frame with
    | none => exact absurd (hended hrun) hsome
    | some e =>
      -- the frame would be a part of the stream
      have hdecode := (hiff e).mp hrun
      have hlong := length_of_decodeExact hdecode
      have htotal := announced_of_decodeExact hdecode
      have hsame : announced (bytes s) = announced got := by
        unfold announced
        rw [← hgot, slice_append_left (Nat.le_trans (by decide) hlong)]
      have hlength : got.length ≤ (bytes s).length := by
        rw [← hgot, length_append]
        omega
      omega

/-- Of a payload that is longer than its kind allows, no byte is read. -/
theorem readFrameFrom_oversized {s : Source} {header payload : List UInt8}
    (hbytes : bytes s = header ++ payload) (hlength : header.length = headerBytes)
    (hkind : FrameKind.tryFrom (header.getD 6 0) = .ok kind)
    (hlimit : payloadLimit kind < announced header) :
    ∃ e left, (readFrameFrom s).1 = .error e ∧ bytes (readFrameFrom s).2 = left ++ payload := by
  cases hread : read 1 s with
  | mk r s' =>
    cases r with
    | error e =>
      have hrun : readFrameFrom s = (.error (.io e.message), s') := io_bind_error hread
      rw [hrun]
      exact ⟨_, header, rfl, (read_error hread).trans hbytes⟩
    | ok got =>
      have hgot := read_ok hread
      rcases read_one_ok hread with ⟨rfl, hend⟩ | ⟨first, rfl⟩
      · rw [hend] at hbytes
        have hnil := (append_eq_nil_iff.mp hbytes.symm).1
        rw [hnil] at hlength
        cases hlength
      · have hrun : readFrameFrom s = readBehind [first] s' := io_bind_ok hread
        rw [hrun, readBehind]
        cases hrest : readExact (headerBytes - 1) s' with
        | mk r s'' =>
          cases r with
          | error e =>
            obtain ⟨lost, hlost, hlostBytes⟩ := readExact_error hrest
            rw [io_bind_error hrest]
            -- what is gone is a part of the header
            have hall : [first] ++ lost ++ bytes s'' = header ++ payload := by
              rw [append_assoc, hlostBytes, hgot, hbytes]
            obtain ⟨left, hleft⟩ : [first] ++ lost <+: header := by
              apply prefix_of_prefix_length_le ⟨_, hall⟩ ⟨_, rfl⟩
              rw [length_append, length_singleton, hlength]
              omega
            rw [← hleft, append_assoc _ left, append_cancel_left_eq] at hall
            exact ⟨_, left, rfl, hall⟩
          | ok rest =>
            obtain ⟨hrestLength, hrestBytes⟩ := readExact_ok hrest
            rw [io_bind_ok hrest]
            have hall : [first] ++ rest ++ bytes s'' = header ++ payload := by
              rw [append_assoc, hrestBytes, hgot, hbytes]
            have hsame : [first] ++ rest = header ∧ bytes s'' = payload := by
              apply append_inj hall
              rw [length_append, length_singleton, hrestLength, hlength]
              rfl
            obtain ⟨e, hchecked⟩ := checkHeader_oversized hkind hlimit
            rw [hsame.1, hchecked, bind_of_error (e := e) rfl]
            exact ⟨e, [], rfl, hsame.2⟩

/-! ## Sources that do not fail -/

theorem readFrameFrom_of_calm {s : Source} {text left : List UInt8}
    (hcalm : Calm s) (hencode : encode e = .ok text) (hs : bytes s = text ++ left) :
    ∃ s', readFrameFrom s = (.ok (some e), s') ∧ Calm s' ∧ bytes s' = left := by
  have hdecode := decodeExact_of_encode hencode
  have hlong := length_of_decodeExact hdecode
  -- the text is its first byte, the rest of the header and the payload
  obtain ⟨first, rest, payload, htext, hrest⟩ : ∃ first rest payload,
      text = [first] ++ rest ++ payload ∧ rest.length = headerBytes - 1 := by
    cases text with
    | nil => exact absurd hlong (by decide)
    | cons first more =>
      rw [length_cons] at hlong
      refine ⟨first, more.take (headerBytes - 1), more.drop (headerBytes - 1), ?_, ?_⟩
      · rw [append_assoc, take_append_drop]
        rfl
      · exact length_take_of_le (by omega)
  subst htext
  have hheader : ([first] ++ rest).length = headerBytes := by
    rw [length_append, length_singleton, hrest]
    rfl
  have hchecked := checkHeader_of_decodeExact hheader hdecode
  obtain ⟨s1, hread1, hcalm1⟩ := read_one_of_calm hcalm
  have hs1 := read_ok hread1
  rw [hs, append_assoc, append_assoc] at hs1 hread1
  have hbytes1 : bytes s1 = rest ++ (payload ++ left) := append_cancel_left hs1
  obtain ⟨s2, hread2, hcalm2⟩ := readExact_of_calm hcalm1 (n := headerBytes - 1) (by
    rw [hbytes1, length_append, hrest]
    omega)
  have hs2 := (readExact_ok hread2).2
  rw [hbytes1, ← hrest, take_left] at hs2 hread2
  have hbytes2 : bytes s2 = payload ++ left := append_cancel_left hs2
  obtain ⟨s3, hread3, hcalm3⟩ := readExact_of_calm hcalm2 (n := payload.length) (by
    rw [hbytes2, length_append]
    omega)
  have hs3 := (readExact_ok hread3).2
  rw [hbytes2, take_left] at hs3 hread3
  refine ⟨s3, ?_, hcalm3, append_cancel_left hs3⟩
  have hrun : readFrameFrom s = readBehind [first] s1 := io_bind_ok hread1
  rw [hrest] at hread2
  rw [hrun, readBehind, io_bind_ok hread2, bind_of_ok (a := payload.length) hchecked]
  show (io (readExact payload.length) >>= _) s2 = _
  rw [io_bind_ok hread3, bind_of_ok (a := e) hdecode]
  rfl

theorem readFrameFrom_end {s : Source} (hcalm : Calm s) (hs : bytes s = []) :
    ∃ s', readFrameFrom s = (.ok none, s') := by
  obtain ⟨s', hread, -⟩ := read_one_of_calm hcalm
  rw [hs] at hread
  exact ⟨s', io_bind_ok hread⟩

section

variable {envelopes : List Envelope} {texts : List (List UInt8)} {s : Source}
    (hencode : List.Forall₂ (fun e text => encode e = .ok text) envelopes texts) (hcalm : Calm s)

include hencode hcalm

/-- Frames are read as they were written. -/
theorem readFramesFrom_of_calm {left : List UInt8} (hs : bytes s = texts.flatten ++ left) :
    ∃ s', readFramesFrom envelopes.length s = (.ok (envelopes.map some), s') ∧ Calm s' ∧
      bytes s' = left := by
  induction hencode generalizing s with
  | nil => exact ⟨s, rfl, hcalm, hs⟩
  | @cons e text envelopes texts hfirst _ ih =>
    rw [flatten_cons, append_assoc] at hs
    obtain ⟨s1, hread, hcalm1, hs1⟩ := readFrameFrom_of_calm hcalm hfirst hs
    obtain ⟨s2, hmore, hcalm2, hs2⟩ := ih hcalm1 hs1
    refine ⟨s2, ?_, hcalm2, hs2⟩
    rw [length_cons, readFramesFrom, bind_of_ok (a := some e) (by rw [hread]), hread,
      bind_of_ok (a := envelopes.map some) (by rw [hmore]), hmore]
    rfl

/-- And then the end is clean. -/
theorem readFramesFrom_end (hs : bytes s = texts.flatten) :
    (readFramesFrom (envelopes.length + 1) s).1 = .ok (envelopes.map some ++ [none]) := by
  induction hencode generalizing s with
  | nil =>
    obtain ⟨s', hread⟩ := readFrameFrom_end hcalm hs
    show ((readFrameFrom >>= _) s).1 = _
    rw [bind_of_ok (a := none) (by rw [hread])]
    rfl
  | @cons e text envelopes texts hfirst _ ih =>
    rw [flatten_cons] at hs
    obtain ⟨s1, hread, hcalm1, hs1⟩ := readFrameFrom_of_calm hcalm hfirst hs
    have hmore := ih hcalm1 hs1
    rw [length_cons, readFramesFrom, bind_of_ok (a := some e) (by rw [hread]), hread,
      bind_of_ok hmore]
    rfl

end

/-- **Streams of frames.**  Frames are read as they were written, up to a clean end, however a
    source that does not fail cuts them, and a stream that ends inside a frame gives the frames
    before it and then an error.  A frame is returned exactly if the decoder accepts the bytes that
    were consumed, and a header that announces too much is refused with its payload unread, whether
    the source fails or not. -/
theorem frame_stream_exact (envelopes : List Envelope) (texts : List (List UInt8))
    (hencode : Guard.collect encode envelopes = .ok texts) :
    (∀ s, Calm s → bytes s = texts.flatten →
      (readFramesFrom (envelopes.length + 1) s).1 = .ok (envelopes.map some ++ [none])) ∧
    (∀ s part, Calm s → bytes s = texts.flatten ++ part → part ≠ [] →
      (part.length < headerBytes ∨ part.length < headerBytes + announced part) →
      ∃ s', readFramesFrom envelopes.length s = (.ok (envelopes.map some), s') ∧
        ∃ e, (readFrameFrom s').1 = .error e) ∧
    (∀ s, bytes s ≠ [] → ((bytes s).length < headerBytes ∨
        (bytes s).length < headerBytes + announced (bytes s)) →
      ∃ e, (readFrameFrom s).1 = .error e) ∧
    (∀ s, ∃ got, got ++ bytes (readFrameFrom s).2 = bytes s ∧
      ∀ e, (readFrameFrom s).1 = .ok (some e) ↔ decodeExact got = .ok e) ∧
    ∀ s header payload kind, bytes s = header ++ payload → header.length = headerBytes →
      FrameKind.tryFrom (header.getD 6 0) = .ok kind → payloadLimit kind < announced header →
      ∃ e left, (readFrameFrom s).1 = .error e ∧
        bytes (readFrameFrom s).2 = left ++ payload := by
  have htexts := collect_eq_ok hencode
  refine ⟨?_, ?_, ?_, ?_, ?_⟩
  · intro s hcalm hs
    exact readFramesFrom_end htexts hcalm hs
  · intro s part hcalm hs hpart hshort
    obtain ⟨s', hread, -, hs'⟩ := readFramesFrom_of_calm htexts hcalm hs
    refine ⟨s', hread, readFrameFrom_cut ?_ ?_⟩
    · rw [hs']
      exact hpart
    · rw [hs']
      exact hshort
  · intro s hsome hshort
    exact readFrameFrom_cut hsome hshort
  · intro s
    exact (readFrameFrom_consumes s).1
  · intro s header payload kind hbytes hlength hkind hlimit
    exact readFrameFrom_oversized hbytes hlength hkind hlimit

/-- A heartbeat of a job with the first number. -/
def firstBeat : Envelope := ⟨0, .heartbeat ⟨Bytes.zero 16, 1, 0, 0, 0⟩⟩

/-- The source that brings one byte at a time. -/
def byteSource (text : List UInt8) : Source := text.map fun b => .data b []

theorem calm_byteSource (text : List UInt8) : Calm (byteSource text) := by
  intro e he
  obtain ⟨b, -, hb⟩ := mem_map.mp he
  cases hb

theorem bytes_byteSource (text : List UInt8) : bytes (byteSource text) = text := by
  induction text with
  | nil => rfl
  | cons b text ih =>
    show b :: bytes (byteSource text) = b :: text
    rw [ih]

theorem beats_read_bytewise : ∃ texts, Guard.collect encode [firstBeat, firstBeat] = .ok texts ∧
    (readFramesFrom 3 (byteSource texts.flatten)).1 =
      .ok [some firstBeat, some firstBeat, none] :=
  ⟨_, rfl, (frame_stream_exact [firstBeat, firstBeat] _ rfl).1 _ (calm_byteSource _)
    (bytes_byteSource _)⟩

end Serctl.Remote
