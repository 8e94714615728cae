import Serctl.Transfer.Protocol

/-!
# Frames are read as they were written

Whatever pieces a reader delivers, a sequence of frames is read as it was written, up to a clean
end.  An input that ends inside a frame is refused, and so is a frame that announces a body longer
than its kind allows, before any of the body is read.

A control message that passes its own check is written only if its JSON is no longer than 64 KiB.
The check puts no bound on the message of an error, so that one may be too long for the wire.
-/

namespace Serctl.Transfer

open Lib Lib.Guard Lib.Input List
open AsyncRead (bytes)

variable {σ : Type} [AsyncRead σ] {fromSlice : List UInt8 → Option Control}

/-! ## Valid frames -/

/-- What every frame must fulfil. -/
def Frame.validate : Frame → Except String Unit
  | .control message => message.validate
  | .data chunk => chunk.validate

/-- The kind of a frame. -/
def Frame.kind : Frame → FrameKind
  | .control _ => .control
  | .data _ => .data

/-- What follows the header. -/
def Frame.body : Frame → List UInt8
  | .control message => controlCodec.encode message
  | .data chunk => chunk.body

/-- How long a body may be. -/
def FrameKind.bound : FrameKind → Nat
  | .control => maxControlBytes
  | .data => 56 + maxChunkBytes

/-- The parser reads what the serializer writes. -/
def Lossless (fromSlice : List UInt8 → Option Control) : Prop :=
  ∀ control, fromSlice (controlCodec.encode control) = some control

/-- The frame passes its own check. -/
def Frame.Valid (frame : Frame) : Prop := frame.validate = .ok ()

/-- The JSON of a control message is not too long; a data frame has its bound from its check. -/
def Frame.Short : Frame → Prop
  | .control message => (controlCodec.encode message).length ≤ maxControlBytes
  | .data _ => True

theorem bound_le (kind : FrameKind) : kind.bound ≤ maxFrameBytes := by
  cases kind <;> decide

theorem length_dataBody (data : DataFrame) :
    data.body.length = 16 + 8 + 32 + data.payload.length := by
  simp only [DataFrame.body, length_append, Bytes.length_val]
  omega

variable {frame : Frame}

/-- A valid frame that is not too long keeps the bound of its kind. -/
theorem Frame.Valid.bound (h : frame.Valid) (hshort : frame.Short) :
    frame.body.length ≤ frame.kind.bound := by
  cases frame with
  | control control => exact hshort
  | data data =>
    simp only [Frame.Valid, Frame.validate, DataFrame.validate, bind_eq_ok, rejectIf_eq_ok,
      not_not] at h
    obtain ⟨_, -, _, hlength, -⟩ := h
    show data.body.length ≤ 56 + maxChunkBytes
    rw [length_dataBody]
    omega

/-- The bytes of a frame: its header and its body. -/
def Frame.text (frame : Frame) : List UInt8 :=
  header frame.kind frame.body.length ++ frame.body

/-- **Which frames are written**: those that are valid and not too long. -/
theorem writeFrame_eq_ok {text : List UInt8} :
    writeFrame frame = .ok text ↔ frame.Valid ∧ frame.Short ∧ frame.text = text := by
  -- no frame that keeps the bound of its kind is refused for its length
  have hfits : frame.Valid → frame.Short →
      frame.body.length ≤ maxFrameBytes ∧ frame.body.length < 2 ^ 32 := by
    intro hvalid hshort
    have hframe := Nat.le_trans (hvalid.bound hshort) (bound_le frame.kind)
    exact ⟨hframe, Nat.lt_of_le_of_lt hframe (by decide)⟩
  cases frame with
  | control control =>
    simp only [writeFrame, writeControl, writeHeader, bind_eq_ok, rejectIf_eq_ok,
      pure_eq_ok, not_not, exists_const]
    constructor
    · rintro ⟨⟨⟩, hvalid, hshort, _, ⟨-, -, rfl⟩, rfl⟩
      exact ⟨hvalid, hshort, rfl⟩
    · rintro ⟨hvalid, hshort, rfl⟩
      exact ⟨(), hvalid, hshort, _, ⟨(hfits hvalid hshort).1, (hfits hvalid hshort).2, rfl⟩, rfl⟩
  | data data =>
    have hlength : 16 + 8 + 32 + data.payload.length = (Frame.data data).body.length :=
      (length_dataBody data).symm
    simp only [writeFrame, writeData, writeHeader, bind_eq_ok, rejectIf_eq_ok,
      pure_eq_ok, not_not, exists_const, hlength]
    constructor
    · rintro ⟨⟨⟩, hvalid, _, ⟨-, -, rfl⟩, rfl⟩
      exact ⟨hvalid, trivial, rfl⟩
    · rintro ⟨hvalid, hshort, rfl⟩
      exact ⟨(), hvalid, _, ⟨(hfits hvalid hshort).1, (hfits hvalid hshort).2, rfl⟩, rfl⟩

/-! ## One frame -/

/-- The header behind its first byte. -/
def headerRest (kind : FrameKind) (bodyLen : Nat) : List UInt8 := (header kind bodyLen).tail

variable {bodyLen : Nat}

theorem reads_headerFields (kind : FrameKind) (h : bodyLen < 2 ^ 32) :
    Reads (readHeaderFields (σ := σ) [0x53]) (headerRest kind bodyLen) (kind.code, bodyLen) := by
  have hmagic : ([0x53] : List UInt8) ++ [0x52, 0x58, 0x46] = magic := rfl
  have hkind : Reads (σ := σ) (readWord earlyEof 1) (Bytes.beBytes 1 kind.code.toNat).val
      kind.code.toNat := reads_readWord earlyEof kind.code.toNat_lt
  show Reads _ ([0x52, 0x58, 0x46] ++ ((Bytes.beBytes 2 version.toNat).val ++
    ((Bytes.beBytes 1 kind.code.toNat).val ++ ((Bytes.beBytes 1 0).val ++
    (Bytes.beBytes 4 bodyLen).val)))) _
  unfold readHeaderFields
  apply (reads_readExact earlyEof (b := [0x52, 0x58, 0x46]) rfl).bind
  apply Reads.bind_rejectIf (not_not.mpr hmagic)
  apply (reads_readWord earlyEof (by decide)).bind
  apply Reads.bind_rejectIf (not_not.mpr rfl)
  apply hkind.bind
  apply (reads_readWord earlyEof (by decide)).bind
  apply Reads.bind_rejectIf (not_not.mpr rfl)
  apply (reads_readWord earlyEof (by simpa using h)).bind_last
  rw [UInt8.ofNat_toNat]
  exact reads_pure _

theorem reads_header (kind : FrameKind) (h : bodyLen ≤ maxFrameBytes) :
    Reads (readHeader (σ := σ) [0x53]) (headerRest kind bodyLen) (kind.code, bodyLen) := by
  apply (reads_headerFields kind (Nat.lt_of_le_of_lt h (by decide))).bind_last
  apply Reads.bind_rejectIf (not_not.mpr h)
  exact reads_pure _

theorem reads_control (hlossless : Lossless fromSlice) {control : Control}
    (h : (Frame.control control).Valid)
    (hshort : (controlCodec.encode control).length ≤ maxControlBytes) :
    Reads (readControl (σ := σ) fromSlice (controlCodec.encode control).length)
      (controlCodec.encode control) control := by
  unfold readControl
  apply Reads.bind_rejectIf (not_not.mpr hshort)
  apply (reads_readExact earlyEof rfl).bind_last
  apply Reads.bind_check (a := control) (by rw [hlossless control]; rfl)
  apply Reads.bind_check h
  exact reads_pure control

theorem reads_data {data : DataFrame} (h : (Frame.data data).Valid) :
    Reads (readData (σ := σ) data.body.length) data.body data := by
  have hlength : data.body.length - 56 = data.payload.length := by
    rw [length_dataBody]
    omega
  have hchunk : data.payload.length ≤ maxChunkBytes := by
    have hbound : data.body.length ≤ 56 + maxChunkBytes := h.bound trivial
    omega
  unfold readData
  apply Reads.bind_rejectIf (not_not.mpr (by rw [length_dataBody]; omega))
  apply Reads.bind_rejectIf (not_not.mpr (by rw [hlength]; exact hchunk))
  apply (reads_readArray earlyEof data.transferId).bind
  apply (reads_readWord earlyEof data.offset.toNat_lt).bind
  apply (reads_readArray earlyEof data.chunkSha256).bind
  apply (reads_readExact earlyEof hlength.symm).bind_last
  rw [UInt64.ofNat_toNat]
  apply Reads.bind_check h
  exact reads_pure data

theorem reads_body (hlossless : Lossless fromSlice) (h : frame.Valid) (hshort : frame.Short) :
    Reads (readBody (σ := σ) fromSlice frame.kind.code frame.body.length) frame.body frame := by
  cases frame with
  | control control =>
    apply (reads_control hlossless h hshort).bind_last
    exact reads_pure _
  | data data =>
    apply (reads_data h).bind_last
    exact reads_pure _

/-- **What follows the first byte of a frame** is read as that frame, and a cut of it is refused. -/
theorem reads_frame (hlossless : Lossless fromSlice) (h : frame.Valid) (hshort : frame.Short) :
    Reads (do
        let (kind, bodyLen) ← readHeader (σ := σ) [0x53]
        let frame ← readBody fromSlice kind bodyLen
        return some frame)
      (headerRest frame.kind frame.body.length ++ frame.body) (some frame) := by
  apply (reads_header frame.kind (Nat.le_trans (h.bound hshort) (bound_le _))).bind
  apply (reads_body hlossless h hshort).bind_last
  exact reads_pure _

theorem text_eq (frame : Frame) :
    frame.text = 0x53 :: (headerRest frame.kind frame.body.length ++ frame.body) := rfl

variable {s : σ}

/-- Where a byte is left, it is taken for the first of a frame. -/
theorem readFrame_cons (fromSlice : List UInt8 → Option Control) {rest : List UInt8}
    (h : bytes s = 0x53 :: rest) :
    ∃ s', bytes s' = rest ∧ readFrame fromSlice s = (do
      let (kind, bodyLen) ← readHeader [0x53]
      let frame ← readBody fromSlice kind bodyLen
      return some frame : Input String σ (Option Frame)) s' := by
  have hfirst := yields_read_one (ε := String) s
  rw [h] at hfirst
  refine ⟨(Input.read (ε := String) 1 s).2, hfirst.2, ?_⟩
  rw [readFrame, bind_of_ok hfirst.1]
  rfl

variable {left : List UInt8} {frames : List Frame}

/-- The next frame of an input. -/
theorem yields_readFrame (hlossless : Lossless fromSlice) (hvalid : frame.Valid)
    (hshort : frame.Short) (h : bytes s = frame.text ++ left) :
    Yields (readFrame fromSlice) s (.ok (some frame)) left := by
  have hs : bytes s = 0x53 :: (headerRest frame.kind frame.body.length ++ frame.body ++ left) := h
  obtain ⟨s', hs', hrun⟩ := readFrame_cons fromSlice hs
  unfold Yields
  rw [hrun]
  exact (reads_frame hlossless hvalid hshort).whole s' left hs'

/-- An input that ends inside a frame is refused. -/
theorem readFrame_cut (hlossless : Lossless fromSlice) (hvalid : frame.Valid)
    (hshort : frame.Short) {cut : List UInt8} (hs : bytes s ≠ []) (hcut : cut ≠ [])
    (h : bytes s ++ cut = frame.text) : ∃ e, (readFrame fromSlice s).1 = .error e := by
  cases hbytes : bytes s with
  | nil => exact absurd hbytes hs
  | cons b rest =>
    rw [hbytes, text_eq, cons_append, List.cons.injEq] at h
    obtain ⟨rfl, hrest⟩ := h
    obtain ⟨s', hs', hrun⟩ := readFrame_cons fromSlice hbytes
    rw [hrun]
    exact (reads_frame hlossless hvalid hshort).cut s' cut hcut (by rw [hs', hrest])

theorem yields_readFrame_end (h : bytes s = []) :
    Yields (readFrame fromSlice) s (.ok none) [] := by
  have hfirst := yields_read_one (ε := String) s
  rw [h] at hfirst
  apply hfirst.bind
  intro s' hs'
  exact ⟨rfl, hs'⟩

theorem yields_readBody_oversized (fromSlice : List UInt8 → Option Control) {kind : FrameKind}
    (hbound : kind.bound < bodyLen) (h : bytes s = left) :
    ∃ e, Yields (readBody fromSlice kind.code bodyLen) s (.error e) left := by
  cases kind with
  | control =>
    have hrefused : Yields (readControl fromSlice bodyLen) s
        (.error "native transfer control is too large") left :=
      yields_rejected (Nat.not_le.mpr hbound) h
    exact ⟨_, hrefused.bind_error⟩
  | data =>
    have hlong : 56 + maxChunkBytes < bodyLen := hbound
    have hrefused : Yields (readData bodyLen) s (.error "native transfer chunk is too large")
        left := by
      apply yields_accepted (by omega)
      exact yields_rejected (by omega) h
    exact ⟨_, hrefused.bind_error⟩

/-- A body longer than its kind allows is refused before any of it is read. -/
theorem yields_readFrame_oversized (fromSlice : List UInt8 → Option Control) {kind : FrameKind}
    (hword : bodyLen < 2 ^ 32) (hbound : kind.bound < bodyLen)
    (h : bytes s = header kind bodyLen ++ left) :
    ∃ e, Yields (readFrame fromSlice) s (.error e) left := by
  have hs : bytes s = 0x53 :: (headerRest kind bodyLen ++ left) := h
  obtain ⟨s', hs', hrun⟩ := readFrame_cons fromSlice hs
  unfold Yields
  rw [hrun]
  by_cases hframe : bodyLen ≤ maxFrameBytes
  · -- the header is accepted, and the kind refuses the length
    have hheader := (reads_header kind hframe).whole s' left hs'
    obtain ⟨e, hbody⟩ := yields_readBody_oversized fromSlice hbound hheader.2
    rw [bind_of_ok hheader.1]
    exact ⟨e, hbody.bind_error⟩
  · -- the header itself is refused
    have hfields := (reads_headerFields kind hword).whole s' left hs'
    have hheader : Yields (readHeader [0x53]) s' (.error "native transfer frame is too large")
        left := by
      apply hfields.bind
      intro s'' hs''
      exact yields_rejected hframe hs''
    exact ⟨_, hheader.bind_error⟩

/-! ## Sequences of frames -/

theorem writeFrames_valid (h : ∀ frame ∈ frames, frame.Valid)
    (hshort : ∀ frame ∈ frames, frame.Short) :
    writeFrames frames = .ok (frames.flatMap Frame.text) := by
  have hcollect : collect writeFrame frames = .ok (frames.map Frame.text) := by
    induction frames with
    | nil => rfl
    | cons frame frames ih =>
      have hfirst := writeFrame_eq_ok.mpr ⟨h frame mem_cons_self, hshort frame mem_cons_self, rfl⟩
      have hlater := ih (fun other hother => h other (mem_cons_of_mem frame hother))
        fun other hother => hshort other (mem_cons_of_mem frame hother)
      simp only [collect, bind_eq_ok, pure_eq_ok]
      exact ⟨_, hfirst, _, hlater, rfl⟩
  simp only [writeFrames, bind_eq_ok, pure_eq_ok]
  exact ⟨_, hcollect, (flatMap_def ..).symm⟩

/-- Frames are read as they were written, and then whatever comes after them. -/
theorem yields_readFrames {n : Nat} {later : List (Option Frame)} (hlossless : Lossless fromSlice)
    (hvalid : ∀ frame ∈ frames, frame.Valid) (hshort : ∀ frame ∈ frames, frame.Short)
    (h : bytes s = frames.flatMap Frame.text ++ left)
    (hlater : ∀ s' : σ, bytes s' = left → Yields (readFrames fromSlice n) s' (.ok later) rest) :
    Yields (readFrames fromSlice (frames.length + n)) s (.ok (frames.map some ++ later)) rest := by
  induction frames generalizing s with
  | nil =>
    rw [length_nil, Nat.zero_add]
    exact hlater s h
  | cons frame frames ih =>
    rw [length_cons, Nat.succ_add]
    rw [flatMap_cons, append_assoc] at h
    apply (yields_readFrame hlossless (hvalid frame mem_cons_self) (hshort frame mem_cons_self)
      h).bind
    intro s' hs'
    apply (ih (fun other hother => hvalid other (mem_cons_of_mem frame hother))
      (fun other hother => hshort other (mem_cons_of_mem frame hother)) hs').bind
    intro s'' hs''
    exact ⟨rfl, hs''⟩

/-- **Streams of frames**, for every reader.  Valid frames whose control messages are not too long
    are written and read back, up to a clean end.  An input that ends strictly inside a written
    frame gives the frames before it and then an error.  A header that announces more than its kind
    allows is refused with its body unread. -/
theorem transfer_stream_exact (fromSlice : List UInt8 → Option Control)
    (hlossless : Lossless fromSlice) (frames : List Frame)
    (hvalid : ∀ frame ∈ frames, frame.Valid) (hshort : ∀ frame ∈ frames, frame.Short) :
    ∃ written, writeFrames frames = .ok written ∧
      ∀ (σ : Type) [AsyncRead σ] (s : σ),
        (bytes s = written →
          (readFrames fromSlice (frames.length + 1) s).1 = .ok (frames.map some ++ [none])) ∧
        (∀ frame front rest, writeFrame frame = .ok (front ++ rest) → front ≠ [] → rest ≠ [] →
          bytes s = written ++ front →
          ∃ s', readFrames fromSlice frames.length s = (.ok (frames.map some), s') ∧
            ∃ e, (readFrame fromSlice s').1 = .error e) ∧
        ∀ (kind : FrameKind) (bodyLen : Nat) (body : List UInt8), bodyLen < 2 ^ 32 →
          kind.bound < bodyLen → bytes s = header kind bodyLen ++ body →
          ∃ e s', readFrame fromSlice s = (.error e, s') ∧ bytes s' = body := by
  refine ⟨_, writeFrames_valid hvalid hshort, fun σ _ s => ⟨?_, ?_, ?_⟩⟩
  · intro hs
    have hend : ∀ s' : σ, bytes s' = [] → Yields (readFrames fromSlice 1) s' (.ok [none]) [] :=
      fun s' hs' => (yields_readFrame_end hs').bind fun _ hs'' => ⟨rfl, hs''⟩
    exact (yields_readFrames hlossless hvalid hshort (by rw [hs, append_nil]) hend).1
  · intro frame front rest hwrite hfront hrest hs
    obtain ⟨hframe, hfits, htext⟩ := writeFrame_eq_ok.mp hwrite
    have hread := yields_readFrames (n := 0) hlossless hvalid hshort hs fun s' hs' => ⟨rfl, hs'⟩
    rw [append_nil, Nat.add_zero] at hread
    refine ⟨_, Prod.ext hread.1 rfl, ?_⟩
    have hleft : bytes (readFrames fromSlice frames.length s).2 ≠ [] := by
      rw [hread.2]
      exact hfront
    exact readFrame_cut hlossless hframe hfits hleft hrest (by rw [hread.2, htext])
  · intro kind bodyLen body hword hbound hs
    obtain ⟨e, hyields⟩ := yields_readFrame_oversized fromSlice hword hbound hs
    exact ⟨e, _, Prod.ext hyields.1 rfl, hyields.2⟩

theorem lossless_parse : Lossless controlCodec.parse := fun _ => controlCodec.parse_encode trivial

def hiChunk : DataFrame := ⟨Bytes.zero 16, 0, Sha256.digest [104, 105], [104, 105]⟩

/-- One chunk and the request to commit it. -/
def hiFrames : List Frame := [.data hiChunk, .control .commit]

theorem hiFrames_valid : ∀ frame ∈ hiFrames, frame.Valid := by
  intro frame hframe
  simp only [hiFrames, mem_cons, not_mem_nil, or_false] at hframe
  rcases hframe with rfl | rfl
  · -- the digest is the one of the payload, whatever it is
    simp [Frame.Valid, Frame.validate, DataFrame.validate, DataFrame.endOffset, hiChunk,
      maxChunkBytes]
  · rfl

theorem hiFrames_short : ∀ frame ∈ hiFrames, frame.Short := by
  intro frame hframe
  simp only [hiFrames, mem_cons, not_mem_nil, or_false] at hframe
  rcases hframe with rfl | rfl
  · trivial
  · show (controlCodec.encode .commit).length ≤ maxControlBytes
    decide

/-- The reader that delivers one byte at a time. -/
def byteByByte (text : List UInt8) : Pieces :=
  ⟨text.map fun b => [b], by simp⟩

theorem bytes_byteByByte (text : List UInt8) : bytes (byteByByte text) = text := by
  show (text.map fun b => [b]).flatten = text
  induction text with
  | nil => rfl
  | cons b text ih => rw [map_cons, flatten_cons, ih]; rfl

theorem hi_stream_exact : ∃ written, writeFrames hiFrames = .ok written ∧
    (readFrames controlCodec.parse 3 (byteByByte written)).1 =
      .ok [some (.data hiChunk), some (.control .commit), none] := by
  obtain ⟨written, hwrite, hread⟩ :=
    transfer_stream_exact controlCodec.parse lossless_parse hiFrames hiFrames_valid hiFrames_short
  exact ⟨written, hwrite, (hread Pieces (byteByByte written)).1 (bytes_byteByByte written)⟩

/-! ## Errors that are too long -/

/-- An error whose message has a number of letters. -/
def longError (n : Nat) : Control :=
  .error "transfer_failed" (String.ofList (replicate n 'x')) false

/-- The check of an error looks at its code, and at its message for a NUL only. -/
theorem longError_valid (n : Nat) : (Frame.control (longError n)).Valid := by
  have hcode : ¬¬("transfer_failed" ≠ "" ∧ Text.byteLen "transfer_failed" ≤ maxErrorCodeBytes ∧
      "transfer_failed".toList.all isErrorCodeChar = true) := by decide
  simp only [Frame.Valid, Frame.validate, longError, Control.validate, bind_eq_ok, rejectIf_eq_ok]
  exact ⟨(), hcode, by simp [mem_replicate]⟩

/-- The letters of the message are among the bytes of the JSON, and so is a quotation mark. -/
theorem lt_length_longError (n : Nat) : n < (controlCodec.encode (longError n)).length := by
  have hprintable : (String.ofList (replicate n 'x')).toList.all Text.isPrintable = true := by
    simp [Text.isPrintable]
  have hmessage : Text.byteLen (String.ofList (replicate n 'x')) = n := by
    rw [Text.byteLen_of_isPrintable hprintable, String.toList_ofList, length_replicate]
  have htext := Json.lt_length_text (String.ofList (replicate n 'x'))
  have hpart : (Json.text.encode (String.ofList (replicate n 'x'))).length ≤
      (controlCodec.encode (longError n)).length := by
    simp only [controlCodec, longError, Codec.convert, Codec.tagged, Control.unpack,
      ControlType.fieldsCodec, Codec.seq, Codec.after, length_append]
    omega
  omega

/-- The check accepts an error that is too long for the wire. -/
theorem long_error_refused :
    (Frame.control (longError 65536)).Valid ∧
      writeControl (longError 65536) = .error "native transfer control is too large" := by
  have hvalid : (longError 65536).validate = .ok () := longError_valid 65536
  have hlong : ¬(controlCodec.encode (longError 65536)).length ≤ maxControlBytes :=
    Nat.not_le.mpr (lt_length_longError 65536)
  refine ⟨hvalid, ?_⟩
  simp only [writeControl, hvalid, rejectIf, if_pos hlong]
  rfl

end Serctl.Transfer
