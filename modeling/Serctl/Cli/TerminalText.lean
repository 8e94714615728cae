import Serctl.Lib.Wire

/-!
# Terminal text

The shell pane shows what is left of a terminal's output without its escape sequences.  The filter
works on bytes: a backspace takes the last byte back, and one byte ends a short escape sequence.
-/

namespace Serctl.Cli

open Lib List

/-- What the filter has seen of an escape sequence. -/
inductive State where
  /-- Nothing: the bytes are shown. -/
  | text
  /-- The escape character. -/
  | escape
  /-- A control sequence, up to its last byte. -/
  | csi
  /-- A command to the operating system, up to the bell or the string terminator. -/
  | osc
  /-- In such a command, the first character of the string terminator. -/
  | oscEscape
  deriving DecidableEq, Repr

/-- The state and the output after one more byte. -/
def step : State × List UInt8 → UInt8 → State × List UInt8
  | (.text, output), byte =>
    if byte = 0x1b then (.escape, output)
    else if byte = 0x08 then (.text, output.dropLast)
    else if byte = 0x0d then (.text, output)
    else if byte = 0x0a ∨ byte = 0x09 ∨ 0x20 ≤ byte then (.text, output ++ [byte])
    else (.text, output)
  | (.escape, output), byte =>
    (if byte = 0x5b then .csi else if byte = 0x5d then .osc else .text, output)
  | (.csi, output), byte => (if 0x40 ≤ byte ∧ byte ≤ 0x7e then .text else .csi, output)
  | (.osc, output), byte =>
    (if byte = 0x07 then .text else if byte = 0x1b then .oscEscape else .osc, output)
  | (.oscEscape, output), byte => (if byte = 0x5c then .text else .osc, output)

/-- The decoder that replaces what is not UTF-8, and keeps what is. -/
structure FromUtf8Lossy where
  decode : List UInt8 → String
  decode_utf8Bytes (s : String) : decode (Text.utf8Bytes s) = s

/-- What the pane shows of some output. -/
def terminalText (lossy : FromUtf8Lossy) (input : List UInt8) : String :=
  lossy.decode (input.foldl step (.text, [])).2

/-! ## The decoder of the standard library -/

/-- The bytes that may come second in a character of three or four bytes. -/
def secondBytes (first : UInt8) : Option (UInt8 × UInt8) :=
  if first = 0xe0 then some (0xa0, 0xbf)
  else if first = 0xed then some (0x80, 0x9f)
  else if 0xe1 ≤ first ∧ first ≤ 0xef then some (0x80, 0xbf)
  else if first = 0xf0 then some (0x90, 0xbf)
  else if first = 0xf4 then some (0x80, 0x8f)
  else if 0xf1 ≤ first ∧ first ≤ 0xf3 then some (0x80, 0xbf)
  else none

/-- How many bytes one replacement stands for, where no character starts: as many as a character
    could have started with. -/
def brokenLength (first : UInt8) (rest : List UInt8) : Nat :=
  match secondBytes first, rest with
  | some (low, high), second :: rest =>
    if low ≤ second ∧ second ≤ high then
      if 0xf0 ≤ first ∧ rest.head?.any (fun third => 0x80 ≤ third ∧ third ≤ 0xbf) then 3 else 2
    else 1
  | _, _ => 1

/-- The characters of the bytes, of which there are at most as many as the first argument says. -/
def decodeLossy : Nat → List UInt8 → List Char
  | 0, _ => []
  | _, [] => []
  | n + 1, first :: rest =>
    match (first :: rest).toByteArray.utf8DecodeChar? 0 with
    | some c => c :: decodeLossy n ((first :: rest).drop c.utf8Size)
    | none => '\ufffd' :: decodeLossy n ((first :: rest).drop (brokenLength first rest))

/-- Characters are read back. -/
theorem decodeLossy_flatMap (t : List Char) :
    ∀ n, (t.flatMap String.utf8EncodeChar).length ≤ n →
      decodeLossy n (t.flatMap String.utf8EncodeChar) = t := by
  induction t with
  | nil =>
    intro n _
    cases n <;> rfl
  | cons c t ih =>
    intro n hn
    have hlength := String.length_utf8EncodeChar c
    have hpos := c.utf8Size_pos
    rw [flatMap_cons] at hn ⊢
    have hread : ByteArray.utf8DecodeChar?
        (String.utf8EncodeChar c ++ t.flatMap String.utf8EncodeChar).toByteArray 0 = some c := by
      rw [toByteArray_append]
      exact ByteArray.utf8DecodeChar?_utf8EncodeChar_append
    have hrest : (String.utf8EncodeChar c ++ t.flatMap String.utf8EncodeChar).drop c.utf8Size =
        t.flatMap String.utf8EncodeChar := by
      rw [← hlength, drop_left]
    rw [length_append, hlength] at hn
    cases hbytes : String.utf8EncodeChar c ++ t.flatMap String.utf8EncodeChar with
    | nil =>
      have hnone := congrArg length hbytes
      rw [length_append, hlength, length_nil] at hnone
      omega
    | cons first rest =>
      rw [hbytes] at hread hrest
      obtain ⟨n, rfl⟩ : ∃ m, n = m + 1 := ⟨n - 1, by omega⟩
      simp only [decodeLossy, hread, hrest]
      rw [ih n (by omega)]

/-- `String::from_utf8_lossy`. -/
def fromUtf8Lossy : FromUtf8Lossy where
  decode bytes := String.ofList (decodeLossy bytes.length bytes)
  decode_utf8Bytes s := by
    rw [Text.utf8Bytes, decodeLossy_flatMap s.toList _ le_rfl, String.ofList_toList]

/-! ## Whole characters -/

/-- The bytes of some characters. -/
def utf8 (t : List Char) : List UInt8 := t.flatMap String.utf8EncodeChar

/-- The state and the output after some text. -/
def after (t : List Char) : State × List UInt8 := (utf8 t).foldl step (.text, [])

/-- A backspace takes the last character back, if there is one. -/
def Erases (t : List Char) : Prop :=
  ∀ u, u ++ ['\x08'] <+: t → (after u).1 = .text →
    ∃ kept, (after u).2 = utf8 kept ∧ (after (u ++ ['\x08'])).2 = utf8 kept.dropLast

/-- What is kept of a text is made of whole characters of it, at each backspace too. -/
structure Faithful (t : List Char) : Prop where
  shown : ∃ kept, kept.Sublist t ∧ (after t).2 = utf8 kept
  erases : Erases t

/-- A character is cut in two: a backspace meets the last byte of a longer character, or an escape
    sequence ends with the first byte of one. -/
def Slips (t : List Char) (c : Char) : Prop :=
  (after t).1 = .text ∧ c = '\x08' ∧ (∃ b ∈ (after t).2.getLast?, 0x80 ≤ b) ∨
    (after t).1 = .escape ∧ 0x80 ≤ c.toNat

/-- No character of the text slips through. -/
def Plain (t : List Char) : Prop := ∀ u c, u ++ [c] <+: t → ¬ Slips u c

variable {s : State} {output : List UInt8} {c : Char} {t u v kept : List Char}

theorem utf8_append : utf8 (t ++ u) = utf8 t ++ utf8 u := flatMap_append

/-- A byte in the middle of a character. -/
def IsContinuation (b : UInt8) : Prop := 0x80 ≤ b ∧ b < 0xc0

/-- A character is one ASCII byte, or a leading byte and its continuation. -/
theorem utf8_char_cases (c : Char) :
    c.toNat < 0x80 ∧ (∃ b, utf8 [c] = [b] ∧ b.toNat = c.toNat) ∨
    0x80 ≤ c.toNat ∧ (∀ x ∈ utf8 [c], 0x80 ≤ x) ∧
      ∃ lead b rest, utf8 [c] = lead :: b :: rest ∧ 0xc0 ≤ lead ∧ IsContinuation b := by
  have hle (m n : Nat) (h : m ≤ n) (hn : n < 256) : UInt8.ofNat m ≤ UInt8.ofNat n :=
    (UInt8.ofNat_le_iff_le (h.trans_lt hn) hn).mpr h
  have hcont (n : Nat) : IsContinuation (UInt8.ofNat (n % 0x40 + 0x80)) :=
    ⟨hle 0x80 _ (by omega) (by omega),
      UInt8.lt_of_le_of_lt (hle (n % 0x40 + 0x80) 0xbf (by omega) (by omega)) (by decide)⟩
  simp only [utf8, flatMap_singleton, String.utf8EncodeChar]
  split
  · exact .inl ⟨Nat.lt_succ_of_le ‹_›, _, rfl, Nat.mod_eq_of_lt (show _ < 2 ^ 8 by omega)⟩
  · refine .inr ⟨Nat.lt_of_not_le ‹_›, ?_⟩
    split_ifs <;>
      refine ⟨?_, _, _, _, rfl, hle 0xc0 _ (by omega) (by omega), hcont _⟩ <;>
      simp only [forall_mem_cons, (hcont _).1, true_and] <;>
      exact ⟨hle 0x80 _ (by omega) (by omega), forall_mem_nil _⟩

theorem after_append : after (u ++ [c]) = (utf8 [c]).foldl step (after u) := by
  rw [after, utf8_append, foldl_append, after]

/-- The bytes of a longer character are kept in text, and the first of them ends an escape. -/
theorem foldl_high {bytes : List UInt8} (h : ∀ x ∈ bytes, 0x80 ≤ x) :
    (bytes.foldl step (s, output)).2 =
      match s with
      | .text => output ++ bytes
      | .escape => output ++ bytes.tail
      | _ => output := by
  induction bytes generalizing s output with
  | nil => cases s <;> simp
  | cons b bytes ih =>
    obtain ⟨hb, hrest⟩ := forall_mem_cons.mp h
    have hne : b ≠ 0x1b ∧ b ≠ 0x08 ∧ b ≠ 0x0d ∧ 0x20 ≤ b ∧ b ≠ 0x5b ∧ b ≠ 0x5d ∧ ¬ b ≤ 0x7e ∧
        b ≠ 0x07 ∧ b ≠ 0x5c := by grind
    rw [foldl_cons]
    cases s <;> simp [step, hne, ih hrest]

/-- **A character** is dropped, takes back, is kept, or ends an escape sequence too early. -/
theorem after_cases (u : List Char) (c : Char) :
    (after (u ++ [c])).2 = (after u).2 ∨
    ((after u).1 = .text ∧ c = '\x08') ∧ (after (u ++ [c])).2 = (after u).2.dropLast ∨
    (after (u ++ [c])).2 = (after u).2 ++ utf8 [c] ∨
    (after u).1 = .escape ∧ 0x80 ≤ c.toNat := by
  rw [after_append]
  obtain ⟨s, output⟩ := after u
  obtain ⟨-, b, henc, hb⟩ | ⟨hc, hhigh, -⟩ := utf8_char_cases c
  · rw [henc, foldl_cons, foldl_nil]
    cases s with
    | text =>
      have hback : b = 8 → c = '\x08' := fun h => Char.toNat_inj.mp (by rw [← hb, h]; rfl)
      grind [step]
    | escape | csi | osc | oscEscape => exact .inl rfl
  · rw [foldl_high hhigh]
    cases s with
    | text => exact .inr (.inr (.inl rfl))
    | escape => exact .inr (.inr (.inr ⟨rfl, hc⟩))
    | csi | osc | oscEscape => exact .inl rfl

theorem after_backspace (h : (after u).1 = .text) :
    (after (u ++ ['\x08'])).2 = (after u).2.dropLast := by
  rw [after_append, ← Prod.eta (after u), h]
  rfl

/-- The last byte is the last character exactly where it is ASCII. -/
theorem dropLast_utf8 : (utf8 kept).dropLast = utf8 kept.dropLast ↔
    ∀ b ∈ (utf8 kept).getLast?, b < 0x80 := by
  induction kept using reverseRecOn with
  | nil => simp [utf8]
  | append_singleton kept c =>
    rw [utf8_append, dropLast_concat]
    obtain ⟨hc, b, henc, hb⟩ | ⟨-, hhigh, lead, b, rest, henc, -⟩ := utf8_char_cases c
    · have hlt : b < 0x80 := UInt8.lt_iff_toNat_lt.mpr (hb ▸ hc)
      simp [henc, hlt]
    · constructor
      · intro h
        have hlength := congrArg length h
        simp [henc] at hlength
      · intro h
        have hne : utf8 [c] ≠ [] := by simp [henc]
        refine absurd (h _ ?_) (UInt8.not_lt.mpr (hhigh _ (getLast_mem hne)))
        simp [getLast?_eq_some_getLast hne]

theorem dropLast_of_not_slips (hslips : ¬ Slips u '\x08') (htext : (after u).1 = .text)
    (hkept : (after u).2 = utf8 kept) : (after u).2.dropLast = utf8 kept.dropLast := by
  rw [hkept, dropLast_utf8, ← hkept]
  intro b hb
  by_contra hlt
  exact hslips (.inl ⟨htext, rfl, b, hb, UInt8.not_lt.mp hlt⟩)

/-- Whole characters, and then a byte from the middle of one. -/
def Stuck (output : List UInt8) : Prop :=
  ∃ kept b rest, output = utf8 kept ++ b :: rest ∧ IsContinuation b

theorem Stuck.append {more : List UInt8} : Stuck output → Stuck (output ++ more)
  | ⟨kept, b, rest, houtput, hb⟩ => ⟨kept, b, rest ++ more, by simp [houtput], hb⟩

/-- No more bytes make that UTF-8. -/
theorem Stuck.ne_utf8 (h : Stuck output) : output ≠ utf8 t := by
  rintro rfl
  obtain ⟨kept, b, rest, houtput, hb⟩ := h
  have hbytes : kept.utf8Encode ++ (b :: rest).toByteArray = t.utf8Encode := by
    simp only [utf8Encode, ← toByteArray_append]
    exact congrArg _ houtput.symm
  obtain ⟨more, rfl⟩ := isPrefix_of_utf8Encode_append_eq_utf8Encode _ hbytes
  rw [utf8_append, append_cancel_left_eq] at houtput
  cases more with
  | nil => cases houtput
  | cons c more =>
    rw [← singleton_append, utf8_append] at houtput
    obtain ⟨hc, b', henc, hb'⟩ | ⟨-, -, lead, b', rest', henc, hlead, -⟩ :=
      utf8_char_cases c
    · have hlt : b' < 0x80 := UInt8.lt_iff_toNat_lt.mpr (hb' ▸ hc)
      grind [IsContinuation]
    · grind [IsContinuation]

/-- An escape sequence that ends within a character keeps the rest of the character. -/
theorem after_cut (hescape : (after u).1 = .escape) (hc : 0x80 ≤ c.toNat) :
    ∃ b rest, (after (u ++ [c])).2 = (after u).2 ++ b :: rest ∧ IsContinuation b := by
  obtain ⟨hlt, -⟩ | ⟨-, hhigh, lead, b, rest, henc, -, hb⟩ := utf8_char_cases c
  · omega
  · refine ⟨b, rest, ?_, hb⟩
    rw [after_append, ← Prod.eta (after u), hescape, foldl_high hhigh, henc]
    rfl

/-- Only a backspace that is not faithful would repair the output. -/
theorem Erases.stuck (h : Erases (u ++ v)) (hstuck : Stuck (after u).2) :
    Stuck (after (u ++ v)).2 := by
  induction v using reverseRecOn with
  | nil => simpa using hstuck
  | append_singleton v c ih =>
    rw [← append_assoc] at h ⊢
    have hv := ih fun w hw => h w (hw.trans (prefix_append ..))
    obtain hsame | ⟨⟨htext, rfl⟩, -⟩ | hmore | ⟨hescape, hc⟩ := after_cases (u ++ v) c
    · rwa [hsame]
    · obtain ⟨kept, hkept, -⟩ := h _ prefix_rfl htext
      exact absurd hkept hv.ne_utf8
    · rw [hmore]
      exact hv.append
    · obtain ⟨b, rest, hcut, -⟩ := after_cut hescape hc
      rw [hcut]
      exact hv.append

/-! ## Where characters stay whole -/

theorem Plain.mono (h : Plain t) (hu : u <+: t) : Plain u := fun w c hw => h w c (hw.trans hu)

theorem Plain.shown (h : Plain t) : ∃ kept, kept.Sublist t ∧ (after t).2 = utf8 kept := by
  induction t using reverseRecOn with
  | nil => exact ⟨[], .refl _, rfl⟩
  | append_singleton u c ih =>
    obtain ⟨kept, hsub, hkept⟩ := ih (h.mono (prefix_append ..))
    have hsub' := hsub.trans (sublist_append_left u [c])
    have hslips := h u c prefix_rfl
    obtain hsame | ⟨⟨htext, rfl⟩, hlast⟩ | hmore | hescape := after_cases u c
    · exact ⟨kept, hsub', hsame.trans hkept⟩
    · refine ⟨kept.dropLast, (dropLast_sublist kept).trans hsub', ?_⟩
      rw [hlast, dropLast_of_not_slips hslips htext hkept]
    · exact ⟨kept ++ [c], hsub.append_right [c], by rw [hmore, hkept, utf8_append]⟩
    · exact absurd (.inr hescape) hslips

theorem Plain.faithful (h : Plain t) : Faithful t := by
  refine ⟨h.shown, fun u hu htext => ?_⟩
  obtain ⟨kept, -, hkept⟩ := (h.mono ((prefix_append ..).trans hu)).shown
  refine ⟨kept, hkept, ?_⟩
  rw [after_backspace htext, dropLast_of_not_slips (h u _ hu) htext hkept]

theorem Faithful.plain (h : Faithful t) : Plain t := by
  have hprefix : ∀ u, u <+: t → Plain u := by
    intro u
    induction u using reverseRecOn with
    | nil => simp [Plain]
    | append_singleton u c ih =>
      intro hu w d hw
      obtain heq | hw' := prefix_concat_iff.mp hw
      · obtain ⟨rfl, hd⟩ := append_inj' heq rfl
        cases hd
        rintro (⟨htext, rfl, b, hb, hhigh⟩ | ⟨hescape, hc⟩)
        · obtain ⟨kept, hkept, hlast⟩ := h.erases w hu htext
          rw [after_backspace htext, hkept, dropLast_utf8] at hlast
          grind
        · obtain ⟨kept, -, hkept⟩ := (ih ((prefix_append ..).trans hu)).shown
          obtain ⟨b, rest, hcut, hb⟩ := after_cut hescape hc
          obtain ⟨v, rfl⟩ := hu
          obtain ⟨kept', -, hkept'⟩ := h.shown
          exact (h.erases.stuck ⟨kept, b, rest, hkept ▸ hcut, hb⟩).ne_utf8 hkept'
      · exact ih ((prefix_append ..).trans hu) w d hw'
  exact hprefix t prefix_rfl

/-- **Characters stay whole** exactly where none slips, and then the pane shows characters of the
    input only. -/
theorem faithful_iff_plain (lossy : FromUtf8Lossy) (t : List Char) :
    (Faithful t ↔ Plain t) ∧ (Plain t → (terminalText lossy (utf8 t)).toList.Sublist t) := by
  refine ⟨⟨Faithful.plain, Plain.faithful⟩, fun h => ?_⟩
  obtain ⟨kept, hsub, hkept⟩ := h.shown
  have hshown := lossy.decode_utf8Bytes (String.ofList kept)
  simp only [Text.utf8Bytes, String.toList_ofList] at hshown
  rw [terminalText, ← after, hkept, utf8, hshown, String.toList_ofList]
  exact hsub

/-- A backspace after a character of two bytes leaves the first of them. -/
theorem backspace_leaves_a_byte :
    (after ['é', '\x08']).2 = [0xc3] ∧ ¬ Faithful ['é', '\x08'] :=
  ⟨by decide, fun h => h.plain ['é'] '\x08' ⟨[], rfl⟩ (.inl ⟨by decide, rfl, 0xa9, by decide⟩)⟩

example : (terminalText fromUtf8Lossy (utf8 ['a', 'é', '\x08'])).toList = ['a', '\ufffd'] := by
  decide +kernel

end Serctl.Cli
