import Mathlib.Data.List.Nodup
import Serctl.Ipc.Frame

/-!
# Sealed frames

After the handshake both ends of a connection seal what they send and open what they receive, one
frame at a time: a frame is sealed under the key of its direction, with a nonce made of the
direction and a counter.  The halves of a stream share one state and take turns on it, so an end
goes through calls of both kinds in any order.  It stops after the first call that fails; here it
may go on.

The keys are any keys, also if the handshake should derive the same one for both directions.
-/

namespace Serctl.Ipc

open Lib Lib.Guard List

/-! ## Frames -/

def directionC2d : UInt8 := 0
def directionD2c : UInt8 := 1
def v6MaxDataFrame : Nat := 64 * 1024 * 1024
def v6AeadTagBytes : Nat := 16
def v6MaxPlaintextFrame : Nat := v6MaxDataFrame - v6AeadTagBytes

/-- A frame is not too long. -/
def validatePlaintextFrameLen (len : Nat) : Except Error Unit :=
  ensure (len ≤ v6MaxPlaintextFrame) "IPC v6 plaintext frame exceeds its size cap"

/-- A sealed frame is neither too short nor too long. -/
def validateCiphertextFrameLen (len : Nat) : Except Error Unit :=
  ensure (v6AeadTagBytes ≤ len ∧ len ≤ v6MaxDataFrame)
    "IPC v6 encrypted data frame length is invalid"

/-- The nonce of a frame. -/
def frameNonce (direction : UInt8) (counter : UInt64) : List UInt8 :=
  [direction, 0, 0, 0] ++ (Bytes.beBytes 8 counter.toNat).val

/-- What is authenticated with a frame. -/
def frameAad (version : UInt16) (instanceId : Bytes 16) (direction : UInt8) (ciphertextLen : Nat) :
    List UInt8 :=
  Text.utf8Bytes "serctl/ipc/v6/frame/v1" ++ 0 :: (Bytes.beBytes 2 version.toNat).val ++
    instanceId.val ++ direction :: (Bytes.beBytes 4 ciphertextLen).val

/-- The cipher, which may fail.  A ciphertext is its plaintext's length and a tag long. -/
structure Aead where
  encrypt : Bytes 32 → (nonce aad plaintext : List UInt8) → Option (List UInt8)
  decrypt : Bytes 32 → (nonce aad ciphertext : List UInt8) → Option (List UInt8)
  length_encrypt : ∀ {key nonce aad plaintext ciphertext},
    encrypt key nonce aad plaintext = some ciphertext →
      ciphertext.length = plaintext.length + v6AeadTagBytes

/-- The key of one direction, and how many frames were sealed under it. -/
structure DirectionCipher where
  key : Bytes 32
  sendCounter : UInt64

/-- The state of one end of a session. -/
structure SharedV6State where
  version : UInt16
  instanceId : Bytes 16
  c2d : DirectionCipher
  d2c : DirectionCipher
  c2dRecvCounter : UInt64
  d2cRecvCounter : UInt64

/-- What a key has sealed. -/
structure Seal where
  key : Bytes 32
  nonce : List UInt8
  ciphertext : List UInt8

namespace SharedV6State

/-- What there is for each direction. -/
def forDirection {α : Type} (direction : UInt8) (c2d d2c : α) : Except Error α :=
  if direction = directionC2d then .ok c2d
  else if direction = directionD2c then .ok d2c
  else .error (.msg ("unknown IPC v6 frame direction " ++ toString direction.toNat))

/-- The cipher of a direction. -/
def cipher (st : SharedV6State) (direction : UInt8) : Except Error DirectionCipher :=
  forDirection direction st.c2d st.d2c

/-- The state with another counter. -/
def setSendCounter (st : SharedV6State) (direction : UInt8) (counter : UInt64) : SharedV6State :=
  if direction = directionC2d then { st with c2d.sendCounter := counter }
  else { st with d2c.sendCounter := counter }

/-- The checks before a frame is sealed: the cipher and the counter after this one. -/
def nextSend (st : SharedV6State) (direction : UInt8) (len : Nat) :
    Except Error (DirectionCipher × UInt64) := do
  validatePlaintextFrameLen len
  let cipher ← st.cipher direction
  ensure (cipher.sendCounter.toNat + 1 < 2 ^ 64) "IPC v6 frame counter overflow"
  rejectIf (2 ^ 32 ≤ len + v6AeadTagBytes)
    (Failure.context (.msg "out of range integral type conversion attempted")
      "IPC v6 frame exceeds the wire length limit")
  return (cipher, cipher.sendCounter + 1)

/-- The result, the state afterwards, and what was sealed. -/
def encryptFrame (a : Aead) (st : SharedV6State) (direction : UInt8) (plaintext : List UInt8) :
    Except Error (List UInt8) × SharedV6State × List Seal :=
  match st.nextSend direction plaintext.length with
  | .error e => (.error e, st, [])
  | .ok (cipher, next) =>
    let nonce := frameNonce direction cipher.sendCounter
    let aad := frameAad st.version st.instanceId direction (plaintext.length + v6AeadTagBytes)
    match a.encrypt cipher.key nonce aad plaintext with
    | none => (.error (.msg "IPC v6 frame encryption failed"), st, [])
    | some ciphertext =>
      match validateCiphertextFrameLen ciphertext.length with
      | .error e => (.error e, st, [⟨cipher.key, nonce, ciphertext⟩])
      | .ok _ =>
        (.ok ciphertext, st.setSendCounter direction next, [⟨cipher.key, nonce, ciphertext⟩])

/-- Open a frame. -/
def decryptFrame (a : Aead) (st : SharedV6State) (direction : UInt8) (ciphertext : List UInt8)
    (expectedCounter : UInt64) : Except Error (List UInt8) := do
  validateCiphertextFrameLen ciphertext.length
  let cipher ← st.cipher direction
  orBail (a.decrypt cipher.key (frameNonce direction expectedCounter)
    (frameAad st.version st.instanceId direction ciphertext.length) ciphertext)
    "IPC v6 frame authentication failed"

/-- The counter that the next frame must have, and the state afterwards. -/
def expectNextCounter (st : SharedV6State) (direction : UInt8) :
    Except Error (UInt64 × SharedV6State) := do
  let expected ← forDirection direction st.c2dRecvCounter st.d2cRecvCounter
  ensure (expected.toNat + 1 < 2 ^ 64) "IPC v6 receive counter overflow"
  return (expected, if direction = directionC2d then { st with c2dRecvCounter := expected + 1 }
    else { st with d2cRecvCounter := expected + 1 })

theorem cipher_setSendCounter {st : SharedV6State} {direction : UInt8} {cipher : DirectionCipher}
    (h : st.cipher direction = .ok cipher) (counter : UInt64) :
    (st.setSendCounter direction counter).cipher direction = .ok ⟨cipher.key, counter⟩ := by
  simp only [SharedV6State.cipher, forDirection] at h
  split at h
  · rename_i hdirection
    cases h
    simp [setSendCounter, SharedV6State.cipher, forDirection, hdirection]
  · rename_i hdirection
    split at h
    · cases h
      simp_all [setSendCounter, SharedV6State.cipher, forDirection]
    · cases h

/-- Receiving does not change what is sent with. -/
theorem cipher_expectNextCounter {st st' : SharedV6State} {direction : UInt8} {expected : UInt64}
    (h : st.expectNextCounter direction = .ok (expected, st')) (d : UInt8) :
    st'.cipher d = st.cipher d := by
  simp only [expectNextCounter, bind_eq_ok, pure_eq_ok, Prod.mk.injEq] at h
  obtain ⟨_, -, _, -, rfl, rfl⟩ := h
  split <;> rfl

/-- What the calls on a session leave as it is: all but the counters. -/
def session (st : SharedV6State) : UInt16 × Bytes 16 × Bytes 32 × Bytes 32 :=
  (st.version, st.instanceId, st.c2d.key, st.d2c.key)

theorem session_setSendCounter (st : SharedV6State) (direction : UInt8) (counter : UInt64) :
    (st.setSendCounter direction counter).session = st.session := by
  unfold setSendCounter
  split <;> rfl

theorem session_expectNextCounter {st st' : SharedV6State} {direction : UInt8} {expected : UInt64}
    (h : st.expectNextCounter direction = .ok (expected, st')) : st'.session = st.session := by
  simp only [expectNextCounter, bind_eq_ok, pure_eq_ok, Prod.mk.injEq] at h
  obtain ⟨_, -, _, -, rfl, rfl⟩ := h
  split <;> rfl

/-- A frame is opened with what the session is about, and nothing else. -/
theorem decryptFrame_of_session {st st' : SharedV6State} (h : st.session = st'.session) (a : Aead)
    (direction : UInt8) (ciphertext : List UInt8) (counter : UInt64) :
    st.decryptFrame a direction ciphertext counter =
      st'.decryptFrame a direction ciphertext counter := by
  obtain ⟨hversion, hid, hc2d, hd2c⟩ : st.version = st'.version ∧ st.instanceId = st'.instanceId ∧
      st.c2d.key = st'.c2d.key ∧ st.d2c.key = st'.d2c.key := by
    simpa [session] using h
  simp only [decryptFrame, SharedV6State.cipher, forDirection, hversion, hid]
  split
  · simp [bind, Except.bind, hc2d]
  · split
    · simp [bind, Except.bind, hd2c]
    · rfl

/-- **Sealing.**  Either the frame is sealed under the counter of its direction, which goes up by
    one and does not overflow, or nothing happens at all. -/
theorem encryptFrame_cases (a : Aead) (st : SharedV6State) (direction : UInt8)
    (plaintext : List UInt8) :
    (∃ cipher ciphertext, st.cipher direction = .ok cipher ∧
      cipher.sendCounter.toNat + 1 < 2 ^ 64 ∧
      st.encryptFrame a direction plaintext = (.ok ciphertext,
        st.setSendCounter direction (cipher.sendCounter + 1),
        [⟨cipher.key, frameNonce direction cipher.sendCounter, ciphertext⟩])) ∨
    ∃ e, st.encryptFrame a direction plaintext = (.error e, st, []) := by
  unfold encryptFrame
  split
  · exact .inr ⟨_, rfl⟩
  · rename_i cipher next hnext
    simp only [nextSend, validatePlaintextFrameLen, bind_eq_ok, ensure_eq_ok, rejectIf_eq_ok,
      pure_eq_ok, Prod.mk.injEq] at hnext
    obtain ⟨_, hlength, found, hcipher, _, hcounter, _, -, rfl, rfl⟩ := hnext
    dsimp only
    split
    · exact .inr ⟨_, rfl⟩
    · rename_i ciphertext hencrypt
      -- the plaintext was short enough for what the cipher makes of it
      have hvalid : validateCiphertextFrameLen ciphertext.length = .ok () := by
        have hlength' := a.length_encrypt hencrypt
        apply ensure_eq_ok.mpr
        simp only [v6MaxPlaintextFrame, v6MaxDataFrame, v6AeadTagBytes] at hlength hlength' ⊢
        omega
      rw [hvalid]
      exact .inl ⟨found, ciphertext, hcipher, hcounter, rfl⟩

/-- The last value of the counter is not used. -/
theorem encryptFrame_exhausted (a : Aead) {st : SharedV6State} {direction : UInt8}
    {plaintext : List UInt8} {cipher : DirectionCipher} (hcipher : st.cipher direction = .ok cipher)
    (hlast : cipher.sendCounter.toNat + 1 = 2 ^ 64)
    (hlength : plaintext.length ≤ v6MaxPlaintextFrame) :
    st.encryptFrame a direction plaintext =
      (.error (.msg "IPC v6 frame counter overflow"), st, []) := by
  have hnext : st.nextSend direction plaintext.length =
      .error (.msg "IPC v6 frame counter overflow") := by
    simp [nextSend, validatePlaintextFrameLen, ensure, rejectIf, hcipher, hlast, hlength, bind,
      Except.bind]
  simp [encryptFrame, hnext]

end SharedV6State

/-! ## Both ends -/

/-- The counters give different nonces, and so do the directions. -/
theorem frameNonce_injective {d d' : UInt8} {m n : Nat} (hm : m < 2 ^ 64) (hn : n < 2 ^ 64)
    (h : frameNonce d (UInt64.ofNat m) = frameNonce d' (UInt64.ofNat n)) : d = d' ∧ m = n := by
  simp only [frameNonce, cons_append, nil_append, List.cons.injEq, true_and,
    UInt64.toNat_ofNat_of_lt' hm, UInt64.toNat_ofNat_of_lt' hn] at h
  exact ⟨h.1, Bytes.beBytes_injective hm hn (Subtype.ext h.2)⟩

/-- What an end does with its state.  The cipher may fail in any call. -/
inductive Call where
  | send (a : Aead) (plaintext : List UInt8)
  | receive (a : Aead) (ciphertext : List UInt8)

/-- One end of a connection. -/
structure V6End where
  sends : UInt8
  receives : UInt8
  state : SharedV6State
  /-- Everything that was sealed so far. -/
  sealed : List Seal := []
  /-- The frames for the transport so far. -/
  wire : List (List UInt8) := []
  /-- What came of the frames from the transport. -/
  opened : List (Except Error (List UInt8)) := []

namespace V6End

/-- The client after the handshake. -/
def client (version : UInt16) (instanceId : Bytes 16) (c2d d2c : Bytes 32) : V6End :=
  ⟨directionC2d, directionD2c, ⟨version, instanceId, ⟨c2d, 0⟩, ⟨d2c, 0⟩, 0, 0⟩, [], [], []⟩

/-- The daemon after the handshake. -/
def server (version : UInt16) (instanceId : Bytes 16) (c2d d2c : Bytes 32) : V6End :=
  ⟨directionD2c, directionC2d, ⟨version, instanceId, ⟨c2d, 0⟩, ⟨d2c, 0⟩, 0, 0⟩, [], [], []⟩

/-- One call. -/
def step (e : V6End) : Call → V6End
  | .send a plaintext => match e.state.encryptFrame a e.sends plaintext with
    | (.ok frame, st, seals) =>
      { e with state := st, sealed := e.sealed ++ seals, wire := e.wire ++ [frame] }
    | (.error _, st, seals) => { e with state := st, sealed := e.sealed ++ seals }
  | .receive a ciphertext => match e.state.expectNextCounter e.receives with
    | .ok (counter, st) =>
      { e with state := st, opened := e.opened ++
        [st.decryptFrame a e.receives ciphertext counter] }
    | .error _ => e

/-- Calls one after the other. -/
def run (e : V6End) (calls : List Call) : V6End := calls.foldl step e

/-- The frames on the wire are those that were sealed, under the counters from zero on. -/
structure InOrder (key : Bytes 32) (direction : UInt8) (e : V6End) : Prop where
  sends : e.sends = direction
  wire : e.wire = e.sealed.map (·.ciphertext)
  counters : ∃ counter, e.state.cipher direction = .ok ⟨key, counter⟩ ∧
    e.sealed.map (fun s => (s.key, s.nonce)) =
      (List.range counter.toNat).map fun k => (key, frameNonce direction (UInt64.ofNat k))

variable {key : Bytes 32} {direction : UInt8} {e : V6End}

/-- **One call** keeps the order. -/
theorem InOrder.step (h : InOrder key direction e) (call : Call) :
    InOrder key direction (e.step call) := by
  obtain ⟨rfl, hwire, counter, hcipher, hsealed⟩ := h
  cases call with
  | send a plaintext =>
    rcases e.state.encryptFrame_cases a e.sends plaintext with
      ⟨cipher, ciphertext, hfound, hcounter, hseal⟩ | ⟨err, hseal⟩
    · rw [hcipher] at hfound
      cases hfound
      have hnext : (counter + 1).toNat = counter.toNat + 1 := by
        rw [UInt64.toNat_add]
        exact Nat.mod_eq_of_lt hcounter
      simp only [V6End.step, hseal]
      refine ⟨rfl, by simp [hwire], _, SharedV6State.cipher_setSendCounter hcipher _, ?_⟩
      simp [hsealed, hnext, range_succ]
    · simp only [V6End.step, hseal, append_nil]
      exact ⟨rfl, hwire, counter, hcipher, hsealed⟩
  | receive a ciphertext =>
    simp only [V6End.step]
    split
    · rename_i expected st hexpected
      refine ⟨rfl, hwire, counter, ?_, hsealed⟩
      rw [← hcipher]
      exact SharedV6State.cipher_expectNextCounter hexpected _
    · exact ⟨rfl, hwire, counter, hcipher, hsealed⟩

theorem InOrder.run (calls : List Call) :
    ∀ {e : V6End}, InOrder key direction e → InOrder key direction (e.run calls) := by
  induction calls with
  | nil => exact fun h => h
  | cons call calls ih => exact fun h => ih (h.step call)

/-- The nonces under one key. -/
theorem InOrder.nodup (h : InOrder key direction e) :
    (e.sealed.map fun s => (s.key, s.nonce)).Nodup := by
  obtain ⟨-, -, counter, -, hsealed⟩ := h
  rw [hsealed]
  refine Nodup.map_on (fun m hm n hn hnonce => ?_) nodup_range
  have hbound := counter.toNat_lt
  rw [mem_range] at hm hn
  exact (frameNonce_injective (by omega) (by omega) (Prod.mk.inj hnonce).2).2

theorem InOrder.direction_of_mem (h : InOrder key direction e) {s : Seal} (hs : s ∈ e.sealed) :
    ∃ n < 2 ^ 64, s.nonce = frameNonce direction (UInt64.ofNat n) := by
  obtain ⟨-, -, counter, -, hsealed⟩ := h
  have hmem : (s.key, s.nonce) ∈ e.sealed.map fun s => (s.key, s.nonce) := mem_map_of_mem hs
  rw [hsealed] at hmem
  obtain ⟨n, hn, heq⟩ := mem_map.mp hmem
  have hbound := counter.toNat_lt
  exact ⟨n, by rw [mem_range] at hn; omega, (Prod.mk.inj heq).2.symm⟩

/-- **No key is used with the same nonce twice**, by one end or by both.  Each end numbers its
    frames from zero on, a frame that is not sealed leaves everything as it was, and the counter
    does not wrap. -/
theorem nonces_never_repeat (version : UInt16) (instanceId : Bytes 16) (c2d d2c : Bytes 32)
    (fromClient fromServer : List Call) :
    let client := (V6End.client version instanceId c2d d2c).run fromClient
    let server := (V6End.server version instanceId c2d d2c).run fromServer
    ((client.sealed ++ server.sealed).map fun s => (s.key, s.nonce)).Nodup ∧
    InOrder c2d directionC2d client ∧ InOrder d2c directionD2c server ∧
    (∀ (a : Aead) (st : SharedV6State) direction plaintext e,
      (st.encryptFrame a direction plaintext).1 = .error e →
        (st.encryptFrame a direction plaintext).2 = (st, [])) ∧
    ∀ (a : Aead) (st : SharedV6State) direction plaintext cipher,
      st.cipher direction = .ok cipher → cipher.sendCounter.toNat + 1 = 2 ^ 64 →
        plaintext.length ≤ v6MaxPlaintextFrame → st.encryptFrame a direction plaintext =
          (.error (.msg "IPC v6 frame counter overflow"), st, []) := by
  intro client server
  have hclient : InOrder c2d directionC2d client := InOrder.run _ ⟨rfl, rfl, 0, rfl, rfl⟩
  have hserver : InOrder d2c directionD2c server := InOrder.run _ ⟨rfl, rfl, 0, rfl, rfl⟩
  refine ⟨?_, hclient, hserver, ?_, ?_⟩
  · rw [map_append]
    refine Nodup.append hclient.nodup hserver.nodup ?_
    -- the first byte of a nonce is its direction
    intro pair hc hd
    obtain ⟨s, hs, rfl⟩ := mem_map.mp hc
    obtain ⟨s', hs', heq⟩ := mem_map.mp hd
    obtain ⟨m, hm, hnonce⟩ := hclient.direction_of_mem hs
    obtain ⟨n, hn, hnonce'⟩ := hserver.direction_of_mem hs'
    have hsame := (Prod.mk.inj heq).2
    rw [hnonce, hnonce'] at hsame
    exact absurd (frameNonce_injective hn hm hsame).1 (by decide)
  · intro a st direction plaintext e he
    rcases st.encryptFrame_cases a direction plaintext with ⟨_, _, -, -, hseal⟩ | ⟨_, hseal⟩
    · rw [hseal] at he
      cases he
    · rw [hseal]
  · exact fun a st direction plaintext cipher => SharedV6State.encryptFrame_exhausted a

/-! ## What is opened -/

/-- The frames of some calls were opened in the session of `st`, under the counters from zero
    on. -/
structure Numbered (st : SharedV6State) (calls : List Call) (direction : UInt8) (e : V6End) :
    Prop where
  receives : e.receives = direction
  session : e.state.session = st.session
  expects : ∃ counter, SharedV6State.forDirection direction e.state.c2dRecvCounter
    e.state.d2cRecvCounter = .ok counter ∧ counter.toNat = e.opened.length
  opened : ∀ k p, e.opened[k]? = some (.ok p) → ∃ a frame, .receive a frame ∈ calls ∧
    st.decryptFrame a direction frame (UInt64.ofNat k) = .ok p

variable {calls : List Call} {start : SharedV6State}

theorem Numbered.step (h : Numbered start calls direction e) {call : Call} (hcall : call ∈ calls) :
    Numbered start calls direction (e.step call) := by
  obtain ⟨rfl, hsession, ⟨counter, hcounter, hlength⟩, hopened⟩ := h
  cases call with
  | send a plaintext =>
    rcases e.state.encryptFrame_cases a e.sends plaintext with ⟨cipher, _, -, -, hseal⟩ | ⟨_, hseal⟩
    · simp only [V6End.step, hseal]
      refine ⟨rfl, (SharedV6State.session_setSendCounter ..).trans hsession,
        ⟨counter, ?_, hlength⟩, hopened⟩
      rw [← hcounter, SharedV6State.setSendCounter]
      split <;> rfl
    · simp only [V6End.step, hseal]
      exact ⟨rfl, hsession, ⟨counter, hcounter, hlength⟩, hopened⟩
  | receive a ciphertext =>
    simp only [V6End.step]
    split
    · rename_i expected st hexpected
      have hsame : st.session = start.session :=
        (SharedV6State.session_expectNextCounter hexpected).trans hsession
      simp only [SharedV6State.expectNextCounter, bind_eq_ok, ensure_eq_ok, pure_eq_ok,
        Prod.mk.injEq, hcounter, Except.ok.injEq] at hexpected
      obtain ⟨_, rfl, _, hbound, rfl, hst⟩ := hexpected
      have hnext : (counter + 1).toNat = counter.toNat + 1 := by
        rw [UInt64.toNat_add]
        exact Nat.mod_eq_of_lt hbound
      refine ⟨rfl, hsame, ⟨counter + 1, ?_, by simp [hnext, hlength]⟩, fun k p hk => ?_⟩
      · -- only the counter of this direction was moved
        unfold SharedV6State.forDirection at hcounter ⊢
        grind
      · rcases Nat.lt_or_ge k e.opened.length with hlt | hge
        · rw [getElem?_append_left hlt] at hk
          exact hopened k p hk
        · -- the frame of this call
          obtain ⟨hlast, hp⟩ : k - e.opened.length = 0 ∧ _ = Except.ok p := by
            simpa [getElem?_append_right hge, getElem?_singleton] using hk
          refine ⟨a, ciphertext, hcall, ?_⟩
          rw [show k = counter.toNat by omega, UInt64.ofNat_toNat,
            ← SharedV6State.decryptFrame_of_session hsame]
          exact hp
    · exact ⟨rfl, hsession, ⟨counter, hcounter, hlength⟩, hopened⟩

/-- A sealed frame has the number of its place on the wire. -/
theorem InOrder.wire_of_mem (h : InOrder key direction e) {s} (hs : s ∈ e.sealed) {n : Nat}
    (hn : n < 2 ^ 64) (hnonce : s.nonce = frameNonce direction (UInt64.ofNat n)) :
    e.wire[n]? = some s.ciphertext := by
  obtain ⟨-, hwire, counter, -, hsealed⟩ := h
  obtain ⟨i, hi⟩ := mem_iff_getElem?.mp hs
  -- its place among the sealed frames is its counter
  have hat := congrArg (·[i]?) hsealed
  simp only [getElem?_map, hi, Option.map_some] at hat
  obtain ⟨m, hm, heq⟩ := Option.map_eq_some_iff.mp hat.symm
  obtain ⟨hlt, rfl⟩ := List.getElem?_eq_some_iff.mp hm
  have hbound := counter.toNat_lt
  rw [length_range] at hlt
  rw [getElem_range, Prod.mk.injEq, hnonce] at heq
  obtain ⟨-, rfl⟩ := frameNonce_injective (by omega) hn heq.2
  simp [hwire, hi]

/-- The two ends of one connection. -/
inductive Peers : V6End → V6End → Prop where
  | client (version id c2d d2c) :
    Peers (.client version id c2d d2c) (.server version id c2d d2c)
  | server (version id c2d d2c) :
    Peers (.server version id c2d d2c) (.client version id c2d d2c)

/-- **Frames are opened in order.**  Suppose that of the frames that reach an end only those open,
    with the key, the version and the instance of the session, that one of the two ends has sealed
    with the nonce that they open with.  Then whatever the transport drops, repeats, reorders, sends
    back or brings in from elsewhere, what an end opens in its `k`-th call is the `k`-th frame of
    the other end. -/
theorem frames_opened_in_order {e peer} (hpeers : Peers e peer) (calls theirs : List Call)
    (hideal : ∀ a frame counter p, .receive a frame ∈ calls →
      e.state.decryptFrame a peer.sends frame counter = .ok p →
        ∃ s ∈ (peer.run theirs).sealed ++ (e.run calls).sealed,
          s.nonce = frameNonce peer.sends counter ∧ s.ciphertext = frame)
    {k p} (hk : (e.run calls).opened[k]? = some (.ok p)) :
    ∃ a frame, .receive a frame ∈ calls ∧ (peer.run theirs).wire[k]? = some frame ∧
      e.state.decryptFrame a peer.sends frame (UInt64.ofNat k) = .ok p := by
  obtain ⟨own, key, hnumbered, hself, hpeer, hne⟩ : ∃ own key,
      Numbered e.state calls peer.sends e ∧ InOrder own e.sends (e.run calls) ∧
      InOrder key peer.sends (peer.run theirs) ∧ peer.sends ≠ e.sends := by
    cases hpeers
    all_goals exact ⟨_, _, ⟨rfl, rfl, ⟨0, rfl, rfl⟩, nofun⟩, .run _ ⟨rfl, rfl, 0, rfl, rfl⟩,
      .run _ ⟨rfl, rfl, 0, rfl, rfl⟩,
      by simp [V6End.client, V6End.server, directionC2d, directionD2c]⟩
  have hnow : Numbered e.state calls peer.sends (e.run calls) :=
    foldlRecOn calls V6End.step hnumbered fun _ h _ hcall => h.step hcall
  obtain ⟨a, frame, hmem, hopens⟩ := hnow.opened k p hk
  have hbound : k < 2 ^ 64 := by
    obtain ⟨counter, -, hlength⟩ := hnow.expects
    have hcounter := counter.toNat_lt
    obtain ⟨hlt, -⟩ := List.getElem?_eq_some_iff.mp hk
    omega
  obtain ⟨s, hs, hnonce, rfl⟩ := hideal a frame _ p hmem hopens
  refine ⟨a, s.ciphertext, hmem, ?_, hopens⟩
  rcases mem_append.mp hs with hs | hs
  · exact hpeer.wire_of_mem hs hbound hnonce
  · -- an end does not open what it has sealed
    obtain ⟨n, hn, hown⟩ := hself.direction_of_mem hs
    exact absurd (frameNonce_injective hbound hn (hnonce.symm.trans hown)).1 hne

/-! ### A session on a transport that brings in a frame from elsewhere -/

/-- The tag is made of the nonce and of the key. -/
def tagOf (key : Bytes 32) (nonce : List UInt8) : List UInt8 :=
  (nonce ++ key.val).take v6AeadTagBytes

theorem length_tagOf (key : Bytes 32) (nonce : List UInt8) :
    (tagOf key nonce).length = v6AeadTagBytes := by
  simp only [tagOf, length_take, length_append, key.property]
  simp [v6AeadTagBytes]

/-- A cipher that adds the first byte of the key to every byte, and such a tag. -/
def tagging : Aead where
  encrypt key nonce _ plaintext :=
    some (plaintext.map (· + key.val.headD 0) ++ tagOf key nonce)
  decrypt key nonce _ ciphertext :=
    let body := ciphertext.take (ciphertext.length - v6AeadTagBytes)
    if ciphertext = body ++ tagOf key nonce then some (body.map (· - key.val.headD 0)) else none
  length_encrypt h := by
    cases h
    simp [length_tagOf]

/-- The first frame of a client of another session. -/
def foreignFrame : List UInt8 := [106] ++ tagOf (.fill 32 9) (frameNonce directionC2d 0)

/-- The second frame of the client of this one. -/
def secondFrame : List UInt8 := [99] ++ tagOf (.fill 32 1) (frameNonce directionC2d 1)

theorem tagOf_eq {key : Bytes 32} {direction : UInt8} {counter : UInt64} :
    tagOf key (frameNonce direction counter) = frameNonce direction counter ++ key.val.take 4 := by
  have hlength : (frameNonce direction counter).length = 12 := by
    simp [frameNonce, (Bytes.beBytes 8 counter.toNat).property]
  simp only [tagOf, v6AeadTagBytes, take_append, hlength]
  rw [take_of_length_le (by omega)]

/-- What `tagging` opens ends in the tag for its key and nonce. -/
theorem tag_of_opened {key : Bytes 32} {nonce aad body tag p : List UInt8}
    (hlength : tag.length = v6AeadTagBytes)
    (h : tagging.decrypt key nonce aad (body ++ tag) = some p) : tag = tagOf key nonce := by
  simp only [tagging, length_append, hlength, Nat.add_sub_cancel, take_left'] at h
  split at h
  · next htag => simpa using htag
  · cases h

/-- The first frame is lost on the way, and one of another session comes in its place: it does not
    open, and the second frame does. -/
theorem second_frame_opened :
    let server := V6End.server 6 (Bytes.zero 16) (.fill 32 1) (.fill 32 2)
    let calls := [.receive tagging foreignFrame, .receive tagging secondFrame]
    let client := V6End.client 6 (Bytes.zero 16) (.fill 32 1) (.fill 32 2)
    (server.run calls).opened =
      [.error (.msg "IPC v6 frame authentication failed"), .ok [98]] ∧
    (client.run [.send tagging [97], .send tagging [98]]).wire[1]? = some secondFrame := by
  intro server calls client
  have hopened : (server.run calls).opened =
      [.error (.msg "IPC v6 frame authentication failed"), .ok [98]] := by decide +kernel
  have hsealed : ((client.run [.send tagging [97], .send tagging [98]]).sealed.map fun s =>
      (s.nonce, s.ciphertext))[1]? = some (frameNonce directionC2d 1, secondFrame) := by
    decide +kernel
  -- what opens has a tag for the key of the session
  have htagged : ∀ {body key counter counter' p}, server.state.decryptFrame tagging directionC2d
      (body ++ tagOf key (frameNonce directionC2d counter')) counter = .ok p →
      frameNonce directionC2d counter' ++ key.val.take 4 =
        frameNonce directionC2d counter ++ (Bytes.fill 32 1).val.take 4 := by
    intro body key counter counter' p h
    simp only [SharedV6State.decryptFrame, bind_eq_ok, orBail_eq_ok] at h
    obtain ⟨-, -, cipher, hcipher, hdecrypt⟩ := h
    cases hcipher
    have htag := tag_of_opened (length_tagOf key _) hdecrypt
    rwa [tagOf_eq, tagOf_eq] at htag
  have hideal : ∀ a frame counter p, .receive a frame ∈ calls →
      server.state.decryptFrame a client.sends frame counter = .ok p →
        ∃ s ∈ (client.run [.send tagging [97], .send tagging [98]]).sealed ++
          (server.run calls).sealed,
          s.nonce = frameNonce client.sends counter ∧ s.ciphertext = frame := by
    intro a frame counter p hmem hopens
    simp only [calls, mem_cons, Call.receive.injEq, not_mem_nil, or_false] at hmem
    rcases hmem with ⟨rfl, rfl⟩ | ⟨rfl, rfl⟩
    · exact absurd (append_inj_right' (htagged hopens) rfl) (by decide)
    · obtain ⟨s, hs, heq⟩ := Option.map_eq_some_iff.mp ((getElem?_map ..).symm.trans hsealed)
      obtain ⟨hnonce, hframe⟩ := Prod.mk.inj heq
      have hcounter := append_cancel_right (htagged hopens)
      exact ⟨s, mem_append_left _ (mem_of_getElem? hs), hnonce.trans hcounter, hframe⟩
  have hsecond : (server.run calls).opened[1]? = some (.ok [98]) := by
    rw [hopened]
    rfl
  obtain ⟨a, frame, hmem, hwire, hopens⟩ := frames_opened_in_order
    (.server 6 (Bytes.zero 16) (.fill 32 1) (.fill 32 2)) calls
    [.send tagging [97], .send tagging [98]] hideal hsecond
  simp only [calls, mem_cons, Call.receive.injEq, not_mem_nil, or_false] at hmem
  rcases hmem with ⟨rfl, rfl⟩ | ⟨rfl, rfl⟩
  · exact absurd (append_inj_right' (htagged hopens) rfl) (by decide)
  · exact ⟨hopened, hwire⟩

end V6End

end Serctl.Ipc
