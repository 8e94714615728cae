import Mathlib.Data.List.Basic
import Mathlib.Data.List.Induction

/-!
# Hash chains

A chain folds a list of entries into one digest: each link hashes its position, the digest
before it and its entry.  If the hash has no collision among the messages of two chains, then
equal heads at one position force equal histories.
-/

namespace Serctl.Lib.HashChain

open List

variable {α μ δ : Type}

/-- How a chain is hashed: a message is made from position, digest before and entry. -/
structure Links (α μ δ : Type) where
  zero : δ
  message : Nat → δ → α → μ
  hash : μ → δ

variable (L : Links α μ δ)

/-- The digest after the entries, from position `n` and digest `d` on. -/
def headFrom : Nat → δ → List α → δ
  | _, d, [] => d
  | n, d, a :: as => headFrom (n + 1) (L.hash (L.message (n + 1) d a)) as

/-- The messages hashed along the entries. -/
def messagesFrom : Nat → δ → List α → List μ
  | _, _, [] => []
  | n, d, a :: as =>
    L.message (n + 1) d a :: messagesFrom (n + 1) (L.hash (L.message (n + 1) d a)) as

/-- The digest after a whole chain. -/
def head (entries : List α) : δ := headFrom L 0 L.zero entries

/-- The messages of a whole chain. -/
def messages (entries : List α) : List μ := messagesFrom L 0 L.zero entries

/-- No two different messages of the list have the same digest. -/
def CollisionFreeOn (hash : μ → δ) (ms : List μ) : Prop :=
  ∀ m ∈ ms, ∀ m' ∈ ms, hash m = hash m' → m = m'

theorem headFrom_append (as bs : List α) :
    ∀ (n : Nat) (d : δ),
      headFrom L n d (as ++ bs) = headFrom L (n + as.length) (headFrom L n d as) bs := by
  induction as with
  | nil =>
    intro n d
    rfl
  | cons a as ih =>
    intro n d
    simp only [cons_append, headFrom, ih, length_cons]
    congr 1
    omega

theorem messagesFrom_append (as bs : List α) :
    ∀ (n : Nat) (d : δ), messagesFrom L n d (as ++ bs) =
      messagesFrom L n d as ++ messagesFrom L (n + as.length) (headFrom L n d as) bs := by
  induction as with
  | nil =>
    intro n d
    rfl
  | cons a as ih =>
    intro n d
    have hcount : n + 1 + as.length = n + (a :: as).length := by
      simp only [length_cons]
      omega
    simp only [cons_append, messagesFrom, headFrom, ih, hcount]

theorem head_concat (as : List α) (a : α) :
    head L (as ++ [a]) = L.hash (L.message (as.length + 1) (head L as) a) := by
  simp only [head, headFrom_append, headFrom, Nat.zero_add]

theorem messages_concat (as : List α) (a : α) :
    messages L (as ++ [a]) = messages L as ++ [L.message (as.length + 1) (head L as) a] := by
  simp only [messages, head, messagesFrom_append, messagesFrom, Nat.zero_add]

theorem messages_take_subset (as : List α) (n : Nat) : messages L (as.take n) ⊆ messages L as := by
  have hsplit : messages L as = messages L (as.take n) ++
      messagesFrom L (0 + (as.take n).length) (headFrom L 0 L.zero (as.take n)) (as.drop n) := by
    simp only [messages]
    rw [← messagesFrom_append, take_append_drop]
  rw [hsplit]
  exact subset_append_left _ _

variable {L}

/-- Fewer messages, fewer collisions. -/
theorem CollisionFreeOn.mono {hash : μ → δ} {ms ms' : List μ} (h : CollisionFreeOn hash ms')
    (hsub : ms ⊆ ms') : CollisionFreeOn hash ms :=
  fun m hm m' hm' => h m (hsub hm) m' (hsub hm')

/-- **Equal heads have equal histories**, if the hash has no collision among the messages of the
    two chains and a message determines the digest and the entry it is made from. -/
theorem eq_of_head_eq {as : List α} :
    ∀ {bs : List α}, as.length = bs.length →
      CollisionFreeOn L.hash (messages L as ++ messages L bs) →
      (∀ n d d', ∀ a ∈ as, ∀ b ∈ bs, L.message n d a = L.message n d' b → d = d' ∧ a = b) →
      head L as = head L bs → as = bs := by
  -- the last links are compared first, so the induction is from the end of the chain
  induction as using reverseRecOn with
  | nil =>
    intro bs hlen _ _ _
    exact (length_eq_zero_iff.mp hlen.symm).symm
  | append_singleton as a ih =>
    intro bs hlen hfree hmessage hhead
    cases bs using reverseRecOn with
    | nil => simp at hlen
    | append_singleton bs b =>
      have hlen' : as.length = bs.length := by simpa using hlen
      rw [head_concat, head_concat, hlen'] at hhead
      rw [messages_concat, messages_concat] at hfree
      have hsame : L.message (bs.length + 1) (head L as) a =
          L.message (bs.length + 1) (head L bs) b := by
        apply hfree _ _ _ _ hhead
        · simp [hlen']
        · simp
      obtain ⟨hprevious, hentry⟩ := hmessage _ _ _ a (by simp) b (by simp) hsame
      have hfree' : CollisionFreeOn L.hash (messages L as ++ messages L bs) := by
        apply hfree.mono
        intro m hm
        rcases mem_append.mp hm with hm | hm <;> simp [hm]
      have hearlier : as = bs := by
        apply ih hlen' hfree' _ hprevious
        intro n d d' x hx y hy
        exact hmessage n d d' x (by simp [hx]) y (by simp [hy])
      rw [hearlier, hentry]

end Serctl.Lib.HashChain
