import Mathlib.Data.List.Basic
import Mathlib.Data.BitVec
/-!
The rights bitmasks of `acl-cache.c`: `struct acl_mask` holds `size` bytes,
right `idx` being bit `idx % CHAR_BIT` of byte `idx / CHAR_BIT`.

The byte loops of the file (`p[j] |= mask[j]`, `old_mask->mask[i] &=
~change_mask->mask[i]`) are one function, `bytesUpdate`, and the buffer
growth of `buffer_get_space_unsafe` is `bufferGetSpace`. Their lemmas say
which bits each leaves set, so that the cache proofs never look at bytes.
-/

namespace Dovecot

/-- `struct acl_mask`: the mask bytes; `size` is their number. The pool the
mask is allocated from plays no part here. -/
structure AclMask where
  mask : List (BitVec 8)
  deriving Repr, DecidableEq

/-- `mask->size`. -/
def AclMask.size (m : AclMask) : Nat := m.mask.length

/-- Whether right `idx` is set in a byte array; bytes past its end are zero. -/
def bytesHas (bytes : List (BitVec 8)) (idx : Nat) : Bool :=
  (bytes[idx / 8]?.getD 0).getLsbD (idx % 8)

/-- Whether right `idx` is set in a mask. -/
def AclMask.has (m : AclMask) (idx : Nat) : Bool := bytesHas m.mask idx

/-- `buffer_get_space_unsafe(buf, pos, size)`: the buffer grown with zero bytes
until it holds `pos + size` of them. -/
def bufferGetSpace (buf : List (BitVec 8)) (pos size : Nat) : List (BitVec 8) :=
  buf ++ List.replicate (pos + size - buf.length) 0

/-- `for (i = 0; i < n; i++) dst[i] = op(dst[i], src[i])`. -/
def bytesUpdate (op : BitVec 8 → BitVec 8 → BitVec 8) :
    Nat → List (BitVec 8) → List (BitVec 8) → List (BitVec 8)
  | n + 1, d :: ds, s :: ss => op d s :: bytesUpdate op n ds ss
  | _, ds, _ => ds

@[simp] theorem bytesUpdate_succ (op : BitVec 8 → BitVec 8 → BitVec 8) (n : Nat) (d s : BitVec 8)
    (ds ss : List (BitVec 8)) :
    bytesUpdate op (n + 1) (d :: ds) (s :: ss) = op d s :: bytesUpdate op n ds ss := rfl

/-- `*p |= 1 << (idx % CHAR_BIT)` at `p = buffer_get_space_unsafe(bitmask,
idx / CHAR_BIT, 1)`: right `idx` added to a growing byte buffer. -/
def bytesSetRight (bitmask : List (BitVec 8)) (idx : Nat) : List (BitVec 8) :=
  (bufferGetSpace bitmask (idx / 8) 1).modify (· ||| 1#8 <<< (idx % 8)) (idx / 8)

/-! ## Byte lemmas -/

theorem getD_bufferGetSpace (buf : List (BitVec 8)) (pos size j : Nat) :
    (bufferGetSpace buf pos size)[j]?.getD 0 = buf[j]?.getD 0 := by
  rw [bufferGetSpace, List.getElem?_append]
  split
  · rfl
  · next h => rw [List.getElem?_replicate, List.getElem?_eq_none (by omega)]; split <;> rfl

theorem length_bufferGetSpace (buf : List (BitVec 8)) (pos size : Nat) :
    (bufferGetSpace buf pos size).length = max buf.length (pos + size) := by
  simp only [bufferGetSpace, List.length_append, List.length_replicate]
  omega

theorem length_bytesUpdate (op) : ∀ (n : Nat) (ds ss : List (BitVec 8)),
    (bytesUpdate op n ds ss).length = ds.length
  | n + 1, _ :: ds, _ :: ss => congrArg (· + 1) (length_bytesUpdate op n ds ss)
  | 0, _, _ | _ + 1, [], _ | _ + 1, _ :: _, [] => rfl

theorem getD_bytesUpdate (op) : ∀ (n : Nat) (ds ss : List (BitVec 8)) (j : Nat),
    (bytesUpdate op n ds ss)[j]?.getD 0 =
      if j < n ∧ j < ds.length ∧ j < ss.length then op (ds[j]?.getD 0) (ss[j]?.getD 0)
      else ds[j]?.getD 0
  | n + 1, d :: ds, s :: ss, 0 => by simp
  | n + 1, d :: ds, s :: ss, j + 1 => by
    simp only [bytesUpdate_succ, List.getElem?_cons_succ, List.length_cons, Nat.add_lt_add_iff_right]
    exact getD_bytesUpdate op n ds ss j
  | 0, _, _, _ | _ + 1, [], _, _ | _ + 1, _ :: _, [], _ => (if_neg (by simp)).symm

/-! ## Which rights a byte loop leaves set -/

theorem bytesHas_bufferGetSpace (buf : List (BitVec 8)) (pos size idx : Nat) :
    bytesHas (bufferGetSpace buf pos size) idx = bytesHas buf idx := by
  simp only [bytesHas, getD_bufferGetSpace]

theorem bytesHas_of_length_le (bytes : List (BitVec 8)) {idx : Nat} (h : bytes.length ≤ idx / 8) :
    bytesHas bytes idx = false := by
  simp [bytesHas, List.getElem?_eq_none h]

/-- The OR loop over all of `src`, into a `dst` at least as long. -/
theorem bytesHas_orUpdate {ds : List (BitVec 8)} (ss : List (BitVec 8)) {n : Nat} (hd : n ≤ ds.length)
    (hs : n = ss.length) (idx : Nat) :
    bytesHas (bytesUpdate (· ||| ·) n ds ss) idx = (bytesHas ds idx || bytesHas ss idx) := by
  rw [bytesHas, getD_bytesUpdate]
  split
  · simp [bytesHas]
  · rw [bytesHas_of_length_le ss (by omega), Bool.or_false]; rfl

/-- The AND NOT loop over the bytes both masks have. -/
theorem bytesHas_andNotUpdate {ds ss : List (BitVec 8)} {n : Nat}
    (hn : n = min ds.length ss.length) (idx : Nat) :
    bytesHas (bytesUpdate (fun a b => a &&& ~~~b) n ds ss) idx =
      (bytesHas ds idx && !bytesHas ss idx) := by
  rw [bytesHas, getD_bytesUpdate]
  split
  · simp [bytesHas, Nat.mod_lt idx (by decide : 8 > 0)]
  · rcases Nat.lt_or_ge (idx / 8) ds.length with h | h
    · rw [bytesHas_of_length_le ss (by omega), Bool.not_false, Bool.and_true]; rfl
    · rw [bytesHas_of_length_le ds h, Bool.false_and]; exact bytesHas_of_length_le _ h

theorem bytesHas_setRight (bitmask : List (BitVec 8)) (i idx : Nat) :
    bytesHas (bytesSetRight bitmask i) idx = (bytesHas bitmask idx || decide (idx = i)) := by
  have hlen := length_bufferGetSpace bitmask (i / 8) 1
  have hb := getD_bufferGetSpace bitmask (i / 8) 1 (idx / 8)
  simp only [bytesHas, bytesSetRight, List.getElem?_modify]
  by_cases hq : i / 8 = idx / 8
  · rw [List.getElem?_eq_getElem (by omega)] at hb ⊢
    simp only [hq, if_true, Option.map_eq_map, Option.map_some', Option.getD_some] at hb ⊢
    rw [BitVec.getLsbD_or, hb, BitVec.getLsbD_shiftLeft, BitVec.getLsbD_one]
    have : idx = i ↔ idx % 8 = i % 8 := by omega
    by_cases he : idx % 8 = i % 8 <;> simp [he, this] <;> omega
  · have : idx ≠ i := fun h => hq (h ▸ rfl)
    simp only [hq, if_false, Option.map_eq_map, Option.map_id', hb, this, decide_False, Bool.or_false]

end Dovecot
