import Dovecot.Acl.Cache
import Mathlib.Data.Set.Basic
/-!
What `acl_cache_update_rights_mask` does to the set of rights a mask holds.

`acl_cache_mask_init` sets the bit of each index `acl_cache_right_lookup`
returns for the rights, in order, with the cache each lookup leaves
(`aclCacheRightLookups`). The modify modes are then set operations on the
rights, a NULL mask counting as no rights: ADD is the union, REMOVE the
difference and REPLACE the change itself. Both ways ADD merges two masks, into
the old one when it is at least as large and into the change otherwise, give
the union, whatever the two sizes.
-/

namespace Dovecot

/-! ## The rights a mask holds -/

/-- Whether right `idx` is set, a NULL mask holding none. -/
def maskHas (m : Option AclMask) (idx : Nat) : Bool := m.any (·.has idx)

/-- The rights a mask holds. -/
def maskRights (m : Option AclMask) : Set Nat := {idx | maskHas m idx = true}

/-- The indices `acl_cache_mask_init` looks the rights up to, in order, each
lookup in the cache the one before leaves. -/
def aclCacheRightLookups : AclCache → List String → List UInt32
  | _, [] => []
  | cache, r :: rights =>
    (aclCacheRightLookup cache r).2 :: aclCacheRightLookups (aclCacheRightLookup cache r).1 rights

/-- The rights of a right-name list: the indices its lookups return. -/
def lookupRights (cache : AclCache) (rights : List String) : Set Nat :=
  {idx | idx ∈ (aclCacheRightLookups cache rights).map UInt32.toNat}

/-- What a modify mode does to the old rights, given the changed ones. -/
def AclModifyMode.apply : AclModifyMode → Bool → Bool → Bool
  | .add, old, change => old || change
  | .remove, old, change => old && !change
  | .replace, _, change => change

/-- The same on sets: union, difference, the change. -/
def AclModifyMode.applySet : AclModifyMode → Set Nat → Set Nat → Set Nat
  | .add, old, change => old ∪ change
  | .remove, old, change => old \ change
  | .replace, _, change => change

/-! ## The change mask -/

theorem bytesHas_aclCacheMaskInitLoop : ∀ (cache : AclCache) (b : List (BitVec 8))
    (rights : List String) (idx : Nat),
    bytesHas (aclCacheMaskInitLoop cache b rights).2 idx =
      (bytesHas b idx || decide (idx ∈ (aclCacheRightLookups cache rights).map UInt32.toNat))
  | _, b, [], idx => by simp [aclCacheMaskInitLoop, aclCacheRightLookups]
  | cache, b, r :: rights, idx => by
    simp only [aclCacheMaskInitLoop, aclCacheRightLookups, bytesHas_aclCacheMaskInitLoop _ _ rights,
      bytesHas_setRight, List.map_cons, List.mem_cons, Bool.decide_or, Bool.or_assoc]

/-- **The change mask holds exactly the looked-up rights.** -/
theorem maskHas_aclCacheMaskInit (cache : AclCache) (rights : List String) (idx : Nat) :
    maskHas (some (aclCacheMaskInit cache rights).2) idx =
      decide (idx ∈ (aclCacheRightLookups cache rights).map UInt32.toNat) := by
  show bytesHas (aclCacheMaskInitLoop cache [] rights).2 idx = _
  rw [bytesHas_aclCacheMaskInitLoop, bytesHas_of_length_le [] (Nat.zero_le _), Bool.false_or]

/-! ## The modify modes -/

/-- Each branch of the `switch (modify_mode)` computes its mode's operation on
the set bits, with NULL masks as no rights. -/
theorem maskHas_aclModifyMask (mode : AclModifyMode) (old change : Option AclMask) (idx : Nat) :
    maskHas (aclModifyMask mode old change).1 idx =
      mode.apply (maskHas old idx) (maskHas change idx) := by
  cases mode <;> cases old <;> cases change <;>
    simp only [aclModifyMask, AclModifyMode.apply, maskHas, Option.any_none, Option.any_some,
      Bool.false_or, Bool.or_false, Bool.false_and, Bool.not_false, Bool.and_true]
  case add.some.some o c =>
    split
    · exact bytesHas_orUpdate c.mask (by simpa [AclMask.size] using ‹_›) rfl idx
    · rw [Bool.or_comm]
      exact bytesHas_orUpdate o.mask (by simp only [AclMask.size] at *; omega) rfl idx
  case remove.some.some o c => exact bytesHas_andNotUpdate rfl idx

theorem AclObjectCache.modifyMask_get (obj : AclObjectCache) (mode : AclModifyMode)
    (change : Option AclMask) (slot : AclMaskSlot) :
    (obj.modifyMask mode change slot).get slot = (aclModifyMask mode (obj.get slot) change).1 := by
  dsimp only [AclObjectCache.modifyMask]
  split <;> cases slot <;>
    simp only [AclObjectCache.get, AclObjectCache.set, Function.update_same]

/-- The bits `acl_cache_update_rights_mask` leaves in the slot: its mode
applied, bit by bit, to the old mask and the looked-up rights. -/
theorem maskHas_aclCacheUpdateRightsMask (cache : AclCache) (obj : AclObjectCache)
    (mode : AclModifyMode) (rights : Option (List String)) (slot : AclMaskSlot) (idx : Nat) :
    maskHas ((aclCacheUpdateRightsMask cache obj mode rights slot).2.get slot) idx =
      mode.apply (maskHas (obj.get slot) idx)
        (decide (idx ∈ (aclCacheRightLookups cache (rights.getD [])).map UInt32.toNat)) := by
  cases rights with
  | none =>
    simp only [aclCacheUpdateRightsMask, AclObjectCache.modifyMask_get, maskHas_aclModifyMask]
    rfl
  | some r =>
    simp only [aclCacheUpdateRightsMask, AclObjectCache.modifyMask_get, maskHas_aclModifyMask,
      maskHas_aclCacheMaskInit, Option.getD_some]

/-- **`acl_cache_update_rights_mask` applies its mode to the rights.** For
every old mask or NULL, every right list or NULL and each mode, the mask left
in the slot holds the old rights with the looked-up ones added (ADD), taken
away (REMOVE) or in their place (REPLACE); NULL rights change no right. -/
theorem aclCacheUpdateRightsMask_rights (cache : AclCache) (obj : AclObjectCache)
    (mode : AclModifyMode) (rights : Option (List String)) (slot : AclMaskSlot) :
    maskRights ((aclCacheUpdateRightsMask cache obj mode rights slot).2.get slot) =
      mode.applySet (maskRights (obj.get slot)) (lookupRights cache (rights.getD [])) := by
  ext idx
  cases mode <;>
    simp only [maskRights, lookupRights, AclModifyMode.applySet, Set.mem_setOf_eq, Set.mem_union,
      Set.mem_diff, maskHas_aclCacheUpdateRightsMask, AclModifyMode.apply, Bool.or_eq_true,
      Bool.and_eq_true, Bool.not_eq_true', decide_eq_true_eq, decide_eq_false_iff_not]

end Dovecot
