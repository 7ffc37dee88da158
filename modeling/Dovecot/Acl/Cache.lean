import Dovecot.Acl.Mask
import Mathlib.Logic.Function.Basic
/-!
`acl-cache.c`: a cache of each object's rights masks per identifier type, and
the mapping between right names and the bit indices masks use.

Hash tables are functions from the key; `right_name_idx_map` stores `idx + 1`
as an `unsigned int`, `0` being the NULL that `hash_lookup` returns for a
missing key. The backend's answers about the current user are the fields of
`AclBackend`. Memory management (pools, `acl_cache_mask_deinit`) leaves no
trace: a freed mask is a mask no longer referenced.
-/

namespace Dovecot

/-- `enum acl_id_type`, in the order of the `switch` in `acl_cache_update`.
The enum is declared in `acl-api.h`, which is not among the sources, so its
index order is not known here; no result depends on it, since
`acl_cache_my_current_rights_recalculate` ORs the masks of every type. -/
inductive AclIdType
  | anyone
  | authenticated
  | group
  | groupOverride
  | user
  deriving Repr, DecidableEq

/-- The identifier types `0 .. ACL_ID_TYPE_COUNT - 1`, in the order of
`AclIdType`. -/
def AclIdType.all : List AclIdType := [.anyone, .authenticated, .group, .groupOverride, .user]

theorem AclIdType.mem_all (i : AclIdType) : i ∈ AclIdType.all := by cases i <;> decide

/-- `enum acl_modify_mode`. -/
inductive AclModifyMode
  | add
  | remove
  | replace
  deriving Repr, DecidableEq

/-- The fields of `struct acl_rights` the cache reads; `rights` and
`neg_rights` are NULL or a NULL-terminated array of right names. -/
structure AclRights where
  idType : AclIdType
  identifier : String
  modifyMode : AclModifyMode
  rights : Option (List String)
  negModifyMode : AclModifyMode
  negRights : Option (List String)

/-- What `acl_cache_update` asks the backend about the current user. -/
structure AclBackend where
  userIsAuthenticated : Bool
  userIsInGroup : String → Bool
  userNameEquals : String → Bool

/-- `struct acl_object_cache`: the masks of one object per identifier type, and
the current rights, NULL until calculated. -/
structure AclObjectCache where
  myRights : AclIdType → Option AclMask
  myNegRights : AclIdType → Option AclMask
  myCurrentRights : Option AclMask

/-- A new object entry: `i_new` leaves every mask NULL. -/
def AclObjectCache.empty : AclObjectCache := ⟨fun _ => none, fun _ => none, none⟩

/-- `struct acl_cache`. -/
structure AclCache where
  backend : AclBackend
  objects : String → Option AclObjectCache
  rightIdxNameMap : List String
  rightNameIdxMap : String → UInt32

/-- A backend for which the current user is anonymous. -/
def anonymousBackend : AclBackend := ⟨false, fun _ => false, fun _ => false⟩

/-- `acl_cache_init`. -/
def aclCacheInit (backend : AclBackend) : AclCache := ⟨backend, fun _ => none, [], fun _ => 0⟩

/-! ## Right names -/

/-- `acl_cache_right_lookup`: the index of a right name, a new one being
appended to `right_idx_name_map`. -/
def aclCacheRightLookup (cache : AclCache) (right : String) : AclCache × UInt32 :=
  let idxP := cache.rightNameIdxMap right
  if idxP = 0 then
    let idx := UInt32.ofNat cache.rightIdxNameMap.length
    ({ cache with
        rightIdxNameMap := cache.rightIdxNameMap ++ [right]
        rightNameIdxMap := Function.update cache.rightNameIdxMap right (idx + 1) }, idx)
  else (cache, idxP - 1)

/-- The loop of `acl_cache_mask_init`: each right looked up and its bit set. -/
def aclCacheMaskInitLoop : AclCache → List (BitVec 8) → List String → AclCache × List (BitVec 8)
  | cache, bitmask, [] => (cache, bitmask)
  | cache, bitmask, r :: rights =>
    let (cache, idx) := aclCacheRightLookup cache r
    aclCacheMaskInitLoop cache (bytesSetRight bitmask idx.toNat) rights

/-- `acl_cache_mask_init`: the mask of a list of right names. -/
def aclCacheMaskInit (cache : AclCache) (rights : List String) : AclCache × AclMask :=
  let (cache, bitmask) := aclCacheMaskInitLoop cache [] rights
  (cache, ⟨bitmask⟩)

/-- `acl_cache_get_names`: the right names by index, and their count. -/
def aclCacheGetNames (cache : AclCache) : List String × Nat :=
  (cache.rightIdxNameMap, cache.rightIdxNameMap.length)

/-! ## Updating an object's masks -/

/-- Which mask `mask_p` points to: `my_rights[id]` or `my_neg_rights[id]`. -/
inductive AclMaskSlot
  | pos (id : AclIdType)
  | neg (id : AclIdType)

/-- `*mask_p`. -/
def AclObjectCache.get (obj : AclObjectCache) : AclMaskSlot → Option AclMask
  | .pos id => obj.myRights id
  | .neg id => obj.myNegRights id

/-- `*mask_p = m`. -/
def AclObjectCache.set (obj : AclObjectCache) (m : Option AclMask) : AclMaskSlot → AclObjectCache
  | .pos id => { obj with myRights := Function.update obj.myRights id m }
  | .neg id => { obj with myNegRights := Function.update obj.myNegRights id m }

/-- The `switch (modify_mode)` of `acl_cache_update_rights_mask`: the new mask
and the `changed` flag, from the old mask and the change mask. -/
def aclModifyMask (mode : AclModifyMode) (old change : Option AclMask) :
    Option AclMask × Bool :=
  match mode, old, change with
  | .add, none, _ => (change, true)
  | .add, some _, none => (old, false)
  | .add, some o, some c =>
    if o.size ≥ c.size then (some ⟨bytesUpdate (· ||| ·) c.size o.mask c.mask⟩, true)
    else (some ⟨bytesUpdate (· ||| ·) o.size c.mask o.mask⟩, true)
  | .remove, some o, some c =>
    (some ⟨bytesUpdate (fun a b => a &&& ~~~b) (min o.size c.size) o.mask c.mask⟩, true)
  | .remove, _, _ => (old, false)
  | .replace, _, _ => (change, !(old.isNone && change.isNone))

/-- The rest of `acl_cache_update_rights_mask` once the change mask is built:
the slot updated, and the current rights dropped when `changed`. -/
def AclObjectCache.modifyMask (obj : AclObjectCache) (mode : AclModifyMode)
    (change : Option AclMask) (slot : AclMaskSlot) : AclObjectCache :=
  let r := aclModifyMask mode (obj.get slot) change
  let obj := obj.set r.1 slot
  if r.2 then { obj with myCurrentRights := none } else obj

/-- `acl_cache_update_rights_mask`: the change mask built from `rights` (NULL
for NULL rights), then the slot modified with it. -/
def aclCacheUpdateRightsMask (cache : AclCache) (obj : AclObjectCache) (mode : AclModifyMode)
    (rights : Option (List String)) (slot : AclMaskSlot) : AclCache × AclObjectCache :=
  match rights with
  | none => (cache, obj.modifyMask mode none slot)
  | some r => ((aclCacheMaskInit cache r).1, obj.modifyMask mode (some (aclCacheMaskInit cache r).2) slot)

/-- `acl_cache_update_rights`: the positive mask, then the negative one. -/
def aclCacheUpdateRights (cache : AclCache) (obj : AclObjectCache) (rights : AclRights) :
    AclCache × AclObjectCache :=
  let (cache, obj) := aclCacheUpdateRightsMask cache obj rights.modifyMode rights.rights
    (.pos rights.idType)
  aclCacheUpdateRightsMask cache obj rights.negModifyMode rights.negRights (.neg rights.idType)

/-- The `switch (rights->id_type)` of `acl_cache_update`: whether the rights
apply to the current user. -/
def aclRightsApply (backend : AclBackend) (rights : AclRights) : Bool :=
  match rights.idType with
  | .anyone => true
  | .authenticated => backend.userIsAuthenticated
  | .group | .groupOverride => backend.userIsInGroup rights.identifier
  | .user => backend.userNameEquals rights.identifier

/-- `acl_cache_update`: the object's entry, created if missing, updated when
the rights apply to the current user. -/
def aclCacheUpdate (cache : AclCache) (objname : String) (rights : AclRights) : AclCache :=
  let obj := (cache.objects objname).getD .empty
  let cache := { cache with objects := Function.update cache.objects objname (some obj) }
  if aclRightsApply cache.backend rights then
    let r := aclCacheUpdateRights cache obj rights
    { r.1 with objects := Function.update r.1.objects objname (some r.2) }
  else cache

/-- `acl_cache_flush`. -/
def aclCacheFlush (cache : AclCache) (objname : String) : AclCache :=
  { cache with objects := Function.update cache.objects objname none }

/-- `acl_cache_flush_all`. -/
def aclCacheFlushAll (cache : AclCache) : AclCache :=
  { cache with objects := fun _ => none }

/-! ## Current rights -/

/-- `p[j] |= mask[j]` for every byte of `m`, after growing the buffer to `m`'s size. -/
def bytesOrMask (bitmask : List (BitVec 8)) : Option AclMask → List (BitVec 8)
  | none => bitmask
  | some m => bytesUpdate (· ||| ·) m.size (bufferGetSpace bitmask 0 m.size) m.mask

/-- `acl_cache_my_current_rights_recalculate`: for each identifier type in
order, the positive mask ORed in, then the negative mask ORed in too. -/
def aclCacheMyCurrentRightsRecalculate (obj : AclObjectCache) : AclMask :=
  ⟨AclIdType.all.foldl
    (fun bitmask i => bytesOrMask (bytesOrMask bitmask (obj.myRights i)) (obj.myNegRights i)) []⟩

/-- `acl_cache_get_my_rights`: NULL for an object without entry, else its
current rights, calculated and stored first if NULL. -/
def aclCacheGetMyRights (cache : AclCache) (objname : String) : AclCache × Option AclMask :=
  match cache.objects objname with
  | none => (cache, none)
  | some obj =>
    match obj.myCurrentRights with
    | some m => (cache, some m)
    | none =>
      let m := aclCacheMyCurrentRightsRecalculate obj
      ({ cache with objects :=
          Function.update cache.objects objname (some { obj with myCurrentRights := some m }) },
        some m)

/-! ## What each call leaves alone -/

theorem aclCacheRightLookup_objects (cache : AclCache) (r : String) :
    (aclCacheRightLookup cache r).1.objects = cache.objects ∧
      (aclCacheRightLookup cache r).1.backend = cache.backend := by
  dsimp only [aclCacheRightLookup]; split <;> exact ⟨rfl, rfl⟩

theorem aclCacheMaskInitLoop_objects :
    ∀ (cache : AclCache) (b : List (BitVec 8)) (rs : List String),
      (aclCacheMaskInitLoop cache b rs).1.objects = cache.objects ∧
        (aclCacheMaskInitLoop cache b rs).1.backend = cache.backend
  | cache, b, [] => ⟨rfl, rfl⟩
  | cache, b, r :: rs => by
    obtain ⟨h1, h2⟩ := aclCacheRightLookup_objects cache r
    obtain ⟨h3, h4⟩ := aclCacheMaskInitLoop_objects (aclCacheRightLookup cache r).1
      (bytesSetRight b (aclCacheRightLookup cache r).2.toNat) rs
    exact ⟨h3.trans h1, h4.trans h2⟩

theorem aclCacheMaskInit_objects (cache : AclCache) (rs : List String) :
    (aclCacheMaskInit cache rs).1.objects = cache.objects ∧
      (aclCacheMaskInit cache rs).1.backend = cache.backend :=
  aclCacheMaskInitLoop_objects cache [] rs

theorem aclCacheUpdateRightsMask_objects (cache : AclCache) (obj mode rights slot) :
    (aclCacheUpdateRightsMask cache obj mode rights slot).1.objects = cache.objects := by
  cases rights with
  | none => rfl
  | some r => exact (aclCacheMaskInit_objects cache r).1

theorem aclCacheUpdateRights_objects (cache : AclCache) (obj rights) :
    (aclCacheUpdateRights cache obj rights).1.objects = cache.objects :=
  (aclCacheUpdateRightsMask_objects _ _ _ _ _).trans (aclCacheUpdateRightsMask_objects _ _ _ _ _)

/-! ## Runs -/

/-- A call of the cache's interface. -/
inductive AclCacheOp
  | update (objname : String) (rights : AclRights)
  | flush (objname : String)
  | flushAll
  | maskInit (rights : List String)
  | rightLookup (right : String)
  | getMyRights (objname : String)

/-- The cache after one call. -/
def AclCacheOp.step (cache : AclCache) : AclCacheOp → AclCache
  | .update objname rights => aclCacheUpdate cache objname rights
  | .flush objname => aclCacheFlush cache objname
  | .flushAll => aclCacheFlushAll cache
  | .maskInit rights => (aclCacheMaskInit cache rights).1
  | .rightLookup right => (aclCacheRightLookup cache right).1
  | .getMyRights objname => (aclCacheGetMyRights cache objname).1

/-- The cache after a sequence of calls. -/
def AclCacheOp.run (cache : AclCache) (ops : List AclCacheOp) : AclCache :=
  ops.foldl AclCacheOp.step cache

end Dovecot
