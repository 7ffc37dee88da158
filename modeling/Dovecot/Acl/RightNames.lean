import Dovecot.Acl.Cache
import Mathlib.Data.UInt
/-!
The right-name mapping of `acl-cache.c`: `right_idx_name_map` (index to name)
and `right_name_idx_map` (name to `idx + 1`) are mutual inverses, the indices
are `0 .. n - 1` in the order names were first looked up, and an index never
changes, as the comment on `struct acl_cache` requires of the masks' bits.

All of it holds while fewer than `2^32 - 1` names have been looked up: the
stored `idx + 1` is an `unsigned int`, and at `2^32 - 1` names it wraps to
the NULL that `hash_lookup` reports for a missing name.

The abstract model is a list of names kept in first-lookup order
(`firstLookupOrder`); `RightNamesInv` ties the two tables to it, and every
call of the cache's interface refines it (`AclCacheOp.run_rightNames`).
-/

namespace Dovecot

/-! ## Unsigned arithmetic of the stored indices -/

theorem uint32_ofNat_add_one (n : Nat) : UInt32.ofNat n + 1 = UInt32.ofNat (n + 1) := by
  apply UInt32.toNat.inj
  simp [UInt32.toNat, UInt32.add_def, BitVec.toNat_add, UInt32.ofNat]

theorem uint32_ofNat_succ_sub_one (n : Nat) : UInt32.ofNat (n + 1) - 1 = UInt32.ofNat n := by
  apply UInt32.toNat.inj
  simp [UInt32.toNat, UInt32.sub_def, BitVec.toNat_sub, UInt32.ofNat]
  omega

theorem uint32_ofNat_succ_ne_zero {n : Nat} (h : n + 1 < 2 ^ 32) : UInt32.ofNat (n + 1) ≠ 0 :=
  fun e => by
    have := congrArg UInt32.toNat e
    rw [UInt32.toNat_ofNat_of_lt h, UInt32.toNat_zero] at this
    exact Nat.succ_ne_zero n this

/-! ## The abstract model -/

/-- A name appended unless it is already there. -/
def insertNew (names : List String) (r : String) : List String :=
  if r ∈ names then names else names ++ [r]

/-- The right names in the order of their first lookup. -/
def firstLookupOrder (rs : List String) : List String := rs.foldl insertNew []

theorem insertNew_nodup {names : List String} (h : names.Nodup) (r : String) :
    (insertNew names r).Nodup := by
  unfold insertNew; split
  · exact h
  · next hr => exact List.nodup_append.mpr ⟨h, List.nodup_singleton r, by simpa using hr⟩

theorem prefix_foldl_insertNew (rs : List String) :
    ∀ names : List String, names <+: rs.foldl insertNew names := by
  induction rs with
  | nil => exact fun names => List.prefix_refl names
  | cons r rs ih =>
    intro names
    refine List.IsPrefix.trans ?_ (ih (insertNew names r))
    unfold insertNew; split
    · exact List.prefix_refl _
    · exact List.prefix_append _ _

theorem mem_foldl_insertNew {rs : List String} {names : List String} {r : String} :
    r ∈ rs.foldl insertNew names ↔ r ∈ names ∨ r ∈ rs := by
  induction rs generalizing names with
  | nil => simp
  | cons x rs ih =>
    simp only [List.foldl_cons, ih, insertNew, List.mem_cons]
    split <;> by_cases hrx : r = x <;> simp_all

/-- Looking up more names only appends: an assigned index never moves. -/
theorem firstLookupOrder_prefix (rs rs' : List String) :
    firstLookupOrder rs <+: firstLookupOrder (rs ++ rs') := by
  rw [firstLookupOrder, firstLookupOrder, List.foldl_append]
  exact prefix_foldl_insertNew rs' _

/-! ## The invariant -/

/-- `right_idx_name_map` holds distinct names, fewer than `2^32`, and
`right_name_idx_map` maps the name at index `i` to `i + 1` and every other
name to NULL. -/
structure RightNamesInv (cache : AclCache) : Prop where
  nodup : cache.rightIdxNameMap.Nodup
  lt : cache.rightIdxNameMap.length < 2 ^ 32
  idx_get : ∀ i (h : i < cache.rightIdxNameMap.length),
    cache.rightNameIdxMap cache.rightIdxNameMap[i] = UInt32.ofNat (i + 1)
  idx_absent : ∀ r, r ∉ cache.rightIdxNameMap → cache.rightNameIdxMap r = 0

theorem RightNamesInv.init (backend : AclBackend) : RightNamesInv (aclCacheInit backend) :=
  ⟨List.nodup_nil, by simp [aclCacheInit], nofun, fun _ _ => rfl⟩

/-- A known name is found at its index, and nothing changes. -/
theorem RightNamesInv.lookup_get {cache : AclCache} (h : RightNamesInv cache) (i : Nat)
    (hi : i < cache.rightIdxNameMap.length) :
    aclCacheRightLookup cache cache.rightIdxNameMap[i] = (cache, UInt32.ofNat i) := by
  have hne := uint32_ofNat_succ_ne_zero (show i + 1 < 2 ^ 32 by have := h.lt; omega)
  simp only [aclCacheRightLookup, h.idx_get i hi, hne, if_false, uint32_ofNat_succ_sub_one]

theorem aclCacheRightLookup_of_absent {cache : AclCache} {r : String}
    (h0 : cache.rightNameIdxMap r = 0) :
    aclCacheRightLookup cache r =
      ({ cache with
          rightIdxNameMap := cache.rightIdxNameMap ++ [r]
          rightNameIdxMap := Function.update cache.rightNameIdxMap r
            (UInt32.ofNat (cache.rightIdxNameMap.length + 1)) },
        UInt32.ofNat cache.rightIdxNameMap.length) := by
  simp only [aclCacheRightLookup, h0, if_true, uint32_ofNat_add_one]

/-- A new name gets the next index, and both tables learn it. -/
theorem RightNamesInv.lookup_new {cache : AclCache} (h : RightNamesInv cache) {r : String}
    (hr : r ∉ cache.rightIdxNameMap) (hlt : cache.rightIdxNameMap.length + 1 < 2 ^ 32) :
    RightNamesInv (aclCacheRightLookup cache r).1 ∧
      (aclCacheRightLookup cache r).1.rightIdxNameMap = cache.rightIdxNameMap ++ [r] ∧
      (aclCacheRightLookup cache r).2 = UInt32.ofNat cache.rightIdxNameMap.length := by
  rw [aclCacheRightLookup_of_absent (h.idx_absent r hr)]
  refine ⟨⟨?_, ?_, ?_, ?_⟩, rfl, rfl⟩
  · exact List.nodup_append.mpr ⟨h.nodup, List.nodup_singleton r, by simpa using hr⟩
  · simpa using hlt
  · intro i hi
    dsimp only at hi ⊢
    simp only [List.length_append, List.length_singleton] at hi
    rcases Nat.lt_or_ge i cache.rightIdxNameMap.length with hi' | hi'
    · rw [List.getElem_append_left hi', Function.update_noteq, h.idx_get i hi']
      exact fun e => hr (e ▸ List.getElem_mem hi')
    · obtain rfl : i = cache.rightIdxNameMap.length := by omega
      rw [List.getElem_concat_length _ _ _ rfl, Function.update_same]
  · intro s hs
    dsimp only at hs ⊢
    simp only [List.mem_append, List.mem_singleton, not_or] at hs
    rw [Function.update_noteq hs.2, h.idx_absent s hs.1]

/-- One lookup: the names become `insertNew`, the invariant stays. -/
theorem RightNamesInv.lookup {cache : AclCache} (h : RightNamesInv cache) (r : String)
    (hlt : (insertNew cache.rightIdxNameMap r).length < 2 ^ 32) :
    RightNamesInv (aclCacheRightLookup cache r).1 ∧
      (aclCacheRightLookup cache r).1.rightIdxNameMap = insertNew cache.rightIdxNameMap r := by
  by_cases hr : r ∈ cache.rightIdxNameMap
  · obtain ⟨i, hi, rfl⟩ := List.getElem_of_mem hr
    rw [h.lookup_get i hi]
    exact ⟨h, by simp [insertNew, hr]⟩
  · rw [insertNew, if_neg hr, List.length_append, List.length_singleton] at hlt
    obtain ⟨h1, h2, -⟩ := h.lookup_new hr hlt
    rw [insertNew, if_neg hr]
    exact ⟨h1, h2⟩

theorem RightNamesInv.congr {cache cache' : AclCache} (h : RightNamesInv cache)
    (h1 : cache'.rightIdxNameMap = cache.rightIdxNameMap)
    (h2 : cache'.rightNameIdxMap = cache.rightNameIdxMap) : RightNamesInv cache' := by
  obtain ⟨a, b, c, d⟩ := h
  exact ⟨h1 ▸ a, h1 ▸ b, h1 ▸ h2 ▸ c, h1 ▸ h2 ▸ d⟩

theorem length_le_foldl_insertNew (rs names : List String) :
    names.length ≤ (rs.foldl insertNew names).length :=
  (prefix_foldl_insertNew rs names).length_le

/-- The loop of `acl_cache_mask_init` looks its rights up in order. -/
theorem RightNamesInv.maskInitLoop : ∀ {cache : AclCache} (b : List (BitVec 8)) (rs : List String),
    RightNamesInv cache → (rs.foldl insertNew cache.rightIdxNameMap).length < 2 ^ 32 →
    RightNamesInv (aclCacheMaskInitLoop cache b rs).1 ∧
      (aclCacheMaskInitLoop cache b rs).1.rightIdxNameMap = rs.foldl insertNew cache.rightIdxNameMap
  | _, _, [], h, _ => ⟨h, rfl⟩
  | cache, b, r :: rs, h, hlt => by
    have hr := h.lookup r
      (Nat.lt_of_le_of_lt (length_le_foldl_insertNew rs _) hlt)
    rw [List.foldl_cons, ← hr.2] at hlt ⊢
    exact RightNamesInv.maskInitLoop _ rs hr.1 hlt

/-- The names each call looks up, given the backend, which no call changes. -/
def AclCacheOp.lookups (backend : AclBackend) : AclCacheOp → List String
  | .update _ rights =>
    if aclRightsApply backend rights then rights.rights.getD [] ++ rights.negRights.getD [] else []
  | .maskInit rights => rights
  | .rightLookup right => [right]
  | .flush _ | .flushAll | .getMyRights _ => []

theorem RightNamesInv.updateRightsMask {cache : AclCache} (h : RightNamesInv cache)
    (obj mode) (rights : Option (List String)) (slot)
    (hlt : ((rights.getD []).foldl insertNew cache.rightIdxNameMap).length < 2 ^ 32) :
    RightNamesInv (aclCacheUpdateRightsMask cache obj mode rights slot).1 ∧
      (aclCacheUpdateRightsMask cache obj mode rights slot).1.rightIdxNameMap =
        (rights.getD []).foldl insertNew cache.rightIdxNameMap ∧
      (aclCacheUpdateRightsMask cache obj mode rights slot).1.backend = cache.backend := by
  cases rights with
  | none => exact ⟨h, rfl, rfl⟩
  | some r =>
    obtain ⟨h1, h2⟩ := h.maskInitLoop [] r hlt
    exact ⟨h1, h2, (aclCacheMaskInitLoop_objects cache [] r).2⟩

theorem RightNamesInv.updateRights {cache : AclCache} (h : RightNamesInv cache)
    (obj : AclObjectCache) (rights : AclRights)
    (hlt : ((rights.rights.getD [] ++ rights.negRights.getD []).foldl insertNew
      cache.rightIdxNameMap).length < 2 ^ 32) :
    RightNamesInv (aclCacheUpdateRights cache obj rights).1 ∧
      (aclCacheUpdateRights cache obj rights).1.rightIdxNameMap =
        (rights.rights.getD [] ++ rights.negRights.getD []).foldl insertNew
          cache.rightIdxNameMap ∧
      (aclCacheUpdateRights cache obj rights).1.backend = cache.backend := by
  rw [List.foldl_append] at hlt ⊢
  have h1 := h.updateRightsMask obj rights.modifyMode rights.rights (.pos rights.idType)
    (Nat.lt_of_le_of_lt (length_le_foldl_insertNew _ _) hlt)
  rw [← h1.2.1] at hlt ⊢
  have h2 := h1.1.updateRightsMask
    (aclCacheUpdateRightsMask cache obj rights.modifyMode rights.rights (.pos rights.idType)).2
    rights.negModifyMode rights.negRights (.neg rights.idType) hlt
  exact ⟨h2.1, h2.2.1, h2.2.2.trans h1.2.2⟩

/-- Every call of the interface looks up its `lookups` and nothing else. -/
theorem RightNamesInv.step {cache : AclCache} (h : RightNamesInv cache) (op : AclCacheOp)
    (hlt : ((op.lookups cache.backend).foldl insertNew cache.rightIdxNameMap).length < 2 ^ 32) :
    RightNamesInv (op.step cache) ∧
      (op.step cache).rightIdxNameMap =
        (op.lookups cache.backend).foldl insertNew cache.rightIdxNameMap ∧
      (op.step cache).backend = cache.backend := by
  cases op with
  | update objname rights =>
    simp only [AclCacheOp.step, aclCacheUpdate, AclCacheOp.lookups] at hlt ⊢
    split at hlt
    · next happ =>
      simp only [happ, if_true]
      have h1 := (show RightNamesInv { cache with objects :=
          (Function.update cache.objects objname (some ((cache.objects objname).getD .empty))) }
        from h.congr rfl rfl).updateRights ((cache.objects objname).getD .empty) rights hlt
      exact ⟨h1.1.congr rfl rfl, h1.2.1, h1.2.2⟩
    · next happ =>
      simp only [happ, if_false, Bool.false_eq_true]
      exact ⟨h.congr rfl rfl, by simp, by simp⟩
  | flush | flushAll => exact ⟨h.congr rfl rfl, rfl, rfl⟩
  | maskInit rights =>
    exact ⟨(h.maskInitLoop [] rights hlt).1, (h.maskInitLoop [] rights hlt).2,
      (aclCacheMaskInitLoop_objects cache [] rights).2⟩
  | rightLookup right =>
    exact ⟨(h.lookup right hlt).1, (h.lookup right hlt).2, (aclCacheRightLookup_objects cache right).2⟩
  | getMyRights objname =>
    simp only [AclCacheOp.step, aclCacheGetMyRights]
    split
    · exact ⟨h, rfl, rfl⟩
    · split
      · exact ⟨h, rfl, rfl⟩
      · exact ⟨h.congr rfl rfl, rfl, rfl⟩

/-- A run refines the abstract list of names: the tables hold the names in
first-lookup order. -/
theorem RightNamesInv.run : ∀ {cache : AclCache} (ops : List AclCacheOp), RightNamesInv cache →
    ((ops.flatMap (AclCacheOp.lookups cache.backend)).foldl insertNew
      cache.rightIdxNameMap).length < 2 ^ 32 →
    RightNamesInv (AclCacheOp.run cache ops) ∧
      (AclCacheOp.run cache ops).rightIdxNameMap =
        (ops.flatMap (AclCacheOp.lookups cache.backend)).foldl insertNew cache.rightIdxNameMap ∧
      (AclCacheOp.run cache ops).backend = cache.backend
  | _, [], h, _ => ⟨h, rfl, rfl⟩
  | cache, op :: ops, h, hlt => by
    rw [List.flatMap_cons, List.foldl_append] at hlt
    have hs := h.step op (Nat.lt_of_le_of_lt (length_le_foldl_insertNew _ _) hlt)
    rw [← hs.2.1, ← hs.2.2] at hlt
    have hr := RightNamesInv.run ops hs.1 hlt
    rw [hs.2.2] at hr
    refine ⟨hr.1, ?_, hr.2.2⟩
    rw [AclCacheOp.run, List.foldl_cons, ← AclCacheOp.run, hr.2.1, List.flatMap_cons,
      List.foldl_append, hs.2.1]

/-- **The right-name mapping.** After any run of calls on a new cache that
looks up fewer than `2^32 - 1` distinct names: `right_idx_name_map` holds them
in first-lookup order, the two tables are mutual inverses (`RightNamesInv`),
`acl_cache_get_names` returns the names by index and looking a name up gives
its index back, and the names of every earlier state are a prefix of the
current ones, so no index ever moves. -/
theorem aclCache_right_names (backend : AclBackend) (ops : List AclCacheOp)
    (hlt : (firstLookupOrder (ops.flatMap (AclCacheOp.lookups backend))).length < 2 ^ 32 - 1) :
    (AclCacheOp.run (aclCacheInit backend) ops).rightIdxNameMap =
        firstLookupOrder (ops.flatMap (AclCacheOp.lookups backend)) ∧
      RightNamesInv (AclCacheOp.run (aclCacheInit backend) ops) ∧
      (aclCacheGetNames (AclCacheOp.run (aclCacheInit backend) ops)).2 =
        (aclCacheGetNames (AclCacheOp.run (aclCacheInit backend) ops)).1.length ∧
      (∀ i (hi : i < (aclCacheGetNames (AclCacheOp.run (aclCacheInit backend) ops)).1.length),
        aclCacheRightLookup (AclCacheOp.run (aclCacheInit backend) ops)
            (aclCacheGetNames (AclCacheOp.run (aclCacheInit backend) ops)).1[i] =
          (AclCacheOp.run (aclCacheInit backend) ops, UInt32.ofNat i)) ∧
      ∀ k, (AclCacheOp.run (aclCacheInit backend) (ops.take k)).rightIdxNameMap <+:
        (AclCacheOp.run (aclCacheInit backend) ops).rightIdxNameMap := by
  have run_eq : ∀ ops' : List AclCacheOp,
      (firstLookupOrder (ops'.flatMap (AclCacheOp.lookups backend))).length < 2 ^ 32 →
      RightNamesInv (AclCacheOp.run (aclCacheInit backend) ops') ∧
        (AclCacheOp.run (aclCacheInit backend) ops').rightIdxNameMap =
          firstLookupOrder (ops'.flatMap (AclCacheOp.lookups backend)) :=
    fun ops' h' => ⟨(RightNamesInv.run ops' (.init backend) h').1,
      (RightNamesInv.run ops' (.init backend) h').2.1⟩
  have hlt' : (firstLookupOrder (ops.flatMap (AclCacheOp.lookups backend))).length < 2 ^ 32 := by
    omega
  obtain ⟨hinv, hnames⟩ := run_eq ops hlt'
  have hpre : ∀ k, firstLookupOrder ((ops.take k).flatMap (AclCacheOp.lookups backend)) <+:
      firstLookupOrder (ops.flatMap (AclCacheOp.lookups backend)) := fun k => by
    conv_rhs => rw [← List.take_append_drop k ops, List.flatMap_append]
    exact firstLookupOrder_prefix _ _
  refine ⟨hnames, hinv, rfl, fun i hi => hinv.lookup_get i hi, fun k => ?_⟩
  rw [(run_eq (ops.take k) (Nat.lt_of_le_of_lt (hpre k).length_le hlt')).2, hnames]
  exact hpre k

/-- A run looking `read` up directly and through `acl_cache_mask_init`, and
`admin` through an update. -/
def rightLookupRun : List AclCacheOp :=
  [.rightLookup "read", .maskInit ["write", "read"],
    .update "INBOX" ⟨.anyone, "", .add, some ["admin"], .add, none⟩]

theorem aclCache_right_names_rightLookupRun :
    (firstLookupOrder (rightLookupRun.flatMap (AclCacheOp.lookups anonymousBackend))).length <
        2 ^ 32 - 1 ∧
      (AclCacheOp.run (aclCacheInit anonymousBackend) rightLookupRun).rightIdxNameMap =
        firstLookupOrder (rightLookupRun.flatMap (AclCacheOp.lookups anonymousBackend)) ∧
      RightNamesInv (AclCacheOp.run (aclCacheInit anonymousBackend) rightLookupRun) ∧
      (aclCacheGetNames (AclCacheOp.run (aclCacheInit anonymousBackend) rightLookupRun)).2 =
        (aclCacheGetNames (AclCacheOp.run (aclCacheInit anonymousBackend) rightLookupRun)).1.length ∧
      (∀ i (hi : i < (aclCacheGetNames
          (AclCacheOp.run (aclCacheInit anonymousBackend) rightLookupRun)).1.length),
        aclCacheRightLookup (AclCacheOp.run (aclCacheInit anonymousBackend) rightLookupRun)
            (aclCacheGetNames (AclCacheOp.run (aclCacheInit anonymousBackend) rightLookupRun)).1[i] =
          (AclCacheOp.run (aclCacheInit anonymousBackend) rightLookupRun, UInt32.ofNat i)) ∧
      ∀ k, (AclCacheOp.run (aclCacheInit anonymousBackend) (rightLookupRun.take k)).rightIdxNameMap <+:
        (AclCacheOp.run (aclCacheInit anonymousBackend) rightLookupRun).rightIdxNameMap :=
  ⟨by decide, aclCache_right_names anonymousBackend rightLookupRun (by decide)⟩

example : firstLookupOrder (rightLookupRun.flatMap (AclCacheOp.lookups anonymousBackend)) =
    ["read", "write", "admin"] := by decide

end Dovecot
