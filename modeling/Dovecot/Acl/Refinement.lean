import Dovecot.Acl.Modify
import Dovecot.Acl.CurrentRights
import Dovecot.Acl.RightNames
/-!
The cache against what it stands for. Read through `right_idx_name_map`, each
mask of an object entry is a set of right names (`maskNameHas`), and an entry
is, for each of its masks, such a set (`AclObjectCache.rightsOf`). The model
of the interface on those sets is `AclCacheOp.specStep`: an update applies its
modify modes to the two masks of its identifier type, by name, when the rights
apply to the current user; a flush drops entries; nothing else changes a set.

Every call is one step of the model (`AclCacheOp.step_rightsView`), so every
run is (`aclCache_rightsView`). What makes it hold is the right-name table:
`acl_cache_mask_init` sets the bit of each right at the index its name has in
the table after the lookups (`RightNamesInv.lookups_indexOf`), indices never
move, and no mask has a bit at an index without a name
(`AclObjectCache.Bounded`), so a name new to the table is in no old mask.
-/

namespace Dovecot

deriving instance DecidableEq for AclMaskSlot

/-! ## Masks read by name -/

/-- Whether a mask holds the right named `r`: `r` has an index in the name
table, and the mask has that index's bit. -/
def maskNameHas (names : List String) (m : Option AclMask) (r : String) : Bool :=
  decide (r ∈ names) && maskHas m (names.indexOf r)

/-- The right names each mask of an entry holds. -/
def AclObjectCache.rightsOf (names : List String) (obj : AclObjectCache) :
    AclMaskSlot → String → Bool :=
  fun slot r => maskNameHas names (obj.get slot) r

/-- No mask of the entry has a bit at an index the name table has no name for. -/
def AclObjectCache.Bounded (names : List String) (obj : AclObjectCache) : Prop :=
  ∀ slot i, names.length ≤ i → maskHas (obj.get slot) i = false

theorem AclObjectCache.Bounded.mono {names names' : List String} {obj : AclObjectCache}
    (h : obj.Bounded names) (hl : names.length ≤ names'.length) : obj.Bounded names' :=
  fun slot i hi => h slot i (Nat.le_trans hl hi)

/-- A mask without bits past the table reads the same through a longer table. -/
theorem maskNameHas_extend {names names' : List String} (hp : names <+: names')
    {m : Option AclMask} (hb : ∀ i, names.length ≤ i → maskHas m i = false) (r : String) :
    maskNameHas names' m r = maskNameHas names m r := by
  obtain ⟨t, rfl⟩ := hp
  by_cases hr : r ∈ names
  · simp only [maskNameHas, List.mem_append, hr, true_or, decide_True, List.indexOf_append_of_mem hr]
  · have hidx : (names ++ t).indexOf r = names.length + t.indexOf r :=
      List.indexOf_append_of_not_mem hr
    simp only [maskNameHas, hr, decide_False, Bool.false_and, Bool.and_eq_false_imp]
    exact fun _ => hidx ▸ hb _ (Nat.le_add_right _ _)

theorem AclObjectCache.rightsOf_extend {names names' : List String} (hp : names <+: names')
    {obj : AclObjectCache} (hb : obj.Bounded names) : obj.rightsOf names' = obj.rightsOf names :=
  funext fun slot => funext (maskNameHas_extend hp (hb slot))

/-! ## Where `acl_cache_mask_init` sets its bits -/

/-- One lookup returns the index its name has once it is in the table. -/
theorem RightNamesInv.lookup_indexOf {cache : AclCache} (h : RightNamesInv cache) (r : String)
    (hlt : (insertNew cache.rightIdxNameMap r).length < 2 ^ 32) :
    (aclCacheRightLookup cache r).2.toNat = (insertNew cache.rightIdxNameMap r).indexOf r := by
  by_cases hr : r ∈ cache.rightIdxNameMap
  · obtain ⟨i, hi, rfl⟩ := List.getElem_of_mem hr
    rw [h.lookup_get i hi, insertNew, if_pos hr, List.indexOf_getElem h.nodup i hi,
      UInt32.toNat_ofNat_of_lt (Nat.lt_trans hi h.lt)]
  · rw [insertNew, if_neg hr] at hlt ⊢
    rw [(h.lookup_new hr (by simpa using hlt)).2.2, List.indexOf_append_of_not_mem hr,
      List.indexOf_cons_self, Nat.add_zero, UInt32.toNat_ofNat_of_lt h.lt]

/-- **`acl_cache_mask_init` sets the bits of the rights' final indices.** Each
lookup returns the index its name has in the table the whole loop leaves. -/
theorem RightNamesInv.lookups_indexOf : ∀ {cache : AclCache} (rs : List String),
    RightNamesInv cache → (rs.foldl insertNew cache.rightIdxNameMap).length < 2 ^ 32 →
    (aclCacheRightLookups cache rs).map UInt32.toNat =
      rs.map (rs.foldl insertNew cache.rightIdxNameMap).indexOf
  | _, [], _, _ => rfl
  | cache, r :: rs, h, hlt => by
    have hr := h.lookup r (Nat.lt_of_le_of_lt (length_le_foldl_insertNew rs _) hlt)
    rw [List.foldl_cons, ← hr.2] at hlt ⊢
    have hpre := prefix_foldl_insertNew rs (aclCacheRightLookup cache r).1.rightIdxNameMap
    have hmem : r ∈ (aclCacheRightLookup cache r).1.rightIdxNameMap := by
      rw [hr.2, insertNew]; split <;> simp_all
    obtain ⟨t, ht⟩ := hpre
    rw [aclCacheRightLookups, List.map_cons, List.map_cons, RightNamesInv.lookups_indexOf rs hr.1 hlt,
      h.lookup_indexOf r (hr.2 ▸ Nat.lt_of_le_of_lt (length_le_foldl_insertNew rs _) hlt), ← hr.2,
      ← ht, List.indexOf_append_of_mem hmem]

/-! ## One mask, by name -/

theorem AclObjectCache.modifyMask_get_ne (obj : AclObjectCache) (mode : AclModifyMode)
    (change : Option AclMask) {slot s : AclMaskSlot} (hs : s ≠ slot) :
    (obj.modifyMask mode change slot).get s = obj.get s := by
  dsimp only [AclObjectCache.modifyMask]
  split <;> cases slot <;> cases s <;>
    simp_all [AclObjectCache.get, AclObjectCache.set, Function.update_noteq]

theorem aclCacheUpdateRightsMask_get_ne (cache : AclCache) (obj : AclObjectCache)
    (mode : AclModifyMode) (rights : Option (List String)) {slot s : AclMaskSlot} (hs : s ≠ slot) :
    (aclCacheUpdateRightsMask cache obj mode rights slot).2.get s = obj.get s := by
  cases rights <;> exact AclObjectCache.modifyMask_get_ne _ _ _ hs

/-- A modify mode applied to one mask's names, the change being the listed
rights, none for NULL. -/
def modifyRights (o : AclMaskSlot → String → Bool) (slot : AclMaskSlot) (mode : AclModifyMode)
    (rights : Option (List String)) : AclMaskSlot → String → Bool :=
  fun s r => if s = slot then mode.apply (o s r) (decide (r ∈ rights.getD [])) else o s r

@[simp] theorem AclModifyMode.apply_false (mode : AclModifyMode) : mode.apply false false = false := by
  cases mode <;> rfl

section Modify

variable {names names' rs : List String} (hp : names <+: names') (hrs : ∀ x ∈ rs, x ∈ names')
  {old new : Option AclMask} {mode : AclModifyMode}
  (hold : ∀ i, names.length ≤ i → maskHas old i = false)
  (hnew : ∀ i, maskHas new i = mode.apply (maskHas old i) (decide (i ∈ rs.map names'.indexOf)))
include hp hrs hold hnew

/-- Bits set at the rights' indices in a longer table are the rights by name. -/
theorem maskNameHas_modify (r : String) :
    maskNameHas names' new r = mode.apply (maskNameHas names old r) (decide (r ∈ rs)) := by
  by_cases hr : r ∈ names'
  · have hidx : names'.indexOf r ∈ rs.map names'.indexOf ↔ r ∈ rs := by
      refine ⟨fun hm => ?_, List.mem_map_of_mem _⟩
      obtain ⟨x, hx, he⟩ := List.mem_map.mp hm
      have h' := congrArg (names'[·]?) he
      simp only [List.getElem?_indexOf (hrs x hx), List.getElem?_indexOf hr, Option.some.injEq] at h'
      exact h' ▸ hx
    rw [← maskNameHas_extend hp hold r]
    simp only [maskNameHas, hr, decide_True, Bool.true_and, hnew, hidx]
  · have hn : r ∉ names := fun h => hr (hp.subset h)
    have hr' : r ∉ rs := fun h => hr (hrs r h)
    simp only [maskNameHas, hr, hn, hr', decide_False, Bool.false_and, AclModifyMode.apply_false]

/-- Nor has the new mask a bit past the longer table. -/
theorem maskHas_modify_bound (i : Nat) (hi : names'.length ≤ i) : maskHas new i = false := by
  rw [hnew, hold i (Nat.le_trans hp.length_le hi), decide_eq_false fun hm => ?_,
    AclModifyMode.apply_false]
  obtain ⟨x, hx, rfl⟩ := List.mem_map.mp hm
  exact absurd (List.indexOf_lt_length.mpr (hrs x hx)) (Nat.not_lt.mpr hi)

end Modify

/-- **`acl_cache_update_rights_mask` by name.** Read through the table its
lookups leave, the slot holds the mode applied to the old rights and the
listed ones, every other slot what it held, and no mask a bit past the table. -/
theorem AclObjectCache.rightsOf_updateRightsMask {cache : AclCache} (h : RightNamesInv cache)
    {obj : AclObjectCache} (hb : obj.Bounded cache.rightIdxNameMap) (mode : AclModifyMode)
    (rights : Option (List String)) (slot : AclMaskSlot)
    (hlt : ((rights.getD []).foldl insertNew cache.rightIdxNameMap).length < 2 ^ 32) :
    (aclCacheUpdateRightsMask cache obj mode rights slot).2.rightsOf
        ((rights.getD []).foldl insertNew cache.rightIdxNameMap) =
      modifyRights (obj.rightsOf cache.rightIdxNameMap) slot mode rights ∧
    (aclCacheUpdateRightsMask cache obj mode rights slot).2.Bounded
      ((rights.getD []).foldl insertNew cache.rightIdxNameMap) := by
  have hp := prefix_foldl_insertNew (rights.getD []) cache.rightIdxNameMap
  have hrs : ∀ x ∈ rights.getD [], x ∈ (rights.getD []).foldl insertNew cache.rightIdxNameMap :=
    fun _ hx => mem_foldl_insertNew.mpr (.inr hx)
  have hnew := fun i => (maskHas_aclCacheUpdateRightsMask cache obj mode rights slot i).trans
    (by rw [h.lookups_indexOf _ hlt])
  refine ⟨funext fun s => funext fun r => ?_, fun s i hi => ?_⟩
  all_goals by_cases hs : s = slot
  · subst hs
    simp only [AclObjectCache.rightsOf, modifyRights, if_true]
    exact maskNameHas_modify hp hrs (hb s) hnew r
  · simp only [AclObjectCache.rightsOf, modifyRights, if_neg hs,
      aclCacheUpdateRightsMask_get_ne _ _ _ _ hs]
    exact maskNameHas_extend hp (hb s) r
  · subst hs
    exact maskHas_modify_bound hp hrs (hb s) hnew i hi
  · rw [aclCacheUpdateRightsMask_get_ne _ _ _ _ hs]
    exact hb s i (Nat.le_trans hp.length_le hi)

/-- What `acl_cache_update_rights` does by name: the positive mask of the
identifier type, then the negative one. -/
def updateRightsSpec (o : AclMaskSlot → String → Bool) (rights : AclRights) :
    AclMaskSlot → String → Bool :=
  modifyRights (modifyRights o (.pos rights.idType) rights.modifyMode rights.rights)
    (.neg rights.idType) rights.negModifyMode rights.negRights

/-- **`acl_cache_update_rights` by name**, read through the table its lookups leave. -/
theorem AclObjectCache.rightsOf_updateRights {cache : AclCache} (h : RightNamesInv cache)
    {obj : AclObjectCache} (hb : obj.Bounded cache.rightIdxNameMap) (rights : AclRights)
    (hlt : ((rights.rights.getD [] ++ rights.negRights.getD []).foldl insertNew
      cache.rightIdxNameMap).length < 2 ^ 32) :
    (aclCacheUpdateRights cache obj rights).2.rightsOf
        ((rights.rights.getD [] ++ rights.negRights.getD []).foldl insertNew cache.rightIdxNameMap) =
      updateRightsSpec (obj.rightsOf cache.rightIdxNameMap) rights ∧
    (aclCacheUpdateRights cache obj rights).2.Bounded
      ((rights.rights.getD [] ++ rights.negRights.getD []).foldl insertNew cache.rightIdxNameMap) := by
  rw [List.foldl_append] at hlt ⊢
  have hlt1 := Nat.lt_of_le_of_lt (length_le_foldl_insertNew _ _) hlt
  have h1 := h.updateRightsMask obj rights.modifyMode rights.rights (.pos rights.idType) hlt1
  obtain ⟨ho1, hb1⟩ := AclObjectCache.rightsOf_updateRightsMask h hb rights.modifyMode
    rights.rights (.pos rights.idType) hlt1
  rw [← h1.2.1] at hlt ho1 hb1 ⊢
  obtain ⟨ho2, hb2⟩ := AclObjectCache.rightsOf_updateRightsMask h1.1 hb1 rights.negModifyMode
    rights.negRights (.neg rights.idType) hlt
  rw [ho1] at ho2
  exact ⟨ho2, hb2⟩

/-! ## The cache, by name -/

/-- The rights each entry of the cache holds, by name. -/
def AclCache.rightsView (cache : AclCache) (n : String) : Option (AclMaskSlot → String → Bool) :=
  (cache.objects n).map (·.rightsOf cache.rightIdxNameMap)

/-- No entry of the cache has a bit the name table has no name for. -/
def AclCache.Bounded (cache : AclCache) : Prop :=
  ∀ n obj, cache.objects n = some obj → obj.Bounded cache.rightIdxNameMap

section View

variable {cache cache' : AclCache} (hb : cache.Bounded)
include hb

/-- An entry reads the same through a longer table. -/
theorem AclCache.Bounded.map_rightsOf {names' : List String}
    (hp : cache.rightIdxNameMap <+: names') (n : String) :
    (cache.objects n).map (·.rightsOf names') = cache.rightsView n := by
  cases hobj : cache.objects n with
  | none => simp only [AclCache.rightsView, hobj, Option.map_none']
  | some obj =>
    simp only [AclCache.rightsView, hobj, Option.map_some', AclObjectCache.rightsOf_extend hp (hb n obj hobj)]

theorem AclCache.Bounded.rightsView_extend (hp : cache.rightIdxNameMap <+: cache'.rightIdxNameMap)
    (ho : cache'.objects = cache.objects) : cache'.rightsView = cache.rightsView :=
  funext fun n => by simp only [AclCache.rightsView, ho]; exact hb.map_rightsOf hp n

/-- An entry set or dropped: the rest read the same through the longer table. -/
theorem AclCache.Bounded.rightsView_set {c : AclCache}
    (hp : cache.rightIdxNameMap <+: c.rightIdxNameMap) (objname : String)
    (obj' : Option AclObjectCache) :
    ({ c with objects := Function.update cache.objects objname obj' } : AclCache).rightsView =
      Function.update cache.rightsView objname (obj'.map (·.rightsOf c.rightIdxNameMap)) := by
  funext n
  by_cases hn : n = objname
  · subst hn; simp only [AclCache.rightsView, Function.update_same]
  · simp only [AclCache.rightsView, Function.update_noteq hn]
    exact hb.map_rightsOf hp n

theorem AclCache.Bounded.set {c : AclCache}
    (hl : cache.rightIdxNameMap.length ≤ c.rightIdxNameMap.length) {objname : String}
    {obj' : Option AclObjectCache} (hobj : ∀ o, obj' = some o → o.Bounded c.rightIdxNameMap) :
    ({ c with objects := Function.update cache.objects objname obj' } : AclCache).Bounded := by
  intro n o (hn : Function.update cache.objects objname obj' n = some o)
  by_cases hk : n = objname
  · subst hk; rw [Function.update_same] at hn; exact hobj o hn
  · rw [Function.update_noteq hk] at hn; exact (hb n o hn).mono hl

theorem AclCache.Bounded.extend (hl : cache.rightIdxNameMap.length ≤ cache'.rightIdxNameMap.length)
    (ho : cache'.objects = cache.objects) : cache'.Bounded :=
  fun n o hn => (hb n o (ho ▸ hn)).mono hl

end View

/-! ## The interface, by name -/

/-- What one call does to the rights by name: an update creates the entry,
with no rights, if the object had none, and applies its modify modes to the
masks of its identifier type when the rights apply to the current user; a
flush drops entries; no other call changes them. -/
def AclCacheOp.specStep (backend : AclBackend)
    (view : String → Option (AclMaskSlot → String → Bool)) :
    AclCacheOp → String → Option (AclMaskSlot → String → Bool)
  | .update objname rights =>
    let o := (view objname).getD fun _ _ => false
    Function.update view objname
      (some (if aclRightsApply backend rights then updateRightsSpec o rights else o))
  | .flush objname => Function.update view objname none
  | .flushAll => fun _ => none
  | .maskInit _ | .rightLookup _ | .getMyRights _ => view

/-- The rights by name after a sequence of calls on a new cache. -/
def AclCacheOp.specRun (backend : AclBackend) (ops : List AclCacheOp) :
    String → Option (AclMaskSlot → String → Bool) :=
  ops.foldl (AclCacheOp.specStep backend) fun _ => none

theorem AclObjectCache.empty_bounded (names : List String) : AclObjectCache.empty.Bounded names
  | .pos _, _, _ | .neg _, _, _ => rfl

theorem AclCache.rightsView_getD (cache : AclCache) (objname : String) :
    (cache.rightsView objname).getD (fun _ _ => false) =
      ((cache.objects objname).getD .empty).rightsOf cache.rightIdxNameMap := by
  simp only [AclCache.rightsView]
  cases cache.objects objname with
  | none =>
    funext slot r
    cases slot <;> simp [AclObjectCache.rightsOf, maskNameHas, maskHas, AclObjectCache.get,
      AclObjectCache.empty]
  | some obj => rfl

/-- **Every call is a step of the model.** On a cache whose name table keeps
its invariant and whose masks have no bits past it, a call changes the rights
by name as `specStep` says, and leaves no bit past the new table. -/
theorem AclCacheOp.step_rightsView {cache : AclCache} (h : RightNamesInv cache)
    (hb : cache.Bounded) (op : AclCacheOp)
    (hlt : ((op.lookups cache.backend).foldl insertNew cache.rightIdxNameMap).length < 2 ^ 32) :
    (op.step cache).rightsView = op.specStep cache.backend cache.rightsView ∧
      (op.step cache).Bounded := by
  cases op with
  | update objname rights =>
    have hobj : ((cache.objects objname).getD .empty).Bounded cache.rightIdxNameMap := by
      cases ho : cache.objects objname with
      | none => exact AclObjectCache.empty_bounded _
      | some obj => exact hb objname obj ho
    simp only [AclCacheOp.step, aclCacheUpdate, AclCacheOp.specStep, AclCacheOp.lookups,
      AclCache.rightsView_getD] at hlt ⊢
    generalize (cache.objects objname).getD .empty = obj at hobj ⊢
    split
    · next happ =>
      simp only [happ, if_true] at hlt ⊢
      have h1 : RightNamesInv { cache with objects :=
          (Function.update cache.objects objname (some obj)) } := h.congr rfl rfl
      have hn := (h1.updateRights obj rights hlt).2.1
      have ho := aclCacheUpdateRights_objects { cache with objects :=
          (Function.update cache.objects objname (some obj)) } obj rights
      obtain ⟨hr, hbr⟩ := AclObjectCache.rightsOf_updateRights h1 hobj rights hlt
      generalize aclCacheUpdateRights { cache with objects :=
          (Function.update cache.objects objname (some obj)) } obj rights = r at hn ho hr hbr ⊢
      rw [← hn] at hr hbr
      have hp : cache.rightIdxNameMap <+: r.1.rightIdxNameMap := hn ▸ prefix_foldl_insertNew _ _
      rw [ho, Function.update_idem]
      exact ⟨(hb.rightsView_set hp _ _).trans (by rw [Option.map_some', hr]),
        hb.set hp.length_le fun o e => Option.some_inj.mp e ▸ hbr⟩
    · exact ⟨hb.rightsView_set (List.prefix_refl _) _ _,
        hb.set le_rfl fun o e => Option.some_inj.mp e ▸ hobj⟩
  | flush objname =>
    exact ⟨hb.rightsView_set (List.prefix_refl _) _ _, hb.set le_rfl nofun⟩
  | flushAll => exact ⟨rfl, nofun⟩
  | maskInit rights =>
    have hp : cache.rightIdxNameMap <+: (aclCacheMaskInit cache rights).1.rightIdxNameMap :=
      (h.maskInitLoop [] rights hlt).2 ▸ prefix_foldl_insertNew rights _
    have ho := (aclCacheMaskInit_objects cache rights).1
    exact ⟨hb.rightsView_extend hp ho, hb.extend hp.length_le ho⟩
  | rightLookup right =>
    have hp : cache.rightIdxNameMap <+: (aclCacheRightLookup cache right).1.rightIdxNameMap :=
      (h.lookup right hlt).2 ▸ prefix_foldl_insertNew [right] _
    have ho := (aclCacheRightLookup_objects cache right).1
    exact ⟨hb.rightsView_extend hp ho, hb.extend hp.length_le ho⟩
  | getMyRights objname =>
    simp only [AclCacheOp.step, aclCacheGetMyRights, AclCacheOp.specStep]
    split
    · exact ⟨rfl, hb⟩
    · next obj hobj =>
      split
      · exact ⟨rfl, hb⟩
      · refine ⟨(hb.rightsView_set (List.prefix_refl _) _ _).trans ?_,
          hb.set le_rfl fun o e => Option.some_inj.mp e ▸ hb objname obj hobj⟩
        exact Function.update_eq_self_iff.mpr (by simp [AclCache.rightsView, hobj]; rfl)

/-- **Every run is a run of the model**, from any cache whose name table keeps
its invariant, has no bit past it, and has room for the run's lookups. -/
theorem AclCacheOp.run_rightsView : ∀ {cache : AclCache} (ops : List AclCacheOp),
    RightNamesInv cache → cache.Bounded →
    ((ops.flatMap (AclCacheOp.lookups cache.backend)).foldl insertNew
      cache.rightIdxNameMap).length < 2 ^ 32 →
    (AclCacheOp.run cache ops).rightsView =
        ops.foldl (AclCacheOp.specStep cache.backend) cache.rightsView ∧
      (AclCacheOp.run cache ops).Bounded
  | _, [], _, hb, _ => ⟨rfl, hb⟩
  | cache, op :: ops, h, hb, hlt => by
    rw [List.flatMap_cons, List.foldl_append] at hlt
    have hlt1 := Nat.lt_of_le_of_lt (length_le_foldl_insertNew _ _) hlt
    have hs := h.step op hlt1
    have hv := AclCacheOp.step_rightsView h hb op hlt1
    rw [← hs.2.1, ← hs.2.2] at hlt
    have hr := AclCacheOp.run_rightsView ops hs.1 hv.2 hlt
    rw [hs.2.2, hv.1] at hr
    exact hr

/-- The runs that start from a new cache. -/
theorem AclCacheOp.run_init_rightsView (backend : AclBackend) (ops : List AclCacheOp)
    (hlt : (firstLookupOrder (ops.flatMap (AclCacheOp.lookups backend))).length < 2 ^ 32) :
    (AclCacheOp.run (aclCacheInit backend) ops).rightsView = AclCacheOp.specRun backend ops :=
  (AclCacheOp.run_rightsView ops (RightNamesInv.init backend)
    (fun _ _ e => Option.noConfusion e) hlt).1

/-! ## The current rights -/

/-- The rights `acl_cache_get_my_rights` stands for, given an entry's rights
by name: every right some mask of the entry holds, of any identifier type,
negative masks included, since the code ORs them in with the positive ones. -/
def currentRightsSpec (o : AclMaskSlot → String → Bool) (r : String) : Bool :=
  AclIdType.all.any fun i => o (.pos i) r || o (.neg i) r

theorem maskNameHas_recalculate (names : List String) (obj : AclObjectCache) :
    maskNameHas names (some (aclCacheMyCurrentRightsRecalculate obj)) =
      currentRightsSpec (obj.rightsOf names) := by
  funext r
  by_cases hr : r ∈ names <;>
    simp [maskNameHas, maskHas, recalculate_has, currentRightsSpec, AclObjectCache.rightsOf,
      AclObjectCache.get, hr]

/-- Where the stored current rights are fresh, `acl_cache_get_my_rights`
returns the recalculation of the entry's masks, and NULL for no entry. -/
theorem aclCacheGetMyRights_fresh {cache : AclCache} (hf : ObjectsFresh cache.objects) (n : String) :
    (aclCacheGetMyRights cache n).2 = (cache.objects n).map aclCacheMyCurrentRightsRecalculate := by
  unfold aclCacheGetMyRights
  split
  · next hobj => rw [hobj]; rfl
  · next obj hobj =>
    rw [hobj]
    split
    · next m hm => rw [hf n obj hobj m hm]; rfl
    · rfl

/-- What `acl_cache_get_my_rights` returns after a run on a new cache, read by
name: NULL where the model has no entry, else the union of the entry's rights. -/
theorem AclCacheOp.run_init_currentRights (backend : AclBackend) (ops : List AclCacheOp)
    (hlt : (firstLookupOrder (ops.flatMap (AclCacheOp.lookups backend))).length < 2 ^ 32)
    (n : String) :
    (aclCacheGetMyRights (AclCacheOp.run (aclCacheInit backend) ops) n).2.map
        (fun m => maskNameHas (AclCacheOp.run (aclCacheInit backend) ops).rightIdxNameMap (some m)) =
      (AclCacheOp.specRun backend ops n).map currentRightsSpec := by
  have hspec := AclCacheOp.run_init_rightsView backend ops hlt
  have hf : ObjectsFresh (AclCacheOp.run (aclCacheInit backend) ops).objects :=
    AclCacheOp.run_fresh (fun _ _ e => Option.noConfusion e) ops
  generalize AclCacheOp.run (aclCacheInit backend) ops = cache at hspec hf
  rw [aclCacheGetMyRights_fresh hf, ← hspec, AclCache.rightsView, Option.map_map, Option.map_map]
  exact congrArg (Option.map · (cache.objects n)) (funext (maskNameHas_recalculate _))

/-- **The cache implements its model.** After any run of calls on a new cache
that looks up fewer than `2^32` distinct names, every entry holds, by name,
the rights the model's run gives it, and `acl_cache_get_my_rights` returns
NULL where the model has no entry and otherwise the union of the entry's
rights. -/
theorem aclCache_rightsView (backend : AclBackend) (ops : List AclCacheOp)
    (hlt : (firstLookupOrder (ops.flatMap (AclCacheOp.lookups backend))).length < 2 ^ 32) :
    (AclCacheOp.run (aclCacheInit backend) ops).rightsView = AclCacheOp.specRun backend ops ∧
      ∀ n, (aclCacheGetMyRights (AclCacheOp.run (aclCacheInit backend) ops) n).2.map
          (fun m => maskNameHas (AclCacheOp.run (aclCacheInit backend) ops).rightIdxNameMap (some m)) =
        (AclCacheOp.specRun backend ops n).map currentRightsSpec :=
  ⟨AclCacheOp.run_init_rightsView backend ops hlt, AclCacheOp.run_init_currentRights backend ops hlt⟩

/-- A run on INBOX for the anonymous user: `lookup` and `read` granted to
anyone and `post` denied, then `read` removed and the negative rights
replaced by none; an update for authenticated users, which does not apply,
creating an empty entry for Sent; the current rights asked for; Sent flushed. -/
def rightsViewRun : List AclCacheOp :=
  [.update "INBOX" ⟨.anyone, "", .add, some ["lookup", "read"], .add, some ["post"]⟩,
    .update "INBOX" ⟨.anyone, "", .remove, some ["read"], .replace, none⟩,
    .update "Sent" ⟨.authenticated, "", .add, some ["insert"], .add, none⟩,
    .getMyRights "INBOX", .flush "Sent"]

theorem aclCache_rightsView_rightsViewRun :
    (firstLookupOrder (rightsViewRun.flatMap (AclCacheOp.lookups anonymousBackend))).length <
        2 ^ 32 ∧
      (AclCacheOp.run (aclCacheInit anonymousBackend) rightsViewRun).rightsView =
        AclCacheOp.specRun anonymousBackend rightsViewRun ∧
      ∀ n, (aclCacheGetMyRights (AclCacheOp.run (aclCacheInit anonymousBackend) rightsViewRun) n).2.map
          (fun m => maskNameHas
            (AclCacheOp.run (aclCacheInit anonymousBackend) rightsViewRun).rightIdxNameMap (some m)) =
        (AclCacheOp.specRun anonymousBackend rightsViewRun n).map currentRightsSpec :=
  ⟨by decide, aclCache_rightsView anonymousBackend rightsViewRun (by decide)⟩

example : (aclCacheGetMyRights (AclCacheOp.run (aclCacheInit anonymousBackend) rightsViewRun)
    "INBOX").2.map (fun m => ["lookup", "read", "post"].map (maskNameHas
      (AclCacheOp.run (aclCacheInit anonymousBackend) rightsViewRun).rightIdxNameMap (some m))) =
    some [true, false, false] := by decide

end Dovecot
