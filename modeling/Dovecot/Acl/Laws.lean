import Dovecot.Acl.Refinement
/-!
Laws of the cache's interface, read through the rights by name. Two runs may
leave masks that differ bit for bit, since `right_idx_name_map` grows in the
order names are first looked up, and still agree on every right by name. An
update made twice in a row changes nothing more than made once
(`aclCacheUpdate_idempotent`); updates of two different objects commute
(`aclCacheUpdate_comm`); `acl_cache_flush_all` forgets every right
(`aclCacheFlushAll_forgets`); an entry depends only on the calls naming it
(`aclCache_rightsView_local`); an update that only adds takes away no
current right, one that only removes grants none (`aclCacheUpdate_monotone`);
an update reads its rights lists as sets (`aclCacheUpdate_sameNames`); and one
for someone else grants nothing but creates its entry
(`aclCacheUpdate_not_applies`). All are laws of the model's step, carried to the code by the run refinement
`AclCacheOp.run_init_rightsView`. What makes the
reading by name sound is that every bit has a name (`aclCache_bits_named`),
and a mask built from a list of rights holds, by name, exactly that list
(`aclCacheMaskInit_names`).
-/

namespace Dovecot

/-! ## The model -/

theorem AclModifyMode.apply_idem (mode : AclModifyMode) (x c : Bool) :
    mode.apply (mode.apply x c) c = mode.apply x c := by
  cases mode <;> cases x <;> cases c <;> rfl

theorem modifyRights_idem (o : AclMaskSlot → String → Bool) (slot : AclMaskSlot)
    (mode : AclModifyMode) (rights : Option (List String)) :
    modifyRights (modifyRights o slot mode rights) slot mode rights =
      modifyRights o slot mode rights := by
  funext s r
  by_cases hs : s = slot <;> simp only [modifyRights, hs, if_true, if_false, AclModifyMode.apply_idem]

/-- Modifying two different masks, in either order. -/
theorem modifyRights_comm (o : AclMaskSlot → String → Bool) {s₁ s₂ : AclMaskSlot} (hs : s₁ ≠ s₂)
    (m₁ m₂ : AclModifyMode) (r₁ r₂ : Option (List String)) :
    modifyRights (modifyRights o s₁ m₁ r₁) s₂ m₂ r₂ = modifyRights (modifyRights o s₂ m₂ r₂) s₁ m₁ r₁ := by
  funext s r
  by_cases h₁ : s = s₁
  · subst h₁; simp only [modifyRights, hs, if_true, if_false]
  · by_cases h₂ : s = s₂ <;> simp only [modifyRights, h₁, h₂, hs.symm, if_true, if_false]

theorem updateRightsSpec_idem (o : AclMaskSlot → String → Bool) (rights : AclRights) :
    updateRightsSpec (updateRightsSpec o rights) rights = updateRightsSpec o rights := by
  have hs : (AclMaskSlot.pos rights.idType) ≠ .neg rights.idType := nofun
  simp only [updateRightsSpec]
  rw [modifyRights_comm _ hs.symm, modifyRights_idem, modifyRights_idem]

theorem AclCacheOp.specStep_update_idem (backend : AclBackend)
    (view : String → Option (AclMaskSlot → String → Bool)) (objname : String) (rights : AclRights) :
    (AclCacheOp.update objname rights).specStep backend
        ((AclCacheOp.update objname rights).specStep backend view) =
      (AclCacheOp.update objname rights).specStep backend view := by
  simp only [AclCacheOp.specStep, Function.update_same, Option.getD_some, Function.update_idem]
  split <;> simp only [updateRightsSpec_idem]

theorem AclCacheOp.specStep_update_comm (backend : AclBackend)
    (view : String → Option (AclMaskSlot → String → Bool)) {n₁ n₂ : String} (hn : n₁ ≠ n₂)
    (r₁ r₂ : AclRights) :
    (AclCacheOp.update n₂ r₂).specStep backend ((AclCacheOp.update n₁ r₁).specStep backend view) =
      (AclCacheOp.update n₁ r₁).specStep backend ((AclCacheOp.update n₂ r₂).specStep backend view) := by
  simp only [AclCacheOp.specStep, Function.update_noteq hn, Function.update_noteq hn.symm]
  exact Function.update_comm hn _ _ _

/-! ## Room in the name table -/

theorem foldl_insertNew_of_mem : ∀ {rs names : List String}, (∀ r ∈ rs, r ∈ names) →
    rs.foldl insertNew names = names
  | [], _, _ => rfl
  | r :: rs, names, h => by
    rw [List.foldl_cons, insertNew, if_pos (h r (List.mem_cons_self r rs))]
    exact foldl_insertNew_of_mem fun x hx => h x (List.mem_cons_of_mem r hx)

theorem nodup_foldl_insertNew : ∀ (rs : List String) {names : List String}, names.Nodup →
    (rs.foldl insertNew names).Nodup
  | [], _, h => h
  | r :: rs, _, h => nodup_foldl_insertNew rs (insertNew_nodup h r)

theorem mem_firstLookupOrder {rs : List String} {r : String} : r ∈ firstLookupOrder rs ↔ r ∈ rs := by
  simp only [firstLookupOrder, mem_foldl_insertNew, List.not_mem_nil, false_or]

/-- A run looking up no other names looks up at most as many. -/
theorem firstLookupOrder_length_le {rs rs' : List String} (h : ∀ r ∈ rs, r ∈ rs') :
    (firstLookupOrder rs).length ≤ (firstLookupOrder rs').length :=
  (List.subperm_of_subset (nodup_foldl_insertNew rs List.nodup_nil) fun r hr =>
    mem_firstLookupOrder.mpr (h r (mem_firstLookupOrder.mp hr))).length_le

/-- The names a run looks up, in a new order: as many. -/
theorem firstLookupOrder_length_perm {rs rs' : List String} (h : rs.Perm rs') :
    (firstLookupOrder rs).length = (firstLookupOrder rs').length :=
  Nat.le_antisymm (firstLookupOrder_length_le fun _ hr => h.subset hr)
    (firstLookupOrder_length_le fun _ hr => h.symm.subset hr)

/-! ## The code -/

/-- **Repeating an update changes no right.** After any run on a new cache,
an update made a second time leaves every entry's rights by name as the first
left them. -/
theorem aclCacheUpdate_idempotent (backend : AclBackend) (ops : List AclCacheOp)
    (objname : String) (rights : AclRights)
    (hlt : (firstLookupOrder ((ops ++ [AclCacheOp.update objname rights]).flatMap
      (AclCacheOp.lookups backend))).length < 2 ^ 32) :
    (AclCacheOp.run (aclCacheInit backend)
        (ops ++ [AclCacheOp.update objname rights, AclCacheOp.update objname rights])).rightsView =
      (AclCacheOp.run (aclCacheInit backend) (ops ++ [AclCacheOp.update objname rights])).rightsView := by
  have hnames : firstLookupOrder ((ops ++ [AclCacheOp.update objname rights, AclCacheOp.update objname rights]).flatMap
      (AclCacheOp.lookups backend)) =
      firstLookupOrder ((ops ++ [AclCacheOp.update objname rights]).flatMap (AclCacheOp.lookups backend)) := by
    simp only [firstLookupOrder, List.flatMap_append, List.flatMap_cons, List.flatMap_nil,
      List.append_nil, ← List.append_assoc, List.foldl_append]
    exact foldl_insertNew_of_mem fun r hr => mem_foldl_insertNew.mpr (Or.inr hr)
  rw [AclCacheOp.run_init_rightsView backend _ (hnames ▸ hlt),
    AclCacheOp.run_init_rightsView backend _ hlt, AclCacheOp.specRun, AclCacheOp.specRun,
    List.foldl_append, List.foldl_append]
  exact AclCacheOp.specStep_update_idem backend _ objname rights

/-- `lookup` and `read` granted to anyone, `post` denied. -/
def anyoneLookup : AclRights := ⟨.anyone, "", .add, some ["lookup", "read"], .add, some ["post"]⟩

theorem aclCacheUpdate_idempotent_anyoneLookup :
    (firstLookupOrder (([AclCacheOp.maskInit ["read"]] ++ [AclCacheOp.update "INBOX" anyoneLookup]).flatMap
      (AclCacheOp.lookups anonymousBackend))).length < 2 ^ 32 ∧
    (AclCacheOp.run (aclCacheInit anonymousBackend) ([AclCacheOp.maskInit ["read"]] ++
        [AclCacheOp.update "INBOX" anyoneLookup, AclCacheOp.update "INBOX" anyoneLookup])).rightsView =
      (AclCacheOp.run (aclCacheInit anonymousBackend)
        ([AclCacheOp.maskInit ["read"]] ++ [AclCacheOp.update "INBOX" anyoneLookup])).rightsView :=
  ⟨by decide, aclCacheUpdate_idempotent anonymousBackend [.maskInit ["read"]] "INBOX" anyoneLookup
    (by decide)⟩

/-- **Updates of different objects commute.** After any run on a new cache,
two updates of different objects leave the same rights by name in either
order, though the name table may list their rights in another order. -/
theorem aclCacheUpdate_comm (backend : AclBackend) (ops : List AclCacheOp) {n₁ n₂ : String}
    (hn : n₁ ≠ n₂) (r₁ r₂ : AclRights)
    (hlt : (firstLookupOrder ((ops ++ [AclCacheOp.update n₁ r₁, AclCacheOp.update n₂ r₂]).flatMap
      (AclCacheOp.lookups backend))).length < 2 ^ 32) :
    (AclCacheOp.run (aclCacheInit backend) (ops ++ [AclCacheOp.update n₁ r₁, AclCacheOp.update n₂ r₂])).rightsView =
      (AclCacheOp.run (aclCacheInit backend) (ops ++ [AclCacheOp.update n₂ r₂, AclCacheOp.update n₁ r₁])).rightsView := by
  have hperm : ((ops ++ [AclCacheOp.update n₁ r₁, AclCacheOp.update n₂ r₂]).flatMap (AclCacheOp.lookups backend)).Perm
      ((ops ++ [AclCacheOp.update n₂ r₂, AclCacheOp.update n₁ r₁]).flatMap (AclCacheOp.lookups backend)) := by
    simp only [List.flatMap_append, List.flatMap_cons, List.flatMap_nil, List.append_nil]
    exact List.perm_append_comm.append_left _
  rw [AclCacheOp.run_init_rightsView backend _ hlt,
    AclCacheOp.run_init_rightsView backend _ (firstLookupOrder_length_perm hperm ▸ hlt),
    AclCacheOp.specRun, AclCacheOp.specRun, List.foldl_append, List.foldl_append]
  exact AclCacheOp.specStep_update_comm backend _ hn r₁ r₂

/-- `insert` and only `insert` granted to anyone. -/
def anyoneInsert : AclRights := ⟨.anyone, "", .replace, some ["insert"], .add, none⟩

theorem aclCacheUpdate_comm_inboxSent : "INBOX" ≠ "Sent" ∧
    (firstLookupOrder (([] ++ [AclCacheOp.update "INBOX" anyoneLookup,
      AclCacheOp.update "Sent" anyoneInsert]).flatMap
      (AclCacheOp.lookups anonymousBackend))).length < 2 ^ 32 ∧
    (AclCacheOp.run (aclCacheInit anonymousBackend) ([] ++ [AclCacheOp.update "INBOX" anyoneLookup,
        AclCacheOp.update "Sent" anyoneInsert])).rightsView =
      (AclCacheOp.run (aclCacheInit anonymousBackend) ([] ++ [AclCacheOp.update "Sent" anyoneInsert,
        AclCacheOp.update "INBOX" anyoneLookup])).rightsView :=
  ⟨by decide, by decide, aclCacheUpdate_comm anonymousBackend [] (by decide) anyoneLookup anyoneInsert
    (by decide)⟩

/-- The two orders leave different name tables, so different masks. -/
example : (AclCacheOp.run (aclCacheInit anonymousBackend) [AclCacheOp.update "INBOX" anyoneLookup,
      AclCacheOp.update "Sent" anyoneInsert]).rightIdxNameMap = ["lookup", "read", "post", "insert"] ∧
    (AclCacheOp.run (aclCacheInit anonymousBackend) [AclCacheOp.update "Sent" anyoneInsert,
      AclCacheOp.update "INBOX" anyoneLookup]).rightIdxNameMap = ["insert", "lookup", "read", "post"] := by
  decide

/-- **`acl_cache_flush_all` forgets every right.** After any run on a new
cache, a run that follows `acl_cache_flush_all` leaves the rights by name the
same run leaves on a new cache, although the name table keeps every name
looked up before. -/
theorem aclCacheFlushAll_forgets (backend : AclBackend) (ops₁ ops₂ : List AclCacheOp)
    (hlt : (firstLookupOrder ((ops₁ ++ AclCacheOp.flushAll :: ops₂).flatMap
      (AclCacheOp.lookups backend))).length < 2 ^ 32) :
    (AclCacheOp.run (aclCacheInit backend) (ops₁ ++ AclCacheOp.flushAll :: ops₂)).rightsView =
      (AclCacheOp.run (aclCacheInit backend) ops₂).rightsView := by
  have hle : (firstLookupOrder (ops₂.flatMap (AclCacheOp.lookups backend))).length ≤
      (firstLookupOrder ((ops₁ ++ AclCacheOp.flushAll :: ops₂).flatMap
        (AclCacheOp.lookups backend))).length :=
    firstLookupOrder_length_le fun r hr => by
      simp only [List.flatMap_append, List.flatMap_cons, List.mem_append] at hr ⊢
      exact .inr (.inr hr)
  rw [AclCacheOp.run_init_rightsView backend _ hlt,
    AclCacheOp.run_init_rightsView backend _ (Nat.lt_of_le_of_lt hle hlt),
    AclCacheOp.specRun, AclCacheOp.specRun, List.foldl_append, List.foldl_cons]
  rfl

theorem aclCacheFlushAll_forgets_inbox :
    (firstLookupOrder (([AclCacheOp.update "INBOX" anyoneLookup] ++ AclCacheOp.flushAll ::
      [AclCacheOp.update "INBOX" anyoneInsert]).flatMap (AclCacheOp.lookups anonymousBackend))).length <
        2 ^ 32 ∧
    (AclCacheOp.run (aclCacheInit anonymousBackend) ([AclCacheOp.update "INBOX" anyoneLookup] ++
        AclCacheOp.flushAll :: [AclCacheOp.update "INBOX" anyoneInsert])).rightsView =
      (AclCacheOp.run (aclCacheInit anonymousBackend) [AclCacheOp.update "INBOX" anyoneInsert]).rightsView :=
  ⟨by decide, aclCacheFlushAll_forgets anonymousBackend [.update "INBOX" anyoneLookup]
    [.update "INBOX" anyoneInsert] (by decide)⟩

/-! ## Every bit has a name -/

theorem AclObjectCache.Bounded.recalculate {names : List String} {obj : AclObjectCache}
    (hb : obj.Bounded names) {i : Nat} (hi : names.length ≤ i) :
    (aclCacheMyCurrentRightsRecalculate obj).has i = false := by
  rw [recalculate_has, List.any_eq_false]
  intro t _
  rw [Bool.not_eq_true, Bool.or_eq_false_iff]
  exact ⟨hb (.pos t) i hi, hb (.neg t) i hi⟩

/-- **Every bit has a name.** After any run on a new cache that looks up
fewer than `2^32` distinct names, no mask of any entry, nor any mask
`acl_cache_get_my_rights` returns, has a bit at an index to which
`acl_cache_get_names` gives no name. -/
theorem aclCache_bits_named (backend : AclBackend) (ops : List AclCacheOp)
    (hlt : (firstLookupOrder (ops.flatMap (AclCacheOp.lookups backend))).length < 2 ^ 32) :
    (∀ n obj slot i, (AclCacheOp.run (aclCacheInit backend) ops).objects n = some obj →
        maskHas (obj.get slot) i = true →
        i < (aclCacheGetNames (AclCacheOp.run (aclCacheInit backend) ops)).2) ∧
      ∀ n m i, (aclCacheGetMyRights (AclCacheOp.run (aclCacheInit backend) ops) n).2 = some m →
        m.has i = true → i < (aclCacheGetNames (AclCacheOp.run (aclCacheInit backend) ops)).2 := by
  have hb := (AclCacheOp.run_rightsView ops (RightNamesInv.init backend)
    (fun _ _ e => Option.noConfusion e) hlt).2
  have hf : ObjectsFresh (AclCacheOp.run (aclCacheInit backend) ops).objects :=
    AclCacheOp.run_fresh (fun _ _ e => Option.noConfusion e) ops
  generalize AclCacheOp.run (aclCacheInit backend) ops = cache at hb hf
  refine ⟨fun n obj slot i ho hm => Nat.lt_of_not_le fun hi => ?_, fun n m i hm hi => ?_⟩
  · rw [hb n obj ho slot i hi] at hm; cases hm
  · rw [aclCacheGetMyRights_fresh hf] at hm
    obtain ⟨obj, ho, rfl⟩ := Option.map_eq_some'.mp hm
    exact Nat.lt_of_not_le fun hl => by rw [(hb n obj ho).recalculate hl] at hi; cases hi

/-- A run: two updates of INBOX, then the current rights asked for. -/
def bitsNamedRun : List AclCacheOp :=
  [.update "INBOX" anyoneLookup, .update "INBOX" anyoneInsert, .getMyRights "INBOX"]

theorem aclCache_bits_named_bitsNamedRun :
    (firstLookupOrder (bitsNamedRun.flatMap (AclCacheOp.lookups anonymousBackend))).length < 2 ^ 32 ∧
    (∀ n obj slot i, (AclCacheOp.run (aclCacheInit anonymousBackend) bitsNamedRun).objects n = some obj →
        maskHas (obj.get slot) i = true →
        i < (aclCacheGetNames (AclCacheOp.run (aclCacheInit anonymousBackend) bitsNamedRun)).2) ∧
      ∀ n m i, (aclCacheGetMyRights (AclCacheOp.run (aclCacheInit anonymousBackend) bitsNamedRun) n).2 =
          some m →
        m.has i = true → i < (aclCacheGetNames (AclCacheOp.run (aclCacheInit anonymousBackend) bitsNamedRun)).2 :=
  ⟨by decide, aclCache_bits_named anonymousBackend bitsNamedRun (by decide)⟩

/-- A mask built from a list of rights, read through the table its lookups
leave, holds the rights of the list, and has no bit past the table. -/
theorem RightNamesInv.maskInit_names {cache : AclCache} (h : RightNamesInv cache) (rs : List String)
    (hlt : (rs.foldl insertNew cache.rightIdxNameMap).length < 2 ^ 32) :
    (∀ r, maskNameHas (aclCacheMaskInit cache rs).1.rightIdxNameMap
        (some (aclCacheMaskInit cache rs).2) r = decide (r ∈ rs)) ∧
      ∀ i, (aclCacheMaskInit cache rs).2.has i = true →
        i < (aclCacheMaskInit cache rs).1.rightIdxNameMap.length := by
  have hn : (aclCacheMaskInit cache rs).1.rightIdxNameMap = rs.foldl insertNew cache.rightIdxNameMap :=
    (h.maskInitLoop [] rs hlt).2
  have hnew : ∀ i, maskHas (some (aclCacheMaskInit cache rs).2) i =
      AclModifyMode.replace.apply (maskHas none i)
        (decide (i ∈ rs.map (rs.foldl insertNew cache.rightIdxNameMap).indexOf)) := fun i => by
    rw [maskHas_aclCacheMaskInit, h.lookups_indexOf rs hlt]; rfl
  have hp := prefix_foldl_insertNew rs cache.rightIdxNameMap
  have hrs : ∀ x ∈ rs, x ∈ rs.foldl insertNew cache.rightIdxNameMap :=
    fun _ hx => mem_foldl_insertNew.mpr (Or.inr hx)
  have hold : ∀ i, cache.rightIdxNameMap.length ≤ i → maskHas none i = false := fun _ _ => rfl
  rw [hn]
  exact ⟨maskNameHas_modify hp hrs hold hnew, fun i hi => Nat.lt_of_not_le fun hl =>
    Bool.false_ne_true ((maskHas_modify_bound hp hrs hold hnew i hl).symm.trans hi)⟩

/-- **`acl_cache_mask_init` against `acl_cache_get_names`.** After any run on
a new cache, a mask built from a list of rights holds, read through the names
the cache then has, exactly the rights of the list, and no bit without a name. -/
theorem aclCacheMaskInit_names (backend : AclBackend) (ops : List AclCacheOp) (rs : List String)
    (hlt : (firstLookupOrder ((ops ++ [AclCacheOp.maskInit rs]).flatMap
      (AclCacheOp.lookups backend))).length < 2 ^ 32) :
    (∀ r, maskNameHas (aclCacheGetNames (aclCacheMaskInit (AclCacheOp.run (aclCacheInit backend) ops) rs).1).1
        (some (aclCacheMaskInit (AclCacheOp.run (aclCacheInit backend) ops) rs).2) r = decide (r ∈ rs)) ∧
      ∀ i, (aclCacheMaskInit (AclCacheOp.run (aclCacheInit backend) ops) rs).2.has i = true →
        i < (aclCacheGetNames (aclCacheMaskInit (AclCacheOp.run (aclCacheInit backend) ops) rs).1).2 := by
  rw [List.flatMap_append, firstLookupOrder, List.foldl_append] at hlt
  simp only [List.flatMap_cons, List.flatMap_nil, List.append_nil, AclCacheOp.lookups] at hlt
  have hr := RightNamesInv.run ops (RightNamesInv.init backend)
    (Nat.lt_of_le_of_lt (length_le_foldl_insertNew _ _) hlt)
  have hn : (AclCacheOp.run (aclCacheInit backend) ops).rightIdxNameMap =
      (ops.flatMap (AclCacheOp.lookups backend)).foldl insertNew [] := hr.2.1
  rw [← hn] at hlt
  exact hr.1.maskInit_names rs hlt

theorem aclCacheMaskInit_names_read : (firstLookupOrder (([AclCacheOp.rightLookup "write"] ++
      [AclCacheOp.maskInit ["read", "write", "read"]]).flatMap
      (AclCacheOp.lookups anonymousBackend))).length < 2 ^ 32 ∧
    (∀ r, maskNameHas (aclCacheGetNames (aclCacheMaskInit (AclCacheOp.run (aclCacheInit anonymousBackend)
        [AclCacheOp.rightLookup "write"]) ["read", "write", "read"]).1).1
        (some (aclCacheMaskInit (AclCacheOp.run (aclCacheInit anonymousBackend)
          [AclCacheOp.rightLookup "write"]) ["read", "write", "read"]).2) r =
        decide (r ∈ ["read", "write", "read"])) ∧
      ∀ i, (aclCacheMaskInit (AclCacheOp.run (aclCacheInit anonymousBackend)
          [AclCacheOp.rightLookup "write"]) ["read", "write", "read"]).2.has i = true →
        i < (aclCacheGetNames (aclCacheMaskInit (AclCacheOp.run (aclCacheInit anonymousBackend)
          [AclCacheOp.rightLookup "write"]) ["read", "write", "read"]).1).2 :=
  ⟨by decide, aclCacheMaskInit_names anonymousBackend [.rightLookup "write"] ["read", "write", "read"]
    (by decide)⟩

/-! ## An entry depends only on the calls naming it -/

/-- The calls that can change the entry of `n`: its updates and flushes, and
`acl_cache_flush_all`. -/
def AclCacheOp.touches (n : String) : AclCacheOp → Bool
  | .update objname _ | .flush objname => objname == n
  | .flushAll => true
  | .maskInit _ | .rightLookup _ | .getMyRights _ => false

theorem AclCacheOp.specStep_congr_at (backend : AclBackend) {n : String}
    {view view' : String → Option (AclMaskSlot → String → Bool)} (h : view n = view' n) :
    ∀ op : AclCacheOp, op.specStep backend view n = op.specStep backend view' n
  | .update objname _ | .flush objname => by
    by_cases hn : n = objname
    · subst hn; simp only [AclCacheOp.specStep, Function.update_same, h]
    · simp only [AclCacheOp.specStep, Function.update_noteq hn, h]
  | .flushAll => rfl
  | .maskInit _ | .rightLookup _ | .getMyRights _ => h

theorem AclCacheOp.specStep_of_not_touches (backend : AclBackend) {n : String}
    (view : String → Option (AclMaskSlot → String → Bool)) :
    ∀ {op : AclCacheOp}, op.touches n = false → op.specStep backend view n = view n
  | .update objname _, h | .flush objname, h => by
    have hn : n ≠ objname := fun e => by simp [AclCacheOp.touches, e] at h
    simp only [AclCacheOp.specStep, Function.update_noteq hn]
  | .maskInit _, _ | .rightLookup _, _ | .getMyRights _, _ => rfl

/-- In the model, the entry of `n` after a sequence of calls is what the calls
naming it make of it. -/
theorem AclCacheOp.foldl_specStep_filter (backend : AclBackend) (n : String) :
    ∀ (ops : List AclCacheOp) {view view' : String → Option (AclMaskSlot → String → Bool)},
      view n = view' n → ops.foldl (AclCacheOp.specStep backend) view n =
        (ops.filter (·.touches n)).foldl (AclCacheOp.specStep backend) view' n
  | [], _, _, h => h
  | op :: ops, view, view', h => by
    cases ht : op.touches n
    · rw [List.filter_cons_of_neg (by simp [ht]), List.foldl_cons]
      exact AclCacheOp.foldl_specStep_filter backend n ops
        ((AclCacheOp.specStep_of_not_touches backend view ht).trans h)
    · rw [List.filter_cons_of_pos ht, List.foldl_cons, List.foldl_cons]
      exact AclCacheOp.foldl_specStep_filter backend n ops (AclCacheOp.specStep_congr_at backend h op)

/-- **An entry depends only on the calls naming it.** After any run on a new
cache that looks up fewer than `2^32` distinct names, the rights by name of
the entry of `n` are those the run's updates and flushes of `n` and its
`acl_cache_flush_all` calls leave, in their order, with every other call left
out: lookups, `acl_cache_get_my_rights` and the calls on other objects change
nothing of it, although they change the name table its masks are read through. -/
theorem aclCache_rightsView_local (backend : AclBackend) (ops : List AclCacheOp) (n : String)
    (hlt : (firstLookupOrder (ops.flatMap (AclCacheOp.lookups backend))).length < 2 ^ 32) :
    (AclCacheOp.run (aclCacheInit backend) ops).rightsView n =
      (AclCacheOp.run (aclCacheInit backend) (ops.filter (·.touches n))).rightsView n := by
  have hle : (firstLookupOrder ((ops.filter (·.touches n)).flatMap
      (AclCacheOp.lookups backend))).length ≤
      (firstLookupOrder (ops.flatMap (AclCacheOp.lookups backend))).length :=
    firstLookupOrder_length_le fun r hr => by
      obtain ⟨op, hop, hr⟩ := List.mem_flatMap.mp hr
      exact List.mem_flatMap.mpr ⟨op, List.mem_of_mem_filter hop, hr⟩
  rw [AclCacheOp.run_init_rightsView backend _ hlt,
    AclCacheOp.run_init_rightsView backend _ (Nat.lt_of_le_of_lt hle hlt)]
  exact AclCacheOp.foldl_specStep_filter backend n ops rfl

/-- A run on INBOX and Sent with lookups in between. -/
def localRun : List AclCacheOp :=
  [.update "INBOX" anyoneInsert, .rightLookup "admin", .update "Sent" anyoneLookup,
    .flush "INBOX", .getMyRights "Sent", .update "INBOX" anyoneLookup]

theorem aclCache_rightsView_local_localRun :
    (firstLookupOrder (localRun.flatMap (AclCacheOp.lookups anonymousBackend))).length < 2 ^ 32 ∧
    (AclCacheOp.run (aclCacheInit anonymousBackend) localRun).rightsView "INBOX" =
      (AclCacheOp.run (aclCacheInit anonymousBackend)
        (localRun.filter (·.touches "INBOX"))).rightsView "INBOX" :=
  ⟨by decide, aclCache_rightsView_local anonymousBackend localRun "INBOX" (by decide)⟩

example : localRun.filter (·.touches "INBOX") =
    [.update "INBOX" anyoneInsert, .flush "INBOX", .update "INBOX" anyoneLookup] := rfl


/-! ## Granting and revoking -/

theorem AclModifyMode.apply_add_of {x : Bool} (c : Bool) (h : x = true) :
    AclModifyMode.add.apply x c = true := by
  rw [h]; rfl

theorem AclModifyMode.of_apply_remove {x c : Bool} (h : AclModifyMode.remove.apply x c = true) :
    x = true :=
  (Bool.and_eq_true _ _).mp h |>.1

theorem modifyRights_add_of {o : AclMaskSlot → String → Bool} (slot : AclMaskSlot)
    (rights : Option (List String)) {s : AclMaskSlot} {r : String} (h : o s r = true) :
    modifyRights o slot .add rights s r = true := by
  unfold modifyRights
  split
  · exact AclModifyMode.apply_add_of _ h
  · exact h

theorem of_modifyRights_remove {o : AclMaskSlot → String → Bool} {slot : AclMaskSlot}
    {rights : Option (List String)} {s : AclMaskSlot} {r : String}
    (h : modifyRights o slot .remove rights s r = true) : o s r = true := by
  unfold modifyRights at h
  split at h
  · exact AclModifyMode.of_apply_remove h
  · exact h

/-- More rights in some mask, more current rights. -/
theorem currentRightsSpec_mono {o o' : AclMaskSlot → String → Bool}
    (h : ∀ s r, o s r = true → o' s r = true) (r : String) (hr : currentRightsSpec o r = true) :
    currentRightsSpec o' r = true := by
  simp only [currentRightsSpec, List.any_eq_true, Bool.or_eq_true] at hr ⊢
  obtain ⟨i, hi, hr⟩ := hr
  exact ⟨i, hi, hr.imp (h _ r) (h _ r)⟩

@[simp] theorem currentRightsSpec_false (r : String) : currentRightsSpec (fun _ _ => false) r = false :=
  rfl

section Update

variable (backend : AclBackend) (view : String → Option (AclMaskSlot → String → Bool))
  (objname : String) (rights : AclRights)

/-- In the model, an update that can only add to its entry's masks takes away
no current right of any entry. -/
theorem AclCacheOp.specStep_update_keeps
    (hmono : ∀ o s r, o s r = true → updateRightsSpec o rights s r = true)
    (n r : String) (h : ((view n).map currentRightsSpec).any (· r) = true) :
    (((AclCacheOp.update objname rights).specStep backend view n).map currentRightsSpec).any (· r) = true := by
  by_cases hn : n = objname
  · subst hn
    cases ho : view n with
    | none => simp only [ho, Option.map_none', Option.any_none, Bool.false_eq_true] at h
    | some o =>
      simp only [ho, Option.map_some', Option.any_some] at h
      simp only [AclCacheOp.specStep, Function.update_same, ho, Option.getD_some, Option.map_some',
        Option.any_some]
      split
      · exact currentRightsSpec_mono (hmono o) r h
      · exact h
  · simpa only [AclCacheOp.specStep, Function.update_noteq hn] using h

/-- In the model, an update that can only take from its entry's masks grants no
current right to any entry. -/
theorem AclCacheOp.specStep_update_grantsNone
    (hmono : ∀ o s r, updateRightsSpec o rights s r = true → o s r = true)
    (n r : String)
    (h : (((AclCacheOp.update objname rights).specStep backend view n).map currentRightsSpec).any (· r) = true) :
    ((view n).map currentRightsSpec).any (· r) = true := by
  by_cases hn : n = objname
  · subst hn
    simp only [AclCacheOp.specStep, Function.update_same, Option.map_some', Option.any_some] at h
    have hold : currentRightsSpec ((view n).getD fun _ _ => false) r = true := by
      split at h
      · exact currentRightsSpec_mono (hmono _) r h
      · exact h
    cases ho : view n with
    | none => simp only [ho, Option.getD_none, currentRightsSpec_false, Bool.false_eq_true] at hold
    | some o => simpa only [ho, Option.getD_some, Option.map_some', Option.any_some] using hold
  · simpa only [AclCacheOp.specStep, Function.update_noteq hn] using h

end Update

theorem firstLookupOrder_append_left_le (backend : AclBackend) (ops ops' : List AclCacheOp) :
    (firstLookupOrder (ops.flatMap (AclCacheOp.lookups backend))).length ≤
      (firstLookupOrder ((ops ++ ops').flatMap (AclCacheOp.lookups backend))).length :=
  firstLookupOrder_length_le fun r hr => by
    simp only [List.flatMap_append, List.mem_append]
    exact .inl hr

/-- **Adding never revokes, removing never grants.** After any run on a new
cache, an `acl_cache_update` whose two modify modes are ADD takes away no right
that `acl_cache_get_my_rights` reports for any object, read by name; one whose
two modes are REMOVE adds none. -/
theorem aclCacheUpdate_monotone (backend : AclBackend) (ops : List AclCacheOp)
    (objname : String) (rights : AclRights)
    (hlt : (firstLookupOrder ((ops ++ [AclCacheOp.update objname rights]).flatMap
      (AclCacheOp.lookups backend))).length < 2 ^ 32) :
    (rights.modifyMode = .add → rights.negModifyMode = .add → ∀ n r,
      ((aclCacheGetMyRights (AclCacheOp.run (aclCacheInit backend) ops) n).2.map
          (fun m => maskNameHas (AclCacheOp.run (aclCacheInit backend) ops).rightIdxNameMap (some m))).any
          (· r) = true →
        ((aclCacheGetMyRights (AclCacheOp.run (aclCacheInit backend)
            (ops ++ [AclCacheOp.update objname rights])) n).2.map
          (fun m => maskNameHas (AclCacheOp.run (aclCacheInit backend)
            (ops ++ [AclCacheOp.update objname rights])).rightIdxNameMap (some m))).any (· r) = true) ∧
    (rights.modifyMode = .remove → rights.negModifyMode = .remove → ∀ n r,
      ((aclCacheGetMyRights (AclCacheOp.run (aclCacheInit backend)
            (ops ++ [AclCacheOp.update objname rights])) n).2.map
          (fun m => maskNameHas (AclCacheOp.run (aclCacheInit backend)
            (ops ++ [AclCacheOp.update objname rights])).rightIdxNameMap (some m))).any (· r) = true →
        ((aclCacheGetMyRights (AclCacheOp.run (aclCacheInit backend) ops) n).2.map
          (fun m => maskNameHas (AclCacheOp.run (aclCacheInit backend) ops).rightIdxNameMap (some m))).any
          (· r) = true) := by
  have hlt₀ := Nat.lt_of_le_of_lt (firstLookupOrder_append_left_le backend ops _) hlt
  simp only [AclCacheOp.run_init_currentRights backend _ hlt, AclCacheOp.run_init_currentRights backend _ hlt₀,
    AclCacheOp.specRun, List.foldl_append, List.foldl_cons, List.foldl_nil]
  refine ⟨fun h₁ h₂ => AclCacheOp.specStep_update_keeps backend _ objname rights fun o s r h => ?_,
    fun h₁ h₂ => AclCacheOp.specStep_update_grantsNone backend _ objname rights fun o s r h => ?_⟩
  · rw [updateRightsSpec, h₁, h₂]
    exact modifyRights_add_of _ _ (modifyRights_add_of _ _ h)
  · rw [updateRightsSpec, h₁, h₂] at h
    exact of_modifyRights_remove (of_modifyRights_remove h)

/-- `post` taken from anyone, and the denial of `post` lifted. -/
def anyoneNoPost : AclRights := ⟨.anyone, "", .remove, some ["post"], .remove, some ["post"]⟩

/-- Both halves on INBOX: `anyoneLookup`, whose modes are both ADD, after
`insert` was granted; then `anyoneNoPost`, whose modes are both REMOVE. -/
theorem aclCacheUpdate_monotone_inbox :
    (firstLookupOrder (([AclCacheOp.update "INBOX" anyoneInsert] ++ [AclCacheOp.update "INBOX" anyoneLookup]).flatMap (AclCacheOp.lookups anonymousBackend))).length < 2 ^ 32 ∧
    (∀ n r, ((aclCacheGetMyRights (AclCacheOp.run (aclCacheInit anonymousBackend) [AclCacheOp.update "INBOX" anyoneInsert]) n).2.map
          (fun m => maskNameHas (AclCacheOp.run (aclCacheInit anonymousBackend) [AclCacheOp.update "INBOX" anyoneInsert]).rightIdxNameMap
            (some m))).any (· r) = true →
      ((aclCacheGetMyRights (AclCacheOp.run (aclCacheInit anonymousBackend) ([AclCacheOp.update "INBOX" anyoneInsert] ++ [AclCacheOp.update "INBOX" anyoneLookup])) n).2.map
          (fun m => maskNameHas (AclCacheOp.run (aclCacheInit anonymousBackend) ([AclCacheOp.update "INBOX" anyoneInsert] ++ [AclCacheOp.update "INBOX" anyoneLookup])).rightIdxNameMap
            (some m))).any (· r) = true) ∧
    (firstLookupOrder (([AclCacheOp.update "INBOX" anyoneLookup] ++ [AclCacheOp.update "INBOX" anyoneNoPost]).flatMap (AclCacheOp.lookups anonymousBackend))).length < 2 ^ 32 ∧
    (∀ n r, ((aclCacheGetMyRights (AclCacheOp.run (aclCacheInit anonymousBackend) ([AclCacheOp.update "INBOX" anyoneLookup] ++ [AclCacheOp.update "INBOX" anyoneNoPost])) n).2.map
          (fun m => maskNameHas (AclCacheOp.run (aclCacheInit anonymousBackend) ([AclCacheOp.update "INBOX" anyoneLookup] ++ [AclCacheOp.update "INBOX" anyoneNoPost])).rightIdxNameMap
            (some m))).any (· r) = true →
      ((aclCacheGetMyRights (AclCacheOp.run (aclCacheInit anonymousBackend) [AclCacheOp.update "INBOX" anyoneLookup]) n).2.map
          (fun m => maskNameHas (AclCacheOp.run (aclCacheInit anonymousBackend) [AclCacheOp.update "INBOX" anyoneLookup]).rightIdxNameMap
            (some m))).any (· r) = true) :=
  ⟨by decide, (aclCacheUpdate_monotone anonymousBackend [.update "INBOX" anyoneInsert] "INBOX"
      anyoneLookup (by decide)).1 rfl rfl,
    by decide, (aclCacheUpdate_monotone anonymousBackend [.update "INBOX" anyoneLookup] "INBOX"
      anyoneNoPost (by decide)).2 rfl rfl⟩

/-- Removing `post` from both masks leaves `lookup` and `read`: the denial of
`post` had made it a current right, as `acl_cache_my_current_rights_recalculate`
ORs every mask in. -/
example : ((aclCacheGetMyRights (AclCacheOp.run (aclCacheInit anonymousBackend)
      [.update "INBOX" anyoneLookup, .update "INBOX" anyoneNoPost]) "INBOX").2.map fun m =>
        ["lookup", "read", "post"].map (maskNameHas (AclCacheOp.run (aclCacheInit anonymousBackend)
          [.update "INBOX" anyoneLookup, .update "INBOX" anyoneNoPost]).rightIdxNameMap (some m))) =
      some [true, true, false] := by
  decide


/-! ## Rights lists are read as sets -/

/-- Two rights lists naming the same rights, NULL read as the empty list. -/
def sameNames (a b : Option (List String)) : Bool :=
  (a.getD []).all (· ∈ b.getD []) && (b.getD []).all (· ∈ a.getD [])

theorem sameNames_mem {a b : Option (List String)} (h : sameNames a b = true) (x : String) :
    x ∈ a.getD [] ↔ x ∈ b.getD [] := by
  simp only [sameNames, Bool.and_eq_true, List.all_eq_true, decide_eq_true_eq] at h
  exact ⟨h.1 x, h.2 x⟩

theorem modifyRights_congr (o : AclMaskSlot → String → Bool) (slot : AclMaskSlot) (mode : AclModifyMode)
    {a b : Option (List String)} (h : sameNames a b = true) :
    modifyRights o slot mode a = modifyRights o slot mode b := by
  funext s r
  simp only [modifyRights, sameNames_mem h r]

/-- **An update reads its rights lists as sets.** After any run on a new cache,
an `acl_cache_update` whose rights lists name the same rights as another's, in
any order, with any repeats, or NULL for an empty list, leaves every entry with
the same rights by name, though the masks may differ bit for bit. -/
theorem aclCacheUpdate_sameNames (backend : AclBackend) (ops : List AclCacheOp) (objname : String)
    (rights : AclRights) (r n : Option (List String))
    (hr : sameNames r rights.rights = true) (hn : sameNames n rights.negRights = true)
    (hlt : (firstLookupOrder ((ops ++ [AclCacheOp.update objname rights]).flatMap
      (AclCacheOp.lookups backend))).length < 2 ^ 32) :
    (AclCacheOp.run (aclCacheInit backend)
        (ops ++ [AclCacheOp.update objname { rights with rights := r, negRights := n }])).rightsView =
      (AclCacheOp.run (aclCacheInit backend) (ops ++ [AclCacheOp.update objname rights])).rightsView := by
  have happ : aclRightsApply backend { rights with rights := r, negRights := n } =
      aclRightsApply backend rights := rfl
  have hle : (firstLookupOrder ((ops ++ [AclCacheOp.update objname { rights with rights := r, negRights := n }]).flatMap
      (AclCacheOp.lookups backend))).length ≤
      (firstLookupOrder ((ops ++ [AclCacheOp.update objname rights]).flatMap
        (AclCacheOp.lookups backend))).length :=
    firstLookupOrder_length_le fun x hx => by
      simp only [List.flatMap_append, List.flatMap_cons, List.flatMap_nil, List.append_nil,
        List.mem_append, AclCacheOp.lookups, happ] at hx ⊢
      refine hx.imp_right fun hx => ?_
      cases ha : aclRightsApply backend rights <;>
        simp only [ha, Bool.false_eq_true, ↓reduceIte, List.not_mem_nil, List.mem_append] at hx ⊢
      exact hx.imp (sameNames_mem hr x).mp (sameNames_mem hn x).mp
  rw [AclCacheOp.run_init_rightsView backend _ (Nat.lt_of_le_of_lt hle hlt),
    AclCacheOp.run_init_rightsView backend _ hlt, AclCacheOp.specRun, AclCacheOp.specRun,
    List.foldl_append, List.foldl_append]
  simp only [List.foldl_cons, List.foldl_nil, AclCacheOp.specStep, happ, updateRightsSpec,
    modifyRights_congr _ _ _ hr, modifyRights_congr _ _ _ hn]

/-- The rights of `anyoneLookup` in another order, with a repeat. -/
theorem aclCacheUpdate_sameNames_reordered :
    sameNames (some ["read", "lookup", "read"]) anyoneLookup.rights = true ∧
    sameNames (some ["post"]) anyoneLookup.negRights = true ∧
    (firstLookupOrder (([AclCacheOp.maskInit ["post"]] ++ [AclCacheOp.update "INBOX" anyoneLookup]).flatMap
      (AclCacheOp.lookups anonymousBackend))).length < 2 ^ 32 ∧
    (AclCacheOp.run (aclCacheInit anonymousBackend) ([AclCacheOp.maskInit ["post"]] ++
        [AclCacheOp.update "INBOX"
          { anyoneLookup with rights := some ["read", "lookup", "read"], negRights := some ["post"] }])).rightsView =
      (AclCacheOp.run (aclCacheInit anonymousBackend)
        ([AclCacheOp.maskInit ["post"]] ++ [AclCacheOp.update "INBOX" anyoneLookup])).rightsView :=
  ⟨by decide, by decide, by decide, aclCacheUpdate_sameNames anonymousBackend [.maskInit ["post"]] "INBOX"
    anyoneLookup _ _ (by decide) (by decide) (by decide)⟩

/-- NULL and an empty list leave different masks: REPLACE with NULL drops the
mask, with an empty list keeps an empty one. -/
example : ((AclCacheOp.run (aclCacheInit anonymousBackend)
      [.update "INBOX" ⟨.anyone, "", .replace, none, .add, none⟩]).objects "INBOX").map
        (·.myRights .anyone |>.isSome) = some false ∧
    ((AclCacheOp.run (aclCacheInit anonymousBackend)
      [.update "INBOX" ⟨.anyone, "", .replace, some [], .add, none⟩]).objects "INBOX").map
        (·.myRights .anyone |>.isSome) = some true := by
  decide

/-! ## Updates for someone else -/

/-- **An update for someone else grants nothing, but creates the entry.** After
any run on a new cache, an `acl_cache_update` whose rights do not apply to the
current user changes no right that `acl_cache_get_my_rights` reports for any
object, read by name; but `acl_cache_get_my_rights` on its object no longer
returns NULL. -/
theorem aclCacheUpdate_not_applies (backend : AclBackend) (ops : List AclCacheOp) (objname : String)
    (rights : AclRights) (hna : aclRightsApply backend rights = false)
    (hlt : (firstLookupOrder (ops.flatMap (AclCacheOp.lookups backend))).length < 2 ^ 32) :
    (∀ n r,
      ((aclCacheGetMyRights (AclCacheOp.run (aclCacheInit backend)
            (ops ++ [AclCacheOp.update objname rights])) n).2.map
          (fun m => maskNameHas (AclCacheOp.run (aclCacheInit backend)
            (ops ++ [AclCacheOp.update objname rights])).rightIdxNameMap (some m))).any (· r) =
        ((aclCacheGetMyRights (AclCacheOp.run (aclCacheInit backend) ops) n).2.map
          (fun m => maskNameHas (AclCacheOp.run (aclCacheInit backend) ops).rightIdxNameMap (some m))).any
          (· r)) ∧
    (aclCacheGetMyRights (AclCacheOp.run (aclCacheInit backend)
      (ops ++ [AclCacheOp.update objname rights])) objname).2.isSome = true := by
  have hlt' : (firstLookupOrder ((ops ++ [AclCacheOp.update objname rights]).flatMap
      (AclCacheOp.lookups backend))).length < 2 ^ 32 := by
    simpa only [List.flatMap_append, List.flatMap_cons, List.flatMap_nil, AclCacheOp.lookups, hna,
      Bool.false_eq_true, ↓reduceIte, List.append_nil] using hlt
  have hafter := AclCacheOp.run_init_currentRights backend _ hlt'
  simp only [AclCacheOp.specRun, List.foldl_append, List.foldl_cons, List.foldl_nil,
    AclCacheOp.specStep, hna, Bool.false_eq_true, ↓reduceIte] at hafter
  refine ⟨fun n r => ?_, ?_⟩
  · rw [hafter, AclCacheOp.run_init_currentRights backend _ hlt, AclCacheOp.specRun]
    by_cases hn : n = objname
    · subst hn
      rw [Function.update_same]
      cases List.foldl (AclCacheOp.specStep backend) (fun _ => none) ops n <;> rfl
    · rw [Function.update_noteq hn]
  · have key := congrArg Option.isSome (hafter objname)
    rwa [Option.isSome_map', Option.isSome_map', Function.update_same] at key

/-- `post` granted to the user `bob`, not the anonymous user. -/
def bobPost : AclRights := ⟨.user, "bob", .add, some ["post"], .add, none⟩

theorem aclCacheUpdate_not_applies_bob :
    aclRightsApply anonymousBackend bobPost = false ∧
    (firstLookupOrder ([AclCacheOp.update "INBOX" anyoneLookup].flatMap
      (AclCacheOp.lookups anonymousBackend))).length < 2 ^ 32 ∧
    (∀ n r,
      ((aclCacheGetMyRights (AclCacheOp.run (aclCacheInit anonymousBackend)
            ([AclCacheOp.update "INBOX" anyoneLookup] ++ [AclCacheOp.update "Sent" bobPost])) n).2.map
          (fun m => maskNameHas (AclCacheOp.run (aclCacheInit anonymousBackend)
            ([AclCacheOp.update "INBOX" anyoneLookup] ++
              [AclCacheOp.update "Sent" bobPost])).rightIdxNameMap (some m))).any (· r) =
        ((aclCacheGetMyRights (AclCacheOp.run (aclCacheInit anonymousBackend)
            [AclCacheOp.update "INBOX" anyoneLookup]) n).2.map
          (fun m => maskNameHas (AclCacheOp.run (aclCacheInit anonymousBackend)
            [AclCacheOp.update "INBOX" anyoneLookup]).rightIdxNameMap (some m))).any (· r)) ∧
    (aclCacheGetMyRights (AclCacheOp.run (aclCacheInit anonymousBackend)
      ([AclCacheOp.update "INBOX" anyoneLookup] ++ [AclCacheOp.update "Sent" bobPost])) "Sent").2.isSome = true :=
  ⟨by decide, by decide, aclCacheUpdate_not_applies anonymousBackend [.update "INBOX" anyoneLookup] "Sent"
    bobPost (by decide) (by decide)⟩

end Dovecot
