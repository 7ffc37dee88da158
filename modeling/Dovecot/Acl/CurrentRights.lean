import Dovecot.Acl.Cache
/-!
The current rights of an object: what `acl_cache_my_current_rights_recalculate`
computes, and that the cache never serves a stale copy of it.

The recalculation ORs in the negative masks as well as the positive ones
(`p[j] |= obj_cache->my_neg_rights[i]->mask[j]`), under a comment saying they
override the positive rights: `recalculate_has` says the current rights are
the union of every mask of the object, negative ones included.

Freshness: `acl_cache_update_rights_mask` drops the stored current rights
whenever `changed`, and `changed` is false only in the cases that leave the
mask as it was (`aclModifyMask_unchanged`); nothing else writes a mask. So
every stored current-rights mask is the recalculation of the object's masks,
after any run of calls.
-/

namespace Dovecot

/-! ## What the recalculation computes -/

theorem bytesHas_bytesOrMask (bitmask : List (BitVec 8)) (m : Option AclMask) (idx : Nat) :
    bytesHas (bytesOrMask bitmask m) idx =
      (bytesHas bitmask idx || m.any fun m => m.has idx) := by
  cases m with
  | none => simp [bytesOrMask]
  | some m =>
    have hd : m.size ≤ (bufferGetSpace bitmask 0 m.size).length := by
      rw [length_bufferGetSpace]; omega
    rw [bytesOrMask, bytesHas_orUpdate m.mask hd rfl, bytesHas_bufferGetSpace]
    rfl

/-- **The current rights are the union of all the object's masks**, positive
and negative, over every identifier type. -/
theorem recalculate_has (obj : AclObjectCache) (idx : Nat) :
    (aclCacheMyCurrentRightsRecalculate obj).has idx =
      AclIdType.all.any fun i =>
        (obj.myRights i).any (·.has idx) || (obj.myNegRights i).any (·.has idx) := by
  suffices ∀ (l : List AclIdType) (b : List (BitVec 8)),
      bytesHas (l.foldl (fun bitmask i =>
        bytesOrMask (bytesOrMask bitmask (obj.myRights i)) (obj.myNegRights i)) b) idx =
      (bytesHas b idx || l.any fun i =>
        (obj.myRights i).any (·.has idx) || (obj.myNegRights i).any (·.has idx)) by
    simpa [bytesHas] using this AclIdType.all []
  intro l
  induction l with
  | nil => simp
  | cons i l ih =>
    intro b
    simp only [List.foldl_cons, ih, bytesHas_bytesOrMask, List.any_cons, Bool.or_assoc]


/-- A new cache after `lookup` is denied to anyone on `INBOX`. -/
def lookupDeniedCache : AclCache :=
  aclCacheUpdate (aclCacheInit anonymousBackend) "INBOX"
    ⟨.anyone, "", .replace, none, .replace, some ["lookup"]⟩

/-- Denying `lookup` to anyone, with no positive rights anywhere, grants it. -/
theorem negative_right_granted :
    (∀ i, ((lookupDeniedCache.objects "INBOX").bind fun o => o.myRights i) = none) ∧
      ((lookupDeniedCache.objects "INBOX").bind fun o => o.myNegRights .anyone).map
        (·.has 0) = some true ∧
      (aclCacheGetMyRights lookupDeniedCache "INBOX").2.map (·.has 0) = some true := by
  refine ⟨fun i => ?_, by decide, by decide⟩
  cases i <;> decide

/-! ## The cache serves no stale current rights -/

/-- The stored current rights, if any, are the recalculation of the masks. -/
def AclObjectCache.CurrentFresh (obj : AclObjectCache) : Prop :=
  ∀ m, obj.myCurrentRights = some m → m = aclCacheMyCurrentRightsRecalculate obj

/-- Every object entry of a table is `CurrentFresh`. -/
def ObjectsFresh (objects : String → Option AclObjectCache) : Prop :=
  ∀ n obj, objects n = some obj → obj.CurrentFresh

theorem ObjectsFresh.update {objects : String → Option AclObjectCache} (h : ObjectsFresh objects)
    (n : String) (o : Option AclObjectCache) (ho : ∀ obj, o = some obj → obj.CurrentFresh) :
    ObjectsFresh (Function.update objects n o) := by
  intro k obj hk
  by_cases hkn : k = n
  · subst hkn; rw [Function.update_same] at hk; exact ho obj hk
  · rw [Function.update_noteq hkn] at hk; exact h k obj hk

theorem AclObjectCache.fresh_of_none {obj : AclObjectCache} (h : obj.myCurrentRights = none) :
    obj.CurrentFresh := fun m hm => by rw [h] at hm; cases hm

theorem AclObjectCache.set_get (obj : AclObjectCache) (slot : AclMaskSlot) :
    obj.set (obj.get slot) slot = obj := by
  cases slot <;> simp [AclObjectCache.set, AclObjectCache.get]

/-- `changed` is false only where the mask stays as it was. -/
theorem aclModifyMask_unchanged (mode : AclModifyMode) (old change : Option AclMask)
    (h : (aclModifyMask mode old change).2 = false) : (aclModifyMask mode old change).1 = old := by
  cases mode <;> cases old <;> cases change <;> simp only [aclModifyMask] at h ⊢ <;>
    (try split at h) <;> simp_all

theorem AclObjectCache.modifyMask_fresh {obj : AclObjectCache} (h : obj.CurrentFresh)
    (mode change slot) : (obj.modifyMask mode change slot).CurrentFresh := by
  unfold AclObjectCache.modifyMask
  dsimp only
  split
  · exact AclObjectCache.fresh_of_none rfl
  · next hm =>
    rwa [aclModifyMask_unchanged mode _ _ (Bool.eq_false_iff.mpr hm), AclObjectCache.set_get]

theorem aclCacheUpdateRightsMask_fresh (cache : AclCache) {obj : AclObjectCache}
    (h : obj.CurrentFresh) (mode rights slot) :
    (aclCacheUpdateRightsMask cache obj mode rights slot).2.CurrentFresh := by
  cases rights <;> exact AclObjectCache.modifyMask_fresh h _ _ _

theorem aclCacheUpdateRights_fresh (cache : AclCache) {obj : AclObjectCache}
    (h : obj.CurrentFresh) (rights : AclRights) :
    (aclCacheUpdateRights cache obj rights).1.objects = cache.objects ∧
      (aclCacheUpdateRights cache obj rights).2.CurrentFresh := by
  simp only [aclCacheUpdateRights]
  exact ⟨(aclCacheUpdateRightsMask_objects _ _ _ _ _).trans
      (aclCacheUpdateRightsMask_objects _ _ _ _ _),
    aclCacheUpdateRightsMask_fresh _ (aclCacheUpdateRightsMask_fresh _ h _ _ _) _ _ _⟩

/-- Every call keeps every object entry `CurrentFresh`. -/
theorem AclCacheOp.step_fresh {cache : AclCache} (h : ObjectsFresh cache.objects) :
    ∀ op : AclCacheOp, ObjectsFresh (op.step cache).objects
  | .update objname rights => by
    have hobj : ((cache.objects objname).getD .empty).CurrentFresh := by
      cases ho : cache.objects objname with
      | none => exact AclObjectCache.fresh_of_none rfl
      | some obj => exact h objname obj ho
    have h1 := h.update objname (some ((cache.objects objname).getD .empty))
      (fun _ e => Option.some_inj.mp e ▸ hobj)
    simp only [AclCacheOp.step, aclCacheUpdate]
    split
    · have hr := aclCacheUpdateRights_fresh { cache with objects :=
        (Function.update cache.objects objname (some ((cache.objects objname).getD .empty))) }
        hobj rights
      rw [hr.1]
      exact h1.update objname _ (fun _ e => Option.some_inj.mp e ▸ hr.2)
    · exact h1
  | .flush objname => h.update objname none nofun
  | .flushAll => nofun
  | .maskInit rights => (aclCacheMaskInit_objects cache rights).1 ▸ h
  | .rightLookup right => (aclCacheRightLookup_objects cache right).1 ▸ h
  | .getMyRights objname => by
    simp only [AclCacheOp.step, aclCacheGetMyRights]
    split
    · exact h
    · split
      · exact h
      · next obj _ _ =>
        exact h.update objname _ fun o e => by
          cases e; intro m hm; cases hm; rfl

theorem AclCacheOp.run_fresh {cache : AclCache} (h : ObjectsFresh cache.objects) :
    ∀ ops : List AclCacheOp, ObjectsFresh (AclCacheOp.run cache ops).objects
  | [] => h
  | op :: ops => AclCacheOp.run_fresh (AclCacheOp.step_fresh h op) ops

/-- **No stale current rights.** After any run of calls on a new cache, every
object entry's stored current rights have the bits recalculation gives from
its masks, and `acl_cache_get_my_rights` returns NULL exactly for names
without an entry and otherwise a mask with those bits. -/
theorem aclCache_current_rights_fresh (backend : AclBackend) (ops : List AclCacheOp) :
    (∀ n obj m, (AclCacheOp.run (aclCacheInit backend) ops).objects n = some obj →
        obj.myCurrentRights = some m →
        ∀ idx, m.has idx = (aclCacheMyCurrentRightsRecalculate obj).has idx) ∧
      ∀ n, ((aclCacheGetMyRights (AclCacheOp.run (aclCacheInit backend) ops) n).2 = none ↔
          (AclCacheOp.run (aclCacheInit backend) ops).objects n = none) ∧
        ∀ obj m, (AclCacheOp.run (aclCacheInit backend) ops).objects n = some obj →
          (aclCacheGetMyRights (AclCacheOp.run (aclCacheInit backend) ops) n).2 = some m →
          ∀ idx, m.has idx = (aclCacheMyCurrentRightsRecalculate obj).has idx := by
  generalize hc : AclCacheOp.run (aclCacheInit backend) ops = cache
  have h : ObjectsFresh cache.objects :=
    hc ▸ AclCacheOp.run_fresh (fun _ _ e => Option.noConfusion e) ops
  refine ⟨fun n obj m ho hm idx => by rw [h n obj ho m hm], fun n => ⟨?_, ?_⟩⟩
  · unfold aclCacheGetMyRights
    split
    · simp_all
    · split <;> simp_all
  · intro obj m ho hg idx
    simp only [aclCacheGetMyRights, ho] at hg
    split at hg
    · next m' hm' => cases hg; rw [h n obj ho m hm']
    · cases hg; rfl

end Dovecot
