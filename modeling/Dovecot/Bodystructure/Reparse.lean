import Dovecot.Bodystructure.Cached
/-!
Parsing the headers a second time. On a cached tree, `imap_part_get_bodystructure`
hands each part's header lines to `parse_header` again, on whatever metadata an
earlier call left there. Every field but `content_language` is set by a branch
that first tests a guard field for NULL, and the first pass left set the guard
of every header it saw. So the second pass runs none of those branches, and
`content_language` is set again from the same last line. The second pass
therefore leaves the metadata as it was (`parseHeaders_reparse`).

This holds under a parent that is not message/rfc822. Under such a parent,
every line that no branch takes, a repeated Content-Type line among them,
goes to `imap_envelope_parse_header` once more. Over a tree with no
message/rfc822 part, `part_parse_headers` leaves the tree it made unchanged,
and a second call returns the first call's text
(`imapPartGetBodystructure_reparse`).
-/

namespace Dovecot

attribute [ext] MessagePartBodyData

/-! ## One line on settled metadata -/

section Line

variable (c : HeaderCollab) (p : Bool) (name value : String)

/-- The scratch string changes only in the Content-Type and Content-Disposition branches. -/
theorem parseHeaderField_str (d : MessagePartBodyData)
    (hType : (strcasecmpEq name "Content-Type" && d.contentType.isNone) = false)
    (hDisp : (strcasecmpEq name "Content-Disposition" && d.contentDispositionParams.isNone) = false) :
    (parseHeaderField c p name value d).str = d.str := by
  unfold parseHeaderField
  simp only [hType, hDisp, Bool.false_eq_true, if_false]
  repeat' (apply ite_proj_eq <;> intro)
  all_goals first
    | rfl
    | dsimp only; apply runContentCallbacks_frame; intro e _ x
      cases e <;> first | rfl | simp only [contentCallback, parseContentLanguage_eq]

/-- Under a parent that is not message/rfc822, no line reaches the envelope. -/
theorem parseHeaderField_envelope (d : MessagePartBodyData) :
    (parseHeaderField c false name value d).envelope = d.envelope := by
  unfold parseHeaderField
  simp only [Bool.false_eq_true, if_false]
  repeat' (apply ite_proj_eq <;> intro)
  all_goals first
    | rfl
    | dsimp only; apply runContentCallbacks_frame; intro e _ x
      cases e <;> first | rfl | simp only [contentCallback, parseContentLanguage_eq]

/-- A line on a set guard keeps it set. -/
theorem parseHeaderField_guard_stays (f : OnceField) {d : MessagePartBodyData}
    (hg : (f.guard.get d).isSome) : (f.guard.get (parseHeaderField c p name value d)).isSome := by
  obtain ⟨a, ha⟩ := Option.isSome_iff_exists.mp hg
  rw [parseHeaderField_keep c p name value f.guard d
    (by rw [OnceField.guard_guard, ha, Option.isNone_some, Bool.and_false]), ha]
  rfl

/-- A line with the header of `f` leaves its guard set. -/
theorem parseHeaderField_guard_set (hc : c.MainValueOnce) (f : OnceField) (d : MessagePartBodyData)
    (h : strcasecmpEq name f.header = true) :
    (f.guard.get (parseHeaderField c p name value d)).isSome := by
  cases hg : f.guard.get d with
  | none => exact (parseHeaderField_first c p name value hc f d h hg).2
  | some _ => exact parseHeaderField_guard_stays c p name value f (by rw [hg]; rfl)

end Line

/-- Metadata on which every line of `lines` finds the guards of its header's
fields set, so that no once-set branch of `parse_header` runs for it. -/
def Settled (lines : List (String × String)) (d : MessagePartBodyData) : Prop :=
  ∀ f : OnceField, ∀ l ∈ lines, strcasecmpEq l.1 f.header = true → (f.guard.get d).isSome

theorem Settled.language {lines : List (String × String)} {d : MessagePartBodyData}
    (hs : Settled lines d) (x : Option String) : Settled lines { d with contentLanguage := x } :=
  fun f => by cases f <;> exact hs _

section Lines

variable (c : HeaderCollab)

/-- On settled metadata a line of its header changes `content_language` at most. -/
theorem parseHeaderField_settled {lines : List (String × String)} {d : MessagePartBodyData}
    (hs : Settled lines d) {l : String × String} (hl : l ∈ lines) :
    parseHeaderField c false l.1 l.2 d =
      { d with contentLanguage := (parseHeaderField c false l.1 l.2 d).contentLanguage } := by
  have hcond : ∀ f : OnceField, (strcasecmpEq l.1 f.header && (f.guard.get d).isNone) = false :=
    fun f => by
      cases h : strcasecmpEq l.1 f.header
      · rfl
      · obtain ⟨a, ha⟩ := Option.isSome_iff_exists.mp (hs f l hl h)
        rw [ha, Option.isNone_some, Bool.and_false]
  have keep := fun f => parseHeaderField_keep c false l.1 l.2 f d (hcond f)
  exact MessagePartBodyData.ext
    (parseHeaderField_str c false l.1 l.2 d (hcond .contentType) (hcond .contentDispositionParams))
    (keep .contentType) (keep .contentSubtype) (keep .contentTypeParams)
    (keep .contentTransferEncoding) (keep .contentId) (keep .contentDescription)
    (keep .contentDisposition) (keep .contentDispositionParams) (keep .contentMd5) rfl
    (parseHeaderField_envelope c l.1 l.2 d)

/-- Lines of `lines` on metadata settled for them change `content_language` at most. -/
theorem parseHeaders_settled {lines : List (String × String)} :
    ∀ (ls : List (String × String)), (∀ l ∈ ls, l ∈ lines) → ∀ d, Settled lines d →
      ∃ x, parseHeaders c false (some d) ls = some { d with contentLanguage := x }
  | [], _, d, _ => ⟨d.contentLanguage, rfl⟩
  | l :: ls, hls, d, hs => by
    have hstep : ∃ y, parseHeader c false l.1 l.2 (some d) = some { d with contentLanguage := y } := by
      unfold parseHeader
      split
      · exact ⟨d.contentLanguage, rfl⟩
      · exact ⟨_, congrArg some (parseHeaderField_settled c hs (hls l (List.mem_cons_self l ls)))⟩
    obtain ⟨y, hy⟩ := hstep
    rw [parseHeaders, List.foldl_cons, hy]
    exact parseHeaders_settled ls (fun l' h => hls l' (List.mem_cons_of_mem l h)) _ (hs.language y)

/-- A line on metadata is dropped, or its branch runs on it. -/
theorem parseHeader_some (p : Bool) (name value : String) (d : MessagePartBodyData) :
    parseHeader c p name value (some d) = some d ∨
      parseHeader c p name value (some d) = some (parseHeaderField c p name value d) := by
  unfold parseHeader
  split
  · exact .inl rfl
  · exact .inr rfl

/-- A line with a `Content-` name is never dropped. -/
theorem parseHeader_content (p : Bool) {name : String} (h : isContentName name = true) (value : String)
    (ctx : Option MessagePartBodyData) :
    parseHeader c p name value ctx = some (parseHeaderField c p name value (ctx.getD {})) := by
  simp only [isContentName, Bool.and_eq_true, decide_eq_true_eq] at h
  simp [parseHeader, h.2, Nat.not_le.mpr h.1]

/-- From metadata, lines give metadata, with every guard set before still set. -/
theorem parseHeaders_of_some (p : Bool) : ∀ (ls : List (String × String)) (d : MessagePartBodyData),
    ∃ d', parseHeaders c p (some d) ls = some d' ∧
      ∀ f : OnceField, (f.guard.get d).isSome → (f.guard.get d').isSome
  | [], d => ⟨d, rfl, fun _ h => h⟩
  | l :: ls, d => by
    simp only [parseHeaders, List.foldl_cons]
    rcases parseHeader_some c p l.1 l.2 d with h | h <;> rw [h]
    · exact parseHeaders_of_some p ls d
    · obtain ⟨d', h', hg⟩ := parseHeaders_of_some p ls (parseHeaderField c p l.1 l.2 d)
      exact ⟨d', h', fun f hf => hg f (parseHeaderField_guard_stays c p l.1 l.2 f hf)⟩

/-- The first pass, from any metadata, leaves the metadata settled for its lines. -/
theorem parseHeaders_settles (hc : c.MainValueOnce) (ctx : Option MessagePartBodyData)
    (lines : List (String × String)) {d₁ : MessagePartBodyData}
    (h : parseHeaders c false ctx lines = some d₁) : Settled lines d₁ := by
  intro f l hl hf
  obtain ⟨s, t, rfl⟩ := List.append_of_mem hl
  have hcontent := parseHeader_content c false
    (isContentName_of_strcasecmpEq hf f.header_content) l.2 (parseHeaders c false ctx s)
  simp only [parseHeaders, List.foldl_append, List.foldl_cons] at h hcontent
  rw [hcontent] at h
  obtain ⟨d', h', hg⟩ := parseHeaders_of_some c false t
    (parseHeaderField c false l.1 l.2 ((parseHeaders c false ctx s).getD {}))
  rw [Option.some_inj.mp (h'.symm.trans h)] at hg
  exact hg f (parseHeaderField_guard_set c false l.1 l.2 hc f _ hf)

/-- `content_language` after lines, from any metadata: the last
Content-Language line with a token sets it. -/
theorem parseHeaders_contentLanguage (p : Bool) (hc : c.MainValueOnce)
    (ctx : Option MessagePartBodyData) (lines : List (String × String)) :
    ((parseHeaders c p ctx lines).getD {}).contentLanguage =
      (((lines.filter (setsLanguage c)).getLast?).map fun l =>
        (parseHeaderField c p l.1 l.2 {}).contentLanguage).getD (ctx.getD {}).contentLanguage := by
  have hrel : ∀ l, setsLanguage c l = true → (p || isContentName l.1) = true := fun l h => by
    simp only [setsLanguage, Bool.and_eq_true] at h
    rw [isContentName, isContentName_of_strcasecmpEq h.1 (by decide), Bool.or_true]
  have key := foldl_last_wins (fun ctx l => parseHeader c p l.1 l.2 ctx)
    (fun s => (s.getD {}).contentLanguage) (setsLanguage c)
    (fun l => (parseHeaderField c p l.1 l.2 {}).contentLanguage)
    (fun s l h => by
      dsimp only
      rw [parseHeader_getD, if_pos (hrel l h), parseHeaderField_language c p l.1 l.2 hc, ← setsLanguage,
        if_pos h])
    (fun s l h => by
      dsimp only
      rw [parseHeader_getD]
      split
      · rw [parseHeaderField_language c p l.1 l.2 hc, if_neg (by rw [← setsLanguage, h]; decide)]
      · rfl)
    lines ctx
  exact key

/-- **Parsing a part's header twice is parsing it once.** Under a parent that
is not message/rfc822, from any metadata, the second pass of `parse_header`
over the same lines leaves the metadata the first pass left. -/
theorem parseHeaders_reparse (hc : c.MainValueOnce) (ctx : Option MessagePartBodyData)
    (lines : List (String × String)) :
    parseHeaders c false (parseHeaders c false ctx lines) lines = parseHeaders c false ctx lines := by
  cases h₁ : parseHeaders c false ctx lines with
  | none =>
    cases ctx with
    | none => exact h₁
    | some d =>
      obtain ⟨d', h', -⟩ := parseHeaders_of_some c false lines d
      cases h'.symm.trans h₁
  | some d₁ =>
    obtain ⟨x, hx⟩ := parseHeaders_settled c lines (fun _ h => h) d₁ (parseHeaders_settles c hc ctx lines h₁)
    have hl₂ := parseHeaders_contentLanguage c false hc (some d₁) lines
    have hl₁ := parseHeaders_contentLanguage c false hc ctx lines
    simp only [hx, h₁, Option.getD_some] at hl₂ hl₁
    have hxl : x = d₁.contentLanguage := by
      rw [hl₂, hl₁]
      cases (lines.filter (setsLanguage c)).getLast? <;> rfl
    rw [hx, hxl]

end Lines

/-! ## The tree -/

section Tree

variable (c : HeaderCollab) (m : Message)

mutual
/-- On a sibling chain with no message/rfc822 part, the walk over the parts it
returned passes the same assertions and returns them unchanged, with the same
end offset. -/
theorem partParseHeaders_reparse (hc : c.MainValueOnce) : ∀ (parts : List MessagePart) (offset : Nat)
    {parts' : List MessagePart} {o : Nat} {v : List MessagePart},
    (∀ q ∈ partsPreorder parts, q.flags ≠ .messageRfc822) →
    partParseHeaders c m false parts offset = some (parts', o, v) →
    ∃ v', partParseHeaders c m false parts' offset = some (parts', o, v')
  | [], _, _, _, _, _, h => by
    cases h
    exact ⟨[], rfl⟩
  | part :: next, offset, parts', o, v, hno, h => by
    simp only [partsPreorder, List.mem_append] at hno
    simp only [partParseHeaders, Option.bind_eq_bind, Option.bind_eq_some] at h
    obtain ⟨⟨part₁, o₁, v₁⟩, h₁, ⟨next₁, o₂, v₂⟩, h₂, he⟩ := h
    cases he
    obtain ⟨w₁, hw₁⟩ := partParseHeader_reparse hc part offset (fun q hq => hno q (.inl hq)) h₁
    obtain ⟨w₂, hw₂⟩ := partParseHeaders_reparse hc next o₁ (fun q hq => hno q (.inr hq)) h₂
    exact ⟨w₁ ++ w₂, by simp only [partParseHeaders, hw₁, hw₂, Option.bind_eq_bind, Option.some_bind]; rfl⟩
/-- One part: its metadata parsed again is the same, then its children. -/
theorem partParseHeader_reparse (hc : c.MainValueOnce) : ∀ (part : MessagePart) (offset : Nat)
    {part' : MessagePart} {o : Nat} {v : List MessagePart},
    (∀ q ∈ partPreorder part, q.flags ≠ .messageRfc822) →
    partParseHeader c m false part offset = some (part', o, v) →
    ∃ v', partParseHeader c m false part' offset = some (part', o, v')
  | ⟨flags, physicalPos, virtualSize, lines, context, children⟩, offset, part', o, v, hno, h => by
    simp only [partPreorder, List.mem_cons, forall_eq_or_imp] at hno
    have hf : (flags == .messageRfc822) = false := beq_eq_false_iff_ne.mpr hno.1
    by_cases hle : offset ≤ physicalPos
    · simp only [partParseHeader, hle, guard, ↓reduceIte, hf, pure_bind, Option.bind_eq_bind,
        Option.bind_eq_some, Option.pure_def, Option.some.injEq, Prod.mk.injEq] at h
      obtain ⟨_, _, ⟨children₁, o₁, v₁⟩, h₁, rfl, rfl, rfl⟩ := h
      obtain ⟨w, hw⟩ := partParseHeaders_reparse hc children _ hno.2 h₁
      exact ⟨_, by simp only [partParseHeader, hle, guard, ↓reduceIte, hf, parseHeaders_reparse c hc,
        hw, pure_bind, Option.bind_eq_bind, Option.some_bind]; rfl⟩
    · simp only [partParseHeader, hle, guard, ↓reduceIte] at h
      cases h
end

/-- **A second call returns the first call's text.** For a cached tree with no
message/rfc822 part: when `part_parse_headers` passes its assertions on the
tree and leaves it `part'`, the walk over `part'` passes them too and leaves it
as it is, so `imap_part_get_bodystructure` on `part'` returns the text it
returned on the tree, whatever metadata the tree had before. -/
theorem imapPartGetBodystructure_reparse (hc : c.MainValueOnce) (extended : Bool) {part part' : MessagePart} {o : Nat}
    {v : List MessagePart} (hno : ∀ q ∈ partPreorder part, q.flags ≠ .messageRfc822)
    (h : partParseHeaders c m false [part] 0 = some ([part'], o, v)) :
    (∃ v', partParseHeaders c m false [part'] 0 = some ([part'], o, v')) ∧
      imapPartGetBodystructure c m (some part') extended =
        imapPartGetBodystructure c m (some part) extended := by
  obtain ⟨v', h'⟩ := partParseHeaders_reparse c m hc [part] 0
    (by simpa only [partsPreorder, List.append_nil] using hno) h
  exact ⟨⟨v', h'⟩, by simp only [imapPartGetBodystructure, h, h', Option.bind_eq_bind, Option.some_bind]⟩

/-- The two-part message, its tree as the first call leaves it, with metadata
on every part, walked again. -/
theorem imapPartGetBodystructure_reparse_twoParts : atomCollab.MainValueOnce ∧
    (∀ q ∈ partPreorder twoPartMessage.parts, q.flags ≠ .messageRfc822) ∧
    partParseHeaders atomCollab twoPartMessage false [twoPartMessage.parts] 0 =
      some ([messageParsePart atomCollab twoPartMessage false twoPartMessage.parts], 140,
        partPreorder twoPartMessage.parts) ∧
    ((∃ v', partParseHeaders atomCollab twoPartMessage false
        [messageParsePart atomCollab twoPartMessage false twoPartMessage.parts] 0 =
          some ([messageParsePart atomCollab twoPartMessage false twoPartMessage.parts], 140, v')) ∧
      imapPartGetBodystructure atomCollab twoPartMessage
          (some (messageParsePart atomCollab twoPartMessage false twoPartMessage.parts)) true =
        imapPartGetBodystructure atomCollab twoPartMessage (some twoPartMessage.parts) true) :=
  have hc : atomCollab.MainValueOnce := fun value => ⟨[], [⟨'A', value⟩], [], rfl, by simp⟩
  ⟨hc, by decide, rfl,
    imapPartGetBodystructure_reparse atomCollab twoPartMessage hc true (by decide) rfl⟩

end Tree

end Dovecot
