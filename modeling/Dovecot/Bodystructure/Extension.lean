import Mathlib.Data.List.Forall2
import Dovecot.Bodystructure.Shape
/-!
BODY is BODYSTRUCTURE without the extension data: `part_write_bodystructure`
with `extended` unset writes, node for node, what it writes with `extended`
set, minus each node's extension text (`multipartExtension` after a
multipart's subtype, `bodyExtension` after a single part's trailer).

Both are instances of one writer, `writeBodystructureWith`, which is the
source's writers with the two extension texts as parameters; nothing else in
the output depends on `extended`. Under the data-model invariants the writer
succeeds.

Read back by the IMAP parser, the relation holds item by item only for
metadata whose pieces are well formed (`partPiecesOk`): a field text may hold
parentheses of its own and close a list early.
-/

namespace Dovecot

mutual
/-- `part_write_bodystructure` with the extension text of a multipart given by
`multi` and that of a single part by `single`. -/
def writeBodystructureWith (multi single : MessagePartBodyData → String) (hasParent : Bool) :
    List MessagePart → Option String
  | [] => some ""
  | p :: ps => do
    guard (hasParent || ps.isEmpty)
    let b ← (match p with
      | ⟨.multipart, _, _, _, _, _⟩ => writeBodyMultipartWith multi single p
      | _ => writeBodyWith multi single p)
    let r ← writeBodystructureWith multi single hasParent ps
    pure ((if hasParent then "(" ++ b ++ ")" else b) ++ r)
/-- `part_write_body_multipart`, its extension text `multi data`. -/
def writeBodyMultipartWith (multi single : MessagePartBodyData → String) : MessagePart → Option String
  | ⟨_, _, _, _, context, children⟩ => do
    let data ← context
    let kids ← if children.isEmpty then pure emptyBodystructure
      else writeBodystructureWith multi single true children
    let subtype ← data.contentSubtype
    pure (kids ++ " " ++ subtype ++ multi data)
/-- `part_write_body`, its extension text `single data`. -/
def writeBodyWith (multi single : MessagePartBodyData → String) : MessagePart → Option String
  | ⟨flags, _, virtualSize, lines, context, children⟩ => do
    let data := context.getD {}
    let trailer ← (match flags, children with
      | .text, _ => pure (" " ++ toString lines)
      | .messageRfc822, [child] => do
        let body ← writeBodystructureWith multi single true children
        pure (" " ++ envelopeOrNil child.context ++ " " ++ body ++ " " ++ toString lines)
      | .messageRfc822, _ => none
      | _, _ => pure "")
    pure (bodyBasic data virtualSize ++ trailer ++ single data)
end

/-- What `extended` selects for each kind of node. -/
def extensionIf (ext : Bool) (f : MessagePartBodyData → String) (data : MessagePartBodyData) : String :=
  if ext then f data else ""

mutual
theorem partWriteBodystructure_eq_with (ext hasParent : Bool) : ∀ ps : List MessagePart,
    partWriteBodystructure ext hasParent ps =
      writeBodystructureWith (extensionIf ext multipartExtension) (extensionIf ext bodyExtension)
        hasParent ps
  | [] => rfl
  | p :: ps => by
    have hm := partWriteBodyMultipart_eq_with ext p
    have hb := partWriteBody_eq_with ext p
    have hr := partWriteBodystructure_eq_with ext hasParent ps
    obtain ⟨flags, pos, virtualSize, lines, context, children⟩ := p
    cases flags <;> simp only [partWriteBodystructure, writeBodystructureWith, hm, hb, hr]
theorem partWriteBodyMultipart_eq_with (ext : Bool) : ∀ p : MessagePart,
    partWriteBodyMultipart ext p =
      writeBodyMultipartWith (extensionIf ext multipartExtension) (extensionIf ext bodyExtension) p
  | ⟨_, _, _, _, context, children⟩ => by
    rw [partWriteBodyMultipart, writeBodyMultipartWith, partWriteBodystructure_eq_with ext true children]
    rfl
theorem partWriteBody_eq_with (ext : Bool) : ∀ p : MessagePart,
    partWriteBody ext p =
      writeBodyWith (extensionIf ext multipartExtension) (extensionIf ext bodyExtension) p
  | ⟨flags, _, virtualSize, lines, context, children⟩ => by
    have hc := partWriteBodystructure_eq_with ext true children
    cases flags
    case messageRfc822 =>
      rcases children with _ | ⟨child, _ | ⟨c2, cs⟩⟩
      · rfl
      · simp only [partWriteBody, writeBodyWith, hc]
        rfl
      · rfl
    all_goals rfl
end

section Total

variable (multi single : MessagePartBodyData → String)

mutual
theorem writeBodystructureWith_isSome (hasParent : Bool) : ∀ ps : List MessagePart,
    partsWellFormed ps = true → (hasParent || ps.length ≤ 1) = true →
      (writeBodystructureWith multi single hasParent ps).isSome
  | [], _, _ => rfl
  | p :: ps, hw, hl => by
    simp only [partsWellFormed, Bool.and_eq_true] at hw
    have hm := writeBodyMultipartWith_isSome p hw.1
    have hb := writeBodyWith_isSome p hw.1
    have hr := writeBodystructureWith_isSome hasParent ps hw.2 (by
      cases hasParent <;> simp_all)
    have hg : (hasParent || ps.isEmpty) = true := by
      cases hasParent <;> simp_all
    obtain ⟨flags, pos, virtualSize, lines, context, children⟩ := p
    obtain ⟨r, hr⟩ := Option.isSome_iff_exists.mp hr
    cases flags
    case multipart =>
      obtain ⟨b, hb⟩ := Option.isSome_iff_exists.mp (hm rfl)
      simp [writeBodystructureWith, hg, hb, hr]
    all_goals
      obtain ⟨b, hb⟩ := Option.isSome_iff_exists.mp hb
      simp [writeBodystructureWith, hg, hb, hr]
theorem writeBodyMultipartWith_isSome : ∀ p : MessagePart, partWellFormed p = true →
    p.flags = .multipart → (writeBodyMultipartWith multi single p).isSome
  | ⟨_, _, _, _, context, children⟩, hw, hf => by
    subst hf
    simp only [partWellFormed, Bool.and_eq_true, Option.isSome_iff_exists, Option.bind_eq_some] at hw
    obtain ⟨⟨s, data, rfl, hs⟩, hcs⟩ := hw
    have hk := writeBodystructureWith_isSome true children hcs rfl
    obtain ⟨k, hk⟩ := Option.isSome_iff_exists.mp hk
    cases children <;> simp_all [writeBodyMultipartWith]
theorem writeBodyWith_isSome : ∀ p : MessagePart, partWellFormed p = true →
    (writeBodyWith multi single p).isSome
  | ⟨flags, _, virtualSize, lines, context, children⟩, hw => by
    simp only [partWellFormed, Bool.and_eq_true] at hw
    have hk := writeBodystructureWith_isSome true children hw.2 rfl
    obtain ⟨k, hk⟩ := Option.isSome_iff_exists.mp hk
    cases flags
    case messageRfc822 =>
      match children, hw, hk with
      | [child], _, hk => simp [writeBodyWith, hk]
    all_goals simp [writeBodyWith]
end

end Total

/-- Under the data-model invariants `part_get_bodystructure` succeeds. -/
theorem partGetBodystructure_isSome {part : MessagePart} (hw : partWellFormed part = true)
    (ext : Bool) : (partGetBodystructure part ext).isSome := by
  rw [partGetBodystructure, partWriteBodystructure_eq_with]
  exact writeBodystructureWith_isSome _ _ false [part] (by simp [partsWellFormed, hw]) rfl

/-! ## Read back, BODY is a prefix of BODYSTRUCTURE at every node -/

mutual
/-- `argExtends a b`: `b` is `a` with items added at the end of its lists, at
any depth. -/
def argExtends : ImapArg → ImapArg → Bool
  | .list as, .list bs => itemsExtend as bs
  | a, b => a == b
/-- The items of `as` up to its `IMAP_ARG_EOL` are the first items of `bs`,
each extended by the one at its place. -/
def itemsExtend : List ImapArg → List ImapArg → Bool
  | [], _ => true
  | a :: as, bs => a.isEol || match bs with
    | [] => false
    | b :: bs => argExtends a b && itemsExtend as bs
end

/-- Lists of the same length, each item of the first extended by the one at its
place in the second. -/
abbrev ArgsExtend : List ImapArg → List ImapArg → Prop :=
  List.Forall₂ fun a b => argExtends a b = true

mutual
theorem argExtends_refl : ∀ a : ImapArg, argExtends a a = true
  | .nil | .atom _ | .string _ | .eol => by simp [argExtends]
  | .list as => by rw [argExtends]; exact itemsExtend_refl as
theorem itemsExtend_refl : ∀ as : List ImapArg, itemsExtend as as = true
  | [] => rfl
  | a :: as => by simp [itemsExtend, argExtends_refl a, itemsExtend_refl as]
end

theorem itemsExtend_eol (ys : List ImapArg) : itemsExtend [.eol] ys = true := rfl

theorem itemsExtend_append {xs xs' ys ys' : List ImapArg} (h : ArgsExtend xs xs')
    (hy : itemsExtend ys ys' = true) : itemsExtend (xs ++ ys) (xs' ++ ys') = true := by
  induction h with
  | nil => exact hy
  | cons hab _ ih => simp [itemsExtend, hab, ih]

theorem argsExtend_refl (xs : List ImapArg) : ArgsExtend xs xs :=
  List.forall₂_same.mpr fun a _ => argExtends_refl a

mutual
theorem partsArgs_extend : ∀ ps : List MessagePart, ArgsExtend (partsArgs false ps) (partsArgs true ps)
  | [] => .nil
  | p :: ps => .cons (by rw [argExtends]; exact partItems_extend p) (partsArgs_extend ps)
/-- At each node, the items without extension are a prefix of the items with
it, the children related the same way. -/
theorem partItems_extend : ∀ p : MessagePart,
    itemsExtend (partItems false p ++ [.eol]) (partItems true p ++ [.eol]) = true
  | ⟨flags, _, virtualSize, lines, context, children⟩ => by
    have hk := partsArgs_extend children
    cases flags
    case multipart =>
      simp only [partItems, Bool.false_eq_true, ↓reduceIte, List.map_cons, List.map_nil,
        List.append_assoc, List.singleton_append, List.cons_append]
      refine itemsExtend_append ?_ (by simp [itemsExtend, argExtends_refl, ImapArg.isEol])
      split
      · exact argsExtend_refl _
      · exact hk
    case messageRfc822 =>
      match children, hk with
      | [child], _ =>
        simp only [partItems, Bool.false_eq_true, ↓reduceIte, List.map_nil, List.append_nil,
          List.append_assoc]
        refine itemsExtend_append (argsExtend_refl _) (itemsExtend_append ?_ (itemsExtend_eol _))
        exact .cons (argExtends_refl _) (.cons (by rw [argExtends]; exact partItems_extend child)
          (.cons (argExtends_refl _) .nil))
      | [], _ | _ :: _ :: _, _ =>
        simp only [partItems, Bool.false_eq_true, ↓reduceIte, List.map_nil, List.append_nil,
          List.append_assoc]
        exact itemsExtend_append (argsExtend_refl _) (itemsExtend_eol _)
    case text =>
      simp only [partItems, Bool.false_eq_true, ↓reduceIte, List.map_nil, List.append_nil,
        List.append_assoc]
      exact itemsExtend_append (argsExtend_refl _)
        (itemsExtend_append (argsExtend_refl _) (itemsExtend_eol _))
    case other =>
      simp only [partItems, Bool.false_eq_true, ↓reduceIte, List.map_nil, List.append_nil,
        List.append_assoc]
      exact itemsExtend_append (argsExtend_refl _) (itemsExtend_eol _)
end

/-- **BODY is BODYSTRUCTURE without the extension data.** For a tree with the
data-model invariants and any metadata, both writes succeed, and they are the
one writer with each node's extension text and with nothing in its place. When
every metadata piece is well formed, the parser reads both back, and at each
node the unextended items are a prefix of the extended ones, the children
related the same way. -/
theorem partGetBodystructure_extension (part : MessagePart) (hw : partWellFormed part = true) :
    partGetBodystructure part true =
        writeBodystructureWith multipartExtension bodyExtension false [part] ∧
      partGetBodystructure part false =
        writeBodystructureWith (fun _ => "") (fun _ => "") false [part] ∧
      ∃ u e, partGetBodystructure part false = some u ∧ partGetBodystructure part true = some e ∧
        (partPiecesOk part = true → ∃ ua ea, imapParserReadArgs u = some ua ∧
          imapParserReadArgs e = some ea ∧ itemsExtend ua ea = true) := by
  obtain ⟨u, hu⟩ := Option.isSome_iff_exists.mp (partGetBodystructure_isSome hw false)
  obtain ⟨e, he⟩ := Option.isSome_iff_exists.mp (partGetBodystructure_isSome hw true)
  refine ⟨partWriteBodystructure_eq_with true false [part],
    partWriteBodystructure_eq_with false false [part], u, e, hu, he, fun hok => ?_⟩
  exact ⟨_, _, imapParserReadArgs_partGetBodystructure hok hu,
    imapParserReadArgs_partGetBodystructure hok he, partItems_extend part⟩

/-- A multipart of one text part with a plain subtype each. -/
def mixedTree : MessagePart :=
  ⟨.multipart, 0, 100, 5, some { contentSubtype := some "\"mixed\"" },
    [⟨.text, 0, 10, 1, some { contentType := some "\"text\"", contentSubtype := some "\"plain\"" }, []⟩]⟩

theorem partGetBodystructure_extension_mixed : partWellFormed mixedTree = true ∧
    (partGetBodystructure mixedTree true =
        writeBodystructureWith multipartExtension bodyExtension false [mixedTree] ∧
      partGetBodystructure mixedTree false =
        writeBodystructureWith (fun _ => "") (fun _ => "") false [mixedTree] ∧
      ∃ u e, partGetBodystructure mixedTree false = some u ∧
        partGetBodystructure mixedTree true = some e ∧
        (partPiecesOk mixedTree = true → ∃ ua ea, imapParserReadArgs u = some ua ∧
          imapParserReadArgs e = some ea ∧ itemsExtend ua ea = true)) :=
  ⟨rfl, partGetBodystructure_extension mixedTree rfl⟩

/-- A multipart whose one child has an md5 text holding parentheses. -/
def md5ParenTree : MessagePart :=
  ⟨.multipart, 0, 0, 0, some { contentSubtype := some "\"mixed\"" },
    [⟨.text, 0, 0, 0, some { contentMd5 := some "\"a\") (\"b\"" }, []⟩]⟩

/-- With such metadata, the extended text read back is no longer an extension
of the unextended one: the md5 closes the child's list, and the subtype meets
a list where the parent's items continue. -/
theorem md5_paren_breaks_prefix : partWellFormed md5ParenTree = true ∧
    ∃ u e ua ea, partGetBodystructure md5ParenTree false = some u ∧
      partGetBodystructure md5ParenTree true = some e ∧
      imapParserReadArgs u = some ua ∧ imapParserReadArgs e = some ea ∧ itemsExtend ua ea = false :=
  ⟨rfl, _, _, _, _, rfl, rfl, rfl, rfl, by decide⟩

end Dovecot
