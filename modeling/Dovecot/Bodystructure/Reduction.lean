import Dovecot.Bodystructure.Extension
import Dovecot.Bodystructure.ReduceSpec
/-!
The reducer against the serializer. `imap_body_parse_from_bodystructure` is
meant to turn a stored BODYSTRUCTURE into the BODY `part_get_bodystructure`
writes, and its own output into itself.

The spec's `reduce` does so on every tree whose fields have the kinds the
grammar asks for and whose flags agree with its types
(`reduceItemsWith_partItems`). The code refines the spec with the body of a
message/rfc822 part spliced into its part's list, so on a tree without such a
part the stored text reduces to one that reads back as the BODY
(`imapBodyParseFromBodystructure_body`).

At a message/rfc822 part it does neither. It copies the enclosed message's
body with `imap_parse_bodystructure_args` and no parentheses around it, where
the serializer writes that body as one list; and it requires the envelope to
be a list, where the serializer writes `NIL` for a child without one.
-/

namespace Dovecot

/-! ## Trees the spec reduces to their BODY -/

/-- The type and subtype of a single part whose basic fields have the kinds
the grammar asks for: quoted type and subtype, a parameter field, and plain
id, description and encoding. -/
def bodyTypes (d : MessagePartBodyData) : Option (String × String) :=
  match textArg (d.contentType.getD "\"text\""), textArg (d.contentSubtype.getD "\"plain\"") with
  | .string ty, .string sub =>
    if isParamsField (textArg (listOrNil d.contentTypeParams)) &&
        [d.contentId.getD "NIL", d.contentDescription.getD "NIL",
          d.contentTransferEncoding.getD "\"8bit\""].all (isPlainField ∘ textArg) then
      some (ty, sub)
    else none
  | _, _ => none

mutual
/-- A tree the spec's `reduce` maps to its BODY: its fields have the kinds the
grammar asks for, and its flags agree with its types as `message_parse` sets
them (text exactly for a text type, message/rfc822 exactly for that type and
with an envelope). A message/rfc822 part counts only when `bodyList`, the
spec that keeps the enclosed body one list. -/
def partReducible (bodyList : Bool) : MessagePart → Bool
  | ⟨.multipart, _, _, _, context, children⟩ =>
    (textArg ((context.getD {}).contentSubtype.getD "") matches .string _) &&
      partsReducible bodyList children
  | ⟨flags, _, _, _, context, children⟩ =>
    match bodyTypes (context.getD {}) with
    | some (ty, sub) =>
      (flags == .text) == strcasecmpEq ty "text" &&
        match flags, children with
        | .messageRfc822, [child] =>
          bodyList && strcasecmpEq ty "message" && strcasecmpEq sub "rfc822" &&
            (textArg (envelopeOrNil child.context) matches .list _) && partReducible bodyList child
        | .messageRfc822, _ => false
        | _, _ => !(strcasecmpEq ty "message" && strcasecmpEq sub "rfc822")
    | none => false
/-- Every tree of a sibling chain is reducible. -/
def partsReducible (bodyList : Bool) : List MessagePart → Bool
  | [] => true
  | p :: ps => partReducible bodyList p && partsReducible bodyList ps
end

theorem textArg_toString (n : Nat) : textArg (toString n) = .atom (toString n) :=
  textArg_argText (printable_atom_toString n)

/-- What `bodyTypes` checks, field by field. -/
theorem bodyTypes_some {d : MessagePartBodyData} {ty sub : String} (h : bodyTypes d = some (ty, sub)) :
    textArg (d.contentType.getD "\"text\"") = .string ty ∧
      textArg (d.contentSubtype.getD "\"plain\"") = .string sub ∧
      isParamsField (textArg (listOrNil d.contentTypeParams)) = true ∧
      isPlainField (textArg (d.contentId.getD "NIL")) = true ∧
      isPlainField (textArg (d.contentDescription.getD "NIL")) = true ∧
      isPlainField (textArg (d.contentTransferEncoding.getD "\"8bit\"")) = true := by
  unfold bodyTypes at h
  split at h
  next ty' sub' hty hsub =>
    split_ifs at h with hc
    obtain ⟨rfl, rfl⟩ : ty' = ty ∧ sub' = sub := by simpa using h
    simp only [Bool.and_eq_true, List.all_cons, List.all_nil, Function.comp, Bool.and_true] at hc
    exact ⟨hty, hsub, hc⟩
  next => cases h

/-- The basic fields of a single part, as the spec reads them. -/
theorem reduceItemsWith_basic {d : MessagePartBodyData} {ty sub : String}
    (h : bodyTypes d = some (ty, sub)) (bodyList : Bool) (virtualSize : Nat) (rest : List ImapArg) :
    reduceItemsWith bodyList false ((basicPieces d virtualSize).map textArg ++ rest) =
      (reduceFieldsWith bodyList (strcasecmpEq ty "text")
        (strcasecmpEq ty "message" && strcasecmpEq sub "rfc822") 0 rest).map
        ((basicPieces d virtualSize).map textArg ++ ·) := by
  obtain ⟨hty, hsub, hp, hi, hd, he⟩ := bodyTypes_some h
  simp only [basicPieces, List.map_cons, List.map_nil, hty, hsub, textArg_toString, List.cons_append,
    List.nil_append]
  have hv : isPlainField (.atom (toString virtualSize)) = true := rfl
  simp only [reduceItemsWith_string, Bool.false_eq_true, ↓reduceIte, reduceSinglepartWith_cons, hp,
    reduceFieldsWith_succ, hi, hd, he, hv, Option.map_map]
  rfl

theorem reduceFieldsWith_zero_basic (bodyList : Bool) (args : List ImapArg) :
    reduceFieldsWith bodyList false false 0 args = some [] := by
  cases args <;> rfl

/-- The structure written for a multipart without parts reduces to itself. -/
theorem emptyBodystructure_reduce (bodyList : Bool) :
    ∃ l c, textArg emptyBodystructure = .list l ∧ reduceItemsWith bodyList false l = some c ∧
      .list (c ++ [.eol]) = textArg emptyBodystructure := by
  cases bodyList <;> exact ⟨_, _, rfl, rfl, rfl⟩

mutual
/-- The spec reduces the extended structure of a reducible tree to its BODY. -/
theorem reduceItemsWith_partItems (bodyList ext : Bool) : ∀ part : MessagePart,
    partReducible bodyList part = true →
      reduceItemsWith bodyList false (partItems ext part ++ [.eol]) = some (partItems false part)
  | ⟨.multipart, _, _, _, context, children⟩, h => by
    have hkids := reduceItemsWith_partsArgs bodyList ext children
    simp only [partReducible, Bool.and_eq_true] at h
    obtain ⟨sub, hs⟩ : ∃ sub, textArg ((context.getD {}).contentSubtype.getD "") = .string sub := by
      revert h; cases textArg _ <;> simp
    have htail : reduceItemsWith bodyList true
        (((context.getD {}).contentSubtype.getD "" ::
          if ext then multipartExtensionPieces (context.getD {}) else []).map textArg ++ [.eol]) =
        some [.string sub] := by
      simp only [List.map_cons, hs, List.cons_append, reduceItemsWith_string, ↓reduceIte]
    simp only [partItems, List.append_assoc]
    cases children
    case nil =>
      obtain ⟨l, c, hl, hc, he⟩ := emptyBodystructure_reduce bodyList
      simp only [List.isEmpty_nil, ↓reduceIte, List.singleton_append, hl, reduceItemsWith_list, hc,
        htail, Option.bind_eq_bind, Option.some_bind, Bool.false_eq_true, List.map_cons, List.map_nil,
        hs, he.trans hl]
      rfl
    case cons p ps =>
      simp only [List.isEmpty_cons, Bool.false_eq_true, ↓reduceIte, hkids h.2 false, Bool.not_false,
        Bool.or_true, htail, Option.map_some']
      simp only [List.map_cons, List.map_nil, hs]
  | ⟨.text, _, virtualSize, lines, context, children⟩, h => by
    simp only [partReducible] at h
    split at h
    next ty sub hts =>
      simp only [beq_self_eq_true, Bool.and_eq_true, beq_iff_eq] at h
      simp only [partItems, List.append_assoc, reduceItemsWith_basic hts, ← h.1,
        reduceFieldsWith_zero_text, textArg_toString, List.cons_append, reduceLines, Option.map_some',
        Bool.false_eq_true, ↓reduceIte, List.map_nil, List.nil_append]
    next => cases h
  | ⟨.messageRfc822, _, virtualSize, lines, context, [child]⟩, h => by
    have hchild := reduceItemsWith_partItems bodyList ext child
    simp only [partReducible] at h
    split at h
    next ty sub hts =>
      have hf : (MessagePartFlag.messageRfc822 == .text) = false := rfl
      simp only [hf, Bool.and_eq_true, beq_iff_eq] at h
      obtain ⟨htext, ⟨⟨⟨rfl, hm⟩, hr⟩, henv⟩, hc⟩ := h
      obtain ⟨env, he⟩ : ∃ env, textArg (envelopeOrNil child.context) = .list env := by
        revert henv; cases textArg _ <;> simp
      simp only [partItems, List.append_assoc, reduceItemsWith_basic hts, ← htext, hm, hr,
        Bool.and_self, he, textArg_toString, List.cons_append, List.singleton_append]
      have hbody : reduceListWith true (.list (partItems ext child ++ [.eol])) =
          some (partItems false child) := hchild hc
      rw [reduceFieldsWith_rfc822, hbody]
      rfl
    next => cases h
  | ⟨.messageRfc822, _, _, _, context, []⟩, h | ⟨.messageRfc822, _, _, _, context, _ :: _ :: _⟩, h => by
    simp only [partReducible] at h
    split at h <;> simp at h
  | ⟨.other, _, virtualSize, lines, context, children⟩, h => by
    simp only [partReducible] at h
    split at h
    next ty sub hts =>
      have hf : (MessagePartFlag.other == .text) = false := rfl
      simp only [hf, Bool.and_eq_true, beq_iff_eq, Bool.not_eq_true'] at h
      simp only [partItems, List.append_assoc, reduceItemsWith_basic hts, ← h.1, h.2,
        reduceFieldsWith_zero_basic, Option.map_some', List.nil_append, List.append_nil,
        Bool.false_eq_true, ↓reduceIte, List.map_nil]
    next => cases h
/-- The spec reduces the children of a multipart, then reads what follows
them as a multipart's subtype once there is a child. -/
theorem reduceItemsWith_partsArgs (bodyList ext : Bool) : ∀ ps : List MessagePart,
    partsReducible bodyList ps = true → ∀ (multipart : Bool) (rest : List ImapArg),
      reduceItemsWith bodyList multipart (partsArgs ext ps ++ rest) =
        (reduceItemsWith bodyList (multipart || !ps.isEmpty) rest).map (partsArgs false ps ++ ·)
  | [], _, multipart, rest => by simp [partsArgs]
  | p :: ps, h, multipart, rest => by
    simp only [partsReducible, Bool.and_eq_true] at h
    have hp := reduceItemsWith_partItems bodyList ext p h.1
    have hps := reduceItemsWith_partsArgs bodyList ext ps h.2 true rest
    rw [partsArgs, List.cons_append]
    simp only [reduceItemsWith_list, hp, hps, Bool.true_or, List.isEmpty_cons, Bool.not_false,
      Bool.or_true, Option.bind_eq_bind, Option.some_bind]
    cases reduceItemsWith bodyList true rest <;> rfl
end

/-! ## The reducer on the serializer's output -/

/-- **The reducer turns a stored BODYSTRUCTURE into the BODY** of every tree
with the data-model invariants and well-formed metadata whose fields have the
kinds the grammar asks for and whose flags agree with its types, as long as
it has no message/rfc822 part: the text `imap_body_parse_from_bodystructure`
writes reads back as the BODY does. -/
theorem imapBodyParseFromBodystructure_body {part : MessagePart} (ext : Bool)
    (hw : partWellFormed part = true) (hok : partPiecesOk part = true)
    (hr : partReducible false part = true) :
    ∃ s b r, partGetBodystructure part ext = some s ∧ partGetBodystructure part false = some b ∧
      imapBodyParseFromBodystructure s = some r ∧ imapParserReadArgs r = imapParserReadArgs b := by
  obtain ⟨s, hs⟩ := Option.isSome_iff_exists.mp (partGetBodystructure_isSome hw ext)
  obtain ⟨b, hb⟩ := Option.isSome_iff_exists.mp (partGetBodystructure_isSome hw false)
  have hprint := printableItems_append_eol (partGetBodystructure_itemsOf hok hs).2
  have hspec := reduceItemsWith_partItems false ext part hr
  obtain ⟨hsome, hparse⟩ := (bodystructureArgs_refines false _ hprint).parse
  rw [hspec] at hsome hparse
  obtain ⟨r, hcode⟩ : ∃ r, bodystructureArgs false (partItems ext part ++ [.eol]) = .ok r := by
    revert hsome
    cases bodystructureArgs false _ <;> simp [Except.toOption]
  obtain ⟨_, hitems, hread⟩ := hparse r hcode
  cases hitems
  refine ⟨s, b, r, hs, hb, ?_, by rw [hread, imapParserReadArgs_partGetBodystructure hok hb]⟩
  have hlen : ¬(partItems ext part ++ [ImapArg.eol]).length ≤ 1 := by
    have := List.length_pos.mpr fun h : partItems ext part = [] => by rw [h] at hspec; cases hspec
    simp only [List.length_append, List.length_singleton]
    omega
  simp only [imapBodyParseFromBodystructure, imapParserReadArgs_partGetBodystructure hok hs, hlen,
    ↓reduceIte, imapParseBodystructureArgs, hcode, Except.toOption]

/-- The metadata `Content-Type: text/plain; charset=us-ascii` leaves. -/
def usAsciiData : MessagePartBodyData where
  contentType := some "\"text\""
  contentSubtype := some "\"plain\""
  contentTypeParams := some "\"charset\" \"us-ascii\""

/-- The metadata of a base64 attachment `a.bin` of type application/octet-stream. -/
def attachmentData : MessagePartBodyData where
  contentType := some "\"application\""
  contentSubtype := some "\"octet-stream\""
  contentTransferEncoding := some "\"base64\""
  contentDisposition := some "\"attachment\""
  contentDispositionParams := some "\"filename\" \"a.bin\""

/-- A multipart/mixed message of a text part and an attachment. -/
def attachmentTree : MessagePart :=
  ⟨.multipart, 0, 300, 12, some { contentSubtype := some "\"mixed\"" },
    [⟨.text, 40, 20, 2, some usAsciiData, []⟩, ⟨.other, 120, 80, 1, some attachmentData, []⟩]⟩

theorem imapBodyParseFromBodystructure_body_attachment :
    partWellFormed attachmentTree = true ∧ partPiecesOk attachmentTree = true ∧
      partReducible false attachmentTree = true ∧
      ∃ s b r, partGetBodystructure attachmentTree true = some s ∧
        partGetBodystructure attachmentTree false = some b ∧
        imapBodyParseFromBodystructure s = some r ∧ imapParserReadArgs r = imapParserReadArgs b :=
  ⟨rfl, by decide, by decide, imapBodyParseFromBodystructure_body true rfl (by decide) (by decide)⟩

/-! ## A message/rfc822 part -/

/-- A message/rfc822 part whose enclosed message has an envelope. -/
def rfc822Tree : MessagePart :=
  ⟨.messageRfc822, 0, 100, 5, some { contentType := some "\"message\"", contentSubtype := some "\"rfc822\"" },
    [⟨.text, 0, 10, 1, some { envelope := some "NIL \"hi\" NIL NIL NIL NIL NIL NIL NIL NIL" }, []⟩]⟩

/-- The same part, its enclosed message without metadata. -/
def rfc822BareTree : MessagePart :=
  ⟨.messageRfc822, 0, 100, 5, some { contentType := some "\"message\"", contentSubtype := some "\"rfc822\"" },
    [⟨.text, 0, 10, 1, none, []⟩]⟩

set_option maxRecDepth 2000 in
/-- **The reduced BODYSTRUCTURE of a message/rfc822 part is not its BODY.** The
reducer writes the enclosed body's fields in the part's own list, so the text
reads back as other arguments than the BODY; and for an enclosed message
without an envelope the serializer writes `NIL`, which the reducer rejects. -/
theorem reduce_rfc822_body_unparenthesized :
    (partWellFormed rfc822Tree = true ∧
      ∃ s b r, partGetBodystructure rfc822Tree true = some s ∧
        partGetBodystructure rfc822Tree false = some b ∧
        imapBodyParseFromBodystructure s = some r ∧ imapParserReadArgs r ≠ imapParserReadArgs b) ∧
    (partWellFormed rfc822BareTree = true ∧
      ∃ s, partGetBodystructure rfc822BareTree true = some s ∧
        imapBodyParseFromBodystructure s = none) :=
  ⟨⟨rfl, _, _, _, rfl, rfl, rfl, by decide⟩, ⟨rfl, _, rfl, by decide⟩⟩

/-! ## The reducer on its own output -/

/-- The arguments of a stored BODYSTRUCTURE of a message/rfc822 part: its
basic fields, the envelope, the body of the enclosed message, the line count,
then the extension data. -/
def rfc822Args : List ImapArg :=
  [.string "message", .string "rfc822", .nil, .nil, .nil, .string "8bit", .atom "100",
    .list [.nil, .string "hi", .eol],
    .list [.string "text", .string "plain", .nil, .nil, .nil, .string "8bit", .atom "10", .atom "1",
      .nil, .nil, .nil, .eol],
    .atom "5", .nil, .nil, .nil, .eol]

/-- `rfc822Args` with the extension items of every level removed. -/
def rfc822BodyArgs : List ImapArg :=
  [.string "message", .string "rfc822", .nil, .nil, .nil, .string "8bit", .atom "100",
    .list [.nil, .string "hi", .eol],
    .list [.string "text", .string "plain", .nil, .nil, .nil, .string "8bit", .atom "10", .atom "1",
      .eol],
    .atom "5", .eol]

/-- **The reducer is not idempotent at a message/rfc822 part.** Its output
does not read back as its input without the extension data, and reducing the
output once more fails. -/
theorem reduce_rfc822_not_idempotent :
    ∃ r, imapParseBodystructureArgs rfc822Args = .ok r ∧
      imapParserReadArgs r ≠ some rfc822BodyArgs ∧ imapBodyParseFromBodystructure r = none :=
  ⟨_, rfl, by decide, by decide⟩

end Dovecot
