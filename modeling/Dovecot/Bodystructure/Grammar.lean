import Dovecot.Bodystructure.Reduction
import Dovecot.Bodystructure.HeaderFold
/-!
The IMAP4rev1 `body` grammar, on parsed arguments, and the serializer against
it. The grammar is the protocol's, not the source's: a checker of its ABNF
rules, each a Boolean function of the same name, over the argument trees the
parser returns (strings quoted, numbers atoms, each list ending in `eol`).

The checker is looser than RFC 3501 in three places, each a lexical one the
serializer cannot control: a `number` is any digit string (RFC 3501 bounds it
by 2^32, and sizes are written from 64-bit offsets), a `string` is any quoted
string the parser returns (RFC 3501 admits only 7-bit TEXT-CHARs), and the
envelope, opaque text in this model, is any list (RFC 3501 asks for ten
fields). So what it rejects RFC 3501 rejects too, and what it accepts has the
grammar's structure. Where the ABNF offers alternatives (`media-basic`
accepts any type string, so a text part may also read as a basic one), the
checker accepts a word when any of them matches.

The serializer's output leaves the grammar where an empty parameter or
language list is written `()`, since `body-fld-param` and `body-fld-lang`
need at least one item: `parse_header` stores the empty text, not NULL, for a
Content-Type or Content-Disposition without parameters. It also leaves it
where a single part's disposition is written as two lists, the disposition
alone and then its parameters, where `body-fld-dsp` is one list holding both;
and a multipart's disposition without parameters is written `("inline" ())`.
BODY has no extension data. For a tree whose fields have the grammar's kinds,
whose types agree with its flags and whose enclosed messages have envelopes,
BODY is a word of the grammar (`partGetBodystructure_body_isImapBody`).
-/

namespace Dovecot

/-! ## The grammar -/

namespace BodyGrammar

/-- `string`, as the parser returns a quoted string: any one, where RFC 3501
admits only TEXT-CHARs. -/
def isString : ImapArg → Bool
  | .string _ => true
  | _ => false

/-- `nstring`: a string or `NIL`. -/
def isNString : ImapArg → Bool
  | .nil | .string _ => true
  | _ => false

/-- `number`: one or more digits, of any length, where RFC 3501 bounds a
`number` by 2^32. -/
def isNumber : ImapArg → Bool
  | .atom s => !s.toList.isEmpty && s.toList.all Char.isDigit
  | _ => false

/-- A quoted string equal to `name` up to case, as ABNF literals match. -/
def mediaIs (a : ImapArg) (name : String) : Bool :=
  match a with
  | .string s => strcasecmpEq s name
  | _ => false

/-- The items of `body-fld-param`'s list: one or more string pairs. -/
def paramPairs : List ImapArg → Bool
  | .string _ :: .string _ :: rest =>
    match rest with
    | .eol :: _ => true
    | _ => paramPairs rest
  | _ => false

/-- `body-fld-param = "(" string SP string *(SP string SP string) ")" / nil`. -/
def bodyFldParam : ImapArg → Bool
  | .nil => true
  | .list items => paramPairs items
  | _ => false

/-- `body-fld-dsp = "(" string SP body-fld-param ")" / nil`. -/
def bodyFldDsp : ImapArg → Bool
  | .nil => true
  | .list [.string _, p, .eol] => bodyFldParam p
  | _ => false

/-- Strings up to the end of a list. -/
def stringsToEol : List ImapArg → Bool
  | .eol :: _ => true
  | .string _ :: rest => stringsToEol rest
  | _ => false

/-- `body-fld-lang = nstring / "(" string *(SP string) ")"`. -/
def bodyFldLang : ImapArg → Bool
  | .nil | .string _ => true
  | .list (.string _ :: rest) => stringsToEol rest
  | _ => false

mutual
/-- `body-extension = nstring / number / "(" body-extension *(SP body-extension) ")"`. -/
def bodyExtension : ImapArg → Bool
  | .nil | .string _ => true
  | .atom s => isNumber (.atom s)
  | .list (e :: rest) => bodyExtension e && bodyExtensions rest
  | .list [] | .eol => false
/-- `*(SP body-extension)` up to the end of a list. -/
def bodyExtensions : List ImapArg → Bool
  | [] => false
  | e :: rest => e.isEol || (bodyExtension e && bodyExtensions rest)
end

/-- `[SP body-fld-loc *(SP body-extension)]` up to the end of a list. -/
def extAfterLang : List ImapArg → Bool
  | [] => false
  | loc :: rest => loc.isEol || (isNString loc && bodyExtensions rest)

/-- `[SP body-fld-lang [SP body-fld-loc ...]]` up to the end of a list. -/
def extAfterDsp : List ImapArg → Bool
  | [] => false
  | lang :: rest => lang.isEol || (bodyFldLang lang && extAfterLang rest)

/-- `[SP body-fld-dsp [SP body-fld-lang ...]]` up to the end of a list. -/
def extDsp : List ImapArg → Bool
  | [] => false
  | dsp :: rest => dsp.isEol || (bodyFldDsp dsp && extAfterDsp rest)

/-- `[SP body-ext-1part]`, where `body-ext-1part = body-fld-md5 [SP body-fld-dsp ...]`. -/
def bodyExt1part : List ImapArg → Bool
  | [] => false
  | md5 :: rest => md5.isEol || (isNString md5 && extDsp rest)

/-- `[SP body-ext-mpart]`, where `body-ext-mpart = body-fld-param [SP body-fld-dsp ...]`. -/
def bodyExtMpart : List ImapArg → Bool
  | [] => false
  | param :: rest => param.isEol || (bodyFldParam param && extDsp rest)

/-- `body-fields`: params, id, description, encoding and octets. -/
def bodyFields (param id desc enc octets : ImapArg) : Bool :=
  bodyFldParam param && isNString id && isNString desc && isString enc && isNumber octets

mutual
/-- `body = "(" (body-type-1part / body-type-mpart) ")"`. -/
def imapBody : ImapArg → Bool
  | .list items => bodyType1part items || bodyTypeMpart items
  | _ => false
/-- `body-type-1part = (body-type-basic / body-type-msg / body-type-text) [SP body-ext-1part]`. -/
def bodyType1part : List ImapArg → Bool
  | t :: s :: param :: id :: desc :: enc :: octets :: rest =>
    isString t && isString s && bodyFields param id desc enc octets && bodyTypeRest t s rest
  | _ => false
/-- What follows `body-fields` in a single part of type `t`/`s`: nothing more
for `body-type-basic`, the line count for `body-type-text`, the envelope (any
list), body and line count for `body-type-msg`; then `[SP body-ext-1part]`. -/
def bodyTypeRest (t s : ImapArg) (rest : List ImapArg) : Bool :=
  bodyExt1part rest ||
    (mediaIs t "TEXT" && match rest with
      | lines :: rest => isNumber lines && bodyExt1part rest
      | [] => false) ||
    (mediaIs t "MESSAGE" && mediaIs s "RFC822" && match rest with
      | .list _ :: b :: lines :: rest => imapBody b && isNumber lines && bodyExt1part rest
      | _ => false)
/-- `body-type-mpart = 1*body SP media-subtype [SP body-ext-mpart]`. -/
def bodyTypeMpart : List ImapArg → Bool
  | b :: rest => b matches .list _ && imapBody b && bodyParts rest
  | [] => false
/-- The rest of `1*body SP media-subtype [SP body-ext-mpart]` after a body. -/
def bodyParts : List ImapArg → Bool
  | [] => false
  | b :: rest =>
    if b matches .list _ then imapBody b && bodyParts rest
    else isString b && bodyExtMpart rest
end

end BodyGrammar

/-- A text is a word of `body` when the parser reads it as one argument that is. -/
def isImapBody (t : String) : Bool :=
  match imapParserReadArgs t with
  | some [a, .eol] => BodyGrammar.imapBody a
  | _ => false

/-! ## The serializer's output -/

/-- The metadata `Content-Type: text/plain; charset=us-ascii` and
`Content-Disposition: inline; filename=a.txt` leave. -/
def inlineData : MessagePartBodyData where
  contentType := some "\"text\""
  contentSubtype := some "\"plain\""
  contentTypeParams := some "\"charset\" \"us-ascii\""
  contentDisposition := some "\"inline\""
  contentDispositionParams := some "\"filename\" \"a.txt\""

/-- A text part with a disposition and its parameters. -/
def inlineTree : MessagePart := ⟨.text, 0, 10, 1, some inlineData, []⟩

/-- The metadata `Content-Type: text/plain` leaves: with no parameters, the
parameter text is empty, not NULL. -/
def noParamsData : MessagePartBodyData where
  contentType := some "\"text\""
  contentSubtype := some "\"plain\""
  contentTypeParams := some ""

/-- A text part whose Content-Type had no parameters. -/
def noParamsTree : MessagePart := ⟨.text, 0, 10, 1, some noParamsData, []⟩

/-- **The serializer's output is not always a `body`.** The extended structure
of a part with a disposition writes it as two lists, and the structure of a
part whose Content-Type had no parameters, extended or not, writes them as
`()`; neither, in parentheses, is a word of the grammar. -/
theorem bodystructure_outside_grammar :
    (partWellFormed inlineTree = true ∧
      ∃ s, partGetBodystructure inlineTree true = some s ∧ isImapBody ("(" ++ s ++ ")") = false) ∧
    (partWellFormed noParamsTree = true ∧
      ∀ ext, ∃ s, partGetBodystructure noParamsTree ext = some s ∧
        isImapBody ("(" ++ s ++ ")") = false) :=
  ⟨⟨rfl, _, rfl, by decide⟩, ⟨rfl, fun ext => by cases ext <;> exact ⟨_, rfl, by decide⟩⟩⟩

/-- `noParamsTree`'s parameter text is what `parse_header` leaves on
`Content-Type: text/plain` for every tokenizer that reports no parameter. -/
example (c : HeaderCollab)
    (hno : ∀ e ∈ c.messageContentParseHeader "text/plain", ∀ n t, e ≠ .param n t) :
    (parseHeaders c false none [("Content-Type", "text/plain")]).bind (·.contentTypeParams) =
      noParamsData.contentTypeParams :=
  parseHeaderField_type_no_params c false "Content-Type" "text/plain" {} rfl rfl hno

/-- With a tokenizer for plain values, all of `noParamsTree`'s metadata is. -/
example : parseHeaders mimeCollab false none [("Content-Type", "text/plain")] = some noParamsData := by
  decide

/-! ## BODY of a tree with the grammar's kinds of fields -/

/-- The basic fields of a single part have the kinds `body-fields` asks for:
at least one parameter pair or `NIL`, id and description `NIL` or strings, a
string encoding. -/
def bodyFieldsInGrammar (d : MessagePartBodyData) : Bool :=
  BodyGrammar.bodyFldParam (textArg (listOrNil d.contentTypeParams)) &&
    BodyGrammar.isNString (textArg (d.contentId.getD "NIL")) &&
    BodyGrammar.isNString (textArg (d.contentDescription.getD "NIL")) &&
    BodyGrammar.isString (textArg (d.contentTransferEncoding.getD "\"8bit\""))

mutual
/-- Every single part of a tree has basic fields of the grammar's kinds. -/
def partFieldsInGrammar : MessagePart → Bool
  | ⟨.multipart, _, _, _, _, children⟩ => partsFieldsInGrammar children
  | ⟨_, _, _, _, context, children⟩ =>
    bodyFieldsInGrammar (context.getD {}) && partsFieldsInGrammar children
/-- Every tree of a sibling chain has basic fields of the grammar's kinds. -/
def partsFieldsInGrammar : List MessagePart → Bool
  | [] => true
  | p :: ps => partFieldsInGrammar p && partsFieldsInGrammar ps
end

theorem isNumber_toString (n : Nat) : BodyGrammar.isNumber (.atom (toString n)) = true := by
  have hmem := mem_toDigitsCore (n + 1) n [] (by simp)
  have hne := toDigitsCore_ne_nil n n []
  show (!(Nat.toDigits 10 n).isEmpty && (Nat.toDigits 10 n).all Char.isDigit) = true
  simp only [Nat.toDigits, Bool.and_eq_true, Bool.not_eq_true', List.isEmpty_eq_false,
    List.all_eq_true]
  refine ⟨hne, fun c hc => ?_⟩
  obtain ⟨k, hk, rfl⟩ := hmem c hc
  exact (digitChar_ok hk).2.2

theorem imapBody_list (items : List ImapArg) :
    BodyGrammar.imapBody (.list items) =
      (BodyGrammar.bodyType1part items || BodyGrammar.bodyTypeMpart items) := rfl

theorem bodyParts_list (l rest : List ImapArg) :
    BodyGrammar.bodyParts (.list l :: rest) =
      (BodyGrammar.imapBody (.list l) && BodyGrammar.bodyParts rest) := rfl

theorem imapBody_emptyBodystructure : BodyGrammar.imapBody (textArg emptyBodystructure) = true := by
  decide

theorem bodyType1part_cons (t s param id desc enc octets : ImapArg) (rest : List ImapArg) :
    BodyGrammar.bodyType1part (t :: s :: param :: id :: desc :: enc :: octets :: rest) =
      (BodyGrammar.isString t && BodyGrammar.isString s &&
        BodyGrammar.bodyFields param id desc enc octets && BodyGrammar.bodyTypeRest t s rest) := rfl

/-- The basic fields of a single part whose types `bodyTypes` reads and whose
fields have the grammar's kinds: `body-type-1part` is decided by what follows
them. -/
theorem bodyType1part_basic {d : MessagePartBodyData} {ty sub : String}
    (h : bodyTypes d = some (ty, sub)) (hf : bodyFieldsInGrammar d = true) (virtualSize : Nat)
    (rest : List ImapArg) :
    BodyGrammar.bodyType1part ((basicPieces d virtualSize).map textArg ++ rest) =
      BodyGrammar.bodyTypeRest (.string ty) (.string sub) rest := by
  obtain ⟨hty, hsub, -⟩ := bodyTypes_some h
  simp only [bodyFieldsInGrammar, Bool.and_eq_true] at hf
  obtain ⟨⟨⟨hp, hi⟩, hd⟩, he⟩ := hf
  simp only [basicPieces, List.map_cons, List.map_nil, hty, hsub, textArg_toString, List.cons_append,
    List.nil_append, bodyType1part_cons, BodyGrammar.bodyFields, hp, hi, hd, he, isNumber_toString]
  rfl

theorem bodyTypeRest_text {ty : String} (h : strcasecmpEq ty "text" = true) (s : ImapArg) (n : Nat) :
    BodyGrammar.bodyTypeRest (.string ty) s [.atom (toString n), .eol] = true := by
  have hT : BodyGrammar.mediaIs (.string ty) "TEXT" = true :=
    (strcasecmpEq_congr h "TEXT").trans (by decide)
  show (_ || (BodyGrammar.mediaIs (.string ty) "TEXT" &&
    (BodyGrammar.isNumber (.atom (toString n)) && _)) || _) = true
  rw [hT, isNumber_toString]
  rfl

theorem bodyTypeRest_rfc822 {ty sub : String} (hm : strcasecmpEq ty "message" = true)
    (hs : strcasecmpEq sub "rfc822" = true) (env : List ImapArg) {body : List ImapArg}
    (hb : BodyGrammar.imapBody (.list body) = true) (n : Nat) :
    BodyGrammar.bodyTypeRest (.string ty) (.string sub) [.list env, .list body, .atom (toString n), .eol] =
      true := by
  have hM : BodyGrammar.mediaIs (.string ty) "MESSAGE" = true :=
    (strcasecmpEq_congr hm "MESSAGE").trans (by decide)
  have hR : BodyGrammar.mediaIs (.string sub) "RFC822" = true :=
    (strcasecmpEq_congr hs "RFC822").trans (by decide)
  show (_ || _ || (BodyGrammar.mediaIs (.string ty) "MESSAGE" && BodyGrammar.mediaIs (.string sub) "RFC822" &&
    (BodyGrammar.imapBody (.list body) && BodyGrammar.isNumber (.atom (toString n)) &&
      BodyGrammar.bodyExt1part [.eol]))) = true
  rw [hM, hR, hb, isNumber_toString]
  exact Bool.or_true _

mutual
/-- The BODY items of a tree with the grammar's kinds of fields, as one list,
are a `body`. -/
theorem imapBody_partItems : ∀ part : MessagePart, partReducible true part = true →
    partFieldsInGrammar part = true → BodyGrammar.imapBody (.list (partItems false part ++ [.eol])) = true
  | ⟨.multipart, _, _, _, context, children⟩, hr, hf => by
    have hkids := bodyParts_partsArgs children
    simp only [partReducible, Bool.and_eq_true] at hr
    obtain ⟨sub, hs⟩ : ∃ sub, textArg ((context.getD {}).contentSubtype.getD "") = .string sub := by
      revert hr; cases textArg _ <;> simp
    simp only [partItems, Bool.false_eq_true, ↓reduceIte, List.map_cons, List.map_nil, hs,
      List.append_assoc, List.singleton_append, imapBody_list]
    cases children
    case nil =>
      obtain ⟨l, hl⟩ : ∃ l, textArg emptyBodystructure = .list l := ⟨_, rfl⟩
      have he := imapBody_emptyBodystructure
      rw [hl] at he ⊢
      exact Bool.or_eq_true_iff.mpr (.inr (show BodyGrammar.bodyParts (.list l :: [.string sub, .eol]) = true
        by rw [bodyParts_list, he]; rfl))
    case cons p ps => exact Bool.or_eq_true_iff.mpr (.inr (hkids hr.2 hf sub))
  | ⟨.text, _, virtualSize, lines, context, children⟩, hr, hf => by
    simp only [partReducible] at hr
    split at hr
    next ty sub hts =>
      simp only [beq_self_eq_true, Bool.and_eq_true, beq_iff_eq] at hr
      simp only [partFieldsInGrammar, Bool.and_eq_true] at hf
      simp only [partItems, List.append_assoc, Bool.false_eq_true, ↓reduceIte, List.map_nil,
        List.nil_append, List.singleton_append, imapBody_list, bodyType1part_basic hts hf.1,
        textArg_toString, bodyTypeRest_text hr.1.symm, Bool.true_or]
    next => cases hr
  | ⟨.messageRfc822, _, virtualSize, lines, context, [child]⟩, hr, hf => by
    have hchild := imapBody_partItems child
    simp only [partReducible] at hr
    split at hr
    next ty sub hts =>
      have hflag : (MessagePartFlag.messageRfc822 == .text) = false := rfl
      simp only [hflag, Bool.and_eq_true, beq_iff_eq] at hr
      obtain ⟨-, ⟨⟨⟨-, hm⟩, hs⟩, henv⟩, hc⟩ := hr
      obtain ⟨env, he⟩ : ∃ env, textArg (envelopeOrNil child.context) = .list env := by
        revert henv; cases textArg _ <;> simp
      simp only [partFieldsInGrammar, partsFieldsInGrammar, Bool.and_true, Bool.and_eq_true] at hf
      simp only [partItems, List.append_assoc, Bool.false_eq_true, ↓reduceIte, List.map_nil,
        List.nil_append, List.cons_append, List.singleton_append, imapBody_list,
        bodyType1part_basic hts hf.1, he, textArg_toString,
        bodyTypeRest_rfc822 hm hs env (hchild hc hf.2), Bool.true_or]
    next => cases hr
  | ⟨.messageRfc822, _, _, _, _, []⟩, hr, _ | ⟨.messageRfc822, _, _, _, _, _ :: _ :: _⟩, hr, _ => by
    simp only [partReducible] at hr
    split at hr <;> simp at hr
  | ⟨.other, _, virtualSize, lines, context, children⟩, hr, hf => by
    simp only [partFieldsInGrammar, Bool.and_eq_true] at hf
    simp only [partReducible] at hr
    split at hr
    next ty sub hts =>
      simp only [partItems, List.append_assoc, Bool.false_eq_true, ↓reduceIte, List.map_nil,
        List.nil_append, imapBody_list, bodyType1part_basic hts hf.1]
      rfl
    next => cases hr
/-- The children of a multipart with the grammar's kinds of fields, then its
subtype, are `1*body SP media-subtype`. -/
theorem bodyParts_partsArgs : ∀ ps : List MessagePart, partsReducible true ps = true →
    partsFieldsInGrammar ps = true → ∀ sub : String,
      BodyGrammar.bodyParts (partsArgs false ps ++ [.string sub, .eol]) = true
  | [], _, _, _ => rfl
  | p :: ps, hr, hf, sub => by
    simp only [partsReducible, partsFieldsInGrammar, Bool.and_eq_true] at hr hf
    rw [partsArgs, List.cons_append, bodyParts_list, imapBody_partItems p hr.1 hf.1,
      bodyParts_partsArgs ps hr.2 hf.2 sub]
    rfl
end

/-- **BODY is a word of the grammar** for every tree with the data-model
invariants and well-formed metadata whose types agree with its flags and
whose basic fields have the grammar's kinds: at least one parameter pair or
`NIL`, id and description `NIL` or strings, a string encoding. -/
theorem partGetBodystructure_body_isImapBody {part : MessagePart} (hw : partWellFormed part = true)
    (hok : partPiecesOk part = true) (hr : partReducible true part = true)
    (hf : partFieldsInGrammar part = true) :
    ∃ b, partGetBodystructure part false = some b ∧ isImapBody ("(" ++ b ++ ")") = true := by
  obtain ⟨b, hb⟩ := Option.isSome_iff_exists.mp (partGetBodystructure_isSome hw false)
  have hl := (partGetBodystructure_itemsOf hok hb).list
  refine ⟨b, hb, ?_⟩
  simp only [isImapBody, imapParserReadArgs_of_lexesTo hl.1 hl.2, List.singleton_append]
  exact imapBody_partItems part hr hf

theorem partGetBodystructure_body_isImapBody_attachment :
    partWellFormed attachmentTree = true ∧ partPiecesOk attachmentTree = true ∧
      partReducible true attachmentTree = true ∧ partFieldsInGrammar attachmentTree = true ∧
      ∃ b, partGetBodystructure attachmentTree false = some b ∧ isImapBody ("(" ++ b ++ ")") = true :=
  ⟨rfl, by decide, by decide, by decide,
    partGetBodystructure_body_isImapBody rfl (by decide) (by decide) (by decide)⟩


/-! ## A multipart's disposition without parameters -/

theorem bodyType1part_list (l : List ImapArg) : ∀ rest : List ImapArg,
    BodyGrammar.bodyType1part (.list l :: rest) = false
  | _ :: _ :: _ :: _ :: _ :: _ :: _ => rfl
  | [] | [_] | [_, _] | [_, _, _] | [_, _, _, _] | [_, _, _, _, _] => rfl

/-- With a disposition that is not a `body-fld-dsp`, the children of a
multipart, its subtype, its parameters and that disposition are not
`1*body SP media-subtype SP body-ext-mpart`. -/
theorem bodyParts_partsArgs_dsp (ext : Bool) {sub : String} {params dsp : ImapArg}
    (hp : params.isEol = false) (he : dsp.isEol = false) (hx : BodyGrammar.bodyFldDsp dsp = false)
    (rest : List ImapArg) : ∀ ps : List MessagePart,
      BodyGrammar.bodyParts (partsArgs ext ps ++ .string sub :: params :: dsp :: rest) = false
  | [] => by
    show (params.isEol || (BodyGrammar.bodyFldParam params &&
      (dsp.isEol || (BodyGrammar.bodyFldDsp dsp && _)))) = false
    rw [hp, he, hx, Bool.false_and, Bool.or_false, Bool.and_false, Bool.false_or]
  | p :: ps => by
    rw [partsArgs, List.cons_append, bodyParts_list, bodyParts_partsArgs_dsp ext hp he hx rest ps,
      Bool.and_false]

/-- **A multipart's disposition without parameters leaves the grammar.**
`parse_header` stores the empty text as the parameters of a disposition that
has none (`parseHeaderField_disposition_no_params`), and
`part_write_body_multipart` writes it `("inline" ())`; `body-fld-dsp` asks
for a `body-fld-param` there, one or more string pairs or `NIL`. So the
extended structure of every such multipart, in parentheses, is not a `body`. -/
theorem partGetBodystructure_multipartDisposition {part : MessagePart} {d : MessagePartBodyData}
    {disp : String} (hw : partWellFormed part = true) (hok : partPiecesOk part = true)
    (hm : part.flags = .multipart) (hc : part.context = some d)
    (hs : BodyGrammar.isString (textArg (d.contentSubtype.getD "")) = true)
    (hd : d.contentDisposition = some disp) (hp : d.contentDispositionParams = some "") :
    ∃ s, partGetBodystructure part true = some s ∧ isImapBody ("(" ++ s ++ ")") = false := by
  obtain ⟨s, hs'⟩ := Option.isSome_iff_exists.mp (partGetBodystructure_isSome hw true)
  have hl := (partGetBodystructure_itemsOf hok hs').list
  refine ⟨s, hs', ?_⟩
  simp only [isImapBody, imapParserReadArgs_of_lexesTo hl.1 hl.2, List.singleton_append]
  obtain ⟨flags, _, _, _, context, children⟩ := part
  subst hm hc
  have hdata := piecesOk_getD_empty (partPiecesOk_context hok)
  have hdisp : pieceOk disp = true := by
    simpa [hd] using piecesOk_quoted hdata d.contentDisposition (by simp)
  have hdsp : textArg (multipartDispositionPiece d) = .list [textArg disp, .list [.eol], .eol] := by
    simpa [multipartDispositionPiece, hd, hp, spaced, spacedAfter] using
      @textArg_paren [disp, "()"] (by simpa using ⟨hdisp, by decide⟩)
  have hx : BodyGrammar.bodyFldDsp (.list [textArg disp, .list [.eol], .eol]) = false := by
    cases textArg disp <;> rfl
  obtain ⟨sub, hsub⟩ : ∃ sub, textArg (d.contentSubtype.getD "") = .string sub := by
    revert hs; cases textArg _ <;> simp [BodyGrammar.isString]
  have hparams : (textArg (listOrNil d.contentTypeParams)).isEol = false :=
    printable_isEol (pieceOk_printable (multipartExtensionPieces_ok hdata _ (by
      simp [multipartExtensionPieces])))
  simp only [partItems, Option.getD_some, ↓reduceIte, multipartExtensionPieces, List.map_cons,
    List.map_nil, hsub, hdsp, List.append_assoc, List.cons_append, List.nil_append, imapBody_list]
  cases children
  case nil =>
    obtain ⟨l, hl⟩ : ∃ l, textArg emptyBodystructure = .list l := ⟨_, rfl⟩
    simp only [List.isEmpty_nil, ↓reduceIte, List.singleton_append, hl, bodyType1part_list,
      Bool.false_or]
    exact (congrArg (_ && ·) (bodyParts_partsArgs_dsp true hparams (by rfl) hx _ [])).trans (Bool.and_false _)
  case cons p ps =>
    simp only [List.isEmpty_cons, Bool.false_eq_true, ↓reduceIte, partsArgs, List.cons_append,
      bodyType1part_list, Bool.false_or]
    exact (congrArg (_ && ·) (bodyParts_partsArgs_dsp true hparams (by rfl) hx _ ps)).trans (Bool.and_false _)

/-- An inline multipart/mixed of one text part, with the metadata
`parse_header` leaves on `inlineMultipartHeader`. -/
def inlineMultipartTree : MessagePart :=
  ⟨.multipart, 0, 100, 5, some inlineMultipartData, [⟨.text, 0, 10, 1, some usAsciiData, []⟩]⟩

theorem partGetBodystructure_multipartDisposition_inline :
    partWellFormed inlineMultipartTree = true ∧ partPiecesOk inlineMultipartTree = true ∧
      inlineMultipartTree.flags = .multipart ∧ inlineMultipartTree.context = some inlineMultipartData ∧
      BodyGrammar.isString (textArg (inlineMultipartData.contentSubtype.getD "")) = true ∧
      inlineMultipartData.contentDisposition = some "\"inline\"" ∧
      inlineMultipartData.contentDispositionParams = some "" ∧
      ∃ s, partGetBodystructure inlineMultipartTree true = some s ∧
        isImapBody ("(" ++ s ++ ")") = false :=
  ⟨rfl, by decide, rfl, rfl, by decide, rfl, rfl,
    partGetBodystructure_multipartDisposition rfl (by decide) rfl rfl (by decide) rfl rfl⟩

/-- Without its disposition the same multipart is a `body`: its parameters,
`("boundary" "x")`, are a `body-fld-param`, so the disposition is what leaves
the grammar. -/
example : ∃ s, partGetBodystructure ⟨.multipart, 0, 100, 5,
      some { inlineMultipartData with contentDisposition := none, contentDispositionParams := none },
      [⟨.text, 0, 10, 1, some usAsciiData, []⟩]⟩ true = some s ∧ isImapBody ("(" ++ s ++ ")") = true :=
  ⟨_, rfl, by decide⟩

end Dovecot
