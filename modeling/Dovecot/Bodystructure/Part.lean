import Dovecot.Imap.Arg
/-!
The serializer of `imap-bodystructure.c`: `part_write_bodystructure` and the
two writers it dispatches to, over the part tree `message_parse` builds and
the metadata `parse_header` attaches to it.

A part's shape is one of the flags `message_parse` sets (the spec: exactly one
applies), so it is a field with one value. The root is a single part, never a
sibling chain. The C process aborts on a failed `i_assert` and on a NULL
string handed to `t_string_append`; the writers return `none` there.
-/

namespace Dovecot

/-- The shape flags of a part: `MESSAGE_PART_FLAG_MULTIPART`,
`MESSAGE_PART_FLAG_TEXT`, `MESSAGE_PART_FLAG_MESSAGE_RFC822`, or none of them. -/
inductive MessagePartFlag
  | multipart
  | text
  | messageRfc822
  | other
  deriving Repr, DecidableEq

/-- `MessagePartBodyData`: the header fields of one part, each pre-quoted text or
NULL, and the scratch string `str` the parameter callback appends to. The
envelope is opaque to this file; it is kept as the text
`imap_envelope_write_part_data` writes for it. -/
structure MessagePartBodyData where
  str : String := ""
  contentType : Option String := none
  contentSubtype : Option String := none
  contentTypeParams : Option String := none
  contentTransferEncoding : Option String := none
  contentId : Option String := none
  contentDescription : Option String := none
  contentDisposition : Option String := none
  contentDispositionParams : Option String := none
  contentMd5 : Option String := none
  contentLanguage : Option String := none
  envelope : Option String := none
  deriving Repr, DecidableEq

/-- A node of the part tree: its shape, where its header starts in the message,
its body size, the metadata `parse_header` attached (`part->context`), and its
children in order (`part->children` and their `next` chain). -/
structure MessagePart where
  flags : MessagePartFlag
  physicalPos : Nat
  virtualSize : Nat
  lines : Nat
  context : Option MessagePartBodyData
  children : List MessagePart
  deriving Repr

/-- `EMPTY_BODYSTRUCTURE`, written for a multipart without parts. -/
def emptyBodystructure : String :=
  "(\"text\" \"plain\" (\"charset\" \"us-ascii\") NIL NIL \"7bit\" 0 0)"

/-- A list field: `NIL` for NULL, else the pre-rendered items in parentheses. -/
def listOrNil : Option String → String
  | none => "NIL"
  | some s => "(" ++ s ++ ")"

/-- The extension fields of a multipart: params, disposition with its params
inside the same list, language. -/
def multipartExtension (data : MessagePartBodyData) : String :=
  " " ++ listOrNil data.contentTypeParams ++
  " " ++ (match data.contentDisposition with
    | none => "NIL"
    | some d => "(" ++ d ++
      (match data.contentDispositionParams with
        | none => ""
        | some p => " (" ++ p ++ ")") ++ ")") ++
  " " ++ listOrNil data.contentLanguage

/-- The extension fields of a single part: md5, the disposition in a list of
its own followed by its params in another, language. -/
def bodyExtension (data : MessagePartBodyData) : String :=
  " " ++ data.contentMd5.getD "NIL" ++
  " " ++ (match data.contentDisposition with
    | none => "NIL"
    | some d => "(" ++ d ++ ")" ++
      (match data.contentDispositionParams with
        | none => ""
        | some p => " (" ++ p ++ ")")) ++
  " " ++ listOrNil data.contentLanguage

/-- The basic fields of a single part, up to its octet count. A part without
metadata is written from an empty `MessagePartBodyData`. -/
def bodyBasic (data : MessagePartBodyData) (virtualSize : Nat) : String :=
  data.contentType.getD "\"text\"" ++ " " ++ data.contentSubtype.getD "\"plain\"" ++
  " " ++ listOrNil data.contentTypeParams ++
  " " ++ data.contentId.getD "NIL" ++ " " ++ data.contentDescription.getD "NIL" ++
  " " ++ data.contentTransferEncoding.getD "\"8bit\"" ++ " " ++ toString virtualSize

/-- The envelope field of a message/rfc822 part, from its child's metadata:
`NIL` for a "buggy message" whose child has none. -/
def envelopeOrNil : Option MessagePartBodyData → String
  | some { envelope := some e, .. } => "(" ++ e ++ ")"
  | _ => "NIL"

mutual
/-- `part_write_bodystructure`: each part of a sibling chain, in parentheses
unless it is the root. -/
def partWriteBodystructure (ext hasParent : Bool) : List MessagePart → Option String
  | [] => some ""
  | p :: ps => do
    guard (hasParent || ps.isEmpty)
    let b ← (match p with
      | ⟨.multipart, _, _, _, _, _⟩ => partWriteBodyMultipart ext p
      | _ => partWriteBody ext p)
    let r ← partWriteBodystructure ext hasParent ps
    pure ((if hasParent then "(" ++ b ++ ")" else b) ++ r)
/-- `part_write_body_multipart`: the children, the subtype, then the extension. -/
def partWriteBodyMultipart (ext : Bool) : MessagePart → Option String
  | ⟨_, _, _, _, context, children⟩ => do
    let data ← context
    let kids ← if children.isEmpty then pure emptyBodystructure
      else partWriteBodystructure ext true children
    let subtype ← data.contentSubtype
    pure (kids ++ " " ++ subtype ++ if ext then multipartExtension data else "")
/-- `part_write_body`: the basic fields, the line count of a text part or the
envelope, body and line count of a message/rfc822 part, then the extension. -/
def partWriteBody (ext : Bool) : MessagePart → Option String
  | ⟨flags, _, virtualSize, lines, context, children⟩ => do
    let data := context.getD {}
    let trailer ← (match flags, children with
      | .text, _ => pure (" " ++ toString lines)
      | .messageRfc822, [child] => do
        let body ← partWriteBodystructure ext true children
        pure (" " ++ envelopeOrNil child.context ++ " " ++ body ++ " " ++ toString lines)
      | .messageRfc822, _ => none
      | _, _ => pure "")
    pure (bodyBasic data virtualSize ++ trailer ++ if ext then bodyExtension data else "")
end

/-- `part_get_bodystructure`: the structure of a root part, which has no parent. -/
def partGetBodystructure (part : MessagePart) (ext : Bool) : Option String :=
  partWriteBodystructure ext false [part]

mutual
/-- The data-model invariants of a part tree as `message_parse` builds it: a
message/rfc822 part has exactly one child, and a multipart has metadata with a
subtype. -/
def partWellFormed : MessagePart → Bool
  | ⟨flags, _, _, _, context, children⟩ =>
    (match flags with
      | .multipart => (context.bind (·.contentSubtype)).isSome
      | .messageRfc822 => children.length == 1
      | _ => true) && partsWellFormed children
/-- Every part of a sibling chain is well formed. -/
def partsWellFormed : List MessagePart → Bool
  | [] => true
  | p :: ps => partWellFormed p && partsWellFormed ps
end

end Dovecot
