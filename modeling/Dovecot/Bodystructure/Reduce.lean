import Dovecot.Imap.Arg
/-!
The reducer of `imap-bodystructure.c`: `imap_parse_bodystructure_args` reads a
parsed BODYSTRUCTURE and writes the BODY form, and
`imap_body_parse_from_bodystructure` runs it on stored text.

Every read of `args[i]` is a pattern match on the rest of the array, in the
order the C conditions read them, so a read after `IMAP_ARG_EOL` shows up as
`ArgFault.pastEol` and a `return FALSE` as `ArgFault.malformed`.
-/

namespace Dovecot

/-- One of the content id, description, encoding and size fields, copied
whatever its kind among `NIL`, atom and string. -/
def bodystructureField : ImapArg → Except ArgFault String
  | .nil => pure " NIL"
  | .atom s => pure (" " ++ s)
  | .string s => pure (" \"" ++ s ++ "\"")
  | _ => throw .malformed

/-- The loop over the Content-Type parameter list: string pairs up to
`IMAP_ARG_EOL`, a space between two pairs. -/
def bodystructureParams : List ImapArg → Except ArgFault String
  | [] => throw .pastEol
  | .eol :: _ => pure ""
  | .string n :: rest =>
    match rest with
    | [] => throw .pastEol
    | .string v :: rest => do
      let pair := "\"" ++ n ++ "\" \"" ++ v ++ "\""
      match rest with
      | [] => throw .pastEol
      | .eol :: _ => pure pair
      | _ :: _ => do
        let r ← bodystructureParams rest
        pure (pair ++ " " ++ r)
    | _ => throw .malformed
  | _ => throw .malformed

/-- The line count of a text part: an atom. -/
def bodystructureLines : List ImapArg → Except ArgFault String
  | [] => throw .pastEol
  | .atom lines :: _ => pure (" " ++ lines)
  | _ => throw .malformed

mutual
/-- `imap_parse_bodystructure_args` on the items of a list argument,
`args->data.list->args`. -/
def bodystructureList : ImapArg → Except ArgFault String
  | .list l => bodystructureArgs false l
  | _ => throw .malformed
/-- `imap_parse_bodystructure_args`, from its `while (args->type ==
IMAP_ARG_LIST)` loop on; `multipart` is the C variable, set once a list was
read. -/
def bodystructureArgs (multipart : Bool) : List ImapArg → Except ArgFault String
  | [] => throw .pastEol
  | a :: rest =>
    match a with
    | .list _ => do
      let child ← bodystructureList a
      let more ← bodystructureArgs true rest
      pure ("(" ++ child ++ ")" ++ more)
    | .string s =>
      if multipart then pure (" \"" ++ s ++ "\"") else bodystructureSinglepart s rest
    | _ => throw .malformed
/-- A single part, once `args[0]` is the type string `ty`: the subtype, the
params field, then the four plain fields. -/
def bodystructureSinglepart (ty : String) : List ImapArg → Except ArgFault String
  | [] => throw .pastEol
  | .string sub :: rest =>
    let text := strcasecmpEq ty "text"
    let messageRfc822 := strcasecmpEq ty "message" && strcasecmpEq sub "rfc822"
    let head := "\"" ++ ty ++ "\" \"" ++ sub ++ "\""
    match rest with
    | [] => throw .pastEol
    | .list ps :: rest => do
      let p ← bodystructureParams ps
      let r ← bodystructureFields text messageRfc822 4 rest
      pure (head ++ " (" ++ p ++ ")" ++ r)
    | .nil :: rest => do
      let r ← bodystructureFields text messageRfc822 4 rest
      pure (head ++ " NIL" ++ r)
    | _ => throw .malformed
  | _ => throw .malformed
/-- The `left` plain fields still to copy, then the line count of a text part
or the envelope, body and line count of a message/rfc822 part. -/
def bodystructureFields (text messageRfc822 : Bool) : Nat → List ImapArg → Except ArgFault String
  | 0, args =>
    if text then bodystructureLines args
    else if messageRfc822 then
      match args with
      | [] => throw .pastEol
      | .list env :: rest =>
        match rest with
        | [] => throw .pastEol
        | .list body :: rest =>
          match rest with
          | [] => throw .pastEol
          | .atom lines :: _ => do
            let e ← imapWriteList env
            let b ← bodystructureArgs false body
            pure (" " ++ e ++ " " ++ b ++ " " ++ lines)
          | _ => throw .malformed
        | _ => throw .malformed
      | _ => throw .malformed
    else pure ""
  | _ + 1, [] => throw .pastEol
  | n + 1, a :: rest => do
    let f ← bodystructureField a
    let r ← bodystructureFields text messageRfc822 n rest
    pure (f ++ r)
end

theorem bodystructureArgs_list (multipart : Bool) (l rest : List ImapArg) :
    bodystructureArgs multipart (.list l :: rest) =
      (do let child ← bodystructureArgs false l
          let more ← bodystructureArgs true rest
          pure ("(" ++ child ++ ")" ++ more)) := rfl

theorem bodystructureSinglepart_list (ty sub : String) (ps rest : List ImapArg) :
    bodystructureSinglepart ty (.string sub :: .list ps :: rest) =
      (do let p ← bodystructureParams ps
          let r ← bodystructureFields (strcasecmpEq ty "text")
            (strcasecmpEq ty "message" && strcasecmpEq sub "rfc822") 4 rest
          pure ("\"" ++ ty ++ "\" \"" ++ sub ++ "\"" ++ " (" ++ p ++ ")" ++ r)) := rfl

theorem bodystructureSinglepart_nil (ty sub : String) (rest : List ImapArg) :
    bodystructureSinglepart ty (.string sub :: .nil :: rest) =
      (do let r ← bodystructureFields (strcasecmpEq ty "text")
            (strcasecmpEq ty "message" && strcasecmpEq sub "rfc822") 4 rest
          pure ("\"" ++ ty ++ "\" \"" ++ sub ++ "\"" ++ " NIL" ++ r)) := rfl

theorem bodystructureFields_succ (text messageRfc822 : Bool) (n : Nat) (a : ImapArg)
    (rest : List ImapArg) :
    bodystructureFields text messageRfc822 (n + 1) (a :: rest) =
      (do let f ← bodystructureField a
          let r ← bodystructureFields text messageRfc822 n rest
          pure (f ++ r)) := rfl

theorem bodystructureFields_rfc822 (env body : List ImapArg) (lines : String) (rest : List ImapArg) :
    bodystructureFields false true 0 (.list env :: .list body :: .atom lines :: rest) =
      (do let e ← imapWriteList env
          let b ← bodystructureArgs false body
          pure (" " ++ e ++ " " ++ b ++ " " ++ lines)) := rfl

/-- `imap_parse_bodystructure_args`. -/
def imapParseBodystructureArgs (args : List ImapArg) : Except ArgFault String :=
  bodystructureArgs false args

/-- `imap_body_parse_from_bodystructure`: parse the stored text, require at
least one argument (`ret <= 0` fails), and reduce it. -/
def imapBodyParseFromBodystructure (bodystructure : String) : Option String :=
  match imapParserReadArgs bodystructure with
  | some args => if args.length ≤ 1 then none else (imapParseBodystructureArgs args).toOption
  | none => none

end Dovecot
