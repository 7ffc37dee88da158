import Mathlib.Data.List.Basic
/-!
IMAP argument trees, as `imap_parser_read_args` hands them to
`imap_parse_bodystructure_args`: a C array of `ImapArg` ended by an
`IMAP_ARG_EOL` element, lists holding such an array of their own.

`imap_write_list` is the source's passthrough writer. The parser itself is a
collaborator outside this file; `imapParserReadArgs` models it from the spec
(raw wire text to `NIL | atom | quoted-string | list`), with
`IMAP_PARSE_FLAG_NO_UNESCAPE`: a quoted string keeps its backslashes. It is
written as the source's parser is, a scanner and then a stack of open lists,
so both halves are structurally recursive and run under `decide`.
-/

namespace Dovecot

/-- `ImapArg`: one element of an argument array. A C array ends in `eol`, so
`args[i]` past that element reads outside the array. -/
inductive ImapArg
  | nil
  | atom (str : String)
  | string (str : String)
  | list (args : List ImapArg)
  | eol
  deriving Repr, Inhabited

namespace ImapArg

mutual
/-- Structural equality of argument trees, written as a term so that it runs. -/
def decEq : (a b : ImapArg) → Decidable (a = b)
  | .nil, .nil => isTrue rfl
  | .atom s, .atom t =>
    if h : s = t then isTrue (h ▸ rfl) else isFalse fun e => h (by injection e)
  | .string s, .string t =>
    if h : s = t then isTrue (h ▸ rfl) else isFalse fun e => h (by injection e)
  | .list as, .list bs =>
    match decEqList as bs with
    | isTrue h => isTrue (h ▸ rfl)
    | isFalse h => isFalse fun e => h (by injection e)
  | .eol, .eol => isTrue rfl
  | .nil, .atom _ | .nil, .string _ | .nil, .list _ | .nil, .eol
  | .atom _, .nil | .atom _, .string _ | .atom _, .list _ | .atom _, .eol
  | .string _, .nil | .string _, .atom _ | .string _, .list _ | .string _, .eol
  | .list _, .nil | .list _, .atom _ | .list _, .string _ | .list _, .eol
  | .eol, .nil | .eol, .atom _ | .eol, .string _ | .eol, .list _ => isFalse nofun
def decEqList : (as bs : List ImapArg) → Decidable (as = bs)
  | [], [] => isTrue rfl
  | a :: as, b :: bs =>
    match decEq a b, decEqList as bs with
    | isTrue h, isTrue h' => isTrue (h ▸ h' ▸ rfl)
    | isFalse h, _ => isFalse fun e => h (by injection e)
    | _, isFalse h' => isFalse fun e => h' (by injection e)
  | [], _ :: _ | _ :: _, [] => isFalse nofun
end

instance : DecidableEq ImapArg := decEq

end ImapArg

/-- What a reader of an argument array can run into besides success:
`malformed` is the source's `return FALSE`; `pastEol` is a read of an element
after the array's `IMAP_ARG_EOL`, outside the array. -/
inductive ArgFault
  | malformed
  | pastEol
  deriving Repr, DecidableEq

/-- `strcasecmp(a, b) == 0`: equal up to the case of ASCII letters. -/
def strcasecmpEq (a b : String) : Bool :=
  a.toList.map Char.toLower = b.toList.map Char.toLower

/-- A name that matches `a` ignoring case matches what `a` matches. -/
theorem strcasecmpEq_congr {name a : String} (h : strcasecmpEq name a = true) (b : String) :
    strcasecmpEq name b = strcasecmpEq a b := by
  simp only [strcasecmpEq, decide_eq_true_eq] at h ⊢
  rw [h]

mutual
/-- The quoted-string bodies this model writes back: any character but CR, LF,
`"` and `\`, or `\` before `"` or `\`. This is the shape of `*QUOTED-CHAR`,
but looser: it admits NUL and 8-bit characters, where RFC 3501's TEXT-CHARs
are 7-bit and not NUL. -/
def quotedChars : List Char → Bool
  | [] => true
  | c :: cs =>
    if c = '\\' then quotedEscape cs else c ≠ '"' && c ≠ '\r' && c ≠ '\n' && quotedChars cs
/-- The rest of a quoted-string body after a backslash. -/
def quotedEscape : List Char → Bool
  | [] => false
  | d :: ds => (d = '"' || d = '\\') && quotedChars ds
end

theorem quotedChars_append : ∀ {a b : List Char}, quotedChars a = true → quotedChars b = true →
    quotedChars (a ++ b) = true
  | [], _, _, hb => hb
  | c :: cs, b, ha, hb => by
    rw [List.cons_append, quotedChars]
    rw [quotedChars] at ha
    split at ha
    · rw [if_pos ‹_›]
      match cs, ha with
      | d :: ds, ha =>
        rw [quotedEscape, Bool.and_eq_true] at ha
        rw [List.cons_append, quotedEscape, ha.1, quotedChars_append ha.2 hb]; rfl
    · rw [if_neg ‹_›]
      rw [Bool.and_eq_true] at ha
      rw [quotedChars_append ha.2 hb, ha.1]; rfl

/-! ## The passthrough writer -/

mutual
/-- One element as the `switch` of `imap_write_list` writes it. -/
def imapWriteArg : ImapArg → Except ArgFault String
  | .nil => pure "NIL"
  | .atom s => pure s
  | .string s => pure ("\"" ++ s ++ "\"")
  | .list l => do
    let s ← imapWriteItems l
    pure ("(" ++ s ++ ")")
  | .eol => throw .malformed
/-- The loop of `imap_write_list`: the elements up to `IMAP_ARG_EOL`, a space
between two of them. -/
def imapWriteItems : List ImapArg → Except ArgFault String
  | [] => throw .pastEol
  | .eol :: _ => pure ""
  | a :: rest => do
    let s ← imapWriteArg a
    match rest with
    | [] => throw .pastEol
    | .eol :: _ => pure s
    | _ :: _ => do
      let r ← imapWriteItems rest
      pure (s ++ " " ++ r)
end

/-- `imap_write_list`: "don't do any typechecking, just write it out". -/
def imapWriteList (args : List ImapArg) : Except ArgFault String := do
  let s ← imapWriteItems args
  pure ("(" ++ s ++ ")")

/-! ## The argument parser (a collaborator, modelled from the spec) -/

/-- A lexical token of IMAP argument text. -/
inductive ImapToken
  | lparen
  | rparen
  | leaf (a : ImapArg)
  deriving Repr, DecidableEq

/-- Where the scanner is: between arguments, inside an atom, inside a quoted
string, or just after a backslash in one. Accumulated text is kept in order. -/
inductive LexState
  | idle
  | atom (acc : List Char)
  | quoted (acc : List Char)
  | escaped (acc : List Char)

/-- The characters that end an atom. -/
def atomSpecial (c : Char) : Bool :=
  c = ' ' || c = '(' || c = ')' || c = '"'

/-- An atom's token: `NIL`, in any case, is the `NIL` argument. -/
def atomArg (acc : List Char) : ImapArg :=
  if acc.map Char.toUpper = "NIL".toList then .nil else .atom ⟨acc⟩

/-- What the scanner does with the character `c` between arguments, given what
it makes of the rest. -/
def lexIdle (c : Char) (next : LexState → Option (List ImapToken)) :
    Option (List ImapToken) :=
  if c = ' ' then next .idle
  else if c = '(' then (.lparen :: ·) <$> next .idle
  else if c = ')' then (.rparen :: ·) <$> next .idle
  else if c = '"' then next (.quoted [])
  else next (.atom [c])

/-- Modelled from the spec: the scanner of `imap_parser_read_args`. Arguments
are separated by spaces, or by nothing where a parenthesis or a quote already
separates them; strings keep their escapes (`IMAP_PARSE_FLAG_NO_UNESCAPE`);
an unterminated string is an error. -/
def lexArgs : LexState → List Char → Option (List ImapToken)
  | .idle, [] => some []
  | .idle, c :: cs => lexIdle c (lexArgs · cs)
  | .atom acc, [] => some [.leaf (atomArg acc)]
  | .atom acc, c :: cs =>
    if atomSpecial c then (.leaf (atomArg acc) :: ·) <$> lexIdle c (lexArgs · cs)
    else lexArgs (.atom (acc ++ [c])) cs
  | .quoted _, [] => none
  | .quoted acc, c :: cs =>
    if c = '"' then (.leaf (.string ⟨acc⟩) :: ·) <$> lexArgs .idle cs
    else if c = '\\' then lexArgs (.escaped acc) cs
    else lexArgs (.quoted (acc ++ [c])) cs
  | .escaped _, [] => none
  | .escaped acc, c :: cs => lexArgs (.quoted (acc ++ ['\\', c])) cs

/-- Modelled from the spec: the list stack of `imap_parser_read_args`. `open`
holds the lists still open, innermost first, each with its items so far; a
closed list gets its `IMAP_ARG_EOL`. -/
def buildArgs : List (List ImapArg) → List ImapToken → Option (List ImapArg)
  | [top], [] => some (top ++ [.eol])
  | _, [] => none
  | st, .lparen :: ts => buildArgs ([] :: st) ts
  | cur :: up :: st, .rparen :: ts => buildArgs ((up ++ [.list (cur ++ [.eol])]) :: st) ts
  | _, .rparen :: _ => none
  | cur :: st, .leaf a :: ts => buildArgs ((cur ++ [a]) :: st) ts
  | [], .leaf _ :: _ => none

/-- Modelled from the spec: `imap_parser_read_args` on a whole text, the
top-level arguments followed by their `IMAP_ARG_EOL`. -/
def imapParserReadArgs (s : String) : Option (List ImapArg) :=
  (lexArgs .idle s.toList).bind (buildArgs [[]])

example : imapParserReadArgs "(\"a\" NIL)(b) nil \"x\\\"y\"" =
    some [.list [.string "a", .nil, .eol], .list [.atom "b", .eol], .nil,
      .string "x\\\"y", .eol] := by decide

end Dovecot
