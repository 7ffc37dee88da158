import Dovecot.Bodystructure.Part
/-!
`parse_header` and the callbacks it hands to `message_content_parse_header`:
how one header line of one part fills that part's `MessagePartBodyData`.

The RFC822 tokenizer, `message_content_parse_header`,
`rfc822_tokens_get_value_quoted`, `imap_quote_value` and
`imap_envelope_parse_header` live outside this file; they are the fields of
`HeaderCollab`, so every result holds whatever they do, under the assumptions
it states. `message_content_parse_header` is the list of callbacks it makes,
in order. Header names are ASCII, so `name_len` is the name's length.
-/

namespace Dovecot

/-- `Rfc822Token`: the token kind (`'A'` atom, `'"'` quoted string, `'('`
comment, `'['` domain literal, or a special character itself) and the bytes
`ptr`, `len` it covers. -/
structure Rfc822Token where
  token : Char
  text : String
  deriving Repr, DecidableEq

/-- Modelled from the spec: `IS_TOKEN_STRING` of `rfc822-tokenize.h`, the
string-class tokens, whose bytes are their text. -/
def isTokenString (c : Char) : Bool := c = 'A' || c = '"' || c = '(' || c = '['

/-- One callback `message_content_parse_header` makes: the main value (its
tokens up to the first `;`), or one `name=value` parameter. -/
inductive ContentEvent
  | value (tokens : List Rfc822Token)
  | param (name : Rfc822Token) (value : List Rfc822Token)
  deriving Repr, DecidableEq

/-- The collaborators of `parse_header`. `getValueQuoted tokens start count`
is `rfc822_tokens_get_value_quoted(tokens + start, count)`. -/
structure HeaderCollab where
  messageContentParseHeader : String → List ContentEvent
  getValueQuoted : List Rfc822Token → Nat → Int → String
  quoteValue : String → String
  envelopeParseHeader : Option String → String → String → Option String

variable (c : HeaderCollab)

/-- One callback of `message_content_parse_header` on `data`; a parameter is
dropped when `param_func` is NULL. -/
def contentCallback (func : List Rfc822Token → MessagePartBodyData → MessagePartBodyData)
    (paramFunc : Option (Rfc822Token → List Rfc822Token → MessagePartBodyData → MessagePartBodyData))
    (d : MessagePartBodyData) : ContentEvent → MessagePartBodyData
  | .value ts => func ts d
  | .param n v => match paramFunc with
    | some f => f n v d
    | none => d

/-- `message_content_parse_header(value, func, param_func, data)`: each
callback applied in turn. -/
def runContentCallbacks (value : String) (func : List Rfc822Token → MessagePartBodyData → MessagePartBodyData)
    (paramFunc : Option (Rfc822Token → List Rfc822Token → MessagePartBodyData → MessagePartBodyData))
    (data : MessagePartBodyData) : MessagePartBodyData :=
  (c.messageContentParseHeader value).foldl (contentCallback func paramFunc) data

/-- `parse_content_type`: the type before the first `/` token, the subtype after it. -/
def parseContentType (tokens : List Rfc822Token) (data : MessagePartBodyData) :
    MessagePartBodyData :=
  let count : Int := tokens.length
  let i := tokens.findIdx (·.token = '/')
  { data with
    contentType := some (c.getValueQuoted tokens 0 i)
    contentSubtype := some (c.getValueQuoted tokens (i + 1) (count - i - 1)) }

/-- The two ranges `parse_content_type` hands to `rfc822_tokens_get_value_quoted`:
the type's `[0, i)`, `i` the index of the first `/` token or `count` when there
is none, and the subtype's `count - i - 1` tokens from `i + 1`. The subtype's
range lies within the tokens, and is not negative, exactly when some token is
a `/`. -/
theorem parseContentType_ranges (tokens : List Rfc822Token) (data : MessagePartBodyData) :
    ∃ i ≤ tokens.length,
      (∀ j < i, ∀ t, tokens[j]? = some t → t.token ≠ '/') ∧
      (∀ t, tokens[i]? = some t → t.token = '/') ∧
      (parseContentType c tokens data).contentType = some (c.getValueQuoted tokens 0 i) ∧
      (parseContentType c tokens data).contentSubtype =
        some (c.getValueQuoted tokens (i + 1) ((tokens.length : Int) - i - 1)) ∧
      (i + 1 ≤ tokens.length ∧ 0 ≤ (tokens.length : Int) - i - 1 ↔
        ∃ t ∈ tokens, t.token = '/') := by
  refine ⟨_, List.findIdx_le_length _, fun j hj t ht => ?_, fun t ht => ?_, rfl, rfl, ?_⟩
  · obtain ⟨_, rfl⟩ := List.getElem?_eq_some_iff.mp ht
    simpa using List.not_of_lt_findIdx hj
  · simpa using List.findIdx_of_getElem?_eq_some ht
  · have h := @List.findIdx_lt_length _ (·.token = '/') tokens
    simp only [decide_eq_true_eq] at h
    rw [← h]
    omega

/-- `Content-Type: text`, one atom and no `/`: the subtype is read from the
range that starts two tokens on, one past the end, and is `-1` long. -/
theorem parseContentType_text_subtype (data : MessagePartBodyData) :
    (parseContentType c [⟨'A', "text"⟩] data).contentSubtype =
      some (c.getValueQuoted [⟨'A', "text"⟩] 2 (-1)) := rfl

/-- `parse_save_params_list`: `"name" value` appended to `data->str`, after a
space unless it is empty. -/
def parseSaveParamsList (name : Rfc822Token) (value : List Rfc822Token)
    (data : MessagePartBodyData) : MessagePartBodyData :=
  let str := if data.str.length ≠ 0 then data.str.push ' ' else data.str
  { data with str := str ++ "\"" ++ name.text ++ "\" " ++ c.getValueQuoted value 0 value.length }

/-- The whole token list quoted into one field: the shape of
`parse_content_transfer_encoding` and `parse_content_disposition`. -/
def parseValueQuotedInto (set : MessagePartBodyData → String → MessagePartBodyData)
    (tokens : List Rfc822Token) (data : MessagePartBodyData) : MessagePartBodyData :=
  set data (c.getValueQuoted tokens 0 tokens.length)

/-- `parse_content_transfer_encoding`. -/
def parseContentTransferEncoding : List Rfc822Token → MessagePartBodyData → MessagePartBodyData :=
  parseValueQuotedInto c fun d v => { d with contentTransferEncoding := some v }

/-- `parse_content_disposition`. -/
def parseContentDisposition : List Rfc822Token → MessagePartBodyData → MessagePartBodyData :=
  parseValueQuotedInto c fun d v => { d with contentDisposition := some v }

/-- The loop of `parse_content_language`: comments dropped, a `,` closing the
open tag, any other token opening one if none is open (after a space unless
it is the first) and appended as it is. -/
def parseContentLanguageLoop : List Rfc822Token → String → Bool → String
  | [], str, quoted => if quoted then str.push '"' else str
  | t :: ts, str, quoted =>
    if t.token = '(' then parseContentLanguageLoop ts str quoted
    else if t.token = ',' then
      parseContentLanguageLoop ts (if quoted then str.push '"' else str) false
    else
      let str := if quoted then str else (if str.length > 0 then str.push ' ' else str).push '"'
      let str := if isTokenString t.token then str ++ t.text else str.push t.token
      parseContentLanguageLoop ts str true

/-- `parse_content_language`: nothing for an empty token list. -/
def parseContentLanguage (tokens : List Rfc822Token) (data : MessagePartBodyData) :
    MessagePartBodyData :=
  if tokens.length = 0 then data
  else { data with contentLanguage := some (parseContentLanguageLoop tokens "" false) }

/-- `strncasecmp(name, "Content-", 8) == 0` on a name longer than 8 bytes. -/
def isContentPrefix (name : String) : Bool :=
  strcasecmpEq ⟨name.toList.take 8⟩ "Content-"

/-- The `if` chain of `parse_header`, on the part's (allocated) metadata. -/
def parseHeaderField (parentRfc822 : Bool) (name value : String) (d : MessagePartBodyData) :
    MessagePartBodyData :=
  if strcasecmpEq name "Content-Type" && d.contentType.isNone then
    let d := runContentCallbacks c value (parseContentType c) (some (parseSaveParamsList c))
      { d with str := "" }
    { d with contentTypeParams := some d.str }
  else if strcasecmpEq name "Content-Transfer-Encoding" && d.contentTransferEncoding.isNone then
    runContentCallbacks c value (parseContentTransferEncoding c) none d
  else if strcasecmpEq name "Content-ID" && d.contentId.isNone then
    { d with contentId := some (c.quoteValue value) }
  else if strcasecmpEq name "Content-Description" && d.contentDescription.isNone then
    { d with contentDescription := some (c.quoteValue value) }
  else if strcasecmpEq name "Content-Disposition" && d.contentDispositionParams.isNone then
    let d := runContentCallbacks c value (parseContentDisposition c) (some (parseSaveParamsList c))
      { d with str := "" }
    { d with contentDispositionParams := some d.str }
  else if strcasecmpEq name "Content-Language" then
    runContentCallbacks c value parseContentLanguage none d
  else if strcasecmpEq name "Content-MD5" && d.contentMd5.isNone then
    { d with contentMd5 := some (c.quoteValue value) }
  else if parentRfc822 then
    { d with envelope := c.envelopeParseHeader d.envelope name value }
  else d

/-- `parse_header`: a line is dropped unless the parent is message/rfc822 or
its name starts with `Content-`; the metadata is allocated, zeroed, on the
first line kept. -/
def parseHeader (parentRfc822 : Bool) (name value : String)
    (context : Option MessagePartBodyData) : Option MessagePartBodyData :=
  if !parentRfc822 && (name.length ≤ 8 || !isContentPrefix name) then context
  else some (parseHeaderField c parentRfc822 name value (context.getD {}))

end Dovecot
