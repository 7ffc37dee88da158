import Dovecot.Bodystructure.Header
import Mathlib.Data.List.Basic
/-!
What `parse_content_language` makes of a token list: one quoted tag per run of
tokens between `,` tokens that keeps a token once comments are dropped, the
tag being the run's pieces (a string-class token's bytes, any other token's
character) as they are, the tags joined by single spaces.

The tokens are copied without escaping ("anything else is error which we can
deal with however we want"), so a tag is a well-formed IMAP quoted string
only when its pieces are: `language_tag_unescaped` shows a token whose text
holds a `"` closing its tag early.
-/

namespace Dovecot

/-- The text a token adds to its tag: its bytes for a string-class token, its
character otherwise. -/
def languagePiece (t : Rfc822Token) : String :=
  if isTokenString t.token then t.text else "".push t.token

/-- The runs of a Content-Language value between `,` tokens, comments dropped. -/
def languageRuns (tokens : List Rfc822Token) : List (List Rfc822Token) :=
  (tokens.splitOnP (·.token = ',')).map (·.filter (·.token ≠ '('))

/-- Each run that keeps a token, as its pieces concatenated. -/
def runTags (runs : List (List Rfc822Token)) : List String :=
  (runs.filter (!·.isEmpty)).map fun r => String.join (r.map languagePiece)

/-- The tags of a Content-Language value. -/
def languageTags (tokens : List Rfc822Token) : List String := runTags (languageRuns tokens)

/-- A tag between double quotes. -/
def quoteTag (g : String) : String := "\"" ++ g ++ "\""

/-- Strings joined by single spaces. -/
def spaceJoin : List String → String
  | [] => ""
  | [g] => g
  | g :: gs => g ++ " " ++ spaceJoin gs

/-! ## The runs, token by token -/

theorem languageRuns_nil : languageRuns [] = [[]] := by
  simp [languageRuns, List.splitOnP_nil]

theorem languageRuns_comma {t : Rfc822Token} (ht : t.token = ',') (ts : List Rfc822Token) :
    languageRuns (t :: ts) = [] :: languageRuns ts := by
  simp [languageRuns, List.splitOnP_cons, ht]

theorem languageRuns_ne_nil (ts : List Rfc822Token) : languageRuns ts ≠ [] := by
  simp [languageRuns, List.splitOnP_ne_nil]

theorem languageRuns_other {t : Rfc822Token} (ht : t.token ≠ ',') (ts : List Rfc822Token) :
    languageRuns (t :: ts) =
      (languageRuns ts).modifyHead fun r => if t.token = '(' then r else t :: r := by
  obtain ⟨r, rs, h⟩ := List.exists_cons_of_ne_nil (List.splitOnP_ne_nil (·.token = ',') ts)
  simp only [languageRuns, List.splitOnP_cons, ht, decide_False, if_false, h,
    List.modifyHead_cons, List.map_cons]
  by_cases hp : t.token = '(' <;> simp [hp, List.filter_cons]

/-! ## The loop -/

/-- The output after each tag of `gs` is closed onto `str`. -/
def joinQuoted (str : String) (gs : List String) : String :=
  gs.foldl (fun s g => (if s.length > 0 then s.push ' ' else s) ++ quoteTag g) str

theorem data_join (l : List String) : (String.join l).data = (l.map String.data).flatten := by
  suffices ∀ acc : String, (l.foldl (· ++ ·) acc).data = acc.data ++ (l.map String.data).flatten by
    simpa [String.join] using this ""
  induction l with
  | nil => simp
  | cons s l ih => intro acc; simp [ih]

/-- The loop, with a tag open (`quoted`) or not: the open tag takes the pieces
of the first run and closes, then the other runs' tags follow. -/
theorem parseContentLanguageLoop_eq (ts : List Rfc822Token) : ∀ str : String,
    parseContentLanguageLoop ts str true =
        joinQuoted (str ++ String.join (((languageRuns ts).headD []).map languagePiece) ++ "\"")
          (runTags (languageRuns ts).tail) ∧
      parseContentLanguageLoop ts str false = joinQuoted str (languageTags ts) := by
  induction ts with
  | nil =>
    intro str
    simp [parseContentLanguageLoop, languageTags, languageRuns_nil, runTags, joinQuoted]
    exact String.ext (by simp [data_join])
  | cons t ts ih =>
    intro str
    by_cases hc : t.token = ','
    · have hp : t.token ≠ '(' := by rw [hc]; decide
      simp only [parseContentLanguageLoop, hp, hc, if_false, if_true, languageTags,
        languageRuns_comma hc, List.headD_cons, List.map_nil, List.tail_cons, runTags,
        List.filter_cons, List.isEmpty_nil, Bool.not_true]
      refine ⟨?_, (ih str).2⟩
      rw [(ih _).2, String.join, List.foldl_nil]
      exact congrArg (joinQuoted · _) (String.ext (by simp))
    · obtain ⟨r, rs, hrs⟩ := List.exists_cons_of_ne_nil (languageRuns_ne_nil ts)
      have ih' := ih
      simp only [hrs, List.headD_cons, List.tail_cons, languageTags] at ih'
      by_cases hp : t.token = '('
      · simp only [parseContentLanguageLoop, hp, if_true, languageTags,
          languageRuns_other hc, hrs, List.modifyHead_cons, List.headD_cons, List.tail_cons]
        exact ih' str
      · simp only [parseContentLanguageLoop, hp, hc, if_false, languageTags,
          languageRuns_other hc, hrs, List.modifyHead_cons, List.headD_cons, List.tail_cons]
        refine ⟨?_, ?_⟩
        · rw [(ih' _).1]
          refine congrArg (joinQuoted · _) (String.ext ?_)
          by_cases hs : isTokenString t.token <;> simp [languagePiece, hs, data_join]
        · rw [(ih' _).1]
          simp only [runTags, List.filter_cons, List.isEmpty_cons, Bool.not_false, if_true,
            List.map_cons, joinQuoted, List.foldl_cons]
          refine congrArg (List.foldl _ · _) (String.ext ?_)
          by_cases hs : isTokenString t.token <;> by_cases hl : str.length > 0 <;>
            simp [languagePiece, quoteTag, hs, hl, data_join]

theorem joinQuoted_of_length_pos (gs : List String) : ∀ {str : String}, str.length > 0 →
    joinQuoted str gs = str ++ String.join (gs.map fun g => " " ++ quoteTag g) := by
  induction gs with
  | nil => intro str _; exact String.ext (by simp [joinQuoted, data_join])
  | cons g gs ih =>
    intro str hs
    rw [joinQuoted, List.foldl_cons, ← joinQuoted, if_pos hs,
      ih (by rw [String.length_append, String.length_push]; omega)]
    exact String.ext (by simp [data_join])

theorem spaceJoin_cons (g : String) (gs : List String) :
    spaceJoin (g :: gs) = g ++ String.join (gs.map fun g => " " ++ g) := by
  induction gs generalizing g with
  | nil => exact String.ext (by simp [spaceJoin, data_join])
  | cons g' gs ih =>
    show g ++ " " ++ spaceJoin (g' :: gs) = _
    rw [ih]
    exact String.ext (by simp [data_join])

theorem joinQuoted_empty (gs : List String) : joinQuoted "" gs = spaceJoin (gs.map quoteTag) := by
  cases gs with
  | nil => rfl
  | cons g gs =>
    rw [joinQuoted, List.foldl_cons, ← joinQuoted, if_neg (by decide), List.map_cons,
      spaceJoin_cons, joinQuoted_of_length_pos _
        (by simp only [quoteTag, String.length_append, show "\"".length = 1 from rfl]; omega),
      List.map_map]
    exact String.ext (by simp [data_join]; rfl)

/-! ## Which tokens a tag holds -/

theorem mem_languageRuns : ∀ {ts : List Rfc822Token} {r : List Rfc822Token},
    r ∈ languageRuns ts → ∀ t ∈ r, t ∈ ts ∧ t.token ≠ ',' ∧ t.token ≠ '('
  | [], r, hr, t, ht => by simp [languageRuns_nil] at hr; simp [hr] at ht
  | x :: ts, r, hr, t, ht => by
    by_cases hc : x.token = ','
    · rw [languageRuns_comma hc, List.mem_cons] at hr
      rcases hr with rfl | hr
      · simp at ht
      · have := mem_languageRuns hr t ht; exact ⟨List.mem_cons_of_mem _ this.1, this.2⟩
    · obtain ⟨r0, rs, hrs⟩ := List.exists_cons_of_ne_nil (languageRuns_ne_nil ts)
      rw [languageRuns_other hc, hrs, List.modifyHead_cons, List.mem_cons] at hr
      rcases hr with rfl | hr
      · split at ht
        · have := mem_languageRuns (hrs ▸ List.mem_cons_self r0 rs) t ht
          exact ⟨List.mem_cons_of_mem _ this.1, this.2⟩
        · rcases List.mem_cons.mp ht with rfl | ht
          · exact ⟨List.mem_cons_self _ _, hc, ‹_›⟩
          · have := mem_languageRuns (hrs ▸ List.mem_cons_self r0 rs) t ht
            exact ⟨List.mem_cons_of_mem _ this.1, this.2⟩
      · have := mem_languageRuns (hrs ▸ List.mem_cons_of_mem r0 hr) t ht
        exact ⟨List.mem_cons_of_mem _ this.1, this.2⟩

theorem quotedChars_flatten : ∀ {l : List (List Char)}, (∀ a ∈ l, quotedChars a = true) →
    quotedChars l.flatten = true
  | [], _ => rfl
  | a :: l, h => by
    rw [List.flatten_cons]
    exact quotedChars_append (h a (List.mem_cons_self a l))
      (quotedChars_flatten fun b hb => h b (List.mem_cons_of_mem a hb))

/-- **Content-Language.** On a non-empty token list, `parse_content_language`
sets `content_language` to the tags of the value, each between double quotes,
joined by single spaces; each tag is a well-formed IMAP quoted-string body
whenever the pieces of the value's non-separator, non-comment tokens are. -/
theorem parseContentLanguage_tags (tokens : List Rfc822Token) (hne : tokens ≠ [])
    (d : MessagePartBodyData) :
    parseContentLanguage tokens d =
        { d with contentLanguage := some (spaceJoin ((languageTags tokens).map quoteTag)) } ∧
      ((∀ t ∈ tokens, t.token ≠ ',' → t.token ≠ '(' → quotedChars (languagePiece t).data = true) →
        ∀ g ∈ languageTags tokens, quotedChars g.data = true) := by
  refine ⟨?_, fun hq g hg => ?_⟩
  · rw [parseContentLanguage, if_neg (by simpa using hne), (parseContentLanguageLoop_eq tokens "").2,
      joinQuoted_empty]
  · simp only [languageTags, runTags, List.mem_map, List.mem_filter] at hg
    obtain ⟨r, ⟨hr, -⟩, rfl⟩ := hg
    rw [data_join, List.map_map]
    refine quotedChars_flatten fun a ha => ?_
    obtain ⟨t, ht, rfl⟩ := List.mem_map.mp ha
    obtain ⟨h1, h2, h3⟩ := mem_languageRuns hr t ht
    exact hq t h1 h2 h3

theorem parseContentLanguage_tags_enUS :
    [⟨'A', "en-US"⟩, ⟨',', ","⟩, ⟨'(', "comment"⟩, ⟨'A', "az-arabic"⟩] ≠ ([] : List Rfc822Token) ∧
      (parseContentLanguage [⟨'A', "en-US"⟩, ⟨',', ","⟩, ⟨'(', "comment"⟩, ⟨'A', "az-arabic"⟩] {} =
          { contentLanguage := some (spaceJoin ((languageTags
            [⟨'A', "en-US"⟩, ⟨',', ","⟩, ⟨'(', "comment"⟩, ⟨'A', "az-arabic"⟩]).map quoteTag)) } ∧
        ((∀ t ∈ [⟨'A', "en-US"⟩, ⟨',', ","⟩, ⟨'(', "comment"⟩, ⟨'A', "az-arabic"⟩],
            t.token ≠ ',' → t.token ≠ '(' → quotedChars (languagePiece t).data = true) →
          ∀ g ∈ languageTags [⟨'A', "en-US"⟩, ⟨',', ","⟩, ⟨'(', "comment"⟩, ⟨'A', "az-arabic"⟩],
            quotedChars g.data = true)) :=
  ⟨by simp, parseContentLanguage_tags _ (by simp) {}⟩

example : spaceJoin ((languageTags
    [⟨'A', "en-US"⟩, ⟨',', ","⟩, ⟨'(', "comment"⟩, ⟨'A', "az-arabic"⟩]).map quoteTag) =
      "\"en-US\" \"az-arabic\"" := by decide

/-- A token whose text holds `"` closes its tag early: the one tag of this
value is not an IMAP quoted string, and the parser rejects it. -/
theorem language_tag_unescaped :
    (parseContentLanguage [⟨'A', "a\"b"⟩] {}).contentLanguage = some "\"a\"b\"" ∧
      quotedChars "a\"b".data = false ∧ imapParserReadArgs "\"a\"b\"" = none := by
  decide

end Dovecot
