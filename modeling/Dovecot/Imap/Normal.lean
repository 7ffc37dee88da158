import Dovecot.Imap.RoundTrip
/-!
Writing back what is read: whatever array of arguments `imap_parser_read_args`
returns, `imap_write_list` writes to a text the parser reads back as that same
array, in one list (`imapWriteList_reparse`). This is what lets
`imap_parse_bodystructure_args` copy the envelope of a message/rfc822 part into
BODY with `imap_write_list` and nothing lost.

The parser's arguments are more than the printable ones of the round trip in
the other direction: with `IMAP_PARSE_FLAG_NO_UNESCAPE` a quoted string keeps a
backslash before any character, and may hold CR and LF. `readable` says what
the parser returns (`imapParserReadArgs_readable`, an invariant of each of its
two stages); the proof that such arguments read back follows the one for
printable arguments, stage by stage.
-/

namespace Dovecot

/-! ## What the parser returns -/

mutual
/-- A quoted-string body as the scanner keeps it: any character but `"`, or a
backslash and the character after it. -/
def scannedChars : List Char → Bool
  | [] => true
  | c :: cs => if c = '\\' then scannedEscape cs else c ≠ '"' && scannedChars cs
/-- The rest of a kept body after a backslash. -/
def scannedEscape : List Char → Bool
  | [] => false
  | _ :: ds => scannedChars ds
end

mutual
/-- An argument the parser can return. -/
def ImapArg.readable : ImapArg → Bool
  | .nil => true
  | .atom s => atomText s.data
  | .string s => scannedChars s.data
  | .list l => readableItems l
  | .eol => false
/-- Readable items, then the closing `IMAP_ARG_EOL`. -/
def readableItems : List ImapArg → Bool
  | [] => false
  | a :: rest => (a.isEol && rest.isEmpty) || (a.readable && readableItems rest)
end

theorem scannedChars_append : ∀ {a b : List Char}, scannedChars a = true → scannedChars b = true →
    scannedChars (a ++ b) = true
  | [], _, _, hb => hb
  | c :: cs, b, ha, hb => by
    rw [List.cons_append, scannedChars]
    rw [scannedChars] at ha
    split at ha
    · rw [if_pos ‹_›]
      match cs, ha with
      | _ :: ds, ha => rw [List.cons_append, scannedEscape, scannedChars_append ha hb]
    · rw [if_neg ‹_›]
      rw [Bool.and_eq_true] at ha
      rw [scannedChars_append ha.2 hb, ha.1]; rfl

theorem readableItems_append_eol {items : List ImapArg} (h : ∀ a ∈ items, a.readable = true) :
    readableItems (items ++ [.eol]) = true := by
  induction items with
  | nil => rfl
  | cons a as ih =>
    rw [List.cons_append, readableItems, h a (.head _), ih (fun b hb => h b (.tail _ hb))]
    simp

/-! ## The scanner returns readable leaves -/

/-- A scanner state whose text so far makes a readable argument. -/
def LexState.ok : LexState → Bool
  | .idle => true
  | .atom acc => !acc.isEmpty && acc.all (fun c => !atomSpecial c)
  | .quoted acc | .escaped acc => scannedChars acc

/-- A token whose argument is readable. -/
def ImapToken.readable : ImapToken → Bool
  | .leaf a => a.readable
  | _ => true

/-- Every token the scanner returns, if it returns, is readable. -/
def TokensReadable (o : Option (List ImapToken)) : Prop :=
  ∀ ts, o = some ts → ∀ t ∈ ts, t.readable = true

theorem TokensReadable.cons {t : ImapToken} (ht : t.readable = true) {o : Option (List ImapToken)}
    (h : TokensReadable o) : TokensReadable ((t :: ·) <$> o) := by
  intro ts hts u hu
  cases o with
  | none => exact absurd hts nofun
  | some ts' =>
    obtain rfl : t :: ts' = ts := Option.some.inj hts
    rcases List.mem_cons.mp hu with rfl | hu
    · exact ht
    · exact h ts' rfl u hu

theorem atomArg_readable {acc : List Char} (h : (LexState.atom acc).ok = true) :
    (ImapToken.leaf (atomArg acc)).readable = true := by
  unfold atomArg
  split
  · rfl
  · simpa only [ImapToken.readable, ImapArg.readable, atomText, Bool.and_eq_true, bne_iff_ne] using
      ⟨(Bool.and_eq_true _ _).mp h, ‹_›⟩

theorem lexIdle_readable (c : Char) {next : LexState → Option (List ImapToken)}
    (h : ∀ st, st.ok = true → TokensReadable (next st)) : TokensReadable (lexIdle c next) := by
  unfold lexIdle
  split_ifs with h₁ h₂ h₃ h₄
  · exact h .idle rfl
  · exact (h .idle rfl).cons (by rfl)
  · exact (h .idle rfl).cons (by rfl)
  · exact h (.quoted []) rfl
  · exact h (.atom [c]) (by simp [LexState.ok, atomSpecial, h₁, h₂, h₃, h₄])

theorem lexArgs_readable : ∀ (st : LexState) (cs : List Char), st.ok = true →
    TokensReadable (lexArgs st cs)
  | .idle, [], _ => fun _ h => by cases Option.some.inj h; nofun
  | .idle, c :: cs, _ => lexIdle_readable c fun st hst => lexArgs_readable st cs hst
  | .atom acc, [], h => fun _ hts => by
    cases Option.some.inj hts
    simpa using atomArg_readable h
  | .atom acc, c :: cs, h => by
    rw [lexArgs]
    split
    · exact (lexIdle_readable c fun st hst => lexArgs_readable st cs hst).cons (atomArg_readable h)
    · refine lexArgs_readable _ cs ?_
      simp only [LexState.ok, Bool.and_eq_true, List.all_append, List.all_cons, List.all_nil,
        Bool.and_true] at h ⊢
      exact ⟨by cases acc <;> rfl, h.2, by simpa using ‹¬atomSpecial c = true›⟩
  | .quoted _, [], _ => fun _ h => nomatch h
  | .quoted acc, c :: cs, h => by
    rw [lexArgs]
    split_ifs with h₁ h₂
    · exact (lexArgs_readable .idle cs rfl).cons
        (show (ImapToken.leaf (.string ⟨acc⟩)).readable = true from h)
    · exact lexArgs_readable (.escaped acc) cs h
    · exact lexArgs_readable _ cs (scannedChars_append h (by simp [scannedChars, h₁, h₂]))
  | .escaped _, [], _ => fun _ h => nomatch h
  | .escaped acc, c :: cs, h => lexArgs_readable _ cs (scannedChars_append h rfl)

/-! ## The list stack returns readable items -/

theorem buildArgs_readable : ∀ (st : List (List ImapArg)) (ts : List ImapToken),
    (∀ l ∈ st, ∀ a ∈ l, a.readable = true) → (∀ t ∈ ts, t.readable = true) →
    ∀ args, buildArgs st ts = some args → readableItems args = true
  | [top], [], hst, _, _, h => by
    rw [buildArgs, Option.some.injEq] at h
    exact h ▸ readableItems_append_eol (hst top (.head _))
  | [], [], _, _, _, h | _ :: _ :: _, [], _, _, _, h => nomatch h
  | st, .lparen :: ts, hst, hts, args, h => by
    rw [buildArgs] at h
    refine buildArgs_readable _ ts ?_ (fun t ht => hts t (.tail _ ht)) args h
    simpa using hst
  | cur :: up :: st, .rparen :: ts, hst, hts, args, h => by
    rw [buildArgs] at h
    refine buildArgs_readable _ ts ?_ (fun t ht => hts t (.tail _ ht)) args h
    have hcur := hst cur (.head _)
    have hup := hst up (.tail _ (.head _))
    simp only [List.mem_cons, forall_eq_or_imp, List.mem_append, List.not_mem_nil, or_false] at hst ⊢
    refine ⟨fun a ha => ?_, hst.2.2⟩
    rcases ha with ha | rfl
    · exact hup a ha
    · exact readableItems_append_eol hcur
  | [], .rparen :: _, _, _, _, h | [_], .rparen :: _, _, _, _, h => nomatch h
  | cur :: st, .leaf a :: ts, hst, hts, args, h => by
    rw [buildArgs] at h
    refine buildArgs_readable _ ts ?_ (fun t ht => hts t (.tail _ ht)) args h
    have ha : a.readable = true := hts _ (.head _)
    simp only [List.mem_cons, forall_eq_or_imp, List.mem_append, List.not_mem_nil, or_false] at hst ⊢
    exact ⟨fun b hb => hb.elim (hst.1 b) (· ▸ ha), hst.2⟩
  | [], .leaf _ :: _, _, _, _, h => nomatch h

/-- **The parser returns readable arguments.** -/
theorem imapParserReadArgs_readable {s : String} {args : List ImapArg}
    (h : imapParserReadArgs s = some args) : readableItems args = true := by
  rw [imapParserReadArgs, Option.bind_eq_some] at h
  obtain ⟨ts, hts, h⟩ := h
  exact buildArgs_readable [[]] ts (by simp) (lexArgs_readable .idle s.toList rfl ts hts) args h

/-! ## Readable arguments read back -/

theorem lexArgs_scanned (rest : List Char) :
    ∀ (s acc : List Char), scannedChars s = true →
      lexArgs (.quoted acc) (s ++ '"' :: rest) = (.leaf (.string ⟨acc ++ s⟩) :: ·) <$> lexArgs .idle rest
  | [], acc, _ => by rw [List.nil_append, lexArgs, if_pos rfl, List.append_nil]
  | c :: cs, acc, h => by
    rw [scannedChars] at h
    split at h
    · subst c
      match cs, h with
      | d :: ds, h =>
        rw [scannedEscape] at h
        rw [List.cons_append, lexArgs, if_neg (by decide), if_pos rfl, List.cons_append, lexArgs,
          lexArgs_scanned rest ds _ h]
        simp
    · simp only [Bool.and_eq_true, decide_eq_true_eq] at h
      rw [List.cons_append, lexArgs, if_neg h.1, if_neg ‹_›, lexArgs_scanned rest cs _ h.2]
      simp

mutual
theorem lexArgs_argText_readable : ∀ (a : ImapArg), a.readable = true → ∀ rest, delimited rest = true →
    lexArgs .idle ((argText a).data ++ rest) = (a.tokens ++ ·) <$> lexArgs .idle rest
  | .nil, _, rest, hr => lexArgs_argText .nil rfl rest hr
  | .atom s, h, rest, hr => lexArgs_argText (.atom s) h rest hr
  | .string ⟨s⟩, h, rest, _ => by
    rw [show (argText (.string ⟨s⟩)).data ++ rest = '"' :: (s ++ '"' :: rest) by
      simp [argText, String.append]]
    simp only [ImapArg.readable] at h
    rw [lexArgs, lexIdle, if_neg (by decide), if_neg (by decide), if_neg (by decide), if_pos rfl,
      lexArgs_scanned rest s [] h]
    rfl
  | .list l, h, rest, _ => by
    simp only [ImapArg.readable] at h
    rw [show (argText (.list l)).data ++ rest = '(' :: ((itemsText l).data ++ ')' :: rest) by
        simp [argText, String.append],
      lexArgs, lexIdle, if_neg (by decide), if_pos rfl, lexArgs_itemsText_readable l h (')' :: rest) rfl,
      lexArgs, lexIdle, if_neg (by decide), if_neg (by decide), if_pos rfl]
    simp [ImapArg.tokens, Function.comp_def]
  | .eol, h, _, _ => absurd h (by decide)
theorem lexArgs_itemsText_readable : ∀ (l : List ImapArg), readableItems l = true → ∀ rest,
    delimited rest = true →
    lexArgs .idle ((itemsText l).data ++ rest) = (itemTokens l ++ ·) <$> lexArgs .idle rest
  | [], h, _, _ => absurd h (by decide)
  | a :: r, h, rest, hr => by
    cases he : a.isEol
    · have h' : a.readable = true ∧ readableItems r = true := by
        simpa [readableItems, he] using h
      have ih := lexArgs_itemsText_readable r h'.2
      have ha := lexArgs_argText_readable a h'.1
      simp only [itemsText, itemTokens, he, Bool.false_eq_true, ↓reduceIte]
      cases r with
      | nil => simp [readableItems] at h'
      | cons b r' =>
        cases hb : b.isEol
        · simp only [hb, Bool.false_eq_true, ↓reduceIte, String.data_append, List.append_assoc]
          rw [List.singleton_append, ha (' ' :: ((itemsText (b :: r')).data ++ rest)) rfl, lexArgs,
            lexIdle, if_pos rfl, ih rest hr]
          simp [Function.comp_def]
        · simp only [hb, ↓reduceIte, String.data_append, List.append_assoc, itemTokens,
            List.nil_append, List.append_nil]
          exact ha rest hr
    · simp [itemsText, itemTokens, he]
end

/-- Readable items are their arguments followed by the end marker. -/
theorem readableItems_dropLast : ∀ {l : List ImapArg}, readableItems l = true →
    l.dropLast ++ [.eol] = l ∧ ∀ a ∈ l.dropLast, a.readable = true
  | [], h => absurd h (by decide)
  | a :: r, h => by
    cases he : a.isEol
    · have h' : a.readable = true ∧ readableItems r = true := by
        simpa [readableItems, he] using h
      cases r with
      | nil => simp [readableItems] at h'
      | cons b r' =>
        obtain ⟨hl, hall⟩ := readableItems_dropLast h'.2
        rw [List.dropLast_cons₂, List.cons_append, hl]
        exact ⟨rfl, List.forall_mem_cons.mpr ⟨h'.1, hall⟩⟩
    · cases a <;> simp only [ImapArg.isEol, Bool.false_eq_true] at he
      obtain rfl : r = [] := by simpa [readableItems, ImapArg.isEol, ImapArg.readable] using h
      exact ⟨rfl, nofun⟩

mutual
theorem buildArgs_tokens_readable : ∀ (a : ImapArg), a.readable = true → ∀ cur st ts,
    buildArgs (cur :: st) (a.tokens ++ ts) = buildArgs ((cur ++ [a]) :: st) ts
  | .nil, _, _, _, _ => buildArgs.eq_6 _ _ _ _
  | .atom _, _, _, _, _ => buildArgs.eq_6 _ _ _ _
  | .string _, _, _, _, _ => buildArgs.eq_6 _ _ _ _
  | .list l, h, cur, st, ts => by
    simp only [ImapArg.readable] at h
    simp only [ImapArg.tokens, List.cons_append, List.append_assoc, List.singleton_append]
    rw [buildArgs, buildArgs_itemTokens_readable l h [] (cur :: st), buildArgs, List.nil_append,
      (readableItems_dropLast h).1, List.nil_append]
  | .eol, h, _, _, _ => absurd h (by decide)
theorem buildArgs_itemTokens_readable : ∀ (l : List ImapArg), readableItems l = true → ∀ cur st ts,
    buildArgs (cur :: st) (itemTokens l ++ ts) = buildArgs ((cur ++ l.dropLast) :: st) ts
  | [], h, _, _, _ => absurd h (by decide)
  | a :: r, h, cur, st, ts => by
    cases he : a.isEol
    · have h' : a.readable = true ∧ readableItems r = true := by
        simpa [readableItems, he] using h
      cases r with
      | nil => simp [readableItems] at h'
      | cons b r' =>
        rw [itemTokens, if_neg (by simp [he]), List.append_assoc, buildArgs_tokens_readable a h'.1,
          buildArgs_itemTokens_readable (b :: r') h'.2, List.dropLast_cons₂, List.append_assoc,
          List.singleton_append]
    · cases a <;> simp only [ImapArg.isEol, Bool.false_eq_true] at he
      obtain rfl : r = [] := by simpa [readableItems, ImapArg.isEol, ImapArg.readable] using h
      simp [itemTokens, ImapArg.isEol]
end

theorem imapParserReadArgs_itemsText_readable {l : List ImapArg} (h : readableItems l = true) :
    imapParserReadArgs (itemsText l) = some l := by
  have hlex := lexArgs_itemsText_readable l h [] rfl
  rw [List.append_nil] at hlex
  rw [imapParserReadArgs, String.toList, hlex]
  show buildArgs [[]] (itemTokens l ++ []) = some l
  rw [buildArgs_itemTokens_readable l h [] [] [], List.nil_append, buildArgs,
    (readableItems_dropLast h).1]

mutual
theorem imapWriteArg_readable : ∀ a : ImapArg, a.readable = true → imapWriteArg a = .ok (argText a)
  | .nil, _ => rfl
  | .atom _, _ => rfl
  | .string _, _ => rfl
  | .list l, h => by
    simp only [ImapArg.readable] at h
    rw [imapWriteArg, imapWriteItems_readable l h]
    rfl
  | .eol, h => absurd h (by decide)
theorem imapWriteItems_readable : ∀ l : List ImapArg, readableItems l = true →
    imapWriteItems l = .ok (itemsText l)
  | [], h => absurd h (by decide)
  | a :: r, h => by
    cases he : a.isEol
    · have h' : a.readable = true ∧ readableItems r = true := by
        simpa [readableItems, he] using h
      have ha := imapWriteArg_readable a h'.1
      have ih := imapWriteItems_readable r h'.2
      rw [imapWriteItems.eq_3 a r (fun hx => by simp [hx, ImapArg.isEol] at he), ha]
      simp only [itemsText, he, Bool.false_eq_true, ↓reduceIte]
      cases r with
      | nil => simp [readableItems] at h'
      | cons b r' =>
        cases hb : b.isEol
        · simp only [hb, Bool.false_eq_true, ↓reduceIte]
          rw [ih, ← String.append_assoc]
          cases b <;> first | rfl | simp [ImapArg.isEol] at hb
        · cases b <;> simp only [ImapArg.isEol, Bool.false_eq_true] at hb
          simp only [ImapArg.isEol, ↓reduceIte, String.append_empty]
          rfl
    · cases a <;> simp only [ImapArg.isEol, Bool.false_eq_true] at he
      rfl
end

/-- **What the parser reads, `imap_write_list` writes back.** For every text
the parser reads, `imap_write_list` succeeds on the arguments it returns, and
writes a text the parser reads as those arguments, in one list. -/
theorem imapWriteList_reparse {s : String} {args : List ImapArg} (h : imapParserReadArgs s = some args) :
    ∃ t, imapWriteList args = .ok t ∧ imapParserReadArgs t = some [.list args, .eol] := by
  have hr := imapParserReadArgs_readable h
  refine ⟨"(" ++ itemsText args ++ ")", by rw [imapWriteList, imapWriteItems_readable args hr]; rfl, ?_⟩
  have key := @imapParserReadArgs_itemsText_readable [.list args, .eol]
    (by simp [readableItems, ImapArg.readable, hr])
  rwa [show itemsText [.list args, .eol] = "(" ++ itemsText args ++ ")" from
    String.append_empty _] at key

/-- An envelope-like list with an escape printable text does not have. -/
theorem imapWriteList_reparse_escape :
    imapParserReadArgs "(\"a\\q\" NIL) x" =
        some [.list [.string "a\\q", .nil, .eol], .atom "x", .eol] ∧
      ∃ t, imapWriteList [.list [.string "a\\q", .nil, .eol], .atom "x", .eol] = .ok t ∧
        imapParserReadArgs t = some [.list [.list [.string "a\\q", .nil, .eol], .atom "x", .eol], .eol] :=
  ⟨by decide, @imapWriteList_reparse "(\"a\\q\" NIL) x" _ (by decide)⟩

example : printableItems [.list [.string "a\\q", .nil, .eol], .atom "x", .eol] = false := by decide

end Dovecot
