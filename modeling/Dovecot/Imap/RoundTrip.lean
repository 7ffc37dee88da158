import Dovecot.Imap.Arg
/-!
Reading back what is written: the argument parser of `imap_parser_read_args`
returns the arguments whose text `imap_write_list` writes, whenever each
argument can be written back, that is is an atom the scanner keeps whole, a
quoted string with a well-formed body, `NIL`, or a list of such.

The proof follows the two stages of the parser: the scanner turns the text of
an argument into that argument's tokens (`lexArgs_argText`), the list stack
turns the tokens back into the argument (`buildArgs_tokens`). Both are one
mutual induction over the argument tree; an argument's text may be followed by
anything the scanner treats as a boundary (`delimited`).
-/

namespace Dovecot

/-! ## Printable arguments and their text -/

/-- An atom the scanner reads back whole: not empty, no atom-special
character, and not `NIL` in any case. -/
def atomText (s : List Char) : Bool :=
  !s.isEmpty && s.all (fun c => !atomSpecial c) && s.map Char.toUpper != "NIL".toList

/-- The end-of-list marker. -/
def ImapArg.isEol : ImapArg → Bool
  | .eol => true
  | _ => false

@[simp] theorem ImapArg.isEol_nil : ImapArg.nil.isEol = false := rfl
@[simp] theorem ImapArg.isEol_atom (s : String) : (ImapArg.atom s).isEol = false := rfl
@[simp] theorem ImapArg.isEol_string (s : String) : (ImapArg.string s).isEol = false := rfl
@[simp] theorem ImapArg.isEol_list (l : List ImapArg) : (ImapArg.list l).isEol = false := rfl
@[simp] theorem ImapArg.isEol_eol : ImapArg.eol.isEol = true := rfl

mutual
/-- An argument the parser reads back from its text. -/
def ImapArg.printable : ImapArg → Bool
  | .nil => true
  | .atom s => atomText s.data
  | .string s => quotedChars s.data
  | .list l => printableItems l
  | .eol => false
/-- Printable items, then the closing `IMAP_ARG_EOL`. -/
def printableItems : List ImapArg → Bool
  | [] => false
  | a :: rest => (a.isEol && rest.isEmpty) || (a.printable && printableItems rest)
end

mutual
/-- The text `imap_write_list` writes for one argument. -/
def argText : ImapArg → String
  | .nil => "NIL"
  | .atom s => s
  | .string s => "\"" ++ s ++ "\""
  | .list l => "(" ++ itemsText l ++ ")"
  | .eol => ""
/-- The items up to `IMAP_ARG_EOL`, a space between two of them. -/
def itemsText : List ImapArg → String
  | [] => ""
  | a :: rest => if a.isEol then "" else argText a ++ (match rest with
    | [] => ""
    | b :: _ => if b.isEol then "" else " " ++ itemsText rest)
end

mutual
/-- The scanner's tokens for one argument. -/
def ImapArg.tokens : ImapArg → List ImapToken
  | .list l => .lparen :: itemTokens l ++ [.rparen]
  | a => [.leaf a]
/-- The tokens of the items up to `IMAP_ARG_EOL`. -/
def itemTokens : List ImapArg → List ImapToken
  | [] => []
  | a :: rest => if a.isEol then [] else a.tokens ++ itemTokens rest
end

/-- What may follow an argument's text: the end, or a character that ends an atom. -/
def delimited : List Char → Bool
  | [] => true
  | c :: _ => atomSpecial c

/-! ## The scanner -/

theorem lexArgs_atom_append (acc : List Char) (rest : List Char) :
    ∀ s : List Char, s.all (fun c => !atomSpecial c) = true →
      lexArgs (.atom acc) (s ++ rest) = lexArgs (.atom (acc ++ s)) rest
  | [], _ => by rw [List.nil_append, List.append_nil]
  | c :: cs, h => by
    simp only [List.all_cons, Bool.and_eq_true, Bool.not_eq_true'] at h
    rw [List.cons_append, lexArgs, if_neg (by simp [h.1]), lexArgs_atom_append _ rest cs h.2,
      List.append_assoc, List.singleton_append]

theorem lexArgs_atom_end (acc : List Char) {rest : List Char} (hr : delimited rest = true) :
    lexArgs (.atom acc) rest = (.leaf (atomArg acc) :: ·) <$> lexArgs .idle rest := by
  cases rest with
  | nil => rfl
  | cons c cs =>
    simp only [delimited] at hr
    simp only [lexArgs, hr, ↓reduceIte]

theorem lexArgs_quoted (rest : List Char) :
    ∀ (s acc : List Char), quotedChars s = true →
      lexArgs (.quoted acc) (s ++ '"' :: rest) = (.leaf (.string ⟨acc ++ s⟩) :: ·) <$> lexArgs .idle rest
  | [], acc, _ => by rw [List.nil_append, lexArgs, if_pos rfl, List.append_nil]
  | c :: cs, acc, h => by
    rw [quotedChars] at h
    split at h
    · subst c
      match cs, h with
      | d :: ds, h =>
        rw [quotedEscape, Bool.and_eq_true] at h
        rw [List.cons_append, lexArgs, if_neg (by decide), if_pos rfl, List.cons_append, lexArgs,
          lexArgs_quoted rest ds _ h.2]
        simp
    · simp only [Bool.and_eq_true, decide_eq_true_eq] at h
      rw [List.cons_append, lexArgs, if_neg h.1.1.1, if_neg ‹_›, lexArgs_quoted rest cs _ h.2]
      simp

theorem lexArgs_idle_atom {c : Char} (hc : atomSpecial c = false) (cs : List Char) :
    lexArgs .idle (c :: cs) = lexArgs (.atom [c]) cs := by
  simp only [atomSpecial, Bool.or_eq_false_iff, decide_eq_false_iff_not] at hc
  simp only [lexArgs, lexIdle, hc, ↓reduceIte]

mutual
theorem lexArgs_argText : ∀ (a : ImapArg), a.printable = true → ∀ rest, delimited rest = true →
    lexArgs .idle ((argText a).data ++ rest) = (a.tokens ++ ·) <$> lexArgs .idle rest
  | .nil, _, rest, hr => by
    rw [show (argText .nil).data ++ rest = 'N' :: (['I', 'L'] ++ rest) from rfl,
      lexArgs_idle_atom (by decide), lexArgs_atom_append _ _ _ (by decide), lexArgs_atom_end _ hr]
    rfl
  | .atom ⟨s⟩, h, rest, hr => by
    simp only [ImapArg.printable, atomText, Bool.and_eq_true, Bool.not_eq_true', bne_iff_ne] at h
    obtain ⟨⟨hne, hall⟩, hnil⟩ := h
    match s, hne, hall with
    | c :: cs, _, hall =>
      simp only [List.all_cons, Bool.and_eq_true, Bool.not_eq_true'] at hall
      rw [show (argText (.atom ⟨c :: cs⟩)).data ++ rest = c :: (cs ++ rest) from rfl,
        lexArgs_idle_atom hall.1, lexArgs_atom_append _ _ _ hall.2, lexArgs_atom_end _ hr,
        List.singleton_append, atomArg, if_neg hnil]
      rfl
  | .string ⟨s⟩, h, rest, hr => by
    rw [show (argText (.string ⟨s⟩)).data ++ rest = '"' :: (s ++ '"' :: rest) by
      simp [argText, String.append]]
    simp only [ImapArg.printable] at h
    rw [lexArgs, lexIdle, if_neg (by decide), if_neg (by decide), if_neg (by decide), if_pos rfl,
      lexArgs_quoted rest s [] h]
    rfl
  | .list l, h, rest, hr => by
    simp only [ImapArg.printable] at h
    rw [show (argText (.list l)).data ++ rest = '(' :: ((itemsText l).data ++ ')' :: rest) by
        simp [argText, String.append],
      lexArgs, lexIdle, if_neg (by decide), if_pos rfl, lexArgs_itemsText l h (')' :: rest) rfl, lexArgs,
      lexIdle, if_neg (by decide), if_neg (by decide), if_pos rfl]
    simp [ImapArg.tokens, Function.comp_def]
  | .eol, h, _, _ => absurd h (by decide)
theorem lexArgs_itemsText : ∀ (l : List ImapArg), printableItems l = true → ∀ rest, delimited rest = true →
    lexArgs .idle ((itemsText l).data ++ rest) = (itemTokens l ++ ·) <$> lexArgs .idle rest
  | [], h, _, _ => absurd h (by decide)
  | a :: r, h, rest, hr => by
    cases he : a.isEol
    · have h' : a.printable = true ∧ printableItems r = true := by
        simpa [printableItems, he] using h
      have ih := lexArgs_itemsText r h'.2
      have ha := lexArgs_argText a h'.1
      simp only [itemsText, itemTokens, he, Bool.false_eq_true, ↓reduceIte]
      cases r with
      | nil => simp [printableItems] at h'
      | cons b r' =>
        cases hb : b.isEol
        · simp only [hb, Bool.false_eq_true, ↓reduceIte, String.data_append, List.append_assoc]
          rw [List.singleton_append, ha (' ' :: ((itemsText (b :: r')).data ++ rest)) rfl, lexArgs,
            lexIdle, if_pos rfl, ih rest hr]
          simp [Function.comp_def]
        · simp only [hb, ↓reduceIte, String.data_append, List.append_assoc, itemTokens,
            List.nil_append, List.append_nil]
          exact ha rest hr
    · simp [itemsText, itemTokens, he]
end

/-! ## The list stack -/

/-- A printable item list is its items followed by the end marker. -/
theorem dropLast_append_eol : ∀ {l : List ImapArg}, printableItems l = true → l.dropLast ++ [.eol] = l
  | [], h => absurd h (by decide)
  | a :: r, h => by
    cases he : a.isEol
    · have h' : a.printable = true ∧ printableItems r = true := by
        simpa [printableItems, he] using h
      cases r with
      | nil => simp [printableItems] at h'
      | cons b r' => rw [List.dropLast_cons₂, List.cons_append, dropLast_append_eol h'.2]
    · cases a <;> simp_all [ImapArg.isEol, printableItems, ImapArg.printable]

mutual
theorem buildArgs_tokens : ∀ (a : ImapArg), a.printable = true → ∀ cur st ts,
    buildArgs (cur :: st) (a.tokens ++ ts) = buildArgs ((cur ++ [a]) :: st) ts
  | .nil, _, _, _, _ => buildArgs.eq_6 _ _ _ _
  | .atom _, _, _, _, _ => buildArgs.eq_6 _ _ _ _
  | .string _, _, _, _, _ => buildArgs.eq_6 _ _ _ _
  | .list l, h, cur, st, ts => by
    simp only [ImapArg.printable] at h
    simp only [ImapArg.tokens, List.cons_append, List.append_assoc, List.singleton_append]
    rw [buildArgs, buildArgs_itemTokens l h [] (cur :: st), buildArgs, List.nil_append,
      dropLast_append_eol h, List.nil_append]
  | .eol, h, _, _, _ => absurd h (by decide)
theorem buildArgs_itemTokens : ∀ (l : List ImapArg), printableItems l = true → ∀ cur st ts,
    buildArgs (cur :: st) (itemTokens l ++ ts) = buildArgs ((cur ++ l.dropLast) :: st) ts
  | [], h, _, _, _ => absurd h (by decide)
  | a :: r, h, cur, st, ts => by
    cases he : a.isEol
    · have h' : a.printable = true ∧ printableItems r = true := by
        simpa [printableItems, he] using h
      cases r with
      | nil => simp [printableItems] at h'
      | cons b r' =>
        rw [itemTokens, if_neg (by simp [he]), List.append_assoc, buildArgs_tokens a h'.1,
          buildArgs_itemTokens (b :: r') h'.2, List.dropLast_cons₂, List.append_assoc,
          List.singleton_append]
    · cases a <;> simp only [ImapArg.isEol, Bool.false_eq_true] at he
      obtain rfl : r = [] := by simpa [printableItems, ImapArg.isEol, ImapArg.printable] using h
      simp [itemTokens, ImapArg.isEol]
end

/-! ## Round trip -/

/-- **Round trip.** The parser reads back the items whose text is written,
with their `IMAP_ARG_EOL`. -/
theorem imapParserReadArgs_itemsText {l : List ImapArg} (h : printableItems l = true) :
    imapParserReadArgs (itemsText l) = some l := by
  have hlex := lexArgs_itemsText l h [] rfl
  rw [List.append_nil] at hlex
  rw [imapParserReadArgs, String.toList, hlex]
  show buildArgs [[]] (itemTokens l ++ []) = some l
  rw [buildArgs_itemTokens l h [] [] [], List.nil_append, buildArgs, dropLast_append_eol h]

example : itemsText [.list [.string "a", .nil, .eol], .atom "b", .eol] = "(\"a\" NIL) b" := by decide

/-! ## `imap_write_list` writes this text -/

mutual
theorem imapWriteArg_eq : ∀ a : ImapArg, a.printable = true → imapWriteArg a = .ok (argText a)
  | .nil, _ => rfl
  | .atom _, _ => rfl
  | .string _, _ => rfl
  | .list l, h => by
    simp only [ImapArg.printable] at h
    rw [imapWriteArg, imapWriteItems_eq l h]
    rfl
  | .eol, h => absurd h (by decide)
theorem imapWriteItems_eq : ∀ l : List ImapArg, printableItems l = true →
    imapWriteItems l = .ok (itemsText l)
  | [], h => absurd h (by decide)
  | a :: r, h => by
    cases he : a.isEol
    · have h' : a.printable = true ∧ printableItems r = true := by
        simpa [printableItems, he] using h
      have ha := imapWriteArg_eq a h'.1
      have ih := imapWriteItems_eq r h'.2
      rw [imapWriteItems.eq_3 a r (fun hx => by simp [hx, ImapArg.isEol] at he), ha]
      simp only [itemsText, he, Bool.false_eq_true, ↓reduceIte]
      cases r with
      | nil => simp [printableItems] at h'
      | cons b r' =>
        cases hb : b.isEol
        · simp only [hb, Bool.false_eq_true, ↓reduceIte]
          rw [ih, ← String.append_assoc]
          cases b <;> first | rfl | simp [ImapArg.isEol] at hb
        · cases b <;> simp only [ImapArg.isEol, Bool.false_eq_true] at hb
          simp only [ImapArg.isEol, ↓reduceIte, String.append_empty]
          rfl
    · cases a <;> simp only [ImapArg.isEol, Bool.false_eq_true] at he
      rfl
end

/-- **What `imap_write_list` writes, the parser reads back.** A printable
argument array is written, in parentheses, to a text the parser reads as that
one list. -/
theorem imapWriteList_readBack {args : List ImapArg} (h : printableItems args = true) :
    ∃ s, imapWriteList args = .ok s ∧ imapParserReadArgs s = some [.list args, .eol] := by
  refine ⟨"(" ++ itemsText args ++ ")", by rw [imapWriteList, imapWriteItems_eq args h]; rfl, ?_⟩
  have hr := @imapParserReadArgs_itemsText [.list args, .eol]
    (by simp [printableItems, ImapArg.printable, h])
  rwa [show itemsText [.list args, .eol] = "(" ++ itemsText args ++ ")" from
    String.append_empty _] at hr

theorem imapWriteList_readBack_nested :
    printableItems [.list [.atom "a", .eol], .nil, .string "x", .eol] = true ∧
      ∃ s, imapWriteList [.list [.atom "a", .eol], .nil, .string "x", .eol] = .ok s ∧
        imapParserReadArgs s = some [.list [.list [.atom "a", .eol], .nil, .string "x", .eol], .eol] :=
  ⟨by decide, imapWriteList_readBack (by decide)⟩

/-! ## Texts built from pieces

The writers of `imap-bodystructure.c` do not always put a space between two
arguments (sibling parts are written `(..)(..)`), so their output is not
`itemsText` of its arguments. What the parser needs is less: that the scanner
turn the text into the arguments' tokens. -/

/-- The scanner turns `t` into `toks`, whatever boundary follows. -/
def LexesTo (t : List Char) (toks : List ImapToken) : Prop :=
  ∀ rest, delimited rest = true → lexArgs .idle (t ++ rest) = (toks ++ ·) <$> lexArgs .idle rest

namespace LexesTo

variable {t t' : List Char} {toks toks' : List ImapToken}

theorem append (h : LexesTo t toks) (h' : LexesTo t' toks') (hd : delimited t' = true) :
    LexesTo (t ++ t') (toks ++ toks') := fun rest hr => by
  have hd' : delimited (t' ++ rest) = true := by
    cases t' with
    | nil => exact hr
    | cons c cs => exact hd
  rw [List.append_assoc, h _ hd', h' rest hr]
  simp [Function.comp_def]

theorem space (h : LexesTo t toks) : LexesTo (' ' :: t) toks := fun rest hr => by
  rw [List.cons_append, lexArgs, lexIdle, if_pos rfl]
  exact h rest hr

theorem paren (h : LexesTo t toks) : LexesTo ('(' :: (t ++ [')'])) (.lparen :: (toks ++ [.rparen])) :=
  fun rest hr => by
    rw [List.cons_append, lexArgs, lexIdle, if_neg (by decide), if_pos rfl, List.append_assoc,
      List.singleton_append, h (')' :: rest) rfl, lexArgs, lexIdle, if_neg (by decide), if_neg (by decide),
      if_pos rfl]
    simp [Function.comp_def]

theorem arg {a : ImapArg} (ha : a.printable = true) : LexesTo (argText a).data a.tokens :=
  lexArgs_argText a ha

end LexesTo

theorem buildArgs_flatMap {items : List ImapArg} (h : ∀ a ∈ items, a.printable = true)
    (cur : List ImapArg) (st : List (List ImapArg)) (ts : List ImapToken) :
    buildArgs (cur :: st) (items.flatMap ImapArg.tokens ++ ts) = buildArgs ((cur ++ items) :: st) ts := by
  induction items generalizing cur with
  | nil => rw [List.flatMap_nil, List.nil_append, List.append_nil]
  | cons a as ih =>
    rw [List.flatMap_cons, List.append_assoc, buildArgs_tokens a (h a (.head _)),
      ih (fun b hb => h b (.tail _ hb)), List.append_assoc, List.singleton_append]

/-- **Parsing a text built from pieces.** A text the scanner turns into the
tokens of printable arguments parses to those arguments. -/
theorem imapParserReadArgs_of_lexesTo {s : String} {items : List ImapArg}
    (h : LexesTo s.data (items.flatMap ImapArg.tokens)) (hp : ∀ a ∈ items, a.printable = true) :
    imapParserReadArgs s = some (items ++ [.eol]) := by
  have hlex := h [] rfl
  rw [List.append_nil] at hlex
  rw [imapParserReadArgs, String.toList, hlex]
  show buildArgs [[]] (items.flatMap ImapArg.tokens ++ []) = some (items ++ [.eol])
  rw [buildArgs_flatMap hp [] [] [], List.nil_append, buildArgs]

theorem printable_isEol {a : ImapArg} (h : a.printable = true) : a.isEol = false := by
  cases a <;> simp_all [ImapArg.printable, ImapArg.isEol]

theorem itemTokens_append_eol {items : List ImapArg} (h : ∀ a ∈ items, a.printable = true) :
    itemTokens (items ++ [.eol]) = items.flatMap ImapArg.tokens := by
  induction items with
  | nil => rfl
  | cons a as ih =>
    rw [List.cons_append, itemTokens, if_neg (by simp [printable_isEol (h a (.head _))]),
      ih (fun b hb => h b (.tail _ hb)), List.flatMap_cons]

theorem printableItems_append_eol {items : List ImapArg} (h : ∀ a ∈ items, a.printable = true) :
    printableItems (items ++ [.eol]) = true := by
  induction items with
  | nil => rfl
  | cons a as ih =>
    rw [List.cons_append, printableItems, h a (.head _), ih (fun b hb => h b (.tail _ hb))]
    simp

/-- A list argument, the items of the list without its end marker. -/
theorem LexesTo.list {t : List Char} {items : List ImapArg} (h : LexesTo t (items.flatMap ImapArg.tokens))
    (hp : ∀ a ∈ items, a.printable = true) :
    LexesTo ('(' :: (t ++ [')'])) (ImapArg.list (items ++ [.eol])).tokens := by
  rw [ImapArg.tokens, itemTokens_append_eol hp]
  simpa using h.paren

end Dovecot
