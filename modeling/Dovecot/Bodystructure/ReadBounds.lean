import Dovecot.Bodystructure.ReduceSpec
/-!
What `imap_parse_bodystructure_args` and `imap_write_list` read of their
argument arrays.

A C argument array ends at its first `IMAP_ARG_EOL`; what stands after it in
memory is not the array's. Both functions read an element only once the one
before it is known not to be `IMAP_ARG_EOL`: the `||` of each type test stops
at the first wrong kind, the params loop tests for the end after each pair,
the writer after each element. So on arrays whose lists all end in
`IMAP_ARG_EOL` neither reads past an array's end, and each fails only by
`return FALSE` (`bodystructureArgs_ne_pastEol`, `imapWriteList_ne_pastEol`).
Nor does either read what follows the first `IMAP_ARG_EOL` of a list: cutting
every list there changes no result (`bodystructureArgs_cutItems`,
`imapWriteList_cutItems`).
-/

namespace Dovecot

theorem ImapArg.eq_eol {a : ImapArg} (h : a.isEol = true) : a = .eol := by
  cases a <;> first | rfl | cases h

theorem ImapArg.ne_eol {a : ImapArg} (h : a.isEol = false) : a ≠ .eol := by
  rintro rfl; cases h

/-! ## Arrays that end in `IMAP_ARG_EOL` -/

mutual
/-- Every list of an argument ends in `IMAP_ARG_EOL`. -/
def ImapArg.eolEnded : ImapArg → Bool
  | .list l => itemsEolEnded l
  | _ => true
/-- Items whose last element is `IMAP_ARG_EOL`, every list among them ending
so too. -/
def itemsEolEnded : List ImapArg → Bool
  | [] => false
  | a :: rest => (a.isEol && rest.isEmpty) || (itemsEolEnded rest && a.eolEnded)
end

theorem itemsEolEnded_cons {a : ImapArg} {rest : List ImapArg} (h : itemsEolEnded (a :: rest) = true)
    (ha : a.isEol = false) : itemsEolEnded rest = true ∧ a.eolEnded = true := by
  simpa [itemsEolEnded, ha] using h

mutual
/-- An argument with every list cut after its first `IMAP_ARG_EOL`: the C
arrays, as far as they go. -/
def ImapArg.cutAtEol : ImapArg → ImapArg
  | .list l => .list (cutItems l)
  | a => a
/-- The items up to and including the first `IMAP_ARG_EOL`, each cut. -/
def cutItems : List ImapArg → List ImapArg
  | [] => []
  | a :: rest => if a.isEol then [a] else a.cutAtEol :: cutItems rest
end

example : cutItems [.list [.nil, .eol, .atom "x", .eol], .eol, .nil] =
    [.list [.nil, .eol], .eol] := rfl

@[simp] theorem ImapArg.cutAtEol_list (l : List ImapArg) :
    (ImapArg.list l).cutAtEol = .list (cutItems l) := rfl

@[simp] theorem ImapArg.isEol_cutAtEol (a : ImapArg) : a.cutAtEol.isEol = a.isEol := by
  cases a <;> rfl

theorem cutItems_cons {a : ImapArg} (ha : a.isEol = false) (rest : List ImapArg) :
    cutItems (a :: rest) = a.cutAtEol :: cutItems rest := by
  simp only [cutItems, ha, Bool.false_eq_true, ↓reduceIte]

theorem cutItems_eol (rest : List ImapArg) : cutItems (.eol :: rest) = [.eol] := rfl

/-! ## Shapes of the loops -/

/-- A bind reads past an array's end only where one of its steps does. -/
theorem bind_ne_pastEol {α β : Type} {x : Except ArgFault α} {f : α → Except ArgFault β}
    (hx : x ≠ .error .pastEol) (hf : ∀ a, f a ≠ .error .pastEol) : (x >>= f) ≠ .error .pastEol :=
  match x, hx with
  | .ok a, _ => hf a
  | .error .malformed, _ => nofun
  | .error .pastEol, hx => absurd rfl hx

/-- The writer's loop after an element that is not the end: the next element
is the end, or a space and the rest follow. -/
theorem imapWriteItems_cons {a : ImapArg} (ha : a.isEol = false) (b : ImapArg) (rest : List ImapArg) :
    imapWriteItems (a :: b :: rest) =
      (do let s ← imapWriteArg a
          if b.isEol then pure s else do
            let r ← imapWriteItems (b :: rest)
            pure (s ++ " " ++ r)) := by
  rw [imapWriteItems.eq_3 a _ (ImapArg.ne_eol ha)]
  cases b <;> rfl

/-- The params loop after a string pair: the next element is the end, or a
space and the next pairs follow. -/
theorem bodystructureParams_pair (n v : String) (b : ImapArg) (rest : List ImapArg) :
    bodystructureParams (.string n :: .string v :: b :: rest) =
      if b.isEol then pure ("\"" ++ n ++ "\" \"" ++ v ++ "\"")
      else (do
        let r ← bodystructureParams (b :: rest)
        pure ("\"" ++ n ++ "\" \"" ++ v ++ "\"" ++ " " ++ r)) := by
  cases b <;> rfl

/-! ## No read past an array's end -/

mutual
theorem imapWriteArg_ne_pastEol : ∀ a : ImapArg, a.eolEnded = true →
    imapWriteArg a ≠ .error .pastEol
  | .list l, h => bind_ne_pastEol (imapWriteItems_ne_pastEol l h) fun _ => nofun
  | .nil, _ | .atom _, _ | .string _, _ | .eol, _ => nofun
theorem imapWriteItems_ne_pastEol : ∀ l : List ImapArg, itemsEolEnded l = true →
    imapWriteItems l ≠ .error .pastEol
  | [], h => absurd h nofun
  | [a], h => by
    cases he : a.isEol
    case true => obtain rfl := ImapArg.eq_eol he; nofun
    case false => exact absurd (itemsEolEnded_cons h he).1 nofun
  | a :: b :: rest, h => by
    have ih := imapWriteItems_ne_pastEol (b :: rest)
    cases he : a.isEol
    case true => obtain rfl := ImapArg.eq_eol he; nofun
    case false =>
    obtain ⟨hr, ha⟩ := itemsEolEnded_cons h he
    rw [imapWriteItems_cons he]
    refine bind_ne_pastEol (imapWriteArg_ne_pastEol a ha) fun _ => ?_
    split
    · nofun
    · exact bind_ne_pastEol (ih hr) fun _ => nofun
end

theorem imapWriteList_ne_pastEol (args : List ImapArg) (h : itemsEolEnded args = true) :
    imapWriteList args ≠ .error .pastEol :=
  bind_ne_pastEol (imapWriteItems_ne_pastEol args h) fun _ => nofun

theorem bodystructureField_ne_pastEol (a : ImapArg) : bodystructureField a ≠ .error .pastEol := by
  cases a <;> nofun

theorem bodystructureLines_ne_pastEol : ∀ args : List ImapArg, itemsEolEnded args = true →
    bodystructureLines args ≠ .error .pastEol
  | [], h => absurd h nofun
  | a :: _, _ => by cases a <;> nofun

theorem bodystructureParams_ne_pastEol : ∀ ps : List ImapArg, itemsEolEnded ps = true →
    bodystructureParams ps ≠ .error .pastEol
  | .string n :: .string v :: b :: rest, h => by
    have ih := bodystructureParams_ne_pastEol (b :: rest)
    rw [bodystructureParams_pair]
    split
    · nofun
    · exact bind_ne_pastEol (ih (itemsEolEnded_cons (itemsEolEnded_cons h rfl).1 rfl).1)
        fun _ => nofun
  | [], h | [.string _], h | [.string _, .string _], h => absurd h nofun
  | .string _ :: .nil :: _, _ | .string _ :: .atom _ :: _, _ | .string _ :: .list _ :: _, _
  | .string _ :: .eol :: _, _ => nofun
  | .nil :: _, _ | .atom _ :: _, _ | .list _ :: _, _ | .eol :: _, _ => nofun

mutual
theorem bodystructureList_ne_pastEol : ∀ a : ImapArg, a.eolEnded = true →
    bodystructureList a ≠ .error .pastEol
  | .list l, h => bodystructureArgs_ne_pastEol false l h
  | .nil, _ | .atom _, _ | .string _, _ | .eol, _ => nofun
/-- **`imap_parse_bodystructure_args` stays within its arrays**: on arrays
whose lists all end in `IMAP_ARG_EOL`, its only failure is `return FALSE`. -/
theorem bodystructureArgs_ne_pastEol (multipart : Bool) : ∀ args : List ImapArg,
    itemsEolEnded args = true → bodystructureArgs multipart args ≠ .error .pastEol
  | [], h => absurd h nofun
  | a :: rest, h => by
    cases he : a.isEol
    case true => obtain rfl := ImapArg.eq_eol he; nofun
    case false =>
    obtain ⟨hr, ha⟩ := itemsEolEnded_cons h he
    have hchild := bodystructureList_ne_pastEol a ha
    have hmore := bodystructureArgs_ne_pastEol true rest hr
    have hsingle := fun ty => bodystructureSinglepart_ne_pastEol ty rest hr
    cases a
    case list l => exact bind_ne_pastEol hchild fun _ => bind_ne_pastEol hmore fun _ => nofun
    case string s => cases multipart; exacts [hsingle s, nofun]
    all_goals nofun
theorem bodystructureSinglepart_ne_pastEol (ty : String) : ∀ args : List ImapArg,
    itemsEolEnded args = true → bodystructureSinglepart ty args ≠ .error .pastEol
  | .string sub :: .list ps :: rest, h => by
    obtain ⟨h, hps⟩ := itemsEolEnded_cons (itemsEolEnded_cons h rfl).1 rfl
    rw [bodystructureSinglepart_list]
    exact bind_ne_pastEol (bodystructureParams_ne_pastEol ps hps) fun _ =>
      bind_ne_pastEol (bodystructureFields_ne_pastEol _ _ 4 rest h) fun _ => nofun
  | .string sub :: .nil :: rest, h => by
    have h := (itemsEolEnded_cons (itemsEolEnded_cons h rfl).1 rfl).1
    rw [bodystructureSinglepart_nil]
    exact bind_ne_pastEol (bodystructureFields_ne_pastEol _ _ 4 rest h) fun _ => nofun
  | [], h | [.string _], h => absurd h nofun
  | .string _ :: .atom _ :: _, _ | .string _ :: .string _ :: _, _ | .string _ :: .eol :: _, _ => nofun
  | .nil :: _, _ | .atom _ :: _, _ | .list _ :: _, _ | .eol :: _, _ => nofun
theorem bodystructureFields_ne_pastEol (text messageRfc822 : Bool) : ∀ (n : Nat) (args : List ImapArg),
    itemsEolEnded args = true → bodystructureFields text messageRfc822 n args ≠ .error .pastEol
  | 0, args, h => by
    cases text
    case true =>
      rw [bodystructureFields_zero_text]
      exact bodystructureLines_ne_pastEol args h
    case false =>
    cases messageRfc822
    case false => cases args <;> nofun
    case true =>
    match args, h with
    | .list env :: .list body :: .atom lines :: rest, h =>
      obtain ⟨h, henv⟩ := itemsEolEnded_cons h rfl
      have hbody := (itemsEolEnded_cons h rfl).2
      rw [bodystructureFields_rfc822]
      exact bind_ne_pastEol (imapWriteList_ne_pastEol env henv) fun _ =>
        bind_ne_pastEol (bodystructureArgs_ne_pastEol false body hbody) fun _ => nofun
    | [], h | [.list _], h | [.list _, .list _], h => exact absurd h nofun
    | .list _ :: .list _ :: .nil :: _, _ | .list _ :: .list _ :: .string _ :: _, _
    | .list _ :: .list _ :: .list _ :: _, _ | .list _ :: .list _ :: .eol :: _, _ => nofun
    | .list _ :: .nil :: _, _ | .list _ :: .atom _ :: _, _ | .list _ :: .string _ :: _, _
    | .list _ :: .eol :: _, _ => nofun
    | .nil :: _, _ | .atom _ :: _, _ | .string _ :: _, _ | .eol :: _, _ => nofun
  | _ + 1, [], h => absurd h nofun
  | n + 1, a :: rest, h => by
    have ih := bodystructureFields_ne_pastEol text messageRfc822 n rest
    cases he : a.isEol
    case true => obtain rfl := ImapArg.eq_eol he; nofun
    case false =>
    rw [bodystructureFields_succ]
    exact bind_ne_pastEol (bodystructureField_ne_pastEol a) fun _ =>
      bind_ne_pastEol (ih (itemsEolEnded_cons h he).1) fun _ => nofun
end

/-! ## Nothing after the first `IMAP_ARG_EOL` is read -/

mutual
theorem imapWriteArg_cutAtEol : ∀ a : ImapArg, imapWriteArg a.cutAtEol = imapWriteArg a
  | .list l => by
    show (do let s ← imapWriteItems (cutItems l); pure ("(" ++ s ++ ")")) = _
    rw [imapWriteItems_cutItems l]
    rfl
  | .nil | .atom _ | .string _ | .eol => rfl
theorem imapWriteItems_cutItems : ∀ l : List ImapArg, imapWriteItems (cutItems l) = imapWriteItems l
  | [] => rfl
  | [a] => by
    have ha := imapWriteArg_cutAtEol a
    cases he : a.isEol
    case true => obtain rfl := ImapArg.eq_eol he; rfl
    case false =>
    have hce : a.cutAtEol.isEol = false := (ImapArg.isEol_cutAtEol a).trans he
    rw [cutItems_cons he, imapWriteItems.eq_3 _ _ (ImapArg.ne_eol hce),
      imapWriteItems.eq_3 _ _ (ImapArg.ne_eol he), ha]
    rfl
  | a :: b :: rest => by
    have ha := imapWriteArg_cutAtEol a
    have ih := imapWriteItems_cutItems (b :: rest)
    cases he : a.isEol
    case true => obtain rfl := ImapArg.eq_eol he; rfl
    case false =>
    have hce : a.cutAtEol.isEol = false := (ImapArg.isEol_cutAtEol a).trans he
    cases hb : b.isEol
    case true =>
      obtain rfl := ImapArg.eq_eol hb
      rw [cutItems_cons he, cutItems_eol, imapWriteItems_cons hce, imapWriteItems_cons he, ha]
      rfl
    case false =>
    rw [cutItems_cons he, cutItems_cons hb, imapWriteItems_cons hce, imapWriteItems_cons he, ha,
      ImapArg.isEol_cutAtEol, ← cutItems_cons hb, ih]
end

theorem imapWriteList_cutItems (args : List ImapArg) :
    imapWriteList (cutItems args) = imapWriteList args := by
  rw [imapWriteList, imapWriteList, imapWriteItems_cutItems]

theorem bodystructureField_cutAtEol (a : ImapArg) :
    bodystructureField a.cutAtEol = bodystructureField a := by
  cases a <;> rfl

theorem bodystructureLines_cutItems : ∀ args : List ImapArg,
    bodystructureLines (cutItems args) = bodystructureLines args
  | [] => rfl
  | a :: _ => by cases a <;> rfl

theorem bodystructureParams_cutItems : ∀ ps : List ImapArg,
    bodystructureParams (cutItems ps) = bodystructureParams ps
  | .string n :: .string v :: b :: rest => by
    have ih := bodystructureParams_cutItems (b :: rest)
    show bodystructureParams (.string n :: .string v :: cutItems (b :: rest)) = _
    cases hb : b.isEol
    case true => obtain rfl := ImapArg.eq_eol hb; rfl
    case false =>
    rw [cutItems_cons hb, bodystructureParams_pair, bodystructureParams_pair, ImapArg.isEol_cutAtEol,
      ← cutItems_cons hb, ih]
  | [] | [.string _] | [.string _, .string _] => rfl
  | .string _ :: .nil :: _ | .string _ :: .atom _ :: _ | .string _ :: .list _ :: _
  | .string _ :: .eol :: _ => rfl
  | .nil :: _ | .atom _ :: _ | .list _ :: _ | .eol :: _ => rfl

mutual
theorem bodystructureList_cutAtEol : ∀ a : ImapArg,
    bodystructureList a.cutAtEol = bodystructureList a
  | .list l => bodystructureArgs_cutItems false l
  | .nil | .atom _ | .string _ | .eol => rfl
/-- **`imap_parse_bodystructure_args` reads nothing after a list's first
`IMAP_ARG_EOL`**: cutting every list there leaves its result as it is. -/
theorem bodystructureArgs_cutItems (multipart : Bool) : ∀ args : List ImapArg,
    bodystructureArgs multipart (cutItems args) = bodystructureArgs multipart args
  | [] => rfl
  | a :: rest => by
    have hl := bodystructureList_cutAtEol a
    have hr := bodystructureArgs_cutItems true rest
    have hs := fun ty => bodystructureSinglepart_cutItems ty rest
    cases a
    case list l =>
      rw [@cutItems_cons (.list l) rfl, ImapArg.cutAtEol_list, bodystructureArgs_list, bodystructureArgs_list,
        hr]
      exact congrArg (· >>= _) hl
    case string s =>
      cases multipart
      · exact hs s
      · rfl
    all_goals rfl
theorem bodystructureSinglepart_cutItems (ty : String) : ∀ args : List ImapArg,
    bodystructureSinglepart ty (cutItems args) = bodystructureSinglepart ty args
  | .string sub :: .list ps :: rest => by
    show bodystructureSinglepart ty (.string sub :: .list (cutItems ps) :: cutItems rest) = _
    rw [bodystructureSinglepart_list, bodystructureSinglepart_list, bodystructureParams_cutItems,
      bodystructureFields_cutItems]
  | .string sub :: .nil :: rest => by
    show bodystructureSinglepart ty (.string sub :: .nil :: cutItems rest) = _
    rw [bodystructureSinglepart_nil, bodystructureSinglepart_nil, bodystructureFields_cutItems]
  | [] | [.string _] => rfl
  | .string _ :: .atom _ :: _ | .string _ :: .string _ :: _ | .string _ :: .eol :: _ => rfl
  | .nil :: _ | .atom _ :: _ | .list _ :: _ | .eol :: _ => rfl
theorem bodystructureFields_cutItems (text messageRfc822 : Bool) : ∀ (n : Nat) (args : List ImapArg),
    bodystructureFields text messageRfc822 n (cutItems args) =
      bodystructureFields text messageRfc822 n args
  | 0, args => by
    cases text
    case true =>
      rw [bodystructureFields_zero_text, bodystructureFields_zero_text, bodystructureLines_cutItems]
    case false =>
    cases messageRfc822
    case false =>
      have h : ∀ l, bodystructureFields false false 0 l = pure "" := fun l => by cases l <;> rfl
      rw [h, h]
    case true =>
    match args with
    | .list env :: .list body :: .atom lines :: rest =>
      show bodystructureFields false true 0
        (.list (cutItems env) :: .list (cutItems body) :: .atom lines :: cutItems rest) = _
      rw [bodystructureFields_rfc822, bodystructureFields_rfc822, imapWriteList_cutItems,
        bodystructureArgs_cutItems false body]
    | [] | [.list _] | [.list _, .list _] => rfl
    | .list _ :: .list _ :: .nil :: _ | .list _ :: .list _ :: .string _ :: _
    | .list _ :: .list _ :: .list _ :: _ | .list _ :: .list _ :: .eol :: _ => rfl
    | .list _ :: .nil :: _ | .list _ :: .atom _ :: _ | .list _ :: .string _ :: _
    | .list _ :: .eol :: _ => rfl
    | .nil :: _ | .atom _ :: _ | .string _ :: _ | .eol :: _ => rfl
  | _ + 1, [] => rfl
  | n + 1, a :: rest => by
    have ih := bodystructureFields_cutItems text messageRfc822 n rest
    cases he : a.isEol
    case true => obtain rfl := ImapArg.eq_eol he; rfl
    case false =>
    rw [cutItems_cons he, bodystructureFields_succ, bodystructureFields_succ, ih,
      bodystructureField_cutAtEol]
end

/-! ## Both readers -/

/-- **The readers stay within the arrays.** On every argument array whose
lists all end in `IMAP_ARG_EOL`, neither `imap_parse_bodystructure_args` nor
`imap_write_list` reads past an array's end, so each fails only by `return
FALSE`; and neither reads what follows the first `IMAP_ARG_EOL` of a list, so
cutting every list there leaves both results as they are. -/
theorem imapArgReaders_stop_at_eol {args : List ImapArg} (h : itemsEolEnded args = true) :
    imapParseBodystructureArgs args ≠ .error .pastEol ∧ imapWriteList args ≠ .error .pastEol ∧
      imapParseBodystructureArgs (cutItems args) = imapParseBodystructureArgs args ∧
      imapWriteList (cutItems args) = imapWriteList args :=
  ⟨bodystructureArgs_ne_pastEol false args h, imapWriteList_ne_pastEol args h,
    bodystructureArgs_cutItems false args, imapWriteList_cutItems args⟩

/-- A stored message/rfc822 BODYSTRUCTURE cut short after its envelope, the
envelope holding items after its `IMAP_ARG_EOL`. -/
def truncatedRfc822Args : List ImapArg :=
  [.string "message", .string "rfc822", .nil, .nil, .nil, .string "7bit", .atom "100",
    .list [.nil, .eol, .atom "junk", .eol], .eol]

theorem imapArgReaders_stop_at_eol_truncated :
    itemsEolEnded truncatedRfc822Args = true ∧
      (imapParseBodystructureArgs truncatedRfc822Args ≠ .error .pastEol ∧
        imapWriteList truncatedRfc822Args ≠ .error .pastEol ∧
        imapParseBodystructureArgs (cutItems truncatedRfc822Args) =
          imapParseBodystructureArgs truncatedRfc822Args ∧
        imapWriteList (cutItems truncatedRfc822Args) = imapWriteList truncatedRfc822Args) :=
  ⟨rfl, imapArgReaders_stop_at_eol rfl⟩

/-! ## The arrays the parser returns

`imap_body_parse_from_bodystructure` hands the reducer what
`imap_parser_read_args` reads from the stored text. The scanner's leaves are
`NIL`, atoms and strings, and the list stack closes every list with its
`IMAP_ARG_EOL`, so every array it returns has its lists ended by one. -/

/-- A token whose argument, if it is one, has its lists ended by `IMAP_ARG_EOL`. -/
def ImapToken.eolEnded : ImapToken → Bool
  | .leaf a => a.eolEnded
  | _ => true

theorem itemsEolEnded_append_eol : ∀ l : List ImapArg,
    itemsEolEnded (l ++ [.eol]) = l.all ImapArg.eolEnded
  | [] => rfl
  | a :: l => by
    have hne : (l ++ [ImapArg.eol]).isEmpty = false := by cases l <;> rfl
    rw [List.cons_append, itemsEolEnded, itemsEolEnded_append_eol l, List.all_cons, hne,
      Bool.and_false, Bool.false_or, Bool.and_comm]

theorem atomArg_eolEnded (acc : List Char) : (atomArg acc).eolEnded = true := by
  unfold atomArg
  split <;> rfl

theorem map_cons_eolEnded {t : ImapToken} {o : Option (List ImapToken)} {toks : List ImapToken}
    (h : (t :: ·) <$> o = some toks) (ht : t.eolEnded = true)
    (ho : ∀ toks, o = some toks → toks.all ImapToken.eolEnded = true) :
    toks.all ImapToken.eolEnded = true := by
  cases o with
  | none => cases h
  | some l =>
    obtain rfl : t :: l = toks := Option.some.inj h
    rw [List.all_cons, ht, ho l rfl]
    rfl

theorem lexIdle_eolEnded {c : Char} {next : LexState → Option (List ImapToken)}
    (hn : ∀ st toks, next st = some toks → toks.all ImapToken.eolEnded = true)
    {toks : List ImapToken} (h : lexIdle c next = some toks) : toks.all ImapToken.eolEnded = true := by
  unfold lexIdle at h
  repeat' split at h
  all_goals first | exact hn _ _ h | exact map_cons_eolEnded h rfl (hn .idle)

/-- The scanner's leaves are `NIL`, atoms and strings. -/
theorem lexArgs_eolEnded : ∀ (st : LexState) (cs : List Char) (toks : List ImapToken),
    lexArgs st cs = some toks → toks.all ImapToken.eolEnded = true
  | .idle, [], _, h => by cases h; rfl
  | .idle, _ :: cs, _, h => lexIdle_eolEnded (lexArgs_eolEnded · cs) h
  | .atom acc, [], _, h => by
    cases h
    rw [List.all_cons, ImapToken.eolEnded, atomArg_eolEnded]
    rfl
  | .atom acc, c :: cs, toks, h => by
    rw [lexArgs] at h
    split at h
    · exact map_cons_eolEnded h (atomArg_eolEnded acc) fun _ => lexIdle_eolEnded (lexArgs_eolEnded · cs)
    · exact lexArgs_eolEnded _ cs toks h
  | .quoted acc, c :: cs, toks, h => by
    rw [lexArgs] at h
    split at h
    · exact map_cons_eolEnded h rfl (lexArgs_eolEnded .idle cs)
    · split at h <;> exact lexArgs_eolEnded _ cs toks h
  | .escaped _, _ :: cs, toks, h => lexArgs_eolEnded _ cs toks h
  | .quoted _, [], _, h | .escaped _, [], _, h => by cases h

/-- The list stack keeps every open list's items ended by `IMAP_ARG_EOL`, and
closes every list, and the top-level array, with one. -/
theorem buildArgs_eolEnded : ∀ (st : List (List ImapArg)) (ts : List ImapToken) (args : List ImapArg),
    st.all (·.all ImapArg.eolEnded) = true → ts.all ImapToken.eolEnded = true →
      buildArgs st ts = some args → itemsEolEnded args = true
  | [top], [], _, hst, _, h => by
    rw [buildArgs.eq_1, Option.some.injEq] at h
    subst h
    rw [itemsEolEnded_append_eol]
    simpa only [List.all_cons, List.all_nil, Bool.and_true] using hst
  | st, .lparen :: ts, args, hst, hts, h => by
    rw [buildArgs.eq_3] at h
    exact buildArgs_eolEnded ([] :: st) ts args hst hts h
  | cur :: up :: st, .rparen :: ts, args, hst, hts, h => by
    rw [buildArgs.eq_4] at h
    refine buildArgs_eolEnded _ ts args ?_ hts h
    simp only [List.all_cons, List.all_append, List.all_nil, Bool.and_true, Bool.and_eq_true] at hst ⊢
    exact ⟨⟨hst.2.1, (itemsEolEnded_append_eol cur).trans hst.1⟩, hst.2.2⟩
  | cur :: st, .leaf a :: ts, args, hst, hts, h => by
    rw [buildArgs.eq_6] at h
    simp only [List.all_cons, Bool.and_eq_true, ImapToken.eolEnded] at hst hts
    refine buildArgs_eolEnded _ ts args ?_ hts.2 h
    simp only [List.all_cons, List.all_append, List.all_nil, hst.1, hst.2, hts.1, Bool.and_self]
  | [], [], _, _, _, h | _ :: _ :: _, [], _, _, _, h => by cases h
  | [], .rparen :: _, _, _, _, h | [_], .rparen :: _, _, _, _, h => by cases h
  | [], .leaf _ :: _, _, _, _, h => by cases h

/-- The arrays `imap_parser_read_args` returns have their lists ended by `IMAP_ARG_EOL`. -/
theorem imapParserReadArgs_eolEnded {s : String} {args : List ImapArg}
    (h : imapParserReadArgs s = some args) : itemsEolEnded args = true := by
  obtain ⟨toks, hl, hb⟩ := Option.bind_eq_some.mp h
  exact buildArgs_eolEnded [[]] toks args rfl (lexArgs_eolEnded .idle _ toks hl) hb

/-- **On every stored text the reducer stays within its arrays.** Whatever
text `imap_body_parse_from_bodystructure` is given, `imap_parse_bodystructure_args`
fails on the arguments read from it only by `return FALSE`. -/
theorem imapBodyParseFromBodystructure_no_pastEol (s : String) (args : List ImapArg)
    (h : imapParserReadArgs s = some args) : imapParseBodystructureArgs args ≠ .error .pastEol :=
  bodystructureArgs_ne_pastEol false args (imapParserReadArgs_eolEnded h)

/-- A stored message/rfc822 BODYSTRUCTURE cut short after its envelope. -/
def truncatedRfc822Text : String := "\"message\" \"rfc822\" NIL NIL NIL \"7bit\" 100 (NIL)"

theorem imapBodyParseFromBodystructure_no_pastEol_truncated :
    imapParserReadArgs truncatedRfc822Text =
        some [.string "message", .string "rfc822", .nil, .nil, .nil, .string "7bit", .atom "100",
          .list [.nil, .eol], .eol] ∧
      imapParseBodystructureArgs [.string "message", .string "rfc822", .nil, .nil, .nil,
        .string "7bit", .atom "100", .list [.nil, .eol], .eol] ≠ .error .pastEol :=
  ⟨by decide, imapBodyParseFromBodystructure_no_pastEol truncatedRfc822Text _ (by decide)⟩

end Dovecot
