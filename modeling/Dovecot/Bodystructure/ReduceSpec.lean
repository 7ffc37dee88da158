import Dovecot.Bodystructure.Reduce
import Dovecot.Bodystructure.Shape
/-!
What the reducer is for, and that `imap_parse_bodystructure_args` does it.

`reduceItemsWith` is the spec's `reduce` on argument trees: it checks the
BODYSTRUCTURE grammar and returns the arguments of the BODY form, the
extension items of every level dropped. It is written from the spec, in the
shape of the code so that the two can be compared level by level. Its
parameter `bodyList` says what becomes of the body of a message/rfc822 part:
the spec keeps it one list; the code writes its items into the part's own
list. The code refines the spec with the body spliced
(`bodystructureArgs_refines`): on printable arguments it fails exactly when
the spec does, and otherwise its text stands for the spec's arguments.
-/

namespace Dovecot

/-! ## The spec -/

/-- One of the four plain fields: `NIL`, an atom or a string. -/
def isPlainField : ImapArg → Bool
  | .nil | .atom _ | .string _ => true
  | _ => false

/-- The items of a parameter list: string pairs up to the end. -/
def stringPairs : List ImapArg → Bool
  | .eol :: _ => true
  | .string _ :: .string _ :: rest => stringPairs rest
  | _ => false

/-- A parameter field: `NIL`, or a list of string pairs. -/
def isParamsField : ImapArg → Bool
  | .nil => true
  | .list ps => stringPairs ps
  | _ => false

/-- The line count of a text part: an atom. -/
def reduceLines : List ImapArg → Option (List ImapArg)
  | .atom lines :: _ => some [.atom lines]
  | _ => none

mutual
/-- The spec's `reduce` on a list argument: the arguments of its BODY form. -/
def reduceListWith (bodyList : Bool) : ImapArg → Option (List ImapArg)
  | .list l => reduceItemsWith bodyList false l
  | _ => none
/-- The spec's `reduce` on the items of one level: leading lists are the
children of a multipart, then its subtype; otherwise a single part. -/
def reduceItemsWith (bodyList multipart : Bool) : List ImapArg → Option (List ImapArg)
  | [] => none
  | a :: rest =>
    match a with
    | .list _ => do
      let child ← reduceListWith bodyList a
      let more ← reduceItemsWith bodyList true rest
      pure (.list (child ++ [.eol]) :: more)
    | .string s => if multipart then some [.string s] else reduceSinglepartWith bodyList s rest
    | _ => none
/-- A single part of type `ty`: subtype, params, the four plain fields, then
the trailer its type asks for. -/
def reduceSinglepartWith (bodyList : Bool) (ty : String) : List ImapArg → Option (List ImapArg)
  | .string sub :: params :: rest =>
    if isParamsField params then
      (reduceFieldsWith bodyList (strcasecmpEq ty "text")
        (strcasecmpEq ty "message" && strcasecmpEq sub "rfc822") 4 rest).map
        (.string ty :: .string sub :: params :: ·)
    else none
  | _ => none
/-- The `left` plain fields, then the line count of a text part, or the
envelope, body and line count of a message/rfc822 part. -/
def reduceFieldsWith (bodyList text messageRfc822 : Bool) : Nat → List ImapArg → Option (List ImapArg)
  | 0, args =>
    if text then reduceLines args
    else if messageRfc822 then
      match args with
      | .list env :: body :: .atom lines :: _ =>
        (reduceListWith bodyList body).map fun b =>
          .list env :: (if bodyList then [.list (b ++ [.eol])] else b) ++ [.atom lines]
      | _ => none
    else some []
  | _ + 1, [] => none
  | n + 1, a :: rest =>
    if isPlainField a then (reduceFieldsWith bodyList text messageRfc822 n rest).map (a :: ·)
    else none
end

theorem reduceItemsWith_list (bodyList multipart : Bool) (l rest : List ImapArg) :
    reduceItemsWith bodyList multipart (.list l :: rest) =
      (do let child ← reduceItemsWith bodyList false l
          let more ← reduceItemsWith bodyList true rest
          pure (.list (child ++ [.eol]) :: more)) := rfl

theorem reduceItemsWith_string (bodyList multipart : Bool) (s : String) (rest : List ImapArg) :
    reduceItemsWith bodyList multipart (.string s :: rest) =
      if multipart then some [.string s] else reduceSinglepartWith bodyList s rest := rfl

theorem reduceSinglepartWith_cons (bodyList : Bool) (ty sub : String) (params : ImapArg)
    (rest : List ImapArg) :
    reduceSinglepartWith bodyList ty (.string sub :: params :: rest) =
      if isParamsField params then
        (reduceFieldsWith bodyList (strcasecmpEq ty "text")
          (strcasecmpEq ty "message" && strcasecmpEq sub "rfc822") 4 rest).map
          (.string ty :: .string sub :: params :: ·)
      else none := rfl

theorem reduceFieldsWith_succ (bodyList text messageRfc822 : Bool) (n : Nat) (a : ImapArg)
    (rest : List ImapArg) :
    reduceFieldsWith bodyList text messageRfc822 (n + 1) (a :: rest) =
      if isPlainField a then (reduceFieldsWith bodyList text messageRfc822 n rest).map (a :: ·)
      else none := rfl

theorem reduceFieldsWith_rfc822 (bodyList : Bool) (env : List ImapArg) (body : ImapArg)
    (lines : String) (rest : List ImapArg) :
    reduceFieldsWith bodyList false true 0 (.list env :: body :: .atom lines :: rest) =
      (reduceListWith bodyList body).map fun b =>
        .list env :: (if bodyList then [.list (b ++ [.eol])] else b) ++ [.atom lines] := rfl

theorem reduceFieldsWith_zero_text (bodyList messageRfc822 : Bool) (args : List ImapArg) :
    reduceFieldsWith bodyList true messageRfc822 0 args = reduceLines args := by
  cases args <;> rfl

/-- What becomes of a message/rfc822 body changes the arguments the spec
returns, never whether it accepts its input. -/
theorem isSome_bind2 {α β γ : Type} (o : Option α) (o' : Option β) (f : α → β → γ) :
    (do let x ← o; let y ← o'; pure (f x y)).isSome = (o.isSome && o'.isSome) := by
  cases o <;> cases o' <;> rfl

mutual
theorem reduceListWith_isSome : ∀ a : ImapArg,
    (reduceListWith true a).isSome = (reduceListWith false a).isSome
  | .list l => reduceItemsWith_isSome false l
  | .nil | .atom _ | .string _ | .eol => rfl
theorem reduceItemsWith_isSome (multipart : Bool) : ∀ args : List ImapArg,
    (reduceItemsWith true multipart args).isSome = (reduceItemsWith false multipart args).isSome
  | [] => rfl
  | a :: rest => by
    have hl := reduceListWith_isSome a
    have hr := reduceItemsWith_isSome true rest
    have hs := fun ty => reduceSinglepartWith_isSome ty rest
    cases a
    case list l =>
      rw [reduceItemsWith_list, reduceItemsWith_list, isSome_bind2, isSome_bind2, hr]
      exact congrArg (· && _) hl
    case string s => cases multipart <;> simp only [reduceItemsWith_string, hs, Bool.false_eq_true, ↓reduceIte]
    all_goals rfl
theorem reduceSinglepartWith_isSome (ty : String) : ∀ args : List ImapArg,
    (reduceSinglepartWith true ty args).isSome = (reduceSinglepartWith false ty args).isSome
  | .string sub :: params :: rest => by
    have h := reduceFieldsWith_isSome (strcasecmpEq ty "text")
      (strcasecmpEq ty "message" && strcasecmpEq sub "rfc822") 4 rest
    simp only [reduceSinglepartWith_cons, apply_ite Option.isSome, Option.isSome_map', h]
  | [] | [.string _] | .nil :: _ | .atom _ :: _ | .list _ :: _ | .eol :: _ => rfl
theorem reduceFieldsWith_isSome (text messageRfc822 : Bool) : ∀ (n : Nat) (args : List ImapArg),
    (reduceFieldsWith true text messageRfc822 n args).isSome =
      (reduceFieldsWith false text messageRfc822 n args).isSome
  | 0, args => by
    cases text
    case true => rw [reduceFieldsWith_zero_text, reduceFieldsWith_zero_text]
    case false =>
    cases messageRfc822
    case false => cases args <;> rfl
    case true =>
    match args with
    | .list env :: body :: .atom lines :: rest =>
      simp only [reduceFieldsWith_rfc822, Option.isSome_map', reduceListWith_isSome body]
    | [] | [.list _] | [.list _, _] => rfl
    | .list _ :: _ :: .nil :: _ | .list _ :: _ :: .string _ :: _ | .list _ :: _ :: .list _ :: _
    | .list _ :: _ :: .eol :: _ => rfl
    | .nil :: _ | .atom _ :: _ | .string _ :: _ | .eol :: _ => rfl
  | _ + 1, [] => rfl
  | n + 1, a :: rest => by
    simp only [reduceFieldsWith_succ, apply_ite Option.isSome, Option.isSome_map',
      reduceFieldsWith_isSome text messageRfc822 n rest]
end

/-! ## The code against the spec -/

/-- The code's result stands for the spec's: both fail, or the text is
delimited and stands for the arguments. -/
def Refines : Except ArgFault String → Option (List ImapArg) → Prop
  | .ok s, some items => ItemsOf s items ∧ delimited s.data = true
  | .error _, none => True
  | _, _ => False

theorem ItemsOf.arg {a : ImapArg} (ha : a.printable = true) : ItemsOf (argText a) [a] :=
  ⟨by simpa using LexesTo.arg ha, by simpa using ha⟩

namespace Refines

variable {x y : Except ArgFault String} {o o' : Option (List ImapArg)}

theorem map (hx : Refines x o) {f : String → String} {g : List ImapArg → List ImapArg}
    (hfg : ∀ s items, ItemsOf s items → delimited s.data = true →
      ItemsOf (f s) (g items) ∧ delimited (f s).data = true) :
    Refines (do let s ← x; pure (f s)) (o.map g) :=
  match x, o, hx with
  | .ok s, some items, hx => hfg s items hx.1 hx.2
  | .error _, none, _ => trivial
  | .ok _, none, hx | .error _, some _, hx => (hx : False).elim

theorem bind2 (hx : Refines x o) (hy : Refines y o') {f : String → String → String}
    {g : List ImapArg → List ImapArg → List ImapArg}
    (hfg : ∀ s t is js, ItemsOf s is → delimited s.data = true → ItemsOf t js →
      delimited t.data = true → ItemsOf (f s t) (g is js) ∧ delimited (f s t).data = true) :
    Refines (do let s ← x; let t ← y; pure (f s t)) (do let is ← o; let js ← o'; pure (g is js)) :=
  match x, o, hx, y, o', hy with
  | .ok s, some is, hx, .ok t, some js, hy => hfg s t is js hx.1 hx.2 hy.1 hy.2
  | .ok _, some _, _, .error _, none, _ => trivial
  | .error _, none, _, _, _, _ => trivial
  | .ok _, none, hx, _, _, _ | .error _, some _, hx, _, _, _ => (hx : False).elim
  | .ok _, some _, _, .ok _, none, hy | .ok _, some _, _, .error _, some _, hy => (hy : False).elim

/-- What a refinement says of parsing: the code succeeds exactly when the spec
does, and its text parses to the spec's arguments. -/
theorem parse (hx : Refines x o) :
    x.toOption.isSome = o.isSome ∧
      ∀ s, x = .ok s → ∃ items, o = some items ∧ imapParserReadArgs s = some (items ++ [.eol]) :=
  match x, o, hx with
  | .ok _, some items, hx => ⟨rfl, fun _ hs => ⟨items, rfl, by
      cases hs; exact imapParserReadArgs_of_lexesTo hx.1.1 hx.1.2⟩⟩
  | .error _, none, _ => ⟨rfl, fun _ hs => nomatch hs⟩
  | .ok _, none, hx | .error _, some _, hx => (hx : False).elim

end Refines

theorem printableItems_cons {a : ImapArg} (ha : a.isEol = false) (rest : List ImapArg) :
    printableItems (a :: rest) = (a.printable && printableItems rest) := by
  simp [printableItems, ha]

/-- The loop over a parameter list writes the list's own text. -/
theorem bodystructureParams_eq : ∀ ps : List ImapArg, printableItems ps = true →
    (bodystructureParams ps).toOption = if stringPairs ps then some (itemsText ps) else none
  | [], h => absurd h (by decide)
  | .eol :: _, _ => rfl
  | .nil :: _, _ | .atom _ :: _, _ | .list _ :: _, _ => rfl
  | [.string _], _ => rfl
  | .string _ :: .nil :: _, _ | .string _ :: .atom _ :: _, _ | .string _ :: .list _ :: _, _
  | .string _ :: .eol :: _, _ => rfl
  | [.string _, .string _], _ => rfl
  | .string n :: .string v :: b :: rest, h => by
    rw [@printableItems_cons (.string n) rfl, @printableItems_cons (.string v) rfl, Bool.and_eq_true,
      Bool.and_eq_true] at h
    have ih := bodystructureParams_eq (b :: rest) h.2.2
    cases hb : b.isEol
    · have hpair : itemsText (.string n :: .string v :: b :: rest) =
          "\"" ++ n ++ "\" \"" ++ v ++ "\"" ++ " " ++ itemsText (b :: rest) := by
        simp only [itemsText, ImapArg.isEol_string, hb, argText, Bool.false_eq_true, ↓reduceIte,
          String.append_assoc]
        rfl
      have hcode : bodystructureParams (.string n :: .string v :: b :: rest) =
          (do let r ← bodystructureParams (b :: rest)
              pure ("\"" ++ n ++ "\" \"" ++ v ++ "\"" ++ " " ++ r)) := by
        cases b <;> simp only [ImapArg.isEol, Bool.true_eq_false] at hb <;> rfl
      rw [hcode, hpair, stringPairs]
      cases hp : bodystructureParams (b :: rest) <;> cases hs : stringPairs (b :: rest) <;>
        simp_all [Except.toOption]
    · cases b <;> simp only [ImapArg.isEol, Bool.false_eq_true] at hb
      simp only [bodystructureParams, stringPairs, itemsText, argText, ImapArg.isEol, ↓reduceIte,
        String.append_assoc, String.append_empty]
      rfl

/-- A plain field is written after a space, as its own text. -/
theorem bodystructureField_eq {a : ImapArg} (ha : isPlainField a = true) :
    bodystructureField a = .ok (" " ++ argText a) := by
  cases a <;> simp only [isPlainField, Bool.false_eq_true] at ha
  all_goals simp only [bodystructureField, argText, String.append_assoc]; rfl

theorem bodystructureField_error {a : ImapArg} (ha : isPlainField a = false) :
    ∃ e, bodystructureField a = .error e := by
  cases a <;> simp only [isPlainField, Bool.true_eq_false] at ha <;> exact ⟨_, rfl⟩

theorem printable_of_cons {a : ImapArg} {rest : List ImapArg} (h : printableItems (a :: rest) = true)
    (ha : a.isEol = false) : a.printable = true ∧ printableItems rest = true := by
  simpa [printableItems_cons ha] using h

/-- A string field after a space. -/
theorem itemsOf_string_field {s : String} (hs : (ImapArg.string s).printable = true) :
    ItemsOf (" \"" ++ s ++ "\"") [.string s] := by
  have h := (ItemsOf.arg hs).space
  simp only [argText, ← String.append_assoc] at h
  exact h

/-- The passthrough writer on an envelope list writes the list's own text. -/
theorem imapWriteList_eq {env : List ImapArg} (h : printableItems env = true) :
    imapWriteList env = pure (argText (.list env)) := by
  rw [imapWriteList, imapWriteItems_eq env h]
  rfl

theorem bodystructureLines_refines : ∀ args : List ImapArg, printableItems args = true →
    Refines (bodystructureLines args) (reduceLines args)
  | [], _ => trivial
  | .atom _ :: _, h => ⟨(ItemsOf.arg (printable_of_cons h rfl).1).space, rfl⟩
  | .nil :: _, _ | .string _ :: _, _ | .list _ :: _, _ | .eol :: _, _ => trivial

theorem bodystructureFields_zero_text (messageRfc822 : Bool) (args : List ImapArg) :
    bodystructureFields true messageRfc822 0 args = bodystructureLines args := by
  cases args <;> rfl

/-- The trailer of a message/rfc822 part: the envelope, the body reduced with
its items in the part's own list, the line count. -/
theorem itemsOf_rfc822_trailer {env : List ImapArg} (henv : printableItems env = true)
    {b : String} {items : List ImapArg} (hb : ItemsOf b items) {lines : String}
    (hlines : (ImapArg.atom lines).printable = true) :
    ItemsOf (" " ++ ("(" ++ itemsText env ++ ")") ++ " " ++ b ++ " " ++ lines)
      (.list env :: items ++ [.atom lines]) := by
  have h := (((@ItemsOf.arg (.list env) henv).space.append hb.space rfl).append
    (ItemsOf.arg hlines).space rfl)
  simp only [argText, String.append_assoc, List.singleton_append, List.cons_append] at h ⊢
  exact h

mutual
theorem bodystructureList_refines : ∀ a : ImapArg, a.printable = true →
    Refines (bodystructureList a) (reduceListWith false a)
  | .list l, h => bodystructureArgs_refines false l h
  | .nil, _ | .atom _, _ | .string _, _ => trivial
  | .eol, h => absurd h (by decide)
/-- **The reducer refines the spec.** On printable arguments
`imap_parse_bodystructure_args` fails exactly when the spec's `reduce` does,
and otherwise writes a text that stands for the spec's arguments, the body of
a message/rfc822 part spliced into the part's own list. -/
theorem bodystructureArgs_refines (multipart : Bool) : ∀ args : List ImapArg,
    printableItems args = true →
    Refines (bodystructureArgs multipart args) (reduceItemsWith false multipart args)
  | [], h => absurd h (by decide)
  | a :: rest, h => by
    cases he : a.isEol
    case true =>
      cases a <;> simp only [ImapArg.isEol, Bool.false_eq_true] at he
      trivial
    case false =>
    obtain ⟨ha, hr⟩ := printable_of_cons h he
    have hchild := bodystructureList_refines a ha
    have hmore := bodystructureArgs_refines true rest hr
    have hsingle := fun ty hty => bodystructureSinglepart_refines ty hty rest hr
    cases a
    case list l =>
      exact Refines.bind2 hchild hmore fun s t is js hs _ ht hdt =>
        ⟨hs.list.append ht hdt, rfl⟩
    case string s =>
      cases multipart
      · exact hsingle s ha
      · exact ⟨itemsOf_string_field ha, rfl⟩
    all_goals trivial
theorem bodystructureSinglepart_refines (ty : String) (hty : (ImapArg.string ty).printable = true) :
    ∀ args : List ImapArg, printableItems args = true →
      Refines (bodystructureSinglepart ty args) (reduceSinglepartWith false ty args)
  | [], _ => trivial
  | .string sub :: rest, h => by
    obtain ⟨hsub, hrest⟩ := printable_of_cons h rfl
    have hhead := (ItemsOf.arg hty).append (ItemsOf.arg hsub).space rfl
    match rest, hrest with
    | [], _ => trivial
    | .list ps :: rest, hrest =>
      obtain ⟨hps, hr⟩ := printable_of_cons hrest rfl
      have hp := bodystructureParams_eq ps hps
      cases hs : stringPairs ps
      · rw [hs] at hp
        obtain ⟨e, he⟩ : ∃ e, bodystructureParams ps = .error e := by
          cases hc : bodystructureParams ps <;> simp_all [Except.toOption]
        rw [bodystructureSinglepart_list, reduceSinglepartWith_cons, he]
        simp only [isParamsField, hs]
        trivial
      · obtain hpe : bodystructureParams ps = .ok (itemsText ps) := by
          rw [hs] at hp
          cases hc : bodystructureParams ps <;> simp_all [Except.toOption]
        simp only [bodystructureSinglepart_list, reduceSinglepartWith_cons, isParamsField, hs, hpe,
          ↓reduceIte]
        refine Refines.map (bodystructureFields_refines _ _ 4 rest hr) fun t items ht hdt => ⟨?_, rfl⟩
        have hb := (hhead.append (@ItemsOf.arg (.list ps) hps).space rfl).append ht hdt
        simp only [argText, String.append_assoc, List.cons_append, List.singleton_append] at hb ⊢
        exact hb
    | .nil :: rest, hrest =>
      have hr := (printable_of_cons hrest rfl).2
      simp only [bodystructureSinglepart_nil, reduceSinglepartWith_cons, isParamsField, ↓reduceIte]
      refine Refines.map (bodystructureFields_refines _ _ 4 rest hr) fun t items ht hdt => ⟨?_, rfl⟩
      have hb := (hhead.append (@ItemsOf.arg .nil rfl).space rfl).append ht hdt
      simp only [argText, String.append_assoc, List.cons_append, List.singleton_append] at hb ⊢
      exact hb
    | .atom _ :: _, _ | .string _ :: _, _ | .eol :: _, _ => trivial
  | .nil :: _, _ | .atom _ :: _, _ | .list _ :: _, _ | .eol :: _, _ => trivial
theorem bodystructureFields_refines (text messageRfc822 : Bool) : ∀ (n : Nat) (args : List ImapArg),
    printableItems args = true →
      Refines (bodystructureFields text messageRfc822 n args)
        (reduceFieldsWith false text messageRfc822 n args)
  | 0, args, h => by
    cases text
    case true =>
      rw [bodystructureFields_zero_text, reduceFieldsWith_zero_text]
      exact bodystructureLines_refines args h
    case false =>
    cases messageRfc822
    case false => cases args <;> exact ⟨.nil, rfl⟩
    case true =>
    match args, h with
    | .list env :: .list body :: .atom lines :: rest, h =>
      obtain ⟨henv, h⟩ := printable_of_cons h rfl
      obtain ⟨hbody, h⟩ := printable_of_cons h rfl
      have hlines := (printable_of_cons h rfl).1
      have hb := bodystructureArgs_refines false body hbody
      simp only [bodystructureFields_rfc822, reduceFieldsWith_rfc822, imapWriteList_eq henv, pure_bind,
        argText, Bool.false_eq_true, ↓reduceIte]
      exact Refines.map hb fun t items ht _ => ⟨itemsOf_rfc822_trailer henv ht hlines, rfl⟩
    | [], _ | [.list _], _ | [.list _, .list _], _ => trivial
    | .list _ :: .list _ :: .nil :: _, _ | .list _ :: .list _ :: .string _ :: _, _
    | .list _ :: .list _ :: .list _ :: _, _ | .list _ :: .list _ :: .eol :: _, _ => trivial
    | .list _ :: .nil :: rest, _ | .list _ :: .atom _ :: rest, _ | .list _ :: .string _ :: rest, _
    | .list _ :: .eol :: rest, _ =>
      match rest with
      | [] | .nil :: _ | .atom _ :: _ | .string _ :: _ | .list _ :: _ | .eol :: _ => trivial
    | .nil :: _, _ | .atom _ :: _, _ | .string _ :: _, _ | .eol :: _, _ => trivial
  | _ + 1, [], h => absurd h (by decide)
  | n + 1, a :: rest, h => by
    have ih := bodystructureFields_refines text messageRfc822 n rest
    cases he : a.isEol
    case true =>
      cases a <;> simp only [ImapArg.isEol, Bool.false_eq_true] at he
      trivial
    case false =>
    obtain ⟨ha, hr⟩ := printable_of_cons h he
    cases hf : isPlainField a
    · obtain ⟨e, hfe⟩ := bodystructureField_error hf
      simp only [bodystructureFields_succ, reduceFieldsWith_succ, hfe, hf]
      trivial
    · simp only [bodystructureFields_succ, reduceFieldsWith_succ, bodystructureField_eq hf, hf,
        ↓reduceIte]
      exact Refines.map (ih hr) fun s items hs hds =>
        ⟨(ItemsOf.arg ha).space.append hs hds, rfl⟩
end

/-- **What the reducer accepts and writes.** On a printable argument array,
`imap_parse_bodystructure_args` succeeds exactly when the spec's `reduce`
accepts the array, and its text then parses to the spec's arguments with the
body of each message/rfc822 part spliced into its part's list. -/
theorem imapParseBodystructureArgs_reduce {args : List ImapArg} (h : printableItems args = true) :
    (imapParseBodystructureArgs args).toOption.isSome = (reduceItemsWith true false args).isSome ∧
      ∀ s, imapParseBodystructureArgs args = .ok s →
        ∃ items, reduceItemsWith false false args = some items ∧
          imapParserReadArgs s = some (items ++ [.eol]) := by
  rw [reduceItemsWith_isSome]
  exact (bodystructureArgs_refines false args h).parse

/-- The parsed BODYSTRUCTURE of a text part with its extension data. -/
def plainTextArgs : List ImapArg :=
  [.string "text", .string "plain", .nil, .nil, .nil, .string "8bit", .atom "10", .atom "1",
    .nil, .nil, .nil, .eol]

theorem imapParseBodystructureArgs_reduce_plainText :
    printableItems plainTextArgs = true ∧
      ((imapParseBodystructureArgs plainTextArgs).toOption.isSome =
          (reduceItemsWith true false plainTextArgs).isSome ∧
        ∀ s, imapParseBodystructureArgs plainTextArgs = .ok s →
          ∃ items, reduceItemsWith false false plainTextArgs = some items ∧
            imapParserReadArgs s = some (items ++ [.eol])) :=
  ⟨by decide, imapParseBodystructureArgs_reduce (by decide)⟩

end Dovecot
