import Dovecot.Bodystructure.Part
import Dovecot.Imap.RoundTrip
import Mathlib.Data.Nat.Digits
/-!
The IMAP arguments the serializer's output stands for. Each piece of text
`part_write_body` and `part_write_body_multipart` write (a field, a
parenthesized parameter list, the envelope, a child in parentheses, a number)
is read by the parser as one argument; `partItems` lists, node by node, the
arguments the pieces stand for, and `partItems_lexesTo` shows the scanner
turns the whole output into their tokens, so the parser returns them.

Metadata is taken as text: a piece stands for the argument the parser reads
from it (`textArg`), and a piece is well formed when writing that argument
back gives the piece (`pieceOk`). The shapes `parse_header` produces are
well formed; arbitrary text need not be.
-/

namespace Dovecot

/-! ## Pieces -/

/-- The argument the parser reads from a piece of text that holds one. -/
def textArg (t : String) : ImapArg :=
  match imapParserReadArgs t with
  | some [a, .eol] => a
  | _ => .nil

/-- A piece that is the text of a printable argument. -/
def pieceOk (t : String) : Bool :=
  (textArg t).printable && argText (textArg t) == t

theorem textArg_argText {a : ImapArg} (ha : a.printable = true) : textArg (argText a) = a := by
  have h : imapParserReadArgs (itemsText [a, .eol]) = some [a, .eol] :=
    imapParserReadArgs_itemsText (by simp [printableItems, ha, ImapArg.isEol])
  have ht : itemsText [a, .eol] = argText a := by
    rw [itemsText, if_neg (by simp [printable_isEol ha])]
    simp [ImapArg.isEol]
  rw [ht] at h
  rw [textArg, h]

theorem pieceOk_argText {a : ImapArg} (ha : a.printable = true) : pieceOk (argText a) = true := by
  simp [pieceOk, textArg_argText ha, ha]

theorem pieceOk_iff {t : String} : pieceOk t = true ↔ (textArg t).printable = true ∧ argText (textArg t) = t := by
  simp [pieceOk]

/-! ## Numbers -/

/-- The digits `Nat.repr` writes. -/
theorem mem_toDigitsCore : ∀ (fuel n : Nat) (ds : List Char),
    (∀ c ∈ ds, ∃ k < 10, c = Nat.digitChar k) →
      ∀ c ∈ Nat.toDigitsCore 10 fuel n ds, ∃ k < 10, c = Nat.digitChar k
  | 0, _, _, h => h
  | f + 1, n, ds, h => by
    have hd : ∀ c ∈ Nat.digitChar (n % 10) :: ds, ∃ k < 10, c = Nat.digitChar k := by
      intro c hc
      rcases List.mem_cons.mp hc with rfl | hc
      exacts [⟨n % 10, Nat.mod_lt _ (by decide), rfl⟩, h c hc]
    simp only [Nat.toDigitsCore]
    split
    · exact hd
    · exact mem_toDigitsCore f _ _ hd

theorem toDigitsCore_ne_nil (f n : Nat) (ds : List Char) : Nat.toDigitsCore 10 (f + 1) n ds ≠ [] := by
  induction f generalizing n ds with
  | zero => rw [Nat.toDigitsCore]; split <;> simp [Nat.toDigitsCore]
  | succ f ih =>
    rw [Nat.toDigitsCore]
    split
    · simp
    · exact ih _ _

theorem digitChar_ok : ∀ {k : Nat}, k < 10 →
    atomSpecial (Nat.digitChar k) = false ∧ (Nat.digitChar k).toUpper ≠ 'N' ∧
      (Nat.digitChar k).isDigit = true
  | 0, _ => by decide
  | 1, _ => by decide
  | 2, _ => by decide
  | 3, _ => by decide
  | 4, _ => by decide
  | 5, _ => by decide
  | 6, _ => by decide
  | 7, _ => by decide
  | 8, _ => by decide
  | 9, _ => by decide
  | _ + 10, h => absurd h (by omega)

/-- A number `%u` writes is an atom the parser reads back. -/
theorem printable_atom_toString (n : Nat) : (ImapArg.atom (toString n)).printable = true := by
  have hmem := mem_toDigitsCore (n + 1) n [] (by simp)
  have hne := toDigitsCore_ne_nil n n []
  show atomText (Nat.toDigits 10 n) = true
  simp only [atomText, Nat.toDigits, Bool.and_eq_true, Bool.not_eq_true', List.isEmpty_eq_false,
    List.all_eq_true, bne_iff_ne, ne_eq]
  refine ⟨⟨hne, fun c hc => ?_⟩, fun h => ?_⟩
  · obtain ⟨k, hk, rfl⟩ := hmem c hc
    simpa using (digitChar_ok hk).1
  · obtain ⟨c, cs, hcs⟩ := List.exists_cons_of_ne_nil hne
    rw [hcs] at h hmem
    obtain ⟨k, hk, rfl⟩ := hmem c (.head _)
    exact (digitChar_ok hk).2.1 (List.cons.inj h).1

/-! ## Lists of pieces -/

/-- Pieces each written after a space. -/
def spacedAfter : List String → String
  | [] => ""
  | t :: ts => " " ++ t ++ spacedAfter ts

/-- Pieces with a space between two of them. -/
def spaced : List String → String
  | [] => ""
  | t :: ts => t ++ spacedAfter ts

theorem itemsText_cons_cons {a b : ImapArg} (ha : a.isEol = false) (hb : b.isEol = false)
    (l : List ImapArg) : itemsText (a :: b :: l) = argText a ++ " " ++ itemsText (b :: l) := by
  rw [itemsText, if_neg (by simp [ha])]
  simp only [hb, Bool.false_eq_true, ↓reduceIte, String.append_assoc]

theorem itemsText_append_eol {items : List ImapArg} (h : ∀ a ∈ items, a.isEol = false) :
    itemsText (items ++ [.eol]) = spaced (items.map argText) := by
  induction items with
  | nil => rfl
  | cons a as ih =>
    have ih := ih (fun x hx => h x (.tail _ hx))
    cases as with
    | nil =>
      rw [List.singleton_append, itemsText, if_neg (by simp [h a (.head _)])]
      simp [ImapArg.isEol, spaced, spacedAfter]
    | cons b bs =>
      rw [List.cons_append, List.cons_append,
        itemsText_cons_cons (h a (.head _)) (h b (.tail _ (.head _))), ← List.cons_append, ih]
      simp [spaced, spacedAfter, String.append_assoc]

theorem pieceOk_printable {t : String} (h : pieceOk t = true) : (textArg t).printable = true :=
  (pieceOk_iff.mp h).1

theorem argText_textArg {t : String} (h : pieceOk t = true) : argText (textArg t) = t :=
  (pieceOk_iff.mp h).2

theorem map_argText_textArg {ts : List String} (h : ∀ t ∈ ts, pieceOk t = true) :
    (ts.map textArg).map argText = ts := by
  rw [List.map_map]
  exact (List.map_congr_left fun t ht => argText_textArg (h t ht)).trans (List.map_id ts)

/-- Pieces in parentheses are the text of the list of their arguments. -/
theorem argText_list_pieces {ts : List String} (h : ∀ t ∈ ts, pieceOk t = true) :
    argText (.list (ts.map textArg ++ [.eol])) = "(" ++ spaced ts ++ ")" := by
  rw [argText, itemsText_append_eol (fun a ha => by
      obtain ⟨t, ht, rfl⟩ := List.mem_map.mp ha
      exact printable_isEol (pieceOk_printable (h t ht))), map_argText_textArg h]

theorem printable_list_pieces {ts : List String} (h : ∀ t ∈ ts, pieceOk t = true) :
    (ImapArg.list (ts.map textArg ++ [.eol])).printable = true := by
  rw [ImapArg.printable, printableItems_append_eol]
  intro a ha
  obtain ⟨t, ht, rfl⟩ := List.mem_map.mp ha
  exact pieceOk_printable (h t ht)

theorem pieceOk_paren {ts : List String} (h : ∀ t ∈ ts, pieceOk t = true) :
    pieceOk ("(" ++ spaced ts ++ ")") = true := by
  rw [← argText_list_pieces h]
  exact pieceOk_argText (printable_list_pieces h)

theorem textArg_paren {ts : List String} (h : ∀ t ∈ ts, pieceOk t = true) :
    textArg ("(" ++ spaced ts ++ ")") = .list (ts.map textArg ++ [.eol]) := by
  rw [← argText_list_pieces h, textArg_argText (printable_list_pieces h)]

theorem LexesTo.piece {t : String} (h : pieceOk t = true) : LexesTo t.data (textArg t).tokens := by
  have hl := LexesTo.arg (pieceOk_printable h)
  rwa [argText_textArg h] at hl

theorem delimited_spacedAfter (ts : List String) : delimited (spacedAfter ts).data = true := by
  cases ts <;> rfl

theorem LexesTo.spacedAfter {ts : List String} (h : ∀ t ∈ ts, pieceOk t = true) :
    LexesTo (spacedAfter ts).data ((ts.map textArg).flatMap ImapArg.tokens) := by
  induction ts with
  | nil => exact fun rest _ => by simp [Dovecot.spacedAfter]
  | cons t ts ih =>
    have hrest := ih (fun x hx => h x (.tail _ hx))
    simp only [Dovecot.spacedAfter, String.data_append, List.map_cons, List.flatMap_cons]
    exact (LexesTo.piece (h t (.head _))).append hrest (delimited_spacedAfter ts) |>.space

/-! ## The pieces of a part -/

/-- The pieces of a single part's basic fields. -/
def basicPieces (data : MessagePartBodyData) (virtualSize : Nat) : List String :=
  [data.contentType.getD "\"text\"", data.contentSubtype.getD "\"plain\"",
    listOrNil data.contentTypeParams, data.contentId.getD "NIL", data.contentDescription.getD "NIL",
    data.contentTransferEncoding.getD "\"8bit\"", toString virtualSize]

/-- The disposition of a single part: `NIL`, or the disposition in a list and
its parameters, if any, in another. -/
def bodyDispositionPieces (data : MessagePartBodyData) : List String :=
  match data.contentDisposition with
  | none => ["NIL"]
  | some d => ("(" ++ d ++ ")") :: (match data.contentDispositionParams with
    | none => []
    | some p => ["(" ++ p ++ ")"])

/-- The pieces of a single part's extension data. -/
def bodyExtensionPieces (data : MessagePartBodyData) : List String :=
  data.contentMd5.getD "NIL" :: bodyDispositionPieces data ++ [listOrNil data.contentLanguage]

/-- The disposition of a multipart: `NIL`, or one list holding the disposition
and its parameters. -/
def multipartDispositionPiece (data : MessagePartBodyData) : String :=
  match data.contentDisposition with
  | none => "NIL"
  | some d => "(" ++ spaced (d :: (match data.contentDispositionParams with
    | none => []
    | some p => ["(" ++ p ++ ")"])) ++ ")"

/-- The pieces of a multipart's extension data. -/
def multipartExtensionPieces (data : MessagePartBodyData) : List String :=
  [listOrNil data.contentTypeParams, multipartDispositionPiece data, listOrNil data.contentLanguage]

theorem bodyBasic_eq (data : MessagePartBodyData) (virtualSize : Nat) :
    bodyBasic data virtualSize = spaced (basicPieces data virtualSize) := by
  simp [bodyBasic, basicPieces, spaced, spacedAfter, String.append_assoc]

theorem bodyExtension_eq (data : MessagePartBodyData) :
    bodyExtension data = spacedAfter (bodyExtensionPieces data) := by
  unfold bodyExtension bodyExtensionPieces bodyDispositionPieces
  cases data.contentDisposition <;> cases data.contentDispositionParams <;>
    simp only [spacedAfter, List.cons_append, List.nil_append, String.append_assoc,
      String.append_empty]
  all_goals rfl

theorem multipartExtension_eq (data : MessagePartBodyData) :
    multipartExtension data = spacedAfter (multipartExtensionPieces data) := by
  unfold multipartExtension multipartExtensionPieces multipartDispositionPiece
  cases data.contentDisposition <;> cases data.contentDispositionParams <;>
    simp only [spaced, spacedAfter, String.append_assoc, String.append_empty]
  all_goals rfl

/-! ## Well-formed metadata -/

/-- Metadata each piece of which is well formed: every field the writers copy
as it is, and every list field in its parentheses, is the text of a printable
argument. -/
def MessagePartBodyData.piecesOk (d : MessagePartBodyData) : Bool :=
  [d.contentType, d.contentSubtype, d.contentTransferEncoding, d.contentId, d.contentDescription,
      d.contentDisposition, d.contentMd5].all (·.all pieceOk) &&
    [d.contentTypeParams, d.contentDispositionParams, d.contentLanguage, d.envelope].all
      (·.all fun t => pieceOk ("(" ++ t ++ ")"))

mutual
/-- Every node of a tree has well-formed metadata, or none. -/
def partPiecesOk : MessagePart → Bool
  | ⟨_, _, _, _, context, children⟩ =>
    context.all MessagePartBodyData.piecesOk && partsPiecesOk children
/-- Every tree of a sibling chain has well-formed metadata. -/
def partsPiecesOk : List MessagePart → Bool
  | [] => true
  | p :: ps => partPiecesOk p && partsPiecesOk ps
end

theorem pieceOk_nil : pieceOk "NIL" = true := by decide

theorem pieceOk_getD {o : Option String} {t : String} (h : o.all pieceOk = true)
    (ht : pieceOk t = true) : pieceOk (o.getD t) = true := by
  cases o
  · exact ht
  · simpa using h

theorem pieceOk_listOrNil {o : Option String} (h : (o.all fun t => pieceOk ("(" ++ t ++ ")")) = true) :
    pieceOk (listOrNil o) = true := by
  cases o
  · exact pieceOk_nil
  · simpa using h

theorem pieceOk_paren_one {t : String} (h : pieceOk t = true) : pieceOk ("(" ++ t ++ ")") = true := by
  simpa [spaced, spacedAfter] using @pieceOk_paren [t] (by simpa using h)

theorem pieceOk_toString (n : Nat) : pieceOk (toString n) = true :=
  (pieceOk_argText (printable_atom_toString n) : pieceOk (argText (.atom (toString n))) = true)

theorem pieceOk_emptyBodystructure : pieceOk emptyBodystructure = true := by decide

section Data

variable {d : MessagePartBodyData} (h : d.piecesOk = true)
include h

theorem piecesOk_quoted : ∀ o ∈ [d.contentType, d.contentSubtype, d.contentTransferEncoding,
    d.contentId, d.contentDescription, d.contentDisposition, d.contentMd5], o.all pieceOk = true := by
  simp only [MessagePartBodyData.piecesOk, Bool.and_eq_true, List.all_eq_true] at h
  exact h.1

theorem piecesOk_lists : ∀ o ∈ [d.contentTypeParams, d.contentDispositionParams, d.contentLanguage,
    d.envelope], (o.all fun t => pieceOk ("(" ++ t ++ ")")) = true := by
  simp only [MessagePartBodyData.piecesOk, Bool.and_eq_true, List.all_eq_true] at h
  exact h.2

theorem basicPieces_ok (virtualSize : Nat) : ∀ t ∈ basicPieces d virtualSize, pieceOk t = true := by
  have q := piecesOk_quoted h
  have l := piecesOk_lists h
  simp only [basicPieces, List.forall_mem_cons, List.not_mem_nil, IsEmpty.forall_iff,
    implies_true, and_true]
  simp only [List.mem_cons, List.not_mem_nil, or_false, forall_eq_or_imp, forall_eq] at q l
  exact ⟨pieceOk_getD q.1 (by decide), pieceOk_getD q.2.1 (by decide), pieceOk_listOrNil l.1,
    pieceOk_getD q.2.2.2.1 (by decide), pieceOk_getD q.2.2.2.2.1 (by decide),
    pieceOk_getD q.2.2.1 (by decide), pieceOk_toString virtualSize⟩

theorem bodyExtensionPieces_ok : ∀ t ∈ bodyExtensionPieces d, pieceOk t = true := by
  have q := piecesOk_quoted h
  have l := piecesOk_lists h
  simp only [List.mem_cons, List.not_mem_nil, or_false, forall_eq_or_imp, forall_eq] at q l
  obtain ⟨-, -, -, -, -, hdisp, hmd5⟩ := q
  obtain ⟨-, hdp, hlang, -⟩ := l
  simp only [bodyExtensionPieces, bodyDispositionPieces, List.cons_append, List.forall_mem_cons,
    List.forall_mem_append, List.not_mem_nil, false_implies, implies_true, and_true]
  refine ⟨pieceOk_getD hmd5 pieceOk_nil, ?_, pieceOk_listOrNil hlang⟩
  cases hd : d.contentDisposition with
  | none => simp [pieceOk_nil]
  | some t =>
    rw [hd, Option.all_some] at hdisp
    cases hp : d.contentDispositionParams <;> simp_all [pieceOk_paren_one]

theorem multipartExtensionPieces_ok : ∀ t ∈ multipartExtensionPieces d, pieceOk t = true := by
  have q := piecesOk_quoted h
  have l := piecesOk_lists h
  simp only [List.mem_cons, List.not_mem_nil, or_false, forall_eq_or_imp, forall_eq] at q l
  obtain ⟨-, -, -, -, -, hdisp, -⟩ := q
  obtain ⟨hparams, hdp, hlang, -⟩ := l
  simp only [multipartExtensionPieces, List.forall_mem_cons, List.not_mem_nil, false_implies,
    implies_true, and_true]
  refine ⟨pieceOk_listOrNil hparams, ?_, pieceOk_listOrNil hlang⟩
  unfold multipartDispositionPiece
  cases hd : d.contentDisposition with
  | none => exact pieceOk_nil
  | some t =>
    rw [hd, Option.all_some] at hdisp
    apply pieceOk_paren
    cases hp : d.contentDispositionParams <;> simp_all

end Data

theorem pieceOk_envelopeOrNil {context : Option MessagePartBodyData}
    (h : context.all MessagePartBodyData.piecesOk = true) : pieceOk (envelopeOrNil context) = true := by
  match context, h with
  | some { envelope := some e, .. }, h =>
    rw [Option.all_some] at h
    simpa using piecesOk_lists h (some e) (by simp)
  | some { envelope := none, .. }, _ => exact pieceOk_nil
  | none, _ => exact pieceOk_nil

/-! ## The arguments of a tree -/

mutual
/-- The arguments the text of a sibling chain stands for: each part, in
parentheses, is one list. -/
def partsArgs (ext : Bool) : List MessagePart → List ImapArg
  | [] => []
  | p :: ps => .list (partItems ext p ++ [.eol]) :: partsArgs ext ps
/-- The arguments the text of one part stands for, in the order
`part_write_body_multipart` and `part_write_body` write their pieces. -/
def partItems (ext : Bool) : MessagePart → List ImapArg
  | ⟨.multipart, _, _, _, context, children⟩ =>
    (if children.isEmpty then [textArg emptyBodystructure] else partsArgs ext children) ++
      ((context.getD {}).contentSubtype.getD "" ::
        if ext then multipartExtensionPieces (context.getD {}) else []).map textArg
  | ⟨flags, _, virtualSize, lines, context, children⟩ =>
    (basicPieces (context.getD {}) virtualSize).map textArg ++
      (match flags, children with
        | .text, _ => [textArg (toString lines)]
        | .messageRfc822, [child] => [textArg (envelopeOrNil child.context),
            .list (partItems ext child ++ [.eol]), textArg (toString lines)]
        | _, _ => []) ++
      (if ext then bodyExtensionPieces (context.getD {}) else []).map textArg
end

/-- Text the scanner turns into the tokens of `items`, each printable: the
parser reads `items` back from it. -/
def ItemsOf (t : String) (items : List ImapArg) : Prop :=
  LexesTo t.data (items.flatMap ImapArg.tokens) ∧ ∀ a ∈ items, a.printable = true

namespace ItemsOf

variable {t t' : String} {items items' : List ImapArg}

theorem nil : ItemsOf "" [] := ⟨fun _ _ => by simp, by simp⟩

theorem append (h : ItemsOf t items) (h' : ItemsOf t' items') (hd : delimited t'.data = true) :
    ItemsOf (t ++ t') (items ++ items') := by
  refine ⟨?_, fun a ha => (List.mem_append.mp ha).elim (h.2 a) (h'.2 a)⟩
  rw [String.data_append, List.flatMap_append]
  exact h.1.append h'.1 hd

theorem space (h : ItemsOf t items) : ItemsOf (" " ++ t) items := ⟨h.1.space, h.2⟩

theorem list (h : ItemsOf t items) : ItemsOf ("(" ++ t ++ ")") [.list (items ++ [.eol])] := by
  refine ⟨?_, by simpa using printableItems_append_eol h.2⟩
  simpa using h.1.list h.2

theorem piece (h : pieceOk t = true) : ItemsOf t [textArg t] :=
  ⟨by simpa using LexesTo.piece h, by simpa using pieceOk_printable h⟩

/-- A number after a space, as the writers write sizes and line counts. -/
theorem number (n : Nat) : ItemsOf (" " ++ toString n) [textArg (toString n)] :=
  (piece (pieceOk_toString n)).space

theorem spacedAfter {ts : List String} (h : ∀ t ∈ ts, pieceOk t = true) :
    ItemsOf (spacedAfter ts) (ts.map textArg) := by
  refine ⟨LexesTo.spacedAfter h, ?_⟩
  simp only [List.mem_map, forall_exists_index, and_imp, forall_apply_eq_imp_iff₂]
  exact fun t ht => pieceOk_printable (h t ht)

theorem spaced {ts : List String} (h : ∀ t ∈ ts, pieceOk t = true) :
    ItemsOf (spaced ts) (ts.map textArg) := by
  cases ts with
  | nil => exact nil
  | cons t ts =>
    rw [List.forall_mem_cons] at h
    exact (piece h.1).append (spacedAfter h.2) (delimited_spacedAfter ts)

end ItemsOf

/-! ## The writers' output stands for the arguments of the tree -/

theorem partPiecesOk_context {p : MessagePart} (h : partPiecesOk p = true) :
    p.context.all MessagePartBodyData.piecesOk = true := by
  obtain ⟨_, _, _, _, _, _⟩ := p
  simp only [partPiecesOk, Bool.and_eq_true] at h
  exact h.1

theorem piecesOk_getD_empty {context : Option MessagePartBodyData}
    (h : context.all MessagePartBodyData.piecesOk = true) : (context.getD {}).piecesOk = true := by
  cases context
  · rfl
  · simpa using h

/-- A single part's text is its basic fields, its trailer and its extension. -/
theorem body_itemsOf {data : MessagePartBodyData} (hd : data.piecesOk = true) (virtualSize : Nat)
    {trailer : String} {items : List ImapArg} (ht : ItemsOf trailer items)
    (hdl : delimited trailer.data = true) (ext : Bool) :
    ItemsOf (bodyBasic data virtualSize ++ trailer ++ if ext then bodyExtension data else "")
      ((basicPieces data virtualSize).map textArg ++ items ++
        (if ext then bodyExtensionPieces data else []).map textArg) := by
  have he : ItemsOf (if ext then bodyExtension data else "")
      ((if ext then bodyExtensionPieces data else []).map textArg) := by
    cases ext
    · exact .nil
    · simpa [bodyExtension_eq] using ItemsOf.spacedAfter (bodyExtensionPieces_ok hd)
  rw [bodyBasic_eq]
  refine ((ItemsOf.spaced (basicPieces_ok hd virtualSize)).append ht hdl).append he ?_
  cases ext
  · rfl
  · simpa [bodyExtension_eq] using delimited_spacedAfter (bodyExtensionPieces data)

/-- A multipart's text is its children, its subtype and its extension. -/
theorem multipart_itemsOf {data : MessagePartBodyData} (hd : data.piecesOk = true)
    {subtype : String} (hs : data.contentSubtype = some subtype) {kids : String}
    {items : List ImapArg} (hk : ItemsOf kids items) (ext : Bool) :
    ItemsOf (kids ++ " " ++ subtype ++ if ext then multipartExtension data else "")
      (items ++ (subtype :: if ext then multipartExtensionPieces data else []).map textArg) := by
  have hsub : pieceOk subtype = true := by
    simpa [hs] using piecesOk_quoted hd data.contentSubtype (by simp)
  have hpieces : ∀ t ∈ subtype :: (if ext then multipartExtensionPieces data else []),
      pieceOk t = true := by
    cases ext
    · simpa using hsub
    · simpa [hsub] using multipartExtensionPieces_ok hd
  have heq : kids ++ " " ++ subtype ++ (if ext then multipartExtension data else "") =
      kids ++ Dovecot.spacedAfter (subtype :: if ext then multipartExtensionPieces data else []) := by
    cases ext <;> simp [Dovecot.spacedAfter, multipartExtension_eq, String.append_assoc]
  rw [heq]
  exact hk.append (.spacedAfter hpieces) (delimited_spacedAfter _)

mutual
/-- The text of a sibling chain with a parent stands for its arguments. -/
theorem partWriteBodystructure_itemsOf (ext : Bool) : ∀ ps : List MessagePart,
    partsPiecesOk ps = true → ∀ t, partWriteBodystructure ext true ps = some t →
      ItemsOf t (partsArgs ext ps) ∧ delimited t.data = true
  | [], _, t, h => by
    cases h
    exact ⟨.nil, rfl⟩
  | p :: ps, hok, t, h => by
    simp only [partsPiecesOk, Bool.and_eq_true] at hok
    have hm := partWriteBodyMultipart_itemsOf ext p
    have hb := partWriteBody_itemsOf ext p
    have hr := partWriteBodystructure_itemsOf ext ps hok.2
    simp only [partWriteBodystructure, Bool.true_or, guard, if_true, pure_bind, true_and,
      exists_const, Option.bind_eq_bind, Option.bind_eq_some, Option.pure_def,
      Option.some.injEq] at h
    obtain ⟨b, hb', r, hr', rfl⟩ := h
    have hnode : ItemsOf b (partItems ext p) := by
      obtain ⟨flags, pos, virtualSize, lines, context, children⟩ := p
      cases flags
      case multipart => exact hm rfl hok.1 b hb'
      all_goals exact hb nofun hok.1 b hb'
    exact ⟨hnode.list.append (hr r hr').1 (hr r hr').2, rfl⟩
/-- The text of a multipart stands for its arguments. -/
theorem partWriteBodyMultipart_itemsOf (ext : Bool) : ∀ p : MessagePart, p.flags = .multipart →
    partPiecesOk p = true → ∀ t, partWriteBodyMultipart ext p = some t → ItemsOf t (partItems ext p)
  | ⟨_, _, _, _, context, children⟩, hf, hok, t, h => by
    simp only [partPiecesOk, Bool.and_eq_true] at hok
    have hk := partWriteBodystructure_itemsOf ext children hok.2
    subst hf
    simp only [partWriteBodyMultipart, pure_bind, Option.bind_eq_bind, Option.bind_eq_some,
      Option.pure_def, Option.some.injEq] at h
    obtain ⟨data, rfl, h⟩ := h
    have hd : data.piecesOk = true := by simpa using hok.1
    simp only [partItems, Option.getD_some]
    by_cases hc : children.isEmpty = true
    · simp only [hc, ↓reduceIte, Option.pure_def, Option.some_bind, Option.bind_eq_some,
        Option.some.injEq] at h ⊢
      obtain ⟨subtype, hs, rfl⟩ := h
      rw [hs, Option.getD_some]
      exact multipart_itemsOf hd hs (.piece pieceOk_emptyBodystructure) ext
    · simp only [hc, Bool.false_eq_true, ↓reduceIte, Option.bind_eq_some, Option.some.injEq] at h ⊢
      obtain ⟨kids, hkids, subtype, hs, rfl⟩ := h
      rw [hs, Option.getD_some]
      exact multipart_itemsOf hd hs (hk kids hkids).1 ext
/-- The text of a single part stands for its arguments. -/
theorem partWriteBody_itemsOf (ext : Bool) : ∀ p : MessagePart, p.flags ≠ .multipart →
    partPiecesOk p = true → ∀ t, partWriteBody ext p = some t → ItemsOf t (partItems ext p)
  | ⟨flags, _, virtualSize, lines, context, children⟩, hf, hok, t, h => by
    simp only [partPiecesOk, Bool.and_eq_true] at hok
    have hk := partWriteBodystructure_itemsOf ext children hok.2
    have hd := piecesOk_getD_empty hok.1
    cases flags
    case multipart => exact absurd rfl hf
    case text =>
      simp only [partWriteBody, Option.pure_def, Option.bind_eq_bind, Option.some_bind,
        Option.some.injEq] at h
      subst h
      simp only [partItems]
      exact body_itemsOf hd virtualSize (.number lines) rfl ext
    case other =>
      simp only [partWriteBody, Option.pure_def, Option.bind_eq_bind, Option.some_bind,
        Option.some.injEq] at h
      subst h
      simp only [partItems]
      exact body_itemsOf hd virtualSize .nil rfl ext
    case messageRfc822 =>
      match children, hok, hk, h with
      | [child], hok, hk, h =>
        simp only [partWriteBody, pure_bind, Option.bind_eq_bind, Option.bind_eq_some,
          Option.pure_def, Option.some.injEq] at h
        obtain ⟨_, ⟨body, hbody, rfl⟩, rfl⟩ := h
        have henv : pieceOk (envelopeOrNil child.context) = true := by
          simp only [partsPiecesOk, Bool.and_eq_true] at hok
          exact pieceOk_envelopeOrNil (partPiecesOk_context hok.2.1)
        have htr := ((ItemsOf.piece henv).space.append (hk body hbody).1.space rfl).append
          (.number lines) rfl
        simp only [partsArgs, List.singleton_append, List.cons_append, List.nil_append] at htr
        simp only [partItems]
        simpa only [String.append_assoc] using body_itemsOf hd virtualSize htr rfl ext
end

/-- The text of a root part stands for its arguments. -/
theorem partGetBodystructure_itemsOf {part : MessagePart} (hok : partPiecesOk part = true)
    {ext : Bool} {t : String} (h : partGetBodystructure part ext = some t) :
    ItemsOf t (partItems ext part) := by
  simp only [partGetBodystructure, partWriteBodystructure, List.isEmpty_nil, Bool.or_true, guard,
    ↓reduceIte, Option.pure_def, Option.bind_eq_bind, Option.some_bind, Option.bind_eq_some,
    Option.some.injEq, Bool.false_eq_true, String.append_empty, exists_eq_left] at h
  obtain ⟨b, hb, rfl⟩ := h
  obtain ⟨flags, pos, virtualSize, lines, context, children⟩ := part
  cases flags
  case multipart => exact partWriteBodyMultipart_itemsOf ext _ rfl hok b hb
  all_goals exact partWriteBody_itemsOf ext _ MessagePartFlag.noConfusion hok b hb

/-- **The parser reads the serializer's output back as the arguments of the
tree.** For a tree with well-formed metadata, the text `part_get_bodystructure`
writes parses to the arguments `partItems` lists for the root. -/
theorem imapParserReadArgs_partGetBodystructure {part : MessagePart}
    (hok : partPiecesOk part = true) {ext : Bool} {t : String}
    (h : partGetBodystructure part ext = some t) :
    imapParserReadArgs t = some (partItems ext part ++ [.eol]) :=
  imapParserReadArgs_of_lexesTo (partGetBodystructure_itemsOf hok h).1
    (partGetBodystructure_itemsOf hok h).2

end Dovecot
