import Dovecot.Bodystructure.HeaderFold
/-!
`imap_part_get_bodystructure` on a cached part tree. With a tree that
`message_parse` built earlier, `part_parse_headers` walks it, skips the stream
to each part's header and hands its lines to `parse_header`; without one, the
whole message is parsed again.

A message is what both paths read from the stream: the part tree
`message_parse` builds, and the header that starts at each offset, as
`message_parse_header` reads it (its lines and its size). Offsets are
relative to the message start, `inbuf->v_offset - start_offset`.
`message_parse` is a collaborator: `messageParsePart` models it from the spec,
building the tree and delivering each part's header lines to `parse_header`,
in order, from no metadata.

When the tree has no metadata and its headers lie in document order, each
after the end of the one before in pre-order, the walk never fails its
assertion, visits each part once in pre-order, and leaves every part the
metadata the full parse gives it, so both paths write the same text.
-/

namespace Dovecot

/-- What `message_parse` and `message_parse_header` read from one message: its
part tree, and the lines and size of the header that starts at each offset. -/
structure Message where
  parts : MessagePart
  headerAt : Nat → List (String × String) × Nat

variable (c : HeaderCollab) (m : Message)

/-! ## The two paths -/

mutual
/-- `part_parse_headers`: each part of a sibling chain in turn, from the
stream offset `offset`. It returns the parts with their new metadata, the
offset after the last header read, and the parts visited, in order; `none` is
a failed `i_assert`. -/
def partParseHeaders (parentRfc822 : Bool) :
    List MessagePart → Nat → Option (List MessagePart × Nat × List MessagePart)
  | [], offset => some ([], offset, [])
  | part :: next, offset => do
    let (part', offset, visited) ← partParseHeader parentRfc822 part offset
    let (next', offset, visited') ← partParseHeaders parentRfc822 next offset
    pure (part' :: next', offset, visited ++ visited')
/-- One pass of its loop: the assertion, the skip to the part's header,
`message_parse_header` with `parse_header` on it, then the children. -/
def partParseHeader (parentRfc822 : Bool) :
    MessagePart → Nat → Option (MessagePart × Nat × List MessagePart)
  | part@⟨flags, physicalPos, virtualSize, lines, context, children⟩, offset => do
    guard (offset ≤ physicalPos)
    let header := m.headerAt physicalPos
    let context := parseHeaders c parentRfc822 context header.1
    let (children', offset, visited) ←
      partParseHeaders (flags == .messageRfc822) children (physicalPos + header.2)
    pure (⟨flags, physicalPos, virtualSize, lines, context, children'⟩, offset, part :: visited)
end

mutual
/-- Modelled from the spec: what `message_parse` with `parse_header` leaves on
a sibling chain. -/
def messageParseParts (parentRfc822 : Bool) : List MessagePart → List MessagePart
  | [] => []
  | part :: next => messageParsePart parentRfc822 part :: messageParseParts parentRfc822 next
/-- Modelled from the spec: one part, its header's lines delivered to
`parse_header` in order from no metadata. -/
def messageParsePart (parentRfc822 : Bool) : MessagePart → MessagePart
  | ⟨flags, physicalPos, virtualSize, lines, _, children⟩ =>
    ⟨flags, physicalPos, virtualSize, lines,
      parseHeaders c parentRfc822 none (m.headerAt physicalPos).1,
      messageParseParts (flags == .messageRfc822) children⟩
end

/-- `imap_part_get_bodystructure`: with no cached tree (`*part == NULL`) the
message is parsed in full; with one, `part_parse_headers` fills it in from
the start of the message. -/
def imapPartGetBodystructure (part : Option MessagePart) (extended : Bool) : Option String :=
  match part with
  | none => partGetBodystructure (messageParsePart c m false m.parts) extended
  | some part => do
    let (parts, _, _) ← partParseHeaders c m false [part] 0
    match parts with
    | [part] => partGetBodystructure part extended
    | _ => none

/-! ## Document order -/

mutual
/-- The parts of a sibling chain in pre-order. -/
def partsPreorder : List MessagePart → List MessagePart
  | [] => []
  | part :: next => partPreorder part ++ partsPreorder next
/-- A part, then its children in pre-order. -/
def partPreorder : MessagePart → List MessagePart
  | part@⟨_, _, _, _, _, children⟩ => part :: partsPreorder children
end

/-- The headers of `parts`, in this order, each start at or after the offset
where the one before ends, the first at or after `offset`. -/
def headersInOrder : Nat → List MessagePart → Bool
  | _, [] => true
  | offset, part :: rest => offset ≤ part.physicalPos &&
    headersInOrder (part.physicalPos + (m.headerAt part.physicalPos).2) rest

/-- The offset where the last header of `parts` ends, `offset` if there is none. -/
def headersEnd : Nat → List MessagePart → Nat
  | offset, [] => offset
  | _, part :: rest => headersEnd (part.physicalPos + (m.headerAt part.physicalPos).2) rest

theorem headersEnd_append (l₁ l₂ : List MessagePart) (offset : Nat) :
    headersEnd m offset (l₁ ++ l₂) = headersEnd m (headersEnd m offset l₁) l₂ := by
  induction l₁ generalizing offset with
  | nil => rfl
  | cons part rest ih => exact ih _

theorem headersInOrder_append (l₁ l₂ : List MessagePart) (offset : Nat) :
    headersInOrder m offset (l₁ ++ l₂) =
      (headersInOrder m offset l₁ && headersInOrder m (headersEnd m offset l₁) l₂) := by
  induction l₁ generalizing offset with
  | nil => rfl
  | cons part rest ih =>
    rw [List.cons_append, headersInOrder, ih, headersInOrder, headersEnd, Bool.and_assoc]

/-! ## The cached walk is the full parse -/

mutual
/-- On a sibling chain without metadata whose headers lie in order from
`offset`, the walk passes every assertion, leaves each part the metadata the
full parse gives it, ends where the last header ends, and visits the parts in
pre-order. -/
theorem partParseHeaders_eq (parentRfc822 : Bool) : ∀ (parts : List MessagePart) (offset : Nat),
    headersInOrder m offset (partsPreorder parts) = true →
    (∀ q ∈ partsPreorder parts, q.context = none) →
    partParseHeaders c m parentRfc822 parts offset =
      some (messageParseParts c m parentRfc822 parts, headersEnd m offset (partsPreorder parts),
        partsPreorder parts)
  | [], _, _, _ => rfl
  | part :: next, offset, horder, hnone => by
    rw [partsPreorder, headersInOrder_append, Bool.and_eq_true] at horder
    simp only [partsPreorder, List.mem_append] at hnone
    have hpart := partParseHeader_eq parentRfc822 part offset horder.1 (fun q hq => hnone q (.inl hq))
    have hnext := partParseHeaders_eq parentRfc822 next _ horder.2 (fun q hq => hnone q (.inr hq))
    simp only [partParseHeaders, hpart, Option.bind_eq_bind, Option.some_bind, hnext,
      partsPreorder, headersEnd_append, messageParseParts]
    rfl
/-- One part: its header, then its children. -/
theorem partParseHeader_eq (parentRfc822 : Bool) : ∀ (part : MessagePart) (offset : Nat),
    headersInOrder m offset (partPreorder part) = true →
    (∀ q ∈ partPreorder part, q.context = none) →
    partParseHeader c m parentRfc822 part offset =
      some (messageParsePart c m parentRfc822 part, headersEnd m offset (partPreorder part),
        partPreorder part)
  | ⟨flags, physicalPos, virtualSize, lines, context, children⟩, offset, horder, hnone => by
    simp only [partPreorder, headersInOrder, Bool.and_eq_true, decide_eq_true_eq] at horder
    simp only [partPreorder, List.mem_cons, forall_eq_or_imp] at hnone
    have hkids := partParseHeaders_eq (flags == .messageRfc822) children _ horder.2 hnone.2
    obtain rfl : context = none := hnone.1
    simp only [partParseHeader, horder.1, guard, ↓reduceIte, hkids, partPreorder, headersEnd,
      messageParsePart]
    rfl
end

/-- **The cached path writes what the full parse writes.** For a message whose
cached tree has no metadata and whose headers lie in document order,
`part_parse_headers` passes every assertion (no skip is negative), visits each
part exactly once in pre-order, and leaves each part the metadata the full
parse gives it; so `imap_part_get_bodystructure` returns the same text on both
paths. -/
theorem imapPartGetBodystructure_cached (extended : Bool)
    (hnone : ∀ q ∈ partPreorder m.parts, q.context = none)
    (horder : headersInOrder m 0 (partPreorder m.parts) = true) :
    partParseHeaders c m false [m.parts] 0 =
        some ([messageParsePart c m false m.parts], headersEnd m 0 (partPreorder m.parts),
          partPreorder m.parts) ∧
      imapPartGetBodystructure c m (some m.parts) extended =
        imapPartGetBodystructure c m none extended := by
  have h := partParseHeaders_eq c m false [m.parts] 0
    (by simpa [partsPreorder] using horder) (by simpa [partsPreorder] using hnone)
  simp only [partsPreorder, List.append_nil, messageParseParts] at h
  refine ⟨h, ?_⟩
  simp only [imapPartGetBodystructure, h, Option.bind_eq_bind, Option.some_bind]

/-- A multipart message of two text parts: its own header at offset 0 is 40
bytes long, the parts' headers start at 60 and 120 and are 20 bytes long. -/
def twoPartMessage : Message where
  parts := ⟨.multipart, 0, 200, 10, none, [⟨.text, 60, 30, 2, none, []⟩, ⟨.text, 120, 30, 2, none, []⟩]⟩
  headerAt offset :=
    if offset = 0 then ([("Content-Type", "multipart/mixed")], 40)
    else ([("Content-Type", "text/plain")], 20)

theorem imapPartGetBodystructure_cached_twoParts :
    (∀ q ∈ partPreorder twoPartMessage.parts, q.context = none) ∧
    headersInOrder twoPartMessage 0 (partPreorder twoPartMessage.parts) = true ∧
    (partParseHeaders atomCollab twoPartMessage false [twoPartMessage.parts] 0 =
        some ([messageParsePart atomCollab twoPartMessage false twoPartMessage.parts],
          headersEnd twoPartMessage 0 (partPreorder twoPartMessage.parts),
          partPreorder twoPartMessage.parts) ∧
      imapPartGetBodystructure atomCollab twoPartMessage (some twoPartMessage.parts) true =
        imapPartGetBodystructure atomCollab twoPartMessage none true) :=
  ⟨by decide, by decide, imapPartGetBodystructure_cached atomCollab twoPartMessage true (by decide) (by decide)⟩

end Dovecot
