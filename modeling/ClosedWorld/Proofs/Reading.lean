import ClosedWorld.Proofs.Lexing

/-!
# Reading back a tree

The machine that puts tokens together has a stack, and the tokens of one tree
leave the stack below them alone: they end where putting the whole tree at once
ends (`Json.foldlM_tokens`). That holds wherever a value may stand, so it goes
through the containers of the tree by induction, and on the empty stack it says
that the text of a tree reads as that tree.
-/

namespace ClosedWorld.Json

namespace Reader

/-- Where a value may be put, a container may be opened. -/
theorem nest_of_put {value : Json} {stack : List Frame} {r : Reader} (h : put value stack = some r)
    (frame : Frame) : nest frame stack = some (.within (frame :: stack)) := by
  cases stack with
  | nil => rfl
  | cons top stack =>
      cases top with
      | arrOpen | arrComma | objColon => rfl
      | arrItem | objOpen | objKey | objMember | objComma => cases h

/-- Where a value may be put, a string is one. -/
theorem putString_of_put {value : Literal} {stack : List Frame} {r : Reader}
    (h : put (.str value) stack = some r) : putString value stack = some r := by
  cases stack with
  | nil => exact h
  | cons top stack =>
      cases top with
      | arrOpen | arrComma | objColon => exact h
      | arrItem | objOpen | objKey | objMember | objComma => cases h

theorem foldlM_cons_ok {stack : List Frame} {r : Reader} (token : Token)
    (h : nextWithin stack token = some r) (ts : List Token) :
    (token :: ts).foldlM next (.within stack) = ts.foldlM next r := by
  rw [List.foldlM_cons, next, h]
  rfl

theorem foldlM_append_ok {ts us : List Token} {r r' : Reader} (h : ts.foldlM next r = .ok r') :
    (ts ++ us).foldlM next r = us.foldlM next r' := by
  rw [List.foldlM_append, h]
  rfl

mutual

theorem foldlM_tokens (j : Json) {stack : List Frame} {r : Reader} (h : put j stack = some r) :
    j.tokens.foldlM next (.within stack) = .ok r := by
  match j with
  | .null =>
      rw [tokens, foldlM_cons_ok .null h]
      rfl
  | .bool value =>
      rw [tokens, foldlM_cons_ok (.bool value) h]
      rfl
  | .num value =>
      rw [tokens, foldlM_cons_ok (.num value) h]
      rfl
  | .str value =>
      rw [tokens, foldlM_cons_ok (.str value) (putString_of_put h)]
      rfl
  | .arr [] =>
      have hclose : nextWithin (.arrOpen :: stack) .closeArr = some r := h
      rw [tokens, foldlM_cons_ok .openArr (nest_of_put h .arrOpen),
        foldlM_cons_ok .closeArr hclose]
      rfl
  | .arr (item :: items) =>
      have hclose :
          nextWithin (.arrItem (items.reverse ++ [item]) :: stack) .closeArr = some r := by
        rw [nextWithin, List.reverse_append, List.reverse_reverse]
        exact h
      rw [tokens, List.cons_append, List.cons_append,
        foldlM_cons_ok .openArr (nest_of_put h .arrOpen), List.append_assoc,
        foldlM_append_ok (foldlM_tokens item rfl), foldlM_append_ok (foldlM_itemTokens items),
        foldlM_cons_ok .closeArr hclose]
      rfl
  | .obj [] =>
      have hclose : nextWithin (.objOpen :: stack) .closeObj = some r := h
      rw [tokens, foldlM_cons_ok .openObj (nest_of_put h .objOpen),
        foldlM_cons_ok .closeObj hclose]
      rfl
  | .obj ((key, value) :: members) =>
      have hclose : nextWithin (.objMember (members.reverse ++ [(key, value)]) :: stack) .closeObj =
          some r := by
        rw [nextWithin, List.reverse_append, List.reverse_reverse]
        exact h
      rw [tokens, List.cons_append, List.cons_append, List.cons_append, List.cons_append,
        List.cons_append, List.cons_append, foldlM_cons_ok .openObj (nest_of_put h .objOpen),
        foldlM_cons_ok (.str key) rfl, foldlM_cons_ok .colon rfl, List.append_assoc,
        foldlM_append_ok (foldlM_tokens value rfl), foldlM_append_ok (foldlM_memberTokens members),
        foldlM_cons_ok .closeObj hclose]
      rfl

theorem foldlM_itemTokens (items : List Json) {done : List Json} {stack : List Frame} :
    (itemTokens items).foldlM next (.within (.arrItem done :: stack)) =
      .ok (.within (.arrItem (items.reverse ++ done) :: stack)) := by
  match items with
  | [] => rfl
  | item :: items =>
      rw [itemTokens, List.cons_append, foldlM_cons_ok .comma rfl,
        foldlM_append_ok (foldlM_tokens item rfl), foldlM_itemTokens items, List.reverse_cons,
        List.append_assoc, List.singleton_append]

theorem foldlM_memberTokens (members : List (Literal × Json)) {done : List (Literal × Json)}
    {stack : List Frame} :
    (memberTokens members).foldlM next (.within (.objMember done :: stack)) =
      .ok (.within (.objMember (members.reverse ++ done) :: stack)) := by
  match members with
  | [] => rfl
  | (key, value) :: members =>
      rw [memberTokens, List.cons_append, List.cons_append, List.cons_append,
        foldlM_cons_ok .comma rfl, foldlM_cons_ok (.str key) rfl, foldlM_cons_ok .colon rfl,
        foldlM_append_ok (foldlM_tokens value rfl), foldlM_memberTokens members, List.reverse_cons,
        List.append_assoc, List.singleton_append]

end

end Reader

/-- A tree is read back from its text, in whatever layout it was written. -/
theorem read_chars {l : Layout} (hl : l.Blank) (depth : Nat) (j : Json) :
    read (String.ofList (j.chars l depth)) = .whole j := by
  have htree : j.tokens.foldlM Reader.next (.within []) = .ok (.complete j) :=
    Reader.foldlM_tokens j rfl
  rw [read, String.toList_ofList, lex_chars hl]
  simp only [htree, if_true]

theorem read_pretty (j : Json) : read j.pretty = .whole j := read_chars Layout.blank_pretty 0 j

theorem read_compact (j : Json) : read j.compact = .whole j := read_chars Layout.blank_compact 0 j

theorem read?_pretty (j : Json) : read? j.pretty = some j := by
  rw [read?, read_pretty]

theorem read?_compact (j : Json) : read? j.compact = some j := by
  rw [read?, read_compact]

end ClosedWorld.Json
