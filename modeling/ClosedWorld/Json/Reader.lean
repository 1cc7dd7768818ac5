import ClosedWorld.Json.Token

/-!
# Reading tokens into a tree

Tokens are put together by a machine with a stack of unfinished containers, one
token at a time, so nesting costs stack entries and no recursion. What may come
next is a property of the container on top, and it is part of that container's
constructor.

A text that is not JSON has no tree, but it may have a beginning that does: the
members of the outermost container that were complete before the fault. A
decoder that works through them in order finds there the errors which come
before the fault, and reports those.
-/

namespace ClosedWorld.Json

/-- An unfinished container, its parts so far listed last one first. -/
inductive Frame where
  /-- An item or the end may come. -/
  | arrOpen
  /-- A comma or the end may come. -/
  | arrItem (items : List Json)
  /-- An item must come. -/
  | arrComma (items : List Json)
  /-- A key or the end may come. -/
  | objOpen
  /-- A colon must come. -/
  | objKey (members : List (Literal × Json)) (key : Literal)
  /-- A value must come. -/
  | objColon (members : List (Literal × Json)) (key : Literal)
  /-- A comma or the end may come. -/
  | objMember (members : List (Literal × Json))
  /-- A key must come. -/
  | objComma (members : List (Literal × Json))
  deriving Inhabited

/-- Where the reading of a document stands. -/
inductive Reader where
  /-- Inside the containers of the stack, the innermost first. -/
  | within (stack : List Frame)
  /-- The document is complete. -/
  | complete (value : Json)
  deriving Inhabited

namespace Reader

/-- Puts a value where the innermost container wants one. -/
def put (value : Json) : List Frame → Option Reader
  | [] => some (.complete value)
  | .arrOpen :: stack => some (.within (.arrItem [value] :: stack))
  | .arrComma items :: stack => some (.within (.arrItem (value :: items) :: stack))
  | .objColon members key :: stack => some (.within (.objMember ((key, value) :: members) :: stack))
  | _ => none

/-- Opens a container where the innermost one wants a value. -/
def nest (frame : Frame) : List Frame → Option Reader
  | [] => some (.within [frame])
  | .arrOpen :: stack => some (.within (frame :: .arrOpen :: stack))
  | .arrComma items :: stack => some (.within (frame :: .arrComma items :: stack))
  | .objColon members key :: stack => some (.within (frame :: .objColon members key :: stack))
  | _ => none

/-- A string, which is a key where one may come and else a value. -/
def putString (value : Literal) : List Frame → Option Reader
  | .objOpen :: stack => some (.within (.objKey [] value :: stack))
  | .objComma members :: stack => some (.within (.objKey members value :: stack))
  | stack => put (.str value) stack

/-- Reads one token inside the containers of a stack. -/
def nextWithin (stack : List Frame) : Token → Option Reader
  | .openArr => nest .arrOpen stack
  | .openObj => nest .objOpen stack
  | .null => put .null stack
  | .bool value => put (.bool value) stack
  | .num value => put (.num value) stack
  | .str value => putString value stack
  | .comma =>
      match stack with
      | .arrItem items :: stack => some (.within (.arrComma items :: stack))
      | .objMember members :: stack => some (.within (.objComma members :: stack))
      | _ => none
  | .colon =>
      match stack with
      | .objKey members key :: stack => some (.within (.objColon members key :: stack))
      | _ => none
  | .closeArr =>
      match stack with
      | .arrOpen :: stack => put (.arr []) stack
      | .arrItem items :: stack => put (.arr items.reverse) stack
      | _ => none
  | .closeObj =>
      match stack with
      | .objOpen :: stack => put (.obj []) stack
      | .objMember members :: stack => put (.obj members.reverse) stack
      | _ => none

/-- Reads one token. The error is the state that the token does not fit. -/
def next (r : Reader) (token : Token) : Except Reader Reader :=
  match r with
  | .complete _ => .error r
  | .within stack =>
      match nextWithin stack token with
      | some r => .ok r
      | none => .error r

/-- The complete parts of the outermost container. -/
def finished : Reader → Json
  | .complete value => value
  | .within stack =>
      match stack.getLast? with
      | some (.arrItem items) | some (.arrComma items) => .arr items.reverse
      | some (.objKey members _) | some (.objColon members _) | some (.objMember members)
      | some (.objComma members) => .obj members.reverse
      | _ => .null

end Reader

/-- What a text holds. -/
inductive Document where
  /-- The text is JSON. -/
  | whole (value : Json)
  /-- It is not; these parts of its outermost container come before the fault. -/
  | cut (beginning : Json)
  deriving Inhabited

/-- Reads a text. -/
def read (text : String) : Document :=
  let (tokens, sound) := lex text.toList
  match tokens.foldlM Reader.next (.within []) with
  | .ok (.complete value) => if sound then .whole value else .cut value
  | .ok r => .cut r.finished
  | .error r => .cut r.finished

/-- The value of a text that is JSON. -/
def read? (text : String) : Option Json :=
  match read text with
  | .whole value => some value
  | .cut _ => none

end ClosedWorld.Json
