import Deparse.Literal.Quoted
import Deparse.Value.Basic

/-!
# Literal bodies given in pieces

Where the body of a literal is expected a tree may hold a sequence of texts, and then each of them
plays the part of one character: a piece of one code point is escaped like that code point, and a
longer piece is copied if all of it is printable.  `Value.escapedBody` escapes whatever stands in
that place or names the first thing that is wrong with it.  A text is escaped as by
`Literal.escape`.
-/

namespace Deparse

/-- What is wrong with a value whose pieces are to be escaped. -/
inductive BodyFault where
  /-- It has no pieces at all, for instance because it is a number. -/
  | noPieces
  /-- A piece is not a text. -/
  | pieceNotText
  /-- A piece is not a text and holds an array or object, so that it cannot be looked up among the
  escapes either. -/
  | pieceNotComparable
  /-- A piece of several code points is not printable throughout. -/
  | pieceTooLong
  /-- The piece after a `#` is not a text. -/
  | followerNotText
  /-- The pieces are the keys of an object, and the one after a `#` cannot be asked for. -/
  | followerUnknown
deriving DecidableEq

namespace Value

mutual

/-- Whether a value holds no array and no object. -/
def isComparable : Value → Bool
  | array _ => false
  | object _ => false
  | seq xs => areComparable xs
  | node _ cs _ _ => areComparable cs
  | _ => true

/-- Whether none of the values holds an array or object. -/
def areComparable : List Value → Bool
  | [] => true
  | v :: vs => isComparable v && areComparable vs

end

/-- Whether `t` is a run of neighbours in the given text. -/
def occursIn (t : Text) : Text → Bool
  | [] => t.isEmpty
  | c :: u => t.isPrefixOf (c :: u) || occursIn t u

/-- Whether the piece after a `#` makes it open an interpolation: it does if it occurs in the
run of characters that do. -/
def followerOpensSplice : Value → Except BodyFault Bool
  | str t => .ok (occursIn t Literal.spliceOpeners)
  | _ => .error .followerNotText

/-- One piece escaped, given what the piece after it, if any, says about an interpolation. -/
def escapedPiece (opens : Except BodyFault Bool) : Value → Except BodyFault Text
  | str [c] =>
    if c = '#' then opens.map fun yes => if yes then ("\\#" : Text) else [c]
    else .ok (Literal.escapedPoint c)
  | str t => if t.all CodePoint.isPrintable then .ok t else .error .pieceTooLong
  | v => .error (if v.isComparable then .pieceNotText else .pieceNotComparable)

/-- The pieces escaped one after the other; `opens` judges the piece after a `#`. -/
def escapedPieces (opens : Value → Except BodyFault Bool) : List Value → Except BodyFault Text
  | [] => .ok []
  | v :: vs => do
    let follower := match vs with
      | [] => .ok false
      | w :: _ => opens w
    let t ← escapedPiece follower v
    let rest ← escapedPieces opens vs
    return t ++ rest

/-- The body of a literal from the value that stands for it. -/
def escapedBody : Value → Except BodyFault Text
  | str t => .ok (Literal.escape t)
  | seq xs => escapedPieces followerOpensSplice xs
  | array xs => escapedPieces followerOpensSplice xs
  | bytes bs => escapedPieces followerOpensSplice (bs.map fun b => int b.toNat)
  | object ms => escapedPieces (fun _ => .error .followerUnknown) (ms.map fun m => str m.1)
  | _ => .error .noPieces

end Value

end Deparse
