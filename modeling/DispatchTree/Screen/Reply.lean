import DispatchTree.Tape.Symbol
import DispatchTree.Screen.Control

/-!
# Checksum replies and dispatch keys

A display that is asked for the checksum of one cell answers with the two's complement of the cell's character code in sixteen
bits. The two answers for the cells under the heads may arrive in either order, so a pair of symbols has two dispatch keys.
-/

namespace DispatchTree

/-- The upper-case hexadecimal digits of a number, at least four. -/
def hexUpper4 (n : Nat) : String :=
  let digits := String.ofList ((Nat.toDigits 16 n).map Char.toUpper)
  "".pushn '0' (4 - digits.length) ++ digits

/-- The checksum of a cell that holds a character. -/
def checksum (c : Char) : Nat := 0x10000 - c.toNat

/-- The reply under number `id` for a cell that holds a character. -/
def replyFor (id : Nat) (c : Char) : String :=
  String.singleton Control.escape ++ "P" ++ Nat.repr id ++ "!~" ++ hexUpper4 (checksum c) ++
    String.singleton Control.escape ++ "\\"

/-- The reply for the cell under a track's head. -/
def checksumReply (s : Symbol) (t : Track) : String := replyFor t.line s.toChar

/-- The dispatch key of a pair in which the first track's reply comes first. -/
def SymbolPair.forwardKey (p : SymbolPair) : String := checksumReply p.first .first ++ checksumReply p.second .second

/-- The dispatch key of a pair in which the second track's reply comes first. -/
def SymbolPair.reverseKey (p : SymbolPair) : String := checksumReply p.second .second ++ checksumReply p.first .first

/-- Both dispatch keys of a pair. -/
def SymbolPair.dispatchKeys (p : SymbolPair) : List String := [p.forwardKey, p.reverseKey]

end DispatchTree
