import DispatchTree.Digest.Blake3
import DispatchTree.Graph

/-!
# Fingerprints

The fingerprint of a graph on a display is the digest of everything that is written for it. Texts are preceded by their length and
lists by the number of their members, so that the bytes can be taken apart again.
-/

namespace DispatchTree

/-- A number in eight bytes, the most significant first. -/
def bytes64 (n : Nat) : List UInt8 := (List.range 8).map fun i => (n >>> (8 * (7 - i))).toUInt8

/-- The bytes of a text. -/
def utf8Bytes (s : String) : List UInt8 := s.toUTF8.toList

/-- The bytes of a text with its length in front. -/
def textBytes (s : String) : List UInt8 := bytes64 s.utf8ByteSize ++ utf8Bytes s

/-- The bytes of edges in the order of their keys. -/
def Edges.bytes (es : Edges) : List UInt8 :=
  bytes64 es.size ++ es.toList.flatMap fun (key, target) => textBytes key ++ textBytes (tag target)

/-- Lower-case hexadecimal digits of bytes, two for each. -/
def hexBytes (bs : List UInt8) : String :=
  String.ofList (bs.flatMap fun b => [Nat.digitChar (b.toNat / 16), Nat.digitChar (b.toNat % 16)])

/-- The bytes of a node on a display. -/
def Node.bytes (d : Display) (n : Node) : Except Underflow (List UInt8) := do
  let program ← n.program.render d
  return utf8Bytes "node:" ++ textBytes (tag n.id) ++ textBytes program ++ n.edges.bytes

namespace Graph

/-- The bytes of all nodes on a display. -/
def nodesBytes (d : Display) : List Node → Except Underflow (List UInt8)
  | [] => .ok []
  | n :: ns => do
    let one ← n.bytes d
    let rest ← nodesBytes d ns
    return one ++ rest

/-- Everything that is written for a graph on a display. -/
def bytes (g : Graph) (d : Display) : Except Underflow (List UInt8) := do
  let nodes ← nodesBytes d g.nodes
  return utf8Bytes "init:" ++ textBytes (encodeAll (d.initProgram g.prompt)) ++
    utf8Bytes "postinit:" ++ textBytes (encodeAll d.postInitProgram) ++
    utf8Bytes "root:" ++ g.rootEdges.bytes ++ bytes64 g.nodes.length ++ nodes

/-- The fingerprint of a graph on a display. -/
def fingerprint (g : Graph) (d : Display) : Except Underflow String :=
  (g.bytes d).map fun bs => hexBytes (Blake3.digest bs)

end Graph

end DispatchTree
