import DispatchTree.Proofs.Fingerprint.Reading
import DispatchTree.Proofs.Files.Build

/-!
# The image of a graph

What is written for a graph depends on less than the graph: not on the names of states, and on the programs and the display only
through the texts they give. The image of a graph on a display is what is left. The bytes of a fingerprint are a function of the
image (`Graph.bytes_eq`), the image is read back from them (`Image.bytes_injective`), and the entries of the tree are a function of
the image as well (`Graph.items_eq`).
-/

namespace DispatchTree

/-- What is written for a node. -/
structure NodeImage where
  id : Nat
  text : String
  edges : Edges

/-- What is written for a graph. -/
structure Image where
  init : String
  postInit : String
  rootEdges : Edges
  nodes : List NodeImage

/-! ## Bytes -/

def NodeImage.bytes (n : NodeImage) : List UInt8 :=
  utf8Bytes "node:" ++ textBytes (tag n.id) ++ textBytes n.text ++ n.edges.bytes

def Image.bytes (i : Image) : List UInt8 :=
  utf8Bytes "init:" ++ textBytes i.init ++ utf8Bytes "postinit:" ++ textBytes i.postInit ++
    utf8Bytes "root:" ++ i.rootEdges.bytes ++ bytes64 i.nodes.length ++ i.nodes.flatMap NodeImage.bytes

/-- The lengths that stand before the parts of a node fit in eight bytes each. -/
structure NodeImage.FitsLengths (n : NodeImage) : Prop where
  tag : FitsLength (tag n.id)
  text : FitsLength n.text
  edges : n.edges.FitsLengths

/-- All lengths that stand in the bytes of an image fit in eight bytes each. -/
structure Image.FitsLengths (i : Image) : Prop where
  init : FitsLength i.init
  postInit : FitsLength i.postInit
  rootEdges : i.rootEdges.FitsLengths
  count : i.nodes.length < 2 ^ 64
  nodes : ∀ n ∈ i.nodes, n.FitsLengths

/-- A node is read back from its bytes. -/
theorem reads_node : Reads NodeImage.bytes NodeImage.FitsLengths := by
  intro n n' rest rest' hn hn' h
  simp only [NodeImage.bytes, List.append_assoc, List.append_cancel_left_eq] at h
  obtain ⟨hid, h⟩ := reads_tag _ _ _ _ hn.tag hn'.tag h
  obtain ⟨htext, h⟩ := reads_textBytes _ _ _ _ hn.text hn'.text h
  obtain ⟨hedges, hrest⟩ := reads_edges _ _ _ _ hn.edges hn'.edges h
  refine ⟨?_, hrest⟩
  cases n
  cases n'
  rw [NodeImage.mk.injEq]
  exact ⟨hid, htext, hedges⟩

/-- An image is read back from its bytes. -/
theorem Image.bytes_injective {i j : Image} (hi : i.FitsLengths) (hj : j.FitsLengths) (h : i.bytes = j.bytes) : i = j := by
  simp only [Image.bytes, List.append_assoc, List.append_cancel_left_eq] at h
  obtain ⟨hinit, h⟩ := reads_textBytes _ _ _ _ hi.init hj.init h
  rw [List.append_cancel_left_eq] at h
  obtain ⟨hpost, h⟩ := reads_textBytes _ _ _ _ hi.postInit hj.postInit h
  rw [List.append_cancel_left_eq] at h
  obtain ⟨hroot, h⟩ := reads_edges _ _ _ _ hi.rootEdges hj.rootEdges h
  -- nothing follows the nodes
  rw [← List.append_nil (bytes64 i.nodes.length ++ _), ← List.append_nil (bytes64 j.nodes.length ++ _)] at h
  obtain ⟨hnodes, -⟩ := reads_node.counted _ _ _ _ ⟨hi.count, hi.nodes⟩ ⟨hj.count, hj.nodes⟩ h
  cases i
  cases j
  rw [Image.mk.injEq]
  exact ⟨hinit, hpost, hroot, hnodes⟩

/-! ## Entries -/

def NodeImage.items (n : NodeImage) : List (Location × Entry) :=
  [([tag n.id], .directory), ([tag n.id, Graph.executeFile], .file n.text.toUTF8)]

/-- What is written before the links, if the nodes are those given. -/
def Image.programs (i : Image) (nodes : List NodeImage) : List (Location × Entry) :=
  [([Graph.initFile], .file i.init.toUTF8), ([Graph.postInitFile], .file i.postInit.toUTF8)] ++ nodes.flatMap NodeImage.items

/-- All entries of an image. -/
def Image.items (i : Image) : List (Location × Entry) :=
  i.programs i.nodes ++ i.nodes.flatMap (fun n => Graph.linkItems [tag n.id] n.edges true) ++ Graph.linkItems [] i.rootEdges false

namespace Graph

variable {g : Graph} {d : Display}

def nodeImage (d : Display) (n : Node) : NodeImage := ⟨n.id, textOf d n.program, n.edges⟩

/-- What is written for a graph on a display. -/
def image (g : Graph) (d : Display) : Image :=
  ⟨encodeAll (d.initProgram g.prompt), encodeAll d.postInitProgram, g.rootEdges, g.nodes.map (nodeImage d)⟩

/-- The bytes of nodes are those of their images. -/
theorem nodesBytes_eq (hd : 0 < d.columns) (nodes : List Node) :
    nodesBytes d nodes = .ok ((nodes.map (nodeImage d)).flatMap NodeImage.bytes) := by
  induction nodes with
  | nil => rfl
  | cons n nodes ih =>
    simp only [nodesBytes, Node.bytes, render_eq hd, ih, bind, Except.bind, pure, Except.pure]
    rfl

/-- The bytes of a fingerprint are those of the image. -/
theorem bytes_eq (hd : 0 < d.columns) (g : Graph) : g.bytes d = .ok (g.image d).bytes := by
  simp only [bytes, nodesBytes_eq hd, bind, Except.bind, pure, Except.pure, Image.bytes, image, List.length_map]

/-- The programs of an image are those of the graph. -/
theorem image_programs (g : Graph) (d : Display) (nodes : List Node) :
    (g.image d).programs (nodes.map (nodeImage d)) = g.programItems d nodes := by
  rw [Image.programs, List.flatMap_map]
  rfl

/-- The entries of a graph's tree are those of the image. -/
theorem items_eq (g : Graph) (d : Display) : g.items d = (g.image d).items := by
  rw [items_eq_append, ← image_programs, Image.items]
  simp only [image, List.flatMap_map]
  rfl

end Graph

end DispatchTree
