import DispatchTree.Document.Basic
import DispatchTree.Document.Json.Writer
import DispatchTree.Text.Quoted

/-!
# Reading records from a document

A consumer says which fields a record has and how each one is read. A record is written as a table, or as the list of its fields in
their order. The draft is walked from front to back, so that of several problems the one that stands first is reported: a field
that is unknown or given twice before its value is looked at, a field that is missing after everything else.
-/

namespace DispatchTree

/-- The two formats of descriptions. -/
inductive Format where
  | toml | json
  deriving DecidableEq, Repr

/-- How a description of a format shows numbers with a point: one format writes them all positionally, the other gives very large
and very small ones a power of ten. -/
def Format.style : Format → Binary64.Style
  | .toml => ⟨.up, none, true⟩
  | .json => Json.decimals

/-- What stands in a document where something else is expected. -/
inductive Found where
  | null
  | boolean (b : Bool)
  | integer (n : Int)
  | float (x : Binary64)
  | text (s : String)
  | list
  | table
  deriving DecidableEq, Repr

/-- Why a document does not have the expected shape. -/
inductive ShapeFault where
  | wrongKind (found : Found) (expected : String)
  | wrongLength (length : Nat) (expected : String)
  | missingField (name : String)
  | unknownField (name : String) (known : List String)
  | duplicateField (name : String)
  | unknownVariant (name : String) (known : List String)
  deriving DecidableEq, Repr

/-- Why a text cannot be read: it is malformed, or its shape is wrong. -/
inductive ReadFault where
  | malformed
  | shape (fault : ShapeFault)
  deriving DecidableEq, Repr

/-- A name between backticks. -/
def backticked (s : String) : String := "\x60" ++ s ++ "\x60"

/-- How the thing found is described. -/
def Found.described (format : Format) : Found → String
  | .null => "null"
  | .boolean b => "boolean " ++ backticked (if b then "true" else "false")
  | .integer n => "integer " ++ backticked (if n < 0 then "-" ++ Nat.repr n.natAbs else Nat.repr n.natAbs)
  | .float x => "floating point " ++ backticked (x.format format.style)
  | .text s => "string " ++ Text.quote s
  | .list => "sequence"
  | .table => "map"

/-- How a shape fault in a text of a format is reported. -/
def ShapeFault.message (format : Format) : ShapeFault → String
  | .wrongKind found expected => "invalid type: " ++ found.described format ++ ", expected " ++ expected
  | .wrongLength n expected => "invalid length " ++ Nat.repr n ++ ", expected " ++ expected
  | .missingField name => "missing field " ++ backticked name
  | .unknownField name known =>
    "unknown field " ++ backticked name ++ ", expected one of " ++ ", ".intercalate (known.map backticked)
  | .duplicateField name => "duplicate field " ++ backticked name
  | .unknownVariant name known =>
    "unknown variant " ++ backticked name ++ ", expected one of " ++ ", ".intercalate (known.map backticked)

/-- The result of reading. -/
abbrev Reading := Except ReadFault

namespace Draft

/-- The fault of a draft that is not what is expected. What the text fails to spell out is malformed. -/
def unexpected (d : Draft) (expected : String) : ReadFault :=
  match d with
  | .broken | .unreadable => .malformed
  | .null => .shape (.wrongKind .null expected)
  | .boolean b => .shape (.wrongKind (.boolean b) expected)
  | .integer n => .shape (.wrongKind (.integer n) expected)
  | .float x => .shape (.wrongKind (.float x) expected)
  | .string s => .shape (.wrongKind (.text s) expected)
  | .list _ _ => .shape (.wrongKind .list expected)
  | .table _ _ => .shape (.wrongKind .table expected)

/-- A text. -/
def readString : Draft → Reading String
  | .string s => .ok s
  | d => .error (d.unexpected "a string")

/-- Goes on only when a list or table was closed. -/
def whenClosed (closed : Bool) (a : α) : Reading α := if closed then .ok a else .error .malformed

/-- The members of a list, each read by `item`. -/
def readList (item : Draft → Reading α) : Draft → Reading (List α)
  | .list items closed => do whenClosed closed (← items.mapM item)
  | d => .error (d.unexpected "a sequence")

/-- One entry of a table of texts. -/
def readTextEntry : Option String × Draft → Reading (String × String)
  | (none, _) => .error .malformed
  | (some k, d) => d.readString.map (k, ·)

/-- The entries of a table of texts, in the order of the text. -/
def readTexts : Draft → Reading (List (String × String))
  | .table entries closed => do whenClosed closed (← entries.mapM readTextEntry)
  | d => .error (d.unexpected "a map")

/-- One of several named values: its name, or a table whose only entry has the name and no value. -/
def readVariant (known : List (String × α)) (expected : String) (d : Draft) : Reading α :=
  let find (name : String) : Reading α :=
    match known.lookup name with
    | some a => .ok a
    | none => .error (.shape (.unknownVariant name (known.map (·.1))))
  match d with
  | .string name => find name
  | .table ((some name, v) :: rest) closed => do
    let a ← find name
    match v with
    | .null => if rest.isEmpty then whenClosed closed a else .error .malformed
    | v => .error (v.unexpected "unit variant")
  | .table ((none, _) :: _) _ | .table [] _ => .error .malformed
  | d => .error (d.unexpected expected)

/-- A list of exactly two members. -/
def readTwo (item : Draft → Reading α) : Draft → Reading (α × α)
  | .list (a :: b :: rest) closed => do
    let a ← item a
    let b ← item b
    if rest.isEmpty then whenClosed closed (a, b) else .error .malformed
  | .list items closed => do
    let read ← items.mapM item
    whenClosed closed ()
    .error (.shape (.wrongLength read.length "an array of length 2"))
  | d => .error (d.unexpected "an array of length 2")

end Draft

/-- A field of a record that is gathered in a value of type `σ`. -/
structure Field (σ : Type) where
  name : String
  /-- Whether the field may not be left out. -/
  required : Bool
  /-- Reads the field's value and notes it. -/
  read : Draft → σ → Reading σ

/-- The shape of a record. -/
structure RecordShape (σ : Type) where
  name : String
  fields : List (Field σ)
  /-- Whether fields that the record does not have are passed over. -/
  lenient : Bool

namespace RecordShape

variable {σ : Type}

/-- The names of the fields in their order. -/
def names (shape : RecordShape σ) : List String := shape.fields.map Field.name

/-- The field of a name. -/
def find? (shape : RecordShape σ) (name : String) : Option (Field σ) := shape.fields.find? (·.name == name)

/-- One entry of a record that is written as a table; `seen` holds the names of the fields already given. -/
def readEntry (shape : RecordShape σ) (seen : List String) (value : σ) : Option String × Draft → Reading (List String × σ)
  | (none, _) => .error .malformed
  | (some name, d) =>
    match shape.find? name with
    | none =>
      if !shape.lenient then .error (.shape (.unknownField name shape.names))
      else if d.wellFormed then .ok (seen, value)
      else .error .malformed
    | some field =>
      if seen.contains name then .error (.shape (.duplicateField name))
      else (field.read d value).map (name :: seen, ·)

/-- The entries of a record that is written as a table. -/
def readEntries (shape : RecordShape σ) : List String → σ → List (Option String × Draft) → Reading (List String × σ)
  | seen, value, [] => .ok (seen, value)
  | seen, value, e :: es => do
    let (seen, value) ← shape.readEntry seen value e
    shape.readEntries seen value es

/-- The first required field that was not given. -/
def missing? (shape : RecordShape σ) (seen : List String) : Option String :=
  (shape.fields.find? fun f => f.required && !seen.contains f.name).map Field.name

/-- How the shape of a record with all its fields is described. -/
def described (shape : RecordShape σ) : String :=
  "struct " ++ shape.name ++ " with " ++ Nat.repr shape.fields.length ++ " elements"

/-- The fields of a record that is written as a list. A field without an item keeps its default unless it is required. Items beyond
the last field are passed over in one format and malformed in the other. -/
def readItems (shape : RecordShape σ) (format : Format) (closed : Bool) :
    Nat → List (Field σ) → List Draft → σ → Reading σ
  | _, [], [], value => Draft.whenClosed closed value
  | _, [], _ :: _, value => match format with
    | .toml => .ok value
    | .json => .error .malformed
  | index, field :: fields, [], value =>
    if !closed then .error .malformed
    else if field.required then .error (.shape (.wrongLength index shape.described))
    else shape.readItems format closed (index + 1) fields [] value
  | index, field :: fields, d :: ds, value => do
    let value ← field.read d value
    shape.readItems format closed (index + 1) fields ds value

/-- Reads a record, starting from `value`, in which no field has been given. -/
def read (shape : RecordShape σ) (format : Format) (value : σ) : Draft → Reading σ
  | .list items closed => shape.readItems format closed 0 shape.fields items value
  | .table entries closed => do
    let (seen, value) ← shape.readEntries [] value entries
    Draft.whenClosed closed ()
    match shape.missing? seen with
    | some name => .error (.shape (.missingField name))
    | none => .ok value
  | d => .error (d.unexpected ("struct " ++ shape.name))

end RecordShape

end DispatchTree
