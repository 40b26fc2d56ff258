import DispatchTree.Journal.Directive

/-!
# Filters

A filter consists of directives about events by themselves and of directives about spans. Of the former, the most specific one
that is about an event decides, and of two about the same the later one. Of the latter, each lets the events pass that happen
within a span it is about, unless a later one is about the same.

A span is entered only if some directive lets pass what is as important as a span, or asks for certain values; and of those spans
only the ones that a directive is about, that lie within a span it is about, or that would pass as events.
-/

namespace DispatchTree

/-- The level of all spans. -/
def Span.level : Level := .info

/-- Directives in the order in which they were given. -/
structure Filter where
  /-- The directives about events by themselves. -/
  statics : List Directive
  /-- The directives about spans. -/
  dynamics : List Directive
  deriving DecidableEq, Repr

namespace Filter

/-- The filter of a list of directives. A directive that names values but asks for no certain ones is about both. -/
def ofList (ds : List Directive) : Filter := ⟨ds.filter Directive.isStatic, ds.filter Directive.isDynamic⟩

/-- The filter with one more directive, which is about spans only if it cannot be about events. -/
def add (f : Filter) (d : Directive) : Filter :=
  if d.isStatic then { f with statics := f.statics ++ [d] } else { f with dynamics := f.dynamics ++ [d] }

/-- Of a directive that decided so far and the next one, the one that decides. -/
def prefer (best : Option Directive) (d : Directive) : Option Directive :=
  match best with
  | none => some d
  | some e => if e.atMost d then some d else some e

/-- The threshold by the directives about events of which a condition holds; without any nothing passes. -/
def thresholdBy (f : Filter) (about : Directive → Bool) : Threshold :=
  match (f.statics.filter about).foldl prefer none with
  | some d => d.threshold
  | none => none

/-- The threshold for an event by itself. -/
def threshold (f : Filter) (e : Event) : Threshold := f.thresholdBy (·.decides e.target e.valueNames)

/-- The directives of a list that no later one replaces. -/
def latest : List Directive → List Directive
  | [] => []
  | d :: ds => if ds.any d.sameScope then latest ds else d :: latest ds

/-- Whether spans are looked at. -/
def looksAtSpans (f : Filter) : Bool :=
  (f.statics ++ f.dynamics).any (·.threshold.passes Span.level) || f.dynamics.any (·.fields.any (·.value.isSome))

/-- Whether what is of a level passes within a span. -/
def passesWithin (f : Filter) (l : Level) (s : Span) : Bool :=
  (latest f.dynamics).any fun d => d.threshold.passes l && d.covers s

/-- Whether a span is entered that lies within others which were entered. -/
def enters (f : Filter) (outer : List Span) (s : Span) : Bool :=
  f.looksAtSpans && (f.dynamics.any (·.watches s) || outer.any (f.passesWithin Span.level) ||
    (f.thresholdBy (·.concerns s.target)).passes Span.level)

/-- The spans that are entered, of spans within each other and within others which were entered. -/
def entered (f : Filter) (outer : List Span) : List Span → List Span
  | [] => []
  | s :: ss => if f.enters outer s then s :: f.entered (outer ++ [s]) ss else f.entered outer ss

/-- Whether what happens passes. -/
def passes (f : Filter) (o : Occurrence) : Bool :=
  (f.threshold o.event).passes o.event.level || (f.entered [] o.spans).any (f.passesWithin o.event.level)

/-- The pieces of a list of directives. -/
def pieces (s : String) : List String := (s.splitToList (· == ',')).filter (!·.isEmpty)

/-- A filter from a list of directives, all of which must be well formed. An empty list gives a filter that lets nothing pass. -/
def parse (s : String) : Except DirectiveFault Filter := ((pieces s).mapM Directive.parse).map ofList

/-- The directives among pieces, and a note on each piece that is not one. -/
def sortPieces : List String → List Directive × List String
  | [] => ([], [])
  | p :: ps =>
    let (ds, notes) := sortPieces ps
    match Directive.parse p with
    | .ok d => (d :: ds, notes)
    | .error f => (ds, ("ignoring `" ++ p ++ "`: " ++ f.message) :: notes)

/-- The filter with one threshold for all events. -/
def uniform (t : Threshold) : Filter := ⟨[⟨none, none, [], t⟩], []⟩

/-- A filter from a list of directives, with notes on those that are passed over. If none is left, errors pass. -/
def parseLeniently (s : String) : Filter × List String :=
  let (ds, notes) := sortPieces (pieces s)
  (if ds.isEmpty then uniform (some .error) else ofList ds, notes)

end Filter

end DispatchTree
