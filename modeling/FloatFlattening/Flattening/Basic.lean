import FloatFlattening.Block.Basic
import FloatFlattening.Flattening.Directive
import FloatFlattening.Flattening.Reference
/-!
Flattening a document: blocks that have an image are exchanged for the float that shows it,
references follow, and numbering directives between the blocks go. The new text is put together
from passages in the order of the document.
-/

namespace FloatFlattening

/-- How a run ends without a result. -/
inductive Failure
  | fault (f : Fault)
  /-- A block to be replaced begins before the end of the one before it, or outside the text. -/
  | overlap
  deriving DecidableEq, Repr

instance : MonadLift (Except Fault) (Except Failure) where
  monadLift
    | .ok a => .ok a
    | .error f => .error (.fault f)

/-- The markup that takes the place of a block, which is given by its number. -/
structure Replacement where
  block : Nat
  markup : Text
  deriving DecidableEq, Repr

/-- A piece of the new document. -/
structure Passage where
  text : Text
  visits : List Visit
  directives : Nat
  deriving DecidableEq, Repr

instance : Append Passage where
  append p q := ⟨p.text ++ q.text, p.visits ++ q.visits, p.directives + q.directives⟩

structure Flattened where
  text : Text
  blocksReplaced : Nat
  references : Nat
  referencesExchanged : Nat
  directivesRemoved : Nat
  deriving DecidableEq, Repr

namespace Flattened

/-- The text of a span with its references exchanged. -/
def exchange (t : Text) (s : Span) (visit : Reference → Visit) (references : List Reference) : Text :=
  t.splice s.stop s.start <| references.map fun r => (r.span, (visit r).markup (t.slice r.span))

/-- A passage that stays, between blocks. -/
def gap (n : Numbering) (flattened : List Text) (t : Text) (s : Span) : Except Failure Passage := do
  if s.stop < s.start ∨ t.length < s.stop then throw .overlap
  let references ← (Reference.inSpan t s).complete t
  let visit (r : Reference) := Visit.of n flattened r.target r.line
  let text := exchange t s visit references
  return ⟨Directive.erase text, references.map visit, Directive.count text⟩

/-- A passage that takes the place of a block. A caption in it may hold references, which count as
being on the line of the block. -/
def replacement (n : Numbering) (flattened : List Text) (markup : Text) (line : Nat) :
    Except Failure Passage := do
  let references ← (Reference.all markup).complete markup
  let visit (r : Reference) := Visit.of n flattened r.target line
  return ⟨exchange markup ⟨0, markup.length⟩ visit references, references.map visit, 0⟩

/-- The new text from `last` on, with the given blocks still to come. -/
def passage (n : Numbering) (flattened : List Text) (t : Text) :
    (last : Nat) → List (Block × Text) → Except Failure Passage
  | last, [] => gap n flattened t ⟨last, t.length⟩
  | last, (b, markup) :: rest => do
    let before ← gap n flattened t ⟨last, b.span.start⟩
    let here ← replacement n flattened markup b.line
    let after ← passage n flattened t b.span.stop rest
    return before ++ here ++ after

/-- The blocks to replace, in the order of the document; a number without a block counts for
nothing. -/
def chosen (blocks : List Block) (images : List Replacement) : List (Block × Text) :=
  (images.filterMap fun r => (blocks[r.block]?).map (·, r.markup)).mergeSort
    fun a b => a.1.span.start ≤ b.1.span.start

/-- References to undefined labels are reported together once the whole document is read. -/
def ofText (t : Text) (n : Numbering) (blocks : List Block) (images : List Replacement) :
    Except Failure Flattened := do
  let chosen := chosen blocks images
  let flattened := chosen.filterMap fun (b, _) => b.name.id?
  let p ← passage n flattened t 0 chosen
  match Dangling.firsts (p.visits.filterMap Visit.dangling?) with
  | [] =>
    return {
      text := p.text, blocksReplaced := chosen.length, references := p.visits.length
      referencesExchanged := p.visits.countP Visit.isExchanged, directivesRemoved := p.directives }
  | undefined => throw (.fault (.undefinedReferences undefined))

end Flattened

end FloatFlattening
