/-!
# Stretches of a text

Places in a text are counted in bytes of its UTF-8 encoding.
-/

set_option autoImplicit false

namespace ExprImports

/-- A stretch of a text: where it begins and how long it is. -/
structure Span where
  offset : Nat
  length : Nat
  deriving DecidableEq, Inhabited

namespace Span

/-- Where the stretch ends. -/
def stop (span : Span) : Nat :=
  span.offset + span.length

/-- The smallest stretch that covers two. -/
def cover (first second : Span) : Span :=
  let offset := min first.offset second.offset
  ⟨offset, max first.stop second.stop - offset⟩

end Span

/-- The number of bytes that characters take. -/
def byteLength : List Char → Nat
  | [] => 0
  | c :: rest => c.utf8Size + byteLength rest

@[simp] theorem byteLength_append (first second : List Char) :
    byteLength (first ++ second) = byteLength first + byteLength second := by
  induction first with
  | nil => simp [byteLength]
  | cons c rest ih => simp [byteLength, ih, Nat.add_assoc]

end ExprImports
