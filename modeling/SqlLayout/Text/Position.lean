/-!
# Positions in a Source

Offsets count bytes of the UTF-8 encoding; lines and columns count from one, and columns count
characters. An offset beyond the end stands for the end, and one that falls inside a character for the
end as well.
-/

namespace SqlLayout

/-- A half-open range of byte offsets. -/
structure Span where
  start : Nat
  stop : Nat
deriving DecidableEq, Inhabited

def Span.isEmpty (span : Span) : Bool :=
  span.start == span.stop

namespace Text

/-- The number of bytes of some characters. -/
def byteSize : List Char → Nat
  | [] => 0
  | c :: cs => c.utf8Size + byteSize cs

/-- The characters that make up the first `count` bytes, unless the cut falls inside a character or
beyond the end. -/
def takeBytes? (count : Nat) : List Char → Option (List Char)
  | [] => if count = 0 then some [] else none
  | c :: cs =>
    if count = 0 then some []
    else if c.utf8Size ≤ count then (takeBytes? (count - c.utf8Size) cs).map (c :: ·)
    else none

/-- The characters before a byte offset. -/
def before (source : List Char) (offset : Nat) : List Char :=
  (takeBytes? offset source).getD source

/-- The characters after the last newline. -/
def lastLine (cs : List Char) : List Char :=
  (cs.reverse.takeWhile (· ≠ '\n')).reverse

/-- Line and column of the end of some characters. -/
def endPosition (cs : List Char) : Nat × Nat :=
  (cs.count '\n' + 1, (lastLine cs).length + 1)

/-- Line and column of a byte offset. -/
def position (source : String) (offset : Nat) : Nat × Nat :=
  endPosition (before source.toList offset)

theorem byteSize_append (cs ds : List Char) : byteSize (cs ++ ds) = byteSize cs + byteSize ds := by
  induction cs with
  | nil => simp [byteSize]
  | cons c cs ih => rw [List.cons_append, byteSize, byteSize, ih, Nat.add_assoc]

theorem takeBytes?_byteSize (cs ds : List Char) : takeBytes? (byteSize cs) (cs ++ ds) = some cs := by
  induction cs with
  | nil => cases ds <;> simp [takeBytes?, byteSize]
  | cons c cs ih =>
    have hc : 0 < c.utf8Size := c.utf8Size_pos
    have hne : c.utf8Size + byteSize cs ≠ 0 := by omega
    rw [byteSize, List.cons_append, takeBytes?, if_neg hne, if_pos (by omega),
      Nat.add_sub_cancel_left, ih]
    rfl

theorem byteSize_toList (text : String) : byteSize text.toList = text.utf8ByteSize := by
  have hofList (cs : List Char) : byteSize cs = (String.ofList cs).utf8ByteSize := by
    induction cs with
    | nil => simp [byteSize]
    | cons c cs ih =>
      have hcons : String.ofList (c :: cs) = String.singleton c ++ String.ofList cs := by
        rw [← String.toList_inj]
        simp
      rw [hcons, String.utf8ByteSize_append, String.utf8ByteSize_singleton, byteSize, ih]
  rw [hofList, String.ofList_toList]

end Text

end SqlLayout
