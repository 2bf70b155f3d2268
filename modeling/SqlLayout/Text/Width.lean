import SqlLayout.Text.Combining

/-!
# Display Width

How texts look on a terminal. A character that would act on the terminal instead of being drawn is
replaced by a picture of it, and a text takes as many columns as what it is replaced by.
-/

namespace SqlLayout.Text

/-- The characters whose East Asian width is wide or full. -/
def wideRanges : List (Nat × Nat) :=
  [(0x1100, 0x115f), (0x231a, 0x231b), (0x2329, 0x232a), (0x23e9, 0x23ec), (0x23f0, 0x23f0),
   (0x23f3, 0x23f3), (0x25fd, 0x25fe), (0x2614, 0x2615), (0x2648, 0x2653), (0x267f, 0x267f),
   (0x2693, 0x2693), (0x26a1, 0x26a1), (0x26aa, 0x26ab), (0x26bd, 0x26be), (0x26c4, 0x26c5),
   (0x26ce, 0x26ce), (0x26d4, 0x26d4), (0x26ea, 0x26ea), (0x26f2, 0x26f3), (0x26f5, 0x26f5),
   (0x26fa, 0x26fa), (0x26fd, 0x26fd), (0x2705, 0x2705), (0x270a, 0x270b), (0x2728, 0x2728),
   (0x274c, 0x274c), (0x274e, 0x274e), (0x2753, 0x2755), (0x2757, 0x2757), (0x2795, 0x2797),
   (0x27b0, 0x27b0), (0x27bf, 0x27bf), (0x2b1b, 0x2b1c), (0x2b50, 0x2b50), (0x2b55, 0x2b55),
   (0x2e80, 0x303e), (0x3041, 0x3247), (0x3250, 0x4dbf), (0x4e00, 0xa4c6), (0xa960, 0xa97c),
   (0xac00, 0xd7a3), (0xf900, 0xfad9), (0xfe10, 0xfe19), (0xfe30, 0xfe6b), (0xff01, 0xff60),
   (0xffe0, 0xffe6), (0x16fe0, 0x1b2fb), (0x1f004, 0x1f004), (0x1f0cf, 0x1f0cf),
   (0x1f18e, 0x1f18e), (0x1f191, 0x1f19a), (0x1f200, 0x1f320), (0x1f32d, 0x1f335),
   (0x1f337, 0x1f37c), (0x1f37e, 0x1f393), (0x1f3a0, 0x1f3ca), (0x1f3cf, 0x1f3d3),
   (0x1f3e0, 0x1f3f0), (0x1f3f4, 0x1f3f4), (0x1f3f8, 0x1f43e), (0x1f440, 0x1f440),
   (0x1f442, 0x1f4fc), (0x1f4ff, 0x1f53d), (0x1f54b, 0x1f54e), (0x1f550, 0x1f567),
   (0x1f57a, 0x1f57a), (0x1f595, 0x1f596), (0x1f5a4, 0x1f5a4), (0x1f5fb, 0x1f64f),
   (0x1f680, 0x1f6c5), (0x1f6cc, 0x1f6cc), (0x1f6d0, 0x1f6d2), (0x1f6d5, 0x1f6df),
   (0x1f6eb, 0x1f6ec), (0x1f6f4, 0x1f6fc), (0x1f7e0, 0x1f7f0), (0x1f90c, 0x1f93a),
   (0x1f93c, 0x1f945), (0x1f947, 0x1f9ff), (0x1fa70, 0x1faf6), (0x20000, 0x3fffd)]

/-- The blanks a tab is replaced by. -/
def tabWidth : Nat := 4

/-- Whether a character changes the direction of the text after it. -/
def isDirectional (c : Char) : Bool :=
  inRanges c.toNat [(0x202a, 0x202e), (0x2066, 0x2069)]

/-- What is drawn in the place of a character that would act on the terminal. A joiner leaves nothing,
so the characters around it stay apart. -/
def picture? (c : Char) : Option (List Char) :=
  if c = '\t' then some (List.replicate tabWidth ' ')
  else if c = '\n' then none
  else if c.toNat < 0x20 then some [Char.ofNat (0x2400 + c.toNat)]
  else if c = '\x7f' then some ['\u2421']
  else if c = '\u200d' then some []
  else if isDirectional c then some ['\ufffd']
  else none

/-- A text with pictures for the characters that have one. -/
def pictured (cs : List Char) : List Char :=
  cs.flatMap fun c => (picture? c).getD [c]

/-- How many columns a character takes. -/
def charWidth (c : Char) : Nat :=
  match picture? c with
  | some picture => picture.length
  | none => if isCombining c then 0 else if inRanges c.toNat wideRanges then 2 else 1

def displayWidth : List Char → Nat
  | [] => 0
  | c :: cs => charWidth c + displayWidth cs

/-- Drops the characters that start in the first `columns` columns. -/
def dropColumns (columns : Nat) : List Char → List Char
  | [] => []
  | c :: cs => if columns = 0 then c :: cs else dropColumns (columns - charWidth c) cs

/-- The characters that end within the first `columns` columns. -/
def takeColumns (columns : Nat) : List Char → List Char
  | [] => []
  | c :: cs => if charWidth c ≤ columns then c :: takeColumns (columns - charWidth c) cs else []

theorem displayWidth_append (cs ds : List Char) :
    displayWidth (cs ++ ds) = displayWidth cs + displayWidth ds := by
  induction cs with
  | nil => simp [displayWidth]
  | cons c cs ih => rw [List.cons_append, displayWidth, displayWidth, ih, Nat.add_assoc]

theorem displayWidth_dropColumns_le (columns : Nat) (cs : List Char) :
    displayWidth (dropColumns columns cs) ≤ displayWidth cs := by
  induction cs generalizing columns with
  | nil => exact Nat.le_refl _
  | cons c cs ih =>
    have hcons : displayWidth (c :: cs) = charWidth c + displayWidth cs := by simp [displayWidth]
    rw [dropColumns]
    split
    · exact Nat.le_refl _
    · have := ih (columns - charWidth c)
      omega

theorem displayWidth_takeColumns_le (columns : Nat) (cs : List Char) :
    displayWidth (takeColumns columns cs) ≤ columns := by
  induction cs generalizing columns with
  | nil => exact Nat.zero_le _
  | cons c cs ih =>
    rw [takeColumns]
    split
    · have hcons : displayWidth (c :: takeColumns (columns - charWidth c) cs)
          = charWidth c + displayWidth (takeColumns (columns - charWidth c) cs) := by
        simp [displayWidth]
      have := ih (columns - charWidth c)
      omega
    · exact Nat.zero_le _

theorem displayWidth_picture {c : Char} {picture : List Char} (h : picture? c = some picture) :
    displayWidth picture = picture.length := by
  have hcontrol : ∀ code < 0x20, displayWidth [Char.ofNat (0x2400 + code)] = 1 := by decide +kernel
  unfold picture? at h
  split at h
  · cases h
    decide +kernel
  · split at h
    · cases h
    · split at h
      · rename_i hlow
        cases h
        exact hcontrol _ hlow
      · split at h
        · cases h
          decide +kernel
        · split at h
          · cases h
            decide +kernel
          · split at h
            · cases h
              decide +kernel
            · cases h

theorem displayWidth_pictured (cs : List Char) : displayWidth (pictured cs) = displayWidth cs := by
  induction cs with
  | nil => rfl
  | cons c cs ih =>
    have hone : displayWidth ((picture? c).getD [c]) = charWidth c := by
      cases h : picture? c with
      | none => simp [displayWidth]
      | some picture => simpa [charWidth, h] using displayWidth_picture h
    have hcons : pictured (c :: cs) = (picture? c).getD [c] ++ pictured cs := by simp [pictured]
    rw [hcons, displayWidth_append, hone, ih]
    simp [displayWidth]

end SqlLayout.Text
